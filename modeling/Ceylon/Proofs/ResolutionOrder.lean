import Ceylon.Proofs.Resolving

/-!
# Resolving units in different orders

Resolving a unit changes its own share of the state: the types and targets recorded at its nodes, its
diagnostics and imports, and the declarations that it makes (`Touches`).  What it writes there depends on
what has been bound, on its own share, and, for unions of types, on the supertypes that other units have set
by then (`perform_agree`).  So two orders of resolving units can differ in the types of unions and of
optional types, and in nothing else: if they give these the same types, they lead to the same state.
-/

namespace Ceylon.Analysis

open Model
open Syntax

/-! ## What resolving leaves alone -/

namespace State

/-- The state without all that resolving names may change in it. -/
def fixed (s : State) : State :=
  { s with
    graph := { s.graph with decls := s.graph.decls.map Declaration.bound }
    units := s.units.map UnitState.bound
    types := { s.types with refs := {} }
    targets := {}
    log := #[] }

/-- Every declaration stands in the table at a node of the unit that declares it, and a number tells which node of a
unit it is. -/
structure Owned (s : State) : Prop where
  declared : ∀ (k : NodeId) (d : DeclId), s.decls[k]? = some d → (s.graph.decl d).unit = some k.unit
  numbered : ∀ u, (s.unit u).tree.Numbered

end State

/-- What has been forgotten cannot be forgotten again. -/
theorem bound_bound (s : Shape) : s.bound.bound = s.bound := by
  cases s <;> rfl

@[simp] theorem declaration_bound_bound (d : Declaration) : d.bound.bound = d.bound := by
  simp [Declaration.bound, bound_bound]

@[simp] theorem unitState_bound_bound (u : UnitState) : u.bound.bound = u.bound := rfl

namespace State

/-- What has been bound does not change when names are resolved. -/
theorem bound_fixed (s : State) : s.fixed.bound = s.bound := by
  simp only [fixed, bound, Graph.bound, Array.map_map]
  congr 2
  · congr 1
    funext d
    exact declaration_bound_bound d

/-- Where all that resolving leaves alone is the same, so is what it depends on. -/
theorem bound_eq_of_fixed {s t : State} (h : s.fixed = t.fixed) : s.bound = t.bound := by
  rw [← bound_fixed s, ← bound_fixed t, h]

/-- Declarations of what resolving leaves alone. -/
theorem decl_fixed (s : State) (d : DeclId) : s.fixed.graph.decl d = (s.graph.decl d).bound := by
  simp only [fixed, Graph.decl, Array.getD_eq_getD_getElem?, Array.getElem?_map]
  cases s.graph.decls[d.index]? <;> rfl

/-- The unit of a declaration does not change when names are resolved. -/
theorem declUnit_eq_of_fixed {s t : State} (h : s.fixed = t.fixed) (d : DeclId) :
    (s.graph.decl d).unit = (t.graph.decl d).unit := by
  have hd : (s.graph.decl d).bound = (t.graph.decl d).bound := by
    rw [← decl_fixed, ← decl_fixed, h]
  change (s.graph.decl d).bound.unit = (t.graph.decl d).bound.unit
  rw [hd]

/-- Resolving adds no unit and takes none away. -/
theorem units_size_of_fixed {s t : State} (h : s.fixed = t.fixed) :
    s.units.size = t.units.size := by
  have hsize : s.fixed.units.size = t.fixed.units.size := by rw [h]
  simpa [fixed] using hsize

/-- Resolving adds no declaration and takes none away. -/
theorem decls_size_of_fixed {s t : State} (h : s.fixed = t.fixed) :
    s.graph.decls.size = t.graph.decls.size := by
  have hsize : s.fixed.graph.decls.size = t.fixed.graph.decls.size := by rw [h]
  simpa [fixed] using hsize

/-- Resolving leaves alone which nodes are declared. -/
theorem decls_eq_of_fixed {s t : State} (h : s.fixed = t.fixed) : s.decls = t.decls := by
  change s.fixed.decls = t.fixed.decls
  rw [h]

/-- Units of what resolving leaves alone. -/
theorem unit_fixed (s : State) (u : UnitId) : s.fixed.unit u = (s.unit u).bound := by
  simp only [fixed, unit, Array.getD_eq_getD_getElem?, Array.getElem?_map]
  cases s.units[u.index]? <;> rfl

/-- Resolving leaves the trees of units alone. -/
theorem tree_eq_of_fixed {s t : State} (h : s.fixed = t.fixed) (u : UnitId) : (s.unit u).tree = (t.unit u).tree := by
  change (s.unit u).bound.tree = (t.unit u).bound.tree
  rw [← unit_fixed, ← unit_fixed, h]

/-- Ownership depends on what resolving leaves alone. -/
theorem Owned.of_fixed {s t : State} (hs : s.Owned) (h : t.fixed = s.fixed) : t.Owned where
  declared k d hk := by
    rw [declUnit_eq_of_fixed h]
    rw [decls_eq_of_fixed h] at hk
    exact hs.declared k d hk
  numbered u := by
    rw [tree_eq_of_fixed h]
    exact hs.numbered u

end State

/-! ## The share of a unit -/

/-- From the first state to the second, nothing has changed but the share of one unit, and references that had types
have types. -/
structure Touches (u : UnitId) (s s' : State) : Prop where
  fixed : s'.fixed = s.fixed
  refs : ∀ k : NodeId, k.unit ≠ u → s'.types.refs[k]? = s.types.refs[k]?
  known : ∀ k : NodeId, s.types.refs[k]?.isSome = true → s'.types.refs[k]?.isSome = true
  targets : ∀ k : NodeId, k.unit ≠ u → s'.targets[k]? = s.targets[k]?
  unit : ∀ v, v ≠ u → s'.unit v = s.unit v
  decl : ∀ d, (s.graph.decl d).unit ≠ some u → s'.graph.decl d = s.graph.decl d

namespace Touches

variable {u : UnitId} {s s' s'' : State}

/-- A state touches nothing of itself. -/
theorem refl (u : UnitId) (s : State) : Touches u s s :=
  ⟨rfl, fun _ _ => rfl, fun _ h => h, fun _ _ => rfl, fun _ _ => rfl, fun _ _ => rfl⟩

/-- What two steps touch they touch together. -/
theorem trans (h : Touches u s s') (h' : Touches u s' s'') : Touches u s s'' where
  fixed := h'.fixed.trans h.fixed
  refs k hk := (h'.refs k hk).trans (h.refs k hk)
  known k hk := h'.known k (h.known k hk)
  targets k hk := (h'.targets k hk).trans (h.targets k hk)
  unit v hv := (h'.unit v hv).trans (h.unit v hv)
  decl d hd := by
    have hd' : (s'.graph.decl d).unit ≠ some u := by
      rwa [State.declUnit_eq_of_fixed h.fixed]
    exact (h'.decl d hd').trans (h.decl d hd)

end Touches

/-- Two states agree on the share of a unit. -/
structure Agree (u : UnitId) (s t : State) : Prop where
  refs : ∀ k : NodeId, k.unit = u → s.types.refs[k]? = t.types.refs[k]?
  targets : ∀ k : NodeId, k.unit = u → s.targets[k]? = t.targets[k]?
  unit : s.unit u = t.unit u
  decl : ∀ d, (s.graph.decl d).unit = some u → s.graph.decl d = t.graph.decl d

namespace Agree

variable {u v : UnitId} {s t r : State}

/-- A state agrees with itself. -/
theorem refl (u : UnitId) (s : State) : Agree u s s :=
  ⟨fun _ _ => rfl, fun _ _ => rfl, rfl, fun _ _ => rfl⟩

/-- Agreement about a unit goes both ways. -/
theorem symm (h : Agree u s t) (hf : s.fixed = t.fixed) : Agree u t s where
  refs k hk := (h.refs k hk).symm
  targets k hk := (h.targets k hk).symm
  unit := h.unit.symm
  decl d hd := (h.decl d (by rwa [State.declUnit_eq_of_fixed hf])).symm

/-- Agreement about a unit can be chained. -/
theorem trans (h : Agree u s t) (h' : Agree u t r) (hf : s.fixed = t.fixed) : Agree u s r where
  refs k hk := (h.refs k hk).trans (h'.refs k hk)
  targets k hk := (h.targets k hk).trans (h'.targets k hk)
  unit := h.unit.trans h'.unit
  decl d hd := (h.decl d hd).trans (h'.decl d (by rwa [← State.declUnit_eq_of_fixed hf]))

/-- Changing the share of one unit leaves the states in agreement on the others. -/
theorem of_touches (h : Touches v s t) (hu : u ≠ v) : Agree u s t where
  refs k hk := (h.refs k (by rwa [hk])).symm
  targets k hk := (h.targets k (by rwa [hk])).symm
  unit := (h.unit u hu).symm
  decl d hd := (h.decl d (by rw [hd]; exact fun e => hu (Option.some.inj e))).symm

end Agree

/-! ## One step -/

section Steps

variable {u : UnitId} {s t : State}

/-- Recording the type of a reference of a unit. -/
theorem touches_recordRef (u : UnitId) (i : Nat) (ty : Ty) (s : State) :
    Touches u s (s.recordRef ⟨u, i⟩ ty) where
  fixed := rfl
  refs k hk := getElem?_insert_of_ne (by rintro rfl; exact hk rfl)
  known k hk := by
    by_cases hself : ⟨u, i⟩ = k
    · subst hself
      simp [State.recordRef]
    · rwa [State.recordRef, getElem?_insert_of_ne hself]
  targets _ _ := rfl
  unit _ _ := rfl
  decl _ _ := rfl

/-- Setting a target touches a node of the unit only. -/
theorem touches_setTarget (u : UnitId) (m : Mark) (d : DeclId) (s : State) :
    Touches u s (setTarget u m d s).2 where
  fixed := rfl
  refs _ _ := rfl
  known _ hk := hk
  targets k hk := getElem?_insert_of_ne (by rintro rfl; exact hk rfl)
  unit _ _ := rfl
  decl _ _ := rfl

/-- Changing a unit, but for its tree and where it belongs. -/
theorem touches_modifyUnit (u : UnitId) {f : UnitState → UnitState}
    (hf : ∀ unit, (f unit).bound = unit.bound) (s : State) :
    Touches u s (modifyUnit u f s).2 where
  fixed := by
    simp only [modifyUnit, modify, modifyGet, MonadStateOf.modifyGet, StateT.modifyGet, pure,
      State.fixed]
    congr 1
    refine Array.ext_getElem? fun i => ?_
    simp only [Array.getElem?_map, Array.getElem?_modify]
    split
    · cases s.units[i]? <;> simp [hf]
    · rfl
  refs _ _ := rfl
  known _ hk := hk
  targets _ _ := rfl
  unit v hv := by
    have := s.unit_modify u v f
    rw [if_neg fun h => hv h.1.symm] at this
    exact this
  decl _ _ := rfl

/-- Changing a declaration of a unit, but for what binding gave it. -/
theorem touches_modifyDeclOf (hs : s.Owned) (u : UnitId) (m : Mark) {f : Shape → Shape}
    (hf : ∀ shape, (f shape).bound = shape.bound) :
    Touches u s (Resolution.modifyDeclOf u m f s).2 := by
  simp only [Resolution.modifyDeclOf, modify, modifyGet, MonadStateOf.modifyGet,
    StateT.modifyGet, pure]
  split
  · exact Touches.refl u s
  · next d hd =>
    refine ⟨?_, fun _ _ => rfl, fun _ h => h, fun _ _ => rfl, fun _ _ => rfl, ?_⟩
    · simp only [State.fixed, Graph.modifyShape, Graph.modifyDecl]
      congr 2
      refine Array.ext_getElem? fun i => ?_
      simp only [Array.getElem?_map, Array.getElem?_modify]
      split
      · cases s.graph.decls[i]? <;> simp [Declaration.bound, hf]
      · rfl
    · intro e he
      simp only [Graph.modifyShape, Graph.decl_modifyDecl]
      refine if_neg fun h => he ?_
      rw [← h.1]
      -- The declaration that changes is one of this unit.
      exact hs.declared _ d hd

/-- A step of resolving a unit changes the share of that unit only. -/
theorem perform_touches (hs : s.Owned) (u : UnitId) (step : ResolveStep) :
    Touches u s (Resolution.perform u step s).2 := by
  cases step with
  | «recall» m => exact Touches.refl u s
  | unite m ts => exact touches_recordRef u m.id _ s
  | record m t => exact touches_recordRef u m.id t s
  | target m d => exact touches_setTarget u m d s
  | problem n message =>
    apply touches_modifyUnit
    intro unit
    rfl
  | «import» i =>
    apply touches_modifyUnit
    intro unit
    rfl
  | extend m t => exact touches_modifyDeclOf hs u m fun shape => by cases shape <;> rfl
  | satisfy m t => exact touches_modifyDeclOf hs u m fun shape => by cases shape <;> rfl
  | declare m t => exact touches_modifyDeclOf hs u m fun shape => by cases shape <;> rfl

/-- Resolving part of a unit changes the share of that unit only. -/
theorem run_touches {α : Type} (hs : s.Owned) (u : UnitId)
    (d : Dialogue ResolveStep.Answer α) : Touches u s (d.run (Resolution.perform u) s).2 := by
  induction d generalizing s with
  | done a => exact Touches.refl u s
  | ask step next ih =>
    have hstep := perform_touches hs u step
    exact hstep.trans (ih _ (hs.of_fixed hstep.fixed))

/-- A step keeps the types of references, if those whose types it records have had none. -/
theorem perform_keeps_refs {step : ResolveStep} (h : Resolution.RecordsFirst u s step) {k : NodeId} {ty : Ty}
    (hk : s.types.refs[k]? = some ty) : (Resolution.perform u step s).2.types.refs[k]? = some ty := by
  rw [Resolution.perform_refs, hk]
  rintro rfl hmem
  cases (h k.id hmem).symm.trans hk

/-- So does a part of resolving that looks up types before it records them. -/
theorem run_keeps_refs {α : Type} {d : Dialogue ResolveStep.Answer α}
    (h : d.Suits (Resolution.perform u) (Resolution.RecordsFirst u) s) {k : NodeId} {ty : Ty}
    (hk : s.types.refs[k]? = some ty) : (d.run (Resolution.perform u) s).2.types.refs[k]? = some ty := by
  induction d generalizing s with
  | done a => exact hk
  | ask step next ih => exact ih _ h.2 (perform_keeps_refs h.1 hk)

/-- After a union has been united, its type is on record. -/
theorem refs_unite (u : UnitId) (m : Mark) (ts : List Ty) (s : State) :
    (Resolution.perform u (.unite m ts) s).2.types.refs[(⟨u, m.id⟩ : NodeId)]? =
      some (Resolution.perform u (.unite m ts) s).1 :=
  Std.ExtTreeMap.getElem?_insert_self

/-! In states that agree on the share of a unit, a step has the same answer and the same effect. -/

/-- Recording the same type keeps states in agreement. -/
theorem agree_recordRef (h : Agree u s t) (k : NodeId) (ty : Ty) :
    Agree u (s.recordRef k ty) (t.recordRef k ty) where
  refs k' hk' := by
    have hk := h.refs k' hk'
    simp only [State.recordRef, Std.ExtTreeMap.getElem?_insert, hk]
  targets := h.targets
  unit := h.unit
  decl := h.decl

/-- Setting the same target keeps states in agreement. -/
theorem agree_setTarget (h : Agree u s t) (m : Mark) (d : DeclId) :
    Agree u (setTarget u m d s).2 (setTarget u m d t).2 where
  refs := h.refs
  targets k hk := by
    have hk' := h.targets k hk
    simp only [setTarget, modify, modifyGet, MonadStateOf.modifyGet, StateT.modifyGet, pure,
      Std.ExtTreeMap.getElem?_insert, hk']
  unit := h.unit
  decl := h.decl

/-- Changing the unit in the same way keeps states in agreement. -/
theorem agree_modifyUnit (hf : s.fixed = t.fixed) (h : Agree u s t) (f : UnitState → UnitState) :
    Agree u (modifyUnit u f s).2 (modifyUnit u f t).2 where
  refs := h.refs
  targets := h.targets
  unit := by
    refine (s.unit_modify u u f).trans (Eq.trans ?_ (t.unit_modify u u f).symm)
    rw [h.unit, State.units_size_of_fixed hf]
  decl := h.decl

/-- Changing a declaration of the unit in the same way keeps states in agreement. -/
theorem agree_modifyDeclOf (hf : s.fixed = t.fixed) (hs : s.Owned) (h : Agree u s t) (m : Mark)
    (f : Shape → Shape) :
    Agree u (Resolution.modifyDeclOf u m f s).2 (Resolution.modifyDeclOf u m f t).2 := by
  simp only [Resolution.modifyDeclOf, modify, modifyGet, MonadStateOf.modifyGet,
    StateT.modifyGet, pure, ← State.decls_eq_of_fixed hf]
  cases hd : s.decls[(⟨u, m.id⟩ : NodeId)]? with
  | none => exact h
  | some d =>
    refine ⟨h.refs, h.targets, h.unit, ?_⟩
    intro e he
    have hde := h.decl d (hs.declared _ d hd)
    simp only [Graph.modifyShape, Graph.decl_modifyDecl, State.decls_size_of_fixed hf] at he ⊢
    by_cases hc : d = e ∧ d.index < t.graph.decls.size
    · obtain rfl := hc.1
      simp [hc, hde]
    · rw [if_neg hc] at he
      simp only [if_neg hc]
      exact h.decl e he

/-- Reporting the same problem keeps states in agreement. -/
theorem agree_report (hf : s.fixed = t.fixed) (h : Agree u s t) (n : Node) (message : String) :
    Agree u (report u n message s).2 (report u n message t).2 := by
  have hl : s.location u n.mark = t.location u n.mark := by
    simp only [State.location, h.unit]
  change Agree u (modifyUnit u _ s).2 (modifyUnit u _ t).2
  rw [hl]
  exact agree_modifyUnit hf h _

/-- In states that agree on the share of a unit, a step has the same answer and the same effect on the
share.  Of a union, that has to be known. -/
theorem perform_agree (hf : s.fixed = t.fixed) (hs : s.Owned) (h : Agree u s t)
    (step : ResolveStep)
    (same : ∀ m ts, step = .unite m ts →
      (Resolution.perform u step s).2.types.refs[(⟨u, m.id⟩ : NodeId)]? =
        (Resolution.perform u step t).2.types.refs[(⟨u, m.id⟩ : NodeId)]?) :
    (Resolution.perform u step s).1 = (Resolution.perform u step t).1 ∧
      Agree u (Resolution.perform u step s).2 (Resolution.perform u step t).2 := by
  cases step with
  | «recall» m => exact ⟨h.refs _ rfl, h⟩
  | unite m ts =>
    -- Uniting asks the hierarchy, which is where the two states may differ.
    have hsame := same m ts rfl
    rw [refs_unite, refs_unite] at hsame
    have hunite : s.graph.hierarchy.unite ts = t.graph.hierarchy.unite ts := Option.some.inj hsame
    simp only [Resolution.perform, modifyGet, MonadStateOf.modifyGet, StateT.modifyGet, pure, hunite]
    exact ⟨trivial, agree_recordRef h _ _⟩
  | record m ty => exact ⟨rfl, agree_recordRef h _ ty⟩
  | target m d => exact ⟨rfl, agree_setTarget h m d⟩
  | problem n message => exact ⟨rfl, agree_report hf h n message⟩
  | «import» i => exact ⟨rfl, agree_modifyUnit hf h _⟩
  | extend m ty => exact ⟨rfl, agree_modifyDeclOf hf hs h m _⟩
  | satisfy m ty => exact ⟨rfl, agree_modifyDeclOf hf hs h m _⟩
  | declare m ty => exact ⟨rfl, agree_modifyDeclOf hf hs h m _⟩

end Steps

/-! ## All steps of a unit -/

/-- Unions are united only at the given marks. -/
def UnitesAt (marks : Mark → Prop) : ResolveStep → Prop
  | .unite m _ => marks m
  | _ => True

/-- In states that agree on the share of a unit, resolving part of the unit has the same outcome, if it
gives the unions the same types. -/
theorem run_agree {u : UnitId} {s t : State} (hf : s.fixed = t.fixed) (hs : s.Owned)
    (h : Agree u s t) {α : Type} {marks : Mark → Prop} (d : Dialogue ResolveStep.Answer α)
    (hd : d.Ensures (UnitesAt marks) (fun _ _ => True) fun _ => True)
    (hsuits : d.Suits (Resolution.perform u) (Resolution.RecordsFirst u) s)
    (hsuits' : d.Suits (Resolution.perform u) (Resolution.RecordsFirst u) t)
    (same : ∀ m, marks m →
      (d.run (Resolution.perform u) s).2.types.refs[(⟨u, m.id⟩ : NodeId)]? =
        (d.run (Resolution.perform u) t).2.types.refs[(⟨u, m.id⟩ : NodeId)]?) :
    (d.run (Resolution.perform u) s).1 = (d.run (Resolution.perform u) t).1 ∧
      Agree u (d.run (Resolution.perform u) s).2 (d.run (Resolution.perform u) t).2 := by
  induction d generalizing s t with
  | done a => exact ⟨rfl, h⟩
  | ask step next ih =>
    have ht : t.Owned := hs.of_fixed hf.symm
    have hstep := perform_touches hs u step
    have hstep' := perform_touches ht u step
    -- What the step records for a union is still there at the end.
    have hunite : ∀ m ts, step = .unite m ts →
        (Resolution.perform u step s).2.types.refs[(⟨u, m.id⟩ : NodeId)]? =
          (Resolution.perform u step t).2.types.refs[(⟨u, m.id⟩ : NodeId)]? := by
      rintro m ts rfl
      have hend := same m hd.1
      have hty := refs_unite u m ts s
      have hty' := refs_unite u m ts t
      rw [Dialogue.run_ask, Dialogue.run_ask, run_keeps_refs hsuits.2 hty, run_keeps_refs hsuits'.2 hty'] at hend
      rw [hty, hty', hend]
    obtain ⟨hanswer, hagree⟩ := perform_agree hf hs h step hunite
    have hfixed : (Resolution.perform u step s).2.fixed = (Resolution.perform u step t).2.fixed :=
      hstep.fixed.trans (hf.trans hstep'.fixed.symm)
    simp only [Dialogue.run_ask] at same ⊢
    rw [← hanswer]
    refine ih _ hfixed (hs.of_fixed hstep.fixed) hagree (hd.2 _ trivial) hsuits.2 (hanswer ▸ hsuits'.2) ?_
    intro m hm
    have hend := same m hm
    rwa [← hanswer] at hend

/-! ## Where unions are united -/

/-- Resolving unites unions only at the given marks. -/
def OnlyUnitesAt (marks : Mark → Prop) {α : Type} (r : Resolve α) : Prop :=
  Dialogue.Ensures (UnitesAt marks) (fun _ _ => True) r.run fun _ => True

section Unit

variable {tree : CompilationUnit}

open Resolution

/-- Resolving that takes only steps that are allowed unites types only where it should. -/
theorem onlyUnitesAt_of_spends {α : Type} {may : ResolveStep → Prop} {cost : ResolveStep → Multiset Nat}
    {r : Resolve α} {b : Multiset Nat} (h : Spends may cost r b)
    (imp : ∀ step, may step → UnitesAt (CompositeIn tree) step) : OnlyUnitesAt (CompositeIn tree) r :=
  (Dialogue.Spends.ensures h).of_may imp

/-- Resolving a unit unites types only for its references to unions and optional types. -/
theorem resolveUnit_unites (f : State) (u : UnitId) (tree : CompilationUnit) :
    OnlyUnitesAt (CompositeIn tree) (resolveUnit f u tree) := by
  refine Dialogue.Ensures.bind (P := fun _ => True) ?_ fun r _ => ?_
  · refine onlyUnitesAt_of_spends (resolveImports_spends f u tree) fun step hstep => ?_
    cases step <;> trivial
  · cases r with
    | error e => trivial
    | ok imports =>
      refine onlyUnitesAt_of_spends (visitAll_spends ⟨f, u, imports⟩ tree) fun step hstep => ?_
      cases step <;> trivial

end Unit

/-! ## Whole units -/

namespace State

/-- The state after the names of a unit have been resolved. -/
def resolved (s : State) (u : UnitId) : State :=
  (resolveNames u s).2

/-- Whether resolving the names of a unit has nothing left to do. -/
def isSettled (s : State) (u : UnitId) : Bool :=
  (s.unit u).failure.isSome || (s.unit u).phase.atLeast .namesResolved

/-- The outcome of the steps of resolving a unit. -/
def resolution (s : State) (u : UnitId) : Except FatalError Unit × State :=
  (Resolution.resolveUnit s.bound u (s.unit u).tree).run.run (Resolution.perform u)
    (logStep u .namesResolved "resolving names" s).2

/-- How a unit ends up after the steps of resolving it. -/
def conclusion : Except FatalError Unit → UnitState → UnitState
  | .ok () => fun unit => { unit with phase := .namesResolved }
  | .error e => fun unit =>
    let location := (Failure.fatal e).location.getD { file := unit.path, pos := -1 }
    let d : Diagnostic := ⟨.error, (Failure.fatal e).message, none, some location⟩
    { unit with
      failure := some (unit.failure.getD (.fatal e))
      diagnostics := d.addTo unit.diagnostics }

/-- A unit that is settled is left alone by resolving. -/
theorem resolved_of_isSettled {s : State} {u : UnitId} (h : s.isSettled u) : s.resolved u = s := by
  simp only [isSettled, Bool.or_eq_true] at h
  simp only [resolved, resolveNames, bind, StateT.bind, get, getThe, MonadStateOf.get, StateT.get,
    pure]
  rcases h with h | h
  · simp only [h]
    rfl
  · simp only [h]
    split <;> rfl

/-- Resolving a unit that is not settled runs its resolution and concludes with the outcome. -/
theorem resolved_of_not_isSettled {s : State} {u : UnitId} (h : ¬ s.isSettled u) :
    s.resolved u = (modifyUnit u (conclusion (s.resolution u).1) (s.resolution u).2).2 := by
  simp only [isSettled, Bool.or_eq_true, not_or] at h
  simp only [resolved, resolveNames, bind, StateT.bind, get, getThe, MonadStateOf.get, StateT.get,
    pure, h]
  change ((match (s.resolution u).1 with
    | .ok () => StateT.bind (setPhase u .namesResolved) fun _ => StateT.pure none
    | .error e => StateT.bind (fail u (.fatal e)) fun _ => StateT.pure (some (.fatal e)) :
      Analyze (Option Failure)) (s.resolution u).2).2 = _
  cases (s.resolution u).1 <;> rfl

end State

section Units

variable {u : UnitId} {s t : State}

theorem touches_logStep (u : UnitId) (phase : Phase) (message : String) (s : State) :
    Touches u s (logStep u phase message s).2 :=
  ⟨rfl, fun _ _ => rfl, fun _ h => h, fun _ _ => rfl, fun _ _ => rfl, fun _ _ => rfl⟩

/-- How resolving ends does not show in what it depends on. -/
theorem bound_conclusion (o : Except FatalError Unit) (unit : UnitState) :
    (State.conclusion o unit).bound = unit.bound := by
  cases o <;> rfl

/-- Resolving a unit touches nothing of other units. -/
theorem resolution_touches (hs : s.Owned) (u : UnitId) : Touches u s (s.resolution u).2 := by
  have hlog := touches_logStep u .namesResolved "resolving names" s
  exact hlog.trans (run_touches (hs.of_fixed hlog.fixed) u _)

/-- Resolving the names of a unit changes the share of that unit only. -/
theorem resolved_touches (hs : s.Owned) (u : UnitId) : Touches u s (s.resolved u) := by
  by_cases h : s.isSettled u
  · rw [State.resolved_of_isSettled h]
    exact Touches.refl u s
  · rw [State.resolved_of_not_isSettled h]
    exact (resolution_touches hs u).trans (touches_modifyUnit u (bound_conclusion _) _)

/-- In states that agree on the share of a unit, resolving its names has the same outcome, if it gives
its references to unions and optional types the same types. -/
theorem resolved_agree (hf : s.fixed = t.fixed) (hs : s.Owned) (h : Agree u s t)
    (same : ∀ m, CompositeIn (s.unit u).tree m →
      (s.resolved u).types.refs[(⟨u, m.id⟩ : NodeId)]? =
        (t.resolved u).types.refs[(⟨u, m.id⟩ : NodeId)]?) :
    Agree u (s.resolved u) (t.resolved u) := by
  have hsettled : s.isSettled u = t.isSettled u := by simp only [State.isSettled, h.unit]
  by_cases hu : s.isSettled u
  · rw [State.resolved_of_isSettled hu, State.resolved_of_isSettled (hsettled ▸ hu)]
    exact h
  · have hu' : ¬ t.isSettled u := hsettled ▸ hu
    rw [State.resolved_of_not_isSettled hu, State.resolved_of_not_isSettled hu'] at same ⊢
    have hlog := touches_logStep u .namesResolved "resolving names" s
    have hlog' := touches_logStep u .namesResolved "resolving names" t
    have hlogged : Agree u (logStep u .namesResolved "resolving names" s).2
        (logStep u .namesResolved "resolving names" t).2 := ⟨h.refs, h.targets, h.unit, h.decl⟩
    -- Both states pose the same dialogue, and only the answers to its questions about unions may differ.
    have htree : (Resolution.resolveUnit t.bound u (t.unit u).tree) =
        Resolution.resolveUnit s.bound u (s.unit u).tree := by
      rw [State.bound_eq_of_fixed hf, h.unit]
    have hfixed : (s.resolution u).2.fixed = (t.resolution u).2.fixed :=
      (resolution_touches hs u).fixed.trans
        (hf.trans (resolution_touches (hs.of_fixed hf.symm) u).fixed.symm)
    -- Each reference is looked up before it is recorded, so that the first type recorded stays.
    have hsuits := fun s' : State =>
      (Resolution.resolveUnit_looksUp (u := u) (hs.numbered u) s.bound u s' fun _ hi => hi.elim).1
    have hrun := run_agree (hlog.fixed.trans (hf.trans hlog'.fixed.symm)) (hs.of_fixed hlog.fixed)
      hlogged _ (resolveUnit_unites s.bound u (s.unit u).tree) (hsuits _) (hsuits _)
    simp only [State.resolution, htree] at same hfixed ⊢
    obtain ⟨houtcome, hagree⟩ := hrun same
    rw [← houtcome]
    exact agree_modifyUnit hfixed hagree _

end Units

/-! ## Orders of units -/

/-- The state after the names of several units have been resolved, one after the other. -/
def State.resolvedAll (s : State) (us : List UnitId) : State :=
  us.foldl State.resolved s

/-- The state without its log. -/
def State.unlogged (s : State) : State :=
  { s with log := #[] }

section Orders

variable {s t : State}

/-- Resolving units leaves alone what it depends on. -/
theorem resolvedAll_fixed (hs : s.Owned) (us : List UnitId) : (s.resolvedAll us).fixed = s.fixed := by
  induction us generalizing s with
  | nil => rfl
  | cons u us ih =>
    have hu := resolved_touches hs u
    exact (ih (hs.of_fixed hu.fixed)).trans hu.fixed

/-- The share of a unit stays as it is while others are resolved. -/
theorem resolvedAll_agree_of_not_mem (hs : s.Owned) {u : UnitId} {us : List UnitId} (h : u ∉ us) :
    Agree u s (s.resolvedAll us) := by
  induction us generalizing s with
  | nil => exact Agree.refl u s
  | cons v us ih =>
    have hv := resolved_touches hs v
    have hne : u ≠ v := fun e => h (e ▸ List.mem_cons_self)
    have hrest := ih (hs.of_fixed hv.fixed) fun hu => h (List.mem_cons_of_mem v hu)
    exact (Agree.of_touches hv hne).trans hrest hv.fixed.symm

/-- What no unit declares stays as it is. -/
theorem resolvedAll_decl (hs : s.Owned) (us : List UnitId) {d : DeclId}
    (hd : (s.graph.decl d).unit = none) : (s.resolvedAll us).graph.decl d = s.graph.decl d := by
  induction us generalizing s with
  | nil => rfl
  | cons u us ih =>
    have hu := resolved_touches hs u
    have hstep := hu.decl d (by rw [hd]; exact nofun)
    exact (ih (hs.of_fixed hu.fixed) (by rw [hstep, hd])).trans hstep

/-- The share of a unit is what resolving it has made of the share it had at first. -/
theorem resolvedAll_agree_of_mem (hs : s.Owned) {u : UnitId} {us : List UnitId} (h : u ∈ us)
    (hus : us.Nodup) :
    ∃ before : State, before.fixed = s.fixed ∧ Agree u s before ∧
      Agree u (before.resolved u) (s.resolvedAll us) := by
  obtain ⟨first, rest, rfl⟩ := List.append_of_mem h
  have hnodup := List.perm_middle.nodup_iff.mp hus
  have hnot : u ∉ first ++ rest := (List.nodup_cons.mp hnodup).1
  rw [List.mem_append, not_or] at hnot
  have hfixed := resolvedAll_fixed hs first
  have howned := hs.of_fixed hfixed
  refine ⟨s.resolvedAll first, hfixed, resolvedAll_agree_of_not_mem hs hnot.1, ?_⟩
  have hu := resolved_touches howned u
  have hrest := resolvedAll_agree_of_not_mem (howned.of_fixed hu.fixed) hnot.2
  simpa only [State.resolvedAll, List.foldl_append, List.foldl_cons] using hrest

/-- Two states that agree on the shares of all units, and on the rest, differ in their logs at most. -/
theorem unlogged_eq_of_agree (hf : s.fixed = t.fixed) (h : ∀ u, Agree u s t)
    (hd : ∀ d, (s.graph.decl d).unit = none → s.graph.decl d = t.graph.decl d) :
    s.unlogged = t.unlogged := by
  -- Every declaration is one of a unit or of none, and all else that resolving touches belongs to a unit.
  have hdecl : ∀ d, s.graph.decl d = t.graph.decl d := by
    intro d
    cases hunit : (s.graph.decl d).unit with
    | none => exact hd d hunit
    | some u => exact (h u).decl d hunit
  have hdecls : s.graph.decls = t.graph.decls := by
    refine Array.ext (State.decls_size_of_fixed hf) fun i hi hi' => ?_
    have hsame := hdecl ⟨i⟩
    simpa [Graph.decl, hi, hi'] using hsame
  have hunits : s.units = t.units := by
    refine Array.ext (State.units_size_of_fixed hf) fun i hi hi' => ?_
    have hsame := (h ⟨i⟩).unit
    simpa [State.unit, hi, hi'] using hsame
  have hrefs : s.types.refs = t.types.refs :=
    Std.ExtTreeMap.ext_getElem? fun k => (h k.unit).refs k rfl
  have htargets : s.targets = t.targets :=
    Std.ExtTreeMap.ext_getElem? fun k => (h k.unit).targets k rfl
  simp only [State.fixed, State.mk.injEq, Model.Graph.mk.injEq, TypeTable.mk.injEq] at hf
  obtain ⟨⟨-, hblocks, hpackages, hmodules, hmembers, hinferred⟩, hbuiltins, -, hdeclared, hscopes,
    htable, ⟨-, hexprs⟩, -, hrest⟩ := hf
  have hgraph : s.graph = t.graph := by
    cases hs : s.graph
    cases ht : t.graph
    simp_all
  have htypes : s.types = t.types := by
    cases hs : s.types
    cases ht : t.types
    simp_all
  simp only [State.unlogged, hgraph, hbuiltins, hunits, hdeclared, hscopes, htable, htypes,
    htargets, hrest]

/-- Two orders of resolving units give all references to unions and optional types in them the same
types. -/
def SameUnions (s : State) (us vs : List UnitId) : Prop :=
  ∀ u ∈ us, ∀ m, CompositeIn (s.unit u).tree m →
    (s.resolvedAll us).types.refs[(⟨u, m.id⟩ : NodeId)]? =
      (s.resolvedAll vs).types.refs[(⟨u, m.id⟩ : NodeId)]?

/-- Two orders of resolving units lead to the same state exactly if they give the references to unions
and optional types the same types. -/
theorem resolvedAll_perm (hs : s.Owned) {us vs : List UnitId} (hus : us.Nodup)
    (hperm : us.Perm vs) :
    (s.resolvedAll us).unlogged = (s.resolvedAll vs).unlogged ↔ SameUnions s us vs := by
  have hus' := resolvedAll_fixed hs us
  have hvs' := resolvedAll_fixed hs vs
  constructor
  · intro h u _ m _
    change (s.resolvedAll us).unlogged.types.refs[_]? = (s.resolvedAll vs).unlogged.types.refs[_]?
    rw [h]
  · intro same
    refine unlogged_eq_of_agree (hus'.trans hvs'.symm) (fun u => ?_) fun d hd => ?_
    · -- A unit of the lists is resolved somewhere in both, at states that agree about it.
      by_cases hu : u ∈ us
      · obtain ⟨a, haf, has, ha⟩ := resolvedAll_agree_of_mem hs hu hus
        obtain ⟨b, hbf, hbs, hb⟩ :=
          resolvedAll_agree_of_mem hs (hperm.mem_iff.mp hu) (hperm.nodup_iff.mp hus)
        have hab : Agree u a b := (has.symm haf.symm).trans hbs haf
        have haf' := (resolved_touches (hs.of_fixed haf) u).fixed.trans haf
        have hbf' := (resolved_touches (hs.of_fixed hbf) u).fixed.trans hbf
        have hresolved : Agree u (a.resolved u) (b.resolved u) := by
          refine resolved_agree (haf.trans hbf.symm) (hs.of_fixed haf) hab fun m hm => ?_
          rw [← has.unit] at hm
          rw [ha.refs _ rfl, hb.refs _ rfl]
          exact same u hu m hm
        exact ((ha.symm (haf'.trans hus'.symm)).trans hresolved (hus'.trans haf'.symm)).trans hb
          (hus'.trans hbf'.symm)
      · -- Any other unit stays as it is.
        have hv : u ∉ vs := fun h => hu (hperm.mem_iff.mpr h)
        exact ((resolvedAll_agree_of_not_mem hs hu).symm hus'.symm).trans
          (resolvedAll_agree_of_not_mem hs hv) hus'
    · have hd' : (s.graph.decl d).unit = none := by
        rw [← hd]
        exact (State.declUnit_eq_of_fixed hus' d).symm
      rw [resolvedAll_decl hs us hd', resolvedAll_decl hs vs hd']

end Orders

/-! ## Checking after resolving -/

/-- The log has no influence on an action, nor the action on the log. -/
def IgnoresLog {α : Type} (m : Analyze α) : Prop :=
  ∀ s log, m { s with log } = ((m s).1, { (m s).2 with log })

namespace IgnoresLog

variable {α β : Type}

/-- Returning a value does not look at the log. -/
theorem pure (a : α) : IgnoresLog (Pure.pure a : Analyze α) :=
  fun _ _ => rfl

/-- Actions that do not look at the log, one after another. -/
theorem bind {m : Analyze α} {f : α → Analyze β} (hm : IgnoresLog m)
    (hf : ∀ a, IgnoresLog (f a)) : IgnoresLog (m >>= f) := by
  intro s log
  change f (m { s with log }).1 (m { s with log }).2 = _
  rw [hm s log]
  exact hf _ _ log

/-- Reading the state, but for its log. -/
theorem get_bind {f : State → Analyze β} (hread : ∀ s log, f { s with log } = f s)
    (hf : ∀ s, IgnoresLog (f s)) : IgnoresLog (get >>= f) := by
  intro s log
  change f { s with log } { s with log } = _
  rw [hread]
  exact hf s s log

/-- Running a dialogue does not look at the log if no answer does. -/
theorem run {Q : Type} {A : Q → Type} {partner : (q : Q) → Analyze (A q)}
    (hp : ∀ q, IgnoresLog (partner q)) (d : Dialogue A α) : IgnoresLog (d.run partner) := by
  induction d with
  | done a => exact pure a
  | ask q next ih => exact bind (hp q) ih

/-- Demanding the type of a declaration does not look at the log. -/
theorem demandType (f : State) {demand : UnitId → Task → Analyze Unit}
    (hd : ∀ u task, IgnoresLog (demand u task)) (d : DeclId) :
    IgnoresLog (Checking.demandType f demand d) := by
  refine get_bind (fun _ _ => rfl) fun s => ?_
  simp only
  split
  · exact pure _
  · split
    · exact pure _
    · next u task _ =>
      split
      · exact bind (fun _ _ => rfl) fun _ => pure _
      · split
        · exact pure _
        · exact bind (hd u task) fun _ => get_bind (fun _ _ => rfl) fun _ => pure _

/-- A step of checking does not look at the log. -/
theorem perform (f : State) {demand : UnitId → Task → Analyze Unit}
    (hd : ∀ u task, IgnoresLog (demand u task)) (u : UnitId) (act : Act) :
    IgnoresLog (Checking.perform f demand u act) := by
  cases act with
  | ask q =>
    cases q with
    | typeOf d => exact demandType f hd d
    | problem n message => exact fun _ _ => rfl
  | settle m t target => exact fun _ _ => rfl
  | infer m t => exact fun _ _ => rfl
  | visit task => exact hd u task

/-- Checking a task does not look at the log. -/
theorem performTask (f : State) (depth : Nat) (u : UnitId) (task : Task) :
    IgnoresLog (Checking.performTask f depth u task) := by
  induction depth generalizing u task with
  | zero => exact pure ()
  | succ depth ih =>
    refine get_bind (fun _ _ => rfl) fun s => ?_
    split
    · exact pure ()
    · refine bind (fun _ _ => rfl) fun _ => bind (run (perform f ih u) _) fun t =>
        bind (fun _ _ => rfl) fun _ => ?_
      split
      · exact fun _ _ => rfl
      · exact pure ()

end IgnoresLog

/-- The state after the expressions of several units have been checked, one after the other. -/
def State.checkedAll (s : State) (us : List UnitId) : State :=
  us.foldl (fun s u => (checkExpressions u s).2) s

/-- What the check of a unit does, apart from the line it writes to the log. -/
theorem checkExpressions_unlogged_eq (u : UnitId) (s : State) :
    (checkExpressions u s).2.unlogged =
      if (s.unit u).failure.isSome || (s.unit u).phase ≠ .namesResolved then s.unlogged
      else (setPhase u .checked (Checking.performTask s.facts (s.decls.size + 2) u
        (.unit (s.unit u).tree) s).2).2.unlogged := by
  simp only [checkExpressions, bind, StateT.bind, get, getThe, MonadStateOf.get, StateT.get, pure]
  split
  · rfl
  · change (setPhase u .checked (Checking.performTask s.facts (s.decls.size + 2) u
      (.unit (s.unit u).tree) { s with log := _ }).2).2.unlogged = _
    rw [IgnoresLog.performTask]
    rfl

/-- Checking a unit does not depend on the log. -/
theorem checkExpressions_unlogged (u : UnitId) {s t : State} (h : s.unlogged = t.unlogged) :
    (checkExpressions u s).2.unlogged = (checkExpressions u t).2.unlogged := by
  obtain ⟨log, rfl⟩ : ∃ log, t = { s with log } :=
    ⟨t.log, by simpa [State.unlogged] using congrArg (fun s : State => { s with log := t.log }) h.symm⟩
  rw [checkExpressions_unlogged_eq, checkExpressions_unlogged_eq]
  simp only [IgnoresLog.performTask _ _ _ _ s log]
  rfl

/-- Checking units does not depend on the log. -/
theorem checkedAll_unlogged {s t : State} (h : s.unlogged = t.unlogged) (us : List UnitId) :
    (s.checkedAll us).unlogged = (t.checkedAll us).unlogged := by
  induction us generalizing s t with
  | nil => exact h
  | cons u us ih => exact ih (checkExpressions_unlogged u h)

/-- If two orders of resolving units give references to unions and optional types the same types, then
checking afterwards finds the same problems in every unit. -/
theorem checkedAll_diagnostics_perm {s : State} (hs : s.Owned) {us vs : List UnitId} (hus : us.Nodup)
    (hperm : us.Perm vs) (same : SameUnions s us vs) (ws : List UnitId) (u : UnitId) :
    (((s.resolvedAll us).checkedAll ws).unit u).diagnostics =
      (((s.resolvedAll vs).checkedAll ws).unit u).diagnostics := by
  have hstate := checkedAll_unlogged ((resolvedAll_perm hs hus hperm).mpr same) ws
  have hunits : ((s.resolvedAll us).checkedAll ws).unlogged.units =
      ((s.resolvedAll vs).checkedAll ws).unlogged.units := by rw [hstate]
  simp only [State.unlogged] at hunits
  simp only [State.unit, hunits]

/-- Two units, one with an interface `A` and one with an interface `B satisfies A` and an attribute of type `A|B`, as
they are bound. -/
def twoInterfaces : State :=
  let interface (name : String) (satisfied : List TypeRef) : Stmt := .interfaceDecl
    { mark := default, annotations := default, name := ⟨default, name⟩, typeParams := [], satisfied, body := default }
  let named (name : String) : TypeRef := .base ⟨default, ⟨default, name⟩, []⟩
  let either : Stmt := .attribute
    { mark := default, annotations := default, type := .ref (.union default (named "A") [named "B"]),
      name := ⟨default, "either"⟩, init := .absent }
  let unit (path : String) (body : List Stmt) : UnitState :=
    { path, package := ⟨0⟩, isBound := true, phase := .moduleResolved,
      tree := CompilationUnit.number
        { mark := default, source := default, module := none, imports := [], comments := [], body } }
  let units := #[unit "p/a" [interface "A" []], unit "p/b" [interface "B" [named "A"], either]]
  let declaration (name : String) (u : UnitId) (n : Nat) (shape : Shape) : Declaration :=
    { name, scope := [.package ⟨0⟩], unit := some u, node := (units[u.index]!).tree.body[n]?.map .stmt, shared := true,
      shape }
  let decls := #[declaration "A" ⟨0⟩ 0 (.ofInterface {}), declaration "B" ⟨1⟩ 0 (.ofInterface {}),
    declaration "either" ⟨1⟩ 1 (.value .unknown false)]
  { graph :=
      { decls
        packages := #[{ name := ["p"] }]
        members := ({} : Std.ExtTreeMap ScopeId (Array DeclId)).insert (.package ⟨0⟩) #[⟨0⟩, ⟨1⟩, ⟨2⟩] }
    units
    decls := ((({} : NodeMap DeclId).insert ⟨⟨0⟩, 1⟩ ⟨0⟩).insert ⟨⟨1⟩, 1⟩ ⟨1⟩).insert ⟨⟨1⟩, 6⟩ ⟨2⟩ }

/-- Every declaration belongs to the unit that it stands in. -/
theorem twoInterfaces_owned : twoInterfaces.Owned where
  declared k d hd := by
    simp only [twoInterfaces, Std.ExtTreeMap.getElem?_insert] at hd
    split_ifs at hd with hk hk hk
    · cases hd
      rw [← Std.LawfulEqCmp.eq_of_compare hk]
      rfl
    · cases hd
      rw [← Std.LawfulEqCmp.eq_of_compare hk]
      rfl
    · cases hd
      rw [← Std.LawfulEqCmp.eq_of_compare hk]
      rfl
    · simp at hd
  numbered u := by
    obtain ⟨_ | _ | i⟩ := u
    · exact CompilationUnit.number_numbered _
    · exact CompilationUnit.number_numbered _
    · exact List.nodup_singleton _

/-- The reference `A|B` gets the type `A`, whichever of the units is resolved first. -/
theorem twoInterfaces_either (us : List UnitId) (hus : us = [⟨0⟩, ⟨1⟩] ∨ us = [⟨1⟩, ⟨0⟩]) :
    (twoInterfaces.resolvedAll us).types.refs[(⟨⟨1⟩, 7⟩ : NodeId)]? = some (.applied ⟨⟨0⟩, []⟩) := by
  have hname : ∀ t : Option Ty, t.any (Ty.equal false (.applied ⟨⟨0⟩, []⟩)) = true →
      t = some (.applied ⟨⟨0⟩, []⟩) := by
    rintro (_ | _ | ⟨d, args⟩ | _) h
    case some.applied =>
      have hequal : ((⟨0⟩ : DeclId) == d && argsEqual false [] args) = true := h
      obtain ⟨hdecl, hargs⟩ := Bool.and_eq_true_iff.mp hequal
      cases args with
      | nil => rw [beq_iff_eq.mp hdecl]
      | cons => cases hargs
    all_goals cases h
  refine hname _ ?_
  rcases hus with rfl | rfl
  · decide +kernel
  · decide +kernel

/-- The only union in the two units is `A|B`, which has the same normal form in either order. -/
theorem twoInterfaces_sameUnions : SameUnions twoInterfaces [⟨0⟩, ⟨1⟩] [⟨1⟩, ⟨0⟩] := by
  let isEither (u : UnitId) (m : Mark) : Bool := u = ⟨1⟩ ∧ m.id = 7
  have hall : ([⟨0⟩, ⟨1⟩] : List UnitId).all (fun u => (twoInterfaces.unit u).tree.outline.nodes.all fun
      | .type (.union m ..) | .type (.optional m ..) => isEither u m
      | _ => true) = true := by
    decide +kernel
  intro u hu m hm
  have hnodes := List.all_eq_true.mp (List.all_eq_true.mp hall u hu)
  obtain ⟨rfl, hid⟩ : u = ⟨1⟩ ∧ m.id = 7 := by
    refine of_decide_eq_true (?_ : isEither u m = true)
    cases hm with
    | union h => exact hnodes _ h
    | optional h => exact hnodes _ h
  rw [hid, twoInterfaces_either _ (.inl rfl), twoInterfaces_either _ (.inr rfl)]

/-- Whether `A` or `B` is resolved first does not matter. -/
theorem checkedAll_diagnostics_perm_twoInterfaces :
    (((twoInterfaces.resolvedAll [⟨0⟩, ⟨1⟩]).checkedAll [⟨0⟩, ⟨1⟩]).unit ⟨1⟩).diagnostics =
      (((twoInterfaces.resolvedAll [⟨1⟩, ⟨0⟩]).checkedAll [⟨0⟩, ⟨1⟩]).unit ⟨1⟩).diagnostics :=
  checkedAll_diagnostics_perm twoInterfaces_owned (by decide) (List.Perm.swap _ _ _)
    twoInterfaces_sameUnions _ _

end Ceylon.Analysis
