import Ceylon.Analysis.Resolution
import Ceylon.Proofs.Binding

/-!
# The steps of resolving a unit

What resolving a unit does, whatever its steps answer.  The imports come first: they give each imported name its
target once (`resolveImports_spends`).  Then come the nodes: a type reference gets no other target than the one
that its name has where it stands, unions are united only at the references to them, and each declaration gets
its declared type once (`visitAll_spends`).  The type of a reference is recorded whether there is one or not; but only
where none has been found, and nothing is recorded for the reference in between (`resolveUnit_looksUp`).
-/

namespace Ceylon

namespace Syntax

/-- The parts of an import are its path and its elements. -/
theorem Node.parts_import (i : Import) : (Node.import i).parts = .path i.path :: i.elements.map .importElement := by
  simp [parts, outline, Import.outline, ImportElement.outline, Path.outline, Outline.children, Outline.node,
    Function.comp_def]

end Syntax

namespace Analysis

open Model Syntax

/-- The marks of the references to unions and optional types in a unit. -/
inductive CompositeIn (tree : CompilationUnit) : Mark → Prop
  | union {mark : Mark} {first : TypeRef} {more : List TypeRef}
    (h : tree.Has (.type (.union mark first more))) : CompositeIn tree mark
  | optional {mark : Mark} {inner : TypeRef} (h : tree.Has (.type (.optional mark inner))) :
    CompositeIn tree mark

/-! ## Parts of resolving that keep to a contract -/

/-- A part of resolving keeps to a contract, and its result has the property, unless a fatal error ends it. -/
def Resolve.Upholds {W α : Type} (c : Dialogue.Contract W ResolveStep.Answer) (w : W) (r : Resolve α)
    (P : W → α → Prop) : Prop :=
  r.run.Upholds c w fun w' result => ∀ a, result = .ok a → P w' a

namespace Resolve.Upholds

variable {W α β : Type} {c : Dialogue.Contract W ResolveStep.Answer} {w : W}

/-- Returning a value upholds what is true of it. -/
theorem pure {a : α} {P : W → α → Prop} (h : P w a) : Upholds c w (Pure.pure a : Resolve α) P := by
  rintro _ ⟨rfl⟩
  exact h

/-- A fatal error upholds everything, since nothing follows it. -/
theorem throw (e : FatalError) (P : W → α → Prop) : Upholds c w (MonadExcept.throw e : Resolve α) P :=
  nofun

/-- What is upheld may be weakened. -/
theorem mono {r : Resolve α} {P P' : W → α → Prop} (h : r.Upholds c w P)
    (imp : ∀ w', c.Leads w w' → ∀ a, P w' a → P' w' a) : r.Upholds c w P' :=
  Dialogue.Upholds.mono h fun w' hle _ hP a ha => imp w' hle a (hP a ha)

/-- One part of resolving upholds what the next one goes on with. -/
theorem bind {r : Resolve α} {g : α → Resolve β} {P : W → α → Prop} {P' : W → β → Prop} (h : r.Upholds c w P)
    (hg : ∀ w', c.Leads w w' → ∀ a, P w' a → (g a).Upholds c w' P') : Upholds c w (r >>= g) P' := by
  refine Dialogue.Upholds.bind h fun w' hle result hP => ?_
  cases result with
  | error e => exact nofun
  | ok a => exact hg w' hle a (hP a rfl)

/-- A step upholds what the contract says of its answer. -/
theorem take {step : ResolveStep} {P : W → step.Answer → Prop} (h : c.May w step)
    (hP : ∀ w', c.Leads w w' → ∀ r, c.Right w' step r → P w' r) : (Resolution.take step).Upholds c w P := by
  refine ⟨h, fun w' hle r hr => ?_⟩
  rintro _ ⟨rfl⟩
  exact hP w' hle r hr

/-- Throwing away a result upholds that there was one. -/
theorem discard {r : Resolve α} {P : W → α → Prop} (h : r.Upholds c w P) :
    Upholds c w (Functor.discard r) fun w' _ => ∃ a, P w' a :=
  bind h fun _ _ a ha => pure ⟨a, ha⟩

/-- What each of the elements leads to holds of all of them at the end. -/
theorem forM {g : α → Resolve Unit} {P : W → α → Prop} (hmono : ∀ w w' a, c.Leads w w' → P w a → P w' a)
    {as : List α} (h : ∀ a ∈ as, ∀ w, (g a).Upholds c w fun w' _ => P w' a) :
    Upholds c w (as.forM g) fun w' _ => ∀ a ∈ as, P w' a := by
  induction as generalizing w with
  | nil => exact pure (List.forall_mem_nil _)
  | cons a as ih =>
    refine bind (h a List.mem_cons_self w) fun w' _ _ ha => ?_
    refine mono (ih fun a' ha' => h a' (List.mem_cons_of_mem a ha')) fun w'' hle _ has => ?_
    exact List.forall_mem_cons.mpr ⟨hmono w' w'' a hle ha, has⟩

/-- Going through a list upholds what each turn does. -/
theorem foldlM {g : β → α → Resolve β} {P : β → Prop} {as : List α}
    (h : ∀ a ∈ as, ∀ w b, P b → (g b a).Upholds c w fun _ => P) {b : β} (hb : P b) :
    Upholds c w (as.foldlM g b) fun _ => P := by
  induction as generalizing w b with
  | nil => exact pure hb
  | cons a as ih =>
    exact bind (h a List.mem_cons_self w b hb) fun _ _ _ hb' =>
      ih (fun a' ha' => h a' (List.mem_cons_of_mem a ha')) hb'

end Resolve.Upholds

namespace ResolveStep

/-- The numbers of the declarations that a step gives their declared types. -/
def declared : ResolveStep → Multiset Nat
  | .declare m _ => {m.id}
  | _ => 0

/-- The numbers of the nodes that a step gives their targets. -/
def targeted : ResolveStep → Multiset Nat
  | .target m _ => {m.id}
  | _ => 0

/-- The numbers of the references whose types a step records. -/
def referred : ResolveStep → Multiset Nat
  | .unite m _ => {m.id}
  | .record m _ => {m.id}
  | _ => 0

end ResolveStep

namespace Resolution

/-- What a step of resolving the imports of a unit may be. -/
def AllowsImport (tree : CompilationUnit) : ResolveStep → Prop
  | .target m _ => ∃ e, tree.Has (.importElement e) ∧ e.mark = m
  | .import _ => True
  | .problem .. => True
  | _ => False

/-- What a step of resolving the nodes of a unit may be. -/
def Context.Allows (c : Context) (tree : CompilationUnit) : ResolveStep → Prop
  | .unite m _ => CompositeIn tree m
  | .target m d => ∃ b : BaseType, tree.Has (.type (.base b)) ∧ b.mark = m ∧
    c.typeNamed? b.mark b.name.text = some d
  | _ => True

/-- The steps of a part of resolving are allowed, and what they cost stays within a budget. -/
def Spends (may : ResolveStep → Prop) (cost : ResolveStep → Multiset Nat) {α : Type} (r : Resolve α)
    (b : Multiset Nat) : Prop :=
  Dialogue.Spends may cost r.run b

namespace Spends

variable {may : ResolveStep → Prop} {cost : ResolveStep → Multiset Nat} {α β : Type} {b b' : Multiset Nat}

/-- Returning a value costs nothing. -/
theorem pure (a : α) : Spends may cost (Pure.pure a : Resolve α) b :=
  trivial

/-- A fatal error costs nothing. -/
theorem throw (e : FatalError) : Spends may cost (MonadExcept.throw e : Resolve α) b :=
  trivial

/-- Parts that follow one another cost what they cost together. -/
theorem bind {r : Resolve α} {f : α → Resolve β} (hr : Spends may cost r b) (hf : ∀ a, Spends may cost (f a) b') :
    Spends may cost (r >>= f) (b + b') := by
  refine Dialogue.Spends.bind hr fun a => ?_
  cases a with
  | error e => trivial
  | ok a => exact hf a

/-- A budget may be raised. -/
theorem mono {r : Resolve α} (hr : Spends may cost r b) (hb : b ≤ b') : Spends may cost r b' :=
  Dialogue.Spends.mono hr hb

/-- What comes before may cost nothing. -/
theorem free_bind {r : Resolve α} {f : α → Resolve β} (hr : Spends may cost r 0) (hf : ∀ a, Spends may cost (f a) b) :
    Spends may cost (r >>= f) b :=
  (hr.bind hf).mono (zero_add b).le

/-- What comes after may cost nothing. -/
theorem bind_free {r : Resolve α} {f : α → Resolve β} (hr : Spends may cost r b) (hf : ∀ a, Spends may cost (f a) 0) :
    Spends may cost (r >>= f) b :=
  (hr.bind hf).mono (add_zero b).le

/-- A step that is allowed costs what it declares. -/
theorem take {step : ResolveStep} (h : may step) (hcost : cost step ≤ b) : Spends may cost (Resolution.take step) b :=
  ⟨h, 0, (add_zero _).trans_le hcost, fun _ => trivial⟩

/-- Throwing away a result costs nothing more. -/
theorem discard {r : Resolve α} (hr : Spends may cost r b) : Spends may cost (Functor.discard r) b :=
  hr.bind_free fun _ => pure _

/-- Going through a list costs what the turns cost together. -/
theorem forM {f : α → Resolve Unit} {c : α → Multiset Nat} {as : List α}
    (hf : ∀ a ∈ as, Spends may cost (f a) (c a)) : Spends may cost (as.forM f) (as.map c).sum := by
  induction as with
  | nil => exact pure ()
  | cons a as ih =>
    exact bind (hf a List.mem_cons_self) fun _ => ih fun a' ha' => hf a' (List.mem_cons_of_mem a ha')

/-- Folding a list costs what the turns cost together. -/
theorem foldlM {f : β → α → Resolve β} {c : α → Multiset Nat} {as : List α}
    (hf : ∀ b, ∀ a ∈ as, Spends may cost (f b a) (c a)) (b : β) :
    Spends may cost (as.foldlM f b) (as.map c).sum := by
  induction as generalizing b with
  | nil => exact pure b
  | cons a as ih =>
    exact bind (hf b a List.mem_cons_self) fun b => ih (fun b a' ha' => hf b a' (List.mem_cons_of_mem a ha')) b

end Spends

/-! ## Nodes -/

section

variable {tree : CompilationUnit} {b : Multiset Nat}

/-- A part of resolving nodes that gives no declaration its declared type. -/
abbrev Refers (c : Context) (tree : CompilationUnit) {α : Type} (r : Resolve α) : Prop :=
  Spends (c.Allows tree) ResolveStep.declared r 0

mutual

/-- Resolving a type only refers to declarations. -/
theorem resolveType_refers (c : Context) : (t : TypeRef) → tree.Has (.type t) → Refers c tree (resolveType c t)
  | .base b, h => .bind_free (resolveBase_refers c b h) fun _ => .pure _
  | .union mark first more, h => by
    refine .bind_free (.take trivial le_rfl) fun known => ?_
    cases known with
    | some t => exact .pure t
    | none =>
      have hfirst : tree.Has (.type first) := h.part (by simp [Node.parts_union])
      have hmore : ∀ t ∈ more, tree.Has (.type t) := fun t ht =>
        h.part (by simpa [Node.parts_union] using .inr ht)
      exact .bind_free (resolveType_refers c first hfirst) fun _ =>
        .bind_free (resolveTypes_refers c more hmore) fun _ => .take (.union h) le_rfl
  | .optional mark inner, h => by
    refine .bind_free (.take trivial le_rfl) fun known => ?_
    cases known with
    | some t => exact .pure t
    | none =>
      have hinner : tree.Has (.type inner) := h.part (by simp [Node.parts_optional])
      exact .bind_free (resolveType_refers c inner hinner) fun _ => .take (.optional h) le_rfl

/-- Resolving a name with its arguments only refers to declarations. -/
theorem resolveBase_refers (c : Context) :
    (b : BaseType) → tree.Has (.type (.base b)) → Refers c tree (resolveBase c b)
  | { mark, name, args }, h => by
    have hargs : ∀ t ∈ args, tree.Has (.type t) := fun t ht => h.part (by simpa [Node.parts_base] using ht)
    refine .bind_free (.take trivial le_rfl) fun known => ?_
    cases known with
    | some t => exact .pure _
    | none =>
      simp only
      split
      · exact .throw _
      · next d hd =>
        refine .bind_free (.take ⟨_, h, rfl, hd⟩ le_rfl) fun _ =>
          .bind_free (resolveTypes_refers c args hargs) fun ts => ?_
        split
        · exact .bind_free (.take trivial le_rfl) fun _ => .bind_free (.take trivial le_rfl) fun _ => .pure _
        · exact .bind_free (.take trivial le_rfl) fun _ => .pure _

/-- Resolving types one after another only refers to declarations. -/
theorem resolveTypes_refers (c : Context) :
    (ts : List TypeRef) → (∀ t ∈ ts, tree.Has (.type t)) → Refers c tree (resolveTypes c ts)
  | [], _ => .pure []
  | t :: ts, h =>
    .bind_free (resolveType_refers c t (h t List.mem_cons_self)) fun _ =>
      .bind_free (resolveTypes_refers c ts fun t' ht' => h t' (List.mem_cons_of_mem t ht')) fun _ => .pure _

end

/-- Resolving the type of a declaration only refers to declarations. -/
theorem resolveDeclared_refers (c : Context) (t : DeclaredType) (h : tree.Has t.node) :
    Refers c tree (resolveDeclared c t) := by
  cases t with
  | ref t => exact .bind_free (resolveType_refers c t h) fun _ => .pure _
  | void mark =>
    refine .bind_free (.take trivial le_rfl) fun known => ?_
    cases known with
    | some t => exact .pure _
    | none => exact .bind_free (.take trivial le_rfl) fun _ => .pure _
  | inferred mark function => exact .pure _

/-- Resolving a satisfied type only refers to declarations. -/
theorem satisfy_refers (c : Context) (m : Mark) (t : TypeRef) (h : tree.Has (.type t)) :
    Refers c tree (satisfy c m t) := by
  refine .bind_free (resolveType_refers c t h) fun st => ?_
  cases st with
  | applied st =>
    simp only
    split
    · exact .take trivial le_rfl
    · exact .take trivial le_rfl
  | unknown => exact .take trivial le_rfl
  | union cases extended => exact .take trivial le_rfl

/-- Resolving satisfied types only refers to declarations. -/
theorem satisfyAll_refers (c : Context) (m : Mark) (ts : List TypeRef) (h : ∀ t ∈ ts, tree.Has (.type t)) :
    Refers c tree (ts.forM (satisfy c m)) :=
  (Spends.forM (c := fun _ => 0) fun t ht => satisfy_refers c m t (h t ht)).mono (by simp)

/-- Resolving a class gives no type to a declaration. -/
theorem resolveClass_refers (c : Context) (n : ClassDecl) (h : tree.Has (.stmt (.classDecl n))) :
    Refers c tree (resolveClass c n) := by
  have hsatisfied := satisfyAll_refers c n.mark n.satisfied fun t ht =>
    h.part (by simp [Node.parts_classDecl, ht])
  simp only [resolveClass]
  split
  · next e he =>
    have hclause : tree.Has (.extendedType e) := h.part (by simp [Node.parts_classDecl, he])
    have htype : tree.Has (.type (.base e.type)) := hclause.part (by simp [Node.parts_extendedType])
    refine .bind_free (resolveBase_refers c e.type htype) fun et => ?_
    split
    · exact .bind_free (.take trivial le_rfl) fun _ => hsatisfied
    · exact .bind_free (.take trivial le_rfl) fun _ => hsatisfied
  · split
    · exact .bind_free (.take trivial le_rfl) fun _ => hsatisfied
    · exact hsatisfied

/-- Setting the type of a declaration is done once. -/
theorem setDeclared_spends (c : Context) (m : Mark) (t : DeclaredType) (h : tree.Has t.node) :
    Spends (c.Allows tree) ResolveStep.declared (setDeclared c m t) {m.id} := by
  refine .free_bind (resolveDeclared_refers c t h) fun known => ?_
  cases known with
  | none => exact .pure _
  | some t => exact .take trivial le_rfl

/-- Visiting a node gives the node itself its declared type at most. -/
theorem visit_spends (c : Context) (n : Node) (h : tree.Has n) :
    Spends (c.Allows tree) ResolveStep.declared (Resolution.visit c n) {n.mark.id} := by
  -- Only variables, parameters, methods and values have a declared type; the other nodes set none.
  cases n with
  | type t => exact (Spends.discard (resolveType_refers c t h)).mono (Multiset.zero_le _)
  | voidType mark => exact (Spends.discard (resolveDeclared_refers c (.void mark) h)).mono (Multiset.zero_le _)
  | typeParameter p => exact .take trivial (Multiset.zero_le _)
  | «variable» v => exact setDeclared_spends c v.mark v.type (h.part (by simp [Node.parts_variable]))
  | parameter p =>
    have htype : tree.Has (.type p.type) := h.part (by simp [Node.parts_parameter])
    exact .free_bind (resolveType_refers c p.type htype) fun _ => .take trivial le_rfl
  | stmt s =>
    cases s with
    | classDecl n => exact (resolveClass_refers c n h).mono (Multiset.zero_le _)
    | interfaceDecl n =>
      refine Spends.mono ?_ (Multiset.zero_le _)
      exact .bind_free (.take trivial le_rfl) fun _ => satisfyAll_refers c n.mark n.satisfied fun t ht =>
        h.part (by simp [Node.parts_interfaceDecl, ht])
    | method n => exact setDeclared_spends c n.mark n.type (h.part (by simp [Node.parts_method]))
    | «attribute» n => exact setDeclared_spends c n.mark n.type (h.part (by simp [Node.parts_attribute]))
    | getter n => exact setDeclared_spends c n.mark n.type (h.part (by simp [Node.parts_getter]))
    | _ => exact .pure ()
  | _ => exact .pure ()

/-- Visiting the nodes of a unit gives each declaration its declared type once at most. -/
theorem visitAll_spends (c : Context) (tree : CompilationUnit) :
    Spends (c.Allows tree) ResolveStep.declared (tree.outline.nodes.forM (Resolution.visit c))
      (Node.unit tree).idSet := by
  refine (Spends.forM fun n hn => visit_spends c n hn).mono (le_of_eq ?_)
  have hsingle := Multiset.sum_map_singleton ((tree.outline.nodes.map (·.mark.id) : List Nat) : Multiset Nat)
  rwa [Multiset.map_coe, Multiset.sum_coe, List.map_map] at hsingle

/-! ## Imports -/

/-- An imported name gets its target once. -/
theorem resolveElement_spends (f : State) (u : UnitId) (p : PackageId) (imports : List Imported)
    (e : ImportElement) (h : tree.Has (.importElement e)) :
    Spends (AllowsImport tree) ResolveStep.targeted (resolveElement f u p imports e) {e.mark.id} := by
  have hreport : ∀ n message, Spends (AllowsImport tree) ResolveStep.targeted (report n message) 0 :=
    fun _ _ => .take trivial le_rfl
  -- The element is given its target once, whichever way it was found.
  have htarget : ∀ i d, Spends (AllowsImport tree) ResolveStep.targeted (do
      take (.import i)
      take (.target e.mark d)
      return imports ++ [i]) {e.mark.id} :=
    fun _ _ => .free_bind (.take trivial le_rfl) fun _ => .bind_free (.take ⟨e, h, rfl⟩ le_rfl) fun _ => .pure _
  simp only [resolveElement]
  split
  · exact .free_bind (hreport _ _) fun _ => .pure _
  · split
    · refine .free_bind (hreport _ _) fun _ => ?_
      split
      · exact .free_bind (hreport _ _) fun _ => .pure _
      · exact htarget _ _
    · split
      · exact .free_bind (hreport _ _) fun _ => .pure _
      · exact htarget _ _

/-- An import gives targets to its elements, each once. -/
theorem resolveImport_spends (f : State) (u : UnitId) (imports : List Imported) (i : Import)
    (h : tree.Has (.import i)) :
    Spends (AllowsImport tree) ResolveStep.targeted (resolveImport f u imports i) (Node.import i).idSet := by
  simp only [resolveImport]
  split
  · exact .throw _
  · refine (Spends.foldlM (fun imports e he => (resolveElement_spends f u _ imports e (h.part ?_)).mono
      (Node.importElement e).id_le_idSet) imports).mono ?_
    · simp [Node.parts_import, he]
    · have helements : (i.elements.map Node.importElement).Sublist (Node.import i).parts :=
        Node.parts_import i ▸ List.sublist_cons_self ..
      simpa [Function.comp_def] using Node.part_idSet_le helements

/-- Resolving the imports of a unit gives each imported name its target once at most. -/
theorem resolveImports_spends (f : State) (u : UnitId) (tree : CompilationUnit) :
    Spends (AllowsImport tree) ResolveStep.targeted (tree.imports.foldlM (resolveImport f u) [])
      (Node.unit tree).idSet := by
  have hparts := Node.parts_unit tree
  refine (Spends.foldlM (fun imports i hi => resolveImport_spends f u imports i ?_) []).mono ?_
  · exact CompilationUnit.Has.part (n := .unit tree) (Node.mem_all _) (by simp [hparts, hi])
  · have himports : (tree.imports.map Node.import).Sublist (Node.unit tree).parts :=
      hparts ▸ (List.sublist_append_right ..).trans (List.sublist_append_left ..)
    simpa [Function.comp_def] using Node.part_idSet_le himports

end

/-! ## References whose types are recorded

The type of a reference is recorded whether there is one already or not.  It is looked up first, and the references
inside it, which are resolved before it is recorded, have other numbers; so there is none. -/

/-- A step records the types of no other references than it says it does. -/
theorem perform_refs {u : UnitId} {s : State} {step : ResolveStep} {k : NodeId}
    (hk : k.unit = u → k.id ∉ step.referred) :
    (perform u step s).2.types.refs[k]? = s.types.refs[k]? := by
  have hother : ∀ m : Mark, k.id ∉ ({m.id} : Multiset Nat) ∨ k.unit ≠ u → (⟨u, m.id⟩ : NodeId) ≠ k := by
    rintro m hm rfl
    exact hm.elim (fun h => h (Multiset.mem_singleton_self _)) fun h => h rfl
  have hm : k.id ∉ step.referred ∨ k.unit ≠ u := by
    by_cases hu : k.unit = u
    · exact .inl (hk hu)
    · exact .inr hu
  cases step with
  | unite m ts => exact getElem?_insert_of_ne (hother m hm)
  | record m t => exact getElem?_insert_of_ne (hother m hm)
  | «recall» | target | problem | «import» => rfl
  | extend | satisfy | declare =>
    simp only [perform, modifyDeclOf, modify, modifyGet, MonadStateOf.modifyGet, StateT.modifyGet, pure]
    split <;> rfl

/-- The references of a unit whose types a step records have none in the state. -/
def RecordsFirst (u : UnitId) (s : State) (step : ResolveStep) : Prop :=
  ∀ i ∈ step.referred, s.types.refs[(⟨u, i⟩ : NodeId)]? = none

/-- Begun in a state in which the references with the first numbers have no types, a part of resolving a unit records
types only of references that have none, and only of those with the second numbers. -/
def Fills (u : UnitId) (blank : Set Nat) {α : Type} (r : Resolve α) (ids : Set Nat) : Prop :=
  ∀ s : State, (∀ i ∈ blank, s.types.refs[(⟨u, i⟩ : NodeId)]? = none) →
    r.run.Suits (perform u) (RecordsFirst u) s ∧
      ∀ i ∉ ids, (r.run.run (perform u) s).2.types.refs[(⟨u, i⟩ : NodeId)]? = s.types.refs[(⟨u, i⟩ : NodeId)]?

namespace Fills

variable {u : UnitId} {α β : Type} {blank ids ids' : Set Nat}

/-- Returning a value records nothing. -/
theorem pure (a : α) : Fills u blank (Pure.pure a : Resolve α) ids :=
  fun _ _ => ⟨trivial, fun _ _ => rfl⟩

/-- A fatal error records nothing. -/
theorem throw (e : FatalError) : Fills u blank (MonadExcept.throw e : Resolve α) ids :=
  fun _ _ => ⟨trivial, fun _ _ => rfl⟩

/-- The references that are recorded may be among more. -/
theorem mono {r : Resolve α} (h : Fills u blank r ids) (hids : ids ⊆ ids') : Fills u blank r ids' := fun s hs =>
  (h s hs).imp_right fun hsame i hi => hsame i fun hmem => hi (hids hmem)

/-- What comes after a part may build on it that references have no types which had none before, as long as the part
records the types of others. -/
theorem bind {blank' : Set Nat} {r : Resolve α} {f : α → Resolve β} (hr : Fills u blank r ids') (hids : ids' ⊆ ids)
    (hstill : ∀ i ∈ blank', i ∈ blank ∧ i ∉ ids') (hf : ∀ a, Fills u blank' (f a) ids) :
    Fills u blank (r >>= f) ids := by
  intro s hs
  obtain ⟨hsuits, hsame⟩ := hr s hs
  rw [ExceptT.run_bind, Dialogue.suits_bind, Dialogue.run_bind_apply]
  generalize (r.run.run (perform u) : Analyze (Except FatalError α)) s = result at hsame ⊢
  obtain ⟨_ | a, s'⟩ := result
  · exact ⟨⟨hsuits, trivial⟩, fun i hi => hsame i fun hmem => hi (hids hmem)⟩
  · obtain ⟨hsuits', hsame'⟩ := hf a s' fun i hi =>
      (hsame i (hstill i hi).2).trans (hs i (hstill i hi).1)
    exact ⟨⟨hsuits, hsuits'⟩, fun i hi => (hsame' i hi).trans (hsame i fun hmem => hi (hids hmem))⟩

/-- One part after the other, when the second can begin in any state. -/
theorem andThen {r : Resolve α} {f : α → Resolve β} (hr : Fills u blank r ids) (hf : ∀ a, Fills u ∅ (f a) ids) :
    Fills u blank (r >>= f) ids :=
  hr.bind subset_rfl (fun _ hi => absurd hi (Set.notMem_empty _)) hf

/-- A part that can begin in any state, before one that can begin while a reference has no type. -/
theorem before {i : Nat} {r : Resolve α} {f : α → Resolve β} (hr : Fills u ∅ r ids') (hids : ids' ⊆ ids) (hi : i ∉ ids')
    (hf : ∀ a, Fills u {i} (f a) ids) : Fills u {i} (r >>= f) ids := by
  have hstill : ∀ j ∈ ({i} : Set Nat), j ∈ ({i} : Set Nat) ∧ j ∉ ids' := fun j hj =>
    ⟨hj, by rwa [Set.mem_singleton_iff.mp hj]⟩
  exact .bind (fun s _ => hr s fun _ hj => absurd hj (Set.notMem_empty _)) hids hstill hf

/-- A step records only what has no type yet. -/
theorem take {step : ResolveStep} (h : ∀ i ∈ step.referred, i ∈ blank) (hids : ∀ i ∈ step.referred, i ∈ ids) :
    Fills u blank (Resolution.take step) ids := fun _ hs =>
  ⟨⟨fun i hi => hs i (h i hi), trivial⟩, fun i hi => perform_refs fun _ hmem => hi (hids i hmem)⟩

/-- A step that records no type of a reference. -/
theorem take_free {step : ResolveStep} (h : step.referred = 0) : Fills u blank (Resolution.take step) ids :=
  take (fun i hi => absurd (h ▸ hi) (Multiset.notMem_zero i)) fun i hi => absurd (h ▸ hi) (Multiset.notMem_zero i)

/-- A step that records no type of a reference, before a part that can begin while a reference has none. -/
theorem before_free {i : Nat} {step : ResolveStep} {f : step.Answer → Resolve β} (h : step.referred = 0)
    (hf : ∀ a, Fills u {i} (f a) ids) : Fills u {i} (Resolution.take step >>= f) ids :=
  before (take_free h) (Set.empty_subset _) (Set.notMem_empty i) hf

/-- A reference whose type has been looked up in vain has none. -/
theorem recalled {m : Mark} {f : Option Ty → Resolve β} (hsome : ∀ t, Fills u ∅ (f (some t)) ids)
    (hnone : Fills u {m.id} (f none) ids) : Fills u ∅ (Resolution.take (.recall m) >>= f) ids := by
  intro s hs
  rw [ExceptT.run_bind]
  change (RecordsFirst u s (.recall m) ∧ (f s.types.refs[(⟨u, m.id⟩ : NodeId)]?).run.Suits _ _ s) ∧
    ∀ i ∉ ids, ((f s.types.refs[(⟨u, m.id⟩ : NodeId)]?).run.run (perform u) s).2.types.refs[_]? = _
  have hrecall : RecordsFirst u s (.recall m) := fun i hi => absurd hi (Multiset.notMem_zero i)
  cases hknown : s.types.refs[(⟨u, m.id⟩ : NodeId)]? with
  | some t =>
    obtain ⟨hsuits, hsame⟩ := hsome t s hs
    exact ⟨⟨hrecall, hsuits⟩, hsame⟩
  | none =>
    obtain ⟨hsuits, hsame⟩ := hnone s fun i hi => by rwa [Set.mem_singleton_iff.mp hi]
    exact ⟨⟨hrecall, hsuits⟩, hsame⟩

/-- Going through a list records only what each turn records. -/
theorem forM {f : α → Resolve Unit} {as : List α} (hf : ∀ a ∈ as, Fills u ∅ (f a) ids) : Fills u ∅ (as.forM f) ids := by
  induction as with
  | nil => exact pure ()
  | cons a as ih =>
    exact (hf a List.mem_cons_self).andThen fun _ => ih fun a' ha' => hf a' (List.mem_cons_of_mem a ha')

/-- A part of resolving that records no types of references. -/
theorem of_ensures {r : Resolve α}
    (h : r.run.Ensures (fun step => step.referred = 0) (fun _ _ => True) fun _ => True) : Fills u blank r ids := by
  suffices ∀ s, r.run.Suits (perform u) (RecordsFirst u) s ∧
      ∀ k, (r.run.run (perform u) s).2.types.refs[k]? = s.types.refs[k]? from
    fun s _ => (this s).imp_right fun hsame i _ => hsame _
  generalize r.run = d at h
  intro s
  induction d generalizing s with
  | done a => exact ⟨trivial, fun _ => rfl⟩
  | ask step next ih =>
    obtain ⟨hstep, hnext⟩ := h
    have hnothing : ∀ i, i ∉ step.referred := fun i => hstep ▸ Multiset.notMem_zero i
    obtain ⟨hsuits, hsame⟩ := ih _ (hnext _ trivial) (perform u step s).2
    exact ⟨⟨fun i hi => absurd hi (hnothing i), hsuits⟩,
      fun k => (hsame k).trans (perform_refs fun _ => hnothing k.id)⟩

end Fills

section

variable {u : UnitId} {tree : CompilationUnit}

/-- What stands below a part stands below the node. -/
theorem below_subset {n part : Node} (hpart : part ∈ n.parts) : {i | i ∈ part.idSet} ⊆ {i | i ∈ n.idSet} := by
  intro i hi
  have hle := Node.part_idSet_le (List.singleton_sublist.mpr hpart)
  rw [List.map_singleton, List.sum_singleton] at hle
  exact Multiset.mem_of_le hle hi

/-- A node stands below itself. -/
theorem id_mem_below (n : Node) : n.mark.id ∈ {i | i ∈ n.idSet} :=
  Multiset.mem_of_le n.id_le_idSet (Multiset.mem_singleton_self _)

/-- Recording the type of a reference that has none. -/
theorem take_fills {m : Mark} {step : ResolveStep} (hstep : step.referred = {m.id}) {ids : Set Nat} (hm : m.id ∈ ids) :
    Fills u {m.id} (take step) ids := by
  refine .take ?_ ?_ <;> rw [hstep] <;> rintro i hi <;> obtain rfl := Multiset.mem_singleton.mp hi
  · exact Set.mem_singleton _
  · exact hm

mutual

/-- Resolving a reference records types of the references in it, itself included, if they have none. -/
theorem resolveType_fills (hnumbered : tree.Numbered) (c : Context) :
    (t : TypeRef) → tree.Has (.type t) →
    Fills u ∅ (resolveType c t) {i | i ∈ (Node.type t).idSet}
  | .base b, h => (resolveBase_fills hnumbered c b h).andThen fun _ => .pure _
  | .union mark first more, h => by
    have hfirst : Node.type first ∈ (Node.type (.union mark first more)).parts := by simp [Node.parts_union]
    have hmore : ∀ t ∈ more, Node.type t ∈ (Node.type (.union mark first more)).parts := fun t ht => by
      simpa [Node.parts_union] using .inr ht
    -- What has been recorded is taken; else the cases are resolved first, none of which is the union itself.
    refine .recalled (fun t => .pure t) ?_
    refine .before (resolveType_fills hnumbered c first (h.part hfirst)) (below_subset hfirst)
      (hnumbered.id_notMem_part h hfirst) fun _ => ?_
    refine .before (resolveTypes_fills hnumbered c more fun t ht => h.part (hmore t ht)) ?_ ?_ fun _ =>
      take_fills rfl (id_mem_below (.type (.union mark first more)))
    · rintro i ⟨t, ht, hi⟩
      exact below_subset (hmore t ht) hi
    · rintro ⟨t, ht, hi⟩
      exact hnumbered.id_notMem_part h (hmore t ht) hi
  | .optional mark inner, h => by
    have hinner : Node.type inner ∈ (Node.type (.optional mark inner)).parts := by simp [Node.parts_optional]
    refine .recalled (fun t => .pure t) ?_
    exact .before (resolveType_fills hnumbered c inner (h.part hinner)) (below_subset hinner)
      (hnumbered.id_notMem_part h hinner) fun _ => take_fills rfl (id_mem_below (.type (.optional mark inner)))

/-- Resolving a name with its arguments fills in what stands below it. -/
theorem resolveBase_fills (hnumbered : tree.Numbered) (c : Context) :
    (b : BaseType) → tree.Has (.type (.base b)) →
    Fills u ∅ (resolveBase c b) {i | i ∈ (Node.type (.base b)).idSet}
  | { mark, name, args }, h => by
    have hargs : ∀ t ∈ args, Node.type t ∈ (Node.type (.base { mark, name, args })).parts := fun t ht => by
      simpa [Node.parts_base] using ht
    -- The reference is recorded last, when its arguments have been resolved.
    have hrecord : ∀ t : Applied, Fills u {mark.id} (do
        take (.record mark (.applied t))
        return t) {i | i ∈ (Node.type (.base { mark, name, args })).idSet} := fun t =>
      (take_fills rfl (id_mem_below (.type (.base { mark, name, args })))).andThen fun _ => .pure _
    refine .recalled (fun t => .pure _) ?_
    dsimp only
    split
    · exact .throw _
    · next d hd =>
      refine .before_free rfl fun _ => ?_
      refine .before (resolveTypes_fills hnumbered c args fun t ht => h.part (hargs t ht)) ?_ ?_ fun ts => ?_
      · rintro i ⟨t, ht, hi⟩
        exact below_subset (hargs t ht) hi
      · -- A node is not among the nodes of its parts, as all nodes have numbers of their own.
        rintro ⟨t, ht, hi⟩
        exact hnumbered.id_notMem_part h (hargs t ht) hi
      · split
        · exact .before_free rfl fun _ => hrecord _
        · exact hrecord _

/-- Resolving types one after another fills in what stands below them. -/
theorem resolveTypes_fills (hnumbered : tree.Numbered) (c : Context) :
    (ts : List TypeRef) → (∀ t ∈ ts, tree.Has (.type t)) →
    Fills u ∅ (resolveTypes c ts) {i | ∃ t ∈ ts, i ∈ (Node.type t).idSet}
  | [], _ => .pure []
  | t :: ts, h => by
    have hfirst := resolveType_fills hnumbered c t (h t List.mem_cons_self)
    have hrest := resolveTypes_fills hnumbered c ts fun t' ht' => h t' (List.mem_cons_of_mem t ht')
    refine .andThen (hfirst.mono fun i hi => ⟨t, List.mem_cons_self, hi⟩) fun _ =>
      .andThen (hrest.mono ?_) fun _ => .pure _
    rintro i ⟨t', ht', hi⟩
    exact ⟨t', List.mem_cons_of_mem t ht', hi⟩

end

variable (hnumbered : tree.Numbered)
include hnumbered

/-- A part of resolving that looks up the types of references before it records them. -/
abbrev LooksUp (u : UnitId) {α : Type} (r : Resolve α) : Prop :=
  Fills u ∅ r Set.univ

/-- Resolving the type of a declaration looks up what is recorded first. -/
theorem resolveDeclared_looksUp (c : Context) (t : DeclaredType) (h : tree.Has t.node) :
    LooksUp u (resolveDeclared c t) := by
  cases t with
  | ref t => exact ((resolveType_fills hnumbered c t h).mono (Set.subset_univ _)).andThen fun _ => .pure _
  | void mark =>
    refine .recalled (fun t => .pure _) ?_
    exact (take_fills rfl (Set.mem_univ _)).andThen fun _ => .pure _
  | inferred mark function => exact .pure _

/-- Setting the type of a declaration looks up what is recorded first. -/
theorem setDeclared_looksUp (c : Context) (m : Mark) (t : DeclaredType) (h : tree.Has t.node) :
    LooksUp u (setDeclared c m t) := by
  refine (resolveDeclared_looksUp hnumbered c t h).andThen fun known => ?_
  cases known with
  | none => exact .pure _
  | some t => exact .take_free rfl

/-- Resolving satisfied types looks up what is recorded first. -/
theorem satisfyAll_looksUp (c : Context) (m : Mark) (ts : List TypeRef) (h : ∀ t ∈ ts, tree.Has (.type t)) :
    LooksUp u (ts.forM (satisfy c m)) := by
  refine .forM fun t ht => ((resolveType_fills hnumbered c t (h t ht)).mono (Set.subset_univ _)).andThen fun st => ?_
  cases st with
  | applied st =>
    dsimp only
    split
    · exact .take_free rfl
    · exact .take_free rfl
  | unknown => exact .take_free rfl
  | union cases extended => exact .take_free rfl

/-- Resolving a class looks up what is recorded first. -/
theorem resolveClass_looksUp (c : Context) (n : ClassDecl) (h : tree.Has (.stmt (.classDecl n))) :
    LooksUp u (resolveClass c n) := by
  have hsatisfied : LooksUp u (n.satisfied.forM (satisfy c n.mark)) :=
    satisfyAll_looksUp hnumbered c n.mark n.satisfied fun t ht => h.part (by simp [Node.parts_classDecl, ht])
  simp only [resolveClass]
  split
  · next e he =>
    have hclause : tree.Has (.extendedType e) := h.part (by simp [Node.parts_classDecl, he])
    have htype : tree.Has (.type (.base e.type)) := hclause.part (by simp [Node.parts_extendedType])
    refine ((resolveBase_fills hnumbered c e.type htype).mono (Set.subset_univ _)).andThen fun et => ?_
    split
    · exact (Fills.take_free rfl).andThen fun _ => hsatisfied
    · exact (Fills.take_free rfl).andThen fun _ => hsatisfied
  · split
    · exact (Fills.take_free rfl).andThen fun _ => hsatisfied
    · exact hsatisfied

/-- Resolving a node looks up what is recorded first. -/
theorem visit_looksUp (c : Context) (n : Node) (h : tree.Has n) : LooksUp u (Resolution.visit c n) := by
  cases n with
  | type t => exact ((resolveType_fills hnumbered c t h).mono (Set.subset_univ _)).andThen fun _ => .pure _
  | voidType mark => exact (resolveDeclared_looksUp hnumbered c (.void mark) h).andThen fun _ => .pure _
  | typeParameter p => exact .take_free rfl
  -- A node sets types only below itself, and the other kinds of nodes set none.
  | «variable» v => exact setDeclared_looksUp hnumbered c v.mark v.type (h.part (by simp [Node.parts_variable]))
  | parameter p =>
    have htype : tree.Has (.type p.type) := h.part (by simp [Node.parts_parameter])
    exact ((resolveType_fills hnumbered c p.type htype).mono (Set.subset_univ _)).andThen fun _ => .take_free rfl
  | stmt s =>
    cases s with
    | classDecl n => exact resolveClass_looksUp hnumbered c n h
    | interfaceDecl n =>
      refine (Fills.take_free rfl).andThen fun _ => satisfyAll_looksUp hnumbered c n.mark n.satisfied fun t ht => ?_
      exact h.part (by simp [Node.parts_interfaceDecl, ht])
    | method n => exact setDeclared_looksUp hnumbered c n.mark n.type (h.part (by simp [Node.parts_method]))
    | «attribute» n => exact setDeclared_looksUp hnumbered c n.mark n.type (h.part (by simp [Node.parts_attribute]))
    | getter n => exact setDeclared_looksUp hnumbered c n.mark n.type (h.part (by simp [Node.parts_getter]))
    | _ => exact .pure ()
  | _ => exact .pure ()

/-- Visiting the nodes of a unit records the type of a reference only if there is none. -/
theorem visitAll_looksUp (c : Context) : LooksUp u (tree.outline.nodes.forM (Resolution.visit c)) :=
  .forM fun n hn => visit_looksUp hnumbered c n hn

/-- Resolving a unit records the type of a reference only if there is none. -/
theorem resolveUnit_looksUp (f : State) (v : UnitId) : LooksUp u (resolveUnit f v tree) := by
  refine .andThen (.of_ensures ?_) fun imports => visitAll_looksUp hnumbered ⟨f, v, imports⟩
  refine (Dialogue.Spends.ensures (resolveImports_spends f v tree)).of_may fun step hstep => ?_
  cases step <;> first | rfl | cases hstep

end

end Resolution

end Analysis

end Ceylon
