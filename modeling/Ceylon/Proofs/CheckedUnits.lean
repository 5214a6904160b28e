import Ceylon.Proofs.Analyses
import Ceylon.Proofs.CheckedBodies

/-!
# What checking units finds

Checking a unit performs its tasks and, on the way, tasks of other units whose results it needs.  What it
records is right at any time, and the tasks that have been begun are either still under way or have left
nothing undone (`Sound`).  No task is refused for lack of depth: those under way are different ones, each that
of a unit or of a declaration.
-/

namespace Ceylon.Analysis

open Model Syntax

/-! ## Findings -/

/-- A problem has been found in a unit of the program. -/
def State.HasFindings (s : State) : Prop :=
  ∃ u, u ≠ languageUnit ∧ (s.unit u).diagnostics ≠ #[]

/-- A problem has been found where none is tolerated. -/
def State.Spoiled (s : State) (ℓ : Leeway) : Prop :=
  ¬ ℓ.lax ∧ s.HasFindings

theorem State.HasFindings.advances {s s' : State} (hs : s.HasFindings) (h : s.Advances s') :
    s'.HasFindings := by
  obtain ⟨u, hu, hfound⟩ := hs
  exact ⟨u, hu, (h.units u).diagnostics_ne hfound⟩

theorem State.Spoiled.advances {s s' : State} {ℓ : Leeway} (hs : s.Spoiled ℓ) (h : s.Advances s') :
    s'.Spoiled ℓ :=
  ⟨hs.1, hs.2.advances h⟩

theorem Leads.spoiled {α : Type} {m : Analyze α} (h : Leads State.Refines m) {s : State} {ℓ : Leeway}
    (hs : s.Spoiled ℓ) : (m s).2.Spoiled ℓ :=
  hs.advances (h s).toAdvances

section

variable {s : State} {u : UnitId} (hu : u ≠ languageUnit) (hvalid : u.index < s.units.size)
include hu hvalid

/-- A problem that is reported in a unit of the program is found. -/
theorem hasFindings_report (n : Node) (message : String) : (report u n message s).2.HasFindings := by
  refine ⟨u, hu, ?_⟩
  change (State.unit { s with units := s.units.modify u.index _ } u).diagnostics ≠ #[]
  rw [State.unit_modify, if_pos ⟨rfl, hvalid⟩]
  exact Diagnostic.addTo_ne_empty _ _

end

/-! ## Where types come from -/

/-- Where a declaration has its type from. -/
inductive State.GetsType (f : State) (d : DeclId) : Prop
  | declared (h : (f.graph.decl d).shape.type.isKnown = true)
  | byTask {u : UnitId} {task : Task} (h : f.inference? d = some (u, task))
      (hinference : task.isInference = true)
  | byClause {u : UnitId} {v : Variable} (hunit : (f.graph.decl d).unit = some u)
      (hnode : (f.graph.decl d).node = some (.variable v)) (hinferred : v.type.isInferred = true)
  | ofGetter {t : Ty} {g : DeclId} (h : (f.graph.decl d).shape = .setter t (some g))

/-- A state whose names have been resolved completely, but where types may be missing. -/
structure State.Ready (f : State) (ℓ : Leeway) : Prop extends f.Prepared ℓ where
  gets : ∀ d, d.index < f.graph.decls.size → (f.graph.decl d).shape.isTyped = true → ℓ.blank ∨ f.GetsType d
  language : ∀ d, (f.graph.decl d).unit = some languageUnit → (f.graph.decl d).shape.isTyped = true →
    (f.graph.decl d).shape.type.isKnown = true

/-! ## What has been found out -/

namespace State

/-- How far checking has come. -/
def progress (s : State) : Progress where
  given k := s.graph.inferred[k]?.isSome = true
  settled k := s.types.exprs[k]?.isSome = true
  begun k := s.checked.contains k = true

/-- What checks have found out is right, and of the tasks that have been begun all but the given ones have
been performed.  Those are under way. -/
structure Sound (s f : State) (ℓ : Leeway) (root : NodeId) (under : List NodeId) : Prop where
  facts : s.facts = f
  exprs : ∀ (k : NodeId) t, s.types.exprs[k]? = some t → t.Within (s.progress.outlook f ℓ).toHorizon
  inferred : ∀ (k : NodeId) t, s.graph.inferred[k]? = some t → t.Fits (s.progress.outlook f ℓ)
  done : ∀ (u : UnitId) (task : Task), u ≠ languageUnit → f.HasNode u task.node → s.progress.begun ⟨u, task.mark.id⟩ →
    (⟨u, task.mark.id⟩ : NodeId) ∉ under → (∃ t, Finished f ℓ u task s.progress t) ∧
      (task.givesType = true → s.progress.given ⟨u, task.mark.id⟩)
  nodup : under.Nodup
  begun : ∀ k ∈ under, s.progress.begun k
  listed : ∀ k ∈ under, k = root ∨ k ∈ f.decls
  inferring : ∀ (u : UnitId) (task : Task), f.HasNode u task.node → task.isInference = true →
    (⟨u, task.mark.id⟩ : NodeId) ∈ under → (⟨u, task.mark.id⟩ : NodeId) ∈ s.inferring

end State

section

variable {f : State} {ℓ : Leeway} {root : NodeId} {under : List NodeId} {s s' : State}

/-- What is right stays right when something right is added. -/
theorem State.Sound.grow (hs : s.Sound f ℓ root under) (hfacts : s'.facts = s.facts)
    (hle : s.progress.Le s'.progress) (hchecked : s'.checked = s.checked)
    (hinferring : s'.inferring = s.inferring)
    (hexprs : ∀ (k : NodeId) t, s'.types.exprs[k]? = some t →
      s.types.exprs[k]? = some t ∨ t.Within (s.progress.outlook f ℓ).toHorizon)
    (hinferred : ∀ (k : NodeId) t, s'.graph.inferred[k]? = some t →
      s.graph.inferred[k]? = some t ∨ t.Fits (s.progress.outlook f ℓ)) :
    s'.Sound f ℓ root under where
  facts := hfacts.trans hs.facts
  exprs k t ht := ((hexprs k t ht).elim (hs.exprs k t) id).mono hle.outlook.toLe
  inferred k t ht := ((hinferred k t ht).elim (hs.inferred k t) id).mono hle.outlook
  done u task hu hhas hbegun hnot := by
    rw [progress, hchecked] at hbegun
    obtain ⟨⟨t, ht⟩, hgiven⟩ := hs.done u task hu hhas hbegun hnot
    exact ⟨⟨t, ht.mono hle⟩, fun hgives => hle.given _ (hgiven hgives)⟩
  nodup := hs.nodup
  begun k hk := hle.begun k (hs.begun k hk)
  listed := hs.listed
  inferring u task hhas hinference hk := hinferring ▸ hs.inferring u task hhas hinference hk

end

/-! ## The types of declarations -/

/-- A declaration has the type that it is declared with, or the one that has been inferred for it. -/
theorem typeOf_of_isKnown {g : Graph} {d : DeclId} (hknown : (g.typeOf d).isKnown = true) :
    (g.decl d).shape.type.isKnown = true ∧ g.typeOf d = (g.decl d).shape.type ∨
      ∃ k, g.nodeOf? d = some k ∧ g.inferred[k]? = some (g.typeOf d) := by
  unfold Graph.typeOf at hknown ⊢
  dsimp only at hknown ⊢
  split at hknown
  · next h => exact .inl ⟨h, if_pos h⟩
  · next h =>
    rw [if_neg h]
    refine .inr ?_
    split at hknown
    case h_5 => cases hknown
    all_goals
      unfold Graph.inferredType at hknown ⊢
      cases hinferred : (g.nodeOf? d).bind fun k => g.inferred[k]? with
      | none =>
        rw [hinferred] at hknown
        cases hknown
      | some t => exact Option.bind_eq_some_iff.mp hinferred

/-- What is inferred for a declaration without a type is not known. -/
theorem unknown_of_typeOf {g : Graph} {d : DeclId} {k : NodeId} {t : Ty}
    (hunknown : (g.typeOf d).isKnown = false) (hnode : g.nodeOf? d = some k)
    (hkind : (g.decl d).shape.kind = .method ∨ (g.decl d).shape.kind = .value ∨
      (g.decl d).shape.kind = .getter)
    (ht : g.inferred[k]? = some t) : t.isKnown = false := by
  have hinferred : g.inferredType d = t := by simp [Graph.inferredType, hnode, ht]
  have hcases : (g.typeOf d).isKnown = true ∨ g.typeOf d = t := by
    unfold Graph.typeOf
    dsimp only
    split
    · next h => exact .inl h
    · cases hshape : (g.decl d).shape <;> simp_all [Shape.kind]
  rcases hcases with hknown | rfl
  · exact absurd (hunknown.symm.trans hknown) Bool.false_ne_true
  · exact hunknown

/-- A declaration without a type has not been declared with one. -/
theorem declared_unknown {g : Graph} {d : DeclId} (h : (g.typeOf d).isKnown = false) :
    (g.decl d).shape.type.isKnown = false := by
  by_contra hknown
  rw [Bool.not_eq_false] at hknown
  rw [Graph.typeOf, if_pos hknown, hknown] at h
  cases h

section

variable {f : State} {ℓ : Leeway} {p : Progress} {d : DeclId} {u : UnitId}

/-- The variable of a clause has been given its type before its declaration comes into sight. -/
theorem given_of_clause (hf : f.Layout) {v : Variable} (hd : (p.outlook f ℓ).sees d)
    (hunit : (f.graph.decl d).unit = some u) (hnode : (f.graph.decl d).node = some (.variable v))
    (hinferred : v.type.isInferred = true) : p.given ⟨u, v.mark.id⟩ := by
  obtain ⟨-, c, -, hlaid, hdeclares⟩ := hf.declares hd.1 hunit hnode
  obtain ⟨b, n, hhead, hopens, hv⟩ := hlaid.held v rfl
  have hmem : .block b ∈ (f.graph.decl d).scope := hdeclares.scope ▸ List.mem_of_mem_head? hhead
  have hentered := hd.2 b hmem
  rw [State.Entered, hopens.body] at hentered
  exact hentered v hv hinferred

/-- A declaration without a type is not one of the language module. -/
theorem State.Ready.ne_languageUnit (hf : f.Ready ℓ) (hunit : (f.graph.decl d).unit = some u)
    (htyped : (f.graph.decl d).shape.isTyped = true)
    (hunknown : (f.graph.decl d).shape.type.isKnown = false) : u ≠ languageUnit := by
  rintro rfl
  rw [hf.language d hunit htyped] at hunknown
  cases hunknown

/-- The task that infers the type of a declaration in sight is reached. -/
theorem reaches_of_inference? (hf : f.Layout) {task : Task} (hd : (p.outlook f ℓ).sees d)
    (hfound : f.inference? d = some (u, task)) (hu : u ≠ languageUnit) : f.Reaches p.given u task.node := by
  obtain ⟨hunit, hnode, -⟩ := State.inference?_eq_some hfound
  obtain ⟨hhas, c, hstands, -, hdeclares⟩ := hf.declares hd.1 hunit hnode
  refine ⟨hu, hhas, fun c' hc' b hb => hd.2 b ?_⟩
  obtain rfl : c = c' := Option.some.inj (hstands.symm.trans hc')
  exact hdeclares.scope ▸ hb

end

section

variable {f : State} {ℓ : Leeway} {root : NodeId} {under : List NodeId} {s : State}
  (hs : s.Sound f ℓ root under)
include hs

theorem State.Sound.decl (d : DeclId) : s.graph.decl d = f.graph.decl d := by
  rw [← hs.facts]
  rfl

theorem State.Sound.nodeOf? (d : DeclId) : s.graph.nodeOf? d = f.graph.nodeOf? d := by
  rw [← hs.facts]
  rfl

/-- The type that a declaration in sight has is built from what is in sight. -/
theorem State.Sound.typeOf_within (hf : f.Prepared ℓ) {d : DeclId}
    (hd : (s.progress.outlook f ℓ).sees d) (hknown : (s.graph.typeOf d).isKnown = true) :
    (s.graph.typeOf d).Within (s.progress.outlook f ℓ).toHorizon := by
  rcases typeOf_of_isKnown hknown with ⟨hdeclared, heq⟩ | ⟨k, -, hinferred⟩
  · rw [heq]
    rw [hs.decl] at hdeclared ⊢
    exact (hf.declared d hd.1 hdeclared).mono (f.around_le_outlook ℓ hd.2)
  · exact (hs.inferred k _ hinferred).within_of_isKnown hknown

/-- If a type has been inferred for a declaration that has none, types may be missing. -/
theorem State.Sound.blank_of_given {d : DeclId} {k : NodeId}
    (hunknown : (s.graph.typeOf d).isKnown = false) (hnode : f.graph.nodeOf? d = some k)
    (hkind : (f.graph.decl d).shape.kind = .method ∨ (f.graph.decl d).shape.kind = .value ∨
      (f.graph.decl d).shape.kind = .getter)
    (hgiven : s.progress.given k) : ℓ.blank := by
  obtain ⟨t, ht⟩ := Option.isSome_iff_exists.mp hgiven
  rw [← hs.nodeOf?] at hnode
  rw [← hs.decl] at hkind
  exact (hs.inferred k t ht).blank_of_unknown (unknown_of_typeOf hunknown hnode hkind ht)

/-- If the variable of a clause has no type when its declaration is in sight, types may be missing. -/
theorem State.Sound.blank_of_clause (hf : f.Layout) {d : DeclId} {u : UnitId} {v : Variable}
    (hd : (s.progress.outlook f ℓ).sees d) (hunit : (f.graph.decl d).unit = some u)
    (hnode : (f.graph.decl d).node = some (.variable v)) (hinferred : v.type.isInferred = true)
    (hunknown : (s.graph.typeOf d).isKnown = false) : ℓ.blank := by
  obtain ⟨-, c, -, -, hdeclares⟩ := hf.declares hd.1 hunit hnode
  refine hs.blank_of_given hunknown ?_ ?_ (given_of_clause hf hd hunit hnode hinferred)
  · simp [Graph.nodeOf?, hunit, hnode, Node.mark]
  · have hkind := Option.some.inj hdeclares.kind
    exact .inr (.inl hkind.symm)

end

theorem Task.givesType_of_isInference (task : Task) (h : task.isInference = true) :
    task.givesType = true := by
  cases task <;> first | exact h | rfl

/-! ## Taking steps -/

/-- What is recorded during checks leaves the facts alone. -/
theorem facts_modifyUnit (s : State) (u : UnitId) {g : UnitState → UnitState}
    (hg : ∀ unit, (g unit).facts = unit.facts) :
    ({ s with units := s.units.modify u.index g } : State).facts = s.facts := by
  simp only [State.facts, map_modify_of_view_eq s.units u.index hg]

section

variable (f : State) (ℓ : Leeway) (root : NodeId) (under : List NodeId)

/-- An action that begins in a sound state has led to a spoiled one, or to a sound one in which its result
has the property. -/
def Ends {α : Type} (s : State) (r : α × State) (P : Progress → α → Prop) : Prop :=
  r.2.Spoiled ℓ ∨
    r.2.Sound f ℓ root under ∧ s.progress.Le r.2.progress ∧ P r.2.progress r.1

/-- What is to be demanded has tasks performed. -/
def Performs (demand : UnitId → Task → Analyze Unit) : Prop :=
  ∀ (u : UnitId) (task : Task) (s : State), s.Sound f ℓ root under → u ≠ languageUnit →
    f.Reaches s.progress.given u task.node → task.node.isTask = true →
    Ends f ℓ root under s (demand u task s) fun p _ => p.begun ⟨u, task.mark.id⟩

end

section

variable {f : State} {ℓ : Leeway} {root : NodeId} {under : List NodeId} {s : State}
  {demand : UnitId → Task → Analyze Unit}

/-- The type of a declaration that is one's own or that of one's getter. -/
theorem principal_sees (hf : f.Layout) {given : NodeId → Prop} {d : DeclId}
    (hd : (f.outlook ℓ given).sees d) (htyped : (f.graph.decl d).shape.isTyped = true) :
    (f.outlook ℓ given).sees (f.graph.principal d) ∧
      (f.graph.decl (f.graph.principal d)).shape.isTyped = true ∧
      ∀ t g, (f.graph.decl (f.graph.principal d)).shape ≠ .setter t (some g) := by
  unfold Graph.principal
  split
  · next t g hshape =>
    have hin := hf.grounded.getters d hd.1 t g hshape
    refine ⟨⟨hin.valid, fun b hb => hd.2 b (hin.scope ▸ hb)⟩, ?_, fun t' g' h => ?_⟩
    · have hkind := hin.kind
      cases hgetter : (f.graph.decl g).shape <;> simp_all [Shape.kind, Shape.isTyped, Shape.isType]
    · have hkind := hin.kind
      rw [h] at hkind
      cases hkind
  · next hshape => exact ⟨hd, htyped, hshape⟩

theorem State.Sound.valid (hs : s.Sound f ℓ root under) {u : UnitId} (hbound : (f.unit u).isBound = true) :
    u.index < s.units.size := by
  refine State.valid_of_isBound (s := s) ?_
  rw [← hs.facts, State.facts, State.unit, Array.getD_eq_getD_getElem?, Array.getElem?_map] at hbound
  rw [State.unit, Array.getD_eq_getD_getElem?]
  cases hunit : s.units[u.index]? with
  | none =>
    rw [hunit] at hbound
    cases hbound
  | some unit =>
    rw [hunit] at hbound
    exact hbound

theorem facts_report (s : State) (u : UnitId) (n : Node) (message : String) :
    (report u n message s).2.facts = s.facts :=
  facts_modifyUnit s u fun _ => rfl

/-- Recording the type of an expression, unless it is missing. -/
theorem recordExpr_ends (hs : s.Sound f ℓ root under) {k : NodeId} {t : Ty}
    (ht : t.Fits (s.progress.outlook f ℓ)) (target : Option DeclId) :
    Ends f ℓ root under s (Checking.recordExpr k t target s) fun p _ => ℓ.blank ∨ p.settled k := by
  obtain ⟨targets, hstate⟩ : ∃ targets, (Checking.recordExpr k t target s).2 = { s with
      types := if t.isKnown then { s.types with exprs := s.types.exprs.insertIfNew k t } else s.types
      targets } := ⟨_, rfl⟩
  rw [Ends, hstate]
  -- An unknown type is not recorded, which is all right only where types may be missing.
  cases hknown : t.isKnown with
  | false =>
    refine .inr ⟨hs.grow rfl (.refl _) rfl rfl (fun _ _ => .inl) fun _ _ => .inl, .refl _, ?_⟩
    exact .inl (ht.blank_of_unknown hknown)
  | true =>
    have hle : s.progress.Le
        (State.progress { s with types := { s.types with exprs := s.types.exprs.insertIfNew k t } }) :=
      ⟨fun _ => id, fun _ => isSome_insertIfNew_of_isSome, fun _ => id⟩
    refine .inr ⟨hs.grow rfl hle rfl rfl (fun k' t' ht' => ?_) fun _ _ => .inl, hle, ?_⟩
    · refine (eq_of_getElem?_insertIfNew ht').imp id ?_
      rintro rfl
      exact ht.within_of_isKnown hknown
    · exact .inr isSome_insertIfNew_self

/-- Recording an inferred type. -/
theorem recordInferred_ends (hs : s.Sound f ℓ root under) {k : NodeId} {t : Ty}
    (ht : t.Fits (s.progress.outlook f ℓ)) :
    Ends f ℓ root under s (Checking.recordInferred k t s) fun p _ => p.given k := by
  have hle : s.progress.Le
      (State.progress { s with graph := { s.graph with inferred := s.graph.inferred.insertIfNew k t } }) :=
    ⟨fun _ => isSome_insertIfNew_of_isSome, fun _ => id, fun _ => id⟩
  refine .inr ⟨hs.grow rfl hle rfl rfl (fun _ _ => .inl) fun k' t' ht' => ?_, hle, isSome_insertIfNew_self⟩
  refine (eq_of_getElem?_insertIfNew ht').imp id ?_
  rintro rfl
  exact ht

theorem demandType_ends (hf : f.Ready ℓ) (hs : s.Sound f ℓ root under)
    (hdemand : Performs f ℓ root under demand) {d : DeclId} (hd : (s.progress.outlook f ℓ).sees d)
    (htyped : (f.graph.decl d).shape.isTyped = true) :
    Ends f ℓ root under s (Checking.demandType f demand d s) fun p r =>
      ∀ t, r = some t → t.Fits (p.outlook f ℓ) := by
  obtain ⟨hd, htyped, hnot⟩ := principal_sees hf.layout hd htyped
  rw [Checking.demandType, get_bind_apply]
  dsimp only
  generalize f.graph.principal d = d at hd htyped hnot ⊢
  have stays : ∀ {r : Option Ty}, (∀ t, r = some t → t.Fits (s.progress.outlook f ℓ)) →
      Ends f ℓ root under s (r, s) fun p r => ∀ t, r = some t → t.Fits (p.outlook f ℓ) :=
    fun h => .inr ⟨hs, .refl _, h⟩
  split
  · next hknown =>
    refine stays fun t ht => ?_
    obtain rfl := Option.some.inj ht
    exact .within (hs.typeOf_within hf.toPrepared hd hknown)
  · next hunknown =>
    rw [Bool.not_eq_true] at hunknown
    have hdeclared := hs.decl d ▸ declared_unknown hunknown
    have hmissing : ∀ {t : Ty}, ℓ.blank → some Ty.unknown = some t → t.Fits (s.progress.outlook f ℓ) := by
      rintro _ hblank ⟨rfl⟩
      exact .missing hblank
    -- A declaration without a type waits for a task, unless types may be missing.
    have hwaits : ℓ.blank ∨ ∃ u task, f.inference? d = some (u, task) ∧ task.isInference = true := by
      refine (hf.gets d hd.1 htyped).elim .inl fun hgets => ?_
      cases hgets with
      | declared h => exact absurd (hdeclared.symm.trans h) Bool.false_ne_true
      | byTask h hinference => exact .inr ⟨_, _, h, hinference⟩
      | byClause hunit hnode hinferred =>
        exact .inl (hs.blank_of_clause hf.layout hd hunit hnode hinferred hunknown)
      | ofGetter h => exact absurd h (hnot _ _)
    cases hfound : f.inference? d with
    | none =>
      refine stays fun t ht => hmissing (hwaits.elim id ?_) ht
      rintro ⟨u, task, hfound', -⟩
      exact absurd (hfound'.symm.trans hfound) (Option.some_ne_none _)
    | some found =>
      obtain ⟨u, task⟩ := found
      dsimp only
      obtain ⟨hunit, hnode, htask, hkind⟩ := State.inference?_eq_some hfound
      have hdecl : task.node.declKind.isSome = true := by
        rcases hkind with h | h | h <;> rw [h] <;> rfl
      obtain ⟨-, c, -, -, hdeclares⟩ := hf.layout.declares hd.1 hunit hnode
      rw [hdeclares.kind] at hkind
      simp only [Option.some.injEq] at hkind
      have hnodeOf : f.graph.nodeOf? d = some ⟨u, task.mark.id⟩ := by
        simp [Graph.nodeOf?, hunit, hnode]
      split
      · -- The declaration is being inferred.
        refine .inr ⟨?_, .refl _, fun t h => absurd h.symm (Option.some_ne_none t)⟩
        exact hs.grow rfl (.refl _) rfl rfl (fun _ _ => .inl) fun _ _ => .inl
      · next hidle =>
        have hlanguage := hf.ne_languageUnit hunit htyped hdeclared
        have hreach := reaches_of_inference? hf.layout hd hfound hlanguage
        -- If the task has been begun, it has been performed, so that a type would have been given.
        have hblank : ∀ {s' : State}, s'.Sound f ℓ root under → s'.progress.begun ⟨u, task.mark.id⟩ →
            (s'.graph.typeOf d).isKnown = false → ℓ.blank := by
          intro s' hs' hbegun hunknown'
          refine hwaits.elim id ?_
          rintro ⟨u', task', hfound', hinference⟩
          obtain ⟨rfl, rfl⟩ := Prod.mk.inj (Option.some.inj (hfound.symm.trans hfound'))
          have hdone := hs'.done u task hlanguage hreach.has hbegun fun hunder => ?_
          · exact hs'.blank_of_given hunknown' hnodeOf hkind (hdone.2 (task.givesType_of_isInference hinference))
          · exact hidle (List.contains_iff_mem.mpr (hs.inferring u task hreach.has hinference hunder))
        split
        · next hbegun => exact stays fun t ht => hmissing (hblank hs hbegun hunknown) ht
        · rcases hdemand u task s hs hlanguage hreach htask with hspoiled | ⟨hs', hle, hbegun⟩
          · exact .inl hspoiled
          · refine .inr ⟨hs', hle, ?_⟩
            rintro _ ⟨rfl⟩
            refine .of_isKnown (hs'.typeOf_within hf.toPrepared (hle.outlook.sees d hd)) fun hunknown' => ?_
            exact hblank hs' hbegun hunknown'

/-- Taking a step of a check of a unit of the program keeps to the contract. -/
theorem perform_ends (hf : f.Ready ℓ) (hs : s.Sound f ℓ root under)
    (hdemand : Performs f ℓ root under demand) {u : UnitId} (hu : u ≠ languageUnit)
    (hbound : (f.unit u).isBound = true) {act : Act} (hact : act.Proper f ℓ u s.progress) :
    Ends f ℓ root under s (Checking.perform f demand u act s) fun p r => act.Right f ℓ u p r := by
  cases act with
  | ask q =>
    cases q with
    | typeOf d => exact demandType_ends hf hs hdemand hact.1.1 hact.1.2
    | problem n message =>
      by_cases hlax : ℓ.lax
      · refine .inr ⟨hs.grow (facts_report ..) (.refl _) rfl rfl (fun _ _ => .inl) fun _ _ => .inl, .refl _, hlax⟩
      · exact .inl ⟨hlax, hasFindings_report hu (hs.valid hbound) n message⟩
  | settle m t target => exact recordExpr_ends hs hact target
  | «infer» m t => exact recordInferred_ends hs hact
  | visit task => exact hdemand u task s hs hu hact.1 hact.2

/-- A check of a unit of the program that keeps to its contract. -/
theorem check_ends (hf : f.Ready ℓ) (hs : s.Sound f ℓ root under)
    (hdemand : Performs f ℓ root under demand)
    (hrefines : ∀ u task, Leads State.Refines (demand u task)) {u : UnitId} (hu : u ≠ languageUnit)
    (hbound : (f.unit u).isBound = true) {α : Type} {c : Check α} {P : Progress → α → Prop}
    (hc : c.Keeps f ℓ u s.progress P) :
    Ends f ℓ root under s (c.run (Checking.perform f demand u) s) P := by
  refine Dialogue.Upholds.run State.progress (·.Sound f ℓ root under) (·.Spoiled ℓ)
    (fun s act hs hact => ?_) (fun s act hs => ?_) hc hs
  · exact perform_ends hf hs hdemand hu hbound hact
  · exact Leads.spoiled (checkSteps_refines.perform hrefines u act) hs

/-- Different tasks, each that of a declaration apart from the first, are no more than there are declarations. -/
theorem length_le_of_listed (hnodup : under.Nodup) (hlisted : ∀ k ∈ under, k = root ∨ k ∈ f.decls) :
    under.length ≤ f.decls.size + 1 := by
  have hsub : under ⊆ root :: f.decls.keys := fun k hk =>
    (hlisted k hk).elim (fun h => h ▸ List.mem_cons_self) fun h =>
      List.mem_cons_of_mem _ (Std.ExtTreeMap.mem_keys.mpr h)
  have hlength := (hnodup.subperm hsub).length_le
  simpa [Std.ExtTreeMap.length_keys] using hlength

section

variable {u : UnitId} {task : Task}

/-- The state in which a task begins. -/
def State.beginning (s : State) (u : UnitId) (task : Task) : State :=
  { s with
    checked := s.checked.insert ⟨u, task.mark.id⟩
    inferring := if task.isInference then ⟨u, task.mark.id⟩ :: s.inferring else s.inferring }

/-- The state after a task that has come to a type. -/
def State.ending (s : State) (u : UnitId) (task : Task) (t : Ty) : State :=
  { s with
    inferring := s.inferring.erase ⟨u, task.mark.id⟩
    graph := { s.graph with
      inferred := if task.givesType then s.graph.inferred.insertIfNew ⟨u, task.mark.id⟩ t
        else s.graph.inferred } }

theorem State.begun_beginning {k : NodeId} :
    (s.beginning u task).progress.begun k ↔ k = ⟨u, task.mark.id⟩ ∨ s.progress.begun k := by
  simp only [beginning, progress]
  rw [Std.ExtTreeSet.contains_insert, Bool.or_eq_true, beq_iff_eq, Std.LawfulEqOrd.compare_eq_iff_eq, eq_comm]

theorem State.progress_beginning (s : State) (u : UnitId) (task : Task) :
    s.progress.Le (s.beginning u task).progress :=
  ⟨fun _ => id, fun _ => id, fun _ hk => begun_beginning.mpr (.inr hk)⟩

theorem State.progress_ending (s : State) (u : UnitId) (task : Task) (t : Ty) :
    s.progress.Le (s.ending u task t).progress := by
  refine ⟨fun k hk => ?_, fun _ => id, fun _ => id⟩
  simp only [ending, progress]
  split
  · exact isSome_insertIfNew_of_isSome hk
  · exact hk

variable (hf : f.Layout) (hhas : f.HasNode u task.node)
include hf hhas

/-- A task that begins is under way. -/
theorem State.Sound.begin (hs : s.Sound f ℓ root under)
    (hnew : s.checked.contains ⟨u, task.mark.id⟩ = false)
    (hlisted : (⟨u, task.mark.id⟩ : NodeId) = root ∨ (⟨u, task.mark.id⟩ : NodeId) ∈ f.decls) :
    (s.beginning u task).Sound f ℓ root (⟨u, task.mark.id⟩ :: under) := by
  have hle := s.progress_beginning u task
  refine ⟨hs.facts, fun k t ht => (hs.exprs k t ht).mono hle.outlook.toLe,
    fun k t ht => (hs.inferred k t ht).mono hle.outlook, fun u' task' hu' hhas' hbegun hnot => ?_, ?_, ?_,
    ?_, fun u' task' hhas' hinference hmem => ?_⟩
  · -- A task that is done is none of those under way, so it is not the one that is begun.
    rw [List.mem_cons, not_or] at hnot
    have hbegun' := (begun_beginning.mp hbegun).resolve_left hnot.1
    obtain ⟨⟨t, ht⟩, hgiven⟩ := hs.done u' task' hu' hhas' hbegun' hnot.2
    exact ⟨⟨t, ht.mono hle⟩, fun hgives => hle.given _ (hgiven hgives)⟩
  · refine List.nodup_cons.mpr ⟨fun hmem => ?_, hs.nodup⟩
    exact absurd (hnew.symm.trans (hs.begun _ hmem)) nofun
  · exact List.forall_mem_cons.mpr ⟨begun_beginning.mpr (.inl rfl), fun k hk => hle.begun k (hs.begun k hk)⟩
  · exact List.forall_mem_cons.mpr ⟨hlisted, hs.listed⟩
  · simp only [beginning]
    -- An inference under way is this task, or was under way before.
    rcases List.mem_cons.mp hmem with hkey | hmem
    · obtain ⟨rfl, rfl⟩ := Task.eq_of_key hf hhas hhas' hkey
      rw [if_pos hinference]
      exact List.mem_cons_self
    · have hinferring := hs.inferring u' task' hhas' hinference hmem
      split
      · exact List.mem_cons_of_mem _ hinferring
      · exact hinferring

/-- A task that has been performed leaves nothing undone. -/
theorem State.Sound.finish (hs : s.Sound f ℓ root (⟨u, task.mark.id⟩ :: under)) {t : Ty}
    (ht : Finished f ℓ u task s.progress t) : (s.ending u task t).Sound f ℓ root under := by
  have hle := s.progress_ending u task t
  obtain ⟨hnew, hnodup⟩ := List.nodup_cons.mp hs.nodup
  refine ⟨hs.facts, fun k t ht => (hs.exprs k t ht).mono hle.outlook.toLe, fun k t' ht' => ?_,
    fun u' task' hu' hhas' hbegun hnot => ?_, hnodup, fun k hk => hs.begun k (List.mem_cons_of_mem _ hk),
    fun k hk => hs.listed k (List.mem_cons_of_mem _ hk), fun u' task' hhas' hinference hmem => ?_⟩
  · simp only [ending] at ht'
    split at ht'
    · next hgives =>
      rcases eq_of_getElem?_insertIfNew ht' with ht' | rfl
      · exact (hs.inferred k t' ht').mono hle.outlook
      · exact (ht.type hgives).mono hle.outlook
    · exact (hs.inferred k t' ht').mono hle.outlook
  · -- What is done is what was done before, or the task that ends here, which has given its type.
    by_cases hkey : (⟨u', task'.mark.id⟩ : NodeId) = ⟨u, task.mark.id⟩
    · obtain ⟨rfl, rfl⟩ := Task.eq_of_key hf hhas hhas' hkey
      refine ⟨⟨t, ht.mono hle⟩, fun hgives => ?_⟩
      simp only [ending, progress, if_pos hgives]
      exact isSome_insertIfNew_self
    · obtain ⟨⟨t', ht'⟩, hgiven⟩ := hs.done u' task' hu' hhas' hbegun (by simp [hkey, hnot])
      exact ⟨⟨t', ht'.mono hle⟩, fun hgives => hle.given _ (hgiven hgives)⟩
  · have hne : (⟨u', task'.mark.id⟩ : NodeId) ≠ ⟨u, task.mark.id⟩ := by
      rintro heq
      exact hnew (heq ▸ hmem)
    exact (List.mem_erase_of_ne hne).mpr (hs.inferring u' task' hhas' hinference (List.mem_cons_of_mem _ hmem))

end

/-- A task that is new begins, is checked and ends. -/
theorem performTask_of_new (f : State) (depth : Nat) {u : UnitId} {task : Task}
    (hnew : s.checked.contains ⟨u, task.mark.id⟩ = false) :
    (Checking.performTask f (depth + 1) u task s).2 =
      ((task.check f u).run (Checking.perform f (Checking.performTask f depth) u)
        (s.beginning u task)).2.ending u task
        ((task.check f u).run (Checking.perform f (Checking.performTask f depth) u)
          (s.beginning u task)).1 := by
  rw [Checking.performTask, get_bind_apply, if_neg (by simp [hnew]), State.ending]
  rw [bind_apply, bind_apply, bind_apply]
  split <;> rfl

/-- Performing a task keeps what has been found out right. -/
theorem performTask_ends (hf : f.Ready ℓ) (depth : Nat) {u : UnitId} (hu : u ≠ languageUnit) {task : Task}
    (hs : s.Sound f ℓ root under) (hdepth : f.decls.size + 2 ≤ depth + under.length)
    (htask : f.Reaches s.progress.given u task.node)
    (hlisted : (⟨u, task.mark.id⟩ : NodeId) = root ∨ (⟨u, task.mark.id⟩ : NodeId) ∈ f.decls) :
    Ends f ℓ root under s (Checking.performTask f depth u task s) fun p _ =>
      p.begun ⟨u, task.mark.id⟩ := by
  -- On the depth. The tasks under way are distinct declarations, so there are never more of them than the
  -- table has, and the depth does not run out.
  induction depth generalizing u task under s with
  | zero =>
    have hlength := length_le_of_listed hs.nodup hs.listed
    omega
  | succ depth ih =>
    cases hnew : s.checked.contains ⟨u, task.mark.id⟩ with
    | true =>
      rw [Checking.performTask, get_bind_apply, if_pos hnew]
      exact .inr ⟨hs, .refl _, hnew⟩
    | false =>
      have hbegin := hs.begin hf.layout htask.has hnew hlisted
      have hle := s.progress_beginning u task
      have hdemand : Performs f ℓ root (⟨u, task.mark.id⟩ :: under) (Checking.performTask f depth) := by
        intro u' task' s' hs' hu' hreach htask'
        refine ih hu' hs' (by simp only [List.length_cons]; omega) hreach (.inr ?_)
        exact task'.mark_node ▸ hf.layout.listed hreach.has (Node.declKind_of_isTask htask')
      have hchecked := check_ends hf hbegin hdemand (checkSteps_refines.performTask f depth) hu htask.has.1
        (Task.check_keeps hf.toPrepared task (htask.mono hle.given))
      rw [Ends, performTask_of_new f depth hnew]
      rcases hchecked with hspoiled | ⟨hs', hle', hfinished⟩
      · exact .inl (hspoiled.advances (State.refines_tables ..).toAdvances)
      · refine .inr ⟨hs'.finish hf.layout htask.has hfinished, ?_, ?_⟩
        · exact (hle.trans hle').trans (State.progress_ending ..)
        · exact hle'.begun _ (hbegin.begun _ List.mem_cons_self)

/-- As long as there is depth left, the tasks that are demanded are performed. -/
theorem performTask_performs (hf : f.Ready ℓ) {depth : Nat} (hdepth : f.decls.size + 2 ≤ depth + under.length) :
    Performs f ℓ root under (Checking.performTask f depth) := fun _ task _ hs hu hreach htask =>
  performTask_ends hf depth hu hs hdepth hreach
    (.inr (task.mark_node ▸ hf.layout.listed hreach.has (Node.declKind_of_isTask htask)))

end

end Ceylon.Analysis
