import Ceylon.Proofs.ResolutionOrder
import Ceylon.Proofs.Walks

/-!
# What has been recorded stays

From one state to a later one, what has been recorded stays (`State.Persists`): the scopes, declarations, types
and targets of nodes, and the types of declarations that are known.  A walk keeps to this if each of its steps
does (`Walk.Keeps`).  That steps do so rests on what has not been recorded yet: nothing is recorded for a node
before the pass that records it comes to its unit (`State.Noted`).
-/

namespace Ceylon

namespace Model

/-- Whether the type of a declaration of this shape is the one inferred for it, unless it is declared with one. -/
def Shape.infers : Shape → Bool
  | .method .. => true
  | .value .. => true
  | .getter .. => true
  | .setter _ (some _) => true
  | _ => false

/-- Binding fixes whether a type is inferred: nothing recorded on a shape later changes it. -/
theorem Shape.infers_bare (s : Shape) : s.bare.infers = s.infers := by
  cases s with
  | setter t getter => cases getter <;> rfl
  | _ => rfl

namespace Graph

variable {g g' : Graph} {d : DeclId}

/-- The type of a declaration in one line: the written one if it is known, else the inferred one if the
declaration infers, else unknown. -/
theorem typeOf_eq (g : Graph) (d : DeclId) :
    g.typeOf d = if (g.decl d).shape.type.isKnown then (g.decl d).shape.type
      else if (g.decl d).shape.infers then g.inferredType d else .unknown := by
  rw [typeOf]
  cases (g.decl d).shape with
  | setter t getter => cases getter <;> rfl
  | _ => rfl

/-- Only of declarations that are there is the type known. -/
theorem valid_of_typeOf (hknown : (g.typeOf d).isKnown) : d.index < g.decls.size := by
  by_contra hd
  rw [typeOf_eq, decl_of_invalid hd] at hknown
  cases hknown

/-- The type of a declaration stays if the one that it is declared with does, and what has been inferred. -/
theorem typeOf_persists (htype : (g'.decl d).shape.type = (g.decl d).shape.type)
    (hinfers : (g'.decl d).shape.infers = (g.decl d).shape.infers) (hnode : g'.nodeOf? d = g.nodeOf? d)
    (hinferred : ∀ (k : NodeId) t, g.inferred[k]? = some t → g'.inferred[k]? = some t)
    (hknown : (g.typeOf d).isKnown) : g'.typeOf d = g.typeOf d := by
  rw [typeOf_eq] at hknown
  rw [typeOf_eq, typeOf_eq, htype, hinfers]
  -- A declared type stays.  An inferred one stays because its entry does.
  by_cases hdeclared : (g.decl d).shape.type.isKnown
  · rw [if_pos hdeclared, if_pos hdeclared]
  by_cases hshape : (g.decl d).shape.infers
  · rw [if_neg hdeclared, if_pos hshape] at hknown
    rw [if_neg hdeclared, if_pos hshape, if_neg hdeclared, if_pos hshape, inferredType, inferredType, hnode]
    cases hk : (g.nodeOf? d).bind fun k => g.inferred[k]? with
    | none =>
      rw [inferredType, hk] at hknown
      cases hknown
    | some t =>
      obtain ⟨k, hnode, ht⟩ := Option.bind_eq_some_iff.mp hk
      rw [hnode, Option.bind_some, hinferred k t ht]
  · rw [if_neg hdeclared, if_neg hshape] at hknown
    cases hknown

end Graph

end Model

namespace Analysis

open Model Syntax

/-- A lookup in the type table finds the reference recorded at a node first, and the expression only where
there is no reference. -/
theorem TypeTable.get?_eq_some {types : TypeTable} {k : NodeId} {t : Ty} :
    types.get? k = some t ↔ types.refs[k]? = some t ∨ types.refs[k]? = none ∧ types.exprs[k]? = some t := by
  rw [get?, Option.orElse_eq_orElse, Option.orElse_eq_or, Option.or_eq_some_iff]

/-- What has been recorded in the first state is so in the second. -/
structure State.Persists (s s' : State) : Prop where
  scopes : ∀ (k : NodeId) c, s.scopes[k]? = some c → s'.scopes[k]? = some c
  decls : ∀ (k : NodeId) d, s.decls[k]? = some d → s'.decls[k]? = some d
  types : ∀ k t, s.types.get? k = some t → s'.types.get? k = some t
  targets : ∀ (k : NodeId) d, s.targets[k]? = some d → s'.targets[k]? = some d
  typeOf : ∀ d, (s.graph.typeOf d).isKnown → s'.graph.typeOf d = s.graph.typeOf d

/-- Persistence is reflexive and transitive, so a run of many steps persists when each step does. -/
instance : IsPreorder State State.Persists where
  refl _ := ⟨fun _ _ => id, fun _ _ => id, fun _ _ => id, fun _ _ => id, fun _ _ => rfl⟩
  trans _ _ _ h h' := ⟨fun k c => h'.scopes k c ∘ h.scopes k c, fun k d => h'.decls k d ∘ h.decls k d,
    fun k t => h'.types k t ∘ h.types k t, fun k d => h'.targets k d ∘ h.targets k d, fun d hd => by
      have heq := h.typeOf d hd
      exact (h'.typeOf d (heq ▸ hd)).trans heq⟩

namespace State

variable {s s' : State}

/-- The parts of a state in which something is recorded are the same. -/
structure SameNotes (s s' : State) : Prop where
  decl : s'.graph.decls = s.graph.decls
  inferred : s'.graph.inferred = s.graph.inferred
  scopes : s'.scopes = s.scopes
  decls : s'.decls = s.decls
  types : s'.types = s.types
  targets : s'.targets = s.targets
  checked : s'.checked = s.checked
  tree : ∀ u, (s'.unit u).tree = (s.unit u).tree
  isBound : ∀ u, (s'.unit u).isBound = (s.unit u).isBound

/-- Sharing every note is reflexive and transitive. -/
instance : IsPreorder State SameNotes where
  refl _ := ⟨rfl, rfl, rfl, rfl, rfl, rfl, rfl, fun _ => rfl, fun _ => rfl⟩
  trans _ _ _ h h' := ⟨h'.decl.trans h.decl, h'.inferred.trans h.inferred, h'.scopes.trans h.scopes,
    h'.decls.trans h.decls, h'.types.trans h.types, h'.targets.trans h.targets, h'.checked.trans h.checked,
    fun u => (h'.tree u).trans (h.tree u), fun u => (h'.isBound u).trans (h.isBound u)⟩

/-- States with the same notes declare the same thing at every identifier. -/
theorem SameNotes.graph_decl (h : s.SameNotes s') (d : DeclId) : s'.graph.decl d = s.graph.decl d := by
  rw [Graph.decl, h.decl, Graph.decl]

/-- A step that touches no note loses none. -/
theorem SameNotes.persists (h : s.SameNotes s') : s.Persists s' where
  scopes _ _ hk := h.scopes ▸ hk
  decls _ _ hk := h.decls ▸ hk
  types _ _ hk := h.types ▸ hk
  targets _ _ hk := h.targets ▸ hk
  typeOf d hd := by
    refine Graph.typeOf_persists ?_ ?_ ?_ (fun _ _ hk => h.inferred ▸ hk) hd
    · rw [h.graph_decl]
    · rw [h.graph_decl]
    · rw [Graph.nodeOf?, h.graph_decl, Graph.nodeOf?]

end State

/-- Changing a unit in what does not matter. -/
theorem modifyUnit_sameNotes {u : UnitId} {g : UnitState → UnitState} (htree : ∀ unit, (g unit).tree = unit.tree)
    (hbound : ∀ unit, (g unit).isBound = unit.isBound) : Leads State.SameNotes (modifyUnit u g) := by
  intro s
  have hunit := s.unit_modify u (f := g)
  refine ⟨rfl, rfl, rfl, rfl, rfl, rfl, rfl, fun v => ?_, fun v => ?_⟩
  · refine (congrArg (·.tree) (hunit v)).trans ?_
    split
    · exact htree _
    · rfl
  · refine (congrArg (·.isBound) (hunit v)).trans ?_
    split
    · exact hbound _
    · rfl

/-- Logging a step of a walk writes no note. -/
theorem logStep_sameNotes (u : UnitId) (phase : Phase) (message : String) :
    Leads State.SameNotes (logStep u phase message) :=
  fun _ => ⟨rfl, rfl, rfl, rfl, rfl, rfl, rfl, fun _ => rfl, fun _ => rfl⟩

/-- A finding is not a note: reporting one leaves the tables alone. -/
theorem report_sameNotes (u : UnitId) (n : Node) (message : String) :
    Leads State.SameNotes (report u n message) :=
  .get_bind fun _ => modifyUnit_sameNotes (fun _ => rfl) fun _ => rfl

/-- Moving a unit to another phase writes no note. -/
theorem setPhase_sameNotes (u : UnitId) (phase : Phase) : Leads State.SameNotes (setPhase u phase) :=
  modifyUnit_sameNotes (fun _ => rfl) fun _ => rfl

/-- A failed unit keeps the notes it had. -/
theorem fail_sameNotes (u : UnitId) (failure : Failure) : Leads State.SameNotes (fail u failure) :=
  modifyUnit_sameNotes (fun _ => rfl) fun _ => rfl

theorem moduleSteps_sameNotes : ModuleSteps State.SameNotes where
  log u phase message := logStep_sameNotes u phase message
  report u n message := report_sameNotes u n message
  modules _ _ _ _ _ := ⟨rfl, rfl, rfl, rfl, rfl, rfl, rfl, fun _ => rfl, fun _ => rfl⟩

/-- Resolving the module of a unit writes to packages and modules only, never to the notes. -/
theorem resolveModule_sameNotes (u : UnitId) : Leads State.SameNotes (resolveModule u) :=
  moduleSteps_sameNotes.resolveModule (setPhase_sameNotes u _) (fail_sameNotes u)

/-! ## Walks that keep what has been recorded -/

/-- Every state recorded after another one keeps what has been recorded in it; the last one comes first. -/
abbrev Steady (states : List State) : Prop :=
  states.Pairwise fun later earlier => earlier.Persists later

/-- One more persisting step keeps a history steady. -/
theorem Steady.cons {s s' : State} {past : List State} (h : Steady (s :: past)) (hs : s.Persists s') :
    Steady (s' :: s :: past) := by
  refine List.pairwise_cons.mpr ⟨fun x hx => ?_, h⟩
  rcases List.mem_cons.mp hx with rfl | hx
  · exact hs
  · exact trans_of State.Persists (List.rel_of_pairwise_cons h hx) hs

namespace Walk

variable {α β : Type}

/-- Begun in a state with the first property, the walk ends in one with the second, and whatever has been
recorded in a state that it passes stays. -/
def Keeps (P : State → Prop) (w : Walk α) (Q : State → Prop) : Prop :=
  ∀ past s, P s → Steady (s :: past) → Q (w past s).2 ∧ Steady ((w past s).2 :: (w past s).1.2)

namespace Keeps

variable {P P' Q Q' : State → Prop}

/-- A walk that does nothing keeps what it is given. -/
theorem pure (a : α) : Keeps P (Pure.pure a) P :=
  fun _ _ hs h => ⟨hs, h⟩

/-- One step of a walk keeps the postcondition when every run of it from the precondition does and persists.
-/
theorem step {m : Analyze α} (h : ∀ s, P s → s.Persists (m s).2 ∧ Q (m s).2) : Keeps P (Walk.step m) Q :=
  fun _ s hs hpast => ⟨(h s hs).2, hpast.cons (h s hs).1⟩

/-- Sequencing: the postcondition of the first walk is the precondition of what follows it. -/
theorem bind {w : Walk α} {f : α → Walk β} (h : Keeps P w Q) (hf : ∀ a, Keeps Q (f a) Q') :
    Keeps P (w >>= f) Q' := fun past s hs hpast =>
  let ⟨hQ, hsteady⟩ := h past s hs hpast
  hf _ _ _ hQ hsteady

/-- Reading the state lets the rest of a walk assume it started from that very state. -/
theorem look_bind {f : State → Walk β} (hf : ∀ s, P s → Keeps (· = s) (f s) Q) : Keeps P (look >>= f) Q :=
  fun past s hs hpast => hf s hs past s rfl hpast

/-- What holds at the beginning may speak of the state there. -/
theorem of_eq {w : Walk α} (h : ∀ s, P s → Keeps (· = s) w Q) : Keeps P w Q :=
  fun past s hs hpast => h s hs past s rfl hpast

/-- The rule of consequence for walks. -/
theorem mono {w : Walk α} (h : Keeps P w Q) (hP : ∀ s, P' s → P s) (hQ : ∀ s, Q s → Q' s) : Keeps P' w Q' :=
  fun past s hs hpast => (h past s (hP s hs) hpast).imp_left (hQ _)

/-- Dropping the answer of a walk changes nothing about its states. -/
theorem discard {w : Walk α} (h : Keeps P w Q) : Keeps P (Functor.discard w) Q :=
  h.bind fun _ => pure _

/-- The action that the walk follows ends in a state with the second property. -/
theorem result {w : Walk α} {m : Analyze α} (h : Keeps P w Q) (hw : w.Traces m) {s : State} (hs : P s) :
    Q (m s).2 := by
  rw [← congrArg Prod.snd (hw.result [] s)]
  exact (h [] s hs (List.pairwise_singleton ..)).1

/-- The action that the walk follows keeps what has been recorded where it begins. -/
theorem persists {w : Walk α} {m : Analyze α} (h : Keeps P w Q) (hw : w.Traces m) {s : State} (hs : P s) :
    s.Persists (m s).2 := by
  rw [← congrArg Prod.snd (hw.result [] s)]
  have hsteady := (h [] s hs (List.pairwise_singleton ..)).2
  obtain ⟨new, hnew⟩ := hw.keeps [] s
  rw [hnew] at hsteady
  cases new with
  | nil =>
    obtain ⟨heq, -⟩ := List.cons_eq_cons.mp hnew
    rw [heq]
    exact refl_of State.Persists s
  | cons s' new =>
    obtain ⟨rfl, -⟩ := List.cons_eq_cons.mp hnew
    exact List.rel_of_pairwise_cons hsteady (List.mem_append_right new (List.mem_singleton_self s))

/-- A walk ends where the action that it follows does. -/
theorem ends {w : Walk α} {m : Analyze α} {s : State} (h : Keeps (· = s) w Q) (hw : w.Traces m) :
    Keeps (· = s) w (· = (m s).2) := fun past s' hs' hpast =>
  ⟨hs' ▸ congrArg Prod.snd (hw.result past s'), (h past s' hs' hpast).2⟩

/-- A step that changes nothing of what is recorded. -/
theorem step_of_sameNotes {m : Analyze α} (h : Leads State.SameNotes m) (hP : ∀ s s', s.SameNotes s' → P s → P s') :
    Keeps P (Walk.step m) P :=
  step fun s hs => ⟨(h s).persists, hP _ _ (h s) hs⟩

/-- Leading a dialogue that stays within a budget.  The invariant speaks of what is left of the budget. -/
theorem run {ι D : Type} {A : D → Type} {may : D → Prop} {cost : D → Multiset ι} {partner : (q : D) → Walk (A q)}
    {I : Multiset ι → State → Prop} (mono : ∀ b b' s, b' ≤ b → I b s → I b' s)
    (hstep : ∀ q rest, may q → Keeps (I (cost q + rest)) (partner q) (I rest)) {d : Dialogue A α}
    {b : Multiset ι} (h : d.Spends may cost b) : Keeps (I b) (d.run partner) (I 0) := by
  induction d generalizing b with
  | done a => exact (pure a).mono (fun _ => id) fun s => mono b 0 s (Multiset.zero_le b)
  | ask q next ih =>
    obtain ⟨hq, rest, hrest, hnext⟩ := h
    exact .bind ((hstep q rest hq).mono (fun s => mono b _ s hrest) fun _ => id) fun r => ih r (hnext r)

/-- A step and what it leads to. -/
theorem step_bind {m : Analyze α} {f : α → Walk β}
    (h : ∀ s, P s → s.Persists (m s).2 ∧ Keeps (· = (m s).2) (f (m s).1) Q) : Keeps P (Walk.step m >>= f) Q :=
  fun _ s hs hpast => (h s hs).2 _ _ rfl (hpast.cons (h s hs).1)

/-- Leading a dialogue that stays within a budget, and whose questions each come up in a state that is one for it. -/
theorem run_suits {ι D : Type} {A : D → Type} {may : D → Prop} {cost : D → Multiset ι}
    {partner : (q : D) → Analyze (A q)} {fits : State → D → Prop} {I : Multiset ι → State → Prop} (mono : ∀ b b' s, b' ≤ b → I b s → I b' s)
    (hstep : ∀ q rest s, may q → fits s q → I (cost q + rest) s → s.Persists (partner q s).2 ∧ I rest (partner q s).2)
    {d : Dialogue A α} {b : Multiset ι} (h : d.Spends may cost b) :
    Keeps (fun s => I b s ∧ d.Suits partner fits s) (d.run fun q => Walk.step (partner q)) (I 0) := by
  induction d generalizing b with
  | done a => exact (pure a).mono (fun _ => id) fun s hs => mono b 0 s (Multiset.zero_le b) hs.1
  | ask q next ih =>
    obtain ⟨hq, rest, hrest, hnext⟩ := h
    refine .step_bind fun s ⟨hs, hfits, hsuits⟩ => ?_
    obtain ⟨hpersists, hI⟩ := hstep q rest s hq hfits (mono b _ s hrest hs)
    refine ⟨hpersists, (ih _ (hnext _)).mono ?_ fun _ => id⟩
    rintro _ rfl
    exact ⟨hI, hsuits⟩

end Keeps

end Walk

end Analysis

end Ceylon
