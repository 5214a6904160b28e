import Ceylon.Proofs.Persistence
import Ceylon.Proofs.Tasks

/-!
# What is recorded when

Nothing is recorded for a node before the pass that does so has come to its unit: scopes and declarations are
recorded for bound units only, and types and targets for units whose names are resolved or which have failed
(`State.Noted`).  Binding, which comes first, finds nothing recorded for the nodes of a unit, and records each
of them once (`bindWalk_keeps`); after it nothing is recorded beyond that (`bindDeclarations_recorded`).
-/

namespace Ceylon.Model.Graph

theorem decl_declare_of_ne (g : Graph) (d : Declaration) {e : DeclId} (he : e ≠ (g.declare d).1) :
    (g.declare d).2.decl e = g.decl e := by
  have hindex : e.index ≠ g.decls.size := fun h => he (congrArg DeclId.mk h)
  simp [declare, decl, Array.getElem?_push, hindex]

end Ceylon.Model.Graph

namespace Ceylon.Analysis

open Model Syntax Walk

/-- Checking has recorded nothing for a node. -/
structure State.Untouched (s : State) (u : UnitId) (n : Node) : Prop where
  expr : s.types.exprs[(⟨u, n.mark.id⟩ : NodeId)]? = none
  inferred : s.graph.inferred[(⟨u, n.mark.id⟩ : NodeId)]? = none
  target : ∀ x, n = .expr x → s.targets[(⟨u, n.mark.id⟩ : NodeId)]? = none

theorem State.Untouched.of_tables {s s' : State} {u : UnitId} {n : Node} (h : s.Untouched u n)
    (hexprs : s'.types.exprs = s.types.exprs) (hinferred : s'.graph.inferred = s.graph.inferred)
    (htargets : s'.targets = s.targets) : s'.Untouched u n :=
  ⟨hexprs ▸ h.expr, hinferred ▸ h.inferred, htargets ▸ h.target⟩

/-- What is recorded in a state: scopes for bound units, and types and targets for the units that are done; checking
has begun tasks of these units only, and has recorded nothing for a node before the task that it is assigned to has
been begun. -/
structure State.Noted (done : UnitId → Prop) (s : State) : Prop where
  scopes : ∀ k : NodeId, s.scopes[k]?.isSome → (s.unit k.unit).isBound
  exprs : ∀ k : NodeId, s.types.exprs[k]?.isSome → done k.unit
  inferred : ∀ k : NodeId, s.graph.inferred[k]?.isSome → done k.unit
  targets : ∀ k : NodeId, s.targets[k]?.isSome → done k.unit
  declared : ∀ d u, (s.graph.decl d).unit = some u → (s.graph.decl d).shape.type.isKnown → done u
  checked : ∀ k : NodeId, s.checked.contains k → done k.unit
  pending : ∀ u task n, (s.unit u).tree.Assigns task n → s.checked.contains ⟨u, task.mark.id⟩ = false →
    s.Untouched u n

/-- What is recorded between two passes. -/
abbrev State.Recorded (s : State) : Prop :=
  s.Noted fun u => s.isSettled u

namespace State.Noted

variable {s s' : State} {done done' : UnitId → Prop}

theorem of_sameNotes (hs : s.Noted done) (h : s.SameNotes s') (hdone : ∀ u, done u → done' u) :
    s'.Noted done' where
  scopes k hk := by
    rw [h.scopes] at hk
    rw [h.isBound]
    exact hs.scopes k hk
  exprs k hk := by
    rw [h.types] at hk
    exact hdone _ (hs.exprs k hk)
  inferred k hk := by
    rw [h.inferred] at hk
    exact hdone _ (hs.inferred k hk)
  targets k hk := by
    rw [h.targets] at hk
    exact hdone _ (hs.targets k hk)
  declared d u hunit hknown := by
    rw [h.graph_decl] at hunit hknown
    exact hdone _ (hs.declared d u hunit hknown)
  checked k hk := hdone _ (hs.checked k (h.checked ▸ hk))
  pending u task n hn hbegun := by
    rw [h.tree] at hn
    rw [h.checked] at hbegun
    exact (hs.pending u task n hn hbegun).of_tables (congrArg (·.exprs) h.types) h.inferred h.targets

theorem mono (hs : s.Noted done) (hdone : ∀ u, done u → done' u) : s.Noted done' :=
  hs.of_sameNotes (refl_of State.SameNotes s) hdone

/-- A unit that is not done has no types and targets. -/
theorem targets_eq_none (hs : s.Noted done) {k : NodeId} (hk : ¬ done k.unit) : s.targets[k]? = none :=
  Option.not_isSome_iff_eq_none.mp fun h => hk (hs.targets k h)

theorem untouched (hs : s.Noted done) {u : UnitId} (hu : ¬ done u) (n : Node) : s.Untouched u n where
  expr := Option.not_isSome_iff_eq_none.mp fun h => hu (hs.exprs _ h)
  inferred := Option.not_isSome_iff_eq_none.mp fun h => hu (hs.inferred _ h)
  target _ _ := hs.targets_eq_none hu

end State.Noted

/-- No declarations have been recorded for a unit that has not been bound. -/
theorem State.InOrder.decls_eq_none {s : State} (hs : s.InOrder) {k : NodeId} (hk : (s.unit k.unit).isBound = false) :
    s.decls[k]? = none := by
  cases h : s.decls[k]? with
  | none => rfl
  | some d =>
    obtain ⟨hvalid, hnode⟩ := hs.layout.grounded.table k d h
    obtain ⟨u, hunit, hnode⟩ := Option.bind_eq_some_iff.mp hnode
    obtain ⟨n, hn, hk'⟩ := Option.bind_eq_some_iff.mp hnode
    obtain rfl := Option.some.inj hk'
    obtain ⟨m, -, hhas, -⟩ := hs.layout.grounded.origins d hvalid u hunit
    exact absurd (hhas.1.symm.trans hk) nofun

/-! ## Binding -/

namespace Binding

variable {u : UnitId} {s s' : State} {ids : Multiset Nat}

/-- Binding records each node once. -/
theorem Lays.spends {f : State} {tree : CompilationUnit} {H : Prop} {α : Type} {d : Bind α} {P : α → Prop}
    (h : Lays f u tree H d ids P) : d.Spends (fun _ => True) BindStep.ids ids := by
  induction d generalizing ids H with
  | done a => trivial
  | ask step next ih =>
    obtain ⟨rest, rfl, -, hnext⟩ := h
    exact ⟨trivial, rest, le_rfl, fun r => ih r (hnext r)⟩

/-- Nothing has been recorded at some numbers of a unit, no two of which are the same. -/
structure Blank (u : UnitId) (ids : Multiset Nat) (s : State) : Prop where
  nodup : ids.Nodup
  scopes : ∀ i ∈ ids, s.scopes[(⟨u, i⟩ : NodeId)]? = none
  decls : ∀ i ∈ ids, s.decls[(⟨u, i⟩ : NodeId)]? = none

theorem Blank.mono {ids' : Multiset Nat} (h : Blank u ids s) (hids : ids' ≤ ids) : Blank u ids' s :=
  ⟨Multiset.nodup_of_le hids h.nodup, fun i hi => h.scopes i (Multiset.mem_of_le hids hi),
    fun i hi => h.decls i (Multiset.mem_of_le hids hi)⟩

/-- A change to the declarations of a unit keeps what has been recorded, if nothing has been where it
records something. -/
theorem Grows.persists (h : Grows u ids s s') (hs : Blank u ids s) : s.Persists s' where
  scopes k c hk := by
    -- An entry changes only at a node of the unit, and there was none.
    refine (h.scopes k fun hu hid => ?_).trans hk
    rw [← hu] at hs
    exact absurd ((hs.scopes k.id hid).symm.trans hk) nofun
  decls k d hk := by
    refine (h.table k fun hu hid => ?_).trans hk
    rw [← hu] at hs
    exact absurd ((hs.decls k.id hid).symm.trans hk) nofun
  types k t hk := (congrArg (·.types.get? k) h.rest).trans hk
  targets k d hk := (congrArg (·.targets[k]?) h.rest).trans hk
  typeOf d hd := by
    have hbare := h.decl d (Graph.valid_of_typeOf hd)
    refine Graph.typeOf_persists ?_ ?_ ?_ (fun k t hk => h.inferred ▸ hk) hd
    · have := congrArg (·.shape.type) hbare
      simpa [Declaration.bare, Shape.type_bare] using this
    · have := congrArg (·.shape.infers) hbare
      simpa [Declaration.bare, Shape.infers_bare] using this
    · have hunit : (s'.graph.decl d).unit = (s.graph.decl d).unit := congrArg (·.unit) hbare
      have hnode : (s'.graph.decl d).node = (s.graph.decl d).node := congrArg (·.node) hbare
      rw [Graph.nodeOf?, hunit, hnode, Graph.nodeOf?]

/-- What a step records has not been recorded before, and what the rest of binding records has still not been. -/
theorem perform_blank {step : BindStep} (hs : Blank u (step.ids + ids) s) :
    s.Persists (perform u step s).2 ∧ Blank u ids (perform u step s).2 := by
  have hgrows := perform_grows u step s
  obtain ⟨-, hids, hdisjoint⟩ := Multiset.nodup_add.mp hs.nodup
  have hother : ∀ i ∈ ids, ∀ k : NodeId, k = ⟨u, i⟩ → k.unit = u → k.id ∉ step.ids := by
    rintro i hi _ rfl - hstep
    exact Multiset.disjoint_left.mp hdisjoint hstep hi
  refine ⟨hgrows.persists (hs.mono (Multiset.le_add_right _ _)), hids, fun i hi => ?_, fun i hi => ?_⟩
  · rw [hgrows.scopes _ (hother i hi _ rfl)]
    exact hs.scopes i (Multiset.mem_add.mpr (.inr hi))
  · rw [hgrows.table _ (hother i hi _ rfl)]
    exact hs.decls i (Multiset.mem_add.mpr (.inr hi))

end Binding

theorem modifyUnit_persists (u : UnitId) (g : UnitState → UnitState) : Leads State.Persists (modifyUnit u g) :=
  fun _ => ⟨fun _ _ => id, fun _ _ => id, fun _ _ => id, fun _ _ => id, fun _ _ => rfl⟩

section

variable {s : State} {u : UnitId}

/-- Nothing has been recorded for the nodes of a unit that is not bound. -/
theorem State.InOrder.blank (hs : s.InOrder) (h : s.Recorded) (hbound : (s.unit u).isBound = false) :
    Binding.Blank u (Node.unit (s.unit u).tree).idSet s where
  nodup := Multiset.coe_nodup.mpr (hs.layout.numbered u)
  scopes i _ := by
    cases hi : s.scopes[(⟨u, i⟩ : NodeId)]? with
    | none => rfl
    | some c => exact absurd ((h.scopes ⟨u, i⟩ (hi ▸ rfl)).symm.trans hbound) nofun
  decls i _ := hs.decls_eq_none (k := ⟨u, i⟩) hbound

/-- Binding a unit keeps what has been recorded. -/
theorem bindWalk_keeps (u : UnitId) :
    (bindWalk u).Keeps (fun s => s.InOrder ∧ s.Recorded) fun _ => True := by
  refine .look_bind fun s ⟨hs, h⟩ => ?_
  dsimp only
  split
  · exact (Keeps.pure _).mono (fun _ => id) fun _ _ => trivial
  · next hnew =>
    have hbound : (s.unit u).isBound = false := by
      refine Bool.eq_false_iff.mpr fun hbound => hnew ?_
      rw [hs.phases u hbound, Bool.or_true]
    -- Each node of the tree is recorded and declared once, for which there is nothing yet.
    have hspends : (Binding.bindUnit [.package (s.unit u).package] (s.unit u).tree).Spends (fun _ => True)
        BindStep.ids (Node.unit (s.unit u).tree).idSet := (s.scripted_lays u).spends
    have hblank := hs.blank h hbound
    refine .bind (Q := Binding.Blank u (Node.unit (s.unit u).tree).idSet) (.step ?_) fun _ => ?_
    · rintro _ rfl
      exact ⟨(logStep_sameNotes u _ _ _).persists, hblank.nodup, hblank.scopes, hblank.decls⟩
    refine .bind (Q := Binding.Blank u (Node.unit (s.unit u).tree).idSet) (.step fun s' hs' => ?_) fun _ => ?_
    · exact ⟨modifyUnit_persists u _ s', hs'.nodup, hs'.scopes, hs'.decls⟩
    refine .bind (.run (fun b b' s hb hs => hs.mono hb) (fun step rest _ => .step fun s' => ?_) hspends)
      fun _ => .step fun s' _ => ?_
    · exact Binding.perform_blank
    · exact ⟨modifyUnit_persists u _ s', trivial⟩

/-- What binding declares has no type yet. -/
theorem Binding.perform_declared {f s : State} {tree : CompilationUnit} {step : BindStep} {done : UnitId → Prop}
    (may : Binding.May f u tree step)
    (h : ∀ d v, (s.graph.decl d).unit = some v → (s.graph.decl d).shape.type.isKnown → done v) (d : DeclId)
    (v : UnitId) (hunit : ((Binding.perform u step s).2.graph.decl d).unit = some v)
    (hknown : ((Binding.perform u step s).2.graph.decl d).shape.type.isKnown) : done v := by
  -- Changing a shape as binding does, whatever shape it is, keeps its type.
  have hmodify : ∀ owner (g : Shape → Shape), (∀ shape, (g shape).bare = shape.bare) →
      ((s.graph.modifyShape owner g).decl d).unit = some v →
      ((s.graph.modifyShape owner g).decl d).shape.type.isKnown → done v := by
    intro owner g hg hunit hknown
    rw [Graph.modifyShape, s.graph.decl_modifyDecl] at hunit hknown
    split at hunit
    · next hsame =>
      rw [if_pos hsame] at hknown
      refine h d v hunit ?_
      rwa [← Shape.type_bare, hg, Shape.type_bare] at hknown
    · next hsame =>
      rw [if_neg hsame] at hknown
      exact h d v hunit hknown
  cases step with
  | declare node name shared shape scope =>
    obtain ⟨units, -, -, hperform⟩ := Binding.perform_declare u node name shared shape scope s
    rw [hperform] at hunit hknown
    by_cases hself : d = (s.graph.declare { name, scope, unit := some u, node := some node, shared, shape }).1
    · rw [hself, s.graph.decl_declare_self, ← may.2.2.2.bound] at hknown
      cases shape <;> cases hknown
    · rw [s.graph.decl_declare_of_ne _ hself] at hunit hknown
      exact h d v hunit hknown
  | addTypeParam owner p => exact hmodify owner _ (fun shape => shape.bare_addTypeParam p) hunit hknown
  | setParams owner ps => exact hmodify owner _ (fun shape => shape.bare_withParams ps) hunit hknown
  | join getter setter => exact hmodify getter _ (fun shape => shape.bare_withSetter setter) hunit hknown
  | record m scope => exact h d v hunit hknown
  | openBody clause scope => exact h d v hunit hknown
  | getter scope name => exact h d v hunit hknown

/-- What is settled stays so. -/
theorem State.Onward.isSettled {s' : State} {v : UnitId} (h : s.Onward s') (hv : s.isSettled v) : s'.isSettled v := by
  simp only [State.isSettled, Bool.or_eq_true, Phase.atLeast_iff] at hv ⊢
  exact hv.imp (h.failed v) fun hv => hv.trans (h.phase v)

/-- After a unit has been bound, nothing is recorded beyond what should be. -/
theorem bindDeclarations_recorded (hs : s.InOrder) (h : s.Recorded) (hu : u.index < s.units.size) :
    (bindDeclarations u s).2.Recorded := by
  cases hnew : s.isUnbound u with
  | false =>
    rw [bindDeclarations_of_not_isUnbound hnew]
    exact h
  | true =>
    have hbound : (s.unit u).isBound = false := by
      refine Bool.eq_false_iff.mpr fun hbound => ?_
      rw [State.isUnbound, hs.phases u hbound, Bool.or_true] at hnew
      cases hnew
    have hgrows := s.scripted_grows u
    have hdeclared := (scripted_runs hs.layout hu hbound
      (fun s' => ∀ d v, (s'.graph.decl d).unit = some v → (s'.graph.decl d).shape.type.isKnown → s.isSettled v)
      (fun _ _ _ may _ h => Binding.perform_declared may h) h.declared).2.2
    -- Binding writes the scopes of the unit and declares it anew; the other notes are the ones from before.
    have hscripted : (s.scripted u).Noted fun v => s.isSettled v :=
      { scopes := fun k hk => by
          rw [(hgrows.unit_eq k.unit).2, State.unit_begun hu]
          split
          · rfl
          · next hne =>
            rw [hgrows.scopes k fun hk => absurd hk.symm hne] at hk
            exact h.scopes k hk
        exprs := fun k hk => h.exprs k (congrArg (·.types) hgrows.rest ▸ hk)
        inferred := fun k hk => h.inferred k (hgrows.inferred ▸ hk)
        targets := fun k hk => h.targets k (congrArg (·.targets) hgrows.rest ▸ hk)
        declared := hdeclared
        checked := fun k hk => h.checked k (congrArg State.checked hgrows.rest ▸ hk)
        pending := fun v task n hn hbegun => by
          rw [(hgrows.unit_eq v).1, State.tree_begun hu] at hn
          have hchecked : (s.scripted u).checked = s.checked := congrArg (·.checked) hgrows.rest
          rw [hchecked] at hbegun
          exact (h.pending v task n hn hbegun).of_tables (congrArg (·.types.exprs) hgrows.rest) hgrows.inferred
            (congrArg (·.targets) hgrows.rest) }
    have honward : s.Onward (bindDeclarations u s).2 := State.onward_run (p := .bind) hu
    rw [bindDeclarations_of_isUnbound hnew] at honward ⊢
    exact hscripted.of_sameNotes (setPhase_sameNotes u .bound (s.scripted u)) fun v => honward.isSettled

end

end Ceylon.Analysis
