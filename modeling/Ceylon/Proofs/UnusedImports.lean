import Ceylon.Lint.Check
import Ceylon.Proofs.AnalyzedUnits
import Ceylon.Proofs.CheckedReferences
import Ceylon.Proofs.ResolvedReferences

/-!
# Imports that are reported as unused

When a unit has been checked, all references in it have been come to: type references when its names were resolved,
and all others by the tasks that were begun for it, be it on its own account or on that of other units.  Each job
keeps this (`State.Attended.next`), so it is so after all jobs (`Job.runAll_attended`), provided that names are
resolved of bound units only.  So an import by way of which a name in the unit is found is used, and it is not
reported.
-/

namespace Ceylon

namespace Syntax

theorem Node.ofKind_of_mention? {n : Node} {name : String} {filter : Model.Filter}
    (h : n.mention? = some (name, filter)) : filter.OfKind := by
  unfold mention? at h
  split at h
  · exact (Prod.mk.inj (Option.some.inj h)).2 ▸ Model.Filter.types_ofKind
  · exact (Prod.mk.inj (Option.some.inj h)).2 ▸ Model.Filter.values_ofKind
  · exact (Prod.mk.inj (Option.some.inj h)).2 ▸ Model.Filter.types_ofKind
  · cases h

theorem Node.isErrand_of_isTask {n : Node} (h : n.isTask = true) : n.isErrand = true := by
  cases n with
  | stmt s => exact h
  | _ => cases h

/-- The import clause of a unit mentions nothing. -/
theorem Import.mention?_eq_none (i : Import) : ∀ n ∈ i.outline.nodes, n.mention? = none := by
  intro n hn
  simp only [Import.outline, ImportElement.outline, Path.outline, Name.outline, outlineOption, Outline.nodes_mk,
    List.flatMap_cons, List.flatMap_map, List.flatMap_nil, List.mem_cons, List.mem_append, List.mem_flatMap,
    List.flatMap_append, List.append_nil, Option.mem_toList, List.not_mem_nil, or_false] at hn
  obtain rfl | (rfl | ⟨name, -, rfl⟩) | ⟨e, -, rfl | ⟨o, ho, hn⟩ | rfl⟩ := hn
  · rfl
  · rfl
  · rfl
  · rfl
  · obtain ⟨name, -, rfl⟩ := Option.map_eq_some_iff.mp ho
    cases List.mem_singleton.mp hn
    rfl
  · rfl

end Syntax

namespace Analysis

open Model Syntax

section

variable {s s' t : State} {u : UnitId}

/-! ## What stays done -/

/-- A unit goes on serving its imports. -/
theorem State.ServesImports.carry (h : s.ServesImports u) (hs : s.Layout) (hu : s.IsNamed u) (hcarries : s.Carries s')
    (hle : ∀ (k : NodeId) d, s.targets[k]? = some d → s'.targets[k]? = some d) : s'.ServesImports u where
  names := by rw [hcarries.imports u hu]; exact h.names
  decls i hi := (h.decls i (hcarries.imports u hu ▸ hi)).trans_le hcarries.graph.size
  served b hb i hi := hle _ _ (h.served b (hcarries.tree u hu ▸ hb) i
    (hcarries.importFor? hs hu h.decls Filter.types_ofKind hi))

/-- What has been done for the nodes of a unit that serves its imports counts also when more has been declared. -/
theorem State.Performed.carry {task : Task} (h : s.Performed t u task) (hs : s.Layout) (hu : s.IsNamed u)
    (hserves : s.ServesImports u) (hcarries : s.Carries s') : s'.Performed t u task := by
  intro p hp n hn herrand
  have hdone := h p hp n hn herrand
  exact ⟨fun name filter i hmention hi => hdone.target name filter i hmention
    (hcarries.importFor? hs hu hserves.decls (Node.ofKind_of_mention? hmention) hi), hdone.begun⟩

/-! ## What jobs keep -/

/-- Names are resolved of bound units only, as the order of the phases has it. -/
def State.BindsFirst (s : State) : Prop :=
  ∀ u, s.IsNamed u → (s.unit u).isBound = true

/-- Units whose names have been resolved serve their imports, and the tasks that have been begun have been performed;
that of a unit that has been checked is one of them.  For the other units nothing is known. -/
structure State.Attended (s : State) : Prop where
  imports : ∀ u, s.isSettled u = false → (s.unit u).imports = []
  refs : ∀ k : NodeId, s.isSettled k.unit = false → s.types.refs[k]? = none
  serves : ∀ u, s.IsNamed u → s.ServesImports u
  named : ∀ k, s.checked.contains k = true → s.IsNamed k.unit
  performed : ∀ u task, (s.unit u).tree.Has task.node → s.checked.contains ⟨u, task.mark.id⟩ = true →
    s.Performed s u task
  finished : ∀ u, (s.unit u).phase = .checked → s.checked.contains ⟨u, (s.unit u).tree.mark.id⟩ = true

theorem State.isNamed_of_checked (h : (s.unit u).phase = .checked) : s.IsNamed u := by
  rw [State.IsNamed, h]
  rfl

theorem isNamed_of_checkExpressions {v : UnitId} (h : (checkExpressions u s).2.IsNamed v) : s.IsNamed v := by
  by_cases hidle : (s.unit u).failure.isSome = true ∨ (s.unit u).phase ≠ .namesResolved
  · rwa [checkExpressions_of_settled hidle] at h
  rw [not_or, not_not, Bool.not_eq_true] at hidle
  have hnamed : s.IsNamed u := by
    rw [State.IsNamed, hidle.2]
    rfl
  have hmoves := checkExpressions_moves (State.valid_of_isNamed hnamed)
    (Option.not_isSome_iff_eq_none.mp (Bool.eq_false_iff.mp hidle.1)) hidle.2
  by_cases hvu : v = u
  · exact hvu ▸ hnamed
  · rwa [State.IsNamed, ← hmoves.others v hvu]

theorem State.start_attended : State.start.Attended where
  imports _ _ := rfl
  refs _ _ := Std.ExtTreeMap.getElem?_empty
  serves u hu := absurd (State.valid_of_isNamed hu) (Nat.not_lt_zero _)
  named k hk := by simp [start] at hk
  performed u task _ hk := by simp [start] at hk
  finished u hu := absurd (State.valid_of_isNamed (State.isNamed_of_checked hu)) (Nat.not_lt_zero _)

namespace State.Attended

/-- What begins no task, and resolves the names only of units that serve their imports then. -/
theorem resume (h : s.Attended) (hs : s.Layout) (hcarries : s.Carries s') (hpersists : s.Persists s')
    (hchecked : s'.checked = s.checked)
    (hfresh : ∀ u, s'.isSettled u = false → s.isSettled u = false ∧ (s'.unit u).imports = (s.unit u).imports ∧
      ∀ i, s'.types.refs[(⟨u, i⟩ : NodeId)]? = s.types.refs[(⟨u, i⟩ : NodeId)]?)
    (hserves : ∀ u, s'.IsNamed u → s.IsNamed u ∨ s'.ServesImports u)
    (hphase : ∀ u, (s'.unit u).phase = .checked → (s.unit u).phase = .checked) : s'.Attended where
  imports u hu := (hfresh u hu).2.1.trans (h.imports u (hfresh u hu).1)
  refs k hk := ((hfresh k.unit hk).2.2 k.id).trans (h.refs k (hfresh k.unit hk).1)
  serves u hu := (hserves u hu).elim (fun hnamed => (h.serves u hnamed).carry hs hnamed hcarries hpersists.targets) id
  named k hk := hcarries.named k.unit (h.named k (hchecked ▸ hk))
  performed u task hhas hk := by
    rw [hchecked] at hk
    have hnamed := h.named _ hk
    -- What a task has done stays done, since targets persist and tasks stay checked.
    have hle : s.Accrues s' := ⟨hpersists.targets, fun _ hk => hchecked ▸ hk⟩
    have hperformed := (h.performed u task (hcarries.tree u hnamed ▸ hhas) hk).mono hle
    exact hperformed.carry hs hnamed (h.serves u hnamed) hcarries
  finished u hu := by
    have hbefore := hphase u hu
    rw [hchecked, hcarries.tree u (isNamed_of_checked hbefore)]
    exact h.finished u hbefore

/-- What resolves no names and checks nothing. -/
theorem retain (h : s.Attended) (hs : s.Layout) (hcarries : s.Carries s') (hpersists : s.Persists s')
    (hretains : s.Retains s') (hsettled : ∀ u, s.isSettled u → s'.isSettled u) : s'.Attended := by
  refine h.resume hs hcarries hpersists hretains.checked (fun u hu => ⟨?_, hretains.imports u, fun i => ?_⟩)
    (fun u hu => .inl ?_) fun u hu => ?_
  · exact Bool.eq_false_iff.mpr fun hsome => Bool.false_ne_true (hu.symm.trans (hsettled u hsome))
  · rw [hretains.refs]
  · rwa [IsNamed, ← hretains.phase u hu]
  · rwa [← hretains.phase u (isNamed_of_checked hu)]

/-- A unit serves its imports when its names have been resolved. -/
theorem resolveNames (h : s.Attended) (hs : s.InOrder) (hcarries : s.Carries (resolveNames u s).2)
    (hpersists : s.Persists (Analysis.resolveNames u s).2) : (Analysis.resolveNames u s).2.Attended := by
  cases hnew : s.isSettled u with
  | true =>
    rw [resolveNames_of_settled (by simpa [State.isSettled] using hnew)]
    exact h
  | false =>
    -- Naming the unit starts anew what is owed of its imports; a unit that is settled, or not there, is left
    -- as it is.
    by_cases hu : u.index < s.units.size
    · have htouches : Touches u s (Analysis.resolveNames u s).2 := resolved_touches hs.owned u
      have hsettled := isSettled_resolveNames (s := s) (.inr rfl) hu
      refine h.resume hs.layout hcarries hpersists htouches.checked (fun v hv => ?_) (fun v hv => ?_) fun v hv => ?_
      · have hvu : v ≠ u := by
          rintro rfl
          cases hv.symm.trans hsettled
        have hunit := htouches.unit v hvu
        rw [State.isSettled, hunit] at hv
        exact ⟨hv, congrArg (·.imports) hunit, fun i => htouches.refs ⟨v, i⟩ hvu⟩
      · by_cases hvu : v = u
        · subst hvu
          exact .inr (resolveNames_servesImports hs hnew (h.imports v hnew) (fun i => h.refs ⟨v, i⟩ hnew) hv)
        · exact .inl (by rwa [IsNamed, ← htouches.unit v hvu])
      · rw [State.isSettled, Bool.or_eq_false_iff] at hnew
        have hmoves := resolveNames_moves hu (Option.not_isSome_iff_eq_none.mp (Bool.eq_false_iff.mp hnew.1)) hnew.2
        by_cases hvu : v = u
        · subst hvu
          rcases hmoves.self with ⟨hphase, -⟩ | ⟨hphase, -⟩
          · cases hphase.symm.trans hv
          · rwa [← hphase]
        · rwa [← hmoves.others v hvu]
    · rw [resolveNames_of_invalid hu] at hcarries hpersists ⊢
      exact h.retain hs.layout hcarries hpersists (moduleSteps_retains.log u _ _ s) fun v hv => by
        have hsame := logStep_samePhases (u := u) .namesResolved "resolving names" s
        rwa [State.isSettled, hsame.phase, hsame.failure]

/-- Checking a unit comes to all references that resolving its names has left. -/
theorem checkExpressions (h : s.Attended) (hs : s.InOrder) (hrecorded : s.Recorded) (hbinds : s.BindsFirst)
    (hcarries : s.Carries (checkExpressions u s).2) (hpersists : s.Persists (Analysis.checkExpressions u s).2) :
    (Analysis.checkExpressions u s).2.Attended := by
  by_cases hidle : (s.unit u).failure.isSome = true ∨ (s.unit u).phase ≠ .namesResolved
  · rw [checkExpressions_of_settled hidle]
    exact h
  rw [not_or, not_not, Bool.not_eq_true] at hidle
  have hfine : (s.unit u).failure = none := Option.not_isSome_iff_eq_none.mp (Bool.eq_false_iff.mp hidle.1)
  have hnamed : s.IsNamed u := by
    rw [IsNamed, hidle.2]
    rfl
  obtain ⟨htracks, hle, hbegun⟩ := checkExpressions_tracks hs hrecorded hfine hidle.2 (hbinds u hnamed) h.named
    h.performed
  have hmoves := checkExpressions_moves (State.valid_of_isNamed hnamed) hfine hidle.2
  have himports := checkExpressions_sameImports u s
  have hunsettled : ∀ v, (Analysis.checkExpressions u s).2.isSettled v = false → s.isSettled v = false :=
    fun v hv => Bool.eq_false_iff.mpr fun hsome =>
      Bool.false_ne_true (hv.symm.trans (isSettled_checkExpressions hsome))
  -- Checking leaves the references alone and begins tasks of named units only; it adds what it performs to the
  -- targets.
  refine ⟨fun v hv => (himports v).trans (h.imports v (hunsettled v hv)), fun k hk => ?_, fun v hv => ?_,
    fun k hk => ?_, fun v task hhas hk => ?_, fun v hv => ?_⟩
  · rw [htracks.refs]
    exact h.refs k (hunsettled k.unit hk)
  · have hnamed := isNamed_of_checkExpressions hv
    exact (h.serves v hnamed).carry hs.layout hnamed hcarries hpersists.targets
  · exact hcarries.named k.unit (isNamed_facts.mp (htracks.named k hk))
  · have hnamed := isNamed_facts.mp (htracks.named _ hk)
    rw [hcarries.tree v hnamed] at hhas
    have hperformed := htracks.performed v task (by rw [s.unit_facts]; exact hhas) hk List.not_mem_nil
    exact (performed_facts.mp hperformed).carry hs.layout hnamed (h.serves v hnamed) hcarries
  · by_cases hvu : v = u
    · subst hvu
      rwa [hcarries.tree v hnamed]
    · have hbefore := (hmoves.others v hvu).symm.trans hv
      rw [hcarries.tree v (isNamed_of_checked hbefore)]
      exact hle.checked _ (h.finished v hbefore)

theorem next {j : Job} (h : s.Attended) (hj : j.Fits s) (hs : s.InOrder) (hrecorded : s.Recorded)
    (hbinds : s.BindsFirst) : (j.run s).2.Attended := by
  have hcarries := j.carries hj hs
  have hpersists := (j.walk_keeps hj hs hrecorded).persists j.walk_traces rfl
  cases hquiet : j.isQuiet with
  | true => exact h.retain hs.layout hcarries hpersists (j.retains hquiet s) fun u => j.settled hj
  | false =>
    cases j with
    | pass c =>
      obtain ⟨p, u⟩ := c
      cases p with
      | names => exact h.resolveNames hs hcarries hpersists
      | check => exact h.checkExpressions hs hrecorded hbinds hcarries hpersists
      | bind | module => cases hquiet
    | _ => cases hquiet

end State.Attended

/-- If names are resolved of bound units only, it has been so before. -/
theorem State.BindsFirst.before {j : Job} (hj : j.Fits s) (hs : s.InOrder) (h : (j.run s).2.BindsFirst) :
    s.BindsFirst := by
  intro u hu
  have hcarries := j.carries hj hs
  rw [← hcarries.isBound u hu]
  exact h u (hcarries.named u hu)

/-- All references in units that are checked are come to, if names are resolved of bound units only. -/
theorem Job.runAll_attended {jobs : List Job} (hjobs : s.Admits jobs) (hs : s.InOrder) (hrecorded : s.Recorded)
    (hbinds : (runAll jobs s).2.BindsFirst) : s.BindsFirst ∧ (s.Attended → (runAll jobs s).2.Attended) := by
  induction jobs generalizing s with
  | nil => exact ⟨hbinds, id⟩
  | cons j jobs ih =>
    obtain ⟨hj, hrest⟩ := hjobs
    obtain ⟨hnext, hend⟩ := ih hrest (inOrder hj hs) (recorded hj hs hrecorded) hbinds
    have hfirst := hnext.before hj hs
    exact ⟨hfirst, fun h => hend (h.next hj hs hrecorded hfirst)⟩

theorem State.Arises.attended (h : s.Arises) (hbinds : s.BindsFirst) : s.Attended := by
  obtain ⟨jobs, hjobs, rfl⟩ := h
  exact (Job.runAll_attended hjobs start_inOrder start_recorded hbinds).2 start_attended

/-! ## Units that have been checked -/

/-- In a unit that has been checked, what there is to do for each of its nodes has been done. -/
theorem State.Attended.done (h : s.Attended) (hu : (s.unit u).phase = .checked) {n : Node}
    (hn : (s.unit u).tree.Has n) (herrand : n.isErrand = true) : s.Done s u n := by
  have hparts : ∀ task : Task, (s.unit u).tree.Has task.node → s.checked.contains ⟨u, task.mark.id⟩ = true →
      ∀ p ∈ task.node.parts, (s.unit u).tree.Has p ∧ ∀ m, p.Spans m → m.isErrand = true → s.Done s u m :=
    fun task hhas hbegun p hp => ⟨hhas.part hp, h.performed u task hhas hbegun p hp⟩
  have hroot := hparts (.unit (s.unit u).tree) (Node.mem_all _) (h.finished u hu)
  refine ((Outline.forall_nodes (P := fun n => (s.unit u).tree.Has n ∧ ∀ m, n.Spans m → m.isErrand = true →
    s.Done s u m) (fun n hn p hp => ?_) (s.unit u).tree.outline (s.unit u).tree.outline_faithful
    ⟨Node.mem_all _, fun m hm herrand => ?_⟩ n hn).2 n (.self n) herrand)
  · cases htask : n.isTask with
    | false => exact ⟨hn.1.part hp, fun m hm => hn.2 m (.part htask hp hm)⟩
    | true =>
      obtain ⟨task, rfl⟩ := Task.exists_of_isTask htask
      have hbegun := (hn.2 task.node (.self _) (Node.isErrand_of_isTask htask)).begun htask
      exact hparts task hn.1 (task.mark_node ▸ hbegun) p hp
  · cases hm with
    | self => cases herrand
    | part _ hp hm => exact (hroot _ hp).2 m hm herrand

/-- In a unit that has been checked, a name that is found by an import has the imported declaration as its target. -/
theorem State.Attended.target (h : s.Attended) (hu : (s.unit u).phase = .checked) {n : Node}
    (hn : (s.unit u).tree.Has n) {name : String} {filter : Filter} (hmention : n.mention? = some (name, filter))
    {i : Imported} (hi : s.importFor? u n.mark name filter = some i) :
    s.targets[(⟨u, n.mark.id⟩ : NodeId)]? = some i.decl := by
  unfold Node.mention? at hmention
  split at hmention
  · obtain ⟨rfl, rfl⟩ := Prod.mk.inj (Option.some.inj hmention)
    exact (h.serves u (State.isNamed_of_checked hu)).served _ hn i hi
  · obtain ⟨rfl, rfl⟩ := Prod.mk.inj (Option.some.inj hmention)
    exact (h.done hu hn rfl).target _ _ i rfl hi
  · obtain ⟨rfl, rfl⟩ := Prod.mk.inj (Option.some.inj hmention)
    exact (h.done hu hn rfl).target _ _ i rfl hi
  · cases hmention

/-! ## Analyses of source trees -/

namespace State.BindsFirst

theorem advances (h : s.BindsFirst) (hadvances : s.Advances s')
    (hnamed : ∀ v, s'.IsNamed v → s.IsNamed v ∨ (s.unit v).isBound = true) : s'.BindsFirst := by
  intro v hv
  rw [(hadvances.units v).isBound]
  exact (hnamed v hv).elim (h v) id

/-- Where every unit has been bound or has failed, names are resolved of bound units only. -/
theorem resolveNames (h : s.BindsFirst) (hs : s.InOrder) (haccounted : s.Accounted fun _ => False) (u : UnitId) :
    (resolveNames u s).2.BindsFirst := by
  refine h.advances ((resolveNames_refines u).discard s).toAdvances fun v hv => ?_
  cases hnew : s.isSettled u with
  | true =>
    rw [resolveNames_of_settled (by simpa [State.isSettled] using hnew)] at hv
    exact .inl hv
  | false =>
    have htouches : Touches u s (Analysis.resolveNames u s).2 := resolved_touches hs.owned u
    by_cases hvu : v = u
    · subst hvu
      rw [State.isSettled, Bool.or_eq_false_iff] at hnew
      have hvalid : v.index < s.units.size :=
        (State.valid_of_isNamed hv).trans_eq (State.units_size_of_fixed htouches.fixed)
      exact .inr (((haccounted.bound v hvalid).resolve_left id).resolve_right (Bool.eq_false_iff.mp hnew.1))
    · exact .inl (by rwa [IsNamed, ← htouches.unit v hvu])

theorem runKeeps : RunKeeps fun s => s.BindsFirst ∧ s.InOrder ∧ s.Accounted fun _ => False where
  dependencies s hs :=
    have hadvances := resolveDependencies_advances s
    have hphases := moduleSteps_samePhases.resolveDependencies s
    ⟨hs.1.advances hadvances fun v hv => .inl (by rwa [IsNamed, ← hphases.phase v]), hs.2.1.advances hadvances,
      hs.2.2.advances hadvances⟩
  names u s hs :=
    have hadvances := (resolveNames_refines u s).toAdvances
    ⟨hs.1.resolveNames hs.2.1 hs.2.2 u, hs.2.1.advances hadvances, hs.2.2.advances hadvances⟩
  check u s hs :=
    have hadvances := (checkExpressions_refines u s).toAdvances
    ⟨hs.1.advances hadvances fun v hv => .inl (isNamed_of_checkExpressions hv), hs.2.1.advances hadvances,
      hs.2.2.advances hadvances⟩
  walk s trace hs :=
    have hadvances := s.advances_trace trace
    ⟨hs.1, hs.2.1.advances hadvances, hs.2.2.advances hadvances⟩

end State.BindsFirst

theorem State.Loaded.bindsFirst {ℓ : Leeway} (h : s.Loaded ℓ) : s.BindsFirst := by
  intro u hu
  by_cases hlanguage : u = languageUnit
  · exact hlanguage ▸ h.bound
  · exact absurd ((h.early u hlanguage).symm.trans hu) Bool.false_ne_true

end

/-- Analyses of source trees resolve the names of bound units only. -/
theorem SourceTree.analyze_bindsFirst (t : SourceTree) (exclude : List String) : (t.analyze exclude).2.BindsFirst :=
  SourceTree.analyze_then (Q := State.BindsFirst) (t.loadKeeps_loaded (.of True))
    ⟨State.initial_loaded _, State.initial_accounted⟩
    (fun s hs => (State.BindsFirst.runKeeps.run s ⟨hs.1.bindsFirst, hs.1.reached.inOrder, hs.2⟩).1) exclude

end Analysis

namespace Lint

open Model Syntax Analysis

theorem mem_nodesOutsideImports {tree : CompilationUnit} {n : Node} (h : tree.Has n)
    (hmention : n.mention?.isSome = true) : n ∈ nodesOutsideImports tree := by
  rw [CompilationUnit.Has, Outline.nodes_eq] at h
  rcases List.mem_cons.mp h with rfl | h
  · cases hmention
  · obtain ⟨o, ho, hn⟩ := List.mem_flatMap.mp h
    refine List.mem_flatMap.mpr ⟨o, ho, ?_⟩
    split
    · next i hi =>
      have hfaithful := Outline.allFaithful_iff.mp tree.outline_faithful.2 o ho
      rw [hfaithful.nodes_eq, hi] at hn
      rw [Import.mention?_eq_none i n hn] at hmention
      cases hmention
    · exact hn

/-- An import by way of which a name in a unit is found is not reported when the unit has been checked. -/
theorem unusedImport_of_importFor? {s : State} {u : UnitId} (hs : s.Arises) (hbinds : s.BindsFirst)
    (hu : (s.unit u).phase = .checked) {n : Node} (hn : (s.unit u).tree.Has n) {name : String} {filter : Filter}
    (hmention : n.mention? = some (name, filter)) {i : Imported} (hi : s.importFor? u n.mark name filter = some i) :
    ∀ f ∈ Check.unusedImport.run s u (s.unit u).tree, f.message ≠ "unused import: " ++ i.localName := by
  have hattended := hs.attended hbinds
  have hused : (referenced s u (s.unit u).tree).contains i.decl = true := by
    have hmem : n ∈ nodesOutsideImports (s.unit u).tree := mem_nodesOutsideImports hn (by rw [hmention]; rfl)
    exact List.contains_iff_mem.mpr (List.mem_filterMap.mpr ⟨n, hmem, hattended.target hu hn hmention hi⟩)
  intro f hf heq
  obtain ⟨j, hj, rfl⟩ := List.mem_map.mp hf
  obtain ⟨hj, hunused⟩ := List.mem_filter.mp hj
  have hname : j.localName = i.localName := (String.append_right_inj _).mp heq
  have hij : j = i := List.inj_on_of_nodup_map (hattended.serves u (State.isNamed_of_checked hu)).names hj
    (Graph.mem_of_importFor? hi).1 hname
  rw [hij, hused] at hunused
  cases hunused

/-- A unit that imports a class from its own package. -/
def selfImport : String :=
  "import p { A }\nshared class A() {}\nA a = A();\n"

/-- The jobs that take the unit through its phases. -/
def selfImportJobs : List Job :=
  [.package ["p"], .own ⟨1⟩ ⟨0⟩, .unit "a.ceylon" ⟨"a.ceylon", "p/a.ceylon"⟩ (Text.Glyph.ofString selfImport) ⟨0⟩,
    .pass ⟨.bind, ⟨0⟩⟩, .pass ⟨.names, ⟨0⟩⟩, .pass ⟨.check, ⟨0⟩⟩]

/-- Whether a state has one unit, which is bound and checked, and a name in it is found by an import. -/
def isImporting (s : State) : Bool :=
  s.units.size = 1 && (s.unit ⟨0⟩).isBound && (s.unit ⟨0⟩).phase = .checked &&
    (s.unit ⟨0⟩).tree.outline.nodes.any fun n => n.mention?.any fun m => (s.importFor? ⟨0⟩ n.mark m.1 m.2).isSome

theorem unusedImport_of_importFor?_selfImport :
    let s := (Job.runAll selfImportJobs .start).2
    s.Arises ∧ s.BindsFirst ∧ (s.unit ⟨0⟩).phase = .checked ∧ ∃ n name filter i, (s.unit ⟨0⟩).tree.Has n ∧
      n.mention? = some (name, filter) ∧ s.importFor? ⟨0⟩ n.mark name filter = some i ∧
      ∀ f ∈ Check.unusedImport.run s ⟨0⟩ (s.unit ⟨0⟩).tree, f.message ≠ "unused import: " ++ i.localName := by
  intro s
  have hs : s.Arises := by
    refine ⟨selfImportJobs, ⟨trivial, trivial, trivial, ?_, trivial, trivial, trivial⟩, rfl⟩
    exact (Nat.succ_pos _).trans_eq (Array.size_push _).symm
  -- The three passes are run on the tree that the text reads to.
  have hcomputed : isImporting s = true := by
    obtain ⟨r, hr, hstate⟩ := (Option.any_eq_true _ _).mp (show
      (readBytes? 30 ⟨"a.ceylon", "p/a.ceylon"⟩ (Text.bytesOf selfImport)).any (fun r => isImporting
        (Job.runAll [.pass ⟨.bind, ⟨0⟩⟩, .pass ⟨.names, ⟨0⟩⟩, .pass ⟨.check, ⟨0⟩⟩]
          (addUnit "a.ceylon" r.unit ⟨0⟩ (Job.runAll [.package ["p"], .own ⟨1⟩ ⟨0⟩] .start).2).2).2) = true by
        decide +kernel)
    rwa [← readUnit_eq_of_readBytes? hr] at hstate
  simp only [isImporting, Bool.and_eq_true, decide_eq_true_eq, List.any_eq_true] at hcomputed
  obtain ⟨⟨⟨hsize, hbound⟩, hphase⟩, n, hn, hmention⟩ := hcomputed
  have hbinds : s.BindsFirst := by
    intro u hu
    have hvalid := State.valid_of_isNamed hu
    obtain rfl : u = ⟨0⟩ := congrArg UnitId.mk (show u.index = 0 by omega)
    exact hbound
  obtain ⟨⟨name, filter⟩, hmention, hi⟩ := (Option.any_eq_true _ _).mp hmention
  obtain ⟨i, hi⟩ := Option.isSome_iff_exists.mp hi
  exact ⟨hs, hbinds, hphase, n, name, filter, i, hn, hmention, hi,
    unusedImport_of_importFor? hs hbinds hphase hn hmention hi⟩

end Lint

end Ceylon
