import Ceylon.Proofs.CheckedOnce
import Ceylon.Proofs.Naming

/-!
# What is recorded is written once

Whatever an analysis is asked to do, and in whatever order, the scopes, declarations, types and targets that it
has recorded for nodes, and the types of declarations, stay from then on: in all states that it comes through,
also in those in the middle of a pass, and if a pass fails (`State.passed_persists`).
-/

namespace Ceylon.Analysis

open Model Syntax Walk

section

variable {s s' : State} {u v : UnitId}

/-! ## What is settled -/

/-- The phase of a unit that is not there is nowhere to be set. -/
theorem setPhase_of_invalid (hu : ¬ u.index < s.units.size) (phase : Phase) : (setPhase u phase s).2 = s := by
  have hunits := modify_eq_self (f := fun unit => { unit with phase }) (a := default) fun hu' => absurd hu' hu
  change { s with units := s.units.modify u.index _ } = s
  rw [hunits]

/-- Nor has it a module to resolve. -/
theorem resolveModule_of_invalid (hu : ¬ u.index < s.units.size) : (resolveModule u s).2 = s := by
  rw [resolveModule, get_bind_apply, State.unit_of_invalid hu]
  exact setPhase_of_invalid hu .moduleResolved

/-- On a unit that is not there, resolving names only writes a line to the log. -/
theorem resolveNames_of_invalid (hu : ¬ u.index < s.units.size) :
    (resolveNames u s).2 = (logStep u .namesResolved "resolving names" s).2 := by
  rw [resolveNames, get_bind_apply, State.unit_of_invalid hu]
  exact setPhase_of_invalid (s := (logStep u .namesResolved "resolving names" s).2) hu .namesResolved

/-- Resolving modules leaves settled units settled. -/
theorem isSettled_resolveModule (hv : s.isSettled v) : (resolveModule u s).2.isSettled v := by
  by_cases hu : u.index < s.units.size
  · exact (State.onward_run (p := .module) hu).isSettled hv
  · rwa [resolveModule_of_invalid hu]

/-- Resolving names settles its unit and unsettles none. -/
theorem isSettled_resolveNames (hv : s.isSettled v ∨ v = u) (hu : u.index < s.units.size) :
    (resolveNames u s).2.isSettled v := by
  rcases hv with hv | rfl
  · exact (State.onward_run (p := .names) hu).isSettled hv
  · have hcalled := State.behind_of_called (q := .names)
      (show s.Takes [⟨.names, v⟩] from List.forall_mem_singleton.mpr hu) List.mem_cons_self nofun
    rw [State.isSettled, Bool.or_eq_true, Phase.atLeast_iff]
    exact hcalled

/-- A failure unsettles no unit. -/
theorem isSettled_fail (failure : Failure) (hv : s.isSettled v) : (fail u failure s).2.isSettled v := by
  have hunit : (fail u failure s).2.unit v = _ := s.unit_modify u v _
  rw [State.isSettled, hunit]
  split
  · rfl
  · exact hv

/-- Nor does checking. -/
theorem isSettled_checkExpressions (hv : s.isSettled v) : (checkExpressions u s).2.isSettled v := by
  by_cases hu : u.index < s.units.size
  · exact (State.onward_run (p := .check) hu).isSettled hv
  · rwa [checkExpressions_of_settled (.inr ?_)]
    rw [State.unit_of_invalid hu]
    decide

/-! ## What the jobs leave recorded -/

/-- Being recorded reads notes and phases only. -/
theorem State.Recorded.of_same (h : s.Recorded) (hsame : s.SameNotes s') (hphases : s.SamePhases s') :
    s'.Recorded := by
  refine h.of_sameNotes hsame fun v hv => ?_
  rwa [isSettled, hphases.phase, hphases.failure]

/-- Resolving names keeps a recorded state recorded. -/
theorem resolveNames_recorded (hs : s.InOrder) (h : s.Recorded) (u : UnitId) : (resolveNames u s).2.Recorded := by
  by_cases hu : u.index < s.units.size
  · exact ((namesWalk_keeps hs h u).result (namesWalk_traces u) rfl).mono fun v hv => isSettled_resolveNames hv hu
  · rw [resolveNames_of_invalid hu]
    exact h.of_same (logStep_sameNotes u _ _ s) (logStep_samePhases _ _ s)

/-- So does adding a unit: a new one has no notes. -/
theorem addUnit_recorded (h : s.Recorded) (path : String) (tree : CompilationUnit) (p : PackageId) :
    (addUnit path tree p s).2.Recorded := by
  -- A unit that was there before is as it was, and nothing is recorded for the new one.
  have hother : ∀ v, v.index ≠ s.units.size → (addUnit path tree p s).2.unit v = s.unit v :=
    fun v hv => (unit_addUnit s path tree p v).trans (if_neg hv)
  have hnew : ∀ v : UnitId, v.index = s.units.size → s.unit v = default :=
    fun v hv => State.unit_of_invalid hv.ge.not_gt
  have hsettled : ∀ v, s.isSettled v → v.index ≠ s.units.size := by
    intro v hv heq
    rw [State.isSettled, hnew v heq] at hv
    cases hv
  have hdone : ∀ v, s.isSettled v → (addUnit path tree p s).2.isSettled v := by
    intro v hv
    rwa [State.isSettled, hother v (hsettled v hv)]
  refine ⟨fun k hk => ?_, fun k hk => hdone _ (h.exprs k hk), fun k hk => hdone _ (h.inferred k hk),
    fun k hk => hdone _ (h.targets k hk), fun d v hunit hknown => hdone _ (h.declared d v hunit hknown),
    fun k hk => hdone _ (h.checked k hk), fun v task n hn hbegun => ?_⟩
  · have hbound := h.scopes k hk
    rwa [hother _ (State.valid_of_isBound hbound).ne]
  · by_cases hv : v.index = s.units.size
    · exact (h.untouched (fun hv' => hsettled v hv' hv) n).of_tables rfl rfl rfl
    · rw [hother v hv] at hn
      exact (h.pending v task n hn hbegun).of_tables rfl rfl rfl

/-- Loading the language persists. -/
theorem load_persists (s : State) (p : PackageId) : s.Persists ((Job.builtins p).run s).2 where
  scopes _ _ := id
  decls _ _ := id
  types _ _ := id
  targets _ _ := id
  typeOf d hd := by
    have hdecl : ((Job.builtins p).run s).2.graph.decl d = s.graph.decl d :=
      s.graph.decl_declare_of_lt _ (Graph.valid_of_typeOf hd)
    refine Graph.typeOf_persists ?_ ?_ ?_ (fun _ _ hk => hk) hd
    · rw [hdecl]
    · rw [hdecl]
    · rw [Graph.nodeOf?, hdecl, Graph.nodeOf?]

/-- And keeps a recorded state recorded. -/
theorem load_recorded (h : s.Recorded) (p : PackageId) : ((Job.builtins p).run s).2.Recorded := by
  refine { h with
    declared := fun d v hunit hknown => ?_
    pending := fun u task n hn hbegun => (h.pending u task n hn hbegun).of_tables rfl rfl rfl }
  have hdecl : ((Job.builtins p).run s).2.graph.decl d = s.graph.decl d := by
    refine s.graph.decl_declare_of_ne _ fun heq => ?_
    have hbottom : (((Job.builtins p).run s).2.graph.decl d).unit = none := by
      rw [heq]
      exact congrArg (·.unit) (s.graph.decl_declare_self _)
    cases hbottom.symm.trans hunit
  rw [hdecl] at hunit hknown
  exact h.declared d v hunit hknown

/-! ## Jobs -/

namespace Job

/-- A job that fits keeps the state in order. -/
theorem inOrder {j : Job} (hj : j.Fits s) (hs : s.InOrder) : (j.run s).2.InOrder := by
  cases j with
  | package name => exact hs.advances ((packageNamed_advances name).discard s)
  | own m p => exact hs.advances (addPackage_advances m p s)
  | dependency m dep => exact hs.advances (addDependency_advances m dep s)
  | unit path source glyphs p => exact hs.addUnit path (CompilationUnit.number_numbered _) p
  | builtins p => exact hs.load p
  | fail u failure => exact hs.advances (fail_refines u failure s).toAdvances
  | pass c =>
    obtain ⟨p, u⟩ := c
    cases p with
    | bind => exact hs.bindDeclarations hj
    | module => exact hs.advances ((resolveModule_advances u).discard s)
    | names => exact hs.advances ((resolveNames_refines u).discard s).toAdvances
    | check => exact hs.advances (checkExpressions_refines u s).toAdvances
  | dependencies => exact hs.advances (resolveDependencies_advances s)
  | journal stack log trace =>
    exact hs.advances ⟨⟨rfl, rfl, rfl, fun _ => rfl, rfl, rfl⟩, rfl, fun u => .refl _⟩

/-- A job that fits keeps a recorded state recorded. -/
theorem recorded {j : Job} (hj : j.Fits s) (hs : s.InOrder) (h : s.Recorded) : (j.run s).2.Recorded := by
  cases j with
  | package name =>
    exact h.of_same (moduleSteps_sameNotes.packageNamed name |>.discard s)
      (moduleSteps_samePhases.packageNamed name |>.discard s)
  | own m p => exact h.of_same (moduleSteps_sameNotes.addPackage m p s) (moduleSteps_samePhases.addPackage m p s)
  | dependency m dep =>
    exact h.of_same (moduleSteps_sameNotes.addDependency m dep s) (moduleSteps_samePhases.addDependency m dep s)
  | unit path source glyphs p => exact addUnit_recorded h path _ p
  | builtins p => exact load_recorded h p
  | fail u failure => exact h.of_sameNotes (fail_sameNotes u failure s) fun _ => isSettled_fail failure
  | pass c =>
    obtain ⟨p, u⟩ := c
    cases p with
    | bind => exact bindDeclarations_recorded hs h hj
    | module => exact h.of_sameNotes ((resolveModule_sameNotes u).discard s) fun _ => isSettled_resolveModule
    | names => exact resolveNames_recorded hs h u
    | check =>
      exact ((checkWalk_keeps hs h u).result (checkWalk_traces u) rfl).mono fun _ => isSettled_checkExpressions
  | dependencies =>
    exact h.of_same (moduleSteps_sameNotes.resolveDependencies s) (moduleSteps_samePhases.resolveDependencies s)
  | journal stack log trace =>
    exact h.of_same ⟨rfl, rfl, rfl, rfl, rfl, rfl, rfl, fun _ => rfl, fun _ => rfl⟩ (samePhases_of_units rfl)

/-- A job keeps what has been recorded, in each of its steps. -/
theorem walk_keeps {j : Job} (hj : j.Fits s) (hs : s.InOrder) (h : s.Recorded) :
    j.walk.Keeps (· = s) (· = (j.run s).2) := by
  -- A job without a walk of its own is one step.
  have hstep : s.Persists (j.run s).2 → (step j.run).Keeps (· = s) fun _ => True := by
    refine fun hpersists => .step ?_
    rintro _ rfl
    exact ⟨hpersists, trivial⟩
  refine Keeps.ends (Q := fun _ => True) ?_ j.walk_traces
  cases j with
  | package name => exact hstep ((moduleSteps_sameNotes.packageNamed name).discard s).persists
  | own m p => exact hstep (moduleSteps_sameNotes.addPackage m p s).persists
  | dependency m dep => exact hstep (moduleSteps_sameNotes.addDependency m dep s).persists
  | unit path source glyphs p =>
    exact hstep ⟨fun _ _ => id, fun _ _ => id, fun _ _ => id, fun _ _ => id, fun _ _ => rfl⟩
  | builtins p => exact hstep (load_persists s p)
  | fail u failure => exact hstep (fail_sameNotes u failure s).persists
  | pass c =>
    obtain ⟨p, u⟩ := c
    cases p with
    | bind => exact (bindWalk_keeps u).mono (fun s' hs' => hs' ▸ ⟨hs, h⟩) fun _ => id
    | module => exact hstep ((resolveModule_sameNotes u).discard s).persists
    | names => exact (namesWalk_keeps hs h u).discard.mono (fun _ => id) fun _ _ => trivial
    | check => exact (checkWalk_keeps hs h u).mono (fun _ => id) fun _ _ => trivial
  | dependencies => exact hstep (moduleSteps_sameNotes.resolveDependencies s).persists
  | journal stack log trace =>
    exact hstep ⟨fun _ _ => id, fun _ _ => id, fun _ _ => id, fun _ _ => id, fun _ _ => rfl⟩

/-- Jobs keep what has been recorded, one after the other. -/
theorem walkAll_keeps {jobs : List Job} (hjobs : s.Admits jobs) (hs : s.InOrder) (h : s.Recorded) :
    (walkAll jobs).Keeps (· = s) fun _ => True := by
  induction jobs generalizing s with
  | nil => exact (Keeps.pure _).mono (fun _ => id) fun _ _ => trivial
  | cons j jobs ih =>
    obtain ⟨hj, hrest⟩ := hjobs
    exact (walk_keeps hj hs h).bind fun _ => ih hrest (inOrder hj hs) (recorded hj hs h)

end Job

end

/-! ## The whole of an analysis -/

namespace State

/-- The analysis starts in order. -/
theorem start_inOrder : start.InOrder :=
  inOrder_empty startingGraph.modules

/-- Nothing is recorded at the start. -/
theorem start_recorded : start.Recorded := by
  have hnone : ∀ {α : Type} (k : NodeId), (∅ : NodeMap α)[k]? = none := by simp
  have hempty : ∀ {α : Type} (k : NodeId), ¬ ((∅ : NodeMap α)[k]?).isSome := by simp
  refine ⟨fun k hk => absurd hk (hempty k), fun k hk => absurd hk (hempty k), fun k hk => absurd hk (hempty k),
    fun k hk => absurd hk (hempty k), fun d u hunit => ?_, fun k hk => absurd hk ?_,
    fun _ _ _ _ _ => ⟨hnone _, hnone _, fun _ _ => hnone _⟩⟩
  · rw [Graph.decl_of_invalid (Nat.not_lt_zero _)] at hunit
    cases hunit
  · exact Std.ExtTreeSet.not_mem_empty

/-- The run lemma: every state that arises is in order and recorded. -/
theorem Arises.recorded {s : State} (h : s.Arises) : s.InOrder ∧ s.Recorded := by
  obtain ⟨jobs, hjobs, rfl⟩ := h
  suffices ∀ s : State, s.InOrder → s.Recorded → s.Admits jobs →
      (Job.runAll jobs s).2.InOrder ∧ (Job.runAll jobs s).2.Recorded from this _ start_inOrder start_recorded hjobs
  clear hjobs
  induction jobs with
  | nil => exact fun s hs h _ => ⟨hs, h⟩
  | cons j jobs ih => exact fun s hs h hjobs => ih _ (j.inOrder hjobs.1 hs) (j.recorded hjobs.1 hs h) hjobs.2

/-- Whatever jobs an analysis does from its start on, and whether they fail or not: what has been recorded in one
of the states that it comes through is so in all later ones. -/
theorem passed_persists {jobs : List Job} (hjobs : start.Admits jobs) :
    (start.passed jobs).head? = some start ∧ (start.passed jobs).getLast? = some (Job.runAll jobs start).2 ∧
      (start.passed jobs).Pairwise State.Persists := by
  refine ⟨start.head?_passed jobs, start.getLast?_passed jobs, ?_⟩
  have hsteady := (Job.walkAll_keeps hjobs start_inOrder start_recorded [] start rfl (List.pairwise_singleton ..)).2
  exact List.pairwise_reverse.mpr hsteady

theorem passed_persists_class :
    let jobs : List Job := [.unit "a.ceylon" ⟨"a.ceylon", "a.ceylon"⟩ (Text.Glyph.ofString "class A() \x7b\x7d") ⟨0⟩,
      .pass ⟨.bind, ⟨0⟩⟩, .pass ⟨.names, ⟨0⟩⟩, .pass ⟨.check, ⟨0⟩⟩]
    start.Admits jobs ∧ (start.passed jobs).getLast? = some (Job.runAll jobs start).2 ∧
      (start.passed jobs).Pairwise State.Persists := by
  intro jobs
  have hvalid : 0 < ((Job.unit "a.ceylon" ⟨"a.ceylon", "a.ceylon"⟩
      (Text.Glyph.ofString "class A() \x7b\x7d") ⟨0⟩).run start).2.units.size :=
    (Nat.succ_pos _).trans_eq (Array.size_push _).symm
  have hadmits : start.Admits jobs := ⟨trivial, hvalid, trivial, trivial, trivial⟩
  exact ⟨hadmits, (passed_persists hadmits).2⟩

end State

end Ceylon.Analysis
