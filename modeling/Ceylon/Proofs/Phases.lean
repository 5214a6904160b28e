import Ceylon.Proofs.Analyses
import Ceylon.Proofs.Beginning

/-!
# The phases of a unit

Four passes take a unit from phase to phase, and they can be called in any order and more than once.  A pass
that finds its work done already, or the unit failed, does nothing (`Pass.run_of_not_enters`); one that finds
work to do takes the unit to its own phase, unless it fails (`Pass.run_moves`).  So no call takes a unit back,
and a unit is in the phase of a pass only if that pass has been completed on it (`State.phase_meaning`).

That the passes before it have been completed as well is true only of units whose passes are called in turn.
The pass that resolves modules does not look whether a unit has been bound: it moves an unbound unit past the
phase that binding would take it to, and binding then takes itself to be done (`State.skips_binding`).
-/

namespace Ceylon.Analysis

open Model Syntax

/-- A phase is reached if it is not behind. -/
theorem Phase.atLeast_iff {p q : Phase} : p.atLeast q ↔ q.rank ≤ p.rank :=
  decide_eq_true_iff

/-! ## Passes -/

/-- The passes that take a unit from phase to phase. -/
inductive Pass where
  | bind
  | module
  | names
  | check
deriving DecidableEq, Repr

namespace Pass

/-- The phase that a pass takes a unit to. -/
def goal : Pass → Phase
  | .bind => .bound
  | .module => .moduleResolved
  | .names => .namesResolved
  | .check => .checked

/-- No two passes have the same goal. -/
theorem eq_of_rank {p q : Pass} (h : p.goal.rank = q.goal.rank) : p = q := by
  cases p <;> cases q <;> first | rfl | cases h

/-- The action of a pass on a unit. -/
def run : Pass → UnitId → Analyze Unit
  | .bind, u => bindDeclarations u
  | .module, u => discard (resolveModule u)
  | .names, u => discard (resolveNames u)
  | .check, u => checkExpressions u

/-- Whether a pass finds work to do on a unit.  Checking asks for a unit whose names are resolved; the other
passes only ask whether the unit has come further than they take it. -/
def enters (p : Pass) (s : State) (u : UnitId) : Bool :=
  (s.unit u).failure.isNone && match p with
    | .check => (s.unit u).phase == .namesResolved
    | p => !(s.unit u).phase.atLeast p.goal

/-- A pass with work to do on a unit brings it further. -/
theorem rank_lt_of_enters {p : Pass} {s : State} {u : UnitId} (h : p.enters s u) :
    (s.unit u).phase.rank < p.goal.rank := by
  cases p with
  | check =>
    simp only [enters, Bool.and_eq_true, beq_iff_eq] at h
    rw [h.2]
    decide
  | _ =>
    simp only [enters, Bool.and_eq_true, Bool.not_eq_true', Phase.atLeast, decide_eq_false_iff_not, not_le] at h
    exact h.2

end Pass

/-! ## Steps that keep units in their phases -/

/-- From the first state to the second, no unit has come to another phase, and none has failed. -/
structure State.SamePhases (s s' : State) : Prop where
  count : s'.units.size = s.units.size
  phase : ∀ u, (s'.unit u).phase = (s.unit u).phase
  failure : ∀ u, (s'.unit u).failure = (s.unit u).failure

instance : IsPreorder State State.SamePhases where
  refl _ := ⟨rfl, fun _ => rfl, fun _ => rfl⟩
  trans _ _ _ h h' := ⟨h'.count.trans h.count, fun u => (h'.phase u).trans (h.phase u),
    fun u => (h'.failure u).trans (h.failure u)⟩

section

variable {u : UnitId} {s s' : State}

/-- Changing a unit in other respects leaves the phases. -/
theorem modifyUnit_samePhases {g : UnitState → UnitState} (hphase : ∀ unit, (g unit).phase = unit.phase)
    (hfailure : ∀ unit, (g unit).failure = unit.failure) : Leads State.SamePhases (modifyUnit u g) := by
  intro s
  have hunit := s.unit_modify u (f := g)
  refine ⟨Array.size_modify .., fun v => ?_, fun v => ?_⟩
  · refine (congrArg (·.phase) (hunit v)).trans ?_
    split
    · exact hphase _
    · rfl
  · refine (congrArg (·.failure) (hunit v)).trans ?_
    split
    · exact hfailure _
    · rfl

/-- Phases and failures are those of the units. -/
theorem samePhases_of_units (h : s'.units = s.units) : s.SamePhases s' :=
  ⟨congrArg Array.size h, fun u => by rw [State.unit, h, State.unit], fun u => by rw [State.unit, h, State.unit]⟩

theorem logStep_samePhases (phase : Phase) (message : String) :
    Leads State.SamePhases (logStep u phase message) :=
  fun _ => samePhases_of_units rfl

theorem report_samePhases (n : Node) (message : String) : Leads State.SamePhases (report u n message) :=
  .get_bind fun _ => modifyUnit_samePhases (fun _ => rfl) fun _ => rfl

theorem moduleSteps_samePhases : ModuleSteps State.SamePhases where
  log _ := logStep_samePhases
  report _ := report_samePhases
  modules _ _ _ _ _ := samePhases_of_units rfl

theorem binding_perform_samePhases (step : BindStep) : Leads State.SamePhases (Binding.perform u step) := by
  cases step with
  | declare node name shared shape scope =>
    have hlist : ∀ d, Leads State.SamePhases (Binding.listDeclaration u scope d) := by
      intro d
      unfold Binding.listDeclaration
      split
      · exact modifyUnit_samePhases (fun _ => rfl) fun _ => rfl
      · exact .pure ()
    exact .bind (fun s => samePhases_of_units rfl) fun d => .bind (hlist d) fun _ => .pure d
  | _ => exact fun s => samePhases_of_units rfl

theorem resolution_perform_samePhases (step : ResolveStep) :
    Leads State.SamePhases (Resolution.perform u step) :=
  .resolution_perform samePhases_of_units report_samePhases
    (fun _ => modifyUnit_samePhases (fun _ => rfl) fun _ => rfl) step

theorem checkSteps_samePhases : CheckSteps State.SamePhases where
  report _ := report_samePhases
  tables _ _ _ _ _ _ _ := samePhases_of_units rfl

end

/-! ## What a pass does -/

/-- From the first state to the second, a unit has come to a phase or has failed, and all other units have
stayed in the phases in which they were. -/
structure State.Moves (u : UnitId) (goal : Phase) (s s' : State) : Prop where
  count : s'.units.size = s.units.size
  others : ∀ v, v ≠ u → (s'.unit v).phase = (s.unit v).phase
  failed : ∀ v, (s.unit v).failure.isSome → (s'.unit v).failure.isSome
  self : (s'.unit u).phase = goal ∧ (s'.unit u).failure = none ∨
    (s'.unit u).phase = (s.unit u).phase ∧ (s'.unit u).failure.isSome

/-- Setting a phase leaves the failures. -/
theorem setPhase_failure {u : UnitId} (s : State) (phase : Phase) (v : UnitId) :
    ((setPhase u phase s).2.unit v).failure = (s.unit v).failure := by
  refine (congrArg UnitState.failure (s.unit_modify u v fun unit => { unit with phase })).trans ?_
  split <;> rfl

section

variable {u : UnitId} {s s' : State} (h : s.SamePhases s') (hu : u.index < s.units.size)
include h hu

/-- Setting the phase of a unit that has not failed moves it there. -/
theorem State.SamePhases.moves_setPhase (hfine : (s.unit u).failure = none) (goal : Phase) :
    s.Moves u goal (setPhase u goal s').2 := by
  have hunit := s'.unit_modify u (f := fun unit => { unit with phase := goal })
  refine ⟨(Array.size_modify ..).trans h.count, fun v hv => ?_, fun v hv => ?_, .inl ?_⟩
  · exact (congrArg (·.phase) ((hunit v).trans (if_neg fun hv' => hv hv'.1.symm))).trans (h.phase v)
  · rw [setPhase_failure, h.failure]
    exact hv
  · exact ⟨congrArg (·.phase) ((hunit u).trans (if_pos ⟨rfl, h.count.symm ▸ hu⟩)),
      (setPhase_failure s' goal u).trans ((h.failure u).trans hfine)⟩

/-- Failing moves a unit no further. -/
theorem State.SamePhases.moves_fail (failure : Failure) (goal : Phase) :
    s.Moves u goal (fail u failure s').2 := by
  have hunit := s'.unit_modify u (f := fun unit =>
    let d : Diagnostic :=
      ⟨.error, failure.message, none, some (failure.location.getD { file := unit.path, pos := -1 })⟩
    { unit with failure := some (unit.failure.getD failure), diagnostics := d.addTo unit.diagnostics })
  refine ⟨(Array.size_modify ..).trans h.count, fun v hv => ?_, fun v hv => ?_, .inr ?_⟩
  · exact (congrArg (·.phase) ((hunit v).trans (if_neg fun hv' => hv hv'.1.symm))).trans (h.phase v)
  · refine (congrArg (·.failure.isSome) (hunit v)).trans ?_
    split
    · rfl
    · exact (congrArg Option.isSome (h.failure v)).trans hv
  · have hself := (hunit u).trans (if_pos ⟨rfl, h.count.symm ▸ hu⟩)
    exact ⟨(congrArg (·.phase) hself).trans (h.phase u), congrArg (·.failure.isSome) hself⟩

end

section

variable {u : UnitId} {s : State}

/-- Binding a unit does not fail. -/
theorem bindDeclarations_moves (hu : u.index < s.units.size) (hnew : s.isUnbound u) :
    s.Moves u .bound (bindDeclarations u s).2 ∧ ((bindDeclarations u s).2.unit u).failure = none := by
  rw [bindDeclarations_of_isUnbound hnew]
  have hbegun : s.SamePhases (s.begun u) :=
    trans_of State.SamePhases (logStep_samePhases .bound "binding declarations" s)
      (modifyUnit_samePhases (g := fun unit => { unit with isBound := true }) (fun _ => rfl) (fun _ => rfl) _)
  have hscripted := trans_of State.SamePhases hbegun
    (Leads.run (binding_perform_samePhases (u := u)) (s.script u) (s.begun u))
  simp only [State.isUnbound, Bool.not_or, Bool.and_eq_true, Bool.not_eq_true', Option.isSome_eq_false_iff,
    Option.isNone_iff_eq_none] at hnew
  exact ⟨hscripted.moves_setPhase hu hnew.1 .bound,
    (setPhase_failure _ .bound u).trans ((hscripted.failure u).trans hnew.1)⟩

/-- A unit that has failed or got further is left alone by resolving modules. -/
theorem resolveModule_of_settled
    (h : (s.unit u).failure.isSome ∨ (s.unit u).phase.atLeast .moduleResolved) : (resolveModule u s).2 = s := by
  rw [resolveModule, get_bind_apply]
  cases hfailure : (s.unit u).failure.isSome with
  | true => rfl
  | false =>
    have hphase := h.resolve_left (by rw [hfailure]; exact Bool.false_ne_true)
    simp only [hphase, Bool.false_eq_true, if_false, if_true]
    rfl

/-- Resolving modules moves an early unit to that phase, or the unit fails. -/
theorem resolveModule_moves (hu : u.index < s.units.size) (hfine : (s.unit u).failure = none)
    (hearly : (s.unit u).phase.atLeast .moduleResolved = false) :
    s.Moves u .moduleResolved (resolveModule u s).2 := by
  rw [resolveModule, get_bind_apply]
  simp only [hfine, hearly, Option.isSome_none, Bool.false_eq_true, if_false]
  cases (s.unit u).tree.module with
  | none => exact (refl_of State.SamePhases s).moves_setPhase hu hfine _
  | some descriptor =>
    have hlog := logStep_samePhases (u := u) .moduleResolved "declaring module" s
    dsimp only
    rw [bind_apply]
    cases PathStack.define _ _ with
    | error fault => exact hlog.moves_fail hu _ _
    | ok claimed =>
      -- However the module is declared, only the last step sets a phase.
      have hdeclared := fun (s' : State) (h : s.SamePhases s') name =>
        (trans_of State.SamePhases h (moduleSteps_samePhases.addDeclared u name claimed s')).moves_setPhase hu
          hfine .moduleResolved
      dsimp only
      split
      · exact hdeclared _ (trans_of State.SamePhases hlog (report_samePhases _ _ _)) _
      · exact hdeclared _ hlog _

/-- A unit that has failed or got further is left alone by resolving names. -/
theorem resolveNames_of_settled
    (h : (s.unit u).failure.isSome ∨ (s.unit u).phase.atLeast .namesResolved) : (resolveNames u s).2 = s := by
  rw [resolveNames, get_bind_apply]
  cases hfailure : (s.unit u).failure.isSome with
  | true => rfl
  | false =>
    have hphase := h.resolve_left (by rw [hfailure]; exact Bool.false_ne_true)
    simp only [hphase, Bool.false_eq_true, if_false, if_true]
    rfl

/-- Resolving names moves an early unit to that phase, or the unit fails. -/
theorem resolveNames_moves (hu : u.index < s.units.size) (hfine : (s.unit u).failure = none)
    (hearly : (s.unit u).phase.atLeast .namesResolved = false) :
    s.Moves u .namesResolved (resolveNames u s).2 := by
  have hresolved := trans_of State.SamePhases (logStep_samePhases (u := u) .namesResolved "resolving names" s)
    (Leads.run (resolution_perform_samePhases (u := u))
      (Resolution.resolveUnit s.bound u (s.unit u).tree).run _)
  rw [resolveNames, get_bind_apply]
  simp only [hfine, hearly, Option.isSome_none, Bool.false_eq_true, if_false]
  rw [bind_apply, bind_apply]
  generalize (Dialogue.run (Resolution.perform u) _ : Analyze (Except FatalError Unit)) _ = outcome
    at hresolved ⊢
  obtain ⟨_ | _, s'⟩ := outcome
  · exact hresolved.moves_fail hu _ _
  · exact hresolved.moves_setPhase hu hfine _

/-- A unit that has failed or whose names have not just been resolved is left alone by checking. -/
theorem checkExpressions_of_settled
    (h : (s.unit u).failure.isSome ∨ (s.unit u).phase ≠ .namesResolved) : (checkExpressions u s).2 = s := by
  have hsettled : ((s.unit u).failure.isSome || decide ((s.unit u).phase ≠ .namesResolved)) = true := by
    simpa using h
  rw [checkExpressions, get_bind_apply]
  simp only [hsettled, if_true]
  rfl

/-- Checking moves a unit with resolved names to that phase, or the unit fails. -/
theorem checkExpressions_moves (hu : u.index < s.units.size) (hfine : (s.unit u).failure = none)
    (hphase : (s.unit u).phase = .namesResolved) : s.Moves u .checked (checkExpressions u s).2 := by
  have hchecked := trans_of State.SamePhases (logStep_samePhases (u := u) .checked "checking expressions" s)
    (checkSteps_samePhases.performTask s.facts (s.decls.size + 2) u (.unit (s.unit u).tree) _)
  rw [checkExpressions, get_bind_apply]
  simp only [hfine, hphase, Option.isSome_none, Bool.false_eq_true, ne_eq, not_true_eq_false, decide_false,
    Bool.or_self, if_false]
  exact hchecked.moves_setPhase hu hfine _

end

namespace Pass

variable {p : Pass} {u : UnitId} {s : State}

/-- A pass has no work to do on a unit that has failed. -/
theorem fine_of_enters (h : p.enters s u) : (s.unit u).failure = none := by
  simp only [enters, Bool.and_eq_true, Option.isNone_iff_eq_none] at h
  exact h.1

/-- A pass that finds work to do on a unit takes it to its phase, or fails. -/
theorem run_moves (hu : u.index < s.units.size) (h : p.enters s u) : s.Moves u p.goal (p.run u s).2 := by
  have hfine := fine_of_enters h
  simp only [enters, hfine, Option.isNone_none, Bool.true_and] at h
  cases p with
  | bind =>
    refine (bindDeclarations_moves hu ?_).1
    rw [State.isUnbound, hfine]
    exact h
  | module => exact resolveModule_moves hu hfine (Bool.not_eq_true' _ ▸ h)
  | names => exact resolveNames_moves hu hfine (Bool.not_eq_true' _ ▸ h)
  | check => exact checkExpressions_moves hu hfine (beq_iff_eq.mp h)

/-- A pass that finds no work to do on a unit changes nothing. -/
theorem run_of_not_enters (h : p.enters s u = false) : (p.run u s).2 = s := by
  simp only [enters, Bool.and_eq_false_iff, Option.isNone_eq_false_iff] at h
  cases p with
  | bind =>
    refine bindDeclarations_of_not_isUnbound ?_
    rcases h with h | h
    · rw [State.isUnbound, h, Bool.true_or, Bool.not_true]
    · rw [State.isUnbound, Bool.not_or]
      exact Bool.and_eq_false_imp.mpr fun _ => h
  | module => exact resolveModule_of_settled (by simpa [goal] using h)
  | names => exact resolveNames_of_settled (by simpa [goal] using h)
  | check => exact checkExpressions_of_settled (by simpa using h)

end Pass

/-! ## Sequences of calls -/

/-- A call of a pass on a unit. -/
structure Call where
  pass : Pass
  unit : UnitId
deriving DecidableEq, Repr

/-- The state after calls, one after the other. -/
def State.after (s : State) (calls : List Call) : State :=
  calls.foldl (fun s c => (c.pass.run c.unit s).2) s

/-- All calls are on units of the state. -/
def State.Takes (s : State) (calls : List Call) : Prop :=
  ∀ c ∈ calls, c.unit.index < s.units.size

/-- One of the calls has completed a pass on a unit: the pass had work to do there, and has not failed. -/
def State.Completed (s : State) (calls : List Call) (p : Pass) (u : UnitId) : Prop :=
  ∃ before rest, calls = before ++ ⟨p, u⟩ :: rest ∧ p.enters (s.after before) u ∧
    ((s.after (before ++ [⟨p, u⟩])).unit u).failure = none

/-- The pass that another one takes to be completed, without looking. -/
def Pass.presumed? : Pass → Option Pass
  | .module => some .bind
  | .names => some .module
  | _ => none

/-- On a unit no pass is called before the one that it takes to be completed. -/
def InTurn (u : UnitId) (calls : List Call) : Prop :=
  ∀ i : Fin calls.length, calls[i].unit = u → ∀ q ∈ calls[i].pass.presumed?, ⟨q, u⟩ ∈ calls.take i

instance (u : UnitId) (calls : List Call) : Decidable (InTurn u calls) :=
  inferInstanceAs (Decidable (∀ _, _))

namespace State

variable {s : State} {u v : UnitId} {p q : Pass} {calls : List Call}

/-- Calls that follow others are made in the state that the others lead to. -/
theorem after_append (s : State) (calls more : List Call) :
    s.after (calls ++ more) = (s.after calls).after more :=
  List.foldl_append

/-- The last of the calls is made in the state that the others lead to. -/
theorem after_concat (s : State) (calls : List Call) (c : Call) :
    s.after (calls ++ [c]) = (c.pass.run c.unit (s.after calls)).2 :=
  after_append s calls [c]

/-- No call takes a unit back, and what has failed stays so. -/
structure Onward (s s' : State) : Prop where
  count : s'.units.size = s.units.size
  phase : ∀ u, (s.unit u).phase.rank ≤ (s'.unit u).phase.rank
  failed : ∀ u, (s.unit u).failure.isSome → (s'.unit u).failure.isSome

instance : IsPreorder State Onward where
  refl _ := ⟨rfl, fun _ => le_rfl, fun _ => id⟩
  trans _ _ _ h h' := ⟨h'.count.trans h.count, fun u => (h.phase u).trans (h'.phase u),
    fun u => h'.failed u ∘ h.failed u⟩

/-- A pass leads units onward only. -/
theorem onward_run (hu : u.index < s.units.size) : s.Onward (p.run u s).2 := by
  cases h : p.enters s u with
  | false =>
    rw [Pass.run_of_not_enters h]
    exact refl_of Onward s
  | true =>
    have hmoves := Pass.run_moves hu h
    refine ⟨hmoves.count, fun v => ?_, hmoves.failed⟩
    by_cases hv : v = u
    · subst hv
      rcases hmoves.self with ⟨hphase, -⟩ | ⟨hphase, -⟩
      · rw [hphase]
        exact (Pass.rank_lt_of_enters h).le
      · rw [hphase]
    · rw [hmoves.others v hv]

/-- Calls lead units onward only. -/
theorem onward_after (hcalls : s.Takes calls) : s.Onward (s.after calls) := by
  induction calls generalizing s with
  | nil => exact refl_of Onward s
  | cons c calls ih =>
    have hrun : s.Onward (c.pass.run c.unit s).2 := onward_run (hcalls c List.mem_cons_self)
    refine trans_of Onward hrun (ih fun c' hc' => ?_)
    rw [hrun.count]
    exact hcalls c' (List.mem_cons_of_mem c hc')

/-- Calls can be taken if they can with others behind. -/
theorem Takes.earlier {more : List Call} (h : s.Takes (calls ++ more)) : s.Takes calls :=
  fun c hc => h c (List.mem_append_left more hc)

/-- Calls behind others can be taken if they all can. -/
theorem Takes.later {more : List Call} (h : s.Takes (calls ++ more)) : (s.after calls).Takes more :=
  fun c hc => (onward_after h.earlier).count.symm ▸ h c (List.mem_append_right calls hc)

/-- A pass that has been called on a unit is behind it, unless the unit has failed; but checking may have
been called too early. -/
theorem behind_of_called (hcalls : s.Takes calls) (hq : ⟨q, u⟩ ∈ calls) (hcheck : q ≠ .check) :
    ((s.after calls).unit u).failure.isSome ∨ q.goal.rank ≤ ((s.after calls).unit u).phase.rank := by
  obtain ⟨before, rest, rfl⟩ := List.append_of_mem hq
  have hvalid := hcalls.later ⟨q, u⟩ List.mem_cons_self
  -- After the call the unit has reached the goal or has failed, whether there was work to do or not.
  have hbehind : ((q.run u (s.after before)).2.unit u).failure.isSome ∨
      q.goal.rank ≤ ((q.run u (s.after before)).2.unit u).phase.rank := by
    cases h : q.enters (s.after before) u with
    | false =>
      rw [Pass.run_of_not_enters h]
      simp only [Pass.enters, Bool.and_eq_false_iff, Option.isNone_eq_false_iff] at h
      refine h.imp id fun h => ?_
      cases q with
      | check => exact absurd rfl hcheck
      | _ => simpa [Phase.atLeast] using h
    | true =>
      rcases (Pass.run_moves hvalid h).self with ⟨hphase, -⟩ | ⟨-, hfailed⟩
      · exact .inr (hphase ▸ le_rfl)
      · exact .inl hfailed
  rw [List.append_cons] at hcalls ⊢
  rw [after_append, after_concat]
  -- The calls behind it lead onward only.
  have hrest := onward_after (after_concat s before ⟨q, u⟩ ▸ hcalls.later)
  exact hbehind.imp (hrest.failed u) fun h => h.trans (hrest.phase u)

/-- What has been completed stays so. -/
theorem Completed.append (h : s.Completed calls p u) (more : List Call) : s.Completed (calls ++ more) p u := by
  obtain ⟨before, rest, rfl, henters, hfine⟩ := h
  exact ⟨before, rest ++ more, by simp, henters, hfine⟩

end State

/-- Calls in turn are in turn up to every one of them. -/
theorem InTurn.earlier {u : UnitId} {calls more : List Call} (h : InTurn u (calls ++ more)) : InTurn u calls := by
  intro i hi q hq
  have hlt := i.isLt.trans_le (by simp : calls.length ≤ (calls ++ more).length)
  have hget : (calls ++ more)[(⟨i, hlt⟩ : Fin _)] = calls[i] := List.getElem_append_left i.isLt
  have hmem := h ⟨i, hlt⟩ (by rw [hget]; exact hi) q (by rw [hget]; exact hq)
  rwa [List.take_append_of_le_length i.isLt.le] at hmem

/-- The last of calls in turn has the pass it presumes among the others. -/
theorem InTurn.last {u : UnitId} {calls : List Call} {p q : Pass} (h : InTurn u (calls ++ [⟨p, u⟩]))
    (hq : q ∈ p.presumed?) : (⟨q, u⟩ : Call) ∈ calls := by
  have hlt : calls.length < (calls ++ [(⟨p, u⟩ : Call)]).length := by simp
  have hget : (calls ++ [(⟨p, u⟩ : Call)])[(⟨calls.length, hlt⟩ : Fin _)] = ⟨p, u⟩ := by simp
  have hmem := h ⟨calls.length, hlt⟩ (by rw [hget]) q (by rw [hget]; exact hq)
  rwa [List.take_left] at hmem

/-! ## What a phase means -/

namespace State

variable {s : State} {u v : UnitId} {p : Pass} {calls : List Call}

/-- A unit is bound once binding has made its declarations. -/
theorem isBound_bindDeclarations (hu : u.index < s.units.size)
    (h : (s.unit v).isBound ∨ v = u ∧ s.isUnbound u) : ((bindDeclarations u s).2.unit v).isBound := by
  cases hnew : s.isUnbound u with
  | false =>
    rw [bindDeclarations_of_not_isUnbound hnew]
    exact h.resolve_right fun h => absurd (hnew.symm.trans h.2) nofun
  | true =>
    have hscripted : ((s.scripted u).unit v).isBound := by
      rw [((s.scripted_grows u).unit_eq v).2, unit_begun hu]
      split
      · rfl
      · next hv => exact h.resolve_right fun h => hv h.1.symm
    rw [bindDeclarations_of_isUnbound hnew, unit_modify]
    split <;> exact hscripted

/-- A pass leaves bound units bound. -/
theorem isBound_run (hu : u.index < s.units.size) (h : (s.unit v).isBound) :
    ((p.run u s).2.unit v).isBound := by
  cases p with
  | bind => exact isBound_bindDeclarations hu (.inl h)
  | module => exact ((resolveModule_advances u s).units v).isBound.trans h
  | names => exact ((resolveNames_refines u s).units v).isBound.trans h
  | check => exact ((checkExpressions_refines u s).units v).isBound.trans h

/-- Calls leave bound units bound. -/
theorem isBound_after (hcalls : s.Takes calls) (h : (s.unit v).isBound) : ((s.after calls).unit v).isBound := by
  induction calls using List.reverseRecOn with
  | nil => exact h
  | append_singleton calls c ih =>
    rw [after_concat]
    exact isBound_run (hcalls.later c List.mem_cons_self) (ih hcalls.earlier)

/-- Once binding has been completed on a unit, the unit is bound. -/
theorem isBound_of_completed (hcalls : s.Takes calls) (h : s.Completed calls .bind u) :
    ((s.after calls).unit u).isBound := by
  obtain ⟨before, rest, rfl, henters, -⟩ := h
  have hvalid := hcalls.later ⟨.bind, u⟩ List.mem_cons_self
  have hbound : ((s.after (before ++ [⟨.bind, u⟩])).unit u).isBound := by
    rw [after_concat]
    refine isBound_bindDeclarations hvalid (.inr ⟨rfl, ?_⟩)
    simpa [Pass.enters, isUnbound, Option.isNone_iff_eq_none, Pass.goal] using henters
  rw [List.append_cons] at hcalls ⊢
  rw [after_append]
  exact isBound_after hcalls.later hbound

/-- All declarations of a bound unit have been made. -/
theorem InOrder.declared (hs : s.InOrder) (hu : (s.unit u).isBound) {n : Node} (hn : (s.unit u).tree.Has n)
    (hdecl : n.declKind.isSome) : (s.decls[(⟨u, n.mark.id⟩ : NodeId)]?).isSome := by
  obtain ⟨c, -, -, hlaid⟩ := hs.layout.placed u n ⟨hu, hn⟩
  obtain ⟨d, hd, -⟩ := hlaid.declared hdecl
  rw [hd.listed]
  rfl

/-- Calls lead from a state that can be reached to such states. -/
theorem Reached.after (hs : s.Reached) (hcalls : s.Takes calls) : (s.after calls).Reached := by
  induction calls using List.reverseRecOn with
  | nil => exact hs
  | append_singleton calls c ih =>
    have hvalid := hcalls.later c List.mem_cons_self
    have hbefore := ih hcalls.earlier
    rw [after_concat]
    obtain ⟨p, u⟩ := c
    cases p with
    | bind => exact .bind hvalid hbefore
    | module => exact .module u hbefore
    | names => exact .names u hbefore
    | check => exact .check u hbefore

/-- A unit comes to a new phase only in a call of the pass that takes it there. -/
theorem phase_concat (hcalls : s.Takes (calls ++ [⟨p, v⟩])) (u : UnitId) :
    ((s.after (calls ++ [⟨p, v⟩])).unit u).phase = ((s.after calls).unit u).phase ∨
      u = v ∧ p.enters (s.after calls) u ∧ s.Completed (calls ++ [⟨p, v⟩]) p u ∧
        ((s.after (calls ++ [⟨p, v⟩])).unit u).phase = p.goal := by
  have hvalid := hcalls.later ⟨p, v⟩ List.mem_cons_self
  rw [after_concat]
  cases h : p.enters (s.after calls) v with
  | false => exact .inl (by rw [Pass.run_of_not_enters h])
  | true =>
    have hmoves := Pass.run_moves hvalid h
    by_cases hu : u = v
    · subst hu
      rcases hmoves.self with ⟨hphase, hfine⟩ | ⟨hphase, -⟩
      · exact .inr ⟨rfl, h, ⟨calls, [], rfl, h, by rwa [after_concat]⟩, hphase⟩
      · exact .inl hphase
    · exact .inl (hmoves.others u hu)

/-- A unit is in the phase of a pass only if the pass has been completed on it. -/
theorem completed_of_phase (hu : (s.unit u).phase = .parsed) (hcalls : s.Takes calls)
    (hphase : ((s.after calls).unit u).phase = p.goal) : s.Completed calls p u := by
  induction calls using List.reverseRecOn with
  | nil =>
    rw [after, List.foldl_nil, hu] at hphase
    cases p <;> cases hphase
  | append_singleton calls c ih =>
    rcases phase_concat hcalls u with hsame | ⟨-, -, hcompleted, hgoal⟩
    · exact (ih hcalls.earlier (hsame.symm.trans hphase)).append [c]
    · exact Pass.eq_of_rank (congrArg Phase.rank (hphase.symm.trans hgoal)) ▸ hcompleted

/-- A pass that finds work to do finds a unit on which all passes before it are behind, if the one that it takes
to be completed has been called. -/
theorem rank_le_of_enters {c : Pass} (hcalls : s.Takes calls) (hpresumed : ∀ q ∈ c.presumed?, ⟨q, u⟩ ∈ calls)
    (h : c.enters (s.after calls) u) (hlt : p.goal.rank < c.goal.rank) :
    p.goal.rank ≤ ((s.after calls).unit u).phase.rank := by
  have behind : ∀ q ∈ c.presumed?, q ≠ .check → q.goal.rank ≤ ((s.after calls).unit u).phase.rank :=
    fun q hq hcheck => (behind_of_called hcalls (hpresumed q hq) hcheck).resolve_left <| by
      rw [Pass.fine_of_enters h]
      exact Bool.false_ne_true
  cases c with
  | bind => cases p <;> exact absurd hlt (by decide)
  | module => exact (Nat.le_of_lt_succ hlt).trans (behind .bind rfl nofun)
  | names => exact (Nat.le_of_lt_succ hlt).trans (behind .module rfl nofun)
  | check =>
    simp only [Pass.enters, Bool.and_eq_true, beq_iff_eq] at h
    rw [h.2]
    exact Nat.le_of_lt_succ hlt

/-- If the passes are called in turn on a unit, those up to its phase have been completed on it. -/
theorem completed_of_inTurn (hu : (s.unit u).phase = .parsed) (hcalls : s.Takes calls) (hturn : InTurn u calls)
    (hphase : p.goal.rank ≤ ((s.after calls).unit u).phase.rank) : s.Completed calls p u := by
  induction calls using List.reverseRecOn generalizing p with
  | nil =>
    rw [after, List.foldl_nil, hu] at hphase
    cases p <;> cases hphase
  | append_singleton calls c ih =>
    have hbefore := fun {p} h => (ih (p := p) hcalls.earlier hturn.earlier h).append [c]
    rcases phase_concat hcalls u with hsame | ⟨rfl, henters, hcompleted, hgoal⟩
    · exact hbefore (hsame ▸ hphase)
    · rw [hgoal] at hphase
      rcases hphase.eq_or_lt with heq | hlt
      · exact Pass.eq_of_rank heq ▸ hcompleted
      · exact hbefore (rank_le_of_enters hcalls.earlier (fun q hq => hturn.last hq) henters hlt)

/-- No sequence of calls takes a unit back, whatever the passes and their order, and a unit is in the phase of
a pass only if the pass has been completed on it.  On a unit whose passes are called in turn, all passes up to
its phase have been completed; if that includes binding, the unit is bound and all its declarations are
made. -/
theorem phase_meaning (hs : s.Reached) (hu : (s.unit u).phase = .parsed) (hcalls : s.Takes calls) :
    (∀ before rest, calls = before ++ rest → ∀ v,
      ((s.after before).unit v).phase.rank ≤ ((s.after calls).unit v).phase.rank) ∧
    (∀ p : Pass, ((s.after calls).unit u).phase = p.goal → s.Completed calls p u) ∧
    (InTurn u calls → ∀ p : Pass, ((s.after calls).unit u).phase.atLeast p.goal →
      (∀ q : Pass, q.goal.rank ≤ p.goal.rank → s.Completed calls q u) ∧
        ((s.after calls).unit u).isBound ∧
        ∀ n, ((s.after calls).unit u).tree.Has n → n.declKind.isSome →
          ((s.after calls).decls[(⟨u, n.mark.id⟩ : NodeId)]?).isSome) := by
  refine ⟨?_, fun p => completed_of_phase hu hcalls, fun hturn p hphase => ?_⟩
  · rintro before rest rfl v
    rw [after_append]
    exact (onward_after hcalls.later).phase v
  · have hcompleted : ∀ q : Pass, q.goal.rank ≤ p.goal.rank → s.Completed calls q u :=
      fun q hq => completed_of_inTurn hu hcalls hturn (hq.trans (Phase.atLeast_iff.mp hphase))
    have hbound := isBound_of_completed hcalls
      (hcompleted .bind (by cases p <;> decide))
    exact ⟨hcompleted, hbound, fun n hn => (hs.after hcalls).inOrder.declared hbound hn⟩

/-- Adding two units leads from a state that can be reached to such a state. -/
theorem Reached.addBoth {s : State} (hs : s.Reached) :
    (Analysis.addBoth crossingUnits.1 crossingUnits.2 s).2.Reached :=
  .unit _ _ _ _ (.unit _ _ _ _ (.package [] hs))

/-- Two units are taken through their phases, in turn on each of them but not in the same order.  The second one is
checked, so that all passes have been completed on it, and the first one is not. -/
theorem phase_meaning_crossing :
    let s := (addBoth crossingUnits.1 crossingUnits.2 .initial).2
    let calls : List Call := [⟨.bind, ⟨1⟩⟩, ⟨.bind, ⟨2⟩⟩, ⟨.module, ⟨2⟩⟩, ⟨.module, ⟨1⟩⟩, ⟨.names, ⟨1⟩⟩, ⟨.names, ⟨2⟩⟩,
      ⟨.check, ⟨2⟩⟩]
    s.Reached ∧ (s.unit ⟨2⟩).phase = .parsed ∧ s.Takes calls ∧ InTurn ⟨2⟩ calls ∧
      ((s.after calls).unit ⟨1⟩).phase = .namesResolved ∧ ((s.after calls).unit ⟨2⟩).phase = .checked ∧
      (∀ p : Pass, s.Completed calls p ⟨2⟩) ∧ ((s.after calls).unit ⟨2⟩).isBound := by
  intro s calls
  have hreached : s.Reached := State.Reached.initial.addBoth
  have hpassed : isPassed s = true := Analysis.beginning_holds.passed
  -- The facts about the two units have been computed once; from here on the state is any that has them.
  clear_value s
  simp only [isPassed, Bool.and_eq_true, decide_eq_true_eq] at hpassed
  obtain ⟨⟨⟨hsize, hparsed⟩, hfirst⟩, hsecond⟩ := hpassed
  have hafter : s.after calls = (passBoth s).2 := by
    simp only [passBoth, bind_apply]
    rfl
  rw [← hafter] at hfirst hsecond
  have htakes : s.Takes calls := by
    rw [Takes, hsize]
    decide
  have hturn : InTurn ⟨2⟩ calls := by decide
  have hatLeast : ((s.after calls).unit ⟨2⟩).phase.atLeast Pass.check.goal := by
    rw [hsecond]
    decide
  obtain ⟨hcompleted, hbound, -⟩ := (phase_meaning hreached hparsed htakes).2.2 hturn .check hatLeast
  exact ⟨hreached, hparsed, htakes, hturn, hfirst, hsecond, fun p => hcompleted p (by cases p <;> decide), hbound⟩

/-- The pass that resolves modules moves a unit on that has not been bound.  Binding does nothing to it
then: the unit is in a later phase than binding takes it to, and stays unbound. -/
theorem skips_binding (hu : u.index < s.units.size) (hfine : (s.unit u).failure = none)
    (hphase : (s.unit u).phase = .parsed) (hmodule : (s.unit u).tree.module = none)
    (hunbound : (s.unit u).isBound = false) :
    let calls : List Call := [⟨.module, u⟩, ⟨.bind, u⟩]
    ((s.after calls).unit u).phase = .moduleResolved ∧ ((s.after calls).unit u).isBound = false ∧
      ¬ s.Completed calls .bind u := by
  intro calls
  -- With neither a failure nor a header the unit is advanced, bound or not.
  have hskipped : (resolveModule u s).2 = (setPhase u .moduleResolved s).2 := by
    rw [resolveModule, get_bind_apply]
    simp only [hfine, hphase, hmodule, Option.isSome_none, Bool.false_eq_true, if_false]
    rfl
  have hunit : (resolveModule u s).2.unit u = { s.unit u with phase := .moduleResolved } := by
    rw [hskipped]
    exact (s.unit_modify u u fun unit => { unit with phase := .moduleResolved }).trans (if_pos ⟨rfl, hu⟩)
  -- Binding then finds it past its phase, and does nothing.
  have hafter : s.after calls = (resolveModule u s).2 := by
    refine bindDeclarations_of_not_isUnbound ?_
    change (resolveModule u s).2.isUnbound u = false
    rw [isUnbound, hunit]
    exact (Bool.not_eq_false' _).mpr (Bool.or_true _)
  have htakes : s.Takes calls := by simp [Takes, calls, hu]
  rw [hafter, hunit]
  refine ⟨rfl, hunbound, fun h => ?_⟩
  have hbound := isBound_of_completed htakes h
  rw [hafter, hunit] at hbound
  exact absurd (hunbound.symm.trans hbound) Bool.false_ne_true

end State

end Ceylon.Analysis
