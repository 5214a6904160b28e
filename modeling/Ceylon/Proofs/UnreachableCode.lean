import Ceylon.Lint.Check
import Ceylon.Proofs.Executions

/-!
# Code that no execution comes to

What is said to exit never lets control go on behind it (`Runs.ne_normal_of_exits`), whichever way conditions go
and however often loops are run.  So the statement that is reported as unreachable, and all that follow it in
its block, are left out by every run of the block (`unreachable_never_executed`).
-/

namespace Ceylon.Lint

open Analysis (State)
open Model (UnitId)
open Syntax

/-! ## Soundness of the search for exits -/

/-- Whether a piece of code is said to exit. -/
def Code.exits : Code → Bool
  | .stmt s => ends .exits s
  | .stmts ss => endsAny .exits ss
  | .branches s => endsIf .exits s
  | .alternative e => endsElse .exits e
  | .rounds _ => false

/-- What is said to exit does not end normally. -/
theorem Runs.ne_normal_of_exits {c : Code} {o : Outcome} (h : Runs c o) (hexits : c.exits = true) :
    o ≠ .normal := by
  induction h with
  | @straight s hs => cases s <;> simp [isStraight, Code.exits, ends] at hs hexits
  | returns | breaks | continues | forReturns | whileReturns => rintro ⟨⟩
  -- A list stops before its end only with an outcome that is not normal.
  | stop _ _ ho => exact ho
  | ifElse _ ih => exact ih (by simpa [Code.exits, ends] using hexits)
  | held _ ih =>
    rw [Code.exits, endsIf_eq, endsBlock_eq, Bool.and_eq_true] at hexits
    exact ih hexits.1
  | notHeld _ ih =>
    rw [Code.exits, endsIf_eq, Bool.and_eq_true] at hexits
    exact ih hexits.2
  | noElse => simp [Code.exits, endsElse] at hexits
  | elseBlock _ _ ih => exact ih (by simpa [Code.exits, endsElse, endsBlock_eq] using hexits)
  | elseIf _ _ ih => exact ih (by simpa [Code.exits, endsElse] using hexits)
  | whileEnds | whileLeft => simp [Code.exits, ends] at hexits
  | forEnds | forFails | forLeft => simp [Code.exits, ends_for] at hexits
  | noRound | nextRound | lastRound => cases hexits
  | nil => simp [Code.exits, endsAny] at hexits
  | cons _ _ ihs ih =>
    rw [Code.exits, endsAny, Bool.or_eq_true] at hexits
    exact hexits.elim (fun hs => absurd rfl (ihs hs)) ih

/-! ## How far a run of statements comes -/

/-- The runs of statements, by how they end and by how many of the statements are executed. -/
inductive RunsThrough : List Stmt → Outcome → Nat → Prop
  | nil : RunsThrough [] .normal 0
  | cons {s : Stmt} {ss : List Stmt} {o : Outcome} {n : Nat} (h : Runs (.stmt s) .normal)
    (h' : RunsThrough ss o n) : RunsThrough (s :: ss) o (n + 1)
  | stop {s : Stmt} (ss : List Stmt) {o : Outcome} (h : Runs (.stmt s) o) (ho : o ≠ .normal) :
    RunsThrough (s :: ss) o 1

/-- Every run of statements executes a number of them. -/
theorem runs_iff_runsThrough {ss : List Stmt} {o : Outcome} :
    Runs (.stmts ss) o ↔ ∃ n, RunsThrough ss o n := by
  constructor
  · intro h
    induction ss with
    | nil =>
      cases h
      exact ⟨0, .nil⟩
    | cons s ss ih =>
      cases h with
      | cons hs hss =>
        obtain ⟨n, hn⟩ := ih hss
        exact ⟨n + 1, .cons hs hn⟩
      | stop _ hs ho => exact ⟨1, .stop ss hs ho⟩
  · rintro ⟨n, h⟩
    induction h with
    | nil => exact .nil
    | cons hs _ ih => exact .cons hs ih
    | stop ss hs ho => exact .stop ss hs ho

/-- A run does not come further than to a statement that never ends normally. -/
theorem RunsThrough.le_of_exits {before : List Stmt} {s : Stmt} {after : List Stmt} {o : Outcome} {n : Nat}
    (h : RunsThrough (before ++ s :: after) o n) (hs : ∀ o, Runs (.stmt s) o → o ≠ .normal) :
    n ≤ before.length + 1 := by
  induction before generalizing n with
  | nil =>
    cases h with
    | cons hrun _ => exact absurd rfl (hs _ hrun)
    | stop _ _ _ => exact Nat.le_refl 1
  | cons s' before ih =>
    cases h with
    | cons _ h' => exact Nat.succ_le_succ (ih h')
    | stop _ _ _ => exact Nat.le_add_left 1 _

/-! ## Reports -/

/-- What is reported follows a statement that is said to exit. -/
theorem exists_of_unreachable? {ss : List Stmt} {t : Stmt} (h : unreachable? ss = some t) :
    ∃ before s after, ss = before ++ s :: t :: after ∧ ends .exits s = true := by
  induction ss with
  | nil => simp [unreachable?] at h
  | cons s ss ih =>
    cases ss with
    | nil => simp [unreachable?] at h
    | cons s' ss =>
      rw [unreachable?] at h
      split at h
      · next hs =>
        cases h
        exact ⟨[], s, ss, rfl, hs⟩
      · obtain ⟨before, s'', after, heq, hs⟩ := ih h
        exact ⟨s :: before, s'', after, by rw [heq, List.cons_append], hs⟩

/-- No execution of a statement that is said to exit ends normally, and a report of unreachable code is about a
statement of a block of the unit that no run of the block executes: each run executes fewer statements than
stand before it, or just these. -/
theorem unreachable_never_executed :
    (∀ s : Stmt, ends .exits s = true → ∀ o, Runs (.stmt s) o → o ≠ .normal) ∧
      ∀ (s : State) (u : UnitId) (tree : CompilationUnit),
        ∀ f ∈ Check.unreachableCode.run s u tree, ∃ (b : Block) (before : List Stmt) (t : Stmt) (after : List Stmt),
          .block b ∈ tree.outline.nodes ∧ b.stmts = before ++ t :: after ∧
            f = found .unreachableCode (placeOf s u (.stmt t)) "unreachable code" ∧
            ∀ o, (Runs (.stmts b.stmts) o ↔ ∃ n, RunsThrough b.stmts o n) ∧
              ∀ n, RunsThrough b.stmts o n → n ≤ before.length := by
  have hsound : ∀ s : Stmt, ends .exits s = true → ∀ o, Runs (.stmt s) o → o ≠ .normal :=
    fun s hs o h => h.ne_normal_of_exits hs
  refine ⟨hsound, fun s u tree f hf => ?_⟩
  obtain ⟨n, hn, hfound⟩ := List.mem_filterMap.mp hf
  cases n with
  | block b =>
    obtain ⟨t, ht, rfl⟩ := Option.map_eq_some_iff.mp hfound
    obtain ⟨before, s', after, hstmts, hs'⟩ := exists_of_unreachable? ht
    -- The statement in front exits, so no run passes it.
    refine ⟨b, before ++ [s'], t, after, hn, by simp [hstmts], rfl, fun o => ⟨runs_iff_runsThrough, ?_⟩⟩
    intro n h
    rw [hstmts] at h
    simpa using h.le_of_exits (hsound s' hs')
  | _ => cases hfound

/-- An `if` one branch of which returns and the other leaves the loop around. -/
def returnsOrBreaks : Stmt :=
  .ifElse ⟨default, ⟨default, default, ⟨default, [.return default none], default⟩⟩,
    some (.block default ⟨default, [.break default], default⟩)⟩

/-- A loop that such an `if` ends, but for a `continue` behind it. -/
def deadContinue : CompilationUnit :=
  { (default : CompilationUnit) with
    body := [.while default ⟨default, default, ⟨default, [returnsOrBreaks, .continue default], default⟩⟩] }

/-- The `continue` is reported, and the runs of the block that it is in execute no more than the `if`. -/
theorem unreachable_never_executed_deadContinue :
    ends .exits returnsOrBreaks = true ∧ ¬ Runs (.stmt returnsOrBreaks) .normal ∧
      ∃ f ∈ Check.unreachableCode.run default ⟨0⟩ deadContinue, ∃ b : Block, .block b ∈ deadContinue.outline.nodes ∧
        f = found .unreachableCode (placeOf default ⟨0⟩ (.stmt (.continue default))) "unreachable code" ∧
        ∀ o n, RunsThrough b.stmts o n → n < b.stmts.length := by
  have hexits : ends .exits returnsOrBreaks = true := rfl
  refine ⟨hexits, fun h => unreachable_never_executed.1 _ hexits _ h rfl, _, List.mem_singleton_self _, ?_⟩
  obtain ⟨b, before, t, after, hb, hstmts, -, hruns⟩ :=
    unreachable_never_executed.2 default ⟨0⟩ deadContinue _ (List.mem_singleton_self _)
  refine ⟨b, hb, rfl, fun o n h => ?_⟩
  have hbefore := (hruns o).2 n h
  simp only [hstmts, List.length_append, List.length_cons]
  omega

end Ceylon.Lint
