import Ceylon.Lint.Flow
import Ceylon.Proofs.Outline

/-!
# Where executions end

The executions of the statements of a body: every condition may go either way, and every loop may run any
number of rounds.  `break` and `continue` act on the loop whose body they stand in.  A `fail` clause is not
part of that body: it runs when the rounds end without `break`, and a `break` in it leaves the next loop
around.

`endsBlock .returns` is sound for these executions as long as the search for a `break` finds one in every loop
body that has one (`endsBlock_returns_sound`).  The search does not look into the `fail` clauses of the loops
inside, so it can miss the only one; then a body that is said to return may end without
(`innerFail_falls_off`).
-/

namespace Ceylon.Lint

open Syntax

/-! ## Executions -/

/-- A way to leave a round of a loop. -/
inductive Jump where
  | «break»
  | «continue»
deriving DecidableEq, Repr

/-- How an execution ends. -/
inductive Outcome where
  /-- Control goes on behind what was executed. -/
  | normal
  /-- Control leaves the method. -/
  | returned
  /-- Control leaves a round of the loop around. -/
  | left (j : Jump)
deriving DecidableEq, Repr

/-- What is executed: statements and the pieces that they consist of. -/
inductive Code where
  | stmt (s : Stmt)
  | stmts (ss : List Stmt)
  | branches (s : IfStmt)
  | alternative (e : Option ElseClause)
  /-- The rounds of a loop over a body. -/
  | rounds (body : Block)

/-- Whether a statement only declares something or evaluates an expression. -/
def isStraight : Stmt → Bool
  | .return .. => false
  | .break _ => false
  | .continue _ => false
  | .ifElse _ => false
  | .while .. => false
  | .for .. => false
  | _ => true

/-- The executions of a piece of code, by how they end. -/
inductive Runs : Code → Outcome → Prop
  | straight {s : Stmt} (h : isStraight s = true) : Runs (.stmt s) .normal
  | returns (mark : Mark) (x : Option Expr) : Runs (.stmt (.return mark x)) .returned
  | breaks (mark : Mark) : Runs (.stmt (.break mark)) (.left .break)
  | continues (mark : Mark) : Runs (.stmt (.continue mark)) (.left .continue)
  | ifElse {s : IfStmt} {o : Outcome} (h : Runs (.branches s) o) : Runs (.stmt (.ifElse s)) o
  | held {s : IfStmt} {o : Outcome} (h : Runs (.stmts s.clause.body.stmts) o) : Runs (.branches s) o
  | notHeld {s : IfStmt} {o : Outcome} (h : Runs (.alternative s.alternative) o) : Runs (.branches s) o
  | noElse : Runs (.alternative none) .normal
  | elseBlock (mark : Mark) {b : Block} {o : Outcome} (h : Runs (.stmts b.stmts) o) :
      Runs (.alternative (some (.block mark b))) o
  | elseIf (mark : Mark) {s : IfStmt} {o : Outcome} (h : Runs (.branches s) o) :
      Runs (.alternative (some (.ifElse mark s))) o
  | whileEnds (mark : Mark) {c : WhileClause} (h : Runs (.rounds c.body) .normal) :
      Runs (.stmt (.while mark c)) .normal
  | whileLeft (mark : Mark) {c : WhileClause} (h : Runs (.rounds c.body) (.left .break)) :
      Runs (.stmt (.while mark c)) .normal
  | whileReturns (mark : Mark) {c : WhileClause} (h : Runs (.rounds c.body) .returned) :
      Runs (.stmt (.while mark c)) .returned
  | forEnds (mark : Mark) {c : ForClause} (h : Runs (.rounds c.body) .normal) :
      Runs (.stmt (.for mark c none)) .normal
  | forFails (mark : Mark) {c : ForClause} {f : FailClause} {o : Outcome}
      (h : Runs (.rounds c.body) .normal) (hf : Runs (.stmts f.body.stmts) o) :
      Runs (.stmt (.for mark c (some f))) o
  | forLeft (mark : Mark) {c : ForClause} (fail : Option FailClause)
      (h : Runs (.rounds c.body) (.left .break)) : Runs (.stmt (.for mark c fail)) .normal
  | forReturns (mark : Mark) {c : ForClause} (fail : Option FailClause)
      (h : Runs (.rounds c.body) .returned) : Runs (.stmt (.for mark c fail)) .returned
  | noRound (body : Block) : Runs (.rounds body) .normal
  | nextRound {body : Block} {o o' : Outcome} (h : Runs (.stmts body.stmts) o)
      (ho : o = .normal ∨ o = .left .continue) (h' : Runs (.rounds body) o') : Runs (.rounds body) o'
  | lastRound {body : Block} {o : Outcome} (h : Runs (.stmts body.stmts) o)
      (ho : o = .returned ∨ o = .left .break) : Runs (.rounds body) o
  | nil : Runs (.stmts []) .normal
  | cons {s : Stmt} {ss : List Stmt} {o : Outcome} (h : Runs (.stmt s) .normal) (h' : Runs (.stmts ss) o) :
      Runs (.stmts (s :: ss)) o
  | stop {s : Stmt} (ss : List Stmt) {o : Outcome} (h : Runs (.stmt s) o) (ho : o ≠ .normal) :
      Runs (.stmts (s :: ss)) o

/-! ## Jumps out of a piece of code -/

mutual

/-- Whether a statement contains a jump that acts on the loop around it. -/
def leaves (j : Jump) : Stmt → Bool
  | .break _ => j = .break
  | .continue _ => j = .continue
  | .ifElse s => leavesIf j s
  | .for _ _ fail => leavesFail j fail
  | _ => false

/-- Whether a branch contains such a jump. -/
def leavesIf (j : Jump) : IfStmt → Bool
  | { clause := { body, .. }, alternative, .. } => leavesBlock j body || leavesElse j alternative

/-- Whether an alternative contains such a jump. -/
def leavesElse (j : Jump) : Option ElseClause → Bool
  | none => false
  | some (.block _ b) => leavesBlock j b
  | some (.ifElse _ s) => leavesIf j s

/-- Whether a `fail` clause contains such a jump. -/
def leavesFail (j : Jump) : Option FailClause → Bool
  | none => false
  | some { body, .. } => leavesBlock j body

/-- Whether a block contains such a jump. -/
def leavesBlock (j : Jump) : Block → Bool
  | { stmts, .. } => leavesAny j stmts

/-- Whether one of the statements contains such a jump. -/
def leavesAny (j : Jump) : List Stmt → Bool
  | [] => false
  | s :: ss => leaves j s || leavesAny j ss

end

theorem leavesIf_eq (j : Jump) (s : IfStmt) :
    leavesIf j s = (leavesBlock j s.clause.body || leavesElse j s.alternative) := by
  obtain ⟨_, ⟨_, _, _⟩, _⟩ := s
  rw [leavesIf]

theorem leavesBlock_eq (j : Jump) (b : Block) : leavesBlock j b = leavesAny j b.stmts := by
  cases b
  rw [leavesBlock]

theorem leavesFail_some (j : Jump) (f : FailClause) : leavesFail j (some f) = leavesBlock j f.body := by
  cases f
  rw [leavesFail]

/-- Whether a piece of code contains a jump that acts on the loop around it. -/
def Code.leaves (j : Jump) : Code → Bool
  | .stmt s => Lint.leaves j s
  | .stmts ss => leavesAny j ss
  | .branches s => leavesIf j s
  | .alternative e => leavesElse j e
  | .rounds body => j = .break && leavesBlock j body

/-- An execution that ends with a jump has met one. -/
theorem Runs.leaves {c : Code} {o : Outcome} (h : Runs c o) :
    ∀ j, o = .left j → c.leaves j = true := by
  -- On the run. An outcome passes from a part to the whole, but for a loop, which keeps the breaks of its own
  -- body.
  induction h with
  | breaks | continues =>
    rintro j ⟨⟩
    simp [Code.leaves, Lint.leaves]
  | ifElse _ ih => simpa [Code.leaves, Lint.leaves] using ih
  | held _ ih =>
    intro j hj
    simp [Code.leaves, leavesIf_eq, leavesBlock_eq, show leavesAny j _ = true from ih j hj]
  | notHeld _ ih =>
    intro j hj
    simp [Code.leaves, leavesIf_eq, show leavesElse j _ = true from ih j hj]
  | elseBlock _ _ ih => simpa [Code.leaves, leavesElse, leavesBlock_eq] using ih
  | elseIf _ _ ih => simpa [Code.leaves, leavesElse] using ih
  | forFails _ _ _ _ ih =>
    simpa [Code.leaves, Lint.leaves, leavesFail_some, leavesBlock_eq] using ih
  | nextRound _ _ _ _ ih => exact ih
  | lastRound _ ho ih =>
    intro j hj
    -- a round that ends the loop without failing it was left by a break or returned
    obtain rfl : j = .break := by
      rcases ho with ho | ho <;> rw [ho] at hj <;> cases hj
      rfl
    simpa [Code.leaves, leavesBlock_eq] using ih .break hj
  | cons _ _ _ ih =>
    intro j hj
    simp [Code.leaves, leavesAny, show leavesAny j _ = true from ih j hj]
  | stop _ _ _ ih =>
    intro j hj
    simp [Code.leaves, leavesAny, show Lint.leaves j _ = true from ih j hj]
  | _ => rintro j ⟨⟩

/-! ## Soundness of the search for returns -/

theorem endsIf_eq (e : Ending) (s : IfStmt) :
    endsIf e s = (endsBlock e s.clause.body && endsElse e s.alternative) := by
  obtain ⟨_, ⟨_, _, _⟩, _⟩ := s
  rw [endsIf]

theorem endsBlock_eq (e : Ending) (b : Block) : endsBlock e b = endsAny e b.stmts := by
  cases b
  rw [endsBlock]

theorem endsFail_some (e : Ending) (f : FailClause) : endsFail e (some f) = endsBlock e f.body := by
  cases f
  rw [endsFail]

theorem ends_for (e : Ending) (mark : Mark) (c : ForClause) (fail : Option FailClause) :
    ends e (.for mark c fail) = (e = .returns && endsFail e fail && !breaksBlock c.body) := by
  cases c
  rw [ends]

/-- Whether a piece of code is said to return. -/
def Code.returns : Code → Bool
  | .stmt s => ends .returns s
  | .stmts ss => endsAny .returns ss
  | .branches s => endsIf .returns s
  | .alternative e => endsElse .returns e
  | .rounds _ => false

/-- The syntax nodes of a piece of code. -/
def Code.nodes : Code → List Node
  | .stmt s => (Node.stmt s).all
  | .stmts ss => ss.flatMap fun s => (Node.stmt s).all
  | .branches s => (Node.stmt (.ifElse s)).all
  | .alternative e => e.toList.flatMap fun c => (Node.elseClause c).all
  | .rounds body => body.stmts.flatMap fun s => (Node.stmt s).all

/-- Whether the search finds a `break` in the body of a loop that has one. -/
def breakFound : Node → Bool
  | .stmt (.for _ c _) => breaksBlock c.body || !leavesBlock .break c.body
  | _ => true

/-- The nodes of the statements of a block are below the block. -/
theorem stmts_sub (b : Block) : ∀ n ∈ (Code.stmts b.stmts).nodes, n ∈ (Node.block b).all := by
  intro n hn
  obtain ⟨s, hs, hn⟩ := List.mem_flatMap.mp hn
  refine Node.all_of_part ?_ hn
  rw [Node.parts_block]
  exact List.mem_map_of_mem hs

section Pieces

variable {n : Node}

theorem clause_sub (s : IfStmt) (hn : n ∈ (Code.stmts s.clause.body.stmts).nodes) :
    n ∈ (Code.branches s).nodes := by
  refine Node.all_of_part (p := .ifClause s.clause) (by simp [Node.parts_ifElse])
    (Node.all_of_part (p := .block s.clause.body) (by simp [Node.parts_ifClause]) ?_)
  exact stmts_sub _ n hn

theorem alternative_sub (s : IfStmt) (hn : n ∈ (Code.alternative s.alternative).nodes) :
    n ∈ (Code.branches s).nodes := by
  obtain ⟨c, hc, hn⟩ := List.mem_flatMap.mp hn
  refine Node.all_of_part ?_ hn
  rw [Node.parts_ifElse]
  exact List.mem_cons_of_mem _ (List.mem_map_of_mem hc)

theorem elseBlock_sub (mark : Mark) (b : Block) (hn : n ∈ (Code.stmts b.stmts).nodes) :
    n ∈ (Code.alternative (some (.block mark b))).nodes := by
  simp only [Code.nodes, Option.toList_some, List.flatMap_cons, List.flatMap_nil, List.append_nil]
  exact Node.all_of_part (by simp [Node.parts_else]) (stmts_sub b n hn)

theorem elseIf_sub (mark : Mark) (s : IfStmt) (hn : n ∈ (Code.branches s).nodes) :
    n ∈ (Code.alternative (some (.ifElse mark s))).nodes := by
  simp only [Code.nodes, Option.toList_some, List.flatMap_cons, List.flatMap_nil, List.append_nil]
  exact Node.all_of_part (by simp [Node.parts_elseIf]) hn

theorem fail_sub (mark : Mark) (c : ForClause) (f : FailClause)
    (hn : n ∈ (Code.stmts f.body.stmts).nodes) : n ∈ (Code.stmt (.for mark c (some f))).nodes := by
  refine Node.all_of_part (p := .failClause f) (by simp [Node.parts_for])
    (Node.all_of_part (p := .block f.body) (by simp [Node.parts_failClause]) ?_)
  exact stmts_sub _ n hn

end Pieces

/-- What is said to return does not end normally. -/
theorem Runs.ne_normal {c : Code} {o : Outcome} (h : Runs c o) (hfound : ∀ n ∈ c.nodes, breakFound n = true)
    (hret : c.returns = true) : o ≠ .normal := by
  induction h with
  | @straight s hs => cases s <;> simp [isStraight, Code.returns, ends] at hs hret
  | returns | breaks | continues | forReturns => nofun
  | stop _ _ ho => exact ho
  | ifElse _ ih => exact ih hfound (by simpa [Code.returns, ends] using hret)
  | @held s _ _ ih =>
    rw [Code.returns, endsIf_eq, endsBlock_eq, Bool.and_eq_true] at hret
    exact ih (fun n hn => hfound n (clause_sub s hn)) hret.1
  | @notHeld s _ _ ih =>
    rw [Code.returns, endsIf_eq, Bool.and_eq_true] at hret
    exact ih (fun n hn => hfound n (alternative_sub s hn)) hret.2
  | noElse => simp [Code.returns, endsElse] at hret
  | @elseBlock mark b _ _ ih =>
    refine ih (fun n hn => hfound n (elseBlock_sub mark b hn)) ?_
    simpa [Code.returns, endsElse, endsBlock_eq] using hret
  | @elseIf mark s _ _ ih =>
    refine ih (fun n hn => hfound n (elseIf_sub mark s hn)) ?_
    simpa [Code.returns, endsElse] using hret
  | whileEnds | whileLeft | whileReturns => simp [Code.returns, ends] at hret
  | forEnds => simp [Code.returns, ends_for, endsFail] at hret
  | @forFails mark c f _ _ _ _ ih =>
    refine ih (fun n hn => hfound n (fail_sub mark c f hn)) ?_
    simp only [Code.returns, ends_for, endsFail_some, endsBlock_eq, Bool.and_eq_true] at hret
    exact hret.1.2
  | @forLeft mark c fail h =>
    -- A loop left by `break` has one in its body, and the search has found it.
    have hleaves : leavesBlock .break c.body = true := by simpa [Code.leaves] using h.leaves .break rfl
    have hfound' := hfound _ (Node.mem_all (.stmt (.for mark c fail)))
    simp only [breakFound, hleaves, Bool.not_true, Bool.or_false] at hfound'
    simp [Code.returns, ends_for, hfound'] at hret
  | noRound | nextRound | lastRound => cases hret
  | nil => simp [Code.returns, endsAny] at hret
  | @cons s ss _ _ _ ihs ih =>
    rw [Code.returns, endsAny, Bool.or_eq_true] at hret
    rcases hret with hret | hret
    · refine absurd rfl (ihs (fun n hn => hfound n ?_) hret)
      exact List.mem_flatMap.mpr ⟨s, List.mem_cons_self, hn⟩
    · refine ih (fun n hn => hfound n ?_) hret
      obtain ⟨t, ht, hn⟩ := List.mem_flatMap.mp hn
      exact List.mem_flatMap.mpr ⟨t, List.mem_cons_of_mem s ht, hn⟩

/-- Every execution of a body that is said to return ends with a `return`, provided that jumps only occur
inside loops and that the search finds a `break` in every loop body that has one. -/
theorem endsBlock_returns_sound (b : Block) (hinside : ∀ j, leavesBlock j b = false)
    (hfound : ∀ n ∈ (Node.block b).all, breakFound n = true) (hret : endsBlock .returns b = true) (o : Outcome)
    (h : Runs (.stmts b.stmts) o) : o = .returned := by
  cases o with
  | normal =>
    have hret' : (Code.stmts b.stmts).returns = true := by rwa [Code.returns, ← endsBlock_eq]
    exact absurd rfl (h.ne_normal (fun n hn => hfound n (stmts_sub b n hn)) hret')
  | returned => rfl
  | left j =>
    have hleaves : leavesBlock j b = true := by rw [leavesBlock_eq]; exact h.leaves j rfl
    rw [hinside j] at hleaves
    cases hleaves

/-- A `for` loop with a `fail` clause. -/
def forLoop (body fail : List Stmt) : Stmt :=
  .for default ⟨default, default, ⟨default, body, default⟩⟩ (some ⟨default, ⟨default, fail, default⟩⟩)

/-- A loop around one that ends with `break`, and then a `return`. -/
def innerBreak : Block :=
  ⟨default, [forLoop [forLoop [.break default] []] [.return default none]], default⟩

theorem endsBlock_returns_sound_innerBreak :
    (∀ j, leavesBlock j innerBreak = false) ∧
      (∀ n ∈ (Node.block innerBreak).all, breakFound n = true) ∧
      endsBlock .returns innerBreak = true ∧ Runs (.stmts innerBreak.stmts) .returned ∧
      ∀ o, Runs (.stmts innerBreak.stmts) o → o = .returned := by
  have hinside : ∀ j, leavesBlock j innerBreak = false := by
    rintro ⟨⟩ <;> rfl
  have hfound : ∀ n ∈ (Node.block innerBreak).all, breakFound n = true := by
    decide
  have hinner : Runs (.stmt (forLoop [.break default] [])) .normal :=
    .forLeft _ _ (.lastRound (.stop _ (.breaks _) nofun) (.inr rfl))
  have hround : Runs (.rounds ⟨default, [forLoop [.break default] []], default⟩) .normal :=
    .nextRound (.cons hinner .nil) (.inl rfl) (.noRound _)
  refine ⟨hinside, hfound, rfl, ?_, endsBlock_returns_sound innerBreak hinside hfound rfl⟩
  exact .stop _ (.forFails _ hround (.stop _ (.returns _ _) nofun)) nofun

/-- A loop that the `fail` clause of a loop inside leaves by `break`. -/
def innerFail : Block :=
  ⟨default, [forLoop [forLoop [] [.break default]] [.return default none]], default⟩

/-- The search does not find this `break`: the body is said to return, and may end without. -/
theorem innerFail_falls_off :
    (∀ j, leavesBlock j innerFail = false) ∧ endsBlock .returns innerFail = true ∧
      Runs (.stmts innerFail.stmts) .normal := by
  refine ⟨by rintro ⟨⟩ <;> rfl, rfl, ?_⟩
  have hinner : Runs (.stmt (forLoop [] [.break default])) (.left .break) :=
    .forFails _ (.noRound _) (.stop _ (.breaks _) nofun)
  have houter : Runs (.stmt (forLoop [forLoop [] [.break default]] [.return default none])) .normal :=
    .forLeft _ _ (.lastRound (.stop _ hinner nofun) (.inr rfl))
  exact .cons houter .nil

end Ceylon.Lint
