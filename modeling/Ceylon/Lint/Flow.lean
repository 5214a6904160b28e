import Ceylon.Syntax.Tree

/-!
# Where control goes

Which statements never let control continue behind them.  Conditions are not evaluated: each may go either
way, and a loop may end at once.  So a statement ends its block if it is a `return`, or if it is an `if` all
of whose branches end theirs.  What else counts depends on what is asked for, see `Ending`.
-/

namespace Ceylon.Lint

open Syntax

/-- A way in which a statement may keep control from continuing behind it. -/
inductive Ending where
  /-- Control leaves the block by `return`, `break` or `continue`. -/
  | exits
  /-- Control leaves the method by `return`. -/
  | returns
deriving DecidableEq, Repr

mutual

/-- Whether a statement contains a `break` that belongs to the loop around it.  Loops and declarations inside
it are not searched: a `break` in them belongs elsewhere. -/
def breaks : Stmt → Bool
  | .break _ => true
  | .ifElse s => breaksIf s
  | _ => false

/-- Whether a branch contains such a `break`. -/
def breaksIf : IfStmt → Bool
  | { clause := { body, .. }, alternative, .. } => breaksBlock body || breaksElse alternative

/-- Whether an alternative contains such a `break`. -/
def breaksElse : Option ElseClause → Bool
  | none => false
  | some (.block _ b) => breaksBlock b
  | some (.ifElse _ s) => breaksIf s

/-- Whether a block contains such a `break`. -/
def breaksBlock : Block → Bool
  | { stmts, .. } => breaksAny stmts

/-- Whether one of the statements contains such a `break`. -/
def breaksAny : List Stmt → Bool
  | [] => false
  | s :: ss => breaks s || breaksAny ss

end

mutual

/-- Whether control never continues behind a statement.  A `for` returns if its `fail` clause does, which runs
whenever the loop is not left by `break`. -/
def ends (e : Ending) : Stmt → Bool
  | .return .. => true
  | .break _ => e = .exits
  | .continue _ => e = .exits
  | .ifElse s => endsIf e s
  | .for _ { body, .. } fail => e = .returns && endsFail e fail && !breaksBlock body
  | _ => false

/-- Whether all branches end so. -/
def endsIf (e : Ending) : IfStmt → Bool
  | { clause := { body, .. }, alternative, .. } => endsBlock e body && endsElse e alternative

/-- Whether there is an alternative, and it ends so. -/
def endsElse (e : Ending) : Option ElseClause → Bool
  | none => false
  | some (.block _ b) => endsBlock e b
  | some (.ifElse _ s) => endsIf e s

/-- Whether there is a `fail` clause, and it ends so. -/
def endsFail (e : Ending) : Option FailClause → Bool
  | none => false
  | some { body, .. } => endsBlock e body

/-- Whether some statement of a block ends so. -/
def endsBlock (e : Ending) : Block → Bool
  | { stmts, .. } => endsAny e stmts

/-- Whether one of the statements ends so. -/
def endsAny (e : Ending) : List Stmt → Bool
  | [] => false
  | s :: ss => ends e s || endsAny e ss

end

/-- The first statement that follows one behind which control never continues. -/
def unreachable? : List Stmt → Option Stmt
  | s :: t :: ss => if ends .exits s then some t else unreachable? (t :: ss)
  | _ => none

end Ceylon.Lint
