import Ceylon.Analysis.Checker.Stmt

/-!
# Running checks

A check of one declaration may need the type of another that is still to be inferred.  That one is then
checked on the spot, in its own unit, unless its check is already under way: then the inference needs its
own result.  Every task is performed at most once, whether a check comes across it or demands it.
-/

namespace Ceylon.Analysis

open Model
open Syntax

/-- The task that infers the type of a declaration, with its unit, if there is one that can be
performed. -/
def State.inference? (f : State) (d : DeclId) : Option (UnitId × Task) := do
  let decl := f.graph.decl d
  let u ← decl.unit
  let task ← match ← decl.node with
    | .stmt (.method n) => some (Task.method n)
    | .stmt (.attribute n) => some (Task.attribute n)
    | .stmt (.getter n) => some (Task.getter n)
    | _ => none
  if f.isReady u then some (u, task) else none

namespace Checking

/-- Records the type of an expression and what it refers to.  An unknown type is not recorded, and the
first type stays. -/
def recordExpr (k : NodeId) (t : Ty) (target : Option DeclId) : Analyze Unit :=
  modify fun s =>
    { s with
      types := if t.isKnown then
        { s.types with exprs := s.types.exprs.insertIfNew k t } else s.types
      targets := match target with
        | none => s.targets
        | some d => s.targets.insert k d }

/-- Records the type inferred for the declaration of a node.  The first type stays. -/
def recordInferred (k : NodeId) (t : Ty) : Analyze Unit :=
  modifyGraph fun g => { g with inferred := g.inferred.insertIfNew k t }

/-- The type of a declaration.  If it is to be inferred, its task is performed first by `demand`; there is
no answer while that task is under way. -/
def demandType (f : State) (demand : UnitId → Task → Analyze Unit) (d : DeclId) :
    Analyze (Option Ty) := do
  let s ← get
  let d := f.graph.principal d
  let t := s.graph.typeOf d
  if t.isKnown then return some t
  match f.inference? d with
  | none => return some .unknown
  | some (u, task) =>
    let k : NodeId := ⟨u, task.mark.id⟩
    if s.inferring.contains k then
      modify fun s => { s with circular := d :: s.circular }
      return none
    if s.checked.contains k then return some .unknown
    demand u task
    return some ((← get).graph.typeOf d)

/-- Takes a step of a check of unit `u`. -/
def perform (f : State) (demand : UnitId → Task → Analyze Unit) (u : UnitId) :
    (act : Act) → Analyze act.Answer
  | .ask (.typeOf d) => demandType f demand d
  | .ask (.problem n message) => report u n message
  | .settle m t target => recordExpr ⟨u, m.id⟩ t target
  | .infer m t => recordInferred ⟨u, m.id⟩ t
  | .visit task => demand u task

/-- Performs a task unless that has been done or is under way.  Each task that it performs on the way is
that of another declaration, so a `depth` beyond the number of declarations is never used up. -/
def performTask (f : State) : (depth : Nat) → UnitId → Task → Analyze Unit
  | 0, _, _ => return
  | depth + 1, u, task => do
    let k : NodeId := ⟨u, task.mark.id⟩
    if (← get).checked.contains k then return
    modify fun s =>
      { s with
        checked := s.checked.insert k
        inferring := if task.isInference then k :: s.inferring else s.inferring }
    let t ← (task.check f u).run (perform f (performTask f depth) u)
    modify fun s => { s with inferring := s.inferring.erase k }
    if task.givesType then recordInferred k t

end Checking

/-- Checks the expressions of a unit whose names are resolved, unless that has been done. -/
def checkExpressions (u : UnitId) : Analyze Unit := do
  let s ← get
  let unit := s.unit u
  if unit.failure.isSome || unit.phase ≠ .namesResolved then return
  logStep u .checked "checking expressions"
  Checking.performTask s.facts (s.decls.size + 2) u (.unit unit.tree)
  setPhase u .checked

end Ceylon.Analysis
