import Ceylon.Analysis.State
import Ceylon.Lint.Flow
import Ceylon.Lint.Suppression

/-!
# Checks

The checks that run over analyzed units, beyond what the analysis itself reports.  A unit that failed is
not checked.
-/

namespace Ceylon.Lint

open Analysis (State UnitState Severity)
open Model (DeclId UnitId)
open Syntax (Node Mark CompilationUnit)

/-- The checks, in the order in which they run. -/
inductive Check where
  | duplicateDeclaration
  | missingReturn
  | unreachableCode
  | unusedImport
deriving DecidableEq, Repr, Inhabited

namespace Check

/-- All checks. -/
def all : List Check :=
  [.duplicateDeclaration, .missingReturn, .unreachableCode, .unusedImport]

/-- The name of a check. -/
def name : Check → String
  | .duplicateDeclaration => "duplicate-declaration"
  | .missingReturn => "missing-return"
  | .unreachableCode => "unreachable-code"
  | .unusedImport => "unused-import"

/-- How serious the findings of a check are. -/
def severity : Check → Severity
  | .duplicateDeclaration => .error
  | .missingReturn => .error
  | .unreachableCode => .warning
  | .unusedImport => .warning

/-- What a check reports, in one line. -/
def summary : Check → String
  | .duplicateDeclaration =>
    "Report declarations whose name is already declared in the same scope."
  | .missingReturn => "Report methods and getters that do not definitely return a value."
  | .unreachableCode =>
    "Report statements that follow a return, break or continue in the same block."
  | .unusedImport =>
    "Report imports whose declaration is never referenced in the importing unit."

/-- The rules of a check in detail. -/
def details : Check → String
  | .duplicateDeclaration =>
    "A getter and the setter assigning it share a name and are not duplicates. "
      ++ "Declarations in nested blocks may shadow outer ones. "
      ++ "At package level the check spans every unit of the package; "
      ++ "the later declaration is reported."
  | .missingReturn =>
    "A body definitely returns when some statement is a return, "
      ++ "an if statement whose branches all definitely return, "
      ++ "or a for statement whose fail clause definitely returns and whose body never breaks. "
      ++ "Loops are otherwise assumed to complete."
  | .unreachableCode =>
    "An if statement whose every branch exits also ends the block. "
      ++ "Only the first unreachable statement of a block is reported."
  | .unusedImport =>
    "Imports that failed to resolve are reported by the type checker and skipped here."

/-- The documentation of a check. -/
def doc (c : Check) : String :=
  c.summary ++ "\n\n" ++ c.details

/-- The names of all checks in order. -/
def names : List String :=
  (all.map name).mergeSort fun a b => decide (a ≤ b)

/-- An overview of all checks. -/
def overview : String :=
  String.join (all.map fun c => "  " ++ c.name ++ "\n    " ++ c.summary ++ "\n\n")

/-- The check with the given name; blanks around the name do not count. -/
def named? (name : String) : Option Check :=
  all.find? (·.name == Text.trim name)

/-- The checks with the given names; no names select all checks.  The error is the name that is unknown. -/
def select (names : List String) : Except String (List Check) :=
  match names with
  | [] => .ok all
  | names => names.mapM fun name =>
    match named? name with
    | some c => .ok c
    | none => .error name

/-- What is wrong with a name that no check has. -/
def unknown (name : String) : String :=
  "unknown check: " ++ Text.quote name

end Check

/-! ## The findings of each check -/

/-- The mark that a finding at a node points to: the name of a declaration, or else the node itself. -/
def markOf (n : Node) : Mark :=
  match n.declaredName? with
  | some name => name.mark
  | none => n.mark

/-- The place of a node of a unit. -/
def placeOf (s : State) (u : UnitId) (n : Node) : Place :=
  .ofLocation (s.location u (markOf n))

/-- A finding of a check. -/
def found (c : Check) (place : Place) (message : String) (notes : List String := []) : Finding :=
  ⟨place, message, c.name, some c.severity, notes⟩

/-- Whether a getter and a setter belong together. -/
def accessorPair (s : State) (a b : DeclId) : Bool :=
  match (s.graph.decl a).shape, (s.graph.decl b).shape with
  | .getter .., .setter _ getter => getter = some a
  | .setter _ getter, .getter .. => getter = some b
  | _, _ => false

/-- The first member of a scope before `d` that has the name of `d` and is not its accessor partner. -/
def earlierNamesake? (s : State) (d : DeclId) : Option DeclId :=
  match (s.graph.decl d).scope with
  | [] => none
  | scope :: _ =>
    ((s.graph.membersOf scope).toList.takeWhile (· ≠ d)).find? fun m =>
      (s.graph.decl m).name == (s.graph.decl d).name && !accessorPair s m d

/-- The place where a declaration was made. -/
def declarationPlace (s : State) (d : DeclId) : Place :=
  match (s.graph.decl d).unit, (s.graph.decl d).node with
  | some u, some n => placeOf s u n
  | _, _ => {}

/-- Finds a declaration whose name is taken. -/
def duplicate? (s : State) (u : UnitId) (n : Node) : Option Finding := do
  let _ ← n.declaredName?
  let d ← s.decls[(⟨u, n.mark.id⟩ : Analysis.NodeId)]?
  let earlier ← earlierNamesake? s d
  return found .duplicateDeclaration (placeOf s u n)
    ("duplicate declaration: " ++ (s.graph.decl d).name)
    ["previous declaration at " ++ (declarationPlace s earlier).text]

/-- Finds a method or getter that may end without a value. -/
def missingReturn? (s : State) (u : UnitId) (n : Node) : Option Finding :=
  match n with
  | .stmt (.method { type, name, body := .block b, .. }) =>
    if type.isVoid || endsBlock .returns b then none
    else some (found .missingReturn (placeOf s u n)
      ("method does not definitely return: " ++ name.text))
  | .stmt (.getter { name, body, .. }) =>
    if endsBlock .returns body then none
    else some (found .missingReturn (placeOf s u n)
      ("getter does not definitely return: " ++ name.text))
  | _ => none

/-- Finds the first unreachable statement of a block. -/
def unreachableIn? (s : State) (u : UnitId) (n : Node) : Option Finding :=
  match n with
  | .block b =>
    (unreachable? b.stmts).map fun stmt =>
      found .unreachableCode (placeOf s u (.stmt stmt)) "unreachable code"
  | _ => none

/-- The nodes of a unit outside its imports. -/
def nodesOutsideImports (tree : CompilationUnit) : List Node :=
  tree.outline.children.flatMap fun o =>
    match o.node with
    | .import _ => []
    | _ => o.nodes

/-- The declarations that a unit refers to outside its imports. -/
def referenced (s : State) (u : UnitId) (tree : CompilationUnit) : List DeclId :=
  (nodesOutsideImports tree).filterMap fun n =>
    s.targets[(⟨u, n.mark.id⟩ : Analysis.NodeId)]?

/-- Finds the imports that a unit does not use. -/
def unusedImports (s : State) (u : UnitId) (tree : CompilationUnit) : List Finding :=
  let used := referenced s u tree
  ((s.unit u).imports.filter fun i => !used.contains i.decl).map fun i =>
    found .unusedImport (placeOf s u (.importElement i.node)) ("unused import: " ++ i.localName)

/-- What a check finds in a unit. -/
def Check.run (c : Check) (s : State) (u : UnitId) (tree : CompilationUnit) : List Finding :=
  match c with
  | .duplicateDeclaration => tree.outline.nodes.filterMap (duplicate? s u)
  | .missingReturn => tree.outline.nodes.filterMap (missingReturn? s u)
  | .unreachableCode => tree.outline.nodes.filterMap (unreachableIn? s u)
  | .unusedImport => unusedImports s u tree

/-- What the checks find in a unit, without what is suppressed. -/
def lintUnit (checks : List Check) (s : State) (u : UnitId) : List Finding :=
  let unit := s.unit u
  if unit.failure.isSome || unit.phase ≠ .checked then []
  else
    let findings := checks.flatMap fun c => c.run s u unit.tree
    Finding.sort (unsuppressed unit.tree.comments findings)

/-- What the checks find in a program. -/
def lint (checks : List Check) (s : State) : List Finding :=
  Finding.sort (s.userUnits.flatMap (lintUnit checks s))

end Ceylon.Lint
