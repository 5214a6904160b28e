import Ceylon.Analysis.Diagnostic
import Ceylon.Analysis.PathStack
import Ceylon.Model.Builtins
import Ceylon.Model.Describe

/-!
# The state of an analysis

An analysis takes units through phases: binding makes declarations of them, resolving gives their names
meaning, and checking types their expressions.  What it finds out about the nodes of the units is kept in
tables beside the trees; what it finds out about declarations, in the graph of declarations.
-/

namespace Ceylon.Analysis

open Model
open Syntax (CompilationUnit Mark Node Name)

/-- How far the analysis of a unit has come. -/
inductive Phase where
  | parsed
  | bound
  | moduleResolved
  | namesResolved
  | checked
deriving DecidableEq, Repr, Inhabited

namespace Phase

/-- The name of the step that takes a unit to a phase. -/
def text : Phase → String
  | .parsed => "parse"
  | .bound => "bind"
  | .moduleResolved => "resolve-module"
  | .namesResolved => "resolve-names"
  | .checked => "check"

/-- The place of a phase in their order. -/
def rank : Phase → Nat
  | .parsed => 0
  | .bound => 1
  | .moduleResolved => 2
  | .namesResolved => 3
  | .checked => 4

/-- Whether a phase has been reached. -/
def atLeast (p q : Phase) : Bool :=
  q.rank ≤ p.rank

end Phase

export Model (NodeId)

/-- A unit and how far its analysis has come. -/
structure UnitState where
  /-- The path below the source root, with slashes. -/
  path : String
  /-- The tree; if the unit cannot be parsed, what was read before the fault. -/
  tree : CompilationUnit
  package : PackageId
  phase : Phase := .parsed
  /-- Whether the declarations of the unit have been made. -/
  isBound : Bool := false
  /-- What stopped the analysis of the unit. -/
  failure : Option Failure := none
  /-- The problems found, in the order in which they were found. -/
  diagnostics : Array Diagnostic := #[]
  imports : List Imported := []
  /-- The declarations at the top of the unit. -/
  declarations : Array DeclId := #[]
deriving Inhabited

namespace UnitState

/-- The problems of a unit in the order of their places. -/
def sorted (u : UnitState) : List Diagnostic :=
  Diagnostic.sort u.diagnostics.toList

/-- Whether the unit declares a module. -/
def isDescriptor (u : UnitState) : Bool :=
  u.tree.module.isSome

end UnitState

/-- A step of the analysis, as the log shows it. -/
structure LogEntry where
  message : String
  phase : String
  unit : String
deriving DecidableEq, Repr, Inhabited

/-- The part of the work that a span of time was spent on. -/
structure Span where
  phase : String
  unit : String := ""
  package : String := ""
deriving DecidableEq, Repr, Inhabited

/-- The beginning or the end of a span. -/
structure TraceEvent where
  isStart : Bool
  span : Span
deriving DecidableEq, Repr, Inhabited

/-- The types of nodes. -/
structure TypeTable where
  /-- The types that type references stand for. -/
  refs : NodeMap Ty := {}
  /-- The types of expressions. -/
  exprs : NodeMap Ty := {}
deriving Inhabited

namespace TypeTable

/-- The type of a node. -/
def get? (t : TypeTable) (k : NodeId) : Option Ty :=
  t.refs[k]? <|> t.exprs[k]?

/-- The type of a node, or else the given one. -/
def getD (t : TypeTable) (k : NodeId) (otherwise : Ty) : Ty :=
  (t.get? k).getD otherwise

end TypeTable

/-- The state of an analysis. -/
structure State where
  graph : Graph
  builtins : Builtins := default
  /-- The units, that of the language module first. -/
  units : Array UnitState := #[]
  /-- The declared modules in the order in which they were found. -/
  declared : List ModuleId := []
  /-- The scope each node stands in, with the scopes around it. -/
  scopes : NodeMap ScopeChain := {}
  /-- The declarations that nodes make. -/
  decls : NodeMap DeclId := {}
  /-- The types of expressions and of type references. -/
  types : TypeTable := {}
  /-- The declarations that references refer to. -/
  targets : NodeMap DeclId := {}
  /-- The nodes of the declarations whose types are being inferred. -/
  inferring : List NodeId := []
  /-- The declarations whose types were needed to infer them. -/
  circular : List DeclId := []
  /-- The declaring nodes that have been checked, or are being checked. -/
  checked : NodeSet := {}
  /-- The way through the source tree while it is being loaded. -/
  stack : Option (PathStack ModuleId) := none
  log : Array LogEntry := #[]
  trace : Array TraceEvent := #[]
deriving Inhabited

/-- The language module. -/
def languageModule : ModuleId :=
  ⟨0⟩

/-- The module of the packages outside all declared modules. -/
def defaultModule : ModuleId :=
  ⟨1⟩

/-- The unit of the language module. -/
def languageUnit : UnitId :=
  ⟨0⟩

namespace State

/-- The unit with the given number. -/
def unit (s : State) (u : UnitId) : UnitState :=
  s.units.getD u.index default

/-- The units of the program, without that of the language module. -/
def userUnits (s : State) : List UnitId :=
  (List.range (s.units.size - 1)).map fun i => ⟨i + 1⟩

/-- The first unit with the given path. -/
def unitAt? (s : State) (path : String) : Option UnitId :=
  s.userUnits.find? fun u => (s.unit u).path == path

/-- The text of a type. -/
def typeText (s : State) (t : Ty) : String :=
  s.graph.typeText t

/-- The location of a node of a unit. -/
def location (s : State) (u : UnitId) (m : Mark) : Location :=
  .ofPos (s.unit u).tree.source m.pos

/-- All diagnostics of the program in the order of their places. -/
def diagnostics (s : State) : List Diagnostic :=
  Diagnostic.sort (s.userUnits.flatMap fun u => (s.unit u).sorted)

end State

/-- A step of an analysis. -/
abbrev Analyze := StateM State

/-- Changes a unit. -/
def modifyUnit (u : UnitId) (f : UnitState → UnitState) : Analyze Unit :=
  modify fun s => { s with units := s.units.modify u.index f }

/-- Changes the graph of declarations. -/
def modifyGraph (f : Graph → Graph) : Analyze Unit :=
  modify fun s => { s with graph := f s.graph }

/-- Writes a line to the log. -/
def logStep (u : UnitId) (phase : Phase) (message : String) : Analyze Unit :=
  modify fun s =>
    { s with log := s.log.push ⟨message, phase.text, (s.unit u).path⟩ }

/-- Marks the span of an action in the trace. -/
def traced {α : Type} (span : Span) (action : Analyze α) : Analyze α := do
  modify fun s => { s with trace := s.trace.push ⟨true, span⟩ }
  let a ← action
  modify fun s => { s with trace := s.trace.push ⟨false, span⟩ }
  return a

/-- The span of a step on a unit. -/
def State.span (s : State) (u : UnitId) (phase : Phase) : Span :=
  { phase := phase.text, unit := (s.unit u).path
    package := (s.graph.package (s.unit u).package).qualifiedName }

/-- Records a problem at a node of a unit. -/
def report (u : UnitId) (n : Node) (message : String) : Analyze Unit := do
  let location := (← get).location u n.mark
  modifyUnit u fun unit =>
    let d : Diagnostic := ⟨.error, message, some n, some location⟩
    { unit with diagnostics := d.addTo unit.diagnostics }

/-- Stops the analysis of a unit.  The first failure stays. -/
def fail (u : UnitId) (failure : Failure) : Analyze Unit :=
  modifyUnit u fun unit =>
    let location := failure.location.getD { file := unit.path, pos := -1 }
    let d : Diagnostic := ⟨.error, failure.message, none, some location⟩
    { unit with
      failure := some (unit.failure.getD failure)
      diagnostics := d.addTo unit.diagnostics }

/-- Takes a unit to a phase. -/
def setPhase (u : UnitId) (phase : Phase) : Analyze Unit :=
  modifyUnit u fun unit => { unit with phase }

/-- Records the declaration that a node refers to. -/
def setTarget (u : UnitId) (m : Mark) (d : DeclId) : Analyze Unit :=
  modify fun s => { s with targets := s.targets.insert ⟨u, m.id⟩ d }

/-- The package with the given name, made if there is none yet. -/
def packageNamed (name : List String) : Analyze PackageId := do
  match (← get).graph.findPackage? name with
  | some p => return p
  | none =>
    let p : PackageId := ⟨(← get).graph.packages.size⟩
    modifyGraph fun g => { g with packages := g.packages.push { name } }
    return p

/-- Adds a unit to a package. -/
def addUnit (path : String) (tree : CompilationUnit) (package : PackageId) :
    Analyze UnitId := do
  let u : UnitId := ⟨(← get).units.size⟩
  modify fun s => { s with units := s.units.push { path, tree, package } }
  return u

end Ceylon.Analysis
