import Ceylon.Analysis.Names
import Ceylon.Editor.Position

/-!
# Questions about a place in a unit

What an editor asks about the place of its cursor: what stands there, where it is declared, where it is used,
and which names could be written there.  Lines and columns are counted from 1.
-/

namespace Ceylon.Editor

open Analysis (NodeId State)
open Model (DeclId Graph ScopeChain UnitId)
open Syntax (CompilationUnit Name Node)

/-! ## Kinds -/

/-- The kinds of declarations that editors tell apart. -/
inductive SymbolKind where
  | ofClass
  | ofInterface
  | method
  | function
  | property
  | typeParameter
  | constant
  | variable
deriving DecidableEq, Repr, Inhabited

namespace SymbolKind

/-- The kind of a declaration. -/
def ofDecl (g : Graph) (d : DeclId) : SymbolKind :=
  match (g.decl d).shape with
  | .ofClass .. => .ofClass
  | .ofInterface _ => .ofInterface
  | .method .. => if (g.containerType? d).isSome then .method else .function
  | .getter .. => .property
  | .setter .. => .property
  | .typeParameter .. => .typeParameter
  | .value _ false => .constant
  | .value _ true => .variable
  | .parameter .. => .variable

/-- The number of a kind in lists of symbols. -/
def code : SymbolKind → Nat
  | .ofClass => 5
  | .method => 6
  | .property => 7
  | .ofInterface => 11
  | .function => 12
  | .variable => 13
  | .constant => 14
  | .typeParameter => 26

/-- The number of a kind in lists of completions. -/
def completionCode : SymbolKind → Nat
  | .method => 2
  | .function => 3
  | .variable => 6
  | .constant => 6
  | .ofClass => 7
  | .ofInterface => 8
  | .property => 10
  | .typeParameter => 25

end SymbolKind

/-! ## Nodes -/

/-- The part of a document that a name takes. -/
def nameRange (n : Name) : Range :=
  .ofPlace n.mark.pos.line n.mark.pos.col n.text.length

/-- Whether a place lies on a name or right behind it. -/
def touches (n : Name) (line col : Int) : Bool :=
  n.mark.pos.line == line && n.mark.pos.col ≤ col && col ≤ n.mark.pos.col + n.text.length

/-- The nodes around a place, innermost first.  A name is among them only if the place touches it. -/
def nodesAt (tree : CompilationUnit) (line col : Int) : List Node :=
  match (tree.outline.pathTo line col).reverse with
  | .name n :: outer => if touches n line col then .name n :: outer else outer
  | nodes => nodes

/-- The name that a place touches, and the node that it belongs to. -/
def identAt? (tree : CompilationUnit) (line col : Int) : Option (Name × Node) :=
  match nodesAt tree line col with
  | .name n :: owner :: _ => some (n, owner)
  | _ => none

/-- The node whose name a place touches. -/
def ownerAt? (tree : CompilationUnit) (line col : Int) : Option Node :=
  (identAt? tree line col).map (·.2)

/-- The name by which a node declares something or refers to something. -/
def nameOf? : Node → Option Name
  | .expr (.reference _ _ name _) => some name
  | .expr (.qualified _ _ _ _ name _) => some name
  | .type (.base b) => some b.name
  | .importElement e => some e.name
  | n => n.declaredName?

/-- What a node of a unit refers to, or else declares. -/
def meaning? (s : State) (u : UnitId) (n : Node) : Option DeclId :=
  let id : NodeId := ⟨u, n.mark.id⟩
  s.targets[id]? <|> s.decls[id]?

/-- The node whose name a place touches, and what it stands for. -/
def referenceAt? (s : State) (u : UnitId) (line col : Int) : Option (Node × DeclId) := do
  let owner ← ownerAt? (s.unit u).tree line col
  return (owner, ← meaning? s u owner)

/-- The type of a node, if it is an expression that has one. -/
def exprType? (s : State) (u : UnitId) : Node → Option String
  | .expr x =>
    match s.types.getD ⟨u, x.mark.id⟩ .unknown with
    | .unknown => none
    | t => some (s.typeText t)
  | _ => none

/-! ## Declarations -/

/-- A name in a unit of the workspace. -/
structure Occurrence where
  path : String
  name : Name
deriving DecidableEq, Repr, Inhabited

/-- Where a declaration of the workspace is made.  Those of the language are made elsewhere. -/
def declaredAt? (s : State) (d : DeclId) : Option Occurrence := do
  let decl := s.graph.decl d
  let name ← nameOf? (← decl.node)
  let u ← decl.unit
  if u = Analysis.languageUnit then none
  return ⟨(s.unit u).path, name⟩

/-- Where a declaration is referred to, unit by unit.  Units that failed are left out. -/
def references (s : State) (d : DeclId) : List Occurrence :=
  s.userUnits.flatMap fun u =>
    let unit := s.unit u
    if unit.failure.isSome then []
    else
      (unit.tree.outline.nodes.filter fun n => s.targets[(⟨u, n.mark.id⟩ : NodeId)]? == some d).filterMap
        fun n => (nameOf? n).map fun name => ⟨unit.path, name⟩

/-! ## Hovering -/

/-- A text as a block of source code. -/
def codeBlock (text : String) : String :=
  "```ceylon\n" ++ text ++ "\n```"

/-- What is shown about a declaration at a node that stands for it. -/
def describeAt (s : State) (u : UnitId) (owner : Node) (d : DeclId) : String :=
  let decl := s.graph.decl d
  let type := match exprType? s u owner with
    | some t => "\n\nType: `" ++ t ++ "`"
    | none => ""
  let place := match declaredAt? s d with
    | some o => "\n\n*Defined in " ++ o.path ++ ":" ++ toString o.name.mark.pos.line ++ "*"
    | none =>
      match decl.unit with
      | some u =>
        "\n\n*Defined in " ++ (s.graph.package (s.unit u).package).qualifiedName ++ "*"
      | none => ""
  "**" ++ s.graph.kindText d ++ "** `" ++ decl.name ++ "`\n\n" ++ codeBlock (s.graph.describe d)
    ++ type ++ place

/-- What is shown about a place: the declaration that a name stands for, or else the type of the innermost
expression that has one. -/
def hoverText? (s : State) (u : UnitId) (line col : Int) : Option String :=
  match referenceAt? s u line col with
  | some (owner, d) => some (describeAt s u owner d)
  | none => ((nodesAt (s.unit u).tree line col).findSome? (exprType? s u)).map codeBlock

/-! ## Completion -/

/-- The innermost scope around a place. -/
def scopeAt (s : State) (u : UnitId) (line col : Int) : ScopeChain :=
  let scopes := (nodesAt (s.unit u).tree line col).filterMap fun n =>
    s.scopes[(⟨u, n.mark.id⟩ : NodeId)]?
  scopes.headD [.package (s.unit u).package]

/-- The names that can be written at a place and begin in the given way, in their order. -/
def completions (s : State) (u : UnitId) (line col : Int) (start : String) :
    List (String × DeclId) :=
  let names := (s.visible u (scopeAt s u line col)).filter fun (name, _) => name.startsWith start
  names.mergeSort fun a b => decide (a.1 ≤ b.1)

end Ceylon.Editor
