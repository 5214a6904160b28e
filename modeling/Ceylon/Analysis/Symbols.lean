import Ceylon.Analysis.State

/-!
# The symbols of a unit

The declarations at the top of a unit, and those in the bodies of classes and interfaces below them.  What is
declared inside functions is left out.
-/

namespace Ceylon.Analysis

open Model (DeclId UnitId)
open Syntax (Mark Name Stmt)

/-- A declaration with those in its body. -/
inductive Symbol where
  | mk (mark : Mark) (name : Name) (decl : DeclId) (members : List Symbol)
deriving Inhabited

/-- The declaration made by the node with a mark, if it made one. -/
def symbolAt? (s : State) (u : UnitId) (mark : Mark) (name : Name) (members : List Symbol) :
    Option Symbol :=
  s.decls[(⟨u, mark.id⟩ : NodeId)]?.map fun d => .mk mark name d members

mutual

/-- The declaration that a statement is, with its members. -/
def symbolOf? (s : State) (u : UnitId) : Stmt → Option Symbol
  | .classDecl { mark, name, body := { stmts, .. }, .. } =>
    symbolAt? s u mark name (symbolsOf s u stmts)
  | .interfaceDecl { mark, name, body := { stmts, .. }, .. } =>
    symbolAt? s u mark name (symbolsOf s u stmts)
  | .method { mark, name, .. } => symbolAt? s u mark name []
  | .attribute d => symbolAt? s u d.mark d.name []
  | .getter { mark, name, .. } => symbolAt? s u mark name []
  | .setter { mark, name, .. } => symbolAt? s u mark name []
  | _ => none

/-- The declarations among statements. -/
def symbolsOf (s : State) (u : UnitId) : List Stmt → List Symbol
  | [] => []
  | stmt :: stmts => (symbolOf? s u stmt).toList ++ symbolsOf s u stmts

end

/-- The symbols of a unit. -/
def State.symbols (s : State) (u : UnitId) : List Symbol :=
  symbolsOf s u (s.unit u).tree.body

end Ceylon.Analysis
