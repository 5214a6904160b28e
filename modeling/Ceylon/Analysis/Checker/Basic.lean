import Ceylon.Analysis.Names

/-!
# Checking: common parts

What the check of a unit finds depends on what its names were resolved to, which no check changes, and on
the types of declarations, some of which are still to be inferred, in this unit or in another one.  So
checking is a dialogue over the resolved state (`State.facts`), and the type of a declaration is one of its
questions.

A typing rule (`Rule`) determines the type of one expression from those of its parts: all it does beside is
to ask for the types of declarations and to report problems.  A check (`Check`) applies rules one after the
other and keeps their results; it also has declarations checked that it meets (`Task`).
-/

namespace Ceylon.Analysis

open Model
open Syntax

/-- A unit as far as checking depends on it. -/
def UnitState.facts (u : UnitState) : UnitState :=
  { u with
    phase := if u.phase.atLeast .namesResolved then .namesResolved else u.phase
    diagnostics := #[] }

/-- The state as far as checking depends on it: what names stand for, and nothing that checking finds
out. -/
def State.facts (s : State) : State :=
  { graph := { s.graph with inferred := {} }, builtins := s.builtins
    units := s.units.map UnitState.facts, scopes := s.scopes, decls := s.decls
    types := { refs := s.types.refs } }

/-- Whether the declarations of a unit can be checked. -/
def State.isReady (s : State) (u : UnitId) : Bool :=
  let unit := s.unit u
  unit.isBound && unit.failure.isNone && unit.phase.atLeast .namesResolved

/-- The scope of a node. -/
def State.scopeAt (s : State) (u : UnitId) (m : Mark) : ScopeChain :=
  s.scopes.getD ⟨u, m.id⟩ []

/-- The type that a type reference stands for. -/
def State.typeRef? (s : State) (u : UnitId) (m : Mark) : Option Ty :=
  s.types.refs[(⟨u, m.id⟩ : NodeId)]?

/-- The type that the declaration of a node was declared with. -/
def State.declaredType (s : State) (u : UnitId) (m : Mark) : Ty :=
  match s.decls[(⟨u, m.id⟩ : NodeId)]? with
  | none => .unknown
  | some d => (s.graph.decl d).shape.type

/-! ## Rules -/

/-- A question of a typing rule. -/
inductive Question where
  /-- The type of a declaration. -/
  | typeOf (d : DeclId)
  /-- Reports a problem at a node. -/
  | problem (n : Node) (message : String)

/-- What a question is answered with.  A declaration has no type while its type is being inferred. -/
abbrev Question.Answer : Question → Type
  | .typeOf _ => Option Ty
  | .problem .. => Unit

/-- A typing rule. -/
abbrev Rule := Dialogue Question.Answer

/-- Reports a problem at a node. -/
def reportAt (n : Node) (message : String) : Rule Unit :=
  .ask (.problem n message) .done

/-- The type of a declaration.  An inference that needs its own result is reported at the reference
`place`. -/
def typeOfDecl (f : State) (d : DeclId) (place : Node) : Rule Ty :=
  .ask (.typeOf d) fun
    | some t => .done t
    | none => do
      reportAt place ("could not infer type of: " ++ (f.graph.decl d).name)
      return .unknown

/-- The result of a rule, and whether it reported a problem. -/
def watched {α : Type} : Rule α → Rule (α × Bool)
  | .done a => .done (a, false)
  | .ask (.typeOf d) next => .ask (.typeOf d) fun t => watched (next t)
  | .ask (.problem n message) next => .ask (.problem n message) fun r => do
    let (a, _) ← watched (next r)
    return (a, true)

/-- Reports a type that is not assignable to the expected one.  Nothing is reported of unknown types. -/
def assignable (f : State) (t expected : Ty) (n : Node) (message : String) : Rule Unit :=
  if t.isKnown && expected.isKnown && !f.graph.hierarchy.subtype t expected then
    reportAt n (message ++ ": " ++ f.typeText t ++ " is not " ++ f.typeText expected)
  else return

/-! ## Checks -/

/-- What is checked once: the body of a unit, or a declaration. -/
inductive Task where
  | unit (tree : CompilationUnit)
  | ofClass (d : ClassDecl)
  | method (d : MethodDecl)
  | attribute (d : AttributeDecl)
  | getter (d : GetterDecl)
  | setter (d : SetterDecl)

namespace Task

/-- The mark of what is checked. -/
def mark : Task → Mark
  | .unit tree => tree.mark
  | .ofClass d => d.mark
  | .method d => d.mark
  | .attribute d => d.mark
  | .getter d => d.mark
  | .setter d => d.mark

/-- Whether the check infers a type that nothing else declares. -/
def isInference : Task → Bool
  | .method d => d.type.isInferred
  | .attribute d => d.type.isInferred
  | .getter d => d.type.isInferred
  | _ => false

/-- Whether the check gives its declaration a type. -/
def givesType : Task → Bool
  | .setter _ => true
  | t => t.isInference

end Task

/-- A step of a check. -/
inductive Act where
  /-- A question of a rule. -/
  | ask (q : Question)
  /-- Records the type of an expression and what it refers to. -/
  | settle (m : Mark) (t : Ty) (target : Option DeclId)
  /-- Gives the variable of a condition or loop its inferred type. -/
  | infer (m : Mark) (t : Ty)
  /-- Has a declaration checked. -/
  | visit (task : Task)

/-- What a step is answered with. -/
abbrev Act.Answer : Act → Type
  | .ask q => q.Answer
  | .settle .. => Unit
  | .infer .. => Unit
  | .visit _ => Unit

/-- A check. -/
abbrev Check := Dialogue Act.Answer

/-- Applies a rule. -/
def applyRule {α : Type} (r : Rule α) : Check α :=
  r.translate fun q => .ask (.ask q) .done

/-- Records the type of an expression and what it refers to. -/
def settle (m : Mark) (t : Ty) (target : Option DeclId) : Check Unit :=
  .ask (.settle m t target) .done

/-- Gives the variable of a condition or loop its inferred type. -/
def inferVariable (m : Mark) (t : Ty) : Check Unit :=
  .ask (.infer m t) .done

/-- Has a declaration checked. -/
def visit (task : Task) : Check Unit :=
  .ask (.visit task) .done

/-- An expression that has been checked. -/
structure Typed where
  expr : Expr
  type : Ty
  /-- What the expression refers to, any parentheses apart. -/
  target : Option DeclId := none
  /-- The supertype through which a qualified reference found its member. -/
  receiver : Option Applied := none
  /-- Whether a problem has been reported in the expression. -/
  faulty : Bool := false
deriving Inhabited

end Ceylon.Analysis
