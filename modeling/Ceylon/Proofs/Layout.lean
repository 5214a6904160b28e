import Ceylon.Analysis.Binding
import Ceylon.Proofs.Numbering
import Ceylon.Proofs.State

/-!
# Where nodes stand

The layout of a bound unit: every node stands in a chain of scopes, and each of its parts stands in the
same chain, or in the scope that the node itself opens, or, for the variable of a condition or loop,
outside the body that the variable belongs to (`Laid`).  A node that declares something has its declaration
in the table, and every declaration can be traced back to its node (`State.Layout`).
-/

namespace Ceylon

namespace Syntax

/-! ## Parts of nodes by where they stand -/

/-- The variable that a condition introduces for what it tests. -/
def Operand.variables : Operand → List Variable
  | .var g => [g.variable]
  | .value _ => []

/-- The variables that a condition introduces. -/
def Condition.variables : Condition → List Variable
  | .boolean _ _ => []
  | .exists _ operand => operand.variables
  | .nonempty _ operand => operand.variables
  | .is _ _ operand => operand.variables

/-- The variables of a loop. -/
def Iteration.variables : Iteration → List Variable
  | .values _ var _ => [var.variable]
  | .entries _ key value _ => [key.variable, value.variable]

namespace Node

/-- The variables that a clause introduces. -/
def clauseVariables : Node → List Variable
  | .ifClause c => c.cond.variables
  | .whileClause c => c.cond.variables
  | .forClause c => c.iteration.variables
  | _ => []

/-- Whether a node opens the body of a branch or loop. -/
def isClause : Node → Bool
  | .ifClause _ => true
  | .whileClause _ => true
  | .forClause _ => true
  | .failClause _ => true
  | .elseClause (.block ..) => true
  | _ => false

/-- What stands in the scope that a node opens. -/
def within : Node → List Node
  | .stmt (.classDecl d) =>
    d.typeParams.map .typeParameter ++ .parameterList d.params
      :: d.extended.toList.map .extendedType ++ d.satisfied.map .type ++ [.block d.body]
  | .stmt (.interfaceDecl d) =>
    d.typeParams.map .typeParameter ++ d.satisfied.map .type ++ [.block d.body]
  | .stmt (.method d) =>
    d.type.node :: d.typeParams.map .typeParameter ++ .parameterList d.params :: d.body.nodes
  | .stmt (.getter d) => [.block d.body]
  | .stmt (.setter d) => [.block d.body]
  | .parameter p => .type p.type :: p.default.toList.map .expr
  | .ifClause c => c.cond.variables.map .variable ++ [.block c.body]
  | .whileClause c => c.cond.variables.map .variable ++ [.block c.body]
  | .forClause c => c.iteration.variables.map .variable ++ [.block c.body]
  | .failClause c => [.block c.body]
  | .elseClause (.block _ b) => [.block b]
  | _ => []

/-- What stands in the same scope as the condition that it belongs to. -/
def ofOperand : Operand → List Node
  | .var _ => []
  | .value x => [.expr x]

/-- The parts of a node that stand in the same scope as the node, names of declarations apart. -/
def beside : Node → List Node
  | .stmt (.classDecl _) => []
  | .stmt (.interfaceDecl _) => []
  | .stmt (.method _) => []
  | .stmt (.attribute d) => d.type.node :: d.init.expr?.toList.map .expr
  | .stmt (.getter d) => [d.type.node]
  | .stmt (.setter _) => []
  | .parameter _ => []
  | .typeParameter _ => []
  | .variable _ => []
  | .ifClause c => [.condition c.cond]
  | .whileClause c => [.condition c.cond]
  | .forClause c => [.iteration c.iteration]
  | .failClause _ => []
  | .elseClause (.block ..) => []
  | .condition (.boolean _ x) => [.expr x]
  | .condition (.exists _ operand) => ofOperand operand
  | .condition (.nonempty _ operand) => ofOperand operand
  | .condition (.is _ narrowed operand) => .type narrowed :: ofOperand operand
  | .iteration (.values _ _ source) => [.expr source]
  | .iteration (.entries _ _ _ source) => [.expr source]
  | n => n.parts

/-- The parts of a variable that stand outside the body it belongs to. -/
def outside : Node → List Node
  | .variable v => v.type.node :: v.specifier.toList.map .expr
  | _ => []

/-- Whether neither a node nor anything below it declares something or opens a body. -/
def isPlain : Node → Bool
  | .unit _ => false
  | .parameter _ => false
  | .parameterList _ => false
  | .typeParameter _ => false
  | .variable _ => false
  | .block _ => false
  | .stmt _ => false
  | .ifClause _ => false
  | .elseClause _ => false
  | .whileClause _ => false
  | .forClause _ => false
  | .failClause _ => false
  | .condition _ => false
  | .iteration _ => false
  | _ => true

theorem isPlain_declaredType (t : DeclaredType) : t.node.isPlain := by
  cases t <;> rfl

/-- The parts of a plain node are plain. -/
theorem isPlain_of_part (n : Node) (h : n.isPlain) : ∀ p ∈ n.parts, p.isPlain := by
  -- The plain kinds are closed under parts. The kinds that are not plain are excluded by the hypothesis at the
  -- end.
  cases n with
  | expr x =>
    cases x with
    | invocation _ _ args =>
      simp [parts, outline, Expr.outline, Outline.children, isPlain]
      cases args <;> rfl
    | index _ _ _ subscript =>
      simp [parts, outline, Expr.outline, Outline.children, isPlain]
    | _ => simp [parts, outline, Expr.outline, Outline.children, isPlain]
  | type t =>
    cases t with
    | base b => simp [parts_base, isPlain]
    | union mark first more => simp [parts_union, isPlain]
    | optional mark inner => simp [parts_optional, isPlain]
  | extendedType e => simp [parts_extendedType, isPlain]
  | positionalArgs a =>
    cases a
    simp [parts, outline, PositionalArgs.outline, Outline.children, isPlain]
  | namedArgs a =>
    cases a
    simp [parts, outline, NamedArgs.outline, Outline.children, isPlain, or_imp, forall_and]
  | namedArg a =>
    cases a
    simp [parts, outline, outlineNamed, Outline.children, isPlain]
  | sequencedArg a =>
    cases a
    simp [parts, outline, outlineSequenced, Outline.children, isPlain]
  | path p => simp [parts, outline, Path.outline, Outline.children, isPlain]
  | moduleDescriptor d =>
    simp [parts, outline, ModuleDescriptor.outline, ModuleImport.outline, Path.outline,
      Outline.children, Outline.node, isPlain]
  | moduleImport i =>
    simp [parts, outline, ModuleImport.outline, Path.outline, Outline.children, Outline.node,
      isPlain]
  | «import» i =>
    simp [parts, outline, Import.outline, ImportElement.outline, Path.outline, Outline.children,
      Outline.node, isPlain]
  | importElement e =>
    simp [parts, outline, ImportElement.outline, Outline.children, isPlain, or_imp, forall_and]
  | name | inferredType | voidType => simp [parts, outline, Name.outline, DeclaredType.outline,
      Outline.children]
  | _ => cases h

/-- All nodes below a plain node are plain. -/
theorem isPlain_of_mem_all {n m : Node} (h : n.isPlain) (hm : m ∈ n.all) : m.isPlain :=
  forall_all (P := fun n => n.isPlain) h isPlain_of_part m hm

end Node

end Syntax

namespace Model

open Syntax

/-- The kinds of declarations. -/
inductive DeclKind where
  | ofClass
  | ofInterface
  | method
  | value
  | getter
  | setter
  | parameter
  | typeParameter
deriving DecidableEq

/-- The kind of declarations of a shape. -/
def Shape.kind : Shape → DeclKind
  | .ofClass .. => .ofClass
  | .ofInterface .. => .ofInterface
  | .method .. => .method
  | .value .. => .value
  | .getter .. => .getter
  | .setter .. => .setter
  | .parameter .. => .parameter
  | .typeParameter .. => .typeParameter

end Model

/-- The kind of the declaration that a node makes. -/
def Syntax.Node.declKind : Syntax.Node → Option Model.DeclKind
  | .stmt (.classDecl _) => some .ofClass
  | .stmt (.interfaceDecl _) => some .ofInterface
  | .stmt (.method _) => some .method
  | .stmt (.attribute _) => some .value
  | .stmt (.getter _) => some .getter
  | .stmt (.setter _) => some .setter
  | .variable _ => some .value
  | .parameter _ => some .parameter
  | .typeParameter _ => some .typeParameter
  | _ => none

namespace Model.Graph

/-! ## Chains of scopes -/

/-- The body with the given number. -/
def block (g : Graph) (b : BlockId) : Body :=
  g.blocks.getD b.index default

/-- In the chain, each scope is followed by the scopes around it; the last one is a package. -/
def Chain (g : Graph) : ScopeChain → Prop
  | [] => False
  | .package _ :: outer => outer = []
  | .decl d :: outer => d.index < g.decls.size ∧ outer = (g.decl d).scope ∧ g.Chain outer
  | .block b :: outer => b.index < g.blocks.size ∧ outer = (g.block b).outer ∧ g.Chain outer

/-- A chain has an innermost scope. -/
theorem Chain.exists_cons {g : Graph} {c : ScopeChain} (h : g.Chain c) : ∃ σ outer, c = σ :: outer := by
  cases c with
  | nil => exact h.elim
  | cons σ outer => exact ⟨σ, outer, rfl⟩

/-- The scopes around a scope are the same in all chains. -/
theorem Chain.tail_unique {g : Graph} {s : ScopeId} {outer outer' : ScopeChain}
    (h : g.Chain (s :: outer)) (h' : g.Chain (s :: outer')) : outer = outer' := by
  cases s with
  | package p => exact Eq.trans h (Eq.symm h')
  | decl d => exact h.2.1.trans h'.2.1.symm
  | block b => exact h.2.1.trans h'.2.1.symm

end Model.Graph

namespace Analysis

open Model Syntax

/-! ## Layouts -/

section

variable (s : State) (u : UnitId) (c : ScopeChain)

/-- A node of a unit stands in a chain of scopes. -/
def State.Stands (n : Node) : Prop :=
  s.scopes[(⟨u, n.mark.id⟩ : NodeId)]? = some c

/-- A node makes a declaration. -/
structure State.Declares (n : Node) (d : DeclId) : Prop where
  listed : s.decls[(⟨u, n.mark.id⟩ : NodeId)]? = some d
  valid : d.index < s.graph.decls.size
  scope : (s.graph.decl d).scope = c
  unit : (s.graph.decl d).unit = some u
  node : (s.graph.decl d).node = some n
  kind : n.declKind = some (s.graph.decl d).shape.kind

/-- A clause opens a body. -/
structure State.Opens (n : Node) (b : BlockId) : Prop where
  valid : b.index < s.graph.blocks.size
  body : s.graph.block b = ⟨u, n, c⟩

/-- The parts of a node that stands in a chain of scopes stand where they should, and the node has made
the declaration or opened the body that it should. -/
structure State.Laid (n : Node) : Prop where
  beside : ∀ p ∈ n.beside, s.Stands u c p
  declared : n.declKind.isSome →
    ∃ d, s.Declares u c n d ∧ ∀ p ∈ n.within, s.Stands u (.decl d :: c) p
  opened : n.isClause → ∃ b, s.Opens u c n b ∧ ∀ p ∈ n.within, s.Stands u (.block b :: c) p
  outside : ∀ p ∈ n.outside, s.Stands u c.tail p
  /-- A variable belongs to the body that its clause opens. -/
  held : ∀ v, n = .variable v → ∃ b n', c.head? = some (.block b) ∧
    s.Opens u c.tail n' b ∧ v ∈ n'.clauseVariables

/-- A chain of scopes that ends with the package of the unit. -/
structure State.ChainIn : Prop where
  chain : s.graph.Chain c
  package : c.getLast? = some (.package (s.unit u).package)

end

/-- A node stands where it should, and so do its parts. -/
def State.Placed (s : State) (u : UnitId) (n : Node) : Prop :=
  ∃ c, s.Stands u c n ∧ s.ChainIn u c ∧ s.Laid u c n

end Analysis

end Ceylon
