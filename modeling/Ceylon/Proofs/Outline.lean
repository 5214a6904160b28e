import Mathlib.Data.List.Basic
import Ceylon.Syntax.Outline

/-!
# Outlines follow their trees

The outline of a tree holds the outline of each of its nodes: what stands below a node in an outline is
what stands below it in its own outline (`Outline.Faithful`).  So the nodes of a tree are closed under
going down (`Outline.nodes_of_mem`), and a fact about all nodes of a unit is a fact about all nodes of each
part of it.
-/

namespace Ceylon.Syntax

/-! ## The nodes of an outline -/

namespace Outline

mutual

/-- The nodes of a walk do not depend on where it begins. -/
theorem map_node_visits (depth depth' : Nat) (parent parent' : Option Node) :
    (o : Outline) → (o.visits depth parent).map (·.node) = (o.visits depth' parent').map (·.node)
  | .mk _ node _ children => by
    simp only [visits, List.map_cons]
    rw [map_node_visitsOf (depth + 1) (depth' + 1) node children]

/-- The depth and the parent of a visit do not matter for the nodes that are visited. -/
theorem map_node_visitsOf (depth depth' : Nat) (parent : Node) :
    (os : List Outline) →
      (visitsOf depth parent os).map (·.node) = (visitsOf depth' parent os).map (·.node)
  | [] => rfl
  | o :: os => by
    simp only [visitsOf, List.map_append]
    rw [map_node_visits depth depth' (some parent) (some parent) o,
      map_node_visitsOf depth depth' parent os]

end

/-- A walk over several trees visits the nodes of each of them in turn. -/
theorem map_node_visitsOf_eq_flatMap (depth : Nat) (parent : Node) (os : List Outline) :
    (visitsOf depth parent os).map (·.node) = os.flatMap nodes := by
  induction os with
  | nil => rfl
  | cons o os ih =>
    simp only [visitsOf, List.map_append, List.flatMap_cons, ih]
    rw [map_node_visits depth 0 (some parent) none o]
    rfl

/-- The nodes of an outline are its own and those of its children. -/
theorem node_mk (slot : Slot) (node : Node) (attributes : List (String × Attribute)) (children : List Outline) :
    (Outline.mk slot node attributes children).node = node := rfl

@[simp] theorem nodes_mk (slot : Slot) (node : Node) (attributes : List (String × Attribute))
    (children : List Outline) :
    (Outline.mk slot node attributes children).nodes = node :: children.flatMap nodes := by
  simp only [nodes, walk, visits, List.map_cons]
  rw [map_node_visitsOf_eq_flatMap]

/-- The nodes of a tree are its root and the nodes of its children. -/
theorem nodes_eq (o : Outline) : o.nodes = o.node :: o.children.flatMap nodes := by
  cases o
  exact nodes_mk ..

end Outline

/-! ## Faithful outlines -/

/-- The outline of a node by itself. -/
def Node.outline : Node → Outline
  | .unit u => u.outline
  | .moduleDescriptor d => d.outline
  | .moduleImport i => i.outline
  | .import i => i.outline
  | .importElement e => e.outline
  | .path p => p.outline
  | .name n => n.outline default
  | .parameter p => p.outline
  | .parameterList l => l.outline
  | .typeParameter p => p.outline
  | .extendedType e => e.outline
  | .variable v => v.outline ""
  | .type t => t.outline default
  | .inferredType mark function => (DeclaredType.inferred mark function).outline
  | .voidType mark => (DeclaredType.void mark).outline
  | .block b => b.outline
  | .stmt s => s.outline default
  | .ifClause c => c.outline
  | .elseClause c => (outlineElse (some c)).headD default
  | .whileClause c => c.outline
  | .forClause c => c.outline
  | .failClause c => (outlineFail (some c)).headD default
  | .condition c => c.outline
  | .iteration i => i.outline
  | .expr x => x.outline default
  | .positionalArgs a => a.outline default
  | .namedArgs a => a.outline
  | .namedArg a => (outlineNamed [a]).headD default
  | .sequencedArg a => (outlineSequenced (some a)).headD default

namespace Outline

mutual

/-- What stands below each node of the outline is what stands below it in its own outline. -/
def Faithful : Outline → Prop
  | .mk _ node _ children => children = node.outline.children ∧ AllFaithful children

/-- All of several outlines are faithful. -/
def AllFaithful : List Outline → Prop
  | [] => True
  | o :: os => o.Faithful ∧ AllFaithful os

end

/-- Trees are faithful if each of them is. -/
theorem allFaithful_iff {os : List Outline} : AllFaithful os ↔ ∀ o ∈ os, o.Faithful := by
  induction os with
  | nil => simp [AllFaithful]
  | cons o os ih => simp [AllFaithful, ih]

mutual

/-- In a faithful outline, what stands below one of its nodes are nodes of it. -/
theorem nodes_of_mem {n n' : Node} {c : Outline} (hc : c ∈ n.outline.children)
    (hn' : n' ∈ c.nodes) : (o : Outline) → o.Faithful → n ∈ o.nodes → n' ∈ o.nodes
  | .mk slot node attributes children, ⟨heq, hall⟩, hn => by
    rw [nodes_mk] at hn ⊢
    rcases List.mem_cons.mp hn with rfl | hn
    · refine List.mem_cons_of_mem _ (List.mem_flatMap.mpr ⟨c, ?_, hn'⟩)
      rw [heq]
      exact hc
    · exact List.mem_cons_of_mem _ (nodes_of_mem_all hc hn' children hall hn)

/-- What stands below a child of a node stands in every tree that has the node. -/
theorem nodes_of_mem_all {n n' : Node} {c : Outline} (hc : c ∈ n.outline.children)
    (hn' : n' ∈ c.nodes) : (os : List Outline) → AllFaithful os → n ∈ os.flatMap nodes →
      n' ∈ os.flatMap nodes
  | [], _, hn => by cases hn
  | o :: os, ⟨ho, hos⟩, hn => by
    rw [List.flatMap_cons, List.mem_append] at hn ⊢
    exact hn.imp (nodes_of_mem hc hn' o ho) (nodes_of_mem_all hc hn' os hos)

end

end Outline

/-! ## The outlines of trees are faithful -/

open Outline

/-- An optional child is faithful if it is so whenever it is there. -/
theorem outlineOption_faithful {α : Type} {f : α → Outline} {a : Option α}
    (hf : ∀ a, (f a).Faithful) : AllFaithful (outlineOption f a) := by
  cases a with
  | none => exact trivial
  | some a => exact ⟨hf a, trivial⟩

/-- A list of children is faithful if each of them is. -/
theorem allFaithful_map {α : Type} {f : α → Outline} {as : List α} (hf : ∀ a, (f a).Faithful) :
    AllFaithful (as.map f) := by
  rw [allFaithful_iff]
  intro o ho
  obtain ⟨a, -, rfl⟩ := List.mem_map.mp ho
  exact hf a

theorem Outline.AllFaithful.cons {o : Outline} {os : List Outline} (h : o.Faithful)
    (h' : AllFaithful os) : AllFaithful (o :: os) :=
  ⟨h, h'⟩

theorem Outline.AllFaithful.append {os os' : List Outline} (h : AllFaithful os) (h' : AllFaithful os') :
    AllFaithful (os ++ os') := by
  rw [allFaithful_iff] at *
  exact fun o ho => (List.mem_append.mp ho).elim (h o) (h' o)

theorem Name.outline_faithful (slot : Slot) (n : Name) : (n.outline slot).Faithful :=
  ⟨rfl, trivial⟩

theorem Path.outline_faithful (p : Path) : p.outline.Faithful :=
  ⟨rfl, allFaithful_map (Name.outline_faithful _)⟩

mutual

theorem TypeRef.outline_faithful (slot : Slot) : (t : TypeRef) → (t.outline slot).Faithful
  | .base b => b.outline_faithful slot
  | .union _ first more => ⟨rfl, first.outline_faithful _, outlineTypes_faithful "cases" more⟩
  | .optional _ inner => ⟨rfl, inner.outline_faithful _, trivial⟩

theorem BaseType.outline_faithful (slot : Slot) : (b : BaseType) → (b.outline slot).Faithful
  | { mark := _, name, args } =>
    ⟨rfl, name.outline_faithful _, outlineTypes_faithful "args" args⟩

theorem outlineTypes_faithful (label : String) :
    (ts : List TypeRef) → AllFaithful (outlineTypes label ts)
  | [] => trivial
  | t :: ts => ⟨t.outline_faithful _, outlineTypes_faithful label ts⟩

end

theorem DeclaredType.outline_faithful : (t : DeclaredType) → t.outline.Faithful
  | .ref t => t.outline_faithful _
  | .inferred .. => ⟨rfl, trivial⟩
  | .void _ => ⟨rfl, trivial⟩

mutual

theorem Expr.outline_faithful (slot : Slot) : (x : Expr) → (x.outline slot).Faithful
  | .reference _ _ name typeArgs =>
    ⟨rfl, name.outline_faithful _, outlineTypes_faithful _ typeArgs⟩
  | .qualified _ primary _ _ name typeArgs =>
    ⟨rfl, primary.outline_faithful _, name.outline_faithful _, outlineTypes_faithful _ typeArgs⟩
  | .invocation _ primary args =>
    ⟨rfl, primary.outline_faithful _, args.outline_faithful, trivial⟩
  | .index _ primary _ subscript =>
    ⟨rfl, primary.outline_faithful _, subscript.outline_faithful⟩
  | .literal .. => ⟨rfl, trivial⟩
  | .self .. => ⟨rfl, trivial⟩
  | .sequence _ elems => ⟨rfl, outlineExprs_faithful _ elems⟩
  | .paren _ x => ⟨rfl, x.outline_faithful _, trivial⟩
  | .binary _ _ x y => ⟨rfl, x.outline_faithful _, y.outline_faithful _, trivial⟩
  | .prefixed _ _ x => ⟨rfl, x.outline_faithful _, trivial⟩
  | .postfixed _ _ x => ⟨rfl, x.outline_faithful _, trivial⟩
  | .isTest _ x type => ⟨rfl, x.outline_faithful _, type.outline_faithful _, trivial⟩
  | .existsTest _ x => ⟨rfl, x.outline_faithful _, trivial⟩
  | .nonemptyTest _ x => ⟨rfl, x.outline_faithful _, trivial⟩

theorem outlineExprs_faithful (label : String) :
    (xs : List Expr) → AllFaithful (outlineExprs label xs)
  | [] => trivial
  | x :: xs => ⟨x.outline_faithful _, outlineExprs_faithful label xs⟩

theorem Arguments.outline_faithful : (a : Arguments) → a.outline.Faithful
  | .positional args => args.outline_faithful _
  | .named args => args.outline_faithful

theorem PositionalArgs.outline_faithful (slot : Slot) :
    (a : PositionalArgs) → (a.outline slot).Faithful
  | { mark := _, args } => ⟨rfl, outlineExprs_faithful "args" args⟩

theorem NamedArgs.outline_faithful : (a : NamedArgs) → a.outline.Faithful
  | { mark := _, args, sequenced } =>
    ⟨rfl, (outlineNamed_faithful args).append (outlineSequenced_faithful sequenced)⟩

theorem outlineNamed_faithful : (as : List NamedArg) → AllFaithful (outlineNamed as)
  | [] => trivial
  | { mark := _, name, value } :: as =>
    ⟨⟨rfl, name.outline_faithful _, value.outline_faithful _, trivial⟩, outlineNamed_faithful as⟩

theorem outlineSequenced_faithful : (a : Option SequencedArg) → AllFaithful (outlineSequenced a)
  | none => trivial
  | some { mark := _, values } => ⟨⟨rfl, outlineExprs_faithful "exprs" values⟩, trivial⟩

theorem Subscript.outline_faithful : (s : Subscript) → AllFaithful s.outline
  | .element index => ⟨index.outline_faithful _, trivial⟩
  | .span lower upper => ⟨lower.outline_faithful _, upper.outline_faithful _, trivial⟩
  | .tail lower => ⟨lower.outline_faithful _, trivial⟩

end

theorem TypeParameter.outline_faithful (p : TypeParameter) : p.outline.Faithful :=
  ⟨rfl, p.name.outline_faithful _, trivial⟩

theorem Parameter.outline_faithful (p : Parameter) : p.outline.Faithful :=
  ⟨rfl, p.type.outline_faithful _, p.name.outline_faithful _,
    outlineOption_faithful (Expr.outline_faithful _)⟩

theorem ParameterList.outline_faithful (l : ParameterList) : l.outline.Faithful :=
  ⟨rfl, allFaithful_map Parameter.outline_faithful⟩

theorem ExtendedType.outline_faithful (e : ExtendedType) : e.outline.Faithful :=
  ⟨rfl, e.type.outline_faithful _, e.args.outline_faithful _, trivial⟩

theorem Variable.outline_faithful (label : String) (v : Variable) : (v.outline label).Faithful :=
  ⟨rfl, v.type.outline_faithful, v.name.outline_faithful _,
    outlineOption_faithful (Expr.outline_faithful _)⟩

theorem Operand.outline_faithful : (o : Operand) → o.outline.Faithful
  | .var g => g.variable.outline_faithful _
  | .value x => x.outline_faithful _

theorem Condition.outline_faithful (c : Condition) : c.outline.Faithful := by
  refine ⟨rfl, ?_⟩
  cases c with
  | boolean _ x => exact ⟨x.outline_faithful _, trivial⟩
  | «exists» _ operand => exact ⟨operand.outline_faithful, trivial⟩
  | nonempty _ operand => exact ⟨operand.outline_faithful, trivial⟩
  | is _ type operand => exact ⟨type.outline_faithful _, operand.outline_faithful, trivial⟩

theorem Iteration.outline_faithful (i : Iteration) : i.outline.Faithful := by
  refine ⟨rfl, ?_⟩
  cases i with
  | values _ var source =>
    exact ⟨var.variable.outline_faithful _, source.outline_faithful _, trivial⟩
  | entries _ key value source =>
    exact ⟨key.variable.outline_faithful _, value.variable.outline_faithful _,
      source.outline_faithful _, trivial⟩

theorem AttributeDecl.outline_faithful (slot : Slot) (d : AttributeDecl) :
    (d.outline slot).Faithful :=
  ⟨rfl, d.type.outline_faithful, d.name.outline_faithful _,
    outlineOption_faithful (Expr.outline_faithful _)⟩

mutual

theorem Stmt.outline_faithful (slot : Slot) : (s : Stmt) → (s.outline slot).Faithful
  | .classDecl d => d.outline_faithful slot
  | .interfaceDecl d => d.outline_faithful slot
  | .method d => d.outline_faithful slot
  | .attribute d => d.outline_faithful slot
  | .getter d => d.outline_faithful slot
  | .setter d => d.outline_faithful slot
  | .expr _ x => ⟨rfl, x.outline_faithful _, trivial⟩
  | .return _ _ => ⟨rfl, outlineOption_faithful (Expr.outline_faithful _)⟩
  | .break _ => ⟨rfl, trivial⟩
  | .continue _ => ⟨rfl, trivial⟩
  | .ifElse s => s.outline_faithful slot
  | .while _ clause => ⟨rfl, clause.outline_faithful, trivial⟩
  | .for _ clause fail => ⟨rfl, clause.outline_faithful, outlineFail_faithful fail⟩

theorem outlineStmts_faithful (label : String) :
    (ss : List Stmt) → AllFaithful (outlineStmts label ss)
  | [] => trivial
  | s :: ss => ⟨s.outline_faithful _, outlineStmts_faithful label ss⟩

theorem Block.outline_faithful : (b : Block) → b.outline.Faithful
  | { mark := _, stmts, close := _ } => ⟨rfl, outlineStmts_faithful "stmts" stmts⟩

theorem ClassDecl.outline_faithful (slot : Slot) : (d : ClassDecl) → (d.outline slot).Faithful
  | { mark := _, annotations := _, name, typeParams := _, params, extended := _, satisfied, body } =>
    ⟨rfl, name.outline_faithful _,
      (((allFaithful_map TypeParameter.outline_faithful).append
        (.cons params.outline_faithful
          (outlineOption_faithful ExtendedType.outline_faithful))).append
        (outlineTypes_faithful "satisfies" satisfied)).append (.cons body.outline_faithful trivial)⟩

theorem InterfaceDecl.outline_faithful (slot : Slot) :
    (d : InterfaceDecl) → (d.outline slot).Faithful
  | { mark := _, annotations := _, name, typeParams := _, satisfied, body } =>
    ⟨rfl, name.outline_faithful _, ((allFaithful_map TypeParameter.outline_faithful).append
      (outlineTypes_faithful "satisfies" satisfied)).append ⟨body.outline_faithful, trivial⟩⟩

theorem MethodDecl.outline_faithful (slot : Slot) : (d : MethodDecl) → (d.outline slot).Faithful
  | { mark := _, annotations := _, type, name, typeParams := _, params, body } =>
    ⟨rfl, type.outline_faithful, name.outline_faithful _,
      (allFaithful_map TypeParameter.outline_faithful).append
        ⟨params.outline_faithful, body.outline_faithful⟩⟩

theorem MethodBody.outline_faithful : (b : MethodBody) → AllFaithful b.outline
  | .absent => trivial
  | .block b => ⟨b.outline_faithful, trivial⟩
  | .computed x => ⟨x.outline_faithful _, trivial⟩

theorem GetterDecl.outline_faithful (slot : Slot) : (d : GetterDecl) → (d.outline slot).Faithful
  | { mark := _, annotations := _, type, name, body } =>
    ⟨rfl, type.outline_faithful, name.outline_faithful _, body.outline_faithful, trivial⟩

theorem SetterDecl.outline_faithful (slot : Slot) : (d : SetterDecl) → (d.outline slot).Faithful
  | { mark := _, annotations := _, name, body } =>
    ⟨rfl, name.outline_faithful _, body.outline_faithful, trivial⟩

theorem IfStmt.outline_faithful (slot : Slot) : (s : IfStmt) → (s.outline slot).Faithful
  | { mark := _, clause, alternative } =>
    ⟨rfl, clause.outline_faithful, outlineElse_faithful alternative⟩

theorem IfClause.outline_faithful : (c : IfClause) → c.outline.Faithful
  | { mark := _, cond, body } => ⟨rfl, cond.outline_faithful, body.outline_faithful, trivial⟩

theorem outlineElse_faithful : (c : Option ElseClause) → AllFaithful (outlineElse c)
  | none => trivial
  | some (.block _ b) => ⟨⟨rfl, b.outline_faithful, trivial⟩, trivial⟩
  | some (.ifElse _ s) => ⟨⟨rfl, s.outline_faithful _, trivial⟩, trivial⟩

theorem WhileClause.outline_faithful : (c : WhileClause) → c.outline.Faithful
  | { mark := _, cond, body } => ⟨rfl, cond.outline_faithful, body.outline_faithful, trivial⟩

theorem ForClause.outline_faithful : (c : ForClause) → c.outline.Faithful
  | { mark := _, iteration, body } =>
    ⟨rfl, iteration.outline_faithful, body.outline_faithful, trivial⟩

theorem outlineFail_faithful : (c : Option FailClause) → AllFaithful (outlineFail c)
  | none => trivial
  | some { mark := _, body } => ⟨⟨rfl, body.outline_faithful, trivial⟩, trivial⟩

end

theorem ModuleImport.outline_faithful (i : ModuleImport) : i.outline.Faithful :=
  ⟨rfl, i.path.outline_faithful, trivial⟩

theorem ModuleDescriptor.outline_faithful (d : ModuleDescriptor) : d.outline.Faithful :=
  ⟨rfl, d.path.outline_faithful, allFaithful_map ModuleImport.outline_faithful⟩

theorem ImportElement.outline_faithful (e : ImportElement) : e.outline.Faithful :=
  ⟨rfl, (outlineOption_faithful (Name.outline_faithful _)).append
    ⟨e.name.outline_faithful _, trivial⟩⟩

theorem Import.outline_faithful (i : Import) : i.outline.Faithful :=
  ⟨rfl, i.path.outline_faithful, allFaithful_map ImportElement.outline_faithful⟩

/-- The outline of a unit is faithful. -/
theorem CompilationUnit.outline_faithful (u : CompilationUnit) : u.outline.Faithful :=
  ⟨rfl, ((outlineOption_faithful ModuleDescriptor.outline_faithful).append
    (allFaithful_map Import.outline_faithful)).append (outlineStmts_faithful "body" u.body)⟩

/-! ## Parts -/

/-- The nodes directly below a node. -/
def Node.parts (n : Node) : List Node :=
  n.outline.children.map Outline.node

/-- A node stands in a unit. -/
def CompilationUnit.Has (u : CompilationUnit) (n : Node) : Prop :=
  n ∈ u.outline.nodes

/-- A part of a node of a unit is a node of the unit. -/
theorem CompilationUnit.Has.part {u : CompilationUnit} {n n' : Node} (h : u.Has n)
    (hn' : n' ∈ n.parts) : u.Has n' := by
  obtain ⟨c, hc, rfl⟩ := List.mem_map.mp hn'
  have hroot : c.node ∈ c.nodes := by
    rw [c.nodes_eq]
    exact List.mem_cons_self
  exact nodes_of_mem hc hroot u.outline u.outline_faithful h

/-- A tree that has a node has its parts. -/
theorem CompilationUnit.Has.parts {u : CompilationUnit} {n : Node} (h : u.Has n) :
    ∀ p ∈ n.parts, u.Has p :=
  fun _ hp => h.part hp

/-- The node that stands in the place of a declaration's type. -/
def DeclaredType.node : DeclaredType → Node
  | .ref t => .type t
  | .inferred mark function => .inferredType mark function
  | .void mark => .voidType mark

/-- The node of what a condition tests. -/
def Operand.node : Operand → Node
  | .var g => .variable g.variable
  | .value x => .expr x

/-- The nodes of the body of a method. -/
def MethodBody.nodes : MethodBody → List Node
  | .absent => []
  | .block b => [.block b]
  | .computed x => [.expr x]

/-- The node of a list of arguments. -/
def Arguments.node : Arguments → Node
  | .positional args => .positionalArgs args
  | .named args => .namedArgs args

/-- The subscripts of an index. -/
def Subscript.exprs : Subscript → List Expr
  | .element index => [index]
  | .span lower upper => [lower, upper]
  | .tail lower => [lower]

section Roots

@[simp] theorem Name.node_outline (slot : Slot) (n : Name) :
    (n.outline slot).node = .name n := rfl

@[simp] theorem TypeRef.node_outline (slot : Slot) (t : TypeRef) :
    (t.outline slot).node = .type t := by
  cases t with
  | base b =>
    cases b
    rfl
  | union mark first more => rfl
  | optional mark inner => rfl

@[simp] theorem DeclaredType.node_outline (t : DeclaredType) : t.outline.node = t.node := by
  cases t with
  | ref t => exact t.node_outline _
  | inferred mark function => rfl
  | void mark => rfl

@[simp] theorem Expr.node_outline (slot : Slot) (x : Expr) : (x.outline slot).node = .expr x := by
  cases x <;> rfl

@[simp] theorem Arguments.node_outline (a : Arguments) : a.outline.node = a.node := by
  cases a with
  | positional args =>
    cases args
    rfl
  | named args =>
    cases args
    rfl

@[simp] theorem BaseType.node_outline (slot : Slot) (b : BaseType) :
    (b.outline slot).node = .type (.base b) := by
  cases b
  rfl

@[simp] theorem PositionalArgs.node_outline (slot : Slot) (a : PositionalArgs) :
    (a.outline slot).node = .positionalArgs a := by
  cases a
  rfl

@[simp] theorem TypeParameter.node_outline (p : TypeParameter) :
    p.outline.node = .typeParameter p := rfl

@[simp] theorem Parameter.node_outline (p : Parameter) : p.outline.node = .parameter p := rfl

@[simp] theorem ParameterList.node_outline (l : ParameterList) :
    l.outline.node = .parameterList l := rfl

@[simp] theorem ExtendedType.node_outline (e : ExtendedType) :
    e.outline.node = .extendedType e := rfl

@[simp] theorem Block.node_outline (b : Block) : b.outline.node = .block b := by
  cases b
  rfl

@[simp] theorem Variable.node_outline (label : String) (v : Variable) :
    (v.outline label).node = .variable v := rfl

@[simp] theorem Condition.node_outline (c : Condition) : c.outline.node = .condition c := rfl

@[simp] theorem Iteration.node_outline (i : Iteration) : i.outline.node = .iteration i := rfl

@[simp] theorem Operand.node_outline (o : Operand) : o.outline.node = o.node := by
  cases o with
  | var g => rfl
  | value x => exact x.node_outline _

@[simp] theorem Stmt.node_outline (slot : Slot) (s : Stmt) : (s.outline slot).node = .stmt s := by
  cases s with
  | classDecl d | interfaceDecl d | method d | getter d | setter d | ifElse d =>
    cases d
    rfl
  | _ => rfl

/-- The node of an optional child. -/
@[simp] theorem map_node_outlineOption {α : Type} (f : α → Outline) (a : Option α) :
    (outlineOption f a).map Outline.node = a.toList.map fun a => (f a).node := by
  cases a <;> rfl

@[simp] theorem map_node_outlineTypes (label : String) (ts : List TypeRef) :
    (outlineTypes label ts).map Outline.node = ts.map .type := by
  induction ts with
  | nil => rfl
  | cons t ts ih => simp [outlineTypes, ih]

@[simp] theorem map_node_outlineExprs (label : String) (xs : List Expr) :
    (outlineExprs label xs).map Outline.node = xs.map .expr := by
  induction xs with
  | nil => rfl
  | cons x xs ih => simp [outlineExprs, ih]

@[simp] theorem map_node_outlineNamed (as : List NamedArg) :
    (outlineNamed as).map Outline.node = as.map .namedArg := by
  induction as with
  | nil => rfl
  | cons a as ih =>
    cases a
    simp [outlineNamed, ih, Outline.node]

@[simp] theorem map_node_outlineSequenced (a : Option SequencedArg) :
    (outlineSequenced a).map Outline.node = a.toList.map .sequencedArg := by
  obtain _ | ⟨_, _⟩ := a <;> rfl

@[simp] theorem Subscript.map_node_outline (s : Subscript) :
    s.outline.map Outline.node = s.exprs.map .expr := by
  cases s <;> simp [Subscript.outline, Subscript.exprs]

@[simp] theorem map_node_outlineStmts (label : String) (ss : List Stmt) :
    (outlineStmts label ss).map Outline.node = ss.map .stmt := by
  induction ss with
  | nil => rfl
  | cons s ss ih => simp [outlineStmts, ih]

@[simp] theorem MethodBody.map_node_outline (b : MethodBody) :
    b.outline.map Outline.node = b.nodes := by
  cases b with
  | absent => rfl
  | block b => simp [MethodBody.outline, MethodBody.nodes]
  | computed x => simp [MethodBody.outline, MethodBody.nodes]

@[simp] theorem map_node_outlineElse (c : Option ElseClause) :
    (outlineElse c).map Outline.node = c.toList.map .elseClause := by
  obtain _ | ⟨_ | _⟩ := c <;> rfl

@[simp] theorem map_node_outlineFail (c : Option FailClause) :
    (outlineFail c).map Outline.node = c.toList.map .failClause := by
  obtain _ | ⟨_, _⟩ := c <;> rfl

end Roots

/-! ## The tree below a node -/

/-- The outline of a node begins with the node. -/
theorem Node.node_outline (n : Node) : n.outline.node = n := by
  cases n with
  | type t => exact t.node_outline _
  | expr x => exact x.node_outline _
  | stmt s => exact s.node_outline _
  | block b => exact b.node_outline
  | positionalArgs a => exact a.node_outline _
  | inferredType _ _ | voidType _ => rfl
  | namedArgs a | namedArg a | sequencedArg a | ifClause a | whileClause a | forClause a | failClause a =>
    cases a
    rfl
  | elseClause c => cases c <;> rfl
  | _ => rfl

/-- The outline of any node is faithful: what stands in it has the outline that it has on its own. -/
theorem Node.outline_faithful (n : Node) : n.outline.Faithful := by
  cases n with
  | unit u => exact u.outline_faithful
  | moduleDescriptor d => exact d.outline_faithful
  | moduleImport i => exact i.outline_faithful
  | «import» i => exact i.outline_faithful
  | importElement e => exact e.outline_faithful
  | path p => exact p.outline_faithful
  | name n => exact n.outline_faithful _
  | parameter p => exact p.outline_faithful
  | parameterList l => exact l.outline_faithful
  | typeParameter p => exact p.outline_faithful
  | extendedType e => exact e.outline_faithful
  | «variable» v => exact v.outline_faithful _
  | type t => exact t.outline_faithful _
  | inferredType mark function => exact (DeclaredType.inferred mark function).outline_faithful
  | voidType mark => exact (DeclaredType.void mark).outline_faithful
  | block b => exact b.outline_faithful
  | stmt s => exact s.outline_faithful _
  | ifClause c => exact c.outline_faithful
  | elseClause c =>
    cases c with
    | block mark b => exact (outlineElse_faithful (some (.block mark b))).1
    | ifElse mark s => exact (outlineElse_faithful (some (.ifElse mark s))).1
  | whileClause c => exact c.outline_faithful
  | forClause c => exact c.outline_faithful
  | failClause c =>
    cases c with
    | mk mark body => exact (outlineFail_faithful (some ⟨mark, body⟩)).1
  | condition c => exact c.outline_faithful
  | iteration i => exact i.outline_faithful
  | expr x => exact x.outline_faithful _
  | positionalArgs a => exact a.outline_faithful _
  | namedArgs a => exact a.outline_faithful
  | namedArg a =>
    cases a with
    | mk mark name value => exact (outlineNamed_faithful [⟨mark, name, value⟩]).1
  | sequencedArg a =>
    cases a with
    | mk mark values => exact (outlineSequenced_faithful (some ⟨mark, values⟩)).1

/-- A faithful outline has the nodes that the outline of its root has. -/
theorem Outline.Faithful.nodes_eq {o : Outline} (h : o.Faithful) : o.nodes = o.node.outline.nodes := by
  rw [Outline.nodes_eq o, Outline.nodes_eq o.node.outline, o.node.node_outline]
  obtain ⟨_, _, _, _⟩ := o
  rw [show (Outline.mk _ _ _ _).children = _ from h.1]
  rfl

mutual

/-- What the parts of a node inherit from it, all nodes below it inherit. -/
theorem Outline.forall_nodes {P : Node → Prop} (inherit : ∀ n, P n → ∀ p ∈ n.parts, P p) :
    (o : Outline) → o.Faithful → P o.node → ∀ n ∈ o.nodes, P n
  | .mk slot node attributes children, ⟨heq, hall⟩, h => by
    rw [nodes_mk]
    refine List.forall_mem_cons.mpr ⟨h, forall_nodes_all inherit children hall fun o ho => ?_⟩
    refine inherit node h o.node (List.mem_map.mpr ⟨o, ?_, rfl⟩)
    rw [← heq]
    exact ho

/-- A property that a node hands down to its parts holds of all nodes below. -/
theorem Outline.forall_nodes_all {P : Node → Prop} (inherit : ∀ n, P n → ∀ p ∈ n.parts, P p) :
    (os : List Outline) → AllFaithful os → (∀ o ∈ os, P o.node) → ∀ n ∈ os.flatMap nodes, P n
  | [], _, _ => by simp
  | o :: os, ⟨ho, hos⟩, h => by
    rw [List.flatMap_cons]
    exact List.forall_mem_append.mpr
      ⟨forall_nodes inherit o ho (h o List.mem_cons_self),
        forall_nodes_all inherit os hos fun o' ho' => h o' (List.mem_cons_of_mem o ho')⟩

end

/-- All nodes of the tree below a node, the node first. -/
def Node.all (n : Node) : List Node :=
  n.outline.nodes

/-- The nodes below a node are the node and those below its parts. -/
theorem Node.all_eq (n : Node) : n.all = n :: n.parts.flatMap Node.all := by
  rw [Node.all, Outline.nodes_eq, n.node_outline, Node.parts, List.flatMap_map]
  refine congrArg _ (List.flatMap_congr fun o ho => ?_)
  have hall : AllFaithful n.outline.children := by
    have h := n.outline_faithful
    cases hn : n.outline
    rw [hn] at h
    exact h.2
  exact (allFaithful_iff.mp hall o ho).nodes_eq

theorem Node.mem_all (n : Node) : n ∈ n.all := by
  rw [n.all_eq]
  exact List.mem_cons_self

/-- The nodes below a part of a node are below the node. -/
theorem Node.all_of_part {n p m : Node} (hp : p ∈ n.parts) (hm : m ∈ p.all) : m ∈ n.all := by
  rw [n.all_eq]
  exact List.mem_cons_of_mem _ (List.mem_flatMap.mpr ⟨p, hp, hm⟩)

/-- A property that nodes hand down to their parts holds of all nodes below one that has it. -/
theorem Node.forall_all {P : Node → Prop} {n : Node} (h : P n)
    (inherit : ∀ n, P n → ∀ p ∈ n.parts, P p) : ∀ m ∈ n.all, P m :=
  n.outline.forall_nodes inherit n.outline_faithful (n.node_outline.symm ▸ h)

/-! ## What stands directly below a node -/

section Parts

-- Each proof below lays out a node, so what an outline is made of is unfolded throughout.
attribute [local simp] Outline.node_mk Node.parts Node.outline Outline.children TypeRef.outline
  BaseType.outline Expr.outline PositionalArgs.outline NamedArgs.outline outlineNamed outlineSequenced
  ParameterList.outline Parameter.outline ExtendedType.outline Variable.outline Condition.outline
  Iteration.outline Stmt.outline Block.outline ClassDecl.outline InterfaceDecl.outline MethodDecl.outline
  AttributeDecl.outline GetterDecl.outline SetterDecl.outline IfStmt.outline IfClause.outline
  WhileClause.outline ForClause.outline outlineElse outlineFail CompilationUnit.outline
  ModuleDescriptor.outline Import.outline

namespace Node

/-- What stands directly below a type that is a name. -/
theorem parts_base (b : BaseType) :
    (Node.type (.base b)).parts = .name b.name :: b.args.map .type := by
  cases b
  simp

theorem parts_union (mark : Mark) (first : TypeRef) (more : List TypeRef) :
    (Node.type (.union mark first more)).parts = .type first :: more.map .type := by
  simp

theorem parts_optional (mark : Mark) (inner : TypeRef) :
    (Node.type (.optional mark inner)).parts = [.type inner] := by
  simp

/-- What stands directly below a class, in the order in which it is written but for the annotations. -/
theorem parts_classDecl (d : ClassDecl) :
    (Node.stmt (.classDecl d)).parts =
      Node.name d.name :: d.typeParams.map Node.typeParameter ++ Node.parameterList d.params
        :: d.extended.toList.map Node.extendedType ++ d.satisfied.map Node.type ++ [Node.block d.body] := by
  cases d
  simp [Function.comp_def]

theorem parts_interfaceDecl (d : InterfaceDecl) :
    (Node.stmt (.interfaceDecl d)).parts =
      Node.name d.name :: d.typeParams.map Node.typeParameter ++ d.satisfied.map Node.type
        ++ [Node.block d.body] := by
  cases d
  simp [Function.comp_def]

theorem parts_method (d : MethodDecl) :
    (Node.stmt (.method d)).parts =
      d.type.node :: Node.name d.name :: d.typeParams.map Node.typeParameter ++ Node.parameterList d.params
        :: d.body.nodes := by
  cases d
  simp [Function.comp_def]

theorem parts_attribute (d : AttributeDecl) :
    (Node.stmt (.attribute d)).parts =
      d.type.node :: .name d.name :: d.init.expr?.toList.map .expr := by
  simp

theorem parts_getter (d : GetterDecl) :
    (Node.stmt (.getter d)).parts = [d.type.node, .name d.name, .block d.body] := by
  cases d
  simp

theorem parts_variable (v : Variable) :
    (Node.variable v).parts = v.type.node :: .name v.name :: v.specifier.toList.map .expr := by
  simp

theorem parts_parameter (p : Parameter) :
    (Node.parameter p).parts = .type p.type :: .name p.name :: p.default.toList.map .expr := by
  simp

theorem parts_extendedType (e : ExtendedType) :
    (Node.extendedType e).parts = [.type (.base e.type), .positionalArgs e.args] := by
  simp

theorem parts_setter (d : SetterDecl) :
    (Node.stmt (.setter d)).parts = [.name d.name, .block d.body] := by
  cases d
  simp

theorem parts_typeParameter (p : TypeParameter) :
    (Node.typeParameter p).parts = [.name p.name] := rfl

theorem parts_parameterList (l : ParameterList) :
    (Node.parameterList l).parts = l.params.map .parameter := by
  simp [Function.comp_def]

theorem parts_block (b : Block) : (Node.block b).parts = b.stmts.map .stmt := by
  cases b
  simp

theorem parts_exprStmt (mark : Mark) (x : Expr) :
    (Node.stmt (.expr mark x)).parts = [.expr x] := by
  simp

theorem parts_return (mark : Mark) (x : Option Expr) :
    (Node.stmt (.return mark x)).parts = x.toList.map .expr := by
  simp

theorem parts_ifElse (s : IfStmt) :
    (Node.stmt (.ifElse s)).parts = .ifClause s.clause :: s.alternative.toList.map .elseClause := by
  obtain ⟨_, ⟨_, _, _⟩, _⟩ := s
  simp

theorem parts_while (mark : Mark) (c : WhileClause) :
    (Node.stmt (.while mark c)).parts = [.whileClause c] := by
  cases c
  rfl

theorem parts_for (mark : Mark) (c : ForClause) (fail : Option FailClause) :
    (Node.stmt (.for mark c fail)).parts = .forClause c :: fail.toList.map .failClause := by
  cases c
  simp

theorem parts_ifClause (c : IfClause) :
    (Node.ifClause c).parts = [.condition c.cond, .block c.body] := by
  cases c
  simp

theorem parts_whileClause (c : WhileClause) :
    (Node.whileClause c).parts = [.condition c.cond, .block c.body] := by
  cases c
  simp

theorem parts_forClause (c : ForClause) :
    (Node.forClause c).parts = [.iteration c.iteration, .block c.body] := by
  cases c
  simp

theorem parts_failClause (c : FailClause) : (Node.failClause c).parts = [.block c.body] := by
  cases c
  simp

theorem parts_else (mark : Mark) (b : Block) :
    (Node.elseClause (.block mark b)).parts = [.block b] := by
  simp

theorem parts_elseIf (mark : Mark) (s : IfStmt) :
    (Node.elseClause (.ifElse mark s)).parts = [.stmt (.ifElse s)] := by
  cases s
  rfl

/-- What stands directly below a unit. -/
theorem parts_unit (u : CompilationUnit) :
    (Node.unit u).parts =
      u.module.toList.map Node.moduleDescriptor ++ u.imports.map Node.import ++ u.body.map Node.stmt := by
  simp [Function.comp_def]

end Node

/-- The nodes directly below a condition. -/
theorem Node.parts_condition (c : Condition) :
    (Node.condition c).parts = match c with
      | .boolean _ x => [.expr x]
      | .exists _ operand => [operand.node]
      | .nonempty _ operand => [operand.node]
      | .is _ narrowed operand => [.type narrowed, operand.node] := by
  cases c <;> simp

/-- The nodes directly below an iteration. -/
theorem Node.parts_iteration (i : Iteration) :
    (Node.iteration i).parts = match i with
      | .values _ var source => [.variable var.variable, .expr source]
      | .entries _ key value source =>
        [.variable key.variable, .variable value.variable, .expr source] := by
  cases i <;> simp

/-- The nodes directly below an expression. -/
theorem Node.parts_expr (x : Expr) :
    (Node.expr x).parts = match x with
      | .reference _ _ called typeArgs => .name called :: typeArgs.map .type
      | .qualified _ primary _ _ called typeArgs => .expr primary :: .name called :: typeArgs.map .type
      | .invocation _ primary args => [.expr primary, args.node]
      | .index _ primary _ subscript => .expr primary :: subscript.exprs.map .expr
      | .literal .. => []
      | .self .. => []
      | .sequence _ elems => elems.map .expr
      | .paren _ x => [.expr x]
      | .binary _ _ x y => [.expr x, .expr y]
      | .prefixed _ _ x => [.expr x]
      | .postfixed _ _ x => [.expr x]
      | .isTest _ x tested => [.expr x, .type tested]
      | .existsTest _ x => [.expr x]
      | .nonemptyTest _ x => [.expr x] := by
  cases x <;> simp

theorem Node.parts_positionalArgs (a : PositionalArgs) :
    (Node.positionalArgs a).parts = a.args.map .expr := by
  cases a
  simp

theorem Node.parts_namedArgs (a : NamedArgs) :
    (Node.namedArgs a).parts = a.args.map Node.namedArg ++ a.sequenced.toList.map Node.sequencedArg := by
  cases a
  simp

theorem Node.parts_namedArg (a : NamedArg) : (Node.namedArg a).parts = [.name a.name, .expr a.value] := by
  cases a
  simp

theorem Node.parts_sequencedArg (a : SequencedArg) :
    (Node.sequencedArg a).parts = a.values.map .expr := by
  cases a
  simp

end Parts

end Ceylon.Syntax
