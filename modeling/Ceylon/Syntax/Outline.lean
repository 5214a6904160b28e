import Ceylon.Syntax.Tree

/-!
# A uniform view of syntax trees

Many questions about a tree do not depend on what its nodes are: which nodes there are, in which order,
under which parent, and which of them a place in the text belongs to.  An `Outline` answers them.  It is
a tree of one node type in which every node keeps the typed node it stands for (`Node`), the slot of the
parent it fills, the attributes that are not nodes themselves, and its children in source order.
-/

namespace Ceylon.Syntax

/-- A node of any type. -/
inductive Node where
  | unit (u : CompilationUnit)
  | moduleDescriptor (d : ModuleDescriptor)
  | moduleImport (i : ModuleImport)
  | import (i : Import)
  | importElement (e : ImportElement)
  | path (p : Path)
  | name (n : Name)
  | parameter (p : Parameter)
  | parameterList (l : ParameterList)
  | typeParameter (p : TypeParameter)
  | extendedType (e : ExtendedType)
  | variable (v : Variable)
  | type (t : TypeRef)
  | inferredType (mark : Mark) (function : Bool)
  | voidType (mark : Mark)
  | block (b : Block)
  | stmt (s : Stmt)
  | ifClause (c : IfClause)
  | elseClause (c : ElseClause)
  | whileClause (c : WhileClause)
  | forClause (c : ForClause)
  | failClause (c : FailClause)
  | condition (c : Condition)
  | iteration (i : Iteration)
  | expr (x : Expr)
  | positionalArgs (a : PositionalArgs)
  | namedArgs (a : NamedArgs)
  | namedArg (a : NamedArg)
  | sequencedArg (a : SequencedArg)
deriving Inhabited

namespace Node

/-- The mark of a node. -/
def mark : Node → Mark
  | .unit u => u.mark
  | .moduleDescriptor d => d.mark
  | .moduleImport i => i.mark
  | .import i => i.mark
  | .importElement e => e.mark
  | .path p => p.mark
  | .name n => n.mark
  | .parameter p => p.mark
  | .parameterList l => l.mark
  | .typeParameter p => p.mark
  | .extendedType e => e.mark
  | .variable v => v.mark
  | .type t => t.mark
  | .inferredType mark _ => mark
  | .voidType mark => mark
  | .block b => b.mark
  | .stmt s => s.mark
  | .ifClause c => c.mark
  | .elseClause c => c.mark
  | .whileClause c => c.mark
  | .forClause c => c.mark
  | .failClause c => c.mark
  | .condition c => c.mark
  | .iteration i => i.mark
  | .expr x => x.mark
  | .positionalArgs a => a.mark
  | .namedArgs a => a.mark
  | .namedArg a => a.mark
  | .sequencedArg a => a.mark

end Node

/-- The word for the kind of an expression. -/
def Expr.kind : Expr → String
  | .reference _ .member .. => "BaseMemberExpr"
  | .reference _ .type .. => "BaseTypeExpr"
  | .qualified _ _ _ .member .. => "QualifiedMemberExpr"
  | .qualified _ _ _ .type .. => "QualifiedTypeExpr"
  | .invocation .. => "InvocationExpr"
  | .index .. => "IndexExpr"
  | .literal _ .string _ => "StringLit"
  | .literal _ .natural _ => "NaturalLit"
  | .literal _ .float _ => "FloatLit"
  | .literal _ .character _ => "CharLit"
  | .literal _ .quoted _ => "QuotedLit"
  | .self _ .this => "ThisExpr"
  | .self _ .outer => "OuterExpr"
  | .self _ .super => "SuperExpr"
  | .sequence .. => "SequenceExpr"
  | .paren .. => "ParenExpr"
  | .binary .. => "BinaryExpr"
  | .prefixed .. => "PrefixExpr"
  | .postfixed .. => "PostfixExpr"
  | .isTest .. => "IsExpr"
  | .existsTest .. => "ExistsExpr"
  | .nonemptyTest .. => "NonemptyExpr"

/-- The word for the kind of a statement. -/
def Stmt.kind : Stmt → String
  | .classDecl _ => "ClassDecl"
  | .interfaceDecl _ => "InterfaceDecl"
  | .method _ => "MethodDecl"
  | .attribute _ => "AttributeDecl"
  | .getter _ => "GetterDecl"
  | .setter _ => "SetterDecl"
  | .expr .. => "ExprStmt"
  | .return .. => "Return"
  | .break _ => "Break"
  | .continue _ => "Continue"
  | .ifElse _ => "IfStmt"
  | .while .. => "WhileStmt"
  | .for .. => "ForStmt"

/-- The word for the kind of a node. -/
def Node.kind : Node → String
  | .unit _ => "CompilationUnit"
  | .moduleDescriptor _ => "ModuleDescriptor"
  | .moduleImport _ => "ModuleImport"
  | .import _ => "Import"
  | .importElement _ => "ImportElement"
  | .path _ => "Path"
  | .name _ => "Ident"
  | .parameter _ => "Parameter"
  | .parameterList _ => "ParameterList"
  | .typeParameter _ => "TypeParameter"
  | .extendedType _ => "ExtendedType"
  | .variable _ => "Variable"
  | .type (.base _) => "BaseType"
  | .type (.union ..) => "UnionType"
  | .type (.optional ..) => "OptionalType"
  | .inferredType .. => "InferType"
  | .voidType _ => "VoidType"
  | .block _ => "Block"
  | .stmt s => s.kind
  | .ifClause _ => "IfClause"
  | .elseClause _ => "ElseClause"
  | .whileClause _ => "WhileClause"
  | .forClause _ => "ForClause"
  | .failClause _ => "FailClause"
  | .condition (.boolean ..) => "BooleanCondition"
  | .condition (.exists ..) => "ExistsCondition"
  | .condition (.nonempty ..) => "NonemptyCondition"
  | .condition (.is ..) => "IsCondition"
  | .iteration (.values ..) => "ValueIterator"
  | .iteration (.entries ..) => "KeyValueIterator"
  | .expr x => x.kind
  | .positionalArgs _ => "PositionalArgs"
  | .namedArgs _ => "NamedArgs"
  | .namedArg _ => "NamedArg"
  | .sequencedArg _ => "SequencedArg"

/-- The name that a node declares. -/
def Node.declaredName? : Node → Option Name
  | .stmt (.classDecl d) => some d.name
  | .stmt (.interfaceDecl d) => some d.name
  | .stmt (.method d) => some d.name
  | .stmt (.attribute d) => some d.name
  | .stmt (.getter d) => some d.name
  | .stmt (.setter d) => some d.name
  | .parameter p => some p.name
  | .typeParameter p => some p.name
  | .variable v => some v.name
  | _ => none

/-- The place of a node, as line and column; a question mark if it has none. -/
def Node.placeText : Node → String
  | .unit u => if u.placed then u.mark.pos.text else "?"
  | n => n.mark.pos.text

/-- A node as messages name it: its kind, then its place. -/
def Node.text (n : Node) : String :=
  n.kind ++ "@" ++ n.placeText

/-- An identifier with its place. -/
def Name.placed (n : Name) : String :=
  n.text ++ "@" ++ n.mark.pos.text

/-- The part of its parent that a node fills. -/
structure Slot where
  label : String
  /-- Whether the part is a list, of which the node is one element. -/
  listed : Bool := false
deriving DecidableEq, Repr, Inhabited

/-- A property of a node that is not a node itself. -/
inductive Attribute where
  | text (s : String)
  | flag (on : Bool)
  | words (ws : List String)
deriving DecidableEq, Repr, Inhabited

/-- A node with its slot, its attributes and its children in source order. -/
inductive Outline where
  | mk (slot : Slot) (node : Node) (attributes : List (String × Attribute))
      (children : List Outline)
deriving Inhabited

namespace Outline

/-- The slot the node fills. -/
def slot : Outline → Slot
  | .mk slot .. => slot

/-- The typed node. -/
def node : Outline → Node
  | .mk _ node .. => node

/-- The attributes of the node. -/
def attributes : Outline → List (String × Attribute)
  | .mk _ _ attributes _ => attributes

/-- The children in source order. -/
def children : Outline → List Outline
  | .mk _ _ _ children => children

end Outline

/-! ## Building outlines -/

/-- The outline of an optional part, as the list of children it contributes. -/
def outlineOption {α : Type} (f : α → Outline) (a : Option α) : List Outline :=
  (a.map f).toList

def Name.outline (slot : Slot) (n : Name) : Outline :=
  .mk slot (.name n) [] []

def Path.outline (p : Path) : Outline :=
  .mk ⟨"path", false⟩ (.path p) [] (p.segments.map (Name.outline ⟨"segments", true⟩))

mutual

def TypeRef.outline (slot : Slot) : TypeRef → Outline
  | .base b => b.outline slot
  | .union mark first more =>
    .mk slot (.type (.union mark first more)) []
      (first.outline ⟨"cases", true⟩ :: outlineTypes "cases" more)
  | .optional mark inner =>
    .mk slot (.type (.optional mark inner)) [] [inner.outline ⟨"inner", false⟩]

def BaseType.outline (slot : Slot) : BaseType → Outline
  | { mark, name, args } =>
    .mk slot (.type (.base { mark, name, args })) []
      (name.outline ⟨"name", false⟩ :: outlineTypes "args" args)

def outlineTypes (label : String) : List TypeRef → List Outline
  | [] => []
  | t :: ts => t.outline ⟨label, true⟩ :: outlineTypes label ts

end

def DeclaredType.outline (t : DeclaredType) : Outline :=
  let slot : Slot := ⟨"type", false⟩
  match t with
  | .ref t => t.outline slot
  | .inferred mark function =>
    .mk slot (.inferredType mark function) [("function", .flag function)] []
  | .void mark => .mk slot (.voidType mark) [] []

mutual

def Expr.outline (slot : Slot) : Expr → Outline
  | .reference mark sort name typeArgs =>
    .mk slot (.expr (.reference mark sort name typeArgs)) []
      (name.outline ⟨"name", false⟩ :: outlineTypes "typeArgs" typeArgs)
  | .qualified mark primary op sort name typeArgs =>
    .mk slot (.expr (.qualified mark primary op sort name typeArgs)) [("op", .text op.text)]
      (primary.outline ⟨"primary", false⟩ :: name.outline ⟨"name", false⟩
        :: outlineTypes "typeArgs" typeArgs)
  | .invocation mark primary args =>
    .mk slot (.expr (.invocation mark primary args)) []
      [primary.outline ⟨"primary", false⟩, args.outline]
  | .index mark primary safe subscript =>
    let range := match subscript with
      | .element _ => false
      | _ => true
    .mk slot (.expr (.index mark primary safe subscript))
      [("safe", .flag safe), ("range", .flag range)]
      (primary.outline ⟨"primary", false⟩ :: subscript.outline)
  | .literal mark kind text => .mk slot (.expr (.literal mark kind text)) [("text", .text text)] []
  | .self mark kind => .mk slot (.expr (.self mark kind)) [] []
  | .sequence mark elems =>
    .mk slot (.expr (.sequence mark elems)) [] (outlineExprs "elems" elems)
  | .paren mark x => .mk slot (.expr (.paren mark x)) [] [x.outline ⟨"x", false⟩]
  | .binary mark op x y =>
    .mk slot (.expr (.binary mark op x y)) [("op", .text op.kind.text)]
      [x.outline ⟨"x", false⟩, y.outline ⟨"y", false⟩]
  | .prefixed mark op x =>
    .mk slot (.expr (.prefixed mark op x)) [("op", .text op.kind.text)] [x.outline ⟨"x", false⟩]
  | .postfixed mark op x =>
    .mk slot (.expr (.postfixed mark op x)) [("op", .text op.text)] [x.outline ⟨"x", false⟩]
  | .isTest mark x type =>
    .mk slot (.expr (.isTest mark x type)) []
      [x.outline ⟨"x", false⟩, type.outline ⟨"type", false⟩]
  | .existsTest mark x => .mk slot (.expr (.existsTest mark x)) [] [x.outline ⟨"x", false⟩]
  | .nonemptyTest mark x => .mk slot (.expr (.nonemptyTest mark x)) [] [x.outline ⟨"x", false⟩]

def outlineExprs (label : String) : List Expr → List Outline
  | [] => []
  | x :: xs => x.outline ⟨label, true⟩ :: outlineExprs label xs

def Arguments.outline : Arguments → Outline
  | .positional args => args.outline ⟨"positional", false⟩
  | .named args => args.outline

def PositionalArgs.outline (slot : Slot) : PositionalArgs → Outline
  | { mark, args } => .mk slot (.positionalArgs { mark, args }) [] (outlineExprs "args" args)

def NamedArgs.outline : NamedArgs → Outline
  | { mark, args, sequenced } =>
    .mk ⟨"named", false⟩ (.namedArgs { mark, args, sequenced }) []
      (outlineNamed args ++ outlineSequenced sequenced)

def outlineNamed : List NamedArg → List Outline
  | [] => []
  | { mark, name, value } :: as =>
    .mk ⟨"args", true⟩ (.namedArg { mark, name, value }) []
      [name.outline ⟨"name", false⟩, value.outline ⟨"x", false⟩] :: outlineNamed as

def outlineSequenced : Option SequencedArg → List Outline
  | none => []
  | some { mark, values } =>
    [.mk ⟨"sequenced", false⟩ (.sequencedArg { mark, values }) [] (outlineExprs "exprs" values)]

def Subscript.outline : Subscript → List Outline
  | .element index => [index.outline ⟨"index", false⟩]
  | .span lower upper => [lower.outline ⟨"index", false⟩, upper.outline ⟨"upper", false⟩]
  | .tail lower => [lower.outline ⟨"index", false⟩]

end

/-- The attribute that lists the annotations that are set. -/
def Annotations.attribute (a : Annotations) : String × Attribute :=
  ("annotations", .words a.words)

def TypeParameter.outline (p : TypeParameter) : Outline :=
  let variance := match p.variance with
    | .invariant => []
    | v => [("variance", Attribute.text v.text)]
  .mk ⟨"typeParams", true⟩ (.typeParameter p) variance [p.name.outline ⟨"name", false⟩]

def Parameter.outline (p : Parameter) : Outline :=
  .mk ⟨"params", true⟩ (.parameter p)
    [p.annotations.attribute, ("sequenced", .flag p.sequenced)]
    (p.type.outline ⟨"type", false⟩ :: p.name.outline ⟨"name", false⟩
      :: outlineOption (Expr.outline ⟨"default", false⟩) p.default)

def ParameterList.outline (l : ParameterList) : Outline :=
  .mk ⟨"params", false⟩ (.parameterList l) [] (l.params.map Parameter.outline)

def ExtendedType.outline (e : ExtendedType) : Outline :=
  .mk ⟨"extends", false⟩ (.extendedType e) []
    [e.type.outline ⟨"type", false⟩, e.args.outline ⟨"args", false⟩]

def Variable.outline (label : String) (v : Variable) : Outline :=
  .mk ⟨label, false⟩ (.variable v) []
    (v.type.outline :: v.name.outline ⟨"name", false⟩
      :: outlineOption (Expr.outline ⟨"specifier", false⟩) v.specifier)

def Operand.outline : Operand → Outline
  | .var g => g.variable.outline "var"
  | .value x => x.outline ⟨"x", false⟩

def Condition.outline (c : Condition) : Outline :=
  .mk ⟨"cond", false⟩ (.condition c) [] <| match c with
    | .boolean _ x => [x.outline ⟨"x", false⟩]
    | .exists _ operand => [operand.outline]
    | .nonempty _ operand => [operand.outline]
    | .is _ type operand => [type.outline ⟨"type", false⟩, operand.outline]

def Iteration.outline (i : Iteration) : Outline :=
  .mk ⟨"iter", false⟩ (.iteration i) [] <| match i with
    | .values _ var source => [var.variable.outline "var", source.outline ⟨"source", false⟩]
    | .entries _ key value source =>
      [key.variable.outline "key", value.variable.outline "value",
        source.outline ⟨"source", false⟩]

def AttributeDecl.outline (slot : Slot) (d : AttributeDecl) : Outline :=
  let assigned := match d.init with
    | .assigned _ => true
    | _ => false
  .mk slot (.stmt (.attribute d)) [d.annotations.attribute, ("assign", .flag assigned)]
    (d.type.outline :: d.name.outline ⟨"name", false⟩
      :: outlineOption (Expr.outline ⟨"specifier", false⟩) d.init.expr?)

mutual

def Stmt.outline (slot : Slot) : Stmt → Outline
  | .classDecl d => d.outline slot
  | .interfaceDecl d => d.outline slot
  | .method d => d.outline slot
  | .attribute d => d.outline slot
  | .getter d => d.outline slot
  | .setter d => d.outline slot
  | .expr mark x => .mk slot (.stmt (.expr mark x)) [] [x.outline ⟨"x", false⟩]
  | .return mark x =>
    .mk slot (.stmt (.return mark x)) [] (outlineOption (Expr.outline ⟨"x", false⟩) x)
  | .break mark => .mk slot (.stmt (.break mark)) [] []
  | .continue mark => .mk slot (.stmt (.continue mark)) [] []
  | .ifElse s => s.outline slot
  | .while mark clause => .mk slot (.stmt (.while mark clause)) [] [clause.outline]
  | .for mark clause fail =>
    .mk slot (.stmt (.for mark clause fail)) [] (clause.outline :: outlineFail fail)

def outlineStmts (label : String) : List Stmt → List Outline
  | [] => []
  | s :: ss => s.outline ⟨label, true⟩ :: outlineStmts label ss

def Block.outline : Block → Outline
  | { mark, stmts, close } =>
    .mk ⟨"body", false⟩ (.block { mark, stmts, close }) [("end", .text ("@" ++ close.text))]
      (outlineStmts "stmts" stmts)

def ClassDecl.outline (slot : Slot) : ClassDecl → Outline
  | { mark, annotations, name, typeParams, params, extended, satisfied, body } =>
    .mk slot
      (.stmt (.classDecl
        { mark, annotations, name, typeParams, params, extended, satisfied, body }))
      [annotations.attribute]
      (name.outline ⟨"name", false⟩ :: typeParams.map TypeParameter.outline ++ params.outline
        :: outlineOption ExtendedType.outline extended ++ outlineTypes "satisfies" satisfied
        ++ [body.outline])

def InterfaceDecl.outline (slot : Slot) : InterfaceDecl → Outline
  | { mark, annotations, name, typeParams, satisfied, body } =>
    .mk slot (.stmt (.interfaceDecl { mark, annotations, name, typeParams, satisfied, body }))
      [annotations.attribute]
      (name.outline ⟨"name", false⟩ :: typeParams.map TypeParameter.outline
        ++ outlineTypes "satisfies" satisfied ++ [body.outline])

def MethodDecl.outline (slot : Slot) : MethodDecl → Outline
  | { mark, annotations, type, name, typeParams, params, body } =>
    .mk slot (.stmt (.method { mark, annotations, type, name, typeParams, params, body }))
      [annotations.attribute]
      (type.outline :: name.outline ⟨"name", false⟩ :: typeParams.map TypeParameter.outline
        ++ params.outline :: body.outline)

def MethodBody.outline : MethodBody → List Outline
  | .absent => []
  | .block b => [b.outline]
  | .computed x => [x.outline ⟨"specifier", false⟩]

def GetterDecl.outline (slot : Slot) : GetterDecl → Outline
  | { mark, annotations, type, name, body } =>
    .mk slot (.stmt (.getter { mark, annotations, type, name, body })) [annotations.attribute]
      [type.outline, name.outline ⟨"name", false⟩, body.outline]

def SetterDecl.outline (slot : Slot) : SetterDecl → Outline
  | { mark, annotations, name, body } =>
    .mk slot (.stmt (.setter { mark, annotations, name, body })) [annotations.attribute]
      [name.outline ⟨"name", false⟩, body.outline]

def IfStmt.outline (slot : Slot) : IfStmt → Outline
  | { mark, clause, alternative } =>
    .mk slot (.stmt (.ifElse { mark, clause, alternative })) []
      (clause.outline :: outlineElse alternative)

def IfClause.outline : IfClause → Outline
  | { mark, cond, body } =>
    .mk ⟨"if", false⟩ (.ifClause { mark, cond, body }) [] [cond.outline, body.outline]

def outlineElse : Option ElseClause → List Outline
  | none => []
  | some (.block mark b) =>
    [.mk ⟨"else", false⟩ (.elseClause (.block mark b)) [] [b.outline]]
  | some (.ifElse mark s) =>
    [.mk ⟨"else", false⟩ (.elseClause (.ifElse mark s)) [] [s.outline ⟨"if", false⟩]]

def WhileClause.outline : WhileClause → Outline
  | { mark, cond, body } =>
    .mk ⟨"clause", false⟩ (.whileClause { mark, cond, body }) [] [cond.outline, body.outline]

def ForClause.outline : ForClause → Outline
  | { mark, iteration, body } =>
    .mk ⟨"clause", false⟩ (.forClause { mark, iteration, body }) []
      [iteration.outline, body.outline]

def outlineFail : Option FailClause → List Outline
  | none => []
  | some { mark, body } =>
    [.mk ⟨"fail", false⟩ (.failClause { mark, body }) [] [body.outline]]

end

def ModuleImport.outline (i : ModuleImport) : Outline :=
  .mk ⟨"imports", true⟩ (.moduleImport i) [] [i.path.outline]

def ModuleDescriptor.outline (d : ModuleDescriptor) : Outline :=
  .mk ⟨"module", false⟩ (.moduleDescriptor d) []
    (d.path.outline :: d.imports.map ModuleImport.outline)

def ImportElement.outline (e : ImportElement) : Outline :=
  .mk ⟨"elements", true⟩ (.importElement e) []
    (outlineOption (Name.outline ⟨"alias", false⟩) e.newName ++ [e.name.outline ⟨"name", false⟩])

def Import.outline (i : Import) : Outline :=
  .mk ⟨"imports", true⟩ (.import i) [] (i.path.outline :: i.elements.map ImportElement.outline)

/-- The outline of a unit. -/
def CompilationUnit.outline (u : CompilationUnit) : Outline :=
  .mk ⟨"unit", false⟩ (.unit u)
    [("filename", .text u.source.name),
      ("comments", .words (u.comments.map fun t => t.text ++ "@" ++ t.pos.text))]
    (outlineOption ModuleDescriptor.outline u.module ++ u.imports.map Import.outline
      ++ outlineStmts "body" u.body)

/-! ## Walking outlines -/

/-- A node met on a walk, with its parent and its distance from the root. -/
structure Visit where
  depth : Nat
  parent : Option Node
  node : Node
deriving Inhabited

namespace Outline

mutual

/-- All nodes depth-first, parents before their children. -/
def visits (depth : Nat) (parent : Option Node) : Outline → List Visit
  | .mk _ node _ children => ⟨depth, parent, node⟩ :: visitsOf (depth + 1) node children

/-- The nodes under the children of `parent`. -/
def visitsOf (depth : Nat) (parent : Node) : List Outline → List Visit
  | [] => []
  | c :: cs => c.visits depth (some parent) ++ visitsOf depth parent cs

end

/-- The walk over a tree from its root. -/
def walk (o : Outline) : List Visit :=
  o.visits 0 none

/-- All nodes in the order of the walk. -/
def nodes (o : Outline) : List Node :=
  o.walk.map (·.node)

/-- All identifiers of a tree in source order. -/
def names (o : Outline) : List Name :=
  o.nodes.filterMap fun
    | .name n => some n
    | _ => none

/-- Whether the place `(line, col)` comes before `p`. -/
def precedes (line col : Int) (p : Pos) : Bool :=
  if line ≠ p.line then line < p.line else col < p.col

mutual

/-- The nodes from the root down to the innermost one that the place `(line, col)` belongs to.  A node
extends to the start of its next sibling, so at each level this is the last child that starts at or
before the place, as long as the children before it do. -/
def pathTo (line col : Int) : Outline → List Node
  | .mk _ node _ children => node :: pathIn line col children

/-- The path into the last of the leading children that start at or before the place. -/
def pathIn (line col : Int) : List Outline → List Node
  | [] => []
  | c :: cs =>
    if precedes line col c.node.mark.pos then []
    else match pathIn line col cs with
      | [] => c.pathTo line col
      | path => path

end

end Outline

end Ceylon.Syntax
