import Ceylon.Token.Basic

/-!
# Syntax trees

The syntax of a compilation unit, as typed trees.  Every node carries a `Mark`: the place of its first
token and a number that tells it apart from the other nodes of its unit (see
`Ceylon.Syntax.Numbering`).  Alternatives that the grammar keeps apart are constructors, so a tree
cannot be in a state that no source text has: a method has a block, an expression or no body at all, a
condition operand is a variable or an expression, an argument list is positional or named, and an
operator is one that the grammar has.
-/

namespace Ceylon.Syntax

/-- The place of a node's first token, and the node's number within its unit. -/
structure Mark where
  pos : Pos
  id : Nat := 0
deriving DecidableEq, Repr, Inhabited

/-- An identifier where it occurs. -/
structure Name where
  mark : Mark
  text : String
deriving DecidableEq, Repr, Inhabited

/-- A dotted path of package or module names. -/
structure Path where
  mark : Mark
  segments : List Name
deriving DecidableEq, Repr, Inhabited

/-- The names along a path. -/
def Path.names (p : Path) : List String :=
  p.segments.map (·.text)

/-- The path as it is written, with dots. -/
def Path.text (p : Path) : String :=
  ".".intercalate p.names

/-! ## Types -/

mutual

/-- A reference to a type. -/
inductive TypeRef where
  /-- A declared type with its arguments. -/
  | base (b : BaseType)
  /-- `A|B|C`, the first case and the others. -/
  | union (mark : Mark) (first : TypeRef) (more : List TypeRef)
  /-- `T?`. -/
  | optional (mark : Mark) (inner : TypeRef)

/-- The name of a declared type with the arguments given to it. -/
structure BaseType where
  mark : Mark
  name : Name
  args : List TypeRef

end

instance : Inhabited BaseType := ⟨⟨default, default, []⟩⟩

instance : Inhabited TypeRef := ⟨.base default⟩

/-- The mark of a type reference. -/
def TypeRef.mark : TypeRef → Mark
  | .base b => b.mark
  | .union mark .. => mark
  | .optional mark _ => mark

/-- What stands in the place of a declaration's type. -/
inductive DeclaredType where
  /-- A type that is written out. -/
  | ref (t : TypeRef)
  /-- `value`, or `function`: the type is inferred. -/
  | inferred (mark : Mark) (function : Bool)
  /-- `void`. -/
  | void (mark : Mark)
deriving Inhabited

namespace DeclaredType

/-- The mark of a declared type. -/
def mark : DeclaredType → Mark
  | .ref t => t.mark
  | .inferred mark _ => mark
  | .void mark => mark

/-- Whether the type is left to inference. -/
def isInferred : DeclaredType → Bool
  | .inferred .. => true
  | _ => false

/-- Whether the type is `void`. -/
def isVoid : DeclaredType → Bool
  | .void _ => true
  | _ => false

end DeclaredType

/-! ## Expressions -/

/-- How a member is selected. -/
inductive MemberOp where
  /-- `x.y`. -/
  | plain
  /-- `x?.y`. -/
  | safe
  /-- `x*.y`. -/
  | spread
deriving DecidableEq, Repr, Inhabited

/-- The spelling of a member operator. -/
def MemberOp.text : MemberOp → String
  | .plain => "."
  | .safe => "?."
  | .spread => "*."

/-- What a reference names, which its first letter tells. -/
inductive RefSort where
  | member
  | type
deriving DecidableEq, Repr, Inhabited

/-- The kinds of literals. -/
inductive LiteralKind where
  | string
  | natural
  | float
  | character
  | quoted
deriving DecidableEq, Repr, Inhabited

/-- The reserved references to instances. -/
inductive SelfKind where
  | this
  | outer
  | super
deriving DecidableEq, Repr, Inhabited

/-- A binary operator, assignment and the default operator among them. -/
structure BinaryOp where
  kind : Token.Kind
  isBinary : kind.isBinary

/-- The binary operator of a kind. -/
def BinaryOp.of (kind : Token.Kind) (h : kind.isBinary := by decide) : BinaryOp :=
  ⟨kind, h⟩

/-- The assignment operator of a kind, if it is one. -/
def BinaryOp.assignment? (kind : Token.Kind) : Option BinaryOp :=
  if h : kind.isAssignment then some ⟨kind, by simp [Token.Kind.isBinary, h]⟩ else none

/-- A unary operator that stands before its operand. -/
structure UnaryOp where
  kind : Token.Kind
  isUnary : kind.isUnary

/-- The unary operator of a kind, if it is one. -/
def UnaryOp.ofKind? (kind : Token.Kind) : Option UnaryOp :=
  if h : kind.isUnary then some ⟨kind, h⟩ else none

mutual

/-- An expression. -/
inductive Expr where
  /-- An unqualified name with explicit type arguments. -/
  | reference (mark : Mark) (sort : RefSort) (name : Name) (typeArgs : List TypeRef)
  /-- A member of the value of another expression. -/
  | qualified (mark : Mark) (primary : Expr) (op : MemberOp) (sort : RefSort) (name : Name)
      (typeArgs : List TypeRef)
  /-- An invocation. -/
  | invocation (mark : Mark) (primary : Expr) (args : Arguments)
  /-- `x[i]`, `x?[i]` and ranges of elements. -/
  | index (mark : Mark) (primary : Expr) (safe : Bool) (subscript : Subscript)
  /-- A literal, its escapes resolved. -/
  | literal (mark : Mark) (kind : LiteralKind) (text : String)
  /-- `this`, `outer` or `super`. -/
  | self (mark : Mark) (kind : SelfKind)
  /-- An enumerated sequence. -/
  | sequence (mark : Mark) (elems : List Expr)
  /-- An expression in parentheses. -/
  | paren (mark : Mark) (x : Expr)
  /-- A binary operator with its operands. -/
  | binary (mark : Mark) (op : BinaryOp) (x y : Expr)
  /-- A unary operator before its operand. -/
  | prefixed (mark : Mark) (op : UnaryOp) (x : Expr)
  /-- A unary operator after its operand. -/
  | postfixed (mark : Mark) (op : Token.Kind) (x : Expr)
  /-- `x is T`. -/
  | isTest (mark : Mark) (x : Expr) (type : TypeRef)
  /-- `x exists`. -/
  | existsTest (mark : Mark) (x : Expr)
  /-- `x nonempty`. -/
  | nonemptyTest (mark : Mark) (x : Expr)

/-- The arguments of an invocation. -/
inductive Arguments where
  | positional (args : PositionalArgs)
  | named (args : NamedArgs)

/-- Arguments in parentheses. -/
structure PositionalArgs where
  mark : Mark
  args : List Expr

/-- Arguments in braces: named ones, then a sequence. -/
structure NamedArgs where
  mark : Mark
  args : List NamedArg
  sequenced : Option SequencedArg

/-- An argument with the name of its parameter. -/
structure NamedArg where
  mark : Mark
  name : Name
  value : Expr

/-- The values for a sequenced parameter. -/
structure SequencedArg where
  mark : Mark
  values : List Expr

/-- What stands between brackets. -/
inductive Subscript where
  /-- One element. -/
  | element (index : Expr)
  /-- The elements from `lower` to `upper`. -/
  | span (lower upper : Expr)
  /-- The elements from `lower` on. -/
  | tail (lower : Expr)

end

instance : Inhabited Expr := ⟨.self default .this⟩

instance : Inhabited PositionalArgs := ⟨⟨default, []⟩⟩

instance : Inhabited NamedArgs := ⟨⟨default, [], none⟩⟩

instance : Inhabited NamedArg := ⟨⟨default, default, default⟩⟩

instance : Inhabited SequencedArg := ⟨⟨default, []⟩⟩

namespace Expr

/-- The mark of an expression. -/
def mark : Expr → Mark
  | .reference mark .. => mark
  | .qualified mark .. => mark
  | .invocation mark .. => mark
  | .index mark .. => mark
  | .literal mark .. => mark
  | .self mark _ => mark
  | .sequence mark _ => mark
  | .paren mark _ => mark
  | .binary mark .. => mark
  | .prefixed mark .. => mark
  | .postfixed mark .. => mark
  | .isTest mark .. => mark
  | .existsTest mark _ => mark
  | .nonemptyTest mark _ => mark

/-- The expression inside any parentheses around it. -/
def unparen : Expr → Expr
  | .paren _ x => x.unparen
  | x => x

/-- Whether the expression is a name, qualified or not; only these take named arguments. -/
def isReference : Expr → Bool
  | .reference .. => true
  | .qualified .. => true
  | _ => false

end Expr

/-! ## Declarations and statements -/

/-- The annotations of a declaration. -/
structure Annotations where
  isShared : Bool := false
  isVariable : Bool := false
  isFormal : Bool := false
  isDefault : Bool := false
  isActual : Bool := false
  isAbstract : Bool := false
deriving DecidableEq, Repr, Inhabited

namespace Annotations

/-- The annotations with the one spelled `word` set; `none` if no annotation has that spelling. -/
def set? (a : Annotations) (word : String) : Option Annotations :=
  match word with
  | "shared" => some { a with isShared := true }
  | "variable" => some { a with isVariable := true }
  | "formal" => some { a with isFormal := true }
  | "default" => some { a with isDefault := true }
  | "actual" => some { a with isActual := true }
  | "abstract" => some { a with isAbstract := true }
  | _ => none

/-- Whether `word` spells an annotation. -/
def isWord (word : String) : Bool :=
  (set? {} word).isSome

/-- The annotations that are set, in a fixed order. -/
def words (a : Annotations) : List String :=
  [(a.isShared, "shared"), (a.isVariable, "variable"), (a.isFormal, "formal"), (a.isDefault, "default"),
    (a.isActual, "actual"), (a.isAbstract, "abstract")].filterMap
      fun (on, word) => if on then some word else none

end Annotations

/-- How a type parameter's arguments may vary. -/
inductive Variance where
  | invariant
  | covariant
  | contravariant
deriving DecidableEq, Repr, Inhabited

/-- The spelling of a variance, empty for an invariant parameter. -/
def Variance.text : Variance → String
  | .invariant => ""
  | .covariant => "out"
  | .contravariant => "in"

/-- A parameter of a generic declaration. -/
structure TypeParameter where
  mark : Mark
  variance : Variance
  name : Name
deriving Inhabited

/-- A parameter of a class or method. -/
structure Parameter where
  mark : Mark
  annotations : Annotations
  type : TypeRef
  sequenced : Bool
  name : Name
  default : Option Expr
deriving Inhabited

/-- The parameters of a class or method, in parentheses. -/
structure ParameterList where
  mark : Mark
  params : List Parameter
deriving Inhabited

/-- The class a class extends, with the arguments for its initializer. -/
structure ExtendedType where
  mark : Mark
  type : BaseType
  args : PositionalArgs
deriving Inhabited

/-- A variable that a condition or a loop introduces. -/
structure Variable where
  mark : Mark
  type : DeclaredType
  name : Name
  specifier : Option Expr
deriving Inhabited

/-- A variable that a condition introduces, with the expression it stands for. -/
structure Guard where
  mark : Mark
  type : DeclaredType
  name : Name
  specifier : Expr
deriving Inhabited

/-- The variable by itself. -/
def Guard.variable (g : Guard) : Variable :=
  { mark := g.mark, type := g.type, name := g.name, specifier := some g.specifier }

/-- A variable of a loop, which takes its values from what the loop goes over. -/
structure LoopVariable where
  mark : Mark
  type : DeclaredType
  name : Name
deriving Inhabited

/-- The variable by itself. -/
def LoopVariable.variable (v : LoopVariable) : Variable :=
  { mark := v.mark, type := v.type, name := v.name, specifier := none }

/-- What a condition tests: a variable it introduces, or an expression. -/
inductive Operand where
  | var (g : Guard)
  | value (x : Expr)
deriving Inhabited

/-- A condition of an `if` or `while`. -/
inductive Condition where
  | boolean (mark : Mark) (x : Expr)
  | exists (mark : Mark) (operand : Operand)
  | nonempty (mark : Mark) (operand : Operand)
  | is (mark : Mark) (type : TypeRef) (operand : Operand)
deriving Inhabited

/-- The mark of a condition. -/
def Condition.mark : Condition → Mark
  | .boolean mark _ => mark
  | .exists mark _ => mark
  | .nonempty mark _ => mark
  | .is mark .. => mark

/-- What a `for` loop goes over. -/
inductive Iteration where
  /-- `x in xs`. -/
  | values (mark : Mark) (var : LoopVariable) (source : Expr)
  /-- `k -> v in xs`. -/
  | entries (mark : Mark) (key value : LoopVariable) (source : Expr)
deriving Inhabited

/-- The mark of an iteration. -/
def Iteration.mark : Iteration → Mark
  | .values mark .. => mark
  | .entries mark .. => mark

/-- How an attribute gets its value. -/
inductive Initializer where
  | absent
  /-- `= x`. -/
  | specified (x : Expr)
  /-- `:= x`. -/
  | assigned (x : Expr)
deriving Inhabited

/-- The initializing expression, if there is one. -/
def Initializer.expr? : Initializer → Option Expr
  | .absent => none
  | .specified x => some x
  | .assigned x => some x

/-- An attribute of a class or a value of a block or package. -/
structure AttributeDecl where
  mark : Mark
  annotations : Annotations
  type : DeclaredType
  name : Name
  init : Initializer
deriving Inhabited

mutual

/-- A statement or declaration. -/
inductive Stmt where
  | classDecl (d : ClassDecl)
  | interfaceDecl (d : InterfaceDecl)
  | method (d : MethodDecl)
  | attribute (d : AttributeDecl)
  | getter (d : GetterDecl)
  | setter (d : SetterDecl)
  | expr (mark : Mark) (x : Expr)
  | return (mark : Mark) (x : Option Expr)
  | break (mark : Mark)
  | continue (mark : Mark)
  | ifElse (s : IfStmt)
  | while (mark : Mark) (clause : WhileClause)
  | for (mark : Mark) (clause : ForClause) (fail : Option FailClause)

/-- Statements in braces. -/
structure Block where
  mark : Mark
  stmts : List Stmt
  /-- The place of the closing brace. -/
  close : Pos

/-- A class. -/
structure ClassDecl where
  mark : Mark
  annotations : Annotations
  name : Name
  typeParams : List TypeParameter
  params : ParameterList
  extended : Option ExtendedType
  satisfied : List TypeRef
  body : Block

/-- An interface. -/
structure InterfaceDecl where
  mark : Mark
  annotations : Annotations
  name : Name
  typeParams : List TypeParameter
  satisfied : List TypeRef
  body : Block

/-- A method or function. -/
structure MethodDecl where
  mark : Mark
  annotations : Annotations
  type : DeclaredType
  name : Name
  typeParams : List TypeParameter
  params : ParameterList
  body : MethodBody

/-- The body of a method. -/
inductive MethodBody where
  | absent
  | block (b : Block)
  /-- `=> x`. -/
  | computed (x : Expr)

/-- An attribute whose value a block computes. -/
structure GetterDecl where
  mark : Mark
  annotations : Annotations
  type : DeclaredType
  name : Name
  body : Block

/-- What assigning to a getter's attribute does. -/
structure SetterDecl where
  mark : Mark
  annotations : Annotations
  name : Name
  body : Block

/-- An `if` with its `else`. -/
structure IfStmt where
  mark : Mark
  clause : IfClause
  alternative : Option ElseClause

/-- The condition of an `if` and the block it guards. -/
structure IfClause where
  mark : Mark
  cond : Condition
  body : Block

/-- What an `else` is followed by. -/
inductive ElseClause where
  | block (mark : Mark) (b : Block)
  | ifElse (mark : Mark) (s : IfStmt)

/-- The condition of a `while` and its block. -/
structure WhileClause where
  mark : Mark
  cond : Condition
  body : Block

/-- The iteration of a `for` and its block. -/
structure ForClause where
  mark : Mark
  iteration : Iteration
  body : Block

/-- The block that runs when a `for` ends without `break`. -/
structure FailClause where
  mark : Mark
  body : Block

end

instance : Inhabited Block := ⟨⟨default, [], default⟩⟩

instance : Inhabited Stmt := ⟨.break default⟩

instance : Inhabited IfClause := ⟨⟨default, default, default⟩⟩

instance : Inhabited IfStmt := ⟨⟨default, default, none⟩⟩

instance : Inhabited ElseClause := ⟨.block default default⟩

/-- The mark of an `else`. -/
def ElseClause.mark : ElseClause → Mark
  | .block mark _ => mark
  | .ifElse mark _ => mark

/-- The mark of a statement. -/
def Stmt.mark : Stmt → Mark
  | .classDecl d => d.mark
  | .interfaceDecl d => d.mark
  | .method d => d.mark
  | .attribute d => d.mark
  | .getter d => d.mark
  | .setter d => d.mark
  | .expr mark _ => mark
  | .return mark _ => mark
  | .break mark => mark
  | .continue mark => mark
  | .ifElse s => s.mark
  | .while mark _ => mark
  | .for mark .. => mark

/-! ## Units -/

/-- A dependency in a module descriptor. -/
structure ModuleImport where
  mark : Mark
  path : Path
deriving Inhabited

/-- The declaration of a module. -/
structure ModuleDescriptor where
  mark : Mark
  path : Path
  imports : List ModuleImport
deriving Inhabited

/-- A name that is imported, perhaps under another one. -/
structure ImportElement where
  mark : Mark
  newName : Option Name
  name : Name
deriving Inhabited

/-- The name by which the importing unit knows an imported declaration. -/
def ImportElement.localName (e : ImportElement) : String :=
  (e.newName.getD e.name).text

/-- The import of names from a package. -/
structure Import where
  mark : Mark
  path : Path
  elements : List ImportElement
deriving Inhabited

/-- A compilation unit. -/
structure CompilationUnit where
  mark : Mark
  /-- Whether the unit has a place of its own: there is none in a text that begins with a fault. -/
  placed : Bool := true
  source : Source
  module : Option ModuleDescriptor
  imports : List Import
  body : List Stmt
  comments : List Token
deriving Inhabited

end Ceylon.Syntax
