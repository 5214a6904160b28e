import Ceylon.Syntax.Tree

/-!
# Numbering the nodes of a unit

Later stages keep what they find out about a node in tables, so the nodes of a unit need names of their
own: two nodes may begin at the same token and be spelled alike.  `CompilationUnit.number` gives every
node its place in the depth-first order of the tree, parents before their children and children in
source order.
-/

namespace Ceylon.Syntax

/-- A traversal that hands out numbers. -/
abbrev Numbering (α : Type) := StateM Nat α

/-- The mark with the next number. -/
def Mark.number (m : Mark) : Numbering Mark :=
  modifyGet fun n => ({ m with id := n }, n + 1)

/-- Numbers what is there of an optional part. -/
def numberOption {α : Type} (f : α → Numbering α) : Option α → Numbering (Option α)
  | none => return none
  | some a => return some (← f a)

def Name.number (n : Name) : Numbering Name :=
  return { n with mark := ← n.mark.number }

def Path.number (p : Path) : Numbering Path :=
  return { mark := ← p.mark.number, segments := ← p.segments.mapM Name.number }

mutual

def TypeRef.number : TypeRef → Numbering TypeRef
  | .base b => return .base (← b.number)
  | .union mark first more =>
    return .union (← mark.number) (← first.number) (← numberTypes more)
  | .optional mark inner => return .optional (← mark.number) (← inner.number)

def BaseType.number : BaseType → Numbering BaseType
  | { mark, name, args } =>
    return { mark := ← mark.number, name := ← name.number, args := ← numberTypes args }

def numberTypes : List TypeRef → Numbering (List TypeRef)
  | [] => return []
  | t :: ts => return (← t.number) :: (← numberTypes ts)

end

def DeclaredType.number : DeclaredType → Numbering DeclaredType
  | .ref t => return .ref (← t.number)
  | .inferred mark function => return .inferred (← mark.number) function
  | .void mark => return .void (← mark.number)

mutual

def Expr.number : Expr → Numbering Expr
  | .reference mark sort name typeArgs =>
    return .reference (← mark.number) sort (← name.number) (← numberTypes typeArgs)
  | .qualified mark primary op sort name typeArgs =>
    return .qualified (← mark.number) (← primary.number) op sort (← name.number)
      (← numberTypes typeArgs)
  | .invocation mark primary args =>
    return .invocation (← mark.number) (← primary.number) (← args.number)
  | .index mark primary safe subscript =>
    return .index (← mark.number) (← primary.number) safe (← subscript.number)
  | .literal mark kind text => return .literal (← mark.number) kind text
  | .self mark kind => return .self (← mark.number) kind
  | .sequence mark elems => return .sequence (← mark.number) (← numberExprs elems)
  | .paren mark x => return .paren (← mark.number) (← x.number)
  | .binary mark op x y => return .binary (← mark.number) op (← x.number) (← y.number)
  | .prefixed mark op x => return .prefixed (← mark.number) op (← x.number)
  | .postfixed mark op x => return .postfixed (← mark.number) op (← x.number)
  | .isTest mark x type => return .isTest (← mark.number) (← x.number) (← type.number)
  | .existsTest mark x => return .existsTest (← mark.number) (← x.number)
  | .nonemptyTest mark x => return .nonemptyTest (← mark.number) (← x.number)

def numberExprs : List Expr → Numbering (List Expr)
  | [] => return []
  | x :: xs => return (← x.number) :: (← numberExprs xs)

def Arguments.number : Arguments → Numbering Arguments
  | .positional args => return .positional (← args.number)
  | .named args => return .named (← args.number)

def PositionalArgs.number : PositionalArgs → Numbering PositionalArgs
  | { mark, args } => return { mark := ← mark.number, args := ← numberExprs args }

def NamedArgs.number : NamedArgs → Numbering NamedArgs
  | { mark, args, sequenced } =>
    return {
      mark := ← mark.number
      args := ← numberNamed args
      sequenced := ← numberSequenced sequenced }

def NamedArg.number : NamedArg → Numbering NamedArg
  | { mark, name, value } =>
    return { mark := ← mark.number, name := ← name.number, value := ← value.number }

def numberNamed : List NamedArg → Numbering (List NamedArg)
  | [] => return []
  | a :: as => return (← a.number) :: (← numberNamed as)

def SequencedArg.number : SequencedArg → Numbering SequencedArg
  | { mark, values } => return { mark := ← mark.number, values := ← numberExprs values }

def numberSequenced : Option SequencedArg → Numbering (Option SequencedArg)
  | none => return none
  | some a => return some (← a.number)

def Subscript.number : Subscript → Numbering Subscript
  | .element index => return .element (← index.number)
  | .span lower upper => return .span (← lower.number) (← upper.number)
  | .tail lower => return .tail (← lower.number)

end

def TypeParameter.number (p : TypeParameter) : Numbering TypeParameter :=
  return { p with mark := ← p.mark.number, name := ← p.name.number }

def Parameter.number (p : Parameter) : Numbering Parameter :=
  return { p with
    mark := ← p.mark.number
    type := ← p.type.number
    name := ← p.name.number
    default := ← numberOption Expr.number p.default }

def ParameterList.number (l : ParameterList) : Numbering ParameterList :=
  return { mark := ← l.mark.number, params := ← l.params.mapM Parameter.number }

def ExtendedType.number (e : ExtendedType) : Numbering ExtendedType :=
  return { mark := ← e.mark.number, type := ← e.type.number, args := ← e.args.number }

def Guard.number (g : Guard) : Numbering Guard :=
  return {
    mark := ← g.mark.number
    type := ← g.type.number
    name := ← g.name.number
    specifier := ← g.specifier.number }

def Operand.number : Operand → Numbering Operand
  | .var g => return .var (← g.number)
  | .value x => return .value (← x.number)

def Condition.number : Condition → Numbering Condition
  | .boolean mark x => return .boolean (← mark.number) (← x.number)
  | .exists mark operand => return .exists (← mark.number) (← operand.number)
  | .nonempty mark operand => return .nonempty (← mark.number) (← operand.number)
  | .is mark type operand => return .is (← mark.number) (← type.number) (← operand.number)

def LoopVariable.number (v : LoopVariable) : Numbering LoopVariable :=
  return { mark := ← v.mark.number, type := ← v.type.number, name := ← v.name.number }

def Iteration.number : Iteration → Numbering Iteration
  | .values mark var source =>
    return .values (← mark.number) (← var.number) (← source.number)
  | .entries mark key value source =>
    return .entries (← mark.number) (← key.number) (← value.number) (← source.number)

def Initializer.number : Initializer → Numbering Initializer
  | .absent => return .absent
  | .specified x => return .specified (← x.number)
  | .assigned x => return .assigned (← x.number)

def AttributeDecl.number (d : AttributeDecl) : Numbering AttributeDecl :=
  return { d with
    mark := ← d.mark.number
    type := ← d.type.number
    name := ← d.name.number
    init := ← d.init.number }

mutual

def Stmt.number : Stmt → Numbering Stmt
  | .classDecl d => return .classDecl (← d.number)
  | .interfaceDecl d => return .interfaceDecl (← d.number)
  | .method d => return .method (← d.number)
  | .attribute d => return .attribute (← d.number)
  | .getter d => return .getter (← d.number)
  | .setter d => return .setter (← d.number)
  | .expr mark x => return .expr (← mark.number) (← x.number)
  | .return mark x => return .return (← mark.number) (← numberOption Expr.number x)
  | .break mark => return .break (← mark.number)
  | .continue mark => return .continue (← mark.number)
  | .ifElse s => return .ifElse (← s.number)
  | .while mark clause => return .while (← mark.number) (← clause.number)
  | .for mark clause fail =>
    return .for (← mark.number) (← clause.number) (← numberFail fail)

def numberStmts : List Stmt → Numbering (List Stmt)
  | [] => return []
  | s :: ss => return (← s.number) :: (← numberStmts ss)

def Block.number : Block → Numbering Block
  | { mark, stmts, close } =>
    return { mark := ← mark.number, stmts := ← numberStmts stmts, close }

def ClassDecl.number : ClassDecl → Numbering ClassDecl
  | { mark, annotations, name, typeParams, params, extended, satisfied, body } =>
    return {
      mark := ← mark.number
      annotations
      name := ← name.number
      typeParams := ← typeParams.mapM TypeParameter.number
      params := ← params.number
      extended := ← numberOption ExtendedType.number extended
      satisfied := ← numberTypes satisfied
      body := ← body.number }

def InterfaceDecl.number : InterfaceDecl → Numbering InterfaceDecl
  | { mark, annotations, name, typeParams, satisfied, body } =>
    return {
      mark := ← mark.number
      annotations
      name := ← name.number
      typeParams := ← typeParams.mapM TypeParameter.number
      satisfied := ← numberTypes satisfied
      body := ← body.number }

def MethodDecl.number : MethodDecl → Numbering MethodDecl
  | { mark, annotations, type, name, typeParams, params, body } =>
    return {
      mark := ← mark.number
      annotations
      type := ← type.number
      name := ← name.number
      typeParams := ← typeParams.mapM TypeParameter.number
      params := ← params.number
      body := ← body.number }

def MethodBody.number : MethodBody → Numbering MethodBody
  | .absent => return .absent
  | .block b => return .block (← b.number)
  | .computed x => return .computed (← x.number)

def GetterDecl.number : GetterDecl → Numbering GetterDecl
  | { mark, annotations, type, name, body } =>
    return {
      mark := ← mark.number
      annotations
      type := ← type.number
      name := ← name.number
      body := ← body.number }

def SetterDecl.number : SetterDecl → Numbering SetterDecl
  | { mark, annotations, name, body } =>
    return { mark := ← mark.number, annotations, name := ← name.number, body := ← body.number }

def IfStmt.number : IfStmt → Numbering IfStmt
  | { mark, clause, alternative } =>
    return {
      mark := ← mark.number
      clause := ← clause.number
      alternative := ← numberElse alternative }

def IfClause.number : IfClause → Numbering IfClause
  | { mark, cond, body } =>
    return { mark := ← mark.number, cond := ← cond.number, body := ← body.number }

def ElseClause.number : ElseClause → Numbering ElseClause
  | .block mark b => return .block (← mark.number) (← b.number)
  | .ifElse mark s => return .ifElse (← mark.number) (← s.number)

def numberElse : Option ElseClause → Numbering (Option ElseClause)
  | none => return none
  | some c => return some (← c.number)

def WhileClause.number : WhileClause → Numbering WhileClause
  | { mark, cond, body } =>
    return { mark := ← mark.number, cond := ← cond.number, body := ← body.number }

def ForClause.number : ForClause → Numbering ForClause
  | { mark, iteration, body } =>
    return { mark := ← mark.number, iteration := ← iteration.number, body := ← body.number }

def FailClause.number : FailClause → Numbering FailClause
  | { mark, body } => return { mark := ← mark.number, body := ← body.number }

def numberFail : Option FailClause → Numbering (Option FailClause)
  | none => return none
  | some c => return some (← c.number)

end

def ModuleImport.number (i : ModuleImport) : Numbering ModuleImport :=
  return { mark := ← i.mark.number, path := ← i.path.number }

def ModuleDescriptor.number (d : ModuleDescriptor) : Numbering ModuleDescriptor :=
  return {
    mark := ← d.mark.number
    path := ← d.path.number
    imports := ← d.imports.mapM ModuleImport.number }

def ImportElement.number (e : ImportElement) : Numbering ImportElement :=
  return {
    mark := ← e.mark.number
    newName := ← numberOption Name.number e.newName
    name := ← e.name.number }

def Import.number (i : Import) : Numbering Import :=
  return {
    mark := ← i.mark.number
    path := ← i.path.number
    elements := ← i.elements.mapM ImportElement.number }

/-- Numbers all nodes of a unit, itself first. -/
def CompilationUnit.number (u : CompilationUnit) : CompilationUnit :=
  let numbering : Numbering CompilationUnit := do
    return { u with
      mark := ← u.mark.number
      module := ← numberOption ModuleDescriptor.number u.module
      imports := ← u.imports.mapM Import.number
      body := ← numberStmts u.body }
  (numbering.run 0).1

end Ceylon.Syntax
