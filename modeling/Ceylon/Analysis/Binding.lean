import Ceylon.Analysis.State

/-!
# Binding

Binding makes the declarations of a unit and records for every node the scope it stands in.  It builds
structure only and reports nothing.

Classes, interfaces, methods, getters, setters and parameters open scopes of their own.  A branch or loop
opens one too: the variables that its condition or iteration introduces belong to the body, while the
tested or iterated expression stands outside.

What is bound depends on the tree alone, but for the numbers that new declarations and bodies get and for
the getter that a setter finds in its scope.  So binding is a dialogue, and these are its questions.
-/

namespace Ceylon.Analysis

open Model
open Syntax

/-- A step of binding a unit. -/
inductive BindStep where
  /-- Records the scope of a node. -/
  | record (m : Mark) (scope : ScopeChain)
  /-- Makes the declaration of a node, a member of the innermost scope, and records that scope. -/
  | declare (node : Node) (name : String) (shared : Bool) (shape : Shape) (scope : ScopeChain)
  /-- Opens the body of a clause. -/
  | openBody (clause : Node) (scope : ScopeChain)
  /-- Adds a type parameter to a declaration. -/
  | addTypeParam (owner param : DeclId)
  /-- Gives a declaration its parameters. -/
  | setParams (owner : DeclId) (params : List DeclId)
  /-- Looks up the getter with a name in the innermost scope. -/
  | getter (scope : ScopeChain) (name : String)
  /-- Joins a getter to its setter. -/
  | join (getter setter : DeclId)

/-- What a step of binding answers. -/
abbrev BindStep.Answer : BindStep → Type
  | .record .. => Unit
  | .declare .. => DeclId
  | .openBody .. => BlockId
  | .addTypeParam .. => Unit
  | .setParams .. => Unit
  | .getter .. => Option DeclId
  | .join .. => Unit

/-- A part of binding a unit. -/
abbrev Bind := Dialogue BindStep.Answer

namespace Binding

/-- Takes a step. -/
def take (step : BindStep) : Bind step.Answer :=
  .ask step .done

/-- Records the scope of several nodes. -/
def recordNodes (scope : ScopeChain) : List Node → Bind Unit
  | [] => return
  | n :: ns => do
    take (.record n.mark scope)
    recordNodes scope ns

/-- Records the scope of all nodes of a tree that declares nothing. -/
def recordTree (scope : ScopeChain) (o : Outline) : Bind Unit :=
  recordNodes scope o.nodes

/-- Records the scope of all nodes of several trees that declare nothing. -/
def recordTrees (scope : ScopeChain) : List Outline → Bind Unit
  | [] => return
  | o :: os => do
    recordTree scope o
    recordTrees scope os

/-- Records the scope of an expression. -/
def bindExpr (scope : ScopeChain) (x : Expr) : Bind Unit :=
  recordTree scope (x.outline default)

/-- Records the scope of an expression if there is one. -/
def bindOption (scope : ScopeChain) : Option Expr → Bind Unit
  | none => return
  | some x => bindExpr scope x

/-- Makes the declaration of a node. -/
def declare (scope : ScopeChain) (node : Node) (name : Name) (shared : Bool) (shape : Shape) :
    Bind DeclId := do
  let d ← take (.declare node name.text shared shape scope)
  take (.record name.mark scope)
  return d

/-- Makes the type parameters of a declaration, whose own scope is the innermost. -/
def bindTypeParams (scope : ScopeChain) (owner : DeclId) : List TypeParameter → Bind Unit
  | [] => return
  | p :: ps => do
    let d ← declare scope (.typeParameter p) p.name false (.typeParameter p.variance {})
    take (.addTypeParam owner d)
    bindTypeParams scope owner ps

/-- Makes a parameter, which opens a scope for its type and its default. -/
def bindParam (scope : ScopeChain) (p : Parameter) : Bind DeclId := do
  let d ← declare scope (.parameter p) p.name p.annotations.isShared
    (.parameter .unknown p.default.isSome p.sequenced)
  recordTree (.decl d :: scope) (p.type.outline default)
  bindOption (.decl d :: scope) p.default
  return d

/-- Makes the parameters of a list. -/
def bindParamList (scope : ScopeChain) : List Parameter → Bind (List DeclId)
  | [] => return []
  | p :: ps => do
    let d ← bindParam scope p
    return d :: (← bindParamList scope ps)

/-- Makes the parameters of a declaration. -/
def bindParams (scope : ScopeChain) (owner : DeclId) (list : ParameterList) : Bind Unit := do
  take (.record list.mark scope)
  let ds ← bindParamList scope list.params
  take (.setParams owner ds)

/-- Makes a variable of the body `inner`; its type and specifier stand outside. -/
def bindVariable (outer inner : ScopeChain) (v : Variable) : Bind Unit := do
  discard (declare inner (.variable v) v.name false (.value .unknown false))
  recordTree outer v.type.outline
  bindOption outer v.specifier

/-- Binds what a condition tests. -/
def bindOperand (outer inner : ScopeChain) : Operand → Bind Unit
  | .var g => bindVariable outer inner g.variable
  | .value x => bindExpr outer x

/-- Binds a condition: its expressions stand outside the body, its variable inside. -/
def bindCondition (outer inner : ScopeChain) (c : Condition) : Bind Unit := do
  take (.record c.mark outer)
  match c with
  | .boolean _ x => bindExpr outer x
  | .exists _ operand => bindOperand outer inner operand
  | .nonempty _ operand => bindOperand outer inner operand
  | .is _ type operand => do
    recordTree outer (type.outline default)
    bindOperand outer inner operand

/-- Binds what a loop goes over, with the loop variables inside the body. -/
def bindIteration (outer inner : ScopeChain) (i : Iteration) : Bind Unit := do
  take (.record i.mark outer)
  match i with
  | .values _ var source => do
    bindVariable outer inner var.variable
    bindExpr outer source
  | .entries _ key value source => do
    bindVariable outer inner key.variable
    bindVariable outer inner value.variable
    bindExpr outer source

/-- Opens the body of a clause. -/
def openBody (scope : ScopeChain) (clause : Node) : Bind ScopeChain := do
  take (.record clause.mark scope)
  let b ← take (.openBody clause scope)
  return .block b :: scope

/-- Makes a setter, which belongs to the getter of its name in the same scope. -/
def declareSetter (scope : ScopeChain) (d : SetterDecl) : Bind DeclId := do
  let getter ← take (.getter scope d.name.text)
  let id ← declare scope (.stmt (.setter d)) d.name d.annotations.isShared (.setter .unknown getter)
  match getter with
  | none => return id
  | some g =>
    take (.join g id)
    return id

mutual

/-- Binds a statement or declaration. -/
def bindStmt (scope : ScopeChain) : Stmt → Bind Unit
  | .classDecl { mark, annotations, name, typeParams, params, extended, satisfied, body } => do
    let node : Node := .stmt (.classDecl
      { mark, annotations, name, typeParams, params, extended, satisfied, body })
    let d ← declare scope node name annotations.isShared
      (.ofClass {} none annotations.isAbstract false)
    let inner := .decl d :: scope
    bindTypeParams inner d typeParams
    bindParams inner d params
    recordTrees inner (outlineOption ExtendedType.outline extended)
    recordTrees inner (outlineTypes "satisfies" satisfied)
    bindBlock inner body
  | .interfaceDecl { mark, annotations, name, typeParams, satisfied, body } => do
    let node : Node := .stmt (.interfaceDecl
      { mark, annotations, name, typeParams, satisfied, body })
    let d ← declare scope node name annotations.isShared (.ofInterface {})
    let inner := .decl d :: scope
    bindTypeParams inner d typeParams
    recordTrees inner (outlineTypes "satisfies" satisfied)
    bindBlock inner body
  | .method { mark, annotations, type, name, typeParams, params, body } => do
    let node : Node := .stmt (.method { mark, annotations, type, name, typeParams, params, body })
    let d ← declare scope node name annotations.isShared
      (.method .unknown [] [] type.isVoid annotations.isFormal)
    let inner := .decl d :: scope
    bindTypeParams inner d typeParams
    recordTree inner type.outline
    bindParams inner d params
    bindMethodBody inner body
  | .attribute d => do
    discard (declare scope (.stmt (.attribute d)) d.name d.annotations.isShared
      (.value .unknown d.annotations.isVariable))
    recordTree scope d.type.outline
    bindOption scope d.init.expr?
  | .getter { mark, annotations, type, name, body } => do
    let node : Node := .stmt (.getter { mark, annotations, type, name, body })
    let d ← declare scope node name annotations.isShared (.getter .unknown none)
    recordTree scope type.outline
    bindBlock (.decl d :: scope) body
  | .setter { mark, annotations, name, body } => do
    let d ← declareSetter scope { mark, annotations, name, body }
    bindBlock (.decl d :: scope) body
  | .expr mark x => do
    take (.record mark scope)
    bindExpr scope x
  | .return mark x => do
    take (.record mark scope)
    bindOption scope x
  | .break mark => take (.record mark scope)
  | .continue mark => take (.record mark scope)
  | .ifElse s => bindIf scope s
  | .while mark { mark := clauseMark, cond, body } => do
    take (.record mark scope)
    let inner ← openBody scope (.whileClause { mark := clauseMark, cond, body })
    bindCondition scope inner cond
    bindBlock inner body
  | .for mark { mark := clauseMark, iteration, body } fail => do
    take (.record mark scope)
    let inner ← openBody scope (.forClause { mark := clauseMark, iteration, body })
    bindIteration scope inner iteration
    bindBlock inner body
    bindFail scope fail

/-- Binds statements one after the other. -/
def bindStmts (scope : ScopeChain) : List Stmt → Bind Unit
  | [] => return
  | s :: ss => do
    bindStmt scope s
    bindStmts scope ss

/-- Binds the statements of a block in a scope that is open already. -/
def bindBlock (scope : ScopeChain) : Block → Bind Unit
  | { mark, stmts, .. } => do
    take (.record mark scope)
    bindStmts scope stmts

/-- Binds the body of a method. -/
def bindMethodBody (scope : ScopeChain) : MethodBody → Bind Unit
  | .absent => return
  | .block b => bindBlock scope b
  | .computed x => bindExpr scope x

/-- Binds an `if` with its alternative. -/
def bindIf (scope : ScopeChain) : IfStmt → Bind Unit
  | { mark, clause := { mark := clauseMark, cond, body }, alternative } => do
    take (.record mark scope)
    let inner ← openBody scope (.ifClause { mark := clauseMark, cond, body })
    bindCondition scope inner cond
    bindBlock inner body
    bindElse scope alternative

/-- Binds an alternative, which opens a body of its own unless it is a further `if`. -/
def bindElse (scope : ScopeChain) : Option ElseClause → Bind Unit
  | none => return
  | some (.block mark b) => do
    let inner ← openBody scope (.elseClause (.block mark b))
    bindBlock inner b
  | some (.ifElse mark s) => do
    take (.record mark scope)
    bindIf scope s

/-- Binds what follows a loop that was not left by `break`. -/
def bindFail (scope : ScopeChain) : Option FailClause → Bind Unit
  | none => return
  | some { mark, body } => do
    let inner ← openBody scope (.failClause { mark, body })
    bindBlock inner body

end

/-- Binds all of a unit in the scope of its package. -/
def bindUnit (scope : ScopeChain) (tree : CompilationUnit) : Bind Unit := do
  take (.record tree.mark scope)
  recordTrees scope (outlineOption ModuleDescriptor.outline tree.module)
  recordTrees scope (tree.imports.map Import.outline)
  bindStmts scope tree.body

/-! ## Taking the steps -/

/-- Lists a declaration in its unit if it stands at the top of it. -/
def listDeclaration (u : UnitId) (scope : ScopeChain) (d : DeclId) : Analyze Unit :=
  match scope with
  | .package _ :: _ =>
    modifyUnit u fun unit => { unit with declarations := unit.declarations.push d }
  | _ => return

/-- Takes a step of binding a unit. -/
def perform (u : UnitId) : (step : BindStep) → Analyze step.Answer
  | .record m scope => modify fun s => { s with scopes := s.scopes.insert ⟨u, m.id⟩ scope }
  | .declare node name shared shape scope => do
    let decl : Declaration := { name, scope, unit := some u, node := some node, shared, shape }
    let d ← modifyGet fun s =>
      let (d, graph) := s.graph.declare decl
      let k : NodeId := ⟨u, node.mark.id⟩
      (d, { s with graph, decls := s.decls.insert k d, scopes := s.scopes.insert k scope })
    listDeclaration u scope d
    return d
  | .openBody clause scope => modifyGet fun s =>
    let (b, graph) := s.graph.addBlock u clause scope
    (b, { s with graph })
  | .addTypeParam owner d => modifyGraph (·.modifyShape owner (·.addTypeParam d))
  | .setParams owner ds => modifyGraph (·.modifyShape owner (·.withParams ds))
  | .getter scope name => modifyGet fun s =>
    (scope.head?.bind fun c => s.graph.directMember? c name (·.shape.isGetter), s)
  | .join getter setter => modifyGraph (·.modifyShape getter (·.withSetter setter))

end Binding

/-- Makes the declarations of a unit, unless that has been done or the unit has failed. -/
def bindDeclarations (u : UnitId) : Analyze Unit := do
  let unit := (← get).unit u
  if unit.failure.isSome || unit.phase.atLeast .bound then return
  logStep u .bound "binding declarations"
  modifyUnit u fun unit => { unit with isBound := true }
  (Binding.bindUnit [.package unit.package] unit.tree).run (Binding.perform u)
  setPhase u .bound

end Ceylon.Analysis
