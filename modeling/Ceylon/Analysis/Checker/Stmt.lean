import Ceylon.Analysis.Checker.Expr

/-!
# Checking statements and declarations

The check of a body passes along the type of the last `return` seen in it, from which the type of a method
or getter is inferred when it has none.  Declarations inside a body are tasks of their own.
-/

namespace Ceylon.Analysis

open Model
open Syntax

/-- What the `return` statements of a body must give. -/
inductive ReturnMode where
  /-- Nothing. -/
  | void
  /-- Anything: the type is inferred from it. -/
  | infer
  /-- A value of the given type. -/
  | expect (t : Ty)
deriving Inhabited

/-- Reports an inferred type that is unknown at the name of its declaration, unless a problem has been
reported in the tree that it comes from. -/
def requireInferred (name : Name) (t : Ty) (faulty : Bool) : Rule Unit :=
  if !t.isKnown && !faulty then
    reportAt (.name name) ("could not infer type of: " ++ name.text)
  else return

/-- Checks the default value of a parameter. -/
def checkDefault (f : State) (u : UnitId) (p : Parameter) : Check Unit := do
  match p.default with
  | none => return
  | some x =>
    let t ← checkExpr f u x
    applyRule (assignable f t.type (f.declaredType u p.mark) (.expr x)
      "default value not assignable to parameter type")

/-- Checks the default values of parameters. -/
def checkDefaults (f : State) (u : UnitId) : List Parameter → Check Unit
  | [] => return
  | p :: ps => do
    checkDefault f u p
    checkDefaults f u ps

/-- Checks an expression if there is one. -/
def checkOption (f : State) (u : UnitId) : Option Expr → Check Unit
  | none => return
  | some x => discard (checkExpr f u x)

/-- Checks a `return` of a value.  The answer is the type of the last `return` after it. -/
def checkReturned (f : State) (mode : ReturnMode) (last : Option Ty) (t : Typed) :
    Rule (Option Ty) := do
  match mode with
  | .void =>
    reportAt (.expr t.expr) "void methods may not return a value"
    return last
  | .infer => return some t.type
  | .expect expected =>
    assignable f t.type expected (.expr t.expr)
      "returned expression not assignable to expected return type"
    return last

/-- Checks a `return`.  The answer is the type of the last `return` after it. -/
def checkReturn (f : State) (u : UnitId) (mode : Option ReturnMode) (last : Option Ty)
    (mark : Mark) (x : Option Expr) : Check (Option Ty) := do
  let node : Node := .stmt (.return mark x)
  match mode, x with
  | none, x =>
    applyRule (reportAt node "could not determine expected return type")
    checkOption f u x
    return last
  | some .void, none => return last
  | some .infer, none => return some (Builtins.plain f.builtins.void)
  | some (.expect _), none =>
    applyRule (reportAt node "non-void methods and getters must return a value")
    return last
  | some mode, some x =>
    let t ← checkExpr f u x
    applyRule (checkReturned f mode last t)

/-- Gives a variable its type: an elided type is inferred, a declared one must accept it.  An unknown type
is reported unless a problem has been reported where it comes from. -/
def giveType (f : State) (u : UnitId) (v : Variable) (t : Ty) (faulty : Bool) (message : String) :
    Check Unit := do
  if v.type.isInferred then
    applyRule (requireInferred v.name t faulty)
    inferVariable v.mark t
  else applyRule (assignable f t (f.declaredType u v.mark) (.variable v) message)

/-- Checks the operand of `exists` or `nonempty` and gives its variable the definite type. -/
def checkGuard (f : State) (u : UnitId) (check : Typed → Rule Unit) : Operand → Check Unit
  | .value x => do
    let t ← checkExpr f u x
    applyRule (check t)
  | .var g => do
    let t ← checkExpr f u g.specifier
    let ((), reported) ← applyRule (watched (check t))
    giveType f u g.variable (f.builtins.definite f.graph.hierarchy t.type)
      (t.faulty || reported) "specifier expression not assignable to expected type"

/-- Reports a condition that is no truth value. -/
def checkBoolean (f : State) (t : Typed) : Rule Unit :=
  if t.type.isKnown
    && !f.graph.hierarchy.subtype t.type (Builtins.plain f.builtins.boolean) then
    reportAt (.expr t.expr) "expression must be of type: Boolean"
  else return

/-- Checks a condition and gives its variable the type that the test leaves. -/
def checkCondition (f : State) (u : UnitId) : Condition → Check Unit
  | .boolean _ x => do
    let t ← checkExpr f u x
    applyRule (checkBoolean f t)
  | .exists _ operand => checkGuard f u (checkOptional f) operand
  | .nonempty _ operand => checkGuard f u (checkContainer f) operand
  | .is _ _ (.value x) => discard (checkExpr f u x)
  | .is _ type (.var g) => do
    discard (checkExpr f u g.specifier)
    giveType f u g.variable ((f.typeRef? u type.mark).getD .unknown) (misapplied f u type)
      "narrowed type not assignable to declared type"

/-- The type of the elements that an expression iterates over. -/
def elementType (f : State) (source : Typed) : Rule Ty := do
  if !source.type.isKnown then return .unknown
  let element := f.builtins.element f.graph.hierarchy source.type
  if !element.isKnown then
    reportAt (.expr source.expr) "expression must be of type: Iterable"
  return element

/-- The type of the entries that an expression iterates over. -/
def entryType (f : State) (source : Typed) : Rule Ty := do
  let element ← elementType f source
  if element.isKnown && (f.graph.hierarchy.supertype? element f.builtins.entry).isNone then
    reportAt (.expr source.expr) "iterated element must be of type: Entry"
  return element

/-- Checks what a loop goes over and gives the loop variables their types. -/
def checkIteration (f : State) (u : UnitId) : Iteration → Check Unit
  | .values _ var source => do
    let t ← checkExpr f u source
    let (element, reported) ← applyRule (watched (elementType f t))
    giveType f u var.variable element (t.faulty || reported)
      "iterated element not assignable to declared type"
  | .entries _ key value source => do
    let t ← checkExpr f u source
    let (element, reported) ← applyRule (watched (entryType f t))
    let (keyType, itemType) := f.builtins.keyItem f.graph.hierarchy element
    giveType f u key.variable keyType (t.faulty || reported)
      "entry key not assignable to declared type"
    giveType f u value.variable itemType (t.faulty || reported)
      "entry item not assignable to declared type"

/-- Checks the arguments that a class gives to the class it extends. -/
def checkExtended (f : State) (u : UnitId) (m : Mark) : Option ExtendedType → Check Unit
  | none => return
  | some e => do
    let args ← checkExprs f u e.args.args
    match f.decls[(⟨u, m.id⟩ : NodeId)]?.bind fun d => (f.graph.decl d).shape.generic.extended with
    | none => return
    | some et =>
      match (f.graph.decl et.decl).shape with
      | .ofClass _ (some params) .. =>
        applyRule (matchArguments f params (.positional e.args args)
          (f.graph.hierarchy.bindings et))
      | _ => return

/-- What the `return` statements of a declaration must give. -/
def returnMode (f : State) (u : UnitId) (m : Mark) : DeclaredType → ReturnMode
  | .void _ => .void
  | .inferred .. => .infer
  | .ref _ => .expect (f.declaredType u m)

mutual

/-- Checks a statement.  The answer is the type of the last `return` after it. -/
def checkStmt (f : State) (u : UnitId) (mode : Option ReturnMode) (last : Option Ty) :
    Stmt → Check (Option Ty)
  | .classDecl d => do
    visit (.ofClass d)
    return last
  | .interfaceDecl { body, .. } => do
    discard (checkBlock f u none none body)
    return last
  | .method d => do
    visit (.method d)
    return last
  | .attribute d => do
    visit (.attribute d)
    return last
  | .getter d => do
    visit (.getter d)
    return last
  | .setter d => do
    visit (.setter d)
    return last
  | .expr _ x => do
    discard (checkExpr f u x)
    return last
  | .return mark x => checkReturn f u mode last mark x
  | .break _ => return last
  | .continue _ => return last
  | .ifElse s => checkIf f u mode last s
  | .while _ { cond, body, .. } => do
    checkCondition f u cond
    checkBlock f u mode last body
  | .for _ { iteration, body, .. } fail => do
    checkIteration f u iteration
    let last ← checkBlock f u mode last body
    checkFail f u mode last fail

/-- Checks statements one after the other. -/
def checkStmts (f : State) (u : UnitId) (mode : Option ReturnMode) (last : Option Ty) :
    List Stmt → Check (Option Ty)
  | [] => return last
  | s :: ss => do
    let last ← checkStmt f u mode last s
    checkStmts f u mode last ss

/-- Checks a block. -/
def checkBlock (f : State) (u : UnitId) (mode : Option ReturnMode) (last : Option Ty) :
    Block → Check (Option Ty)
  | { stmts, .. } => checkStmts f u mode last stmts

/-- Checks an `if` with its `else`. -/
def checkIf (f : State) (u : UnitId) (mode : Option ReturnMode) (last : Option Ty) :
    IfStmt → Check (Option Ty)
  | { clause := { cond, body, .. }, alternative, .. } => do
    checkCondition f u cond
    let last ← checkBlock f u mode last body
    checkElse f u mode last alternative

/-- Checks an `else`. -/
def checkElse (f : State) (u : UnitId) (mode : Option ReturnMode) (last : Option Ty) :
    Option ElseClause → Check (Option Ty)
  | none => return last
  | some (.block _ b) => checkBlock f u mode last b
  | some (.ifElse _ s) => checkIf f u mode last s

/-- Checks a `fail`. -/
def checkFail (f : State) (u : UnitId) (mode : Option ReturnMode) (last : Option Ty) :
    Option FailClause → Check (Option Ty)
  | none => return last
  | some { body, .. } => checkBlock f u mode last body

end

/-! ## Tasks

The check of a task answers the type that it infers for its declaration; unknown if there is nothing to
infer. -/

/-- Checks the initializer of an attribute. -/
def checkAttribute (f : State) (u : UnitId) (d : AttributeDecl) : Check Ty := do
  match d.init.expr? with
  | none =>
    if d.type.isInferred then applyRule (requireInferred d.name .unknown false)
    return .unknown
  | some x =>
    let t ← checkExpr f u x
    if d.type.isInferred then
      applyRule (requireInferred d.name t.type t.faulty)
      return t.type
    else
      applyRule (assignable f t.type (f.declaredType u d.mark) (.expr x)
        "specifier expression not assignable to expected type")
      return .unknown

/-- The type that a block with the given last `return` leaves to infer; without one it is void. -/
def inferReturned (f : State) (name : Name) (mode : ReturnMode) (last : Option Ty) : Rule Ty := do
  match mode with
  | .infer =>
    let t := last.getD (Builtins.plain f.builtins.void)
    requireInferred name t false
    return t
  | _ => return .unknown

/-- Checks the body of a method. -/
def checkMethodBody (f : State) (u : UnitId) (name : Name) (mode : ReturnMode) :
    MethodBody → Check Ty
  | .absent => do
    match mode with
    | .infer =>
      applyRule (requireInferred name .unknown false)
      return .unknown
    | _ => return .unknown
  | .computed x => do
    let t ← checkExpr f u x
    match mode with
    | .void => return .unknown
    | .infer =>
      applyRule (requireInferred name t.type t.faulty)
      return t.type
    | .expect expected =>
      applyRule (assignable f t.type expected (.expr x)
        "specified expression not assignable to expected type")
      return .unknown
  | .block b => do
    let last ← checkBlock f u (some mode) none b
    applyRule (inferReturned f name mode last)

/-- The type of the getter that a setter belongs to. -/
def setterType (f : State) (u : UnitId) (d : SetterDecl) : Rule Ty := do
  match f.decls[(⟨u, d.mark.id⟩ : NodeId)]?.bind fun d => match (f.graph.decl d).shape with
    | .setter _ getter => getter
    | _ => none with
  | some getter => typeOfDecl f getter (.name d.name)
  | none =>
    reportAt (.name d.name) ("setter has no matching getter: " ++ d.name.text)
    return .unknown

/-- Checks a task. -/
def Task.check (f : State) (u : UnitId) : Task → Check Ty
  | .unit tree => do
    discard (checkStmts f u none none tree.body)
    return .unknown
  | .ofClass d => do
    checkDefaults f u d.params.params
    checkExtended f u d.mark d.extended
    discard (checkBlock f u (some .void) none d.body)
    return .unknown
  | .method d => do
    checkDefaults f u d.params.params
    checkMethodBody f u d.name (returnMode f u d.mark d.type) d.body
  | .attribute d => checkAttribute f u d
  | .getter d => do
    let mode := returnMode f u d.mark d.type
    let last ← checkBlock f u (some mode) none d.body
    applyRule (inferReturned f d.name mode last)
  | .setter d => do
    let t ← applyRule (setterType f u d)
    discard (checkBlock f u (some .void) none d.body)
    return t

end Ceylon.Analysis
