import Ceylon.Analysis.Checker.Arguments
import Ceylon.Analysis.Checker.Operators

/-!
# Checking expressions

Every expression gets a type, which is recorded at its node.  An unknown type means that it could not be
determined; the reason has been reported then.
-/

namespace Ceylon.Analysis

open Model
open Syntax

/-- What a rule finds out about an expression. -/
structure Verdict where
  type : Ty
  /-- What the expression refers to. -/
  target : Option DeclId := none
  /-- The supertype through which a qualified reference found its member. -/
  receiver : Option Applied := none
deriving Inhabited

/-! ## References -/

/-- Binds type parameters to explicit type arguments. -/
def explicitBindings (f : State) (u : UnitId) (typeParams : List DeclId)
    (typeArgs : List TypeRef) : Bindings :=
  (typeParams.zip typeArgs).filterMap fun (p, a) => (f.typeRef? u a.mark).map fun t => (p, t)

/-- Substitutes explicit type arguments for the type parameters of a declaration. -/
def applyTypeArgs (f : State) (u : UnitId) (d : DeclId) (typeArgs : List TypeRef) (t : Ty)
    (x : Expr) : Rule Ty := do
  if typeArgs.isEmpty then return t
  let decl := f.graph.decl d
  let typeParams := decl.shape.typeParams
  if typeParams.length ≠ typeArgs.length then
    reportAt (.expr x) ("wrong number of type arguments to: " ++ decl.name)
  return f.graph.hierarchy.substitute (explicitBindings f u typeParams typeArgs) t

/-- The type of a reference to a type declaration as a value. -/
def typeReference (f : State) (u : UnitId) (d : DeclId) (typeArgs : List TypeRef) (x : Expr) :
    Rule Ty :=
  applyTypeArgs f u d typeArgs (.applied (f.graph.hierarchy.declared d)) x

/-- The rule of unqualified references. -/
def referenceRule (f : State) (u : UnitId) (x : Expr) (sort : RefSort) (name : Name)
    (typeArgs : List TypeRef) : Rule Verdict := do
  let scope := f.scopeAt u x.mark
  match sort with
  | .member =>
    match f.lookup? u scope name.text .values with
    | none =>
      reportAt (.expr x) ("could not determine target of base member reference: " ++ name.text)
      return { type := .unknown }
    | some d =>
      let declared ← typeOfDecl f d (.expr x)
      return { type := ← applyTypeArgs f u d typeArgs declared x, target := some d }
  | .type =>
    match f.lookup? u scope name.text .types with
    | none =>
      reportAt (.expr x) ("could not determine target of base type reference: " ++ name.text)
      return { type := .unknown }
    | some d => return { type := ← typeReference f u d typeArgs x, target := some d }

/-- What members are selected from: the definite type for `?.`, the element type for `*.`. -/
def unwrap (f : State) (primary : Typed) (op : MemberOp) : Rule Ty := do
  let t := primary.type
  if !t.isKnown then return .unknown
  let h := f.graph.hierarchy
  match op with
  | .plain => return t
  | .safe =>
    if f.builtins.isOptional h t then return f.builtins.definite h t
    else
      reportAt (.expr primary.expr) "receiver not of optional type"
      return .unknown
  | .spread =>
    match h.supertype? t f.builtins.sequence with
    | some ⟨_, a :: _⟩ => return a
    | _ =>
      reportAt (.expr primary.expr) "receiver not of type: Sequence"
      return .unknown

/-- Turns the type of a member into that of the whole reference, the reverse of `unwrap`. -/
def rewrap (f : State) (t : Ty) (op : MemberOp) : Ty :=
  if t.isKnown then
    match op with
    | .plain => t
    | .safe => f.builtins.optional f.graph.hierarchy t
    | .spread => f.builtins.sequenceOf t
  else .unknown

/-- Finds the member that a qualified reference selects, with the supertype of the receiver for its
container.  A member that is not shared may be referred to only inside its container. -/
def selectMember (f : State) (u : UnitId) (x : Expr) (primary : Typed) (op : MemberOp)
    (name : Name) (filter : Filter) : Rule (Option (DeclId × Option Applied)) := do
  let recv ← unwrap f primary op
  if !recv.isKnown then return none
  match f.memberOf? recv name.text filter with
  | none =>
    reportAt (.expr x) ("could not determine target of member reference: " ++ name.text)
    return none
  | some (d, sup) =>
    if !f.isVisible d (f.scopeAt u x.mark) then
      reportAt (.expr x) ("target of member reference is not shared: " ++ name.text)
    return some (d, sup)

/-- The bindings of a supertype, empty if there is none. -/
def bindingsOf (h : Hierarchy) : Option Applied → Bindings
  | none => []
  | some t => h.bindings t

/-- The rule of qualified references. -/
def qualifiedRule (f : State) (u : UnitId) (x : Expr) (primary : Typed) (op : MemberOp)
    (sort : RefSort) (name : Name) (typeArgs : List TypeRef) : Rule Verdict := do
  match sort with
  | .member =>
    match ← selectMember f u x primary op name .values with
    | none => return { type := .unknown }
    | some (d, sup) =>
      let declared ← typeOfDecl f d (.expr x)
      let h := f.graph.hierarchy
      let t ← applyTypeArgs f u d typeArgs (h.substitute (bindingsOf h sup) declared) x
      return { type := rewrap f t op, target := some d, receiver := sup }
  | .type =>
    match ← selectMember f u x primary op name .types with
    | none => return { type := .unknown }
    | some (d, sup) =>
      let t ← typeReference f u d typeArgs x
      return { type := rewrap f t op, target := some d, receiver := sup }

/-- The rule of `this`, `outer` and `super`. -/
def selfRule (f : State) (u : UnitId) (x : Expr) (kind : SelfKind) : Rule Verdict := do
  let enclosing := f.graph.enclosingType? (f.scopeAt u x.mark)
  let declared (d : DeclId) : Verdict := { type := .applied (f.graph.hierarchy.declared d) }
  match kind with
  | .this =>
    match enclosing with
    | some d => return declared d
    | none =>
      reportAt (.expr x) "this appears outside a class or interface"
      return { type := .unknown }
  | .outer =>
    match enclosing.bind fun d => f.graph.enclosingType? (f.graph.decl d).scope with
    | some d => return declared d
    | none =>
      reportAt (.expr x) "outer appears outside a nested class or interface"
      return { type := .unknown }
  | .super =>
    let extended := enclosing.bind fun d =>
      let shape := (f.graph.decl d).shape
      if shape.isClass then shape.generic.extended else none
    match extended with
    | some t => return { type := .applied t }
    | none =>
      reportAt (.expr x) "super appears outside a class with a superclass"
      return { type := .unknown }

/-! ## Invocations -/

/-- The explicit type arguments of a reference. -/
def typeArgsOf : Expr → List TypeRef
  | .reference _ _ _ typeArgs => typeArgs
  | .qualified _ _ _ _ _ typeArgs => typeArgs
  | _ => []

/-- The operator by which a reference selects its member. -/
def memberOpOf : Expr → MemberOp
  | .qualified _ _ op .. => op
  | _ => .plain

/-- The type arguments of an invocation of `primary`: those it gives, or else those that its arguments
lead to.  A member inherits the arguments of the type it belongs to. -/
def invocationBindings (f : State) (u : UnitId) (x : Expr) (primary : Typed)
    (typeParams params : List DeclId) (args : TypedArguments) : Rule Bindings :=
  let inherited := bindingsOf f.graph.hierarchy primary.receiver
  let explicit := typeArgsOf primary.expr.unparen
  if !explicit.isEmpty then return explicitBindings f u typeParams explicit ++ inherited
  else inferTypeArguments f x typeParams params args inherited

/-- The type of an invocation `x` of `primary`. -/
def invocationType (f : State) (u : UnitId) (x : Expr) (primary : Typed) (args : TypedArguments) :
    Rule Ty := do
  let callee := primary.expr.unparen
  let invocable := primary.target.filter fun d => match (f.graph.decl d).shape with
    | .ofClass .. | .method .. => true
    | _ => false
  match invocable with
  | none =>
    if primary.target.isSome || primary.type.isKnown then
      reportAt (.expr primary.expr) "receiving expression cannot be invoked"
    return .unknown
  | some d =>
    let shape := (f.graph.decl d).shape
    match shape.params? with
    | none =>
      reportAt (.expr primary.expr) "receiver does not define a parameter list"
      return .unknown
    | some params =>
      let bound ← invocationBindings f u x primary shape.typeParams params args
      matchArguments f params args bound
      match shape with
      | .method .. =>
        let declared ← typeOfDecl f d (.expr x)
        return rewrap f (f.graph.hierarchy.substitute bound declared) (memberOpOf callee)
      | _ =>
        let typeArgs := shape.typeParams.map fun p =>
          (bound.lookup p).getD (.applied ⟨p, []⟩)
        return rewrap f (.applied ⟨d, typeArgs⟩) (memberOpOf callee)

/-! ## Other expressions -/

/-- The type of an enumerated sequence. -/
def sequenceType (f : State) (x : Expr) (elems : List Typed) : Rule Ty := do
  if elems.isEmpty then
    reportAt (.expr x) "could not infer type of sequence enumeration"
    return .unknown
  let element := f.graph.hierarchy.unite (elems.map (·.type))
  return if element.isKnown then f.builtins.sequenceOf element else .unknown

/-- The subscripts of an index with their types. -/
inductive TypedSubscript where
  | element (index : Typed)
  | span (lower upper : Typed)
  | tail (lower : Typed)

/-- Whether a problem has been reported in the subscripts. -/
def TypedSubscript.faulty : TypedSubscript → Bool
  | .element index => index.faulty
  | .span lower upper => lower.faulty || upper.faulty
  | .tail lower => lower.faulty

/-- Reports a subscript that is not assignable to the type of the keys. -/
def checkIndex (f : State) (key : Ty) (a : Typed) : Rule Unit :=
  assignable f a.type key (.expr a.expr) "index not assignable to key type"

/-- The type of an index into a correspondence.  One element may be missing, so its type is optional; a
range of elements is a sequence. -/
def subscriptType (f : State) (key item : Ty) (safe : Bool) (subscript : TypedSubscript) :
    Rule Ty := do
  let h := f.graph.hierarchy
  let items := f.builtins.sequenceOf item
  let items := if safe then f.builtins.optional h items else items
  match subscript with
  | .element index =>
    checkIndex f key index
    return f.builtins.optional h item
  | .span lower upper =>
    checkIndex f key lower
    checkIndex f key upper
    return items
  | .tail lower =>
    checkIndex f key lower
    return items

/-- The type of an index. -/
def indexType (f : State) (primary : Typed) (safe : Bool) (subscript : TypedSubscript) :
    Rule Ty := do
  let t := primary.type
  if !t.isKnown then return .unknown
  let h := f.graph.hierarchy
  if safe && !f.builtins.isOptional h t then
    reportAt (.expr primary.expr) "receiver not of optional type"
    return .unknown
  let receiver := if safe then f.builtins.definite h t else t
  match h.supertype? receiver f.builtins.correspondence with
  | some ⟨_, key :: item :: _⟩ => subscriptType f key item safe subscript
  | _ =>
    reportAt (.expr primary.expr) "receiver not of type: Correspondence"
    return .unknown

/-- Reports the operand of `exists` if it is not optional. -/
def checkOptional (f : State) (x : Typed) : Rule Unit :=
  if x.type.isKnown && !f.builtins.isOptional f.graph.hierarchy x.type then
    reportAt (.expr x.expr) "expression must be of optional type"
  else return

/-- Reports the operand of `nonempty` if it is no container. -/
def checkContainer (f : State) (x : Typed) : Rule Unit :=
  let h := f.graph.hierarchy
  if x.type.isKnown && (h.supertype? (f.builtins.definite h x.type) f.builtins.container).isNone
  then reportAt (.expr x.expr) "expression must be of type: Container"
  else return

/-- The type of a literal. -/
def literalType (b : Builtins) : LiteralKind → Ty
  | .string => Builtins.plain b.string
  | .natural => Builtins.plain b.integer
  | .float => Builtins.plain b.float
  | .character => Builtins.plain b.character
  | .quoted => Builtins.plain b.quoted

/-! ## All expressions -/

mutual

/-- Whether a type reference gives some type the wrong number of arguments, which has been reported. -/
def misapplied (f : State) (u : UnitId) : TypeRef → Bool
  | .base b => misappliedBase f u b
  | .union _ first more => misapplied f u first || anyMisapplied f u more
  | .optional _ inner => misapplied f u inner

/-- Whether a type or one of its arguments has the wrong number of arguments. -/
def misappliedBase (f : State) (u : UnitId) : BaseType → Bool
  | { mark, args, .. } =>
    (match f.typeRef? u mark with
      | some (.applied a) => decide (args.length ≠ a.args.length)
      | _ => false) || anyMisapplied f u args

/-- Whether one of several type references gives some type the wrong number of arguments. -/
def anyMisapplied (f : State) (u : UnitId) : List TypeRef → Bool
  | [] => false
  | t :: ts => misapplied f u t || anyMisapplied f u ts

end

/-- Applies the rule of an expression and records what it finds out. -/
def conclude (x : Expr) (faulty : Bool) (rule : Rule Verdict) : Check Typed := do
  let (v, reported) ← applyRule (watched rule)
  settle x.mark v.type v.target
  return ⟨x, v.type, v.target, v.receiver, faulty || reported⟩

/-- Applies the rule of an expression that refers to nothing. -/
def concludeType (x : Expr) (faulty : Bool) (rule : Rule Ty) : Check Typed :=
  conclude x faulty do return { type := ← rule }

mutual

/-- Checks an expression. -/
def checkExpr (f : State) (u : UnitId) : Expr → Check Typed
  | .reference mark sort name typeArgs =>
    let x := .reference mark sort name typeArgs
    conclude x (anyMisapplied f u typeArgs) (referenceRule f u x sort name typeArgs)
  | .qualified mark primary op sort name typeArgs => do
    let p ← checkExpr f u primary
    let x := .qualified mark primary op sort name typeArgs
    conclude x (p.faulty || anyMisapplied f u typeArgs)
      (qualifiedRule f u x p op sort name typeArgs)
  | .invocation mark primary args => do
    let p ← checkExpr f u primary
    let typed ← checkArguments f u args
    let x := .invocation mark primary args
    concludeType x (p.faulty || typed.faulty) (invocationType f u x p typed)
  | .index mark primary safe subscript => do
    let p ← checkExpr f u primary
    let typed ← checkSubscript f u subscript
    concludeType (.index mark primary safe subscript) (p.faulty || typed.faulty)
      (indexType f p safe typed)
  | .literal mark kind text =>
    concludeType (.literal mark kind text) false (return literalType f.builtins kind)
  | .self mark kind =>
    conclude (.self mark kind) false (selfRule f u (.self mark kind) kind)
  | .sequence mark elems => do
    let typed ← checkExprs f u elems
    concludeType (.sequence mark elems) (typed.any (·.faulty))
      (sequenceType f (.sequence mark elems) typed)
  | .paren mark x => do
    let t ← checkExpr f u x
    settle mark t.type none
    return { t with expr := .paren mark x }
  | .binary mark op x y => do
    let l ← checkExpr f u x
    let r ← checkExpr f u y
    concludeType (.binary mark op x y) (l.faulty || r.faulty)
      (binaryType f op l r)
  | .prefixed mark op x => do
    let t ← checkExpr f u x
    concludeType (.prefixed mark op x) t.faulty (prefixType f op t)
  | .postfixed mark op x => do
    let t ← checkExpr f u x
    concludeType (.postfixed mark op x) t.faulty (stepType f t)
  | .isTest mark x type => do
    let t ← checkExpr f u x
    concludeType (.isTest mark x type) (t.faulty || misapplied f u type)
      (return Builtins.plain f.builtins.boolean)
  | .existsTest mark x => do
    let t ← checkExpr f u x
    concludeType (.existsTest mark x) t.faulty do
      checkOptional f t
      return Builtins.plain f.builtins.boolean
  | .nonemptyTest mark x => do
    let t ← checkExpr f u x
    concludeType (.nonemptyTest mark x) t.faulty do
      checkContainer f t
      return Builtins.plain f.builtins.boolean

/-- Checks expressions one after the other. -/
def checkExprs (f : State) (u : UnitId) : List Expr → Check (List Typed)
  | [] => return []
  | x :: xs => do
    let t ← checkExpr f u x
    return t :: (← checkExprs f u xs)

/-- Checks arguments. -/
def checkArguments (f : State) (u : UnitId) : Arguments → Check TypedArguments
  | .positional { mark, args } =>
    return .positional { mark, args } (← checkExprs f u args)
  | .named { mark, args, sequenced } => do
    let named ← checkNamed f u args
    let rest ← checkSequenced f u sequenced
    return .named { mark, args, sequenced } named rest

/-- Checks named arguments. -/
def checkNamed (f : State) (u : UnitId) : List NamedArg → Check (List (Name × Typed))
  | [] => return []
  | { name, value, .. } :: as => do
    let t ← checkExpr f u value
    return (name, t) :: (← checkNamed f u as)

/-- Checks sequenced arguments. -/
def checkSequenced (f : State) (u : UnitId) : Option SequencedArg → Check (List Typed)
  | none => return []
  | some { values, .. } => checkExprs f u values

/-- Checks subscripts. -/
def checkSubscript (f : State) (u : UnitId) : Subscript → Check TypedSubscript
  | .element index => return .element (← checkExpr f u index)
  | .span lower upper => return .span (← checkExpr f u lower) (← checkExpr f u upper)
  | .tail lower => return .tail (← checkExpr f u lower)

end

end Ceylon.Analysis
