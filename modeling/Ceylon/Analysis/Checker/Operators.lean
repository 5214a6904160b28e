import Ceylon.Analysis.Checker.Basic

/-!
# Checking operators

Operators ask their operands for a supertype: a number, a slot type, an ordinal.  The first argument of
that supertype, which stands for the type itself, is what the other operand must be assignable to and what
the result is.
-/

namespace Ceylon.Analysis

open Model
open Syntax

/-- The supertype of an operand for a declaration; a missing one is reported. -/
def category (f : State) (x : Typed) (d : DeclId) : Rule (Option Applied) :=
  if !x.type.isKnown then return none
  else match f.graph.hierarchy.supertype? x.type d with
    | some st => return some st
    | none => do
      reportAt (.expr x.expr) ("must be of type: " ++ (f.graph.decl d).name)
      return none

/-- Reports an operand that is not assignable to the expected type. -/
def operand (f : State) (x : Typed) (expected : Ty) : Rule Unit :=
  if x.type.isKnown && expected.isKnown && !f.graph.hierarchy.subtype x.type expected then
    reportAt (.expr x.expr) ("must be of type: " ++ f.typeText expected)
  else return

/-- What the supertype of an operand stands for: its first argument, or itself. -/
def selfType : Option Applied → Ty
  | none => .unknown
  | some st =>
    match st.args with
    | a :: _ => if a.isKnown then a else .applied st
    | [] => .applied st

/-- Both operands must be of the category, and the right one assignable to what the left one stands for,
which is the result. -/
def arithmetic (f : State) (x y : Typed) (d : DeclId) : Rule Ty := do
  match ← category f x d with
  | none =>
    discard (category f y d)
    return .unknown
  | some st =>
    let result := selfType (some st)
    operand f y result
    return result

/-- The operands must be comparable. -/
def comparison (f : State) (x y : Typed) : Rule Unit := do
  match ← category f x f.builtins.comparable with
  | none => return
  | some st => operand f y (selfType (some st))

/-- `x ?: y` has the type of `y`; `x` must be optional and fit the optional form of that type. -/
def defaultOperator (f : State) (x y : Typed) : Rule Ty := do
  if !y.type.isKnown || !x.type.isKnown then return y.type
  let h := f.graph.hierarchy
  if !f.builtins.isOptional h x.type then
    reportAt (.expr x.expr) "expression must be of optional type"
  let optional :=
    if f.builtins.isOptional h y.type then y.type else f.builtins.optional h y.type
  if !h.subtype x.type optional then
    reportAt (.expr x.expr) ("expression must be of type: " ++ f.typeText optional)
  return y.type

/-- The type of a sum, which is also the concatenation of texts. -/
def addition (f : State) (x y : Typed) : Rule Ty := do
  let string := Builtins.plain f.builtins.string
  if f.graph.hierarchy.subtype x.type string then
    operand f y string
    return string
  else arithmetic f x y f.builtins.numeric

/-- Both operands must be of the given categories. -/
def categories (f : State) (x y : Typed) (d e : DeclId) : Rule Unit := do
  discard (category f x d)
  discard (category f y e)

/-- The type of a binary operation that assigns nothing. -/
def operationType (f : State) (op : Token.Kind) (x y : Typed) : Rule Ty := do
  let b := f.builtins
  let boolean := Builtins.plain b.boolean
  match op with
  | .plus => addition f x y
  | .minus | .times | .divide | .remainder | .power => arithmetic f x y b.numeric
  | .union | .intersect | .xor | .complement => arithmetic f x y b.slots
  | .and | .or => do
    operand f x boolean
    operand f y boolean
    return boolean
  | .equal | .notEqual => do
    categories f x y b.equality b.equality
    return boolean
  | .identical => do
    categories f x y b.identifiableObject b.identifiableObject
    return boolean
  | .smaller | .larger | .smallAs | .largeAs => do
    comparison f x y
    return boolean
  | .compare => do
    comparison f x y
    return Builtins.plain b.comparison
  | .kwIn => do
    categories f x y b.object b.category
    return boolean
  | .range => do
    discard (category f x b.ordinal)
    comparison f x y
    return if x.type.isKnown then .applied ⟨b.range, [x.type]⟩ else .unknown
  | .entry => do
    categories f x y b.object b.object
    return if x.type.isKnown && y.type.isKnown then .applied ⟨b.entry, [x.type, y.type]⟩
      else .unknown
  | .default => defaultOperator f x y
  | _ => return .unknown

/-- Reports an expression that does not denote a variable. -/
def assignTarget (f : State) (x : Typed) : Rule Unit :=
  match x.target with
  | none =>
    match x.expr.unparen with
    | .reference _ .member .. => return
    | .qualified _ _ _ .member .. => return
    | callee => reportAt (.expr callee) "expression cannot be assigned"
  | some d =>
    let decl := f.graph.decl d
    let isVariable := match decl.shape with
      | .value _ isVariable => isVariable
      | .getter _ setter => setter.isSome
      | _ => false
    if !isVariable then
      reportAt (.expr x.expr.unparen) ("value is not variable: " ++ decl.name)
    else return

/-- The operation that a compound assignment performs. -/
def compound? : Token.Kind → Option Token.Kind
  | .addAssign => some .plus
  | .subtractAssign => some .minus
  | .multiplyAssign => some .times
  | .divideAssign => some .divide
  | .remainderAssign => some .remainder
  | .andAssign => some .and
  | .orAssign => some .or
  | .intersectAssign => some .intersect
  | .unionAssign => some .union
  | .xorAssign => some .xor
  | .complementAssign => some .complement
  | _ => none

/-- The type of an assignment, which is that of its target. -/
def assignmentType (f : State) (op : Token.Kind) (x y : Typed) : Rule Ty := do
  assignTarget f x
  match compound? op with
  | none =>
    assignable f y.type x.type (.expr y.expr)
      "assigned expression not assignable to declared type"
    return x.type
  | some op =>
    discard (operationType f op x y)
    return x.type

/-- The type of a binary operation. -/
def binaryType (f : State) (op : BinaryOp) (x y : Typed) : Rule Ty :=
  if op.kind.isAssignment then assignmentType f op.kind x y else operationType f op.kind x y

/-- The type of stepping a variable up or down. -/
def stepType (f : State) (x : Typed) : Rule Ty := do
  assignTarget f x
  discard (category f x f.builtins.ordinal)
  return x.type

/-- The type of a unary operation that stands before its operand. -/
def prefixType (f : State) (op : UnaryOp) (x : Typed) : Rule Ty := do
  let b := f.builtins
  match op.kind with
  | .minus => return selfType (← category f x b.numeric)
  | .complement => return selfType (← category f x b.slots)
  | .not => do
    operand f x (Builtins.plain b.boolean)
    return Builtins.plain b.boolean
  | .format => do
    operand f x (Builtins.plain b.object)
    return Builtins.plain b.string
  | .increment | .decrement => stepType f x
  | _ => return .unknown

end Ceylon.Analysis
