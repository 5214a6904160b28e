import Ceylon.Syntax.Parser.Type

/-!
# Parsing expressions

Operators bind in levels, loosest first: assignment, the default operator, the nine levels of
`binaryLevels`, the power operator, unary operators before and after their operand, and primaries.
Assignment and power group to the right, the others to the left.
-/

namespace Ceylon.Syntax

open Token (Buffer Kind)

/-- Operators that bind equally tight. -/
structure Level where
  operators : List BinaryOp
  /-- Whether the test for a type is among them. -/
  hasTest : Bool := false

/-- The binary operators that group to the left, loosest first. -/
def binaryLevels : Array Level := #[
  { operators := [.of .or] },
  { operators := [.of .and] },
  { operators := [.of .equal, .of .notEqual, .of .identical] },
  { operators := [.of .smaller, .of .larger, .of .smallAs, .of .largeAs, .of .compare, .of .kwIn]
    hasTest := true },
  { operators := [.of .entry, .of .range] },
  { operators := [.of .union, .of .xor, .of .complement] },
  { operators := [.of .intersect] },
  { operators := [.of .plus, .of .minus] },
  { operators := [.of .times, .of .divide, .of .remainder] }]

/-- The loosest level that binds tighter than a range; subscripts are made of it. -/
def levelAboveRange : Nat :=
  5

/-- The text of a literal inside its delimiters: a backslash makes a line end, tab or return out of
`n`, `t` and `r`, and otherwise stands for the character behind it. -/
def unescape : List Char → List Char
  | '\\' :: c :: rest =>
    (match c with
      | 'n' => '\n'
      | 't' => '\t'
      | 'r' => '\r'
      | c => c) :: unescape rest
  | c :: rest => c :: unescape rest
  | [] => []

/-- The text that a delimited literal stands for. -/
def unquote (text : String) : String :=
  String.ofList (unescape text.toList.tail.dropLast)

namespace Parser

/-- Explicit type arguments, read only where an argument list or a member selector follows them: else
the angle bracket is a comparison. -/
def typeArgsIfInvocation : Parser (List TypeRef) := do
  if (← peekKind) ≠ .smaller then return []
  match ← typeArgsEnd? 0 with
  | none => return []
  | some n =>
    match ← kindAt n with
    | .parenL | .braceL | .member => typeArgs
    | _ => return []

/-- A literal, which is the next token. -/
def literal (kind : LiteralKind) : Parser Expr := do
  let t ← next
  let text := match kind with
    | .natural | .float => t.text
    | _ => unquote t.text
  return .literal { pos := t.pos } kind text

/-- A reserved reference, which is the next token. -/
def selfReference (kind : SelfKind) : Parser Expr :=
  return .self { pos := (← next).pos } kind

mutual

/-- An expression. -/
def exprWithin : (depth : Nat) → Parser Expr
  | 0 => fail .tooDeep
  | depth + 1 => do
    let x ← defaultWithin depth
    match BinaryOp.assignment? (← peekKind) with
    | some op =>
      discard next
      return .binary { pos := x.mark.pos } op x (← exprWithin depth)
    | none => return x

/-- Operands joined by the default operator. -/
def defaultWithin : (depth : Nat) → Parser Expr
  | 0 => fail .tooDeep
  | depth + 1 => do moreDefaultsWithin (← binaryWithin 0 depth) depth

/-- The further operands of the default operator. -/
def moreDefaultsWithin (x : Expr) : (depth : Nat) → Parser Expr
  | 0 => fail .tooDeep
  | depth + 1 => do
    if (← peekKind) = .default then
      discard next
      let y ← binaryWithin 0 depth
      moreDefaultsWithin (.binary { pos := x.mark.pos } (.of .default) x y) depth
    else return x

/-- Operands joined by the operators of a level or of tighter ones. -/
def binaryWithin (level : Nat) : (depth : Nat) → Parser Expr
  | 0 => fail .tooDeep
  | depth + 1 => do
    match binaryLevels[level]? with
    | none => powerWithin depth
    | some { operators, hasTest } =>
      moreOperandsWithin level operators hasTest (← binaryWithin (level + 1) depth) depth

/-- The further operands of a level. -/
def moreOperandsWithin (level : Nat) (operators : List BinaryOp) (hasTest : Bool) (x : Expr) :
    (depth : Nat) → Parser Expr
  | 0 => fail .tooDeep
  | depth + 1 => do
    let mark : Mark := { pos := x.mark.pos }
    let kind ← peekKind
    if hasTest && kind = .kwIs then
      discard next
      let t ← type
      moreOperandsWithin level operators hasTest (.isTest mark x t) depth
    else match operators.find? (·.kind = kind) with
      | some op =>
        discard next
        let y ← binaryWithin (level + 1) depth
        moreOperandsWithin level operators hasTest (.binary mark op x y) depth
      | none => return x

/-- An operand and its power. -/
def powerWithin : (depth : Nat) → Parser Expr
  | 0 => fail .tooDeep
  | depth + 1 => do
    let x ← prefixWithin depth
    if (← peekKind) = .power then
      discard next
      return .binary { pos := x.mark.pos } (.of .power) x (← powerWithin depth)
    else return x

/-- An operand behind unary operators. -/
def prefixWithin : (depth : Nat) → Parser Expr
  | 0 => fail .tooDeep
  | depth + 1 => do
    match UnaryOp.ofKind? (← peekKind) with
    | some op =>
      let mark : Mark := { pos := (← next).pos }
      return .prefixed mark op (← prefixWithin depth)
    | none => postfixWithin (← primaryWithin depth) depth

/-- The unary operators behind an operand. -/
def postfixWithin (x : Expr) : (depth : Nat) → Parser Expr
  | 0 => fail .tooDeep
  | depth + 1 => do
    let mark : Mark := { pos := x.mark.pos }
    match ← peekKind with
    | .increment | .decrement => do
      let op ← next
      postfixWithin (.postfixed mark op.kind x) depth
    | .kwExists => do
      discard next
      postfixWithin (.existsTest mark x) depth
    | .kwNonempty => do
      discard next
      postfixWithin (.nonemptyTest mark x) depth
    | _ => return x

/-- An atom with the selectors and arguments behind it. -/
def primaryWithin : (depth : Nat) → Parser Expr
  | 0 => fail .tooDeep
  | depth + 1 => do selectorsWithin (← atomWithin depth) depth

/-- The selectors and arguments behind an operand. -/
def selectorsWithin (x : Expr) : (depth : Nat) → Parser Expr
  | 0 => fail .tooDeep
  | depth + 1 => do
    let mark : Mark := { pos := x.mark.pos }
    match ← peekKind with
    | .member | .safeMember | .spread => do
      let op := match (← next).kind with
        | .safeMember => MemberOp.safe
        | .spread => MemberOp.spread
        | _ => MemberOp.plain
      if (← peekKind) = .upperName then
        let name ← upperName
        selectorsWithin (.qualified mark x op .type name (← typeArgsIfInvocation)) depth
      else
        let name ← lowerName
        selectorsWithin (.qualified mark x op .member name (← typeArgsIfInvocation)) depth
    | .bracketL | .safeIndex => do
      let safe := (← next).kind = .safeIndex
      let subscript ← subscriptWithin depth
      discard (expect .bracketR)
      selectorsWithin (.index mark x safe subscript) depth
    | .parenL => do
      let args ← positionalWithin depth
      selectorsWithin (.invocation mark x (.positional args)) depth
    | .braceL =>
      if x.isReference then do
        let args ← namedWithin depth
        selectorsWithin (.invocation mark x (.named args)) depth
      else return x
    | _ => return x

/-- What stands between the brackets of an index. -/
def subscriptWithin : (depth : Nat) → Parser Subscript
  | 0 => fail .tooDeep
  | depth + 1 => do
    let lower ← binaryWithin levelAboveRange depth
    if ← accept .range then return .span lower (← binaryWithin levelAboveRange depth)
    else if ← accept .ellipsis then return .tail lower
    else return .element lower

/-- A name, a literal, a reserved reference, or a bracketed expression. -/
def atomWithin : (depth : Nat) → Parser Expr
  | 0 => fail .tooDeep
  | depth + 1 => do
    let t ← peek
    let mark : Mark := { pos := t.pos }
    match t.kind with
    | .lowerName => do
      let name ← lowerName
      return .reference mark .member name (← typeArgsIfInvocation)
    | .upperName => do
      let name ← upperName
      return .reference mark .type name (← typeArgsIfInvocation)
    | .string => literal .string
    | .natural => literal .natural
    | .float => literal .float
    | .character => literal .character
    | .quoted => literal .quoted
    | .kwThis => selfReference .this
    | .kwOuter => selfReference .outer
    | .kwSuper => selfReference .super
    | .parenL => do
      discard next
      let x ← exprWithin depth
      discard (expect .parenR)
      return .paren mark x
    | .braceL => do
      discard next
      let elems ← exprsWithin .braceR depth
      discard (expect .braceR)
      return .sequence mark elems
    | _ => fail (.unexpected t)

/-- Expressions between commas up to the closing token, which may follow a comma too. -/
def exprsWithin (close : Kind) : (depth : Nat) → Parser (List Expr)
  | 0 => fail .tooDeep
  | depth + 1 => do
    if (← peekKind) = close then return []
    let x ← exprWithin depth
    if ← accept .comma then return x :: (← exprsWithin close depth)
    else return [x]

/-- Arguments in parentheses. -/
def positionalWithin : (depth : Nat) → Parser PositionalArgs
  | 0 => fail .tooDeep
  | depth + 1 => do
    let mark : Mark := { pos := (← expect .parenL).pos }
    let args ← exprsWithin .parenR depth
    discard (expect .parenR)
    return { mark, args }

/-- Arguments in braces. -/
def namedWithin : (depth : Nat) → Parser NamedArgs
  | 0 => fail .tooDeep
  | depth + 1 => do
    let mark : Mark := { pos := (← expect .braceL).pos }
    let args ← namedArgsWithin depth
    if (← peekKind) = .braceR then
      discard (expect .braceR)
      return { mark, args, sequenced := none }
    else
      let seqMark ← here
      let values ← sequencedWithin depth
      discard (expect .braceR)
      return { mark, args, sequenced := some { mark := seqMark, values } }

/-- The arguments that have a name. -/
def namedArgsWithin : (depth : Nat) → Parser (List NamedArg)
  | 0 => fail .tooDeep
  | depth + 1 => do
    if (← peekKind) = .lowerName && (← kindAt 1) = .specify then
      let mark ← here
      let name ← lowerName
      discard (expect .specify)
      let value ← exprWithin depth
      discard (expect .semicolon)
      return { mark, name, value } :: (← namedArgsWithin depth)
    else return []

/-- Expressions between commas, at least one. -/
def sequencedWithin : (depth : Nat) → Parser (List Expr)
  | 0 => fail .tooDeep
  | depth + 1 => do
    let x ← exprWithin depth
    if ← accept .comma then return x :: (← sequencedWithin depth)
    else return [x]

end

/-- The depth that suffices for the expressions in what is left of a buffer. -/
def exprDepth (b : Buffer) : Nat :=
  32 * (b.remaining + 1)

/-- An expression. -/
def expr : Parser Expr := do
  exprWithin (exprDepth (← get))

/-- Arguments in parentheses. -/
def positional : Parser PositionalArgs := do
  positionalWithin (exprDepth (← get))

/-- An expression that makes up the whole text, but for a semicolon behind it. -/
def wholeExpr : Parser Expr := do
  let x ← expr
  discard (accept .semicolon)
  if (← get).atEnd then return x else fail (.trailing (← peek))

end Parser

end Ceylon.Syntax
