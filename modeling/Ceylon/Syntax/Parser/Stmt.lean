import Ceylon.Syntax.Parser.Expr

/-!
# Parsing declarations and statements
-/

namespace Ceylon.Syntax

open Token (Buffer Kind)

namespace Parser

/-! ## Annotations -/

/-- The kinds of tokens that may follow an annotation. -/
def annotated : List Kind :=
  [.lowerName, .upperName, .kwClass, .kwInterface, .kwVoid, .kwValue, .kwFunction, .kwAssign]

/-- The number of annotation words from `n` tokens ahead on.  An annotation is no reserved word, so it
counts as one only in front of a further annotation or a declaration. -/
def annotationsFrom (b : Buffer) : (depth : Nat) → (n : Nat) → Nat
  | 0, _ => 0
  | depth + 1, n =>
    let t := b.peekAt n
    if t.kind = .lowerName && Annotations.isWord t.text
        && annotated.contains (b.peekAt (n + 1)).kind then
      annotationsFrom b depth (n + 1) + 1
    else 0

/-- The number of annotation words ahead. -/
def annotationCount : Parser Nat := do
  let b ← get
  return annotationsFrom b b.remaining 0

/-- Reads `n` annotation words. -/
def annotations : (n : Nat) → (a : Annotations) → Parser Annotations
  | 0, a => return a
  | n + 1, a => do
    let t ← next
    annotations n ((a.set? t.text).getD a)

/-! ## Parts of declarations -/

/-- `value`, or a type. -/
def valueType : Parser DeclaredType := do
  if (← peekKind) = .kwValue then return .inferred { pos := (← next).pos } false
  else return .ref (← type)

/-- `void` or `function`. -/
def resultType : Parser DeclaredType := do
  let t ← next
  if t.kind = .kwVoid then return .void { pos := t.pos }
  else return .inferred { pos := t.pos } true

/-- Type parameters between commas. -/
def typeParamsWithin : (depth : Nat) → Parser (List TypeParameter)
  | 0 => fail .tooDeep
  | depth + 1 => do
    let mark ← here
    let variance ← do
      if ← accept .kwOut then pure Variance.covariant
      else if ← accept .kwIn then pure Variance.contravariant
      else pure Variance.invariant
    let name ← upperName
    if ← accept .comma then return { mark, variance, name } :: (← typeParamsWithin depth)
    else return [{ mark, variance, name }]

/-- The type parameters of a declaration, if it has any. -/
def typeParams : Parser (List TypeParameter) := do
  if ← accept .smaller then
    let params ← typeParamsWithin (← get).remaining
    discard (expect .larger)
    return params
  else return []

/-- Parameters between commas up to the closing parenthesis, which may follow a comma too. -/
def paramsWithin : (depth : Nat) → Parser (List Parameter)
  | 0 => fail .tooDeep
  | depth + 1 => do
    if (← peekKind) = .parenR then return []
    let mark ← here
    let annotations ← annotations (← annotationCount) {}
    let type ← type
    let sequenced ← accept .ellipsis
    let name ← lowerName
    let default ← do
      if ← accept .specify then pure (some (← expr)) else pure none
    let param : Parameter := { mark, annotations, type, sequenced, name, default }
    if ← accept .comma then return param :: (← paramsWithin depth) else return [param]

/-- The parameters of a declaration. -/
def params : Parser ParameterList := do
  let mark : Mark := { pos := (← expect .parenL).pos }
  let params ← paramsWithin ((← get).remaining + 1)
  discard (expect .parenR)
  return { mark, params }

/-- The interfaces a declaration satisfies. -/
def satisfied : Parser (List TypeRef) := do
  if ← accept .kwSatisfies then return (← type) :: (← moreTypes) else return []

/-- The class a class extends, if it says so. -/
def extended : Parser (Option ExtendedType) := do
  if (← peekKind) = .kwExtends then
    let mark : Mark := { pos := (← next).pos }
    return some { mark, type := ← baseType, args := ← positional }
  else return none

/-! ## Conditions and iterations -/

/-- A variable that takes its type from its specifier. -/
def inferredVariable : Parser Guard := do
  let mark ← here
  let name ← lowerName
  discard (expect .specify)
  return { mark, type := .inferred mark false, name, specifier := ← expr }

/-- What `exists` and `nonempty` test: a variable with its specifier, or an expression. -/
def operand : Parser Operand := do
  let declares ← match ← peekKind with
    | .kwValue => pure true
    | .lowerName => pure ((← kindAt 1) = .specify)
    | .upperName => do
      match ← typeEnd? 0 with
      | some n => pure ((← kindAt n) = .lowerName && (← kindAt (n + 1)) = .specify)
      | none => pure false
    | _ => pure false
  if !declares then return .value (← expr)
  else if (← peekKind) = .lowerName then return .var (← inferredVariable)
  else
    let mark ← here
    let type ← valueType
    let name ← lowerName
    discard (expect .specify)
    return .var { mark, type, name, specifier := ← expr }

/-- A condition. -/
def condition : Parser Condition := do
  let mark ← here
  match ← peekKind with
  | .kwExists => do
    discard next
    return .exists mark (← operand)
  | .kwNonempty => do
    discard next
    return .nonempty mark (← operand)
  | .kwIs => do
    discard next
    let type ← type
    if (← peekKind) = .lowerName && (← kindAt 1) = .specify then
      return .is mark type (.var (← inferredVariable))
    else return .is mark type (.value (← expr))
  | _ => return .boolean mark (← expr)

/-- A loop variable. -/
def loopVariable : Parser LoopVariable := do
  let mark ← here
  let type ← valueType
  return { mark, type, name := ← lowerName }

/-- What a `for` goes over. -/
def iteration : Parser Iteration := do
  let mark ← here
  let first ← loopVariable
  if ← accept .entry then
    let value ← loopVariable
    discard (expect .kwIn)
    return .entries mark first value (← expr)
  else
    discard (expect .kwIn)
    return .values mark first (← expr)

/-! ## Statements -/

/-- An attribute, from its name on. -/
def attributeDecl (mark : Mark) (annotations : Annotations) (type : DeclaredType) :
    Parser AttributeDecl := do
  let name ← lowerName
  let init ← do
    if ← accept .specify then pure (.specified (← expr))
    else if ← accept .assign then pure (.assigned (← expr))
    else pure .absent
  discard (expect .semicolon)
  return { mark, annotations, type, name, init }

/-- Whether a declaration comes next, behind `n` annotations. -/
def startsDeclaration (n : Nat) : Parser Bool := do
  match ← kindAt n with
  | .kwClass | .kwInterface | .kwVoid | .kwValue | .kwFunction | .kwAssign => return true
  | .upperName =>
    match ← typeEnd? n with
    | some last => return (← kindAt last) = .lowerName
    | none => return false
  | _ =>
    if n = 0 then return false
    else fail (.afterAnnotations ((← get).peekAt n))

mutual

/-- A statement or declaration. -/
def stmtWithin : (depth : Nat) → Parser Stmt
  | 0 => fail .tooDeep
  | depth + 1 => do
    let mark ← here
    match ← peekKind with
    | .kwReturn => do
      discard next
      let x ← do
        if (← peekKind) = .semicolon then pure none else pure (some (← expr))
      discard (expect .semicolon)
      return .return mark x
    | .kwBreak => do
      discard next
      discard (expect .semicolon)
      return .break mark
    | .kwContinue => do
      discard next
      discard (expect .semicolon)
      return .continue mark
    | .kwIf => return .ifElse (← ifWithin depth)
    | .kwWhile => do
      discard next
      discard (expect .parenL)
      let cond ← condition
      discard (expect .parenR)
      return .while mark { mark, cond, body := ← blockWithin depth }
    | .kwFor => forWithin depth
    | _ => do
      let count ← annotationCount
      if ← startsDeclaration count then declarationWithin mark count depth
      else
        let x ← expr
        discard (expect .semicolon)
        return .expr mark x

/-- A declaration, behind `count` annotations. -/
def declarationWithin (mark : Mark) (count : Nat) : (depth : Nat) → Parser Stmt
  | 0 => fail .tooDeep
  | depth + 1 => do
    let annotations ← annotations count {}
    match ← peekKind with
    | .kwClass => do
      discard next
      let name ← upperName
      let typeParams ← typeParams
      let params ← params
      let extended ← extended
      let satisfied ← satisfied
      let body ← blockWithin depth
      return .classDecl { mark, annotations, name, typeParams, params, extended, satisfied, body }
    | .kwInterface => do
      discard next
      let name ← upperName
      let typeParams ← typeParams
      let satisfied ← satisfied
      let body ← blockWithin depth
      return .interfaceDecl { mark, annotations, name, typeParams, satisfied, body }
    | .kwAssign => do
      discard next
      let name ← lowerName
      return .setter { mark, annotations, name, body := ← blockWithin depth }
    | .kwVoid | .kwFunction => do methodWithin mark annotations (← resultType) depth
    | _ => do
      let type ← valueType
      match ← kindAt 1 with
      | .parenL | .smaller => methodWithin mark annotations type depth
      | .braceL => do
        let name ← lowerName
        return .getter { mark, annotations, type, name, body := ← blockWithin depth }
      | _ => return .attribute (← attributeDecl mark annotations type)

/-- A method, from its name on. -/
def methodWithin (mark : Mark) (annotations : Annotations) (type : DeclaredType) :
    (depth : Nat) → Parser Stmt
  | 0 => fail .tooDeep
  | depth + 1 => do
    let name ← lowerName
    let typeParams ← typeParams
    let params ← params
    let body ← match ← peekKind with
      | .braceL => do pure (MethodBody.block (← blockWithin depth))
      | .compute => do
        discard next
        let x ← expr
        discard (expect .semicolon)
        pure (.computed x)
      | _ => do
        discard (expect .semicolon)
        pure .absent
    return .method { mark, annotations, type, name, typeParams, params, body }

/-- An `if` with its `else`. -/
def ifWithin : (depth : Nat) → Parser IfStmt
  | 0 => fail .tooDeep
  | depth + 1 => do
    let mark : Mark := { pos := (← expect .kwIf).pos }
    discard (expect .parenL)
    let cond ← condition
    discard (expect .parenR)
    let body ← blockWithin depth
    let clause : IfClause := { mark, cond, body }
    if (← peekKind) = .kwElse then
      let elseMark : Mark := { pos := (← next).pos }
      if (← peekKind) = .kwIf then
        return { mark, clause, alternative := some (.ifElse elseMark (← ifWithin depth)) }
      else
        return { mark, clause, alternative := some (.block elseMark (← blockWithin depth)) }
    else return { mark, clause, alternative := none }

/-- A `for` with its `fail`. -/
def forWithin : (depth : Nat) → Parser Stmt
  | 0 => fail .tooDeep
  | depth + 1 => do
    let mark : Mark := { pos := (← expect .kwFor).pos }
    discard (expect .parenL)
    let iteration ← iteration
    discard (expect .parenR)
    let body ← blockWithin depth
    let clause : ForClause := { mark, iteration, body }
    if (← peekKind) = .kwFail then
      let failMark : Mark := { pos := (← next).pos }
      return .for mark clause (some { mark := failMark, body := ← blockWithin depth })
    else return .for mark clause none

/-- Statements in braces. -/
def blockWithin : (depth : Nat) → Parser Block
  | 0 => fail .tooDeep
  | depth + 1 => do
    let mark : Mark := { pos := (← expect .braceL).pos }
    let stmts ← stmtsWithin depth
    return { mark, stmts, close := (← expect .braceR).pos }

/-- Statements up to a closing brace. -/
def stmtsWithin : (depth : Nat) → Parser (List Stmt)
  | 0 => fail .tooDeep
  | depth + 1 => do
    match ← peekKind with
    | .braceR => return []
    | .eof => fail .unmatchedBrace
    | _ => return (← stmtWithin depth) :: (← stmtsWithin depth)

end

/-- The depth that suffices for the statements in what is left of a buffer. -/
def stmtDepth (b : Buffer) : Nat :=
  8 * (b.remaining + 1)

/-- A statement or declaration. -/
def stmt : Parser Stmt := do
  stmtWithin (stmtDepth (← get))

end Parser

end Ceylon.Syntax
