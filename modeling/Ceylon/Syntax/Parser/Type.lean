import Ceylon.Syntax.Parser.Basic

/-!
# Parsing types

The grammar of types is written twice: as a parser, and as a look-ahead that finds where a type ends
without reading it.  The look-ahead decides between a declaration and an expression, and between type
arguments and a comparison.
-/

namespace Ceylon.Syntax

open Token (Buffer Kind)

namespace Parser

mutual

/-- A union of primary types. -/
def typeWithin : (depth : Nat) → Parser TypeRef
  | 0 => fail .tooDeep
  | depth + 1 => do
    let first ← primaryTypeWithin depth
    if (← peekKind) = .union then
      return .union { pos := first.mark.pos } first (← moreCasesWithin depth)
    else return first

/-- The further cases of a union, each behind its bar. -/
def moreCasesWithin : (depth : Nat) → Parser (List TypeRef)
  | 0 => fail .tooDeep
  | depth + 1 => do
    if ← accept .union then return (← primaryTypeWithin depth) :: (← moreCasesWithin depth)
    else return []

/-- A base type with any number of question marks behind it. -/
def primaryTypeWithin : (depth : Nat) → Parser TypeRef
  | 0 => fail .tooDeep
  | depth + 1 => do optionalWithin (.base (← baseTypeWithin depth)) depth

/-- The question marks behind a type. -/
def optionalWithin (t : TypeRef) : (depth : Nat) → Parser TypeRef
  | 0 => fail .tooDeep
  | depth + 1 => do
    if (← peekKind) = .question then
      discard next
      optionalWithin (.optional { pos := t.mark.pos } t) depth
    else return t

/-- A type name with its arguments. -/
def baseTypeWithin : (depth : Nat) → Parser BaseType
  | 0 => fail .tooDeep
  | depth + 1 => do
    let mark ← here
    let name ← upperName
    if (← peekKind) = .smaller then return { mark, name, args := ← typeArgsWithin depth }
    else return { mark, name, args := [] }

/-- Type arguments between angle brackets. -/
def typeArgsWithin : (depth : Nat) → Parser (List TypeRef)
  | 0 => fail .tooDeep
  | depth + 1 => do
    discard (expect .smaller)
    let first ← typeWithin depth
    let more ← moreTypesWithin depth
    discard (expect .larger)
    return first :: more

/-- The further types of a list, each behind its comma. -/
def moreTypesWithin : (depth : Nat) → Parser (List TypeRef)
  | 0 => fail .tooDeep
  | depth + 1 => do
    if ← accept .comma then return (← typeWithin depth) :: (← moreTypesWithin depth)
    else return []

end

/-- The depth that suffices for the types in what is left of a buffer. -/
def typeDepth (b : Buffer) : Nat :=
  8 * (b.remaining + 1)

/-- A type. -/
def type : Parser TypeRef := do
  typeWithin (typeDepth (← get))

/-- A type name with its arguments. -/
def baseType : Parser BaseType := do
  baseTypeWithin (typeDepth (← get))

/-- Type arguments between angle brackets. -/
def typeArgs : Parser (List TypeRef) := do
  typeArgsWithin (typeDepth (← get))

/-- The further types of a list, each behind its comma. -/
def moreTypes : Parser (List TypeRef) := do
  moreTypesWithin (typeDepth (← get))

end Parser

/-! ## Looking ahead over types -/

/-- The kinds of the tokens ahead, by their distance. -/
abbrev Ahead := Nat → Kind

namespace Ahead

mutual

/-- Where the type that begins `n` tokens ahead ends, if one begins there. -/
def typeEndWithin? (ahead : Ahead) : (depth : Nat) → (n : Nat) → Option Nat
  | 0, _ => none
  | depth + 1, n => do casesEndWithin? ahead depth (← primaryEndWithin? ahead depth n)

/-- Where the further cases of a union end. -/
def casesEndWithin? (ahead : Ahead) : (depth : Nat) → (n : Nat) → Option Nat
  | 0, _ => none
  | depth + 1, n =>
    if ahead n = .union then do
      casesEndWithin? ahead depth (← primaryEndWithin? ahead depth (n + 1))
    else some n

/-- Where a primary type ends. -/
def primaryEndWithin? (ahead : Ahead) : (depth : Nat) → (n : Nat) → Option Nat
  | 0, _ => none
  | depth + 1, n =>
    if ahead n ≠ .upperName then none
    else if ahead (n + 1) = .smaller then do
      marksEndWithin? ahead depth (← argsEndWithin? ahead depth (n + 1))
    else marksEndWithin? ahead depth (n + 1)

/-- Where the question marks behind a type end. -/
def marksEndWithin? (ahead : Ahead) : (depth : Nat) → (n : Nat) → Option Nat
  | 0, _ => none
  | depth + 1, n => if ahead n = .question then marksEndWithin? ahead depth (n + 1) else some n

/-- Where type arguments end. -/
def argsEndWithin? (ahead : Ahead) : (depth : Nat) → (n : Nat) → Option Nat
  | 0, _ => none
  | depth + 1, n =>
    if ahead n ≠ .smaller then none else listEndWithin? ahead depth (n + 1)

/-- Where the list of types inside angle brackets ends, the closing bracket included. -/
def listEndWithin? (ahead : Ahead) : (depth : Nat) → (n : Nat) → Option Nat
  | 0, _ => none
  | depth + 1, n => do
    let n ← typeEndWithin? ahead depth n
    match ahead n with
    | .comma => listEndWithin? ahead depth (n + 1)
    | .larger => some (n + 1)
    | _ => none

end

end Ahead

namespace Parser

/-- The distance at which the type that begins `n` tokens ahead ends, if one begins there. -/
def typeEnd? (n : Nat) : Parser (Option Nat) := do
  let b ← get
  return Ahead.typeEndWithin? (fun i => (b.peekAt i).kind) (typeDepth b) n

/-- The distance at which the type arguments that begin `n` tokens ahead end, if they do. -/
def typeArgsEnd? (n : Nat) : Parser (Option Nat) := do
  let b ← get
  return Ahead.argsEndWithin? (fun i => (b.peekAt i).kind) (typeDepth b) n

end Parser

end Ceylon.Syntax
