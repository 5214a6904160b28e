import Ceylon.Syntax.Error
import Ceylon.Syntax.Tree

/-!
# Reading tokens

A parser reads tokens off a buffer and stops at the first fault.  Looking at the next token already
refuses an error token, so that the fault of the text is reported where it stands; looking further
ahead does not.

Parsers recurse along the nesting of the text.  Their recursion is bounded by a depth computed from the
number of tokens left, which no text can reach: between two tokens the grammar descends through a
fixed number of levels only.
-/

namespace Ceylon.Syntax

open Token (Buffer Kind)

/-- A parser of `α`. -/
abbrev Parser (α : Type) := StateT Buffer (Except SyntaxError) α

namespace Parser

/-- Refuses the text because of `fault`, at the next token. -/
def fail {α : Type} (fault : Fault) : Parser α := do
  let b ← get
  throw ⟨fault, b.source, b.peek.pos⟩

/-- The next token. -/
def peek : Parser Token := do
  let t := (← get).peek
  if t.kind = .error then fail (.lexical t.text) else return t

/-- The kind of the next token. -/
def peekKind : Parser Kind :=
  return (← peek).kind

/-- The mark of a node that begins with the next token. -/
def here : Parser Mark :=
  return { pos := (← peek).pos }

/-- The kind of the token `n` places after the next one. -/
def kindAt (n : Nat) : Parser Kind :=
  return ((← get).peekAt n).kind

/-- Reads the next token. -/
def next : Parser Token := do
  let t ← peek
  modify Buffer.advance
  return t

/-- Reads the next token if it is of the given kind. -/
def accept (kind : Kind) : Parser Bool := do
  match (← get).accept? (·.kind = kind) with
  | some b => set b; return true
  | none => return false

/-- Reads the next token, which must be of the given kind. -/
def expect (kind : Kind) : Parser Token := do
  let t ← peek
  if t.kind = kind then
    modify Buffer.advance
    return t
  else fail (.expected kind t)

/-- The identifier that a token is. -/
def nameOf (t : Token) : Name :=
  { mark := { pos := t.pos }, text := t.text }

/-- A name with a small initial. -/
def lowerName : Parser Name :=
  return nameOf (← expect .lowerName)

/-- A name with a capital initial. -/
def upperName : Parser Name :=
  return nameOf (← expect .upperName)

/-- A name of either sort. -/
def anyName : Parser Name := do
  let t ← peek
  if t.kind = .lowerName ∨ t.kind = .upperName then return nameOf (← next)
  else fail (.expectedName t)

end Parser

end Ceylon.Syntax
