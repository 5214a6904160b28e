import Ceylon.Token.Buffer

/-!
# Syntax errors

A text that is not a unit of the language is refused at its first fault.  The cause says what was found
and what would have been right; its wording is settled in one place.
-/

namespace Ceylon.Syntax

/-- What is wrong with a text. -/
inductive Fault where
  /-- The text cannot be cut into tokens. -/
  | lexical (message : String)
  /-- Another token must stand here. -/
  | expected (kind : Token.Kind) (found : Token)
  /-- A name must stand here. -/
  | expectedName (found : Token)
  /-- No expression starts like this. -/
  | unexpected (found : Token)
  /-- Something follows a complete expression. -/
  | trailing (found : Token)
  /-- Annotations stand before something that is no declaration. -/
  | afterAnnotations (found : Token)
  /-- A block is never closed. -/
  | unmatchedBrace
  /-- The text is nested deeper than the depth set for it. -/
  | tooDeep
deriving DecidableEq, Repr

/-- The wording of a fault. -/
def Fault.message : Fault → String
  | .lexical message => message
  | .expected kind found => "expected " ++ kind.text ++ " but found " ++ found.describe
  | .expectedName found => "expected identifier but found " ++ found.describe
  | .unexpected found => "unexpected " ++ found.describe
  | .trailing found => "unexpected " ++ found.describe ++ " after expression"
  | .afterAnnotations found => "unexpected " ++ found.describe ++ " following annotations"
  | .unmatchedBrace => "unmatched \x7b"
  | .tooDeep => "nesting too deep"

/-- A fault and where it was found. -/
structure SyntaxError where
  fault : Fault
  source : Source
  pos : Pos
deriving DecidableEq, Repr

namespace SyntaxError

/-- The place of the fault. -/
def location (e : SyntaxError) : Location :=
  .ofPos e.source e.pos

/-- The error as messages show it. -/
def located (e : SyntaxError) : LocatedError :=
  ⟨e.fault.message, some e.location⟩

end SyntaxError

end Ceylon.Syntax
