import Ceylon.Text.Quoted
import Ceylon.Token.Kind
import Ceylon.Token.Location

/-!
# Tokens

A token is a kind, the text it was read from and the place where that text starts.  An error token
carries its message in place of the text.
-/

namespace Ceylon

open Text

/-- A token of a source text. -/
structure Token where
  kind : Token.Kind
  text : String
  pos : Pos
deriving DecidableEq, Repr, Inhabited

/-- The printed form of a token: its kind, then its text in quotes. -/
def Token.describe (t : Token) : String :=
  if t.kind = .eof then "EOF" else t.kind.text ++ " " ++ quote t.text

end Ceylon
