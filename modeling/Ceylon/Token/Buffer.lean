import Ceylon.Token.Lexer

/-!
# Token buffers

A buffer holds all the tokens of a source text, comments set aside, and a reading position in them, so
that a parser can look ahead as far as it likes.  The last token, which is the end token or an error,
is never passed: reading it again and again gives the same token.
-/

namespace Ceylon.Token

open Text

/-- The tokens of a text with a reading position. -/
structure Buffer where
  /-- The text the tokens come from. -/
  source : Source
  /-- All tokens but the last, without comments. -/
  tokens : Array Token
  /-- The last token: the end or an error. -/
  final : Token
  /-- The comments, in the order of the text. -/
  comments : List Token
  /-- The number of tokens passed; reading never passes the last token. -/
  pos : Nat := 0
  /-- The token read last. -/
  current : Option Token := none
  /-- The tokens not passed yet, but for the last one. -/
  ahead : List Token := tokens.toList.drop pos
  ahead_eq : ahead = tokens.toList.drop pos := by rfl

namespace Buffer

instance : Inhabited Buffer :=
  ⟨{ source := default, tokens := #[], final := default, comments := [] }⟩

/-- The buffer of a list of tokens that ends in its last token. -/
def ofTokens (source : Source) (tokens : List Token) : Buffer :=
  let words := tokens.filter (·.kind ≠ .comment)
  { source
    tokens := words.dropLast.toArray
    final := words.getLastD default
    comments := tokens.filter (·.kind = .comment)
    ahead := words.dropLast }

/-- The buffer of a text; it ends at the first error. -/
def ofGlyphs (source : Source) (glyphs : List Glyph) : Buffer :=
  ofTokens source (Cursor.tokens { source, rest := glyphs } 0)

/-- The token `n` places after the next one; past the end this is the last token. -/
def peekAt (b : Buffer) (n : Nat) : Token :=
  b.ahead[n]?.getD b.final

/-- The token at a distance from the next one, which is negative for the tokens passed last. -/
def lookAt (b : Buffer) (distance : Int) : Token :=
  b.tokens[(b.pos + distance).toNat]?.getD b.final

/-- The next token. -/
def peek (b : Buffer) : Token :=
  b.peekAt 0

/-- The place behind the next token. -/
theorem tail_ahead (b : Buffer) : b.ahead.tail =
    b.tokens.toList.drop (if b.ahead.isEmpty then b.pos else b.pos + 1) := by
  cases h : b.ahead with
  | nil => rw [List.isEmpty_nil, if_pos rfl, ← b.ahead_eq, h, List.tail_nil]
  | cons => rw [List.isEmpty_cons, if_neg nofun, ← List.tail_drop, ← b.ahead_eq, h]

/-- Reads the next token. -/
def advance (b : Buffer) : Buffer :=
  { b with
    current := some b.peek
    pos := if b.ahead.isEmpty then b.pos else b.pos + 1
    ahead := b.ahead.tail
    ahead_eq := b.tail_ahead }

/-- Reads the next token if it satisfies `p`. -/
def accept? (b : Buffer) (p : Token → Bool) : Option Buffer :=
  if p b.peek then some b.advance else none

/-- The number of tokens not passed yet, the last one included. -/
def remaining (b : Buffer) : Nat :=
  b.tokens.size - b.pos + 1

/-- Whether the end token comes next. -/
def atEnd (b : Buffer) : Bool :=
  b.peek.kind = .eof

/-- Reads the next token and tells whether there was one; the end token becomes current but is not
passed. -/
def scan (b : Buffer) : Bool × Buffer :=
  if b.atEnd then (false, { b with current := some b.peek }) else (true, b.advance)

/-- Goes back to an earlier position; the token before it becomes current. -/
def reset (b : Buffer) (mark : Nat) : Buffer :=
  { b with
    pos := mark
    current := match mark with
      | 0 => none
      | n + 1 => some (b.tokens[n]?.getD b.final)
    ahead := b.tokens.toList.drop mark
    ahead_eq := rfl }

end Buffer

end Ceylon.Token
