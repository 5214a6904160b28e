import Ceylon.Text.Glyph
import Ceylon.Token.Basic

/-!
# Cursors over source text

A cursor stands between two glyphs of a source text.  It remembers where the piece of text being
gathered began, and hands that piece out as a token.  No operation moves the cursor past a stray byte.
-/

namespace Ceylon.Token

open Text

/-- A reading position in a source text. -/
structure Cursor where
  /-- The text being read. -/
  source : Source
  /-- What is still to be read. -/
  rest : List Glyph
  /-- The characters gathered since `start`, last one first. -/
  gathered : List Char := []
  /-- Where the gathered characters began. -/
  start : Pos := .start
  /-- Where the rest begins. -/
  next : Pos := .start
  /-- The character read last. -/
  last : Option Char := none
  /-- The byte offset of the character read last. -/
  lastOffset : Nat := 0
deriving Repr, Inhabited

/-- Why no character could be read. -/
inductive ReadError where
  /-- The text is used up. -/
  | ended
  /-- The next byte starts no character. -/
  | stray (b : UInt8)
deriving DecidableEq, Repr

/-- The wording of a reading error. -/
def ReadError.message : ReadError → String
  | .ended => "EOF"
  | .stray b =>
    "invalid utf-8 sequence in source text starting with byte " ++ quoteChar (Char.ofNat b.toNat)

namespace Cursor

/-- The glyph `n` places after the next one. -/
def peekAt (c : Cursor) (n : Nat) : Option Glyph :=
  c.rest[n]?

/-- Whether the character `n` places after the next one satisfies `p`. -/
def peekIs (c : Cursor) (n : Nat) (p : Char → Bool) : Bool :=
  match c.peekAt n with
  | some (.char ch) => p ch
  | _ => false

/-- Whether nothing is left to read. -/
def atEnd (c : Cursor) : Bool :=
  c.rest.isEmpty

/-- The gathered text. -/
def text (c : Cursor) : String :=
  String.ofList c.gathered.reverse

/-- Steps over the next glyph, which is the character `ch`, and gathers it. -/
def step (c : Cursor) (ch : Char) : Cursor :=
  { c with
    rest := c.rest.tail
    gathered := ch :: c.gathered
    next := c.next.after ch
    last := some ch
    lastOffset := c.next.offset }

/-- Steps over the next glyphs, which are the characters `cs`. -/
def advance (c : Cursor) (cs : List Char) : Cursor :=
  cs.foldl step c

/-- Reads one character. -/
def scan (c : Cursor) : Except ReadError Cursor :=
  match c.rest with
  | [] => .error .ended
  | .stray b :: _ => .error (.stray b)
  | .char ch :: _ => .ok (c.step ch)

/-- Reads the next character if it satisfies `p`. -/
def accept? (c : Cursor) (p : Char → Bool) : Option Cursor :=
  match c.rest with
  | .char ch :: _ => if p ch then some (c.step ch) else none
  | _ => none

/-- Reads the leading characters that satisfy `p`, and counts them. -/
def acceptWhile (c : Cursor) (p : Char → Bool) : Nat × Cursor :=
  let cs := Glyph.takeChars p c.rest
  (cs.length, c.advance cs)

/-- Reads `literal` if all of it comes next. -/
def acceptText? (c : Cursor) (literal : String) : Option Cursor :=
  if (Glyph.ofString literal).isPrefixOf c.rest then some (c.advance literal.toList) else none

/-- Drops the gathered text. -/
def ignore (c : Cursor) : Cursor :=
  { c with gathered := [], start := c.next }

/-- Hands out the gathered text as a token. -/
def emit (c : Cursor) (kind : Kind) : Token × Cursor :=
  (⟨kind, c.text, c.start⟩, c.ignore)

/-- The place of the cursor: the offset of the character read last, with the line and column that
come next. -/
def location (c : Cursor) : Location :=
  ⟨c.source.name, c.source.path, c.lastOffset, c.next.line, c.next.col⟩

/-- The place where the gathered text began. -/
def startLocation (c : Cursor) : Location :=
  .ofPos c.source c.start

@[simp]
theorem advance_rest (c : Cursor) (cs : List Char) :
    (c.advance cs).rest = c.rest.drop cs.length := by
  induction cs generalizing c with
  | nil => simp [advance]
  | cons ch cs ih =>
    have h : (c.advance (ch :: cs)).rest = ((c.step ch).advance cs).rest := rfl
    rw [h, ih]
    simp [step]

@[simp]
theorem ignore_rest (c : Cursor) : c.ignore.rest = c.rest := rfl

end Cursor

end Ceylon.Token
