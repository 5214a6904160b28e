import Ceylon.Text.Glyph

/-!
# Glob patterns

Patterns over paths: `*` stands for any text without a slash, `?` for one character that is no slash,
`[...]` for one character of a set, and a backslash takes the next character as it is.  A malformed
pattern matches nothing.

A pattern is cut into chunks at its stars.  Each chunk is matched at the first place where it fits, and
that place is not reconsidered.  Names are matched byte by byte, so a star may end inside a character.
-/

namespace Ceylon.Text.Glob

/-- A part of a pattern that matches one character. -/
inductive Piece where
  | literal (c : Char)
  | any
  | set (negated : Bool) (ranges : List (Char × Char))
deriving DecidableEq, Repr

/-- A run of pieces, perhaps behind a star. -/
structure Chunk where
  star : Bool
  pieces : List Piece
deriving DecidableEq, Repr

/-! ## Reading patterns -/

/-- A character of a set, which may be escaped; something must follow it. -/
def setChar : List Char → Option (Char × List Char)
  | [] => none
  | '-' :: _ => none
  | ']' :: _ => none
  | '\\' :: c :: d :: rest => some (c, d :: rest)
  | '\\' :: _ => none
  | c :: d :: rest => some (c, d :: rest)
  | [_] => none

/-- The ranges of a set up to its closing bracket, and what follows.  At least one range is needed. -/
def setRanges : (depth : Nat) → (first : Bool) → List Char →
    Option (List (Char × Char) × List Char)
  | 0, _, _ => none
  | _ + 1, false, ']' :: rest => some ([], rest)
  | depth + 1, _, cs => do
    let (lo, rest) ← setChar cs
    match rest with
    | '-' :: rest =>
      let (hi, rest) ← setChar rest
      let (ranges, rest) ← setRanges depth false rest
      return ((lo, hi) :: ranges, rest)
    | _ =>
      let (ranges, rest) ← setRanges depth false rest
      return ((lo, lo) :: ranges, rest)

/-- The next piece of a pattern and what follows it; the pattern does not begin with a star. -/
def piece : List Char → Option (Piece × List Char)
  | [] => none
  | '?' :: rest => some (.any, rest)
  | '\\' :: c :: rest => some (.literal c, rest)
  | ['\\'] => none
  | '[' :: '^' :: rest => do
    let (ranges, rest) ← setRanges (rest.length + 1) true rest
    return (.set true ranges, rest)
  | '[' :: rest => do
    let (ranges, rest) ← setRanges (rest.length + 1) true rest
    return (.set false ranges, rest)
  | c :: rest => some (.literal c, rest)

/-- Adds a piece to the chunk at the front. -/
def addPiece (p : Piece) : List Chunk → List Chunk
  | ⟨false, pieces⟩ :: chunks => ⟨false, p :: pieces⟩ :: chunks
  | chunks => ⟨false, [p]⟩ :: chunks

/-- Adds a star before the chunk at the front. -/
def addStar : List Chunk → List Chunk
  | ⟨_, pieces⟩ :: chunks => ⟨true, pieces⟩ :: chunks
  | [] => [⟨true, []⟩]

/-- The chunks of a pattern. -/
def chunks : (depth : Nat) → List Char → Option (List Chunk)
  | _, [] => some []
  | 0, _ => none
  | depth + 1, '*' :: rest => (chunks depth rest).map addStar
  | depth + 1, cs => do
    let (p, rest) ← piece cs
    return addPiece p (← chunks depth rest)

/-- The chunks of a pattern, or none if it is malformed. -/
def parse? (pattern : String) : Option (List Chunk) :=
  chunks pattern.length pattern.toList

/-! ## Matching -/

/-- The first character of a name and what follows; a stray byte counts as the replacement character. -/
def firstChar : List UInt8 → Option (Char × List UInt8)
  | [] => none
  | b :: rest =>
    match Glyph.leading b rest with
    | some (c, tails) => some (c, rest.drop tails)
    | none => some (Char.ofNat 0xfffd, rest)

/-- What is left of a name behind a prefix. -/
def stripPrefix? : List UInt8 → List UInt8 → Option (List UInt8)
  | [], name => some name
  | a :: as, b :: bs => if a = b then stripPrefix? as bs else none
  | _ :: _, [] => none

/-- What is left of a name behind a character that matches the piece. -/
def Piece.strip? (p : Piece) (name : List UInt8) : Option (List UInt8) :=
  match p with
  | .literal c => stripPrefix? (String.singleton c).toUTF8.toList name
  | .any =>
    match firstChar name with
    | some (c, rest) => if c = '/' then none else some rest
    | none => none
  | .set negated ranges =>
    match firstChar name with
    | some (c, rest) =>
      if ranges.any (fun (lo, hi) => lo ≤ c && c ≤ hi) != negated then some rest else none
    | none => none

/-- What is left of a name behind characters that match the pieces. -/
def stripPieces? : List Piece → List UInt8 → Option (List UInt8)
  | [], name => some name
  | p :: ps, name => do stripPieces? ps (← p.strip? name)

/-- The first place behind at least one skipped byte where the pieces fit; no slash is skipped.  If they
are the last ones they must use the name up. -/
def skipTo? (pieces : List Piece) (isLast : Bool) : List UInt8 → Option (List UInt8)
  | [] => none
  | b :: rest =>
    if b = '/'.toUInt8 then none
    else match stripPieces? pieces rest with
      | some left => if isLast && !left.isEmpty then skipTo? pieces isLast rest else some left
      | none => skipTo? pieces isLast rest

/-- Whether the chunks match the whole name. -/
def matchChunks : List Chunk → List UInt8 → Bool
  | [], name => name.isEmpty
  | ⟨star, pieces⟩ :: chunks, name =>
    if star && pieces.isEmpty then !name.contains '/'.toUInt8
    else
      let isLast := chunks.isEmpty
      let here := (stripPieces? pieces name).filter fun left => left.isEmpty || !isLast
      match here <|> (if star then skipTo? pieces isLast name else none) with
      | some left => matchChunks chunks left
      | none => false

/-- Whether a pattern matches a name. -/
def isMatch (pattern name : String) : Bool :=
  match parse? pattern with
  | none => false
  | some chunks => matchChunks chunks name.toUTF8.toList

end Ceylon.Text.Glob
