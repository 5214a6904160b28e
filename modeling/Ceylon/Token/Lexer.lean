import Ceylon.Token.Cursor

/-!
# From source text to tokens

A *lexeme* is the run of characters that makes up the next token, together with the kind of that
token or the reason why it is none.  `Lexeme.read` decides the lexeme from the glyphs alone; positions
are the cursor's business.  `Cursor.readToken` skips white space and turns the lexeme that follows into
a token, and `Cursor.tokens` repeats this to the end of the text or the first error.

A lexeme is its first character and what goes with it, so it is never empty, which is why reading
comes to an end (`Cursor.readToken_rest_length_lt`).
-/

namespace Ceylon.Token

open Text

/-- The characters that make up a token together with the first one, and its kind or what is wrong
with it. -/
structure Lexeme where
  more : List Char
  kind : Except String Kind
deriving Inhabited

/-- Punctuation, longest first, so that the first spelling found at the cursor is the longest one. -/
def operators : List Kind := [
  .identical, .compare, .andAssign, .orAssign, .ellipsis,
  .compute, .equal, .notEqual, .smallAs, .largeAs, .and, .or, .assign, .addAssign,
  .subtractAssign, .multiplyAssign, .divideAssign, .remainderAssign, .intersectAssign,
  .unionAssign, .xorAssign, .complementAssign, .increment, .decrement, .power, .entry, .range,
  .safeMember, .safeIndex, .default, .spread,
  .parenL, .parenR, .braceL, .braceR, .bracketL, .bracketR, .comma, .semicolon, .specify, .member,
  .question, .plus, .minus, .times, .divide, .remainder, .not, .intersect, .union, .xor,
  .complement, .format, .smaller, .larger]

namespace Lexeme

/-- The characters of a block comment after its opening, up to and including the closing, and whether
the closing was found. -/
def blockComment : List Glyph → List Char × Bool
  | .char '*' :: .char '/' :: _ => (['*', '/'], true)
  | .char c :: rest =>
    let (cs, closed) := blockComment rest
    (c :: cs, closed)
  | _ => ([], false)

/-- The characters of a literal after its opening delimiter, up to and including the closing one, and
whether that was found.  A backslash takes the character after it along, whatever it is. -/
def delimited (delim : Char) : List Glyph → List Char × Bool
  | .char c :: rest =>
    if c == delim then ([c], true)
    else if c == '\\' then
      match rest with
      | .char e :: rest =>
        let (cs, closed) := delimited delim rest
        (c :: e :: cs, closed)
      | _ => ([c], false)
    else
      let (cs, closed) := delimited delim rest
      (c :: cs, closed)
  | _ => ([], false)

/-- A literal between delimiters of the given kind; `what` names it in the message. -/
def literal (delim : Char) (rest : List Glyph) (kind : Kind) (what : String) : Lexeme :=
  let (cs, closed) := delimited delim rest
  ⟨cs, if closed then .ok kind else .error ("unterminated " ++ what)⟩

/-- The fraction of a number, empty unless a digit follows the point: `1..2` is a range. -/
def fraction : List Glyph → List Char
  | .char '.' :: rest =>
    match Glyph.takeChars isDigit rest with
    | [] => []
    | digits => '.' :: digits
  | _ => []

/-- The exponent of a number, with its digits apart; `none` when no exponent begins here. -/
def exponent? : List Glyph → Option (List Char × List Char)
  | .char e :: rest =>
    if e == 'e' || e == 'E' then
      match rest with
      | .char s :: rest' =>
        if s == '+' || s == '-' then some ([e, s], Glyph.takeChars isDigit rest')
        else some ([e], Glyph.takeChars isDigit rest)
      | _ => some ([e], [])
    else none
  | _ => none

/-- Ends a number: a letter or a digit of another script must not follow it. -/
def endNumber (more : List Char) (kind : Kind) (rest : List Glyph) : Lexeme :=
  match rest with
  | .char c :: _ =>
    if isWordChar c then
      ⟨more ++ [c], .error ("unexpected " ++ quoteChar c ++ " following numeric literal")⟩
    else ⟨more, .ok kind⟩
  | _ => ⟨more, .ok kind⟩

/-- A number, after its first digit. -/
def number (rest : List Glyph) : Lexeme :=
  let whole := Glyph.takeChars isDigit rest
  let frac := fraction (rest.drop whole.length)
  let mantissa := whole ++ frac
  let rest := rest.drop mantissa.length
  match exponent? rest with
  | some (mark, []) => ⟨mantissa ++ mark, .error "malformed exponent in numeric literal"⟩
  | some (mark, digits) =>
    endNumber (mantissa ++ mark ++ digits) .float (rest.drop (mark.length + digits.length))
  | none => endNumber mantissa (if frac.isEmpty then .natural else .float) rest

/-- A word that begins with `first`: a reserved word, or a name whose kind its first letter tells. -/
def word (first : Char) (rest : List Glyph) : Lexeme :=
  let more := Glyph.takeChars isWordChar rest
  let kind := match Kind.keyword? (String.ofList (first :: more)) with
    | some kind => kind
    | none => if isUpper first then .upperName else .lowerName
  ⟨more, .ok kind⟩

/-- Punctuation that begins with `first`. -/
def punctuation (first : Char) (rest : List Glyph) : Lexeme :=
  let glyphs := Glyph.char first :: rest
  match operators.find? fun k => (Glyph.ofString k.text).isPrefixOf glyphs with
  | some kind => ⟨kind.text.toList.tail, .ok kind⟩
  | none => ⟨[], .error ("unexpected text starting with " ++ quoteChar first)⟩

/-- The lexeme that begins with `first` and goes on in `rest`. -/
def read (first : Char) (rest : List Glyph) : Lexeme :=
  let second := match rest with
    | .char c :: _ => some c
    | _ => none
  if first == '/' && second == some '/' then
    ⟨Glyph.takeChars (· != '\n') rest, .ok .comment⟩
  else if first == '/' && second == some '*' then
    let (cs, closed) := blockComment rest.tail
    ⟨'*' :: cs, if closed then .ok .comment else .error "unterminated comment"⟩
  else if first == '"' then literal first rest .string "string literal"
  else if first == '\x60' then literal first rest .character "character literal"
  else if first == '\'' then literal first rest .quoted "quoted literal"
  else if isDigit first then number rest
  else if isWordStart first then word first rest
  else punctuation first rest

end Lexeme

namespace Cursor

/-- Leaves the white space ahead behind. -/
def skipSpace (c : Cursor) : Cursor :=
  (c.acceptWhile isSpace).2.ignore

/-- Hands out a token of the given text that begins where the gathered text does, and drops that. -/
def emitAs (c : Cursor) (kind : Kind) (text : String) : Token × Cursor :=
  (⟨kind, text, c.start⟩, c.ignore)

/-- The next token, and the cursor behind it.  At the end of the text this is the end token, for ever;
at a stray byte it is the same error for ever. -/
def readToken (c : Cursor) : Token × Cursor :=
  let c := c.skipSpace
  match c.rest with
  | [] => c.emitAs .eof ""
  | .stray _ :: _ => c.emitAs .error "invalid utf-8 sequence"
  | .char first :: rest =>
    let lexeme := Lexeme.read first rest
    let c := c.advance (first :: lexeme.more)
    match lexeme.kind with
    | .ok kind => c.emit kind
    | .error message => c.emitAs .error message

theorem skipSpace_rest_length (c : Cursor) : c.skipSpace.rest.length ≤ c.rest.length := by
  simp [skipSpace, acceptWhile]

/-- Whatever is neither the end nor an error takes at least one glyph of the text. -/
theorem readToken_rest_length_lt (c : Cursor) (hend : (c.readToken).1.kind ≠ .eof)
    (herr : (c.readToken).1.kind ≠ .error) :
    (c.readToken).2.rest.length < c.rest.length := by
  have hs := skipSpace_rest_length c
  unfold readToken at *
  dsimp only at *
  split
  · simp_all [emitAs]
  · simp_all [emitAs]
  · rename_i first rest h
    have hlen : 0 < c.skipSpace.rest.length := by simp [h]
    split <;> simp [emit, emitAs] <;> omega

/-- The tokens from the cursor on, through the end token or the first error after which no retry is
left. -/
def tokens (c : Cursor) (retries : Nat) : List Token :=
  let next := c.readToken
  if _hend : next.1.kind = .eof then [next.1]
  else if _herr : next.1.kind = .error then
    match retries with
    | 0 => [next.1]
    | retries + 1 => next.1 :: tokens next.2 retries
  else next.1 :: tokens next.2 retries
termination_by (retries, c.rest.length)
decreasing_by
  · exact Prod.Lex.left _ _ (Nat.lt_succ_self _)
  · exact Prod.Lex.right _ (readToken_rest_length_lt c _hend _herr)

end Cursor

end Ceylon.Token
