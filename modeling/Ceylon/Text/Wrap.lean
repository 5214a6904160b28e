import Ceylon.Text.CharClass
import Ceylon.Text.Width

/-!
# Wrapping text

Lines are broken at blanks, which are dropped there, and behind hyphens, which stay and do not count toward
the length of the line.  A word longer than the limit is not broken.  Escape sequences of terminals belong to
words and take no columns.
-/

namespace Ceylon.Text

/-- Whether a character ends an escape sequence. -/
def endsEscape (c : Char) : Bool :=
  ('@' ≤ c && c ≤ 'Z') || ('a' ≤ c && c ≤ 'z')

/-- The character that begins an escape sequence. -/
def escapeStart : Char :=
  '\x1b'

/-- The number of columns that characters take, without escape sequences.  `inEscape` tells whether they begin
inside of one. -/
def visibleWidth (inEscape : Bool) : List Char → Nat
  | [] => 0
  | c :: cs =>
    if c = escapeStart then visibleWidth true cs
    else if inEscape then visibleWidth (!endsEscape c) cs
    else charWidth c + visibleWidth false cs

/-- A wrapping in progress. -/
structure Wrapping where
  /-- What is settled. -/
  done : String := ""
  /-- The blanks behind the last settled word. -/
  space : String := ""
  /-- The word being read. -/
  word : String := ""
  /-- The length of the line so far. -/
  length : Nat := 0
  /-- Whether an escape sequence is being read. -/
  inEscape : Bool := false
deriving Inhabited

namespace Wrapping

/-- The columns of the word being read. -/
def wordWidth (w : Wrapping) : Nat :=
  visibleWidth false w.word.toList

/-- Settles the blanks. -/
def addSpace (w : Wrapping) : Wrapping :=
  { w with
    length := w.length + w.space.utf8ByteSize
    done := w.done ++ w.space
    space := "" }

/-- Settles the word, if there is one, with the blanks before it. -/
def addWord (w : Wrapping) : Wrapping :=
  if w.word.isEmpty then w
  else
    let spaced := w.addSpace
    { spaced with
      length := spaced.length + w.wordWidth
      done := spaced.done ++ w.word
      word := "" }

/-- Breaks the line; blanks at the break are dropped. -/
def addBreak (w : Wrapping) : Wrapping :=
  { w with done := w.done.push '\n', length := 0, space := "" }

/-- Takes a line break of the text.  Blanks before it stay if they fit. -/
def takeBreak (limit : Nat) (w : Wrapping) : Wrapping :=
  let settled :=
    if w.word.isEmpty then
      { w with
        done := if w.length + w.space.utf8ByteSize > limit then w.done else w.done ++ w.space
        space := "" }
    else w
  settled.addWord.addBreak

/-- Takes a character of a word, and breaks the line before the word if it no longer fits. -/
def takeLetter (limit : Nat) (w : Wrapping) (c : Char) : Wrapping :=
  let w := { w with word := w.word.push c }
  if w.length + w.space.utf8ByteSize + w.wordWidth > limit && w.wordWidth < limit then w.addBreak
  else w

/-- Takes the next character of the text. -/
def take (limit : Nat) (w : Wrapping) (c : Char) : Wrapping :=
  if c = escapeStart then { w with word := w.word.push c, inEscape := true }
  else if w.inEscape then { w with word := w.word.push c, inEscape := !endsEscape c }
  else if c = '\n' then w.takeBreak limit
  else if isSpace c then
    let w := w.addWord
    { w with space := w.space.push c }
  else if c = '-' then
    let w := w.addSpace.addWord
    { w with done := w.done.push c }
  else w.takeLetter limit c

end Wrapping

/-- A text with its lines broken so that they keep to a limit where that is possible. -/
def wrap (limit : Nat) (s : String) : String :=
  (s.toList.foldl (Wrapping.take limit) {}).addWord.done

/-! ## Indenting -/

/-- An indentation in progress. -/
structure Indenting where
  done : String := ""
  /-- Whether the next visible character begins a line. -/
  atStart : Bool := true
  /-- The escape sequence being read; empty outside of one. -/
  escape : String := ""
  /-- The color sequences in force. -/
  colors : String := ""
  /-- Whether a sequence has been read since colors were last reset. -/
  colored : Bool := false
deriving Inhabited

namespace Indenting

/-- Takes the end of an escape sequence. -/
def endEscape (w : Indenting) (escape : String) : Indenting :=
  if escape.endsWith "[0m" then
    { w with done := w.done ++ escape, escape := "", colors := "", colored := false }
  else
    { w with
      done := w.done ++ escape
      escape := ""
      colors := if escape.endsWith "m" then w.colors ++ escape else w.colors }

/-- Takes the next character.  Colors do not extend over the margin. -/
def take (margin : String) (w : Indenting) (c : Char) : Indenting :=
  if c = escapeStart then { w with escape := w.escape.push c, colored := true }
  else if !w.escape.isEmpty then
    let escape := w.escape.push c
    if endsEscape c then w.endEscape escape else { w with escape }
  else
    let before :=
      if w.atStart then
        (if w.colored then w.done ++ "\x1b[0m" else w.done) ++ margin ++ w.colors
      else w.done
    { w with done := before.push c, atStart := c = '\n' }

end Indenting

/-- A text with each of its lines indented. -/
def indent (columns : Nat) (s : String) : String :=
  let margin := String.ofList (List.replicate columns ' ')
  (s.toList.foldl (Indenting.take margin) {}).done

end Ceylon.Text
