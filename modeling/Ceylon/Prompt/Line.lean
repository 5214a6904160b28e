/-!
# Lines with a cursor

A line that is being entered is the text before the cursor, nearest character first, and the text behind it.
Words are made of ASCII letters and digits.
-/

namespace Ceylon.Prompt

/-- A line that is being entered. -/
structure Line where
  /-- The characters before the cursor, nearest first. -/
  before : List Char := []
  /-- The characters from the cursor on. -/
  after : List Char := []
deriving DecidableEq, Repr, Inhabited

namespace Line

/-- The characters of the line. -/
def chars (l : Line) : List Char :=
  l.before.reverse ++ l.after

/-- The line with the given characters and the cursor at its end. -/
def ofChars (cs : List Char) : Line :=
  { before := cs.reverse }

@[simp]
theorem chars_ofChars (cs : List Char) : (ofChars cs).chars = cs := by
  simp [ofChars, chars]

/-- The line with the given characters and the cursor behind the first `n`. -/
def split (cs : List Char) (n : Nat) : Line :=
  ⟨(cs.take n).reverse, cs.drop n⟩

@[simp]
theorem chars_split (cs : List Char) (n : Nat) : (split cs n).chars = cs := by
  simp [split, chars]

/-- Whether there is nothing in the line. -/
def isEmpty (l : Line) : Bool :=
  l.before.isEmpty && l.after.isEmpty

/-- Puts characters in at the cursor, which is behind them then. -/
def insert (l : Line) (cs : List Char) : Line :=
  { l with before := cs.reverse ++ l.before }

@[simp]
theorem chars_insert (l : Line) (cs : List Char) :
    (l.insert cs).chars = l.before.reverse ++ cs ++ l.after := by
  simp [insert, chars]

/-! ## Moving -/

/-- The cursor at the beginning. -/
def atStart (l : Line) : Line :=
  { after := l.chars }

/-- The cursor at the end. -/
def atEnd (l : Line) : Line :=
  ofChars l.chars

/-- The cursor one character back. -/
def back (l : Line) : Line :=
  match l.before with
  | [] => l
  | c :: cs => ⟨cs, c :: l.after⟩

/-- The cursor one character on. -/
def forward (l : Line) : Line :=
  match l.after with
  | [] => l
  | c :: cs => ⟨c :: l.before, cs⟩

/-- The characters up to the end of the first word, and those behind it. -/
def firstWord (cs : List Char) : List Char × List Char :=
  let gap := cs.takeWhile fun c => !c.isAlphanum
  let rest := cs.dropWhile fun c => !c.isAlphanum
  (gap ++ rest.takeWhile Char.isAlphanum, rest.dropWhile Char.isAlphanum)

/-- The characters up to the beginning of the next word, and those from there on. -/
def upToWord (cs : List Char) : List Char × List Char :=
  let word := cs.takeWhile Char.isAlphanum
  let rest := cs.dropWhile Char.isAlphanum
  (word ++ rest.takeWhile fun c => !c.isAlphanum, rest.dropWhile fun c => !c.isAlphanum)

/-- The cursor at the beginning of the word before it. -/
def wordBack (l : Line) : Line :=
  let (passed, rest) := firstWord l.before
  ⟨rest, passed.reverse ++ l.after⟩

/-- The cursor at the beginning of the word behind it. -/
def wordForward (l : Line) : Line :=
  let (passed, rest) := upToWord l.after
  ⟨passed.reverse ++ l.before, rest⟩

/-! ## Changing -/

/-- The line without the character before the cursor. -/
def backspace (l : Line) : Line :=
  { l with before := l.before.drop 1 }

/-- The line with the characters on either side of the cursor exchanged; at its end, with the last two. -/
def transpose (l : Line) : Line :=
  match l.before, l.after with
  | b :: bs, a :: as => ⟨b :: a :: bs, as⟩
  | b :: a :: bs, [] => ⟨a :: b :: bs, []⟩
  | _, _ => l

end Line

end Ceylon.Prompt
