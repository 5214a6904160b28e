/-!
# Keys

What is entered at the prompt arrives as characters.  Control characters stand for keys that edit the line,
and so do some sequences that begin with an escape character; all other such sequences are dropped.
-/

namespace Ceylon.Prompt

/-- A key that is pressed at the prompt. -/
inductive Key where
  /-- A character of the line. -/
  | char (c : Char)
  | enter
  | interrupt
  /-- Ends the input on an empty line, and else deletes the character at the cursor. -/
  | endOfInput
  /-- Deletes the character at the cursor. -/
  | delete
  /-- Deletes the character before the cursor. -/
  | backspace
  | lineStart
  | lineEnd
  | back
  | forward
  | wordBack
  | wordForward
  | killBefore
  | killAfter
  | killWord
  | yank
  | transpose
  /-- The line that was entered before. -/
  | previous
  /-- The line that was entered next. -/
  | next
  /-- Looks for a line that was entered before. -/
  | searchBackward
  /-- Looks for a line that was entered next. -/
  | searchForward
  /-- Gives a search up. -/
  | cancel
  | complete
  | clearScreen
  /-- A key that has nothing to do here. -/
  | idle
deriving DecidableEq, Repr, Inhabited

namespace Key

/-- The escape character. -/
def escape : Char :=
  '\x1b'

/-- The key of a character outside escape sequences. -/
def ofChar (c : Char) : Key :=
  match c.toNat with
  | 1 => .lineStart
  | 2 => .back
  | 3 => .interrupt
  | 4 => .endOfInput
  | 5 => .lineEnd
  | 6 => .forward
  | 7 => .cancel
  | 8 => .backspace
  | 9 => .complete
  | 10 => .enter
  | 11 => .killAfter
  | 12 => .clearScreen
  | 13 => .enter
  | 14 => .next
  | 16 => .previous
  | 18 => .searchBackward
  | 19 => .searchForward
  | 20 => .transpose
  | 21 => .killBefore
  | 23 => .killWord
  | 25 => .yank
  | 26 => .idle
  | 31 => .idle
  | 127 => .backspace
  | _ => .char c

/-- Where the reading of characters is. -/
inductive Scan where
  | plain
  /-- Behind an escape character. -/
  | escaped
  /-- In a sequence, behind its first character and some numbers. -/
  | sequence (first : Char) (numbers : List Char)
deriving DecidableEq, Repr, Inhabited

/-- Whether the numbers of a sequence say that the Alt key is held. -/
def withAlt (numbers : List Char) : Bool :=
  (numbers.dropWhile (· ≠ ';')).drop 1 == ['3']

/-- The key of a sequence, by its first character, its numbers and its last character. -/
def ofSequence? (first : Char) (numbers : List Char) (last : Char) : Option Key :=
  match last with
  | 'A' => some .previous
  | 'B' => some .next
  | 'C' => some (if withAlt numbers then .wordForward else .forward)
  | 'D' => some (if withAlt numbers then .wordBack else .back)
  | 'F' => some .lineEnd
  | 'H' => some .lineStart
  | 'Z' => if first = '[' then some .idle else none
  | '~' =>
    if first ≠ '[' then none
    else match numbers with
      | ['3'] => some .delete
      | ['1'] | ['7'] => some .lineStart
      | ['4'] | ['8'] => some .lineEnd
      | _ => none
  | _ => none

/-- The key that a character finishes, if it finishes one, and where the reading goes on. -/
def Scan.step : Scan → Char → Option Key × Scan
  | .plain, c => if c = escape then (none, .escaped) else (some (ofChar c), .plain)
  | .escaped, c =>
    if c = 'f' then (some .wordForward, .plain)
    else if c = 'b' then (some .wordBack, .plain)
    else if c = '[' || c = 'O' then (none, .sequence c [])
    else (none, .plain)
  | .sequence first numbers, c =>
    if c.isDigit || c = ';' then (none, .sequence first (numbers ++ [c]))
    else (ofSequence? first numbers c, .plain)

/-- The keys of the characters from a point of the reading. -/
def allFrom (scan : Scan) : List Char → List Key
  | [] => []
  | c :: cs => (scan.step c).1.toList ++ allFrom (scan.step c).2 cs

/-- The keys of a text. -/
def ofText (text : String) : List Key :=
  allFrom .plain text.toList

end Key

end Ceylon.Prompt
