import Ceylon.Text.Quoted
import Ceylon.Text.Yaml.Reading

/-!
# Texts in YAML

A text is written in one of four styles: plain, if it cannot be taken for anything else; between single quotes, if
only an indicator of the format is in the way; as a block of lines, if it has line breaks; and else between double
quotes, with escapes.
-/

namespace Ceylon.Text.Yaml

/-! ## Characters -/

/-- Whether a character can be shown; those beyond the basic plane are not. -/
def isShown (c : Char) : Bool :=
  let n := c.toNat
  n = 0x0a || (0x20 ≤ n && n ≤ 0x7e) || (0xa0 ≤ n && n < 0xfeff) || (0xff00 ≤ n && n < 0xfffe)

/-- Whether a character can only be written with an escape. -/
def isSpecial (c : Char) : Bool :=
  !isShown c && c ≠ '\t'

/-- Whether a character breaks the line. -/
def isBreak (c : Char) : Bool :=
  c = '\n' || c = '\r' || c.toNat = 0x85 || c.toNat = 0x2028 || c.toNat = 0x2029

/-- Whether a character is a blank. -/
def isBlank (c : Char) : Bool :=
  c = ' ' || c = '\t'

/-- Whether a blank or nothing comes first. -/
def startsBlank : List Char → Bool
  | [] => true
  | c :: _ => isBlank c

/-! ## What is in the way of a style -/

/-- Whether the first character of a text is an indicator of the format. -/
def startsIndicator : List Char → Bool
  | [] => false
  | c :: cs =>
    "#,[]\x7b\x7d&*!|>'\"%@\x60".toList.contains c ||
      ((c = '?' || c = ':' || c = '-') && startsBlank cs)

/-- Whether an indicator of the format stands inside a text, given the character before. -/
def holdsIndicator (before : Char) : List Char → Bool
  | [] => false
  | c :: cs =>
    (c = ':' && startsBlank cs) || (c = '#' && (isBlank before || isBreak before)) ||
      holdsIndicator c cs

/-- Whether two characters that satisfy the conditions stand side by side. -/
def holdsPair (p q : Char → Bool) : List Char → Bool
  | a :: b :: cs => (p a && q b) || holdsPair p q (b :: cs)
  | _ => false

/-- Whether a blank stands before a line break. -/
def blankBeforeBreak (cs : List Char) : Bool :=
  holdsPair (· = ' ') isBreak cs

/-- Whether a blank stands behind a line break. -/
def blankAfterBreak (cs : List Char) : Bool :=
  holdsPair isBreak (· = ' ') cs

/-- Whether a text can stand between single quotes. -/
def fitsSingle (cs : List Char) : Bool :=
  !(cs.any isSpecial || cs.contains '\t' || blankBeforeBreak cs || blankAfterBreak cs)

/-- Whether a text can stand without quotes. -/
def fitsPlain : List Char → Bool
  | [] => true
  | c :: cs =>
    let all := c :: cs
    fitsSingle all && !all.any isBreak && c ≠ ' ' && all.getLast? ≠ some ' ' &&
      !(all.take 3 == "---".toList || all.take 3 == "...".toList) &&
      !startsIndicator all && !holdsIndicator c cs

/-- Whether a text can stand as a block of lines. -/
def fitsBlock (cs : List Char) : Bool :=
  !(cs.any isSpecial || blankBeforeBreak cs || cs.getLast? = some ' ')

/-- The styles of texts. -/
inductive Style where
  | plain
  | single
  | double
  | block
deriving DecidableEq, Repr, Inhabited

/-- The style in which a text is written. -/
def style (s : String) : Style :=
  let cs := s.toList
  if cs.contains '\n' then if fitsBlock cs then .block else .double
  else if looksTyped s then .double
  else if fitsPlain cs then .plain
  else if fitsSingle cs then .single
  else .double

/-! ## Writing -/

/-- The letter after the backslash for the characters that have one. -/
def escapeLetter? (c : Char) : Option Char :=
  match c.toNat with
  | 0x00 => some '0'
  | 0x07 => some 'a'
  | 0x08 => some 'b'
  | 0x09 => some 't'
  | 0x0a => some 'n'
  | 0x0b => some 'v'
  | 0x0c => some 'f'
  | 0x0d => some 'r'
  | 0x1b => some 'e'
  | 0x22 => some '"'
  | 0x5c => some '\\'
  | 0x85 => some 'N'
  | 0x2028 => some 'L'
  | 0x2029 => some 'P'
  | _ => none

/-- One character between double quotes. -/
def escape (c : Char) : String :=
  if isShown c && !isBreak c && c ≠ '"' && c ≠ '\\' then String.singleton c
  else match escapeLetter? c with
    | some letter => String.ofList ['\\', letter]
    | none =>
      let n := c.toNat
      let upper (width : Nat) : String := String.map Char.toUpper (hexDigits width n)
      if n ≤ 0xff then "\\x" ++ upper 2
      else if n ≤ 0xffff then "\\u" ++ upper 4
      else "\\U" ++ upper 8

/-- Characters with blanks before those at the start of a line.  Line breaks other than the usual one do not end a
line of the document, but the text behind them is indented, too. -/
def indented (indent : Nat) (fresh : Bool) : List Char → List Char
  | [] => []
  | c :: cs =>
    if isBreak c then c :: indented indent true cs
    else (if fresh then List.replicate indent ' ' else []) ++ c :: indented indent false cs

/-- A text between single quotes. -/
def singleQuoted (indent : Nat) (s : String) : String :=
  let doubled := s.toList.flatMap fun c => if c = '\'' then [c, c] else [c]
  "'" ++ String.ofList (indented indent false doubled) ++ "'"

/-- What begins a block: whether its first line is blank at the start, and what becomes of the line breaks at its
end. -/
def blockMark (cs : List Char) : String :=
  let start := if cs.head?.any fun c => c = ' ' || isBreak c then "2" else ""
  let ending := match cs.reverse with
    | c :: d :: _ => if !isBreak c then "-" else if isBreak d then "+" else ""
    | [c] => if isBreak c then "+" else "-"
    | [] => "-"
  "|" ++ start ++ ending

/-- The lines of a text that is written as a block. -/
def blockLines (indent : Nat) (s : String) : List String :=
  let lines := (s.splitOn "\n").map fun l => String.ofList (indented indent true l.toList)
  blockMark s.toList :: (if lines.getLast? = some "" then lines.dropLast else lines)

/-- The lines of a text whose continuation is indented as far as given. -/
def scalarLines (indent : Nat) (s : String) : List String :=
  match style s with
  | .plain => [s]
  | .single => [singleQuoted indent s]
  | .double => ["\"" ++ String.join (s.toList.map escape) ++ "\""]
  | .block => blockLines indent s

end Ceylon.Text.Yaml
