import Ceylon.Text.CharClass

/-!
# Quoted text in messages

Messages quote text so that it stays on one line and unambiguous: between quotes, printable
characters stand for themselves, the quote and the backslash are escaped, seven control characters
have letters of their own, and everything else is written as a hexadecimal code of two, four or eight
digits.
-/

namespace Ceylon.Text

/-- The lower-case hexadecimal digits of `n`, padded with zeros to at least `width` places. -/
def hexDigits (width n : Nat) : String :=
  let digits := Nat.toDigits 16 n
  String.ofList (List.replicate (width - digits.length) '0' ++ digits)

/-- The letter after the backslash for the control characters that have one. -/
def escapeLetter? (c : Char) : Option Char :=
  match c.toNat with
  | 7 => some 'a'
  | 8 => some 'b'
  | 9 => some 't'
  | 10 => some 'n'
  | 11 => some 'v'
  | 12 => some 'f'
  | 13 => some 'r'
  | _ => none

/-- One character as it stands between quotes of the kind `delim`. -/
def escapeChar (delim c : Char) : String :=
  if c == delim || c == '\\' then String.ofList ['\\', c]
  else if isPrintable c then String.singleton c
  else match escapeLetter? c with
  | some letter => String.ofList ['\\', letter]
  | none =>
    let n := c.toNat
    if n < 0x20 || n == 0x7f then "\\x" ++ hexDigits 2 n
    else if n < 0x10000 then "\\u" ++ hexDigits 4 n
    else "\\U" ++ hexDigits 8 n

/-- A text between double quotes. -/
def quote (s : String) : String :=
  "\"" ++ String.join (s.toList.map (escapeChar '"')) ++ "\""

/-- A character between single quotes. -/
def quoteChar (c : Char) : String :=
  "'" ++ escapeChar '\'' c ++ "'"

end Ceylon.Text
