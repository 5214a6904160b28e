/-!
# How plain texts are read

A text without quotes is read as a value of another type if it looks like one: like null or a truth value, a whole
number that fits 64 bits, a decimal fraction that is not too large, or a date that exists.
-/

namespace Ceylon.Text.Yaml

/-- The words for null, for truth values and for the numbers that are none. -/
def valueWords : List String :=
  ["", "~", "null", "Null", "NULL", "true", "True", "TRUE", "false", "False", "FALSE",
    ".nan", ".NaN", ".NAN", ".inf", ".Inf", ".INF", "+.inf", "+.Inf", "+.INF",
    "-.inf", "-.Inf", "-.INF"]

/-- The words that older readers take for truth values. -/
def oldTruthWords : List String :=
  ["y", "Y", "yes", "Yes", "YES", "on", "On", "ON", "n", "N", "no", "No", "NO", "off", "Off", "OFF"]

/-! ## Whole numbers -/

/-- The sign at the start of some characters, and the rest. -/
def splitSign : List Char → Option Char × List Char
  | '+' :: cs => (some '+', cs)
  | '-' :: cs => (some '-', cs)
  | cs => (none, cs)

/-- Characters without the sign at their start. -/
def unsigned (cs : List Char) : List Char :=
  (splitSign cs).2

/-- The value of a digit. -/
def digitValue? (c : Char) : Option Nat :=
  if c.isDigit then some (c.toNat - '0'.toNat)
  else if 'a' ≤ c && c ≤ 'f' then some (c.toNat - 'a'.toNat + 10)
  else if 'A' ≤ c && c ≤ 'F' then some (c.toNat - 'A'.toNat + 10)
  else none

/-- The number that digits of a base are, behind digits that are the given number. -/
def numberFrom? (base : Nat) (n : Nat) : List Char → Option Nat
  | [] => some n
  | c :: cs =>
    match digitValue? c with
    | some d => if d < base then numberFrom? base (n * base + d) cs else none
    | none => none

/-- The number that digits of a base are, of which there must be some. -/
def number? (base : Nat) (cs : List Char) : Option Nat :=
  if cs.isEmpty then none else numberFrom? base 0 cs

/-- The largest number that fits 64 bits with the sign; without one, the numbers below 0 are not needed. -/
def largest : Option Char → Nat
  | none => 0xffffffffffffffff
  | some '-' => 0x8000000000000000
  | some _ => 0x7fffffffffffffff

/-- The number of digits that may begin with the letter of their base.  A leading zero means base 8. -/
def prefixed? : List Char → Option Nat
  | '0' :: x :: d :: ds =>
    match x.toLower with
    | 'b' => number? 2 (d :: ds)
    | 'o' => number? 8 (d :: ds)
    | 'x' => number? 16 (d :: ds)
    | _ => number? 8 (x :: d :: ds)
  | '0' :: ds => numberFrom? 8 0 ds
  | ds => number? 10 ds

/-- Whether the characters are a whole number that fits 64 bits. -/
def looksWhole (cs : List Char) : Bool :=
  let (sign, digits) := splitSign cs
  (prefixed? digits).any (· ≤ largest sign)

/-- Whether the characters are a binary or octal number whose sign stands behind the letter of its base. -/
def looksInnerSigned : List Char → Bool
  | '0' :: x :: cs =>
    let (sign, digits) := splitSign cs
    let base := if x = 'b' then 2 else 8
    (x = 'b' || x = 'o') && sign.isSome && (number? base digits).any (· ≤ largest sign)
  | _ => false

/-! ## Fractions -/

/-- The exponent that the characters are; without any it is 0. -/
def exponent? : List Char → Option Int
  | [] => some 0
  | c :: cs =>
    if c ≠ 'e' && c ≠ 'E' then none
    else
      let (sign, digits) := splitSign cs
      (number? 10 digits).map fun n => if sign = some '-' then -(n : Int) else n

/-- Whether `m * 10 ^ e` rounds to a number of 64 bits with a fraction: to one below 2 ^ 1024. -/
def isFinite (m : Nat) (e : Int) : Bool :=
  let magnitude : Int := (toString m).length + e
  if m = 0 || magnitude < 300 then true
  else if magnitude > 320 then false
  else
    let bound := Nat.pow 2 1024 - Nat.pow 2 970
    let scale := Nat.pow 10 e.natAbs
    if e < 0 then m < bound * scale else m * scale < bound

/-- Whether the characters are a decimal fraction, perhaps with an exponent, that is not too large. -/
def looksFraction (cs : List Char) : Bool :=
  let cs := unsigned cs
  let whole := cs.takeWhile Char.isDigit
  let rest := cs.dropWhile Char.isDigit
  let (places, rest) := match rest with
    | '.' :: rest => (rest.takeWhile Char.isDigit, rest.dropWhile Char.isDigit)
    | rest => ([], rest)
  match number? 10 (whole ++ places), exponent? rest with
  | some m, some e => isFinite m (e - places.length)
  | _, _ => false

/-- Whether every low line stands between two digits. -/
def lowLinesApart : List Char → Bool
  | a :: '_' :: b :: cs => a.isDigit && b.isDigit && lowLinesApart (b :: cs)
  | [_, '_'] => false
  | '_' :: _ => false
  | _ :: cs => lowLinesApart cs
  | [] => true

/-! ## Dates -/

/-- The number of days of a month. -/
def daysIn (year month : Nat) : Nat :=
  if month = 2 then
    if year % 4 = 0 && (year % 100 ≠ 0 || year % 400 = 0) then 29 else 28
  else if [4, 6, 9, 11].contains month then 30
  else 31

/-- A number of one or two digits at the start, and the rest. -/
def shortNumber? (cs : List Char) : Option (Nat × List Char) :=
  let digits := (cs.take 2).takeWhile Char.isDigit
  (number? 10 digits).map (·, cs.drop digits.length)

/-- The rest behind a character. -/
def behind? (c : Char) : List Char → Option (List Char)
  | d :: cs => if c = d then some cs else none
  | [] => none

/-- The rest behind a fraction of a second, if there is one. -/
def behindFraction : List Char → List Char
  | m :: d :: cs => if (m = '.' || m = ',') && d.isDigit then cs.dropWhile Char.isDigit else m :: d :: cs
  | cs => cs

/-- The rest behind a time of the day. -/
def behindTime? (cs : List Char) : Option (List Char) := do
  let (hour, cs) ← shortNumber? cs
  let (minute, cs) ← shortNumber? (← behind? ':' cs)
  let (second, cs) ← shortNumber? (← behind? ':' cs)
  if hour < 24 && minute < 60 && second < 60 then some (behindFraction cs) else none

/-- Whether the characters are a time zone. -/
def isZone : List Char → Bool
  | ['Z'] => true
  | [sign, h, h', ':', m, m'] =>
    (sign = '+' || sign = '-') &&
      (number? 10 [h, h']).any (· ≤ 24) && (number? 10 [m, m']).any (· ≤ 60)
  | _ => false

/-- Whether the characters may follow a date: nothing, or a time behind blanks, or a time with its zone. -/
def mayFollowDate : List Char → Bool
  | [] => true
  | c :: cs =>
    if c = 'T' || c = 't' then (behindTime? cs).any isZone
    else c = ' ' && (behindTime? (cs.dropWhile (· = ' '))).any List.isEmpty

/-- Whether the characters are a date that exists, perhaps with a time of the day. -/
def looksDate (cs : List Char) : Bool :=
  let year := cs.takeWhile Char.isDigit
  let date := do
    let (month, rest) ← shortNumber? (← behind? '-' (cs.drop 4))
    let (day, rest) ← shortNumber? (← behind? '-' rest)
    return (month, day, rest)
  match number? 10 year, date with
  | some y, some (month, day, rest) =>
    year.length = 4 && 1 ≤ month && month ≤ 12 && 1 ≤ day && day ≤ daysIn y month && mayFollowDate rest
  | _, _ => false

/-- Whether the characters are a number in base 60, such as a time of the day. -/
def looksSexagesimal (s : String) : Bool :=
  match s.splitOn ":" with
  | first :: second :: more =>
    let isDigitOrLow (c : Char) : Bool := c.isDigit || c = '_'
    let part (cs : List Char) : Bool :=
      match cs with
      | [a] => a.isDigit
      | [a, b] => '0' ≤ a && a ≤ '5' && b.isDigit
      | _ => false
    let parts := (second :: more).map String.toList
    let last := parts.getLastD []
    let places := last.dropWhile (· ≠ '.')
    (match unsigned first.toList with
      | d :: rest => d.isDigit && rest.all isDigitOrLow
      | [] => false) &&
      parts.dropLast.all part && part (last.takeWhile (· ≠ '.')) &&
      places.tail.all isDigitOrLow
  | _ => false

/-! ## Readings -/

/-- Whether a text that begins like a number is read as one.  Low lines in it do not count, but for a fraction that
begins with its point. -/
def looksNumeric : List Char → Bool
  | [] => false
  | c :: cs =>
    let plain := (c :: cs).filter (· ≠ '_')
    if c = '.' then lowLinesApart (c :: cs) && looksFraction plain
    else if c.isDigit || c = '+' || c = '-' then
      looksDate (c :: cs) || looksWhole plain || looksFraction plain || looksInnerSigned plain
    else false

/-- Whether a text would be read as a value of another type. -/
def looksTyped (s : String) : Bool :=
  valueWords.contains s || oldTruthWords.contains s || looksSexagesimal s || looksNumeric s.toList

end Ceylon.Text.Yaml
