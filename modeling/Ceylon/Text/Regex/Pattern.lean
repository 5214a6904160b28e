import Ceylon.Text.Regex.Basic
import Ceylon.Text.Script
import Ceylon.Text.Words

/-!
# Patterns

The written form of regular expressions.  A pattern is read from left to right with the groups that are open
kept aside, and the first fault ends the reading.
-/

namespace Ceylon.Text.Pattern

/-- What is wrong with a pattern. -/
inductive Cause where
  | badRange
  | badEscape
  | badName
  | badFlags
  | stackedLoop
  | badCount
  | openSet
  | openGroup
  | nothingToRepeat
  | endsInBackslash
  | closedTwice
  | tooDeep
  | tooLarge
deriving DecidableEq, Repr, Inhabited

/-- The wording of the cause. -/
def Cause.text : Cause → String
  | .badRange => "invalid character class range"
  | .badEscape => "invalid escape sequence"
  | .badName => "invalid named capture"
  | .badFlags => "invalid or unsupported Perl syntax"
  | .stackedLoop => "invalid nested repetition operator"
  | .badCount => "invalid repeat count"
  | .openSet => "missing closing ]"
  | .openGroup => "missing closing )"
  | .nothingToRepeat => "missing argument to repetition operator"
  | .endsInBackslash => "trailing backslash at end of expression"
  | .closedTwice => "unexpected )"
  | .tooDeep => "expression nests too deeply"
  | .tooLarge => "expression too large"

/-- A fault of a pattern, and the part of the pattern that has it. -/
structure Fault where
  cause : Cause
  part : List Char
deriving DecidableEq, Repr, Inhabited

/-- The wording of the fault. -/
def Fault.message (f : Fault) : String :=
  "error parsing regexp: " ++ f.cause.text ++ ": \x60" ++ String.ofList f.part ++ "\x60"

/-- The part of a pattern from one place up to a later one, where `rest` follows. -/
def upTo (start rest : List Char) : List Char :=
  start.take (start.length - rest.length)

/-! ## Characters -/

/-- The value of a hexadecimal digit. -/
def hexValue? (c : Char) : Option Nat :=
  if c.isDigit then some (c.toNat - '0'.toNat)
  else if 'a' ≤ c && c ≤ 'f' then some (c.toNat - 'a'.toNat + 10)
  else if 'A' ≤ c && c ≤ 'F' then some (c.toNat - 'A'.toNat + 10)
  else none

/-- Whether a character is an octal digit. -/
def isOctal (c : Char) : Bool :=
  '0' ≤ c && c ≤ '7'

/-- The largest code point. -/
def maxCode : Nat :=
  0x10ffff

/-- The hexadecimal digits up to a closing brace.  If they are no code point the rest is that behind the
first character that does not fit. -/
def bracedCode (code digits : Nat) : List Char → Option Nat × List Char
  | [] => (none, [])
  | '\x7d' :: rest => (if digits = 0 then none else some code, rest)
  | c :: rest =>
    match hexValue? c with
    | none => (none, rest)
    | some v =>
      let code := code * 16 + v
      if code > maxCode then (none, rest) else bracedCode code (digits + 1) rest

/-- The code point of an octal escape, whose first digit has been read. -/
def octalCode (first : Char) (rest : List Char) : Nat × List Char :=
  let more := (rest.take 2).takeWhile isOctal
  ((first :: more).foldl (fun n c => n * 8 + (c.toNat - '0'.toNat)) 0, rest.drop more.length)

/-- The character that a letter behind a backslash stands for. -/
def escapeCode? : Char → Option Nat
  | 'a' => some 7
  | 'f' => some 12
  | 'n' => some 10
  | 'r' => some 13
  | 't' => some 9
  | 'v' => some 11
  | _ => none

/-- The code point of an escape, given what follows the backslash, and the rest.  Without a code point the
rest is that behind the fault. -/
def escaped : List Char → Option Nat × List Char
  | [] => (none, [])
  | '0' :: rest => let (n, rest) := octalCode '0' rest; (some n, rest)
  | 'x' :: '\x7b' :: rest => bracedCode 0 0 rest
  | ['x'] => (none, [])
  | ['x', _] => (none, [])
  | 'x' :: a :: b :: rest =>
    match hexValue? a, hexValue? b with
    | some x, some y => (some (x * 16 + y), rest)
    | _, _ => (none, rest)
  | c :: rest =>
    if '1' ≤ c && c ≤ '7' then
      if (rest.head?).any isOctal then let (n, rest) := octalCode c rest; (some n, rest)
      else (none, rest)
    else if let some n := escapeCode? c then (some n, rest)
    else if c.toNat < 0x80 && !c.isAlphanum then (some c.toNat, rest)
    else (none, rest)

/-- The code point of an escape that begins with the backslash at `start`. -/
def escape (start : List Char) : Except Fault (Nat × List Char) :=
  match start.drop 1 with
  | [] => .error ⟨.endsInBackslash, []⟩
  | body =>
    match escaped body with
    | (some n, rest) => .ok (n, rest)
    | (none, rest) => .error ⟨.badEscape, upTo start rest⟩

/-! ## Named sets -/

/-- The ranges of the sets that are written with a backslash and a letter. -/
def shorthand? : Char → Option (List (Nat × Nat))
  | 'd' => some [(0x30, 0x39)]
  | 's' => some [(9, 10), (12, 13), (32, 32)]
  | 'w' => some [(0x30, 0x39), (0x41, 0x5a), (0x5f, 0x5f), (0x61, 0x7a)]
  | _ => none

/-- A set that is written with a backslash and a letter; an upper-case letter means the others. -/
def shorthandSpan? (c : Char) : Option CharSpan :=
  if c.isUpper then (shorthand? c.toLower).map fun rs => { outside := true, group := .between rs }
  else (shorthand? c).map fun rs => { group := .between rs }

/-- The ranges of the sets that are written with a name between colons. -/
def classRanges? : String → Option (List (Nat × Nat))
  | "alnum" => some [(0x30, 0x39), (0x41, 0x5a), (0x61, 0x7a)]
  | "alpha" => some [(0x41, 0x5a), (0x61, 0x7a)]
  | "ascii" => some [(0, 0x7f)]
  | "blank" => some [(9, 9), (32, 32)]
  | "cntrl" => some [(0, 0x1f), (0x7f, 0x7f)]
  | "digit" => some [(0x30, 0x39)]
  | "graph" => some [(0x21, 0x7e)]
  | "lower" => some [(0x61, 0x7a)]
  | "print" => some [(0x20, 0x7e)]
  | "punct" => some [(0x21, 0x2f), (0x3a, 0x40), (0x5b, 0x60), (0x7b, 0x7e)]
  | "space" => some [(9, 13), (32, 32)]
  | "upper" => some [(0x41, 0x5a)]
  | "word" => some [(0x30, 0x39), (0x41, 0x5a), (0x5f, 0x5f), (0x61, 0x7a)]
  | "xdigit" => some [(0x30, 0x39), (0x41, 0x46), (0x61, 0x66)]
  | _ => none

/-- The set of a name between colons; a circumflex means the others. -/
def classSpan? : List Char → Option CharSpan
  | '^' :: name =>
    (classRanges? (String.ofList name)).map fun rs => { outside := true, group := .between rs }
  | name => (classRanges? (String.ofList name)).map fun rs => { group := .between rs }

/-- A name with nothing in it that makes no difference: case, blanks, hyphens and low lines. -/
def plainName (name : List Char) : List Char :=
  (name.filter fun c => c ≠ ' ' && c ≠ '-' && c ≠ '_').map Char.toLower

/-- The categories that a name stands for. -/
def categories? : String → Option (List Category)
  | "any" => some Category.all
  | "l" | "letter" => some Category.letters
  | "lc" | "casedletter" => some Category.casedLetters
  | "lu" | "uppercaseletter" => some [.lu]
  | "ll" | "lowercaseletter" => some [.ll]
  | "lt" | "titlecaseletter" => some [.lt]
  | "lm" | "modifierletter" => some [.lm]
  | "lo" | "otherletter" => some [.lo]
  | "m" | "mark" | "combiningmark" => some Category.marks
  | "mn" | "nonspacingmark" => some [.mn]
  | "mc" | "spacingmark" => some [.mc]
  | "me" | "enclosingmark" => some [.me]
  | "n" | "number" => some Category.numbers
  | "nd" | "decimalnumber" | "digit" => some [.nd]
  | "nl" | "letternumber" => some [.nl]
  | "no" | "othernumber" => some [.no]
  | "p" | "punctuation" | "punct" => some Category.punctuation
  | "pc" | "connectorpunctuation" => some [.pc]
  | "pd" | "dashpunctuation" => some [.pd]
  | "ps" | "openpunctuation" => some [.ps]
  | "pe" | "closepunctuation" => some [.pe]
  | "pi" | "initialpunctuation" => some [.pi]
  | "pf" | "finalpunctuation" => some [.pf]
  | "po" | "otherpunctuation" => some [.po]
  | "s" | "symbol" => some Category.symbols
  | "sm" | "mathsymbol" => some [.sm]
  | "sc" | "currencysymbol" => some [.sc]
  | "sk" | "modifiersymbol" => some [.sk]
  | "so" | "othersymbol" => some [.so]
  | "z" | "separator" => some Category.separators
  | "zs" | "spaceseparator" => some [.zs]
  | "zl" | "lineseparator" => some [.zl]
  | "zp" | "paragraphseparator" => some [.zp]
  | "c" | "other" => some Category.others
  | "cc" | "control" | "cntrl" => some [.cc]
  | "cf" | "format" => some [.cf]
  | "cs" | "surrogate" => some [.cs]
  | "co" | "privateuse" => some [.co]
  | "cn" | "unassigned" => some [.cn]
  | "assigned" => some (Category.all.filter (· ≠ .cn))
  | _ => none

/-- The script that a name stands for. -/
def script? (name : List Char) : Option (List (Nat × Nat)) :=
  (scripts.find? fun (s, _) => plainName s.toList == name).map (·.2)

/-- The group of characters that a name stands for, be it of a category or a script. -/
def charGroup? (name : List Char) : Option CharGroup :=
  let name := plainName name
  if name = "ascii".toList then some (.between [(0, 0x7f)])
  else match categories? (String.ofList name) with
    | some ks => some (.ofCategory ks)
    | none => (script? name).map .between

/-- The characters that a name stands for; a circumflex means the others. -/
def categorySpan? (others : Bool) : List Char → Option CharSpan
  | '^' :: name => (charGroup? name).map fun group => { outside := !others, group }
  | name => (charGroup? name).map fun group => { outside := others, group }

/-- A category or script, given what follows the backslash and its letter. -/
def category (start : List Char) (others : Bool) (body : List Char) :
    Except Fault (CharSpan × List Char) :=
  let closed := body.contains '\x7d'
  let (name, rest) := match body with
    | '\x7b' :: body => (body.takeWhile (· ≠ '\x7d'), (body.dropWhile (· ≠ '\x7d')).drop 1)
    | body => (body.take 1, body.drop 1)
  if body.head? = some '\x7b' && !closed then .error ⟨.badRange, start⟩
  else match categorySpan? others name with
    | some span => .ok (span, rest)
    | none => .error ⟨.badRange, upTo start rest⟩

/-- A set that begins with a backslash, if the text is one. -/
def escapedSpan? (start : List Char) : Except Fault (Option (CharSpan × List Char)) :=
  match start with
  | '\\' :: 'p' :: body => some <$> category start false body
  | '\\' :: 'P' :: body => some <$> category start true body
  | '\\' :: c :: rest => .ok ((shorthandSpan? c).map (·, rest))
  | _ => .ok none

/-! ## Sets between brackets -/

/-- A character of a set; the whole set is named in faults. -/
def setChar (whole : List Char) : List Char → Except Fault (Nat × List Char)
  | [] => .error ⟨.openSet, whole⟩
  | '\\' :: rest => escape ('\\' :: rest)
  | c :: rest => .ok (c.toNat, rest)

/-- The next part of a set: a named set, a character or a range. -/
def setSpan (whole cs : List Char) : Except Fault (CharSpan × List Char) := do
  if let some body := after? ['[', ':'] cs then
    if Text.occursIn [':', ']'] body then
      let name := body.takeWhile (· ≠ ':')
      let rest := body.drop name.length
      match after? [':', ']'] rest, classSpan? name with
      | some rest, some span => return (span, rest)
      | _, _ =>
        let close := (List.range body.length).find? fun i =>
          (after? [':', ']'] (body.drop i)).isSome
        throw ⟨.badRange, cs.take (close.getD 0 + 4)⟩
  if let some found ← escapedSpan? cs then return found
  let (lo, rest) ← setChar whole cs
  match rest with
  | '-' :: c :: more =>
    if c = ']' then return ({ group := .between [(lo, lo)] }, rest)
    let (hi, rest) ← setChar whole (c :: more)
    if hi < lo then throw ⟨.badRange, upTo cs rest⟩
    return ({ group := .between [(lo, hi)] }, rest)
  | _ => return ({ group := .between [(lo, lo)] }, rest)

/-- The parts of a set up to its closing bracket, which is no such thing at the beginning. -/
def setSpans (whole : List Char) : (depth : Nat) → (first : Bool) → List Char →
    Except Fault (List CharSpan × List Char)
  | 0, _, _ => .error ⟨.openSet, whole⟩
  | _ + 1, false, ']' :: rest => .ok ([], rest)
  | depth + 1, _, cs => do
    let (span, rest) ← setSpan whole cs
    let (spans, rest) ← setSpans whole depth false rest
    return (span :: spans, rest)

/-- A set that begins with the bracket at `start`. -/
def readSet (folded : Bool) (start : List Char) : Except Fault (CharSet × List Char) := do
  let (negated, body) := match start with
    | '[' :: '^' :: body => (true, body)
    | cs => (false, cs.drop 1)
  let (spans, rest) ← setSpans start (body.length + 1) true body
  return ({ negated, folded, spans }, rest)

/-! ## Groups -/

/-- How a part of a pattern is read. -/
structure Flags where
  /-- Whether case is ignored. -/
  folded : Bool := false
  /-- Whether anchors hold at line breaks. -/
  lineByLine : Bool := false
  /-- Whether a dot stands for a line break, too. -/
  dotBreaks : Bool := false
deriving DecidableEq, Repr, Inhabited

/-- A group that is being read: its finished alternatives and the items of the last one, latest first. -/
structure Group where
  /-- The flags that hold behind the group. -/
  outerFlags : Flags := {}
  /-- Whether the group is kept as a part of its own. -/
  captured : Bool := false
  branches : List Regex := []
  items : List Regex := []
deriving DecidableEq, Repr, Inhabited

namespace Group

/-- The items one after the other. -/
def sequence (g : Group) : Regex :=
  match g.items with
  | [] => .empty
  | last :: before => before.foldl (fun r item => .seq item r) last

/-- The alternatives of a group that ends. -/
def choice (g : Group) : Regex :=
  g.branches.foldl (fun r branch => .alt branch r) g.sequence

/-- The expression of a group that ends. -/
def close (g : Group) : Regex :=
  if g.captured then .group g.choice else g.choice

/-- Adds an item. -/
def add (g : Group) (r : Regex) : Group :=
  { g with items := r :: g.items }

/-- Begins the next alternative. -/
def branch (g : Group) : Group :=
  { g with branches := g.sequence :: g.branches, items := [] }

end Group

/-- The state of reading a pattern. -/
structure Reading where
  group : Group := {}
  /-- The groups around it, innermost first. -/
  outer : List Group := []
  flags : Flags := {}
  /-- The pattern from the repetition that has just been read. -/
  loop : Option (List Char) := none
deriving Inhabited

/-- The deepest nesting of a pattern's parts. -/
def maxDepth : Nat :=
  1000

/-- The fault of a part of a pattern that is too large or nested too deeply. -/
def checkLimits (whole : List Char) (part : Regex) : Except Fault Unit :=
  if !part.isSmall then .error ⟨.tooLarge, whole⟩
  else if part.nesting.height > maxDepth then .error ⟨.tooDeep, whole⟩
  else .ok ()

namespace Reading

/-- Adds an item. -/
def add (r : Reading) (item : Regex) : Reading :=
  { r with group := r.group.add item, loop := none }

/-- Adds a set of characters. -/
def addSpan (r : Reading) (span : CharSpan) : Reading :=
  r.add (.one { folded := r.flags.folded, spans := [span] })

/-- Adds a character. -/
def addCode (r : Reading) (code : Nat) : Reading :=
  r.addSpan { group := .between [(code, code)] }

/-- Begins a group in which the given flags hold. -/
def openGroup (r : Reading) (flags : Flags) (captured : Bool) : Reading :=
  { group := { outerFlags := r.flags, captured }, outer := r.group :: r.outer, flags }

/-- Begins the next alternative. -/
def branch (r : Reading) (whole : List Char) : Except Fault Reading := do
  checkLimits whole r.group.sequence
  return { r with group := r.group.branch, loop := none }

/-- Ends the group that is open. -/
def closeGroup (r : Reading) (whole : List Char) : Except Fault Reading := do
  checkLimits whole r.group.close
  match r.outer with
  | [] => throw ⟨.closedTwice, whole⟩
  | outer :: more =>
    return { group := outer.add r.group.close, outer := more, flags := r.group.outerFlags }

/-- The whole expression, if no group is left open. -/
def finish (r : Reading) (whole : List Char) : Except Fault Regex := do
  checkLimits whole r.group.choice
  if r.outer.isEmpty then return r.group.close else throw ⟨.openGroup, whole⟩

/-- Repeats the last item.  The repetition stands in the pattern from `start` up to `rest`. -/
def repeatLast (r : Reading) (whole : List Char) (min : Nat) (max : Option Nat)
    (start rest : List Char) : Except Fault (Reading × List Char) := do
  let rest := match rest with
    | '?' :: rest => rest
    | rest => rest
  match r.loop, r.group.items with
  | some loop, _ => throw ⟨.stackedLoop, upTo loop rest⟩
  | none, [] => throw ⟨.nothingToRepeat, upTo start rest⟩
  | none, last :: before =>
    let item := Regex.times min max last
    checkLimits whole item
    if (min ≥ 2 || max.any (· ≥ 2)) && !item.loopsWithin 1000 then
      throw ⟨.badCount, upTo start rest⟩
    return ({ r with group := { r.group with items := item :: before }, loop := some start }, rest)

end Reading

/-- A number without leading zeros. -/
def number? (cs : List Char) : Option (Nat × List Char) :=
  let digits := cs.takeWhile Char.isDigit
  match digits with
  | [] => none
  | '0' :: _ :: _ => none
  | ds => some (ds.foldl (fun n c => n * 10 + (c.toNat - '0'.toNat)) 0, cs.drop ds.length)

/-- Bounds of a repetition between braces, behind the opening one. -/
def bounds? (cs : List Char) : Option (Nat × Option Nat × List Char) := do
  let (min, rest) ← number? cs
  match rest with
  | ',' :: '\x7d' :: rest => return (min, none, rest)
  | ',' :: rest =>
    let (max, rest) ← number? rest
    match rest with
    | '\x7d' :: rest => return (min, some max, rest)
    | _ => none
  | '\x7d' :: rest => return (min, some min, rest)
  | _ => none

/-- The largest number of repetitions that may be asked for. -/
def mostTimes : Nat :=
  1000

/-- Whether bounds may be asked for. -/
def boundsFit (min : Nat) (max : Option Nat) : Bool :=
  min ≤ mostTimes && max.all fun m => m ≤ mostTimes && min ≤ m

/-- Sets or clears the flag of a letter. -/
def Flags.put? (f : Flags) (on : Bool) : Char → Option Flags
  | 'i' => some { f with folded := on }
  | 'm' => some { f with lineByLine := on }
  | 's' => some { f with dotBreaks := on }
  | 'U' => some f
  | _ => none

/-- The flags at the beginning of a group, whether a group of its own follows, and the rest.  Without flags
the rest is that behind the fault.  A hyphen turns the flags behind it off, and there must be some. -/
def readFlags (f : Flags) (on seen : Bool) : List Char → Option (Flags × Bool) × List Char
  | [] => (none, [])
  | c :: rest =>
    if c = ':' || c = ')' then
      if on || seen then (some (f, c = ':'), rest) else (none, rest)
    else if c = '-' then
      if on then readFlags f false false rest else (none, rest)
    else match f.put? on c with
      | some f => readFlags f on true rest
      | none => (none, rest)

/-- Whether a group may have the name. -/
def isName (name : List Char) : Bool :=
  !name.isEmpty && name.all fun c => c == '_' || c.isAlphanum

/-- The beginning of a group whose parenthesis, at `start`, is followed by a question mark. -/
def openSpecial (r : Reading) (start body : List Char) : Except Fault (Reading × List Char) :=
  let named := match body with
    | 'P' :: '<' :: c :: cs => some (c :: cs)
    | '<' :: c :: cs => some (c :: cs)
    | _ => none
  match named with
  | some cs =>
    let name := cs.takeWhile (· ≠ '>')
    match cs.drop name.length with
    | [] => .error ⟨.badName, start⟩
    | _ :: rest =>
      if isName name then .ok (r.openGroup r.flags true, rest)
      else .error ⟨.badName, upTo start rest⟩
  | none =>
    match readFlags r.flags true false body with
    | (some (flags, true), rest) => .ok (r.openGroup flags false, rest)
    | (some (flags, false), rest) => .ok ({ r with flags, loop := none }, rest)
    | (none, rest) => .error ⟨.badFlags, upTo start rest⟩

/-- Adds characters that stand for themselves. -/
def addAll (r : Reading) (cs : List Char) : Reading :=
  cs.foldl (fun r c => r.addCode c.toNat) { r with loop := none }

/-- The characters before the end of a quotation, and what follows it. -/
def quotation : List Char → List Char × List Char
  | [] => ([], [])
  | '\\' :: 'E' :: rest => ([], rest)
  | c :: rest => let (cs, rest) := quotation rest; (c :: cs, rest)

/-- What a backslash at `start` begins. -/
def readEscape (r : Reading) (start : List Char) : Except Fault (Reading × List Char) := do
  match start with
  | '\\' :: 'A' :: rest => return (r.add (.edge .textStart), rest)
  | '\\' :: 'b' :: rest => return (r.add (.edge .wordEdge), rest)
  | '\\' :: 'B' :: rest => return (r.add (.edge .noWordEdge), rest)
  | '\\' :: 'z' :: rest => return (r.add (.edge .textEnd), rest)
  | '\\' :: 'Q' :: rest =>
    let (cs, rest) := quotation rest
    return (addAll r cs, rest)
  | _ =>
    if let some (span, rest) ← escapedSpan? start then return (r.addSpan span, rest)
    let (code, rest) ← escape start
    return (r.addCode code, rest)

/-- What the character at the start of `cs` begins. -/
def readItem (whole : List Char) (r : Reading) (cs : List Char) :
    Except Fault (Reading × List Char) := do
  match cs with
  | [] => return (r, [])
  | '(' :: '?' :: body => openSpecial r cs body
  | '(' :: rest => return (r.openGroup r.flags true, rest)
  | '|' :: rest => return (← r.branch whole, rest)
  | ')' :: rest => return (← r.closeGroup whole, rest)
  | '^' :: rest => return (r.add (.edge (if r.flags.lineByLine then .lineStart else .textStart)), rest)
  | '$' :: rest => return (r.add (.edge (if r.flags.lineByLine then .lineEnd else .textEnd)), rest)
  | '.' :: rest =>
    let breaks := if r.flags.dotBreaks then [] else [(10, 10)]
    return (r.addSpan { outside := true, group := .between breaks }, rest)
  | '[' :: _ =>
    let (set, rest) ← readSet r.flags.folded cs
    return (r.add (.one set), rest)
  | '*' :: rest => r.repeatLast whole 0 none cs rest
  | '+' :: rest => r.repeatLast whole 1 none cs rest
  | '?' :: rest => r.repeatLast whole 0 (some 1) cs rest
  | '\x7b' :: rest =>
    match bounds? rest with
    | none => return (r.addCode 0x7b, rest)
    | some (min, max, after) =>
      if boundsFit min max then r.repeatLast whole min max cs after
      else throw ⟨.badCount, upTo cs after⟩
  | '\\' :: _ => readEscape r cs
  | c :: rest => return (r.addCode c.toNat, rest)

/-- Reads what is left of a pattern. -/
def readAll (whole : List Char) : (depth : Nat) → Reading → List Char → Except Fault Regex
  | 0, r, _ => r.finish whole
  | _ + 1, r, [] => r.finish whole
  | depth + 1, r, cs => do
    let (r, rest) ← readItem whole r cs
    readAll whole depth r rest

/-- The regular expression that a pattern stands for. -/
def parse (pattern : String) : Except Fault Regex :=
  readAll pattern.toList (pattern.length + 1) {} pattern.toList

end Ceylon.Text.Pattern
