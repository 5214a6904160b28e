import Ceylon.Text.CaseFold
import Ceylon.Text.Category

/-!
# Regular expressions

A regular expression is matched by following all its ways through a text at once: from a set of places in
the text it leads to the places where a match that begins at one of them may end.
-/

namespace Ceylon.Text

/-- The characters that a part of a set is about. -/
inductive CharGroup where
  /-- Characters by ranges of code points. -/
  | between (ranges : List (Nat × Nat))
  /-- Characters by general category. -/
  | ofCategory (categories : List Category)
deriving DecidableEq, Repr, Inhabited

/-- Whether a character belongs to the group. -/
def CharGroup.has : CharGroup → Char → Bool
  | .between ranges, c => ranges.any fun (lo, hi) => lo ≤ c.toNat && c.toNat ≤ hi
  | .ofCategory categories, c => categories.contains (Category.of c)

/-- A part of a set of characters: those of a group, or all others. -/
structure CharSpan where
  outside : Bool := false
  group : CharGroup
deriving DecidableEq, Repr, Inhabited

/-- Whether the character belongs to the part.  If case is ignored, a group holds all the characters that
fold as one of its own. -/
def CharSpan.has (s : CharSpan) (folded : Bool) (c : Char) : Bool :=
  (s.group.has c || folded && (sameFold c.toNat).any fun n => s.group.has (Char.ofNat n)) != s.outside

/-- A set of characters. -/
structure CharSet where
  negated : Bool := false
  /-- Whether case is ignored. -/
  folded : Bool := false
  spans : List CharSpan
deriving DecidableEq, Repr, Inhabited

/-- Whether the character belongs to the set. -/
def CharSet.has (s : CharSet) (c : Char) : Bool :=
  s.spans.any (·.has s.folded c) != s.negated

/-- Whether the set is written as a single character. -/
def CharSet.isChar (s : CharSet) : Bool :=
  match s.spans with
  | [⟨false, .between [(lo, hi)]⟩] => !s.negated && lo == hi
  | _ => false

/-- A condition on a place in a text. -/
inductive Edge where
  | textStart
  | textEnd
  | lineStart
  | lineEnd
  | wordEdge
  | noWordEdge
deriving DecidableEq, Repr, Inhabited

/-- Whether a character is part of a word. -/
def inWord (c : Char) : Bool :=
  c.isAlphanum || c == '_'

/-- Whether the place between two characters, either of which may be missing, meets the condition. -/
def Edge.holds (before after : Option Char) : Edge → Bool
  | .textStart => before.isNone
  | .textEnd => after.isNone
  | .lineStart => before.all (· == '\n')
  | .lineEnd => after.all (· == '\n')
  | .wordEdge => before.any inWord != after.any inWord
  | .noWordEdge => before.any inWord == after.any inWord

/-- A regular expression. -/
inductive Regex where
  /-- The empty text. -/
  | empty
  /-- One character of a set. -/
  | one (s : CharSet)
  /-- The empty text at certain places. -/
  | edge (e : Edge)
  /-- A group between parentheses. -/
  | group (r : Regex)
  | seq (a b : Regex)
  | alt (a b : Regex)
  /-- Repetitions, with or without an upper bound on their number. -/
  | times (min : Nat) (max : Option Nat) (r : Regex)
deriving DecidableEq, Repr, Inhabited

namespace Regex

/-- The characters of a text around a place. -/
def around (text : Array Char) (place : Nat) : Option Char × Option Char :=
  (if place = 0 then none else text[place - 1]?, text[place]?)

/-- The places of either list. -/
def merge (ps qs : List Nat) : List Nat :=
  ps ++ qs.filter fun q => !ps.contains q

/-- The places after exactly `n` steps. -/
def after (step : List Nat → List Nat) : Nat → List Nat → List Nat
  | 0, ps => ps
  | n + 1, ps => after step n (step ps)

/-- The places after at most `n` steps. -/
def within (step : List Nat → List Nat) : Nat → List Nat → List Nat
  | 0, ps => ps
  | n + 1, ps => merge ps (within step n (step ps))

/-- The places where a match that begins at one of the given places may end.  A loop without an upper bound
leads nowhere new after as many steps as the text has characters. -/
def ends (text : Array Char) : Regex → List Nat → List Nat
  | .empty, ps => ps
  | .one s, ps => (ps.filter fun p => text[p]?.any s.has).map (· + 1)
  | .edge e, ps => ps.filter fun p => e.holds (around text p).1 (around text p).2
  | .group r, ps => r.ends text ps
  | .seq a b, ps => b.ends text (a.ends text ps)
  | .alt a b, ps => merge (a.ends text ps) (b.ends text ps)
  | .times min max r, ps =>
    let more := match max with
      | some m => m - min
      | none => text.size
    within (r.ends text) more (after (r.ends text) min ps)

/-- Whether a part of the text matches. -/
def occursIn (r : Regex) (text : String) : Bool :=
  let cs := text.toList.toArray
  !(r.ends cs (List.range (cs.size + 1))).isEmpty

/-- Whether no loop within loops is run more than `n` times in all. -/
def loopsWithin : Nat → Regex → Bool
  | n, .group r => r.loopsWithin n
  | n, .seq a b => a.loopsWithin n && b.loopsWithin n
  | n, .alt a b => a.loopsWithin n && b.loopsWithin n
  | n, .times min max r =>
    let most := max.getD min
    if max = some 0 then true
    else if most > n then false
    else r.loopsWithin (if most > 0 then n / most else n)
  | _, _ => true

/-- How deeply an expression is nested, by where it stands. -/
structure Nesting where
  /-- Whether it is a text that stands for itself. -/
  isText : Bool := false
  /-- Whether it is a set of characters. -/
  isSet : Bool := false
  /-- The depth of its items, if it is a part of a sequence. -/
  asItem : Nat
  /-- The depth of its branches, if it is a part of a choice. -/
  asBranch : Nat
  /-- The depth of the whole. -/
  height : Nat
deriving DecidableEq, Repr, Inhabited

/-- The nesting of an expression that is neither a sequence nor a choice. -/
def Nesting.whole (height : Nat) : Nesting :=
  { asItem := height, asBranch := height, height }

/-- How deeply an expression is nested.  A sequence counts once however many items it has, and so does a
choice; characters in sequence are one text, and a choice between characters is a set. -/
def nesting : Regex → Nesting
  | .empty => .whole 1
  | .edge _ => .whole 1
  | .one s => { isText := s.isChar, isSet := true, asItem := 1, asBranch := 1, height := 1 }
  | .group r => .whole (r.nesting.height + 1)
  | .times _ _ r => .whole (r.nesting.height + 1)
  | .seq a b =>
    let (m, n) := (a.nesting, b.nesting)
    let items := max m.asItem n.asItem
    if m.isText && n.isText then { isText := true, asItem := 1, asBranch := 1, height := 1 }
    else { asItem := items, asBranch := items + 1, height := items + 1 }
  | .alt a b =>
    let (m, n) := (a.nesting, b.nesting)
    let branches := max m.asBranch n.asBranch
    if m.isSet && n.isSet then { isSet := true, asItem := 1, asBranch := 1, height := 1 }
    else { asItem := branches + 1, asBranch := branches, height := branches + 1 }

/-- The most steps that are counted. -/
def mostSteps : Nat :=
  0x333333

/-- The number of steps that an expression takes with all its repetitions written out. -/
def size : Regex → Nat
  | .group r => r.size + 2
  | .seq a b => a.size + b.size
  | .alt a b => a.size + b.size + 1
  | .times 0 none r => r.size + 2
  | .times min none r => min * r.size + 1
  | .times min (some most) r => max 1 (most * r.size + (most - min))
  | _ => 1

/-- The number of parts of an expression as it is written, where a text is one part. -/
def parts : Regex → Nat
  | .group r => r.parts + 1
  | .seq a b => if a.nesting.isText && b.nesting.isText then 1 else a.parts + b.parts
  | .alt a b => a.parts + b.parts
  | .times _ _ r => r.parts + 1
  | _ => 1

/-- The product of the repetitions in an expression, up to a limit. -/
def repetitions : Regex → Nat
  | .group r => r.repetitions
  | .seq a b => min mostSteps (a.repetitions * b.repetitions)
  | .alt a b => min mostSteps (a.repetitions * b.repetitions)
  | .times least most r => min mostSteps (max 1 (most.getD least) * r.repetitions)
  | _ => 1

/-- Whether an expression is small enough to be run.  The steps of one with few parts and repetitions are not
counted. -/
def isSmall (r : Regex) : Bool :=
  r.size ≤ mostSteps || r.parts < mostSteps / r.repetitions

end Regex

end Ceylon.Text
