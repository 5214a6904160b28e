import Ceylon.Text.CharClass

/-!
# Trimming and splitting

Small operations on text that are used when short directives and options are read.  Blanks are those of
`isSpace`, which includes the ones beyond ASCII.
-/

namespace Ceylon.Text

/-- A list of characters without the blanks at its start. -/
def trimLeft (cs : List Char) : List Char :=
  cs.dropWhile isSpace

/-- A list of characters without the blanks at its end. -/
def trimRight (cs : List Char) : List Char :=
  (trimLeft cs.reverse).reverse

/-- A text without the blanks around it. -/
def trim (s : String) : String :=
  String.ofList (trimRight (trimLeft s.toList))

/-- What follows the given start of a list, if the list begins with it. -/
def after? (start : List Char) (cs : List Char) : Option (List Char) :=
  match start, cs with
  | [], cs => some cs
  | _ :: _, [] => none
  | a :: start, c :: cs => if a = c then after? start cs else none

/-- What follows the given start of a text, if the text begins with it. -/
def afterStart? (start s : String) : Option String :=
  (after? start.toList s.toList).map String.ofList

/-- What stands before the given end of a text; all of it if the text does not end so. -/
def beforeEnd (ending s : String) : String :=
  match after? ending.toList.reverse s.toList.reverse with
  | some rest => String.ofList rest.reverse
  | none => s

/-- Whether a list begins with the given one at some place. -/
def occursIn (part : List Char) : List Char → Bool
  | [] => part.isEmpty
  | c :: cs => (after? part (c :: cs)).isSome || occursIn part cs

/-- The lines of a text: the parts between its line breaks. -/
def lines (s : String) : List String :=
  (s.toList.splitOn '\n').map String.ofList

/-- The words of a text: the parts between its blanks. -/
def words (s : String) : List String :=
  ((s.toList.splitBy fun a b => isSpace a == isSpace b).filter fun w => !w.any isSpace).map
    String.ofList

/-- The word that ends at a cursor. -/
def wordBefore (line : List Char) (cursor : Nat) : List Char :=
  ((line.take cursor).reverse.takeWhile isWordChar).reverse

/-- The word that begins at a place. -/
def wordFrom (line : List Char) (place : Nat) : List Char :=
  (line.drop place).takeWhile isWordChar

end Ceylon.Text
