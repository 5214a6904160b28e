import Ceylon.Text.Category.Letter
import Ceylon.Text.Category.Mark
import Ceylon.Text.Category.Symbol

/-!
# General categories

Every code point has one of thirty general categories.  The tables hold the code points of each category but
the last; a code point that stands in none of them has no character.
-/

namespace Ceylon.Text

/-- The general categories. -/
inductive Category where
  /-- Upper-case letters. -/
  | lu
  /-- Lower-case letters. -/
  | ll
  /-- Title-case letters. -/
  | lt
  /-- Modifier letters. -/
  | lm
  /-- Letters without case. -/
  | lo
  /-- Marks that take no room of their own. -/
  | mn
  /-- Marks that take room of their own. -/
  | mc
  /-- Marks that enclose. -/
  | me
  /-- Decimal digits. -/
  | nd
  /-- Letters that stand for numbers. -/
  | nl
  /-- Other numbers. -/
  | no
  /-- Connecting punctuation. -/
  | pc
  /-- Dashes. -/
  | pd
  /-- Opening punctuation. -/
  | ps
  /-- Closing punctuation. -/
  | pe
  /-- Initial quotation marks. -/
  | pi
  /-- Final quotation marks. -/
  | pf
  /-- Other punctuation. -/
  | po
  /-- Mathematical symbols. -/
  | sm
  /-- Currency symbols. -/
  | sc
  /-- Modifier symbols. -/
  | sk
  /-- Other symbols. -/
  | so
  /-- Spaces. -/
  | zs
  /-- The line separator. -/
  | zl
  /-- The paragraph separator. -/
  | zp
  /-- Control characters. -/
  | cc
  /-- Formatting characters. -/
  | cf
  /-- Surrogates. -/
  | cs
  /-- Characters for private use. -/
  | co
  /-- Code points without a character. -/
  | cn
deriving DecidableEq, Repr, Inhabited

namespace Category

/-- The code points of a category. -/
def runs : Category → Array CodeRun
  | .lu => luRuns
  | .ll => llRuns
  | .lt => ltRuns
  | .lm => lmRuns
  | .lo => loRuns
  | .mn => mnRuns
  | .mc => mcRuns
  | .me => meRuns
  | .nd => ndRuns
  | .nl => nlRuns
  | .no => noRuns
  | .pc => pcRuns
  | .pd => pdRuns
  | .ps => psRuns
  | .pe => peRuns
  | .pi => piRuns
  | .pf => pfRuns
  | .po => poRuns
  | .sm => smRuns
  | .sc => scRuns
  | .sk => skRuns
  | .so => soRuns
  | .zs => zsRuns
  | .zl => zlRuns
  | .zp => zpRuns
  | .cc => ccRuns
  | .cf => cfRuns
  | .cs => #[⟨0xd800, 0xdfff, 1⟩]
  | .co => coRuns
  | .cn => #[]

/-- The categories of letters. -/
def letters : List Category :=
  [.lu, .ll, .lt, .lm, .lo]

/-- The categories of letters with case. -/
def casedLetters : List Category :=
  [.lu, .ll, .lt]

/-- The categories of combining marks. -/
def marks : List Category :=
  [.mn, .mc, .me]

/-- The categories of numbers. -/
def numbers : List Category :=
  [.nd, .nl, .no]

/-- The categories of punctuation. -/
def punctuation : List Category :=
  [.pc, .pd, .ps, .pe, .pi, .pf, .po]

/-- The categories of symbols. -/
def symbols : List Category :=
  [.sm, .sc, .sk, .so]

/-- The categories of separators. -/
def separators : List Category :=
  [.zs, .zl, .zp]

/-- The other categories. -/
def others : List Category :=
  [.cc, .cf, .cs, .co, .cn]

/-- All categories. -/
def all : List Category :=
  letters ++ marks ++ numbers ++ punctuation ++ symbols ++ separators ++ others

/-- The general category of a character. -/
def of (c : Char) : Category :=
  (all.find? fun k => inRuns k.runs c.toNat).getD .cn

end Category

end Ceylon.Text
