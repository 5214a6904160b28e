import Ceylon.Text.Category

/-!
# Character classes

The classes of characters that the language and its messages depend on: letters and upper-case letters decide
what a word is and whether it names a type, decimal digits may continue a word, white space separates tokens,
and the printable characters are those a quoted message keeps as they are.  ASCII is decided by comparison,
everything above it by general category.
-/

namespace Ceylon.Text

/-- Unicode letters. -/
def isLetter (c : Char) : Bool :=
  if c.toNat < 0x80 then c.isAlpha else Category.letters.contains (Category.of c)

/-- Unicode upper-case letters; title-case letters are not among them. -/
def isUpper (c : Char) : Bool :=
  if c.toNat < 0x80 then c.isUpper else Category.of c == .lu

/-- Unicode decimal digits. -/
def isDecimal (c : Char) : Bool :=
  if c.toNat < 0x80 then c.isDigit else Category.of c == .nd

/-- The ASCII digits, the only ones a numeric literal is made of. -/
def isDigit (c : Char) : Bool :=
  '0' ≤ c && c ≤ '9'

/-- The characters with the Unicode property White_Space. -/
def isSpace (c : Char) : Bool :=
  let n := c.toNat
  (0x09 ≤ n && n ≤ 0x0d) || n == 0x20 || n == 0x85 || n == 0xa0 || n == 0x1680 ||
    (0x2000 ≤ n && n ≤ 0x200a) || n == 0x2028 || n == 0x2029 || n == 0x202f || n == 0x205f ||
    n == 0x3000

/-- The categories of characters that leave a mark on paper. -/
def graphicCategories : List Category :=
  Category.letters ++ Category.marks ++ Category.numbers ++ Category.punctuation ++ Category.symbols

/-- Characters a quoted message shows as they are: the graphic ones, with the ASCII space as the
only blank. -/
def isPrintable (c : Char) : Bool :=
  if c.toNat < 0x80 then 0x20 ≤ c.toNat && c.toNat < 0x7f
  else graphicCategories.contains (Category.of c)

/-- Letters and the low line start a word. -/
def isWordStart (c : Char) : Bool :=
  c == '_' || isLetter c

/-- Words go on with letters, low lines and decimal digits of any script. -/
def isWordChar (c : Char) : Bool :=
  isWordStart c || isDecimal c

end Ceylon.Text
