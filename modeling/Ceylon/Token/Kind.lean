/-!
# Kinds of tokens

The kinds a token can have, each with the text that names it in messages: reserved words and
punctuation are named by their own spelling, the other kinds by a word.  `all` lists the kinds in
their numbering, in which the reserved words stand between two markers.
-/

namespace Ceylon.Token

/-- The kind of a token. -/
inductive Kind where
  | invalid | error | eof | comment | lowerName | upperName | natural | float | string
  | character | quoted | keywordsBegin | kwImport | kwModule | kwClass | kwInterface | kwExtends
  | kwSatisfies | kwVoid | kwValue | kwFunction | kwAssign | kwReturn | kwIf | kwElse | kwWhile
  | kwFor | kwFail | kwBreak | kwContinue | kwIn | kwOut | kwIs | kwExists | kwNonempty | kwThis
  | kwOuter | kwSuper | keywordsEnd | parenL | parenR | braceL | braceR | bracketL | bracketR
  | comma | semicolon | specify | compute | ellipsis | member | safeMember | spread | safeIndex
  | question | default | range | entry | plus | minus | times | divide | remainder | power
  | increment | decrement | not | and | or | intersect | union | xor | complement | format
  | equal | notEqual | identical | smaller | larger | smallAs | largeAs | compare | assign
  | addAssign | subtractAssign | multiplyAssign | divideAssign | remainderAssign | andAssign
  | orAssign | intersectAssign | unionAssign | xorAssign | complementAssign
deriving DecidableEq, Repr, Inhabited

namespace Kind

/-- Every kind, in the order of their numbers. -/
def all : List Kind := [
  .invalid, .error, .eof, .comment, .lowerName, .upperName, .natural, .float, .string,
  .character, .quoted, .keywordsBegin, .kwImport, .kwModule, .kwClass, .kwInterface, .kwExtends,
  .kwSatisfies, .kwVoid, .kwValue, .kwFunction, .kwAssign, .kwReturn, .kwIf, .kwElse, .kwWhile,
  .kwFor, .kwFail, .kwBreak, .kwContinue, .kwIn, .kwOut, .kwIs, .kwExists, .kwNonempty, .kwThis,
  .kwOuter, .kwSuper, .keywordsEnd, .parenL, .parenR, .braceL, .braceR, .bracketL, .bracketR,
  .comma, .semicolon, .specify, .compute, .ellipsis, .member, .safeMember, .spread, .safeIndex,
  .question, .default, .range, .entry, .plus, .minus, .times, .divide, .remainder, .power,
  .increment, .decrement, .not, .and, .or, .intersect, .union, .xor, .complement, .format,
  .equal, .notEqual, .identical, .smaller, .larger, .smallAs, .largeAs, .compare, .assign,
  .addAssign, .subtractAssign, .multiplyAssign, .divideAssign, .remainderAssign, .andAssign,
  .orAssign, .intersectAssign, .unionAssign, .xorAssign, .complementAssign]

/-- The text that names a kind. -/
def text : Kind → String
  | .invalid => "invalid"
  | .error => "error"
  | .eof => "EOF"
  | .comment => "comment"
  | .lowerName => "identifier"
  | .upperName => "type-identifier"
  | .natural => "integer"
  | .float => "float"
  | .string => "string"
  | .character => "character"
  | .quoted => "quoted"
  | .keywordsBegin => "<keywords>"
  | .kwImport => "import"
  | .kwModule => "module"
  | .kwClass => "class"
  | .kwInterface => "interface"
  | .kwExtends => "extends"
  | .kwSatisfies => "satisfies"
  | .kwVoid => "void"
  | .kwValue => "value"
  | .kwFunction => "function"
  | .kwAssign => "assign"
  | .kwReturn => "return"
  | .kwIf => "if"
  | .kwElse => "else"
  | .kwWhile => "while"
  | .kwFor => "for"
  | .kwFail => "fail"
  | .kwBreak => "break"
  | .kwContinue => "continue"
  | .kwIn => "in"
  | .kwOut => "out"
  | .kwIs => "is"
  | .kwExists => "exists"
  | .kwNonempty => "nonempty"
  | .kwThis => "this"
  | .kwOuter => "outer"
  | .kwSuper => "super"
  | .keywordsEnd => "</keywords>"
  | .parenL => "("
  | .parenR => ")"
  | .braceL => "\x7b"
  | .braceR => "\x7d"
  | .bracketL => "["
  | .bracketR => "]"
  | .comma => ","
  | .semicolon => ";"
  | .specify => "="
  | .compute => "=>"
  | .ellipsis => "..."
  | .member => "."
  | .safeMember => "?."
  | .spread => "*."
  | .safeIndex => "?["
  | .question => "?"
  | .default => "?:"
  | .range => ".."
  | .entry => "->"
  | .plus => "+"
  | .minus => "-"
  | .times => "*"
  | .divide => "/"
  | .remainder => "%"
  | .power => "**"
  | .increment => "++"
  | .decrement => "--"
  | .not => "!"
  | .and => "&&"
  | .or => "||"
  | .intersect => "&"
  | .union => "|"
  | .xor => "^"
  | .complement => "~"
  | .format => "$"
  | .equal => "=="
  | .notEqual => "!="
  | .identical => "==="
  | .smaller => "<"
  | .larger => ">"
  | .smallAs => "<="
  | .largeAs => ">="
  | .compare => "<=>"
  | .assign => ":="
  | .addAssign => "+="
  | .subtractAssign => "-="
  | .multiplyAssign => "*="
  | .divideAssign => "/="
  | .remainderAssign => "%="
  | .andAssign => "&&="
  | .orAssign => "||="
  | .intersectAssign => "&="
  | .unionAssign => "|="
  | .xorAssign => "^="
  | .complementAssign => "~="

/-- The kind with the given number; numbers past the last kind are invalid. -/
def ofNumber (n : Nat) : Kind :=
  all.getD n .invalid

/-- The reserved words. -/
def keywords : List Kind := [
  .kwImport, .kwModule, .kwClass, .kwInterface, .kwExtends, .kwSatisfies, .kwVoid, .kwValue,
  .kwFunction, .kwAssign, .kwReturn, .kwIf, .kwElse, .kwWhile, .kwFor, .kwFail, .kwBreak,
  .kwContinue, .kwIn, .kwOut, .kwIs, .kwExists, .kwNonempty, .kwThis, .kwOuter, .kwSuper]

/-- Whether the kind is a reserved word. -/
def isKeyword (k : Kind) : Bool :=
  keywords.contains k

/-- The reserved word with the given spelling; `none` for an ordinary word. -/
def keyword? (word : String) : Option Kind :=
  keywords.find? fun k => k.text == word

/-- The simple assignment operator and the compound ones. -/
def assignments : List Kind := [
  .assign, .addAssign, .subtractAssign, .multiplyAssign, .divideAssign, .remainderAssign,
  .andAssign, .orAssign, .intersectAssign, .unionAssign, .xorAssign, .complementAssign]

/-- Whether the kind is an assignment operator. -/
def isAssignment (k : Kind) : Bool :=
  assignments.contains k

/-- The binary operators that assign nothing. -/
def operations : List Kind := [
  .default, .or, .and, .equal, .notEqual, .identical, .smaller, .larger, .smallAs, .largeAs,
  .compare, .kwIn, .entry, .range, .union, .xor, .complement, .intersect, .plus, .minus, .times,
  .divide, .remainder, .power]

/-- Whether the kind is a binary operator. -/
def isBinary (k : Kind) : Bool :=
  k.isAssignment || operations.contains k

/-- Operators that stand before their operand. -/
def prefixOperators : List Kind :=
  [.minus, .not, .complement, .format, .increment, .decrement]

/-- Whether the kind is an operator that stands before its operand. -/
def isUnary (k : Kind) : Bool :=
  prefixOperators.contains k

end Kind

end Ceylon.Token
