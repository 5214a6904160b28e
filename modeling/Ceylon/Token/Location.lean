/-!
# Places in source text

A `Pos` is a place inside one source text, with its byte offset, line and column.  A `Location` adds
the name of the text and is what messages print; it may also be partial: a negative offset stands for
the text as a whole, line 0 for an untracked line and column 0 for an untracked column.
-/

namespace Ceylon

/-- A place in a source text: the byte offset from 0, line and column from 1, columns counted in
characters. -/
structure Pos where
  offset : Nat
  line : Nat
  col : Nat
deriving DecidableEq, Repr, Inhabited

namespace Pos

/-- The start of a text. -/
def start : Pos :=
  ⟨0, 1, 1⟩

/-- The place after character `c` standing at `p`. -/
def after (p : Pos) (c : Char) : Pos :=
  if c = '\n' then ⟨p.offset + c.utf8Size, p.line + 1, 1⟩
  else ⟨p.offset + c.utf8Size, p.line, p.col + 1⟩

/-- Line and column, as `line:col`. -/
def text (p : Pos) : String :=
  toString p.line ++ ":" ++ toString p.col

end Pos

/-- The name of a source text, and the path it was read from when that differs. -/
structure Source where
  name : String
  path : String := ""
deriving DecidableEq, Repr, Inhabited

/-- A place in a named source text, as messages show it. -/
structure Location where
  file : String
  path : String := ""
  pos : Int := 0
  line : Int := 0
  col : Int := 0
deriving DecidableEq, Repr, Inhabited

namespace Location

/-- The place `p` in the source text `s`. -/
def ofPos (s : Source) (p : Pos) : Location :=
  ⟨s.name, s.path, p.offset, p.line, p.col⟩

/-- The printed form, as exact as the location is. -/
def text (l : Location) : String :=
  if l.pos < 0 then l.file
  else if l.line = 0 then l.file ++ "[" ++ toString l.pos ++ "]"
  else if l.col = 0 then l.file ++ ":" ++ toString l.line
  else l.file ++ ":" ++ toString l.line ++ ":" ++ toString l.col

/-- Whether `a` stands before `b` in the same text. -/
def before (a b : Location) : Bool :=
  if a.line ≠ b.line then a.line < b.line else a.col < b.col

/-- The printed form of a location that may be missing. -/
def textOf : Option Location → String
  | none => "<unknown>"
  | some l => l.text

end Location

/-- An error with the place it was found at. -/
structure LocatedError where
  message : String
  location : Option Location
deriving DecidableEq, Repr, Inhabited

/-- The printed form: place, then message. -/
def LocatedError.text (e : LocatedError) : String :=
  Location.textOf e.location ++ ": " ++ e.message

end Ceylon
