import Ceylon.Report.Palette
import Ceylon.Text.Words
import Ceylon.Text.Wrap

/-!
# Annotated source snippets

Problems are shown with the source lines they are about.  Below a line, carets mark the part that is meant:
they begin under its first character and are as wide as it is on the screen, where tabs are expanded and wide
characters count twice.
-/

namespace Ceylon.Report

/-- How serious a problem is. -/
inductive Severity where
  | error
  | warning
  | note
deriving DecidableEq, Repr, Inhabited

/-- The word for a severity. -/
def Severity.text : Severity → String
  | .error => "error"
  | .warning => "warning"
  | .note => "note"

/-- The severity that a word stands for; all other words are notes. -/
def Severity.ofString : String → Severity
  | "error" => .error
  | "warning" => .warning
  | _ => .note

/-- The color of a severity. -/
def Severity.color (s : Severity) (p : Palette) : String :=
  match s with
  | .error => p.boldRed
  | .warning => p.yellow
  | .note => p.boldCyan

/-- A part of a source line, columns counted in characters from 1.  Line 0 stands for the whole file, column 0
for the start of the line, and end column 0 for the end of the word. -/
structure Span where
  file : String
  line : Int
  col : Int
  endCol : Int := 0
  /-- What is written behind the carets. -/
  label : String := ""
deriving DecidableEq, Repr, Inhabited

/-- A problem with the places it is about. -/
structure Problem where
  severity : Severity
  message : String
  spans : List Span
  notes : List String
  /-- The check that found the problem, if it has a name. -/
  code : String
deriving DecidableEq, Repr, Inhabited

/-! ## Marking a part of a line -/

/-- The last column of the word that starts at a column; a single column if no word starts there. -/
def wordEnd (line : List Char) (col : Nat) : Nat :=
  let word := (line.drop (col - 1)).takeWhile Text.isWordChar
  if word.isEmpty then col else col - 1 + word.length

/-- The first and the last column of a span on its line. -/
def columns (line : List Char) (s : Span) : Nat × Nat :=
  let col := if s.col ≤ 0 then 1 else s.col.toNat
  let endCol := if s.endCol ≤ 0 then wordEnd line col else s.endCol.toNat
  (col, max col endCol)

/-- A row of carets: the blanks before it and its length, in columns of the screen. -/
structure Underline where
  margin : Nat
  length : Nat
deriving DecidableEq, Repr

/-- The carets under a span, where `width` gives the columns of a character.  There is always at least one. -/
def underline (width : Char → Nat) (line : List Char) (s : Span) : Underline :=
  let (col, endCol) := columns line s
  let marked := (line.drop (col - 1)).take (endCol - col + 1)
  { margin := Text.displayWidth width (line.take (col - 1))
    length := max 1 (Text.displayWidth width marked) }

/-- The carets as text, behind the blanks before them. -/
def Underline.text (u : Underline) (p : Palette) : String :=
  String.ofList (List.replicate u.margin ' ') ++ p.boldRed
    ++ String.ofList (List.replicate u.length '^') ++ p.reset

/-- A source line with its tabs expanded. -/
def expandTabs (line : List Char) : List Char :=
  line.flatMap fun c => if c = '\t' then List.replicate Text.tabWidth ' ' else [c]

/-! ## Rendering -/

/-- How reports are laid out. -/
structure Layout where
  palette : Palette := {}
  /-- The column at which notes are wrapped; 0 for the usual one. -/
  width : Int := 0
  /-- The columns that a character takes on the screen. -/
  charWidth : Char → Nat := Text.charWidth
  /-- The text of a source file; none if it cannot be read. -/
  source : String → Option String

/-- The column at which notes are wrapped unless another one is set. -/
def defaultWidth : Nat :=
  100

/-- The width of what stands before a note. -/
def noteMargin : Nat :=
  11

namespace Layout

/-- The line of a source file that a span is on; empty if it cannot be shown. -/
def sourceLine (l : Layout) (s : Span) : String :=
  if s.line ≤ 0 || s.file.isEmpty then ""
  else match l.source s.file with
    | none => ""
    | some text => (Text.lines (text.replace "\r\n" "\n")).getD (s.line.toNat - 1) ""

/-- The place of a span, as exact as it is. -/
def place (s : Span) : String :=
  if s.line ≤ 0 then s.file
  else if s.col ≤ 0 then s.file ++ ":" ++ toString s.line
  else s.file ++ ":" ++ toString s.line ++ ":" ++ toString s.col

/-- A note wrapped at the width of the report; a very narrow one does not wrap. -/
def wrapNote (l : Layout) (note : String) : String :=
  let width := if l.width ≤ 0 then defaultWidth else l.width.toNat
  if width ≤ noteMargin + 10 then note
  else match Text.lines (Text.wrap (width - noteMargin) note) with
    | [] => ""
    | [line] => line
    | first :: rest => first ++ "\n" ++ Text.indent noteMargin ("\n".intercalate rest)

/-- The first line of a report. -/
def header (l : Layout) (d : Problem) : String :=
  let p := l.palette
  let code := if d.code.isEmpty then "" else "[" ++ d.code ++ "]"
  d.severity.color p ++ p.bold ++ d.severity.text ++ code ++ p.reset ++ ":" ++ p.reset ++ " "
    ++ p.bold ++ d.message ++ p.reset ++ "\n"

/-- A gutter line: what stands in the gutter, then what stands beside it. -/
def gutter (l : Layout) (mark beside : String) : String :=
  " " ++ l.palette.boldBlue ++ mark ++ " |" ++ l.palette.reset ++ beside ++ "\n"

/-- The place of a span and its source line with the carets below. -/
def span (l : Layout) (s : Span) : String :=
  let p := l.palette
  let head := "  " ++ p.boldBlue ++ "-->" ++ p.reset ++ " " ++ place s ++ "\n"
  let line := l.sourceLine s
  if line.isEmpty then head ++ "   " ++ p.boldBlue ++ "|" ++ p.reset ++ "\n"
  else
    let number := toString s.line
    let blank := String.ofList (List.replicate number.length ' ')
    let label := if s.label.isEmpty then "" else " " ++ p.boldRed ++ s.label ++ p.reset
    head ++ l.gutter blank ""
      ++ l.gutter number ("  " ++ String.ofList (expandTabs line.toList))
      ++ l.gutter blank ("  " ++ (underline l.charWidth line.toList s).text p ++ label)
      ++ l.gutter blank ""

/-- A note of a report. -/
def note (l : Layout) (text : String) : String :=
  "   " ++ l.palette.boldCyan ++ "=" ++ l.palette.reset ++ " note: " ++ l.wrapNote text ++ "\n"

/-- The report of one problem. -/
def render (l : Layout) (d : Problem) : String :=
  l.header d ++ String.join (d.spans.map l.span) ++ String.join (d.notes.map l.note)

/-- The reports of several problems with empty lines between them. -/
def renderAll (l : Layout) (ds : List Problem) : String :=
  "\n".intercalate (ds.map l.render)

end Layout

/-- The source files that are needed to show problems, each once. -/
def filesShown (ds : List Problem) : List String :=
  ((ds.flatMap (·.spans)).filterMap fun s =>
    if s.line ≤ 0 || s.file.isEmpty then none else some s.file).eraseDups

end Ceylon.Report
