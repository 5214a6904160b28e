import Ceylon.Analysis.Diagnostic
import Ceylon.Text.Json

/-!
# Findings

What a check finds, and how lists of findings are reported.
-/

namespace Ceylon.Lint

open Analysis (Severity)
open Text (Json)

/-- A place in a source file.  Line 0 stands for the file as a whole, column 0 for the line as a whole. -/
structure Place where
  file : String := ""
  line : Int := 0
  col : Int := 0
deriving DecidableEq, Repr, Inhabited

namespace Place

/-- The place of a location; an unknown location has no file. -/
def ofLocation : Option Location → Place
  | none => {}
  | some l => ⟨l.file, l.line, l.col⟩

/-- The printed form, as exact as the place is. -/
def text (p : Place) : String :=
  if p.line = 0 then p.file
  else if p.col > 0 then p.file ++ ":" ++ toString p.line ++ ":" ++ toString p.col
  else p.file ++ ":" ++ toString p.line

/-- The place for reports; a column of 0 is left out. -/
def json (p : Place) : Json :=
  .obj ([("file", .str p.file), ("line", .num p.line)]
    ++ if p.col = 0 then [] else [("col", .num p.col)])

/-- The order of places: by file, line and column. -/
def before (a b : Place) : Bool :=
  if a.file ≠ b.file then a.file < b.file
  else if a.line ≠ b.line then a.line < b.line
  else a.col < b.col

end Place

/-- A problem that a check found. -/
structure Finding where
  place : Place
  message : String
  /-- The name of the check. -/
  check : String
  /-- How serious the problem is; reports count an unstated severity as a warning. -/
  severity : Option Severity
  notes : List String := []
deriving DecidableEq, Repr, Inhabited

namespace Finding

/-- Place, message and check, with the notes on lines of their own. -/
def text (f : Finding) : String :=
  f.place.text ++ ": " ++ f.message ++ " (" ++ f.check ++ ")"
    ++ String.join (f.notes.map ("\n  = note: " ++ ·))

/-- The finding for reports; empty notes are left out. -/
def json (f : Finding) : Json :=
  .obj ([("pos", f.place.json), ("message", .str f.message), ("analyzer", .str f.check),
      ("severity", .str (f.severity.getD .warning).text)]
    ++ if f.notes.isEmpty then [] else [("notes", .strs f.notes)])

/-- The findings in the order of their places; those at one place keep their order. -/
def sort (fs : List Finding) : List Finding :=
  fs.mergeSort fun a b => !b.place.before a.place

/-- The findings as text, one to a line. -/
def report (fs : List Finding) : String :=
  String.join (fs.map fun f => f.text ++ "\n")

/-- The findings as one JSON value; no findings at all are null. -/
def reportJson : List Finding → Json
  | [] => .null
  | fs => .arr (fs.map json)

end Finding

/-- The name under which the problems of the analysis itself are reported. -/
def typecheck : String :=
  "typecheck"

/-- A problem of the analysis as a finding. -/
def Finding.ofDiagnostic (d : Analysis.Diagnostic) : Finding :=
  ⟨.ofLocation d.location, d.message, typecheck, some d.severity, []⟩

/-- The severity that a word stands for. -/
def severity? : String → Option Severity
  | "error" => some .error
  | "warning" => some .warning
  | "info" => some .info
  | _ => none

/-- What is wrong with a word that names no severity. -/
def unknownSeverity (word : String) : String :=
  "unknown severity: " ++ Text.quote word

end Ceylon.Lint
