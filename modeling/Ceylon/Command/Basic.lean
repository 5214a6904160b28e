import Ceylon.Analysis.Load
import Ceylon.Analysis.Log
import Ceylon.Command.Options
import Ceylon.Report.Palette
import Ceylon.Trace.Recording

/-!
# Commands

A command reads a file tree and answers with what it prints and with its exit status.
-/

namespace Ceylon.Command

open Analysis (LoadError SourceTree State)

/-- Settings that hold for all commands. -/
structure Settings where
  /-- When colors are used; a word that names no mode leaves the choice to the terminal. -/
  color : String := ""
  /-- Whether the steps of the analysis are logged. -/
  verbose : Bool := false
  /-- What traces are recorded as. -/
  trace : String := ""
  /-- Patterns of source paths to leave out. -/
  exclude : List String := []
  /-- The checks to run when a command names none. -/
  checks : List String := []
deriving DecidableEq, Repr, Inhabited

/-- The color mode of the settings. -/
def Settings.colorMode (s : Settings) : Report.ColorMode :=
  (Report.ColorMode.ofString? s.color).getD .auto

/-- What a command prints, and its exit status. -/
structure Outcome where
  stdout : String := ""
  stderr : String := ""
  code : Nat := 0
deriving DecidableEq, Repr, Inhabited

/-- The name of the program in its messages. -/
def programName : String :=
  "ceylon-spec"

/-- The exit status of a command that cannot do its work. -/
def badInvocation : Nat :=
  2

/-- The outcome of a command that cannot do its work. -/
def refused (command log message : String) : Outcome :=
  { stderr := log ++ programName ++ " " ++ command ++ ": " ++ message ++ "\n"
    code := badInvocation }

/-- Lines of text, each with a line break. -/
def joinLines (lines : List String) : String :=
  String.join (lines.map (· ++ "\n"))

/-- An analysis with its log, as far as it is shown. -/
structure Analyzed where
  state : State
  error : Option LoadError
  log : String

/-- Analyzes a source tree.  Only a kind of trace that is unknown keeps it from starting. -/
def analyze (files : Files.Tree) (settings : Settings) (root : String) : Except String Analyzed :=
  match Trace.Kind.ofString? settings.trace with
  | none => .error (Trace.Kind.unknown settings.trace)
  | some _ =>
    let (error, state) := (SourceTree.mk files root).analyze settings.exclude
    let log := if settings.verbose then joinLines (state.log.toList.map (·.text)) else ""
    .ok { state, error, log }

end Ceylon.Command
