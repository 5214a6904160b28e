import Ceylon.Command.Basic
import Ceylon.Lint.Check
import Ceylon.Report.Snippet

/-!
# The check command

Analyzes source trees, each on its own, and reports all problems: those of the analysis and those that the
checks find.
-/

namespace Ceylon.Command

open Lint (Check Finding)

/-- The options of the command. -/
def checkOptions : List OptionSpec :=
  [{ name := "json", kind := .switch }, { name := "checks", kind := .words },
    { name := "list", kind := .switch }, { name := "no-lint", kind := .switch }]

/-- A finding with its place given from the working directory rather than from the source root. -/
def rooted (root : String) (f : Finding) : Finding :=
  if f.place.file.isEmpty then f
  else { f with place := { f.place with file := Files.Path.join [root, f.place.file] } }

/-- The severity with which a finding is shown. -/
def shownSeverity : Option Analysis.Severity → Report.Severity
  | some .error => .error
  | some .warning => .warning
  | _ => .note

/-- A finding as a problem to be shown. -/
def shownFinding (f : Finding) : Report.Problem where
  severity := shownSeverity f.severity
  message := f.message
  notes := f.notes
  code := if f.check = Lint.typecheck then "" else f.check
  spans :=
    if f.place.line > 0 then [{ file := f.place.file, line := f.place.line, col := f.place.col }]
    else []

/-- The findings of a source tree, or why there are none. -/
def findings (checks : List Check) (root : String) (a : Analyzed) :
    Except String (List Finding) :=
  match a.error with
  | some (.scan e) => .error e.message
  | _ =>
    let own := a.state.diagnostics.map Finding.ofDiagnostic
    .ok (Finding.sort ((own ++ Lint.lint checks a.state).map (rooted root)))

/-- Checks source trees one after the other, up to the first that cannot be read.  The log goes along. -/
def checkRoots (files : Files.Tree) (settings : Settings) (checks : List Check) :
    List String → (log : String) → Except Outcome (List Finding × String)
  | [], log => .ok ([], log)
  | root :: roots, log =>
    match analyze files settings root with
    | .error message => .error (refused "check" log message)
    | .ok a =>
      match findings checks root a with
      | .error message => .error (refused "check" (log ++ a.log) message)
      | .ok found =>
        let line := Analysis.logLine "debug" "Checked source tree"
          [("diagnostics", toString found.length), ("root", root)]
        let log := log ++ a.log ++ if settings.verbose then line ++ "\n" else ""
        match checkRoots files settings checks roots log with
        | .error o => .error o
        | .ok (more, log) => .ok (found ++ more, log)

/-- How findings are shown. -/
def layout (files : Files.Tree) (settings : Settings) : Report.Layout where
  palette := settings.colorMode.palette false
  source := fun path => (files.read path).toOption

/-- Runs the check command. -/
def check (files : Files.Tree) (settings : Settings) (arguments : List String) :
    Except UsageError Outcome := do
  let a ← readArguments checkOptions arguments
  if a.switch "list" then return { stdout := joinLines Check.names }
  let named := a.words "checks"
  match Check.select (if named.isEmpty then settings.checks else named) with
  | .error name => return refused "check" "" (Check.unknown name)
  | .ok checks =>
    let checks := if a.switch "no-lint" then [] else checks
    let roots := if a.operands.isEmpty then ["."] else a.operands
    match checkRoots files settings checks roots "" with
    | .error outcome => return outcome
    | .ok ([], log) => return { stderr := log }
    | .ok (found, log) =>
      if a.switch "json" then
        return { stdout := (Finding.reportJson found).pretty, stderr := log, code := 1 }
      else
        let report := (layout files settings).renderAll (found.map shownFinding)
        return { stderr := log ++ report, code := 1 }

end Ceylon.Command
