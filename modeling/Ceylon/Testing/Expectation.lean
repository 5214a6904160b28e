import Ceylon.Analysis.Load
import Ceylon.Text.Words

/-!
# Expected diagnostics

A source line may say in a comment which problem it expects: `// error: message` or `// warning: message`.
A program meets its expectations if they can be paired with its diagnostics, each on the expected line with
the expected severity and with a message that contains the expected text, so that nothing is left over on
either side.
-/

namespace Ceylon.Testing

open Analysis (Diagnostic Severity)

/-- A diagnostic that a source line expects. -/
structure Expectation where
  file : String
  line : Nat
  severity : Severity
  message : String
deriving DecidableEq, Repr, Inhabited

/-- The printed form of an expectation. -/
def Expectation.text (e : Expectation) : String :=
  e.file ++ ":" ++ toString e.line ++ ": " ++ e.severity.text ++ ": " ++ e.message

/-! ## Reading expectations -/

/-- The blanks that may stand around the parts of an expectation. -/
def isBlank (c : Char) : Bool :=
  c = ' ' || c = '\t' || c = '\n' || c = '\r' || c = '\x0c'

/-- Characters without the blanks around them. -/
def trimBlanks (cs : List Char) : List Char :=
  ((cs.dropWhile isBlank).reverse.dropWhile isBlank).reverse

/-- The expectation that a line has from its first character on. -/
def expectedHere? (line : List Char) : Option (Severity × String) := do
  let rest ← Text.after? ['/', '/'] line
  let word := rest.dropWhile isBlank
  match Text.after? "error:".toList word, Text.after? "warning:".toList word with
  | some message, _ => return (.error, String.ofList (trimBlanks message))
  | none, some message => return (.warning, String.ofList (trimBlanks message))
  | none, none => none

/-- The first expectation of a line. -/
def expected? : List Char → Option (Severity × String)
  | [] => none
  | c :: cs => expectedHere? (c :: cs) <|> expected? cs

/-- The number of bytes at which a line is too long to be read. -/
def lineLimit : Nat :=
  64 * 1024

/-- The lines of a text that are read: a line break ends a line, with the carriage return before it, and a
line that is too long ends the reading. -/
def readLines (src : String) : List String :=
  let lines := Text.lines src
  let lines := if lines.getLast? = some "" then lines.dropLast else lines
  (lines.takeWhile fun l => l.utf8ByteSize < lineLimit).map (Text.beforeEnd "\r")

/-- The expectations of a source file. -/
def expectations (file src : String) : List Expectation :=
  (readLines src).zipIdx.filterMap fun (line, i) =>
    (expected? line.toList).map fun (severity, message) => ⟨file, i + 1, severity, message⟩

/-! ## Meeting expectations -/

/-- Whether a diagnostic is one that was expected. -/
def Expectation.isMetBy (e : Expectation) (d : Diagnostic) : Bool :=
  match d.location with
  | none => false
  | some l =>
    d.severity == e.severity && l.file == e.file && l.line == e.line &&
      Text.occursIn e.message.toList d.message.toList

/-- Pairs each expectation with the first diagnostic left that meets it.  The answer is the expectations
without a partner and the diagnostics without one. -/
def unpaired : List Expectation → List Diagnostic → List Expectation × List Diagnostic
  | [], ds => ([], ds)
  | e :: es, ds =>
    if ds.any e.isMetBy then unpaired es (ds.eraseP e.isMetBy)
    else
      let (missing, surplus) := unpaired es ds
      (e :: missing, surplus)

/-- The expectations of all files, by file and line. -/
def allExpectations (files : List (String × String)) : List Expectation :=
  (files.flatMap fun (file, src) => expectations file src).mergeSort fun a b =>
    if a.file = b.file then decide (a.line ≤ b.line) else decide (a.file ≤ b.file)

/-- The number of expectations that are not met and of diagnostics that were not expected. -/
def failures (files : List (String × String)) (ds : List Diagnostic) : Nat :=
  let (missing, surplus) := unpaired (allExpectations files) ds
  missing.length + surplus.length

end Ceylon.Testing
