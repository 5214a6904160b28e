import Ceylon.Syntax.Error
import Ceylon.Syntax.Outline

/-!
# Diagnostics

Problems found in a unit.  A `Diagnostic` does not keep the analysis from going on; a `FatalError` ends
the analysis of its unit.  A diagnostic set records each problem once and shows them in the order of
their places.
-/

namespace Ceylon.Analysis

open Syntax (Node SyntaxError)

/-- How serious a problem is. -/
inductive Severity where
  | error
  | warning
  | info
deriving DecidableEq, Repr, Inhabited

/-- The word for a severity. -/
def Severity.text : Severity → String
  | .error => "error"
  | .warning => "warning"
  | .info => "info"

/-- A problem with the node it was found at; none for problems of a whole unit. -/
structure Diagnostic where
  severity : Severity
  message : String
  node : Option Node
  location : Option Location
deriving Inhabited

namespace Diagnostic

/-- Place, severity and message. -/
def text (d : Diagnostic) : String :=
  Location.textOf d.location ++ ": " ++ d.severity.text ++ ": " ++ d.message

/-- What makes two reports the same: the node and the message, or without a node the place and the
message. -/
def key (d : Diagnostic) : Option Nat × String :=
  match d.node with
  | some n => (some n.mark.id, d.message)
  | none => (none, Location.textOf d.location ++ ":" ++ d.message)

/-- Whether the place of `a` comes before that of `b`: unknown places first, then by file, line and
column. -/
def before (a b : Diagnostic) : Bool :=
  match a.location, b.location with
  | none, some _ => true
  | _, none => false
  | some a, some b =>
    if a.file ≠ b.file then a.file < b.file
    else if a.line ≠ b.line then a.line < b.line
    else a.col < b.col

/-- The diagnostics in the order of their places; those at one place keep their order. -/
def sort (ds : List Diagnostic) : List Diagnostic :=
  ds.mergeSort fun a b => !b.before a

/-- Adds a diagnostic unless it has been reported already. -/
def addTo (d : Diagnostic) (ds : Array Diagnostic) : Array Diagnostic :=
  if ds.any (·.key == d.key) then ds else ds.push d

end Diagnostic

/-- A problem that ends the analysis of a unit or of the whole tree. -/
structure FatalError where
  message : String
  location : Option Location
deriving DecidableEq, Repr, Inhabited

/-- The error as messages show it. -/
def FatalError.text (e : FatalError) : String :=
  match e.location with
  | none => e.message
  | some l => l.text ++ ": " ++ e.message

/-- Why a unit failed. -/
inductive Failure where
  /-- It cannot be parsed. -/
  | unparsable (e : SyntaxError)
  | fatal (e : FatalError)
deriving DecidableEq, Repr

/-- The message of a failure without its place. -/
def Failure.message : Failure → String
  | .unparsable e => e.fault.message
  | .fatal e => e.message

/-- The place of a failure. -/
def Failure.location : Failure → Option Location
  | .unparsable e => some e.location
  | .fatal e => e.location

end Ceylon.Analysis
