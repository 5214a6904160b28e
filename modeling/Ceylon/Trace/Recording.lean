import Ceylon.Analysis.State
import Ceylon.Text.Quoted

/-!
# Recording traces

The spans of an analysis can be recorded for a tracing system.  A recording keeps the spans that its filter
accepts; a span inside one that is not kept belongs to the next one around that is.  The spans are listed in
the order in which they ended.
-/

namespace Ceylon.Trace

open Analysis (Span)

/-- The system that spans are recorded for. -/
inductive Format where
  | openTelemetry
  | openCensus
deriving DecidableEq, Repr, Inhabited

/-- What traces are recorded as: nothing, or spans in a format. -/
abbrev Kind := Option Format

/-- The kind of recording that a word stands for. -/
def Kind.ofString? : String → Option Kind
  | "" => some none
  | "none" => some none
  | "otel" => some (some .openTelemetry)
  | "opencensus" => some (some .openCensus)
  | _ => none

/-- What is wrong with a word that names no kind. -/
def Kind.unknown (word : String) : String :=
  "unknown tracer: " ++ Text.quote word

/-- The name under which spans are recorded unless another one is set. -/
def defaultName : String :=
  "ceylon-spec"

/-- How spans are recorded. -/
structure Recorder where
  format : Format
  /-- The name under which spans are recorded, for formats that have one. -/
  name : String := defaultName
  /-- Which spans are kept. -/
  keep : Span → Bool := fun _ => true
  /-- A name for a span; an empty one leaves the usual name. -/
  label : Span → String := fun _ => ""

/-- The name of a span: its phase, and the unit if there is one. -/
def usualLabel (s : Span) : String :=
  if s.unit.isEmpty then s.phase else s.phase ++ ":" ++ s.unit

namespace Recorder

/-- The name that a span is recorded under. -/
def labelOf (r : Recorder) (s : Span) : String :=
  match r.label s with
  | "" => usualLabel s
  | label => label

/-- The name of the recorder in the records of its format. -/
def source (r : Recorder) : String :=
  match r.format with
  | .openTelemetry => r.name
  | .openCensus => ""

/-- What is recorded of a span. -/
def attributes (r : Recorder) (s : Span) : List (String × String) :=
  match r.format with
  | .openTelemetry =>
    [("analysis.phase", s.phase)]
      ++ (if s.unit.isEmpty then [] else [("code.filepath", s.unit)])
      ++ (if s.package.isEmpty then [] else [("code.namespace", s.package)])
  | .openCensus => [("phase", s.phase), ("file", s.unit), ("package", s.package)]

end Recorder

/-- A span that was started, with the number of the kept span around it. -/
structure Opened where
  span : Span
  kept : Bool
  parent : Option Nat
deriving Inhabited

/-- The state of a recording.  Spans are numbered in the order in which they start. -/
structure Recording where
  started : Array Opened := #[]
  /-- The spans that have not ended, innermost first. -/
  openSpans : List Nat := []
  /-- The kept spans that have ended, in that order. -/
  ended : Array Nat := #[]
deriving Inhabited

namespace Recording

/-- The innermost kept span that has not ended. -/
def innermost? (r : Recording) : Option Nat :=
  r.openSpans.find? fun i => (r.started.getD i default).kept

/-- Starts a span. -/
def start (recorder : Recorder) (r : Recording) (s : Span) : Recording :=
  { r with
    started := r.started.push ⟨s, recorder.keep s, r.innermost?⟩
    openSpans := r.started.size :: r.openSpans }

/-- Ends the innermost span. -/
def finish (r : Recording) : Recording :=
  match r.openSpans with
  | [] => r
  | i :: rest =>
    { r with
      openSpans := rest
      ended := if (r.started.getD i default).kept then r.ended.push i else r.ended }

/-- A span as it was recorded. -/
structure Record where
  name : String
  /-- The name of the span around it; empty if there is none that has ended. -/
  parent : String
  source : String
  attributes : List (String × String)
deriving DecidableEq, Repr, Inhabited

/-- The spans that have ended, in that order. -/
def records (recorder : Recorder) (r : Recording) : List Record :=
  r.ended.toList.map fun i =>
    let opened := r.started.getD i default
    let parent := (opened.parent.filter r.ended.contains).map fun p =>
      recorder.labelOf (r.started.getD p default).span
    ⟨recorder.labelOf opened.span, parent.getD "", recorder.source,
      recorder.attributes opened.span⟩

end Recording

end Ceylon.Trace
