import Ceylon.Analysis.Load
import Ceylon.Report.Snippet
import Ceylon.Text.Words

/-!
# Sessions at a prompt

What is entered at a prompt is checked beside a source tree.  An expression is answered with its type.
Imports and declarations are kept if they are right, and what is entered later is checked against them.

A session has one unit at the top of the source tree.  It holds the kept imports, the kept declarations and
what is being checked, each on lines of its own, so that a problem belongs to what was entered if it lies on
those lines.  An expression becomes the value of a declaration, whose beginning is not counted in columns.
-/

namespace Ceylon.Prompt

open Analysis (Diagnostic LoadError SourceTree State)
open Model (DeclId UnitId)
open Report (Problem)
open Syntax (SyntaxError)

/-- The unit of a session. -/
def unitName : String :=
  "_repl" ++ Files.extension

/-- The name of the value that an expression is bound to. -/
def resultName : String :=
  "_it"

/-- What stands before an expression in the unit. -/
def resultStart : String :=
  "value " ++ resultName ++ " = "

/-- The name of what was entered in problems. -/
def inputName : String :=
  "<stdin>"

/-! ## Replies -/

/-- A declaration that was entered. -/
structure Declared where
  kind : String
  name : String
  signature : String
deriving DecidableEq, Repr, Inhabited

/-- What a session answers. -/
structure Reply where
  /-- The type of an expression. -/
  type : Option String := none
  declared : List Declared := []
  problems : List Problem := []
deriving DecidableEq, Repr, Inhabited

namespace Reply

/-- Whether what was entered is refused. -/
def failed (r : Reply) : Bool :=
  r.problems.any (·.severity == .error)

/-- The type, or else the signatures line by line. -/
def text (r : Reply) : String :=
  match r.type with
  | some type => type
  | none => "\n".intercalate (r.declared.map (·.signature))

end Reply

/-- A session: the source tree, what has been kept in the order in which it was entered, and the latest
analysis. -/
structure Session where
  files : Files.Tree
  imports : List String := []
  declarations : List String := []
  latest : State

namespace Session

/-! ## The unit of a session -/

/-- Analyzes a text as the unit of the session. -/
def analyze (files : Files.Tree) (text : String) : Except LoadError State :=
  match (SourceTree.mk (files.write ("/" ++ unitName) text) "/").analyze [] with
  | (some e, _) => .error e
  | (none, s) => .ok s

/-- Begins a session over the packages at the root of a file tree. -/
def start (files : Files.Tree) : Except LoadError Session := do
  return { files, latest := ← analyze files "" }

/-- Analyzes a text and keeps the analysis. -/
def check (s : Session) (text : String) : Except LoadError Session := do
  return { s with latest := ← analyze s.files text }

/-- The number of lines that texts take. -/
def lineCount : List String → Nat
  | [] => 0
  | t :: ts => (Text.lines t).length + lineCount ts

/-- A place for what is entered: the texts before and behind it. -/
structure Frame where
  before : List String
  behind : List String

/-- The place of imports: behind the kept ones. -/
def importFrame (s : Session) : Frame :=
  ⟨s.imports, s.declarations⟩

/-- The place of declarations and expressions: behind all that has been kept. -/
def declarationFrame (s : Session) : Frame :=
  ⟨s.imports ++ s.declarations, []⟩

/-- The text of the unit with something entered. -/
def Frame.text (f : Frame) (input : String) : String :=
  "\n".intercalate (f.before ++ [input] ++ f.behind)

/-- The line on which what is entered begins. -/
def Frame.firstLine (f : Frame) : Nat :=
  lineCount f.before + 1

/-- The text of the unit with what has been kept. -/
def kept (s : Session) : String :=
  "\n".intercalate (s.imports ++ s.declarations)

/-- The unit of the session in its latest analysis. -/
def unit? (s : Session) : Option UnitId :=
  s.latest.unitAt? unitName

/-! ## Problems -/

/-- A problem of the unit as a problem of what was entered, if it lies on its lines.  On the first line the
first `hidden` columns were not entered, and what is wrong with them follows from something else. -/
def shown? (first lines hidden : Nat) (d : Diagnostic) : Option Problem := do
  let place ← d.location
  if place.file ≠ unitName then none
  if place.line < first || place.line ≥ first + lines then none
  let line := place.line - first + 1
  if line = 1 && place.col ≤ hidden then none
  return {
    severity := .ofString d.severity.text
    message := d.message
    spans := [{ file := inputName, line, col := if line = 1 then place.col - hidden else place.col }]
    notes := []
    code := "" }

/-- The problems of what was entered. -/
def problems (s : Session) (first : Nat) (input : String) (hidden : Nat) : List Problem :=
  s.latest.diagnostics.filterMap (shown? first (lineCount [input]) hidden)

/-- A fault of what was entered as a problem. -/
def ofFault (e : SyntaxError) : Problem where
  severity := .error
  message := e.fault.message
  spans := [{ file := inputName, line := e.pos.line, col := e.pos.col }]
  notes := []
  code := ""

/-- The problem of imports and declarations that are entered together. -/
def mixed : Problem where
  severity := .error
  message := "enter imports and declarations separately"
  spans := []
  notes := []
  code := ""

/-! ## Evaluation -/

/-- The type of the value that an expression was bound to. -/
def resultType? (s : Session) : Option String := do
  let u ← s.unit?
  match (s.latest.unit u).tree.body.getLast? with
  | some (.attribute d) =>
    if d.name.text ≠ resultName then none
    let x ← d.init.expr?
    match s.latest.types.getD ⟨u, x.mark.id⟩ .unknown with
    | .unknown => none
    | t => some (s.latest.typeText t)
  | _ => none

/-- The declarations of the unit from a line on. -/
def declaredFrom (s : Session) (first : Nat) : List Declared :=
  match s.unit? with
  | none => []
  | some u =>
    ((s.latest.unit u).tree.body.filter fun stmt => first ≤ stmt.mark.pos.line).filterMap
      fun stmt => s.latest.decls[(⟨u, stmt.mark.id⟩ : Analysis.NodeId)]?.map fun d =>
        ⟨s.latest.graph.kindText d, (s.latest.graph.decl d).name, s.latest.graph.describe d⟩

/-- Checks an expression. -/
def evalExpr (s : Session) (input : String) : Except LoadError Reply × Session :=
  let text := resultStart ++ Text.beforeEnd ";" input ++ ";"
  let frame := s.declarationFrame
  match s.check (frame.text text) with
  | .error e => (.error e, s)
  | .ok s =>
    let reply : Reply := { problems := s.problems frame.firstLine text resultStart.length }
    (.ok (if reply.failed then reply else { reply with type := s.resultType? }), s)

/-- Checks imports or declarations and keeps them if they are right.  If they are not, the latest analysis is
again that of what has been kept. -/
def evalUnit (s : Session) (input : String) (isImport : Bool) : Except LoadError Reply × Session :=
  let frame := if isImport then s.importFrame else s.declarationFrame
  match s.check (frame.text input) with
  | .error e => (.error e, s)
  | .ok s =>
    let reply : Reply := { problems := s.problems frame.firstLine input 0 }
    if reply.failed then
      match s.check s.kept with
      | .error e => (.error e, s)
      | .ok s => (.ok reply, s)
    else if isImport then (.ok reply, { s with imports := s.imports ++ [input] })
    else
      (.ok { reply with declared := s.declaredFrom frame.firstLine },
        { s with declarations := s.declarations ++ [input] })

/-- Checks what was entered.  What is neither an expression nor a unit is refused with the fault of the unit
if it ends like one, and else with that of the expression. -/
def eval (s : Session) (input : String) : Except LoadError Reply × Session :=
  let input := Text.trim input
  let source : Source := { name := inputName }
  let glyphs := Text.Glyph.ofString input
  if input.isEmpty then (.ok {}, s)
  else match Syntax.parseExpr source glyphs with
    | .ok _ => s.evalExpr input
    | .error exprError =>
      match Syntax.parseUnit source glyphs with
      | .error unitError =>
        let e := if input.endsWith ";" || input.endsWith "\x7d" then unitError else exprError
        (.ok { problems := [ofFault e] }, s)
      | .ok unit =>
        if !unit.imports.isEmpty && !unit.body.isEmpty then (.ok { problems := [mixed] }, s)
        else s.evalUnit input !unit.imports.isEmpty

/-- Forgets all that has been kept, even if the source tree can no longer be analyzed. -/
def reset (s : Session) : Option LoadError × Session :=
  let s := { s with imports := [], declarations := [] }
  match s.check "" with
  | .error e => (some e, s)
  | .ok s => (none, s)

/-! ## Names -/

/-- The names that can be used in what is entered, and what they stand for. -/
def visible (s : Session) : List (String × DeclId) :=
  match s.unit? with
  | none => []
  | some u =>
    if (s.latest.unit u).isBound then s.latest.visible u [.package (s.latest.unit u).package]
    else []

/-- The kind of declaration that a name stands for. -/
def kindOf (s : Session) (d : DeclId) : String :=
  s.latest.graph.kindText d

/-- What may follow the word before the cursor, in the order of names, and the length of the word. -/
def complete (s : Session) (line : String) (cursor : Nat) : List String × Nat :=
  let word := Text.wordBefore line.toList cursor
  if word.isEmpty then ([], 0)
  else
    let names := (s.visible.map (·.1)).filter (· ≠ resultName)
    let rests := (names.mergeSort fun a b => decide (a ≤ b)).filterMap fun name =>
      Text.after? word name.toList
    if rests.isEmpty then ([], 0) else (rests.map String.ofList, word.length)

end Session

end Ceylon.Prompt
