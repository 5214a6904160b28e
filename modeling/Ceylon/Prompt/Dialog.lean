import Ceylon.Prompt.LineEditor
import Ceylon.Prompt.Session

/-!
# Dialogs

A dialog reads keys and prints replies.  Lines are put together as long as brackets are open.
-/

namespace Ceylon.Prompt

open Analysis (LoadError)
open Report (Palette)

/-! ## Open brackets -/

/-- Where the search for brackets is. -/
inductive Scan where
  | outside
  /-- Inside a literal that ends with the given character. -/
  | inside (quote : Char)
  /-- Behind a backslash in such a literal. -/
  | escaped (quote : Char)
deriving DecidableEq, Repr, Inhabited

/-- How a character changes the number of open brackets, and where the search is behind it. -/
def Scan.step : Scan → Char → Int × Scan
  | .escaped quote, _ => (0, .inside quote)
  | .inside quote, c =>
    if c = '\\' then (0, .escaped quote)
    else if c = quote then (0, .outside)
    else (0, .inside quote)
  | .outside, c =>
    if c = '"' || c = '\'' || c = '\x60' then (0, .inside c)
    else if c = '(' || c = '\x7b' || c = '[' then (1, .outside)
    else if c = ')' || c = '\x7d' || c = ']' then (-1, .outside)
    else (0, .outside)

/-- The number of brackets that are left open from a point of the search. -/
def openFrom (scan : Scan) : List Char → Int
  | [] => 0
  | c :: cs => (scan.step c).1 + openFrom (scan.step c).2 cs

/-- The number of brackets that a text leaves open.  Those inside literals do not count, and there may be
more closing ones. -/
def openBrackets (s : String) : Int :=
  openFrom .outside s.toList

/-! ## Replies -/

/-- What the prompt says about itself. -/
def help : String :=
  "Enter an expression to see its type, or an import or declaration to keep it.\n"
    ++ ":reset forgets every kept import and declaration.\n"

/-- The reply as it is printed.  Problems are shown with the lines that were entered. -/
def Reply.render (r : Reply) (palette : Palette) (input : String) : String :=
  let source (file : String) := if file = inputName then some input else none
  let problems :=
    if r.problems.isEmpty then ""
    else (Report.Layout.renderAll { palette, source } r.problems)
  let answer := if r.failed || r.text.isEmpty then "" else r.text ++ "\n"
  problems ++ answer

namespace Session

/-- What is printed for something entered: a command, or something to check. -/
def answer (s : Session) (palette : Palette) (input : String) : String × Session :=
  match Text.trim input with
  | ":reset" =>
    match s.reset with
    | (some e, s) => (e.message ++ "\n", s)
    | (none, s) => ("", s)
  | ":help" => (help, s)
  | _ =>
    match s.eval input with
    | (.error e, s) => (e.message ++ "\n", s)
    | (.ok reply, s) => (reply.render palette input, s)

/-- Adds a line to those before it, if there are any. -/
def addLine (pending line : String) : String :=
  if pending.isEmpty then line else pending ++ "\n" ++ line

/-- What is printed for a line that is entered, and what is pending then. -/
def enter (s : Session) (palette : Palette) (pending line : String) : String × String × Session :=
  let input := addLine pending line
  if openBrackets input > 0 then ("", input, s)
  else
    let (out, s) := s.answer palette input
    (out, "", s)

/-- What is printed for keys that are pressed one after the other.  A line that the input breaks off in the middle
of counts; what is still pending then is dropped. -/
def converse (palette : Palette) (s : Session) (editor : LineEditor) (pending : String) :
    List Key → String
  | [] =>
    if editor.line.isEmpty then ""
    else (s.enter palette pending (String.ofList editor.line.chars)).1
  | key :: keys =>
    match editor.press key with
    | (heard, .editing, editor) => heard ++ s.converse palette editor pending keys
    | (heard, .entered line, editor) =>
      let (out, pending, s) := s.enter palette pending line
      heard ++ out ++ s.converse palette editor pending keys
    | (heard, .interrupted, editor) => heard ++ s.converse palette editor "" keys
    | (heard, .ended, _) => heard

end Session

/-- What is printed for a text that is entered at a prompt over a file tree. -/
def run (files : Files.Tree) (palette : Palette) (input : String) : Except LoadError String := do
  return (← Session.start files).converse palette {} "" (Key.ofText input)

/-- What is wrong with a source tree over which no session can begin. -/
def noSession (e : LoadError) : String :=
  "repl initialization failure: " ++ e.message

end Ceylon.Prompt
