import Ceylon.Prompt.History
import Ceylon.Prompt.Key
import Ceylon.Prompt.Search

/-!
# Editing a line

Keys change the line that is being entered, until one ends it.  Completion needs a screen, and there is none: its
key rings the bell, as do those for which there is nothing to do.
-/

namespace Ceylon.Prompt

/-- A line that is being edited. -/
structure LineEditor where
  line : Line := {}
  /-- What was deleted last by a key that cuts. -/
  killed : List Char := []
  history : History := {}
  /-- The search that is going on. -/
  search : Option Search := none
deriving Inhabited

/-- What may come of a key. -/
inductive Outcome where
  /-- The line goes on. -/
  | editing
  /-- A line was entered. -/
  | entered (line : String)
  /-- The line was given up. -/
  | interrupted
  /-- The input is at its end. -/
  | ended
deriving DecidableEq, Repr, Inhabited

namespace LineEditor

/-- What rings the bell. -/
def bell : String :=
  "\x07"

/-- What clears a screen. -/
def clearing : String :=
  "\x1b[H\x1b[J"

/-- Puts a cut text aside. -/
def kill (e : LineEditor) (text : List Char) (line : Line) : LineEditor :=
  { e with killed := text, line }

/-- Deletes the word before the cursor.  If it is the first one, the whole line goes. -/
def killWord (e : LineEditor) : LineEditor :=
  let (word, rest) := Line.firstWord e.line.before
  if e.line.before.isEmpty then e
  else if rest.isEmpty then { e with line := {} }
  else e.kill word.reverse { e.line with before := rest }

/-- Shows a line of the history. -/
def showEntry (e : LineEditor) : Option (List Char × History) → String × LineEditor
  | some (text, history) => ("", { e with line := .ofChars text, history })
  | none => (bell, e)

/-- Deletes the character at the cursor. -/
def delete (e : LineEditor) : String × LineEditor :=
  match e.line.after with
  | c :: cs => ("", e.kill [c] { e.line with after := cs })
  | [] => (bell, e)

/-- What a key that does not end the line makes of it, and what is heard or seen of that. -/
def edit (e : LineEditor) : Key → String × LineEditor
  | .char c => ("", { e with line := e.line.insert [c] })
  | .delete | .endOfInput => if e.line.isEmpty then ("", e) else e.delete
  | .backspace => if e.line.isEmpty then (bell, e) else ("", { e with line := e.line.backspace })
  | .lineStart => ("", { e with line := e.line.atStart })
  | .lineEnd => ("", { e with line := e.line.atEnd })
  | .back => ("", { e with line := e.line.back })
  | .forward => ("", { e with line := e.line.forward })
  | .wordBack => ("", { e with line := e.line.wordBack })
  | .wordForward => ("", { e with line := e.line.wordForward })
  | .killBefore =>
    ("", if e.line.before.isEmpty then e else e.kill e.line.before.reverse { after := e.line.after })
  | .killAfter => ("", e.kill e.line.after { before := e.line.before })
  | .killWord => ("", e.killWord)
  | .yank => ("", { e with line := e.line.insert e.killed })
  | .transpose => ("", { e with line := e.line.transpose })
  | .previous => e.showEntry e.history.previous?
  | .next => e.showEntry e.history.next?
  | .complete => (bell, e)
  | .clearScreen => (clearing, e)
  | _ => ("", e)

/-- Notes the line in the history. -/
def note (e : LineEditor) : LineEditor :=
  { e with history := e.history.update e.line.chars }

/-! ## Searching -/

/-- Goes on with a search. -/
def goOn (e : LineEditor) (s : Search) (changed : Bool) : String × LineEditor :=
  let (out, s, line, history) := s.run changed e.line e.history
  (out, { e with line, history, search := some s })

/-- Begins a search, or looks for the next place in one that is going on. -/
def lookFor (e : LineEditor) (backward : Bool) : String × LineEditor :=
  match e.search with
  | some s => e.goOn { s with backward, origin := e.history.shown } false
  | none =>
    let s : Search := { backward, origin := e.history.shown }
    (s.shown e.line, { e with search := some s })

/-- Gives a search up and shows the line from which it began. -/
def giveUp (e : LineEditor) (s : Search) : LineEditor :=
  let line := Line.ofChars ((s.origin.map e.history.text).getD [])
  { e with line, history := { e.history with shown := s.origin }, search := none }

/-- What a key does while a search is going on: characters change what is looked for, and any other key ends the
search. -/
def pressSearching (e : LineEditor) (s : Search) : Key → String × LineEditor
  | .char c => e.goOn { s with wanted := s.wanted ++ [c] } true
  | .backspace =>
    if s.wanted.isEmpty then ("", e) else e.goOn { s with wanted := s.wanted.dropLast } true
  | .cancel | .interrupt => ("", (e.giveUp s).note)
  | .delete | .endOfInput =>
    let (out, e) := e.delete
    (out, { e with search := none }.note)
  | key =>
    let (out, e) := e.edit key
    (out, { e with search := none }.note)

/-! ## Pressing keys -/

/-- Enters the line. -/
def enter (e : LineEditor) : String × Outcome × LineEditor :=
  let text := e.line.chars
  let e := { e with line := {}, history := e.history.enter text, search := none }
  ("", .entered (String.ofList text), e.note)

/-- What comes of a key, and what is heard or seen of it. -/
def press (e : LineEditor) (key : Key) : String × Outcome × LineEditor :=
  match key, e.search with
  | .enter, _ => e.enter
  | .searchBackward, _ => let (out, e) := e.lookFor true; (out, .editing, e)
  | .searchForward, _ => let (out, e) := e.lookFor false; (out, .editing, e)
  | key, some s => let (out, e) := e.pressSearching s key; (out, .editing, e)
  | .interrupt, none => ("", .interrupted, { e with line := {}, history := e.history.revert })
  | key, none =>
    if key = .endOfInput && e.line.isEmpty then ("", .ended, e)
    else
      let (out, e) := e.edit key
      (out, .editing, e.note)

end LineEditor

end Ceylon.Prompt
