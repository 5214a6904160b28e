import Ceylon.Prompt.History
import Ceylon.Prompt.Line
import Ceylon.Text.Width

/-!
# Searching the history

A search goes through the lines of the history from the one that is shown, backward or forward, for a text whose
case does not matter.  Below the line it shows what it looks for.
-/

namespace Ceylon.Prompt

/-- Whether a text begins another one, case apart. -/
def beginsLike (wanted text : List Char) : Bool :=
  wanted.length ≤ text.length &&
    (wanted.zip text).all fun (a, b) => a.toLower == b.toLower

/-- The places where a text occurs in another one, case apart. -/
def placesOf (wanted text : List Char) : List Nat :=
  (List.range (text.length + 1)).filter fun i => beginsLike wanted (text.drop i)

namespace History

/-- The last place where a text occurs in a line of the history, from the line that is shown backward, and the
number of the line.  In the line that is shown only its first `limit` characters count. -/
def findBackward (h : History) (wanted : List Char) (limit : Nat) : Option (Nat × Nat) := do
  let n ← h.shown
  (List.range (n + 1)).reverse.findSome? fun k =>
    let text := if k = n then (h.text k).take limit else h.text k
    (placesOf wanted text).getLast?.map (·, k)

/-- The first place where a text occurs in a line of the history, from the line that is shown forward, and the
number of the line.  In the line that is shown only the characters from `start` on count. -/
def findForward (h : History) (wanted : List Char) (start : Nat) : Option (Nat × Nat) := do
  let n ← h.shown
  (List.range (h.entries.length - n)).findSome? fun j =>
    if j = 0 then
      let text := (h.text n).drop start
      if text.isEmpty then none else (placesOf wanted text).head?.map (· + start, n)
    else (placesOf wanted (h.text (n + j))).head?.map (·, n + j)

end History

/-- A search that is going on. -/
structure Search where
  backward : Bool
  /-- Whether the text was not found. -/
  failing : Bool := false
  /-- The text to look for. -/
  wanted : List Char := []
  /-- Where the text that was found begins and ends. -/
  mark : Nat × Nat := (0, 0)
  /-- The line that was shown before. -/
  origin : Option Nat
deriving DecidableEq, Repr, Inhabited

namespace Search

/-- A text underlined. -/
def underlined (text : List Char) : String :=
  "\x1b[4m" ++ String.ofList text ++ "\x1b[0m"

/-- What marks the text that was found in the line, from where the cursor is. -/
def marking (s : Search) (line : Line) : String :=
  let (start, stop) := s.mark
  let cursor := line.before.length
  let cs := line.chars
  let way :=
    if cursor < start then String.ofList ((cs.drop cursor).take (start - cursor))
    else String.ofList (List.replicate (Text.displayWidth Text.charWidth ((cs.drop start).take (cursor - start))) '\x08')
  if start = 0 then "" else way ++ underlined ((cs.drop start).take (stop - start))

/-- What shows the search below the line. -/
def shown (s : Search) (line : Line) : String :=
  let below := line.after.length + 1
  s.marking line ++ String.ofList (List.replicate below '\n') ++ "\x1b[J"
    ++ (if s.failing then "failing " else "") ++ (if s.backward then "bck" else "fwd")
    ++ "-i-search: " ++ String.ofList s.wanted ++ underlined [' ']
    ++ "\r\x1b[" ++ toString below ++ "A"

/-- Looks for the text from the cursor on; `changed` tells whether it is another text than before. -/
def run (s : Search) (changed : Bool) (line : Line) (history : History) :
    String × Search × Line × History :=
  let cursor := line.before.length
  let size := s.wanted.length
  if size = 0 then
    let s := { s with failing := false }
    (s.shown line, s, line, history)
  else
    let found :=
      if s.backward then history.findBackward s.wanted (if changed then cursor + size else cursor)
      else history.findForward s.wanted (if changed then cursor - size else cursor)
    match found with
    | none =>
      let s := { s with failing := true }
      (s.shown line, s, line, history)
    | some (place, n) =>
      let s := { s with failing := false, mark := (place, place + size) }
      let history := { history with shown := some n }
      let line := Line.split (history.text n) (if s.backward then place else place + size)
      (s.shown line, s, line, history)

end Search

end Ceylon.Prompt
