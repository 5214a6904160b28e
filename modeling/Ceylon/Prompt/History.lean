/-!
# Lines that were entered

The history holds the lines that were entered, and at its end the one that is being entered.  One may go back to
an earlier line and change it; the change is a draft that lasts until a line is entered.
-/

namespace Ceylon.Prompt

/-- A line of the history. -/
structure Entry where
  /-- The line as it was entered. -/
  kept : List Char := []
  /-- The line as it was changed. -/
  draft : List Char := []
  /-- The round in which the draft was made. -/
  round : Nat := 0
deriving DecidableEq, Repr, Inhabited

/-- The lines that were entered. -/
structure History where
  entries : List Entry := []
  /-- The number of the line that is shown. -/
  shown : Option Nat := none
  /-- How often a line was entered or given up. -/
  round : Nat := 0
deriving Inhabited

namespace History

/-- The number of lines that are kept. -/
def limit : Nat :=
  500

/-- The number of the last line. -/
def last? (h : History) : Option Nat :=
  if h.entries.isEmpty then none else some (h.entries.length - 1)

/-- Adds a line, which is shown then. -/
def push (h : History) (text : List Char) : History :=
  { h with entries := h.entries ++ [{ kept := text }], shown := some h.entries.length }

/-- Forgets the oldest lines if there are too many. -/
def trim (h : History) : History :=
  let excess := h.entries.length - limit
  { h with entries := h.entries.drop excess, shown := h.shown.map (· - excess) }

/-- What the line with a number looks like in this round. -/
def text (h : History) (n : Nat) : List Char :=
  let e := h.entries.getD n {}
  if e.round = h.round then e.draft else e.kept

/-- Makes the text of the line that is being entered the draft of the line that is shown. -/
def update (h : History) (text : List Char) : History :=
  match h.shown with
  | none => (h.push text).trim
  | some n =>
    { h with entries := h.entries.modify n fun e => { e with draft := text, round := h.round } }.trim

/-- Shows the line before the one that is shown. -/
def previous? (h : History) : Option (List Char × History) :=
  match h.shown with
  | some (n + 1) => some (h.text n, { h with shown := some n })
  | _ => none

/-- Shows the line after the one that is shown. -/
def next? (h : History) : Option (List Char × History) :=
  match h.shown with
  | some n =>
    if n + 1 < h.entries.length then some (h.text (n + 1), { h with shown := some (n + 1) }) else none
  | none => none

/-- Gives up what is being entered. -/
def revert (h : History) : History :=
  { h with shown := h.last?, round := h.round + 1 }

/-- Whether a text is the line that was entered last. -/
def repeats (h : History) (text : List Char) : Bool :=
  match h.entries.reverse with
  | _ :: e :: _ => e.kept == text
  | _ => false

/-- Begins the next line with nothing new to keep. -/
def restart (h : History) (last : Nat) : History :=
  { h with
    entries := h.entries.modify last fun e => { e with kept := [], draft := [] }
    shown := some last
    round := h.round + 1 }

/-- Keeps a line that was entered and begins the next one.  Of an earlier line that was changed, its draft is
kept. -/
def keep (h : History) (text : List Char) : History :=
  let h := match h.shown, h.last? with
    | some n, some last =>
      let text := if n = last then text else (h.entries.getD n {}).draft
      { h with
        entries := h.entries.modify last fun e => { e with kept := text, round := h.round }
        shown := some last }.trim
    | _, _ => (h.push text).trim
  { h with round := h.round + 1 }.push []

/-- Enters a line.  Neither an empty line nor one that was entered last is kept again. -/
def enter (h : History) (text : List Char) : History :=
  match h.last? with
  | some last => if text.isEmpty || h.repeats text then h.restart last else h.keep text
  | none => h.keep text

end History

end Ceylon.Prompt
