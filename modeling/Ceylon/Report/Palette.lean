import Ceylon.Text.Quoted

/-!
# Colors

The escape sequences that reports are colored with, and when they are used.
-/

namespace Ceylon.Report

/-- When colors are used. -/
inductive ColorMode where
  /-- On a terminal only. -/
  | auto
  | always
  | never
deriving DecidableEq, Repr, Inhabited

/-- The mode that a word stands for; no word leaves the choice to the terminal. -/
def ColorMode.ofString? : String → Option ColorMode
  | "" => some .auto
  | "auto" => some .auto
  | "always" => some .always
  | "never" => some .never
  | _ => none

/-- What is wrong with a word that names no mode. -/
def ColorMode.invalid (word : String) : String :=
  "invalid color mode " ++ Text.quote word ++ ": must be auto, always or never"

/-- The escape sequences of a report; without colors they are empty. -/
structure Palette where
  bold : String := ""
  yellow : String := ""
  boldRed : String := ""
  boldBlue : String := ""
  boldCyan : String := ""
  reset : String := ""
deriving DecidableEq, Repr, Inhabited

/-- The sequences that terminals understand. -/
def Palette.ansi : Palette where
  bold := "\x1b[1m"
  yellow := "\x1b[33m"
  boldRed := "\x1b[1;31m"
  boldBlue := "\x1b[1;34m"
  boldCyan := "\x1b[1;36m"
  reset := "\x1b[0m"

/-- The sequences for a mode, given whether the report goes to a terminal. -/
def ColorMode.palette (m : ColorMode) (terminal : Bool) : Palette :=
  match m with
  | .auto => if terminal then .ansi else {}
  | .always => .ansi
  | .never => {}

end Ceylon.Report
