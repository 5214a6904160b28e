import Ceylon.Lint.Finding
import Ceylon.Text.Words
import Ceylon.Token.Basic

/-!
# Suppressing findings

A comment `nolint` suppresses all findings on the line where it starts; `nolint:` with a list of names
suppresses those of the named checks.  If several such comments start on one line, the last one counts.
-/

namespace Ceylon.Lint

/-- What a directive suppresses. -/
inductive Suppression where
  | all
  | named (checks : List String)
deriving DecidableEq, Repr

/-- Whether the findings of a check are suppressed. -/
def Suppression.covers (s : Suppression) (check : String) : Bool :=
  match s with
  | .all => true
  | .named checks => checks.contains check

/-- The text of a comment without its marks. -/
def commentText (comment : String) : String :=
  let text := Text.trim comment
  let inner := match Text.afterStart? "//" text with
    | some rest => rest
    | none =>
      match Text.afterStart? "/*" text with
      | some rest => Text.beforeEnd "*/" rest
      | none => text
  Text.trim inner

/-- The directive that a comment holds. -/
def suppression? (comment : String) : Option Suppression :=
  match Text.afterStart? "nolint" (commentText comment) with
  | none => none
  | some "" => some .all
  | some rest =>
    (Text.afterStart? ":" rest).map fun list =>
      match Text.trim list with
      | "" => .all
      | list => .named ((list.toList.splitOn ',').map fun item => Text.trim (String.ofList item))

/-- The directive in force on a line: the last one among the comments that start there. -/
def suppressionAt? (comments : List Token) (line : Int) : Option Suppression :=
  (comments.filterMap fun c =>
    if (c.pos.line : Int) = line then suppression? c.text else none).getLast?

/-- The findings that no directive suppresses. -/
def unsuppressed (comments : List Token) (fs : List Finding) : List Finding :=
  fs.filter fun f =>
    match suppressionAt? comments f.place.line with
    | none => true
    | some s => !s.covers f.check

end Ceylon.Lint
