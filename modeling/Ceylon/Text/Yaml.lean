import Ceylon.Text.Json
import Ceylon.Text.Yaml.Scalar

/-!
# YAML documents

The values of reports as YAML in block style, two blanks to a level.
-/

namespace Ceylon.Text.Yaml

/-- A line indented as far as given. -/
def indentLine (indent : Nat) (line : String) : String :=
  String.ofList (List.replicate indent ' ') ++ line

/-- The lines of a value that begins on the line of its key or hyphen; none if it needs lines of its own.  What
follows the first line is indented as far as given. -/
def inlineLines? (indent : Nat) : Json → Option (List String)
  | .null => some ["null"]
  | .bool b => some [if b then "true" else "false"]
  | .num n => some [toString n]
  | .str s => some (scalarLines indent s)
  | .arr [] => some ["[]"]
  | .obj [] => some ["\x7b\x7d"]
  | _ => none

/-- Puts a mark before the first of some lines. -/
def marked (mark : String) : List String → List String
  | [] => [mark]
  | l :: ls => (mark ++ l) :: ls

mutual

/-- The lines of a value of which the first stands behind something that is indented as far as given. -/
def lines (indent : Nat) : Json → List String
  | .arr items => itemLines indent true items
  | .obj members => memberLines indent true members
  | j => (inlineLines? indent j).getD []

/-- The lines of the items of a sequence; the first one may stand behind something. -/
def itemLines (indent : Nat) (first : Bool) : List Json → List String
  | [] => []
  | j :: js =>
    let mark := if first then "- " else indentLine indent "- "
    let own := match inlineLines? (indent + 2) j with
      | some ls => marked mark ls
      | none => marked mark (lines (indent + 2) j)
    own ++ itemLines indent false js

/-- The lines of the members of a mapping; the first one may stand behind something. -/
def memberLines (indent : Nat) (first : Bool) : List (String × Json) → List String
  | [] => []
  | (key, j) :: ms =>
    let key := if first then key else indentLine indent key
    let own := match inlineLines? (indent + 2) j with
      | some ls => marked (key ++ ": ") ls
      | none => (key ++ ":") :: marked (indentLine (indent + 2) "") (lines (indent + 2) j)
    own ++ memberLines indent false ms

end

/-- A value as a document. -/
def document (j : Json) : String :=
  let ls := (inlineLines? 2 j).getD (lines 0 j)
  String.join (ls.map (· ++ "\n"))

end Ceylon.Text.Yaml
