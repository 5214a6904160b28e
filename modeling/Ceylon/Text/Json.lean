import Ceylon.Text.Quoted

/-!
# JSON values

Values for machine-readable reports.  The members of an object keep the order in which they are given.
The printed text can be embedded in a web page: angle brackets, the ampersand and the two line separators
beyond ASCII are written as codes.
-/

namespace Ceylon.Text

/-- A JSON value; its numbers are integers. -/
inductive Json where
  | null
  | bool (b : Bool)
  | num (n : Int)
  | str (s : String)
  | arr (items : List Json)
  | obj (members : List (String × Json))
deriving Inhabited

namespace Json

/-- An array of texts. -/
def strs (ss : List String) : Json :=
  .arr (ss.map .str)

/-- One character as it stands in a string. -/
def escape (c : Char) : String :=
  match c with
  | '"' => "\\\""
  | '\\' => "\\\\"
  | '\n' => "\\n"
  | '\r' => "\\r"
  | '\t' => "\\t"
  | _ =>
    let n := c.toNat
    if n = 8 then "\\b"
    else if n = 12 then "\\f"
    else if n < 0x20 || c = '<' || c = '>' || c = '&' || n = 0x2028 || n = 0x2029 then
      "\\u" ++ hexDigits 4 n
    else String.singleton c

/-- A string between its quotes. -/
def quoted (s : String) : String :=
  "\"" ++ String.join (s.toList.map escape) ++ "\""

/-- A bracketed list with one item to a line, indented by two blanks more than `margin`. -/
def spread (opening closing margin : String) : List String → String
  | [] => opening ++ closing
  | items =>
    let inner := "\n" ++ margin ++ "  "
    opening ++ inner ++ (("," ++ inner).intercalate items) ++ "\n" ++ margin ++ closing

mutual

/-- The text of a value over several lines, those after the first indented by `margin`. -/
def indented (margin : String) : Json → String
  | .null => "null"
  | .bool b => if b then "true" else "false"
  | .num n => toString n
  | .str s => quoted s
  | .arr items => spread "[" "]" margin (indentedItems (margin ++ "  ") items)
  | .obj members => spread "\x7b" "\x7d" margin (indentedMembers (margin ++ "  ") members)

/-- The texts of the items of an array. -/
def indentedItems (margin : String) : List Json → List String
  | [] => []
  | j :: js => indented margin j :: indentedItems margin js

/-- The texts of the members of an object. -/
def indentedMembers (margin : String) : List (String × Json) → List String
  | [] => []
  | (key, j) :: ms => (quoted key ++ ": " ++ indented margin j) :: indentedMembers margin ms

end

/-- The text of a value over several lines, with a line break at the end. -/
def pretty (j : Json) : String :=
  indented "" j ++ "\n"

end Json

end Ceylon.Text
