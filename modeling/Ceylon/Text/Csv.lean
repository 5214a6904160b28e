/-!
# Records between commas

A record is a line of fields between commas.  A field may stand between double quotes; then it may hold commas and
line breaks, and a doubled quote in it stands for one.  Lines are numbered from 1, and columns count bytes.
-/

namespace Ceylon.Text.Csv

/-- A place in the text. -/
structure Place where
  line : Nat
  col : Nat
deriving DecidableEq, Repr, Inhabited

/-- Why a text holds no record. -/
inductive Fault where
  /-- There is no line with anything on it. -/
  | noRecord
  /-- A quote inside a field without quotes. -/
  | bareQuote (firstLine : Nat) (place : Place)
  /-- A quote inside a field between quotes, or none at its end. -/
  | strayQuote (firstLine : Nat) (place : Place)
deriving DecidableEq, Repr

/-- The wording of a fault at a place of a record that begins on the given line. -/
def faultText (firstLine : Nat) (p : Place) (reason : String) : String :=
  let start := if firstLine = p.line then "" else "record on line " ++ toString firstLine ++ "; "
  start ++ "parse error on line " ++ toString p.line ++ ", column " ++ toString p.col ++ ": " ++ reason

/-- The wording of the fault. -/
def Fault.message : Fault → String
  | .noRecord => "EOF"
  | .bareQuote first p => faultText first p "bare \" in non-quoted-field"
  | .strayQuote first p => faultText first p "extraneous or missing \" in quoted-field"

/-- The text with plain line breaks: a carriage return before a line break or at the end is dropped. -/
def plainBreaks : List Char → List Char
  | [] => []
  | ['\r'] => []
  | '\r' :: '\n' :: cs => '\n' :: plainBreaks cs
  | c :: cs => c :: plainBreaks cs

/-- The place behind a character.  A line break at the end of the text begins no line. -/
def Place.after (p : Place) (c : Char) (rest : List Char) : Place :=
  if c = '\n' && !rest.isEmpty then ⟨p.line + 1, 1⟩ else { p with col := p.col + c.utf8Size }

/-- The place behind characters of one line. -/
def Place.past (p : Place) (cs : List Char) : Place :=
  cs.foldl (fun p c => { p with col := p.col + c.utf8Size }) p

/-- A field that has been read. -/
structure Field where
  chars : List Char
  /-- What follows it. -/
  rest : List Char
  /-- The place of what follows it. -/
  next : Place

/-- A field without quotes. -/
def openField (firstLine : Nat) (p : Place) (cs : List Char) : Except Fault Field :=
  let isOwn (c : Char) : Bool := c ≠ ',' && c ≠ '\n'
  let chars := cs.takeWhile isOwn
  if chars.contains '"' then .error (.bareQuote firstLine (p.past (chars.takeWhile (· ≠ '"'))))
  else .ok { chars, rest := cs.dropWhile isOwn, next := p.past chars }

/-- Whether a field may end before the given characters. -/
def mayEnd : List Char → Bool
  | [] => true
  | c :: _ => c = ',' || c = '\n'

/-- A field between quotes, behind the opening one. -/
def quotedField (firstLine : Nat) (p : Place) : List Char → Except Fault Field
  | [] => .error (.strayQuote firstLine p)
  | '"' :: '"' :: cs => do
    let f ← quotedField firstLine { p with col := p.col + 2 } cs
    return { f with chars := '"' :: f.chars }
  | '"' :: cs =>
    if mayEnd cs then .ok { chars := [], rest := cs, next := { p with col := p.col + 1 } }
    else .error (.strayQuote firstLine p)
  | c :: cs => do
    let f ← quotedField firstLine (p.after c cs) cs
    return { f with chars := c :: f.chars }

/-- A field. -/
def field (firstLine : Nat) (p : Place) : List Char → Except Fault Field
  | '"' :: cs => quotedField firstLine { p with col := p.col + 1 } cs
  | cs => openField firstLine p cs

/-- The fields of a record from a place on. -/
def fields (firstLine : Nat) : (depth : Nat) → Place → List Char → Except Fault (List String)
  | 0, _, _ => .ok []
  | depth + 1, p, cs => do
    let f ← field firstLine p cs
    match f.rest with
    | ',' :: rest =>
      return String.ofList f.chars :: (← fields firstLine depth { f.next with col := f.next.col + 1 } rest)
    | _ => return [String.ofList f.chars]

/-- The first record of a text; empty lines before it do not count. -/
def record (text : String) : Except Fault (List String) :=
  let cs := plainBreaks text.toList
  let blank := cs.takeWhile (· = '\n')
  let line := blank.length + 1
  match cs.drop blank.length with
  | [] => .error .noRecord
  | cs => fields line (cs.length + 1) ⟨line, 1⟩ cs

end Ceylon.Text.Csv
