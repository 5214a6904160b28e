import Ceylon.Text.Json
import Ceylon.Text.Words

/-!
# Positions in an editor

Editors count lines and characters from 0 with numbers of 32 bits, source text counts them from 1.  A range
lies on one line.
-/

namespace Ceylon.Editor

open Text (Json)

/-- A place in a document, counted from 0. -/
structure Position where
  line : UInt32
  character : UInt32
deriving DecidableEq, Repr, Inhabited

/-- A count as a number of an editor: nothing is below 0, and large counts lose their upper bits. -/
def editorCount (n : Int) : UInt32 :=
  UInt32.ofNat n.toNat

/-- The place of a line and a column that are counted from 1; smaller ones are taken for the first. -/
def Position.ofPlace (line col : Int) : Position :=
  ⟨editorCount (line - 1), editorCount (col - 1)⟩

/-- The line of a position as source text counts it. -/
def Position.sourceLine (p : Position) : Nat :=
  p.line.toNat + 1

/-- The column of a position as source text counts it. -/
def Position.sourceCol (p : Position) : Nat :=
  p.character.toNat + 1

/-- A part of a document. -/
structure Range where
  start : Position
  stop : Position
deriving DecidableEq, Repr, Inhabited

/-- The part of a line that begins at a place and is so many characters wide. -/
def Range.ofPlace (line col width : Int) : Range :=
  let start := Position.ofPlace line col
  ⟨start, { start with character := start.character + editorCount width }⟩

/-- The form of a position in messages. -/
def Position.json (p : Position) : Json :=
  .obj [("line", .num p.line.toNat), ("character", .num p.character.toNat)]

/-- The form of a range in messages. -/
def Range.json (r : Range) : Json :=
  .obj [("start", r.start.json), ("end", r.stop.json)]

/-! ## Words in a document -/

/-- The line with a number, counted from 0. -/
def line? (content : String) (line : Int) : Option (List Char) :=
  if line < 0 then none else (Text.lines content)[line.toNat]?.map String.toList

/-- The beginning of the word at a position, up to the position.  A position behind the end of its line
stands for the end. -/
def wordBefore (content : String) (line character : Int) : String :=
  match line? content line with
  | some cs => if character < 0 then "" else String.ofList (Text.wordBefore cs character.toNat)
  | none => ""

/-- The length of the word that begins at a place, counted from 1; 1 if there is none. -/
def wordLength (content : String) (line col : Int) : Nat :=
  match line? content (line - 1) with
  | some cs => if col < 1 then 1 else max 1 (Text.wordFrom cs (col - 1).toNat).length
  | none => 1

/-! ## Names of documents -/

/-- What the name of a document on disk begins with. -/
def fileScheme : String :=
  "file://"

/-- The path of a document. -/
def uriPath (uri : String) : String :=
  (Text.afterStart? fileScheme uri).getD uri

/-- The name of the document at a path. -/
def pathUri (path : String) : String :=
  if path.startsWith "/" then fileScheme ++ path else path

end Ceylon.Editor
