import Ceylon.Files.Path

/-!
# File trees

A file tree in memory: files with their contents, in folders, and beside them links, pipes and devices, which are
neither.  Paths are taken in their clean form.
-/

namespace Ceylon.Files

/-- An entry of a folder, with its name. -/
inductive Entry where
  /-- A regular file. -/
  | file (name content : String)
  | folder (name : String) (entries : List Entry)
  /-- Neither a regular file nor a folder: a link, a pipe, a device.  It can be read, and no path leads through it. -/
  | special (name content : String)
deriving Inhabited

namespace Entry

/-- The name of an entry. -/
def name : Entry → String
  | .file name _ | .special name _ => name
  | .folder name _ => name

/-- The entry with the given name. -/
def named? (name : String) (entries : List Entry) : Option Entry :=
  entries.find? (·.name == name)

/-- Puts an entry in the place of the one of its name, or at the end. -/
def put (e : Entry) : List Entry → List Entry
  | [] => [e]
  | f :: rest => if f.name == e.name then e :: rest else f :: put e rest

/-- The contents of the folder with the given name; nothing if there is no such folder. -/
def inside (name : String) (entries : List Entry) : List Entry :=
  match named? name entries with
  | some (.folder _ entries) => entries
  | _ => []

end Entry

/-- A file tree, by what is at its root. -/
structure Tree where
  entries : List Entry := []
deriving Inhabited

/-- A path that leads nowhere. -/
structure NotFound where
  path : String
deriving DecidableEq, Repr

/-- The wording of the error. -/
def NotFound.message (e : NotFound) : String :=
  "open " ++ e.path ++ ": file does not exist"

namespace Tree

/-- Writes a file, making the folders on the way.  A folder stays where it is. -/
def writeIn (content : String) : List String → List Entry → List Entry
  | [], entries => entries
  | [name], entries =>
    match Entry.named? name entries with
    | some (.folder ..) => entries
    | _ => Entry.put (.file name content) entries
  | name :: rest, entries =>
    Entry.put (.folder name (writeIn content rest (Entry.inside name entries))) entries

/-- Makes a folder and those on the way to it. -/
def makeIn : List String → List Entry → List Entry
  | [], entries => entries
  | name :: rest, entries =>
    Entry.put (.folder name (makeIn rest (Entry.inside name entries))) entries

/-- Removes a file. -/
def removeIn : List String → List Entry → List Entry
  | [], entries => entries
  | [name], entries => entries.filter (·.name != name)
  | name :: rest, entries =>
    match Entry.named? name entries with
    | some (.folder _ inner) => Entry.put (.folder name (removeIn rest inner)) entries
    | _ => entries

/-- What a path of segments leads to. -/
def findIn? : List String → Entry → Option Entry
  | [], e => some e
  | _ :: _, .file .. | _ :: _, .special .. => none
  | name :: rest, .folder _ entries => (Entry.named? name entries).bind (findIn? rest)

/-- Writes a file at a path. -/
def write (t : Tree) (path content : String) : Tree :=
  ⟨writeIn content (Path.segments path) t.entries⟩

/-- Makes the folder at a path. -/
def makeFolder (t : Tree) (path : String) : Tree :=
  ⟨makeIn (Path.segments path) t.entries⟩

/-- Removes the file at a path. -/
def remove (t : Tree) (path : String) : Tree :=
  ⟨removeIn (Path.segments path) t.entries⟩

/-- What is at a path.  A path that does not begin at the root leads nowhere, but for the empty one and
those that stay where they are, which mean the root. -/
def find (t : Tree) (path : String) : Except NotFound Entry :=
  let cleaned := Path.clean path
  let root := Entry.folder "/" t.entries
  if cleaned == "." || cleaned == ".." then .ok root
  else if !Path.isRooted cleaned then .error ⟨cleaned⟩
  else match findIn? (Path.segments cleaned) root with
    | some e => .ok e
    | none => .error ⟨cleaned⟩

/-- The content of the file at a path; a folder reads as empty. -/
def read (t : Tree) (path : String) : Except NotFound String := do
  match ← t.find path with
  | .file _ content | .special _ content => return content
  | .folder .. => return ""

/-- A tree of files below a root. -/
def ofFiles (root : String) (files : List (String × String)) : Tree :=
  files.foldl (fun t (path, content) => t.write (Path.join [root, path]) content) {}

/-- The tree inside a folder; an empty one if there is no such folder. -/
def inside (t : Tree) (path : String) : Tree :=
  match t.find path with
  | .ok (.folder _ entries) => ⟨entries⟩
  | _ => {}

mutual

/-- An entry laid over others: it hides what has its name, but folders become one. -/
def layEntry (below : List Entry) : Entry → Entry
  | .file name content => .file name content
  | .special name content => .special name content
  | .folder name entries =>
    let under := Entry.inside name below
    .folder name (layEntries under entries ++ under.filter fun e =>
      (Entry.named? e.name entries).isNone)

/-- Entries laid over others. -/
def layEntries (below : List Entry) : List Entry → List Entry
  | [] => []
  | e :: es => layEntry below e :: layEntries below es

end

/-- A tree laid over another one. -/
def laidOver (top bottom : Tree) : Tree :=
  ⟨layEntries bottom.entries top.entries ++ bottom.entries.filter fun e =>
    (Entry.named? e.name top.entries).isNone⟩

end Tree

end Ceylon.Files
