import Ceylon.Files.Tree
import Ceylon.Text.Glob

/-!
# Finding source files

A scan finds the source files below a root, which are regular files.  Folders whose names begin with a point are
hidden and not entered, and neither are files and folders that a pattern excludes by their path or by their name.  In
each folder, files and folders are taken in the order of their names; a walk takes the files of a folder before
those of the folders in it.
-/

namespace Ceylon.Files

/-- The extension of source files. -/
def extension : String :=
  ".ceylon"

/-- A source file, with its path below the scanned root. -/
structure SourceFile where
  name : String
  path : String
deriving DecidableEq, Repr, Inhabited

/-- A folder of source files. -/
inductive SourceFolder where
  | mk (name path : String) (segments : List String) (files : List SourceFile)
      (folders : List SourceFolder)
deriving Inhabited

namespace SourceFolder

/-- The name of a folder. -/
def name : SourceFolder → String
  | .mk name .. => name

/-- The path below the scanned root, empty for the root. -/
def path : SourceFolder → String
  | .mk _ path .. => path

/-- The names of the folders on the path. -/
def segments : SourceFolder → List String
  | .mk _ _ segments .. => segments

/-- The source files of a folder, without those of the folders inside. -/
def files : SourceFolder → List SourceFile
  | .mk _ _ _ files _ => files

/-- The folders inside a folder. -/
def folders : SourceFolder → List SourceFolder
  | .mk _ _ _ _ folders => folders

/-- The file of the folder with the given name. -/
def file? (f : SourceFolder) (name : String) : Option SourceFile :=
  f.files.find? (·.name == name)

mutual

/-- The folder and those inside it, parents first, without those below a folder that `enter` refuses. -/
def walk (enter : SourceFolder → Bool) : SourceFolder → List SourceFolder
  | .mk name path segments files folders =>
    let f := SourceFolder.mk name path segments files folders
    f :: (if enter f then walkAll enter folders else [])

/-- The folders of several walks, one after the other. -/
def walkAll (enter : SourceFolder → Bool) : List SourceFolder → List SourceFolder
  | [] => []
  | f :: fs => f.walk enter ++ walkAll enter fs

end

/-- All files in the order of the walk. -/
def allFiles (f : SourceFolder) : List SourceFile :=
  (f.walk fun _ => true).flatMap files

end SourceFolder

/-- Whether a path is excluded by its whole or by its last segment. -/
def isExcluded (patterns : List String) (path : String) : Bool :=
  patterns.any fun p => Text.Glob.isMatch p path || Text.Glob.isMatch p (Path.base path)

/-- Whether a folder is not entered because of its name. -/
def isHidden (name : String) : Bool :=
  name != "." && name != ".." && name.startsWith "."

/-- Puts an item before the first one whose name is not less. -/
def insertByName {α : Type} (name : α → String) (a : α) : List α → List α
  | [] => [a]
  | b :: rest => if name a ≤ name b then a :: b :: rest else b :: insertByName name a rest

/-- Items in the order of their names. -/
def inNameOrder {α : Type} (name : α → String) (items : List α) : List α :=
  items.foldr (insertByName name) []

/-- The source files among entries of the folder at `path`. -/
def scanFiles (patterns : List String) (path : String) (entries : List Entry) : List SourceFile :=
  let files := entries.filterMap fun
    | .file name _ =>
      let rel := Path.join [path, name]
      if !isExcluded patterns rel && name.endsWith extension then some ⟨name, rel⟩ else none
    | .folder .. | .special .. => none
  inNameOrder SourceFile.name files

mutual

/-- The folder of source files that an entry is; what is no folder, or is not entered, is none. -/
def scanFolder? (patterns : List String) (path : String) (segments : List String) :
    Entry → Option SourceFolder
  | .file .. | .special .. => none
  | .folder name entries =>
    let rel := Path.join [path, name]
    if isExcluded patterns rel || isHidden name then none
    else
      let inner := segments ++ [name]
      some (.mk name rel inner (scanFiles patterns rel entries)
        (inNameOrder SourceFolder.name (scanFolders patterns rel inner entries)))

/-- The folders of source files among entries of the folder at `path`. -/
def scanFolders (patterns : List String) (path : String) (segments : List String) :
    List Entry → List SourceFolder
  | [] => []
  | e :: es =>
    (scanFolder? patterns path segments e).toList ++ scanFolders patterns path segments es

end

/-- Why a tree cannot be scanned. -/
inductive ScanError where
  /-- There is nothing at the root. -/
  | missing (e : NotFound)
  /-- What is at the root is no folder. -/
  | notFolder (root : String)
  /-- A folder inside cannot be reached from the root. -/
  | unreachable (e : NotFound)
deriving DecidableEq, Repr

/-- The wording of the error. -/
def ScanError.message : ScanError → String
  | .missing e => "source root: " ++ e.message
  | .notFolder root => "source root " ++ root ++ ": not a directory"
  | .unreachable e => e.message

/-- Why a path leads nowhere, if it does. -/
def Tree.notFound? (t : Tree) (path : String) : Option NotFound :=
  match t.find path with
  | .ok _ => none
  | .error e => some e

/-- The source files below a root.  The folders inside are looked for under the path of the root, which
may be spelled so that they cannot be found: `.` is the root of the tree, but `a` is not in it. -/
def Tree.scan (t : Tree) (root : String) (patterns : List String) :
    Except ScanError SourceFolder :=
  match t.find root with
  | .error e => .error (.missing e)
  | .ok (.file ..) | .ok (.special ..) => .error (.notFolder root)
  | .ok (.folder _ entries) =>
    let found : SourceFolder := .mk (Path.base root) "" [] (scanFiles patterns "" entries)
      (inNameOrder SourceFolder.name (scanFolders patterns "" [] entries))
    let lost := (found.walk fun _ => true).findSome? fun f => t.notFound? (Path.join [root, f.path])
    match lost with
    | some e => .error (.unreachable e)
    | none => .ok found

/-- The contents of files below a root, and what is wrong with those that cannot be read. -/
def Tree.readAll (t : Tree) (root : String) (paths : List String) :
    List (String × String) × List String :=
  let results := paths.map fun path => (path, t.read (Path.join [root, path]))
  (results.filterMap fun
    | (path, .ok content) => some (path, content)
    | (_, .error _) => none,
   results.filterMap fun
    | (_, .ok _) => none
    | (path, .error e) => some (path ++ ": " ++ e.message))

end Ceylon.Files
