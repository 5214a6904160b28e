import Ceylon.Analysis.Language
import Ceylon.Files.Scan

/-!
# Analyzing a source tree

Loading a tree parses its source files and walks its folders: each folder is a package, named by its path,
and the module descriptor of a folder is taken before its other files, so that these belong to its module.
Once all units are loaded their names can be resolved, and once all names are resolved their expressions can
be checked, so that units may refer to each other in any order.
-/

namespace Ceylon.Analysis

open Model
open Files (SourceFile SourceFolder)

/-- Why a source tree could not be loaded completely. -/
inductive LoadError where
  | scan (e : Files.ScanError)
  /-- A module was declared where none may be. -/
  | fatal (e : FatalError)
deriving DecidableEq, Repr

/-- The wording of the error. -/
def LoadError.message : LoadError → String
  | .scan e => e.message
  | .fatal e => e.text

/-- The file that declares the module of its folder. -/
def descriptorName : String :=
  "module.ceylon"

/-- A source tree and the folder in it that holds the packages. -/
structure SourceTree where
  files : Files.Tree
  root : String

namespace SourceTree

/-- Parses a source file and adds it as a unit.  A unit that cannot be parsed has failed. -/
def addSource (t : SourceTree) (package : PackageId) (f : SourceFile) : Analyze UnitId := do
  let path := Files.Path.join [t.root, f.path]
  let content := (t.files.read path).toOption.getD ""
  let reading := Syntax.readUnit ⟨f.path, path⟩ (Text.Glyph.ofString content)
  let u ← addUnit f.path reading.unit package
  reading.fault.forM fun e => fail u (.unparsable e)
  return u

/-- Binds a unit and declares the module it describes, if it describes one. -/
def declareModule (u : UnitId) : Analyze (Option LoadError) := do
  if ((← get).unit u).failure.isSome then return none
  traced ((← get).span u .bound) (bindDeclarations u)
  match ← traced ((← get).span u .moduleResolved) (resolveModule u) with
  | some (.fatal e) => return some (.fatal e)
  | _ => return none

/-- Loads source files one after the other, until one declares a module where none may be. -/
def loadFiles (t : SourceTree) (package : PackageId) :
    List SourceFile → Analyze (Option LoadError)
  | [] => return none
  | f :: fs => do
    let u ← t.addSource package f
    match ← declareModule u with
    | some e => return some e
    | none => t.loadFiles package fs

/-- Gives a package that has no module yet to the module claimed for its folder, or else to the default
module. -/
def ownPackage (package : PackageId) : Analyze Unit := do
  let s ← get
  if (s.graph.package package).module.isNone then
    let owner := match s.stack.bind (·.claim) with
      | some claim => claim.value
      | none => defaultModule
    modifyGraph (·.addPackage owner package)

/-- Loads the files of a folder as one package, the descriptor first. -/
def loadPackage (t : SourceTree) (files : List SourceFile) : Analyze (Option LoadError) := do
  let segments := match (← get).stack with
    | some stack => stack.segments
    | none => []
  let package ← packageNamed segments
  let (descriptors, others) := files.partition (·.name == descriptorName)
  match ← t.loadFiles package descriptors with
  | some e => return some e
  | none =>
    ownPackage package
    t.loadFiles package others

mutual

/-- Loads a folder: its own package, then those inside it. -/
def loadFolder (t : SourceTree) : SourceFolder → Analyze (Option LoadError)
  | .mk _ _ _ files folders => do
    match ← t.loadPackage files with
    | some e => return some e
    | none => t.loadFolders folders

/-- Loads folders one after the other, entering each by its name. -/
def loadFolders (t : SourceTree) : List SourceFolder → Analyze (Option LoadError)
  | [] => return none
  | f :: fs => do
    modify fun s => { s with stack := s.stack.map (·.push f.name) }
    let outcome ← t.loadFolder f
    modify fun s => { s with stack := s.stack.bind (·.pop?) }
    match outcome with
    | some e => return some e
    | none => t.loadFolders fs

end

/-- Loads a source tree without the files and folders that match a pattern. -/
def load (t : SourceTree) (exclude : List String) : Analyze (Option LoadError) :=
  traced { phase := "load", unit := t.root } do
    match t.files.scan t.root exclude with
    | .error e => return some (.scan e)
    | .ok folder =>
      traced { phase := Phase.parsed.text, unit := t.root } (pure ())
      modify fun s => { s with stack := some {} }
      let outcome ← t.loadFolder folder
      modify fun s => { s with stack := none }
      return outcome

end SourceTree

/-- Completes the analysis of all loaded units. -/
def run : Analyze Unit := do
  traced { phase := "resolve-dependencies" } resolveDependencies
  for u in (← get).userUnits do
    traced ((← get).span u .namesResolved) (discard (resolveNames u))
  for u in (← get).userUnits do
    traced ((← get).span u .checked) (checkExpressions u)

/-- Analyzes a source tree.  Analysis goes on with what has been loaded even if loading stopped early. -/
def SourceTree.analyze (t : SourceTree) (exclude : List String) : Option LoadError × State :=
  let (outcome, s) := (t.load exclude).run .initial
  (outcome, (run.run s).2)

end Ceylon.Analysis
