import Ceylon.Analysis.Load
import Ceylon.Analysis.Symbols
import Ceylon.Editor.Documents
import Ceylon.Editor.Query
import Ceylon.Lint.Check

/-!
# A server for editors

The server follows which documents are open in an editor, publishes the problems in them, and answers
questions about them.  What is in an open document counts instead of the file on disk: the open documents are
laid over the file tree, and the whole is analyzed anew when it is needed after a change.
-/

namespace Ceylon.Editor

open Analysis (Diagnostic SourceTree State Symbol)
open Lint (Check Finding)
open Model (Graph UnitId)
open Text (Json)

/-- The state of a server. -/
structure Server where
  /-- The file tree on disk. -/
  disk : Files.Tree := {}
  checks : List Check := Check.all
  /-- The root of the workspace; without one only open documents are analyzed. -/
  root : String := ""
  documents : Documents := {}
  /-- The open documents as files below the root. -/
  overlay : Files.Tree := {}
  /-- The analysis of the workspace, if one has been made since its last change. -/
  latest : Option State := none
  /-- Whether there is someone to send notices to. -/
  connected : Bool := false
  /-- The codes with which the server was asked to end. -/
  exitCodes : List Nat := []

/-- A message that no one asked for. -/
structure Notice where
  method : String
  params : Json

namespace Server

/-! ## The workspace -/

/-- The files that are analyzed. -/
def files (s : Server) : Files.Tree :=
  if s.root.isEmpty then s.overlay else s.overlay.laidOver (s.disk.inside s.root)

/-- Analyzes a file tree as far as it can be loaded. -/
def analyze (files : Files.Tree) : State :=
  ((SourceTree.mk files "/").analyze []).2

/-- The analysis of the workspace, which is kept until the workspace changes. -/
def workspace (s : Server) : State × Server :=
  match s.latest with
  | some a => (a, s)
  | none =>
    let a := analyze s.files
    (a, { s with latest := some a })

/-- A server over a file tree with the given checks. -/
def start (disk : Files.Tree) (checks : List Check) : Server :=
  { disk, checks }

/-- The path of a document below the root.  A document outside is taken to the top under its own name. -/
def relativePath (s : Server) (uri : String) : String :=
  let path := uriPath uri
  let inside := if s.root.isEmpty then none else Files.Path.below? s.root path
  match inside.filter fun rel => !rel.startsWith ".." with
  | some rel => rel
  | none => Files.Path.base path

/-- The name of the document at a path below the root. -/
def uriOf (s : Server) (path : String) : String :=
  match s.documents.atPath? path with
  | some d => d.uri
  | none => if s.root.isEmpty then path else pathUri (Files.Path.join [s.root, path])

/-- Puts the content of a document in the place of its file. -/
def lay (s : Server) (d : Document) : Server :=
  { s with overlay := s.overlay.write ("/" ++ d.path) d.content, latest := none }

/-- Makes the file on disk count again. -/
def lift (s : Server) (d : Document) : Server :=
  { s with overlay := s.overlay.remove ("/" ++ d.path), latest := none }

/-! ## Problems -/

/-- The number of a severity. -/
def severityCode : Analysis.Severity → Nat
  | .error => 1
  | .warning => 2
  | .info => 3

/-- The part of a document that a problem is about.  A problem of the whole unit is shown at its start. -/
def diagnosticRange (content : String) (d : Diagnostic) : Range :=
  match d.location with
  | some l =>
    if l.line > 0 then
      let width := match d.node with
        | some (.name n) => n.text.length
        | _ => wordLength content l.line l.col
      .ofPlace l.line l.col width
    else default
  | none => default

/-- A problem that the analysis found. -/
def diagnosticJson (content : String) (d : Diagnostic) : Json :=
  .obj [("range", (diagnosticRange content d).json), ("severity", .num (severityCode d.severity)),
    ("source", .str "ceylon"), ("message", .str d.message)]

/-- A problem that a check found. -/
def findingJson (content : String) (f : Finding) : Json :=
  let width := wordLength content f.place.line f.place.col
  .obj [("range", (Range.ofPlace f.place.line f.place.col width).json),
    ("severity", .num (severityCode (f.severity.getD .warning))), ("code", .str f.check),
    ("source", .str "ceylon-lint"), ("message", .str f.message)]

/-- The problems of a document in an analysis. -/
def problems (s : Server) (a : State) (d : Document) : List Json :=
  match a.unitAt? d.path with
  | none => []
  | some u =>
    (a.unit u).sorted.map (diagnosticJson d.content)
      ++ (Lint.lintUnit s.checks a u).map (findingJson d.content)

/-- The notice about the problems of a document. -/
def problemNotice (uri : String) (problems : List Json) : Notice :=
  ⟨"textDocument/publishDiagnostics", .obj [("uri", .str uri), ("diagnostics", .arr problems)]⟩

/-- Notices, if there is someone to send them to. -/
def sent (s : Server) (notices : List Notice) : List Notice :=
  if s.connected then notices else []

/-- The notices about the problems of all open documents: a change of one may mend or break others. -/
def publish (s : Server) : List Notice × Server :=
  let (a, s) := s.workspace
  (s.sent (s.documents.all.map fun d => problemNotice d.uri (s.problems a d)), s)

/-! ## Events -/

/-- What the server says about itself. -/
def greeting : Json :=
  .obj [
    ("capabilities", .obj [
      ("textDocumentSync", .obj [("openClose", .bool true), ("change", .num 1),
        ("save", .obj [("includeText", .bool false)])]),
      ("completionProvider", .obj []), ("hoverProvider", .bool true),
      ("definitionProvider", .bool true), ("referencesProvider", .bool true),
      ("documentSymbolProvider", .bool true)]),
    ("serverInfo", .obj [("name", .str "ceylon-spec-lsp"), ("version", .str "0.1.0")])]

/-- Begins to serve an editor.  The root of the workspace is given by its name or else by its path. -/
def initialized (s : Server) (rootUri rootPath : Option String) : Server :=
  { s with connected := true, root := ((rootUri.map uriPath) <|> rootPath).getD s.root, latest := none }

/-- A document is opened. -/
def opened (s : Server) (uri : String) (version : Int) (content : String) : List Notice × Server :=
  let d : Document := ⟨uri, version, content, s.relativePath uri⟩
  (lay { s with connected := true, documents := s.documents.insert d } d).publish

/-- A document is changed.  Of several new contents the last one counts.  Nothing is published until the
changes have come to rest. -/
def changed (s : Server) (uri : String) (version : Int) (contents : List String) : Server :=
  let s := { s with connected := true }
  match s.documents.change? uri version (contents.getLastD "") with
  | none => s
  | some (d, documents) => lay { s with documents } d

/-- A document is saved. -/
def saved (s : Server) (uri : String) : List Notice × Server :=
  let s := { s with connected := true }
  if (s.documents.get? uri).isSome then s.publish else ([], s)

/-- A document is closed.  Its problems are no longer shown. -/
def closed (s : Server) (uri : String) : List Notice × Server :=
  let notices := s.sent [problemNotice uri []]
  match s.documents.get? uri with
  | none => (notices, s)
  | some d => (notices, lift { s with documents := s.documents.erase uri } d)

/-- The editor is about to end the server. -/
def exited (s : Server) : Server :=
  { s with exitCodes := s.exitCodes ++ [0] }

/-! ## Questions -/

/-- Answers a question about an open document, if the names in its unit have been resolved. -/
def answer (s : Server) (uri : String) (ask : Server → Document → State → UnitId → Option Json) :
    Option Json × Server :=
  match s.documents.get? uri with
  | none => (none, s)
  | some d =>
    let (a, s) := s.workspace
    let found := (a.unitAt? d.path).filter fun u =>
      (a.unit u).failure.isNone && (a.unit u).phase.atLeast .namesResolved
    (found.bind (ask s d a), s)

/-- A name in a document. -/
def occurrenceJson (s : Server) (o : Occurrence) : Json :=
  .obj [("uri", .str (s.uriOf o.path)), ("range", (nameRange o.name).json)]

/-- What is shown about a position. -/
def hover (s : Server) (uri : String) (p : Position) : Option Json × Server :=
  s.answer uri fun _ _ a u => do
    let text ← hoverText? a u p.sourceLine p.sourceCol
    return .obj [("contents", .obj [("kind", .str "markdown"), ("value", .str text)])]

/-- Where the declaration is that the name at a position stands for. -/
def definition (s : Server) (uri : String) (p : Position) : Option Json × Server :=
  s.answer uri fun s _ a u => do
    let (_, d) ← referenceAt? a u p.sourceLine p.sourceCol
    return s.occurrenceJson (← declaredAt? a d)

/-- Where the name at a position is used for what it stands for, and perhaps where that is declared. -/
def referencesTo (s : Server) (uri : String) (p : Position) (withDeclaration : Bool) :
    Option Json × Server :=
  s.answer uri fun s _ a u => do
    let (_, d) ← referenceAt? a u p.sourceLine p.sourceCol
    let declared := if withDeclaration then (declaredAt? a d).toList else []
    match declared ++ references a d with
    | [] => none
    | os => return .arr (os.map s.occurrenceJson)

/-- The names that can be written at a position. -/
def completion (s : Server) (uri : String) (p : Position) : Option Json × Server :=
  s.answer uri fun _ d a u =>
    let start := wordBefore d.content p.line.toNat p.character.toNat
    some (.arr ((completions a u p.sourceLine p.sourceCol start).map fun (name, d) =>
      .obj [("label", .str name), ("kind", .num (SymbolKind.ofDecl a.graph d).completionCode),
        ("detail", .str (a.graph.describe d))]))

mutual

/-- A declaration; members are left out if there are none. -/
def symbolJson (g : Graph) : Symbol → Json
  | .mk _ name d members =>
    let range := (nameRange name).json
    .obj ([("name", .str (g.decl d).name), ("detail", .str (g.describe d)),
        ("kind", .num (SymbolKind.ofDecl g d).code), ("range", range), ("selectionRange", range)]
      ++ match members with
        | [] => []
        | m :: ms => [("children", .arr (symbolJson g m :: symbolsJson g ms))])

/-- Declarations. -/
def symbolsJson (g : Graph) : List Symbol → List Json
  | [] => []
  | s :: ss => symbolJson g s :: symbolsJson g ss

end

/-- The declarations of a document. -/
def symbols (s : Server) (uri : String) : Option Json × Server :=
  s.answer uri fun _ _ a u => some (.arr (symbolsJson a.graph (a.symbols u)))

end Server

end Ceylon.Editor
