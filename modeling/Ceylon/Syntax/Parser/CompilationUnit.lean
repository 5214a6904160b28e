import Ceylon.Syntax.Numbering
import Ceylon.Syntax.Parser.Stmt

/-!
# Parsing compilation units

The entry points: `parseUnit` parses a source file and `parseExpr` a single expression, as typed at a
prompt.  `readUnit` also gives what stands before the fault of a faulty file.
-/

namespace Ceylon.Syntax

open Text (Glyph)
open Token (Buffer Kind)

namespace Parser

/-- The further segments of a path, each behind its point. -/
def segmentsWithin : (depth : Nat) → Parser (List Name)
  | 0 => fail .tooDeep
  | depth + 1 => do
    if ← accept .member then return (← lowerName) :: (← segmentsWithin depth) else return []

/-- A dotted path. -/
def path : Parser Path := do
  let first ← lowerName
  let more ← segmentsWithin (← get).remaining
  return { mark := first.mark, segments := first :: more }

/-- The dependencies of a module. -/
def moduleImportsWithin : (depth : Nat) → Parser (List ModuleImport)
  | 0 => fail .tooDeep
  | depth + 1 => do
    if (← peekKind) = .kwImport then
      let mark : Mark := { pos := (← next).pos }
      let path ← path
      discard (expect .semicolon)
      return { mark, path } :: (← moduleImportsWithin depth)
    else return []

/-- The declaration of a module. -/
def moduleDescriptor : Parser ModuleDescriptor := do
  let mark : Mark := { pos := (← expect .kwModule).pos }
  let path ← path
  discard (expect .braceL)
  let imports ← moduleImportsWithin ((← get).remaining + 1)
  discard (expect .braceR)
  return { mark, path, imports }

/-- Imported names between commas up to the closing brace, which may follow a comma too. -/
def importElementsWithin : (depth : Nat) → Parser (List ImportElement)
  | 0 => fail .tooDeep
  | depth + 1 => do
    if (← peekKind) = .braceR then return []
    let first ← anyName
    let element ← do
      if ← accept .specify then
        pure { mark := first.mark, newName := some first, name := ← anyName }
      else pure { mark := first.mark, newName := none, name := first }
    if ← accept .comma then return element :: (← importElementsWithin depth)
    else return [element]

/-- One import. -/
def importDecl : Parser Import := do
  let mark : Mark := { pos := (← expect .kwImport).pos }
  let path ← path
  discard (expect .braceL)
  let elements ← importElementsWithin ((← get).remaining + 1)
  discard (expect .braceR)
  return { mark, path, elements }

/-- The module that a unit declares, if it begins with one. -/
def moduleHeader : Parser (Option ModuleDescriptor) := do
  if (← peekKind) = .kwModule then return some (← moduleDescriptor) else return none

/-- Whether an import comes next. -/
def atImport : Parser Bool :=
  return (← peekKind) = .kwImport

/-- Whether the text goes on. -/
def inText : Parser Bool :=
  return !(← get).atEnd

/-- Reads items as long as `more` holds.  At a fault the items read before it are kept. -/
def readMany {α : Type} (more : Parser Bool) (item : Parser α) :
    (depth : Nat) → Buffer → List α × Except SyntaxError Buffer
  | 0, b => ([], .error ⟨.tooDeep, b.source, b.peek.pos⟩)
  | depth + 1, b =>
    match more.run b with
    | .error e => ([], .error e)
    | .ok (false, b) => ([], .ok b)
    | .ok (true, b) =>
      match item.run b with
      | .error e => ([], .error e)
      | .ok (a, b) =>
        let (as, outcome) := readMany more item depth b
        (a :: as, outcome)

end Parser

/-- What could be read of a source text. -/
structure Reading where
  /-- The unit; of a faulty text, what stands before the import or declaration with the fault. -/
  unit : CompilationUnit
  fault : Option SyntaxError

/-- A reading that succeeded. -/
def Reading.toExcept (r : Reading) : Except SyntaxError CompilationUnit :=
  match r.fault with
  | none => .ok r.unit
  | some e => .error e

/-- Reads the parts of a unit one after the other, up to the first fault. -/
def readParts (b : Buffer) : Reading :=
  let empty : CompilationUnit :=
    { mark := { pos := b.peek.pos }, placed := b.peek.kind ≠ .error, source := b.source
      module := none, imports := [], body := [], comments := [] }
  match Parser.moduleHeader.run b with
  | .error e => ⟨empty, some e⟩
  | .ok (module, rest) =>
    match Parser.readMany Parser.atImport Parser.importDecl (rest.remaining + 1) rest with
    | (imports, .error e) => ⟨{ empty with module, imports }, some e⟩
    | (imports, .ok rest) =>
      match Parser.readMany Parser.inText Parser.stmt (rest.remaining + 1) rest with
      | (body, .error e) => ⟨{ empty with module, imports, body }, some e⟩
      | (body, .ok _) =>
        ⟨{ empty with module, imports, body, comments := b.comments }, none⟩

/-- Reads a buffer of tokens as a unit and numbers its nodes. -/
def readBuffer (b : Buffer) : Reading :=
  let r := readParts b
  { r with unit := r.unit.number }

/-- Reads a source file as far as it goes. -/
def readUnit (source : Source) (glyphs : List Glyph) : Reading :=
  readBuffer (.ofGlyphs source glyphs)

/-- Parses a buffer of tokens as a unit. -/
def parseBuffer (b : Buffer) : Except SyntaxError CompilationUnit :=
  (readBuffer b).toExcept

/-- Parses a source file. -/
def parseUnit (source : Source) (glyphs : List Glyph) : Except SyntaxError CompilationUnit :=
  (readUnit source glyphs).toExcept

/-- Parses a single expression. -/
def parseExpr (source : Source) (glyphs : List Glyph) : Except SyntaxError Expr := do
  let (x, _) ← Parser.wholeExpr.run (.ofGlyphs source glyphs)
  return x

end Ceylon.Syntax
