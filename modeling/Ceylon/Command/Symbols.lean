import Ceylon.Analysis.Symbols
import Ceylon.Command.Basic
import Ceylon.Text.Yaml

/-!
# The symbols command

Lists the declarations of a source tree with their signatures, unit by unit, as text or for other programs.
-/

namespace Ceylon.Command

open Analysis (State Symbol)
open Model (Graph UnitId)
open Text (Json)

/-- The declarations of a unit. -/
structure UnitSymbols where
  file : String
  package : String
  module : String
  symbols : List Symbol
deriving Inhabited

/-- The declarations of all units but those that failed or describe a module. -/
def unitSymbols (s : State) : List UnitSymbols :=
  s.userUnits.filterMap fun u =>
    let unit := s.unit u
    if unit.failure.isSome || unit.isDescriptor then none
    else
      let package := s.graph.package unit.package
      let module := package.module.map fun m => (s.graph.module m).qualifiedName
      some ⟨unit.path, package.qualifiedName, module.getD "", s.symbols u⟩

/-! ## Formats -/

/-- The formats of the list. -/
inductive SymbolFormat where
  | text
  | json
  | yaml
deriving DecidableEq, Repr, Inhabited

/-- The format that a word stands for. -/
def SymbolFormat.ofString? : String → Option SymbolFormat
  | "text" => some .text
  | "json" => some .json
  | "yaml" => some .yaml
  | _ => none

mutual

/-- The signatures of a declaration and its members, those of members indented. -/
def signatures (g : Graph) (margin : String) : Symbol → List String
  | .mk _ _ d members => (margin ++ g.describe d) :: signaturesOf g (margin ++ "  ") members

/-- The signatures of declarations. -/
def signaturesOf (g : Graph) (margin : String) : List Symbol → List String
  | [] => []
  | s :: ss => signatures g margin s ++ signaturesOf g margin ss

end

mutual

/-- A declaration as a value; members are left out if there are none. -/
def symbolJson (g : Graph) : Symbol → Json
  | .mk mark _ d members =>
    .obj ([("name", .str (g.decl d).name), ("kind", .str (g.kindText d)),
        ("signature", .str (g.describe d)), ("line", .num mark.pos.line),
        ("col", .num mark.pos.col)]
      ++ match members with
        | [] => []
        | m :: ms => [("members", .arr (symbolJson g m :: symbolsJson g ms))])

/-- Declarations as values. -/
def symbolsJson (g : Graph) : List Symbol → List Json
  | [] => []
  | s :: ss => symbolJson g s :: symbolsJson g ss

end

namespace UnitSymbols

/-- The declarations of a unit as lines of text under a heading. -/
def lines (g : Graph) (u : UnitSymbols) : List String :=
  let package := if u.package.isEmpty then "<root>" else u.package
  (u.file ++ " (package " ++ package ++ ", module " ++ u.module ++ ")")
    :: signaturesOf g "  " u.symbols

/-- The declarations of a unit as a value, where `none` stands for an empty list. -/
def json (g : Graph) (none : Json) (u : UnitSymbols) : Json :=
  .obj [("file", .str u.file), ("package", .str u.package), ("module", .str u.module),
    ("symbols", if u.symbols.isEmpty then none else .arr (symbolsJson g u.symbols))]

end UnitSymbols

/-- The list in a format. -/
def SymbolFormat.render (f : SymbolFormat) (g : Graph) (us : List UnitSymbols) : String :=
  match f with
  | .text => joinLines (us.flatMap (·.lines g))
  | .json => (Json.arr (us.map (·.json g .null))).pretty
  | .yaml => Text.Yaml.document (.arr (us.map (·.json g (.arr []))))

/-! ## The command -/

/-- The options of the command. -/
def symbolsOptions : List OptionSpec :=
  [{ name := "format", short := some 'f', kind := .word }]

/-- The warnings about what is missing from the list. -/
def symbolsWarnings (a : Analyzed) : List String :=
  let load := a.error.toList.map fun e =>
    Analysis.logLine "warning" "Source tree did not load completely" [("error", e.message)]
  let failed := a.state.userUnits.filter fun u => (a.state.unit u).failure.isSome
  load ++ failed.map fun u =>
    Analysis.logLine "warning" "Skipping unit with errors" [("unit", (a.state.unit u).path)]

/-- Runs the symbols command. -/
def symbols (files : Files.Tree) (settings : Settings) (arguments : List String) :
    Except UsageError Outcome := do
  let a ← readArguments symbolsOptions arguments
  if a.operands.length > 1 then throw (.tooManyArguments 1 a.operands.length)
  let word := a.word "format" "text"
  match SymbolFormat.ofString? word with
  | none => return refused "symbols" "" ("unknown format: " ++ Text.quote word)
  | some format =>
    match analyze files settings (a.operands.headD ".") with
    | .error message => return refused "symbols" "" message
    | .ok analyzed =>
      return {
        stdout := format.render analyzed.state.graph (unitSymbols analyzed.state)
        stderr := analyzed.log ++ joinLines (symbolsWarnings analyzed) }

end Ceylon.Command
