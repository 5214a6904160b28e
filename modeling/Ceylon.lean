import Ceylon.Analysis.Log
import Ceylon.Command.Check
import Ceylon.Command.Symbols
import Ceylon.Editor.Server
import Ceylon.Lint.Check
import Ceylon.Main
import Ceylon.Prompt.Dialog
import Ceylon.Proofs.Brackets
import Ceylon.Proofs.CallForms
import Ceylon.Proofs.CheckedBodies
import Ceylon.Proofs.CheckedUnits
import Ceylon.Proofs.Coverage
import Ceylon.Proofs.Executions
import Ceylon.Proofs.Formation
import Ceylon.Proofs.Ownership
import Ceylon.Proofs.InputPlaces
import Ceylon.Proofs.Publication
import Ceylon.Proofs.ReadingUnit
import Ceylon.Proofs.Repetition
import Ceylon.Proofs.ResolutionOrder
import Ceylon.Proofs.Sessions
import Ceylon.Proofs.SubtypeTransitivity
import Ceylon.Proofs.SupertypeSearch
import Ceylon.Proofs.Termination
import Ceylon.Proofs.TypeHorizon
import Ceylon.Proofs.UnionNormalForm
import Ceylon.Proofs.Visibility
import Ceylon.Proofs.WriteOnce
import Ceylon.Report.Snippet
import Ceylon.Testing.Expectation
import Ceylon.Text.Regex.Pattern
import Ceylon.Trace.Recording
import Ceylon.Proofs.LanguageModule
import Ceylon.Proofs.ResolvedTypes
import Ceylon.Proofs.ResolvedUnits
import Ceylon.Proofs.LanguageTypes
import Ceylon.Proofs.OptionalOperators
import Ceylon.Proofs.TypeArguments
import Ceylon.Proofs.TypedPrograms
import Ceylon.Proofs.PlacingUnit
import Ceylon.Proofs.MarkedPaths
import Ceylon.Proofs.UnreachableCode
import Ceylon.Proofs.Suppressing
import Ceylon.Proofs.Encounters
import Ceylon.Proofs.Literals
import Ceylon.Proofs.ScannedFiles
import Ceylon.Proofs.Carets
import Ceylon.Proofs.Pairing
import Ceylon.Proofs.UnusedImports
import Ceylon.Proofs.LookingAhead
import Ceylon.Proofs.Rewinding
import Ceylon.Proofs.WrappedExpressions
import Ceylon.Proofs.CheckingOrder
