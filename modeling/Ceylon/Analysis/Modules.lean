import Ceylon.Analysis.State

/-!
# Modules

A unit that declares a module claims its directory, and all packages at or below it, for that module.
Packages that no module claims belong to the default module.
-/

namespace Ceylon.Analysis

open Model
open Syntax (Node)

/-- The module of a package. -/
def State.moduleOf (s : State) (p : PackageId) : ModuleId :=
  (s.graph.package p).module.getD defaultModule

/-- The module with the given name: the language module, or a declared one. -/
def State.findModule? (s : State) (name : List String) : Option ModuleId :=
  (languageModule :: s.declared).find? fun m => (s.graph.module m).name == name

/-- Adds a module. -/
def addModule (m : Module) : Analyze ModuleId := do
  let id : ModuleId := ⟨(← get).graph.modules.size⟩
  modifyGraph fun g => { g with modules := g.modules.push m }
  return id

/-- Adds the module that a unit declares.  The unit's package becomes part of it, unless it is part of a
module already. -/
def addDeclared (u : UnitId) (name : List String) (claimed : PathStack ModuleId) :
    Analyze Unit := do
  let unit := (← get).unit u
  let m ← addModule { name, descriptor := if unit.isBound then some u else none }
  modify fun s =>
    { s with declared := s.declared ++ [m], stack := s.stack.map fun _ => claimed }
  if ((← get).graph.package unit.package).module.isNone then
    modifyGraph (·.addPackage m unit.package)

/-- Declares the module of a descriptor unit at the current directory.  Other units pass unchanged.  The
answer is the failure of the unit, which ends the analysis of the tree. -/
def resolveModule (u : UnitId) : Analyze (Option Failure) := do
  let s ← get
  let unit := s.unit u
  if unit.failure.isSome then return unit.failure
  if unit.phase.atLeast .moduleResolved then return none
  match unit.tree.module with
  | none =>
    setPhase u .moduleResolved
    return none
  | some descriptor =>
    logStep u .moduleResolved "declaring module"
    let stack := s.stack.getD ((s.graph.package unit.package).name.foldl PathStack.push {})
    match stack.define ⟨s.graph.modules.size⟩ with
    | .error fault =>
      let failure := Failure.fatal ⟨fault.message, some (s.location u descriptor.mark)⟩
      fail u failure
      return some failure
    | .ok claimed =>
      if descriptor.path.text ≠ stack.name then
        report u (.path descriptor.path)
          ("module name does not match descriptor location: " ++ descriptor.path.text)
      addDeclared u stack.segments claimed
      setPhase u .moduleResolved
      return none

/-- Makes every declared module depend on the language module and on the modules that its descriptor
imports. -/
def resolveDependencies : Analyze Unit := do
  for m in (← get).declared do
    modifyGraph (·.addDependency m languageModule)
    match ((← get).graph.module m).descriptor with
    | none => pure ()
    | some u =>
      let imports := match ((← get).unit u).tree.module with
        | some descriptor => descriptor.imports
        | none => []
      for i in imports do
        match (← get).findModule? i.path.names with
        | none => report u (.path i.path) ("module not found: " ++ i.path.text)
        | some dep =>
          if dep = m then report u (.path i.path) ("module imports itself: " ++ i.path.text)
          else modifyGraph (·.addDependency m dep)
  modifyGraph (·.addDependency defaultModule languageModule)

end Ceylon.Analysis
