import Ceylon.Analysis.Modules
import Ceylon.Analysis.Names

/-!
# Resolving names

Resolving a unit gives its imports and type references meaning, and sets the supertypes and declared
types of its declarations.  The nodes are visited in the order of the text.  A package or a type that does
not exist ends the analysis of the unit; what has been resolved until then stays.

What a unit resolves to depends on the names that binding has declared, which no resolution changes, and in
one place on how far other units are resolved: a union of types is brought into normal form as soon as it
is met, with the supertypes that have been set by then.  So resolving is a dialogue over the bound state
(`State.bound`), and the normal form of a union is one of its questions.
-/

namespace Ceylon.Model

/-- A shape as binding makes it: with neither type nor supertypes. -/
def Shape.bound (s : Shape) : Shape :=
  (s.mapGeneric fun g => { params := g.params }).withType .unknown

/-- A declaration as binding makes it. -/
def Declaration.bound (d : Declaration) : Declaration :=
  { d with shape := d.shape.bound }

/-- The declarations as binding makes them. -/
def Graph.bound (g : Graph) : Graph :=
  { g with decls := g.decls.map Declaration.bound, inferred := {} }

end Ceylon.Model

namespace Ceylon.Analysis

open Model
open Syntax

/-- A unit as far as resolving names depends on it. -/
def UnitState.bound (u : UnitState) : UnitState :=
  { path := u.path, tree := u.tree, package := u.package }

/-- The state as far as resolving names depends on it: what the units declare, and nothing that resolving
or checking finds out. -/
def State.bound (s : State) : State :=
  { graph := s.graph.bound, builtins := s.builtins, units := s.units.map UnitState.bound
    scopes := s.scopes, decls := s.decls }

/-- A step of resolving a unit. -/
inductive ResolveStep where
  /-- Looks up the type recorded for a type reference. -/
  | recall (m : Mark)
  /-- Unites the types of a reference and records the result. -/
  | unite (m : Mark) (ts : List Ty)
  /-- Records the type of a reference. -/
  | record (m : Mark) (t : Ty)
  /-- Records the declaration that a node refers to. -/
  | target (m : Mark) (d : DeclId)
  /-- Reports a problem at a node. -/
  | problem (n : Node) (message : String)
  /-- Imports a declaration. -/
  | import (i : Imported)
  /-- Sets what the declaration of a node extends. -/
  | extend (m : Mark) (t : Applied)
  /-- Adds to what the declaration of a node satisfies. -/
  | satisfy (m : Mark) (t : Applied)
  /-- Sets the declared type of the declaration of a node. -/
  | declare (m : Mark) (t : Ty)

/-- What a step of resolving answers. -/
abbrev ResolveStep.Answer : ResolveStep → Type
  | .recall _ => Option Ty
  | .unite .. => Ty
  | .record .. => Unit
  | .target .. => Unit
  | .problem .. => Unit
  | .import _ => Unit
  | .extend .. => Unit
  | .satisfy .. => Unit
  | .declare .. => Unit

/-- A part of resolving a unit, which a fatal error may end. -/
abbrev Resolve := ExceptT FatalError (Dialogue ResolveStep.Answer)

namespace Resolution

/-- Takes a step. -/
def take (step : ResolveStep) : Resolve step.Answer :=
  ExceptT.lift (.ask step .done)

/-- Reports a problem at a node. -/
def report (n : Node) (message : String) : Resolve Unit :=
  take (.problem n message)

/-- Fits arguments to the number of parameters: surplus ones are dropped, missing ones unknown. -/
def fitArgs (count : Nat) (args : List Ty) : List Ty :=
  args.take count ++ List.replicate (count - args.length) .unknown

/-- What the resolution of a unit works with. -/
structure Context where
  /-- What has been declared. -/
  facts : State
  unit : UnitId
  /-- What the unit imports. -/
  imports : List Imported

/-- The type declaration that the name of a node stands for. -/
def Context.typeNamed? (c : Context) (m : Mark) (name : String) : Option DeclId :=
  c.facts.lookupWith? c.imports (c.facts.scopes.getD ⟨c.unit, m.id⟩ []) name .types

/-- The number of type parameters of a declaration. -/
def Context.arity (c : Context) (d : DeclId) : Nat :=
  (c.facts.graph.decl d).shape.typeParams.length

mutual

/-- The type that a reference stands for, determined on first use. -/
def resolveType (c : Context) : TypeRef → Resolve Ty
  | .base b => return .applied (← resolveBase c b)
  | .union mark first more => do
    match ← take (.recall mark) with
    | some t => return t
    | none => take (.unite mark ((← resolveType c first) :: (← resolveTypes c more)))
  | .optional mark inner => do
    match ← take (.recall mark) with
    | some t => return t
    | none =>
      let t ← resolveType c inner
      take (.unite mark [Builtins.plain c.facts.builtins.nothing, t])

/-- The type that a name with arguments stands for, determined on first use. -/
def resolveBase (c : Context) : BaseType → Resolve Applied
  | { mark, name, args } => do
    match ← take (.recall mark) with
    | some t => return t.cases.headD default
    | none =>
      match c.typeNamed? mark name.text with
      | none =>
        throw ⟨"type declaration does not exist: " ++ name.text,
          some (c.facts.location c.unit name.mark)⟩
      | some d =>
        take (.target mark d)
        let ts ← resolveTypes c args
        if ts.length ≠ c.arity d then
          report (.type (.base { mark, name, args }))
            ("wrong number of type arguments to: " ++ name.text)
        let t : Applied := ⟨d, fitArgs (c.arity d) ts⟩
        take (.record mark (.applied t))
        return t

/-- The types that references stand for. -/
def resolveTypes (c : Context) : List TypeRef → Resolve (List Ty)
  | [] => return []
  | t :: ts => return (← resolveType c t) :: (← resolveTypes c ts)

end

/-- The type that stands in the place of a declaration's type, unless it is to be inferred. -/
def resolveDeclared (c : Context) : DeclaredType → Resolve (Option Ty)
  | .ref t => return some (← resolveType c t)
  | .void mark => do
    match ← take (.recall mark) with
    | some t => return some t
    | none =>
      let t := Builtins.plain c.facts.builtins.void
      take (.record mark t)
      return some t
  | .inferred .. => return none

/-- Gives the declaration of a node its declared type. -/
def setDeclared (c : Context) (m : Mark) (t : DeclaredType) : Resolve Unit := do
  match ← resolveDeclared c t with
  | none => return
  | some t => take (.declare m t)

/-- Sets an interface that the class or interface of a node satisfies. -/
def satisfy (c : Context) (m : Mark) (t : TypeRef) : Resolve Unit := do
  match ← resolveType c t with
  | .applied st =>
    if (c.facts.graph.decl st.decl).shape.isInterface then take (.satisfy m st)
    else
      report (.type t) ("satisfied type is not an interface: " ++ c.facts.graph.appliedText st)
  | _ => report (.type t) "satisfied type must be an interface"

/-- Sets the supertypes of a class.  Outside the language package, a class that extends nothing extends
the class of identifiable objects. -/
def resolveClass (c : Context) (n : ClassDecl) : Resolve Unit := do
  match n.extended with
  | some e =>
    let et ← resolveBase c e.type
    if (c.facts.graph.decl et.decl).shape.isClass then take (.extend n.mark et)
    else
      report (.type (.base e.type))
        ("extended type is not a class: " ++ c.facts.graph.appliedText et)
  | none =>
    if (c.facts.unit c.unit).package ≠ c.facts.builtins.package then
      take (.extend n.mark ⟨c.facts.builtins.identifiableObject, []⟩)
  n.satisfied.forM (satisfy c n.mark)

/-- Sets the supertypes of an interface, which extends the class of objects. -/
def resolveInterface (c : Context) (n : InterfaceDecl) : Resolve Unit := do
  take (.extend n.mark ⟨c.facts.builtins.object, []⟩)
  n.satisfied.forM (satisfy c n.mark)

/-- Resolves what a node stands for by itself; its children are visited after it. -/
def visit (c : Context) : Node → Resolve Unit
  | .type t => discard (resolveType c t)
  | .voidType mark => discard (resolveDeclared c (.void mark))
  | .stmt (.classDecl n) => resolveClass c n
  | .stmt (.interfaceDecl n) => resolveInterface c n
  | .typeParameter p => take (.extend p.mark ⟨c.facts.builtins.void, []⟩)
  | .stmt (.method n) => setDeclared c n.mark n.type
  | .stmt (.attribute n) => setDeclared c n.mark n.type
  | .stmt (.getter n) => setDeclared c n.mark n.type
  | .variable v => setDeclared c v.mark v.type
  | .parameter p => do
    let t ← resolveType c p.type
    take (.declare p.mark (if p.sequenced then c.facts.builtins.sequenceOf t else t))
  | _ => return

/-- Resolves one imported name of a package.  The answer is what has been imported so far. -/
def resolveElement (f : State) (u : UnitId) (package : PackageId) (imports : List Imported)
    (e : ImportElement) : Resolve (List Imported) := do
  match f.graph.directMember? (.package package) e.name.text .any with
  | none =>
    report (.name e.name) ("imported declaration not found: " ++ e.name.text)
    return imports
  | some d =>
    if !(f.graph.decl d).shared && package ≠ (f.unit u).package then
      report (.name e.name) ("imported declaration is not shared: " ++ e.name.text)
    let name := e.localName
    if imports.any fun i => i.localName == name then
      report (.importElement e) ("duplicate import: " ++ name)
      return imports
    else
      let i : Imported := ⟨name, d, e⟩
      take (.import i)
      take (.target e.mark d)
      return imports ++ [i]

/-- Resolves one import of a unit. -/
def resolveImport (f : State) (u : UnitId) (imports : List Imported) (i : Import) :
    Resolve (List Imported) := do
  match f.graph.reachable? (f.moduleOf (f.unit u).package) i.path.names with
  | none => throw ⟨"package not found: " ++ i.path.text, some (f.location u i.path.mark)⟩
  | some package => i.elements.foldlM (resolveElement f u package) imports

/-- Resolves the imports of a unit, and then its nodes in the order of the text. -/
def resolveUnit (f : State) (u : UnitId) (tree : CompilationUnit) : Resolve Unit := do
  let imports ← tree.imports.foldlM (resolveImport f u) []
  tree.outline.nodes.forM (visit ⟨f, u, imports⟩)

/-! ## Taking the steps -/

/-- Changes the shape of the declaration that a node makes. -/
def modifyDeclOf (u : UnitId) (m : Mark) (f : Shape → Shape) : Analyze Unit :=
  modify fun s =>
    match s.decls[(⟨u, m.id⟩ : NodeId)]? with
    | none => s
    | some d => { s with graph := s.graph.modifyShape d f }

end Resolution

/-- Records the type of a type reference. -/
def State.recordRef (s : State) (k : NodeId) (t : Ty) : State :=
  { s with types := { s.types with refs := s.types.refs.insert k t } }

namespace Resolution

/-- Takes a step of resolving a unit. -/
def perform (u : UnitId) : (step : ResolveStep) → Analyze step.Answer
  | .recall m => modifyGet fun s => (s.types.refs[(⟨u, m.id⟩ : NodeId)]?, s)
  | .unite m ts => modifyGet fun s =>
    let t := s.graph.hierarchy.unite ts
    (t, s.recordRef ⟨u, m.id⟩ t)
  | .record m t => modify (·.recordRef ⟨u, m.id⟩ t)
  | .target m d => setTarget u m d
  | .problem n message => Analysis.report u n message
  | .import i => modifyUnit u fun unit => { unit with imports := unit.imports ++ [i] }
  | .extend m t => modifyDeclOf u m (·.mapGeneric fun g => { g with extended := some t })
  | .satisfy m t =>
    modifyDeclOf u m (·.mapGeneric fun g => { g with satisfied := g.satisfied ++ [t] })
  | .declare m t => modifyDeclOf u m (·.withType t)

end Resolution

/-- Resolves the names of a unit, unless that has been done.  The answer is the failure of the unit.
The unit has to be bound before.  With one that never was, this goes on as with any other and finds nothing declared;
where what binding makes of a unit is reached by a reference, there is none to follow, and such a call ends the whole
analysis with a fault. -/
def resolveNames (u : UnitId) : Analyze (Option Failure) := do
  let s ← get
  let unit := s.unit u
  if unit.failure.isSome then return unit.failure
  if unit.phase.atLeast .namesResolved then return none
  logStep u .namesResolved "resolving names"
  match ← (Resolution.resolveUnit s.bound u unit.tree).run.run (Resolution.perform u) with
  | .ok () =>
    setPhase u .namesResolved
    return none
  | .error e =>
    fail u (.fatal e)
    return some (.fatal e)

end Ceylon.Analysis
