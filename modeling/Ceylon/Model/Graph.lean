import Ceylon.Model.Declaration
import Ceylon.Model.Subtyping

/-!
# The graph of declarations

All declarations of a program, the packages and modules they belong to, and the members of every scope in
the order in which they were declared.  Names are looked up outward through a chain of scopes; at the
package, the imports of the unit that asks come before the members of the package.
-/

namespace Ceylon.Model

open Syntax (Node Variance)

/-- A package, named by its directory. -/
structure Package where
  name : List String
  module : Option ModuleId := none
deriving DecidableEq, Inhabited

/-- The dotted name of a package. -/
def Package.qualifiedName (p : Package) : String :=
  ".".intercalate p.name

/-- A module: packages, and the modules it depends on. -/
structure Module where
  name : List String
  packages : List PackageId := []
  dependencies : List ModuleId := []
  /-- Whether this is the module of the packages outside all declared modules. -/
  isDefault : Bool := false
  /-- The unit that declares the module. -/
  descriptor : Option UnitId := none
deriving DecidableEq, Inhabited

/-- The dotted name of a module. -/
def Module.qualifiedName (m : Module) : String :=
  if m.isDefault then "<default>" else ".".intercalate m.name

/-- A declaration that a unit imports, with the name it has there. -/
structure Imported where
  localName : String
  decl : DeclId
  node : Syntax.ImportElement
deriving Inhabited

/-- A branch or loop body: the clause that opens it in a unit, and the scopes around it. -/
structure Body where
  unit : UnitId
  clause : Node
  outer : ScopeChain
deriving Inhabited

/-- A body as messages name it. -/
def Body.text (b : Body) : String :=
  b.clause.text

/-- The declarations of a program. -/
structure Graph where
  decls : Array Declaration := #[]
  blocks : Array Body := #[]
  packages : Array Package := #[]
  modules : Array Module := #[]
  members : Std.ExtTreeMap ScopeId (Array DeclId) := {}
  /-- The types that were inferred for the declarations of nodes; unknown where inference failed. -/
  inferred : NodeMap Ty := {}
deriving Inhabited

namespace Graph

/-- The declaration with the given number. -/
def decl (g : Graph) (d : DeclId) : Declaration :=
  g.decls.getD d.index default

/-- The package with the given number. -/
def package (g : Graph) (p : PackageId) : Package :=
  g.packages.getD p.index default

/-- The module with the given number. -/
def module (g : Graph) (m : ModuleId) : Module :=
  g.modules.getD m.index default

/-- The members of a scope, in the order in which they were declared. -/
def membersOf (g : Graph) (s : ScopeId) : Array DeclId :=
  g.members.getD s #[]

/-- Adds a declaration; it becomes a member of the innermost scope around it. -/
def declare (g : Graph) (d : Declaration) : DeclId × Graph :=
  let id : DeclId := ⟨g.decls.size⟩
  let members := match d.scope with
    | [] => g.members
    | s :: _ => g.members.insert s ((g.members.getD s #[]).push id)
  (id, { g with decls := g.decls.push d, members })

/-- Changes a declaration. -/
def modifyDecl (g : Graph) (d : DeclId) (f : Declaration → Declaration) : Graph :=
  { g with decls := g.decls.modify d.index f }

/-- Changes the shape of a declaration. -/
def modifyShape (g : Graph) (d : DeclId) (f : Shape → Shape) : Graph :=
  g.modifyDecl d fun decl => { decl with shape := f decl.shape }

/-- Opens a branch or loop body. -/
def addBlock (g : Graph) (unit : UnitId) (clause : Node) (outer : ScopeChain) :
    BlockId × Graph :=
  (⟨g.blocks.size⟩, { g with blocks := g.blocks.push ⟨unit, clause, outer⟩ })

/-- The node that a declaration was made from. -/
def nodeOf? (g : Graph) (d : DeclId) : Option NodeId := do
  let decl := g.decl d
  return ⟨← decl.unit, (← decl.node).mark.id⟩

/-- The type that was inferred for a declaration; unknown if there is none. -/
def inferredType (g : Graph) (d : DeclId) : Ty :=
  ((g.nodeOf? d).bind fun k => g.inferred[k]?).getD .unknown

/-- The type of a declaration: the declared one or else the one inferred for it.  The types of parameters
are always declared, and a setter without a getter has none. -/
def typeOf (g : Graph) (d : DeclId) : Ty :=
  let shape := (g.decl d).shape
  if shape.type.isKnown then shape.type
  else match shape with
    | .method .. | .value .. | .getter .. | .setter _ (some _) => g.inferredType d
    | _ => .unknown

/-- The declaration whose type is that of a declaration: the getter of a setter, or else itself. -/
def principal (g : Graph) (d : DeclId) : DeclId :=
  match (g.decl d).shape with
  | .setter _ (some getter) => getter
  | _ => d

/-- What types need to know about the declarations. -/
def hierarchy (g : Graph) : Hierarchy where
  name d := (g.decl d).name
  params d := (g.decl d).shape.typeParams
  variance d := match (g.decl d).shape with
    | .typeParameter variance _ => variance
    | _ => .invariant
  extended d := (g.decl d).shape.generic.extended
  satisfied d := (g.decl d).shape.generic.satisfied
  isClass d := (g.decl d).shape.isClass
  isParameter d := (g.decl d).shape.isTypeParameter
  isBottom d := match (g.decl d).shape with
    | .ofClass _ _ _ bottom => bottom
    | _ => false

/-- The text of a type. -/
def typeText (g : Graph) (t : Ty) : String :=
  t.text fun d => (g.decl d).name

/-- The text of a declared type. -/
def appliedText (g : Graph) (t : Applied) : String :=
  t.text fun d => (g.decl d).name

/-! ## Packages and modules -/

/-- The package whose name is spelled the same with dots, if there is one. -/
def findPackage? (g : Graph) (name : List String) : Option PackageId :=
  let key := ".".intercalate name
  (g.packages.findIdx? fun p => p.qualifiedName == key).map PackageId.mk

/-- Makes a package part of a module. -/
def addPackage (g : Graph) (m : ModuleId) (p : PackageId) : Graph :=
  { g with
    packages := g.packages.modify p.index fun pkg => { pkg with module := some m }
    modules := g.modules.modify m.index fun mod => { mod with packages := mod.packages ++ [p] } }

/-- Makes a module depend on another one, once. -/
def addDependency (g : Graph) (m dep : ModuleId) : Graph :=
  { g with
    modules := g.modules.modify m.index fun mod =>
      if mod.dependencies.contains dep then mod
      else { mod with dependencies := mod.dependencies ++ [dep] } }

/-- The packages of a module, then those of the modules it depends on directly. -/
def allPackages (g : Graph) (m : ModuleId) : List PackageId :=
  let mod := g.module m
  mod.packages ++ mod.dependencies.flatMap fun dep => (g.module dep).packages

/-- The package that a module reaches under the given path. -/
def reachable? (g : Graph) (m : ModuleId) (path : List String) : Option PackageId :=
  (g.allPackages m).find? fun p => (g.package p).name == path

/-! ## Names -/

/-- The first member of a scope with the given name that passes the filter. -/
def directMember? (g : Graph) (s : ScopeId) (name : String) (filter : Filter) : Option DeclId :=
  (g.membersOf s).find? fun d =>
    let decl := g.decl d
    decl.name == name && filter decl

/-- The declaration imported under a name. -/
def imported? (imports : List Imported) (name : String) : Option DeclId :=
  (imports.find? fun i => i.localName == name).map (·.decl)

/-- What the imports contribute to looking up a name in a scope: at a package, the declaration imported
under that name, if it passes the filter. -/
def importedAt? (g : Graph) (s : ScopeId) (imports : List Imported) (name : String)
    (filter : Filter) : Option DeclId :=
  match s with
  | .package _ => (imported? imports name).filter fun d => filter (g.decl d)
  | _ => none

/-- Looks a name up outward through a chain of scopes. -/
def lookup? (g : Graph) (imports : List Imported) (name : String) (filter : Filter) :
    ScopeChain → Option DeclId
  | [] => none
  | s :: outer =>
    g.importedAt? s imports name filter
      <|> g.directMember? s name filter
      <|> g.lookup? imports name filter outer

/-- The innermost class or interface of a chain of scopes. -/
def enclosingType? (g : Graph) : ScopeChain → Option DeclId
  | [] => none
  | .decl d :: outer =>
    let shape := (g.decl d).shape
    if shape.isClass || shape.isInterface then some d else g.enclosingType? outer
  | _ :: outer => g.enclosingType? outer

/-- The type declaration that a declaration is a member of. -/
def containerType? (g : Graph) (d : DeclId) : Option DeclId :=
  match (g.decl d).scope with
  | .decl c :: _ => if (g.decl c).shape.isType then some c else none
  | _ => none

mutual

/-- Searches a member in a type declaration and then in its supertypes, nearest first.  Declarations in
`seen` have been searched; the answer comes with those searched since. -/
def findMemberWithin (g : Graph) (name : String) (filter : Filter) :
    (depth : Nat) → (seen : List DeclId) → (d : DeclId) → List DeclId × Option DeclId
  | 0, seen, _ => (seen, none)
  | depth + 1, seen, d =>
    if seen.contains d then (seen, none)
    else match g.directMember? (.decl d) name filter with
      | some m => (d :: seen, some m)
      | none =>
        findInheritedWithin g name filter depth (d :: seen) (g.hierarchy.supertypes d)

/-- Searches a member in supertypes, one after the other. -/
def findInheritedWithin (g : Graph) (name : String) (filter : Filter) :
    (depth : Nat) → (seen : List DeclId) → List Applied → List DeclId × Option DeclId
  | 0, seen, _ => (seen, none)
  | _ + 1, seen, [] => (seen, none)
  | depth + 1, seen, st :: sts =>
    match findMemberWithin g name filter depth seen st.decl with
    | (seen, some m) => (seen, some m)
    | (seen, none) => findInheritedWithin g name filter depth seen sts

end

/-- A bound on the steps of a search through the supertypes of a declaration: each declaration is entered
once, and from there each of its supertypes is tried. -/
def searchDepth (g : Graph) : Nat :=
  g.decls.foldl (fun n d => n + 2 + d.shape.generic.satisfied.length) 2

/-- The member that a type declaration has or inherits under a name. -/
def findMember? (g : Graph) (d : DeclId) (name : String) (filter : Filter) : Option DeclId :=
  (g.findMemberWithin name filter g.searchDepth [] d).2

end Graph

end Ceylon.Model
