import Ceylon.Analysis.State

/-!
# Names

Which declaration a name stands for at a place in a unit, and which names can be used there.  Nested
declarations win over imports, imports over the other members of the package, and those over the language
package.
-/

namespace Ceylon.Analysis

open Model

namespace State

/-- The imports of a unit; without a unit there are none. -/
def importsOf (s : State) : Option UnitId → List Imported
  | none => []
  | some u => (s.unit u).imports

/-- The declaration that a name stands for where the given imports count. -/
def lookupWith? (s : State) (imports : List Imported) (scope : ScopeChain) (name : String)
    (filter : Filter) : Option DeclId :=
  s.graph.lookup? imports name filter scope
    <|> s.graph.directMember? (.package s.builtins.package) name filter

/-- The declaration that a name stands for. -/
def lookup? (s : State) (u : Option UnitId) (scope : ScopeChain) (name : String)
    (filter : Filter) : Option DeclId :=
  s.lookupWith? (s.importsOf u) scope name filter

/-- What a scope adds to the names in use. -/
def namesIn (s : State) (u : Option UnitId) (scope : ScopeId) : List (String × DeclId) :=
  let imports := match scope with
    | .package _ => (s.importsOf u).map fun i => (i.localName, i.decl)
    | _ => []
  imports ++ (s.graph.membersOf scope).toList.map fun d => ((s.graph.decl d).name, d)

/-- The first entry for each name. -/
def firstOfEach (entries : List (String × DeclId)) : List (String × DeclId) :=
  (entries.foldl (fun (seen : Array (String × DeclId)) e =>
    if seen.any (·.1 == e.1) then seen else seen.push e) #[]).toList

/-- The names that can be used in a scope and what they stand for, innermost first. -/
def visible (s : State) (u : Option UnitId) (scope : ScopeChain) : List (String × DeclId) :=
  firstOfEach (scope.flatMap (s.namesIn u) ++ s.namesIn none (.package s.builtins.package))

/-- Whether a member may be referred to from a scope. -/
def isVisible (s : State) (member : DeclId) (scope : ScopeChain) : Bool :=
  let decl := s.graph.decl member
  decl.shared || match decl.scope with
    | [] => false
    | container :: _ => scope.contains container

/-- The declared type whose members are those of a type.  A union has the members of the class that all
its cases extend. -/
def receiver? (s : State) (t : Ty) : Option Applied :=
  match t with
  | .unknown => none
  | .applied a => some a
  | .union cases extended =>
    match s.graph.hierarchy.unite (cases.map .applied) with
    | .union _ extended => extended
    | _ => extended

/-- The member of a type under a name, and the supertype of the type for the declaration that holds the
member. -/
def memberOf? (s : State) (t : Ty) (name : String) (filter : Filter) :
    Option (DeclId × Option Applied) := do
  let recv ← s.receiver? t
  let m ← s.graph.findMember? recv.decl name filter
  match s.graph.containerType? m with
  | none => some (m, none)
  | some container => some (m, s.graph.hierarchy.supertype? (.applied recv) container)

end State

end Ceylon.Analysis
