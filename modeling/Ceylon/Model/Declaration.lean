import Std.Data.ExtTreeMap
import Std.Data.ExtTreeSet
import Ceylon.Model.Type
import Ceylon.Syntax.Outline

/-!
# Declarations

What a declaration is, apart from where it stands: its name, the scopes around it, the node it was made
from, and its shape, which holds what only declarations of its kind have.
-/

namespace Ceylon.Model

open Syntax (Node Variance)

/-- A package, by its number in the graph. -/
structure PackageId where
  index : Nat
deriving DecidableEq, Hashable, Repr, Inhabited

/-- A module, by its number in the graph. -/
structure ModuleId where
  index : Nat
deriving DecidableEq, Hashable, Repr, Inhabited

/-- A unit, by its number in the analysis. -/
structure UnitId where
  index : Nat
deriving DecidableEq, Hashable, Repr, Inhabited

/-- A node of one of the units. -/
structure NodeId where
  unit : UnitId
  id : Nat
deriving DecidableEq, Hashable, Repr, Inhabited

/-- A branch or loop body, by its number in the graph. -/
structure BlockId where
  index : Nat
deriving DecidableEq, Hashable, Repr, Inhabited

/-- A namespace that holds declarations. -/
inductive ScopeId where
  | package (p : PackageId)
  | block (b : BlockId)
  | decl (d : DeclId)
deriving DecidableEq, Hashable, Repr, Inhabited

/-! ## Orders of keys

Tables are kept in the order of their keys, so that two tables with the same entries are equal. -/

instance : Ord NodeId :=
  ⟨compareLex (compareOn (·.unit.index)) (compareOn (·.id))⟩

instance : Std.TransOrd NodeId :=
  inferInstanceAs (Std.TransCmp
    (compareLex (compareOn fun k : NodeId => k.unit.index) (compareOn fun k : NodeId => k.id)))

instance : Std.LawfulEqOrd NodeId where
  compare_self := by
    intro k
    have units : compare k.unit.index k.unit.index = .eq := Std.ReflOrd.compare_self
    have ids : compare k.id k.id = .eq := Std.ReflOrd.compare_self
    exact Ordering.then_eq_eq.mpr ⟨units, ids⟩
  eq_of_compare := by
    rintro ⟨⟨u⟩, i⟩ ⟨⟨v⟩, j⟩ same
    obtain ⟨units, ids⟩ := Ordering.then_eq_eq.mp same
    obtain rfl : u = v := Std.LawfulEqOrd.eq_of_compare units
    obtain rfl : i = j := Std.LawfulEqOrd.eq_of_compare ids
    rfl

/-- A number for each scope. -/
def ScopeId.code : ScopeId → Nat
  | .package p => 3 * p.index
  | .block b => 3 * b.index + 1
  | .decl d => 3 * d.index + 2

/-- Different scopes have different numbers. -/
theorem ScopeId.code_injective {s t : ScopeId} (same : s.code = t.code) : s = t := by
  obtain ⟨⟨p⟩⟩ | ⟨⟨b⟩⟩ | ⟨⟨d⟩⟩ := s <;> obtain ⟨⟨p'⟩⟩ | ⟨⟨b'⟩⟩ | ⟨⟨d'⟩⟩ := t <;>
    simp only [ScopeId.code] at same <;> first | omega | (congr; omega)

instance : Ord ScopeId :=
  ⟨compareOn ScopeId.code⟩

instance : Std.TransOrd ScopeId :=
  inferInstanceAs (Std.TransCmp (compareOn ScopeId.code))

instance : Std.LawfulEqOrd ScopeId where
  compare_self := fun {s} => Std.ReflOrd.compare_self (a := s.code)
  eq_of_compare := fun same => ScopeId.code_injective (Std.LawfulEqOrd.eq_of_compare same)

/-- A table of what is known about nodes. -/
abbrev NodeMap (α : Type) := Std.ExtTreeMap NodeId α

/-- A set of nodes. -/
abbrev NodeSet := Std.ExtTreeSet NodeId

/-! ## Declarations -/

/-- A scope with the scopes around it, innermost first; the last one is a package. -/
abbrev ScopeChain := List ScopeId

/-- What generic declarations have: parameters, and the types they extend and satisfy. -/
structure Generic where
  params : List DeclId := []
  extended : Option Applied := none
  satisfied : List Applied := []
deriving Inhabited

/-- What only declarations of one kind have. -/
inductive Shape where
  /-- A class; all but the bottom type have parameters. -/
  | ofClass (generic : Generic) (params : Option (List DeclId)) (abstract bottom : Bool)
  | ofInterface (generic : Generic)
  /-- A method or function, with its result type. -/
  | method (type : Ty) (typeParams params : List DeclId) (void formal : Bool)
  /-- An attribute, a local value, or a variable of a condition or loop. -/
  | value (type : Ty) (isVariable : Bool)
  /-- A computed attribute and its setter. -/
  | getter (type : Ty) (setter : Option DeclId)
  /-- The assigning half of a computed attribute and its getter. -/
  | setter (type : Ty) (getter : Option DeclId)
  | parameter (type : Ty) (defaulted sequenced : Bool)
  | typeParameter (variance : Variance) (generic : Generic)
deriving Inhabited

/-- A declaration. -/
structure Declaration where
  name : String
  /-- The scope it is a member of, and the scopes around that. -/
  scope : ScopeChain
  /-- The unit that declares it; none for the bottom type. -/
  unit : Option UnitId
  /-- The node it was made from; none for the bottom type. -/
  node : Option Node
  shared : Bool
  shape : Shape
deriving Inhabited

namespace Shape

/-- Whether declarations of this shape are types. -/
def isType : Shape → Bool
  | .ofClass .. | .ofInterface .. | .typeParameter .. => true
  | _ => false

/-- Whether declarations of this shape have a type. -/
def isTyped (s : Shape) : Bool :=
  !s.isType

/-- The type that a value, method or parameter has; unknown until it is determined. -/
def type : Shape → Ty
  | .method type .. => type
  | .value type _ => type
  | .getter type _ => type
  | .setter type _ => type
  | .parameter type .. => type
  | _ => .unknown

/-- The shape with the given type. -/
def withType (t : Ty) : Shape → Shape
  | .method _ typeParams params void formal => .method t typeParams params void formal
  | .value _ isVariable => .value t isVariable
  | .getter _ partner => .getter t partner
  | .setter _ partner => .setter t partner
  | .parameter _ defaulted sequenced => .parameter t defaulted sequenced
  | s => s

/-- What the shape holds of a generic declaration. -/
def generic : Shape → Generic
  | .ofClass generic .. => generic
  | .ofInterface generic => generic
  | .typeParameter _ generic => generic
  | _ => {}

/-- The shape with its generic part changed. -/
def mapGeneric (f : Generic → Generic) : Shape → Shape
  | .ofClass generic params abstract bottom => .ofClass (f generic) params abstract bottom
  | .ofInterface generic => .ofInterface (f generic)
  | .typeParameter variance generic => .typeParameter variance (f generic)
  | s => s

/-- The type parameters of a class, interface or method. -/
def typeParams : Shape → List DeclId
  | .method _ typeParams .. => typeParams
  | s => s.generic.params

/-- The shape with one more type parameter. -/
def addTypeParam (p : DeclId) : Shape → Shape
  | .method type typeParams params void formal =>
    .method type (typeParams ++ [p]) params void formal
  | s => s.mapGeneric fun g => { g with params := g.params ++ [p] }

/-- The parameters of a class or method; none if it cannot be invoked. -/
def params? : Shape → Option (List DeclId)
  | .ofClass _ params .. => params
  | .method _ _ params .. => some params
  | _ => none

/-- The shape with the given parameters. -/
def withParams (ps : List DeclId) : Shape → Shape
  | .ofClass generic _ abstract bottom => .ofClass generic (some ps) abstract bottom
  | .method type typeParams _ void formal => .method type typeParams ps void formal
  | s => s

/-- The shape joined to the setter of its getter. -/
def withSetter (d : DeclId) : Shape → Shape
  | .getter type _ => .getter type (some d)
  | s => s

/-- Whether declarations of this shape are classes. -/
def isClass : Shape → Bool
  | .ofClass .. => true
  | _ => false

/-- Whether declarations of this shape are interfaces. -/
def isInterface : Shape → Bool
  | .ofInterface _ => true
  | _ => false

/-- Whether declarations of this shape are getters. -/
def isGetter : Shape → Bool
  | .getter .. => true
  | _ => false

/-- Whether declarations of this shape are type parameters. -/
def isTypeParameter : Shape → Bool
  | .typeParameter .. => true
  | _ => false

end Shape

/-- A test that a declaration must pass to be found. -/
abbrev Filter := Declaration → Bool

/-- Finds types. -/
def Filter.types : Filter :=
  fun d => d.shape.isType

/-- Finds values, methods and parameters. -/
def Filter.values : Filter :=
  fun d => d.shape.isTyped

/-- Finds everything. -/
def Filter.any : Filter :=
  fun _ => true

end Ceylon.Model
