import Ceylon.Model.Graph

/-!
# The language module's declarations

The declarations that the type system itself refers to, found by name in the language package, and the
types built from them: optional types, sequences, and their elements.
-/

namespace Ceylon.Model

/-- The path of the language package. -/
def languagePath : List String :=
  ["ceylon", "language"]

/-- The declarations of the language module that the type system refers to. -/
structure Builtins where
  package : PackageId
  void : DeclId
  object : DeclId
  identifiableObject : DeclId
  nothing : DeclId
  bottom : DeclId
  boolean : DeclId
  comparison : DeclId
  string : DeclId
  integer : DeclId
  float : DeclId
  character : DeclId
  quoted : DeclId
  entry : DeclId
  range : DeclId
  equality : DeclId
  comparable : DeclId
  ordinal : DeclId
  numeric : DeclId
  slots : DeclId
  container : DeclId
  category : DeclId
  iterable : DeclId
  correspondence : DeclId
  sequence : DeclId
deriving Inhabited

namespace Builtins

/-- Adds the bottom type to the language package and finds the other declarations in it; the bottom type
stands for those that it does not have. -/
def load (g : Graph) (package : PackageId) : Builtins × Graph :=
  let (bottom, extended) := g.declare
    { name := "Bottom", scope := [.package package], unit := none, node := none, shared := true
      shape := .ofClass {} none false true }
  let find (name : String) : DeclId := (g.directMember? (.package package) name .any).getD bottom
  ({ package
     void := find "Void"
     object := find "Object"
     identifiableObject := find "IdentifiableObject"
     nothing := find "Nothing"
     bottom
     boolean := find "Boolean"
     comparison := find "Comparison"
     string := find "String"
     integer := find "Integer"
     float := find "Float"
     character := find "Character"
     quoted := find "Quoted"
     entry := find "Entry"
     range := find "Range"
     equality := find "Equality"
     comparable := find "Comparable"
     ordinal := find "Ordinal"
     numeric := find "Numeric"
     slots := find "Slots"
     container := find "Container"
     category := find "Category"
     iterable := find "Iterable"
     correspondence := find "Correspondence"
     sequence := find "Sequence" }, extended)

/-- A declaration without arguments, as a type. -/
def plain (d : DeclId) : Ty :=
  .applied ⟨d, []⟩

/-- A sequence of elements of a type. -/
def sequenceOf (b : Builtins) (element : Ty) : Ty :=
  .applied ⟨b.sequence, [element]⟩

/-- A type or nothing. -/
def optional (b : Builtins) (h : Hierarchy) (t : Ty) : Ty :=
  h.unite [plain b.nothing, t]

/-- Whether a type admits nothing. -/
def isOptional (b : Builtins) (h : Hierarchy) (t : Ty) : Bool :=
  h.subtype (plain b.nothing) t

/-- A type without its case for nothing. -/
def definite (b : Builtins) (h : Hierarchy) (t : Ty) : Ty :=
  match t with
  | .unknown => .unknown
  | .applied a => if a.decl = b.nothing then plain b.bottom else t
  | .union cases _ =>
    match cases.filter (·.decl ≠ b.nothing) with
    | [] => plain b.bottom
    | cases => h.unite (cases.map .applied)

/-- The argument at place `i` of the supertype of `t` for a declaration. -/
def typeArg (h : Hierarchy) (t : Ty) (d : DeclId) (i : Nat) : Ty :=
  match h.supertype? t d with
  | none => .unknown
  | some st => st.args.getD i .unknown

/-- The type of the elements that a type iterates over. -/
def element (b : Builtins) (h : Hierarchy) (t : Ty) : Ty :=
  typeArg h t b.iterable 0

/-- The types of the key and the item of an entry. -/
def keyItem (b : Builtins) (h : Hierarchy) (t : Ty) : Ty × Ty :=
  (typeArg h t b.entry 0, typeArg h t b.entry 1)

end Builtins

end Ceylon.Model
