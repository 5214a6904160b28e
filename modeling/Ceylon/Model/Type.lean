import Ceylon.Syntax.Tree

/-!
# Types

A type is a generic declaration applied to arguments, or a union of such applications.  A union keeps
the most specific class that all its cases extend.  `Ty.unknown` stands for a type that could not be
determined; it may also stand for a single argument of an otherwise known type.
-/

namespace Ceylon.Model

/-- A declaration, by its number in the graph of declarations. -/
structure DeclId where
  index : Nat
deriving DecidableEq, Hashable, Repr, Inhabited

mutual

/-- A type. -/
inductive Ty where
  /-- A type that could not be determined. -/
  | unknown
  /-- A declared type. -/
  | applied (a : Applied)
  /-- A union of two or more declared types, with the class all of them extend. -/
  | union (cases : List Applied) (extended : Option Applied)

/-- A generic declaration with its arguments. -/
structure Applied where
  decl : DeclId
  args : List Ty

end

deriving instance Repr for Ty
deriving instance Repr for Applied

instance : Inhabited Ty := ⟨.unknown⟩

instance : Inhabited Applied := ⟨⟨default, []⟩⟩

namespace Ty

/-- Whether the type could be determined. -/
def isKnown : Ty → Bool
  | .unknown => false
  | _ => true

/-- A declared type, or the unknown type where there is none. -/
def ofOption : Option Applied → Ty
  | none => .unknown
  | some a => .applied a

/-- The declared types that make up a type. -/
def cases : Ty → List Applied
  | .unknown => []
  | .applied a => [a]
  | .union cases _ => cases

end Ty

/-! ## Equality -/

mutual

/-- Structural equality.  Each case of a union must be found, in any order, among the cases of the other
one.  With `swapped` the roles of the two types in that search are exchanged. -/
def Ty.equal (swapped : Bool) (a b : Ty) : Bool :=
  match a, b with
  | .unknown, .unknown => true
  | .applied a, .applied b => a.equal swapped b
  | .union as _, .union bs _ =>
    as.length == bs.length &&
      (if swapped then bs.all (fun b => anyEqual as b) else allEqual as bs)
  | _, _ => false
termination_by structural a

/-- Equality of two applications. -/
def Applied.equal (swapped : Bool) (a b : Applied) : Bool :=
  match a with
  | { decl, args } => decl == b.decl && argsEqual swapped args b.args
termination_by structural a

/-- Equality of two argument lists. -/
def argsEqual (swapped : Bool) (as bs : List Ty) : Bool :=
  match as, bs with
  | [], [] => true
  | a :: as, b :: bs => a.equal swapped b && argsEqual swapped as bs
  | _, _ => false
termination_by structural as

/-- Whether each of the first cases is equal to one of the second. -/
def allEqual (as bs : List Applied) : Bool :=
  match as with
  | [] => true
  | a :: as => bs.any (fun b => a.equal true b) && allEqual as bs
termination_by structural as

/-- Whether one of the cases is equal to `b`. -/
def anyEqual (as : List Applied) (b : Applied) : Bool :=
  match as with
  | [] => false
  | a :: as => a.equal false b || anyEqual as b
termination_by structural as

end

/-- Structural equality of types; the order of the cases of a union does not count. -/
def Ty.same (a b : Ty) : Bool :=
  a.equal false b

/-! ## Printing -/

mutual

/-- The text of a type. -/
def Ty.text (name : DeclId → String) : Ty → String
  | .unknown => "<unknown>"
  | .applied a => a.text name
  | .union cases _ => "|".intercalate (casesText name cases)

/-- The text of an application. -/
def Applied.text (name : DeclId → String) : Applied → String
  | { decl, args := [] } => name decl
  | { decl, args := a :: as } =>
    name decl ++ "<" ++ ", ".intercalate (a.text name :: argsText name as) ++ ">"

/-- The texts of arguments. -/
def argsText (name : DeclId → String) : List Ty → List String
  | [] => []
  | a :: as => a.text name :: argsText name as

/-- The texts of the cases of a union. -/
def casesText (name : DeclId → String) : List Applied → List String
  | [] => []
  | a :: as => a.text name :: casesText name as

end

end Ceylon.Model
