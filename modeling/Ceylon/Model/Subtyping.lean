import Ceylon.Dialogue
import Ceylon.Model.Type

/-!
# Subtyping

A `Hierarchy` is what types need to know about declarations: their parameters with the variance of each,
and the types they extend and satisfy.  Over a hierarchy, this module decides subtyping, finds the
supertype of a type that applies a given declaration, substitutes type parameters, and normalizes unions.

The operations need each other: an argument of a supertype is compared by subtyping, substituting into a
union normalizes it again, and normalizing drops the cases that are subtypes of others.  So they are one
recursion over the questions they ask each other (`Query`), each answered by its rule (`Hierarchy.step`).
A hierarchy may be cyclic, and may nest a declaration ever deeper in its own supertypes, so the recursion
need not end: `Hierarchy.answerWithin` bounds its depth and answers `none` when the bound is reached.  The
plain operations at the end use a bound that no computation gets to.
-/

namespace Ceylon.Model

open Syntax (Variance)

/-- What types need to know about declarations. -/
structure Hierarchy where
  /-- The name of a declaration. -/
  name : DeclId → String
  /-- The type parameters of a declaration. -/
  params : DeclId → List DeclId
  /-- The variance of a type parameter. -/
  variance : DeclId → Variance
  /-- The type a declaration extends. -/
  extended : DeclId → Option Applied
  /-- The interfaces a declaration satisfies. -/
  satisfied : DeclId → List Applied
  /-- Whether the declaration is a class. -/
  isClass : DeclId → Bool
  /-- Whether the declaration is a type parameter. -/
  isParameter : DeclId → Bool
  /-- Whether the declaration is that of the bottom type. -/
  isBottom : DeclId → Bool

/-- Types bound to type parameters. -/
abbrev Bindings := List (DeclId × Ty)

namespace Hierarchy

/-- The extended and satisfied types of a declaration. -/
def supertypes (h : Hierarchy) (d : DeclId) : List Applied :=
  (h.extended d).toList ++ h.satisfied d

/-- Binds the parameters of a type's declaration to its arguments; unknown arguments bind nothing. -/
def bindings (h : Hierarchy) (t : Applied) : Bindings :=
  ((h.params t.decl).zip t.args).filter fun (_, a) => a.isKnown

/-- A declaration applied to its own parameters. -/
def declared (h : Hierarchy) (d : DeclId) : Applied :=
  ⟨d, (h.params d).map fun p => .applied ⟨p, []⟩⟩

/-- Whether the type is the bottom type. -/
def isBottomType (h : Hierarchy) : Ty → Bool
  | .applied a => h.isBottom a.decl
  | _ => false

end Hierarchy

/-- A question of the type algebra. -/
inductive Query where
  /-- Whether `s` is a subtype of `o`. -/
  | subtype (s o : Ty)
  /-- The most specific supertype of `t` that applies `d`, if there is one.  Declarations in `path` have
  been passed on the way from the type where the search began, and are not entered again. -/
  | search (t : Applied) (d : DeclId) (path : List DeclId)
  /-- The supertype that the cases of a union have in common for `d`. -/
  | common (cases : List Applied) (d : DeclId)
  /-- A type with the bound type parameters replaced throughout. -/
  | substitute (b : Bindings) (t : Ty)
  /-- The union of types in normal form. -/
  | unite (ts : List Ty)
  /-- The most specific class that all cases extend, looked for from `t` upward.  Declarations in `seen`
  have been tried. -/
  | superclass (cases : List Applied) (t : Applied) (seen : List DeclId)

/-- What a question is answered with. -/
abbrev Query.Answer : Query → Type
  | .subtype .. => Bool
  | .search .. => Option Applied
  | .common .. => Option Applied
  | .substitute .. => Ty
  | .unite _ => Ty
  | .superclass .. => Option Applied

/-- A computation that asks questions of the type algebra. -/
abbrev Algebra := Dialogue Query.Answer

namespace Algebra

/-- Asks whether a type is a subtype of another. -/
def subtype (s o : Ty) : Algebra Bool :=
  .ask (.subtype s o) .done

/-- Asks for a supertype. -/
def search (t : Applied) (d : DeclId) (path : List DeclId) : Algebra (Option Applied) :=
  .ask (.search t d path) .done

/-- Asks for the common supertype of cases. -/
def common (cases : List Applied) (d : DeclId) : Algebra (Option Applied) :=
  .ask (.common cases d) .done

/-- Asks for a type with its bound type parameters replaced. -/
def substitute (b : Bindings) (t : Ty) : Algebra Ty :=
  .ask (.substitute b t) .done

/-- Asks for a union. -/
def unite (ts : List Ty) : Algebra Ty :=
  .ask (.unite ts) .done

/-- Asks for the class that cases extend. -/
def superclass (cases : List Applied) (t : Applied) (seen : List DeclId) :
    Algebra (Option Applied) :=
  .ask (.superclass cases t seen) .done

/-- Whether an argument conforms to another one, according to the variance of its parameter.  Unknown
arguments conform to everything. -/
def argumentConforms (variance : Variance) (s o : Ty) : Algebra Bool :=
  if !s.isKnown || !o.isKnown then pure true
  else match variance with
    | .covariant => subtype s o
    | .contravariant => subtype o s
    | .invariant => do if ← subtype s o then subtype o s else pure false

/-- Whether arguments conform.  Missing arguments conform to everything. -/
def argumentsConform : (variances : List Variance) → (ss os : List Ty) → Algebra Bool
  | variance :: variances, s :: ss, o :: os => do
    if ← argumentConforms variance s o then argumentsConform variances ss os else pure false
  | _, _, _ => pure true

/-- Whether all of the types are subtypes of `o`. -/
def allSubtypes (o : Ty) : List Applied → Algebra Bool
  | [] => pure true
  | c :: cs => do
    if ← subtype (.applied c) o then allSubtypes o cs else pure false

/-- Whether `s` is a subtype of one of the types. -/
def anySupertype (s : Applied) : List Applied → Algebra Bool
  | [] => pure false
  | c :: cs => do
    if ← subtype (.applied s) (.applied c) then pure true else anySupertype s cs

/-- The types that are not subtypes of `t`. -/
def notCoveredBy (t : Applied) : List Applied → Algebra (List Applied)
  | [] => pure []
  | c :: cs => do
    let covered ← subtype (.applied c) (.applied t)
    let kept ← notCoveredBy t cs
    pure (if covered then kept else c :: kept)

/-- The supertypes that all of the types have for `d`; none as soon as one of them has none. -/
def searchAll (d : DeclId) : List Applied → Algebra (Option (List Applied))
  | [] => pure (some [])
  | c :: cs => do
    match ← search c d [] with
    | none => pure none
    | some found => return (← searchAll d cs).map (found :: ·)

/-- Replaces bound type parameters throughout types. -/
def substituteAll (b : Bindings) : List Ty → Algebra (List Ty)
  | [] => pure []
  | t :: ts => do
    let t ← substitute b t
    return t :: (← substituteAll b ts)

/-- Replaces bound type parameters in the arguments of a type. -/
def substituteArgs (b : Bindings) (t : Applied) : Algebra Applied :=
  if t.args.isEmpty || b.isEmpty then pure t
  else return ⟨t.decl, ← substituteAll b t.args⟩

end Algebra

namespace Hierarchy

open Ceylon.Model.Algebra

/-- The argument at place `i` of every type that has one there. -/
def argumentsAt (i : Nat) (ts : List Applied) : List Ty :=
  ts.filterMap fun t => t.args[i]?

/-- The rule of subtyping.  Nothing is known of unknown types, so they are subtypes and supertypes of
nothing. -/
def subtypeStep (h : Hierarchy) (s o : Ty) : Algebra Bool :=
  match s, o with
  | .unknown, _ => pure false
  | _, .unknown => pure false
  | .union cases _, o => allSubtypes o cases
  | .applied s, .union cases _ => if h.isBottom s.decl then pure true else anySupertype s cases
  | .applied s, .applied o =>
    if h.isBottom s.decl then pure true
    else do
      match ← search s o.decl [] with
      | none => pure false
      | some sup => argumentsConform ((h.params o.decl).map h.variance) sup.args o.args

/-- The better of two supertypes for one declaration: the more specific one, if both are there. -/
def better : (best found : Option Applied) → Algebra (Option Applied)
  | best, none => pure best
  | none, some found => pure (some found)
  | some best, some found => do
    if ← subtype (.applied found) (.applied best) then pure (some found) else pure (some best)

/-- Searches supertypes one after the other for a better one than `best`. -/
def searchSupertypes (t : Applied) (bindings : Bindings) (d : DeclId) (path : List DeclId) :
    (best : Option Applied) → List Applied → Algebra (Option Applied)
  | best, [] => pure best
  | best, st :: sts => do
    let st ← substituteArgs bindings st
    let found ← search st d (t.decl :: path)
    let best ← better best found
    searchSupertypes t bindings d path best sts

/-- The rule of searching a supertype. -/
def searchStep (h : Hierarchy) (t : Applied) (d : DeclId) (path : List DeclId) :
    Algebra (Option Applied) :=
  if t.decl = d then pure (some t)
  else if path.contains t.decl then pure none
  else searchSupertypes t (h.bindings t) d path none (h.supertypes t.decl)

/-- The argument of a common supertype for one parameter: covariant arguments are united, others must
agree. -/
def commonArgument (variance : Variance) : List Ty → Algebra (Option Ty)
  | [] => pure (some .unknown)
  | a :: as =>
    if variance = .covariant then do return some (← unite (a :: as))
    else pure (if as.all fun b => b.same a then some a else none)

/-- The arguments of a common supertype for the parameters from place `i` on; none as soon as there is
none for one of them. -/
def commonArguments (h : Hierarchy) (sups : List Applied) :
    (i : Nat) → (params : List DeclId) → Algebra (Option (List Ty))
  | _, [] => pure (some [])
  | i, p :: ps => do
    match ← commonArgument (h.variance p) (argumentsAt i sups) with
    | none => pure none
    | some a => return (← commonArguments h sups (i + 1) ps).map (a :: ·)

/-- The rule for the supertype that cases have in common. -/
def commonStep (h : Hierarchy) (cases : List Applied) (d : DeclId) : Algebra (Option Applied) := do
  match ← searchAll d cases with
  | none => pure none
  | some [] => pure none
  | some sups => return (← commonArguments h sups 0 (h.params d)).map fun args => ⟨d, args⟩

/-- Replaces bound type parameters throughout an application, which may be one itself. -/
def substituteApplied (h : Hierarchy) (b : Bindings) (t : Applied) : Algebra Ty :=
  if h.isParameter t.decl then pure ((b.lookup t.decl).getD (.applied t))
  else return .applied (← substituteArgs b t)

/-- Replaces bound type parameters throughout the cases of a union. -/
def substituteCases (h : Hierarchy) (b : Bindings) : List Applied → Algebra (List Ty)
  | [] => pure []
  | c :: cs => do
    let t ← h.substituteApplied b c
    return t :: (← h.substituteCases b cs)

/-- The rule of substitution. -/
def substituteStep (h : Hierarchy) (b : Bindings) (t : Ty) : Algebra Ty :=
  if b.isEmpty then pure t
  else match t with
    | .unknown => pure .unknown
    | .applied a => h.substituteApplied b a
    | .union cases _ => do unite (← h.substituteCases b cases)

/-- Adds a declared type to the cases of a union.  The bottom type and a type that some case covers
already add nothing; cases that the new type covers are dropped. -/
def addCase (h : Hierarchy) (cases : List Applied) (t : Applied) : Algebra (List Applied) :=
  if h.isBottom t.decl then pure cases
  else do
    if ← anySupertype t cases then pure cases
    else return (← notCoveredBy t cases) ++ [t]

/-- Adds declared types to the cases of a union, one after the other. -/
def addCases (h : Hierarchy) : (cases : List Applied) → List Applied → Algebra (List Applied)
  | cases, [] => pure cases
  | cases, t :: ts => do h.addCases (← h.addCase cases t) ts

/-- The rule of union: nothing if there are no types, the only case if one is left, and the bottom type if
there is nothing else. -/
def uniteStep (h : Hierarchy) (ts : List Ty) : Algebra Ty := do
  match ← h.addCases [] (ts.flatMap Ty.cases) with
  | [] => pure ((ts.find? h.isBottomType).getD .unknown)
  | [t] => pure (.applied t)
  | first :: rest => return .union (first :: rest) (← superclass (first :: rest) first [])

/-- The supertype that cases have in common for `d`, if `d` is a class. -/
def commonClass (h : Hierarchy) (cases : List Applied) (d : DeclId) : Algebra (Option Applied) :=
  if h.isClass d then common cases d else pure none

/-- The rule for the class that cases extend. -/
def superclassStep (h : Hierarchy) (cases : List Applied) (t : Applied) (seen : List DeclId) :
    Algebra (Option Applied) :=
  if seen.contains t.decl then pure none
  else do
    match ← h.commonClass cases t.decl with
    | some st => pure (some st)
    | none =>
      match h.extended t.decl with
      | none => pure none
      | some st => do
        let st ← substituteArgs (h.bindings t) st
        superclass cases st (t.decl :: seen)

/-- The rule of each question. -/
def step (h : Hierarchy) : (q : Query) → Algebra q.Answer
  | .subtype s o => h.subtypeStep s o
  | .search t d path => h.searchStep t d path
  | .common cases d => h.commonStep cases d
  | .substitute b t => h.substituteStep b t
  | .unite ts => h.uniteStep ts
  | .superclass cases t seen => h.superclassStep cases t seen

/-- The answer to a question, if it takes no more than `depth` rules on top of each other. -/
def answerWithin (h : Hierarchy) : (depth : Nat) → (q : Query) → Option q.Answer
  | 0, _ => none
  | depth + 1, q => (h.step q).run (h.answerWithin depth)

/-! ## The operations with their usual bound -/

/-- The bound on the depth of type operations, far beyond what fits in memory. -/
def depth : Nat :=
  1000000000000000000

/-- The answer to a question within the usual bound. -/
def answer? (h : Hierarchy) (q : Query) : Option q.Answer :=
  h.answerWithin depth q

/-- Whether `s` is a subtype of `o`. -/
def subtype (h : Hierarchy) (s o : Ty) : Bool :=
  (h.answer? (.subtype s o)).getD false

/-- The most specific supertype of `t` that applies `d`, if there is one. -/
def supertype? (h : Hierarchy) (t : Ty) (d : DeclId) : Option Applied :=
  match t with
  | .unknown => none
  | .applied t => (h.answer? (.search t d [])).join
  | .union cases _ => (h.answer? (.common cases d)).join

/-- Replaces bound type parameters throughout a type. -/
def substitute (h : Hierarchy) (b : Bindings) (t : Ty) : Ty :=
  (h.answer? (.substitute b t)).getD t

/-- The union of types in normal form. -/
def unite (h : Hierarchy) (ts : List Ty) : Ty :=
  (h.answer? (.unite ts)).getD ((ts.find? Ty.isKnown).getD .unknown)

/-- Adds the cases of a type to those of a union. -/
def addToUnion (h : Hierarchy) (cases : List Applied) (t : Ty) : List Applied :=
  ((h.addCases cases t.cases).run h.answer?).getD cases

end Hierarchy

end Ceylon.Model
