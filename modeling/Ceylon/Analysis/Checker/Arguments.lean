import Ceylon.Analysis.Checker.Basic

/-!
# Checking arguments

Arguments are matched with parameters, by place or by name; the type arguments that an invocation does not
give are inferred from them.
-/

namespace Ceylon.Analysis

open Model
open Syntax

/-- The arguments of an invocation with their types. -/
inductive TypedArguments where
  | positional (list : PositionalArgs) (args : List Typed)
  | named (list : NamedArgs) (args : List (Name × Typed)) (sequenced : List Typed)

/-- Whether a problem has been reported in the arguments. -/
def TypedArguments.faulty : TypedArguments → Bool
  | .positional _ args => args.any (·.faulty)
  | .named _ args sequenced => args.any (·.2.faulty) || sequenced.any (·.faulty)

/-! ## Inferring type arguments -/

mutual

/-- Matches the type of an argument with that of its parameter, and collects the candidates for the wanted
type parameters.  Cases of the argument that a concrete case of a union covers are left out; the others go
to its type parameters. -/
def candidates (h : Hierarchy) (want : List DeclId) : (param : Ty) → (arg : Ty) → Bindings
  | .unknown, _ => []
  | .applied p, arg => appliedCandidates h want p arg
  | .union cases _, arg =>
    let params := cases.filter fun c => h.isParameter c.decl
    let concrete := cases.filter fun c => !h.isParameter c.decl
    let rest := arg.cases.filter fun a =>
      !concrete.any fun c => h.subtype (.applied a) (.applied c)
    if rest.isEmpty then []
    else params.flatMap fun p =>
      if want.contains p.decl then [(p.decl, h.unite (rest.map .applied))] else []

/-- What an argument binds in a declared parameter type: the parameter that the type is, or those in the
arguments of the type. -/
def appliedCandidates (h : Hierarchy) (want : List DeclId) :
    (param : Applied) → (arg : Ty) → Bindings
  | { decl, args }, arg =>
    if h.isParameter decl then if want.contains decl then [(decl, arg)] else []
    else match h.supertype? arg decl with
      | none => []
      | some st => argumentCandidates h want args st.args

/-- What type arguments bind in the type arguments they stand for; unknown ones bind nothing. -/
def argumentCandidates (h : Hierarchy) (want : List DeclId) :
    (params args : List Ty) → Bindings
  | p :: ps, a :: as =>
    (if a.isKnown then candidates h want p a else []) ++ argumentCandidates h want ps as
  | _, _ => []

end

/-- The type of the elements of a sequenced parameter. -/
def sequenceElement (s : State) (t : Ty) : Ty :=
  Builtins.typeArg s.graph.hierarchy t s.builtins.sequence 0

/-- The last parameter, if it is sequenced. -/
def sequencedParam? (s : State) (params : List DeclId) : Option DeclId :=
  params.getLast?.filter fun p => match (s.graph.decl p).shape with
    | .parameter _ _ sequenced => sequenced
    | _ => false

/-- The parameter with the given name. -/
def paramNamed? (s : State) (params : List DeclId) (name : String) : Option DeclId :=
  params.find? fun p => (s.graph.decl p).name == name

/-- An argument with the type of the parameter it goes to. -/
structure Pairing where
  expected : Ty
  actual : Ty

/-- Pairs positional arguments with parameters, as far as there are both; a sequenced parameter takes all
that are left. -/
def pairPositional (s : State) : (params : List DeclId) → (args : List Typed) → List Pairing
  | p :: ps, a :: as =>
    match (s.graph.decl p).shape with
    | .parameter type _ true => (a :: as).map fun a => ⟨sequenceElement s type, a.type⟩
    | shape => ⟨shape.type, a.type⟩ :: pairPositional s ps as
  | _, _ => []

/-- Pairs named arguments with parameters. -/
def pairNamed (s : State) (params : List DeclId) (args : List (Name × Typed))
    (sequenced : List Typed) : List Pairing :=
  let named := args.filterMap fun (name, a) =>
    (paramNamed? s params name.text).map fun p => ⟨(s.graph.decl p).shape.type, a.type⟩
  let rest := match sequencedParam? s params with
    | none => []
    | some p => sequenced.map fun a =>
      ⟨sequenceElement s (s.graph.decl p).shape.type, a.type⟩
  named ++ rest

/-- Pairs arguments with parameters. -/
def TypedArguments.pair (s : State) (params : List DeclId) : TypedArguments → List Pairing
  | .positional _ args => pairPositional s params args
  | .named _ args sequenced => pairNamed s params args sequenced

/-- Binds the type parameters that are not bound yet to the candidates found for them.  One that has none
is reported, unless the type of an argument is unknown. -/
def bindFound (f : State) (x : Expr) (found : Bindings) (hasUnknown : Bool) :
    (bound : Bindings) → (typeParams : List DeclId) → Rule Bindings
  | bound, [] => return bound
  | bound, tp :: tps => do
    if (bound.lookup tp).isSome then bindFound f x found hasUnknown bound tps
    else match found.filterMap fun (d, t) => if d = tp then some t else none with
      | [] =>
        if !hasUnknown then
          reportAt (.expr x) ("could not infer type argument: " ++ (f.graph.decl tp).name)
        bindFound f x found hasUnknown bound tps
      | ts =>
        bindFound f x found hasUnknown (bound ++ [(tp, f.graph.hierarchy.unite ts)]) tps

/-- Binds the type parameters that are not bound yet, from the types of the arguments. -/
def inferTypeArguments (f : State) (x : Expr) (typeParams params : List DeclId)
    (args : TypedArguments) (bound : Bindings) : Rule Bindings :=
  let pairs := args.pair f params
  let hasUnknown := pairs.any fun p => !p.actual.isKnown
  let found := pairs.flatMap fun p =>
    if p.actual.isKnown then candidates f.graph.hierarchy typeParams p.expected p.actual else []
  bindFound f x found hasUnknown bound typeParams

/-! ## Matching arguments -/

/-- Reports an argument that is not assignable to the type of its parameter. -/
def argumentAssignable (f : State) (a : Typed) (param : DeclId) (expected : Ty) (what : String) :
    Rule Unit :=
  if a.type.isKnown && expected.isKnown && !f.graph.hierarchy.subtype a.type expected then
    reportAt (.expr a.expr) (what ++ " not assignable to parameter type: "
      ++ (f.graph.decl param).name ++ " since " ++ f.typeText a.type ++ " is not "
      ++ f.typeText expected)
  else return

/-- Matches positional arguments with parameters from left to right.  A sequenced parameter takes all
arguments that are left. -/
def matchPositional (f : State) (list : PositionalArgs) (bound : Bindings) :
    (params : List DeclId) → (args : List Typed) → Rule Unit
  | [], args => args.forM fun a => reportAt (.expr a.expr) "no matching parameter for argument"
  | p :: ps, args => do
    let decl := f.graph.decl p
    let expected := f.graph.hierarchy.substitute bound decl.shape.type
    match decl.shape, args with
    | .parameter _ _ true, args =>
      let element := sequenceElement f expected
      args.forM fun a => argumentAssignable f a p element "argument"
    | .parameter _ defaulted false, [] =>
      if !defaulted then
        reportAt (.positionalArgs list) ("no argument to parameter: " ++ decl.name)
      matchPositional f list bound ps []
    | _, [] => matchPositional f list bound ps []
    | _, a :: as =>
      argumentAssignable f a p expected "argument"
      matchPositional f list bound ps as

/-- Matches named arguments with parameters.  The answer is the names given so far. -/
def matchNamed (f : State) (bound : Bindings) (params : List DeclId) :
    (given : List String) → (args : List (Name × Typed)) → Rule (List String)
  | given, [] => return given
  | given, (name, a) :: args => do
    if given.contains name.text then
      reportAt (.name name) ("duplicate named argument: " ++ name.text)
      matchNamed f bound params given args
    else
      match paramNamed? f params name.text with
      | none => reportAt (.name name) ("no matching parameter for named argument: " ++ name.text)
      | some p =>
        let expected := f.graph.hierarchy.substitute bound (f.graph.decl p).shape.type
        argumentAssignable f a p expected "named argument"
      matchNamed f bound params (name.text :: given) args

/-- Matches the sequenced arguments of a named list with the last parameter. -/
def matchSequenced (f : State) (bound : Bindings) (params : List DeclId) (given : List String)
    (arg : SequencedArg) (args : List Typed) : Rule (List String) := do
  match sequencedParam? f params with
  | none =>
    reportAt (.sequencedArg arg) "no matching sequenced parameter"
    return given
  | some p =>
    let decl := f.graph.decl p
    let element := sequenceElement f (f.graph.hierarchy.substitute bound decl.shape.type)
    args.forM fun a => argumentAssignable f a p element "argument"
    return decl.name :: given

/-- Reports a parameter that a named list must give an argument and does not. -/
def requireArgument (f : State) (list : NamedArgs) (given : List String) (p : DeclId) :
    Rule Unit :=
  let decl := f.graph.decl p
  let required := match decl.shape with
    | .parameter _ defaulted sequenced => !defaulted && !sequenced
    | _ => true
  if required && !given.contains decl.name then
    reportAt (.namedArgs list) ("missing named argument to parameter: " ++ decl.name)
  else return

/-- Matches arguments with parameters, and reports what does not fit and what is missing. -/
def matchArguments (f : State) (params : List DeclId) (args : TypedArguments) (bound : Bindings) :
    Rule Unit := do
  match args with
  | .positional list args => matchPositional f list bound params args
  | .named list args sequenced =>
    let given ← matchNamed f bound params [] args
    let given ← match list.sequenced with
      | none => pure given
      | some arg => matchSequenced f bound params given arg sequenced
    params.forM (requireArgument f list given)

end Ceylon.Analysis
