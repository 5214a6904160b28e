import Mathlib.Data.List.Nodup
import Ceylon.Proofs.RuleTypes

/-!
# Which argument goes to which parameter

Matching the arguments of an invocation with parameters is a sequence of steps (`matchSteps`): an argument is
checked against a parameter, or a problem is reported.  Arguments and parameters stand beside their places in
their lists, so that the steps say which is checked against which even where two of them are alike.

When no problem is reported, every argument has been checked against exactly one parameter, and every
parameter that must have an argument has exactly one (`matchArguments_complete`), as long as the form of the
list can address the parameter.  A positional list never comes to a parameter behind a sequenced one, and a
name leads to the first parameter that has it; an argument that others do not get is not missed
(`matchArguments_overlooks`).
-/

namespace Ceylon.Analysis

open Model
open Syntax

/-! ## Rules that report nothing -/

/-- Whether a question reports a problem. -/
def Question.isProblem : Question → Bool
  | .typeOf _ => false
  | .problem .. => true

/-- No problem is reported, whatever the types of declarations are. -/
def Silent {α : Type} (r : Rule α) : Prop :=
  r.Ensures (fun q => q.isProblem = false) (fun _ _ => True) fun _ => True

instance (q : Question) : Inhabited q.Answer :=
  match q with
  | .typeOf _ => inferInstanceAs (Inhabited (Option Ty))
  | .problem .. => inferInstanceAs (Inhabited Unit)

/-- Two rules are silent together if each is. -/
theorem silent_bind {α β : Type} {r : Rule α} {k : Rule β} :
    Silent (r >>= fun _ => k) ↔ Silent r ∧ Silent k := by
  constructor
  · intro h
    induction r with
    | done a => exact ⟨trivial, h⟩
    | ask q next ih =>
      exact ⟨⟨h.1, fun t _ => (ih t (h.2 t trivial)).1⟩, (ih default (h.2 default trivial)).2⟩
  · rintro ⟨hr, hk⟩
    exact hr.bind fun _ _ => hk

/-- Going through a list is silent if each turn is. -/
theorem silent_forM {α : Type} {r : α → Rule Unit} {as : List α} :
    Silent (forM as r) ↔ ∀ a ∈ as, Silent (r a) := by
  induction as with
  | nil => exact ⟨fun _ _ ha => absurd ha List.not_mem_nil, fun _ => trivial⟩
  | cons a as ih => rw [List.forM_cons, silent_bind, ih, List.forall_mem_cons]

/-- A rule that reports is not silent. -/
theorem not_silent_reportAt (n : Node) (message : String) : ¬ Silent (reportAt n message) :=
  fun h => Bool.noConfusion h.1

/-! ## The steps of matching -/

/-- A step of matching arguments with parameters. -/
inductive MatchStep where
  /-- Checks an argument against a parameter that expects the given type. -/
  | check (arg : Typed × Nat) (param : DeclId × Nat) (expected : Ty) (what : String)
  | report (n : Node) (message : String)

/-- What a step does. -/
def MatchStep.rule (f : State) : MatchStep → Rule Unit
  | .check a p expected what => argumentAssignable f a.1 p.1 expected what
  | .report n message => reportAt n message

/-- The places of the argument and the parameter of a check. -/
def MatchStep.places? : MatchStep → Option (Nat × Nat)
  | .check a p _ _ => some (a.2, p.2)
  | .report .. => none

/-- The places of the arguments and parameters that are checked against each other. -/
def matchedPlaces (steps : List MatchStep) : List (Nat × Nat) :=
  steps.filterMap MatchStep.places?

/-- Whether a parameter is sequenced. -/
def State.isSequenced (f : State) (p : DeclId) : Bool :=
  match (f.graph.decl p).shape with
  | .parameter _ _ sequenced => sequenced
  | _ => false

/-- Whether a parameter is neither defaulted nor sequenced. -/
def State.isRequired (f : State) (p : DeclId) : Bool :=
  match (f.graph.decl p).shape with
  | .parameter _ defaulted sequenced => !defaulted && !sequenced
  | _ => false

/-- The type that an invocation expects of a parameter. -/
def State.expectedType (f : State) (bound : Bindings) (p : DeclId) : Ty :=
  f.graph.hierarchy.substitute bound (f.graph.decl p).shape.type

/-- The steps of `matchPositional`. -/
def positionalSteps (f : State) (list : PositionalArgs) (bound : Bindings) :
    (params : List (DeclId × Nat)) → (args : List (Typed × Nat)) → List MatchStep
  | [], args => args.map fun a => .report (.expr a.1.expr) "no matching parameter for argument"
  | p :: ps, args =>
    let expected := f.expectedType bound p.1
    if f.isSequenced p.1 then
      args.map fun a => .check a p (sequenceElement f expected) "argument"
    else match args with
      | [] =>
        let missing := .report (.positionalArgs list)
          ("no argument to parameter: " ++ (f.graph.decl p.1).name)
        (if f.isRequired p.1 then [missing] else []) ++ positionalSteps f list bound ps []
      | a :: as => .check a p expected "argument" :: positionalSteps f list bound ps as

/-- The steps of `matchNamed`. -/
def namedSteps (f : State) (bound : Bindings) (params : List (DeclId × Nat)) :
    (given : List String) → (args : List (Name × Typed × Nat)) → List MatchStep
  | _, [] => []
  | given, (name, a) :: args =>
    if given.contains name.text then
      .report (.name name) ("duplicate named argument: " ++ name.text) ::
        namedSteps f bound params given args
    else
      (match params.find? fun p => (f.graph.decl p.1).name == name.text with
        | none => .report (.name name) ("no matching parameter for named argument: " ++ name.text)
        | some p => .check a p (f.expectedType bound p.1) "named argument") ::
      namedSteps f bound params (name.text :: given) args

/-- The steps of `matchSequenced`. -/
def sequencedSteps (f : State) (bound : Bindings) (params : List (DeclId × Nat)) (arg : SequencedArg)
    (args : List (Typed × Nat)) : List MatchStep :=
  match params.getLast?.filter fun p => f.isSequenced p.1 with
  | none => [.report (.sequencedArg arg) "no matching sequenced parameter"]
  | some p => args.map fun a =>
    .check a p (sequenceElement f (f.expectedType bound p.1)) "argument"

/-- The names given so far after those of some more arguments. -/
def namesGiven : (given : List String) → (names : List String) → List String
  | given, [] => given
  | given, name :: names =>
    namesGiven (if given.contains name then given else name :: given) names

/-- The names that a named list gives arguments to, with that of the sequenced parameter if it gives any
sequenced arguments. -/
def allNamesGiven (f : State) (params : List DeclId) (list : NamedArgs) (args : List (Name × Typed)) :
    List String :=
  match list.sequenced, sequencedParam? f params with
  | some _, some p => (f.graph.decl p).name :: namesGiven [] (args.map (·.1.text))
  | _, _ => namesGiven [] (args.map (·.1.text))

/-- The problem that `requireArgument` reports of a parameter. -/
def missingStep? (f : State) (list : NamedArgs) (given : List String) (p : DeclId) : Option MatchStep :=
  let decl := f.graph.decl p
  let required := match decl.shape with
    | .parameter _ defaulted sequenced => !defaulted && !sequenced
    | _ => true
  if required && !given.contains decl.name then
    some (.report (.namedArgs list) ("missing named argument to parameter: " ++ decl.name))
  else none

/-- The steps for the sequenced arguments of a named list. -/
def restSteps (f : State) (bound : Bindings) (params : List (DeclId × Nat)) (list : NamedArgs)
    (args : List (Typed × Nat)) : List MatchStep :=
  match list.sequenced with
  | none => []
  | some arg => sequencedSteps f bound params arg args

/-- Named arguments beside their places. -/
def placedNamed (args : List (Name × Typed)) : List (Name × Typed × Nat) :=
  args.zipIdx.map fun ((name, a), i) => (name, a, i)

/-- The steps of `matchArguments`. -/
def matchSteps (f : State) (params : List DeclId) (args : TypedArguments) (bound : Bindings) :
    List MatchStep :=
  match args with
  | .positional list args => positionalSteps f list bound params.zipIdx args.zipIdx
  | .named list args sequenced =>
    namedSteps f bound params.zipIdx [] (placedNamed args) ++
    restSteps f bound params.zipIdx list (sequenced.zipIdx args.length) ++
    params.filterMap (missingStep? f list (allNamesGiven f params list args))

section Placed

variable (args : List (Name × Typed))

theorem placedNamed_arguments : (placedNamed args).map (fun a => (a.1, a.2.1)) = args := by
  conv_rhs => rw [← List.zipIdx_map_fst 0 args]
  rw [placedNamed, List.map_map]
  rfl

theorem placedNamed_names : (placedNamed args).map (·.1.text) = args.map (·.1.text) := by
  conv_rhs => rw [← placedNamed_arguments args, List.map_map]
  rfl

theorem placedNamed_places : (placedNamed args).map (·.2) = (args.map (·.2)).zipIdx := by
  rw [placedNamed, List.zipIdx_map, List.map_map]
  rfl

theorem placedNamed_indices : (placedNamed args).map (·.2.2) = List.range' 0 args.length := by
  have hlength : (args.map (·.2)).length = args.length := List.length_map _
  rw [← hlength, ← List.zipIdx_map_snd, ← placedNamed_places, List.map_map]
  rfl

end Placed

/-! ## Matching takes its steps -/

/-- The sequenced parameter, found among parameters with their places. -/
theorem sequencedParam?_map (f : State) (params : List (DeclId × Nat)) :
    sequencedParam? f (params.map (·.1)) =
      (params.getLast?.filter fun p => f.isSequenced p.1).map (·.1) := by
  rw [sequencedParam?, List.getLast?_map, Option.filter_map]
  rfl

/-- A parameter found by its name among parameters with their places. -/
theorem paramNamed?_map (f : State) (params : List (DeclId × Nat)) (name : String) :
    paramNamed? f (params.map (·.1)) name =
      (params.find? fun p => (f.graph.decl p.1).name == name).map (·.1) :=
  List.find?_map ..

/-! ### Positional arguments, one parameter after the other -/

section Positional

variable {f : State} {list : PositionalArgs} {bound : Bindings}

/-- A sequenced parameter is a parameter. -/
theorem exists_shape_of_isSequenced {p : DeclId} (hp : f.isSequenced p) :
    ∃ t defaulted, (f.graph.decl p).shape = .parameter t defaulted true := by
  rw [State.isSequenced] at hp
  split at hp
  · next t defaulted sequenced hshape => exact ⟨t, defaulted, hp ▸ hshape⟩
  · cases hp

/-- A sequenced parameter takes all arguments that are left. -/
theorem matchPositional_sequenced {p : DeclId} (hp : f.isSequenced p) (ps : List DeclId) (args : List Typed) :
    matchPositional f list bound (p :: ps) args = forM args fun a =>
      argumentAssignable f a p (sequenceElement f (f.expectedType bound p)) "argument" := by
  obtain ⟨t, defaulted, hshape⟩ := exists_shape_of_isSequenced hp
  rw [State.expectedType, hshape, matchPositional.eq_def]
  simp only [hshape]
  rfl

/-- Where no arguments are left, a parameter that needs one is reported. -/
theorem matchPositional_nil {p : DeclId} (hp : f.isSequenced p = false) (ps : List DeclId) :
    matchPositional f list bound (p :: ps) [] = (do
      if f.isRequired p then
        reportAt (.positionalArgs list) ("no argument to parameter: " ++ (f.graph.decl p).name)
      matchPositional f list bound ps []) := by
  rw [State.isSequenced] at hp
  rw [State.isRequired]
  cases hshape : (f.graph.decl p).shape with
  | parameter t defaulted sequenced =>
    obtain rfl : sequenced = false := by simpa [hshape] using hp
    cases defaulted <;> simp [matchPositional, hshape]
  | _ => simp [matchPositional, hshape]

/-- Any other parameter takes one argument. -/
theorem matchPositional_cons {p : DeclId} (hp : f.isSequenced p = false) (ps : List DeclId) (a : Typed)
    (args : List Typed) :
    matchPositional f list bound (p :: ps) (a :: args) = (do
      argumentAssignable f a p (f.expectedType bound p) "argument"
      matchPositional f list bound ps args) := by
  rw [State.isSequenced] at hp
  rw [State.expectedType]
  cases hshape : (f.graph.decl p).shape with
  | parameter t defaulted sequenced =>
    obtain rfl : sequenced = false := by simpa [hshape] using hp
    simp [matchPositional, hshape]
  | _ => simp [matchPositional, hshape]

/-- The steps where a sequenced parameter takes what is left. -/
theorem positionalSteps_sequenced {p : DeclId × Nat} (hp : f.isSequenced p.1) (ps : List (DeclId × Nat))
    (args : List (Typed × Nat)) :
    positionalSteps f list bound (p :: ps) args = args.map fun a =>
      .check a p (sequenceElement f (f.expectedType bound p.1)) "argument" := by
  rw [positionalSteps.eq_def]
  exact if_pos hp

/-- The steps where no arguments are left. -/
theorem positionalSteps_nil {p : DeclId × Nat} (hp : f.isSequenced p.1 = false) (ps : List (DeclId × Nat)) :
    positionalSteps f list bound (p :: ps) [] =
      (if f.isRequired p.1 then [.report (.positionalArgs list)
        ("no argument to parameter: " ++ (f.graph.decl p.1).name)] else []) ++
      positionalSteps f list bound ps [] := by
  rw [positionalSteps.eq_def]
  exact if_neg (by simp [hp])

/-- The steps where a parameter takes one argument. -/
theorem positionalSteps_cons {p : DeclId × Nat} (hp : f.isSequenced p.1 = false) (ps : List (DeclId × Nat))
    (a : Typed × Nat) (args : List (Typed × Nat)) :
    positionalSteps f list bound (p :: ps) (a :: args) =
      .check a p (f.expectedType bound p.1) "argument" :: positionalSteps f list bound ps args := by
  rw [positionalSteps.eq_def]
  exact if_neg (by simp [hp])

end Positional

/-- Positional matching is its steps, taken one after another. -/
theorem matchPositional_eq_steps (f : State) (list : PositionalArgs) (bound : Bindings)
    (params : List (DeclId × Nat)) (args : List (Typed × Nat)) :
    matchPositional f list bound (params.map (·.1)) (args.map (·.1)) =
      forM (positionalSteps f list bound params args) (·.rule f) := by
  induction params generalizing args with
  | nil => simp [matchPositional, positionalSteps, MatchStep.rule]
  | cons p ps ih =>
    rw [List.map_cons]
    cases hp : f.isSequenced p.1 with
    | true => simp [matchPositional_sequenced hp, positionalSteps_sequenced hp, MatchStep.rule]
    | false =>
      cases args with
      | nil =>
        have ih_nil : matchPositional f list bound (ps.map (·.1)) [] = _ := ih []
        rw [List.map_nil, matchPositional_nil hp, positionalSteps_nil hp, ih_nil]
        cases f.isRequired p.1 <;> simp [MatchStep.rule]
      | cons a args =>
        rw [List.map_cons, matchPositional_cons hp, positionalSteps_cons hp, ih, List.forM_cons]
        rfl

/-- Named matching is its steps, taken one after another. -/
theorem matchNamed_eq_steps (f : State) (bound : Bindings) (params : List (DeclId × Nat))
    (given : List String) (args : List (Name × Typed × Nat)) :
    matchNamed f bound (params.map (·.1)) given (args.map fun a => (a.1, a.2.1)) = do
      forM (namedSteps f bound params given args) (·.rule f)
      return namesGiven given (args.map (·.1.text)) := by
  induction args generalizing given with
  | nil => rfl
  | cons a args ih =>
    obtain ⟨name, a⟩ := a
    simp only [List.map_cons, matchNamed, namedSteps, namesGiven, paramNamed?_map]
    split
    · rw [List.forM_cons, ih, bind_assoc]
      rfl
    · rw [List.forM_cons, ih, bind_assoc]
      cases params.find? fun p => (f.graph.decl p.1).name == name.text <;> rfl

/-- Matching the sequenced argument is its steps, taken one after another. -/
theorem matchSequenced_eq_steps (f : State) (bound : Bindings) (params : List (DeclId × Nat))
    (given : List String) (arg : SequencedArg) (args : List (Typed × Nat)) :
    matchSequenced f bound (params.map (·.1)) given arg (args.map (·.1)) = do
      forM (sequencedSteps f bound params arg args) (·.rule f)
      return match sequencedParam? f (params.map (·.1)) with
        | none => given
        | some p => (f.graph.decl p).name :: given := by
  rw [matchSequenced, sequencedSteps, sequencedParam?_map]
  cases params.getLast?.filter fun p => f.isSequenced p.1 with
  | none => simp [MatchStep.rule]
  | some p => simp [MatchStep.rule, State.expectedType]

/-- Asking for missing arguments is one step for each parameter that lacks one. -/
theorem requireArgument_eq_steps (f : State) (list : NamedArgs) (given : List String) (params : List DeclId) :
    forM params (requireArgument f list given) =
      forM (params.filterMap (missingStep? f list given)) (·.rule f) := by
  induction params with
  | nil => rfl
  | cons p ps ih =>
    have hp : requireArgument f list given p =
        forM (missingStep? f list given p).toList (·.rule f) := by
      rw [missingStep?, apply_ite Option.toList, apply_ite (forM · (MatchStep.rule f))]
      rfl
    rw [List.forM_cons, ih, hp, List.filterMap_cons]
    cases missingStep? f list given p <;> simp

/-- Matching arguments with parameters is taking its steps one after the other. -/
theorem matchArguments_eq_steps (f : State) (params : List DeclId) (args : TypedArguments) (bound : Bindings) :
    matchArguments f params args bound = forM (matchSteps f params args bound) (·.rule f) := by
  cases args with
  | positional list args =>
    have h := matchPositional_eq_steps f list bound params.zipIdx args.zipIdx
    rwa [List.zipIdx_map_fst, List.zipIdx_map_fst] at h
  | named list args sequenced =>
    have hnamed := matchNamed_eq_steps f bound params.zipIdx [] (placedNamed args)
    have hrest := fun given arg =>
      matchSequenced_eq_steps f bound params.zipIdx given arg (sequenced.zipIdx args.length)
    simp only [List.zipIdx_map_fst, placedNamed_arguments, placedNamed_names] at hnamed hrest
    simp only [matchArguments, matchSteps, restSteps, hnamed, allNamesGiven, List.forM_append,
      List.forM_eq_forM, requireArgument_eq_steps]
    cases hsequenced : list.sequenced with
    | none => simp
    | some arg => cases hparam : sequencedParam? f params <;> simp [hrest, hparam]

/-! ## Steps that report nothing -/

/-- A step that reports nothing. -/
def MatchStep.Passes (f : State) (step : MatchStep) : Prop :=
  Silent (step.rule f)

@[simp] theorem not_passes_report (f : State) (n : Node) (message : String) :
    ¬ (MatchStep.report n message).Passes f :=
  not_silent_reportAt n message

/-- Matching is silent if all its steps pass. -/
theorem silent_matchArguments_iff (f : State) (params : List DeclId) (args : TypedArguments)
    (bound : Bindings) : Silent (matchArguments f params args bound) ↔
      ∀ step ∈ matchSteps f params args bound, step.Passes f := by
  rw [matchArguments_eq_steps, silent_forM]
  rfl

@[simp] theorem matchedPlaces_nil : matchedPlaces [] = [] :=
  rfl

@[simp] theorem matchedPlaces_check (a : Typed × Nat) (p : DeclId × Nat) (expected : Ty) (what : String)
    (steps : List MatchStep) :
    matchedPlaces (.check a p expected what :: steps) = (a.2, p.2) :: matchedPlaces steps :=
  rfl

@[simp] theorem matchedPlaces_append (steps steps' : List MatchStep) :
    matchedPlaces (steps ++ steps') = matchedPlaces steps ++ matchedPlaces steps' :=
  List.filterMap_append

/-- A check of one of the arguments against one of the parameters, for the type of the parameter or, if it is
sequenced, for the type of its elements. -/
def MatchStep.Among (f : State) (bound : Bindings) (params : List (DeclId × Nat)) (args : List (Typed × Nat)) :
    MatchStep → Prop
  | .check a p expected _ => a ∈ args ∧ p ∈ params ∧ (expected = f.expectedType bound p.1 ∨
      f.isSequenced p.1 ∧ expected = sequenceElement f (f.expectedType bound p.1))
  | .report .. => True

section Steps

variable {f : State} {bound : Bindings}

/-- What a step is about stays among more parameters and arguments. -/
theorem MatchStep.Among.mono {params params' : List (DeclId × Nat)} {args args' : List (Typed × Nat)}
    {step : MatchStep} (h : step.Among f bound params args) (hparams : params ⊆ params')
    (hargs : args ⊆ args') : step.Among f bound params' args' :=
  match step, h with
  | .check .., ⟨ha, hp, ht⟩ => ⟨hargs ha, hparams hp, ht⟩
  | .report .., _ => trivial

/-- The places that steps match are those of arguments and parameters. -/
theorem mem_of_mem_matchedPlaces {params : List (DeclId × Nat)} {args : List (Typed × Nat)}
    {steps : List MatchStep} (h : ∀ step ∈ steps, step.Among f bound params args) {k : Nat × Nat}
    (hk : k ∈ matchedPlaces steps) : (∃ a ∈ args, a.2 = k.1) ∧ ∃ p ∈ params, p.2 = k.2 := by
  obtain ⟨step, hstep, hplaces⟩ := List.mem_filterMap.mp hk
  cases step with
  | check a p expected what =>
    obtain rfl : (a.2, p.2) = k := Option.some.inj hplaces
    obtain ⟨ha, hp, -⟩ := h _ hstep
    exact ⟨⟨a, ha, rfl⟩, p, hp, rfl⟩
  | report n message => cases hplaces

/-- Checking several arguments against one parameter. -/
theorem matchedPlaces_map_check (p : DeclId × Nat) (expected : Ty) (what : String) (args : List (Typed × Nat)) :
    matchedPlaces (args.map fun a => .check a p expected what) = args.map fun a => (a.2, p.2) := by
  simp [matchedPlaces, List.filterMap_map, Function.comp_def, MatchStep.places?, List.filterMap_eq_map']

/-! ### Positional arguments -/

variable {list : PositionalArgs}

/-- Positional steps are about the parameters and the arguments. -/
theorem positionalSteps_among (params : List (DeclId × Nat)) (args : List (Typed × Nat)) :
    ∀ step ∈ positionalSteps f list bound params args, step.Among f bound params args := by
  induction params generalizing args with
  | nil =>
    intro step hstep
    obtain ⟨a, -, rfl⟩ := List.mem_map.mp hstep
    trivial
  | cons p ps ih =>
    have hps : ps ⊆ p :: ps := List.subset_cons_self p ps
    -- The first parameter takes all arguments, or one of them if there is one.
    cases hp : f.isSequenced p.1 with
    | true =>
      intro step hstep
      rw [positionalSteps_sequenced hp] at hstep
      obtain ⟨a, ha, rfl⟩ := List.mem_map.mp hstep
      exact ⟨ha, List.mem_cons_self, .inr ⟨hp, rfl⟩⟩
    | false =>
      cases args with
      | nil =>
        intro step hstep
        rw [positionalSteps_nil hp] at hstep
        rcases List.mem_append.mp hstep with hreport | hrest
        · split at hreport
          · obtain rfl := List.mem_singleton.mp hreport
            trivial
          · cases hreport
        · exact (ih [] step hrest).mono hps (List.Subset.refl [])
      | cons a args =>
        rw [positionalSteps_cons hp, List.forall_mem_cons]
        exact ⟨⟨List.mem_cons_self, List.mem_cons_self, .inl rfl⟩, fun step hstep =>
          (ih args step hstep).mono hps (List.subset_cons_self a args)⟩

/-- If nothing is reported, every positional argument is checked against one parameter. -/
theorem positionalSteps_args {params : List (DeclId × Nat)} {args : List (Typed × Nat)}
    (h : ∀ step ∈ positionalSteps f list bound params args, step.Passes f) :
    (matchedPlaces (positionalSteps f list bound params args)).map (·.1) = args.map (·.2) := by
  induction params generalizing args with
  | nil =>
    cases args with
    | nil => rfl
    | cons a args => exact absurd (h _ List.mem_cons_self) (not_passes_report f _ _)
  | cons p ps ih =>
    cases hp : f.isSequenced p.1 with
    -- A sequenced parameter takes all arguments that are left.
    | true => simp [positionalSteps_sequenced hp, matchedPlaces_map_check]
    | false =>
      cases args with
      | nil =>
        rw [positionalSteps_nil hp] at h ⊢
        rw [List.forall_mem_append] at h
        -- Without arguments no required parameter may be left, because each of them reports.
        cases hreq : f.isRequired p.1 with
        | true => simp [hreq] at h
        | false => simpa using ih h.2
      | cons a args =>
        rw [positionalSteps_cons hp] at h ⊢
        simpa using ih (List.forall_mem_cons.mp h).2

/-- If nothing is reported, a required parameter in front of which none is sequenced is checked with one
positional argument. -/
theorem positionalSteps_required {before after : List (DeclId × Nat)} {p : DeclId × Nat}
    {args : List (Typed × Nat)} (hplaces : ((before ++ p :: after).map (·.2)).Nodup)
    (hp : f.isRequired p.1) (hp' : f.isSequenced p.1 = false)
    (hbefore : ∀ q ∈ before, f.isSequenced q.1 = false)
    (h : ∀ step ∈ positionalSteps f list bound (before ++ p :: after) args, step.Passes f) :
    ((matchedPlaces (positionalSteps f list bound (before ++ p :: after) args)).map (·.2)).count p.2 = 1 := by
  induction before generalizing args with
  | nil =>
    rw [List.nil_append] at h ⊢
    cases args with
    | nil => simp [positionalSteps_nil hp', hp] at h
    | cons a args =>
      -- Behind `p` stand other places only.
      have hafter : p.2 ∉ (matchedPlaces (positionalSteps f list bound after args)).map (·.2) := by
        intro hmem
        obtain ⟨k, hk, hkp⟩ := List.mem_map.mp hmem
        obtain ⟨-, q, hq, hqk⟩ := mem_of_mem_matchedPlaces (positionalSteps_among after args) hk
        exact (List.nodup_cons.mp hplaces).1 (List.mem_map.mpr ⟨q, hq, hqk.trans hkp⟩)
      rw [positionalSteps_cons hp', matchedPlaces_check, List.map_cons, List.count_cons_self,
        List.count_eq_zero.mpr hafter]
  | cons q before ih =>
    obtain ⟨hq, hbefore⟩ := List.forall_mem_cons.mp hbefore
    obtain ⟨hqp, hplaces⟩ := List.nodup_cons.mp hplaces
    have hne : q.2 ≠ p.2 := fun heq => hqp (by simp [heq])
    rw [List.cons_append] at h ⊢
    cases args with
    | nil =>
      rw [positionalSteps_nil hq] at h ⊢
      rw [List.forall_mem_append] at h
      cases hreq : f.isRequired q.1 with
      | true => simp [hreq] at h
      | false => simpa using ih hplaces hbefore h.2
    | cons a args =>
      rw [positionalSteps_cons hq] at h ⊢
      rw [matchedPlaces_check, List.map_cons, List.count_cons_of_ne hne]
      exact ih hplaces hbefore (List.forall_mem_cons.mp h).2

/-! ### Named arguments -/

/-- Names are given by position, and then by name. -/
theorem mem_namesGiven {given names : List String} {name : String} :
    name ∈ namesGiven given names ↔ name ∈ given ∨ name ∈ names := by
  induction names generalizing given with
  | nil => simp [namesGiven]
  | cons first names ih =>
    rw [namesGiven, ih]
    by_cases hfirst : first ∈ given
    · have hin : name = first → name ∈ given := fun h => h ▸ hfirst
      simp only [List.contains_iff_mem, hfirst, if_true, List.mem_cons]
      tauto
    · simp only [List.contains_iff_mem, hfirst, if_false, List.mem_cons]
      tauto

/-- If nothing is reported, a named argument has a new name and is checked against the parameter of that
name. -/
theorem namedSteps_cons {params : List (DeclId × Nat)} {given : List String} {name : Name}
    {a : Typed × Nat} {args : List (Name × Typed × Nat)}
    (h : ∀ step ∈ namedSteps f bound params given ((name, a) :: args), step.Passes f) :
    name.text ∉ given ∧ ∃ p, (params.find? fun p => (f.graph.decl p.1).name == name.text) = some p ∧
      namedSteps f bound params given ((name, a) :: args) =
        .check a p (f.expectedType bound p.1) "named argument" ::
          namedSteps f bound params (name.text :: given) args := by
  rw [namedSteps] at h ⊢
  by_cases hgiven : given.contains name.text
  · rw [if_pos hgiven] at h
    exact absurd (h _ List.mem_cons_self) (not_passes_report f _ _)
  · refine ⟨by simpa using hgiven, ?_⟩
    rw [if_neg hgiven] at h ⊢
    cases hp : params.find? fun p => (f.graph.decl p.1).name == name.text with
    | none => simp [hp] at h
    | some p => exact ⟨p, rfl, rfl⟩

/-- Named steps are about the parameters and the arguments. -/
theorem namedSteps_among (params : List (DeclId × Nat)) (given : List String)
    (args : List (Name × Typed × Nat)) :
    ∀ step ∈ namedSteps f bound params given args, step.Among f bound params (args.map (·.2)) := by
  induction args generalizing given with
  | nil => exact fun _ h => absurd h List.not_mem_nil
  | cons a args ih =>
    obtain ⟨name, a⟩ := a
    have hargs : args.map (·.2) ⊆ a :: args.map (·.2) := List.subset_cons_self ..
    rw [namedSteps]
    split
    · exact List.forall_mem_cons.mpr ⟨trivial, fun step hstep =>
        (ih given step hstep).mono (List.Subset.refl params) hargs⟩
    · refine List.forall_mem_cons.mpr ⟨?_, fun step hstep =>
        (ih _ step hstep).mono (List.Subset.refl params) hargs⟩
      cases hp : params.find? fun p => (f.graph.decl p.1).name == name.text with
      | none => trivial
      | some p => exact ⟨List.mem_cons_self, List.mem_of_find?_eq_some hp, .inl rfl⟩

/-- If nothing is reported, every named argument is checked against one parameter. -/
theorem namedSteps_args {params : List (DeclId × Nat)} {given : List String}
    {args : List (Name × Typed × Nat)} (h : ∀ step ∈ namedSteps f bound params given args, step.Passes f) :
    (matchedPlaces (namedSteps f bound params given args)).map (·.1) = args.map (·.2.2) := by
  induction args generalizing given with
  | nil => rfl
  | cons a args ih =>
    obtain ⟨-, p, -, hsteps⟩ := namedSteps_cons h
    rw [hsteps] at h ⊢
    simpa using ih (List.forall_mem_cons.mp h).2

/-- The names given arguments are those of the arguments, and that of a sequenced parameter. -/
theorem mem_allNamesGiven {params : List DeclId} {list : NamedArgs} {args : List (Name × Typed)} {name : String}
    (h : name ∈ allNamesGiven f params list args) :
    name ∈ args.map (·.1.text) ∨ ∃ q ∈ params, f.isSequenced q ∧ (f.graph.decl q).name = name := by
  have hargs : name ∈ namesGiven [] (args.map (·.1.text)) → name ∈ args.map (·.1.text) := fun h =>
    (mem_namesGiven.mp h).resolve_left List.not_mem_nil
  rw [allNamesGiven] at h
  split at h
  · next q _ hq =>
    obtain ⟨hlast, hseq⟩ := Option.filter_eq_some_iff.mp hq
    rcases List.mem_cons.mp h with hname | hname
    · exact .inr ⟨q, List.mem_of_getLast? hlast, hseq, hname.symm⟩
    · exact .inl (hargs hname)
  · exact .inl (hargs h)

/-- If nothing is reported, the names of the arguments are distinct. -/
theorem namedSteps_distinct {params : List (DeclId × Nat)} {given : List String}
    {args : List (Name × Typed × Nat)} (h : ∀ step ∈ namedSteps f bound params given args, step.Passes f) :
    (args.map (·.1.text)).Nodup ∧ ∀ a ∈ args, a.1.text ∉ given := by
  induction args generalizing given with
  | nil => simp
  | cons a args ih =>
    obtain ⟨hfresh, p, -, hsteps⟩ := namedSteps_cons h
    rw [hsteps] at h
    obtain ⟨hdistinct, hgiven⟩ := ih (List.forall_mem_cons.mp h).2
    refine ⟨List.nodup_cons.mpr ⟨fun hmem => ?_, hdistinct⟩,
      List.forall_mem_cons.mpr ⟨hfresh, fun b hb => List.not_mem_of_not_mem_cons (hgiven b hb)⟩⟩
    obtain ⟨b, hb, hba⟩ := List.mem_map.mp hmem
    exact hgiven b hb (by simp [hba])

/-- If nothing is reported, the parameter that a name leads to is checked with all arguments of that name. -/
theorem namedSteps_count {params : List (DeclId × Nat)} {given : List String}
    {args : List (Name × Typed × Nat)} {j : Nat} {name : String}
    (hfind : ∀ n p, (params.find? fun p => (f.graph.decl p.1).name == n) = some p → (p.2 = j ↔ n = name))
    (h : ∀ step ∈ namedSteps f bound params given args, step.Passes f) :
    ((matchedPlaces (namedSteps f bound params given args)).map (·.2)).count j =
      (args.map (·.1.text)).count name := by
  induction args generalizing given with
  | nil => rfl
  | cons a args ih =>
    obtain ⟨-, p, hp, hsteps⟩ := namedSteps_cons h
    rw [hsteps] at h ⊢
    rw [matchedPlaces_check, List.map_cons, List.map_cons, List.count_cons, List.count_cons,
      ih (List.forall_mem_cons.mp h).2]
    simp only [beq_iff_eq, hfind _ p hp]

/-! ### Sequenced arguments -/

/-- Sequenced arguments that pass are all checked against the sequenced parameter. -/
theorem sequencedSteps_eq {params : List (DeclId × Nat)} {arg : SequencedArg} {args : List (Typed × Nat)}
    (h : ∀ step ∈ sequencedSteps f bound params arg args, step.Passes f) :
    ∃ p ∈ params, f.isSequenced p.1 ∧ sequencedSteps f bound params arg args = args.map fun a =>
      .check a p (sequenceElement f (f.expectedType bound p.1)) "argument" := by
  rw [sequencedSteps] at h ⊢
  cases hp : params.getLast?.filter fun p => f.isSequenced p.1 with
  | none => simp [hp] at h
  | some p =>
    obtain ⟨hlast, hseq⟩ := Option.filter_eq_some_iff.mp hp
    exact ⟨p, List.mem_of_getLast? hlast, hseq, rfl⟩

/-- Sequenced steps are about the parameters and the arguments. -/
theorem sequencedSteps_among (params : List (DeclId × Nat)) (arg : SequencedArg) (args : List (Typed × Nat)) :
    ∀ step ∈ sequencedSteps f bound params arg args, step.Among f bound params args := by
  intro step hstep
  rw [sequencedSteps] at hstep
  cases hp : params.getLast?.filter fun p => f.isSequenced p.1 with
  | none =>
    simp only [hp, List.mem_singleton] at hstep
    subst hstep
    trivial
  | some p =>
    rw [hp] at hstep
    obtain ⟨hlast, hseq⟩ := Option.filter_eq_some_iff.mp hp
    obtain ⟨a, ha, rfl⟩ := List.mem_map.mp hstep
    exact ⟨ha, List.mem_of_getLast? hlast, .inr ⟨hseq, rfl⟩⟩

/-! ### Missing arguments -/

/-- A missing argument is reported. -/
theorem exists_report_of_missingStep? {list : NamedArgs} {given : List String} {p : DeclId} {step : MatchStep}
    (h : missingStep? f list given p = some step) : ∃ n message, step = .report n message := by
  rw [missingStep?, Option.ite_none_right_eq_some] at h
  exact ⟨_, _, (Option.some.inj h.2).symm⟩

/-- If nothing is reported, no argument is missing. -/
theorem missingSteps_eq_nil {list : NamedArgs} {given : List String} {params : List DeclId}
    (h : ∀ step ∈ params.filterMap (missingStep? f list given), step.Passes f) :
    params.filterMap (missingStep? f list given) = [] := by
  refine List.eq_nil_iff_forall_not_mem.mpr fun step hstep => ?_
  obtain ⟨p, -, hp⟩ := List.mem_filterMap.mp hstep
  obtain ⟨n, message, rfl⟩ := exists_report_of_missingStep? hp
  exact not_passes_report f n message (h _ hstep)

/-- A required parameter that has no argument missing has been given one by name. -/
theorem name_mem_of_missingStep? {list : NamedArgs} {given : List String} {p : DeclId} (hreq : f.isRequired p)
    (h : missingStep? f list given p = none) : (f.graph.decl p).name ∈ given := by
  rw [State.isRequired] at hreq
  rw [missingStep?] at h
  split at hreq
  · next hshape => simpa [hshape, hreq] using h
  · cases hreq

end Steps

/-! ## All arguments -/

/-- A parameter that needs an argument is not sequenced. -/
theorem State.isSequenced_of_isRequired {f : State} {p : DeclId} (hp : f.isRequired p) :
    f.isSequenced p = false := by
  rw [State.isRequired] at hp
  rw [State.isSequenced]
  split at hp
  · simpa using (Bool.and_eq_true_iff.mp hp).2
  · cases hp

/-- Sequenced arguments stand in a list that has a place for them. -/
def TypedArguments.Fits : TypedArguments → Prop
  | .positional .. => True
  | .named list _ sequenced => list.sequenced = none → sequenced = []

/-- The form of a list can address the parameter `p` between others: none before it is sequenced if the list is
positional; if it is named, none before it has its name, nor a sequenced one after it. -/
def TypedArguments.Addresses (f : State) (before : List DeclId) (p : DeclId) (after : List DeclId) :
    TypedArguments → Prop
  | .positional .. => ∀ q ∈ before, f.isSequenced q = false
  | .named .. => (∀ q ∈ before, (f.graph.decl q).name ≠ (f.graph.decl p).name) ∧
      ∀ q ∈ after, f.isSequenced q → (f.graph.decl q).name ≠ (f.graph.decl p).name

/-- Checked arguments fit the list that they come from. -/
theorem checkArguments_fits (f : State) (u : UnitId) (args : Arguments) :
    (checkArguments f u args).Ensures (fun _ => True) (fun _ _ => True) TypedArguments.Fits := by
  cases args with
  | positional list =>
    obtain ⟨mark, args⟩ := list
    rw [checkArguments.eq_def]
    refine (Dialogue.Ensures.trivial (checkExprs f u args)).bind fun typed _ => ?_
    exact trivial
  | named list =>
    obtain ⟨mark, args, sequenced⟩ := list
    rw [checkArguments.eq_def]
    refine (Dialogue.Ensures.trivial (checkNamed f u args)).bind fun named _ => ?_
    cases sequenced with
    | none => exact fun _ => rfl
    | some arg => exact (Dialogue.Ensures.trivial (checkSequenced f u (some arg))).bind fun _ _ => nofun

/-- Places go on behind the part of a list in front. -/
theorem zipIdx_split {α : Type} (before : List α) (p : α) (after : List α) :
    (before ++ p :: after).zipIdx =
      before.zipIdx ++ (p, before.length) :: after.zipIdx (before.length + 1) := by
  simp [List.zipIdx_append]

/-- Every check is of one of the arguments against one of the parameters. -/
theorem matchSteps_among (f : State) (params : List DeclId) (args : TypedArguments) (bound : Bindings) :
    ∀ step ∈ matchSteps f params args bound, step.Among f bound params.zipIdx args.all.zipIdx := by
  cases args with
  | positional list args => exact positionalSteps_among _ _
  | named list args sequenced =>
    -- The sequenced argument stands behind the named ones.
    have hall : (TypedArguments.named list args sequenced).all.zipIdx =
        (args.map (·.2)).zipIdx ++ sequenced.zipIdx args.length := by
      simp [TypedArguments.all, List.zipIdx_append]
    simp only [matchSteps, List.forall_mem_append]
    refine ⟨⟨fun step hstep => ?_, fun step hstep => ?_⟩, fun step hstep => ?_⟩
    · refine (namedSteps_among _ _ _ step hstep).mono (List.Subset.refl _) ?_
      rw [placedNamed_places, hall]
      exact List.subset_append_left _ _
    · rw [restSteps] at hstep
      cases hlist : list.sequenced with
      | none => simp [hlist] at hstep
      | some arg =>
        rw [hlist] at hstep
        refine (sequencedSteps_among _ _ _ step hstep).mono (List.Subset.refl _) ?_
        rw [hall]
        exact List.subset_append_right _ _
    · obtain ⟨p, -, hp⟩ := List.mem_filterMap.mp hstep
      obtain ⟨node, message, rfl⟩ := exists_report_of_missingStep? hp
      trivial

/-- If nothing is reported, the sequenced arguments of a named list are checked against a sequenced
parameter. -/
theorem restSteps_places {f : State} {bound : Bindings} {params : List (DeclId × Nat)} {list : NamedArgs}
    {args : List (Typed × Nat)} (hfits : list.sequenced = none → args = [])
    (h : ∀ step ∈ restSteps f bound params list args, step.Passes f) :
    (matchedPlaces (restSteps f bound params list args)).map (·.1) = args.map (·.2) ∧
      ∀ j ∈ (matchedPlaces (restSteps f bound params list args)).map (·.2),
        ∃ q ∈ params, f.isSequenced q.1 ∧ q.2 = j := by
  rw [restSteps] at h ⊢
  cases hlist : list.sequenced with
  | none => simp [hfits hlist]
  | some arg =>
    rw [hlist] at h
    obtain ⟨q, hq, hseq, hsteps⟩ := sequencedSteps_eq h
    simp only [hsteps, matchedPlaces_map_check, List.map_map, Function.comp_def, true_and]
    intro j hj
    obtain ⟨a, -, rfl⟩ := List.mem_map.mp hj
    exact ⟨q, hq, hseq, rfl⟩

/-- The first parameter of a name is the one that the name leads to. -/
theorem find?_zipIdx_iff {f : State} {before after : List DeclId} {p : DeclId}
    (hbefore : ∀ q ∈ before, (f.graph.decl q).name ≠ (f.graph.decl p).name) {n : String} {q : DeclId × Nat}
    (hq : ((before ++ p :: after).zipIdx.find? fun q => (f.graph.decl q.1).name == n) = some q) :
    q.2 = before.length ↔ n = (f.graph.decl p).name := by
  constructor
  · intro hplace
    have hqp := List.mem_zipIdx_iff_getElem?.mp (List.mem_of_find?_eq_some hq)
    rw [hplace, List.getElem?_append_right le_rfl, Nat.sub_self, List.getElem?_cons_zero] at hqp
    have hname := List.find?_some hq
    rw [← Option.some.inj hqp] at hname
    exact (eq_of_beq hname).symm
  · rintro rfl
    have hnone : (before.zipIdx.find? fun q => (f.graph.decl q.1).name == (f.graph.decl p).name) = none := by
      simpa using fun q i hq => hbefore q (List.fst_mem_of_mem_zipIdx hq)
    rw [zipIdx_split, List.find?_append, hnone, Option.none_or, List.find?_cons_of_pos (by simp)] at hq
    rw [← Option.some.inj hq]

section Complete

variable {f : State} {params : List DeclId} {bound : Bindings}

/-- If nothing is reported, every argument has been checked against exactly one parameter. -/
theorem matchSteps_args {args : TypedArguments} (hfits : args.Fits)
    (h : ∀ step ∈ matchSteps f params args bound, step.Passes f) :
    (matchedPlaces (matchSteps f params args bound)).map (·.1) = List.range args.all.length := by
  cases args with
  | positional list args =>
    rw [matchSteps] at h ⊢
    rw [positionalSteps_args h, List.zipIdx_map_snd, List.range_eq_range']
    rfl
  | named list args sequenced =>
    simp only [matchSteps, List.forall_mem_append] at h
    obtain ⟨⟨hnamed, hrest⟩, hmissing⟩ := h
    have hfits' : list.sequenced = none → sequenced.zipIdx args.length = [] := fun hlist => by
      rw [hfits hlist, List.zipIdx_nil]
    simp only [matchSteps, missingSteps_eq_nil hmissing, matchedPlaces_append, List.map_append,
      namedSteps_args hnamed, (restSteps_places hfits' hrest).1]
    simp only [placedNamed_indices, List.zipIdx_map_snd, matchedPlaces_nil, List.map_nil, List.append_nil,
      TypedArguments.all, List.length_append, List.length_map, List.range_eq_range', ← List.range'_append_1,
      Nat.zero_add]

/-- If nothing is reported, every required parameter that the form of the list can address has been checked
with exactly one argument. -/
theorem matchSteps_required {args : TypedArguments} (hfits : args.Fits) {before after : List DeclId}
    {p : DeclId} (hparams : params = before ++ p :: after) (hp : f.isRequired p)
    (hargs : args.Addresses f before p after)
    (h : ∀ step ∈ matchSteps f params args bound, step.Passes f) :
    ((matchedPlaces (matchSteps f params args bound)).map (·.2)).count before.length = 1 := by
  cases args with
  | positional list args =>
    rw [matchSteps, hparams, zipIdx_split] at h ⊢
    refine positionalSteps_required ?_ hp (State.isSequenced_of_isRequired hp) (fun q hq => ?_) h
    · rw [← zipIdx_split, List.zipIdx_map_snd]
      exact List.nodup_range'
    · exact hargs q.1 (List.fst_mem_of_mem_zipIdx hq)
  | named list args sequenced =>
    simp only [matchSteps, List.forall_mem_append] at h
    obtain ⟨⟨hnamed, hrest⟩, hmissing⟩ := h
    have hfits' : list.sequenced = none → sequenced.zipIdx args.length = [] := fun hlist => by
      rw [hfits hlist, List.zipIdx_nil]
    -- So `p` is not given an argument by the sequenced ones, nor by their name.
    have hother : ∀ q ∈ params, f.isSequenced q → (f.graph.decl q).name ≠ (f.graph.decl p).name := by
      intro q hq hseq
      rw [hparams, List.mem_append, List.mem_cons] at hq
      rcases hq with hq | rfl | hq
      · exact hargs.1 q hq
      · simp [State.isSequenced_of_isRequired hp] at hseq
      · exact hargs.2 q hq hseq
    have hunrest : before.length ∉
        (matchedPlaces (restSteps f bound params.zipIdx list (sequenced.zipIdx args.length))).map (·.2) := by
      intro hmem
      obtain ⟨q, hq, hseq, hplace⟩ := (restSteps_places hfits' hrest).2 _ hmem
      have hqp := List.mem_zipIdx_iff_getElem?.mp hq
      obtain rfl : p = q.1 := by simpa [hparams, hplace] using hqp
      exact hother q.1 (List.fst_mem_of_mem_zipIdx hq) hseq rfl
    have hgiven : (f.graph.decl p).name ∈ args.map (·.1.text) := by
      have hnone := List.filterMap_eq_nil_iff.mp (missingSteps_eq_nil hmissing) p (by simp [hparams])
      rcases mem_allNamesGiven (name_mem_of_missingStep? hp hnone) with hname | ⟨q, hq, hseq, hqp⟩
      · exact hname
      · exact absurd hqp (hother q hq hseq)
    have hfind : ∀ n q, (params.zipIdx.find? fun q => (f.graph.decl q.1).name == n) = some q →
        (q.2 = before.length ↔ n = (f.graph.decl p).name) := fun n q hq =>
      find?_zipIdx_iff hargs.1 (hparams ▸ hq)
    simp only [matchSteps, missingSteps_eq_nil hmissing, matchedPlaces_append, List.map_append,
      List.count_append, namedSteps_count hfind hnamed, List.count_eq_zero.mpr hunrest]
    have hdistinct := (namedSteps_distinct hnamed).1
    rw [placedNamed_names] at hdistinct ⊢
    simpa using List.count_eq_one_of_mem hdistinct hgiven

end Complete

/-- Matching takes its steps one after the other, each of which checks an argument against a parameter or
reports a problem.  If none reports anything, every argument has been checked against exactly one parameter,
and every required parameter that the form of the list can address, with exactly one argument. -/
theorem matchArguments_complete (f : State) (params : List DeclId) (args : TypedArguments) (bound : Bindings) :
    let steps := matchSteps f params args bound
    matchArguments f params args bound = forM steps (·.rule f) ∧
      (∀ step ∈ steps, step.Among f bound params.zipIdx args.all.zipIdx) ∧
      (args.Fits → Silent (matchArguments f params args bound) →
        (matchedPlaces steps).map (·.1) = List.range args.all.length ∧
        ∀ before p after, params = before ++ p :: after → f.isRequired p →
          args.Addresses f before p after →
          ((matchedPlaces steps).map (·.2)).count before.length = 1) := by
  intro steps
  refine ⟨matchArguments_eq_steps f params args bound, matchSteps_among f params args bound,
    fun hfits hsilent => ?_⟩
  have hpass := (silent_matchArguments_iff f params args bound).mp hsilent
  exact ⟨matchSteps_args hfits hpass, fun before p after hparams hp hargs =>
    matchSteps_required hfits hparams hp hargs hpass⟩

/-- A state with parameters of the kinds `Integer x`, `Integer x`, `Integer... xs` and `Integer y`. -/
def State.sampleParameters : State :=
  let declaration (name : String) (shape : Shape) : Declaration :=
    { name, scope := [], unit := none, node := none, shared := false, shape }
  let integer : Ty := .applied ⟨⟨0⟩, []⟩
  { graph := { decls := #[
      declaration "Integer" (.ofInterface {}),
      declaration "Sequence" (.ofInterface { params := [⟨2⟩] }),
      declaration "Element" (.typeParameter .invariant {}),
      declaration "x" (.parameter integer false false),
      declaration "x" (.parameter integer false false),
      declaration "xs" (.parameter (.applied ⟨⟨1⟩, [integer]⟩) false true),
      declaration "y" (.parameter integer false false)] }
    builtins := { (default : Builtins) with sequence := ⟨1⟩ } }

/-- The call `f(1, 1)` of `void f(Integer x, Integer... xs)` gives `x` one argument. -/
theorem matchArguments_complete_sample :
    let f := State.sampleParameters
    let one : Typed := { expr := .literal default .natural "1", type := .applied ⟨⟨0⟩, []⟩ }
    let args := TypedArguments.positional ⟨default, [one.expr, one.expr]⟩ [one, one]
    (args.Fits ∧ Silent (matchArguments f [⟨3⟩, ⟨5⟩] args []) ∧ f.isRequired ⟨3⟩) ∧
      ((matchedPlaces (matchSteps f [⟨3⟩, ⟨5⟩] args [])).map (·.2)).count 0 = 1 := by
  intro f one args
  have hargs : matchArguments f [⟨3⟩, ⟨5⟩] args [] = .done () := by rfl
  have hsilent : Silent (matchArguments f [⟨3⟩, ⟨5⟩] args []) := hargs ▸ trivial
  have hcomplete := (matchArguments_complete f [⟨3⟩, ⟨5⟩] args []).2.2 trivial hsilent
  exact ⟨⟨trivial, hsilent, rfl⟩, hcomplete.2 [] ⟨3⟩ [⟨5⟩] rfl rfl nofun⟩

/-- Nothing is reported of a call `f { x = 1; }` of `void f(Integer x, Integer x)`, although no argument goes to
the second `x`, nor of a call `g(1)` of `void g(Integer... xs, Integer y)`, although none goes to `y`. -/
theorem matchArguments_overlooks :
    let f := State.sampleParameters
    let one : Typed := { expr := .literal default .natural "1", type := .applied ⟨⟨0⟩, []⟩ }
    let named := TypedArguments.named ⟨default, [⟨default, ⟨default, "x"⟩, one.expr⟩], none⟩
      [(⟨default, "x"⟩, one)] []
    let positional := TypedArguments.positional ⟨default, [one.expr]⟩ [one]
    (f.isRequired ⟨4⟩ ∧ Silent (matchArguments f [⟨3⟩, ⟨4⟩] named []) ∧
        matchedPlaces (matchSteps f [⟨3⟩, ⟨4⟩] named []) = [(0, 0)]) ∧
      (f.isRequired ⟨6⟩ ∧ Silent (matchArguments f [⟨5⟩, ⟨6⟩] positional []) ∧
        matchedPlaces (matchSteps f [⟨5⟩, ⟨6⟩] positional []) = [(0, 0)]) := by
  intro f one named positional
  have hnamed : matchArguments f [⟨3⟩, ⟨4⟩] named [] = .done () := by rfl
  have hpositional : matchArguments f [⟨5⟩, ⟨6⟩] positional [] = .done () := by rfl
  exact ⟨⟨rfl, hnamed ▸ trivial, rfl⟩, rfl, hpositional ▸ trivial, rfl⟩

end Ceylon.Analysis
