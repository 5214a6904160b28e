import Mathlib.Data.List.Nodup
import Ceylon.Proofs.AlikeRules
import Ceylon.Proofs.Analyses
import Ceylon.Proofs.ArgumentMatching

/-!
# Positional and named calls

A call can give its arguments by place, `f(a, b, c)`, or by name, `f { x = a; y = b; c }`, where the values for
a sequenced parameter stand behind the others.  Both forms pair the same arguments with the same parameters
(`callPairs`), so the same type arguments are inferred.  Both check first the arguments of parameters that
take one each, then those of the sequenced parameter, and then report the parameters that are left
(`matchArguments_positional_eq`, `matchArguments_named_eq`).  So the two forms of a call are alike, and agree in
every state (`positional_named_agree`).
-/

namespace Ceylon.Analysis

open Model
open Syntax

/-! ## Parameter lists and argument lists -/

/-- A list of parameters with different names, of which at most the last is sequenced. -/
structure State.ProperParameters (f : State) (params : List DeclId) : Prop where
  parameters : ∀ p ∈ params, ∃ t defaulted sequenced,
    (f.graph.decl p).shape = .parameter t defaulted sequenced
  names : (params.map fun p => (f.graph.decl p).name).Nodup
  sequenced : ∀ p ∈ params.dropLast, f.isSequenced p = false

/-- The parameters that take one argument each: those that are not sequenced. -/
def State.single (f : State) (params : List DeclId) : List DeclId :=
  params.filter fun p => !f.isSequenced p

/-- There are as many parameters as arguments, unless a sequenced one takes those that are left. -/
def State.HasRoom (f : State) (params : List DeclId) (args : List Typed) : Prop :=
  args.length ≤ params.length ∨ ∃ p, params.getLast? = some p ∧ f.isSequenced p

/-- The arguments `args` of a positional list, given by name in the order of the parameters; those for a
sequenced parameter are `rest`. -/
structure SpelledOut (f : State) (params : List DeclId) (args : List Typed) (named : List (Name × Typed))
    (rest : List Typed) : Prop where
  named : named.map (fun a => (a.1.text, a.2)) =
    ((f.single params).map fun p => (f.graph.decl p).name).zip args
  rest : rest = args.drop (f.single params).length

section Split

variable {f : State} {params : List DeclId}

/-- A proper parameter list is its single parameters followed by the sequenced one, if there is one. -/
theorem single_append_last (h : f.ProperParameters params) :
    f.single params ++ (sequencedParam? f params).toList = params := by
  rcases List.eq_nil_or_concat params with rfl | ⟨init, p, rfl⟩
  · rfl
  · have hinit : init.filter (fun q => !f.isSequenced q) = init :=
      List.filter_eq_self.mpr fun q hq => by simp [h.sequenced q (by simpa using hq)]
    have hlast : sequencedParam? f (init ++ [p]) = if f.isSequenced p then some p else none := by
      rw [sequencedParam?, List.getLast?_concat]
      rfl
    rw [State.single, List.concat_eq_append, List.filter_append, hinit, hlast]
    cases hp : f.isSequenced p <;> simp [hp]

theorem isSequenced_of_mem_single {p : DeclId} (hp : p ∈ f.single params) : f.isSequenced p = false := by
  simpa using (List.mem_filter.mp hp).2

theorem isSequenced_of_sequencedParam? {q : DeclId} (hq : sequencedParam? f params = some q) :
    f.isSequenced q :=
  (Option.filter_eq_some_iff.mp hq).2

/-- Proper parameters have names of their own, the single ones among them too. -/
theorem names_single (h : f.ProperParameters params) :
    ((f.single params).map fun p => (f.graph.decl p).name).Nodup :=
  h.names.sublist (List.filter_sublist.map _)

/-- A name leads to the parameter that has it. -/
theorem paramNamed?_of_mem (h : (params.map fun p => (f.graph.decl p).name).Nodup) {p : DeclId}
    (hp : p ∈ params) : paramNamed? f params (f.graph.decl p).name = some p := by
  induction params with
  | nil => cases hp
  | cons q params ih =>
    obtain ⟨hq, hparams⟩ := List.nodup_cons.mp h
    rcases List.mem_cons.mp hp with rfl | hp
    · exact List.find?_cons_of_pos (by simp)
    · have hne : (f.graph.decl q).name ≠ (f.graph.decl p).name := fun heq =>
        hq (List.mem_map.mpr ⟨p, hp, heq.symm⟩)
      exact (List.find?_cons_of_neg (by simpa using hne)).trans (ih hparams hp)

end Split

/-! ## Inferring from the arguments -/

/-- The pairs of an argument and a parameter that inference looks at, whichever way the arguments are
given. -/
def callPairs (f : State) (single : List DeclId) (last : Option DeclId) (args : List Typed) : List Pairing :=
  (single.zip args).map (fun (p, a) => ⟨(f.graph.decl p).shape.type, a.type⟩) ++
  last.toList.flatMap fun q =>
    (args.drop single.length).map fun a => ⟨sequenceElement f (f.graph.decl q).shape.type, a.type⟩

section Pairs

variable {f : State}

/-- One step of pairing in order: a single parameter takes the first argument. -/
theorem pairPositional_cons {p : DeclId} (hp : f.isSequenced p = false) (ps : List DeclId) (a : Typed)
    (args : List Typed) :
    pairPositional f (p :: ps) (a :: args) =
      ⟨(f.graph.decl p).shape.type, a.type⟩ :: pairPositional f ps args := by
  rw [State.isSequenced] at hp
  cases hshape : (f.graph.decl p).shape with
  | parameter t defaulted sequenced =>
    obtain rfl : sequenced = false := by simpa [hshape] using hp
    simp [pairPositional, hshape]
  | _ => simp [pairPositional, hshape]

/-- Pairing in order gives each single parameter its argument and the sequenced one all that are left. -/
theorem pairPositional_eq {single : List DeclId} (hsingle : ∀ p ∈ single, f.isSequenced p = false)
    {last : Option DeclId} (hlast : ∀ q ∈ last, f.isSequenced q) (args : List Typed) :
    pairPositional f (single ++ last.toList) args = callPairs f single last args := by
  induction single generalizing args with
  | nil =>
    cases last with
    | none => rfl
    | some q =>
      obtain ⟨t, defaulted, hshape⟩ := exists_shape_of_isSequenced (hlast q rfl)
      cases args with
      | nil => rfl
      | cons a args => simp [pairPositional, callPairs, hshape, Shape.type]
  | cons p single ih =>
    obtain ⟨hp, hsingle⟩ := List.forall_mem_cons.mp hsingle
    cases args with
    | nil => simp [pairPositional, callPairs]
    | cons a args =>
      rw [List.cons_append, pairPositional_cons hp, ih hsingle]
      rfl

/-- Named arguments that spell out a list of texts and types begin with the first of them. -/
theorem exists_of_zip_cons {named : List (Name × Typed)} {text : String} {texts : List String} {a : Typed}
    {args : List Typed} (h : named.map (fun a => (a.1.text, a.2)) = (text :: texts).zip (a :: args)) :
    ∃ name more, named = (name, a) :: more ∧ name.text = text ∧
      more.map (fun a => (a.1.text, a.2)) = texts.zip args := by
  obtain ⟨⟨name, b⟩, more, rfl, hfirst, hmore⟩ := List.map_eq_cons_iff.mp h
  obtain ⟨hname, rfl⟩ := Prod.mk.inj hfirst
  exact ⟨name, more, rfl, hname, hmore⟩

/-- Arguments given by name to some of the parameters are paired with these. -/
theorem filterMap_named {params single : List DeclId}
    (hsingle : ∀ p ∈ single, paramNamed? f params (f.graph.decl p).name = some p) {args : List Typed}
    {named : List (Name × Typed)} (hnamed : named.map (fun a => (a.1.text, a.2)) =
      (single.map fun p => (f.graph.decl p).name).zip args) :
    (named.filterMap fun (name, a) =>
      (paramNamed? f params name.text).map fun p => (⟨(f.graph.decl p).shape.type, a.type⟩ : Pairing)) =
      (single.zip args).map fun (p, a) => ⟨(f.graph.decl p).shape.type, a.type⟩ := by
  induction single generalizing args named with
  | nil =>
    obtain rfl := List.map_eq_nil_iff.mp hnamed
    rfl
  | cons p single ih =>
    obtain ⟨hp, hsingle⟩ := List.forall_mem_cons.mp hsingle
    cases args with
    | nil =>
      obtain rfl := List.map_eq_nil_iff.mp hnamed
      rfl
    | cons a args =>
      obtain ⟨name, more, rfl, hname, hmore⟩ := exists_of_zip_cons hnamed
      simp only [List.filterMap_cons, hname, hp, ih hsingle hmore]
      rfl

end Pairs

/-! ## Matching the arguments -/

section Matching

variable {f : State} (bound : Bindings) {single : List DeclId} {last : Option DeclId} {args : List Typed}

/-- The checks of the arguments for parameters that are not sequenced. -/
def checkSingle (f : State) (bound : Bindings) (what : String) (pairs : List (DeclId × Typed)) : Rule Unit :=
  forM pairs fun (p, a) => argumentAssignable f a p (f.expectedType bound p) what

/-- The checks of the arguments for a sequenced parameter. -/
def checkRest (f : State) (bound : Bindings) (last : Option DeclId) (rest : List Typed) : Rule Unit :=
  forM last.toList fun q =>
    forM rest fun a => argumentAssignable f a q (sequenceElement f (f.expectedType bound q)) "argument"

/-- The reports of missing arguments. -/
def reportMissing (f : State) (n : Node) (text : String) (missing : List DeclId) : Rule Unit :=
  forM (missing.filter f.isRequired) fun p => reportAt n (text ++ (f.graph.decl p).name)

/-- No rest arguments, nothing to check. -/
theorem checkRest_nil : checkRest f bound last [] = pure () := by
  cases last <;> rfl

/-- Matching arguments by place checks as many parameters as there are arguments, and reports the others. -/
theorem matchPositional_eq (list : PositionalArgs) (hsingle : ∀ p ∈ single, f.isSequenced p = false)
    (hlast : ∀ q ∈ last, f.isSequenced q) (hargs : last = none → args.length ≤ single.length) :
    matchPositional f list bound (single ++ last.toList) args = (do
      checkSingle f bound "argument" (single.zip args)
      checkRest f bound last (args.drop single.length)
      reportMissing f (.positionalArgs list) "no argument to parameter: " (single.drop args.length)) := by
  -- along the single parameters; what stands behind them is the sequenced parameter alone, which ends the
  -- matching
  induction single generalizing args with
  | nil =>
    cases last with
    | none =>
      obtain rfl : args = [] := List.eq_nil_of_length_eq_zero (Nat.le_zero.mp (hargs rfl))
      rfl
    | some q =>
      simp only [List.nil_append, Option.toList_some, matchPositional_sequenced (hlast q rfl), checkSingle,
        checkRest, reportMissing, List.zip_nil_left, List.drop_nil, List.filter_nil, List.length_nil,
        List.drop_zero, List.forM_cons, List.forM_nil, pure_bind, bind_assoc]
      exact (bind_pure _).symm
  | cons p single ih =>
    obtain ⟨hp, hsingle⟩ := List.forall_mem_cons.mp hsingle
    cases args with
    | nil =>
      rw [List.cons_append, matchPositional_nil hp, ih hsingle fun _ => Nat.zero_le _]
      cases hreq : f.isRequired p <;> simp [checkSingle, checkRest_nil, reportMissing, hreq]
    | cons a args =>
      rw [List.cons_append, matchPositional_cons hp, ih hsingle fun h => Nat.le_of_succ_le_succ (hargs h)]
      simp [checkSingle]

/-- Matching arguments by name checks the parameters that have the names. -/
theorem matchNamed_eq {params : List DeclId} {given : List String}
    (hfound : ∀ p ∈ single, paramNamed? f params (f.graph.decl p).name = some p)
    (hnames : (single.map fun p => (f.graph.decl p).name).Nodup)
    (hgiven : ∀ p ∈ single, (f.graph.decl p).name ∉ given) {named : List (Name × Typed)}
    (hnamed : named.map (fun a => (a.1.text, a.2)) = (single.map fun p => (f.graph.decl p).name).zip args) :
    matchNamed f bound params given named = (do
      checkSingle f bound "named argument" (single.zip args)
      return namesGiven given (named.map (·.1.text))) := by
  -- each step adds a name to the given ones, so the hypothesis that no later parameter is given is carried
  -- along
  induction single generalizing args named given with
  | nil =>
    obtain rfl := List.map_eq_nil_iff.mp hnamed
    rfl
  | cons p single ih =>
    obtain ⟨hp, hfound⟩ := List.forall_mem_cons.mp hfound
    obtain ⟨hpnames, hnames⟩ := List.nodup_cons.mp hnames
    obtain ⟨hpgiven, hgiven⟩ := List.forall_mem_cons.mp hgiven
    cases args with
    | nil =>
      obtain rfl := List.map_eq_nil_iff.mp hnamed
      rfl
    | cons a args =>
      obtain ⟨name, more, rfl, hname, hmore⟩ := exists_of_zip_cons hnamed
      have hfresh : given.contains (f.graph.decl p).name = false := by simpa using hpgiven
      -- the name just given is not that of a later parameter, because the names differ pairwise
      have hgiven' : ∀ q ∈ single, (f.graph.decl q).name ∉ name.text :: given := by
        intro q hq hmem
        rcases List.mem_cons.mp hmem with heq | hmem
        · exact hpnames (List.mem_map.mpr ⟨q, hq, heq.trans hname⟩)
        · exact hgiven q hq hmem
      simp only [matchNamed, List.map_cons, namesGiven, hfresh, hname, hp, checkSingle, List.zip_cons_cons,
        List.forM_cons, ih hfound hnames (hname ▸ hgiven') hmore, bind_assoc]
      rfl

/-- A rule that acts on some members of a list acts on the sublist of those members. -/
theorem forM_eq_forM_filter {γ : Type} {as : List γ} {r r' : γ → Rule Unit} {c : γ → Bool}
    (h : ∀ a ∈ as, r a = if c a then r' a else pure ()) : forM as r = forM (as.filter c) r' := by
  induction as with
  | nil => rfl
  | cons a as ih =>
    obtain ⟨ha, has⟩ := List.forall_mem_cons.mp h
    rw [List.forM_cons, ha, ih has]
    cases hc : c a <;> simp [hc]

/-- A parameter must have an argument if it is required and has not been given one. -/
theorem requireArgument_parameter (list : NamedArgs) (given : List String) {p : DeclId}
    (hp : ∃ t defaulted sequenced, (f.graph.decl p).shape = .parameter t defaulted sequenced) :
    requireArgument f list given p = if f.isRequired p && !given.contains (f.graph.decl p).name then
      reportAt (.namedArgs list) ("missing named argument to parameter: " ++ (f.graph.decl p).name)
      else pure () := by
  obtain ⟨t, defaulted, sequenced, hshape⟩ := hp
  simp only [requireArgument, State.isRequired, hshape]

/-- Of parameters of which the first `n` have been given arguments, the other ones must be. -/
theorem requireArgument_eq (list : NamedArgs) {given : List String} {params : List DeclId}
    (hparams : f.ProperParameters params) (n : Nat)
    (htaken : ∀ p ∈ (f.single params).take n, (f.graph.decl p).name ∈ given)
    (hleft : ∀ p ∈ (f.single params).drop n, (f.graph.decl p).name ∉ given) :
    forM params (requireArgument f list given) =
      reportMissing f (.namedArgs list) "missing named argument to parameter: " ((f.single params).drop n) := by
  rw [forM_eq_forM_filter fun p hp => requireArgument_parameter list given (hparams.parameters p hp),
    reportMissing]
  have htake : ((f.single params).take n).filter
      (fun p => f.isRequired p && !given.contains (f.graph.decl p).name) = [] :=
    List.filter_eq_nil_iff.mpr fun p hp => by simp [htaken p hp]
  have hrest : (sequencedParam? f params).toList.filter
      (fun p => f.isRequired p && !given.contains (f.graph.decl p).name) = [] := by
    refine List.filter_eq_nil_iff.mpr fun q hq hreq => ?_
    have hseq := State.isSequenced_of_isRequired (Bool.and_eq_true_iff.mp hreq).1
    simp [isSequenced_of_sequencedParam? (Option.mem_toList.mp hq)] at hseq
  conv_lhs => rw [← single_append_last hparams, ← List.take_append_drop n (f.single params)]
  rw [List.filter_append, List.filter_append, htake, hrest, List.nil_append, List.append_nil]
  exact congrArg (forM · _) (List.filter_congr fun p hp => by simp [hleft p hp])

end Matching

/-! ## The two forms of a call -/

theorem map_fst_zip_take {α β : Type} (as : List α) (bs : List β) :
    (as.zip bs).map (·.1) = as.take bs.length := by
  induction as generalizing bs with
  | nil => simp
  | cons a as ih => cases bs <;> simp [ih]

section Forms

variable {f : State} {params : List DeclId} {args : List Typed} {named : List (Name × Typed)}
  {rest : List Typed}

/-- The names that are given to arguments are those of the first parameters. -/
theorem SpelledOut.names (h : SpelledOut f params args named rest) : named.map (·.1.text) =
    ((f.single params).take args.length).map fun p => (f.graph.decl p).name := by
  have hfst := congrArg (List.map Prod.fst) h.named
  rw [List.map_map, map_fst_zip_take, ← List.map_take] at hfst
  exact hfst

/-- If no parameter is sequenced, there are no more arguments than parameters. -/
theorem State.HasRoom.length_le (h : f.HasRoom params args) (hparams : f.ProperParameters params)
    (hlast : sequencedParam? f params = none) : args.length ≤ (f.single params).length := by
  rcases h with hlength | ⟨q, hq, hseq⟩
  · have hsingle := single_append_last hparams
    rw [hlast, Option.toList_none, List.append_nil] at hsingle
    rwa [hsingle]
  · rw [sequencedParam?, hq] at hlast
    exact absurd hseq (Option.filter_eq_none_iff.mp hlast q rfl)

/-- The first parameters are given arguments by their names. -/
theorem SpelledOut.name_mem (h : SpelledOut f params args named rest) (list : NamedArgs) {p : DeclId}
    (hp : p ∈ (f.single params).take args.length) :
    (f.graph.decl p).name ∈ allNamesGiven f params list named := by
  have hgiven : (f.graph.decl p).name ∈ namesGiven [] (named.map (·.1.text)) :=
    mem_namesGiven.mpr (.inr (h.names ▸ List.mem_map_of_mem hp))
  rw [allNamesGiven]
  split
  · exact List.mem_cons_of_mem _ hgiven
  · exact hgiven

/-- The other parameters that take one argument each are not given any by their names. -/
theorem SpelledOut.name_not_mem (h : SpelledOut f params args named rest) (hparams : f.ProperParameters params)
    (list : NamedArgs) {p : DeclId} (hp : p ∈ (f.single params).drop args.length) :
    (f.graph.decl p).name ∉ allNamesGiven f params list named := by
  intro hmem
  have hsingle := List.mem_of_mem_drop hp
  rcases mem_allNamesGiven hmem with hgiven | ⟨q, hq, hseq, hqp⟩
  · rw [h.names, List.map_take] at hgiven
    refine List.disjoint_take_drop (names_single hparams) (le_refl args.length) hgiven ?_
    rw [← List.map_drop]
    exact List.mem_map_of_mem hp
  · obtain rfl := List.inj_on_of_nodup_map hparams.names hq (List.mem_filter.mp hsingle).1 hqp
    simp [isSequenced_of_mem_single hsingle] at hseq

/-- The positional form of a call runs the rules of the single parameters, then of the rest, then reports what
is missing. -/
theorem matchArguments_positional_eq (list : PositionalArgs) (hparams : f.ProperParameters params)
    (hargs : f.HasRoom params args) (bound : Bindings) :
    matchArguments f params (.positional list args) bound = (do
      checkSingle f bound "argument" ((f.single params).zip args)
      checkRest f bound (sequencedParam? f params) (args.drop (f.single params).length)
      reportMissing f (.positionalArgs list) "no argument to parameter: "
        ((f.single params).drop args.length)) := by
  have h := matchPositional_eq bound list (fun p (hp : p ∈ f.single params) => isSequenced_of_mem_single hp)
    (fun q (hq : q ∈ sequencedParam? f params) => isSequenced_of_sequencedParam? hq) (hargs.length_le hparams)
  rwa [single_append_last hparams] at h

/-- The named form of a call that is spelled out runs the same rules in the same order, up to the words of its
reports. -/
theorem matchArguments_named_eq (list : NamedArgs) (hparams : f.ProperParameters params)
    (hargs : f.HasRoom params args) (hspelled : SpelledOut f params args named rest)
    (hlist : list.sequenced.isSome = !rest.isEmpty) (bound : Bindings) :
    matchArguments f params (.named list named rest) bound = (do
      checkSingle f bound "named argument" ((f.single params).zip args)
      checkRest f bound (sequencedParam? f params) (args.drop (f.single params).length)
      reportMissing f (.namedArgs list) "missing named argument to parameter: "
        ((f.single params).drop args.length)) := by
  have hnamed := matchNamed_eq bound
    (fun p (hp : p ∈ f.single params) => paramNamed?_of_mem hparams.names (List.mem_filter.mp hp).1)
    (names_single hparams) (fun _ _ => List.not_mem_nil) hspelled.named
  have hrequire := requireArgument_eq list hparams args.length (fun _ => hspelled.name_mem list)
    (fun _ => hspelled.name_not_mem hparams list)
  rw [allNamesGiven] at hrequire
  rw [matchArguments, hnamed, ← hspelled.rest]
  -- The list has sequenced arguments exactly if arguments are left for a sequenced parameter.
  cases hsequenced : list.sequenced with
  | none =>
    obtain rfl : rest = [] := by simpa [hsequenced] using hlist
    simp only [hsequenced] at hrequire
    simp only [bind_assoc, pure_bind, checkRest_nil, List.forM_eq_forM, hrequire]
  | some arg =>
    have hrest : rest ≠ [] := by simpa [hsequenced] using hlist
    cases hlast : sequencedParam? f params with
    | none =>
      have hlength := hargs.length_le hparams hlast
      exact absurd (hspelled.rest.trans (List.drop_eq_nil_of_le hlength)) hrest
    | some q =>
      simp only [hsequenced, hlast] at hrequire
      simp only [bind_assoc, pure_bind, matchSequenced, hlast, checkRest, Option.toList_some, List.forM_cons,
        List.forM_nil, List.forM_eq_forM, hrequire]
      rfl

/-- The pairs the positional form infers type arguments from. -/
theorem pair_positional_eq (list : PositionalArgs) (hparams : f.ProperParameters params) :
    TypedArguments.pair f params (.positional list args) =
      callPairs f (f.single params) (sequencedParam? f params) args := by
  have h := pairPositional_eq (fun p (hp : p ∈ f.single params) => isSequenced_of_mem_single hp)
    (fun q (hq : q ∈ sequencedParam? f params) => isSequenced_of_sequencedParam? hq) args
  rwa [single_append_last hparams] at h

/-- The pairs the named form infers from: they are the positional ones. -/
theorem pair_named_eq (list : NamedArgs) (hparams : f.ProperParameters params)
    (hspelled : SpelledOut f params args named rest) :
    TypedArguments.pair f params (.named list named rest) =
      callPairs f (f.single params) (sequencedParam? f params) args := by
  have hfound : ∀ p ∈ f.single params, paramNamed? f params (f.graph.decl p).name = some p := fun p hp =>
    paramNamed?_of_mem hparams.names (List.mem_filter.mp hp).1
  rw [TypedArguments.pair, pairNamed, filterMap_named hfound hspelled.named, callPairs, ← hspelled.rest]
  cases sequencedParam? f params <;> simp

/-! ### Alike -/

/-- What a mismatch is called does not matter to what a rule binds. -/
theorem argumentAssignable_alike (a : Typed) (p : DeclId) (expected : Ty) (what what' : String) :
    Alike (argumentAssignable f a p expected what) (argumentAssignable f a p expected what') := by
  rw [argumentAssignable, argumentAssignable]
  split
  · exact .reportAt _ _ _ _
  · exact .done ()

/-- The two forms of a call are matched with parameters alike. -/
theorem matchArguments_alike (list : PositionalArgs) (list' : NamedArgs) (hparams : f.ProperParameters params)
    (hargs : f.HasRoom params args) (hspelled : SpelledOut f params args named rest)
    (hlist : list'.sequenced.isSome = !rest.isEmpty) (bound : Bindings) :
    Alike (matchArguments f params (.positional list args) bound)
      (matchArguments f params (.named list' named rest) bound) := by
  rw [matchArguments_positional_eq list hparams hargs,
    matchArguments_named_eq list' hparams hargs hspelled hlist]
  refine .bind (.forM fun _ _ => argumentAssignable_alike _ _ _ _ _) fun _ => .bind (.refl _) fun _ => ?_
  exact .forM fun _ _ => .reportAt _ _ _ _

/-- The expression blamed for a conflict does not matter to what is bound. -/
theorem bindFound_alike (x x' : Expr) (found : Bindings) (hasUnknown : Bool) (bound : Bindings)
    (typeParams : List DeclId) :
    Alike (bindFound f x found hasUnknown bound typeParams)
      (bindFound f x' found hasUnknown bound typeParams) := by
  induction typeParams generalizing bound with
  | nil => exact .done bound
  | cons tp tps ih =>
    rw [bindFound, bindFound]
    split
    · exact ih bound
    · split
      · simp only
        split
        · exact .bind (.reportAt _ _ _ _) fun _ => ih bound
        · exact ih bound
      · exact ih _

/-- The two forms of a call bind the same type arguments. -/
theorem invocationBindings_alike (u : UnitId) (x x' : Expr) (primary : Typed) (typeParams : List DeclId)
    (list : PositionalArgs) (list' : NamedArgs) (hparams : f.ProperParameters params)
    (hspelled : SpelledOut f params args named rest) :
    Alike (invocationBindings f u x primary typeParams params (.positional list args))
      (invocationBindings f u x' primary typeParams params (.named list' named rest)) := by
  rw [invocationBindings, invocationBindings]
  split
  · exact .done _
  · rw [inferTypeArguments, inferTypeArguments, pair_positional_eq list hparams,
      pair_named_eq list' hparams hspelled]
    exact bindFound_alike ..

/-- The node a missing type is reported at does not matter to the type. -/
theorem typeOfDecl_alike (d : DeclId) (n n' : Node) : Alike (typeOfDecl f d n) (typeOfDecl f d n') :=
  .typeOf d fun t => match t with
    | some t => .done t
    | none => .bind (.reportAt _ _ _ _) fun _ => .done Ty.unknown

/-- The two forms of a call have the same type. -/
theorem invocationType_alike (u : UnitId) (x x' : Expr) (primary : Typed) {d : DeclId}
    (hd : primary.target = some d) (hshape : (f.graph.decl d).shape.params? = some params)
    (list : PositionalArgs) (list' : NamedArgs) (hparams : f.ProperParameters params)
    (hargs : f.HasRoom params args) (hspelled : SpelledOut f params args named rest)
    (hlist : list'.sequenced.isSome = !rest.isEmpty) :
    Alike (invocationType f u x primary (.positional list args))
      (invocationType f u x' primary (.named list' named rest)) := by
  have bindings := fun typeParams => invocationBindings_alike (f := f) u x x' primary typeParams list list'
    hparams hspelled
  have matched := matchArguments_alike (f := f) list list' hparams hargs hspelled hlist
  rw [invocationType, invocationType, hd]
  -- Only classes and methods have parameters.
  cases hkind : (f.graph.decl d).shape with
  | ofClass generic params' abstract bottom =>
    obtain rfl : params' = some params := by simpa [hkind, Shape.params?] using hshape
    simp only [Option.filter_some, hkind, Shape.params?, if_true]
    exact .bind (bindings _) fun bound => .bind (matched bound) fun _ => .done _
  | method type typeParams params' void formal =>
    obtain rfl : params' = params := by simpa [hkind, Shape.params?] using hshape
    simp only [Option.filter_some, hkind, Shape.params?, if_true]
    exact .bind (bindings _) fun bound => .bind (matched bound) fun _ =>
      .bind (typeOfDecl_alike d _ _) fun _ => .done _
  | _ => simp [hkind, Shape.params?] at hshape

end Forms

/-! ## The two forms in every state -/

/-- The parameters of a class or method of an analysis are parameters. -/
theorem State.Reached.parameters {s : State} (hs : s.Reached) {d : DeclId} {params : List DeclId}
    (hparams : (s.graph.decl d).shape.params? = some params) :
    ∀ p ∈ params, ∃ t defaulted sequenced, (s.facts.graph.decl p).shape = .parameter t defaulted sequenced := by
  intro p hp
  have hd : d.index < s.graph.decls.size := by
    by_contra hinvalid
    rw [Graph.decl, Array.getD_eq_getD_getElem?, Array.getElem?_eq_none (by omega)] at hparams
    cases hparams
  have hkind := (hs.inOrder.layout.grounded.params d hd p (by simpa [hparams] using hp)).kind
  change ∃ t defaulted sequenced, (s.graph.decl p).shape = .parameter t defaulted sequenced
  cases hshape : (s.graph.decl p).shape with
  | parameter t defaulted sequenced => exact ⟨t, defaulted, sequenced, rfl⟩
  | _ => simp [hshape, Shape.kind] at hkind

/-- Applies a rule in a unit, and tells whether it reports a problem. -/
def Checking.apply {α : Type} (f : State) (depth : Nat) (u : UnitId) (r : Rule α) : Analyze (α × Bool) :=
  (applyRule (watched r)).run (perform f (performTask f depth) u)

/-- Alike rules, applied to one state, give the same answer and differ only in their findings. -/
theorem Alike.apply {α : Type} {r r' : Rule α} (h : Alike r r') (f : State) (depth : Nat) (u : UnitId) :
    Concur (Checking.apply f depth u r) (Checking.apply f depth u r') :=
  h.watched.applied f depth u

/-- A call of a class or method whose arguments are given by place, and the one that gives the same arguments
by name in the order of the parameters, bind the same type arguments and have the same type, and one of them
reports a problem exactly if the other does. -/
theorem positional_named_agree (f : State) (depth : Nat) (u : UnitId) (x x' : Expr) (primary : Typed)
    {d : DeclId} {params : List DeclId} {args : List Typed} {named : List (Name × Typed)} {rest : List Typed}
    (list : PositionalArgs) (list' : NamedArgs) (hd : primary.target = some d)
    (hshape : (f.graph.decl d).shape.params? = some params) (hparams : f.ProperParameters params)
    (hargs : f.HasRoom params args) (hspelled : SpelledOut f params args named rest)
    (hlist : list'.sequenced.isSome = !rest.isEmpty) :
    let positional := TypedArguments.positional list args
    let byName := TypedArguments.named list' named rest
    let typeParams := (f.graph.decl d).shape.typeParams
    Concur (Checking.apply f depth u (invocationBindings f u x primary typeParams params positional))
        (Checking.apply f depth u (invocationBindings f u x' primary typeParams params byName)) ∧
      Concur (Checking.apply f depth u (invocationType f u x primary positional))
        (Checking.apply f depth u (invocationType f u x' primary byName)) :=
  ⟨(invocationBindings_alike u x x' primary _ list list' hparams hspelled).apply f depth u,
    (invocationType_alike u x x' primary hd hshape list list' hparams hargs hspelled hlist).apply f depth u⟩

/-- A state with a method `Value first<Value>(Value x, Value... more)`. -/
def State.genericMethod : State :=
  let declaration (name : String) (shape : Shape) : Declaration :=
    { name, scope := [], unit := none, node := none, shared := false, shape }
  let value : Ty := .applied ⟨⟨4⟩, []⟩
  { graph := { decls := #[
      declaration "Integer" (.ofInterface {}),
      declaration "Sequence" (.ofInterface { params := [⟨2⟩] }),
      declaration "Element" (.typeParameter .invariant {}),
      declaration "first" (.method value [⟨4⟩] [⟨5⟩, ⟨6⟩] false false),
      declaration "Value" (.typeParameter .invariant {}),
      declaration "x" (.parameter value false false),
      declaration "more" (.parameter (.applied ⟨⟨1⟩, [value]⟩) false true)] }
    builtins := { (default : Builtins) with sequence := ⟨1⟩ } }

/-- The parameters of the generic method are proper: two names, the sequenced one last. -/
theorem genericMethod_parameters : State.genericMethod.ProperParameters [⟨5⟩, ⟨6⟩] where
  parameters := List.forall_mem_cons.mpr ⟨⟨_, _, _, rfl⟩, List.forall_mem_singleton.mpr ⟨_, _, _, rfl⟩⟩
  names := by decide
  sequenced := List.forall_mem_singleton.mpr rfl

/-- The calls `first(1, 1)` and `first { x = 1; 1 }` are both of type `Integer`. -/
theorem positional_named_agree_generic :
    let f := State.genericMethod
    let integer : Ty := .applied ⟨⟨0⟩, []⟩
    let one : Typed := { expr := .literal default .natural "1", type := integer }
    let callee : Expr := .reference default .member ⟨default, "first"⟩ []
    let primary : Typed := { expr := callee, type := .unknown, target := some ⟨3⟩ }
    let list : PositionalArgs := ⟨default, [one.expr, one.expr]⟩
    let list' : NamedArgs :=
      ⟨default, [⟨default, ⟨default, "x"⟩, one.expr⟩], some ⟨default, [one.expr]⟩⟩
    let named : List (Name × Typed) := [(⟨default, "x"⟩, one)]
    let result (x : Expr) (args : TypedArguments) :=
      (Checking.apply f 0 ⟨0⟩ (invocationType f ⟨0⟩ x primary args) f).1
    let positional := result (.invocation default callee (.positional list)) (.positional list [one, one])
    let byName := result (.invocation default callee (.named list')) (.named list' named [one])
    (f.ProperParameters [⟨5⟩, ⟨6⟩] ∧ f.HasRoom [⟨5⟩, ⟨6⟩] [one, one] ∧
      SpelledOut f [⟨5⟩, ⟨6⟩] [one, one] named [one]) ∧
      (positional.1.same integer ∧ positional.2 = false) ∧ positional = byName := by
  intro f integer one callee primary list list' named result positional byName
  have hargs : f.HasRoom [⟨5⟩, ⟨6⟩] [one, one] := .inl le_rfl
  have hspelled : SpelledOut f [⟨5⟩, ⟨6⟩] [one, one] named [one] := ⟨rfl, rfl⟩
  have hagree := positional_named_agree f 0 ⟨0⟩ (.invocation default callee (.positional list))
    (.invocation default callee (.named list')) primary list list' rfl rfl
    genericMethod_parameters hargs hspelled rfl
  exact ⟨⟨genericMethod_parameters, hargs, hspelled⟩, by decide, (hagree.2 f f rfl).1⟩

end Ceylon.Analysis
