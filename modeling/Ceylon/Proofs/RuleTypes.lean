import Mathlib.Data.Option.Basic
import Ceylon.Analysis.Checker.Expr
import Ceylon.Proofs.Outlook

/-!
# The types that rules find

Every typing rule keeps to the contract of `Ceylon.Proofs.Outlook`: from operands whose types fit the
outlook it builds a type that fits.  So all types it builds are well formed, and it gives none up without
a report.
-/

namespace Ceylon.Analysis

open Model Syntax

/-- A checked expression whose type fits, with what it refers to in sight. -/
structure Typed.Fits (z : Outlook) (x : Typed) : Prop where
  type : x.type.Fits z
  target : ∀ d, x.target = some d → z.sees d
  receiver : ∀ st, x.receiver = some st → st.Within z.toHorizon

/-- A verdict whose type fits, with what the expression refers to in sight. -/
structure Verdict.Fits (z : Outlook) (v : Verdict) : Prop where
  type : v.type.Fits z
  target : ∀ d, v.target = some d → z.sees d
  receiver : ∀ st, v.receiver = some st → st.Within z.toHorizon

theorem Typed.Fits.mono {z z' : Outlook} (hz : z.Le z') {x : Typed} (h : x.Fits z) : x.Fits z' :=
  ⟨h.type.mono hz, fun d hd => hz.sees d (h.target d hd), fun st hst => (h.receiver st hst).mono hz.toLe⟩

theorem Verdict.Fits.mono {z z' : Outlook} (hz : z.Le z') {v : Verdict} (h : v.Fits z) : v.Fits z' :=
  ⟨h.type.mono hz, fun d hd => hz.sees d (h.target d hd), fun st hst => (h.receiver st hst).mono hz.toLe⟩

/-- A supertype that a rule asks of an operand; it may be missing where types may. -/
def Supplied (z : Outlook) (r : Option Applied) : Prop :=
  (∀ st, r = some st → st.Within z.toHorizon) ∧ (r = none → z.blank)

/-- What a rule takes a supertype to be is a type that fits. -/
theorem Supplied.selfType {z : Outlook} {r : Option Applied} (h : Supplied z r) : (selfType r).Fits z := by
  cases r with
  | none => exact .missing (h.2 rfl)
  | some st =>
    have hst := h.1 st rfl
    dsimp only [Analysis.selfType]
    split
    · next a _ hargs =>
      split
      · exact .within (hst.args a (hargs ▸ List.mem_cons_self))
      · exact .within (.applied hst)
    · exact .within (.applied hst)

section

variable {f : State} {z : Outlook} (hf : f.Shows z)
include hf

/-! ## Operators -/

/-- A language type without parameters fits. -/
theorem plain_fits {d : DeclId} (hd : d ∈ f.builtins.simple) : (Builtins.plain d).Fits z :=
  .within (hf.builtins.plain hd)

/-- The type of conditions fits. -/
theorem boolean_fits : (Builtins.plain f.builtins.boolean).Fits z :=
  plain_fits hf (by simp [Builtins.simple])

/-- Asking an operand for a language type keeps to the contract, and supplies the supertype. -/
theorem category_keeps {x : Typed} (hx : x.Fits z) (d : DeclId) :
    (category f x d).Keeps f z (Supplied z) := by
  unfold category
  split
  · next hunknown => exact Rule.pure_keeps ⟨nofun, fun _ => hx.type.blank_of_unknown (by simpa using hunknown)⟩
  · split
    · next st hst =>
      refine Rule.pure_keeps ⟨fun st' hst' => ?_, nofun⟩
      obtain rfl := Option.some.inj hst'
      exact (f.graph.hierarchy.supertype?_within hf.closed hx.type d st hst).2
    · exact .bind (Rule.reportAt_keeps _ _) fun _ hblank => Rule.pure_keeps ⟨nofun, fun _ => hblank⟩

omit hf in
/-- Asking an operand for a type keeps to the contract. -/
theorem operand_keeps (x : Typed) (expected : Ty) : (operand f x expected).Keeps f z fun _ => True :=
  (Rule.reportIf_keeps _ _ _).mono fun _ _ => trivial

/-- Arithmetic finds a type that fits. -/
theorem arithmetic_keeps {x y : Typed} (hx : x.Fits z) (hy : y.Fits z) (d : DeclId) :
    (arithmetic f x y d).Keeps f z (·.Fits z) := by
  refine .bind (category_keeps hf hx d) fun r hr => ?_
  cases r with
  | none => exact .bind (Rule.discard_keeps (category_keeps hf hy d)) fun _ _ => Rule.pure_keeps (.missing (hr.2 rfl))
  | some st => exact .bind (operand_keeps _ _) fun _ _ => Rule.pure_keeps hr.selfType

/-- Comparing two operands keeps to the contract. -/
theorem comparison_keeps {x : Typed} (hx : x.Fits z) (y : Typed) :
    (comparison f x y).Keeps f z fun _ => True := by
  refine .bind (category_keeps hf hx _) fun r _ => ?_
  cases r with
  | none => exact Rule.pure_keeps trivial
  | some st => exact operand_keeps _ _

omit hf in
/-- A default operator finds a type that fits, if its right operand has one. -/
theorem defaultOperator_keeps (x : Typed) {y : Typed} (hy : y.Fits z) :
    (defaultOperator f x y).Keeps f z (·.Fits z) := by
  unfold defaultOperator
  split
  · exact Rule.pure_keeps hy.type
  · exact Rule.reportThen_keeps _ _ _ (Rule.reportThen_keeps _ _ _ (Rule.pure_keeps hy.type))

/-- Adding finds a type that fits, be the operands strings or numbers. -/
theorem addition_keeps {x y : Typed} (hx : x.Fits z) (hy : y.Fits z) :
    (addition f x y).Keeps f z (·.Fits z) := by
  unfold addition
  dsimp only
  split
  · exact .bind (operand_keeps _ _) fun _ _ => Rule.pure_keeps (plain_fits hf (by simp [Builtins.simple]))
  · exact arithmetic_keeps hf hx hy _

/-- Asking both operands for language types keeps to the contract. -/
theorem categories_keeps {x y : Typed} (hx : x.Fits z) (hy : y.Fits z) (d e : DeclId) :
    (categories f x y d e).Keeps f z fun _ => True :=
  .bind (Rule.discard_keeps (category_keeps hf hx d)) fun _ _ => Rule.discard_keeps (category_keeps hf hy e)

/-- An operation finds a type, if its operator is one of those that assign nothing. -/
theorem operationType_keeps (op : Token.Kind) {x y : Typed} (hx : x.Fits z) (hy : y.Fits z) :
    (operationType f op x y).Keeps f z fun t => Token.Kind.operations.contains op = true → t.Fits z := by
  have fits : ∀ {r : Rule Ty}, r.Keeps f z (·.Fits z) → r.Keeps f z fun t =>
      Token.Kind.operations.contains op = true → t.Fits z := fun h => h.mono fun _ ht _ => ht
  have boolean := boolean_fits hf
  have after : ∀ {r : Rule Unit} {t : Ty}, r.Keeps f z (fun _ => True) → t.Fits z →
      Rule.Keeps f z (r >>= fun _ => pure t) fun t => Token.Kind.operations.contains op = true → t.Fits z :=
    fun hr ht => fits (.bind hr fun _ _ => Rule.pure_keeps ht)
  unfold operationType
  dsimp only
  -- The operators in the order of the rule: the arithmetic ones, then the logical, the comparisons, the ones
  -- with a type of their own. Behind them only operators that are none of `operations` are left.
  split
  · exact fits (addition_keeps hf hx hy)
  iterate 5 exact fits (arithmetic_keeps hf hx hy _)
  iterate 4 exact fits (arithmetic_keeps hf hx hy _)
  iterate 2 exact fits (.bind (operand_keeps _ _) fun _ _ => .bind (operand_keeps _ _) fun _ _ =>
    Rule.pure_keeps boolean)
  iterate 2 exact after (categories_keeps hf hx hy _ _) boolean
  · exact after (categories_keeps hf hx hy _ _) boolean
  iterate 4 exact after (comparison_keeps hf hx y) boolean
  · exact after (comparison_keeps hf hx y) (plain_fits hf (by simp [Builtins.simple]))
  · exact after (categories_keeps hf hx hy _ _) boolean
  · refine fits (.bind (Rule.discard_keeps (category_keeps hf hx _)) fun _ _ =>
      .bind (comparison_keeps hf hx y) fun _ _ => Rule.pure_keeps ?_)
    split
    · next hknown => exact .within (hf.builtins.range (hx.type.within_of_isKnown hknown))
    · next hunknown => exact .missing (hx.type.blank_of_unknown (by simpa using hunknown))
  · refine fits (.bind (categories_keeps hf hx hy _ _) fun _ _ => Rule.pure_keeps ?_)
    split
    · next hknown =>
      rw [Bool.and_eq_true] at hknown
      exact .within (hf.builtins.entry (hx.type.within_of_isKnown hknown.1)
        (hy.type.within_of_isKnown hknown.2))
    · next hunknown =>
      rw [Bool.and_eq_true, not_and_or, Bool.not_eq_true, Bool.not_eq_true] at hunknown
      exact .missing (hunknown.elim hx.type.blank_of_unknown hy.type.blank_of_unknown)
  · exact fits (defaultOperator_keeps x hy)
  · next hother =>
    refine Rule.pure_keeps fun hop => ?_
    simp [Token.Kind.operations] at hop
    tauto

omit hf in
/-- Asking for something that can be assigned to keeps to the contract. -/
theorem assignTarget_keeps (x : Typed) : (assignTarget f x).Keeps f z fun _ => True := by
  unfold assignTarget
  split
  · split
    · exact Rule.pure_keeps trivial
    · exact Rule.pure_keeps trivial
    · exact (Rule.reportAt_keeps _ _).mono fun _ _ => trivial
  · exact (Rule.reportIf_keeps _ _ _).mono fun _ _ => trivial

/-- An assignment finds a type that fits. -/
theorem assignmentType_keeps (op : Token.Kind) {x y : Typed} (hx : x.Fits z) (hy : y.Fits z) :
    (assignmentType f op x y).Keeps f z (·.Fits z) := by
  refine .bind (assignTarget_keeps x) fun _ _ => ?_
  split
  · exact .bind (Rule.assignable_keeps _ _ _ _) fun _ _ => Rule.pure_keeps hx.type
  · exact .bind (Rule.discard_keeps (operationType_keeps hf _ hx hy)) fun _ _ => Rule.pure_keeps hx.type

/-- Every binary operator finds a type that fits. -/
theorem binaryType_keeps (op : BinaryOp) {x y : Typed} (hx : x.Fits z) (hy : y.Fits z) :
    (binaryType f op x y).Keeps f z (·.Fits z) := by
  unfold binaryType
  split
  · exact assignmentType_keeps hf _ hx hy
  · next hnot =>
    refine (operationType_keeps hf op.kind hx hy).mono fun t ht => ht ?_
    simpa [Token.Kind.isBinary, hnot] using op.isBinary

/-- Counting up or down finds a type that fits. -/
theorem stepType_keeps {x : Typed} (hx : x.Fits z) : (stepType f x).Keeps f z (·.Fits z) :=
  .bind (assignTarget_keeps x) fun _ _ => .bind (Rule.discard_keeps (category_keeps hf hx _)) fun _ _ =>
    Rule.pure_keeps hx.type

/-- Every prefix operator finds a type that fits. -/
theorem prefixType_keeps (op : UnaryOp) {x : Typed} (hx : x.Fits z) :
    (prefixType f op x).Keeps f z (·.Fits z) := by
  unfold prefixType
  dsimp only
  split
  · exact .bind (category_keeps hf hx _) fun r hr => Rule.pure_keeps hr.selfType
  · exact .bind (category_keeps hf hx _) fun r hr => Rule.pure_keeps hr.selfType
  · exact .bind (operand_keeps _ _) fun _ _ => Rule.pure_keeps (boolean_fits hf)
  · exact .bind (operand_keeps _ _) fun _ _ => Rule.pure_keeps (plain_fits hf (by simp [Builtins.simple]))
  · exact stepType_keeps hf hx
  · exact stepType_keeps hf hx
  · -- There is no other operator before an operand.
    have hunary := op.isUnary
    simp only [Token.Kind.isUnary, Token.Kind.prefixOperators] at hunary
    simp_all

end

/-! ## Type arguments -/

section

variable {h : Hierarchy} {z : Horizon}

mutual

/-- What an argument offers for a type parameter has been in sight with the argument. -/
theorem candidates_within (hc : h.Closed z) (want : List DeclId) : (param : Ty) → {arg : Ty} →
    arg.Within z → ∀ p ∈ candidates h want param arg, p.2.Within z
  | .unknown, _, _ => by simp [candidates]
  | .applied p, _, harg => by
    rw [candidates]
    exact appliedCandidates_within hc want p harg
  | .union cases _, arg, harg => by
    intro p hp
    simp only [candidates] at hp
    split at hp
    · cases hp
    · next hrest =>
      obtain ⟨c, -, hp⟩ := List.mem_flatMap.mp hp
      split at hp
      · obtain rfl := List.mem_singleton.mp hp
        -- What the concrete cases leave over of the argument is united for the cases that are type parameters.
        refine h.unite_within hc (.inr ?_) fun t ht => ?_
        · simpa using hrest
        · obtain ⟨a, ha, rfl⟩ := List.mem_map.mp ht
          exact .applied (harg.cases a (List.mem_filter.mp ha).1)
      · cases hp

/-- What an argument offers for the arguments of a type has been in sight with it. -/
theorem appliedCandidates_within (hc : h.Closed z) (want : List DeclId) : (param : Applied) →
    {arg : Ty} → arg.Within z → ∀ p ∈ appliedCandidates h want param arg, p.2.Within z
  | { decl, args }, arg, harg => by
    intro p hp
    rw [appliedCandidates] at hp
    split at hp
    · split at hp
      · obtain rfl := List.mem_singleton.mp hp
        exact harg
      · cases hp
    · split at hp
      · cases hp
      · next st hst =>
        exact argumentCandidates_within hc want args (h.supertype_within hc harg decl st hst).2.args p hp

/-- What arguments offer for those of a type has been in sight with them. -/
theorem argumentCandidates_within (hc : h.Closed z) (want : List DeclId) : (params : List Ty) →
    {args : List Ty} → (∀ a ∈ args, a.Within z) →
    ∀ p ∈ argumentCandidates h want params args, p.2.Within z
  | [], _, _ => by simp [argumentCandidates]
  | p :: ps, [], _ => by simp [argumentCandidates]
  | p :: ps, a :: as, hargs => by
    intro b hb
    rw [argumentCandidates] at hb
    rcases List.mem_append.mp hb with hb | hb
    · split at hb
      · exact candidates_within hc want p (hargs a List.mem_cons_self) b hb
      · cases hb
    · exact argumentCandidates_within hc want ps (fun a' ha' => hargs a' (List.mem_cons_of_mem a ha')) b hb

end

end

/-- The types that type parameters are bound to lie within the horizon. -/
def BindsWithin (z : Outlook) (b : Bindings) : Prop :=
  ∀ p ∈ b, p.2.Within z.toHorizon

section

variable {f : State} {z : Outlook} (hf : f.Shows z)
include hf

/-- Binding what has been found for type parameters keeps to the contract. -/
theorem bindFound_keeps (x : Expr) {found : Bindings} (hfound : BindsWithin z found)
    (hasUnknown : Bool) {bound : Bindings} (hbound : BindsWithin z bound) (typeParams : List DeclId) :
    (bindFound f x found hasUnknown bound typeParams).Keeps f z (BindsWithin z) := by
  induction typeParams generalizing bound with
  | nil => exact Rule.pure_keeps hbound
  | cons tp tps ih =>
    unfold bindFound
    split
    · exact ih hbound
    · split
      · exact Rule.reportThen_keeps _ _ _ (ih hbound)
      · next hne =>
        refine ih fun p hp => ?_
        rcases List.mem_append.mp hp with hp | hp
        · exact hbound p hp
        · obtain rfl := List.mem_singleton.mp hp
          -- A type parameter is bound to the union of the types that were found for it.
          refine f.graph.hierarchy.unite_within hf.closed (.inr ?_) fun t ht => ?_
          · exact hne
          · obtain ⟨⟨d, t'⟩, hmem, heq⟩ := List.mem_filterMap.mp ht
            dsimp only at heq
            split at heq
            · obtain rfl := Option.some.inj heq
              exact hfound _ hmem
            · cases heq

omit hf in
/-- What is paired with a parameter is the type of an argument. -/
theorem mem_pairPositional {params : List DeclId} {args : List Typed} {p : Pairing}
    (hp : p ∈ pairPositional f params args) : ∃ a ∈ args, p.actual = a.type := by
  induction params generalizing args with
  | nil => cases hp
  | cons q ps ih =>
    cases args with
    | nil => cases hp
    | cons a as =>
      rw [pairPositional] at hp
      split at hp
      · obtain ⟨a', ha', rfl⟩ := List.mem_map.mp hp
        exact ⟨a', ha', rfl⟩
      · rcases List.mem_cons.mp hp with rfl | hp
        · exact ⟨a, List.mem_cons_self, rfl⟩
        · obtain ⟨a', ha', heq⟩ := ih hp
          exact ⟨a', List.mem_cons_of_mem a ha', heq⟩

omit hf in
/-- A paired argument is one of those that have been given. -/
theorem mem_pairNamed {params : List DeclId} {args : List (Name × Typed)} {sequenced : List Typed}
    {p : Pairing} (hp : p ∈ pairNamed f params args sequenced) :
    ∃ a ∈ args.map (·.2) ++ sequenced, p.actual = a.type := by
  rcases List.mem_append.mp hp with hp | hp
  · obtain ⟨⟨name, a⟩, ha, heq⟩ := List.mem_filterMap.mp hp
    obtain ⟨q, -, rfl⟩ := Option.map_eq_some_iff.mp heq
    exact ⟨a, List.mem_append_left _ (List.mem_map_of_mem ha), rfl⟩
  · split at hp
    · cases hp
    · obtain ⟨a, ha, rfl⟩ := List.mem_map.mp hp
      exact ⟨a, List.mem_append_right _ ha, rfl⟩

end

/-- All arguments of an invocation. -/
def TypedArguments.all : TypedArguments → List Typed
  | .positional _ args => args
  | .named _ args sequenced => args.map (·.2) ++ sequenced

/-- A paired argument is one of those that have been checked. -/
theorem TypedArguments.mem_pair {f : State} {params : List DeclId} {args : TypedArguments} {p : Pairing}
    (hp : p ∈ args.pair f params) : ∃ a ∈ args.all, p.actual = a.type := by
  cases args with
  | positional list args => exact mem_pairPositional hp
  | named list args sequenced => exact mem_pairNamed hp

section

variable {f : State} {z : Outlook} (hf : f.Shows z)
include hf

/-- Inferring type arguments keeps to the contract, and binds only what is in sight. -/
theorem inferTypeArguments_keeps (x : Expr) (typeParams params : List DeclId) {args : TypedArguments}
    (hargs : ∀ a ∈ args.all, a.Fits z) {bound : Bindings} (hbound : BindsWithin z bound) :
    (inferTypeArguments f x typeParams params args bound).Keeps f z (BindsWithin z) := by
  refine bindFound_keeps hf x (fun b hb => ?_) _ hbound typeParams
  obtain ⟨p, hp, hb⟩ := List.mem_flatMap.mp hb
  split at hb
  · next hknown =>
    obtain ⟨a, ha, heq⟩ := TypedArguments.mem_pair hp
    rw [heq] at hknown hb
    exact candidates_within hf.closed typeParams _ ((hargs a ha).type.within_of_isKnown hknown) b hb
  · cases hb

/-! ## Matching arguments

Matching arguments with parameters finds no types; it only reports. -/

omit hf

/-- Asking whether an argument can be assigned keeps to the contract. -/
theorem argumentAssignable_keeps (a : Typed) (param : DeclId) (expected : Ty) (what : String) :
    (argumentAssignable f a param expected what).Keeps f z fun _ => True :=
  (Rule.reportIf_keeps _ _ _).mono fun _ _ => trivial

/-- Matching positional arguments keeps to the contract. -/
theorem matchPositional_keeps (list : PositionalArgs) (bound : Bindings) (params : List DeclId)
    (args : List Typed) : (matchPositional f list bound params args).Keeps f z fun _ => True := by
  induction params generalizing args with
  | nil => exact Rule.forM_keeps fun a _ => (Rule.reportAt_keeps _ _).mono fun _ _ => trivial
  | cons p ps ih =>
    unfold matchPositional
    dsimp only
    split
    · exact Rule.forM_keeps fun a _ => argumentAssignable_keeps a _ _ _
    · exact Rule.reportThen_keeps _ _ _ (ih [])
    · exact ih []
    · exact .bind (argumentAssignable_keeps _ _ _ _) fun _ _ => ih _

/-- Matching named arguments keeps to the contract. -/
theorem matchNamed_keeps (bound : Bindings) (params : List DeclId) (given : List String)
    (args : List (Name × Typed)) :
    (matchNamed f bound params given args).Keeps f z fun _ => True := by
  induction args generalizing given with
  | nil => exact Rule.pure_keeps trivial
  | cons arg args ih =>
    obtain ⟨name, a⟩ := arg
    rw [matchNamed]
    split
    · exact .bind (Rule.reportAt_keeps _ _) fun _ _ => ih _
    · split
      · exact .bind (Rule.reportAt_keeps _ _) fun _ _ => ih _
      · exact .bind (argumentAssignable_keeps _ _ _ _) fun _ _ => ih _

/-- Matching the sequenced argument keeps to the contract. -/
theorem matchSequenced_keeps (bound : Bindings) (params : List DeclId) (given : List String)
    (arg : SequencedArg) (args : List Typed) :
    (matchSequenced f bound params given arg args).Keeps f z fun _ => True := by
  unfold matchSequenced
  split
  · exact .bind (Rule.reportAt_keeps _ _) fun _ _ => Rule.pure_keeps trivial
  · exact .bind (Rule.forM_keeps fun a _ => argumentAssignable_keeps a _ _ _) fun _ _ =>
      Rule.pure_keeps trivial

/-- Matching arguments with parameters keeps to the contract. -/
theorem matchArguments_keeps (params : List DeclId) (args : TypedArguments) (bound : Bindings) :
    (matchArguments f params args bound).Keeps f z fun _ => True := by
  have required : ∀ list given, Rule.Keeps f z (params.forM (requireArgument f list given)) fun _ => True :=
    fun list given => Rule.forM_keeps fun p _ => (Rule.reportIf_keeps _ _ _).mono fun _ _ => trivial
  cases args with
  | positional list args => exact matchPositional_keeps list bound params args
  | named list args sequenced =>
    refine .bind (matchNamed_keeps bound params [] args) fun given _ => ?_
    split
    · exact .bind (Rule.pure_keeps (P := fun _ => True) trivial) fun given _ => required list given
    · exact .bind (matchSequenced_keeps bound params given _ sequenced) fun given _ => required list given

end

/-! ## Names and members -/

section

variable {g : Graph} {imports : List Imported} {name : String} {filter : Filter} {d : DeclId}

/-- A member that has been found is one, and has passed the filter. -/
theorem mem_of_directMember? {s : ScopeId} (h : g.directMember? s name filter = some d) :
    d ∈ g.membersOf s ∧ filter (g.decl d) = true := by
  refine ⟨Array.mem_of_find?_eq_some h, ?_⟩
  have hfound := Array.find?_some h
  dsimp only at hfound
  exact (Bool.and_eq_true _ _ ▸ hfound).2

/-- What a name is found to stand for passes the test. -/
theorem filter_of_lookup? {c : ScopeChain} (h : g.lookup? imports name filter c = some d) :
    filter (g.decl d) = true := by
  induction c with
  | nil => cases h
  | cons s outer ih =>
    rcases (Option.orElse_eq_some _ _ _).mp h with h | ⟨-, h⟩
    · cases s with
      | package p => exact (Option.filter_eq_some_iff.mp h).2
      | block b => cases h
      | decl e => cases h
    · rcases (Option.orElse_eq_some _ _ _).mp h with h | ⟨-, h⟩
      · exact (mem_of_directMember? h).2
      · exact ih h

/-- A declaration that has been found by its name has passed the filter. -/
theorem State.filter_of_lookup? {f : State} {u : Option UnitId} {c : ScopeChain}
    (h : f.lookup? u c name filter = some d) : filter (f.graph.decl d) = true := by
  rcases (Option.orElse_eq_some _ _ _).mp h with h | ⟨-, h⟩
  · exact Analysis.filter_of_lookup? h
  · exact (mem_of_directMember? h).2

end

/-- At a node there are only names of what is in sight, and types built from it. -/
structure State.Clear (f : State) (z : Outlook) (u : UnitId) (n : Node) : Prop where
  names : ∀ name filter d, f.lookup? u (f.scopeAt u n.mark) name filter = some d → z.sees d
  enclosing : ∀ d, f.graph.enclosingType? (f.scopeAt u n.mark) = some d → z.sees d
  refs : ∀ t, n = .type t →
    (∀ ty, f.typeRef? u t.mark = some ty → ty.Within z.toHorizon) ∧ (z.blank ∨ (f.typeRef? u t.mark).isSome)

section

variable {f : State} {z : Outlook} (hf : f.Shows z)
include hf

/-- The members that a declaration in sight has or inherits are in sight. -/
theorem findMemberWithin_sees {name : String} {filter : Filter} (depth : Nat) :
    (∀ seen d m, z.sees d → (f.graph.findMemberWithin name filter depth seen d).2 = some m →
      z.sees m ∧ filter (f.graph.decl m) = true) ∧
    ∀ seen (sts : List Applied) m, (∀ st ∈ sts, z.sees st.decl) →
      (f.graph.findInheritedWithin name filter depth seen sts).2 = some m →
      z.sees m ∧ filter (f.graph.decl m) = true := by
  -- The two searches call each other, so both are followed at once.
  induction depth with
  | zero => exact ⟨fun _ _ _ _ h => by simp [Graph.findMemberWithin] at h,
      fun _ _ _ _ h => by simp [Graph.findInheritedWithin] at h⟩
  | succ depth ih =>
    refine ⟨fun seen d m hd h => ?_, fun seen sts m hsts h => ?_⟩
    · rw [Graph.findMemberWithin] at h
      split at h
      · cases h
      · split at h
        · next m' hm' =>
          obtain rfl := Option.some.inj h
          obtain ⟨hmem, hfilter⟩ := mem_of_directMember? hm'
          exact ⟨hf.members d hd m' hmem, hfilter⟩
        · exact ih.2 _ _ m (fun st hst => (hf.closed.supertypes d hd st hst).sees) h
    · cases sts with
      | nil => simp [Graph.findInheritedWithin] at h
      | cons st sts =>
        rw [Graph.findInheritedWithin] at h
        split at h
        · next seen' m' hfound =>
          obtain rfl := Option.some.inj h
          exact ih.1 seen st.decl m' (hsts st List.mem_cons_self) (by rw [hfound])
        · exact ih.2 _ sts m (fun st' hst' => hsts st' (List.mem_cons_of_mem st hst')) h

/-- The type that members of a type are looked up in is in sight. -/
theorem receiver?_within {t : Ty} (ht : t.Within z.toHorizon) {a : Applied} (ha : f.receiver? t = some a) :
    a.Within z.toHorizon := by
  cases ht with
  | unknown _ => cases ha
  | applied hwithin =>
    obtain rfl := Option.some.inj ha
    exact hwithin
  | @union cases extended hne hproper hcases habove =>
    dsimp only [State.receiver?] at ha
    split at ha
    · next cases' extended' hunited =>
      have hunion : (f.graph.hierarchy.unite (cases.map .applied)).Within z.toHorizon := by
        refine f.graph.hierarchy.unite_within hf.closed (hne.imp id fun hne => by simpa using hne) fun t ht => ?_
        obtain ⟨c, hc, rfl⟩ := List.mem_map.mp ht
        exact .applied (hcases c hc)
      rw [hunited] at hunion
      cases hunion with
      | union _ _ _ habove' => exact habove' a ha
    · exact habove a ha

/-- A member of a type in sight is in sight, and so is the supertype that it is inherited from. -/
theorem memberOf?_sees {t : Ty} (ht : t.Within z.toHorizon) {name : String} {filter : Filter} {d : DeclId}
    {sup : Option Applied} (h : f.memberOf? t name filter = some (d, sup)) :
    z.sees d ∧ filter (f.graph.decl d) = true ∧ ∀ st, sup = some st → st.Within z.toHorizon := by
  obtain ⟨recv, hrecv, h⟩ := Option.bind_eq_some_iff.mp h
  have hwithin := receiver?_within hf ht hrecv
  obtain ⟨m, hm, h⟩ := Option.bind_eq_some_iff.mp h
  have hseen := (findMemberWithin_sees hf _).1 [] recv.decl m hwithin.sees hm
  split at h
  · cases h
    exact ⟨hseen.1, hseen.2, nofun⟩
  · cases h
    refine ⟨hseen.1, hseen.2, fun st hst => ?_⟩
    exact (f.graph.hierarchy.supertype_within hf.closed (.applied hwithin) _ st hst).2

/-! ## References -/

omit hf in
/-- Explicit type arguments have been resolved, and are in sight. -/
theorem explicitBindings_within {u : UnitId} (typeParams : List DeclId) {typeArgs : List TypeRef}
    (hargs : ∀ a ∈ typeArgs, f.Clear z u (.type a)) :
    BindsWithin z (explicitBindings f u typeParams typeArgs) := by
  intro p hp
  obtain ⟨⟨d, a⟩, hmem, heq⟩ := List.mem_filterMap.mp hp
  obtain ⟨t, ht, rfl⟩ := Option.map_eq_some_iff.mp heq
  exact ((hargs a (List.of_mem_zip hmem).2).refs a rfl).1 t ht

/-- Applying type arguments to a type that fits gives one that fits. -/
theorem applyTypeArgs_keeps {u : UnitId} (d : DeclId) {typeArgs : List TypeRef}
    (hargs : ∀ a ∈ typeArgs, f.Clear z u (.type a)) {t : Ty} (ht : t.Fits z) (x : Expr) :
    (applyTypeArgs f u d typeArgs t x).Keeps f z (·.Fits z) := by
  unfold applyTypeArgs
  split
  · exact Rule.pure_keeps ht
  · have hsubstituted := f.graph.hierarchy.substitute_fits hf.closed
      (explicitBindings_within (f.graph.decl d).shape.typeParams hargs) ht
    dsimp only
    split
    · exact .bind (Rule.reportAt_keeps _ _) fun _ _ => Rule.pure_keeps hsubstituted
    · exact Rule.pure_keeps hsubstituted

/-- Naming a type finds a type that fits. -/
theorem typeReference_keeps {u : UnitId} {d : DeclId} (hd : z.sees d) {typeArgs : List TypeRef}
    (hargs : ∀ a ∈ typeArgs, f.Clear z u (.type a)) (x : Expr) :
    (typeReference f u d typeArgs x).Keeps f z (·.Fits z) :=
  applyTypeArgs_keeps hf d hargs (.within (.applied (f.graph.hierarchy.declared_within hf.closed hd))) x

omit hf in
/-- After a report there need not be a type. -/
theorem missing_keeps (n : Node) (message : String) :
    Rule.Keeps f z (do reportAt n message; return Ty.unknown) (Ty.Fits z) :=
  .bind (Rule.reportAt_keeps n message) fun _ hblank => Rule.pure_keeps (.missing hblank)

omit hf in
/-- A problem excuses an expression from having a type. -/
theorem unknown_keeps (n : Node) (message : String) :
    Rule.Keeps f z (do reportAt n message; return { type := .unknown }) (Verdict.Fits z) :=
  .bind (Rule.reportAt_keeps _ _) fun _ hblank => Rule.pure_keeps ⟨.missing hblank, nofun, nofun⟩

/-- A name on its own finds a type that fits. -/
theorem referenceRule_keeps {u : UnitId} {x : Expr} (hx : f.Clear z u (.expr x)) (sort : RefSort)
    (name : Name) {typeArgs : List TypeRef} (hargs : ∀ a ∈ typeArgs, f.Clear z u (.type a)) :
    (referenceRule f u x sort name typeArgs).Keeps f z (Verdict.Fits z) := by
  have target : ∀ {d : DeclId} {t : Ty}, z.sees d → t.Fits z →
      Verdict.Fits z { type := t, target := some d } := fun hd ht =>
    ⟨ht, fun d' hd' => Option.some.inj hd' ▸ hd, nofun⟩
  unfold referenceRule
  dsimp only
  cases sort with
  | member =>
    dsimp only
    split
    · exact unknown_keeps _ _
    · next d hd =>
      -- A name is looked up in the scope of the reference, from where its target can be seen.
      have hsees := hx.names _ _ d hd
      refine .bind (Rule.typeOfDecl_keeps hsees (State.filter_of_lookup? hd) _) fun t ht => ?_
      exact .bind (applyTypeArgs_keeps hf d hargs ht x) fun t' ht' => Rule.pure_keeps (target hsees ht')
  | type =>
    dsimp only
    split
    · exact unknown_keeps _ _
    · next d hd =>
      have hsees := hx.names _ _ d hd
      exact .bind (typeReference_keeps hf hsees hargs x) fun t ht => Rule.pure_keeps (target hsees ht)

/-- Taking the optional apart for a member keeps a type fit. -/
theorem unwrap_keeps {primary : Typed} (hp : primary.Fits z) (op : MemberOp) :
    (unwrap f primary op).Keeps f z (·.Fits z) := by
  unfold unwrap
  dsimp only
  split
  · next hunknown => exact Rule.pure_keeps (.missing (hp.type.blank_of_unknown (by simpa using hunknown)))
  · cases op with
    | plain => exact Rule.pure_keeps hp.type
    | safe =>
      dsimp only
      split
      · exact Rule.pure_keeps (Builtins.definite_fits hf.closed hf.builtins hp.type)
      · exact missing_keeps _ _
    | spread =>
      dsimp only
      split
      · next d a as hst =>
        -- The elements of a sequence are its type argument.
        have hwithin := (f.graph.hierarchy.supertype?_within hf.closed hp.type _ _ hst).2
        exact Rule.pure_keeps (.within (hwithin.args a List.mem_cons_self))
      · exact missing_keeps _ _

/-- Putting the optional back around a member keeps a type fit. -/
theorem rewrap_fits {t : Ty} (ht : t.Fits z) (op : MemberOp) : (rewrap f t op).Fits z := by
  unfold rewrap
  split
  · next hknown =>
    have hwithin := ht.within_of_isKnown hknown
    cases op with
    | plain => exact ht
    | safe => exact .within (Builtins.optional_within hf.closed
        (hf.builtins.plain (by simp [Builtins.simple])) hwithin)
    | spread => exact .within (hf.builtins.sequenceOf hwithin)
  · next hunknown => exact .missing (ht.blank_of_unknown (by simpa using hunknown))

/-- A member that has been selected is in sight, and there may be none only where types may be missing. -/
def Selected (f : State) (z : Outlook) (filter : Filter) (r : Option (DeclId × Option Applied)) : Prop :=
  (r = none → z.blank) ∧ ∀ d sup, r = some (d, sup) →
    z.sees d ∧ filter (f.graph.decl d) = true ∧ ∀ st, sup = some st → st.Within z.toHorizon

/-- Selecting a member finds one in sight, or reports that there is none. -/
theorem selectMember_keeps {u : UnitId} (x : Expr) {primary : Typed} (hp : primary.Fits z) (op : MemberOp)
    (name : Name) (filter : Filter) :
    (selectMember f u x primary op name filter).Keeps f z (Selected f z filter) := by
  refine .bind (unwrap_keeps hf hp op) fun recv hrecv => ?_
  split
  · next hunknown =>
    exact Rule.pure_keeps ⟨fun _ => hrecv.blank_of_unknown (by simpa using hunknown), nofun⟩
  · next hknown =>
    split
    · exact .bind (Rule.reportAt_keeps _ _) fun _ hblank => Rule.pure_keeps ⟨fun _ => hblank, nofun⟩
    · next d sup hmember =>
      have hsees := memberOf?_sees hf (hrecv.within_of_isKnown (by simpa using hknown)) hmember
      have hselected : Selected f z filter (some (d, sup)) := by
        refine ⟨nofun, fun d' sup' heq => ?_⟩
        cases heq
        exact hsees
      split
      · exact .bind (Rule.reportAt_keeps _ _) fun _ _ => Rule.pure_keeps hselected
      · exact Rule.pure_keeps hselected

omit hf in
/-- What a supertype binds is in sight. -/
theorem bindingsOf_within {sup : Option Applied} (hsup : ∀ st, sup = some st → st.Within z.toHorizon) :
    BindsWithin z (bindingsOf f.graph.hierarchy sup) := by
  cases sup with
  | none => exact List.forall_mem_nil _
  | some st => exact Hierarchy.bindings_within (hsup st rfl)

/-- A name behind a primary finds a type that fits. -/
theorem qualifiedRule_keeps {u : UnitId} (x : Expr) {primary : Typed} (hp : primary.Fits z) (op : MemberOp)
    (sort : RefSort) (name : Name) {typeArgs : List TypeRef}
    (hargs : ∀ a ∈ typeArgs, f.Clear z u (.type a)) :
    (qualifiedRule f u x primary op sort name typeArgs).Keeps f z (Verdict.Fits z) := by
  have fits : ∀ {d : DeclId} {sup : Option Applied} {t : Ty}, z.sees d →
      (∀ st, sup = some st → st.Within z.toHorizon) → t.Fits z →
      Verdict.Fits z { type := rewrap f t op, target := some d, receiver := sup } := fun hd hsup ht =>
    ⟨rewrap_fits hf ht op, fun d' hd' => Option.some.inj hd' ▸ hd, hsup⟩
  unfold qualifiedRule
  cases sort with
  | member =>
    refine .bind (selectMember_keeps hf x hp op name _) fun r hr => ?_
    match r, hr with
    | none, hr => exact Rule.pure_keeps ⟨.missing (hr.1 rfl), nofun, nofun⟩
    | some (d, sup), hr =>
      obtain ⟨hsees, htyped, hsup⟩ := hr.2 d sup rfl
      refine .bind (Rule.typeOfDecl_keeps hsees htyped _) fun declared hdeclared => ?_
      -- The declared type is seen from the receiver: its parameters are replaced by the arguments of the
      -- receiver's type.
      refine .bind (applyTypeArgs_keeps hf d hargs (f.graph.hierarchy.substitute_fits hf.closed
        (bindingsOf_within hsup) hdeclared) x) fun t ht => Rule.pure_keeps (fits hsees hsup ht)
  | type =>
    refine .bind (selectMember_keeps hf x hp op name _) fun r hr => ?_
    match r, hr with
    | none, hr => exact Rule.pure_keeps ⟨.missing (hr.1 rfl), nofun, nofun⟩
    | some (d, sup), hr =>
      obtain ⟨hsees, -, hsup⟩ := hr.2 d sup rfl
      exact .bind (typeReference_keeps hf hsees hargs x) fun t ht => Rule.pure_keeps (fits hsees hsup ht)

/-- A reference to the own or the outer instance finds a type that fits. -/
theorem selfRule_keeps {u : UnitId} {x : Expr} (hx : f.Clear z u (.expr x)) (kind : SelfKind) :
    (selfRule f u x kind).Keeps f z (Verdict.Fits z) := by
  have declared : ∀ {d : DeclId}, z.sees d →
      Verdict.Fits z { type := .applied (f.graph.hierarchy.declared d) } := fun hd =>
    ⟨.within (.applied (f.graph.hierarchy.declared_within hf.closed hd)), nofun, nofun⟩
  unfold selfRule
  -- `this` is the enclosing type, `outer` the one around it, `super` what it extends.
  cases kind with
  | this =>
    dsimp only
    split
    · next d hd => exact Rule.pure_keeps (declared (hx.enclosing d hd))
    · exact unknown_keeps _ _
  | outer =>
    dsimp only
    split
    · next e he =>
      obtain ⟨d, hd, he⟩ := Option.bind_eq_some_iff.mp he
      exact Rule.pure_keeps (declared (hf.around d (hx.enclosing d hd) e he))
    · exact unknown_keeps _ _
  | super =>
    dsimp only
    split
    · next t ht =>
      obtain ⟨d, hd, ht⟩ := Option.bind_eq_some_iff.mp ht
      split at ht
      · have hsuper : t ∈ f.graph.hierarchy.supertypes d :=
          List.mem_append_left _ (Option.mem_toList.mpr ht)
        exact Rule.pure_keeps ⟨.within (.applied (hf.closed.supertypes d (hx.enclosing d hd) t hsuper)),
          nofun, nofun⟩
      · cases ht
    · exact unknown_keeps _ _

/-! ## Invocations -/

/-- The type arguments of an invocation, given or inferred, are in sight. -/
theorem invocationBindings_keeps {u : UnitId} (x : Expr) {primary : Typed} (hp : primary.Fits z)
    (hexplicit : ∀ a ∈ typeArgsOf primary.expr.unparen, f.Clear z u (.type a))
    (typeParams params : List DeclId) {args : TypedArguments} (hargs : ∀ a ∈ args.all, a.Fits z) :
    (invocationBindings f u x primary typeParams params args).Keeps f z (BindsWithin z) := by
  have hinherited := bindingsOf_within (f := f) hp.receiver
  unfold invocationBindings
  dsimp only
  split
  · refine Rule.pure_keeps fun p hmem => ?_
    exact (List.mem_append.mp hmem).elim (explicitBindings_within typeParams hexplicit p) (hinherited p)
  · exact inferTypeArguments_keeps hf x typeParams params hargs hinherited

/-- An invocation finds a type that fits. -/
theorem invocationType_keeps {u : UnitId} (x : Expr) {primary : Typed} (hp : primary.Fits z)
    (hexplicit : ∀ a ∈ typeArgsOf primary.expr.unparen, f.Clear z u (.type a)) {args : TypedArguments}
    (hargs : ∀ a ∈ args.all, a.Fits z) :
    (invocationType f u x primary args).Keeps f z (·.Fits z) := by
  unfold invocationType
  dsimp only
  split
  · split
    · exact missing_keeps _ _
    · next hunknown =>
      rw [Bool.or_eq_true, not_or, Bool.not_eq_true, Bool.not_eq_true] at hunknown
      exact Rule.pure_keeps (.missing (hp.type.blank_of_unknown hunknown.2))
  · next d hd =>
    have hsees := hp.target d (Option.filter_eq_some_iff.mp hd).1
    split
    · exact missing_keeps _ _
    · next params _ =>
      refine .bind (invocationBindings_keeps hf x hp hexplicit _ params hargs) fun bound hbound =>
        .bind (matchArguments_keeps _ _ _) fun _ _ => ?_
      split
      · next hshape =>
        refine .bind (Rule.typeOfDecl_keeps hsees (by rw [hshape]; rfl) _) fun declared hdeclared => ?_
        exact Rule.pure_keeps (rewrap_fits hf
          (f.graph.hierarchy.substitute_fits hf.closed hbound hdeclared) _)
      · refine Rule.pure_keeps (rewrap_fits hf (.within (.applied (.mk hsees ?_ fun a ha => ?_))) _)
        · rw [List.length_map, hf.closed.arity]
          rfl
        · obtain ⟨p, hparam, rfl⟩ := List.mem_map.mp ha
          -- a parameter that is not bound stands for itself, which is in sight of the class
          cases hlookup : bound.lookup p with
          | none => exact .applied (hf.closed.params d hsees p hparam)
          | some t => exact hbound _ (Hierarchy.mem_of_lookup hlookup)

/-! ## Other expressions -/

/-- A sequence finds a type that fits. -/
theorem sequenceType_keeps (x : Expr) {elems : List Typed} (helems : ∀ e ∈ elems, e.Fits z) :
    (sequenceType f x elems).Keeps f z (·.Fits z) := by
  unfold sequenceType
  split
  · exact missing_keeps _ _
  · next hne =>
    have hunited : (f.graph.hierarchy.unite (elems.map (·.type))).Fits z := by
      refine f.graph.hierarchy.unite_fits hf.closed (by simpa using hne) fun t ht => ?_
      obtain ⟨e, he, rfl⟩ := List.mem_map.mp ht
      exact (helems e he).type
    refine Rule.pure_keeps ?_
    split
    · next hknown => exact .within (hf.builtins.sequenceOf (hunited.within_of_isKnown hknown))
    · next hunknown => exact .missing (hunited.blank_of_unknown (by simpa using hunknown))

/-- A subscript finds a type that fits. -/
theorem subscriptType_keeps (key : Ty) {item : Ty} (hitem : item.Within z.toHorizon) (safe : Bool)
    (subscript : TypedSubscript) : (subscriptType f key item safe subscript).Keeps f z (·.Fits z) := by
  have hnothing : (Builtins.plain f.builtins.nothing).Within z.toHorizon :=
    hf.builtins.plain (by simp [Builtins.simple])
  have hsequence := hf.builtins.sequenceOf hitem
  have hitems : (if safe then f.builtins.optional f.graph.hierarchy (f.builtins.sequenceOf item)
      else f.builtins.sequenceOf item).Fits z := by
    split
    · exact .within (Builtins.optional_within hf.closed hnothing hsequence)
    · exact .within hsequence
  cases subscript with
  | element index =>
    exact .bind (Rule.assignable_keeps _ _ _ _) fun _ _ =>
      Rule.pure_keeps (.within (Builtins.optional_within hf.closed hnothing hitem))
  | span lower upper =>
    exact .bind (Rule.assignable_keeps _ _ _ _) fun _ _ => .bind (Rule.assignable_keeps _ _ _ _) fun _ _ =>
      Rule.pure_keeps hitems
  | tail lower => exact .bind (Rule.assignable_keeps _ _ _ _) fun _ _ => Rule.pure_keeps hitems

/-- Indexing finds a type that fits. -/
theorem indexType_keeps {primary : Typed} (hp : primary.Fits z) (safe : Bool) (subscript : TypedSubscript) :
    (indexType f primary safe subscript).Keeps f z (·.Fits z) := by
  unfold indexType
  dsimp only
  split
  · next hunknown => exact Rule.pure_keeps (.missing (hp.type.blank_of_unknown (by simpa using hunknown)))
  · split
    · exact missing_keeps _ _
    · have hreceiver : (if safe then f.builtins.definite f.graph.hierarchy primary.type
          else primary.type).Fits z := by
        split
        · exact Builtins.definite_fits hf.closed hf.builtins hp.type
        · exact hp.type
      split
      · next d key item rest hst =>
        have hwithin := (f.graph.hierarchy.supertype?_within hf.closed hreceiver _ _ hst).2
        exact subscriptType_keeps hf key (hwithin.args item (by simp)) safe subscript
      · exact missing_keeps _ _

omit hf in
/-- Asking for an optional type keeps to the contract. -/
theorem checkOptional_keeps (x : Typed) : (checkOptional f x).Keeps f z fun _ => True :=
  (Rule.reportIf_keeps _ _ _).mono fun _ _ => trivial

omit hf in
/-- Asking for a container keeps to the contract. -/
theorem checkContainer_keeps (x : Typed) : (checkContainer f x).Keeps f z fun _ => True :=
  (Rule.reportIf_keeps _ _ _).mono fun _ _ => trivial

/-- Every literal has a type that fits. -/
theorem literalType_fits (kind : LiteralKind) : (literalType f.builtins kind).Fits z := by
  cases kind <;> exact plain_fits hf (by simp [Builtins.simple])

end

end Ceylon.Analysis
