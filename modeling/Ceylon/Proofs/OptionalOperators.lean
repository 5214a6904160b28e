import Ceylon.Analysis.Checker.Expr
import Ceylon.Proofs.OptionalTypes
import Ceylon.Proofs.TypeEquality

/-!
# Operators on optional types

If `x ?: y` is accepted, then what is left of the type of `x` without `Nothing` is made of subtypes of the type of
`y` (`defaultOperator_fits`).  The check compares the type of `x` with the optional form of the other one, which
has fewer cases than that type if some of them are subclasses of `Nothing`; no case that matters is a subtype of
those.

To turn the type of a member into that of a reference and to select from that reference again gives the type of
the member back (`unwrap_rewrap`).
-/

namespace Ceylon.Analysis

open Model Hierarchy

section

variable {f : State} (hf : f.builtins.Standard f.graph.hierarchy)
include hf

/-! ## The default operator -/

omit hf in
/-- When `x ?: y` is accepted. -/
theorem defaultOperator_silent_iff {x y : Typed} (hx : x.type.isKnown) (hy : y.type.isKnown) :
    defaultOperator f x y = pure y.type ↔
      f.builtins.isOptional f.graph.hierarchy x.type = true ∧
        f.graph.hierarchy.subtype x.type (if f.builtins.isOptional f.graph.hierarchy y.type then y.type
          else f.builtins.optional f.graph.hierarchy y.type) = true := by
  unfold defaultOperator
  simp only [hx, hy, Bool.not_true, Bool.or_self, Bool.false_eq_true, if_false]
  cases f.builtins.isOptional f.graph.hierarchy x.type with
  | false => exact ⟨nofun, nofun⟩
  | true =>
    cases f.graph.hierarchy.subtype x.type (if f.builtins.isOptional f.graph.hierarchy y.type then y.type
        else f.builtins.optional f.graph.hierarchy y.type) with
    | false => exact ⟨nofun, nofun⟩
    | true => exact ⟨fun _ => ⟨rfl, rfl⟩, fun _ => rfl⟩

/-- The cases of the left type of an accepted default operator are subtypes of the right type, but for
`Nothing`. -/
theorem cases_fit_of_silent {x y : Typed} {ts us : List Ty}
    (hx : f.graph.hierarchy.Answers (.unite ts) x.type) (hy : f.graph.hierarchy.Answers (.unite us) y.type)
    (knownx : x.type.isKnown) (knowny : y.type.isKnown) (silent : defaultOperator f x y = pure y.type)
    {c : Applied} (hc : c ∈ x.type.cases) (hne : c.decl ≠ f.builtins.nothing) :
    f.graph.hierarchy.Answers (.subtype (.applied c) y.type) true := by
  obtain ⟨hopt, hfit⟩ := (defaultOperator_silent_iff knownx knowny).mp silent
  cases hoptional : f.builtins.isOptional f.graph.hierarchy y.type with
  | true =>
    rw [hoptional, if_pos rfl] at hfit
    exact ((answers_subtype_iff_cases knowny).mp (answers_of_subtype hfit)).2 c hc
  | false =>
    rw [hoptional, if_neg Bool.false_ne_true] at hfit
    have hadmits := (hf.isOptional_iff x.type).mp hopt
    have hplain : ∀ c ∈ y.type.cases, ¬ (c.decl = f.builtins.nothing ∨ c.decl = f.builtins.void) := by
      intro c hc hadmit
      rw [(hf.isOptional_iff y.type).mpr ⟨c, hc, hadmit⟩] at hoptional
      cases hoptional
    rcases unite_eq_or f.graph.hierarchy [Builtins.plain f.builtins.nothing, y.type] with hunite | hfallback
    · exact hf.answers_subtype_of_optional hx hy hadmits hplain hunite (answers_of_subtype hfit) hc hne
    · -- Nothing but `Nothing` is a subtype of `Nothing` here, so there is no such case.
      have hnothing : f.graph.hierarchy.Answers (.subtype x.type (Builtins.plain f.builtins.nothing)) true := by
        have hfit := answers_of_subtype hfit
        rw [Builtins.optional, hfallback] at hfit
        exact hfit
      have hvoid : ∀ c ∈ (Builtins.plain f.builtins.nothing).cases, c.decl ≠ f.builtins.void := by
        rintro c hc heq
        exact hf.nothing_ne_void ((congrArg Applied.decl (List.mem_singleton.mp hc)).symm.trans heq)
      obtain ⟨proper, hnone⟩ := hf.search_nothing_of_mem hx hadmits hvoid hnothing rfl hc hne
      have hcov := ((answers_subtype_iff_cases rfl).mp hnothing).2 c hc
      exact absurd (Answers.ascends proper hcov) (hnone.search_exact.1.mp rfl)

/-- If `x ?: y` is accepted for types in normal form, then every case of the left type but `Nothing` is a subtype
of the right type.  So is the left type without its case for nothing, if it is a declared type, or if it is a
union and what is left of it makes up a type.  It does if there is but one case left, or if the question is
answered which class the cases that are left extend. -/
theorem defaultOperator_fits (x y : Typed) (ts us : List Ty)
    (hx : f.graph.hierarchy.Answers (.unite ts) x.type) (hy : f.graph.hierarchy.Answers (.unite us) y.type)
    (knownx : x.type.isKnown) (knowny : y.type.isKnown) (silent : defaultOperator f x y = pure y.type) :
    let h := f.graph.hierarchy
    let b := f.builtins
    (∀ c ∈ x.type.cases, c.decl ≠ b.nothing → h.Answers (.subtype (.applied c) y.type) true) ∧
      (∀ a, x.type = .applied a → h.Answers (.subtype (b.definite h x.type) y.type) true) ∧
      ∀ cases extended, x.type = .union cases extended →
        let rest := cases.filter (·.decl ≠ b.nothing)
        rest ≠ [] ∧
          (∀ u : Ty, h.answer? (.unite (rest.map .applied)) = some u →
            b.definite h x.type = u ∧ u.cases = rest ∧ h.Answers (.subtype u y.type) true) ∧
          (h.Finishes (.unite (rest.map .applied)) ↔
            ∀ first second more, rest = first :: second :: more → h.Finishes (.superclass rest first [])) := by
  intro h b
  have fits : ∀ c ∈ x.type.cases, c.decl ≠ b.nothing → h.Answers (.subtype (.applied c) y.type) true :=
    fun c hc hne => cases_fit_of_silent hf hx hy knownx knowny silent hc hne
  -- One case fits as it is. What is left of a union has the same cases, so once it is united each of them
  -- fits.
  refine ⟨fits, fun a ha => ?_, fun cases extended hunion => ?_⟩
  · rw [ha]
    by_cases hnothing : a.decl = b.nothing
    · rw [Builtins.definite, if_pos hnothing]
      exact (answers_subtype_iff_cases knowny).mpr ⟨rfl, fun c hc => answers_subtype_of_bottom knowny
        (List.mem_singleton.mp hc ▸ hf.bottom)⟩
    · rw [Builtins.definite, if_neg hnothing]
      exact fits a (ha ▸ List.mem_singleton_self a) hnothing
  · intro rest
    rw [hunion] at hx fits
    obtain ⟨c, hc, hother⟩ := hf.exists_ne_nothing hx
    have hne : rest ≠ [] := List.ne_nil_of_mem (List.mem_filter.mpr ⟨hc, by simpa using hother⟩)
    obtain ⟨hrest, hfinishes⟩ := unite_rest hx List.filter_sublist hne
    refine ⟨hne, fun u hu => ?_, hfinishes⟩
    have hcases := hrest u ⟨depth, hu⟩
    refine ⟨?_, hcases.2, ?_⟩
    · have hdefinite : b.definite h x.type = h.unite (rest.map .applied) := by
        rw [hunion, Builtins.definite]
        split
        · next hnil => exact absurd hnil hne
        · rfl
      exact hdefinite.trans (unite_eq le_rfl hu)
    · refine (answers_subtype_iff_cases knowny).mpr ⟨hcases.1, fun c hc => ?_⟩
      have hmem := List.mem_filter.mp (hcases.2 ▸ hc)
      exact fits c hmem.1 (by simpa using hmem.2)

end

/-- `class Void()`, `class Nothing() extends Void()`, the bottom type, `interface N<in Z>`,
`class G<out T>() extends Void()`, `class A() extends G<C>()`, `class B() extends G<N<C>>()` and
`class C() extends Void() satisfies N<N<C>>`. -/
def selfNestingClasses : State :=
  let declaration (name : String) (shape : Shape) : Declaration :=
    { name, scope := [], unit := none, node := none, shared := false, shape }
  let ofClass (name : String) (generic : Generic) : Declaration :=
    declaration name (.ofClass generic none false false)
  let void : Applied := ⟨⟨0⟩, []⟩
  let c : Applied := ⟨⟨9⟩, []⟩
  let nc : Applied := ⟨⟨3⟩, [.applied c]⟩
  { graph := { decls := #[
      ofClass "Void" {},
      ofClass "Nothing" { extended := some void },
      declaration "Bottom" (.ofClass {} none false true),
      declaration "N" (.ofInterface { params := [⟨4⟩] }),
      declaration "Z" (.typeParameter .contravariant {}),
      ofClass "G" { params := [⟨6⟩], extended := some void },
      declaration "T" (.typeParameter .covariant {}),
      ofClass "A" { extended := some ⟨⟨5⟩, [.applied c]⟩ },
      ofClass "B" { extended := some ⟨⟨5⟩, [.applied nc]⟩ },
      ofClass "C" { extended := some void, satisfied := [⟨⟨3⟩, [.applied nc]⟩] }] }
    builtins := { (default : Builtins) with void := ⟨0⟩, nothing := ⟨1⟩, bottom := ⟨2⟩ } }

theorem selfNestingClasses_standard :
    selfNestingClasses.builtins.Standard selfNestingClasses.graph.hierarchy :=
  ⟨rfl, rfl, rfl, rfl, rfl, rfl, rfl, rfl⟩

/-- For `x ?: y` with `A|Nothing|C` and `A|C`, what is left of the left type is the right one. -/
theorem defaultOperator_fits_classes :
    let f := selfNestingClasses
    let h := f.graph.hierarchy
    let x : Typed := { (default : Typed) with
      type := .union [⟨⟨7⟩, []⟩, ⟨⟨1⟩, []⟩, ⟨⟨9⟩, []⟩] (some ⟨⟨0⟩, []⟩) }
    let y : Typed := { (default : Typed) with type := .union [⟨⟨7⟩, []⟩, ⟨⟨9⟩, []⟩] (some ⟨⟨0⟩, []⟩) }
    defaultOperator f x y = pure y.type ∧ f.builtins.definite h x.type = y.type ∧
      h.Answers (.subtype y.type y.type) true := by
  intro f h x y
  have optional : f.builtins.isOptional h x.type = true := subtype_eq (by decide) (n := 8) rfl
  have plain : f.builtins.isOptional h y.type = false := subtype_eq (by decide) (n := 8) rfl
  have united : f.builtins.optional h y.type =
      .union [⟨⟨1⟩, []⟩, ⟨⟨7⟩, []⟩, ⟨⟨9⟩, []⟩] (some ⟨⟨0⟩, []⟩) := unite_eq (by decide) (n := 8) rfl
  -- Without a diagnostic the result is the type of the right operand.
  have silent : defaultOperator f x y = pure y.type := by
    refine (defaultOperator_silent_iff rfl rfl).mpr ⟨optional, ?_⟩
    rw [plain, if_neg Bool.false_ne_true, united]
    exact subtype_eq (by decide) (n := 8) rfl
  have fits := defaultOperator_fits selfNestingClasses_standard x y [x.type] [y.type] ⟨8, rfl⟩ ⟨8, rfl⟩ rfl rfl silent
  obtain ⟨-, hrest, -⟩ := fits.2.2 _ _ rfl
  obtain ⟨hdefinite, -, hfits⟩ := hrest y.type (h.answerWithin_mono (by decide : 8 ≤ depth) rfl)
  exact ⟨silent, hdefinite, hfits⟩

/-- `x ?: y` is accepted for `A|Nothing|B` and `Void`, but the question what is left of the left type without
`Nothing` is never answered.  The class that `A` and `B` extend would be a `G` of the union of `C` and `N<C>`, and
whether `C` is an `N<C>` asks itself. -/
theorem definite_not_answered :
    let f := selfNestingClasses
    let h := f.graph.hierarchy
    let a : Applied := ⟨⟨7⟩, []⟩
    let b : Applied := ⟨⟨8⟩, []⟩
    let x : Typed := { (default : Typed) with type := .union [a, ⟨f.builtins.nothing, []⟩, b] (some ⟨⟨0⟩, []⟩) }
    let y : Typed := { (default : Typed) with type := Builtins.plain f.builtins.void }
    f.builtins.Standard h ∧
      h.Answers (.unite [.applied a, Builtins.plain f.builtins.nothing, .applied b]) x.type ∧
      h.Answers (.unite [y.type]) y.type ∧
      defaultOperator f x y = pure y.type ∧
      ¬ h.Finishes (.unite [.applied a, .applied b]) := by
  intro f h a b x y
  have optional : f.builtins.isOptional h x.type = true := subtype_eq (by decide) (n := 8) rfl
  have optional' : f.builtins.isOptional h y.type = true := subtype_eq (by decide) (n := 8) rfl
  refine ⟨selfNestingClasses_standard, ⟨8, rfl⟩, ⟨8, rfl⟩, ?_, fun hfinishes => ?_⟩
  · refine (defaultOperator_silent_iff rfl rfl).mpr ⟨optional, ?_⟩
    rw [optional', if_pos rfl]
    exact subtype_eq (by decide) (n := 8) rfl
  · let c : Applied := ⟨⟨9⟩, []⟩
    let nc : Applied := ⟨⟨3⟩, [.applied c]⟩
    -- Down the questions that uniting the two classes asks, to the one about `C` and `N<C>` that asks itself
    -- again.
    have hclass : h.Finishes (.superclass [a, b] a []) :=
      hfinishes.of_asks (.inr ⟨false, ⟨8, rfl⟩, .inr ⟨false, ⟨8, rfl⟩, .inl rfl⟩⟩)
    have habove : h.Finishes (.superclass [a, b] ⟨⟨5⟩, [.applied c]⟩ [a.decl]) :=
      hclass.of_asks (.inr ⟨none, ⟨8, rfl⟩, .inl rfl⟩)
    have hcommon : h.Finishes (.common [a, b] ⟨5⟩) := habove.of_asks (.inl rfl)
    have hargument : h.Finishes (.unite [.applied c, .applied nc]) :=
      hcommon.of_asks (.inr ⟨_, ⟨8, rfl⟩, .inr ⟨_, ⟨8, rfl⟩, .inl rfl⟩⟩)
    have hself : h.Finishes (.subtype (.applied c) (.applied nc)) :=
      hargument.of_asks (.inr ⟨false, ⟨8, rfl⟩, .inl rfl⟩)
    exact not_finishes_of_nesting rfl rfl rfl ⟨8, rfl⟩ hself

/-! ## Selecting from what a member operator makes of a type -/

section

variable {f : State} (hf : f.builtins.Standard f.graph.hierarchy)
include hf

omit hf in
theorem rewrap_safe {t : Ty} (known : t.isKnown) : rewrap f t .safe = f.builtins.optional f.graph.hierarchy t :=
  if_pos known

/-- For each member operator, to unwrap what the operator makes of a type in normal form gives that type and
reports nothing.  For `?.` no case of the type may be a subtype or a supertype of `Nothing`. -/
theorem unwrap_rewrap (op : Syntax.MemberOp) (n : Nat) (hn : n + 5 ≤ Hierarchy.depth) (ts : List Ty) (t : Ty)
    (ht : f.graph.hierarchy.AnswersWithin n (.unite ts) t) (known : t.isKnown)
    (apart : op = .safe → ∀ c ∈ t.cases,
      f.graph.hierarchy.AnswersWithin n (.subtype (.applied c) (Builtins.plain f.builtins.nothing)) false ∧
        f.graph.hierarchy.subtype (Builtins.plain f.builtins.nothing) (.applied c) = false)
    (x : Typed) (hx : x.type = rewrap f t op) :
    unwrap f x op = pure t ∧ t.same t := by
  refine ⟨?_, Ty.same_refl t⟩
  cases op with
  | plain =>
    have hx : x.type = t := hx.trans (if_pos known)
    rw [unwrap, hx]
    simp [known]
  | spread =>
    have hx : x.type = f.builtins.sequenceOf t := hx.trans (if_pos known)
    have hself : f.graph.hierarchy.supertype? (f.builtins.sequenceOf t) f.builtins.sequence =
        some ⟨f.builtins.sequence, [t]⟩ :=
      supertype?_eq (by decide) (answersWithin_search_self ⟨f.builtins.sequence, [t]⟩ [])
    rw [unwrap, hx]
    simp only [hself]
    rfl
  | safe =>
    have hplain : ∀ c ∈ t.cases, ¬ (c.decl = f.builtins.nothing ∨ c.decl = f.builtins.void) := by
      intro c hc hadmits
      have hoptional := (hf.isOptional_iff (.applied c)).mpr ⟨c, List.mem_singleton_self c, hadmits⟩
      exact absurd ((apart rfl c hc).2.symm.trans hoptional) nofun
    -- optional again is `Nothing` beside the cases of `t`, and taking it out leaves `t`
    obtain ⟨⟨extended, hunite⟩, hne, hagain⟩ :=
      hf.answersWithin_unite_nothing ht known (fun c hc => (apart rfl c hc).1) hplain
    have hoptional : x.type = .union (⟨f.builtins.nothing, []⟩ :: t.cases) extended :=
      hx.trans ((rewrap_safe known).trans (unite_eq hn hunite))
    have hadmits : f.builtins.isOptional f.graph.hierarchy x.type = true := by
      rw [hf.isOptional_iff, hoptional]
      exact ⟨⟨f.builtins.nothing, []⟩, List.mem_cons_self, .inl rfl⟩
    have hrest : (⟨f.builtins.nothing, []⟩ :: t.cases : List Applied).filter (·.decl ≠ f.builtins.nothing) =
        t.cases := by
      rw [List.filter_cons_of_neg (by simp), List.filter_eq_self]
      exact fun c hc => decide_eq_true fun heq => hplain c hc (.inl heq)
    have hdefinite : f.builtins.definite f.graph.hierarchy x.type = t := by
      rw [hoptional, Builtins.definite, hrest]
      split
      · next hnil => exact absurd hnil hne
      · exact unite_eq (by omega) hagain
    rw [unwrap]
    simp only [hadmits, hdefinite, if_true]
    rw [hoptional]
    rfl

end

/-- To turn `A|C` into `Nothing|A|C` and back. -/
theorem unwrap_rewrap_classes :
    let f := selfNestingClasses
    let t : Ty := .union [⟨⟨7⟩, []⟩, ⟨⟨9⟩, []⟩] (some ⟨⟨0⟩, []⟩)
    let x : Typed := { (default : Typed) with type := rewrap f t .safe }
    rewrap f t .safe = .union [⟨⟨1⟩, []⟩, ⟨⟨7⟩, []⟩, ⟨⟨9⟩, []⟩] (some ⟨⟨0⟩, []⟩) ∧
      unwrap f x .safe = pure t ∧ t.same t := by
  intro f t x
  have united : f.builtins.optional f.graph.hierarchy t =
      .union [⟨⟨1⟩, []⟩, ⟨⟨7⟩, []⟩, ⟨⟨9⟩, []⟩] (some ⟨⟨0⟩, []⟩) := unite_eq (by decide) (n := 8) rfl
  refine ⟨(rewrap_safe rfl).trans united, ?_⟩
  refine unwrap_rewrap selfNestingClasses_standard .safe 8 (by decide) [t] t rfl rfl (fun _ c hc => ?_) x rfl
  rcases List.mem_cons.mp hc with rfl | hc
  · exact ⟨rfl, subtype_eq (by decide) (n := 8) rfl⟩
  · obtain rfl := List.mem_singleton.mp hc
    exact ⟨rfl, subtype_eq (by decide) (n := 8) rfl⟩

end Ceylon.Analysis
