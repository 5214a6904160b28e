import Ceylon.Model.Builtins
import Ceylon.Proofs.UnionCases

/-!
# Optional types

A type is optional if `Nothing` is one of its subtypes.  `Nothing` extends `Void` and nothing else, so a type
is optional exactly if one of its cases is `Nothing` or `Void`, and that question is always answered
(`Builtins.Standard.isOptional_iff`).

A type in normal form that is united with `Nothing` keeps the cases that are not covered by `Nothing`
(`Builtins.Standard.addCases_nothing_yields`).  If it has nothing to do with `Nothing`, that union is there, and the
cases it had before make it up again (`Builtins.Standard.answersWithin_unite_nothing`).
-/

namespace Ceylon.Model

open Ceylon.Model.Algebra (anySupertype notCoveredBy)

/-! ## The declarations of `Void`, `Nothing` and the bottom type -/

/-- What the language module says of the declarations that optional types are made of. -/
structure Builtins.Standard (b : Builtins) (h : Hierarchy) : Prop where
  extended : h.extended b.nothing = some ⟨b.void, []⟩
  satisfied : h.satisfied b.nothing = []
  top : h.supertypes b.void = []
  nothing_params : h.params b.nothing = []
  void_params : h.params b.void = []
  nothing_proper : h.isBottom b.nothing = false
  void_proper : h.isBottom b.void = false
  bottom : h.isBottom b.bottom = true

namespace Builtins.Standard

open Hierarchy

variable {b : Builtins} {h : Hierarchy} (hb : b.Standard h)
include hb

theorem supertypes_nothing : h.supertypes b.nothing = [⟨b.void, []⟩] := by
  simp [supertypes, hb.extended, hb.satisfied]

theorem nothing_ne_void : b.nothing ≠ b.void := by
  intro heq
  have htop := hb.top
  rw [← heq, hb.supertypes_nothing] at htop
  cases htop

theorem ascends_void_iff {d : DeclId} : h.Ascends b.void d ↔ d = b.void := by
  constructor
  · intro hway
    rcases Relation.ReflTransGen.cases_head hway with heq | ⟨_, ⟨st, hst, -⟩, -⟩
    · exact heq.symm
    · rw [hb.top] at hst
      cases hst
  · rintro rfl
    exact .refl

theorem ascends_nothing_iff {d : DeclId} : h.Ascends b.nothing d ↔ d = b.nothing ∨ d = b.void := by
  constructor
  · intro hway
    rcases Relation.ReflTransGen.cases_head hway with heq | ⟨e, ⟨st, hst, rfl⟩, hrest⟩
    · exact .inl heq.symm
    · rw [hb.supertypes_nothing, List.mem_singleton] at hst
      subst hst
      exact .inr (hb.ascends_void_iff.mp hrest)
  · rintro (rfl | rfl)
    · exact .refl
    · exact .single ⟨_, hb.supertypes_nothing ▸ List.mem_singleton_self _, rfl⟩

theorem search_void (d : DeclId) (path : List DeclId) :
    ∃ found, h.AnswersWithin 1 (.search ⟨b.void, []⟩ d path) found := by
  suffices (h.searchStep ⟨b.void, []⟩ d path).Reaches (h.AnswersWithin 0) fun _ => True from
    (answersWithin_of_reaches this).imp fun _ => And.left
  simp only [searchStep, hb.top, searchSupertypes]
  split
  · trivial
  · split <;> trivial

theorem search_nothing (d : DeclId) : ∃ found, h.AnswersWithin 2 (.search ⟨b.nothing, []⟩ d []) found := by
  suffices (h.searchStep ⟨b.nothing, []⟩ d []).Reaches (h.AnswersWithin 1) fun _ => True from
    (answersWithin_of_reaches this).imp fun _ => And.left
  simp only [searchStep, hb.supertypes_nothing, searchSupertypes]
  split
  · trivial
  · obtain ⟨found, hfound⟩ := hb.search_void d [b.nothing]
    refine ⟨found, hfound, ?_⟩
    cases found <;> trivial

/-- Whether a declared type has `Nothing` as a subtype is always answered. -/
theorem answers_nothing_applied (c : Applied) : h.AnswersWithin 3 (.subtype (plain b.nothing) (.applied c))
    (decide (c.decl = b.nothing ∨ c.decl = b.void)) := by
  obtain ⟨found, hfound⟩ := hb.search_nothing c.decl
  have hexact := (Answers.search_exact ⟨2, hfound⟩).1
  rw [hb.ascends_nothing_iff] at hexact
  by_cases hc : c.decl = b.nothing ∨ c.decl = b.void
  · have hparams : h.params c.decl = [] := by
      rcases hc with hc | hc
      · exact hc ▸ hb.nothing_params
      · exact hc ▸ hb.void_params
    refine (answersWithin_subtype_plain hb.nothing_proper hparams).mpr ⟨found, hfound, ?_⟩
    cases found with
    | none => exact absurd hc (hexact.mp rfl)
    | some sup => simpa using hc
  · rw [decide_eq_false hc]
    obtain rfl := hexact.mpr hc
    refine answersWithin_succ_iff.mpr ?_
    simp only [plain, step, subtypeStep, hb.nothing_proper]
    exact ⟨none, hfound, rfl⟩

/-- Whether a type is optional is always answered. -/
theorem answers_nothing (t : Ty) : h.AnswersWithin 4 (.subtype (plain b.nothing) t)
    (t.cases.any fun c => c.decl = b.nothing ∨ c.decl = b.void) := by
  cases t with
  | unknown => exact answersWithin_succ_iff.mpr rfl
  | applied a =>
    have ha := h.answerWithin_mono (by omega : 3 ≤ 4) (hb.answers_nothing_applied a)
    simpa [Ty.cases] using ha
  | union cases extended =>
    refine answersWithin_succ_iff.mpr ?_
    simp only [plain, step, subtypeStep, hb.nothing_proper, Ty.cases]
    change (anySupertype ⟨b.nothing, []⟩ cases).Reaches _ _
    induction cases with
    | nil => exact rfl
    | cons c cs ih =>
      refine ⟨_, hb.answers_nothing_applied c, ?_⟩
      rw [List.any_cons]
      cases decide (c.decl = b.nothing ∨ c.decl = b.void) with
      | true => exact rfl
      | false => exact ih

/-- A type is optional exactly if `Nothing` or `Void` is among its cases. -/
theorem isOptional_iff (t : Ty) :
    b.isOptional h t = true ↔ ∃ c ∈ t.cases, c.decl = b.nothing ∨ c.decl = b.void := by
  rw [isOptional, subtype_eq (by decide) (hb.answers_nothing t)]
  simp

/-! ## What is left of a type without `Nothing` -/

/-- Not all cases of a union are `Nothing`. -/
theorem exists_ne_nothing {ts : List Ty} {cases : List Applied} {extended : Option Applied}
    (hu : h.Answers (.unite ts) (.union cases extended)) : ∃ c ∈ cases, c.decl ≠ b.nothing := by
  obtain ⟨⟨first, second, rest, rfl⟩, normal, -⟩ := hu.union_cases
  by_contra hall
  push Not at hall
  have hfirst := hall first List.mem_cons_self
  have hsecond := hall second (List.mem_cons_of_mem _ List.mem_cons_self)
  have hfalse := (List.rel_of_pairwise_cons normal.antichain List.mem_cons_self).1
  have htrue := answersWithin_subtype_same hb.nothing_proper hb.nothing_params hfirst hsecond
  exact Bool.false_ne_true (hfalse.unique ⟨2, htrue⟩)

/-- If an optional type is a subtype of one that does not admit `Void`, then it admits `Nothing` itself, and
its other cases do not lead up to `Nothing`. -/
theorem search_nothing_of_mem {ts : List Ty} {t o : Ty} (ht : h.Answers (.unite ts) t)
    (hopt : ∃ c ∈ t.cases, c.decl = b.nothing ∨ c.decl = b.void) (hvoid : ∀ c ∈ o.cases, c.decl ≠ b.void)
    (hto : h.Answers (.subtype t o) true) (ho : o.isKnown) {c : Applied} (hc : c ∈ t.cases)
    (hne : c.decl ≠ b.nothing) :
    h.isBottom c.decl = false ∧ h.Answers (.search c b.nothing []) none := by
  obtain ⟨cases, -, normal, -, hcases⟩ := ht.of_unite
  obtain ⟨c₀, hc₀, hadmits⟩ := hopt
  have proper₀ : h.isBottom c₀.decl = false := by
    rcases hadmits with heq | heq
    · exact heq ▸ hb.nothing_proper
    · exact heq ▸ hb.void_proper
  have htcases : t.cases = cases := by
    refine hcases.resolve_right fun hbottom => ?_
    exact absurd (hbottom.2 c₀ hc₀) (by simp [proper₀])
  rw [htcases] at hc hc₀
  -- `Void` is no subtype of the other operand, so the case that admits nothing is `Nothing` itself
  have hnothing : c₀.decl = b.nothing := by
    refine hadmits.resolve_right fun heq => ?_
    have hcov := ((answers_subtype_iff_cases ho).mp hto).2 c₀ (htcases ▸ hc₀)
    obtain ⟨c', hc', hcov'⟩ := exists_of_anySupertype ((answers_subtype_iff proper₀).mp hcov)
    have hway := hcov'.ascends proper₀
    rw [heq, hb.ascends_void_iff] at hway
    exact hvoid c' hc' hway
  have proper := normal.proper c hc
  refine ⟨proper, ?_⟩
  -- the normal form keeps the two cases apart, so the search from the one for the other has ended without a
  -- find
  obtain ⟨⟨n, hn⟩, -⟩ := normal.antichain.forall hc hc₀ fun heq => hne (heq ▸ hnothing)
  cases n with
  | zero => cases hn
  | succ n =>
    obtain ⟨found, hfound, hnone⟩ :=
      (answersWithin_subtype_plain proper (hnothing ▸ hb.nothing_params)).mp hn
    obtain rfl : found = none := by simpa using hnone.symm
    exact hnothing ▸ ⟨n, hfound⟩

open Classical in
/-- A type that does not admit `Nothing` is added to it unless it is covered by `Nothing`. -/
theorem addCase_nothing_yields {cases : List Applied} {t : Applied} (proper : h.isBottom t.decl = false)
    (hcases : ∀ c ∈ cases, h.Incomparable c t) (ht : ¬ (t.decl = b.nothing ∨ t.decl = b.void)) :
    h.Yields (h.addCase (⟨b.nothing, []⟩ :: cases) t)
      (· = ⟨b.nothing, []⟩ :: cases ++
        if h.Answers (.subtype (.applied t) (plain b.nothing)) true then [] else [t]) := by
  rw [addCase, if_neg (by simp [proper])]
  refine ⟨.intro, fun r hr => ?_⟩
  -- The first case is compared first: what is below it is dropped.
  replace hr : h.Answers (.subtype (.applied t) (plain b.nothing)) r := hr
  cases r with
  | true =>
    rw [if_pos hr, List.append_nil]
    exact rfl
  | false =>
    rw [if_neg fun htrue => Bool.false_ne_true (hr.unique htrue)]
    refine (yields_of_reaches (anySupertype_reaches_false fun c hc => (hcases c hc).2)).bind ?_
    rintro _ rfl
    -- The first case is kept, because it is below nothing but itself and what is above all.
    have hnothing : h.Answers (.subtype (plain b.nothing) (.applied t)) false :=
      ⟨3, decide_eq_false ht ▸ hb.answers_nothing_applied t⟩
    have kept : (notCoveredBy t (⟨b.nothing, []⟩ :: cases)).Reaches h.Answers (· = ⟨b.nothing, []⟩ :: cases) :=
      notCoveredBy_reaches_self (List.forall_mem_cons.mpr ⟨hnothing, fun c hc => (hcases c hc).1⟩)
    refine (yields_of_reaches kept).bind ?_
    rintro _ rfl
    exact rfl

open Classical in
/-- What a type is made of that is united with `Nothing` and does not admit it: `Nothing`, and the cases that
are not covered by `Nothing`. -/
theorem addCases_nothing_yields {cases ts : List Applied} (normal : h.Normal (cases ++ ts))
    (hts : ∀ t ∈ ts, ¬ (t.decl = b.nothing ∨ t.decl = b.void)) :
    h.Yields (h.addCases (⟨b.nothing, []⟩ :: cases) ts) (· = ⟨b.nothing, []⟩ :: cases ++
      ts.filter fun t => ¬ h.Answers (.subtype (.applied t) (plain b.nothing)) true) := by
  induction ts generalizing cases with
  | nil => exact (List.append_nil _).symm
  | cons t ts ih =>
    obtain ⟨ht, hts⟩ := List.forall_mem_cons.mp hts
    have hmiddle := (List.pairwise_append.mp normal.antichain).2.2
    have hpairs : ∀ c ∈ cases, _ := fun c hc => hmiddle c hc t List.mem_cons_self
    have proper := normal.proper t (List.mem_append_right _ List.mem_cons_self)
    refine (hb.addCase_nothing_yields proper hpairs ht).bind ?_
    rintro _ rfl
    -- The next case goes, or it is kept at the end of those before.
    by_cases hcovered : h.Answers (.subtype (.applied t) (plain b.nothing)) true
    · have hsub : (cases ++ ts).Sublist (cases ++ t :: ts) := (List.sublist_cons_self t ts).append_left cases
      have hrest := ih ⟨fun c hc => normal.proper c (hsub.subset hc), normal.antichain.sublist hsub⟩ hts
      simpa [hcovered] using hrest
    · have happend : cases ++ t :: ts = cases ++ [t] ++ ts := by simp
      have hrest := ih (happend ▸ normal) hts
      simpa [hcovered] using hrest

/-- If a type has been united with one that does not admit `Nothing`, then `Nothing` comes first, and what does
not lead up to `Nothing` is a subtype of that type if one of the other cases covers it. -/
theorem gathered_with_nothing {us : List Ty} {u : Ty} (hu : h.Answers (.unite us) u)
    (hplain : ∀ c ∈ u.cases, ¬ (c.decl = b.nothing ∨ c.decl = b.void)) {cases : List Applied}
    (hcases : (h.addCases [] (⟨b.nothing, []⟩ :: u.cases)).Reaches h.Answers (· = cases)) :
    ∃ kept, cases = ⟨b.nothing, []⟩ :: kept ∧
      ∀ c : Applied, h.isBottom c.decl = false → h.Answers (.search c b.nothing []) none →
        (anySupertype c kept).Reaches h.Answers (· = true) → h.Answers (.subtype (.applied c) u) true := by
  classical
  obtain ⟨ucases, -, normal, -, hucases⟩ := hu.of_unite
  have first : h.addCase [] ⟨b.nothing, []⟩ = pure [⟨b.nothing, []⟩] := by
    rw [addCase, if_neg (by simp [hb.nothing_proper])]
    rfl
  rw [addCases, first] at hcases
  rcases hucases with rfl | ⟨-, hbottom⟩
  · obtain ⟨_, -, rfl, hkept⟩ := (hcases.ensures (hb.addCases_nothing_yields normal hplain)).result
    refine ⟨_, hkept, fun c proper hnone hany => (answers_subtype_iff proper).mpr ?_⟩
    refine anySupertype_reaches_of_filter hany fun r hr hdropped => ?_
    -- What was dropped is below the first case, and what is below that would be found there.
    have hcovered : h.Answers (.subtype (.applied r) (plain b.nothing)) true := by simpa using hdropped
    exact answers_subtype_false_of_covered proper hnone (normal.proper r hr) hcovered
  · obtain rfl : cases = [⟨b.nothing, []⟩] := by
      have hsame : h.addCases [⟨b.nothing, []⟩] u.cases = pure [⟨b.nothing, []⟩] := addCases_bottom hbottom
      have hcases' : (h.addCases [⟨b.nothing, []⟩] u.cases).Reaches h.Answers (· = cases) := hcases
      rw [hsame] at hcases'
      exact Eq.symm hcases'
    exact ⟨[], rfl, fun c _ _ hany => by cases hany⟩

/-- If an optional type is a subtype of another type or `Nothing`, then all that is left of it without `Nothing`
is a subtype of the other type. -/
theorem answers_subtype_of_optional {ts us : List Ty} {t u o : Ty} (ht : h.Answers (.unite ts) t)
    (hu : h.Answers (.unite us) u) (hopt : ∃ c ∈ t.cases, c.decl = b.nothing ∨ c.decl = b.void)
    (hplain : ∀ c ∈ u.cases, ¬ (c.decl = b.nothing ∨ c.decl = b.void))
    (ho : h.Answers (.unite [plain b.nothing, u]) o) (hto : h.Answers (.subtype t o) true)
    {c : Applied} (hc : c ∈ t.cases) (hne : c.decl ≠ b.nothing) :
    h.Answers (.subtype (.applied c) u) true := by
  obtain ⟨ocases, hgathered, -, hmem, hocases⟩ := ho.of_unite
  have hflat : [plain b.nothing, u].flatMap Ty.cases = ⟨b.nothing, []⟩ :: u.cases := by
    simp [plain, Ty.cases]
  rw [hflat] at hgathered hmem
  obtain ⟨kept, rfl, hkept⟩ := hb.gathered_with_nothing hu hplain hgathered
  have hoeq := hocases.resolve_right fun hnil => List.cons_ne_nil _ _ hnil.1
  have hvoid : ∀ c ∈ o.cases, c.decl ≠ b.void := by
    intro c hc
    rcases List.mem_cons.mp (hmem c hc) with rfl | hc
    · exact hb.nothing_ne_void
    · exact fun heq => hplain c hc (.inr heq)
  have hknown : o.isKnown := by
    cases o with
    | unknown => cases hoeq
    | applied | union => rfl
  obtain ⟨proper, hnone⟩ := hb.search_nothing_of_mem ht hopt hvoid hto hknown hc hne
  have hcov := ((answers_subtype_iff_cases hknown).mp hto).2 c hc
  have hany := (answers_subtype_iff proper).mp hcov
  rw [hoeq] at hany
  obtain ⟨r, hr, hnext⟩ := hany
  -- a case that reaches `Nothing` would have been merged with it, so the search goes on to the others
  cases r with
  | true => exact absurd (Answers.ascends proper hr) (hnone.search_exact.1.mp rfl)
  | false => exact hkept c proper hnone hnext

/-! ## Types united with `Nothing` -/

/-- The class that `Nothing` and other types extend is `Void`, if there is one. -/
theorem superclass_answered {n : Nat} {cases : List Applied}
    (hcases : ∀ c ∈ cases, h.AnswersWithin n (.search c b.nothing []) none) :
    ∃ extended, h.AnswersWithin (n + 5) (.superclass (⟨b.nothing, []⟩ :: cases) ⟨b.nothing, []⟩ []) extended := by
  have hsearch : ∀ d, d = b.nothing ∨ d = b.void → ∀ c ∈ (⟨b.nothing, []⟩ :: cases : List Applied),
      ∃ found, h.AnswersWithin (n + 2) (.search c d []) found := by
    intro d hd c hc
    rcases List.mem_cons.mp hc with rfl | hc
    · exact (hb.search_nothing d).imp fun _ => h.answerWithin_mono (by omega)
    · refine search_elsewhere (hcases c hc) fun _ x y hx hy => ⟨true, ?_⟩
      rcases hd with rfl | rfl
      · exact answersWithin_subtype_same hb.nothing_proper hb.nothing_params hx hy
      · exact answersWithin_subtype_same hb.void_proper hb.void_params hx hy
  -- the second and last step upwards: `Void` extends nothing, so the search ends there whatever it finds
  have hvoid : ∃ extended, h.AnswersWithin (n + 4)
      (.superclass (⟨b.nothing, []⟩ :: cases) ⟨b.void, []⟩ [b.nothing]) extended := by
    suffices (h.superclassStep (⟨b.nothing, []⟩ :: cases) ⟨b.void, []⟩ [b.nothing]).Reaches
        (h.AnswersWithin (n + 3)) fun _ => True from (answersWithin_of_reaches this).imp fun _ => And.left
    unfold superclassStep
    split
    · trivial
    · refine (commonClass_reaches (common_answered hb.void_params (hsearch _ (.inr rfl)))).bind fun common _ => ?_
      have htop : h.extended b.void = none := by
        have := hb.top
        simp only [supertypes, List.append_eq_nil_iff, Option.toList_eq_nil_iff] at this
        exact this.1
      cases common with
      | some st => trivial
      | none =>
        rw [htop]
        trivial
  suffices (h.superclassStep (⟨b.nothing, []⟩ :: cases) ⟨b.nothing, []⟩ []).Reaches
      (h.AnswersWithin (n + 4)) fun _ => True from (answersWithin_of_reaches this).imp fun _ => And.left
  have hcommon := (common_answered hb.nothing_params (hsearch _ (.inl rfl))).imp fun _ =>
    h.answerWithin_mono (by omega : n + 2 + 1 ≤ n + 4)
  refine (commonClass_reaches hcommon).bind fun common _ => ?_
  cases common with
  | some st => trivial
  | none =>
    obtain ⟨extended, hextended⟩ := hvoid
    rw [hb.extended]
    exact ⟨extended, hextended, trivial⟩

/-- A type that has nothing to do with `Nothing`, united with `Nothing`, has one case more; and the cases that it
had before make it up again. -/
theorem answersWithin_unite_nothing {n : Nat} {ts : List Ty} {t : Ty} (ht : h.AnswersWithin n (.unite ts) t)
    (known : t.isKnown)
    (hbelow : ∀ c ∈ t.cases, h.AnswersWithin n (.subtype (.applied c) (plain b.nothing)) false)
    (hplain : ∀ c ∈ t.cases, ¬ (c.decl = b.nothing ∨ c.decl = b.void)) :
    (∃ extended, h.AnswersWithin (n + 5) (.unite [plain b.nothing, t])
      (.union (⟨b.nothing, []⟩ :: t.cases) extended)) ∧
    t.cases ≠ [] ∧ h.AnswersWithin n (.unite (t.cases.map .applied)) t := by
  obtain ⟨n, rfl⟩ : ∃ m, n = m + 1 := by
    cases n with
    | zero => cases ht
    | succ m => exact ⟨m, rfl⟩
  obtain ⟨cases, -, normal, -, hmakes⟩ := uniteStep_reaches (answersWithin_succ_iff.mp ht)
  have proper : ∀ c ∈ t.cases, h.isBottom c.decl = false := by
    intro c hc
    by_contra hbottom
    have htrue : h.AnswersWithin (n + 1) (.subtype (.applied c) (plain b.nothing)) true := by
      rw [answersWithin_succ_iff]
      simp only [plain, step, subtypeStep, Bool.not_eq_false _ ▸ hbottom]
      exact rfl
    cases (hbelow c hc).symm.trans htrue
  have hcases : t.cases = cases ∧ cases ≠ [] := by
    cases hmakes with
    | unknown => cases known
    | bottom hbottom =>
      cases t with
      | applied a =>
        have htrue : h.isBottom a.decl = true := hbottom
        cases htrue.symm.trans (proper a List.mem_cons_self)
      | unknown | union => cases hbottom
    | single c => exact ⟨rfl, List.cons_ne_nil _ _⟩
    | union => exact ⟨rfl, List.cons_ne_nil _ _⟩
  obtain ⟨rfl, hne⟩ := hcases
  -- what the failed comparison with `Nothing` says of the search
  have hsearch : ∀ c ∈ t.cases, h.AnswersWithin n (.search c b.nothing []) none := by
    intro c hc
    have hfalse : h.AnswersWithin (n + 1) (.subtype (.applied c) (.applied ⟨b.nothing, []⟩)) false := hbelow c hc
    obtain ⟨found, hfound, hnone⟩ := (answersWithin_subtype_plain (proper c hc) hb.nothing_params).mp hfalse
    obtain rfl : found = none := by simpa using hnone.symm
    exact hfound
  -- `Nothing` stands before an antichain that it is not comparable with, so all of it is a normal form again
  refine ⟨?_, hne, answersWithin_succ_iff.mpr ?_⟩
  · obtain ⟨extended, hextended⟩ := hb.superclass_answered hsearch
    obtain ⟨first, rest, heq⟩ := List.exists_cons_of_ne_nil hne
    have hflat : [plain b.nothing, t].flatMap Ty.cases = ⟨b.nothing, []⟩ :: t.cases := by
      simp [plain, Ty.cases]
    refine ⟨extended, answersWithin_succ_iff.mpr (reaches_of_makesUp hflat ?_ (List.cons_ne_nil _ _) ?_)⟩
    · refine ⟨List.forall_mem_cons.mpr ⟨hb.nothing_proper, proper⟩, List.pairwise_cons.mpr ⟨fun c hc => ?_, ?_⟩⟩
      · have hnothing := hb.answers_nothing_applied c
        rw [decide_eq_false (hplain c hc)] at hnothing
        exact ⟨h.answerWithin_mono (by omega) hnothing, h.answerWithin_mono (by omega) (hbelow c hc)⟩
      · exact normal.antichain.imp fun hpair =>
          ⟨h.answerWithin_mono (by omega) hpair.1, h.answerWithin_mono (by omega) hpair.2⟩
    · rw [heq] at hextended ⊢
      exact .union hextended
  · have hflat : (t.cases.map Ty.applied).flatMap Ty.cases = t.cases := by
      simp [List.flatMap_map, Ty.cases]
    exact reaches_of_makesUp hflat normal hne hmakes

end Builtins.Standard

end Ceylon.Model
