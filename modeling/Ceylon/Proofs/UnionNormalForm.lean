import Ceylon.Proofs.Congruence
import Ceylon.Proofs.Termination

/-!
# The normal form of unions

The cases of a union are gathered one after the other: a case that an earlier one covers is not added, and
earlier ones that a new case covers are dropped.  What is left is in normal form (`Hierarchy.Normal`): there
is no bottom type among the cases, and no case is a subtype of another.  This needs nothing of subtyping, in
particular not that it is transitive: each pair of cases that are left has been compared both ways when the
later one came in.

To gather cases in normal form again gives the same cases in the same order.  To add what the cases cover
already changes nothing; that each case covers itself is the one law of subtyping used here
(`Hierarchy.Answers.of_subset`).
-/

namespace Ceylon.Model.Hierarchy

open Ceylon.Model.Algebra (argumentConforms argumentsConform allSubtypes anySupertype notCoveredBy)
open Syntax (Variance)

variable {h : Hierarchy}

/-! ## Gathering cases -/

/-- Neither of two declared types is a subtype of the other. -/
def Incomparable (h : Hierarchy) (a b : Applied) : Prop :=
  h.Answers (.subtype (.applied a) (.applied b)) false ∧
    h.Answers (.subtype (.applied b) (.applied a)) false

instance : Std.Symm h.Incomparable where
  symm _ _ := And.symm

/-- Cases none of which is the bottom type, and none a subtype of another as far as `ok` says. -/
structure NormalFor (h : Hierarchy) (ok : (q : Query) → q.Answer → Prop) (cases : List Applied) :
    Prop where
  proper : ∀ c ∈ cases, h.isBottom c.decl = false
  antichain : cases.Pairwise fun a b =>
    ok (.subtype (.applied a) (.applied b)) false ∧ ok (.subtype (.applied b) (.applied a)) false

/-- The cases of a union in normal form. -/
structure Normal (h : Hierarchy) (cases : List Applied) : Prop where
  proper : ∀ c ∈ cases, h.isBottom c.decl = false
  antichain : cases.Pairwise h.Incomparable

theorem normalFor_answers {cases : List Applied} : h.NormalFor h.Answers cases ↔ h.Normal cases :=
  ⟨fun ⟨proper, antichain⟩ => ⟨proper, antichain⟩, fun ⟨proper, antichain⟩ => ⟨proper, antichain⟩⟩

/-- A computation comes to results with the property as long as its questions are answered. -/
abbrev Yields (h : Hierarchy) {α : Type} (m : Algebra α) (P : α → Prop) : Prop :=
  m.Ensures (fun _ => True) h.Answers P

/-- Where the answers lead, there is nowhere else to come to. -/
theorem yields_of_reaches {α : Type} {m : Algebra α} {P : α → Prop} (hm : m.Reaches h.Answers P) :
    h.Yields m P := by
  induction m with
  | done a => exact hm
  | ask q next ih =>
    obtain ⟨r, hr, hnext⟩ := hm
    refine ⟨.intro, fun r' hr' => ?_⟩
    obtain rfl := hr.unique hr'
    exact ih r hnext

section

variable {ok : (q : Query) → q.Answer → Prop}

theorem normalFor_nil : h.NormalFor ok [] :=
  ⟨List.forall_mem_nil _, List.Pairwise.nil⟩

theorem anySupertype_ensures (t : Applied) (cases : List Applied) :
    (anySupertype t cases).Ensures (fun _ => True) ok fun b =>
      b = false → ∀ c ∈ cases, ok (.subtype (.applied t) (.applied c)) false := by
  induction cases with
  | nil => exact fun _ => List.forall_mem_nil _
  | cons c cs ih =>
    refine ⟨.intro, fun r hr => ?_⟩
    cases r with
    | true => exact fun hfalse => nomatch hfalse
    | false => exact ih.mono fun b hb hfalse => List.forall_mem_cons.mpr ⟨hr, hb hfalse⟩

theorem notCoveredBy_ensures (t : Applied) (cases : List Applied) :
    (notCoveredBy t cases).Ensures (fun _ => True) ok fun kept =>
      kept.Sublist cases ∧ ∀ c ∈ kept, ok (.subtype (.applied c) (.applied t)) false := by
  induction cases with
  | nil => exact ⟨.slnil, List.forall_mem_nil _⟩
  | cons c cs ih =>
    refine ⟨.intro, fun r hr => ih.bind fun kept hkept => ?_⟩
    cases r with
    | true => exact ⟨hkept.1.cons c, hkept.2⟩
    | false => exact ⟨hkept.1.cons_cons c, List.forall_mem_cons.mpr ⟨hr, hkept.2⟩⟩

/-- One more case leaves the cases in normal form. -/
theorem addCase_ensures {cases : List Applied} (normal : h.NormalFor ok cases) (t : Applied) :
    (h.addCase cases t).Ensures (fun _ => True) ok fun r =>
      h.NormalFor ok r ∧ ∀ c ∈ r, c ∈ cases ∨ c = t := by
  unfold addCase
  split
  · exact ⟨normal, fun c hc => .inl hc⟩
  · next hbottom =>
    refine (anySupertype_ensures t cases).bind fun covered hcovered => ?_
    cases covered with
    | true => exact ⟨normal, fun c hc => .inl hc⟩
    | false =>
      refine (notCoveredBy_ensures t cases).bind fun kept ⟨hsub, hkept⟩ => ?_
      refine ⟨⟨?_, ?_⟩, ?_⟩
      · -- What is kept was there before, and the new case is no bottom type.
        intro c hc
        rcases List.mem_append.mp hc with hc | hc
        · exact normal.proper c (hsub.subset hc)
        · obtain rfl := List.mem_singleton.mp hc
          simpa using hbottom
      · refine List.pairwise_append.mpr ⟨normal.antichain.sublist hsub, .cons nofun .nil, ?_⟩
        intro c hc t' ht'
        obtain rfl := List.mem_singleton.mp ht'
        exact ⟨hkept c hc, hcovered rfl c (hsub.subset hc)⟩
      · intro c hc
        exact (List.mem_append.mp hc).imp (fun hc => hsub.subset hc) List.mem_singleton.mp

/-- Further cases leave the cases in normal form. -/
theorem addCases_ensures {cases : List Applied} (normal : h.NormalFor ok cases) (ts : List Applied) :
    (h.addCases cases ts).Ensures (fun _ => True) ok fun r =>
      h.NormalFor ok r ∧ ∀ c ∈ r, c ∈ cases ∨ c ∈ ts := by
  induction ts generalizing cases with
  | nil => exact ⟨normal, fun c hc => .inl hc⟩
  | cons t ts ih =>
    refine (addCase_ensures normal t).bind fun cases' ⟨normal', hcases'⟩ => ?_
    refine (ih normal').mono fun r ⟨hr, hmem⟩ => ⟨hr, fun c hc => ?_⟩
    rcases hmem c hc with hc | hc
    · refine (hcases' c hc).imp id ?_
      rintro rfl
      exact List.mem_cons_self
    · exact .inr (List.mem_cons_of_mem t hc)

end

/-- To add cases in two parts is to add all of them. -/
theorem addCases_append (cases ts us : List Applied) :
    h.addCases cases (ts ++ us) = h.addCases cases ts >>= fun r => h.addCases r us := by
  induction ts generalizing cases with
  | nil => rfl
  | cons t ts ih => simp only [List.cons_append, addCases, ih, bind_assoc]

/-! ## Gathering them again -/

section

variable {ok : (q : Query) → q.Answer → Prop}

theorem anySupertype_reaches_false {t : Applied} {cases : List Applied}
    (hcases : ∀ c ∈ cases, ok (.subtype (.applied t) (.applied c)) false) :
    (anySupertype t cases).Reaches ok (· = false) := by
  induction cases with
  | nil => exact rfl
  | cons c cs ih =>
    obtain ⟨hc, hcs⟩ := List.forall_mem_cons.mp hcases
    exact ⟨false, hc, ih hcs⟩

theorem notCoveredBy_reaches_self {t : Applied} {cases : List Applied}
    (hcases : ∀ c ∈ cases, ok (.subtype (.applied c) (.applied t)) false) :
    (notCoveredBy t cases).Reaches ok (· = cases) := by
  induction cases with
  | nil => exact rfl
  | cons c cs ih =>
    obtain ⟨hc, hcs⟩ := List.forall_mem_cons.mp hcases
    refine ⟨false, hc, (ih hcs).bind ?_⟩
    rintro _ rfl
    exact rfl

/-- Cases in normal form are added one after the other. -/
theorem addCases_reaches_append {cases ts : List Applied} (normal : h.NormalFor ok (cases ++ ts)) :
    (h.addCases cases ts).Reaches ok (· = cases ++ ts) := by
  induction ts generalizing cases with
  | nil => exact (List.append_nil cases).symm
  | cons t ts ih =>
    have before := fun c hc => (List.pairwise_append.mp normal.antichain).2.2 c hc t List.mem_cons_self
    have add : (h.addCase cases t).Reaches ok (· = cases ++ [t]) := by
      have proper := normal.proper t (List.mem_append_right cases List.mem_cons_self)
      rw [addCase, if_neg (by simp [proper])]
      refine (anySupertype_reaches_false fun c hc => (before c hc).2).bind ?_
      rintro _ rfl
      refine (notCoveredBy_reaches_self fun c hc => (before c hc).1).bind ?_
      rintro _ rfl
      exact rfl
    refine add.bind ?_
    rintro _ rfl
    have happend : cases ++ t :: ts = cases ++ [t] ++ ts := by simp
    rw [happend] at normal ⊢
    exact ih normal

theorem addCases_nil_reaches {ts : List Applied} (normal : h.NormalFor ok ts) :
    (h.addCases [] ts).Reaches ok (· = ts) :=
  addCases_reaches_append normal

end

theorem anySupertype_reaches_true (decides : ∀ s o, h.Finishes (.subtype s o)) {t c : Applied}
    {cases : List Applied} (hc : c ∈ cases)
    (hcovered : h.Answers (.subtype (.applied t) (.applied c)) true) :
    (anySupertype t cases).Reaches h.Answers (· = true) := by
  induction cases with
  | nil => cases hc
  | cons c' cs ih =>
    obtain ⟨r, hr⟩ := decides (.applied t) (.applied c')
    refine ⟨r, hr, ?_⟩
    cases r with
    | true => exact rfl
    | false =>
      rcases List.mem_cons.mp hc with rfl | hc
      · cases hr.unique hcovered
      · exact ih hc

/-- The type is the bottom type or a subtype of one of the cases. -/
def Covered (h : Hierarchy) (cases : List Applied) (t : Applied) : Prop :=
  h.isBottom t.decl = true ∨ ∃ c ∈ cases, h.Answers (.subtype (.applied t) (.applied c)) true

/-- What the cases cover adds nothing. -/
theorem addCases_reaches_self (decides : ∀ s o, h.Finishes (.subtype s o)) {cases ts : List Applied}
    (hts : ∀ t ∈ ts, h.Covered cases t) : (h.addCases cases ts).Reaches h.Answers (· = cases) := by
  induction ts with
  | nil => exact rfl
  | cons t ts ih =>
    obtain ⟨ht, hts⟩ := List.forall_mem_cons.mp hts
    have add : (h.addCase cases t).Reaches h.Answers (· = cases) := by
      unfold addCase
      split
      · exact rfl
      · next hbottom =>
        obtain ⟨c, hc, hcovered⟩ := ht.resolve_left hbottom
        refine (anySupertype_reaches_true decides hc hcovered).bind ?_
        rintro _ rfl
        exact rfl
    refine add.bind ?_
    rintro _ rfl
    exact ih hts

theorem covered_self (decides : ∀ s o, h.Finishes (.subtype s o)) {cases : List Applied}
    {c : Applied} (hc : c ∈ cases) : h.Covered cases c := by
  obtain ⟨r, hr⟩ := decides (.applied c) (.applied c)
  obtain rfl := hr.of_subset rfl rfl (List.Subset.refl _)
  exact .inr ⟨c, hc, hr⟩

/-! ## Unions -/

/-- What a union is like that types are united to. -/
theorem unite_yields (ts : List Ty) :
    h.Yields (h.uniteStep ts) fun u => ∀ cases extended, u = .union cases extended →
      2 ≤ cases.length ∧ h.Normal cases ∧ (∀ c ∈ cases, ∃ t ∈ ts, c ∈ t.cases) ∧
        ∀ first rest, cases = first :: rest →
          h.Answers (.superclass cases first []) extended := by
  refine (addCases_ensures normalFor_nil (ts.flatMap Ty.cases)).bind fun cases ⟨hnormal, hmem⟩ => ?_
  have normal := normalFor_answers.mp hnormal
  -- Only several cases make a union.
  match cases, normal, hmem with
  | [], _, _ =>
    intro cases extended hu
    cases hfind : ts.find? h.isBottomType with
    | none => simp [hfind] at hu
    | some t =>
      have hbottom := List.find?_some hfind
      simp only [hfind, Option.getD_some] at hu
      cases hu
      cases hbottom
  | [t], _, _ =>
    rintro cases extended ⟨⟩
  | first :: second :: rest, normal, hmem =>
    refine ⟨.intro, fun extended hextended => ?_⟩
    rintro _ _ ⟨⟩
    refine ⟨by simp, normal, fun c hc => ?_, ?_⟩
    · exact List.mem_flatMap.mp ((hmem c hc).resolve_left List.not_mem_nil)
    · rintro _ _ ⟨⟩
      exact hextended

/-- Types whose cases are gathered to those of a union are united to that union. -/
theorem answers_unite_of_reaches {ts : List Ty} {first second : Applied} {rest : List Applied}
    {extended : Option Applied}
    (hcases : (h.addCases [] (ts.flatMap Ty.cases)).Reaches h.Answers (· = first :: second :: rest))
    (hextended : h.Answers (.superclass (first :: second :: rest) first []) extended) :
    h.Answers (.unite ts) (.union (first :: second :: rest) extended) := by
  refine answers_iff_reaches.mpr (hcases.bind ?_)
  rintro _ rfl
  exact ⟨extended, hextended, rfl⟩

/-- If types are united to a union, then it has at least two cases, all from these types, none of them the
bottom type and none a subtype of another.  To unite these cases again, or the union with itself, gives the
same cases in the same order and the same class that they extend.  To add a type whose cases are covered
leaves the cases as they are. -/
theorem unite_normal_form (h : Hierarchy) (decides : ∀ s o, h.Finishes (.subtype s o)) (ts : List Ty)
    (cases : List Applied) (extended : Option Applied)
    (hu : h.Answers (.unite ts) (.union cases extended)) :
    2 ≤ cases.length ∧
      (∀ c ∈ cases, h.isBottom c.decl = false) ∧
      cases.Pairwise h.Incomparable ∧
      (∀ c ∈ cases, ∃ t ∈ ts, c ∈ t.cases) ∧
      h.Answers (.unite (cases.map .applied)) (.union cases extended) ∧
      h.Answers (.unite [.union cases extended, .union cases extended]) (.union cases extended) ∧
      ∀ t : Ty, (∀ c ∈ t.cases, h.Covered cases c) →
        (h.addCases cases t.cases).Reaches h.Answers (· = cases) := by
  obtain ⟨hlength, normal, hmem, hextended⟩ := hu.of_ensures (unite_yields ts) cases extended rfl
  refine ⟨hlength, normal.proper, normal.antichain, hmem, ?_⟩
  obtain ⟨first, second, rest, rfl⟩ : ∃ first second rest, cases = first :: second :: rest := by
    match cases, hlength with
    | first :: second :: rest, _ => exact ⟨first, second, rest, rfl⟩
  -- a list in normal form rebuilds itself case by case, and a case it has already is covered and skipped
  have again : (h.addCases [] (first :: second :: rest)).Reaches h.Answers
      (· = first :: second :: rest) := addCases_reaches_append (normalFor_answers.mpr normal)
  have covered : ∀ c ∈ first :: second :: rest, h.Covered (first :: second :: rest) c :=
    fun c hc => covered_self decides hc
  have above := hextended first (second :: rest) rfl
  refine ⟨?_, ?_, fun t ht => addCases_reaches_self decides ht⟩
  · refine answers_unite_of_reaches ?_ above
    have hcases : ((first :: second :: rest).map Ty.applied).flatMap Ty.cases =
        first :: second :: rest := by simp [List.flatMap_map, Ty.cases]
    rw [hcases]
    exact again
  · refine answers_unite_of_reaches ?_ above
    have hcases : [Ty.union (first :: second :: rest) extended,
        Ty.union (first :: second :: rest) extended].flatMap Ty.cases =
        (first :: second :: rest) ++ (first :: second :: rest) := by simp [Ty.cases]
    rw [hcases, addCases_append]
    refine again.bind ?_
    rintro _ rfl
    exact addCases_reaches_self decides covered

end Ceylon.Model.Hierarchy

namespace Ceylon.Model.Graph

/-- Two interfaces `A` and `B` without supertypes. -/
def unrelated : Graph :=
  let declaration (name : String) : Declaration :=
    { name, scope := [], unit := none, node := none, shared := false, shape := .ofInterface {} }
  { decls := #[declaration "A", declaration "B"] }

theorem unrelated_flat : unrelated.hierarchy.FlatSupertypes := by
  intro d st hst
  match d with
  | ⟨0⟩ => cases hst
  | ⟨1⟩ => cases hst
  | ⟨n + 2⟩ => cases hst

/-- The union of two unrelated interfaces. -/
theorem unite_normal_form_unrelated :
    unrelated.hierarchy.Incomparable ⟨⟨0⟩, []⟩ ⟨⟨1⟩, []⟩ ∧
      unrelated.hierarchy.Answers (.unite [.applied ⟨⟨0⟩, []⟩, .applied ⟨⟨1⟩, []⟩])
        (.union [⟨⟨0⟩, []⟩, ⟨⟨1⟩, []⟩] none) :=
  have normal := Hierarchy.unite_normal_form unrelated.hierarchy
    (Hierarchy.subtype_finishes unrelated_flat unrelated.hierarchy_finite)
    [.unknown, .applied ⟨⟨0⟩, []⟩, .applied ⟨⟨1⟩, []⟩] [⟨⟨0⟩, []⟩, ⟨⟨1⟩, []⟩] none ⟨5, rfl⟩
  ⟨List.rel_of_pairwise_cons normal.2.2.1 (List.mem_singleton_self _), normal.2.2.2.2.1⟩

end Ceylon.Model.Graph
