import Mathlib.Data.Fintype.EquivFin
import Ceylon.Proofs.UnionNormalForm

/-!
# Equality of types

Two types are the same (`Ty.same`) if they are made of the same parts, where the order of the cases of a
union does not count.  Of two unions it is only asked that they have as many cases and that each case of
the one is found among those of the other.  That this goes both ways is a matter of counting: if the cases
of each union are distinct (`Ty.Distinct`), then different ones are found at different places, so that all
places are taken.

Unions that come from uniting types are distinct (`Ty.United.distinct`), because types that are the same
are subtypes of each other (`congruence_same`), and the cases of a united type are not.  So equality of
such types is an equivalence, and types that are equal are subtypes of each other
(`united_same_equivalence`).
-/

namespace Ceylon.Model

/-! ## Types and what they are made of -/

/-- What holds of a type if it holds of its arguments or its cases holds of every type. -/
@[elab_as_elim]
theorem Ty.induction {P : Ty → Prop} (unknown : P .unknown)
    (applied : ∀ a : Applied, (∀ t ∈ a.args, P t) → P (.applied a))
    (union : ∀ cases extended, (∀ c ∈ cases, P (.applied c)) → P (.union cases extended)) (t : Ty) :
    P t :=
  @Ty.rec P (fun a => P (.applied a)) (fun cases => ∀ c ∈ cases, P (.applied c)) (fun _ => True)
    (fun args => ∀ t ∈ args, P t)
    unknown (fun _ ha => ha) (fun cases extended hcases _ => union cases extended hcases)
    (fun d args hargs => applied ⟨d, args⟩ hargs)
    (List.forall_mem_nil _) (fun _ _ hc hcs => List.forall_mem_cons.mpr ⟨hc, hcs⟩)
    trivial (fun _ _ => trivial)
    (List.forall_mem_nil _) (fun _ _ ht hts => List.forall_mem_cons.mpr ⟨ht, hts⟩) t

/-- Every union in a type, at any depth of its arguments, has the property. -/
inductive Ty.EveryUnion (P : List Applied → Option Applied → Prop) : Ty → Prop
  | unknown : EveryUnion P .unknown
  | applied {a : Applied} (args : ∀ t ∈ a.args, EveryUnion P t) : EveryUnion P (.applied a)
  | union {cases : List Applied} {extended : Option Applied} (here : P cases extended)
      (below : ∀ c ∈ cases, EveryUnion P (.applied c)) : EveryUnion P (.union cases extended)

namespace Ty.EveryUnion

variable {P : List Applied → Option Applied → Prop}

theorem of_applied {a : Applied} (h : (Ty.applied a).EveryUnion P) : ∀ t ∈ a.args, t.EveryUnion P := by
  cases h with
  | applied args => exact args

theorem of_union {cases : List Applied} {extended : Option Applied}
    (h : (Ty.union cases extended).EveryUnion P) :
    P cases extended ∧ ∀ c ∈ cases, (Ty.applied c).EveryUnion P := by
  cases h with
  | union here below => exact ⟨here, below⟩

end Ty.EveryUnion

/-! ## What it is to be the same -/

attribute [local simp] Ty.equal Applied.equal argsEqual

theorem anyEqual_eq (as : List Applied) (b : Applied) :
    anyEqual as b = as.any fun a => a.equal false b := by
  induction as with
  | nil => rfl
  | cons a as ih => rw [anyEqual, ih, List.any_cons]

theorem allEqual_eq (as bs : List Applied) :
    allEqual as bs = as.all fun a => bs.any fun b => a.equal true b := by
  induction as with
  | nil => rfl
  | cons a as ih => rw [allEqual, ih, List.all_cons]

theorem argsEqual_iff {swapped : Bool} {as bs : List Ty} :
    argsEqual swapped as bs = true ↔ List.Forall₂ (fun a b => a.equal swapped b = true) as bs := by
  induction as generalizing bs with
  | nil => cases bs <;> simp
  | cons a as ih => cases bs <;> simp [ih]

theorem equal_applied_iff {swapped : Bool} {a b : Applied} :
    (Ty.applied a).equal swapped (.applied b) = true ↔
      a.decl = b.decl ∧ List.Forall₂ (fun x y => x.equal swapped y = true) a.args b.args := by
  obtain ⟨d, args⟩ := a
  simp [argsEqual_iff]

/-- What is related place by place is so in another way, if that follows for what stands in the lists. -/
theorem forall₂_imp_of_mem {α β : Type} {R S : α → β → Prop} {as : List α} {bs : List β}
    (h : List.Forall₂ R as bs) (imp : ∀ a ∈ as, ∀ b ∈ bs, R a b → S a b) : List.Forall₂ S as bs := by
  obtain ⟨hlength, hzip⟩ := List.forall₂_iff_zip.mp h
  refine List.forall₂_iff_zip.mpr ⟨hlength, fun hab => ?_⟩
  obtain ⟨ha, hb⟩ := List.of_mem_zip hab
  exact imp _ ha _ hb (hzip hab)

/-- To swap the roles of two types is to exchange them. -/
theorem Ty.equal_swap (a b : Ty) (swapped : Bool) :
    a.equal swapped b = true ↔ b.equal (!swapped) a = true := by
  induction a using Ty.induction generalizing b swapped with
  | unknown => cases b <;> simp
  | applied a ih =>
    cases b with
    | applied b =>
      rw [equal_applied_iff, equal_applied_iff, eq_comm]
      refine and_congr_right fun _ => ⟨fun h => .flip ?_, fun h => ?_⟩
      · exact forall₂_imp_of_mem h fun x hx y _ => (ih x hx y swapped).mp
      · exact forall₂_imp_of_mem h.flip fun x hx y _ => (ih x hx y swapped).mpr
    | _ => simp
  | union as extended ih =>
    cases b with
    | union bs extended' =>
      -- the union whose cases are sought is the left one or the right one, so the roles change with the flag
      have exchange : ∀ a ∈ as, ∀ b : Applied, ∀ s, a.equal s b = true ↔ b.equal (!s) a = true :=
        fun a ha b s => ih a ha (.applied b) s
      cases swapped with
      | false =>
        simp only [Ty.equal, allEqual_eq, anyEqual_eq]
        simp only [Bool.not_false, if_true, Bool.false_eq_true, if_false, Bool.and_eq_true, beq_iff_eq,
          List.all_eq_true, List.any_eq_true]
        refine and_congr eq_comm (forall₂_congr fun a ha => ?_)
        exact exists_congr fun b => and_congr_right fun _ => exchange a ha b true
      | true =>
        simp only [Ty.equal, allEqual_eq, anyEqual_eq]
        simp only [Bool.not_true, if_true, Bool.false_eq_true, if_false, Bool.and_eq_true, beq_iff_eq,
          List.all_eq_true, List.any_eq_true]
        refine and_congr eq_comm (forall₂_congr fun b _ => ?_)
        exact exists_congr fun a => and_congr_right fun ha => exchange a ha b false
    | _ => simp

theorem same_applied_iff {a b : Applied} :
    (Ty.applied a).same (.applied b) ↔ a.decl = b.decl ∧ List.Forall₂ (fun x y => x.same y) a.args b.args :=
  equal_applied_iff

theorem same_union_iff {as bs : List Applied} {extended extended' : Option Applied} :
    (Ty.union as extended).same (.union bs extended') ↔
      as.length = bs.length ∧ ∀ a ∈ as, ∃ b ∈ bs, (Ty.applied b).same (.applied a) := by
  have exchange : ∀ a b : Applied, a.equal true b = true ↔ b.equal false a = true :=
    fun a b => Ty.equal_swap (.applied a) (.applied b) true
  simp [Ty.same, allEqual_eq, exchange]

/-! ## An equivalence -/

theorem Ty.same_refl (a : Ty) : a.same a := by
  induction a using Ty.induction with
  | unknown => rfl
  | applied a ih => exact same_applied_iff.mpr ⟨rfl, List.forall₂_same.mpr ih⟩
  | union cases extended ih => exact same_union_iff.mpr ⟨rfl, fun c hc => ⟨c, hc, ih c hc⟩⟩

theorem Ty.same_trans {a b c : Ty} (hab : a.same b) (hbc : b.same c) : a.same c := by
  -- On the type in the middle, which both hypotheses speak of.
  induction b using Ty.induction generalizing a c with
  | unknown =>
    cases a with
    | unknown => exact hbc
    | _ => cases hab
  | applied b ih =>
    cases a with
    | applied a =>
      cases c with
      | applied c =>
        obtain ⟨hdecl, hargs⟩ := same_applied_iff.mp hab
        obtain ⟨hdecl', hargs'⟩ := same_applied_iff.mp hbc
        obtain ⟨hlength, hget⟩ := List.forall₂_iff_get.mp hargs
        obtain ⟨hlength', hget'⟩ := List.forall₂_iff_get.mp hargs'
        refine same_applied_iff.mpr ⟨hdecl.trans hdecl', List.forall₂_iff_get.mpr ⟨hlength.trans hlength', ?_⟩⟩
        exact fun i hi hi' => ih _ (List.get_mem _ _) (hget i hi (hlength ▸ hi)) (hget' i (hlength ▸ hi) hi')
      | _ => cases hbc
    | _ => cases hab
  | union bs extended ih =>
    cases a with
    | union as _ =>
      cases c with
      | union cs _ =>
        obtain ⟨hlength, hfind⟩ := same_union_iff.mp hab
        obtain ⟨hlength', hfind'⟩ := same_union_iff.mp hbc
        refine same_union_iff.mpr ⟨hlength.trans hlength', fun a ha => ?_⟩
        obtain ⟨b, hb, hba⟩ := hfind a ha
        obtain ⟨c, hc, hcb⟩ := hfind' b hb
        exact ⟨c, hc, ih b hb hcb hba⟩
      | _ => cases hbc
    | _ => cases hab

/-- If distinct elements of one list all occur in another list, no two of them at one place, and the other
list is no longer, then all its elements occur. -/
theorem forall_mem_exists_of_distinct {α : Type} {R Q : α → α → Prop} {as bs : List α}
    (hlength : as.length = bs.length) (distinct : as.Pairwise fun a a' => ¬ R a a')
    (hfind : ∀ a ∈ as, ∃ b ∈ bs, Q b a)
    (unique : ∀ a ∈ as, ∀ a' ∈ as, ∀ b ∈ bs, Q b a → Q b a' → R a a') : ∀ b ∈ bs, ∃ a ∈ as, Q b a := by
  have hplace : ∀ i : Fin as.length, ∃ j : Fin bs.length, Q bs[j] as[i] := by
    intro i
    obtain ⟨b, hb, hQ⟩ := hfind as[i] (List.getElem_mem _)
    obtain ⟨j, hj, rfl⟩ := List.getElem_of_mem hb
    exact ⟨⟨j, hj⟩, hQ⟩
  -- Places that are found for different members differ, and there are as many places as members.
  choose place hQ using hplace
  have related : ∀ {i j}, place i = place j → R as[i] as[j] := fun {i j} hij =>
    unique _ (List.getElem_mem _) _ (List.getElem_mem _) _ (List.getElem_mem _) (hQ i) (hij ▸ hQ j)
  have injective : Function.Injective place := by
    intro i j hij
    rw [List.pairwise_iff_getElem] at distinct
    rcases lt_trichotomy i j with hlt | heq | hlt
    · exact absurd (related hij) (distinct i j i.isLt j.isLt hlt)
    · exact heq
    · exact absurd (related hij.symm) (distinct j i j.isLt i.isLt hlt)
  have surjective : Function.Surjective place :=
    ((Fintype.bijective_iff_injective_and_card place).mpr ⟨injective, by simp [hlength]⟩).surjective
  intro b hb
  obtain ⟨j, hj, rfl⟩ := List.getElem_of_mem hb
  obtain ⟨i, hi⟩ := surjective ⟨j, hj⟩
  exact ⟨as[i], List.getElem_mem _, by simpa [hi] using hQ i⟩

/-- No two cases of a union in the type are the same. -/
def Ty.Distinct : Ty → Prop :=
  Ty.EveryUnion fun cases _ => cases.Pairwise fun c c' => ¬ (Ty.applied c).same (.applied c')

/-- Equality of two unions goes both ways if that of their cases does. -/
theorem same_union_symm {as bs : List Applied} {e e' : Option Applied}
    (distinct : as.Pairwise fun a a' => ¬ (Ty.applied a).same (.applied a'))
    (comm : ∀ a ∈ as, ∀ b ∈ bs, (Ty.applied b).same (.applied a) → (Ty.applied a).same (.applied b))
    (h : (Ty.union as e).same (.union bs e')) : (Ty.union bs e').same (.union as e) := by
  obtain ⟨hlength, hfind⟩ := same_union_iff.mp h
  have unique : ∀ a ∈ as, ∀ a' ∈ as, ∀ b ∈ bs, (Ty.applied b).same (.applied a) →
      (Ty.applied b).same (.applied a') → (Ty.applied a).same (.applied a') :=
    fun a ha a' _ b hb hba hba' => Ty.same_trans (comm a ha b hb hba) hba'
  refine same_union_iff.mpr ⟨hlength.symm, fun b hb => ?_⟩
  obtain ⟨a, ha, hba⟩ := forall_mem_exists_of_distinct hlength distinct hfind unique b hb
  exact ⟨a, ha, comm a ha b hb hba⟩

theorem Ty.same_comm {a b : Ty} (ha : a.Distinct) (hb : b.Distinct) : a.same b ↔ b.same a := by
  induction a using Ty.induction generalizing b with
  | unknown => cases b <;> simp [Ty.same]
  | applied a ih =>
    cases b with
    | applied b =>
      rw [same_applied_iff, same_applied_iff, eq_comm]
      refine and_congr_right fun _ => ⟨fun h => .flip ?_, fun h => ?_⟩
      · exact forall₂_imp_of_mem h fun x hx y hy => (ih x hx (ha.of_applied x hx) (hb.of_applied y hy)).mp
      · exact forall₂_imp_of_mem h.flip fun x hx y hy =>
          (ih x hx (ha.of_applied x hx) (hb.of_applied y hy)).mpr
    | _ => simp [Ty.same]
  | union as extended ih =>
    cases b with
    | union bs extended' =>
      -- Cases are compared in either direction alike.
      have comm : ∀ a ∈ as, ∀ b ∈ bs, (Ty.applied a).same (.applied b) ↔ (Ty.applied b).same (.applied a) :=
        fun a hmem b hmem' => ih a hmem (ha.of_union.2 a hmem) (hb.of_union.2 b hmem')
      constructor
      · exact same_union_symm ha.of_union.1 fun a hmem b hmem' => (comm a hmem b hmem').mpr
      · exact same_union_symm hb.of_union.1 fun b hmem a hmem' => (comm a hmem' b hmem).mp
    | _ => simp [Ty.same]

/-! ## Subtyping both ways -/

/-- Declared types that are the same, and without equal cases in any union. -/
def Applied.Same (a b : Applied) : Prop :=
  (Ty.applied a).Distinct ∧ (Ty.applied b).Distinct ∧ (Ty.applied a).same (.applied b)

/-- The cases of equal types are equal. -/
theorem casesRelated_of_same {a b : Ty} (ha : a.Distinct) (hb : b.Distinct) (h : a.same b) :
    a.CasesRelated Applied.Same b := by
  cases a with
  | unknown => exact List.forall_mem_nil _
  | applied a =>
    cases b with
    | applied b => exact List.forall_mem_singleton.mpr ⟨b, List.mem_singleton_self b, ha, hb, h⟩
    | _ => cases h
  | union as _ =>
    cases b with
    | union bs _ =>
      intro a hmem
      obtain ⟨b, hmem', hba⟩ := (same_union_iff.mp h).2 a hmem
      have hda := ha.of_union.2 a hmem
      have hdb := hb.of_union.2 b hmem'
      exact ⟨b, hmem', hda, hdb, (Ty.same_comm hdb hda).mp hba⟩
    | _ => cases h

/-- Types that are the same are alike for subtyping. -/
theorem congruence_same : Congruence Applied.Same where
  decl h := (same_applied_iff.mp h.2.2).1
  args := by
    rintro a b ⟨ha, hb, hab⟩
    refine forall₂_imp_of_mem (same_applied_iff.mp hab).2 fun x hx y hy hxy => ?_
    have hdx := ha.of_applied x hx
    have hdy := hb.of_applied y hy
    exact ⟨casesRelated_of_same hdx hdy hxy, casesRelated_of_same hdy hdx ((Ty.same_comm hdx hdy).mp hxy)⟩

theorem Ty.isKnown_of_same {a b : Ty} (h : a.same b) (ha : a.isKnown) : b.isKnown := by
  cases b with
  | unknown => cases a <;> first | exact ha | cases h
  | _ => rfl

/-- A type that is the same as another one is its subtype. -/
theorem Ty.subtype_of_same {a b : Ty} (ha : a.Distinct) (hb : b.Distinct) (h : a.same b)
    (known : a.isKnown) {g : Hierarchy} {r : Bool} (hr : g.Answers (.subtype a b) r) : r = true :=
  congruence_same.subtype known (Ty.isKnown_of_same h known) (casesRelated_of_same ha hb h) hr

/-! ## United types -/

/-- Every union in the type comes from uniting types, over some declarations. -/
def Ty.United : Ty → Prop :=
  Ty.EveryUnion fun cases extended =>
    ∃ (g : Hierarchy) (ts : List Ty), g.Answers (.unite ts) (.union cases extended)

/-- Uniting types leaves no two cases that are the same. -/
theorem Ty.United.distinct {t : Ty} (ht : t.United) : t.Distinct := by
  induction ht with
  | unknown => exact .unknown
  | applied _ ih => exact .applied ih
  | @union cases extended here _ ih =>
    obtain ⟨g, ts, hu⟩ := here
    obtain ⟨-, normal, -⟩ := hu.of_ensures (Hierarchy.unite_yields ts) cases extended rfl
    refine .union (normal.antichain.imp_of_mem fun hc hc' incomparable hsame => ?_) ih
    cases Ty.subtype_of_same (ih _ hc) (ih _ hc') hsame rfl incomparable.1

/-- On types whose unions all come from uniting types, equality is an equivalence, and known types that are
equal are subtypes of each other wherever that question is answered. -/
theorem united_same_equivalence :
    Equivalence (fun a b : { t : Ty // t.United } => a.1.same b.1 = true) ∧
      ∀ a b : Ty, a.United → b.United → a.isKnown → a.same b → ∀ (h : Hierarchy) (r : Bool),
        (h.Answers (.subtype a b) r → r = true) ∧ (h.Answers (.subtype b a) r → r = true) := by
  refine ⟨⟨fun a => a.1.same_refl, fun {a b} hab => ?_, Ty.same_trans⟩, fun a b ha hb known hab h r => ?_⟩
  · exact (Ty.same_comm a.2.distinct b.2.distinct).mp hab
  · have hba := (Ty.same_comm ha.distinct hb.distinct).mp hab
    have known' := Ty.isKnown_of_same hab known
    exact ⟨Ty.subtype_of_same ha.distinct hb.distinct hab known,
      Ty.subtype_of_same hb.distinct ha.distinct hba known'⟩

namespace Graph

/-- `A|B` and `B|A` are the same, for two unrelated interfaces, and `A|B` is a `B|A`. -/
theorem united_same_equivalence_unrelated :
    let ab : Ty := .union [⟨⟨0⟩, []⟩, ⟨⟨1⟩, []⟩] none
    let ba : Ty := .union [⟨⟨1⟩, []⟩, ⟨⟨0⟩, []⟩] none
    ab.United ∧ ba.United ∧ ab.same ba ∧ ba.same ab ∧ unrelated.hierarchy.Answers (.subtype ab ba) true := by
  intro ab ba
  have united : ∀ d e : DeclId,
      unrelated.hierarchy.Answers (.unite [.applied ⟨d, []⟩, .applied ⟨e, []⟩])
        (.union [⟨d, []⟩, ⟨e, []⟩] none) → (Ty.union [⟨d, []⟩, ⟨e, []⟩] none).United := by
    intro d e hu
    refine .union ⟨_, _, hu⟩ (List.forall_mem_cons.mpr ⟨?_, List.forall_mem_singleton.mpr ?_⟩)
    · exact .applied (List.forall_mem_nil _)
    · exact .applied (List.forall_mem_nil _)
  have hab : ab.United := united ⟨0⟩ ⟨1⟩ ⟨5, rfl⟩
  have hba : ba.United := united ⟨1⟩ ⟨0⟩ ⟨5, rfl⟩
  have hsame : ab.same ba := rfl
  obtain ⟨r, hr⟩ := Hierarchy.subtype_finishes unrelated_flat unrelated.hierarchy_finite ab ba
  obtain rfl := (united_same_equivalence.2 ab ba hab hba rfl hsame unrelated.hierarchy r).1 hr
  exact ⟨hab, hba, hsame, united_same_equivalence.1.symm (x := ⟨ab, hab⟩) (y := ⟨ba, hba⟩) hsame, hr⟩

end Graph

end Ceylon.Model
