import Mathlib.Data.List.Forall2
import Ceylon.Proofs.Inheritance

/-!
# Subtyping as declared

A type is below another one if each of its cases is the bottom type or inherits an application of the
declaration of some case of the other one, with arguments that conform to those of the case
(`Hierarchy.Below`).  Other than the rule of the type algebra this asks for any inherited application, not
for the one that a search finds.

The main result is that being below is transitive (`Hierarchy.Below.trans`) where declarations use their
type parameters according to their variance (`Hierarchy.RespectsVariance`).  If `a` is below `b` because it
inherits `v` for the declaration of `b`, then whatever `b` inherits, `v` inherits along the same way, with
arguments that have the same shape and differ only where the arguments of `v` and `b` stand in them
(`Hierarchy.Parallel`).  These differ by what is known to be below with less effort, and so the argument is
by induction on the effort.
-/

namespace Ceylon.Syntax

/-- The variance of a place within a place. -/
def Variance.within : (outer inner : Variance) → Variance
  | .covariant, inner => inner
  | .contravariant, .covariant => .contravariant
  | .contravariant, .contravariant => .covariant
  | .contravariant, .invariant => .invariant
  | .invariant, _ => .invariant

end Ceylon.Syntax

namespace Ceylon.Model

open Syntax (Variance)

/-! ## Arguments related by variance -/

/-- A relation of types, taken the way a variance asks for. -/
inductive Varies (R : Ty → Ty → Prop) : Variance → Ty → Ty → Prop
  | covariant {a b : Ty} (h : R a b) : Varies R .covariant a b
  | contravariant {a b : Ty} (h : R b a) : Varies R .contravariant a b
  | invariant {a b : Ty} (h : R a b) (h' : R b a) : Varies R .invariant a b

/-- Arguments are related, each the way the variance of its place asks for. -/
inductive Conform (R : Ty → Ty → Prop) : List Variance → List Ty → List Ty → Prop
  | nil : Conform R [] [] []
  | cons {v : Variance} {a b : Ty} {vs : List Variance} {as bs : List Ty} (head : Varies R v a b)
      (tail : Conform R vs as bs) : Conform R (v :: vs) (a :: as) (b :: bs)

section

variable {R S : Ty → Ty → Prop} {v : Variance} {a b : Ty} {vs : List Variance} {as bs : List Ty}

/-- A variance may be asked for a weaker relation. -/
theorem Varies.mono (hv : Varies R v a b) (imp : ∀ a b, R a b → S a b) : Varies S v a b := by
  cases hv with
  | covariant hab => exact .covariant (imp _ _ hab)
  | contravariant hba => exact .contravariant (imp _ _ hba)
  | invariant hab hba => exact .invariant (imp _ _ hab) (imp _ _ hba)

/-- Every variance lets a type stay as it is. -/
theorem Varies.refl (ha : R a a) : Varies R v a a := by
  cases v with
  | covariant => exact .covariant ha
  | contravariant => exact .contravariant ha
  | invariant => exact .invariant ha ha

/-- What is related both ways is related the way each variance asks for. -/
theorem Varies.of_invariant (hv : Varies R .invariant a b) (w : Variance) : Varies R w a b := by
  cases hv with
  | invariant hab hba =>
    cases w with
    | covariant => exact .covariant hab
    | contravariant => exact .contravariant hba
    | invariant => exact .invariant hab hba

/-- A place within a contravariant place is turned around. -/
theorem Varies.turn (hv : Varies R (Variance.within .contravariant v) a b) : Varies R v b a := by
  cases v with
  | covariant =>
    cases hv with
    | contravariant hba => exact .covariant hba
  | contravariant =>
    cases hv with
    | covariant hab => exact .contravariant hab
  | invariant =>
    cases hv with
    | invariant hab hba => exact .invariant hba hab

/-- What varies invariantly varies both ways. -/
theorem Varies.symm_of_invariant (hv : Varies R .invariant a b) : Varies R .invariant b a := by
  cases hv with
  | invariant hab hba => exact .invariant hba hab

/-- Conformance may be asked for a weaker relation. -/
theorem Conform.mono (hc : Conform R vs as bs) (imp : ∀ a b, R a b → S a b) :
    Conform S vs as bs := by
  induction hc with
  | nil => exact .nil
  | cons head _ ih => exact .cons (head.mono imp) ih

/-- Arguments conform to themselves. -/
theorem Conform.refl (hlength : vs.length = as.length) (has : ∀ a ∈ as, R a a) :
    Conform R vs as as := by
  induction as generalizing vs with
  | nil =>
    obtain rfl := List.length_eq_zero_iff.mp hlength
    exact .nil
  | cons a as ih =>
    obtain ⟨ha, has⟩ := List.forall_mem_cons.mp has
    match vs, hlength with
    | v :: vs, hlength => exact .cons (.refl ha) (ih (Nat.succ.inj hlength) has)

/-- Arguments that conform are as many as their variances. -/
theorem Conform.length_eq (hc : Conform R vs as bs) :
    as.length = vs.length ∧ bs.length = vs.length := by
  induction hc with
  | nil => exact ⟨rfl, rfl⟩
  | cons _ _ ih => exact ⟨congrArg Nat.succ ih.1, congrArg Nat.succ ih.2⟩

/-- Arguments that are related both ways. -/
theorem Conform.of_forall₂ (hlength : vs.length = as.length)
    (hall : List.Forall₂ (fun a b => R a b ∧ R b a) as bs) : Conform R vs as bs := by
  induction hall generalizing vs with
  | nil =>
    obtain rfl := List.length_eq_zero_iff.mp hlength
    exact .nil
  | cons hab _ ih =>
    match vs, hlength with
    | v :: vs, hlength =>
      exact .cons (.of_invariant (.invariant hab.1 hab.2) v) (ih (Nat.succ.inj hlength))

/-- Arguments of invariant parameters conform if they are related both ways. -/
theorem Conform.forall₂ (hc : Conform R vs as bs) (hvs : ∀ v ∈ vs, v = .invariant) :
    List.Forall₂ (fun a b => R a b ∧ R b a) as bs := by
  induction hc with
  | nil => exact .nil
  | cons head _ ih =>
    obtain ⟨rfl, hrest⟩ := List.forall_mem_cons.mp hvs
    cases head with
    | invariant hab hba => exact .cons ⟨hab, hba⟩ (ih hrest)

/-- In a covariant place the variances stay. -/
theorem Conform.of_covariant (hc : Conform R (vs.map (Variance.within .covariant)) as bs) :
    Conform R vs as bs := by
  have hid : vs.map (Variance.within .covariant) = vs := List.map_id' vs
  rwa [hid] at hc

/-- In a contravariant place the variances are turned around. -/
theorem Conform.of_contravariant (hc : Conform R (vs.map (Variance.within .contravariant)) as bs) :
    Conform R vs bs as := by
  induction vs generalizing as bs with
  | nil =>
    cases hc
    exact .nil
  | cons v vs ih =>
    cases hc with
    | cons head tail => exact .cons head.turn (ih tail)

/-- In an invariant place arguments conform both ways. -/
theorem Conform.of_invariant (hc : Conform R (vs.map (Variance.within .invariant)) as bs) :
    Conform R vs as bs ∧ Conform R vs bs as := by
  induction vs generalizing as bs with
  | nil =>
    cases hc
    exact ⟨.nil, .nil⟩
  | cons v vs ih =>
    cases hc with
    | cons head tail =>
      obtain ⟨hab, hba⟩ := ih tail
      exact ⟨.cons (head.of_invariant v) hab, .cons (head.symm_of_invariant.of_invariant v) hba⟩

/-- Relations that follow one on the other, place by place. -/
theorem Conform.comp {T : Ty → Ty → Prop} {cs : List Ty} (hab : Conform R vs as bs)
    (hbc : Conform S vs bs cs) (forth : ∀ a b c, R a b → S b c → T a c)
    (back : ∀ a b c, S c b → R b a → T c a) : Conform T vs as cs := by
  induction hab generalizing cs with
  | nil =>
    cases hbc
    exact .nil
  | cons head _ ih =>
    cases hbc with
    | cons head' tail' =>
      refine .cons ?_ (ih tail')
      cases head with
      -- Variances agree position by position, so only the like cases meet.
      | covariant hab =>
        cases head' with
        | covariant hbc => exact .covariant (forth _ _ _ hab hbc)
      | contravariant hba =>
        cases head' with
        | contravariant hcb => exact .contravariant (back _ _ _ hcb hba)
      | invariant hab hba =>
        cases head' with
        | invariant hbc hcb => exact .invariant (forth _ _ _ hab hbc) (back _ _ _ hcb hba)

end

/-! ## Being below -/

namespace Hierarchy

/-- The variances of the parameters of a declaration. -/
def variances (h : Hierarchy) (d : DeclId) : List Variance :=
  (h.params d).map h.variance

/-- A case is the bottom type, or it inherits a case of the other type up to arguments that conform. -/
def Fits (h : Hierarchy) (R : Ty → Ty → Prop) (c : Applied) (o : Ty) : Prop :=
  h.isBottom c.decl = true ∨ ∃ c' ∈ o.cases, ∃ v, h.Inherits c v ∧ v.decl = c'.decl ∧
    Conform R (h.variances c'.decl) v.args c'.args

/-- A type within the horizon is below another one, with no more than the given number of comparisons on
top of each other. -/
def BelowAt (h : Hierarchy) (z : Horizon) : Nat → Ty → Ty → Prop
  | 0, _, _ => False
  | n + 1, s, o => s.Within z ∧ o.Within z ∧ ∀ c ∈ s.cases, h.Fits (h.BelowAt z n) c o

/-- A type within the horizon is below another one. -/
def Below (h : Hierarchy) (z : Horizon) (s o : Ty) : Prop :=
  ∃ n, h.BelowAt z n s o

variable {h : Hierarchy} {z : Horizon}

/-- A case fits with respect to a weaker relation. -/
theorem Fits.mono {R S : Ty → Ty → Prop} {c : Applied} {o : Ty} (hc : h.Fits R c o)
    (imp : ∀ a b, R a b → S a b) : h.Fits S c o := by
  refine hc.imp id ?_
  rintro ⟨c', hc', v, hv, hdecl, hargs⟩
  exact ⟨c', hc', v, hv, hdecl, hargs.mono imp⟩

/-- A case that fits a type fits one with more cases. -/
theorem Fits.of_subset {R : Ty → Ty → Prop} {c : Applied} {o o' : Ty} (hc : h.Fits R c o)
    (hsub : ∀ c' ∈ o.cases, c' ∈ o'.cases) : h.Fits R c o' := by
  refine hc.imp id ?_
  rintro ⟨c', hc', rest⟩
  exact ⟨c', hsub c' hc', rest⟩

/-- What is below a type after some rounds is so after one more. -/
theorem BelowAt.succ {n : Nat} {s o : Ty} (hn : h.BelowAt z n s o) : h.BelowAt z (n + 1) s o := by
  induction n generalizing s o with
  | zero => exact hn.elim
  | succ n ih => exact ⟨hn.1, hn.2.1, fun c hc => (hn.2.2 c hc).mono fun _ _ hab => ih hab⟩

/-- What is below a type after some rounds is so after more. -/
theorem BelowAt.mono {n m : Nat} (hnm : n ≤ m) {s o : Ty} (hn : h.BelowAt z n s o) :
    h.BelowAt z m s o := by
  induction hnm with
  | refl => exact hn
  | step _ ih => exact ih.succ

/-- Only types in sight are below others after some rounds. -/
theorem BelowAt.within {n : Nat} {s o : Ty} (hn : h.BelowAt z n s o) :
    s.Within z ∧ o.Within z := by
  cases n with
  | zero => exact hn.elim
  | succ n => exact ⟨hn.1, hn.2.1⟩

/-- What is below a type after some rounds is below it. -/
theorem BelowAt.below {n : Nat} {s o : Ty} (hn : h.BelowAt z n s o) : h.Below z s o :=
  ⟨n, hn⟩

/-- Of finitely many things that each hold from some number on, all hold from some number on. -/
theorem exists_forall_of_mono {α : Type} {P : Nat → α → Prop}
    (mono : ∀ {n m a}, n ≤ m → P n a → P m a) {as : List α} (has : ∀ a ∈ as, ∃ n, P n a) :
    ∃ n, ∀ a ∈ as, P n a := by
  induction as with
  | nil => exact ⟨0, List.forall_mem_nil _⟩
  | cons a as ih =>
    obtain ⟨⟨n, hn⟩, has⟩ := List.forall_mem_cons.mp has
    obtain ⟨m, hm⟩ := ih has
    refine ⟨max n m, List.forall_mem_cons.mpr ⟨mono (Nat.le_max_left n m) hn, fun a ha => ?_⟩⟩
    exact mono (Nat.le_max_right n m) (hm a ha)

/-- A variance that holds of what is below holds after some round. -/
theorem Varies.exists_at {v : Variance} {a b : Ty} (hv : Varies (h.Below z) v a b) :
    ∃ n, Varies (h.BelowAt z n) v a b := by
  cases hv with
  | covariant hab =>
    obtain ⟨n, hn⟩ := hab
    exact ⟨n, .covariant hn⟩
  | contravariant hba =>
    obtain ⟨n, hn⟩ := hba
    exact ⟨n, .contravariant hn⟩
  | invariant hab hba =>
    obtain ⟨n, hn⟩ := hab
    obtain ⟨m, hm⟩ := hba
    exact ⟨max n m, .invariant (hn.mono (Nat.le_max_left n m)) (hm.mono (Nat.le_max_right n m))⟩

/-- Conformance that holds of what is below holds after some round. -/
theorem Conform.exists_at {vs : List Variance} {as bs : List Ty}
    (hc : Conform (h.Below z) vs as bs) : ∃ n, Conform (h.BelowAt z n) vs as bs := by
  induction hc with
  | nil => exact ⟨0, .nil⟩
  | cons head _ ih =>
    obtain ⟨n, hn⟩ := Varies.exists_at head
    obtain ⟨m, hm⟩ := ih
    exact ⟨max n m, .cons (hn.mono fun _ _ => BelowAt.mono (Nat.le_max_left n m))
      (hm.mono fun _ _ => BelowAt.mono (Nat.le_max_right n m))⟩

/-- A type is below another one if its cases fit. -/
theorem below_iff {s o : Ty} :
    h.Below z s o ↔ s.Within z ∧ o.Within z ∧ ∀ c ∈ s.cases, h.Fits (h.Below z) c o := by
  constructor
  · rintro ⟨n, hn⟩
    cases n with
    | zero => exact hn.elim
    | succ n => exact ⟨hn.1, hn.2.1, fun c hc => (hn.2.2 c hc).mono fun _ _ => BelowAt.below⟩
  · rintro ⟨hs, ho, hcases⟩
    have hat : ∀ c ∈ s.cases, ∃ n, h.Fits (h.BelowAt z n) c o := by
      intro c hc
      rcases hcases c hc with hbottom | ⟨c', hc', v, hv, hdecl, hargs⟩
      · exact ⟨0, .inl hbottom⟩
      · obtain ⟨n, hn⟩ := Conform.exists_at hargs
        exact ⟨n, .inr ⟨c', hc', v, hv, hdecl, hn⟩⟩
    obtain ⟨n, hn⟩ := exists_forall_of_mono
      (P := fun n c => h.Fits (h.BelowAt z n) c o)
      (fun hnm hc => hc.mono fun _ _ => BelowAt.mono hnm) hat
    exact ⟨n + 1, hs, ho, hn⟩

/-- Only types in sight are below others. -/
theorem Below.within {s o : Ty} (hso : h.Below z s o) : s.Within z ∧ o.Within z :=
  ⟨(below_iff.mp hso).1, (below_iff.mp hso).2.1⟩

/-- A relation is reflexive if types are related to themselves as soon as the arguments of their cases
are. -/
structure CaseReflexive (h : Hierarchy) (z : Horizon) (R : Ty → Ty → Prop) : Prop where
  of_cases : ∀ t, t.Within z →
    (∀ c ∈ t.cases, Conform R (h.variances c.decl) c.args c.args) → R t t

section

variable {R : Ty → Ty → Prop}

mutual

/-- A relation that is reflexive on cases is reflexive. -/
theorem CaseReflexive.refl (strict : ¬ z.lax) (closed : h.Closed z) (hR : h.CaseReflexive z R) :
    {t : Ty} → t.Within z → R t t
  | _, .unknown hlax => absurd hlax strict
  | _, .applied ha =>
    hR.of_cases _ (.applied ha) (List.forall_mem_singleton.mpr (hR.conform strict closed ha))
  | _, .union hne hproper hcases habove =>
    hR.of_cases _ (.union hne hproper hcases habove) fun c hc =>
      hR.conform strict closed (hcases c hc)

/-- A relation that is reflexive on cases lets arguments conform to themselves. -/
theorem CaseReflexive.conform (strict : ¬ z.lax) (closed : h.Closed z) (hR : h.CaseReflexive z R) :
    {a : Applied} → a.Within z → Conform R (h.variances a.decl) a.args a.args
  | _, .mk _ harity hargs =>
    .refl (by rw [variances, List.length_map, ← closed.arity, harity])
      fun t ht => hR.refl strict closed (hargs t ht)

end

end

/-- Being below is reflexive on cases. -/
theorem caseReflexive_below (h : Hierarchy) (z : Horizon) : h.CaseReflexive z (h.Below z) :=
  ⟨fun _ ht hcases => below_iff.mpr
    ⟨ht, ht, fun c hc => .inr ⟨c, hc, c, .refl, rfl, hcases c hc⟩⟩⟩

/-- Every type in sight is below itself. -/
theorem Below.refl (strict : ¬ z.lax) (closed : h.Closed z) {t : Ty} (ht : t.Within z) :
    h.Below z t t :=
  (h.caseReflexive_below z).refl strict closed ht

/-! ## Types of the same shape -/

mutual

/-- A type is the other one except for parts that are related. -/
inductive Parallel (h : Hierarchy) (z : Horizon) (R : Ty → Ty → Prop) : Ty → Ty → Prop
  | mk {s o : Ty} (within : s.Within z) (within' : o.Within z)
      (cases : ∀ c ∈ s.cases, ParallelCase h z R c o) : Parallel h z R s o

/-- A case is the bottom type, a case of a part that is related to a part of the other type, or a case of
the other type except for parts that are related. -/
inductive ParallelCase (h : Hierarchy) (z : Horizon) (R : Ty → Ty → Prop) : Applied → Ty → Prop
  | bottom {c : Applied} {o : Ty} (isBottom : h.isBottom c.decl = true) : ParallelCase h z R c o
  | part {c : Applied} {a b o : Ty} (related : R a b) (mem : c ∈ a.cases)
      (part : ∀ c' ∈ b.cases, c' ∈ o.cases ∨ h.isBottom c'.decl = true) : ParallelCase h z R c o
  | same {c c' : Applied} {o : Ty} (mem : c' ∈ o.cases) (decl : c.decl = c'.decl)
      (args : Conform (Parallel h z R) (h.variances c'.decl) c.args c'.args) : ParallelCase h z R c o

end

section

variable {R : Ty → Ty → Prop}

/-- Types that are parallel to others are in sight. -/
theorem Parallel.within_left {s o : Ty} (hp : h.Parallel z R s o) : s.Within z := by
  cases hp with
  | mk hs _ _ => exact hs

/-- Types that others are parallel to are in sight. -/
theorem Parallel.within_right {s o : Ty} (hp : h.Parallel z R s o) : o.Within z := by
  cases hp with
  | mk _ ho _ => exact ho

/-- A case of a type has its parallel among the cases of the other one. -/
theorem Parallel.case {s o : Ty} (hp : h.Parallel z R s o) {c : Applied} (hc : c ∈ s.cases) :
    h.ParallelCase z R c o := by
  cases hp with
  | mk _ _ hcases => exact hcases c hc

/-- Related types are parallel. -/
theorem Parallel.of_related (within : ∀ a b, R a b → a.Within z ∧ b.Within z) {a b : Ty}
    (hab : R a b) : h.Parallel z R a b :=
  .mk (within a b hab).1 (within a b hab).2 fun _ hc => .part hab hc fun _ hc' => .inl hc'

/-- Every type in sight is parallel to itself. -/
theorem Parallel.refl (strict : ¬ z.lax) (closed : h.Closed z) {t : Ty} (ht : t.Within z) :
    h.Parallel z R t t :=
  CaseReflexive.refl strict closed
    ⟨fun _ ht hcases => .mk ht ht fun c hc => .same hc rfl (hcases c hc)⟩ ht

/-- Types taken together are parallel if they are one by one. -/
theorem Parallel.joined (closed : h.Closed z) {ts us : List Ty}
    (hts : ts ≠ [] ∧ ∀ t ∈ ts, t.Within z) (hus : us ≠ [] ∧ ∀ u ∈ us, u.Within z)
    (hall : ∀ t ∈ ts, ∃ u ∈ us, h.Parallel z R t u) :
    h.Parallel z R (h.joined ts) (h.joined us) := by
  refine .mk (joined_within closed (.inr hts.1) hts.2) (joined_within closed (.inr hus.1) hus.2) ?_
  intro c hc
  obtain ⟨t, ht, hct⟩ := of_mem_cases_joined hc
  obtain ⟨u, hu, htu⟩ := hall t ht
  cases htu.case hct with
  | bottom hbottom => exact .bottom hbottom
  | part hab hmem hpart =>
    refine .part hab hmem fun c' hc' => (hpart c' hc').elim (fun hc' => ?_) .inr
    cases hbottom : h.isBottom c'.decl with
    | true => exact .inr rfl
    | false => exact .inl (mem_cases_joined hu hc' hbottom)
  | @same _ c' _ hmem hdecl hargs =>
    cases hbottom : h.isBottom c.decl with
    | true => exact .bottom hbottom
    | false => exact .same (mem_cases_joined hu hmem (hdecl ▸ hbottom)) hdecl hargs

/-- Applications of one declaration vary with their arguments. -/
theorem Parallel.varies_applied (place : Variance) {d : DeclId} {as bs : List Ty}
    (has : (Applied.mk d as).Within z) (hbs : (Applied.mk d bs).Within z)
    (hargs : Conform (h.Parallel z R) ((h.variances d).map place.within) as bs) :
    Varies (h.Parallel z R) place (.applied ⟨d, as⟩) (.applied ⟨d, bs⟩) := by
  have applied : ∀ {as bs}, (Applied.mk d as).Within z → (Applied.mk d bs).Within z →
      Conform (h.Parallel z R) (h.variances d) as bs →
      h.Parallel z R (.applied ⟨d, as⟩) (.applied ⟨d, bs⟩) := fun has hbs hargs =>
    .mk (.applied has) (.applied hbs)
      (List.forall_mem_singleton.mpr (.same (List.mem_singleton_self _) rfl hargs))
  cases place with
  | covariant => exact .covariant (applied has hbs hargs.of_covariant)
  | contravariant => exact .contravariant (applied hbs has hargs.of_contravariant)
  | invariant =>
    exact .invariant (applied has hbs hargs.of_invariant.1) (applied hbs has hargs.of_invariant.2)

/-- What is related one by one has a partner. -/
theorem exists_of_forall₂ {α β : Type} {R : α → β → Prop} {as : List α} {bs : List β}
    (hall : List.Forall₂ R as bs) : ∀ a ∈ as, ∃ b ∈ bs, R a b := by
  induction hall with
  | nil => exact List.forall_mem_nil _
  | cons hab _ ih =>
    refine List.forall_mem_cons.mpr ⟨⟨_, List.mem_cons_self, hab⟩, fun a ha => ?_⟩
    obtain ⟨b, hb, hab⟩ := ih a ha
    exact ⟨b, List.mem_cons_of_mem _ hb, hab⟩

/-- Types taken together vary if they do one by one. -/
theorem Parallel.varies_joined (closed : h.Closed z) (place : Variance) {ts us : List Ty}
    (hts : ts ≠ [] ∧ ∀ t ∈ ts, t.Within z) (hus : us ≠ [] ∧ ∀ u ∈ us, u.Within z)
    (hall : List.Forall₂ (Varies (h.Parallel z R) place) ts us) :
    Varies (h.Parallel z R) place (h.joined ts) (h.joined us) := by
  have forth := exists_of_forall₂ hall
  have back := exists_of_forall₂ (List.Forall₂.flip (R := fun u t => Varies _ place t u) hall)
  -- Joining goes case by case; in a contravariant place the sides are exchanged.
  cases place with
  | covariant =>
    refine .covariant (.joined closed hts hus fun t ht => ?_)
    obtain ⟨u, hu, hvaries⟩ := forth t ht
    cases hvaries with
    | covariant htu => exact ⟨u, hu, htu⟩
  | contravariant =>
    refine .contravariant (.joined closed hus hts fun u hu => ?_)
    obtain ⟨t, ht, hvaries⟩ := back u hu
    cases hvaries with
    | contravariant hut => exact ⟨t, ht, hut⟩
  | invariant =>
    refine .invariant (.joined closed hts hus fun t ht => ?_)
      (.joined closed hus hts fun u hu => ?_)
    · obtain ⟨u, hu, hvaries⟩ := forth t ht
      cases hvaries with
      | invariant htu _ => exact ⟨u, hu, htu⟩
    · obtain ⟨t, ht, hvaries⟩ := back u hu
      cases hvaries with
      | invariant _ hut => exact ⟨t, ht, hut⟩

end

/-! ## Variance of type parameters -/

end Hierarchy

mutual

/-- In a type that stands at a place of the given variance, each of the parameters `ps` stands only at
places that `allowed` allows it. -/
def Ty.Uses (h : Hierarchy) (allowed : DeclId → Variance) (ps : List DeclId) :
    (place : Variance) → Ty → Prop
  | _, .unknown => True
  | place, .applied a => a.Uses h allowed ps place
  | place, .union cases _ => casesUse h allowed ps place cases

/-- An application uses parameters as allowed. -/
def Applied.Uses (h : Hierarchy) (allowed : DeclId → Variance) (ps : List DeclId) :
    (place : Variance) → Applied → Prop
  | place, { decl, args } =>
    if h.isParameter decl then decl ∈ ps → allowed decl = .invariant ∨ allowed decl = place
    else argsUse h allowed ps ((h.variances decl).map place.within) args

/-- Arguments at places of the given variances use parameters as allowed. -/
def argsUse (h : Hierarchy) (allowed : DeclId → Variance) (ps : List DeclId) :
    (places : List Variance) → List Ty → Prop
  | _, [] => True
  | [], _ :: _ => True
  | place :: places, t :: ts => t.Uses h allowed ps place ∧ argsUse h allowed ps places ts

/-- The cases of a union use parameters as allowed. -/
def casesUse (h : Hierarchy) (allowed : DeclId → Variance) (ps : List DeclId) :
    (place : Variance) → List Applied → Prop
  | _, [] => True
  | place, c :: cs => c.Uses h allowed ps place ∧ casesUse h allowed ps place cs

end

namespace Hierarchy

/-- Declarations use their type parameters in their supertypes only where `allowed` allows it, given that
these supertypes take their arguments as `allowed` says, too. -/
def UsesAsAllowed (h : Hierarchy) (allowed : DeclId → Variance) : Prop :=
  ∀ d, ∀ st ∈ h.supertypes d,
    argsUse h allowed (h.params d) ((h.params st.decl).map allowed) st.args

/-- Declarations use their type parameters in their supertypes according to their variance. -/
def RespectsVariance (h : Hierarchy) : Prop :=
  h.UsesAsAllowed h.variance

variable {h : Hierarchy} {z : Horizon} {R : Ty → Ty → Prop}

/-- Types are bound to the same parameters among `ps`, and vary as `allowed` says. -/
structure BoundAlike (h : Hierarchy) (z : Horizon) (R : Ty → Ty → Prop)
    (allowed : DeclId → Variance) (ps : List DeclId) (b b' : Bindings) : Prop where
  within : ∀ p ∈ b, p.2.Within z
  within' : ∀ p ∈ b', p.2.Within z
  lookup : ∀ p, (b.lookup p = none ∧ b'.lookup p = none) ∨ p ∈ ps ∧ ∃ a a',
    b.lookup p = some a ∧ b'.lookup p = some a' ∧ Varies (h.Parallel z R) (allowed p) a a'

section

variable {allowed : DeclId → Variance} {ps : List DeclId} {b b' : Bindings}

mutual

/-- Types that vary as allowed are put in place, and the results vary as the place does. -/
theorem instantiate_varies (strict : ¬ z.lax) (closed : h.Closed z)
    (bound : h.BoundAlike z R allowed ps b b') :
    (t : Ty) → (place : Variance) → t.Within z → t.Uses h allowed ps place →
      Varies (h.Parallel z R) place (h.instantiate b t) (h.instantiate b' t)
  | .unknown, _, ht, _ => absurd (ht.lax_of_unknown rfl) strict
  | .applied a, place, ht, huses =>
    instantiateApplied_varies strict closed bound a place ht.of_applied huses
  | .union cases _, place, .union hne _ hcases _, huses => by
    obtain ⟨c, cs, rfl⟩ := List.exists_cons_of_ne_nil (hne.resolve_left strict)
    exact Parallel.varies_joined closed place
      ⟨List.cons_ne_nil _ _, instantiateCases_within closed bound.within _ hcases⟩
      ⟨List.cons_ne_nil _ _, instantiateCases_within closed bound.within' _ hcases⟩
      (instantiateCases_varies strict closed bound (c :: cs) place hcases huses)

/-- Instantiating a type with arguments that vary gives types that vary. -/
theorem instantiateApplied_varies (strict : ¬ z.lax) (closed : h.Closed z)
    (bound : h.BoundAlike z R allowed ps b b') :
    (a : Applied) → (place : Variance) → a.Within z → a.Uses h allowed ps place →
      Varies (h.Parallel z R) place (h.instantiateApplied b a) (h.instantiateApplied b' a)
  | { decl, args }, place, ha, huses => by
    have hb := instantiateApplied_within closed bound.within ⟨decl, args⟩ ha
    have hb' := instantiateApplied_within closed bound.within' ⟨decl, args⟩ ha
    rw [Applied.Uses] at huses
    rw [instantiateApplied] at hb hb' ⊢
    rw [instantiateApplied]
    split at huses
    · next hparam =>
      rw [if_pos hparam] at hb hb' ⊢
      rw [if_pos hparam]
      -- A parameter that is not bound stays, and one that is bound varies as its place allows.
      rcases bound.lookup decl with ⟨hnone, hnone'⟩ | ⟨hmem, t, t', hsome, hsome', hvaries⟩
      · rw [hnone, hnone']
        exact .refl (.refl strict closed (.applied ha))
      · rw [hsome, hsome']
        rcases huses hmem with hinvariant | hplace
        · exact (hinvariant ▸ hvaries).of_invariant place
        · exact hplace ▸ hvaries
    · next hparam =>
      rw [if_neg hparam] at hb hb' ⊢
      rw [if_neg hparam]
      -- Any other type varies in its arguments, each in the place that its parameter makes of this one.
      have hlength : ((h.variances decl).map place.within).length = args.length := by
        rw [List.length_map, variances, List.length_map, ← closed.arity, ha.arity]
      exact Parallel.varies_applied place hb.of_applied hb'.of_applied
        (instantiateArgs_conform strict closed bound args _ hlength ha.args huses)

/-- Instantiating type arguments with arguments that vary gives arguments that conform. -/
theorem instantiateArgs_conform (strict : ¬ z.lax) (closed : h.Closed z)
    (bound : h.BoundAlike z R allowed ps b b') :
    (ts : List Ty) → (places : List Variance) → places.length = ts.length →
      (∀ t ∈ ts, t.Within z) → argsUse h allowed ps places ts →
      Conform (h.Parallel z R) places (h.instantiateArgs b ts) (h.instantiateArgs b' ts)
  | [], [], _, _, _ => .nil
  | t :: ts, place :: places, hlength, hts, huses =>
    have ⟨ht, hts⟩ := List.forall_mem_cons.mp hts
    .cons (instantiate_varies strict closed bound t place ht huses.1)
      (instantiateArgs_conform strict closed bound ts places (Nat.succ.inj hlength) hts huses.2)

/-- Instantiating cases with arguments that vary gives cases that vary. -/
theorem instantiateCases_varies (strict : ¬ z.lax) (closed : h.Closed z)
    (bound : h.BoundAlike z R allowed ps b b') :
    (cs : List Applied) → (place : Variance) → (∀ c ∈ cs, c.Within z) →
      casesUse h allowed ps place cs →
      List.Forall₂ (Varies (h.Parallel z R) place) (h.instantiateCases b cs) (h.instantiateCases b' cs)
  | [], _, _, _ => .nil
  | c :: cs, place, hcs, huses =>
    have ⟨hc, hcs⟩ := List.forall_mem_cons.mp hcs
    .cons (instantiateApplied_varies strict closed bound c place hc huses.1)
      (instantiateCases_varies strict closed bound cs place hcs huses.2)

end

end

/-- Without unknown arguments, each parameter is bound to the argument in its place. -/
theorem bindings_eq_zip (strict : ¬ z.lax) {t : Applied} (ht : t.Within z) :
    h.bindings t = (h.params t.decl).zip t.args := by
  refine List.filter_eq_self.mpr fun p hp => ?_
  by_contra hunknown
  exact strict ((ht.args p.2 (List.of_mem_zip hp).2).lax_of_unknown (Bool.not_eq_true _ |>.mp hunknown))

/-- Parameters are bound to arguments that vary, or to none. -/
theorem lookup_zip_of_conform {allowed : DeclId → Variance} {ps : List DeclId} {as bs : List Ty}
    (hargs : Conform R (ps.map allowed) as bs) (p : DeclId) :
    ((ps.zip as).lookup p = none ∧ (ps.zip bs).lookup p = none) ∨ p ∈ ps ∧ ∃ a a',
      (ps.zip as).lookup p = some a ∧ (ps.zip bs).lookup p = some a' ∧ Varies R (allowed p) a a' := by
  induction ps generalizing as bs with
  | nil => exact .inl ⟨rfl, rfl⟩
  | cons q ps ih =>
    cases hargs with
    | @cons _ a a' _ as bs head tail =>
      simp only [List.zip_cons_cons, List.lookup_cons]
      by_cases hpq : p = q
      · subst hpq
        exact .inr ⟨List.mem_cons_self, a, a', by simp, by simp, head⟩
      · have hbeq : (p == q) = false := by simpa using hpq
        simp only [hbeq]
        exact (ih tail).imp id fun ⟨hmem, rest⟩ => ⟨List.mem_cons_of_mem q hmem, rest⟩

/-- Types of one declaration, with arguments that vary as allowed, have supertypes whose arguments do. -/
theorem supertypeAt_conform {allowed : DeclId → Variance} (strict : ¬ z.lax) (closed : h.Closed z)
    (uses : h.UsesAsAllowed allowed) {t t' : Applied} (ht : t.Within z) (ht' : t'.Within z)
    (hdecl : t.decl = t'.decl)
    (hargs : Conform (h.Parallel z R) ((h.params t'.decl).map allowed) t.args t'.args)
    {st : Applied} (hst : st ∈ h.supertypes t'.decl) :
    Conform (h.Parallel z R) ((h.params st.decl).map allowed) (h.supertypeAt t st).args
      (h.supertypeAt t' st).args := by
  have hwithin := closed.supertypes _ ht'.sees st hst
  have hlength : ((h.params st.decl).map allowed).length = st.args.length := by
    rw [List.length_map, ← closed.arity, hwithin.arity]
  have hb : h.bindings t = (h.params t'.decl).zip t.args := hdecl ▸ bindings_eq_zip strict ht
  have hb' : h.bindings t' = (h.params t'.decl).zip t'.args := bindings_eq_zip strict ht'
  -- The arguments of the two types bind the same parameters, and vary as these allow.
  have bound : h.BoundAlike z R allowed (h.params t'.decl) (h.bindings t) (h.bindings t') := by
    refine ⟨bindings_within ht, bindings_within ht', fun p => ?_⟩
    rw [hb, hb']
    exact lookup_zip_of_conform hargs p
  have hempty : (h.bindings t).isEmpty = (h.bindings t').isEmpty := by
    obtain ⟨hlen, hlen'⟩ := hargs.length_eq
    have hzip : (h.bindings t).length = (h.bindings t').length := by
      rw [hb, hb', List.length_zip, List.length_zip, hlen, hlen']
    rw [Bool.eq_iff_iff, List.isEmpty_iff_length_eq_zero, List.isEmpty_iff_length_eq_zero, hzip]
  unfold supertypeAt
  rw [hempty]
  split
  · exact .refl hlength fun a ha => .refl strict closed (hwithin.args a ha)
  · exact instantiateArgs_conform strict closed bound _ _ hlength hwithin.args (uses _ st hst)

/-- What a type inherits, another one of the same declaration inherits along the same way. -/
theorem Inherits.parallel {allowed : DeclId → Variance} (strict : ¬ z.lax) (closed : h.Closed z)
    (uses : h.UsesAsAllowed allowed) {t t' w : Applied} (ht : t.Within z) (ht' : t'.Within z)
    (hdecl : t.decl = t'.decl)
    (hargs : Conform (h.Parallel z R) ((h.params t'.decl).map allowed) t.args t'.args)
    (hw : h.Inherits t' w) :
    ∃ v, h.Inherits t v ∧ v.decl = w.decl ∧
      Conform (h.Parallel z R) ((h.params w.decl).map allowed) v.args w.args := by
  induction hw with
  | refl => exact ⟨t, .refl, hdecl, hargs⟩
  | @tail w _ hw hstep ih =>
    obtain ⟨v, hv, hvdecl, hvargs⟩ := ih
    obtain ⟨st, hst, rfl⟩ := hstep
    refine ⟨h.supertypeAt v st, hv.tail ⟨st, hvdecl ▸ hst, rfl⟩, by simp, ?_⟩
    rw [supertypeAt_decl]
    exact supertypeAt_conform strict closed uses (hv.within closed ht)
      (Inherits.within closed ht' hw) hvdecl
      hvargs hst

/-! ## Transitivity -/

/-- What subtyping needs of declarations to be transitive. -/
structure Regular (h : Hierarchy) (z : Horizon) : Prop where
  /-- Nothing is unknown, and declarations have as many arguments as parameters. -/
  strict : ¬ z.lax
  /-- Declarations in sight lead to nothing out of sight. -/
  closed : h.Closed z
  /-- Nothing extends the bottom type. -/
  proper : ∀ d, ∀ st ∈ h.supertypes d, h.isBottom st.decl = false
  /-- Type parameters are used according to their variance. -/
  respects : h.RespectsVariance

/-- Only the bottom type fits to the bottom type. -/
theorem Fits.of_cases (regular : h.Regular z) {R : Ty → Ty → Prop} {c : Applied} {o o' : Ty}
    (hc : h.Fits R c o) (hcases : ∀ c' ∈ o.cases, c' ∈ o'.cases ∨ h.isBottom c'.decl = true) :
    h.Fits R c o' := by
  rcases hc with hbottom | ⟨c', hc', v, hv, hdecl, hargs⟩
  · exact .inl hbottom
  · rcases hcases c' hc' with hmem | hbottom
    · exact .inr ⟨c', hmem, v, hv, hdecl, hargs⟩
    · exact .inl (hv.isBottom regular.proper (hdecl ▸ hbottom))

/-- What an inherited type fits, the type that inherits it fits. -/
theorem Fits.of_inherits (regular : h.Regular z) {R : Ty → Ty → Prop} {c v : Applied} {o : Ty}
    (hv : h.Inherits c v) (hfits : h.Fits R v o) : h.Fits R c o := by
  rcases hfits with hbottom | ⟨c', hc', w, hw, rest⟩
  · exact .inl (hv.isBottom regular.proper hbottom)
  · exact .inr ⟨c', hc', w, hv.trans hw, rest⟩

/-- Types that are related to one of two types, of which one is below the other with `n` comparisons on top
of each other, are related to the other type, too. -/
structure Continues (h : Hierarchy) (z : Horizon) (R : Ty → Ty → Prop) (n : Nat) : Prop where
  forth : ∀ {a b c : Ty}, R a b → h.BelowAt z n b c → h.Below z a c
  back : ∀ {a b c : Ty}, h.BelowAt z n c b → R b a → h.Below z c a

/-- What a case fits to, a parallel case does. -/
theorem fits_of_parallel (regular : h.Regular z) {n : Nat}
    (continues : h.Continues z (h.Parallel z R) n) {c c' : Applied} {o : Ty} (hc : c.Within z)
    (hc' : c'.Within z) (hdecl : c.decl = c'.decl)
    (hargs : Conform (h.Parallel z R) (h.variances c'.decl) c.args c'.args)
    (hfits : h.Fits (h.BelowAt z n) c' o) : h.Fits (h.Below z) c o := by
  rcases hfits with hbottom | ⟨c'', hc'', w, hw, hwdecl, hwargs⟩
  · exact .inl (hdecl ▸ hbottom)
  · obtain ⟨v, hv, hvdecl, hvargs⟩ :=
      hw.parallel regular.strict regular.closed regular.respects hc hc' hdecl hargs
    refine .inr ⟨c'', hc'', v, hv, hvdecl.trans hwdecl, ?_⟩
    rw [hwdecl] at hvargs
    exact hvargs.comp hwargs (fun _ _ _ => continues.forth) (fun _ _ _ => continues.back)

/-- If related types can be continued with up to `n` comparisons, then so can parallel types. -/
theorem continues_parallel (regular : h.Regular z)
    (within : ∀ a b, R a b → a.Within z ∧ b.Within z) {n : Nat}
    (continues : ∀ m ≤ n, h.Continues z R m) : h.Continues z (h.Parallel z R) n := by
  induction n with
  | zero => exact ⟨fun _ hbc => hbc.elim, fun hcb _ => hcb.elim⟩
  | succ n ih =>
    have less := ih fun m hm => continues m (Nat.le_succ_of_le hm)
    have here := continues (n + 1) (Nat.le_refl _)
    refine ⟨fun {a b c} hab hbc => ?_, fun {a b c} hcb hba => ?_⟩
    · -- Each case on the left is the bottom, or comes with a part of the relation, or differs in its arguments
      -- only.
      refine below_iff.mpr ⟨hab.within_left, hbc.2.1, fun x hx => ?_⟩
      cases hab.case hx with
      | bottom hbottom => exact .inl hbottom
      | @part _ a' b' _ hab' hmem hpart =>
        have hb'c : h.BelowAt z (n + 1) b' c := by
          refine ⟨(within _ _ hab').2, hbc.2.1, fun y hy => ?_⟩
          exact (hpart y hy).elim (hbc.2.2 y) .inl
        exact (below_iff.mp (here.forth hab' hb'c)).2.2 x hmem
      | @same _ y _ hmem hdecl hargs =>
        exact fits_of_parallel regular less (hab.within_left.cases x hx)
          (hab.within_right.cases y hmem) hdecl hargs (hbc.2.2 y hmem)
    · refine below_iff.mpr ⟨hcb.1, hba.within_right, fun x hx => ?_⟩
      rcases hcb.2.2 x hx with hbottom | ⟨y, hy, v, hv, hvdecl, hvargs⟩
      · exact .inl hbottom
      · cases hba.case hy with
        | bottom hbottom => exact .inl (hv.isBottom regular.proper (hvdecl ▸ hbottom))
        | @part _ b' a' _ hba' hmem hpart =>
          have hxb' : h.BelowAt z (n + 1) (.applied x) b' := by
            refine ⟨.applied (hcb.1.cases x hx), (within _ _ hba').1, ?_⟩
            exact List.forall_mem_singleton.mpr (.inr ⟨y, hmem, v, hv, hvdecl, hvargs⟩)
          have hxa' := (below_iff.mp (here.back hxb' hba')).2.2 x (List.mem_singleton_self x)
          exact hxa'.of_cases regular hpart
        | @same _ w _ hmem hdecl hargs =>
          refine .inr ⟨w, hmem, v, hv, hvdecl.trans hdecl, ?_⟩
          rw [hdecl] at hvargs
          exact hvargs.comp hargs (fun _ _ _ => less.back) (fun _ _ _ => less.forth)

/-- What is below a type after some rounds is below all that this type is below. -/
theorem belowAt_trans (regular : h.Regular z) {n : Nat} {a b c : Ty} (hab : h.BelowAt z n a b)
    (hbc : h.BelowAt z n b c) : h.Below z a c := by
  -- By induction on the effort: arguments are compared with less.
  induction n generalizing a b c with
  | zero => exact hab.elim
  | succ n ih =>
    have continues : h.Continues z (h.Parallel z (h.BelowAt z n)) n :=
      continues_parallel regular (fun _ _ => BelowAt.within) fun m hm =>
        ⟨fun hab hbc => ih hab (hbc.mono hm), fun hcb hba => ih (hcb.mono hm) hba⟩
    refine below_iff.mpr ⟨hab.1, hbc.2.1, fun x hx => ?_⟩
    rcases hab.2.2 x hx with hbottom | ⟨y, hy, v, hv, hvdecl, hvargs⟩
    · exact .inl hbottom
    · refine .of_inherits regular hv ?_
      refine fits_of_parallel regular continues (hv.within regular.closed (hab.1.cases x hx))
        (hbc.1.cases y hy) hvdecl ?_ (hbc.2.2 y hy)
      exact hvargs.mono fun _ _ => .of_related fun _ _ => BelowAt.within

/-- Being below is transitive. -/
theorem Below.trans (regular : h.Regular z) {a b c : Ty} (hab : h.Below z a b)
    (hbc : h.Below z b c) : h.Below z a c := by
  obtain ⟨n, hab⟩ := hab
  obtain ⟨m, hbc⟩ := hbc
  exact belowAt_trans regular (hab.mono (Nat.le_max_left n m)) (hbc.mono (Nat.le_max_right n m))

/-- Parallel to what is below is below. -/
theorem below_of_parallel (regular : h.Regular z) {a b : Ty} (hab : h.Parallel z (h.Below z) a b) :
    h.Below z a b := by
  obtain ⟨n, hb⟩ := Below.refl regular.strict regular.closed hab.within_right
  have continues : h.Continues z (h.Parallel z (h.Below z)) n :=
    continues_parallel regular (fun _ _ => Below.within) fun m _ =>
      ⟨fun hab hbc => hab.trans regular hbc.below, fun hcb hba => hcb.below.trans regular hba⟩
  exact continues.forth hab hb

end Hierarchy

end Ceylon.Model
