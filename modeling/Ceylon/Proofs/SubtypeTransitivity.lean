import Ceylon.Analysis.Language
import Ceylon.Proofs.DeclaredSubtyping
import Ceylon.Proofs.UnionNormalForm

/-!
# Subtyping is transitive

The type algebra decides subtyping as declared.  Its answers are sound (`Hierarchy.answer_sound`): what it
finds to be a subtype is below; a supertype that it finds is inherited up to types that are below each
other, because unions in its arguments have been normalized; and it substitutes and unites types up to
types that are below each other.

A type may inherit several types for one declaration, and subtyping compares with the one that a search finds.
If one of those that are inherited is most specific (`Hierarchy.PrincipalInstantiations`), then the search finds
one that is as specific, because it takes what is more specific than what it has found so far.  So the
answers are complete, too (`Hierarchy.answer_complete`): what is no subtype is not below.  Subtyping inherits
that being below is transitive (`Hierarchy.subtype_trans`).

Without these conditions it is not transitive (`Analysis.crossed_not_transitive`).
-/

namespace Ceylon.Model

namespace Hierarchy

open Ceylon.Model.Algebra (argumentConforms argumentsConform allSubtypes anySupertype notCoveredBy substituteAll
  substituteArgs)
open Syntax (Variance)

variable {h : Hierarchy} {z : Horizon}

/-- Arguments that conform to others conform to what these conform to. -/
theorem conform_trans (regular : h.Regular z) {vs : List Variance} {as bs cs : List Ty}
    (hab : Conform (h.Below z) vs as bs) (hbc : Conform (h.Below z) vs bs cs) : Conform (h.Below z) vs as cs :=
  hab.comp hbc (fun _ _ _ hab hbc => hab.trans regular hbc) fun _ _ _ hcb hba => hcb.trans regular hba

/-- Two types are below each other. -/
def Equivalent (h : Hierarchy) (z : Horizon) (s o : Ty) : Prop :=
  h.Below z s o ∧ h.Below z o s

/-- Every type is equivalent to itself. -/
theorem Equivalent.refl (regular : h.Regular z) {t : Ty} (ht : t.Within z) : h.Equivalent z t t :=
  ⟨.refl regular.strict regular.closed ht, .refl regular.strict regular.closed ht⟩

/-- Equivalent types can be exchanged. -/
theorem Equivalent.symm {s o : Ty} (hso : h.Equivalent z s o) : h.Equivalent z o s :=
  ⟨hso.2, hso.1⟩

/-- Types are equivalent to themselves, one by one. -/
theorem forall₂_equivalent_refl (regular : h.Regular z) {ts : List Ty}
    (hts : ∀ t ∈ ts, t.Within z) : List.Forall₂ (h.Equivalent z) ts ts :=
  List.forall₂_same.mpr fun t ht => .refl regular (hts t ht)

/-- Types that are equivalent to the same ones are equivalent, one by one. -/
theorem forall₂_equivalent_trans (regular : h.Regular z) {as bs cs : List Ty}
    (hab : List.Forall₂ (h.Equivalent z) as bs) (hbc : List.Forall₂ (h.Equivalent z) bs cs) :
    List.Forall₂ (h.Equivalent z) as cs := by
  induction hab generalizing cs with
  | nil => exact hbc
  | cons hab _ ih =>
    cases hbc with
    | cons hbc hrest =>
      exact .cons ⟨hab.1.trans regular hbc.1, hbc.2.trans regular hab.2⟩ (ih hrest)

/-- The arguments of an application within the horizon, one for each variance. -/
theorem length_variances (regular : h.Regular z) {a : Applied} (ha : a.Within z) :
    (h.variances a.decl).length = a.args.length := by
  rw [variances, List.length_map, ← regular.closed.arity, ha.arity]

/-- Equivalent arguments conform to each other. -/
theorem conform_of_equivalent (regular : h.Regular z) {a b : Applied} (ha : a.Within z)
    (hargs : List.Forall₂ (h.Equivalent z) a.args b.args) :
    Conform (h.Below z) (h.variances a.decl) a.args b.args :=
  .of_forall₂ (length_variances regular ha) hargs

/-- Applications of one declaration to equivalent arguments. -/
theorem equivalent_applied (regular : h.Regular z) {d : DeclId} {as bs : List Ty}
    (has : (Applied.mk d as).Within z) (hbs : (Applied.mk d bs).Within z)
    (hargs : List.Forall₂ (h.Equivalent z) as bs) :
    h.Equivalent z (.applied ⟨d, as⟩) (.applied ⟨d, bs⟩) := by
  have below : ∀ {as bs}, (Applied.mk d as).Within z → (Applied.mk d bs).Within z →
      List.Forall₂ (h.Equivalent z) as bs → h.Below z (.applied ⟨d, as⟩) (.applied ⟨d, bs⟩) := by
    intro as bs has hbs hargs
    refine below_iff.mpr ⟨.applied has, .applied hbs, List.forall_mem_singleton.mpr (.inr ?_)⟩
    refine ⟨⟨d, bs⟩, List.mem_singleton_self _, ⟨d, as⟩, .refl, rfl, .of_forall₂ ?_ hargs⟩
    rw [variances, List.length_map, ← regular.closed.arity, has.arity]
  exact ⟨below has hbs hargs, below hbs has (.flip (hargs.imp fun _ _ => Equivalent.symm))⟩

/-! ## Equivalent types inherit equivalent types -/

section

variable {ps : List DeclId}

mutual

/-- What is related both ways may stand anywhere. -/
theorem uses_of_invariant : (t : Ty) → (place : Variance) → t.Uses h (fun _ => .invariant) ps place
  | .unknown, _ => trivial
  | .applied a, place => applied_uses_of_invariant a place
  | .union cases _, place => casesUse_of_invariant cases place

/-- Where all parameters count as invariant, a type uses them in every place. -/
theorem applied_uses_of_invariant :
    (a : Applied) → (place : Variance) → a.Uses h (fun _ => .invariant) ps place
  | { decl, args }, place => by
    rw [Applied.Uses]
    split
    · exact fun _ => .inl rfl
    · exact argsUse_of_invariant args _

/-- Where all parameters count as invariant, type arguments use them in every place. -/
theorem argsUse_of_invariant :
    (ts : List Ty) → (places : List Variance) → argsUse h (fun _ => .invariant) ps places ts
  | [], _ => trivial
  | _ :: _, [] => trivial
  | t :: ts, place :: places => ⟨uses_of_invariant t place, argsUse_of_invariant ts places⟩

/-- Where all parameters count as invariant, cases use them in every place. -/
theorem casesUse_of_invariant :
    (cs : List Applied) → (place : Variance) → casesUse h (fun _ => .invariant) ps place cs
  | [], _ => trivial
  | c :: cs, place => ⟨applied_uses_of_invariant c place, casesUse_of_invariant cs place⟩

end

end

/-- What is put in place of the parameters may be replaced by equivalent types. -/
theorem supertypeAt_equivalent (regular : h.Regular z) {t t' st : Applied} (ht : t.Within z) (ht' : t'.Within z)
    (hdecl : t.decl = t'.decl) (hargs : List.Forall₂ (h.Equivalent z) t.args t'.args)
    (hst : st ∈ h.supertypes t'.decl) :
    List.Forall₂ (h.Equivalent z) (h.supertypeAt t st).args (h.supertypeAt t' st).args := by
  have hlength : ((h.params t'.decl).map fun _ => Variance.invariant).length = t.args.length := by
    rw [List.length_map, ← hdecl, ← regular.closed.arity, ht.arity]
  have hparallel : List.Forall₂
      (fun a b => h.Parallel z (h.Below z) a b ∧ h.Parallel z (h.Below z) b a) t.args t'.args :=
    hargs.imp fun _ _ hab =>
      ⟨.of_related (fun _ _ => Below.within) hab.1, .of_related (fun _ _ => Below.within) hab.2⟩
  have uses : h.UsesAsAllowed fun _ => .invariant := fun _ st _ => argsUse_of_invariant st.args _
  have hconform := supertypeAt_conform regular.strict regular.closed uses ht ht' hdecl
    (.of_forall₂ hlength hparallel) hst
  refine (hconform.forall₂ (by simp)).imp fun _ _ hab => ?_
  exact ⟨below_of_parallel regular hab.1, below_of_parallel regular hab.2⟩

/-- Types with equivalent arguments inherit the same types, but for equivalent arguments. -/
theorem Inherits.of_equivalent (regular : h.Regular z) {t t' w : Applied} (ht : t.Within z)
    (ht' : t'.Within z) (hdecl : t.decl = t'.decl)
    (hargs : List.Forall₂ (h.Equivalent z) t.args t'.args) (hw : h.Inherits t' w) :
    ∃ v, h.Inherits t v ∧ v.decl = w.decl ∧ List.Forall₂ (h.Equivalent z) v.args w.args := by
  induction hw with
  | refl => exact ⟨t, .refl, hdecl, hargs⟩
  | tail hw hstep ih =>
    obtain ⟨v, hv, hvdecl, hvargs⟩ := ih
    obtain ⟨st, hst, rfl⟩ := hstep
    refine ⟨h.supertypeAt v st, hv.tail ⟨st, hvdecl ▸ hst, rfl⟩, by simp, ?_⟩
    exact supertypeAt_equivalent regular (hv.within regular.closed ht) (Inherits.within regular.closed ht' hw) hvdecl
      hvargs hst

/-- The way up is the same. -/
theorem InheritsOnce.of_equivalent (regular : h.Regular z) {path : List DeclId} {t t' w : Applied}
    (ht : t.Within z) (ht' : t'.Within z) (hdecl : t.decl = t'.decl)
    (hargs : List.Forall₂ (h.Equivalent z) t.args t'.args) (hw : h.InheritsOnce path t' w) :
    ∃ v, h.InheritsOnce path t v ∧ v.decl = w.decl ∧ List.Forall₂ (h.Equivalent z) v.args w.args := by
  induction hw generalizing t with
  | here new => exact ⟨t, .here (hdecl ▸ new), hdecl, hargs⟩
  | @up path t' st w new mem rest ih =>
    have hst := regular.closed.supertypes _ ht'.sees st mem
    obtain ⟨v, hv, hvdecl, hvargs⟩ := ih (supertypeAt_within regular.closed ht hst)
      (supertypeAt_within regular.closed ht' hst) (by simp)
      (supertypeAt_equivalent regular ht ht' hdecl hargs mem)
    exact ⟨v, .up (hdecl ▸ new) (hdecl ▸ mem) (hdecl ▸ hv), hvdecl, hvargs⟩

/-! ## Contracts of the questions -/

/-- A question about types within the horizon. -/
def Formed (z : Horizon) : Query → Prop
  | .subtype s o => s.Within z ∧ o.Within z
  | .search t _ _ => t.Within z
  | .substitute b t => b.isEmpty = false ∧ (∀ p ∈ b, p.2.Within z) ∧ t.Within z
  | .unite ts => ts ≠ [] ∧ ∀ t ∈ ts, t.Within z
  | _ => True

/-- A computation comes to a result with the property, if its questions have answers, and those about types
within the horizon have answers with the property `K`. -/
abbrev Given (h : Hierarchy) (z : Horizon) (K : (q : Query) → q.Answer → Prop) {α : Type}
    (m : Algebra α) (P : α → Prop) : Prop :=
  m.Ensures (fun _ => True) (fun q r => h.Answers q r ∧ (Formed z q → K q r)) P

section

variable {K : (q : Query) → q.Answer → Prop} {α : Type}

/-- What a query keeps to is known of its answer. -/
theorem Given.of_keeps (closed : h.Closed z) {m : Algebra α} {P : α → Prop} (hm : m.Keeps z P) :
    h.Given z K m P := by
  refine hm.of_right ?_
  rintro q r ⟨⟨depth, hr⟩, -⟩ hq
  exact answer_within closed hq hr

/-- Asking a query gives an answer that is known to be right. -/
theorem ask_given {q : Query} (hq : Formed z q) :
    h.Given z K (.ask q .done : Algebra q.Answer) (K q) :=
  ⟨.intro, fun _ hr => hr.2 hq⟩

/-- If the rule of each question leads to an answer with the property as long as the answers on its way
have it, then all answers have it. -/
theorem answer_of_given (step : ∀ q, Formed z q → h.Given z K (h.step q) (K q)) {depth : Nat}
    {q : Query} (hq : Formed z q) {r : q.Answer} (hr : h.answerWithin depth q = some r) : K q r := by
  induction depth generalizing q with
  | zero => cases hr
  | succ depth ih =>
    exact (step q hq).of_run (fun q r _ hr => ⟨⟨depth, hr⟩, fun hq => ih hq hr⟩) hr

end

/-! ## Soundness -/

/-- What an answer says about types that are below others. -/
def Sound (h : Hierarchy) (z : Horizon) : (q : Query) → q.Answer → Prop
  | .subtype s o, r => r = true → h.Below z s o
  | .search t d _, r => ∀ v, r = some v →
    ∃ w, h.Inherits t w ∧ w.decl = d ∧ List.Forall₂ (h.Equivalent z) v.args w.args
  | .substitute b t, r => h.Equivalent z r (h.instantiate b t)
  | .unite ts, r => (∀ t ∈ ts, h.Below z t r) ∧ ∀ c ∈ r.cases, ∃ t ∈ ts, c ∈ t.cases
  | _, _ => True

/-- A computation comes to a result with the property if the answers to its questions are sound. -/
abbrev Tells (h : Hierarchy) (z : Horizon) {α : Type} (m : Algebra α) (P : α → Prop) : Prop :=
  h.Given z (h.Sound z) m P

/-- If the subtype query says yes, the one type is below the other. -/
theorem subtype_tells {s o : Ty} (hs : s.Within z) (ho : o.Within z) :
    h.Tells z (Algebra.subtype s o) fun r => r = true → h.Below z s o :=
  ask_given (q := .subtype s o) ⟨hs, ho⟩

/-- Where no type may be missing, every type in sight is known. -/
theorem isKnown_of_within (strict : ¬ z.lax) {t : Ty} (ht : t.Within z) : t.isKnown = true := by
  by_contra hunknown
  exact strict (ht.lax_of_unknown (Bool.not_eq_true _ |>.mp hunknown))

/-- If an argument conforms, it varies as its parameter does. -/
theorem argumentConforms_tells (strict : ¬ z.lax) (v : Variance) {a b : Ty} (ha : a.Within z)
    (hb : b.Within z) :
    h.Tells z (argumentConforms v a b) fun r => r = true → Varies (h.Below z) v a b := by
  unfold argumentConforms
  rw [if_neg (by simp [isKnown_of_within strict ha, isKnown_of_within strict hb])]
  cases v with
  | covariant => exact (subtype_tells ha hb).mono fun r hr htrue => .covariant (hr htrue)
  | contravariant => exact (subtype_tells hb ha).mono fun r hr htrue => .contravariant (hr htrue)
  | invariant =>
    refine (subtype_tells ha hb).bind fun r hab => ?_
    cases r with
    | true => exact (subtype_tells hb ha).mono fun r hba htrue => .invariant (hab rfl) (hba htrue)
    | false => exact nofun

/-- If arguments conform, they vary as their parameters do. -/
theorem argumentsConform_tells (strict : ¬ z.lax) {vs : List Variance} {as bs : List Ty}
    (has : vs.length = as.length ∧ ∀ a ∈ as, a.Within z)
    (hbs : vs.length = bs.length ∧ ∀ b ∈ bs, b.Within z) :
    h.Tells z (argumentsConform vs as bs) fun r => r = true → Conform (h.Below z) vs as bs := by
  induction vs generalizing as bs with
  | nil =>
    obtain rfl := List.length_eq_zero_iff.mp has.1.symm
    obtain rfl := List.length_eq_zero_iff.mp hbs.1.symm
    exact fun _ => .nil
  | cons v vs ih =>
    obtain ⟨a, as, rfl⟩ := List.exists_cons_of_length_eq_add_one has.1.symm
    obtain ⟨b, bs, rfl⟩ := List.exists_cons_of_length_eq_add_one hbs.1.symm
    obtain ⟨ha, has'⟩ := List.forall_mem_cons.mp has.2
    obtain ⟨hb, hbs'⟩ := List.forall_mem_cons.mp hbs.2
    refine (argumentConforms_tells strict v ha hb).bind fun r hr => ?_
    -- The first argument that does not conform ends the comparison.
    cases r with
    | true =>
      refine (ih ⟨Nat.succ.inj has.1, has'⟩ ⟨Nat.succ.inj hbs.1, hbs'⟩).mono fun r' hr' htrue => ?_
      exact .cons (hr rfl) (hr' htrue)
    | false => exact nofun

/-- If all cases are subtypes, all are below the type. -/
theorem allSubtypes_tells {o : Ty} (ho : o.Within z) {cs : List Applied}
    (hcs : ∀ c ∈ cs, c.Within z) :
    h.Tells z (allSubtypes o cs) fun r => r = true → ∀ c ∈ cs, h.Below z (.applied c) o := by
  induction cs with
  | nil => exact fun _ => List.forall_mem_nil _
  | cons c cs ih =>
    obtain ⟨hc, hcs⟩ := List.forall_mem_cons.mp hcs
    refine (subtype_tells (.applied hc) ho).bind fun r hr => ?_
    cases r with
    | true => exact (ih hcs).mono fun r' hr' htrue => List.forall_mem_cons.mpr ⟨hr rfl, hr' htrue⟩
    | false => exact nofun

/-- If a case is a supertype, the type is below that case. -/
theorem anySupertype_tells {s : Applied} (hs : s.Within z) {cs : List Applied}
    (hcs : ∀ c ∈ cs, c.Within z) :
    h.Tells z (anySupertype s cs) fun r =>
      r = true → ∃ c ∈ cs, h.Below z (.applied s) (.applied c) := by
  induction cs with
  | nil => exact nofun
  | cons c cs ih =>
    obtain ⟨hc, hcs⟩ := List.forall_mem_cons.mp hcs
    refine (subtype_tells (.applied hs) (.applied hc)).bind fun r hr => ?_
    cases r with
    | true => exact fun _ => ⟨c, List.mem_cons_self, hr rfl⟩
    | false =>
      refine (ih hcs).mono fun r' hr' htrue => ?_
      obtain ⟨c', hc', hbelow⟩ := hr' htrue
      exact ⟨c', List.mem_cons_of_mem c hc', hbelow⟩

/-- An applied type is below another type if it fits there, and only then. -/
theorem fits_of_below {c : Applied} {o : Ty} (hc : h.Below z (.applied c) o) :
    h.Fits (h.Below z) c o :=
  (below_iff.mp hc).2.2 c (List.mem_singleton_self c)

/-- An applied type that fits another one in sight is below it. -/
theorem below_of_fits {c : Applied} {o : Ty} (hc : c.Within z) (ho : o.Within z)
    (hfits : h.Fits (h.Below z) c o) : h.Below z (.applied c) o :=
  below_iff.mpr ⟨.applied hc, ho, List.forall_mem_singleton.mpr hfits⟩

/-- The rule of subtyping is sound. -/
theorem subtypeStep_tells (regular : h.Regular z) {s o : Ty} (hs : s.Within z) (ho : o.Within z) :
    h.Tells z (h.subtypeStep s o) fun r => r = true → h.Below z s o := by
  -- A union is a subtype if its cases are, whatever stands on the other side.
  have union : ∀ {cs e}, (Ty.union cs e).Within z → o.Within z →
      h.Tells z (allSubtypes o cs) fun r => r = true → h.Below z (.union cs e) o := by
    intro cs e hs ho
    refine (allSubtypes_tells ho hs.cases).mono fun r hr htrue => ?_
    exact below_iff.mpr ⟨hs, ho, fun c hc => fits_of_below (hr htrue c hc)⟩
  match s, o with
  | .unknown, _ => exact absurd (hs.lax_of_unknown rfl) regular.strict
  | .applied _, .unknown => exact absurd (ho.lax_of_unknown rfl) regular.strict
  | .union _ _, .unknown => exact absurd (ho.lax_of_unknown rfl) regular.strict
  | .union _ _, .applied _ => exact union hs ho
  | .union _ _, .union _ _ => exact union hs ho
  | .applied s, .union cs _ =>
    simp only [subtypeStep]
    split
    · next hbottom => exact fun _ => below_of_fits hs.of_applied ho (.inl hbottom)
    · refine (anySupertype_tells hs.of_applied ho.cases).mono fun r hr htrue => ?_
      obtain ⟨c, hc, hbelow⟩ := hr htrue
      refine below_of_fits hs.of_applied ho ((fits_of_below hbelow).of_subset ?_)
      exact List.forall_mem_singleton.mpr hc
  | .applied s, .applied o =>
    simp only [subtypeStep]
    split
    · next hbottom => exact fun _ => below_of_fits hs.of_applied ho (.inl hbottom)
    · -- The search finds an instantiation that is inherited, but for equivalent arguments.
      have hfound : h.Tells z (Algebra.search s o.decl []) fun r =>
          (∀ v, r = some v → v.decl = o.decl ∧ v.Within z) ∧
            ∀ v, r = some v → ∃ w, h.Inherits s w ∧ w.decl = o.decl ∧
              List.Forall₂ (h.Equivalent z) v.args w.args :=
        (Given.of_keeps regular.closed
          (Algebra.ask_keeps (q := .search s o.decl []) hs.of_applied)).and
          (ask_given (q := .search s o.decl []) hs.of_applied)
      refine hfound.bind fun found hfound => ?_
      cases found with
      | none => exact fun h => absurd h Bool.false_ne_true
      | some v =>
        obtain ⟨hvdecl, hv⟩ := hfound.1 v rfl
        obtain ⟨w, hw, hwdecl, hargs⟩ := hfound.2 v rfl
        refine (argumentsConform_tells regular.strict
          ⟨hvdecl ▸ length_variances regular hv, hv.args⟩
          ⟨length_variances regular ho.of_applied, ho.of_applied.args⟩).mono fun r hr htrue => ?_
        refine below_of_fits hs.of_applied ho (.inr ⟨o, List.mem_singleton_self o, w, hw, hwdecl, ?_⟩)
        -- From what is inherited to what is found, and from there to the supertype.
        have hwv := conform_of_equivalent regular (hw.within regular.closed hs.of_applied)
          (.flip (hargs.imp fun _ _ => Equivalent.symm))
        rw [hwdecl] at hwv
        exact conform_trans regular hwv (hr htrue)

/-- Substituting in types gives equivalent ones to those that are instantiated. -/
theorem substituteAll_tells {b : Bindings} (hb : b.isEmpty = false ∧ ∀ p ∈ b, p.2.Within z)
    {ts : List Ty} (hts : ∀ t ∈ ts, t.Within z) :
    h.Tells z (substituteAll b ts) fun r =>
      List.Forall₂ (h.Equivalent z) r (h.instantiateArgs b ts) := by
  induction ts with
  | nil => exact .nil
  | cons t ts ih =>
    obtain ⟨ht, hts⟩ := List.forall_mem_cons.mp hts
    refine (ask_given (q := .substitute b t) ⟨hb.1, hb.2, ht⟩).bind fun r hr => ?_
    exact (ih hts).bind fun rs hrs => .cons hr hrs

/-- Substituting in the arguments of a type instantiates them, but for equivalence. -/
theorem substituteArgs_tells {b : Bindings} (hb : b.isEmpty = false ∧ ∀ p ∈ b, p.2.Within z)
    {t : Applied} (ht : t.Within z) :
    h.Tells z (substituteArgs b t) fun r =>
      List.Forall₂ (h.Equivalent z) r.args (h.instantiateArgs b t.args) := by
  unfold substituteArgs
  split
  · next hempty =>
    have hnil : t.args = [] := by simpa [hb.1] using hempty
    rw [hnil]
    change List.Forall₂ _ t.args []
    rw [hnil]
    exact .nil
  · exact (substituteAll_tells hb ht.args).bind fun rs hrs => hrs

/-- Substituting in an applied type instantiates it, but for equivalence. -/
theorem substituteApplied_tells (regular : h.Regular z) {b : Bindings}
    (hb : b.isEmpty = false ∧ ∀ p ∈ b, p.2.Within z) {t : Applied} (ht : t.Within z) :
    h.Tells z (h.substituteApplied b t) fun r => h.Equivalent z r (h.instantiateApplied b t) := by
  have hinst := instantiateApplied_within regular.closed hb.2 t ht
  obtain ⟨d, args⟩ := t
  rw [instantiateApplied] at hinst ⊢
  unfold substituteApplied
  split
  · next hparam =>
    rw [if_pos hparam] at hinst
    exact .refl regular hinst
  · next hparam =>
    rw [if_neg hparam] at hinst
    refine ((Given.of_keeps regular.closed (Algebra.substituteArgs_keeps hb.2 ht)).and
      (substituteArgs_tells hb ht)).bind fun r hr => ?_
    obtain ⟨⟨hdecl, hwithin⟩, hargs⟩ := hr
    obtain ⟨_, args'⟩ := r
    obtain rfl : _ = d := hdecl
    exact equivalent_applied regular hwithin hinst.of_applied hargs

/-- Substituting in the cases of a union instantiates them, but for equivalence. -/
theorem substituteCases_tells (regular : h.Regular z) {b : Bindings}
    (hb : b.isEmpty = false ∧ ∀ p ∈ b, p.2.Within z) {cs : List Applied}
    (hcs : ∀ c ∈ cs, c.Within z) :
    h.Tells z (h.substituteCases b cs) fun r =>
      List.Forall₂ (h.Equivalent z) r (h.instantiateCases b cs) := by
  induction cs with
  | nil => exact .nil
  | cons c cs ih =>
    obtain ⟨hc, hcs⟩ := List.forall_mem_cons.mp hcs
    refine (substituteApplied_tells regular hb hc).bind fun t ht => ?_
    exact (ih hcs).bind fun ts hts => .cons ht hts

/-- A union of types is equivalent to the cases of equivalent types taken together. -/
theorem equivalent_joined (regular : h.Regular z) {ts us : List Ty}
    (hne : ts ≠ []) (hall : List.Forall₂ (h.Equivalent z) ts us) {r : Ty}
    (hr : h.Sound z (.unite ts) r) : h.Equivalent z r (h.joined us) := by
  have forth := exists_of_forall₂ hall
  have back := exists_of_forall₂ (List.Forall₂.flip (R := fun u t => h.Equivalent z t u) hall)
  have hus : us ≠ [] := by
    rintro rfl
    exact hne (List.forall₂_nil_right_iff.mp hall)
  -- Both are in sight, and each case of one is below some type on the side of the other.
  have hrWithin : r.Within z := by
    obtain ⟨t, ht⟩ := List.exists_mem_of_ne_nil ts hne
    exact (hr.1 t ht).within.2
  have hjoined : (h.joined us).Within z := by
    refine joined_within regular.closed (.inr hus) fun u hu => ?_
    obtain ⟨t, -, htu⟩ := back u hu
    exact htu.1.within.2
  constructor
  · refine below_iff.mpr ⟨hrWithin, hjoined, fun c hc => ?_⟩
    obtain ⟨t, ht, hct⟩ := hr.2 c hc
    obtain ⟨u, hu, htu⟩ := forth t ht
    refine ((below_iff.mp htu.1).2.2 c hct).of_cases regular fun c' hc' => ?_
    cases hbottom : h.isBottom c'.decl with
    | true => exact .inr rfl
    | false => exact .inl (mem_cases_joined hu hc' hbottom)
  · refine below_iff.mpr ⟨hjoined, hrWithin, fun c hc => ?_⟩
    obtain ⟨u, hu, hcu⟩ := of_mem_cases_joined hc
    obtain ⟨t, ht, htu⟩ := back u hu
    exact (below_iff.mp (htu.2.trans regular (hr.1 t ht))).2.2 c hcu

/-- The rule of substitution is sound. -/
theorem substituteStep_tells (regular : h.Regular z) {b : Bindings}
    (hb : b.isEmpty = false ∧ ∀ p ∈ b, p.2.Within z) {t : Ty} (ht : t.Within z) :
    h.Tells z (h.substituteStep b t) fun r => h.Equivalent z r (h.instantiate b t) := by
  unfold substituteStep
  rw [if_neg (by simp [hb.1])]
  cases ht with
  | unknown hlax => exact absurd hlax regular.strict
  | applied ha => exact substituteApplied_tells regular hb ha
  | @union cases _ hne _ hcases _ =>
    refine (substituteCases_tells regular hb hcases).bind fun ts hts => ?_
    -- A union has cases, so there is something to unite.
    have hts' : ts ≠ [] := by
      rintro rfl
      obtain ⟨c, cs, rfl⟩ := List.exists_cons_of_ne_nil (hne.resolve_left regular.strict)
      cases hts
    have hformed : ∀ t ∈ ts, t.Within z := by
      intro t ht
      obtain ⟨u, -, htu⟩ := exists_of_forall₂ hts t ht
      exact htu.1.within.1
    exact (ask_given (q := .unite ts) ⟨hts', hformed⟩).mono fun r hr =>
      equivalent_joined regular hts' hts hr

/-! ### Unions -/

/-- The type is the bottom type or below one of the cases. -/
def BelowSome (h : Hierarchy) (z : Horizon) (cases : List Applied) (t : Applied) : Prop :=
  h.isBottom t.decl = true ∨ ∃ c ∈ cases, h.Below z (.applied t) (.applied c)

/-- Cases that a new case covers are left out, and they are below it. -/
theorem notCoveredBy_tells {t : Applied} (ht : t.Within z) {cs : List Applied}
    (hcs : ∀ c ∈ cs, c.Within z) :
    h.Tells z (notCoveredBy t cs) fun kept => kept ⊆ cs ∧
      ∀ c ∈ cs, c ∈ kept ∨ h.Below z (.applied c) (.applied t) := by
  induction cs with
  | nil => exact ⟨List.Subset.refl _, List.forall_mem_nil _⟩
  | cons c cs ih =>
    obtain ⟨hc, hcs⟩ := List.forall_mem_cons.mp hcs
    refine (subtype_tells (.applied hc) (.applied ht)).bind fun covered hcovered =>
      (ih hcs).bind fun kept hkept => ?_
    cases covered with
    | true =>
      refine ⟨fun a ha => List.mem_cons_of_mem c (hkept.1 ha), ?_⟩
      exact List.forall_mem_cons.mpr ⟨.inr (hcovered rfl), hkept.2⟩
    | false =>
      refine ⟨List.cons_subset_cons c hkept.1, List.forall_mem_cons.mpr ⟨.inl List.mem_cons_self, ?_⟩⟩
      exact fun c' hc' => (hkept.2 c' hc').imp (List.mem_cons_of_mem c) id

/-- One more case covers itself and leaves covered what was. -/
theorem addCase_tells (regular : h.Regular z) {cases : List Applied}
    (hcases : ∀ c ∈ cases, c.Within z) {t : Applied} (ht : t.Within z) :
    h.Tells z (h.addCase cases t) fun r => (∀ c ∈ r, c ∈ cases ∨ c = t) ∧ h.BelowSome z r t ∧
      ∀ x, h.BelowSome z cases x → h.BelowSome z r x := by
  unfold addCase
  split
  · next hbottom => exact ⟨fun c hc => .inl hc, .inl hbottom, fun _ hx => hx⟩
  · refine (anySupertype_tells ht hcases).bind fun covered hcovered => ?_
    cases covered with
    | true => exact ⟨fun c hc => .inl hc, .inr (hcovered rfl), fun _ hx => hx⟩
    | false =>
      refine (notCoveredBy_tells ht hcases).bind fun kept hkept => ⟨fun c hc => ?_, ?_, fun x hx => ?_⟩
      · exact (List.mem_append.mp hc).imp (fun hc => hkept.1 hc) List.mem_singleton.mp
      · exact .inr ⟨t, by simp, .refl regular.strict regular.closed (.applied ht)⟩
      · refine hx.imp id ?_
        rintro ⟨c, hc, hxc⟩
        rcases hkept.2 c hc with hmem | hct
        · exact ⟨c, List.mem_append_left _ hmem, hxc⟩
        · exact ⟨t, by simp, hxc.trans regular hct⟩

/-- Adding cases leaves some case above each of the old and of the new ones. -/
theorem addCases_tells (regular : h.Regular z) {cases : List Applied}
    (hcases : ∀ c ∈ cases, c.Within z) {ts : List Applied} (hts : ∀ t ∈ ts, t.Within z) :
    h.Tells z (h.addCases cases ts) fun r => (∀ c ∈ r, c ∈ cases ∨ c ∈ ts) ∧
      (∀ t ∈ ts, h.BelowSome z r t) ∧ ∀ x, h.BelowSome z cases x → h.BelowSome z r x := by
  induction ts generalizing cases with
  | nil => exact ⟨fun c hc => .inl hc, List.forall_mem_nil _, fun _ hx => hx⟩
  | cons t ts ih =>
    obtain ⟨ht, hts⟩ := List.forall_mem_cons.mp hts
    refine (addCase_tells regular hcases ht).bind fun r ⟨hmem, hcovers, hkeeps⟩ => ?_
    have hr : ∀ c ∈ r, c.Within z := fun c hc => (hmem c hc).elim (hcases c) fun h => h ▸ ht
    refine (ih hr hts).mono fun r' ⟨hmem', hcovers', hkeeps'⟩ => ⟨fun c hc => ?_, ?_, fun x hx => ?_⟩
    · rcases hmem' c hc with hc | hc
      · refine (hmem c hc).imp id ?_
        rintro rfl
        exact List.mem_cons_self
      · exact .inr (List.mem_cons_of_mem t hc)
    · exact List.forall_mem_cons.mpr ⟨hkeeps' t hcovers, hcovers'⟩
    · exact hkeeps' x (hkeeps x hx)

/-- The rule of union is sound. -/
theorem uniteStep_tells (regular : h.Regular z) {ts : List Ty} (hne : ts ≠ [])
    (hts : ∀ t ∈ ts, t.Within z) : h.Tells z (h.uniteStep ts) (h.Sound z (.unite ts)) := by
  have hcases : ∀ c ∈ ts.flatMap Ty.cases, c.Within z := by
    intro c hmem
    obtain ⟨t, ht, hmem⟩ := List.mem_flatMap.mp hmem
    exact (hts t ht).cases c hmem
  -- Whatever type is made of the cases covers the types, and has no other cases.
  have sound : ∀ {r : Ty} {cases : List Applied}, r.Within z → (∀ c ∈ cases, c ∈ r.cases) →
      (∀ t ∈ ts.flatMap Ty.cases, h.BelowSome z cases t) →
      (∀ c ∈ r.cases, ∃ t ∈ ts, c ∈ t.cases) → h.Sound z (.unite ts) r := by
    intro r cases hr hsub hcovers hmem
    refine ⟨fun t ht => below_iff.mpr ⟨hts t ht, hr, fun c hc => ?_⟩, hmem⟩
    rcases hcovers c (List.mem_flatMap.mpr ⟨t, ht, hc⟩) with hbottom | ⟨c', hc', hbelow⟩
    · exact .inl hbottom
    · exact (fits_of_below hbelow).of_subset (List.forall_mem_singleton.mpr (hsub c' hc'))
  have hkeeps : h.Tells z (h.uniteStep ts) fun r => r.Within z :=
    Given.of_keeps regular.closed (uniteStep_keeps regular.closed (.inr hne) hts)
  suffices hsound : h.Tells z (h.uniteStep ts) fun r => r.Within z → h.Sound z (.unite ts) r from
    (hkeeps.and hsound).mono fun r hr => hr.2 hr.1
  refine (addCases_tells regular (List.forall_mem_nil _) hcases).bind fun cases hr => ?_
  obtain ⟨hmem, hcovers, -⟩ := hr
  replace hmem : ∀ c ∈ cases, ∃ t ∈ ts, c ∈ t.cases := fun c hc =>
    List.mem_flatMap.mp ((hmem c hc).resolve_left List.not_mem_nil)
  match cases, hmem, hcovers with
  | [], _, hcovers =>
    refine fun hr => sound hr (List.forall_mem_nil _) hcovers fun c hc => ?_
    cases hfind : ts.find? h.isBottomType with
    | none => simp [hfind, Ty.cases] at hc
    | some t =>
      rw [hfind] at hc
      exact ⟨t, List.mem_of_find?_eq_some hfind, hc⟩
  | [a], hmem, hcovers => exact fun hr => sound hr (fun _ hc => hc) hcovers hmem
  | a :: b :: rest, hmem, hcovers =>
    exact ⟨.intro, fun _ _ hr => sound hr (fun _ hc => hc) hcovers hmem⟩

/-! ### Supertypes -/

/-- A supertype for `d` is one that `t` inherits, up to equivalent arguments. -/
def InheritedAs (h : Hierarchy) (z : Horizon) (t : Applied) (d : DeclId) (r : Option Applied) :
    Prop :=
  ∀ v, r = some v →
    ∃ w, h.Inherits t w ∧ w.decl = d ∧ List.Forall₂ (h.Equivalent z) v.args w.args

/-- Where nothing has been found yet, nothing is to be shown. -/
theorem inheritedAs_none (t : Applied) (d : DeclId) : h.InheritedAs z t d none := by
  rintro _ ⟨⟩

/-- The better one of two inherited types is inherited. -/
theorem better_tells {t : Applied} {d : DeclId} {best found : Option Applied}
    (hbest : h.InheritedAs z t d best) (hfound : h.InheritedAs z t d found) :
    h.Tells z (better best found) (h.InheritedAs z t d) := by
  match best, found with
  | none, none => exact hbest
  | some _, none => exact hbest
  | none, some _ => exact hfound
  | some _, some _ =>
    refine ⟨.intro, fun covered _ => ?_⟩
    cases covered with
    | true => exact hfound
    | false => exact hbest

/-- A supertype `st` of the declaration of `t` is put in place up to equivalent arguments. -/
structure PutInPlace (h : Hierarchy) (z : Horizon) (t st r : Applied) : Prop where
  decl : r.decl = st.decl
  within : r.Within z
  args : List.Forall₂ (h.Equivalent z) (h.supertypeAt t st).args r.args

/-- A supertype with the arguments put in place is equivalent to the instantiated one. -/
theorem supertypeAt_tells (regular : h.Regular z) {t : Applied} (ht : t.Within z) {st : Applied}
    (hst : st ∈ h.supertypes t.decl) :
    h.Tells z (substituteArgs (h.bindings t) st) (h.PutInPlace z t st) := by
  have hwithin := regular.closed.supertypes _ ht.sees st hst
  -- Without bindings a supertype is taken as it is declared.
  cases hempty : (h.bindings t).isEmpty with
  | true =>
    have hargs : (h.supertypeAt t st).args = st.args := by
      rw [supertypeAt, hempty]
      rfl
    rw [substituteArgs, hempty, Bool.or_true, if_pos rfl]
    refine ⟨rfl, hwithin, ?_⟩
    rw [hargs]
    exact forall₂_equivalent_refl regular hwithin.args
  | false =>
    refine ((Given.of_keeps regular.closed
      (Algebra.substituteArgs_keeps (bindings_within ht) hwithin)).and
      (substituteArgs_tells ⟨hempty, bindings_within ht⟩ hwithin)).mono fun r hr => ?_
    refine ⟨hr.1.1, hr.1.2, ?_⟩
    have hargs : (h.supertypeAt t st).args = h.instantiateArgs (h.bindings t) st.args := by
      rw [supertypeAt, hempty]
      rfl
    rw [hargs]
    exact .flip (hr.2.imp fun _ _ => Equivalent.symm)

/-- What a supertype in place inherits, the type does. -/
theorem InheritedAs.up (regular : h.Regular z) {t st st' : Applied} (ht : t.Within z) (hst : st ∈ h.supertypes t.decl)
    (hst' : PutInPlace h z t st st') {d : DeclId} {found : Option Applied} (hfound : h.InheritedAs z st' d found) :
    h.InheritedAs z t d found := by
  intro v hv
  obtain ⟨w, hw, hwdecl, hvw⟩ := hfound v hv
  obtain ⟨w', hw', hwdecl', hww'⟩ := hw.of_equivalent regular
    (supertypeAt_within regular.closed ht (regular.closed.supertypes _ ht.sees st hst)) hst'.within
    ((supertypeAt_decl h t st).trans hst'.decl.symm) hst'.args
  refine ⟨w', .head ⟨st, hst, rfl⟩ hw', hwdecl'.trans hwdecl, ?_⟩
  exact forall₂_equivalent_trans regular hvw (.flip (hww'.imp fun _ _ => Equivalent.symm))

/-- Searching the supertypes of a type finds an inherited one. -/
theorem searchSupertypes_tells (regular : h.Regular z) {t : Applied} (ht : t.Within z) {d : DeclId}
    {path : List DeclId} {best : Option Applied} (hbest : h.InheritedAs z t d best)
    {sts : List Applied} (hsts : ∀ st ∈ sts, st ∈ h.supertypes t.decl) :
    h.Tells z (searchSupertypes t (h.bindings t) d path best sts) (h.InheritedAs z t d) := by
  induction sts generalizing best with
  | nil => exact hbest
  | cons st sts ih =>
    obtain ⟨hst, hsts⟩ := List.forall_mem_cons.mp hsts
    refine (supertypeAt_tells regular ht hst).bind fun st' hst' => ?_
    refine (ask_given (q := .search st' d (t.decl :: path)) hst'.within).bind fun found hfound => ?_
    exact (better_tells hbest (.up regular ht hst hst' hfound)).bind fun best' hbest' => ih hbest' hsts

/-- The rule of searching a supertype is sound. -/
theorem searchStep_tells (regular : h.Regular z) {t : Applied} (ht : t.Within z) (d : DeclId)
    (path : List DeclId) : h.Tells z (h.searchStep t d path) (h.InheritedAs z t d) := by
  unfold searchStep
  split
  · next hdecl =>
    rintro v ⟨rfl⟩
    exact ⟨t, .refl, hdecl, forall₂_equivalent_refl regular ht.args⟩
  · split
    · rintro v ⟨⟩
    · refine searchSupertypes_tells regular ht ?_ fun _ hst => hst
      rintro v ⟨⟩

/-- Answers are sound. -/
theorem answer_sound (regular : h.Regular z) {q : Query} (hq : Formed z q) {r : q.Answer}
    (hr : h.Answers q r) : h.Sound z q r := by
  obtain ⟨depth, hr⟩ := hr
  refine answer_of_given (fun q hq => ?_) hq hr
  cases q with
  | subtype s o => exact subtypeStep_tells regular hq.1 hq.2
  | search t d path => exact searchStep_tells regular hq d path
  | substitute b t => exact substituteStep_tells regular ⟨hq.1, hq.2.1⟩ hq.2.2
  | unite ts => exact uniteStep_tells regular hq.1 hq.2
  | common cases d => exact .trivial _
  | superclass cases t seen => exact .trivial _

/-! ## Completeness -/

/-- The arguments of `m` conform to those of all types for its declaration that `t` inherits. -/
def MostSpecific (h : Hierarchy) (z : Horizon) (t m : Applied) : Prop :=
  ∀ w, h.Inherits t w → w.decl = m.decl → Conform (h.Below z) (h.variances m.decl) m.args w.args

/-- A type may inherit several types for one declaration, but then one of them is most specific, and inherited on a
way on which no declaration comes up twice. -/
def PrincipalInstantiations (h : Hierarchy) (z : Horizon) : Prop :=
  ∀ t w, t.Within z → h.Inherits t w → ∃ m, h.InheritsOnce [] t m ∧ m.decl = w.decl ∧ h.MostSpecific z t m

/-- The most specific type is as specific as one that is found. -/
theorem MostSpecific.conform (regular : h.Regular z) {t m : Applied} (ht : t.Within z) (hm : h.MostSpecific z t m)
    {found : Option Applied} (hfound : h.InheritedAs z t m.decl found) {v : Applied} (hv : found = some v) :
    Conform (h.Below z) (h.variances m.decl) m.args v.args := by
  obtain ⟨w, hw, hwdecl, hargs⟩ := hfound v hv
  have hwv := conform_of_equivalent regular (hw.within regular.closed ht)
    (.flip (hargs.imp fun _ _ => Equivalent.symm))
  rw [hwdecl] at hwv
  exact conform_trans regular (hm w hw hwdecl) hwv

/-- A supertype is found whose arguments conform to those of `m`. -/
def Attains (h : Hierarchy) (z : Horizon) (m : Applied) (found : Option Applied) : Prop :=
  ∃ v, found = some v ∧ Conform (h.Below z) (h.variances m.decl) v.args m.args

/-- What an answer says about all types that are below others: a negative one that there is no way, and a supertype
that is found that no other one is more specific. -/
def Complete (h : Hierarchy) (z : Horizon) : (q : Query) → q.Answer → Prop
  | .subtype s o, r => r = false → ¬ h.Below z s o
  | .search t d path, r => (r = none → ¬ h.Leads path t.decl d) ∧
    ∀ m, h.InheritsOnce path t m → m.decl = d → h.MostSpecific z t m → h.Attains z m r
  | _, _ => True

/-- A computation comes to a result with the property if the answers to its questions are complete. -/
abbrev Settles (h : Hierarchy) (z : Horizon) {α : Type} (m : Algebra α) (P : α → Prop) : Prop :=
  h.Given z (h.Complete z) m P

/-- What sound answers tell, answers do. -/
theorem Given.of_tells (regular : h.Regular z) {K : (q : Query) → q.Answer → Prop} {α : Type} {m : Algebra α}
    {P : α → Prop} (hm : h.Tells z m P) : h.Given z K m P :=
  hm.of_right fun _ _ hr => ⟨hr.1, fun hq => answer_sound regular hq hr.1⟩

/-- If the subtype query says no, the one type is not below the other. -/
theorem subtype_settles {s o : Ty} (hs : s.Within z) (ho : o.Within z) :
    h.Settles z (Algebra.subtype s o) fun r => r = false → ¬ h.Below z s o :=
  ask_given (q := .subtype s o) ⟨hs, ho⟩

/-- If an argument does not conform, it does not vary as its parameter does. -/
theorem argumentConforms_settles (strict : ¬ z.lax) (v : Variance) {a b : Ty} (ha : a.Within z)
    (hb : b.Within z) :
    h.Settles z (argumentConforms v a b) fun r => r = false → ¬ Varies (h.Below z) v a b := by
  unfold argumentConforms
  rw [if_neg (by simp [isKnown_of_within strict ha, isKnown_of_within strict hb])]
  -- Variances decide on which of the two directions are asked for.
  cases v with
  | covariant =>
    refine (subtype_settles ha hb).mono fun r hr hfalse hvaries => ?_
    cases hvaries with
    | covariant hab => exact hr hfalse hab
  | contravariant =>
    refine (subtype_settles hb ha).mono fun r hr hfalse hvaries => ?_
    cases hvaries with
    | contravariant hba => exact hr hfalse hba
  | invariant =>
    refine (subtype_settles ha hb).bind fun r hr => ?_
    cases r with
    | true =>
      refine (subtype_settles hb ha).mono fun r' hr' hfalse hvaries => ?_
      cases hvaries with
      | invariant _ hba => exact hr' hfalse hba
    | false =>
      intro _ hvaries
      cases hvaries with
      | invariant hab _ => exact hr rfl hab

/-- If arguments do not conform, they do not vary as their parameters do. -/
theorem argumentsConform_settles (strict : ¬ z.lax) {vs : List Variance} {as bs : List Ty}
    (has : ∀ a ∈ as, a.Within z) (hbs : ∀ b ∈ bs, b.Within z) :
    h.Settles z (argumentsConform vs as bs) fun r => r = false → ¬ Conform (h.Below z) vs as bs := by
  fun_induction argumentsConform vs as bs with
  | case1 v vs a as b bs ih =>
    obtain ⟨ha, has⟩ := List.forall_mem_cons.mp has
    obtain ⟨hb, hbs⟩ := List.forall_mem_cons.mp hbs
    refine (argumentConforms_settles strict v ha hb).bind fun r hr => ?_
    cases r with
    | true =>
      refine (ih has hbs).mono fun r' hr' hfalse hconform => ?_
      cases hconform with
      | cons _ tail => exact hr' hfalse tail
    | false =>
      intro _ hconform
      cases hconform with
      | cons head _ => exact hr rfl head
  | case2 => exact fun h => absurd h.symm Bool.false_ne_true

/-- If not all cases are subtypes, some case is not below the type. -/
theorem allSubtypes_settles {o : Ty} (ho : o.Within z) {cs : List Applied}
    (hcs : ∀ c ∈ cs, c.Within z) :
    h.Settles z (allSubtypes o cs) fun r => r = false → ∃ c ∈ cs, ¬ h.Below z (.applied c) o := by
  induction cs with
  | nil => exact nofun
  | cons c cs ih =>
    obtain ⟨hc, hcs⟩ := List.forall_mem_cons.mp hcs
    refine (subtype_settles (.applied hc) ho).bind fun r hr => ?_
    cases r with
    | true =>
      refine (ih hcs).mono fun r' hr' hfalse => ?_
      obtain ⟨c', hc', hnot⟩ := hr' hfalse
      exact ⟨c', List.mem_cons_of_mem c hc', hnot⟩
    | false => exact fun _ => ⟨c, List.mem_cons_self, hr rfl⟩

/-- If no case is a supertype, the type is below none of them. -/
theorem anySupertype_settles {s : Applied} (hs : s.Within z) {cs : List Applied}
    (hcs : ∀ c ∈ cs, c.Within z) :
    h.Settles z (anySupertype s cs) fun r =>
      r = false → ∀ c ∈ cs, ¬ h.Below z (.applied s) (.applied c) := by
  induction cs with
  | nil => exact fun _ => List.forall_mem_nil _
  | cons c cs ih =>
    obtain ⟨hc, hcs⟩ := List.forall_mem_cons.mp hcs
    refine (subtype_settles (.applied hs) (.applied hc)).bind fun r hr => ?_
    cases r with
    | true => exact nofun
    | false => exact (ih hcs).mono fun r' hr' hfalse => List.forall_mem_cons.mpr ⟨hr rfl, hr' hfalse⟩

/-- If a type is a subtype of another one of its declaration, then their arguments conform. -/
theorem conform_of_answers (regular : h.Regular z) {s o : Applied} (hs : s.Within z)
    (ho : o.Within z) (hdecl : s.decl = o.decl) (hproper : h.isBottom s.decl = false)
    (hso : h.Answers (.subtype (.applied s) (.applied o)) true) :
    Conform (h.Below z) (h.variances o.decl) s.args o.args := by
  have hreaches := answers_iff_reaches.mp hso
  simp only [step, subtypeStep, hproper, Bool.false_eq_true, if_false] at hreaches
  obtain ⟨found, hfound, hargs⟩ := hreaches
  rw [← hdecl] at hfound
  obtain rfl := hfound.search_self
  obtain ⟨n, r, hrun, rfl⟩ := exists_run_of_reaches hargs
  refine (argumentsConform_tells regular.strict ⟨hdecl ▸ length_variances regular hs, hs.args⟩
    ⟨length_variances regular ho, ho.args⟩).of_run (fun q r _ hr => ?_) hrun rfl
  exact ⟨⟨n, hr⟩, fun hq => answer_sound regular hq ⟨n, hr⟩⟩

/-- The rule of subtyping is complete. -/
theorem subtypeStep_settles (regular : h.Regular z) (principal : h.PrincipalInstantiations z) {s o : Ty}
    (hs : s.Within z) (ho : o.Within z) :
    h.Settles z (h.subtypeStep s o) fun r => r = false → ¬ h.Below z s o := by
  have union : ∀ {cs e}, (Ty.union cs e).Within z → o.Within z →
      h.Settles z (allSubtypes o cs) fun r => r = false → ¬ h.Below z (.union cs e) o := by
    intro cs e hs ho
    refine (allSubtypes_settles ho hs.cases).mono fun r hr hfalse hbelow => ?_
    obtain ⟨c, hc, hnot⟩ := hr hfalse
    exact hnot (below_of_fits (hs.cases c hc) ho ((below_iff.mp hbelow).2.2 c hc))
  match s, o with
  | .unknown, _ => exact absurd (hs.lax_of_unknown rfl) regular.strict
  | .applied _, .unknown => exact absurd (ho.lax_of_unknown rfl) regular.strict
  | .union _ _, .unknown => exact absurd (ho.lax_of_unknown rfl) regular.strict
  | .union _ _, .applied _ => exact union hs ho
  | .union _ _, .union _ _ => exact union hs ho
  | .applied s, .union cs _ =>
    simp only [subtypeStep]
    split
    · exact fun h => absurd h.symm Bool.false_ne_true
    · next hproper =>
      refine (anySupertype_settles hs.of_applied ho.cases).mono fun r hr hfalse hbelow => ?_
      obtain ⟨c, hc, rest⟩ := (fits_of_below hbelow).resolve_left hproper
      exact hr hfalse c hc (below_of_fits hs.of_applied (.applied (ho.cases c hc))
        (.inr ⟨c, List.mem_singleton_self c, rest⟩))
  | .applied s, .applied o =>
    simp only [subtypeStep]
    split
    · exact fun h => absurd h.symm Bool.false_ne_true
    · next hproper =>
      refine ⟨.intro, fun found hfound => ?_⟩
      cases found with
      | none =>
        intro _ hbelow
        obtain ⟨c, hc, v, hv, hdecl, -⟩ := (fits_of_below hbelow).resolve_left hproper
        obtain rfl : c = o := List.mem_singleton.mp hc
        exact (hfound.2 hs.of_applied).1 rfl (hdecl ▸ hv.leads)
      | some sup =>
        obtain ⟨depth, hdepth⟩ := hfound.1
        obtain ⟨hsupDecl, hsup⟩ := answer_within regular.closed (q := .search s o.decl [])
          hs.of_applied hdepth sup rfl
        refine (argumentsConform_settles regular.strict hsup.args ho.of_applied.args).mono
          fun r hr hfalse hbelow => hr hfalse ?_
        obtain ⟨c, hc, v, hv, hdecl, hargs⟩ := (fits_of_below hbelow).resolve_left hproper
        obtain rfl : c = o := List.mem_singleton.mp hc
        -- What is found is as specific as the most specific one that is inherited, and so as `v`.
        obtain ⟨m, hm, hmdecl, hspecific⟩ := principal s v hs.of_applied hv
        obtain ⟨_, ⟨rfl⟩, hsupm⟩ := (hfound.2 hs.of_applied).2 m hm (hmdecl.trans hdecl) hspecific
        have hmv := hspecific v hv hmdecl.symm
        rw [hmdecl, hdecl] at hsupm hmv
        exact conform_trans regular (conform_trans regular hsupm hmv) hargs

/-- Looking at one more type keeps what has been found, or takes it if it is more specific. -/
theorem better_settles (regular : h.Regular z) {d : DeclId} {best found : Option Applied} (hbest : Found z d best)
    (hfound : Found z d found) (hproper : ∀ v, found = some v → h.isBottom d = false) :
    h.Settles z (better best found) fun r => (r = none → best = none ∧ found = none) ∧
      ∀ m : Applied, m.decl = d → (h.Attains z m best ∨ h.Attains z m found ∧ ∀ b, best = some b →
        Conform (h.Below z) (h.variances d) m.args b.args) → h.Attains z m r := by
  match best, found with
  | none, none =>
    refine ⟨fun _ => ⟨rfl, rfl⟩, ?_⟩
    rintro m - (⟨_, ⟨⟩, -⟩ | ⟨⟨_, ⟨⟩, -⟩, -⟩)
  | some b, none =>
    refine ⟨nofun, ?_⟩
    rintro m - (hattains | ⟨⟨_, ⟨⟩, -⟩, -⟩)
    exact hattains
  | none, some f =>
    refine ⟨nofun, ?_⟩
    rintro m - (⟨_, ⟨⟩, -⟩ | ⟨hattains, -⟩)
    exact hattains
  -- Only where there are two to choose from is anything asked: whether the old one covers the new one.
  | some b, some f =>
    obtain ⟨hbdecl, hb⟩ := hbest b rfl
    obtain ⟨hfdecl, hf⟩ := hfound f rfl
    refine ⟨.intro, fun covered hcovered => ?_⟩
    cases covered with
    | true =>
      refine ⟨nofun, fun m hm hattains => hattains.elim ?_ And.left⟩
      rintro ⟨_, ⟨rfl⟩, hbm⟩
      -- The new one is taken, which is below the old one, and so below all that this one attains.
      have hfb := conform_of_answers regular hf hb (hfdecl.trans hbdecl.symm) (hfdecl ▸ hproper f rfl) hcovered.1
      rw [hbdecl] at hfb
      rw [hm] at hbm
      exact ⟨f, rfl, hm ▸ conform_trans regular hfb hbm⟩
    | false =>
      refine ⟨nofun, fun m hm hattains => hattains.elim id ?_⟩
      rintro ⟨⟨_, ⟨rfl⟩, hfm⟩, hmb⟩
      rw [hm] at hfm
      -- Were the new one below the other, it would be below the old one too, against the answer.
      refine absurd (below_of_fits hf (.applied hb) (.inr ?_)) (hcovered.2 ⟨.applied hf, .applied hb⟩ rfl)
      exact ⟨b, List.mem_singleton_self b, f, .refl, hfdecl.trans hbdecl.symm,
        hbdecl ▸ conform_trans regular hfm (hmb b rfl)⟩

/-- What is found when a supertype is searched for what it inherits. -/
structure FoundAbove (h : Hierarchy) (z : Horizon) (t st : Applied) (d : DeclId) (path : List DeclId)
    (found : Option Applied) : Prop where
  kept : Found z d found
  inherited : h.InheritedAs z t d found
  exhaustive : found = none → ¬ h.Leads (t.decl :: path) st.decl d
  attains : ∀ m : Applied, m.decl = d → h.MostSpecific z t m →
    h.InheritsOnce (t.decl :: path) (h.supertypeAt t st) m → h.Attains z m found

/-- Searching a supertype finds all that is inherited through it. -/
theorem search_settles (regular : h.Regular z) {t st st' : Applied} (ht : t.Within z) (hst : st ∈ h.supertypes t.decl)
    (hst' : h.PutInPlace z t st st') {d : DeclId} {path : List DeclId} :
    h.Settles z (Algebra.search st' d (t.decl :: path)) (h.FoundAbove z t st d path) := by
  have hup := supertypeAt_within regular.closed ht (regular.closed.supertypes _ ht.sees st hst)
  have hdecl := (supertypeAt_decl h t st).trans hst'.decl.symm
  refine ⟨.intro, fun found ⟨⟨depth, hr⟩, hcomplete⟩ => ?_⟩
  obtain ⟨hexhaustive, hattains⟩ := hcomplete hst'.within
  refine ⟨answer_within regular.closed (q := .search st' d (t.decl :: path)) hst'.within hr, .up regular ht hst hst'
    (answer_sound regular (q := .search st' d (t.decl :: path)) hst'.within ⟨depth, hr⟩),
    hst'.decl ▸ hexhaustive, fun m hm hspecific hway => ?_⟩
  -- The type in place inherits `m` up to equivalent arguments, which are most specific there.
  obtain ⟨m', hway', hmdecl, hargs⟩ := hway.of_equivalent regular hst'.within hup hdecl.symm
    (.flip (hst'.args.imp fun _ _ => Equivalent.symm))
  have hm' := hway'.inherits.within regular.closed hst'.within
  have hm'm := conform_of_equivalent regular hm' hargs
  have hspecific' : h.MostSpecific z st' m' := by
    intro w' hw' hwdecl'
    obtain ⟨w, hw, hwdecl, hww'⟩ := hw'.of_equivalent regular hup hst'.within hdecl hst'.args
    have hmw := hspecific w (.head ⟨st, hst, rfl⟩ hw) (hwdecl.trans (hwdecl'.trans hmdecl))
    have hconform := conform_of_equivalent regular (hw.within regular.closed hup) hww'
    rw [hwdecl, hwdecl'] at hconform
    exact conform_trans regular (conform_trans regular hm'm (hmdecl ▸ hmw)) hconform
  obtain ⟨v, hv, hvm'⟩ := hattains m' hway' (hmdecl.trans hm) hspecific'
  exact ⟨v, hv, hmdecl ▸ conform_trans regular hvm' hm'm⟩

/-- Searching the supertypes one after the other finds the most specific one among what has been found and what the
supertypes inherit. -/
theorem searchSupertypes_settles (regular : h.Regular z) {t : Applied} (ht : t.Within z)
    {d : DeclId} (hne : t.decl ≠ d) (path : List DeclId) {best : Option Applied} (hbest : h.InheritedAs z t d best)
    (hkept : Found z d best) {sts : List Applied} (hsts : ∀ st ∈ sts, st ∈ h.supertypes t.decl) :
    h.Settles z (searchSupertypes t (h.bindings t) d path best sts) fun r =>
      (r = none → best = none ∧ ∀ st ∈ sts, ¬ h.Leads (t.decl :: path) st.decl d) ∧
        ∀ m : Applied, m.decl = d → h.MostSpecific z t m → (h.Attains z m best ∨
          ∃ st ∈ sts, h.InheritsOnce (t.decl :: path) (h.supertypeAt t st) m) → h.Attains z m r := by
  induction sts generalizing best with
  | nil =>
    refine ⟨fun hnone => ⟨hnone, List.forall_mem_nil _⟩, ?_⟩
    rintro m - - (hattains | ⟨_, hmem, -⟩)
    · exact hattains
    · cases hmem
  | cons st sts ih =>
    obtain ⟨hst, hsts⟩ := List.forall_mem_cons.mp hsts
    have hup := supertypeAt_within regular.closed ht (regular.closed.supertypes _ ht.sees st hst)
    refine (Given.of_tells regular (supertypeAt_tells regular ht hst)).bind fun st' hst' => ?_
    refine (search_settles regular ht hst hst').bind fun found hfound => ?_
    -- What is found stands above a proper supertype, and no such supertype is the bottom.
    have hproper : ∀ v, found = some v → h.isBottom d = false := by
      intro v hv
      obtain ⟨w, hw, rfl, -⟩ := hfound.inherited v hv
      exact hw.proper_of_ne regular.proper hne
    have hbetter := (better_settles regular hkept hfound.kept hproper).and <|
      (Given.of_tells regular (better_tells hbest hfound.inherited)).and <|
        Given.of_keeps regular.closed (better_keeps hkept hfound.kept)
    refine hbetter.bind fun best' ⟨⟨hnone, hattains⟩, hbest', hkept'⟩ => ?_
    refine (ih hbest' hkept' hsts).mono fun r ⟨hrnone, hrattains⟩ => ⟨fun hr => ?_, ?_⟩
    · obtain ⟨hnone', hrest⟩ := hrnone hr
      exact ⟨(hnone hnone').1, List.forall_mem_cons.mpr ⟨hfound.exhaustive (hnone hnone').2, hrest⟩⟩
    · -- The most specific one is attained already, or it is inherited through this supertype or a later one.
      rintro m rfl hspecific (hm | ⟨st'', hmem, hway⟩)
      · exact hrattains m rfl hspecific (.inl (hattains m rfl (.inl hm)))
      · rcases List.mem_cons.mp hmem with rfl | hmem
        · refine hrattains m rfl hspecific (.inl (hattains m rfl (.inr ⟨?_, fun b hb => ?_⟩)))
          · exact hfound.attains m rfl hspecific hway
          · exact hspecific.conform regular ht hbest hb
        · exact hrattains m rfl hspecific (.inr ⟨st'', hmem, hway⟩)

/-- The rule of searching a supertype finds the most specific one, and one at all if the declaration leads there. -/
theorem searchStep_settles (regular : h.Regular z) {t : Applied} (ht : t.Within z) (d : DeclId)
    (path : List DeclId) : h.Settles z (h.searchStep t d path) (h.Complete z (.search t d path)) := by
  unfold searchStep
  split
  · -- A type of the declaration is found at once, and it is the only one on a way that ends there.
    next hdecl =>
    refine ⟨fun hfound => absurd hfound (Option.some_ne_none t), fun m hway hm _ => ⟨t, rfl, ?_⟩⟩
    obtain rfl := hway.eq_of_decl (hm.trans hdecl.symm)
    exact conform_of_equivalent regular ht (forall₂_equivalent_refl regular ht.args)
  · next hne =>
    split
    · next hpath =>
      -- A way that avoids the path cannot begin on it.
      have hmem := List.contains_iff_mem.mp hpath
      exact ⟨fun _ hway => (leads_avoiding hway hne).1 hmem, fun m hway _ _ => absurd hmem hway.new.1⟩
    · have hsearch := searchSupertypes_settles regular ht hne path (inheritedAs_none t d) (found_none d)
        fun _ hst => hst
      refine hsearch.mono fun r hfound => ⟨fun hr hway => ?_, fun m hway hm hspecific => ?_⟩
      · obtain ⟨-, st, hst, hway⟩ := leads_avoiding hway hne
        exact (hfound.1 hr).2 st hst hway
      · refine hfound.2 m hm hspecific (.inr ?_)
        cases hway with
        | here => exact absurd hm hne
        | up _ hst hway => exact ⟨_, hst, hway⟩

/-- If among the types that are inherited for a declaration there is a most specific one, then answers are complete. -/
theorem answer_complete (regular : h.Regular z) (principal : h.PrincipalInstantiations z) {q : Query}
    (hq : Formed z q) {r : q.Answer} (hr : h.Answers q r) : h.Complete z q r := by
  obtain ⟨depth, hr⟩ := hr
  refine answer_of_given (fun q hq => ?_) hq hr
  cases q with
  | subtype s o => exact subtypeStep_settles regular principal hq.1 hq.2
  | search t d path => exact searchStep_settles regular hq d path
  | substitute b t => exact .trivial _
  | unite ts => exact .trivial _
  | common cases d => exact .trivial _
  | superclass cases t seen => exact .trivial _

/-- Subtyping is transitive where nothing extends the bottom type, type parameters are used according to
their variance, and one of the types that are inherited for a declaration is most specific. -/
theorem subtype_trans (regular : h.Regular z) (principal : h.PrincipalInstantiations z) {a b c : Ty}
    (ha : a.Within z) (hb : b.Within z) (hc : c.Within z) (hab : h.Answers (.subtype a b) true)
    (hbc : h.Answers (.subtype b c) true) {r : Bool} (hac : h.Answers (.subtype a c) r) :
    r = true := by
  have hab := answer_sound regular (q := .subtype a b) ⟨ha, hb⟩ hab rfl
  have hbc := answer_sound regular (q := .subtype b c) ⟨hb, hc⟩ hbc rfl
  by_contra hfalse
  exact answer_complete regular principal (q := .subtype a c) ⟨ha, hc⟩ hac
    (Bool.not_eq_true _ |>.mp hfalse) (hab.trans regular hbc)

end Hierarchy

namespace Graph

/-- `interface A {}`, `interface B satisfies A {}`, `interface Source<out T> {}`,
`interface Stream<out U> satisfies Source<U> {}` and `interface Relay satisfies Source<A>, Stream<B> {}`. -/
def streams : Graph :=
  let declaration (name : String) (shape : Shape) : Declaration :=
    { name, scope := [], unit := none, node := none, shared := false, shape }
  { decls := #[
      declaration "A" (.ofInterface {}),
      declaration "B" (.ofInterface { satisfied := [⟨⟨0⟩, []⟩] }),
      declaration "Source" (.ofInterface { params := [⟨3⟩] }),
      declaration "T" (.typeParameter .covariant {}),
      declaration "Stream" (.ofInterface
        { params := [⟨5⟩], satisfied := [⟨⟨2⟩, [.applied ⟨⟨5⟩, []⟩]⟩] }),
      declaration "U" (.typeParameter .covariant {}),
      declaration "Relay" (.ofInterface
        { satisfied := [⟨⟨2⟩, [.applied ⟨⟨0⟩, []⟩]⟩, ⟨⟨4⟩, [.applied ⟨⟨1⟩, []⟩]⟩] })] }

/-- All declarations of the streams are in sight, and nothing is unknown. -/
def streamsHorizon : Horizon where
  lax := False
  sees d := d.index < 7
  arity d := (streams.hierarchy.params d).length
  isBottom := streams.hierarchy.isBottom

theorem streams_supertypes {d : DeclId} {st : Applied} (hst : st ∈ streams.hierarchy.supertypes d) :
    (d = ⟨1⟩ ∧ st = ⟨⟨0⟩, []⟩) ∨ (d = ⟨4⟩ ∧ st = ⟨⟨2⟩, [.applied ⟨⟨5⟩, []⟩]⟩) ∨
      (d = ⟨6⟩ ∧ st = ⟨⟨2⟩, [.applied ⟨⟨0⟩, []⟩]⟩) ∨ (d = ⟨6⟩ ∧ st = ⟨⟨4⟩, [.applied ⟨⟨1⟩, []⟩]⟩) := by
  match d with
  | ⟨0⟩ => cases hst
  | ⟨1⟩ => exact .inl ⟨rfl, List.mem_singleton.mp hst⟩
  | ⟨2⟩ => cases hst
  | ⟨3⟩ => cases hst
  | ⟨4⟩ => exact .inr (.inl ⟨rfl, List.mem_singleton.mp hst⟩)
  | ⟨5⟩ => cases hst
  | ⟨6⟩ => exact .inr (.inr ((List.mem_pair.mp hst).imp (.intro rfl) (.intro rfl)))
  | ⟨n + 7⟩ => cases hst

theorem streams_params {d p : DeclId} (hp : p ∈ streams.hierarchy.params d) :
    (d = ⟨2⟩ ∧ p = ⟨3⟩) ∨ (d = ⟨4⟩ ∧ p = ⟨5⟩) := by
  match d with
  | ⟨0⟩ => cases hp
  | ⟨1⟩ => cases hp
  | ⟨2⟩ => exact .inl ⟨rfl, List.mem_singleton.mp hp⟩
  | ⟨3⟩ => cases hp
  | ⟨4⟩ => exact .inr ⟨rfl, List.mem_singleton.mp hp⟩
  | ⟨5⟩ => cases hp
  | ⟨6⟩ => cases hp
  | ⟨n + 7⟩ => cases hp

/-- A declaration without parameters, as a type. -/
theorem streams_plain {i : Nat} (hi : i < 7) (hplain : streams.hierarchy.params ⟨i⟩ = []) :
    (Applied.mk ⟨i⟩ []).Within streamsHorizon :=
  .mk hi (congrArg List.length hplain.symm) (List.forall_mem_nil _)

/-- A declaration with one parameter, as a type. -/
theorem streams_one {i : Nat} {t : Ty} (hi : i < 7) (hone : (streams.hierarchy.params ⟨i⟩).length = 1)
    (ht : t.Within streamsHorizon) : (Applied.mk ⟨i⟩ [t]).Within streamsHorizon :=
  .mk hi hone.symm (List.forall_mem_singleton.mpr ht)

theorem streams_a : (Ty.applied ⟨⟨0⟩, []⟩).Within streamsHorizon :=
  .applied (streams_plain (by decide) rfl)

theorem streams_b : (Ty.applied ⟨⟨1⟩, []⟩).Within streamsHorizon :=
  .applied (streams_plain (by decide) rfl)

theorem streams_regular : streams.hierarchy.Regular streamsHorizon where
  strict := id
  closed :=
    { supertypes := by
        intro d _ st hst
        obtain ⟨-, rfl⟩ | ⟨-, rfl⟩ | ⟨-, rfl⟩ | ⟨-, rfl⟩ := streams_supertypes hst
        · exact streams_plain (by decide) rfl
        · exact streams_one (by decide) rfl (.applied (streams_plain (by decide) rfl))
        · exact streams_one (by decide) rfl streams_a
        · exact streams_one (by decide) rfl streams_b
      params := by
        intro d _ p hp
        obtain ⟨-, rfl⟩ | ⟨-, rfl⟩ := streams_params hp
        · exact streams_plain (by decide) rfl
        · exact streams_plain (by decide) rfl
      arity := fun _ => rfl
      isBottom := fun _ => rfl }
  -- No declared supertype is the bottom, and each uses its parameters as their variances allow.
  proper := by
    intro d st hst
    obtain ⟨-, rfl⟩ | ⟨-, rfl⟩ | ⟨-, rfl⟩ | ⟨-, rfl⟩ := streams_supertypes hst <;> rfl
  respects := by
    intro d st hst
    obtain ⟨rfl, rfl⟩ | ⟨rfl, rfl⟩ | ⟨rfl, rfl⟩ | ⟨rfl, rfl⟩ := streams_supertypes hst
    · trivial
    · exact ⟨fun _ => .inr rfl, trivial⟩
    · exact ⟨trivial, trivial⟩
    · exact ⟨trivial, trivial⟩

theorem streams_flat : streams.hierarchy.FlatSupertypes := by
  intro d st hst a ha
  obtain ⟨-, rfl⟩ | ⟨-, rfl⟩ | ⟨-, rfl⟩ | ⟨-, rfl⟩ := streams_supertypes hst
  · cases ha
  · exact ⟨⟨5⟩, List.mem_singleton.mp ha, rfl⟩
  · exact ⟨⟨0⟩, List.mem_singleton.mp ha, rfl⟩
  · exact ⟨⟨1⟩, List.mem_singleton.mp ha, rfl⟩

/-- A `Stream<a>` satisfies `Source<a>`. -/
theorem streams_source {a : Ty} (ht : (Applied.mk ⟨4⟩ [a]).Within streamsHorizon) :
    streams.hierarchy.supertypeAt ⟨⟨4⟩, [a]⟩ ⟨⟨2⟩, [.applied ⟨⟨5⟩, []⟩]⟩ = ⟨⟨2⟩, [a]⟩ := by
  cases ht.args a (List.mem_singleton_self a) with
  | unknown hlax => exact hlax.elim
  | applied _ => rfl
  | union _ _ _ _ => rfl

/-- The types that a type extends or satisfies. -/
theorem streams_declares {t w : Applied} (ht : t.Within streamsHorizon) (hw : streams.hierarchy.Declares t w) :
    (t = ⟨⟨1⟩, []⟩ ∧ w = ⟨⟨0⟩, []⟩) ∨ (∃ a, t = ⟨⟨4⟩, [a]⟩ ∧ w = ⟨⟨2⟩, [a]⟩) ∨
      (t = ⟨⟨6⟩, []⟩ ∧ (w = ⟨⟨2⟩, [.applied ⟨⟨0⟩, []⟩]⟩ ∨ w = ⟨⟨4⟩, [.applied ⟨⟨1⟩, []⟩]⟩)) := by
  obtain ⟨st, hst, rfl⟩ := hw
  obtain ⟨decl, args⟩ := t
  obtain ⟨rfl, rfl⟩ | ⟨rfl, rfl⟩ | ⟨rfl, rfl⟩ | ⟨rfl, rfl⟩ := streams_supertypes hst
  · obtain rfl := List.length_eq_zero_iff.mp ht.arity
    exact .inl ⟨rfl, rfl⟩
  · obtain ⟨a, rfl⟩ := List.length_eq_one_iff.mp ht.arity
    exact .inr (.inl ⟨a, rfl, streams_source ht⟩)
  · obtain rfl := List.length_eq_zero_iff.mp ht.arity
    exact .inr (.inr ⟨rfl, .inl rfl⟩)
  · obtain rfl := List.length_eq_zero_iff.mp ht.arity
    exact .inr (.inr ⟨rfl, .inr rfl⟩)

/-- What a relay inherits, in the order in which it is found. -/
def relayed : List Applied :=
  [⟨⟨2⟩, [.applied ⟨⟨0⟩, []⟩]⟩, ⟨⟨4⟩, [.applied ⟨⟨1⟩, []⟩]⟩, ⟨⟨2⟩, [.applied ⟨⟨1⟩, []⟩]⟩]

/-- What a stream type inherits beside itself. -/
inductive StreamsInherit : Applied → Applied → Prop
  | plain : StreamsInherit ⟨⟨1⟩, []⟩ ⟨⟨0⟩, []⟩
  | stream (a : Ty) : StreamsInherit ⟨⟨4⟩, [a]⟩ ⟨⟨2⟩, [a]⟩
  | relay {w : Applied} (hw : w ∈ relayed) : StreamsInherit ⟨⟨6⟩, []⟩ w

theorem streams_inherits {t w : Applied} (ht : t.Within streamsHorizon) (hw : streams.hierarchy.Inherits t w) :
    w = t ∨ StreamsInherit t w := by
  induction hw with
  | refl => exact .inl rfl
  | tail hv hstep ih =>
    -- One step up leads to one of the declared supertypes, and nothing is above a `Source` or an `A`.
    have hdeclares := streams_declares (Hierarchy.Inherits.within streams_regular.closed ht hv) hstep
    rcases ih with rfl | hv
    · obtain ⟨rfl, rfl⟩ | ⟨a, rfl, rfl⟩ | ⟨rfl, rfl | rfl⟩ := hdeclares
      · exact .inr .plain
      · exact .inr (.stream a)
      · exact .inr (.relay (by simp [relayed]))
      · exact .inr (.relay (by simp [relayed]))
    · cases hv with
      | plain => simp at hdeclares
      | stream a => simp at hdeclares
      | relay hw =>
        rcases hdeclares with ⟨rfl, rfl⟩ | ⟨a, rfl, rfl⟩ | ⟨rfl, -⟩
        · simp [relayed] at hw
        · obtain rfl : a = .applied ⟨⟨1⟩, []⟩ := by simpa [relayed] using hw
          exact .inr (.relay (by simp [relayed]))
        · simp [relayed] at hw

/-- What is inherited as the only type for its declaration is most specific. -/
theorem streams_specific {t m : Applied} (ht : t.Within streamsHorizon) (hm : streams.hierarchy.Inherits t m)
    (honly : ∀ w, streams.hierarchy.Inherits t w → w.decl = m.decl → w = m) :
    streams.hierarchy.MostSpecific streamsHorizon t m := by
  intro w hw hdecl
  have hwithin := hm.within streams_regular.closed ht
  rw [honly w hw hdecl]
  exact Hierarchy.conform_of_equivalent streams_regular hwithin
    (Hierarchy.forall₂_equivalent_refl streams_regular hwithin.args)

theorem StreamsInherit.decl_ne {t w : Applied} (hw : StreamsInherit t w) : w.decl ≠ t.decl := by
  cases hw with
  | plain => decide
  | stream a => exact nofun
  | relay hw =>
    revert w
    decide +kernel

/-- A relay inherits two sources, of which the second one is most specific. -/
theorem streams_specific_relay :
    streams.hierarchy.MostSpecific streamsHorizon ⟨⟨6⟩, []⟩ ⟨⟨2⟩, [.applied ⟨⟨1⟩, []⟩]⟩ := by
  intro w hw hdecl
  have hba : streams.hierarchy.Below streamsHorizon (.applied ⟨⟨1⟩, []⟩) (.applied ⟨⟨0⟩, []⟩) := by
    refine Hierarchy.below_of_fits streams_b.of_applied streams_a (.inr ⟨⟨⟨0⟩, []⟩, List.mem_singleton_self _, ?_⟩)
    exact ⟨⟨⟨0⟩, []⟩, .single ⟨⟨⟨0⟩, []⟩, List.mem_singleton_self _, rfl⟩, rfl, .nil⟩
  have hbb := Hierarchy.Below.refl streams_regular.strict streams_regular.closed streams_b
  rcases streams_inherits (streams_plain (by decide) rfl) hw with rfl | hinherit
  · cases hdecl
  · cases hinherit with
    | relay hw =>
      obtain rfl | rfl | rfl : w = _ ∨ w = _ ∨ w = _ := by simpa [relayed] using hw
      · exact .cons (.covariant hba) .nil
      · cases hdecl
      · exact .cons (.covariant hbb) .nil

theorem streams_principal : streams.hierarchy.PrincipalInstantiations streamsHorizon := by
  intro t w ht hw
  -- Where a type inherits only one for a declaration, that is the most specific one.
  have only : ∀ {t m : Applied}, t.Within streamsHorizon → streams.hierarchy.InheritsOnce [] t m →
      (∀ w, w.decl = m.decl → (w = t ∨ StreamsInherit t w) → w = m) →
      ∃ m', streams.hierarchy.InheritsOnce [] t m' ∧ m'.decl = m.decl ∧
        streams.hierarchy.MostSpecific streamsHorizon t m' := fun ht hm honly =>
    ⟨_, hm, rfl, streams_specific ht hm.inherits fun w hw hdecl => honly w hdecl (streams_inherits ht hw)⟩
  have relay : streams.hierarchy.InheritsOnce [⟨6⟩] ⟨⟨4⟩, [.applied ⟨⟨1⟩, []⟩]⟩ ⟨⟨2⟩, [.applied ⟨⟨1⟩, []⟩]⟩ :=
    .up (by decide) (List.mem_singleton_self _) (.here (by decide))
  rcases streams_inherits ht hw with rfl | hinherit
  · exact only ht (.here List.not_mem_nil) fun w' hdecl hw' => hw'.resolve_right fun h => h.decl_ne hdecl
  · cases hinherit with
    | plain =>
      refine only ht (.up List.not_mem_nil (List.mem_singleton_self _) (.here (by decide))) ?_
      rintro w hdecl (rfl | hw)
      · cases hdecl
      · cases hw
        rfl
    | stream a =>
      have source : streams.hierarchy.InheritsOnce [⟨4⟩]
          (streams.hierarchy.supertypeAt ⟨⟨4⟩, [a]⟩ ⟨⟨2⟩, [.applied ⟨⟨5⟩, []⟩]⟩) ⟨⟨2⟩, [a]⟩ := by
        rw [streams_source ht]
        exact .here (by simp)
      refine only ht (.up List.not_mem_nil (List.mem_singleton_self _) source) ?_
      rintro w hdecl (rfl | hw)
      · cases hdecl
      · cases hw
        rfl
    | relay hw =>
      obtain rfl | rfl | rfl : w = _ ∨ w = _ ∨ w = _ := by simpa [relayed] using hw
      · exact ⟨_, .up List.not_mem_nil (List.mem_pair.mpr (.inr rfl)) relay, rfl, streams_specific_relay⟩
      · refine only ht (.up List.not_mem_nil (List.mem_pair.mpr (.inr rfl)) (.here (by decide))) ?_
        rintro w hdecl (rfl | hw)
        · cases hdecl
        · cases hw with
          | relay hw =>
            obtain rfl | rfl | rfl : w = _ ∨ w = _ ∨ w = _ := by simpa [relayed] using hw
            · cases hdecl
            · rfl
            · cases hdecl
      · exact ⟨_, .up List.not_mem_nil (List.mem_pair.mpr (.inr rfl)) relay, rfl, streams_specific_relay⟩

/-- A `Relay` is a `Stream<B>` and that is a `Source<B>`, though the first `Source` that a `Relay` satisfies is a
`Source<A>`. -/
theorem subtype_trans_streams :
    streams.hierarchy.Answers
      (.subtype (.applied ⟨⟨6⟩, []⟩) (.applied ⟨⟨2⟩, [.applied ⟨⟨1⟩, []⟩]⟩)) true := by
  obtain ⟨r, hr⟩ := Hierarchy.subtype_finishes streams_flat streams.hierarchy_finite
    (.applied ⟨⟨6⟩, []⟩) (.applied ⟨⟨2⟩, [.applied ⟨⟨1⟩, []⟩]⟩)
  obtain rfl := Hierarchy.subtype_trans streams_regular streams_principal
    (.applied (streams_plain (by decide) rfl)) (.applied (streams_one (i := 4) (by decide) rfl streams_b))
    (.applied (streams_one (by decide) rfl streams_b)) ⟨9, rfl⟩ ⟨9, rfl⟩ hr
  exact hr

end Graph

end Ceylon.Model

/-! ## Where subtyping is not transitive -/

namespace Ceylon.Analysis

open Model
open Syntax

/-- A unit that declares the given classes and interfaces. -/
def unitOf (body : List Stmt) : CompilationUnit :=
  CompilationUnit.number
    { mark := default, source := default, module := none, imports := [], body, comments := [] }

/-- A language module that declares only the most general classes. -/
def generalClasses : CompilationUnit :=
  let declared (name : String) : Stmt := .classDecl
    { mark := default, annotations := {}, name := ⟨default, name⟩, typeParams := [],
      params := default, extended := none, satisfied := [], body := default }
  unitOf [declared "Void", declared "Object"]

/-- `interface A {}`, `interface B satisfies A {}`, `interface J<in T> {}`, `interface I<out U> satisfies
J<U> {}`, `interface M<V> {}`, `interface K satisfies M<B> {}`, `interface C satisfies M<A>, K {}`,
`interface P<out X> satisfies Q<X> {}` and `interface Q<out Y> satisfies P<B> {}`. -/
def crossedTree : CompilationUnit :=
  let name (text : String) : Name := ⟨default, text⟩
  let type (text : String) (args : List TypeRef) : TypeRef := .base ⟨default, name text, args⟩
  let param (variance : Variance) (text : String) : TypeParameter := ⟨default, variance, name text⟩
  let interface (text : String) (typeParams : List TypeParameter) (satisfied : List TypeRef) : Stmt :=
    .interfaceDecl
      { mark := default, annotations := {}, name := name text, typeParams, satisfied, body := default }
  unitOf [
    interface "A" [] [],
    interface "B" [] [type "A" []],
    interface "J" [param .contravariant "T"] [],
    interface "I" [param .covariant "U"] [type "J" [type "U" []]],
    interface "M" [param .invariant "V"] [],
    interface "K" [] [type "M" [type "B" []]],
    interface "C" [] [type "M" [type "A" []], type "K" []],
    interface "P" [param .covariant "X"] [type "Q" [type "X" []]],
    interface "Q" [param .covariant "Y"] [type "P" [type "B" []]]]

/-- The state after the names of that unit have been resolved. -/
def crossed : State :=
  let resolved : Analyze Unit := do
    let package ← packageNamed ["p"]
    modifyGraph (·.addPackage defaultModule package)
    let u ← addUnit "p/a.ceylon" crossedTree package
    bindDeclarations u
    discard (resolveModule u)
    resolveDependencies
    discard (resolveNames u)
  (resolved.run (.initialWith generalClasses)).2

/-- Where a type parameter is used against its variance, or two applications of one declaration are
inherited, of which none is most specific or the most specific one only on a way that comes back to its
declaration, or where arguments are missing, subtyping is not transitive, though no problem was found: `I<B>` is
an `I<A>` and that is a `J<A>`, but `I<B>` is none; `C` is a `K` and that is an `M<B>`, but `C` is none; `P<A>` is a
`Q<A>` and that is a `P<B>`, but `P<A>` is none; `M<A>` is an `M` and that is an `M<B>`, but `M<A>` is none. -/
theorem crossed_not_transitive :
    let u := crossed.unit ⟨1⟩
    let h := crossed.graph.hierarchy
    let on (name : String) (args : List Ty) : Ty :=
      .applied ⟨(crossed.graph.directMember? (.package u.package) name .any).getD default, args⟩
    let fails (s t o : Ty) : Prop :=
      h.Answers (.subtype s t) true ∧ h.Answers (.subtype t o) true ∧ h.Answers (.subtype s o) false
    u.phase = .namesResolved ∧ u.diagnostics.size = 0 ∧
      (∀ i < crossed.graph.decls.size, ∀ st ∈ h.supertypes ⟨i⟩, h.isBottom st.decl = false) ∧
      fails (on "I" [on "B" []]) (on "I" [on "A" []]) (on "J" [on "A" []]) ∧
      fails (on "C" []) (on "K" []) (on "M" [on "B" []]) ∧
      fails (on "P" [on "A" []]) (on "Q" [on "A" []]) (on "P" [on "B" []]) ∧
      fails (on "M" [on "A" []]) (on "M" []) (on "M" [on "B" []]) := by
  intro u h on fails
  -- Each of the three queries is answered within twelve steps.
  have fails_of_run : ∀ s t o, ([(s, t), (t, o), (s, o)].map fun p => h.answerWithin 12 (.subtype p.1 p.2)) =
      [some true, some true, some false] → fails s t o := by
    intro s t o hrun
    simp only [List.map_cons, List.map_nil, List.cons.injEq, and_true] at hrun
    exact ⟨⟨12, hrun.1⟩, ⟨12, hrun.2.1⟩, ⟨12, hrun.2.2⟩⟩
  refine ⟨?_, ?_, ?_, ?_, ?_, ?_, ?_⟩
  · decide +kernel
  · decide +kernel
  · decide +kernel
  · apply fails_of_run
    decide +kernel
  · apply fails_of_run
    decide +kernel
  · apply fails_of_run
    decide +kernel
  · apply fails_of_run
    decide +kernel

end Ceylon.Analysis
