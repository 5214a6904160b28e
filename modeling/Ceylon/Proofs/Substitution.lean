import Ceylon.Proofs.UnionCases

/-!
# Substituting one after the other

To substitute type parameters in what has been substituted already is not to substitute at once: what was put in
for a parameter is searched for parameters again.  It is the same if nothing that was put in is touched by the
second substitution (`Hierarchy.substitute_together`), neither because one of its parameters occurs there, nor
because there is a union that is not in normal form and would be normalized.

Unions need care of their own, because the first substitution already drops the cases that it makes subtypes of
others.  So what is asked of a union is that no case is dropped, or that it has nothing to do with the second
substitution.
-/

namespace Ceylon.Model

/-! ## Declarations that do not occur in a type -/

/-- None of the declarations occurs in the type. -/
inductive Ty.Avoids (ps : List DeclId) : Ty → Prop
  | unknown : Avoids ps .unknown
  | applied {a : Applied} (decl : a.decl ∉ ps) (args : ∀ t ∈ a.args, Avoids ps t) : Avoids ps (.applied a)
  | union {cases : List Applied} {extended : Option Applied} (cases_avoid : ∀ c ∈ cases, Avoids ps (.applied c)) :
    Avoids ps (.union cases extended)

namespace Ty.Avoids

variable {ps : List DeclId}

theorem decl {a : Applied} (ha : (Ty.applied a).Avoids ps) : a.decl ∉ ps := by
  cases ha with
  | applied decl args => exact decl

theorem args {a : Applied} (ha : (Ty.applied a).Avoids ps) : ∀ t ∈ a.args, t.Avoids ps := by
  cases ha with
  | applied decl args => exact args

theorem of_cases {t : Ty} (ht : t.Avoids ps) : ∀ c ∈ t.cases, (Ty.applied c).Avoids ps := by
  cases ht with
  | unknown => exact List.forall_mem_nil _
  | applied decl args => exact List.forall_mem_singleton.mpr (.applied decl args)
  | union cases_avoid => exact cases_avoid

end Ty.Avoids

namespace Hierarchy

variable {h : Hierarchy}

/-- Every union in the type is in normal form. -/
def IsNormal (h : Hierarchy) : Ty → Prop :=
  Ty.EveryUnion fun cases extended => h.Answers (.unite (cases.map .applied)) (.union cases extended)

theorem IsNormal.of_cases {t : Ty} (ht : h.IsNormal t) : ∀ c ∈ t.cases, h.IsNormal (.applied c) := by
  cases t with
  | unknown => exact List.forall_mem_nil _
  | applied a => exact List.forall_mem_singleton.mpr ht
  | union cases extended => exact ht.of_union.2

/-- A substitution for these declarations has nothing to do with the type. -/
structure Untouched (h : Hierarchy) (ps : List DeclId) (t : Ty) : Prop where
  avoids : t.Avoids ps
  normal : h.IsNormal t

/-! ## What substitution gives -/

section

open Ceylon.Model.Algebra (substituteAll substituteArgs)

variable {b : Bindings} {n : Nat}

theorem substituteAll_reaches_iff {ok : (q : Query) → q.Answer → Prop} {ts rs : List Ty} :
    (substituteAll b ts).Reaches ok (· = rs) ↔ List.Forall₂ (fun t r => ok (.substitute b t) r) ts rs := by
  induction ts generalizing rs with
  | nil => exact ⟨fun hrs : [] = rs => hrs ▸ .nil, fun hrs => (List.forall₂_nil_left_iff.mp hrs).symm⟩
  | cons t ts ih =>
    rw [List.forall₂_cons_left_iff]
    constructor
    · rintro ⟨r, hr, hrest⟩
      replace hrest : (substituteAll b ts >>= fun rest => pure (r :: rest)).Reaches ok (· = rs) := hrest
      obtain ⟨rest, hts, heq⟩ := hrest.of_bind.result
      exact ⟨r, rest, hr, ih.mp hts, Eq.symm heq⟩
    · rintro ⟨r, rest, hr, hrest, rfl⟩
      exact ⟨r, hr, (ih.mpr hrest).bind fun _ heq => congrArg (r :: ·) heq⟩

theorem answersWithin_substitute_unknown {r : Ty} :
    h.AnswersWithin (n + 1) (.substitute b .unknown) r ↔ r = .unknown := by
  have hstep : h.step (.substitute b .unknown) = pure .unknown := by simp [step, substituteStep]
  rw [answersWithin_succ_iff, hstep]
  exact eq_comm

variable (hb : b ≠ [])
include hb

theorem answersWithin_substitute_applied {a : Applied} {r : Ty} :
    h.AnswersWithin (n + 1) (.substitute b (.applied a)) r ↔
      (h.substituteApplied b a).Reaches (h.AnswersWithin n) (· = r) := by
  rw [answersWithin_succ_iff]
  simp [step, substituteStep, hb]

/-- A parameter is replaced if it is bound. -/
theorem answersWithin_substitute_parameter {a : Applied} (parameter : h.isParameter a.decl) {r : Ty} :
    h.AnswersWithin (n + 1) (.substitute b (.applied a)) r ↔ r = (b.lookup a.decl).getD (.applied a) := by
  rw [answersWithin_substitute_applied hb, substituteApplied, if_pos parameter]
  exact eq_comm

/-- In any other declared type, the arguments are replaced. -/
theorem answersWithin_substitute_instance {a : Applied} (inst : h.isParameter a.decl = false) {r : Ty} :
    h.AnswersWithin (n + 1) (.substitute b (.applied a)) r ↔
      ∃ args, List.Forall₂ (fun t t' => h.AnswersWithin n (.substitute b t) t') a.args args ∧
        r = .applied ⟨a.decl, args⟩ := by
  rw [answersWithin_substitute_applied hb, substituteApplied, if_neg (by simp [inst])]
  unfold substituteArgs
  split
  · -- Without arguments nothing is substituted.
    next hempty =>
    obtain ⟨d, args⟩ := a
    obtain rfl : args = [] := by simpa [hb] using hempty
    constructor
    · exact fun hr => ⟨[], .nil, Eq.symm hr⟩
    · rintro ⟨args, hnil, rfl⟩
      rw [List.forall₂_nil_left_iff.mp hnil]
      exact rfl
  · constructor
    · intro hr
      obtain ⟨args, hargs, heq⟩ := hr.of_bind.of_bind.result
      exact ⟨args, substituteAll_reaches_iff.mp hargs, Eq.symm heq⟩
    · rintro ⟨args, hargs, rfl⟩
      refine ((substituteAll_reaches_iff.mpr hargs).bind ?_).bind fun _ heq => congrArg Ty.applied heq
      rintro _ rfl
      exact rfl

/-- The cases of a union are replaced and united. -/
theorem answersWithin_substitute_union {cases : List Applied} {extended : Option Applied} {r : Ty} :
    h.AnswersWithin (n + 1) (.substitute b (.union cases extended)) r ↔
      ∃ ts, List.Forall₂ (fun c t => h.AnswersWithin (n + 1) (.substitute b (.applied c)) t) cases ts ∧
        h.AnswersWithin n (.unite ts) r := by
  -- the cases are substituted one by one, in order, before they are united
  have hcases : ∀ cases ts, (h.substituteCases b cases).Reaches (h.AnswersWithin n) (· = ts) ↔
      List.Forall₂ (fun c t => h.AnswersWithin (n + 1) (.substitute b (.applied c)) t) cases ts := by
    intro cases
    induction cases with
    | nil => exact fun ts => ⟨fun hts : [] = ts => hts ▸ .nil, fun hts => (List.forall₂_nil_left_iff.mp hts).symm⟩
    | cons c cs ih =>
      intro ts
      rw [List.forall₂_cons_left_iff]
      constructor
      · intro hts
        obtain ⟨t, ht, hrest⟩ := hts.of_bind.result
        obtain ⟨rest, hcs, heq⟩ := hrest.of_bind.result
        exact ⟨t, rest, (answersWithin_substitute_applied hb).mpr ht, (ih rest).mp hcs, Eq.symm heq⟩
      · rintro ⟨t, rest, ht, hrest, rfl⟩
        refine ((answersWithin_substitute_applied hb).mp ht).bind ?_
        rintro _ rfl
        exact ((ih rest).mpr hrest).bind fun _ heq => congrArg (_ :: ·) heq
  have hstep : h.step (.substitute b (.union cases extended)) =
      h.substituteCases b cases >>= fun ts => Algebra.unite ts := by
    simp [step, substituteStep, hb]
  rw [answersWithin_succ_iff, hstep]
  constructor
  · intro hr
    obtain ⟨ts, hts, r', hr', rfl⟩ := hr.of_bind.result
    exact ⟨ts, (hcases cases ts).mp hts, hr'⟩
  · rintro ⟨ts, hts, hr⟩
    refine ((hcases cases ts).mpr hts).bind ?_
    rintro _ rfl
    exact ⟨r, hr, rfl⟩

end

/-! ## Substitutions that leave a type as it is -/

/-- What is related place by place to images is the list of the images. -/
theorem eq_map_of_forall₂ {α β : Type} {R : α → β → Prop} {f : α → β} {as : List α} {bs : List β}
    (hab : List.Forall₂ R as bs) (hR : ∀ a ∈ as, ∀ b, R a b → b = f a) : bs = as.map f := by
  induction hab with
  | nil => rfl
  | cons hab _ ih =>
    obtain ⟨ha, has⟩ := List.forall_mem_cons.mp hR
    rw [List.map_cons, ha _ hab, ih has]

/-- What is related place by place through a list between them is related in a way that follows from both. -/
theorem forall₂_comp {α β γ : Type} {R : α → β → Prop} {S : β → γ → Prop} {T : α → γ → Prop} {as : List α}
    {bs : List β} {cs : List γ} (hab : List.Forall₂ R as bs) (hbc : List.Forall₂ S bs cs)
    (imp : ∀ a ∈ as, ∀ b c, R a b → S b c → T a c) : List.Forall₂ T as cs := by
  induction hab generalizing cs with
  | nil => rwa [List.forall₂_nil_left_iff] at hbc ⊢
  | cons hab _ ih =>
    obtain ⟨c, cs, hfirst, hrest, rfl⟩ := List.forall₂_cons_left_iff.mp hbc
    obtain ⟨himp, himps⟩ := List.forall_mem_cons.mp imp
    exact .cons (himp _ _ hab hfirst) (ih hrest himps)

theorem exists_mem_of_forall₂ {α β : Type} {R : α → β → Prop} {as : List α} {bs : List β}
    (hab : List.Forall₂ R as bs) {b : β} (hb : b ∈ bs) : ∃ a ∈ as, R a b := by
  induction hab with
  | nil => cases hb
  | @cons a b' as bs hab _ ih =>
    rcases List.mem_cons.mp hb with rfl | hb
    · exact ⟨a, List.mem_cons_self, hab⟩
    · obtain ⟨a', ha', hR⟩ := ih hb
      exact ⟨a', List.mem_cons_of_mem a ha', hR⟩

section

variable {ps : List DeclId} {b b₁ b₂ : Bindings} {n : Nat}

theorem lookup_eq_none (hkeys : ∀ p ∈ b, p.1 ∈ ps) {d : DeclId} (hd : d ∉ ps) : b.lookup d = none := by
  cases hlookup : b.lookup d with
  | none => rfl
  | some t => exact absurd (hkeys _ (mem_of_lookup hlookup)) hd

theorem Untouched.args {a : Applied} (ha : h.Untouched ps (.applied a)) : ∀ t ∈ a.args, h.Untouched ps t :=
  fun t ht => ⟨ha.avoids.args t ht, ha.normal.of_applied t ht⟩

theorem Untouched.of_cases {t : Ty} (ht : h.Untouched ps t) : ∀ c ∈ t.cases, h.Untouched ps (.applied c) :=
  fun c hc => ⟨ht.avoids.of_cases c hc, ht.normal.of_cases c hc⟩

/-- A declared type that is no parameter stays as it is if its arguments do. -/
theorem substitute_instance_eq (hb : b ≠ []) {a : Applied} {r : Ty} (inst : h.isParameter a.decl = false)
    (hargs : ∀ t ∈ a.args, ∀ r, h.AnswersWithin n (.substitute b t) r → r = t)
    (hr : h.AnswersWithin (n + 1) (.substitute b (.applied a)) r) : r = .applied a := by
  obtain ⟨args, hforall, rfl⟩ := (answersWithin_substitute_instance hb inst).mp hr
  obtain rfl : args = a.args := (eq_map_of_forall₂ (f := id) hforall hargs).trans (List.map_id _)
  obtain ⟨d, args⟩ := a
  rfl

/-- An untouched type stays as it is. -/
theorem Untouched.substitute_eq (hkeys : ∀ p ∈ b, p.1 ∈ ps) (hb : b ≠ []) {t r : Ty} (ht : h.Untouched ps t)
    (hr : h.AnswersWithin n (.substitute b t) r) : r = t := by
  induction t using Ty.induction generalizing n r with
  | unknown =>
    cases n with
    | zero => cases hr
    | succ n => exact answersWithin_substitute_unknown.mp hr
  | applied a ih =>
    cases n with
    | zero => cases hr
    | succ n =>
      cases hparam : h.isParameter a.decl with
      | true =>
        rw [answersWithin_substitute_parameter hb hparam, lookup_eq_none hkeys ht.avoids.decl] at hr
        exact hr
      | false => exact substitute_instance_eq hb hparam (fun t hmem r => ih t hmem (ht.args t hmem)) hr
  | union cases extended ih =>
    cases n with
    | zero => cases hr
    | succ n =>
      -- The cases stay as they are, and uniting them gives back the union because it is normal.
      obtain ⟨ts, hts, hunite⟩ := (answersWithin_substitute_union hb).mp hr
      obtain rfl := eq_map_of_forall₂ hts fun c hc t => ih c hc (ht.of_cases c hc)
      exact Answers.unique ⟨n, hunite⟩ ht.normal.of_union.1

/-- Bindings of declarations that do not occur in a type may be added. -/
theorem substitute_append (hkeys : ∀ p ∈ b₂, p.1 ∈ ps) (hb : b₁ ≠ []) {t r : Ty} (ht : t.Avoids ps)
    (hr : h.AnswersWithin n (.substitute b₁ t) r) : h.AnswersWithin n (.substitute (b₂ ++ b₁) t) r := by
  have happend : b₂ ++ b₁ ≠ [] := by simp [hb]
  induction t using Ty.induction generalizing n r with
  | unknown =>
    cases n with
    | zero => cases hr
    | succ n =>
      exact answersWithin_substitute_unknown.mpr (answersWithin_substitute_unknown.mp hr)
  | applied a ih =>
    cases n with
    | zero => cases hr
    | succ n =>
      -- the parameters the type avoids are the keys of `b₂`, so a lookup goes past them to `b₁`
      cases hparam : h.isParameter a.decl with
      | true =>
        rw [answersWithin_substitute_parameter hb hparam] at hr
        rw [answersWithin_substitute_parameter happend hparam, List.lookup_append,
          lookup_eq_none hkeys ht.decl, Option.none_or]
        exact hr
      | false =>
        obtain ⟨args, hargs, rfl⟩ := (answersWithin_substitute_instance hb hparam).mp hr
        refine (answersWithin_substitute_instance happend hparam).mpr ⟨args, ?_, rfl⟩
        exact forall₂_imp_of_mem hargs fun t hmem r _ => ih t hmem (ht.args t hmem)
  | union cases extended ih =>
    cases n with
    | zero => cases hr
    | succ n =>
      obtain ⟨ts, hts, hunite⟩ := (answersWithin_substitute_union hb).mp hr
      refine (answersWithin_substitute_union happend).mpr ⟨ts, ?_, hunite⟩
      exact forall₂_imp_of_mem hts fun c hc t _ => ih c hc (ht.of_cases c hc)

/-- A substitution leaves the type as it is, and each of its cases. -/
structure Settled (h : Hierarchy) (b : Bindings) (t : Ty) : Prop where
  whole : ∀ n r, h.AnswersWithin n (.substitute b t) r → r = t
  cases : ∀ c ∈ t.cases, ∀ n r, h.AnswersWithin n (.substitute b (.applied c)) r → r = .applied c

theorem Settled.of_applied {a : Applied}
    (ha : ∀ n r, h.AnswersWithin n (.substitute b (.applied a)) r → r = .applied a) : h.Settled b (.applied a) :=
  ⟨ha, List.forall_mem_singleton.mpr ha⟩

theorem Untouched.settled (hkeys : ∀ p ∈ b, p.1 ∈ ps) (hb : b ≠ []) {t : Ty} (ht : h.Untouched ps t) :
    h.Settled b t :=
  ⟨fun _ _ => ht.substitute_eq hkeys hb, fun c hc _ _ => (ht.of_cases c hc).substitute_eq hkeys hb⟩

/-- So is a union whose cases are left as they are. -/
theorem settled_of_unite (hb : b ≠ []) {ts : List Ty} {u : Ty} (hts : ∀ t ∈ ts, h.Settled b t)
    (hu : h.Answers (.unite ts) u) : h.Settled b u := by
  obtain ⟨-, -, -, hmem, -⟩ := hu.of_unite
  have hcases : ∀ c ∈ u.cases, ∀ n r, h.AnswersWithin n (.substitute b (.applied c)) r → r = .applied c := by
    intro c hc
    obtain ⟨t, ht, hct⟩ := List.mem_flatMap.mp (hmem c hc)
    exact (hts t ht).cases c hct
  refine ⟨fun n r hr => ?_, hcases⟩
  cases n with
  | zero => cases hr
  | succ n =>
    cases u with
    | unknown => exact answersWithin_substitute_unknown.mp hr
    | applied a => exact hcases a (List.mem_singleton_self a) _ r hr
    | union cases extended =>
      obtain ⟨rs, hrs, hunite⟩ := (answersWithin_substitute_union hb).mp hr
      obtain rfl := eq_map_of_forall₂ hrs fun c hc t => hcases c hc _ t
      exact (hu.unite_again.unique ⟨n, hunite⟩).symm

/-- What is substituted in a type without these declarations is left as it is if what is put in is
untouched. -/
theorem settled_of_avoids (hkeys : ∀ p ∈ b₂, p.1 ∈ ps) (hb₁ : b₁ ≠ []) (hb₂ : b₂ ≠ [])
    (himages : ∀ p ∈ b₁, h.Untouched ps p.2) {t u : Ty} (ht : t.Avoids ps)
    (hu : h.AnswersWithin n (.substitute b₁ t) u) : h.Settled b₂ u := by
  induction t using Ty.induction generalizing n u with
  | unknown =>
    cases n with
    | zero => cases hu
    | succ n =>
      obtain rfl := answersWithin_substitute_unknown.mp hu
      exact Untouched.settled hkeys hb₂ ⟨.unknown, .unknown⟩
  | applied a ih =>
    cases n with
    | zero => cases hu
    | succ n =>
      cases hparam : h.isParameter a.decl with
      | true =>
        rw [answersWithin_substitute_parameter hb₁ hparam] at hu
        -- a bound parameter has become its image, which no key of `b₂` touches; a free one is itself no key
        cases hlookup : b₁.lookup a.decl with
        | some image =>
          obtain rfl : u = image := by rw [hu, hlookup, Option.getD_some]
          exact (himages _ (mem_of_lookup hlookup)).settled hkeys hb₂
        | none =>
          obtain rfl : u = .applied a := by rw [hu, hlookup, Option.getD_none]
          refine .of_applied fun m r hr => ?_
          cases m with
          | zero => cases hr
          | succ m =>
            rw [answersWithin_substitute_parameter hb₂ hparam, lookup_eq_none hkeys ht.decl] at hr
            exact hr
      | false =>
        obtain ⟨args, hargs, rfl⟩ := (answersWithin_substitute_instance hb₁ hparam).mp hu
        refine .of_applied fun m r hr => ?_
        cases m with
        | zero => cases hr
        | succ m =>
          refine substitute_instance_eq hb₂ hparam (fun t ht' => ?_) hr
          obtain ⟨t₀, ht₀, hsubst⟩ := exists_mem_of_forall₂ hargs ht'
          exact (ih t₀ ht₀ (ht.args t₀ ht₀) hsubst).whole m
  | union cases extended ih =>
    cases n with
    | zero => cases hu
    | succ n =>
      obtain ⟨ts, hts, hunite⟩ := (answersWithin_substitute_union hb₁).mp hu
      refine settled_of_unite hb₂ (fun t hmem => ?_) ⟨n, hunite⟩
      obtain ⟨c, hc, hsubst⟩ := exists_mem_of_forall₂ hts hmem
      exact ih c hc (ht.of_cases c hc) hsubst

end

/-! ## Two substitutions at once -/

/-- The substitution makes no case of a union a subtype of another one: all that the cases become are cases of the
union that it gives. -/
def KeepsCases (h : Hierarchy) (b : Bindings) (cases : List Applied) : Prop :=
  ∀ ts u, List.Forall₂ (fun c t => h.Answers (.substitute b (.applied c)) t) cases ts → h.Answers (.unite ts) u →
    ∃ extended, u = .union (ts.flatMap Ty.cases) extended

/-- Lists of types that have the same cases, and the same bottom type if there is nothing else. -/
structure SameCases (h : Hierarchy) (ts ts' : List Ty) : Prop where
  cases : ts.flatMap Ty.cases = ts'.flatMap Ty.cases
  bottom : ts.find? h.isBottomType = ts'.find? h.isBottomType

/-- Only the cases of types count when they are united. -/
theorem SameCases.unite {ts ts' : List Ty} (hts : h.SameCases ts ts') {n : Nat} {u : Ty}
    (hu : h.AnswersWithin n (.unite ts) u) : h.AnswersWithin n (.unite ts') u := by
  have hstep : h.step (.unite ts) = h.step (.unite ts') := by
    simp only [step, uniteStep, hts.cases, hts.bottom]
  cases n with
  | zero => cases hu
  | succ n =>
    rw [answersWithin_succ_iff] at hu ⊢
    exact hstep ▸ hu

theorem SameCases.append {ts ts' us us' : List Ty} (hts : h.SameCases ts ts') (hus : h.SameCases us us') :
    h.SameCases (ts ++ us) (ts' ++ us') where
  cases := by rw [List.flatMap_append, List.flatMap_append, hts.cases, hus.cases]
  bottom := by rw [List.find?_append, List.find?_append, hts.bottom, hus.bottom]

/-- A type in normal form has the cases that make it up. -/
theorem IsNormal.sameCases {t : Ty} (ht : h.IsNormal t) : h.SameCases (t.cases.map .applied) [t] := by
  refine ⟨by simp [List.flatMap_map, Ty.cases], ?_⟩
  cases t with
  | unknown | applied => rfl
  | union cases extended =>
    obtain ⟨-, normal, -⟩ := ht.of_union.1.union_cases
    have hunion : [Ty.union cases extended].find? h.isBottomType = none := rfl
    rw [hunion, List.find?_eq_none]
    intro t hmem
    obtain ⟨c, hc, rfl⟩ := List.mem_map.mp hmem
    exact Bool.eq_false_iff.mp (normal.proper c hc)

/-- A parameter that the first of two substitutions replaces is replaced by the same type when both are made at
once. -/
theorem substitute_together_bound {ps : List DeclId} {b₁ b₂ : Bindings} (keys₁ : ∀ p ∈ b₁, p.1 ∉ ps)
    (keys₂ : ∀ p ∈ b₂, p.1 ∈ ps) {a : Applied} (parameter : h.isParameter a.decl) {image : Ty}
    (hlookup : b₁.lookup a.decl = some image) (n : Nat) :
    h.AnswersWithin (n + 1) (.substitute (b₂ ++ b₁) (.applied a)) image := by
  have hmem := mem_of_lookup hlookup
  have hne : b₂ ++ b₁ ≠ [] := List.append_ne_nil_of_right_ne_nil b₂ (List.ne_nil_of_mem hmem)
  rw [answersWithin_substitute_parameter hne parameter, List.lookup_append,
    lookup_eq_none keys₂ (keys₁ _ hmem), hlookup]
  rfl

section

variable {ps : List DeclId} {b₁ b₂ : Bindings} (hb₁ : b₁ ≠ []) (hb₂ : b₂ ≠ [])
  (keys₁ : ∀ p ∈ b₁, p.1 ∉ ps) (keys₂ : ∀ p ∈ b₂, p.1 ∈ ps) (images : ∀ p ∈ b₁, h.Untouched ps p.2)
include hb₁ hb₂ keys₁ keys₂ images

/-- If two substitutions may be made at once in a case of a union, then what they give one after the other on the
cases that the first one leads to are the cases of what they give at once. -/
theorem case_together {c : Applied} {n : Nat} {t : Ty} {zs : List Ty}
    (together : ∀ t₁ t₂, h.AnswersWithin (n + 1) (.substitute b₁ (.applied c)) t₁ →
      h.AnswersWithin (n + 1) (.substitute b₂ t₁) t₂ →
      h.AnswersWithin (n + 1) (.substitute (b₂ ++ b₁) (.applied c)) t₂)
    (ht : h.AnswersWithin (n + 1) (.substitute b₁ (.applied c)) t)
    (hzs : List.Forall₂ (fun c z => h.AnswersWithin (n + 1) (.substitute b₂ (.applied c)) z) t.cases zs) :
    ∃ w, h.AnswersWithin (n + 1) (.substitute (b₂ ++ b₁) (.applied c)) w ∧ h.SameCases zs [w] := by
  -- A single case gives a single type, on which both ways agree.
  have single : ∀ a, t = .applied a → ∃ w,
      h.AnswersWithin (n + 1) (.substitute (b₂ ++ b₁) (.applied c)) w ∧ h.SameCases zs [w] := by
    rintro a rfl
    obtain ⟨z, rest, hz, hnil, rfl⟩ := List.forall₂_cons_left_iff.mp hzs
    obtain rfl := List.forall₂_nil_left_iff.mp hnil
    exact ⟨z, together _ z ht hz, rfl, rfl⟩
  cases hparam : h.isParameter c.decl with
  | false =>
    obtain ⟨args, -, heq⟩ := (answersWithin_substitute_instance hb₁ hparam).mp ht
    exact single _ heq
  | true =>
    rw [answersWithin_substitute_parameter hb₁ hparam] at ht
    cases hlookup : b₁.lookup c.decl with
    | none => exact single c (by rw [ht, hlookup, Option.getD_none])
    | some image =>
      obtain rfl : t = image := by rw [ht, hlookup, Option.getD_some]
      -- What is put in for a parameter has none of the second parameters, so the second substitution leaves it
      -- alone.
      have untouched := images _ (mem_of_lookup hlookup)
      refine ⟨t, substitute_together_bound keys₁ keys₂ hparam hlookup n, ?_⟩
      obtain rfl := eq_map_of_forall₂ hzs fun c hc z => (untouched.of_cases c hc).substitute_eq keys₂ hb₂
      exact untouched.normal.sameCases

theorem cases_together {n : Nat} {cases : List Applied} {ts zs : List Ty}
    (together : ∀ c ∈ cases, ∀ t₁ t₂, h.AnswersWithin (n + 1) (.substitute b₁ (.applied c)) t₁ →
      h.AnswersWithin (n + 1) (.substitute b₂ t₁) t₂ →
      h.AnswersWithin (n + 1) (.substitute (b₂ ++ b₁) (.applied c)) t₂)
    (hts : List.Forall₂ (fun c t => h.AnswersWithin (n + 1) (.substitute b₁ (.applied c)) t) cases ts)
    (hzs : List.Forall₂ (fun c z => h.AnswersWithin (n + 1) (.substitute b₂ (.applied c)) z)
      (ts.flatMap Ty.cases) zs) :
    ∃ ws, List.Forall₂ (fun c w => h.AnswersWithin (n + 1) (.substitute (b₂ ++ b₁) (.applied c)) w) cases ws ∧
      h.SameCases zs ws := by
  induction hts generalizing zs with
  | nil => exact ⟨[], .nil, by rw [List.forall₂_nil_left_iff.mp hzs]; exact ⟨rfl, rfl⟩⟩
  | @cons c t cs ts ht _ ih =>
    obtain ⟨hc, hcs⟩ := List.forall_mem_cons.mp together
    -- The second substitution takes the cases of all first results in a row, of which the first ones belong to
    -- this case.
    have hfirst := List.forall₂_take t.cases.length hzs
    have hrest := List.forall₂_drop t.cases.length hzs
    rw [List.flatMap_cons, List.take_left] at hfirst
    rw [List.flatMap_cons, List.drop_left] at hrest
    obtain ⟨w, hw, hsame⟩ := case_together hb₁ hb₂ keys₁ keys₂ images hc ht hfirst
    obtain ⟨ws, hws, hsame'⟩ := ih hcs hrest
    refine ⟨w :: ws, .cons hw hws, ?_⟩
    rw [← List.take_append_drop t.cases.length zs]
    exact hsame.append hsame'

/-- What comes of two substitutions one after the other comes of both at once, if the first one puts in nothing
that the second one touches, and drops no case of a union that has to do with the second one. -/
theorem substitute_together_of_ne {t : Ty}
    (unions : t.EveryUnion fun cases _ => h.KeepsCases b₁ cases ∨ ∀ c ∈ cases, (Ty.applied c).Avoids ps)
    {n : Nat} {t₁ t₂ : Ty} (h₁ : h.AnswersWithin n (.substitute b₁ t) t₁)
    (h₂ : h.AnswersWithin n (.substitute b₂ t₁) t₂) : h.AnswersWithin n (.substitute (b₂ ++ b₁) t) t₂ := by
  have happend : b₂ ++ b₁ ≠ [] := by simp [hb₁]
  induction t using Ty.induction generalizing n t₁ t₂ with
  | unknown =>
    cases n with
    | zero => cases h₁
    | succ n =>
      obtain rfl := answersWithin_substitute_unknown.mp h₁
      exact answersWithin_substitute_unknown.mpr (answersWithin_substitute_unknown.mp h₂)
  | applied a ih =>
    cases n with
    | zero => cases h₁
    | succ n =>
      cases hparam : h.isParameter a.decl with
      | true =>
        rw [answersWithin_substitute_parameter hb₁ hparam] at h₁
        cases hlookup : b₁.lookup a.decl with
        | some image =>
          obtain rfl : t₁ = image := by rw [h₁, hlookup, Option.getD_some]
          obtain rfl := (images _ (mem_of_lookup hlookup)).substitute_eq keys₂ hb₂ h₂
          exact substitute_together_bound keys₁ keys₂ hparam hlookup n
        | none =>
          obtain rfl : t₁ = .applied a := by rw [h₁, hlookup, Option.getD_none]
          rw [answersWithin_substitute_parameter hb₂ hparam] at h₂
          rw [answersWithin_substitute_parameter happend hparam, List.lookup_append, hlookup, Option.or_none]
          exact h₂
      | false =>
        obtain ⟨args₁, hargs₁, rfl⟩ := (answersWithin_substitute_instance hb₁ hparam).mp h₁
        obtain ⟨args₂, hargs₂, rfl⟩ :=
          (answersWithin_substitute_instance hb₂ (a := ⟨a.decl, args₁⟩) hparam).mp h₂
        refine (answersWithin_substitute_instance happend hparam).mpr ⟨args₂, ?_, rfl⟩
        exact forall₂_comp hargs₁ hargs₂ fun t ht t₁ t₂ => ih t ht (unions.of_applied t ht)
  | union cases extended ih =>
    cases n with
    | zero => cases h₁
    | succ n =>
      -- A union keeps its cases under the first substitution, or avoids the parameters of the second; either
      -- way nothing the first one merges is split by the second.
      rcases unions.of_union.1 with kept | avoids
      · obtain ⟨ts, hts, hunite⟩ := (answersWithin_substitute_union hb₁).mp h₁
        obtain ⟨above, rfl⟩ := kept ts t₁ (hts.imp fun _ _ ht => ⟨_, ht⟩) ⟨n, hunite⟩
        obtain ⟨zs, hzs, hunite'⟩ := (answersWithin_substitute_union hb₂).mp h₂
        obtain ⟨ws, hws, hsame⟩ := cases_together hb₁ hb₂ keys₁ keys₂ images
          (fun c hc t₁ t₂ => ih c hc (unions.of_union.2 c hc)) hts hzs
        exact (answersWithin_substitute_union happend).mpr ⟨ws, hws, hsame.unite hunite'⟩
      · have hsettled := settled_of_avoids keys₂ hb₁ hb₂ images (.union avoids) h₁
        obtain rfl := hsettled.whole _ _ h₂
        exact substitute_append keys₂ hb₁ (.union avoids) h₁

end

/-- Nothing is substituted if nothing is bound. -/
theorem answersWithin_substitute_nil {n : Nat} {t r : Ty} :
    h.AnswersWithin (n + 1) (.substitute [] t) r ↔ r = t := by
  rw [answersWithin_succ_iff]
  exact eq_comm

/-- What comes of two substitutions one after the other comes of both at once, also if one of them binds
nothing. -/
theorem substitute_together {ps : List DeclId} {b₁ b₂ : Bindings} (keys₁ : ∀ p ∈ b₁, p.1 ∉ ps)
    (keys₂ : ∀ p ∈ b₂, p.1 ∈ ps) (images : ∀ p ∈ b₁, h.Untouched ps p.2) {t : Ty}
    (unions : t.EveryUnion fun cases _ => h.KeepsCases b₁ cases ∨ ∀ c ∈ cases, (Ty.applied c).Avoids ps)
    {n : Nat} {t₁ t₂ : Ty} (h₁ : h.AnswersWithin n (.substitute b₁ t) t₁)
    (h₂ : h.AnswersWithin n (.substitute b₂ t₁) t₂) : h.AnswersWithin n (.substitute (b₂ ++ b₁) t) t₂ := by
  cases n with
  | zero => cases h₁
  | succ n =>
    rcases eq_or_ne b₁ [] with rfl | hb₁
    · obtain rfl := answersWithin_substitute_nil.mp h₁
      exact (List.append_nil b₂).symm ▸ h₂
    rcases eq_or_ne b₂ [] with rfl | hb₂
    · obtain rfl := answersWithin_substitute_nil.mp h₂
      exact h₁
    · exact substitute_together_of_ne hb₁ hb₂ keys₁ keys₂ images unions h₁ h₂

end Hierarchy

end Ceylon.Model
