import Ceylon.Proofs.Answers

/-!
# Subtyping of types that are alike

Two types may be made of the same parts in a different order, or be one and the same.  What makes them
alike is a relation between declared types that is a congruence (`Congruence`): related types apply one
declaration, and the cases of each of their arguments are related both ways.  A type whose cases are all
related to cases of another one is a subtype of it, whenever that question is answered
(`Congruence.subtype`).  Nothing else is needed for that, since the search for a supertype of a declaration
stops at a type that applies it (`Hierarchy.Answers.search_self`).

Equality is such a relation, so subtyping is reflexive (`Hierarchy.Answers.of_subset`).
-/

namespace Ceylon.Model

open Ceylon.Model.Algebra (argumentConforms argumentsConform allSubtypes anySupertype)
open Syntax (Variance)

variable {R : Applied → Applied → Prop}

/-- Each case of the first type is related to one of the second. -/
def Ty.CasesRelated (R : Applied → Applied → Prop) (s o : Ty) : Prop :=
  ∀ c ∈ s.cases, ∃ c' ∈ o.cases, R c c'

/-- Related types apply one declaration, and the cases of their arguments are related both ways. -/
structure Congruence (R : Applied → Applied → Prop) : Prop where
  decl : ∀ {a b}, R a b → a.decl = b.decl
  args : ∀ {a b}, R a b → List.Forall₂ (fun x y => x.CasesRelated R y ∧ y.CasesRelated R x) a.args b.args

namespace Congruence

/-- What is known of answers to questions about related types: a type whose cases are related to those of
another one is its subtype, and the first supertype of a type is the type itself. -/
def Decides (R : Applied → Applied → Prop) : (q : Query) → q.Answer → Prop
  | .subtype s o, r => s.isKnown → o.isKnown → s.CasesRelated R o → r = true
  | .search t d _, r => t.decl = d → r = some t
  | _, _ => True

/-- A computation comes to the result if the types that it compares are related. -/
abbrev Settles (R : Applied → Applied → Prop) {α : Type} (m : Algebra α) (a : α) : Prop :=
  m.Ensures (fun _ => True) (Decides R) (· = a)

theorem subtype_settles {s o : Ty} (hs : s.isKnown) (ho : o.isKnown) (hso : s.CasesRelated R o) :
    Settles R (Algebra.subtype s o) true :=
  ⟨.intro, fun _ hr => hr hs ho hso⟩

theorem argumentConforms_settles (variance : Variance) {a b : Ty}
    (hab : a.CasesRelated R b ∧ b.CasesRelated R a) : Settles R (argumentConforms variance a b) true := by
  unfold argumentConforms
  split
  · exact rfl
  · next hknown =>
    obtain ⟨ha, hb⟩ : a.isKnown = true ∧ b.isKnown = true := by simpa using hknown
    cases variance with
    | covariant => exact subtype_settles ha hb hab.1
    | contravariant => exact subtype_settles hb ha hab.2
    | invariant =>
      refine (subtype_settles ha hb hab.1).bind ?_
      rintro _ rfl
      exact subtype_settles hb ha hab.2

theorem argumentsConform_settles (variances : List Variance) {as bs : List Ty}
    (h : List.Forall₂ (fun x y => x.CasesRelated R y ∧ y.CasesRelated R x) as bs) :
    Settles R (argumentsConform variances as bs) true := by
  induction h generalizing variances with
  | nil => cases variances <;> exact rfl
  | cons hab _ ih =>
    cases variances with
    | nil => exact rfl
    | cons v vs =>
      refine (argumentConforms_settles v hab).bind ?_
      rintro _ rfl
      exact ih vs

theorem allSubtypes_settles {o : Ty} (ho : o.isKnown) {cases : List Applied}
    (h : ∀ c ∈ cases, ∃ c' ∈ o.cases, R c c') : Settles R (allSubtypes o cases) true := by
  induction cases with
  | nil => exact rfl
  | cons c cs ih =>
    obtain ⟨hc, hcs⟩ := List.forall_mem_cons.mp h
    refine ⟨.intro, fun r hr => ?_⟩
    obtain rfl : r = true := hr rfl ho (List.forall_mem_singleton.mpr hc)
    exact ih hcs

theorem anySupertype_settles {c : Applied} {cases : List Applied} (h : ∃ c' ∈ cases, R c c') :
    Settles R (anySupertype c cases) true := by
  induction cases with
  | nil =>
    obtain ⟨_, hc, -⟩ := h
    cases hc
  | cons c' cs ih =>
    refine ⟨.intro, fun r hr => ?_⟩
    cases r with
    | true => exact rfl
    | false =>
      obtain ⟨d, hd, hR⟩ := h
      rcases List.mem_cons.mp hd with rfl | hd
      · cases hr rfl rfl (List.forall_mem_singleton.mpr ⟨d, List.mem_singleton_self d, hR⟩)
      · exact ih ⟨d, hd, hR⟩

theorem subtypeStep_settles (hR : Congruence R) (h : Hierarchy) {s o : Ty} (hs : s.isKnown)
    (ho : o.isKnown) (hso : s.CasesRelated R o) : Settles R (h.subtypeStep s o) true := by
  match s, o with
  | .unknown, _ => cases hs
  | .union cases _, .applied o => exact allSubtypes_settles ho hso
  | .union cases _, .union os _ => exact allSubtypes_settles ho hso
  | .applied s, .union os _ =>
    simp only [Hierarchy.subtypeStep]
    split
    · exact rfl
    · exact anySupertype_settles (hso s List.mem_cons_self)
  | .applied s, .applied o =>
    -- The only case of the other side is the type that the search for its declaration starts with.
    obtain ⟨o', ho', hR'⟩ := hso s List.mem_cons_self
    obtain rfl : o' = o := List.mem_singleton.mp ho'
    simp only [Hierarchy.subtypeStep]
    split
    · exact rfl
    · refine ⟨.intro, fun r hr => ?_⟩
      obtain rfl : r = some s := hr (hR.decl hR')
      exact argumentsConform_settles _ (hR.args hR')

theorem answerWithin_decides (hR : Congruence R) (h : Hierarchy) (depth : Nat) (q : Query) {r : q.Answer}
    (hr : h.answerWithin depth q = some r) : Decides R q r := by
  induction depth generalizing q with
  | zero => cases hr
  | succ depth ih =>
    cases q with
    | subtype s o =>
      intro hs ho hso
      exact (hR.subtypeStep_settles h hs ho hso).of_run (fun q _ _ hq => ih q hq) hr
    | search t d path =>
      rintro rfl
      simpa [Hierarchy.answerWithin, Hierarchy.step, Hierarchy.searchStep, Dialogue.run] using hr.symm
    | _ => trivial

/-- A type whose cases are related to cases of another one is its subtype. -/
theorem subtype (hR : Congruence R) {h : Hierarchy} {s o : Ty} (hs : s.isKnown) (ho : o.isKnown)
    (hso : s.CasesRelated R o) {r : Bool} (hr : h.Answers (.subtype s o) r) : r = true := by
  obtain ⟨depth, hdepth⟩ := hr
  exact hR.answerWithin_decides h depth (.subtype s o) hdepth hs ho hso

/-- Each type is related to itself alone. -/
theorem eq : Congruence (Eq (α := Applied)) where
  decl := congrArg Applied.decl
  args := by
    rintro a _ rfl
    exact List.forall₂_same.mpr fun x _ => ⟨fun c hc => ⟨c, hc, rfl⟩, fun c hc => ⟨c, hc, rfl⟩⟩

end Congruence

namespace Hierarchy

variable {h : Hierarchy}

/-- A type without other cases than those of `o` is a subtype of `o`. -/
theorem Answers.of_subset {s o : Ty} {r : Bool} (hr : h.Answers (.subtype s o) r)
    (hs : s.isKnown) (ho : o.isKnown) (hsub : s.cases ⊆ o.cases) : r = true :=
  Congruence.eq.subtype hs ho (fun c hc => ⟨c, hsub hc, rfl⟩) hr

/-- The first supertype of a type is the type itself. -/
theorem Answers.search_self {t : Applied} {path : List DeclId} {r : Option Applied}
    (hr : h.Answers (.search t t.decl path) r) : r = some t := by
  obtain ⟨depth, hdepth⟩ := hr
  exact Congruence.eq.answerWithin_decides h depth (.search t t.decl path) hdepth rfl

end Hierarchy

end Ceylon.Model
