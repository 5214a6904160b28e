import Ceylon.Proofs.Inheritance
import Ceylon.Proofs.TypeEquality

/-!
# Searching supertypes

The search for a supertype that applies a given declaration goes up all ways on which no declaration comes
twice, and substitutes arguments on its way.  Whatever they are, and however often it comes by one
declaration, it finds something exactly if the declaration can be reached at all, and what it finds applies
that declaration (`Hierarchy.Answers.search_exact`).

What is found is a supertype in the sense of subtyping, too: to compare a type with what was found for it
is to search again and to compare arguments with themselves.  Each of these is its own subtype, if that
question is answered.  It is for arguments without unions (`Hierarchy.finishes_of_unionFree`), but a union is
compared case by case, and the question whether one case is a subtype of another may have no answer, though
the search had one (`Graph.staleUnion_not_answered`).
-/

namespace Ceylon.Model

namespace Hierarchy

open Ceylon.Model.Algebra (argumentConforms argumentsConform)
open Syntax (Variance)

variable {h : Hierarchy}

/-! ## Ways up -/

/-- A declaration is reached from another one through the types that declarations extend and satisfy. -/
def Ascends (h : Hierarchy) : DeclId → DeclId → Prop :=
  Relation.ReflTransGen fun d e => ∃ st ∈ h.supertypes d, st.decl = e

theorem leads_nil_iff {d e : DeclId} : h.Leads [] d e ↔ h.Ascends d e := by
  have step : h.Enters [] = fun d e => ∃ st ∈ h.supertypes d, st.decl = e := by
    funext d e
    simp [Enters]
  rw [Leads, step, Ascends]

/-- A way that avoids more declarations avoids fewer. -/
theorem Leads.of_cons {path : List DeclId} {x d e : DeclId} (hway : h.Leads (x :: path) d e) :
    h.Leads path d e :=
  hway.lift id fun _ _ ⟨hpath, hst⟩ => ⟨fun hmem => hpath (List.mem_cons_of_mem x hmem), hst⟩

/-- From a declaration that has not been passed, other ones are reached through its supertypes. -/
theorem leads_iff_of_ne {path : List DeclId} {d e : DeclId} (hne : d ≠ e) (hpath : d ∉ path) :
    h.Leads path d e ↔ ∃ st ∈ h.supertypes d, h.Leads (d :: path) st.decl e := by
  constructor
  · exact fun hway => (leads_avoiding hway hne).2
  · rintro ⟨st, hst, hway⟩
    exact .head ⟨hpath, st, hst, rfl⟩ hway.of_cons

/-! ## What a search finds -/

/-- What is known of the answer to a search. -/
def Exact (h : Hierarchy) : (q : Query) → q.Answer → Prop
  | .search t d path, r => (r = none ↔ ¬ h.Leads path t.decl d) ∧ ∀ sup ∈ r, sup.decl = d
  | _, _ => True

/-- A computation comes to results with the property as long as searches are exact. -/
abbrev Explores (h : Hierarchy) {α : Type} (m : Algebra α) (P : α → Prop) : Prop :=
  m.Ensures (fun _ => True) h.Exact P

theorem substituteArgs_explores (b : Bindings) (t : Applied) :
    h.Explores (Algebra.substituteArgs b t) fun t' => t'.decl = t.decl := by
  unfold Algebra.substituteArgs
  split
  · exact rfl
  · exact (Dialogue.Ensures.trivial _).bind fun _ _ => rfl

/-- Of two supertypes one is chosen, if there is one. -/
theorem better_explores (best found : Option Applied) :
    h.Explores (better best found) fun r =>
      (r = none ↔ best = none ∧ found = none) ∧ ∀ sup ∈ r, sup ∈ best ∨ sup ∈ found := by
  match best, found with
  | none, none => exact ⟨by simp, nofun⟩
  | some _, none => exact ⟨by simp, fun _ hsup => .inl hsup⟩
  | none, some _ => exact ⟨by simp, fun _ hsup => .inr hsup⟩
  | some _, some _ =>
    refine ⟨.intro, fun covered _ => ?_⟩
    cases covered with
    | true => exact ⟨by simp, fun _ hsup => .inr hsup⟩
    | false => exact ⟨by simp, fun _ hsup => .inl hsup⟩

theorem searchSupertypes_explores (t : Applied) (b : Bindings) (d : DeclId) (path : List DeclId)
    {best : Option Applied} (hbest : ∀ sup ∈ best, sup.decl = d) (sts : List Applied) :
    h.Explores (searchSupertypes t b d path best sts) fun r =>
      (r = none ↔ best = none ∧ ∀ st ∈ sts, ¬ h.Leads (t.decl :: path) st.decl d) ∧
        ∀ sup ∈ r, sup.decl = d := by
  induction sts generalizing best with
  | nil => exact ⟨by simp, hbest⟩
  | cons st sts ih =>
    refine (substituteArgs_explores b st).bind fun st' hst' => ?_
    refine ⟨.intro, fun found ⟨hnone, hfound⟩ => ?_⟩
    refine (better_explores best found).bind fun best' ⟨hnone', hbest'⟩ => ?_
    have hdecl : ∀ sup ∈ best', sup.decl = d := fun sup hsup =>
      (hbest' sup hsup).elim (hbest sup) (hfound sup)
    refine (ih hdecl).mono fun r ⟨hr, hsup⟩ => ⟨?_, hsup⟩
    rw [hr, hnone', hnone, hst', List.forall_mem_cons, and_assoc]

theorem searchStep_explores (t : Applied) (d : DeclId) (path : List DeclId) :
    h.Explores (h.searchStep t d path) fun r =>
      (r = none ↔ ¬ h.Leads path t.decl d) ∧ ∀ sup ∈ r, sup.decl = d := by
  unfold searchStep
  split
  · next heq =>
    refine ⟨⟨nofun, fun hway => absurd (heq ▸ .refl) hway⟩, ?_⟩
    rintro _ ⟨⟩
    exact heq
  · next hne =>
    split
    · next hpath =>
      refine ⟨⟨fun _ hway => ?_, fun _ => rfl⟩, nofun⟩
      exact (leads_avoiding hway hne).1 (List.contains_iff_mem.mp hpath)
    · next hpath =>
      -- The search goes on above a declaration that has not come up on the way.
      have hpath' : t.decl ∉ path := fun hmem => hpath (List.contains_iff_mem.mpr hmem)
      have hbest : ∀ sup ∈ (none : Option Applied), sup.decl = d := nofun
      refine (searchSupertypes_explores t _ d path hbest _).mono fun r ⟨hr, hsup⟩ => ⟨?_, hsup⟩
      rw [hr, leads_iff_of_ne hne hpath']
      simp

theorem answerWithin_exact (h : Hierarchy) (depth : Nat) (q : Query) {r : q.Answer}
    (hr : h.answerWithin depth q = some r) : h.Exact q r := by
  induction depth generalizing q with
  | zero => cases hr
  | succ depth ih =>
    cases q with
    | search t d path => exact (searchStep_explores t d path).of_run (fun q _ _ hq => ih q hq) hr
    | _ => trivial

/-- A search finds nothing exactly if the declaration cannot be reached, and what it finds applies the
declaration. -/
theorem Answers.search_exact {t : Applied} {d : DeclId} {found : Option Applied}
    (hfound : h.Answers (.search t d []) found) :
    (found = none ↔ ¬ h.Ascends t.decl d) ∧ ∀ sup ∈ found, sup.decl = d := by
  obtain ⟨depth, hdepth⟩ := hfound
  rw [← leads_nil_iff]
  exact h.answerWithin_exact depth (.search t d []) hdepth

/-! ## What is found is a supertype -/

/-- Comparing a type with what a search has found for it comes to `true`, if anything. -/
theorem subtypeStep_found {t sup : Applied} (hfound : h.Answers (.search t sup.decl []) (some sup)) :
    (h.subtypeStep (.applied t) (.applied sup)).Ensures (fun _ => True) h.Answers (· = true) := by
  simp only [subtypeStep]
  split
  · exact rfl
  · refine ⟨.intro, fun r hr => ?_⟩
    obtain rfl := hr.unique hfound
    have related := (Congruence.eq.args (rfl : sup = sup))
    refine (Congruence.argumentsConform_settles _ related).of_right fun q r hanswers => ?_
    obtain ⟨depth, hdepth⟩ := hanswers
    exact Congruence.eq.answerWithin_decides h depth q hdepth

theorem argumentsConform_reaches_true (variances : List Variance) {args : List Ty}
    (hargs : ∀ a ∈ args, a.isKnown → h.Finishes (.subtype a a)) :
    (argumentsConform variances args args).Reaches h.Answers (· = true) := by
  induction args generalizing variances with
  | nil => cases variances <;> exact rfl
  | cons a as ih =>
    cases variances with
    | nil => exact rfl
    | cons v vs =>
      obtain ⟨ha, has⟩ := List.forall_mem_cons.mp hargs
      -- An argument conforms to itself whatever the variance, and whether it is known or not.
      have one : (argumentConforms v a a).Reaches h.Answers (· = true) := by
        unfold argumentConforms
        split
        · exact rfl
        · next hknown =>
          have known : a.isKnown = true := by simpa using hknown
          obtain ⟨r, hr⟩ := ha known
          obtain rfl := hr.of_subset known known (List.Subset.refl _)
          cases v with
          | covariant => exact ⟨true, hr, rfl⟩
          | contravariant => exact ⟨true, hr, rfl⟩
          | invariant => exact ⟨true, hr, true, hr, rfl⟩
      refine one.bind ?_
      rintro _ rfl
      exact ih vs has

/-- A type is a subtype of what a search has found for it, if arguments can be compared with themselves. -/
theorem answers_subtype_found {t sup : Applied} (hfound : h.Answers (.search t sup.decl []) (some sup))
    (hargs : ∀ a ∈ sup.args, a.isKnown → h.Finishes (.subtype a a)) :
    h.Answers (.subtype (.applied t) (.applied sup)) true := by
  refine answers_iff_reaches.mpr ?_
  simp only [step, subtypeStep]
  split
  · exact rfl
  · exact ⟨some sup, hfound, argumentsConform_reaches_true _ hargs⟩

/-- A search for the declaration of the type is answered at once. -/
theorem answersWithin_search_self (t : Applied) (path : List DeclId) :
    h.AnswersWithin 1 (.search t t.decl path) (some t) :=
  answersWithin_succ_iff.mpr (by simp [step, searchStep, Dialogue.Reaches])

theorem answers_search_self (t : Applied) (path : List DeclId) :
    h.Answers (.search t t.decl path) (some t) :=
  ⟨1, answersWithin_search_self t path⟩

/-- A type without unions can be compared with itself. -/
theorem finishes_of_unionFree (h : Hierarchy) {t : Ty} (ht : t.EveryUnion fun _ _ => False) :
    h.Finishes (.subtype t t) := by
  induction ht with
  | unknown => exact ⟨false, answers_iff_reaches.mpr rfl⟩
  | applied _ ih => exact ⟨true, answers_subtype_found (answers_search_self _ _) fun a ha _ => ih a ha⟩
  | union here => exact here.elim

/-- Over any hierarchy, subtyping is reflexive wherever it is answered; and a search that is answered finds
nothing exactly if the declaration cannot be reached, while otherwise it finds a type that applies the
declaration and of which the type is a subtype, wherever that question is answered.  It is if each argument
of what was found has no unions, or can be compared with itself. -/
theorem supertype_search_exact (h : Hierarchy) :
    (∀ t : Ty, t.isKnown → ∀ r, h.Answers (.subtype t t) r → r = true) ∧
      ∀ (t : Applied) (d : DeclId) (found : Option Applied), h.Answers (.search t d []) found →
        (found = none ↔ ¬ h.Ascends t.decl d) ∧
          ∀ sup, found = some sup →
            sup.decl = d ∧
              (∀ r, h.Answers (.subtype (.applied t) (.applied sup)) r → r = true) ∧
              ((∀ a ∈ sup.args, (a.EveryUnion fun _ _ => False) ∨ h.Finishes (.subtype a a)) →
                h.Answers (.subtype (.applied t) (.applied sup)) true) := by
  refine ⟨fun t known r hr => hr.of_subset known known (List.Subset.refl _), fun t d found hfound => ?_⟩
  obtain ⟨hnone, hdecl⟩ := hfound.search_exact
  refine ⟨hnone, ?_⟩
  rintro sup rfl
  obtain rfl := hdecl sup rfl
  refine ⟨rfl, fun r hr => hr.of_ensures (subtypeStep_found hfound), fun hargs => ?_⟩
  exact answers_subtype_found hfound fun a ha _ => (hargs a ha).elim h.finishes_of_unionFree id

/-- The search finds that labels are a source of items, and that items are no source. -/
theorem supertype_search_exact_crates :
    let h := Graph.crates.hierarchy
    h.Answers (.search ⟨⟨5⟩, []⟩ ⟨1⟩ []) (some ⟨⟨1⟩, [.applied ⟨⟨0⟩, []⟩]⟩) ∧ h.Ascends ⟨5⟩ ⟨1⟩ ∧
      h.Answers (.subtype (.applied ⟨⟨5⟩, []⟩) (.applied ⟨⟨1⟩, [.applied ⟨⟨0⟩, []⟩]⟩)) true ∧
      h.Answers (.search ⟨⟨0⟩, []⟩ ⟨1⟩ []) none ∧ ¬ h.Ascends ⟨0⟩ ⟨1⟩ := by
  intro h
  have hfound : h.Answers (.search ⟨⟨5⟩, []⟩ ⟨1⟩ []) (some ⟨⟨1⟩, [.applied ⟨⟨0⟩, []⟩]⟩) := ⟨9, rfl⟩
  have hnone : h.Answers (.search ⟨⟨0⟩, []⟩ ⟨1⟩ []) none := ⟨9, rfl⟩
  obtain ⟨hascends, hsup⟩ := h.supertype_search_exact.2 _ _ _ hfound
  obtain ⟨-, -, hsubtype⟩ := hsup _ rfl
  have hreaches : h.Ascends ⟨5⟩ ⟨1⟩ := by
    by_contra hno
    cases hascends.mpr hno
  refine ⟨hfound, hreaches, hsubtype fun a ha => .inl ?_, hnone,
    ((h.supertype_search_exact.2 _ _ _ hnone).1).mp rfl⟩
  obtain rfl := List.mem_singleton.mp ha
  exact .applied (List.forall_mem_nil _)

/-! ## A search that is answered, with a comparison that is not -/

/-- What the rule of an answered question asks is answered. -/
theorem Finishes.of_asks {q q' : Query} (hq : h.Finishes q) (hask : h.Asks q q') : h.Finishes q' :=
  (h.finishes_iff_acc q').mpr (((h.finishes_iff_acc q).mp hq).inv hask)

/-- A question that asks itself is not answered. -/
theorem not_finishes_of_asks_self {q : Query} (hask : h.Asks q q) : ¬ h.Finishes q := fun hq =>
  (h.finishes_iff_no_endless_chain q).mp hq ⟨fun _ => q, rfl, fun _ => hask⟩

/-- Whether a `C` that satisfies `N<N<C>>` is an `N<C>` is never answered if the parameter of `N` is contravariant. -/
theorem not_finishes_of_nesting {c : Applied} {n z : DeclId} (proper : h.isBottom c.decl = false)
    (hparams : h.params n = [z]) (contravariant : h.variance z = .contravariant)
    (found : h.Answers (.search c n []) (some ⟨n, [.applied ⟨n, [.applied c]⟩]⟩)) :
    ¬ h.Finishes (.subtype (.applied c) (.applied ⟨n, [.applied c]⟩)) := by
  refine not_finishes_of_asks_self ?_
  unfold Asks
  simp only [step, subtypeStep, proper, hparams, List.map_cons, List.map_nil, contravariant]
  exact .inr ⟨_, found, .inl rfl⟩

end Hierarchy

namespace Graph

/-- `interface N<in Z> {}`, `interface S<T> {}`, `interface D satisfies S<N<C>|C> {}` and an interface `C`
that satisfies the given types. -/
def staleUnion (satisfied : List Applied) : Graph :=
  let declaration (name : String) (shape : Shape) : Declaration :=
    { name, scope := [], unit := none, node := none, shared := false, shape }
  let c : Applied := ⟨⟨5⟩, []⟩
  let cases : List Applied := [⟨⟨0⟩, [.applied c]⟩, c]
  { decls := #[
      declaration "N" (.ofInterface { params := [⟨1⟩] }),
      declaration "Z" (.typeParameter .contravariant {}),
      declaration "S" (.ofInterface { params := [⟨3⟩] }),
      declaration "T" (.typeParameter .invariant {}),
      declaration "D" (.ofInterface { satisfied := [⟨⟨2⟩, [.union cases none]⟩] }),
      declaration "C" (.ofInterface { satisfied })] }

/-- The union `N<C>|C` is what uniting gives as long as nothing is known of the supertypes of `C`.  If `C`
then comes to satisfy `N<N<C>>`, the search for the `S` that `D` is still finds `S<N<C>|C>`, but whether `D`
is a subtype of that is never answered: it asks whether `C` is an `N<C>`, and that asks itself. -/
theorem staleUnion_not_answered :
    let c : Applied := ⟨⟨5⟩, []⟩
    let nc : Applied := ⟨⟨0⟩, [.applied c]⟩
    let d : Applied := ⟨⟨4⟩, []⟩
    let sup : Applied := ⟨⟨2⟩, [.union [nc, c] none]⟩
    let h := (staleUnion [⟨⟨0⟩, [.applied nc]⟩]).hierarchy
    (staleUnion []).hierarchy.Answers (.unite [.applied nc, .applied c]) (.union [nc, c] none) ∧
      h.Answers (.search d ⟨2⟩ []) (some sup) ∧
      ¬ h.Finishes (.subtype (.applied d) (.applied sup)) := by
  intro c nc d sup h
  have hfound : h.Answers (.search d ⟨2⟩ []) (some sup) := ⟨3, rfl⟩
  refine ⟨⟨5, rfl⟩, hfound, fun hfinishes => ?_⟩
  have hunion : h.Finishes (.subtype (.union [nc, c] none) (.union [nc, c] none)) :=
    hfinishes.of_asks (.inr ⟨_, hfound, .inl rfl⟩)
  have hcase : h.Finishes (.subtype (.applied c) (.union [nc, c] none)) :=
    hunion.of_asks (.inr ⟨true, ⟨6, rfl⟩, .inl rfl⟩)
  have hself : h.Finishes (.subtype (.applied c) (.applied nc)) := hcase.of_asks (.inl rfl)
  have found : h.Answers (.search c ⟨0⟩ []) (some ⟨⟨0⟩, [.applied nc]⟩) := ⟨3, rfl⟩
  -- The question comes back to itself: `C` is compared with the `N<C>` by way of its own supertype.
  have self : h.Asks (.subtype (.applied c) (.applied nc)) (.subtype (.applied c) (.applied nc)) :=
    .inr ⟨_, found, .inl rfl⟩
  exact Hierarchy.not_finishes_of_asks_self self hself

end Graph

end Ceylon.Model
