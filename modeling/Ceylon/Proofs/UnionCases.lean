import Ceylon.Proofs.SupertypeSearch
import Ceylon.Proofs.UnionNormalForm

/-!
# Cases of a type

A known type is a subtype of another one exactly if all of its cases are, and a declared type is a subtype of a
union if it is one of some case (`Hierarchy.answers_subtype_iff_cases`, `Hierarchy.answers_subtype_iff`).  Types
are united by gathering their cases, and what has been gathered makes up the union (`Hierarchy.MakesUp`); so some
of the cases of a union make up a type again (`Hierarchy.unite_rest`).

A search that finds nothing has gone up all ways.  So it also settles what any other search from the same type
finds, unless there are instances to choose between (`Hierarchy.search_elsewhere`): a type that is not a
subtype of `Nothing` is not a subtype of any subclass of `Nothing` either.
-/

namespace Ceylon.Model

open Ceylon.Model.Algebra (allSubtypes anySupertype notCoveredBy argumentsConform)

namespace Hierarchy

variable {h : Hierarchy}

/-! ## Searches for other declarations -/

/-- Of two instances of one declaration one is chosen, if they can be compared. -/
theorem better_reaches_of_compare {n : Nat} {e : DeclId} {best found : Option Applied}
    (hbest : ∀ sup ∈ best, sup.decl = e) (hfound : ∀ sup ∈ found, sup.decl = e)
    (compare : found.isSome → ∀ x y : Applied, x.decl = e → y.decl = e →
      ∃ r, h.AnswersWithin n (.subtype (.applied x) (.applied y)) r) :
    (better best found).Reaches (h.AnswersWithin n) fun r => ∀ sup ∈ r, sup.decl = e := by
  match best, found with
  | none, none => exact nofun
  | some _, none => exact hbest
  | none, some _ => exact hfound
  | some y, some x =>
    obtain ⟨r, hr⟩ := compare rfl x y (hfound x rfl) (hbest y rfl)
    refine ⟨r, hr, ?_⟩
    cases r with
    | true => exact hfound
    | false => exact hbest

theorem searchSupertypes_elsewhere {n : Nat} {t : Applied} {b : Bindings} {d e : DeclId} {path : List DeclId}
    {sts : List Applied}
    (elsewhere : ∀ st ∈ sts, ∀ st' : Applied, st'.decl = st.decl →
      h.AnswersWithin n (.search st' d (t.decl :: path)) none →
      ∃ found, h.AnswersWithin (n + 2) (.search st' e (t.decl :: path)) found)
    (compare : ∀ st ∈ sts, h.Leads (t.decl :: path) st.decl e → ∀ x y : Applied, x.decl = e → y.decl = e →
      ∃ r, h.AnswersWithin 2 (.subtype (.applied x) (.applied y)) r)
    (hnone : (searchSupertypes t b d path none sts).Reaches (h.AnswersWithin n) (· = none))
    (hsts : ∀ st ∈ sts, ¬ h.Leads (t.decl :: path) st.decl d)
    {best : Option Applied} (hbest : ∀ sup ∈ best, sup.decl = e) :
    (searchSupertypes t b e path best sts).Reaches (h.AnswersWithin (n + 2)) fun _ => True := by
  induction sts generalizing best with
  | nil => trivial
  | cons st sts ih =>
    obtain ⟨hst, hrest⟩ := List.forall_mem_cons.mp hsts
    have exact_ := h.answerWithin_exact n
    have hdecl := (substituteArgs_explores (h := h) b st).of_right exact_
    refine ((hnone.of_bind.ensures hdecl).of_ok fun q r => h.answerWithin_mono (by omega)).bind ?_
    rintro st' ⟨⟨found, hfound, hnext⟩, hst'⟩
    -- The first search has found nothing here, so it goes on with nothing.
    obtain rfl : found = none := (exact_ (.search st' d (t.decl :: path)) hfound).1.mpr (hst' ▸ hst)
    obtain ⟨found', hfound'⟩ := elsewhere st List.mem_cons_self st' hst' hfound
    have hexact := h.answerWithin_exact (n + 2) (.search st' e (t.decl :: path)) hfound'
    refine ⟨found', hfound', ?_⟩
    have hbetter := better_reaches_of_compare (h := h) (n := n + 2) hbest hexact.2 fun hsome x y hx hy => by
      have hleads : h.Leads (t.decl :: path) st.decl e := by
        by_contra hno
        rw [hexact.1.mpr (hst' ▸ hno)] at hsome
        cases hsome
      obtain ⟨r, hr⟩ := compare st List.mem_cons_self hleads x y hx hy
      exact ⟨r, h.answerWithin_mono (by omega) hr⟩
    refine hbetter.bind fun best' hbest' => ?_
    exact ih (fun st hst => elsewhere st (List.mem_cons_of_mem _ hst))
      (fun st hst => compare st (List.mem_cons_of_mem _ hst)) hnext hrest hbest'

/-- If a search finds nothing, then so is any other search from there answered, as long as what it may find
can be compared. -/
theorem search_elsewhere {n : Nat} {t : Applied} {d e : DeclId} {path : List DeclId}
    (hnone : h.AnswersWithin n (.search t d path) none)
    (compare : h.Leads path t.decl e → ∀ x y : Applied, x.decl = e → y.decl = e →
      ∃ r, h.AnswersWithin 2 (.subtype (.applied x) (.applied y)) r) :
    ∃ found, h.AnswersWithin (n + 2) (.search t e path) found := by
  -- On the length of the search for `d`, which has come by every supertype without meeting `d`; the search for
  -- `e` comes by no more.
  induction n generalizing t path with
  | zero => cases hnone
  | succ n ih =>
    have hno : ¬ h.Leads path t.decl d := (h.answerWithin_exact _ (.search t d path) hnone).1.mp rfl
    rw [answersWithin_succ_iff] at hnone
    suffices (h.searchStep t e path).Reaches (h.AnswersWithin (n + 2)) fun _ => True from
      (answersWithin_of_reaches this).imp fun _ => And.left
    simp only [step, searchStep] at hnone ⊢
    split
    · trivial
    · next hne =>
      split
      · trivial
      · next hpath =>
        have hpath' : t.decl ∉ path := fun hmem => hpath (List.contains_iff_mem.mpr hmem)
        have hne' : t.decl ≠ d := fun heq => hno (heq ▸ .refl)
        rw [if_neg hne', if_neg hpath] at hnone
        have up : ∀ st ∈ h.supertypes t.decl, h.Leads (t.decl :: path) st.decl e → h.Leads path t.decl e :=
          fun st hst hway => (leads_iff_of_ne hne hpath').mpr ⟨st, hst, hway⟩
        have hsts : ∀ st ∈ h.supertypes t.decl, ¬ h.Leads (t.decl :: path) st.decl d :=
          fun st hst hway => hno ((leads_iff_of_ne hne' hpath').mpr ⟨st, hst, hway⟩)
        refine searchSupertypes_elsewhere (fun st hst st' hst' hfound => ?_)
          (fun st hst hway => compare (up st hst hway)) hnone hsts (by simp)
        exact ih hfound fun hway => compare (up st hst (hst' ▸ hway))

/-! ## Cases of a type -/

/-- A declared type is a subtype of a type exactly if it is one of the first case that decides it. -/
theorem answers_subtype_iff {c : Applied} (proper : h.isBottom c.decl = false) {o : Ty} :
    h.Answers (.subtype (.applied c) o) true ↔ (anySupertype c o.cases).Reaches h.Answers (· = true) := by
  cases o with
  | unknown =>
    rw [answers_iff_reaches]
    exact Iff.rfl
  | union cases extended =>
    rw [answers_iff_reaches]
    simp [step, subtypeStep, proper, Ty.cases]
  | applied o =>
    constructor
    · exact fun hcov => ⟨true, hcov, rfl⟩
    · rintro ⟨r, hr, hnext⟩
      cases r with
      | true => exact hr
      | false => cases hnext

theorem allSubtypes_reaches_true {ok : (q : Query) → q.Answer → Prop} {o : Ty} {cases : List Applied} :
    (allSubtypes o cases).Reaches ok (· = true) ↔ ∀ c ∈ cases, ok (.subtype (.applied c) o) true := by
  induction cases with
  | nil => exact ⟨fun _ => List.forall_mem_nil _, fun _ => rfl⟩
  | cons c cs ih =>
    rw [List.forall_mem_cons, ← ih]
    constructor
    · rintro ⟨r, hr, hnext⟩
      cases r with
      | true => exact ⟨hr, hnext⟩
      | false => cases hnext
    · rintro ⟨hc, hcs⟩
      exact ⟨true, hc, hcs⟩

/-- A type is a subtype of a known one exactly if it is known and all of its cases are subtypes. -/
theorem answers_subtype_iff_cases {t o : Ty} (ho : o.isKnown) :
    h.Answers (.subtype t o) true ↔
      t.isKnown ∧ ∀ c ∈ t.cases, h.Answers (.subtype (.applied c) o) true := by
  cases t with
  | unknown =>
    rw [answers_iff_reaches]
    exact ⟨nofun, fun ht => nomatch ht.1⟩
  | applied a => simp [Ty.isKnown, Ty.cases]
  | union cases extended =>
    rw [answers_iff_reaches]
    cases o with
    | unknown => cases ho
    | applied o => exact allSubtypes_reaches_true.trans ⟨fun hall => ⟨rfl, hall⟩, And.right⟩
    | union os above => exact allSubtypes_reaches_true.trans ⟨fun hall => ⟨rfl, hall⟩, And.right⟩

/-- A type is a subtype of a declaration without type parameters exactly if the search for it finds
something. -/
theorem answersWithin_subtype_plain {n : Nat} {c y : Applied} (proper : h.isBottom c.decl = false)
    (hparams : h.params y.decl = []) {r : Bool} :
    h.AnswersWithin (n + 1) (.subtype (.applied c) (.applied y)) r ↔
      ∃ found, h.AnswersWithin n (.search c y.decl []) found ∧ r = found.isSome := by
  have conform : ∀ ss os : List Ty, argumentsConform [] ss os = .done true := by
    intro ss os
    cases ss <;> rfl
  have step : h.step (.subtype (.applied c) (.applied y)) =
      .ask (.search c y.decl []) fun found => .done found.isSome := by
    simp only [step, subtypeStep, proper, hparams, List.map_nil]
    refine congrArg (Dialogue.ask _) (funext fun found => ?_)
    cases found with
    | none => rfl
    | some sup => exact conform sup.args y.args
  rw [answersWithin_succ_iff, step]
  simp only [Dialogue.Reaches, eq_comm]

/-- Instances of a declaration without type parameters are subtypes of each other. -/
theorem answersWithin_subtype_same {d : DeclId} (proper : h.isBottom d = false) (hparams : h.params d = [])
    {x y : Applied} (hx : x.decl = d) (hy : y.decl = d) :
    h.AnswersWithin 2 (.subtype (.applied x) (.applied y)) true := by
  subst hy
  exact (answersWithin_subtype_plain (hx ▸ proper) hparams).mpr ⟨some x, hx ▸ answersWithin_search_self x [], rfl⟩

/-- The bottom type is a subtype of every known type. -/
theorem answers_subtype_of_bottom {c : Applied} {o : Ty} (ho : o.isKnown) (hbottom : h.isBottom c.decl) :
    h.Answers (.subtype (.applied c) o) true := by
  rw [answers_iff_reaches]
  cases o with
  | unknown => cases ho
  | applied | union =>
    simp only [step, subtypeStep, hbottom]
    exact rfl

/-- A declared type leads up to the declarations of its declared supertypes. -/
theorem Answers.ascends {c o : Applied} (proper : h.isBottom c.decl = false)
    (hco : h.Answers (.subtype (.applied c) (.applied o)) true) : h.Ascends c.decl o.decl := by
  rw [answers_iff_reaches] at hco
  simp only [step, subtypeStep, proper] at hco
  obtain ⟨found, hfound, hnext⟩ := hco
  by_contra hno
  obtain rfl := hfound.search_exact.1.mpr hno
  cases hnext

/-- A declared type is no subtype of a declaration that it does not lead up to. -/
theorem answers_subtype_false {c o : Applied} (proper : h.isBottom c.decl = false)
    (hnone : h.Answers (.search c o.decl []) none) :
    h.Answers (.subtype (.applied c) (.applied o)) false := by
  rw [answers_iff_reaches]
  simp only [step, subtypeStep, proper]
  exact ⟨none, hnone, rfl⟩

/-- If a search for what covers one type has found nothing, then that type is no supertype either. -/
theorem answers_subtype_false_of_covered {c r o : Applied} (proper : h.isBottom c.decl = false)
    (hnone : h.Answers (.search c o.decl []) none) (proper' : h.isBottom r.decl = false)
    (hro : h.Answers (.subtype (.applied r) (.applied o)) true) :
    h.Answers (.subtype (.applied c) (.applied r)) false := by
  have hno : ¬ h.Ascends c.decl r.decl := fun hway =>
    hnone.search_exact.1.mp rfl (hway.trans (hro.ascends proper'))
  obtain ⟨n, hn⟩ := hnone
  obtain ⟨found, hfound⟩ := search_elsewhere hn fun hway => absurd (leads_nil_iff.mp hway) hno
  obtain rfl := (Answers.search_exact ⟨_, hfound⟩).1.mpr hno
  exact answers_subtype_false proper ⟨_, hfound⟩

theorem exists_of_anySupertype {ok : (q : Query) → q.Answer → Prop} {t : Applied} {cases : List Applied}
    (hany : (anySupertype t cases).Reaches ok (· = true)) :
    ∃ c ∈ cases, ok (.subtype (.applied t) (.applied c)) true := by
  induction cases with
  | nil => cases hany
  | cons c cs ih =>
    obtain ⟨r, hr, hnext⟩ := hany
    cases r with
    | true => exact ⟨c, List.mem_cons_self, hr⟩
    | false =>
      obtain ⟨c', hc', hcov⟩ := ih hnext
      exact ⟨c', List.mem_cons_of_mem c hc', hcov⟩

/-- A case that covers a type is still found among more cases if the other ones are known not to cover it. -/
theorem anySupertype_reaches_of_filter {ok : (q : Query) → q.Answer → Prop} {t : Applied} {cases : List Applied}
    {keep : Applied → Bool} (hany : (anySupertype t (cases.filter keep)).Reaches ok (· = true))
    (hdropped : ∀ c ∈ cases, keep c = false → ok (.subtype (.applied t) (.applied c)) false) :
    (anySupertype t cases).Reaches ok (· = true) := by
  induction cases with
  | nil => cases hany
  | cons c cs ih =>
    obtain ⟨hc, hcs⟩ := List.forall_mem_cons.mp hdropped
    cases hkeep : keep c with
    | false =>
      rw [List.filter_cons_of_neg (by simp [hkeep])] at hany
      exact ⟨false, hc hkeep, ih hany hcs⟩
    | true =>
      rw [List.filter_cons_of_pos hkeep] at hany
      obtain ⟨r, hr, hnext⟩ := hany
      cases r with
      | true => exact ⟨true, hr, rfl⟩
      | false => exact ⟨false, hr, ih hnext hcs⟩

/-- Bottom types add nothing. -/
theorem addCases_bottom {cases ts : List Applied} (hts : ∀ t ∈ ts, h.isBottom t.decl) :
    h.addCases cases ts = pure cases := by
  induction ts with
  | nil => rfl
  | cons t ts ih =>
    obtain ⟨ht, hts⟩ := List.forall_mem_cons.mp hts
    rw [addCases, addCase, if_pos ht]
    exact ih hts

/-- How gathered cases make up a type. -/
inductive MakesUp (h : Hierarchy) (ok : (q : Query) → q.Answer → Prop) : List Applied → Ty → Prop
  | unknown : MakesUp h ok [] .unknown
  | bottom {t : Ty} (ht : h.isBottomType t) : MakesUp h ok [] t
  | single (c : Applied) : MakesUp h ok [c] (.applied c)
  | union {first second : Applied} {rest : List Applied} {extended : Option Applied}
    (hextended : ok (.superclass (first :: second :: rest) first []) extended) :
    MakesUp h ok (first :: second :: rest) (.union (first :: second :: rest) extended)

/-- The type that gathered cases make up has these cases, unless there are none. -/
theorem MakesUp.cases_eq {ok : (q : Query) → q.Answer → Prop} {cases : List Applied} {t : Ty}
    (ht : h.MakesUp ok cases t) : t.cases = cases ∨ cases = [] ∧ ∀ c ∈ t.cases, h.isBottom c.decl := by
  cases ht with
  | unknown | single | union => exact .inl rfl
  | bottom hbottom =>
    refine .inr ⟨rfl, fun c hc => ?_⟩
    cases t with
    | applied a => exact List.mem_singleton.mp hc ▸ hbottom
    | unknown | union => cases hbottom

theorem uniteStep_reaches {ok : (q : Query) → q.Answer → Prop} {ts : List Ty} {u : Ty}
    (hu : (h.uniteStep ts).Reaches ok (· = u)) :
    ∃ cases, (h.addCases [] (ts.flatMap Ty.cases)).Reaches ok (· = cases) ∧ h.NormalFor ok cases ∧
      (∀ c ∈ u.cases, c ∈ ts.flatMap Ty.cases) ∧ h.MakesUp ok cases u := by
  obtain ⟨cases, hcases, hrest, normal, hmem⟩ := (hu.of_bind.ensures (addCases_ensures normalFor_nil _)).result
  replace hmem : ∀ c ∈ cases, c ∈ ts.flatMap Ty.cases := fun c hc => (hmem c hc).resolve_left List.not_mem_nil
  refine ⟨cases, hcases, normal, ?_⟩
  -- No case, one case and several cases make up different types.
  match cases with
  | [] =>
    cases hfind : ts.find? h.isBottomType with
    | none =>
      rw [hfind] at hrest
      obtain rfl : u = .unknown := Eq.symm hrest
      exact ⟨List.forall_mem_nil _, .unknown⟩
    | some t =>
      rw [hfind] at hrest
      obtain rfl : u = t := Eq.symm hrest
      exact ⟨fun c hc => List.mem_flatMap.mpr ⟨u, List.mem_of_find?_eq_some hfind, hc⟩,
        .bottom (List.find?_some hfind)⟩
  | [t] =>
    obtain rfl : u = .applied t := Eq.symm hrest
    exact ⟨hmem, .single t⟩
  | first :: second :: rest =>
    obtain ⟨extended, hextended, heq⟩ := hrest
    obtain rfl : u = .union (first :: second :: rest) extended := Eq.symm heq
    exact ⟨hmem, .union hextended⟩

/-- What the union of types is made of. -/
theorem Answers.of_unite {ts : List Ty} {u : Ty} (hu : h.Answers (.unite ts) u) :
    ∃ cases, (h.addCases [] (ts.flatMap Ty.cases)).Reaches h.Answers (· = cases) ∧ h.Normal cases ∧
      (∀ c ∈ u.cases, c ∈ ts.flatMap Ty.cases) ∧
      (u.cases = cases ∨ cases = [] ∧ ∀ c ∈ u.cases, h.isBottom c.decl) := by
  obtain ⟨cases, hcases, normal, hmem, hmakes⟩ := uniteStep_reaches (answers_iff_reaches.mp hu)
  exact ⟨cases, hcases, normalFor_answers.mp normal, hmem, hmakes.cases_eq⟩

/-- Cases in normal form are united to what they make up. -/
theorem reaches_of_makesUp {ok : (q : Query) → q.Answer → Prop} {ts : List Ty} {cases : List Applied} {t : Ty}
    (hts : ts.flatMap Ty.cases = cases) (normal : h.NormalFor ok cases) (hne : cases ≠ [])
    (ht : h.MakesUp ok cases t) : (h.uniteStep ts).Reaches ok (· = t) := by
  have hcases : (h.addCases [] (ts.flatMap Ty.cases)).Reaches ok (· = cases) := by
    rw [hts]
    exact addCases_nil_reaches normal
  refine hcases.bind ?_
  rintro _ rfl
  cases ht with
  | unknown | bottom => exact absurd rfl hne
  | single c => exact rfl
  | union hextended => exact ⟨_, hextended, rfl⟩

/-- A union that types are united to has two cases or more, and they are in normal form. -/
theorem Answers.union_cases {ts : List Ty} {cases : List Applied} {extended : Option Applied}
    (hu : h.Answers (.unite ts) (.union cases extended)) :
    (∃ first second rest, cases = first :: second :: rest) ∧ h.Normal cases ∧
      ∀ c ∈ cases, c ∈ ts.flatMap Ty.cases := by
  obtain ⟨cases', -, normal, hmem, hmakes⟩ := uniteStep_reaches (answers_iff_reaches.mp hu)
  cases hmakes with
  | bottom hbottom => cases hbottom
  | union => exact ⟨⟨_, _, _, rfl⟩, normalFor_answers.mp normal, hmem⟩

/-- A union is what its cases are united to. -/
theorem Answers.unite_again {ts : List Ty} {cases : List Applied} {extended : Option Applied}
    (hu : h.Answers (.unite ts) (.union cases extended)) :
    h.Answers (.unite (cases.map .applied)) (.union cases extended) := by
  obtain ⟨cases', -, normal, -, hmakes⟩ := uniteStep_reaches (answers_iff_reaches.mp hu)
  have hflat : (cases.map Ty.applied).flatMap Ty.cases = cases := by simp [List.flatMap_map, Ty.cases]
  cases hmakes with
  | bottom hbottom => cases hbottom
  | union hextended =>
    exact answers_iff_reaches.mpr (reaches_of_makesUp hflat normal (List.cons_ne_nil _ _) (.union hextended))

/-- Some of the cases of a union make up a type again.  It has these cases, and it is there exactly if there is
but one of them or the class that they extend is. -/
theorem unite_rest {ts : List Ty} {cases rest : List Applied} {extended : Option Applied}
    (hu : h.Answers (.unite ts) (.union cases extended)) (hsub : rest.Sublist cases) (hne : rest ≠ []) :
    (∀ u : Ty, h.Answers (.unite (rest.map .applied)) u → u.isKnown ∧ u.cases = rest) ∧
      (h.Finishes (.unite (rest.map .applied)) ↔
        ∀ first second more, rest = first :: second :: more → h.Finishes (.superclass rest first [])) := by
  have normal : h.NormalFor h.Answers rest := by
    obtain ⟨-, whole, -⟩ := hu.union_cases
    exact ⟨fun c hc => whole.proper c (hsub.subset hc), whole.antichain.sublist hsub⟩
  have hflat : (rest.map Ty.applied).flatMap Ty.cases = rest := by simp [List.flatMap_map, Ty.cases]
  -- a part of a normal form is one too, so uniting it leaves it as it is
  have makes : ∀ u : Ty, h.Answers (.unite (rest.map .applied)) u → h.MakesUp h.Answers rest u := by
    intro u hu
    obtain ⟨cases, hgathered, -, -, hmakes⟩ := uniteStep_reaches (answers_iff_reaches.mp hu)
    have hsame := yields_of_reaches (addCases_nil_reaches normal)
    rw [hflat] at hgathered
    obtain ⟨_, -, rfl, rfl⟩ := (hgathered.ensures hsame).result
    exact hmakes
  refine ⟨fun u hu => ?_, ?_, fun hextended => ?_⟩
  · cases makes u hu with
    | unknown | bottom => exact absurd rfl hne
    | single | union => exact ⟨rfl, rfl⟩
  · rintro ⟨u, hu⟩ first second more rfl
    cases makes u hu with
    | union hextended => exact ⟨_, hextended⟩
  · rcases rest with _ | ⟨first, _ | ⟨second, more⟩⟩
    · exact absurd rfl hne
    · exact ⟨_, answers_iff_reaches.mpr (reaches_of_makesUp hflat normal hne (.single first))⟩
    · obtain ⟨extended, hextended⟩ := hextended first second more rfl
      exact ⟨_, answers_iff_reaches.mpr (reaches_of_makesUp hflat normal hne (.union hextended))⟩

theorem searchAll_answered {ok : (q : Query) → q.Answer → Prop} {d : DeclId} {cases : List Applied}
    (hcases : ∀ c ∈ cases, ∃ found, ok (.search c d []) found) :
    (Algebra.searchAll d cases).Reaches ok fun _ => True := by
  induction cases with
  | nil => trivial
  | cons c cs ih =>
    obtain ⟨⟨found, hfound⟩, hcs⟩ := List.forall_mem_cons.mp hcases
    refine ⟨found, hfound, ?_⟩
    cases found with
    | none => trivial
    | some sup => exact (ih hcs).bind fun _ _ => trivial

/-- Whether cases have a declaration without type parameters in common is answered if the searches for it
are. -/
theorem common_answered {n : Nat} {d : DeclId} (hparams : h.params d = []) {cases : List Applied}
    (hcases : ∀ c ∈ cases, ∃ found, h.AnswersWithin n (.search c d []) found) :
    ∃ common, h.AnswersWithin (n + 1) (.common cases d) common := by
  suffices (h.commonStep cases d).Reaches (h.AnswersWithin n) fun _ => True from
    (answersWithin_of_reaches this).imp fun _ => And.left
  refine (searchAll_answered hcases).bind fun sups _ => ?_
  match sups with
  | none | some [] => trivial
  | some (sup :: sups) =>
    rw [hparams]
    trivial

theorem commonClass_reaches {n : Nat} {d : DeclId} {cases : List Applied}
    (hcommon : ∃ common, h.AnswersWithin n (.common cases d) common) :
    (h.commonClass cases d).Reaches (h.AnswersWithin n) fun _ => True := by
  obtain ⟨common, hcommon⟩ := hcommon
  unfold commonClass
  split
  · exact ⟨common, hcommon, trivial⟩
  · trivial

end Hierarchy

end Ceylon.Model
