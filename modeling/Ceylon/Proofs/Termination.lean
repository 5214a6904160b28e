import Mathlib.Order.OrderIsoNat
import Ceylon.Model.Graph
import Ceylon.Proofs.Answers

/-!
# When the questions of the type algebra are answered

A question of the type algebra need not have an answer: its rule may ask questions whose rules ask further
questions without end.  The first part says that this is the only way not to be answered: a question has an
answer at some depth exactly if it begins no endless chain of questions, each asked by the rule of the one
before.

The second part gives a condition on declarations under which there is no such chain: each argument in a
supertype is a type parameter or a declaration without type parameters of its own.  Then an argument of a
supertype is nested no deeper than the type it was found for, so that the comparison of arguments gets
shallower all the time.  A union needs more, because its arguments are united and the class that they extend
is looked for again: there, no class may come back to itself through the arguments of the classes it
extends.
-/

namespace Ceylon.Model

open Syntax (Variance)

namespace Hierarchy

/-! ## Chains of questions -/

/-- The rule of the first question asks the second one, once the questions before it are answered. -/
def Asks (h : Hierarchy) (q q' : Query) : Prop :=
  (h.step q).Poses h.Answers q'

/-- A question that has an answer only asks questions that are answered at a smaller depth. -/
theorem answered_of_poses {h : Hierarchy} {n : Nat} {α : Type} {d : Algebra α} {a : α}
    (hrun : d.run (h.answerWithin n) = some a) {q : Query} (hq : d.Poses h.Answers q) :
    ∃ r, h.answerWithin n q = some r := by
  induction d with
  | done b => exact hq.elim
  | ask q' next ih =>
    simp only [Dialogue.run, Option.bind_eq_bind, Option.bind_eq_some_iff] at hrun
    obtain ⟨r, hr, hnext⟩ := hrun
    rcases hq with rfl | ⟨r', hr', hq⟩
    · exact ⟨r, hr⟩
    · obtain rfl : r = r' := Answers.unique ⟨n, hr⟩ hr'
      exact ih r hnext hq

/-- A question has an answer exactly if the questions that lead on from it are well-founded. -/
theorem finishes_iff_acc (h : Hierarchy) (q : Query) :
    h.Finishes q ↔ Acc (fun q' q => h.Asks q q') q := by
  constructor
  · rintro ⟨a, n, hn⟩
    induction n generalizing q with
    | zero => cases hn
    | succ n ih =>
      refine ⟨_, fun q' hq' => ?_⟩
      obtain ⟨r, hr⟩ := answered_of_poses (d := h.step q) hn hq'
      exact ih q' r hr
  · intro hacc
    induction hacc with
    | intro q _ ih =>
      exact finishes_of_reaches (Dialogue.Reaches.of_poses (d := h.step q) ih)

/-- A question has an answer exactly if it begins no endless chain of questions. -/
theorem finishes_iff_no_endless_chain (h : Hierarchy) (q : Query) :
    h.Finishes q ↔ ¬ ∃ chain : Nat → Query, chain 0 = q ∧ ∀ i, h.Asks (chain i) (chain (i + 1)) := by
  rw [finishes_iff_acc, acc_iff_isEmpty_descending_chain]
  constructor
  · rintro ⟨empty⟩ ⟨chain, rfl, hchain⟩
    exact empty ⟨chain, rfl, hchain⟩
  · rintro none
    exact ⟨fun ⟨chain, hstart, hchain⟩ => none ⟨chain, hstart, hchain⟩⟩

/-! ## The weight of types -/

end Hierarchy

/-- How types are weighed. -/
structure Scale where
  /-- Whether a declaration has type parameters. -/
  isGeneric : DeclId → Bool
  /-- What a declaration without type parameters weighs. -/
  rank : DeclId → Nat
  /-- What is outweighed by each type with parameters. -/
  bound : Nat

mutual

/-- The weight of a type, which is that of its heaviest case. -/
def Ty.weight (w : Scale) : Ty → Nat
  | .unknown => 0
  | .applied a => a.weight w
  | .union cases _ => casesWeight w cases

/-- The weight of an application.  One with parameters outweighs its arguments. -/
def Applied.weight (w : Scale) : Applied → Nat
  | { decl, args } => if w.isGeneric decl then max w.bound (argsWeight w args) + 1 else w.rank decl

/-- The weight of the heaviest of several arguments. -/
def argsWeight (w : Scale) : List Ty → Nat
  | [] => 0
  | a :: as => max (a.weight w) (argsWeight w as)

/-- The weight of the heaviest of several cases. -/
def casesWeight (w : Scale) : List Applied → Nat
  | [] => 0
  | a :: as => max (a.weight w) (casesWeight w as)

end

variable {w : Scale}

theorem weight_le_argsWeight {args : List Ty} {a : Ty} (ha : a ∈ args) :
    a.weight w ≤ argsWeight w args := by
  induction args with
  | nil => cases ha
  | cons b bs ih =>
    rw [argsWeight]
    rcases List.mem_cons.mp ha with rfl | ha
    · exact Nat.le_max_left _ _
    · exact (ih ha).trans (Nat.le_max_right _ _)

theorem argsWeight_lt {args : List Ty} {k : Nat} (hk : 0 < k)
    (hargs : ∀ a ∈ args, a.weight w < k) : argsWeight w args < k := by
  induction args with
  | nil => exact hk
  | cons b bs ih =>
    rw [argsWeight, Nat.max_lt]
    exact ⟨hargs b List.mem_cons_self, ih fun a ha => hargs a (List.mem_cons_of_mem b ha)⟩

theorem weight_le_casesWeight {cases : List Applied} {c : Applied} (hc : c ∈ cases) :
    c.weight w ≤ casesWeight w cases := by
  induction cases with
  | nil => cases hc
  | cons b bs ih =>
    rw [casesWeight]
    rcases List.mem_cons.mp hc with rfl | hc
    · exact Nat.le_max_left _ _
    · exact (ih hc).trans (Nat.le_max_right _ _)

/-- No case of a type outweighs the type. -/
theorem weight_case_le {t : Ty} {c : Applied} (hc : c ∈ t.cases) : c.weight w ≤ t.weight w := by
  cases t with
  | unknown => cases hc
  | applied a =>
    obtain rfl : c = a := by simpa [Ty.cases] using hc
    exact le_rfl
  | union cases extended => exact weight_le_casesWeight hc

/-- A type with parameters outweighs the bound. -/
theorem bound_lt_weight {t : Applied} (hgen : w.isGeneric t.decl) : w.bound < t.weight w := by
  obtain ⟨d, args⟩ := t
  rw [Applied.weight, if_pos hgen]
  exact Nat.lt_succ_of_le (Nat.le_max_left _ _)

/-- An argument of a type with parameters is outweighed by the type. -/
theorem weight_arg_lt {t : Applied} (hgen : w.isGeneric t.decl) {a : Ty} (ha : a ∈ t.args) :
    a.weight w < t.weight w := by
  obtain ⟨d, args⟩ := t
  rw [Applied.weight, if_pos hgen]
  exact Nat.lt_succ_of_le ((weight_le_argsWeight ha).trans (Nat.le_max_right _ _))

namespace Hierarchy

/-- Whether a declaration has type parameters. -/
def isGeneric (h : Hierarchy) (d : DeclId) : Bool :=
  !(h.params d).isEmpty

/-- Weighs types by how deep they are nested. -/
def nesting (h : Hierarchy) : Scale :=
  ⟨h.isGeneric, fun _ => 0, 0⟩

/-- A type is nested no deeper than its arguments allow. -/
theorem nesting_le_of_args {h : Hierarchy} {t : Applied} {k : Nat} (hk : 0 < k)
    (hargs : ∀ a ∈ t.args, a.weight h.nesting < k) : t.weight h.nesting ≤ k := by
  obtain ⟨d, args⟩ := t
  rw [Applied.weight]
  split
  · have := argsWeight_lt hk hargs
    simp only [nesting] at this ⊢
    omega
  · exact Nat.zero_le k

/-! ## Flat supertypes -/

/-- Each argument of each supertype is a type parameter or a declaration without type parameters. -/
def FlatSupertypes (h : Hierarchy) : Prop :=
  ∀ d, ∀ st ∈ h.supertypes d, ∀ a ∈ st.args, ∃ e, a = .applied ⟨e, []⟩ ∧ h.isGeneric e = false

/-- Only finitely many declarations have supertypes. -/
def Finite (h : Hierarchy) : Prop :=
  ∃ ds : List DeclId, ∀ d, h.supertypes d ≠ [] → d ∈ ds

/-- What a type parameter is bound to is an argument of a type with parameters. -/
theorem mem_bindings {h : Hierarchy} {t : Applied} {p : DeclId} {a : Ty}
    (hb : (p, a) ∈ h.bindings t) : a ∈ t.args ∧ h.isGeneric t.decl := by
  have hzip := List.mem_of_mem_filter hb
  refine ⟨(List.of_mem_zip hzip).2, ?_⟩
  have hne : h.params t.decl ≠ [] := List.ne_nil_of_mem (List.of_mem_zip hzip).1
  simpa [isGeneric] using hne

/-- Substituting in a flat argument gives the argument itself or what it is bound to. -/
theorem substitute_flat (h : Hierarchy) (b : Bindings) (e : DeclId) :
    ∃ r, h.Answers (.substitute b (.applied ⟨e, []⟩)) r ∧
      (r = .applied ⟨e, []⟩ ∨ ∃ p, (p, r) ∈ b) := by
  apply answers_of_reaches
  simp only [step, substituteStep, substituteApplied, Algebra.substituteArgs, List.isEmpty_nil,
    Bool.true_or, if_true]
  split
  · exact .inl rfl
  · split
    · cases hl : b.lookup e with
      | none => exact .inl rfl
      | some r => exact .inr ⟨e, mem_of_lookup hl⟩
    · exact .inl rfl

/-- Substituting in flat arguments gives arguments or what is bound. -/
theorem substituteAll_flat (h : Hierarchy) (b : Bindings) (args : List Ty)
    (hargs : ∀ a ∈ args, ∃ e, a = .applied ⟨e, []⟩) :
    (Algebra.substituteAll b args).Reaches h.Answers fun rs =>
      rs.length = args.length ∧ ∀ r ∈ rs, r ∈ args ∨ ∃ p, (p, r) ∈ b := by
  induction args with
  | nil =>
    refine ⟨rfl, fun r hr => ?_⟩
    cases hr
  | cons a as ih =>
    obtain ⟨e, rfl⟩ := hargs a List.mem_cons_self
    obtain ⟨r, hans, hr⟩ := h.substitute_flat b e
    refine ⟨r, hans, ?_⟩
    refine (ih fun a ha => hargs a (List.mem_cons_of_mem _ ha)).bind fun rs hrs => ?_
    refine ⟨congrArg (· + 1) hrs.1, fun r' hr' => ?_⟩
    rcases List.mem_cons.mp hr' with rfl | hr'
    · rcases hr with rfl | hbound
      · exact .inl List.mem_cons_self
      · exact .inr hbound
    · exact (hrs.2 r' hr').imp (List.mem_cons_of_mem _) id

/-- A supertype of the declaration of `t` with the arguments of `t` in place of its parameters: each
argument is one of the supertype, or one of `t` if `t` has parameters. -/
structure Instance (h : Hierarchy) (t st st' : Applied) : Prop where
  mem : st ∈ h.supertypes t.decl
  decl : st'.decl = st.decl
  length : st'.args.length = st.args.length
  args : ∀ a ∈ st'.args, a ∈ st.args ∨ (a ∈ t.args ∧ h.isGeneric t.decl)

/-- Substituting the arguments of a type in a flat supertype comes to an end. -/
theorem substituteArgs_flat {h : Hierarchy} (flat : h.FlatSupertypes) {t st : Applied}
    (hst : st ∈ h.supertypes t.decl) :
    (Algebra.substituteArgs (h.bindings t) st).Reaches h.Answers (h.Instance t st) := by
  unfold Algebra.substituteArgs
  split
  · exact ⟨hst, rfl, rfl, fun a ha => .inl ha⟩
  · have hall := h.substituteAll_flat (h.bindings t) st.args fun a ha =>
      (flat t.decl st hst a ha).imp fun _ he => he.1
    refine hall.bind fun rs hrs => ⟨hst, rfl, hrs.1, fun a ha => ?_⟩
    exact (hrs.2 a ha).imp id fun ⟨_, hp⟩ => mem_bindings hp

/-- The arguments of an instance of a flat supertype of `t` are nested less deep than `t`, or not at
all. -/
theorem nesting_of_instance {h : Hierarchy} (flat : h.FlatSupertypes) {t st st' : Applied} {k : Nat}
    (hk : 0 < k) (ht : t.weight h.nesting ≤ k) (inst : h.Instance t st st') :
    st'.weight h.nesting ≤ k := by
  refine nesting_le_of_args hk fun a ha => ?_
  rcases inst.args a ha with hmem | ⟨hmem, hgen⟩
  · obtain ⟨e, rfl, he⟩ := flat t.decl st inst.mem a hmem
    simpa [Ty.weight, Applied.weight, nesting, he] using hk
  · exact (weight_arg_lt (w := h.nesting) hgen hmem).trans_le ht

/-! ## Searching a supertype -/

/-- A property of types that their supertypes inherit. -/
def Inherited (h : Hierarchy) (I : Applied → Prop) : Prop :=
  ∀ t st st', I t → h.Instance t st st' → I st'

/-- The declarations that a search can still enter. -/
def unvisited (ds path : List DeclId) : List DeclId :=
  ds.filter fun d => !path.contains d

theorem unvisited_lt {ds path : List DeclId} {d : DeclId} (hd : d ∈ ds)
    (hpath : path.contains d = false) :
    (unvisited ds (d :: path)).length < (unvisited ds path).length := by
  have hsub : unvisited ds (d :: path) = (unvisited ds path).filter (· ≠ d) := by
    rw [unvisited, unvisited, List.filter_filter]
    congr 1
    funext e
    simp [eq_comm]
  rw [hsub]
  refine List.length_filter_lt_length_iff_exists.mpr ⟨d, ?_, by simp⟩
  exact List.mem_filter.mpr ⟨hd, by rw [hpath]; rfl⟩

section Search

variable {h : Hierarchy} {I : Applied → Prop} {d : DeclId}

/-- Choosing between two supertypes comes to an end if comparing them does. -/
theorem better_reaches
    (compare : ∀ found best, found.decl = d → I found → best.decl = d → I best →
      h.Finishes (.subtype (.applied found) (.applied best)))
    {best found : Option Applied} (hbest : ∀ t ∈ best, t.decl = d ∧ I t)
    (hfound : ∀ t ∈ found, t.decl = d ∧ I t) :
    (better best found).Reaches h.Answers fun r => ∀ t ∈ r, t.decl = d ∧ I t := by
  cases found with
  | none => cases best <;> exact hbest
  | some new =>
    cases best with
    | none => exact hfound
    | some old =>
      obtain ⟨hnew, hInew⟩ := hfound new rfl
      obtain ⟨hold, hIold⟩ := hbest old rfl
      obtain ⟨b, hb⟩ := compare new old hnew hInew hold hIold
      refine ⟨b, hb, ?_⟩
      cases b with
      | true => exact hfound
      | false => exact hbest

/-- Searching in supertypes comes to an end if the search in each of them does. -/
theorem searchSupertypes_reaches (flat : h.FlatSupertypes) (inherited : h.Inherited I)
    (compare : ∀ found best, found.decl = d → I found → best.decl = d → I best →
      h.Finishes (.subtype (.applied found) (.applied best)))
    {t : Applied} (ht : I t) {path : List DeclId} (sts : List Applied)
    (hsts : ∀ st ∈ sts, st ∈ h.supertypes t.decl)
    (search : ∀ st, I st → sts ≠ [] →
      ∃ r, h.Answers (.search st d (t.decl :: path)) r ∧ ∀ found ∈ r, found.decl = d ∧ I found)
    (best : Option Applied) (hbest : ∀ found ∈ best, found.decl = d ∧ I found) :
    (searchSupertypes t (h.bindings t) d path best sts).Reaches h.Answers fun r =>
      ∀ found ∈ r, found.decl = d ∧ I found := by
  induction sts generalizing best with
  | nil => exact hbest
  | cons st sts ih =>
    refine (substituteArgs_flat flat (hsts st List.mem_cons_self)).bind fun st' inst => ?_
    obtain ⟨r, hans, hr⟩ := search st' (inherited t st st' ht inst) (List.cons_ne_nil _ _)
    refine ⟨r, hans, ?_⟩
    refine (better_reaches compare hbest hr).bind fun best' hbest' => ?_
    exact ih (fun st hst => hsts st (List.mem_cons_of_mem _ hst))
      (fun st hst _ => search st hst (List.cons_ne_nil _ _)) best' hbest'

/-- A search over flat supertypes is answered if the comparisons of what it finds are.  What it finds has
the properties that are inherited. -/
theorem search_answers (flat : h.FlatSupertypes) (fin : h.Finite) (inherited : h.Inherited I)
    (compare : ∀ found best, found.decl = d → I found → best.decl = d → I best →
      h.Finishes (.subtype (.applied found) (.applied best)))
    (path : List DeclId) {t : Applied} (ht : I t) :
    ∃ r, h.Answers (.search t d path) r ∧ ∀ found ∈ r, found.decl = d ∧ I found := by
  obtain ⟨ds, hds⟩ := fin
  induction hn : (unvisited ds path).length using Nat.strong_induction_on generalizing path t with
  | _ n ih =>
    apply answers_of_reaches
    simp only [step, searchStep]
    split
    · next heq =>
      rintro found ⟨rfl⟩
      exact ⟨heq, ht⟩
    split
    · rintro found ⟨⟩
    · next hpath =>
      refine searchSupertypes_reaches flat inherited compare ht _ (fun st hst => hst)
        (fun st hst hne => ?_) none (by rintro found ⟨⟩)
      -- With each step up there is one declaration less that has not been visited.
      have hlt := unvisited_lt (hds t.decl hne) (Bool.eq_false_iff.mpr hpath)
      exact ih _ (hn ▸ hlt) (t.decl :: path) hst rfl

end Search

/-! ## Subtyping -/

/-- Comparing two arguments comes to an end if subtyping between them does. -/
theorem argumentConforms_reaches {h : Hierarchy} (variance : Variance) {s o : Ty}
    (hso : h.Finishes (.subtype s o)) (hos : h.Finishes (.subtype o s)) :
    (Algebra.argumentConforms variance s o).Reaches h.Answers fun _ => True := by
  obtain ⟨b, hb⟩ := hso
  obtain ⟨b', hb'⟩ := hos
  unfold Algebra.argumentConforms
  split
  · exact trivial
  · cases variance with
    | covariant => exact ⟨b, hb, trivial⟩
    | contravariant => exact ⟨b', hb', trivial⟩
    | invariant =>
      refine ⟨b, hb, ?_⟩
      cases b with
      | true => exact ⟨b', hb', trivial⟩
      | false => exact trivial

/-- Comparing arguments comes to an end if the comparison of any two of them does. -/
theorem argumentsConform_reaches {h : Hierarchy} (variances : List Variance) (ss os : List Ty)
    (compare : ∀ s ∈ ss, ∀ o ∈ os, h.Finishes (.subtype s o) ∧ h.Finishes (.subtype o s)) :
    (Algebra.argumentsConform variances ss os).Reaches h.Answers fun _ => True := by
  induction variances generalizing ss os with
  | nil => cases ss <;> cases os <;> exact trivial
  | cons variance variances ih =>
    cases ss with
    | nil => exact trivial
    | cons s ss =>
      cases os with
      | nil => exact trivial
      | cons o os =>
        have rest := ih ss os fun s hs o ho =>
          compare s (List.mem_cons_of_mem _ hs) o (List.mem_cons_of_mem _ ho)
        have one := compare s List.mem_cons_self o List.mem_cons_self
        refine (argumentConforms_reaches variance one.1 one.2).bind fun conforms _ => ?_
        cases conforms with
        | true => exact rest
        | false => exact trivial

/-- What is left to compare of two types of one declaration are their arguments. -/
theorem subtype_same_decl_finishes {h : Hierarchy} {d : DeclId} {s o : Applied} (hs : s.decl = d)
    (ho : o.decl = d)
    (compare : h.isGeneric d → ∀ a ∈ s.args, ∀ b ∈ o.args,
      h.Finishes (.subtype a b) ∧ h.Finishes (.subtype b a)) :
    h.Finishes (.subtype (.applied s) (.applied o)) := by
  subst hs
  -- The search ends where it starts, so only the arguments are left to compare.
  have found : h.Answers (.search s o.decl []) (some s) := ⟨1, by
    simp [answerWithin, step, searchStep, ho, Dialogue.run]⟩
  have args : (Algebra.argumentsConform ((h.params o.decl).map h.variance) s.args o.args).Reaches
      h.Answers fun _ => True := by
    by_cases hgen : h.isGeneric s.decl
    · exact argumentsConform_reaches _ _ _ (compare hgen)
    · have hnil : h.params o.decl = [] := by simpa [isGeneric, ho] using hgen
      rw [hnil]
      exact trivial
  refine finishes_of_reaches (P := fun _ => True) ?_
  simp only [step, subtypeStep]
  split
  · exact trivial
  · exact ⟨some s, found, args⟩

/-- Over flat supertypes, comparing two declared types is answered if it is for all types that are nested
less deep. -/
theorem subtype_applied_finishes {h : Hierarchy} (flat : h.FlatSupertypes) (fin : h.Finite)
    {k : Nat} (less : ∀ s o : Ty, s.weight h.nesting < k → o.weight h.nesting < k →
      h.Finishes (.subtype s o)) (s o : Applied)
    (hs : s.weight h.nesting ≤ k) (ho : o.weight h.nesting ≤ k) :
    h.Finishes (.subtype (.applied s) (.applied o)) := by
  have both : ∀ a b : Ty, a.weight h.nesting < k → b.weight h.nesting < k →
      h.Finishes (.subtype a b) ∧ h.Finishes (.subtype b a) := fun a b ha hb =>
    ⟨less a b ha hb, less b a hb ha⟩
  -- If arguments are compared at all, `o` has parameters, and so `k` is positive.
  have args_lt : ∀ {t : Applied}, h.isGeneric o.decl → t.decl = o.decl →
      t.weight h.nesting ≤ max 1 k → ∀ a ∈ t.args, a.weight h.nesting < k := by
    intro t hgen hdecl ht a ha
    have hpos : 0 < k := (bound_lt_weight (w := h.nesting) hgen).trans_le ho
    have hlt := weight_arg_lt (w := h.nesting) (by rw [hdecl]; exact hgen) ha
    omega
  obtain ⟨r, hans, hr⟩ := search_answers (d := o.decl) (I := fun t => t.weight h.nesting ≤ max 1 k)
    flat fin (fun t st st' ht inst => nesting_of_instance flat (by omega) ht inst)
    (fun found best hfound hIfound hbest hIbest => subtype_same_decl_finishes hfound hbest
      fun hgen a ha b hb =>
        both a b (args_lt hgen hfound hIfound a ha) (args_lt hgen hbest hIbest b hb))
    [] (hs.trans (Nat.le_max_right 1 k))
  refine finishes_of_reaches (P := fun _ => True) ?_
  simp only [step, subtypeStep]
  split
  · exact trivial
  · refine ⟨r, hans, ?_⟩
    cases r with
    | none => exact trivial
    | some sup =>
      obtain ⟨hdecl, hsup⟩ := hr sup rfl
      by_cases hgen : h.isGeneric o.decl
      · refine argumentsConform_reaches _ _ _ fun a ha b hb => ?_
        exact both a b (args_lt hgen hdecl hsup a ha)
          ((weight_arg_lt (w := h.nesting) hgen hb).trans_le ho)
      · have hnil : h.params o.decl = [] := by simpa [isGeneric] using hgen
        simp only [hnil]
        exact trivial

/-- Asking whether all of several types are subtypes comes to an end. -/
theorem allSubtypes_reaches {h : Hierarchy} {o : Ty} (cases : List Applied)
    (compare : ∀ c ∈ cases, h.Finishes (.subtype (.applied c) o)) :
    (Algebra.allSubtypes o cases).Reaches h.Answers fun _ => True := by
  induction cases with
  | nil => exact trivial
  | cons c cs ih =>
    obtain ⟨b, hb⟩ := compare c List.mem_cons_self
    refine ⟨b, hb, ?_⟩
    cases b with
    | true => exact ih fun c hc => compare c (List.mem_cons_of_mem _ hc)
    | false => exact trivial

/-- Asking whether one of several types is a supertype comes to an end. -/
theorem anySupertype_reaches {h : Hierarchy} {s : Applied} (cases : List Applied)
    (compare : ∀ c ∈ cases, h.Finishes (.subtype (.applied s) (.applied c))) :
    (Algebra.anySupertype s cases).Reaches h.Answers fun _ => True := by
  induction cases with
  | nil => exact trivial
  | cons c cs ih =>
    obtain ⟨b, hb⟩ := compare c List.mem_cons_self
    refine ⟨b, hb, ?_⟩
    cases b with
    | true => exact trivial
    | false => exact ih fun c hc => compare c (List.mem_cons_of_mem _ hc)

/-- Over flat supertypes every question of subtyping is answered. -/
theorem subtype_finishes {h : Hierarchy} (flat : h.FlatSupertypes) (fin : h.Finite) (s o : Ty) :
    h.Finishes (.subtype s o) := by
  -- By induction on how deep the deeper of the two types is nested.
  induction hk : max (s.weight h.nesting) (o.weight h.nesting) using Nat.strong_induction_on
    generalizing s o with
  | _ k ih =>
    have less : ∀ s o : Ty, s.weight h.nesting < k → o.weight h.nesting < k →
        h.Finishes (.subtype s o) := fun s o hs ho => ih _ (Nat.max_lt.mpr ⟨hs, ho⟩) s o rfl
    have hs : s.weight h.nesting ≤ k := hk ▸ Nat.le_max_left _ _
    have ho : o.weight h.nesting ≤ k := hk ▸ Nat.le_max_right _ _
    have applied : ∀ s : Applied, s.weight h.nesting ≤ k → h.Finishes (.subtype (.applied s) o) := by
      intro s hs
      cases o with
      | unknown => exact finishes_of_reaches (P := fun _ => True) trivial
      | applied o => exact subtype_applied_finishes flat fin less s o hs ho
      | union cases extended =>
        refine finishes_of_reaches (P := fun _ => True) ?_
        simp only [step, subtypeStep]
        split
        · exact trivial
        · exact anySupertype_reaches cases fun c hc =>
            subtype_applied_finishes flat fin less s c hs ((weight_le_casesWeight hc).trans ho)
    cases s with
    | unknown => exact finishes_of_reaches (P := fun _ => True) trivial
    | applied s => exact applied s hs
    | union cases extended =>
      refine finishes_of_reaches (P := fun _ => True) ?_
      cases o with
      | unknown => exact trivial
      | applied o =>
        exact allSubtypes_reaches cases fun c hc => applied c ((weight_le_casesWeight hc).trans hs)
      | union cases' extended' =>
        exact allSubtypes_reaches cases fun c hc => applied c ((weight_le_casesWeight hc).trans hs)

/-! ## Unions -/

/-- Classes are ranked so that a class ranks no lower than the class it extends, and higher than the
arguments in it.  Interfaces extend only a class of the lowest rank, without arguments, and are the only
types that are satisfied. -/
structure Stratified (h : Hierarchy) (rank : DeclId → Nat) (bound : Nat) : Prop where
  rank_lt : ∀ d, rank d < bound
  satisfied : ∀ d, ∀ st ∈ h.satisfied d, h.isClass st.decl = false
  otherExtends : ∀ d, h.isClass d = false → ∀ st ∈ h.extended d, st.args = [] ∧ rank st.decl = 0
  classExtends : ∀ d, h.isClass d = true → ∀ st ∈ h.extended d,
    rank st.decl ≤ rank d ∧ ∀ e, .applied ⟨e, []⟩ ∈ st.args → rank e < rank d

/-- The classes that types extend can be ranked. -/
def StratifiedClasses (h : Hierarchy) : Prop :=
  ∃ rank bound, h.Stratified rank bound

/-- Weighs types by the rank of their declarations. -/
def ranking (h : Hierarchy) (rank : DeclId → Nat) (bound : Nat) : Scale :=
  ⟨h.isGeneric, rank, bound⟩

section Union

variable {h : Hierarchy} {rank : DeclId → Nat} {bound : Nat}

/-- If `t` is a class, neither its rank nor its arguments exceed `k`. -/
def ClassWithin (h : Hierarchy) (rank : DeclId → Nat) (bound k : Nat) (t : Applied) : Prop :=
  h.isClass t.decl = true → rank t.decl ≤ k ∧
    (h.isGeneric t.decl → ∀ a ∈ t.args, a.weight (h.ranking rank bound) < k)

theorem classWithin_of_weight (strat : h.Stratified rank bound) {t : Applied} {k : Nat}
    (ht : t.weight (h.ranking rank bound) ≤ k) : h.ClassWithin rank bound k t := by
  intro _
  by_cases hgen : h.isGeneric t.decl
  · have hbound := bound_lt_weight (w := h.ranking rank bound) hgen
    have hrank := strat.rank_lt t.decl
    refine ⟨?_, fun _ a ha => (weight_arg_lt (w := h.ranking rank bound) hgen ha).trans_le ht⟩
    simp only [ranking] at hbound ht
    omega
  · refine ⟨?_, fun hgen' => absurd hgen' hgen⟩
    obtain ⟨d, args⟩ := t
    have hweight : Applied.weight (h.ranking rank bound) ⟨d, args⟩ = rank d := by
      rw [Applied.weight]
      exact if_neg hgen
    exact hweight ▸ ht

/-- The classes that a type extends do not exceed what the type itself does not exceed. -/
theorem classWithin_inherited (flat : h.FlatSupertypes) (strat : h.Stratified rank bound) (k : Nat) :
    h.Inherited (h.ClassWithin rank bound k) := by
  intro t st st' ht inst hclass
  rw [inst.decl] at hclass ⊢
  -- A class inherits a class by extending it, because what it satisfies are interfaces.
  have hext : st ∈ h.extended t.decl := by
    rcases List.mem_append.mp inst.mem with hmem | hmem
    · exact Option.mem_toList.mp hmem
    · exact absurd hclass (by rw [strat.satisfied _ st hmem]; exact Bool.false_ne_true)
  cases hcls : h.isClass t.decl with
  | false =>
    obtain ⟨hnil, hzero⟩ := strat.otherExtends _ hcls st hext
    refine ⟨by omega, fun _ a ha => ?_⟩
    have hlen := inst.length
    rw [hnil] at hlen
    rw [List.length_eq_zero_iff.mp hlen] at ha
    cases ha
  | true =>
    obtain ⟨hrank, hargs⟩ := strat.classExtends _ hcls st hext
    obtain ⟨htrank, htargs⟩ := ht hcls
    refine ⟨hrank.trans htrank, fun _ a ha => ?_⟩
    rcases inst.args a ha with hmem | ⟨hmem, hgen⟩
    · obtain ⟨e, rfl, he⟩ := flat t.decl st inst.mem a hmem
      simp only [Ty.weight, Applied.weight, ranking, he, Bool.false_eq_true, if_false]
      exact (hargs e hmem).trans_le htrank
    · exact htargs hgen a hmem

/-- The search for a supertype of each of several types is answered, by types with a property that they
inherit. -/
theorem searchAll_reaches (flat : h.FlatSupertypes) (fin : h.Finite) {I : Applied → Prop}
    (inherited : h.Inherited I) {d : DeclId} (cases : List Applied) (hcases : ∀ c ∈ cases, I c) :
    (Algebra.searchAll d cases).Reaches h.Answers fun r =>
      ∀ sups, r = some sups → ∀ sup ∈ sups, sup.decl = d ∧ I sup := by
  induction cases with
  | nil =>
    rintro sups ⟨rfl⟩ sup hsup
    cases hsup
  | cons c cs ih =>
    obtain ⟨r, hans, hr⟩ := search_answers (I := I) (d := d) flat fin inherited
      (fun found best _ _ _ _ => subtype_finishes flat fin _ _) [] (hcases c List.mem_cons_self)
    refine ⟨r, hans, ?_⟩
    -- A case that does not inherit the declaration ends the search for all.
    cases r with
    | none => rintro sups ⟨⟩
    | some found =>
      refine (ih fun c hc => hcases c (List.mem_cons_of_mem _ hc)).bind fun rest hrest => ?_
      intro sups hsups sup hsup
      obtain ⟨sups', rfl, rfl⟩ := Option.map_eq_some_iff.mp hsups
      rcases List.mem_cons.mp hsup with rfl | hsup
      · exact hr sup rfl
      · exact hrest sups' rfl sup hsup

/-- The arguments that types have in common are found if the unions they ask for are answered. -/
theorem commonArguments_reaches {P : Ty → Prop}
    (unite : ∀ a as, (∀ t ∈ a :: as, P t) → h.Finishes (.unite (a :: as)))
    {sups : List Applied} (hsups : ∀ sup ∈ sups, ∀ a ∈ sup.args, P a) (i : Nat)
    (params : List DeclId) :
    (h.commonArguments sups i params).Reaches h.Answers fun _ => True := by
  induction params generalizing i with
  | nil => exact trivial
  | cons p ps ih =>
    have hargs : ∀ a ∈ argumentsAt i sups, P a := by
      intro a ha
      obtain ⟨sup, hsup, hget⟩ := List.mem_filterMap.mp ha
      exact hsups sup hsup a (List.mem_of_getElem? hget)
    have one : (commonArgument (h.variance p) (argumentsAt i sups)).Reaches h.Answers
        fun _ => True := by
      -- Covariant arguments are united.  Others are compared by equality, which asks nothing.
      cases hat : argumentsAt i sups with
      | nil => exact trivial
      | cons a as =>
        rw [commonArgument]
        split
        · obtain ⟨t, ht⟩ := unite a as (hat ▸ hargs)
          exact ⟨t, ht, trivial⟩
        · exact trivial
    refine one.bind fun r _ => ?_
    cases r with
    | none => exact trivial
    | some a => exact (ih (i + 1)).bind fun _ _ => trivial

/-- The supertype that cases have in common is found if the unions of its arguments are answered. -/
theorem common_finishes_of_unite (flat : h.FlatSupertypes) (fin : h.Finite) {I : Applied → Prop}
    (inherited : h.Inherited I) {cases : List Applied} (hcases : ∀ c ∈ cases, I c) {d : DeclId}
    {P : Ty → Prop} (hI : h.isGeneric d → ∀ sup, sup.decl = d → I sup → ∀ a ∈ sup.args, P a)
    (unite : ∀ a as, (∀ t ∈ a :: as, P t) → h.Finishes (.unite (a :: as))) :
    h.Finishes (.common cases d) := by
  refine finishes_of_reaches (P := fun _ => True) ?_
  refine (searchAll_reaches flat fin inherited cases hcases).bind fun r hr => ?_
  match r, hr with
  | none, _ => exact trivial
  | some [], _ => exact trivial
  | some (sup :: sups), hr =>
    refine Dialogue.Reaches.bind (P := fun _ => True) ?_ fun _ _ => trivial
    by_cases hgen : h.isGeneric d
    · exact commonArguments_reaches unite (fun s hs a ha =>
        hI hgen s (hr _ rfl s hs).1 (hr _ rfl s hs).2 a ha) 0 _
    · have hnil : h.params d = [] := by simpa [isGeneric] using hgen
      rw [hnil]
      exact trivial

/-- Dropping what a type covers comes to an end, and adds nothing. -/
theorem notCoveredBy_reaches (flat : h.FlatSupertypes) (fin : h.Finite) (t : Applied)
    (cases : List Applied) :
    (Algebra.notCoveredBy t cases).Reaches h.Answers fun r => ∀ c ∈ r, c ∈ cases := by
  induction cases with
  | nil => exact fun c hc => hc
  | cons c cs ih =>
    obtain ⟨b, hb⟩ := subtype_finishes flat fin (.applied c) (.applied t)
    refine ⟨b, hb, ih.bind fun kept hkept => ?_⟩
    cases b with
    | true => exact fun c' hc' => List.mem_cons_of_mem _ (hkept c' hc')
    | false => exact fun c' hc' => List.mem_cons.mpr ((List.mem_cons.mp hc').imp id (hkept c'))

/-- Adding cases to a union comes to an end, and adds nothing else. -/
theorem addCases_reaches (flat : h.FlatSupertypes) (fin : h.Finite) (ts : List Applied)
    (cases : List Applied) :
    (h.addCases cases ts).Reaches h.Answers fun r => ∀ c ∈ r, c ∈ cases ∨ c ∈ ts := by
  induction ts generalizing cases with
  | nil => exact fun c hc => .inl hc
  | cons t ts ih =>
    -- Adding one case asks about subtypes only.
    have one : (h.addCase cases t).Reaches h.Answers fun r => ∀ c ∈ r, c ∈ cases ∨ c = t := by
      unfold addCase
      split
      · exact fun c hc => .inl hc
      · refine (anySupertype_reaches cases fun c _ => subtype_finishes flat fin _ _).bind
          fun b _ => ?_
        cases b with
        | true => exact fun c hc => .inl hc
        | false =>
          refine (notCoveredBy_reaches flat fin t cases).bind fun kept hkept c hc => ?_
          exact (List.mem_append.mp hc).imp (hkept c) List.mem_singleton.mp
    refine one.bind fun cases' hcases' => (ih cases').mono fun r hr c hc => ?_
    rcases hr c hc with hmem | hmem
    · rcases hcases' c hmem with hmem | rfl
      · exact .inl hmem
      · exact .inr List.mem_cons_self
    · exact .inr (List.mem_cons_of_mem _ hmem)

/-- The class that cases extend is found if each class has an answer to what the cases have in common. -/
theorem superclass_finishes_of_common (flat : h.FlatSupertypes) (fin : h.Finite)
    {cases : List Applied} (common : ∀ d, h.isClass d = true → h.Finishes (.common cases d))
    (t : Applied) (seen : List DeclId) : h.Finishes (.superclass cases t seen) := by
  have fin' := fin
  obtain ⟨ds, hds⟩ := fin'
  -- The search marks each class it comes by, so the classes with supertypes that are still unmarked grow
  -- fewer.
  induction hn : (unvisited ds seen).length using Nat.strong_induction_on generalizing seen t with
  | _ n ih =>
    refine finishes_of_reaches (P := fun _ => True) ?_
    simp only [step, superclassStep]
    split
    · exact trivial
    · next hseen =>
      have one : (h.commonClass cases t.decl).Reaches h.Answers fun _ => True := by
        unfold commonClass
        split
        · next hclass =>
          obtain ⟨r, hr⟩ := common t.decl hclass
          exact ⟨r, hr, trivial⟩
        · exact trivial
      refine one.bind fun r _ => ?_
      cases r with
      | some st => exact trivial
      | none =>
        cases hext : h.extended t.decl with
        | none => exact trivial
        | some st =>
          have hmem : st ∈ h.supertypes t.decl := by simp [supertypes, hext]
          refine (substituteArgs_flat flat hmem).bind fun st' _ => ?_
          have hlt := unvisited_lt (hds t.decl (List.ne_nil_of_mem hmem))
            (Bool.eq_false_iff.mpr hseen)
          obtain ⟨r, hr⟩ := ih _ (hn ▸ hlt) st' (t.decl :: seen) rfl
          exact ⟨r, hr, trivial⟩

/-- Over flat supertypes and ranked classes every union is answered. -/
theorem unite_finishes (flat : h.FlatSupertypes) (fin : h.Finite) (strat : h.Stratified rank bound)
    (ts : List Ty) : h.Finishes (.unite ts) := by
  -- By induction on the weight of the heaviest type: the class that the cases have in common has
  -- arguments that weigh less than the cases do.
  induction hk : argsWeight (h.ranking rank bound) ts using Nat.strong_induction_on
    generalizing ts with
  | _ k ih =>
    refine finishes_of_reaches (P := fun _ => True) ?_
    refine (addCases_reaches flat fin (ts.flatMap Ty.cases) []).bind fun cases hcases => ?_
    have hweight : ∀ c ∈ cases, c.weight (h.ranking rank bound) ≤ k := by
      intro c hc
      obtain ⟨t, ht, hct⟩ := List.mem_flatMap.mp ((hcases c hc).resolve_left List.not_mem_nil)
      exact (weight_case_le hct).trans (hk ▸ weight_le_argsWeight ht)
    have common : ∀ d, h.isClass d = true → h.Finishes (.common cases d) := by
      intro d hclass
      refine common_finishes_of_unite flat fin (classWithin_inherited flat strat k)
        (fun c hc => classWithin_of_weight strat (hweight c hc))
        (P := fun a => a.weight (h.ranking rank bound) < k) ?_ fun a as hall => ?_
      · rintro hgen sup rfl hsup a ha
        exact (hsup hclass).2 hgen a ha
      · have hpos : 0 < k := Nat.zero_lt_of_lt (hall a List.mem_cons_self)
        exact ih _ (argsWeight_lt hpos hall) (a :: as) rfl
    match cases, common with
    | [], _ => exact trivial
    | [t], _ => exact trivial
    | first :: second :: rest, common =>
      obtain ⟨r, hr⟩ := superclass_finishes_of_common flat fin common first []
      exact ⟨r, hr, trivial⟩

/-- Over flat supertypes and ranked classes the supertype that cases have in common is answered. -/
theorem common_finishes (flat : h.FlatSupertypes) (fin : h.Finite)
    (strat : h.Stratified rank bound) (cases : List Applied) (d : DeclId) :
    h.Finishes (.common cases d) :=
  common_finishes_of_unite flat fin (I := fun _ => True) (fun _ _ _ _ _ => trivial)
    (fun _ _ => trivial) (P := fun _ => True) (fun _ _ _ _ _ _ => trivial)
    fun a as _ => unite_finishes flat fin strat (a :: as)

end Union

end Hierarchy

/-! ## Graphs of declarations -/

namespace Graph

/-- Only the declarations of a graph have supertypes. -/
theorem hierarchy_finite (g : Graph) : g.hierarchy.Finite := by
  refine ⟨(List.range g.decls.size).map DeclId.mk, fun d hd => ?_⟩
  by_contra hmem
  have hsize : g.decls.size ≤ d.index := by
    by_contra hlt
    exact hmem (List.mem_map.mpr ⟨d.index, List.mem_range.mpr (by omega), rfl⟩)
  have hdefault : g.decl d = default := by
    simp [Graph.decl, Array.getD, Nat.not_lt.mpr hsize]
  apply hd
  simp only [Hierarchy.supertypes, Graph.hierarchy, hdefault]
  rfl

/-- Which questions about the types of a graph are answered: those that begin no endless chain of
questions.  If the supertypes in the graph are flat, these are all questions of subtyping and all questions
for a supertype of a declared type; if its classes can be ranked besides, all questions for a supertype of
a union, too. -/
theorem queries_finish (g : Graph) :
    (∀ q, g.hierarchy.Finishes q ↔
      ¬ ∃ chain : Nat → Query, chain 0 = q ∧ ∀ i, g.hierarchy.Asks (chain i) (chain (i + 1))) ∧
    (g.hierarchy.FlatSupertypes →
      (∀ s o, g.hierarchy.Finishes (.subtype s o)) ∧
      (∀ t d, g.hierarchy.Finishes (.search t d [])) ∧
      (g.hierarchy.StratifiedClasses → ∀ cases d, g.hierarchy.Finishes (.common cases d))) := by
  have fin := g.hierarchy_finite
  refine ⟨g.hierarchy.finishes_iff_no_endless_chain, fun flat =>
    ⟨Hierarchy.subtype_finishes flat fin, fun t d => ?_, ?_⟩⟩
  · obtain ⟨r, hr, -⟩ := Hierarchy.search_answers (I := fun _ => True) (d := d) flat fin
      (fun _ _ _ _ _ => trivial)
      (fun found best _ _ _ _ => Hierarchy.subtype_finishes flat fin _ _) [] (t := t) trivial
    exact ⟨r, hr⟩
  · rintro ⟨rank, bound, strat⟩ cases d
    exact Hierarchy.common_finishes flat fin strat cases d

/-- `class Item() {}`, `interface Source<A> {}`, `class Crate<T>() extends Item() satisfies Source<T> {}` and
`class Labels() extends Crate<Item>() {}`. -/
def crates : Graph :=
  let declaration (name : String) (shape : Shape) : Declaration :=
    { name, scope := [], unit := none, node := none, shared := false, shape }
  { decls := #[
      declaration "Item" (.ofClass {} (some []) false false),
      declaration "Source" (.ofInterface { params := [⟨2⟩] }),
      declaration "A" (.typeParameter .invariant {}),
      declaration "Crate" (.ofClass
        { params := [⟨4⟩], extended := some ⟨⟨0⟩, []⟩, satisfied := [⟨⟨1⟩, [.applied ⟨⟨4⟩, []⟩]⟩] }
        (some []) false false),
      declaration "T" (.typeParameter .invariant {}),
      declaration "Labels" (.ofClass { extended := some ⟨⟨3⟩, [.applied ⟨⟨0⟩, []⟩]⟩ } (some []) false false)] }

theorem crates_supertypes {d : DeclId} {st : Applied} (hst : st ∈ crates.hierarchy.supertypes d) :
    (d = ⟨3⟩ ∧ st = ⟨⟨0⟩, []⟩) ∨ (d = ⟨3⟩ ∧ st = ⟨⟨1⟩, [.applied ⟨⟨4⟩, []⟩]⟩) ∨
      (d = ⟨5⟩ ∧ st = ⟨⟨3⟩, [.applied ⟨⟨0⟩, []⟩]⟩) := by
  match d with
  | ⟨0⟩ => cases hst
  | ⟨1⟩ => cases hst
  | ⟨2⟩ => cases hst
  | ⟨3⟩ => exact (List.mem_pair.mp hst).imp (.intro rfl) fun h => .inl ⟨rfl, h⟩
  | ⟨4⟩ => cases hst
  | ⟨5⟩ => exact .inr (.inr ⟨rfl, List.mem_singleton.mp hst⟩)
  | ⟨n + 6⟩ => cases hst

theorem crates_flat : crates.hierarchy.FlatSupertypes := by
  intro d st hst a ha
  obtain ⟨-, rfl⟩ | ⟨-, rfl⟩ | ⟨-, rfl⟩ := crates_supertypes hst
  · cases ha
  · exact ⟨⟨4⟩, List.mem_singleton.mp ha, rfl⟩
  · exact ⟨⟨0⟩, List.mem_singleton.mp ha, rfl⟩

/-- Labels rank above crates, and both above everything else. -/
theorem crates_stratified : crates.hierarchy.StratifiedClasses := by
  -- A class has a higher rank than what it extends.
  let rank : DeclId → Nat
    | ⟨3⟩ => 1
    | ⟨5⟩ => 2
    | _ => 0
  refine ⟨rank, 3, fun d => ?_, fun d st hst => ?_, fun d hd st hst => ?_, fun d _ st hst => ?_⟩
  · unfold rank
    split <;> decide
  · match d with
    | ⟨3⟩ =>
      obtain rfl := List.mem_singleton.mp hst
      rfl
    | ⟨0⟩ | ⟨1⟩ | ⟨2⟩ | ⟨4⟩ | ⟨5⟩ | ⟨n + 6⟩ => cases hst
  · match d with
    | ⟨3⟩ | ⟨5⟩ => cases hd
    | ⟨0⟩ | ⟨1⟩ | ⟨2⟩ | ⟨4⟩ | ⟨n + 6⟩ => cases hst
  · match d with
    | ⟨3⟩ =>
      obtain rfl := Option.some.inj hst
      exact ⟨Nat.zero_le _, fun e he => nomatch he⟩
    | ⟨5⟩ =>
      obtain rfl := Option.some.inj hst
      refine ⟨Nat.le_succ 1, fun e he => ?_⟩
      obtain rfl : e = ⟨0⟩ := by simpa using he
      exact Nat.zero_lt_two
    | ⟨0⟩ | ⟨1⟩ | ⟨2⟩ | ⟨4⟩ | ⟨n + 6⟩ => cases hst

/-- Labels are a source of items, and have that in common with crates of labels. -/
theorem queries_finish_crates :
    crates.hierarchy.FlatSupertypes ∧ crates.hierarchy.StratifiedClasses ∧
      crates.hierarchy.Finishes (.subtype (.applied ⟨⟨5⟩, []⟩) (.applied ⟨⟨1⟩, [.applied ⟨⟨0⟩, []⟩]⟩)) ∧
      crates.hierarchy.Finishes (.search ⟨⟨5⟩, []⟩ ⟨1⟩ []) ∧
      crates.hierarchy.Finishes (.common [⟨⟨5⟩, []⟩, ⟨⟨3⟩, [.applied ⟨⟨5⟩, []⟩]⟩] ⟨1⟩) := by
  obtain ⟨hsubtype, hsearch, hcommon⟩ := crates.queries_finish.2 crates_flat
  exact ⟨crates_flat, crates_stratified, hsubtype _ _, hsearch _ _, hcommon crates_stratified _ _⟩

/-- `interface N<in Z> {}` and `interface C satisfies N<N<C>> {}`. -/
def selfNesting : Graph :=
  let declaration (name : String) (shape : Shape) : Declaration :=
    { name, scope := [], unit := none, node := none, shared := false, shape }
  { decls := #[
      declaration "N" (.ofInterface { params := [⟨1⟩] }),
      declaration "Z" (.typeParameter .contravariant {}),
      declaration "C" (.ofInterface
        { satisfied := [⟨⟨0⟩, [.applied ⟨⟨0⟩, [.applied ⟨⟨2⟩, []⟩]⟩]⟩] })] }

/-- Whether `C` is an `N<C>` there is never answered: the question asks itself. -/
theorem selfNesting_never_answers :
    ¬ selfNesting.hierarchy.Finishes
      (.subtype (.applied ⟨⟨2⟩, []⟩) (.applied ⟨⟨0⟩, [.applied ⟨⟨2⟩, []⟩]⟩)) := by
  set q : Query := .subtype (.applied ⟨⟨2⟩, []⟩) (.applied ⟨⟨0⟩, [.applied ⟨⟨2⟩, []⟩]⟩) with hq
  have found : selfNesting.hierarchy.Answers (.search ⟨⟨2⟩, []⟩ ⟨0⟩ [])
      (some ⟨⟨0⟩, [.applied ⟨⟨0⟩, [.applied ⟨⟨2⟩, []⟩]⟩]⟩) := ⟨3, rfl⟩
  have self : selfNesting.hierarchy.Asks q q := .inr ⟨_, found, .inl rfl⟩
  rw [Hierarchy.finishes_iff_no_endless_chain]
  exact not_not_intro ⟨fun _ => q, rfl, fun _ => self⟩

end Graph

end Ceylon.Model
