import Mathlib.Data.List.Basic
import Ceylon.Model.Builtins
import Ceylon.Proofs.Answers

/-!
# Types within a horizon

A type lies within a horizon if it is built from declarations in sight, each with as many arguments as it
has parameters, and nothing in it is unknown (`Ty.Within`); a lax horizon leaves unknown parts alone.  If the
supertypes of what is in sight lie within the horizon, then so do all answers of the type algebra to questions
about types within it (`Hierarchy.answer_within`).
-/

namespace Ceylon.Model

/-- What types may be built from. -/
structure Horizon where
  /-- Whether types may be unknown in part. -/
  lax : Prop
  /-- The declarations in sight. -/
  sees : DeclId → Prop
  /-- How many arguments a declaration takes. -/
  arity : DeclId → Nat
  /-- Whether a declaration is that of the bottom type. -/
  isBottom : DeclId → Bool

mutual

/-- A type is built from what is in sight. -/
inductive Ty.Within (z : Horizon) : Ty → Prop
  | unknown (h : z.lax) : Ty.Within z .unknown
  | applied {a : Applied} (h : a.Within z) : Ty.Within z (.applied a)
  | union {cases : List Applied} {extended : Option Applied} (nonempty : z.lax ∨ cases ≠ [])
      (proper : z.lax ∨ ∀ c ∈ cases, z.isBottom c.decl = false) (within : ∀ c ∈ cases, c.Within z)
      (above : ∀ a, extended = some a → a.Within z) : Ty.Within z (.union cases extended)

/-- A declaration with its arguments is built from what is in sight. -/
inductive Applied.Within (z : Horizon) : Applied → Prop
  | mk {decl : DeclId} {args : List Ty} (sees : z.sees decl)
      (arity : args.length = z.arity decl) (within : ∀ a ∈ args, a.Within z) :
      Applied.Within z ⟨decl, args⟩

end

section

variable {z z' : Horizon}

theorem Applied.Within.sees {a : Applied} (h : a.Within z) : z.sees a.decl := by
  cases h with
  | mk hsees _ _ => exact hsees

theorem Applied.Within.arity {a : Applied} (h : a.Within z) : a.args.length = z.arity a.decl := by
  cases h with
  | mk _ harity _ => exact harity

theorem Applied.Within.args {a : Applied} (h : a.Within z) : ∀ t ∈ a.args, t.Within z := by
  cases h with
  | mk _ _ hargs => exact hargs

theorem Ty.Within.of_applied {a : Applied} (h : (Ty.applied a).Within z) : a.Within z := by
  cases h with
  | applied h => exact h

/-- The cases of a type in sight are in sight. -/
theorem Ty.Within.cases {t : Ty} (h : t.Within z) : ∀ c ∈ t.cases, c.Within z := by
  cases h with
  | unknown _ => exact List.forall_mem_nil _
  | applied h => exact List.forall_mem_singleton.mpr h
  | union _ _ hcases _ => exact hcases

/-- Only where types may be missing is an unknown type in sight. -/
theorem Ty.Within.lax_of_unknown {t : Ty} (h : t.Within z) (hknown : t.isKnown = false) :
    z.lax := by
  cases h with
  | unknown h => exact h
  | applied _ => cases hknown
  | union _ _ _ _ => cases hknown

/-- A horizon that shows more than another one. -/
structure Horizon.Le (z z' : Horizon) : Prop where
  lax : z.lax → z'.lax
  sees : ∀ d, z.sees d → z'.sees d
  arity : ∀ d, z.sees d → z'.arity d = z.arity d
  isBottom : ∀ d, z.sees d → z'.isBottom d = z.isBottom d

mutual

/-- Types stay within a horizon that shows more. -/
theorem Ty.Within.mono (hz : z.Le z') : {t : Ty} → t.Within z → t.Within z'
  | _, .unknown h => .unknown (hz.lax h)
  | _, .applied h => .applied (h.mono hz)
  | _, .union nonempty proper within above =>
    .union (nonempty.imp hz.lax id)
      (proper.imp hz.lax fun h c hc => (hz.isBottom _ (within c hc).sees).trans (h c hc))
      (fun c hc => (within c hc).mono hz) fun a ha => (above a ha).mono hz

/-- Applied types stay within a horizon that shows more. -/
theorem Applied.Within.mono (hz : z.Le z') : {a : Applied} → a.Within z → a.Within z'
  | _, .mk sees arity within =>
    .mk (hz.sees _ sees) (arity.trans (hz.arity _ sees).symm)
      fun t ht => (within t ht).mono hz

end

end

/-! ## The type algebra -/

/-- A hierarchy whose declarations lead to nothing out of sight. -/
structure Hierarchy.Closed (h : Hierarchy) (z : Horizon) : Prop where
  supertypes : ∀ d, z.sees d → ∀ st ∈ h.supertypes d, st.Within z
  params : ∀ d, z.sees d → ∀ p ∈ h.params d, (Applied.mk p []).Within z
  arity : ∀ d, z.arity d = (h.params d).length
  isBottom : ∀ d, z.isBottom d = h.isBottom d

/-- A question about types within a horizon. -/
def Query.Proper (z : Horizon) : Query → Prop
  | .subtype _ _ => True
  | .search t _ _ => t.Within z
  | .common cases _ => ∀ c ∈ cases, c.Within z
  | .substitute b t => (∀ p ∈ b, p.2.Within z) ∧ t.Within z
  | .unite ts => (z.lax ∨ ts ≠ []) ∧ ∀ t ∈ ts, t.Within z
  | .superclass cases t _ => (∀ c ∈ cases, c.Within z) ∧ t.Within z

/-- An answer within a horizon.  A supertype for a declaration applies that declaration. -/
def Query.Right (z : Horizon) : (q : Query) → q.Answer → Prop
  | .subtype _ _, _ => True
  | .search _ d _, r => ∀ a, r = some a → a.decl = d ∧ a.Within z
  | .common _ d, r => ∀ a, r = some a → a.decl = d ∧ a.Within z
  | .substitute _ _, t => t.Within z
  | .unite _, t => t.Within z
  | .superclass _ _ _, r => ∀ a, r = some a → a.Within z

/-- A computation of the type algebra comes to a result with the property, if its questions about types
within the horizon have answers within the horizon. -/
abbrev Algebra.Keeps (z : Horizon) {α : Type} (m : Algebra α) (P : α → Prop) : Prop :=
  m.Ensures (fun _ => True) (fun q r => q.Proper z → q.Right z r) P

namespace Algebra

variable {z : Horizon} {α : Type}

/-- What an algorithm keeps to may be forgotten. -/
theorem Keeps.trivial {m : Algebra α} {P : α → Prop} (h : m.Keeps z P) : m.Keeps z fun _ => True :=
  Dialogue.Ensures.mono h fun _ _ => .intro

/-- The answer to a proper query is right. -/
theorem ask_keeps {q : Query} (h : q.Proper z) :
    Keeps z (.ask q .done : Algebra q.Answer) (q.Right z) :=
  ⟨.intro, fun _ hr => hr h⟩

/-- Every query has an answer. -/
theorem ask_keeps_any (q : Query) : Keeps z (.ask q .done : Algebra q.Answer) fun _ => True :=
  ⟨.intro, fun _ _ => .intro⟩

theorem subtype_keeps (s o : Ty) : (subtype s o).Keeps z fun _ => True :=
  ask_keeps_any (.subtype s o)

theorem argumentConforms_keeps (variance : Syntax.Variance) (s o : Ty) :
    (argumentConforms variance s o).Keeps z fun _ => True := by
  unfold argumentConforms
  split
  · exact .intro
  · cases variance with
    | covariant => exact subtype_keeps s o
    | contravariant => exact subtype_keeps o s
    | invariant =>
      refine .bind (subtype_keeps s o) fun conforms _ => ?_
      split
      · exact subtype_keeps o s
      · exact .intro

theorem argumentsConform_keeps (variances : List Syntax.Variance) (ss os : List Ty) :
    (argumentsConform variances ss os).Keeps z fun _ => True := by
  fun_induction argumentsConform variances ss os with
  | case1 variance variances s ss o os ih =>
    refine .bind (argumentConforms_keeps variance s o) fun conforms _ => ?_
    split
    · exact ih
    · exact .intro
  | case2 => exact .intro

theorem allSubtypes_keeps (o : Ty) (cs : List Applied) :
    (allSubtypes o cs).Keeps z fun _ => True := by
  induction cs with
  | nil => exact .intro
  | cons c cs ih =>
    refine .bind (subtype_keeps _ _) fun covered _ => ?_
    split
    · exact ih
    · exact .intro

/-- If a case is found to be a supertype, there are cases. -/
theorem anySupertype_keeps (s : Applied) (cs : List Applied) :
    (anySupertype s cs).Keeps z fun found => found = true → cs ≠ [] := by
  induction cs with
  | nil => exact nofun
  | cons c cs ih =>
    refine .bind (subtype_keeps _ _) fun covered _ => ?_
    split
    · exact fun _ => List.cons_ne_nil c cs
    · exact ih.mono fun _ _ _ => List.cons_ne_nil c cs

/-- The cases that are kept are among the old ones. -/
theorem notCoveredBy_keeps (t : Applied) (cs : List Applied) :
    (notCoveredBy t cs).Keeps z fun kept => kept ⊆ cs := by
  induction cs with
  | nil => exact List.Subset.refl _
  | cons c cs ih =>
    refine .bind (subtype_keeps _ _) fun covered _ => .bind ih fun kept hkept => ?_
    have hsub : kept ⊆ c :: cs := fun a ha => List.mem_cons_of_mem c (hkept ha)
    cases covered with
    | true => exact hsub
    | false => exact List.cons_subset.mpr ⟨List.mem_cons_self, hsub⟩

/-- All supertypes that are found are in sight, and of the declaration that is searched. -/
theorem searchAll_keeps (d : DeclId) {cs : List Applied} (hcs : ∀ c ∈ cs, c.Within z) :
    (searchAll d cs).Keeps z fun found => ∀ sups, found = some sups →
      ∀ a ∈ sups, a.decl = d ∧ a.Within z := by
  induction cs with
  | nil =>
    rintro sups ⟨rfl⟩
    exact List.forall_mem_nil _
  | cons c cs ih =>
    refine .bind (ask_keeps (q := .search c d []) (hcs c List.mem_cons_self)) fun found hfound => ?_
    cases found with
    | none => exact nofun
    | some a =>
      refine .bind (ih fun c' hc' => hcs c' (List.mem_cons_of_mem c hc')) fun rest hrest => ?_
      intro sups hsups
      obtain ⟨as, has, rfl⟩ := Option.map_eq_some_iff.mp hsups
      exact List.forall_mem_cons.mpr ⟨hfound a rfl, hrest as has⟩

/-- Substituting in types keeps their number and keeps them in sight. -/
theorem substituteAll_keeps {b : Bindings} (hb : ∀ p ∈ b, p.2.Within z) {ts : List Ty}
    (hts : ∀ t ∈ ts, t.Within z) :
    (substituteAll b ts).Keeps z fun r => r.length = ts.length ∧ ∀ t ∈ r, t.Within z := by
  induction ts with
  | nil => exact ⟨rfl, List.forall_mem_nil _⟩
  | cons t ts ih =>
    refine .bind (ask_keeps (q := .substitute b t) ⟨hb, hts t List.mem_cons_self⟩) fun r hr => ?_
    refine .bind (ih fun t' ht' => hts t' (List.mem_cons_of_mem t ht')) fun rs hrs => ?_
    exact ⟨congrArg Nat.succ hrs.1, List.forall_mem_cons.mpr ⟨hr, hrs.2⟩⟩

/-- Substituting in the arguments of a type keeps it in sight. -/
theorem substituteArgs_keeps {b : Bindings} (hb : ∀ p ∈ b, p.2.Within z) {t : Applied}
    (ht : t.Within z) :
    (substituteArgs b t).Keeps z fun r => r.decl = t.decl ∧ r.Within z := by
  unfold substituteArgs
  split
  · exact ⟨rfl, ht⟩
  · refine .bind (substituteAll_keeps hb ht.args) fun args hargs => ⟨rfl, ?_⟩
    exact .mk ht.sees (hargs.1.trans ht.arity) hargs.2

end Algebra

namespace Hierarchy

open Ceylon.Model.Algebra

variable {h : Hierarchy} {z : Horizon}

/-- What a type binds are its arguments. -/
theorem bindings_within {t : Applied} (ht : t.Within z) : ∀ p ∈ h.bindings t, p.2.Within z := by
  intro p hp
  obtain ⟨hmem, -⟩ := List.mem_filter.mp hp
  exact ht.args p.2 (List.of_mem_zip hmem).2

/-- A declaration in sight, applied to its own parameters. -/
theorem declared_within (hc : h.Closed z) {d : DeclId} (hd : z.sees d) :
    (h.declared d).Within z := by
  refine .mk hd ?_ fun a ha => ?_
  · rw [List.length_map, hc.arity]
  · obtain ⟨p, hp, rfl⟩ := List.mem_map.mp ha
    exact .applied (hc.params d hd p hp)

/-- Comparing types builds none. -/
theorem subtypeStep_keeps (s o : Ty) :
    (h.subtypeStep s o).Keeps z fun _ => True := by
  unfold subtypeStep
  split
  · exact .intro
  · exact .intro
  · exact allSubtypes_keeps _ _
  · split
    · exact .intro
    · exact (anySupertype_keeps _ _).trivial
  · split
    · exact .intro
    · refine .bind (ask_keeps_any (.search _ _ [])) fun found _ => ?_
      cases found with
      | none => exact .intro
      | some sup => exact argumentsConform_keeps _ _ _

/-- A supertype for `d`, if there is one, lies within the horizon. -/
def Found (z : Horizon) (d : DeclId) (r : Option Applied) : Prop :=
  ∀ a, r = some a → a.decl = d ∧ a.Within z

/-- Nothing found is in order. -/
theorem found_none (d : DeclId) : Found z d none := by
  rintro _ ⟨⟩

/-- The better one of two types is one of them. -/
theorem better_keeps {d : DeclId} {best found : Option Applied} (hbest : Found z d best)
    (hfound : Found z d found) : (better best found).Keeps z (Found z d) := by
  cases found with
  | none =>
    cases best <;> exact hbest
  | some a =>
    cases best with
    | none => exact hfound
    | some b =>
      refine .bind (subtype_keeps _ _) fun covered _ => ?_
      split
      · exact hfound
      · exact hbest

/-- What is found above supertypes is in sight. -/
theorem searchSupertypes_keeps {t : Applied} {b : Bindings} {d : DeclId} {path : List DeclId}
    (hb : ∀ p ∈ b, p.2.Within z) {best : Option Applied} (hbest : Found z d best)
    {sts : List Applied} (hsts : ∀ st ∈ sts, st.Within z) :
    (searchSupertypes t b d path best sts).Keeps z (Found z d) := by
  induction sts generalizing best with
  | nil => exact hbest
  | cons st sts ih =>
    refine .bind (substituteArgs_keeps hb (hsts st List.mem_cons_self)) fun st' hst' => ?_
    refine .bind (ask_keeps (q := .search st' d (t.decl :: path)) hst'.2) fun found hfound => ?_
    refine .bind (better_keeps hbest hfound) fun best' hbest' => ?_
    exact ih hbest' fun st' hst' => hsts st' (List.mem_cons_of_mem st hst')

/-- What a search finds is in sight. -/
theorem searchStep_keeps (hc : h.Closed z) {t : Applied} (ht : t.Within z) (d : DeclId)
    (path : List DeclId) : (h.searchStep t d path).Keeps z (Found z d) := by
  unfold searchStep
  split
  · next heq =>
    rintro a ⟨rfl⟩
    exact ⟨heq, ht⟩
  · split
    · exact nofun
    · exact searchSupertypes_keeps (bindings_within ht) (found_none d) (hc.supertypes _ ht.sees)

/-- The argument that types in sight have in common, if there is one, is in sight. -/
theorem commonArgument_keeps (variance : Syntax.Variance) {ts : List Ty}
    (hne : z.lax ∨ ts ≠ []) (hts : ∀ t ∈ ts, t.Within z) :
    (commonArgument variance ts).Keeps z fun r => ∀ t, r = some t → t.Within z := by
  cases ts with
  | nil =>
    rintro t ⟨rfl⟩
    exact .unknown (hne.resolve_right fun h => h rfl)
  | cons a as =>
    simp only [commonArgument]
    split
    · refine .bind (ask_keeps (q := .unite (a :: as)) ⟨hne, hts⟩) fun t ht => ?_
      rintro t' ⟨rfl⟩
      exact ht
    · intro t ht
      split at ht
      · obtain rfl := Option.some.inj ht
        exact hts a List.mem_cons_self
      · cases ht

/-- The common arguments of instantiations are in sight, one for each parameter. -/
theorem commonArguments_keeps {d : DeclId} {sups : List Applied} (hne : sups ≠ [])
    (hsups : ∀ a ∈ sups, a.decl = d ∧ a.Within z) (i : Nat) (params : List DeclId)
    (hi : i + params.length ≤ z.arity d) :
    (h.commonArguments sups i params).Keeps z fun r => ∀ args, r = some args →
      args.length = params.length ∧ ∀ t ∈ args, t.Within z := by
  induction params generalizing i with
  | nil =>
    rintro args ⟨rfl⟩
    exact ⟨rfl, List.forall_mem_nil _⟩
  | cons p ps ih =>
    have hwithin : ∀ t ∈ argumentsAt i sups, t.Within z := by
      intro t ht
      obtain ⟨a, ha, hat⟩ := List.mem_filterMap.mp ht
      exact (hsups a ha).2.args t (List.mem_of_getElem? hat)
    -- Every instantiation has an argument here, so that there is something to unite.
    have hnonempty : argumentsAt i sups ≠ [] := by
      obtain ⟨a, ha⟩ := List.exists_mem_of_ne_nil sups hne
      obtain ⟨rfl, hwithin⟩ := hsups a ha
      intro hnil
      have hlt : i < a.args.length := by
        have harity := hwithin.arity
        simp only [List.length_cons] at hi
        omega
      have hmem : a.args[i] ∈ argumentsAt i sups :=
        List.mem_filterMap.mpr ⟨a, ha, List.getElem?_eq_getElem hlt⟩
      rw [hnil] at hmem
      cases hmem
    refine .bind (commonArgument_keeps _ (.inr hnonempty) hwithin) fun r hr => ?_
    cases r with
    | none => exact nofun
    | some t =>
      simp only [List.length_cons] at hi
      refine .bind (ih (i + 1) (by omega)) fun rest hrest => ?_
      intro args hargs
      obtain ⟨as, has, rfl⟩ := Option.map_eq_some_iff.mp hargs
      obtain ⟨hlength, has⟩ := hrest as has
      exact ⟨congrArg Nat.succ hlength, List.forall_mem_cons.mpr ⟨hr t rfl, has⟩⟩

/-- What cases have in common is in sight. -/
theorem commonStep_keeps (hc : h.Closed z) {cases : List Applied} (hcases : ∀ c ∈ cases, c.Within z)
    (d : DeclId) : (h.commonStep cases d).Keeps z (Found z d) := by
  refine .bind (searchAll_keeps d hcases) fun found hfound => ?_
  match found, hfound with
  | none, _ => exact nofun
  | some [], _ => exact nofun
  | some (a :: as), hfound =>
    have hsups := hfound (a :: as) rfl
    refine .bind (commonArguments_keeps (List.cons_ne_nil a as) hsups 0 (h.params d) ?_)
      fun r hr => ?_
    · simp [hc.arity]
    · intro st hst
      obtain ⟨args, hargs, rfl⟩ := Option.map_eq_some_iff.mp hst
      obtain ⟨hlength, hwithin⟩ := hr args hargs
      obtain ⟨rfl, ha⟩ := hsups a List.mem_cons_self
      exact ⟨rfl, .mk ha.sees (hlength.trans (hc.arity _).symm) hwithin⟩

/-- Substituting in an applied type keeps it in sight. -/
theorem substituteApplied_keeps {b : Bindings} (hb : ∀ p ∈ b, p.2.Within z) {t : Applied}
    (ht : t.Within z) : (h.substituteApplied b t).Keeps z fun r => r.Within z := by
  unfold substituteApplied
  split
  · cases hlookup : b.lookup t.decl with
    | none => exact .applied ht
    | some t' => exact hb _ (mem_of_lookup hlookup)
  · exact .bind (substituteArgs_keeps hb ht) fun a ha => .applied ha.2

/-- Substituting in cases keeps them in sight. -/
theorem substituteCases_keeps {b : Bindings} (hb : ∀ p ∈ b, p.2.Within z) {cs : List Applied}
    (hcs : ∀ c ∈ cs, c.Within z) :
    (h.substituteCases b cs).Keeps z fun r =>
      (cs ≠ [] → r ≠ []) ∧ ∀ t ∈ r, t.Within z := by
  induction cs with
  | nil => exact ⟨fun h => absurd rfl h, List.forall_mem_nil _⟩
  | cons c cs ih =>
    refine .bind (substituteApplied_keeps hb (hcs c List.mem_cons_self)) fun t ht => ?_
    refine .bind (ih fun c' hc' => hcs c' (List.mem_cons_of_mem c hc')) fun ts hts => ?_
    exact ⟨fun _ => List.cons_ne_nil t ts, List.forall_mem_cons.mpr ⟨ht, hts.2⟩⟩

/-- Substituting in a type keeps it in sight. -/
theorem substituteStep_keeps {b : Bindings} (hb : ∀ p ∈ b, p.2.Within z) {t : Ty}
    (ht : t.Within z) : (h.substituteStep b t).Keeps z fun r => r.Within z := by
  unfold substituteStep
  split
  · exact ht
  · cases ht with
    | unknown hlax => exact .unknown hlax
    | applied ha => exact substituteApplied_keeps hb ha
    | union hne _ hcases _ =>
      refine .bind (substituteCases_keeps hb hcases) fun ts hts => ?_
      exact ask_keeps (q := .unite ts) ⟨hne.imp id hts.1, hts.2⟩

/-- The cases of a union in the making: within the horizon and none of them the bottom type. -/
def Gathered (z : Horizon) (cases : List Applied) : Prop :=
  ∀ c ∈ cases, c.Within z ∧ z.isBottom c.decl = false

/-- Adding a case keeps cases in sight, and leaves some if the new one is not the bottom. -/
theorem addCase_keeps (hc : h.Closed z) {cases : List Applied} (hcases : Gathered z cases)
    {t : Applied} (ht : t.Within z) :
    (h.addCase cases t).Keeps z fun r => Gathered z r ∧
      (cases ≠ [] ∨ z.isBottom t.decl = false → r ≠ []) := by
  unfold addCase
  split
  · next hbottom =>
    refine ⟨hcases, fun hne => hne.resolve_right ?_⟩
    rw [hc.isBottom, hbottom]
    exact nofun
  · next hbottom =>
    refine .bind (anySupertype_keeps t cases) fun covered hcovered => ?_
    split
    · exact ⟨hcases, fun _ => hcovered ‹_›⟩
    · refine .bind (notCoveredBy_keeps t cases) fun kept hkept => ⟨?_, fun _ => by simp⟩
      refine List.forall_mem_append.mpr ⟨fun c hc' => hcases c (hkept hc'), ?_⟩
      refine List.forall_mem_singleton.mpr ⟨ht, ?_⟩
      rw [hc.isBottom]
      exact Bool.not_eq_true _ |>.mp hbottom

/-- Adding cases keeps cases in sight, and leaves some if one of the new ones is not the bottom. -/
theorem addCases_keeps (hc : h.Closed z) {cases : List Applied} (hcases : Gathered z cases)
    {ts : List Applied} (hts : ∀ t ∈ ts, t.Within z) :
    (h.addCases cases ts).Keeps z fun r => Gathered z r ∧
      (cases ≠ [] ∨ (∃ t ∈ ts, z.isBottom t.decl = false) → r ≠ []) := by
  induction ts generalizing cases with
  | nil => exact ⟨hcases, fun hne => hne.resolve_right (by simp)⟩
  | cons t ts ih =>
    refine .bind (addCase_keeps hc hcases (hts t List.mem_cons_self)) fun r hr => ?_
    refine (ih hr.1 fun t' ht' => hts t' (List.mem_cons_of_mem t ht')).mono fun r' hr' => ?_
    refine ⟨hr'.1, fun hne => hr'.2 ?_⟩
    rcases hne with hne | ⟨t', ht', hbottom⟩
    · exact .inl (hr.2 (.inl hne))
    · rcases List.mem_cons.mp ht' with rfl | ht'
      · exact .inl (hr.2 (.inr hbottom))
      · exact .inr ⟨t', ht', hbottom⟩

/-- A known type that is not the bottom type has a case that is not. -/
theorem exists_case_of_not_bottom (hc : h.Closed z) {t : Ty} (ht : t.Within z)
    (hbottom : h.isBottomType t = false) :
    z.lax ∨ ∃ c ∈ t.cases, z.isBottom c.decl = false := by
  cases ht with
  | unknown hlax => exact .inl hlax
  | @applied a ha => exact .inr ⟨a, List.mem_singleton_self a, (hc.isBottom _).trans hbottom⟩
  | @union cases _ hne hproper _ _ =>
    rcases hne with hlax | hne
    · exact .inl hlax
    · obtain ⟨c, hcases⟩ := List.exists_mem_of_ne_nil cases hne
      exact hproper.imp id fun h => ⟨c, hcases, h c hcases⟩

/-- The union of types is in sight. -/
theorem uniteStep_keeps (hc : h.Closed z) {ts : List Ty} (hne : z.lax ∨ ts ≠ [])
    (hts : ∀ t ∈ ts, t.Within z) : (h.uniteStep ts).Keeps z fun r => r.Within z := by
  have hcases : ∀ c ∈ ts.flatMap Ty.cases, c.Within z := by
    intro c hmem
    obtain ⟨t, ht, hmem⟩ := List.mem_flatMap.mp hmem
    exact (hts t ht).cases c hmem
  refine .bind (addCases_keeps hc (List.forall_mem_nil _) hcases) fun r hr => ?_
  match r, hr with
  | [], hr =>
    cases hfind : ts.find? h.isBottomType with
    | some t => exact hts t (List.mem_of_find?_eq_some hfind)
    | none =>
      -- Without a bottom type there is a case left, unless something is unknown.
      refine .unknown ?_
      rcases hne with hlax | hne
      · exact hlax
      · obtain ⟨t, ht⟩ := List.exists_mem_of_ne_nil ts hne
        have hbottom := Bool.not_eq_true _ |>.mp (List.find?_eq_none.mp hfind t ht)
        rcases exists_case_of_not_bottom hc (hts t ht) hbottom with hlax | ⟨c, hc', hcb⟩
        · exact hlax
        · exact absurd rfl (hr.2 (.inr ⟨c, List.mem_flatMap.mpr ⟨t, ht, hc'⟩, hcb⟩))
  | [a], hr => exact .applied (hr.1 a List.mem_cons_self).1
  | a :: b :: rest, hr =>
    have hall : ∀ c ∈ a :: b :: rest, c.Within z := fun c hc' => (hr.1 c hc').1
    refine .bind (ask_keeps (q := .superclass (a :: b :: rest) a [])
      ⟨hall, hall a List.mem_cons_self⟩) fun above habove => ?_
    exact .union (.inr (List.cons_ne_nil _ _)) (.inr fun c hc' => (hr.1 c hc').2) hall habove

/-- What a union extends is in sight. -/
theorem superclassStep_keeps (hc : h.Closed z) {cases : List Applied}
    (hcases : ∀ c ∈ cases, c.Within z) {t : Applied} (ht : t.Within z) (seen : List DeclId) :
    (h.superclassStep cases t seen).Keeps z fun r => ∀ a, r = some a → a.Within z := by
  unfold superclassStep
  split
  · exact nofun
  · -- The class itself may be common to the cases; else the search goes on with the class that it extends.
    have hclass : (h.commonClass cases t.decl).Keeps z fun r => ∀ a, r = some a → a.Within z := by
      unfold commonClass
      split
      · exact (ask_keeps (q := .common cases t.decl) hcases).mono fun r hr a ha => (hr a ha).2
      · exact nofun
    refine .bind hclass fun r hr => ?_
    cases r with
    | some st => exact hr
    | none =>
      cases hextended : h.extended t.decl with
      | none => exact nofun
      | some st =>
        have hst : st.Within z :=
          hc.supertypes t.decl ht.sees st (by simp [supertypes, hextended])
        refine .bind (substituteArgs_keeps (bindings_within ht) hst) fun st' hst' => ?_
        exact ask_keeps (q := .superclass cases st' (t.decl :: seen)) ⟨hcases, hst'.2⟩

/-- The rule of each question about types within a horizon leads to answers within it. -/
theorem step_keeps (hc : h.Closed z) (q : Query) (hq : q.Proper z) :
    (h.step q).Keeps z (q.Right z) := by
  cases q with
  | subtype s o => exact subtypeStep_keeps s o
  | search t d path => exact searchStep_keeps hc hq d path
  | common cases d => exact commonStep_keeps hc hq d
  | substitute b t => exact substituteStep_keeps hq.1 hq.2
  | unite ts => exact uniteStep_keeps hc hq.1 hq.2
  | superclass cases t seen => exact superclassStep_keeps hc hq.1 hq.2 seen

/-- The answers to questions about types within a horizon lie within it. -/
theorem answer_within (hc : h.Closed z) {depth : Nat} {q : Query} (hq : q.Proper z) {r : q.Answer}
    (hr : h.answerWithin depth q = some r) : q.Right z r := by
  induction depth generalizing q with
  | zero => cases hr
  | succ depth ih => exact (step_keeps hc q hq).of_run (fun q r _ h hq => ih hq h) hr

/-- The supertype of a type in sight is in sight. -/
theorem supertype_within (hc : h.Closed z) {t : Ty} (ht : t.Within z) (d : DeclId) :
    Found z d (h.supertype? t d) := by
  intro a ha
  cases ht with
  | unknown _ => cases ha
  | @applied t ht => exact answer_within hc (q := .search t d []) ht (Option.join_eq_some_iff.mp ha) a rfl
  | @union cases _ _ _ hcases _ =>
    exact answer_within hc (q := .common cases d) hcases (Option.join_eq_some_iff.mp ha) a rfl

/-- Substituting types in sight gives a type in sight. -/
theorem substitute_within (hc : h.Closed z) {b : Bindings} (hb : ∀ p ∈ b, p.2.Within z) {t : Ty}
    (ht : t.Within z) : (h.substitute b t).Within z := by
  unfold substitute
  cases hr : h.answer? (.substitute b t) with
  | none => exact ht
  | some r => exact answer_within hc (q := .substitute b t) ⟨hb, ht⟩ hr

/-- The union of types in sight is in sight. -/
theorem unite_within (hc : h.Closed z) {ts : List Ty} (hne : z.lax ∨ ts ≠ [])
    (hts : ∀ t ∈ ts, t.Within z) : (h.unite ts).Within z := by
  unfold unite
  cases hr : h.answer? (.unite ts) with
  | some r => exact answer_within hc (q := .unite ts) ⟨hne, hts⟩ hr
  | none =>
    cases hfind : ts.find? Ty.isKnown with
    | some t => exact hts t (List.mem_of_find?_eq_some hfind)
    | none =>
      refine .unknown (hne.elim id fun hne => ?_)
      obtain ⟨t, ht⟩ := List.exists_mem_of_ne_nil ts hne
      exact (hts t ht).lax_of_unknown (Bool.not_eq_true _ |>.mp (List.find?_eq_none.mp hfind t ht))

end Hierarchy

/-! ## Types built from the language's declarations -/

namespace Builtins

variable {h : Hierarchy} {z : Horizon} {b : Builtins}

/-- The optional of a type in sight is in sight. -/
theorem optional_within (hc : h.Closed z) (hnothing : (plain b.nothing).Within z) {t : Ty}
    (ht : t.Within z) : (b.optional h t).Within z :=
  h.unite_within hc (.inr (List.cons_ne_nil _ _))
    (List.forall_mem_cons.mpr ⟨hnothing, List.forall_mem_singleton.mpr ht⟩)

/-- What is left of a type in sight without the missing value is in sight. -/
theorem definite_within (hc : h.Closed z) (hbottom : (plain b.bottom).Within z) {t : Ty}
    (ht : t.Within z) : (b.definite h t).Within z := by
  cases ht with
  | unknown hlax => exact .unknown hlax
  | applied ha =>
    simp only [definite]
    split
    · exact hbottom
    · exact .applied ha
  | @union cases _ _ _ hcases _ =>
    simp only [definite]
    split
    · exact hbottom
    · next kept hne =>
      refine h.unite_within hc (.inr fun hnil => hne (List.map_eq_nil_iff.mp hnil)) fun t ht => ?_
      obtain ⟨c, hc', rfl⟩ := List.mem_map.mp ht
      exact .applied (hcases c (List.mem_filter.mp hc').1)

end Builtins

end Ceylon.Model
