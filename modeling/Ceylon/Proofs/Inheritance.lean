import Mathlib.Logic.Relation
import Ceylon.Proofs.TypeHorizon

/-!
# What types inherit

The supertypes of a type are those of its declaration with the arguments of the type in place of the
parameters.  The type algebra normalizes unions while it substitutes, and for that it asks questions that
need not have answers.  Here the arguments are only put in place (`Hierarchy.instantiate`), so that what a
type inherits (`Hierarchy.Inherits`) is there whether or not the algebra finds it.

The type algebra does not enter a declaration twice on one way up.  Nothing is lost by that as far as
declarations go: if one leads to another at all, it does so without coming back to where it began
(`Hierarchy.leads_avoiding`).
-/

namespace Ceylon.Model

namespace Hierarchy

/-! ## Arguments in place of parameters -/

/-- The cases of several types in one type, without bottom types if there is anything else. -/
def joined (h : Hierarchy) (ts : List Ty) : Ty :=
  match (ts.flatMap Ty.cases).filter fun c => !h.isBottom c.decl with
  | [] => (ts.find? h.isBottomType).getD .unknown
  | cases => .union cases none

mutual

/-- A type with the bound type parameters replaced throughout; unions are not normalized. -/
def instantiate (h : Hierarchy) (b : Bindings) : Ty → Ty
  | .unknown => .unknown
  | .applied a => h.instantiateApplied b a
  | .union cases _ => h.joined (h.instantiateCases b cases)

/-- An application with the bound type parameters replaced, which may be one itself. -/
def instantiateApplied (h : Hierarchy) (b : Bindings) : Applied → Ty
  | { decl, args } =>
    if h.isParameter decl then (b.lookup decl).getD (.applied ⟨decl, args⟩)
    else .applied ⟨decl, h.instantiateArgs b args⟩

/-- Arguments with the bound type parameters replaced. -/
def instantiateArgs (h : Hierarchy) (b : Bindings) : List Ty → List Ty
  | [] => []
  | t :: ts => h.instantiate b t :: h.instantiateArgs b ts

/-- The cases of a union with the bound type parameters replaced. -/
def instantiateCases (h : Hierarchy) (b : Bindings) : List Applied → List Ty
  | [] => []
  | c :: cs => h.instantiateApplied b c :: h.instantiateCases b cs

end

/-- A supertype `st` of the declaration of `t` as a supertype of `t`. -/
def supertypeAt (h : Hierarchy) (t st : Applied) : Applied :=
  if (h.bindings t).isEmpty then st else ⟨st.decl, h.instantiateArgs (h.bindings t) st.args⟩

@[simp] theorem supertypeAt_decl (h : Hierarchy) (t st : Applied) :
    (h.supertypeAt t st).decl = st.decl := by
  unfold supertypeAt
  split <;> rfl

/-- The second type is one that the declaration of the first one extends or satisfies. -/
def Declares (h : Hierarchy) (t v : Applied) : Prop :=
  ∃ st ∈ h.supertypes t.decl, v = h.supertypeAt t st

/-- The second type is the first one or comes from what its declaration extends and satisfies. -/
def Inherits (h : Hierarchy) : Applied → Applied → Prop :=
  Relation.ReflTransGen h.Declares

/-- The first type inherits the second one on a way on which no declaration comes up twice, nor one of `path`. -/
inductive InheritsOnce (h : Hierarchy) : (path : List DeclId) → Applied → Applied → Prop
  | here {path : List DeclId} {t : Applied} (new : t.decl ∉ path) : InheritsOnce h path t t
  | up {path : List DeclId} {t st w : Applied} (new : t.decl ∉ path) (mem : st ∈ h.supertypes t.decl)
      (rest : InheritsOnce h (t.decl :: path) (h.supertypeAt t st) w) : InheritsOnce h path t w

variable {h : Hierarchy} {z : Horizon}

/-! ## Cases taken together -/

theorem mem_cases_joined {ts : List Ty} {t : Ty} (ht : t ∈ ts) {c : Applied} (hc : c ∈ t.cases)
    (hbottom : h.isBottom c.decl = false) : c ∈ (h.joined ts).cases := by
  have hmem : c ∈ (ts.flatMap Ty.cases).filter fun c => !h.isBottom c.decl :=
    List.mem_filter.mpr ⟨List.mem_flatMap.mpr ⟨t, ht, hc⟩, by simp [hbottom]⟩
  unfold joined
  split
  · next hnil =>
    rw [hnil] at hmem
    cases hmem
  · exact hmem

theorem of_mem_cases_joined {ts : List Ty} {c : Applied} (hc : c ∈ (h.joined ts).cases) :
    ∃ t ∈ ts, c ∈ t.cases := by
  unfold joined at hc
  split at hc
  · cases hfind : ts.find? h.isBottomType with
    | none => simp [hfind, Ty.cases] at hc
    | some t =>
      rw [hfind] at hc
      exact ⟨t, List.mem_of_find?_eq_some hfind, hc⟩
  · exact List.mem_flatMap.mp (List.mem_of_mem_filter hc)

theorem joined_within (closed : h.Closed z) {ts : List Ty} (hne : z.lax ∨ ts ≠ [])
    (hts : ∀ t ∈ ts, t.Within z) : (h.joined ts).Within z := by
  unfold joined
  split
  · next hnil =>
    cases hfind : ts.find? h.isBottomType with
    | some t => exact hts t (List.mem_of_find?_eq_some hfind)
    | none =>
      -- Without a bottom type there is a case left, unless something is unknown.
      refine .unknown (hne.elim id fun hne => ?_)
      obtain ⟨t, ht⟩ := List.exists_mem_of_ne_nil ts hne
      have hbottom := Bool.not_eq_true _ |>.mp (List.find?_eq_none.mp hfind t ht)
      refine (exists_case_of_not_bottom closed (hts t ht) hbottom).elim id ?_
      rintro ⟨c, hc, hproper⟩
      rw [closed.isBottom] at hproper
      have hmem : c ∈ (ts.flatMap Ty.cases).filter fun c => !h.isBottom c.decl :=
        List.mem_filter.mpr ⟨List.mem_flatMap.mpr ⟨t, ht, hc⟩, by simp [hproper]⟩
      rw [hnil] at hmem
      cases hmem
  · next hne' =>
    refine .union (.inr hne') (.inr fun c hc => ?_) (fun c hc => ?_) nofun
    · rw [closed.isBottom]
      simpa using List.of_mem_filter hc
    · obtain ⟨t, ht, hct⟩ := List.mem_flatMap.mp (List.mem_of_mem_filter hc)
      exact (hts t ht).cases c hct

/-! ## Inherited types lie within the horizon -/

theorem length_instantiateArgs (b : Bindings) (ts : List Ty) :
    (h.instantiateArgs b ts).length = ts.length := by
  induction ts with
  | nil => rfl
  | cons t ts ih => rw [instantiateArgs, List.length_cons, ih, List.length_cons]

mutual

theorem instantiate_within (closed : h.Closed z) {b : Bindings} (hb : ∀ p ∈ b, p.2.Within z) :
    (t : Ty) → t.Within z → (h.instantiate b t).Within z
  | .unknown, ht => ht
  | .applied a, ht => instantiateApplied_within closed hb a ht.of_applied
  | .union cases _, .union hne _ hcases _ =>
    have hne' : cases ≠ [] → h.instantiateCases b cases ≠ [] := by
      intro hne
      obtain ⟨c, cs, rfl⟩ := List.exists_cons_of_ne_nil hne
      exact List.cons_ne_nil _ _
    joined_within closed (hne.imp id hne') (instantiateCases_within closed hb cases hcases)

theorem instantiateApplied_within (closed : h.Closed z) {b : Bindings}
    (hb : ∀ p ∈ b, p.2.Within z) :
    (a : Applied) → a.Within z → (h.instantiateApplied b a).Within z
  | { decl, args }, ha => by
    rw [instantiateApplied]
    split
    · cases hlookup : b.lookup decl with
      | none => exact .applied ha
      | some t => exact hb _ (mem_of_lookup hlookup)
    · refine .applied (.mk ha.sees ?_ (instantiateArgs_within closed hb args ha.args))
      exact (length_instantiateArgs b args).trans ha.arity

theorem instantiateArgs_within (closed : h.Closed z) {b : Bindings} (hb : ∀ p ∈ b, p.2.Within z) :
    (ts : List Ty) → (∀ t ∈ ts, t.Within z) → ∀ t ∈ h.instantiateArgs b ts, t.Within z
  | [], _ => List.forall_mem_nil _
  | t :: ts, hts =>
    have ⟨ht, hts⟩ := List.forall_mem_cons.mp hts
    List.forall_mem_cons.mpr
      ⟨instantiate_within closed hb t ht, instantiateArgs_within closed hb ts hts⟩

theorem instantiateCases_within (closed : h.Closed z) {b : Bindings}
    (hb : ∀ p ∈ b, p.2.Within z) :
    (cs : List Applied) → (∀ c ∈ cs, c.Within z) → ∀ t ∈ h.instantiateCases b cs, t.Within z
  | [], _ => List.forall_mem_nil _
  | c :: cs, hcs =>
    have ⟨hc, hcs⟩ := List.forall_mem_cons.mp hcs
    List.forall_mem_cons.mpr
      ⟨instantiateApplied_within closed hb c hc, instantiateCases_within closed hb cs hcs⟩

end

theorem supertypeAt_within (closed : h.Closed z) {t st : Applied} (ht : t.Within z)
    (hst : st.Within z) : (h.supertypeAt t st).Within z := by
  unfold supertypeAt
  split
  · exact hst
  · refine .mk hst.sees ?_ (instantiateArgs_within closed (bindings_within ht) _ hst.args)
    exact (length_instantiateArgs _ _).trans hst.arity

theorem Declares.within (closed : h.Closed z) {t v : Applied} (ht : t.Within z)
    (hv : h.Declares t v) : v.Within z := by
  obtain ⟨st, hst, rfl⟩ := hv
  exact supertypeAt_within closed ht (closed.supertypes _ ht.sees st hst)

/-- What a type within a horizon inherits lies within it. -/
theorem Inherits.within (closed : h.Closed z) {t v : Applied} (ht : t.Within z)
    (hv : h.Inherits t v) : v.Within z := by
  induction hv with
  | refl => exact ht
  | tail _ hstep ih => exact hstep.within closed ih

/-- Where no declaration extends the bottom type, only the bottom type inherits it. -/
theorem Inherits.isBottom (proper : ∀ d, ∀ st ∈ h.supertypes d, h.isBottom st.decl = false)
    {t v : Applied} (hv : h.Inherits t v) (hbottom : h.isBottom v.decl = true) :
    h.isBottom t.decl = true := by
  cases hv with
  | refl => exact hbottom
  | tail _ hstep =>
    obtain ⟨st, hst, rfl⟩ := hstep
    rw [supertypeAt_decl, proper _ st hst] at hbottom
    cases hbottom

/-- Where no declaration extends the bottom type, no other type inherits it. -/
theorem Inherits.proper_of_ne (proper : ∀ d, ∀ st ∈ h.supertypes d, h.isBottom st.decl = false)
    {t v : Applied} (hv : h.Inherits t v) (hne : t.decl ≠ v.decl) : h.isBottom v.decl = false := by
  cases hv with
  | refl => exact absurd rfl hne
  | tail _ hstep =>
    obtain ⟨st, hst, rfl⟩ := hstep
    rw [supertypeAt_decl]
    exact proper _ st hst

namespace InheritsOnce

variable {path : List DeclId} {t w : Applied}

theorem inherits (hw : h.InheritsOnce path t w) : h.Inherits t w := by
  induction hw with
  | here => exact .refl
  | up _ mem _ ih => exact .head ⟨_, mem, rfl⟩ ih

/-- What comes up on the way is not in `path`. -/
theorem new (hw : h.InheritsOnce path t w) : t.decl ∉ path ∧ w.decl ∉ path := by
  induction hw with
  | here new => exact ⟨new, new⟩
  | up new _ _ ih => exact ⟨new, fun hmem => ih.2 (List.mem_cons_of_mem _ hmem)⟩

/-- The way does not come back to the declaration where it began. -/
theorem eq_of_decl (hw : h.InheritsOnce path t w) (hdecl : w.decl = t.decl) : w = t := by
  cases hw with
  | here => rfl
  | up _ _ rest => exact absurd (hdecl ▸ List.mem_cons_self) rest.new.2

end InheritsOnce

/-! ## Ways from declaration to declaration -/

/-- A declaration outside of `path` has a supertype that applies the other declaration. -/
def Enters (h : Hierarchy) (path : List DeclId) (d e : DeclId) : Prop :=
  d ∉ path ∧ ∃ st ∈ h.supertypes d, st.decl = e

/-- A declaration leads to another one, without passing through those in `path`. -/
def Leads (h : Hierarchy) (path : List DeclId) : DeclId → DeclId → Prop :=
  Relation.ReflTransGen (h.Enters path)

theorem Inherits.leads {t v : Applied} (hv : h.Inherits t v) : h.Leads [] t.decl v.decl := by
  induction hv with
  | refl => exact .refl
  | tail _ hstep ih =>
    obtain ⟨st, hst, rfl⟩ := hstep
    exact ih.tail ⟨List.not_mem_nil, st, hst, (supertypeAt_decl ..).symm⟩

theorem InheritsOnce.leads {path : List DeclId} {t w : Applied} (hw : h.InheritsOnce path t w) :
    h.Leads path t.decl w.decl := by
  induction hw with
  | here => exact .refl
  | up new mem _ ih =>
    refine .head ⟨new, _, mem, (supertypeAt_decl ..).symm⟩ (Relation.ReflTransGen.mono ?_ _ _ ih)
    exact fun _ _ hstep => ⟨fun hmem => hstep.1 (List.mem_cons_of_mem _ hmem), hstep.2⟩

/-- A way either avoids a declaration, or what is left of it behind the last visit there does. -/
theorem Leads.avoid {path : List DeclId} {e d : DeclId} (hway : h.Leads path e d) (x : DeclId) :
    h.Leads (x :: path) e d ∨ ∃ st ∈ h.supertypes x, h.Leads (x :: path) st.decl d := by
  induction hway using Relation.ReflTransGen.head_induction_on with
  | refl => exact .inl .refl
  | @head e e' hstep _ ih =>
    rcases ih with hway | hway
    · obtain ⟨hpath, st, hst, rfl⟩ := hstep
      by_cases hx : e = x
      · exact .inr ⟨st, hx ▸ hst, hway⟩
      · refine .inl (.head ⟨?_, st, hst, rfl⟩ hway)
        simp [hx, hpath]
    · exact .inr hway

/-- A declaration that leads to another one does so without coming back to where it began. -/
theorem leads_avoiding {path : List DeclId} {e d : DeclId} (hway : h.Leads path e d) (hne : e ≠ d) :
    e ∉ path ∧ ∃ st ∈ h.supertypes e, h.Leads (e :: path) st.decl d := by
  have hfirst : ∀ {path}, h.Leads path e d → e ∉ path := by
    intro path hway
    rcases hway.cases_head with rfl | ⟨e', hstep, -⟩
    · exact absurd rfl hne
    · exact hstep.1
  refine ⟨hfirst hway, (hway.avoid e).resolve_left fun hway => ?_⟩
  exact hfirst hway List.mem_cons_self

end Hierarchy

end Ceylon.Model
