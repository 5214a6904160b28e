import Ceylon.Proofs.Beginning
import Ceylon.Proofs.Formation

/-!
# The language module is well formed

What is known before a program is loaded is about the language module alone: what can be gone through
(`State.isStocked`) is well formed and complete (`State.initial_loaded`).
-/

namespace Ceylon

namespace Model

/-! ## Types built from a graph -/

/-- All declarations of a graph are in sight. -/
def Graph.horizon (g : Graph) : Horizon where
  lax := False
  sees d := d.index < g.decls.size
  arity d := (g.decl d).shape.typeParams.length
  isBottom d := g.hierarchy.isBottom d

section

variable {g : Graph}

mutual

theorem Ty.within_of_isBuilt : {t : Ty} → t.isBuilt g = true → t.Within g.horizon
  | .unknown, h => nomatch h
  | .applied a, h => .applied (a.within_of_isBuilt h)
  | .union cases none, h => by
    simp only [Ty.isBuilt, Bool.and_eq_true, Bool.not_eq_true', List.isEmpty_eq_false_iff] at h
    have hcases := cases_of_casesBuilt h.2
    exact .union (.inr h.1) (.inr fun c hc => (hcases c hc).1) (fun c hc => (hcases c hc).2) nofun
  | .union cases (some a), h => by
    simp only [Ty.isBuilt, Bool.and_eq_true, Bool.not_eq_true', List.isEmpty_eq_false_iff] at h
    have hcases := cases_of_casesBuilt h.1.2
    refine .union (.inr h.1.1) (.inr fun c hc => (hcases c hc).1) (fun c hc => (hcases c hc).2) ?_
    rintro _ ⟨rfl⟩
    exact a.within_of_isBuilt h.2

theorem Applied.within_of_isBuilt : (a : Applied) → a.isBuilt g = true → a.Within g.horizon
  | { decl, args }, h => by
    simp only [Applied.isBuilt, Bool.and_eq_true, decide_eq_true_eq, beq_iff_eq] at h
    exact .mk h.1.1 h.1.2 (args_of_argsBuilt h.2)

theorem args_of_argsBuilt : {ts : List Ty} → argsBuilt g ts = true → ∀ t ∈ ts, t.Within g.horizon
  | [], _ => List.forall_mem_nil _
  | t :: ts, h => by
    simp only [argsBuilt, Bool.and_eq_true] at h
    exact List.forall_mem_cons.mpr ⟨Ty.within_of_isBuilt h.1, args_of_argsBuilt h.2⟩

theorem cases_of_casesBuilt : {as : List Applied} → casesBuilt g as = true →
    ∀ a ∈ as, g.horizon.isBottom a.decl = false ∧ a.Within g.horizon
  | [], _ => List.forall_mem_nil _
  | a :: as, h => by
    simp only [casesBuilt, Bool.and_eq_true, Bool.not_eq_true'] at h
    exact List.forall_mem_cons.mpr ⟨⟨h.1.1, a.within_of_isBuilt h.1.2⟩, cases_of_casesBuilt h.2⟩

end

end

end Model

namespace Analysis

open Model Syntax

namespace State

/-! ## Going through a state -/

section

variable {s : State} (h : s.isStocked = true)
include h

/-- A declaration that has been gone through. -/
theorem isSettledDecl_of_isStocked {d : DeclId} (hd : d.index < s.graph.decls.size) :
    isSettledDecl s.graph (s.graph.decl d) = true := by
  simp only [isStocked, Bool.and_eq_true] at h
  rw [Graph.decl, Array.getD_eq_getD_getElem?, Array.getElem?_eq_getElem hd]
  exact Array.all_eq_true.mp (by tauto) _ hd

/-- Everything built from the declarations is in sight everywhere. -/
theorem horizon_le_of_isStocked (ℓ : Leeway) (c : ScopeChain) : s.graph.horizon.Le (s.around ℓ c) where
  lax := False.elim
  sees d hd := by
    refine ⟨hd, fun b hb => ?_⟩
    have hsettled := isSettledDecl_of_isStocked h hd
    simp only [isSettledDecl, Bool.and_eq_true] at hsettled
    exact absurd (List.all_eq_true.mp hsettled.1.1.1.1.1 _ hb) nofun
  arity _ _ := rfl
  isBottom _ _ := rfl

/-- There is no unit but that of the language module. -/
theorem unit_of_isStocked {u : UnitId} (hu : u ≠ languageUnit) : s.unit u = default := by
  simp only [isStocked, Bool.and_eq_true, decide_eq_true_eq] at h
  have hsize : s.units.size = 1 := by tauto
  have hindex : u.index ≠ 0 := fun h => hu (congrArg UnitId.mk h)
  rw [unit, Array.getD_eq_getD_getElem?, Array.getElem?_eq_none (by omega)]
  rfl

theorem unchecked_of_isStocked (ℓ : Leeway) : s.Unchecked ℓ := by
  have hdecl := fun d => isSettledDecl_of_isStocked h (d := d)
  have hle := horizon_le_of_isStocked h ℓ
  have hother := fun u => unit_of_isStocked h (u := u)
  simp only [isStocked, Bool.and_eq_true, List.all_eq_true, decide_eq_true_eq, beq_iff_eq, List.isEmpty_iff] at h
  obtain ⟨⟨⟨⟨⟨⟨⟨⟨⟨⟨⟨⟨-, hsimple⟩, hgeneric⟩, hrefs⟩, hexprs⟩, hinferred⟩, hchecked⟩, hsize⟩, hbound⟩, -⟩, -⟩,
    himports⟩, hdefault⟩ := h
  simp only [isSettledDecl, Bool.and_eq_true, Bool.or_eq_true, Bool.not_eq_true', decide_eq_true_eq,
    List.all_eq_true, List.isEmpty_iff] at hdecl
  -- The facts in the order of the structure; each is one of the tests, read over all entries of its table.
  refine ⟨⟨⟨⟨fun d hd => ?_, fun p hp => ?_⟩, fun d hd st hst => ?_, fun d hd hknown => ?_, fun d hd hkind => ?_,
    fun u i hi => ?_, fun k t ht => ?_⟩, ?_, fun k t ht => ?_, hbound, fun d hd htyped => ?_,
    fun d hunit htyped => ?_⟩, fun k t ht => ?_, fun k => ?_, fun k hk => ?_, fun u hu => ?_⟩
  · have hwithin := (Applied.within_of_isBuilt _ (hsimple d hd)).mono (hle [])
    exact ⟨hwithin.sees, hwithin.arity.symm⟩
  · obtain ⟨hvalid, harity⟩ := hgeneric p hp
    exact ⟨(hle []).sees p.1 hvalid, harity⟩
  · have hbuilt : st.isBuilt s.graph = true := by
      rcases List.mem_append.mp hst with hst | hst
      · exact Option.all_eq_true _ _ |>.mp (hdecl d hd).1.1.1.1.2 st (Option.mem_toList.mp hst)
      · exact (hdecl d hd).1.1.1.2 st hst
    exact (st.within_of_isBuilt hbuilt).mono (hle _)
  · exact (Ty.within_of_isBuilt ((hdecl d hd).1.2.resolve_left (by simp [hknown]))).mono (hle _)
  · exact (hdecl d hd).2.resolve_left (not_not_intro hkind)
  · by_cases hu : u = languageUnit
    · subst hu
      rw [himports] at hi
      cases hi
    · rw [hother u hu] at hi
      cases hi
  · obtain ⟨-, ht⟩ := hrefs _ (Std.ExtTreeMap.mem_toList_iff_getElem?_eq_some.mpr ht)
    exact (Ty.within_of_isBuilt ht).mono (hle _)
  · exact (Applied.within_of_isBuilt _ hdefault).mono (hle _)
  · obtain ⟨hunit, -⟩ := hrefs _ (Std.ExtTreeMap.mem_toList_iff_getElem?_eq_some.mpr ht)
    exact hunit ▸ hbound
  · obtain ⟨hunit, -⟩ := (hdecl d hd).1.1.2.resolve_left (by simpa [Shape.isTyped] using htyped)
    exact Option.isSome_iff_exists.mp hunit
  · have hvalid : d.index < s.graph.decls.size := by
      by_contra hinvalid
      rw [Graph.decl, Array.getD_eq_getD_getElem?, Array.getElem?_eq_none (by omega)] at hunit
      cases hunit
    obtain ⟨-, hbuilt⟩ := (hdecl d hvalid).1.1.2.resolve_left (by simpa [Shape.isTyped] using htyped)
    cases ht : (s.graph.decl d).shape.type with
    | unknown =>
      rw [ht] at hbuilt
      cases hbuilt
    | applied a => rfl
    | union cases extended => rfl
  · exact (Ty.within_of_isBuilt (hexprs _ (Std.ExtTreeMap.mem_toList_iff_getElem?_eq_some.mpr ht))).mono (hle _)
  · rw [Std.ExtTreeMap.isEmpty_iff.mp hinferred]
    rfl
  · exact hchecked k (Std.ExtTreeSet.mem_toList.mpr hk)
  · rw [hother u hu]
    decide

theorem accounted_of_isStocked : s.Accounted fun _ => False := by
  have hother := fun u => unit_of_isStocked h (u := u)
  simp only [isStocked, Bool.and_eq_true, decide_eq_true_eq] at h
  obtain ⟨⟨⟨⟨⟨⟨-, hsize⟩, hbound⟩, hfine⟩, hclean⟩, -⟩, -⟩ := h
  have hnone : ∀ u, (s.unit u).failure = none ∧ (s.unit u).diagnostics = #[] := by
    intro u
    by_cases hu : u = languageUnit
    · subst hu
      exact ⟨Option.isNone_iff_eq_none.mp hfine, Array.isEmpty_iff.mp hclean⟩
    · rw [hother u hu]
      exact ⟨rfl, rfl⟩
  refine ⟨fun u hu => .inr (.inl ?_), fun u hu => ?_, fun u d hd => ?_⟩
  · by_cases hlanguage : u = languageUnit
    · exact hlanguage ▸ hbound
    · exact absurd (congrArg UnitId.mk (show u.index = 0 by omega)) hlanguage
  · rw [(hnone u).1] at hu
    cases hu
  · rw [(hnone u).2] at hd
    simp at hd

theorem early_of_isStocked {u : UnitId} (hu : u ≠ languageUnit) : (s.unit u).phase.atLeast .namesResolved = false := by
  rw [unit_of_isStocked h hu]
  rfl

end

end State

/-! ## The initial state -/

namespace State

theorem initial_loaded (ℓ : Leeway) : State.initial.Loaded ℓ where
  toUnchecked := unchecked_of_isStocked initial_isStocked ℓ
  reached := .initial
  early _ hu := early_of_isStocked initial_isStocked hu

theorem initial_accounted : State.initial.Accounted fun _ => False :=
  accounted_of_isStocked initial_isStocked

end State

end Analysis

end Ceylon
