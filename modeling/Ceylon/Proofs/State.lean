import Ceylon.Analysis.Resolution
import Ceylon.Analysis.Checker.Run

/-!
# Reading changed states

What the units and declarations of a state are after one of them has been changed, and which parts of a
state no change in a later phase affects.
-/

namespace Ceylon

/-- An element of an array after one has been changed. -/
theorem getD_modify {α : Type} (xs : Array α) (i j : Nat) (f : α → α) (a : α) :
    (xs.modify i f).getD j a = if i = j ∧ i < xs.size then f (xs.getD j a) else xs.getD j a := by
  simp only [Array.getD_eq_getD_getElem?, Array.getElem?_modify]
  by_cases hij : i = j
  · subst hij
    by_cases hi : i < xs.size
    · simp [hi]
    · simp [hi]
  · simp [hij]

/-- Changing an element of an array to what it is. -/
theorem modify_eq_self {α : Type} {xs : Array α} {i : Nat} {f : α → α} {a : α}
    (h : i < xs.size → f (xs.getD i a) = xs.getD i a) : xs.modify i f = xs := by
  refine Array.ext Array.size_modify fun j _ hj => ?_
  rw [Array.getElem_modify]
  split
  · next hij =>
    subst hij
    simpa [Array.getD, hj] using h hj
  · rfl

/-- A change that a view of the elements does not show. -/
theorem map_modify_of_view_eq {α β : Type} (xs : Array α) (i : Nat) {f : α → α} {view : α → β}
    (h : ∀ a, view (f a) = view a) : (xs.modify i f).map view = xs.map view := by
  refine Array.ext (by simp) fun j _ _ => ?_
  simp only [Array.getElem_map, Array.getElem_modify]
  split
  · exact h _
  · rfl

namespace Model

section Tables

variable {α : Type} {m : NodeMap α} {k k' : NodeId} {a b : α}

/-- What stands in a table stays when something new is inserted. -/
theorem getElem?_insertIfNew_of_some (h : m[k]? = some a) :
    (m.insertIfNew k' b)[k]? = some a := by
  rw [Std.ExtTreeMap.getElem?_insertIfNew]
  split
  · next hk =>
    obtain ⟨heq, hnew⟩ := hk
    obtain rfl : k' = k := Std.LawfulEqOrd.eq_of_compare heq
    exact absurd (Std.ExtTreeMap.mem_iff_isSome_getElem?.mpr (by simp [h])) hnew
  · exact h

theorem getElem?_insertIfNew_of_ne (h : k' ≠ k) : (m.insertIfNew k' b)[k]? = m[k]? := by
  simp [Std.ExtTreeMap.getElem?_insertIfNew, h]

theorem getElem?_insertIfNew_self (h : m[k]? = none) : (m.insertIfNew k b)[k]? = some b := by
  have hnew : k ∉ m := by
    rw [Std.ExtTreeMap.mem_iff_isSome_getElem?, h]
    simp
  rw [Std.ExtTreeMap.getElem?_insertIfNew, if_pos ⟨Std.ReflOrd.compare_self, hnew⟩]

/-- What stands in a table after something new has been inserted. -/
theorem eq_of_getElem?_insertIfNew (h : (m.insertIfNew k' b)[k]? = some a) : m[k]? = some a ∨ a = b := by
  rw [Std.ExtTreeMap.getElem?_insertIfNew] at h
  split at h
  · exact .inr (Option.some.inj h).symm
  · exact .inl h

theorem isSome_insertIfNew_of_isSome (h : m[k]?.isSome = true) : (m.insertIfNew k' b)[k]?.isSome = true := by
  obtain ⟨a, ha⟩ := Option.isSome_iff_exists.mp h
  rw [getElem?_insertIfNew_of_some ha]
  rfl

theorem isSome_insertIfNew_self : (m.insertIfNew k b)[k]?.isSome = true := by
  cases h : m[k]? with
  | none =>
    rw [getElem?_insertIfNew_self h]
    rfl
  | some a => exact isSome_insertIfNew_of_isSome (by rw [h]; rfl)

theorem getElem?_insert_of_ne (h : k' ≠ k) : (m.insert k' b)[k]? = m[k]? := by
  simp [Std.ExtTreeMap.getElem?_insert, h]

end Tables

namespace Graph

/-- A declaration after one has been changed. -/
theorem decl_modifyDecl (g : Graph) (d e : DeclId) (f : Declaration → Declaration) :
    (g.modifyDecl d f).decl e =
      if d = e ∧ d.index < g.decls.size then f (g.decl e) else g.decl e := by
  obtain ⟨i⟩ := d
  obtain ⟨j⟩ := e
  simp only [modifyDecl, decl, getD_modify, DeclId.mk.injEq]

theorem decl_of_invalid {g : Graph} {d : DeclId} (hd : ¬ d.index < g.decls.size) : g.decl d = default := by
  simp [decl, Array.getD, hd]

end Graph

end Model

namespace Analysis

open Model

namespace State

/-- A unit after one has been changed. -/
theorem unit_modify (s : State) (u v : UnitId) (f : UnitState → UnitState) :
    ({ s with units := s.units.modify u.index f } : State).unit v =
      if u = v ∧ u.index < s.units.size then f (s.unit v) else s.unit v := by
  obtain ⟨i⟩ := u
  obtain ⟨j⟩ := v
  simp only [unit, getD_modify, UnitId.mk.injEq]

theorem unit_of_invalid {s : State} {u : UnitId} (hu : ¬ u.index < s.units.size) : s.unit u = default := by
  simp [unit, Array.getD, hu]

end State

end Analysis

end Ceylon
