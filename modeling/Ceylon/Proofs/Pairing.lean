import Mathlib.Data.List.FinRange
import Mathlib.Data.List.Forall2
import Mathlib.Data.List.Nodup
import Mathlib.Logic.Equiv.Fin.Basic
import Ceylon.Testing.Expectation

/-!
# Pairing expectations and diagnostics

A line has at most one expectation, so a diagnostic, which stands on one line, meets at most one of them
(`allExpectations_places`).  Taking for each expectation the first diagnostic left that meets it therefore never takes
one that another expectation needs: it leaves nothing over if and only if expectations and diagnostics can be paired at
all (`failures_eq_zero_iff`).
-/

namespace Ceylon.Testing

open Analysis (Diagnostic)

/-! ## Pairings -/

section Pairings

variable {α β : Type} {R : α → β → Prop}

/-- Two lists can be paired if one of them can be put in the order of the other. -/
theorem exists_pairing_iff {as : List α} {bs : List β} :
    (∃ pairing : Fin as.length ≃ Fin bs.length, ∀ i, R as[i] bs[pairing i]) ↔
      ∃ partners : List β, partners.Perm bs ∧ List.Forall₂ R as partners := by
  constructor
  · rintro ⟨pairing, h⟩
    refine ⟨((List.finRange as.length).map pairing).map bs.get, ?_, ?_⟩
    · -- The partners in the order of the first list are all of the second, each once.
      have hall : ((List.finRange as.length).map pairing).Perm (List.finRange bs.length) :=
        (List.perm_ext_iff_of_nodup ((List.nodup_finRange _).map pairing.injective) (List.nodup_finRange _)).mpr
          fun j => by simpa using ⟨pairing.symm j, by simp⟩
      simpa using hall.map bs.get
    · rw [List.forall₂_iff_get]
      exact ⟨by simp, fun i hi _ => by simpa using h ⟨i, hi⟩⟩
  · rintro ⟨partners, hperm, hpaired⟩
    classical
    -- A permutation gives back a bijection of the positions.
    have inverse : Function.LeftInverse hperm.symm.idxBij hperm.idxBij := fun _ => hperm.idxBij_symm_idxBij
    have inverse' : Function.RightInverse hperm.symm.idxBij hperm.idxBij := fun _ => hperm.idxBij_idxBij_symm
    refine ⟨(finCongr hpaired.length_eq).trans ⟨hperm.idxBij, hperm.symm.idxBij, inverse, inverse'⟩, fun i => ?_⟩
    have hi := (List.forall₂_iff_get.mp hpaired).2 i i.isLt (hpaired.length_eq ▸ i.isLt)
    have hpartner := hperm.getElem_idxBij_eq_getElem (finCongr hpaired.length_eq i)
    simpa [← hpartner] using hi

end Pairings

/-! ## Where expectations stand -/

/-- The file and the line of an expectation. -/
def Expectation.place (e : Expectation) : String × Nat :=
  (e.file, e.line)

/-- A diagnostic stands where the expectation is that it meets. -/
theorem place_of_isMetBy {e e' : Expectation} {d : Diagnostic} (h : e.isMetBy d = true) (h' : e'.isMetBy d = true) :
    e.place = e'.place := by
  unfold Expectation.isMetBy at h h'
  cases hl : d.location with
  | none => rw [hl] at h; cases h
  | some l =>
    simp only [hl, Bool.and_eq_true, beq_iff_eq] at h h'
    obtain ⟨⟨⟨-, hfile⟩, hline⟩, -⟩ := h
    obtain ⟨⟨⟨-, hfile'⟩, hline'⟩, -⟩ := h'
    have hlines : e.line = e'.line := by exact_mod_cast hline.symm.trans hline'
    rw [Expectation.place, Expectation.place, ← hfile, ← hfile', hlines]

theorem file_of_mem_expectations {file src : String} {e : Expectation} (h : e ∈ expectations file src) :
    e.file = file := by
  obtain ⟨_, -, h⟩ := List.mem_filterMap.mp h
  obtain ⟨_, -, rfl⟩ := Option.map_eq_some_iff.mp h
  rfl

/-- A line has at most one expectation. -/
theorem expectations_places (file src : String) : ((expectations file src).map Expectation.place).Nodup := by
  have hlines : ((readLines src).zipIdx.map Prod.snd).Nodup := by
    rw [List.zipIdx_map_snd]
    exact List.nodup_range'
  rw [List.Nodup, List.pairwise_map] at hlines ⊢
  rw [expectations, List.pairwise_filterMap]
  refine hlines.imp fun hne e he e' he' heq => hne ?_
  obtain ⟨_, -, rfl⟩ := Option.map_eq_some_iff.mp he
  obtain ⟨_, -, rfl⟩ := Option.map_eq_some_iff.mp he'
  exact Nat.succ_injective (congrArg Prod.snd heq)

/-- No two expectations of different files, or of one file, stand in the same place. -/
theorem allExpectations_places {files : List (String × String)} (hfiles : (files.map Prod.fst).Nodup) :
    ((allExpectations files).map Expectation.place).Nodup := by
  rw [allExpectations, ((List.mergeSort_perm _ _).map _).nodup_iff, List.map_flatMap, List.nodup_flatMap]
  refine ⟨fun file _ => expectations_places _ _, ?_⟩
  rw [List.Nodup, List.pairwise_map] at hfiles
  refine hfiles.imp fun {file file'} hne => List.disjoint_left.mpr fun place hplace hplace' => ?_
  obtain ⟨e, he, rfl⟩ := List.mem_map.mp hplace
  obtain ⟨e', he', heq⟩ := List.mem_map.mp hplace'
  exact hne ((file_of_mem_expectations he).symm.trans
    ((congrArg Prod.fst heq).symm.trans (file_of_mem_expectations he')))

/-! ## The first diagnostic left -/

/-- Expectations in different places are paired if they can be. -/
theorem unpaired_eq_nil_iff {es : List Expectation} (hes : (es.map Expectation.place).Nodup) (ds : List Diagnostic) :
    unpaired es ds = ([], []) ↔
      ∃ partners : List Diagnostic, partners.Perm ds ∧ List.Forall₂ (fun e d => e.isMetBy d = true) es partners := by
  induction es generalizing ds with
  | nil =>
    constructor
    · intro h
      exact ⟨[], (Prod.mk.inj h).2 ▸ .refl _, .nil⟩
    · rintro ⟨partners, hperm, hpaired⟩
      cases hpaired
      rw [unpaired, hperm.nil_eq]
  | cons e es ih =>
    rw [List.map_cons, List.nodup_cons] at hes
    -- What meets a later expectation does not meet this one.
    have hother : ∀ {partners : List Diagnostic}, List.Forall₂ (fun e d => e.isMetBy d = true) es partners →
        ∀ d ∈ partners, ¬ e.isMetBy d = true := by
      intro partners hpartners d hd he
      obtain ⟨i, hi, rfl⟩ := List.mem_iff_getElem.mp hd
      have hmet := (List.forall₂_iff_get.mp hpartners).2 i (hpartners.length_eq ▸ hi) hi
      exact hes.1 (List.mem_map.mpr ⟨_, List.get_mem _ _, place_of_isMetBy hmet he⟩)
    rw [unpaired]
    split
    · next hany =>
      obtain ⟨d, hd, hmet⟩ := List.any_eq_true.mp hany
      obtain ⟨first, before, after, -, hfirst, hds, hrest⟩ := List.exists_of_eraseP hd hmet
      have hperm : (first :: ds.eraseP e.isMetBy).Perm ds := by
        rw [hrest, hds]
        exact List.perm_middle.symm
      rw [ih hes.2]
      constructor
      · rintro ⟨partners, hpartners, hpaired⟩
        exact ⟨first :: partners, (hpartners.cons first).trans hperm, .cons hfirst hpaired⟩
      · rintro ⟨_, hpartners, hall⟩
        obtain ⟨partner, partners, -, hpaired, rfl⟩ := List.forall₂_cons_left_iff.mp hall
        have heq : first = partner := by
          rcases List.mem_cons.mp ((hpartners.trans hperm.symm).mem_iff.mpr List.mem_cons_self) with heq | hmem
          · exact heq
          · exact absurd hfirst (hother hpaired first hmem)
        subst heq
        exact ⟨partners, (hpartners.trans hperm.symm).cons_inv, hpaired⟩
    · next hany =>
      refine iff_of_false (fun h => List.cons_ne_nil _ _ (Prod.mk.inj h).1) ?_
      rintro ⟨_, hpartners, hpaired⟩
      obtain ⟨partner, partners, hmeets, -, rfl⟩ := List.forall₂_cons_left_iff.mp hpaired
      exact hany (List.any_eq_true.mpr ⟨partner, hpartners.mem_iff.mp List.mem_cons_self, hmeets⟩)

/-- **Taking the first diagnostic left is optimal.**  Nothing is left over if and only if all expectations and all
diagnostics can be paired one to one, so that each diagnostic meets its expectation. -/
theorem failures_eq_zero_iff {files : List (String × String)} (hfiles : (files.map Prod.fst).Nodup)
    (ds : List Diagnostic) :
    failures files ds = 0 ↔ ∃ pairing : Fin (allExpectations files).length ≃ Fin ds.length,
      ∀ i : Fin (allExpectations files).length, (allExpectations files)[i].isMetBy ds[pairing i] = true := by
  refine Iff.trans ?_ (exists_pairing_iff (R := fun e d => Expectation.isMetBy e d = true)).symm
  rw [← unpaired_eq_nil_iff (allExpectations_places hfiles), failures, Prod.ext_iff]
  simp only [Nat.add_eq_zero_iff, List.length_eq_zero_iff]

/-- A source file that expects an error and, on another line, some warning. -/
def annotated : List (String × String) :=
  [("a.ceylon", "f(); // error: no f\ng(); // warning:\n")]

/-- What is found in it. -/
def annotatedFindings : List Diagnostic :=
  [⟨.warning, "unused result", none, some { file := "a.ceylon", line := 2 }⟩,
    ⟨.error, "there is no f", none, some { file := "a.ceylon", line := 1 }⟩]

theorem failures_eq_zero_iff_annotated :
    (annotated.map Prod.fst).Nodup ∧ failures annotated annotatedFindings = 0 ∧
      ∃ pairing : Fin (allExpectations annotated).length ≃ Fin annotatedFindings.length,
        ∀ i : Fin (allExpectations annotated).length,
          (allExpectations annotated)[i].isMetBy annotatedFindings[pairing i] = true := by
  have hfiles : (annotated.map Prod.fst).Nodup := by decide
  have hsorted : allExpectations annotated = _ := List.mergeSort_of_pairwise (by decide +kernel)
  have hmet : failures annotated annotatedFindings = 0 := by
    rw [failures, hsorted]
    decide +kernel
  exact ⟨hfiles, hmet, (failures_eq_zero_iff hfiles annotatedFindings).mp hmet⟩

end Ceylon.Testing
