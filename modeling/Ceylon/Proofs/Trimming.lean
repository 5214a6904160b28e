import Mathlib.Data.List.Forall2
import Mathlib.Data.List.TakeWhile
import Ceylon.Text.Words

/-!
# Texts without the blanks around them

A text is what trimming leaves of it, between blanks (`exists_eq_trimmed`).  Blanks put around it make no
difference (`trimmed_append`), and neither do blanks around a list of items, if the items are trimmed
(`map_trimmed_splitOn`).
-/

namespace Ceylon.Text

/-! ## Beginnings -/

/-- What stands behind a start, with the start in front. -/
theorem eq_of_after? {start cs rest : List Char} (h : after? start cs = some rest) : cs = start ++ rest := by
  induction start generalizing cs with
  | nil => exact Option.some.inj h
  | cons a start ih =>
    cases cs with
    | nil => cases h
    | cons c cs =>
      rw [after?] at h
      split at h
      · next hac => rw [hac, ih h, List.cons_append]
      · cases h

theorem after?_append (start rest : List Char) : after? start (start ++ rest) = some rest := by
  induction start with
  | nil => rfl
  | cons a start ih => rw [List.cons_append, after?, if_pos rfl, ih]

/-- A rest stands behind a start if the text is made of both. -/
theorem after?_eq_some_iff {start cs rest : List Char} : after? start cs = some rest ↔ cs = start ++ rest :=
  ⟨eq_of_after?, fun h => h ▸ after?_append start rest⟩

/-- Nothing stands behind a start that the text does not have. -/
theorem after?_eq_none_iff {start cs : List Char} : after? start cs = none ↔ ∀ rest, cs ≠ start ++ rest := by
  rw [Option.eq_none_iff_forall_ne_some]
  exact forall_congr' fun rest => not_congr after?_eq_some_iff

/-- A string has a rest behind a start if it is made of both. -/
theorem afterStart?_eq_some_iff {start s rest : String} :
    afterStart? start s = some rest ↔ s.toList = start.toList ++ rest.toList := by
  rw [afterStart?, Option.map_eq_some_iff]
  constructor
  · rintro ⟨cs, hcs, rfl⟩
    rw [eq_of_after? hcs, String.toList_ofList]
  · intro h
    exact ⟨rest.toList, after?_eq_some_iff.mpr h, String.ofList_toList⟩

/-- A string has no rest behind a start that it does not have. -/
theorem afterStart?_eq_none_iff {start s : String} :
    afterStart? start s = none ↔ ∀ cs, s.toList ≠ start.toList ++ cs := by
  rw [afterStart?, Option.map_eq_none_iff, after?_eq_none_iff]

/-- What stands in front of an ending. -/
theorem toList_beforeEnd {ending s : String} {cs : List Char} (h : s.toList = cs ++ ending.toList) :
    (beforeEnd ending s).toList = cs := by
  rw [beforeEnd, h, List.reverse_append, after?_append]
  simp only [List.reverse_reverse, String.toList_ofList]

/-! ## Blanks -/

/-- Nothing but blanks. -/
def Blank (cs : List Char) : Prop :=
  ∀ c ∈ cs, isSpace c = true

theorem Blank.nil : Blank [] :=
  List.forall_mem_nil _

theorem Blank.append {bs cs : List Char} (hb : Blank bs) (hc : Blank cs) : Blank (bs ++ cs) :=
  List.forall_mem_append.mpr ⟨hb, hc⟩

theorem Blank.reverse {bs : List Char} (hb : Blank bs) : Blank bs.reverse :=
  fun c hc => hb c (List.mem_reverse.mp hc)

/-- What blanks are taken from the front is blank. -/
theorem blank_takeWhile (cs : List Char) : Blank (cs.takeWhile isSpace) :=
  fun _ hc => List.mem_takeWhile_imp hc

/-- A list of characters without the blanks around it. -/
def trimmed (cs : List Char) : List Char :=
  trimRight (trimLeft cs)

/-- Trimming a string trims its characters. -/
theorem toList_trim_eq (s : String) : (trim s).toList = trimmed s.toList :=
  String.toList_ofList

/-- Blanks in front are trimmed. -/
theorem trimLeft_blank_append {bs : List Char} (hb : Blank bs) (cs : List Char) :
    trimLeft (bs ++ cs) = trimLeft cs :=
  List.dropWhile_append_of_pos hb

/-- Blanks at the end are trimmed. -/
theorem trimRight_append_blank {bs : List Char} (cs : List Char) (hb : Blank bs) :
    trimRight (cs ++ bs) = trimRight cs := by
  rw [trimRight, List.reverse_append, trimLeft_blank_append hb.reverse, trimRight]

/-- Only a blank text is trimmed away from the front. -/
theorem trimLeft_eq_nil_iff {cs : List Char} : trimLeft cs = [] ↔ Blank cs :=
  List.dropWhile_eq_nil_iff

/-- Nothing is trimmed from a text that begins with something else. -/
theorem trimLeft_cons {c : Char} (cs : List Char) (hc : isSpace c = false) : trimLeft (c :: cs) = c :: cs := by
  rw [trimLeft, List.dropWhile_cons_of_neg (by simp [hc])]

/-- Nothing is trimmed from a text that ends with something else. -/
theorem trimRight_concat {c : Char} (cs : List Char) (hc : isSpace c = false) :
    trimRight (cs ++ [c]) = cs ++ [c] := by
  rw [trimRight, List.reverse_append, List.reverse_singleton, List.singleton_append, trimLeft_cons _ hc,
    List.reverse_cons, List.reverse_reverse]

/-- What is trimmed at the end is blank. -/
theorem exists_eq_trimRight (cs : List Char) : ∃ bs, Blank bs ∧ cs = trimRight cs ++ bs := by
  refine ⟨(cs.reverse.takeWhile isSpace).reverse, (blank_takeWhile _).reverse, ?_⟩
  rw [trimRight, trimLeft, ← List.reverse_append, List.takeWhile_append_dropWhile, List.reverse_reverse]

/-- Behind a character that is not blank, only the blanks at the end are trimmed. -/
theorem trimRight_cons {c : Char} (cs : List Char) (hc : isSpace c = false) :
    trimRight (c :: cs) = c :: trimRight cs := by
  rw [trimRight, trimRight, trimLeft, List.reverse_cons, List.dropWhile_append]
  split
  · next hblank =>
    rw [List.isEmpty_iff] at hblank
    rw [trimLeft, hblank]
    exact congrArg List.reverse (trimLeft_cons [] hc)
  · rw [List.reverse_append]
    rfl

/-- Blanks around a list make no difference. -/
theorem trimmed_append {bs es : List Char} (cs : List Char) (hb : Blank bs) (he : Blank es) :
    trimmed (bs ++ cs ++ es) = trimmed cs := by
  rw [List.append_assoc, trimmed, trimLeft_blank_append hb, trimLeft, List.dropWhile_append]
  split
  · next hblank =>
    rw [List.isEmpty_iff] at hblank
    rw [trimmed, trimLeft, hblank]
    exact congrArg trimRight (trimLeft_eq_nil_iff.mpr he)
  · exact trimRight_append_blank _ he

/-- What is trimmed at both ends is blank. -/
theorem exists_eq_trimmed (cs : List Char) : ∃ bs es, Blank bs ∧ Blank es ∧ cs = bs ++ trimmed cs ++ es := by
  obtain ⟨es, he, hes⟩ := exists_eq_trimRight (trimLeft cs)
  refine ⟨cs.takeWhile isSpace, es, blank_takeWhile cs, he, ?_⟩
  rw [List.append_assoc, trimmed, ← hes]
  exact List.takeWhile_append_dropWhile.symm

/-- Only a blank text is trimmed away. -/
theorem trimmed_eq_nil_iff {cs : List Char} : trimmed cs = [] ↔ Blank cs := by
  constructor
  · intro h
    obtain ⟨bs, es, hb, he, hcs⟩ := exists_eq_trimmed cs
    rw [hcs, h, List.append_nil]
    exact hb.append he
  · intro h
    rw [trimmed, trimLeft_eq_nil_iff.mpr h]
    rfl

/-- Trimming the end first makes no difference. -/
theorem trimmed_trimRight (cs : List Char) : trimmed (trimRight cs) = trimmed cs := by
  obtain ⟨es, he, hcs⟩ := exists_eq_trimRight cs
  calc trimmed (trimRight cs) = trimmed ([] ++ trimRight cs ++ es) := (trimmed_append _ .nil he).symm
    _ = trimmed cs := by rw [List.nil_append, ← hcs]

/-- Only the end is trimmed of a text that begins with something else. -/
theorem trimmed_cons {c : Char} (cs : List Char) (hc : isSpace c = false) :
    trimmed (c :: cs) = c :: trimRight cs := by
  rw [trimmed, trimLeft_cons cs hc, trimRight_cons cs hc]

/-- Characters that are not blank stay, and what follows them is trimmed at its end. -/
theorem trimRight_append {ds : List Char} (hd : ∀ c ∈ ds, isSpace c = false) (cs : List Char) :
    trimRight (ds ++ cs) = ds ++ trimRight cs := by
  induction ds with
  | nil => rfl
  | cons d ds ih =>
    obtain ⟨hd, hds⟩ := List.forall_mem_cons.mp hd
    rw [List.cons_append, trimRight_cons _ hd, ih hds, List.cons_append]

/-- A start without blanks stays when a text is trimmed. -/
theorem trimmed_cons_append {d : Char} {ds : List Char} (hd : ∀ c ∈ d :: ds, isSpace c = false) (cs : List Char) :
    trimmed (d :: ds ++ cs) = d :: ds ++ trimRight cs := by
  obtain ⟨hd, hds⟩ := List.forall_mem_cons.mp hd
  rw [List.cons_append, trimmed_cons _ hd, trimRight_append hds, List.cons_append]

/-! ## Items -/

section

variable {sep : Char} (hsep : isSpace sep = false)
include hsep

/-- Blanks before a list belong to its first item. -/
theorem splitOn_blank_append {bs : List Char} (hb : Blank bs) (cs : List Char) :
    (bs ++ cs).splitOn sep = (cs.splitOn sep).modifyHead (bs ++ ·) := by
  induction bs with
  | nil => cases h : cs.splitOn sep <;> simp [h]
  | cons b bs ih =>
    obtain ⟨hb, hbs⟩ := List.forall_mem_cons.mp hb
    have hne : b ≠ sep := fun h => by simp [h, hsep] at hb
    rw [List.cons_append, List.splitOn_cons_eq_if_modifyHead, if_neg (by simpa using hne), ih hbs]
    cases h : cs.splitOn sep <;> simp

/-- Blanks behind a list belong to its last item. -/
theorem splitOn_append_blank {es : List Char} (cs : List Char) (he : Blank es) :
    List.Forall₂ (fun item item' => ∃ es, Blank es ∧ item = item' ++ es) ((cs ++ es).splitOn sep)
      (cs.splitOn sep) := by
  induction cs with
  | nil =>
    have h := splitOn_blank_append hsep he []
    rw [List.append_nil] at h
    rw [List.nil_append, h]
    simpa using he
  | cons c cs ih =>
    rw [List.cons_append, List.splitOn_cons_eq_if_modifyHead, List.splitOn_cons_eq_if_modifyHead]
    generalize (cs ++ es).splitOn sep = items at ih ⊢
    generalize cs.splitOn sep = items' at ih ⊢
    split
    · -- At a separator a new item begins, and blanks still follow the last one only.
      exact .cons ⟨[], .nil, (List.append_nil _).symm⟩ ih
    · cases ih with
      | nil => exact .nil
      | cons hitem hitems =>
        obtain ⟨es, he, rfl⟩ := hitem
        exact .cons ⟨es, he, rfl⟩ hitems

/-- The parts of a text are the same, trimmed or not, but for blanks around them. -/
theorem map_trimmed_splitOn (cs : List Char) :
    ((trimmed cs).splitOn sep).map trimmed = (cs.splitOn sep).map trimmed := by
  obtain ⟨bs, es, hb, he, hcs⟩ := exists_eq_trimmed cs
  -- Blanks in front belong to the first item, blanks at the end to the last one, and both are trimmed.
  have hfront (items : List (List Char)) : (items.modifyHead (bs ++ ·)).map trimmed = items.map trimmed := by
    cases items with
    | nil => rfl
    | cons item items =>
      have hitem := trimmed_append item hb .nil
      rw [List.append_nil] at hitem
      rw [List.modifyHead_cons, List.map_cons, List.map_cons, hitem]
  have hback : ((trimmed cs ++ es).splitOn sep).map trimmed = ((trimmed cs).splitOn sep).map trimmed := by
    have hitems := splitOn_append_blank hsep (trimmed cs) he
    generalize (trimmed cs ++ es).splitOn sep = items, (trimmed cs).splitOn sep = items' at hitems ⊢
    induction hitems with
    | nil => rfl
    | cons hitem _ ih =>
      obtain ⟨es, he, rfl⟩ := hitem
      rw [List.map_cons, List.map_cons, ih]
      exact congrArg (· :: _) (trimmed_append _ .nil he)
  calc ((trimmed cs).splitOn sep).map trimmed
      = ((trimmed cs ++ es).splitOn sep).map trimmed := hback.symm
    _ = (((trimmed cs ++ es).splitOn sep).modifyHead (bs ++ ·)).map trimmed := (hfront _).symm
    _ = ((bs ++ (trimmed cs ++ es)).splitOn sep).map trimmed := by rw [splitOn_blank_append hsep hb]
    _ = (cs.splitOn sep).map trimmed := by rw [← List.append_assoc, ← hcs]

end

end Ceylon.Text
