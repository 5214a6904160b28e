import Ceylon.Proofs.Lexemes
import Ceylon.Text.Words

/-!
# Characters and their places

A place counts lines and columns (`Pos.behind`), and so does who reads a text line by line (`charAt?`).  The two
agree (`charAt?_eq_some_iff`), so that what stands at a place can be told from the text before it.
-/

namespace Ceylon

namespace Pos

@[simp] theorem behind_nil : behind [] = start := rfl

/-- Behind two texts, the line is as many breaks further as both have. -/
theorem line_behind_append (cs ds : List Char) :
    (behind (cs ++ ds)).line + 1 = (behind cs).line + (behind ds).line := by
  rw [line_behind, line_behind, line_behind, List.count_append]
  omega

/-- Lines are counted from one. -/
theorem one_le_line (cs : List Char) : 1 ≤ (behind cs).line := by
  rw [line_behind]
  omega

/-- Columns are counted from one. -/
theorem one_le_col (cs : List Char) : 1 ≤ (behind cs).col := by
  rw [col_behind]
  omega

/-- Columns are counted on the last line. -/
theorem col_behind_append (cs ds : List Char) :
    (behind (cs ++ ds)).col = if (behind ds).line = 1 then (behind cs).col + ds.length else (behind ds).col := by
  induction ds using List.reverseRecOn with
  | nil => simp [start]
  | append_singleton ds d ih =>
    have hline := one_le_line ds
    rw [← List.append_assoc, behind_concat, behind_concat, after, after]
    split
    · rw [if_neg]
      simp only
      omega
    · simp only [ih, List.length_append, List.length_singleton]
      split <;> omega

/-- A text takes as much of the line as it is long, unless it goes on on another line. -/
theorem behind_append_beyond (cs ds : List Char) : (behind cs).line < (behind (cs ++ ds)).line ∨
    (behind cs).line = (behind (cs ++ ds)).line ∧ (behind cs).col + ds.length ≤ (behind (cs ++ ds)).col := by
  have hline := line_behind_append cs ds
  have hone := one_le_line ds
  rw [col_behind_append]
  split <;> omega

/-- On the first line the column tells how much text there is. -/
theorem col_behind_of_line {cs : List Char} (h : (behind cs).line = 1) : (behind cs).col = cs.length + 1 := by
  have hcols := col_behind_append [] cs
  rw [List.nil_append, if_pos h, behind_nil] at hcols
  exact hcols.trans (Nat.add_comm 1 _)

/-- Behind a text without a break one is in the first line. -/
theorem line_behind_eq_one {cs : List Char} (h : ∀ c ∈ cs, c ≠ '\n') : (behind cs).line = 1 := by
  rw [line_behind, Nat.add_eq_left, List.count_eq_zero]
  exact fun hmem => h _ hmem rfl

/-- A break in front moves everything behind it down by one line; another character does not. -/
theorem line_behind_cons (c : Char) (cs : List Char) :
    (behind (c :: cs)).line = if c = '\n' then (behind cs).line + 1 else (behind cs).line := by
  rw [line_behind, line_behind, List.count_cons]
  by_cases h : c = '\n'
  · simp [h, Nat.add_assoc]
  · simp [h]

/-- A character in front moves only what is in the first line to the right. -/
theorem col_behind_cons (c : Char) (cs : List Char) :
    (behind (c :: cs)).col =
      if c ≠ '\n' ∧ (behind cs).line = 1 then (behind cs).col + 1 else (behind cs).col := by
  have hcs := col_behind_append [] cs
  have hall := col_behind_append [c] cs
  have hsingle := behind_concat [] c
  rw [List.nil_append, behind_nil] at hcs hsingle
  rw [List.singleton_append, hsingle, after] at hall
  by_cases h : c = '\n'
  · simp only [h, start, reduceIte, ne_eq, not_true_eq_false, false_and] at hall hcs ⊢
    omega
  · simp only [h, start, reduceIte, ne_eq, not_false_eq_true, true_and] at hall hcs ⊢
    split at hcs
    · simp_all
      omega
    · simp_all

end Pos

namespace Text

/-- What stands on a line of a text, in a column.  Both are counted from 1. -/
def charAt? (s : String) (line col : Int) : Option Char :=
  if line < 1 ∨ col < 1 then none
  else (lines s)[(line - 1).toNat]?.bind fun l => l.toList[(col - 1).toNat]?

/-- A character of a text is its first one, or one of the rest. -/
theorem exists_split_cons {d c : Char} {cs : List Char} {P : List Char → Prop} :
    (∃ pre post, d :: cs = pre ++ c :: post ∧ P pre) ↔
      (d = c ∧ P []) ∨ ∃ pre post, cs = pre ++ c :: post ∧ P (d :: pre) := by
  constructor
  · rintro ⟨_ | ⟨e, pre⟩, post, hsplit, h⟩
    · exact .inl ⟨(List.cons.inj hsplit).1, h⟩
    · obtain ⟨rfl, rfl⟩ := List.cons.inj hsplit
      exact .inr ⟨pre, post, rfl, h⟩
  · rintro (⟨rfl, h⟩ | ⟨pre, post, rfl, h⟩)
    · exact ⟨[], cs, rfl, h⟩
    · exact ⟨d :: pre, post, rfl, h⟩

/-- The character in a line and a column is the one that stands behind a text that leads there. -/
theorem splitOn_getElem?_eq_some_iff {cs : List Char} {i j : Nat} {c : Char} :
    ((cs.splitOn '\n')[i]?.bind fun l => l[j]?) = some c ↔
      c ≠ '\n' ∧ ∃ pre post, cs = pre ++ c :: post ∧ (Pos.behind pre).line = i + 1 ∧
        (Pos.behind pre).col = j + 1 := by
  induction cs generalizing i j with
  | nil => cases i <;> simp [List.splitOn_nil]
  | cons d cs ih =>
    -- The character that is looked for is the first one of the text, or it stands further behind.
    have hpre : (∃ pre post, d :: cs = pre ++ c :: post ∧ (Pos.behind pre).line = i + 1 ∧
          (Pos.behind pre).col = j + 1) ↔
        (d = c ∧ i = 0 ∧ j = 0) ∨ ∃ pre post, cs = pre ++ c :: post ∧ (Pos.behind (d :: pre)).line = i + 1 ∧
          (Pos.behind (d :: pre)).col = j + 1 := by
      rw [exists_split_cons (P := fun pre => (Pos.behind pre).line = i + 1 ∧ (Pos.behind pre).col = j + 1)]
      simp only [Pos.behind_nil, Pos.start, Nat.right_eq_add]
    rw [hpre, List.splitOn_cons_eq_if_modifyHead]
    by_cases hd : d = '\n'
    · -- A break ends the first line: what is looked for is in the line before, in the rest of the text.
      subst hd
      have hline (pre : List Char) : (Pos.behind ('\n' :: pre)).line = (Pos.behind pre).line + 1 := by
        rw [Pos.line_behind_cons, if_pos rfl]
      have hcol (pre : List Char) : (Pos.behind ('\n' :: pre)).col = (Pos.behind pre).col := by
        rw [Pos.col_behind_cons, if_neg (by simp)]
      cases i with
      | zero =>
        have hfirst (pre : List Char) : (Pos.behind ('\n' :: pre)).line ≠ 0 + 1 := by
          have := Pos.one_le_line pre
          rw [hline]
          omega
        simp only [beq_self_eq_true, if_true, List.getElem?_cons_zero, Option.bind_some, List.getElem?_nil]
        constructor
        · exact nofun
        · rintro ⟨hc, ⟨rfl, -⟩ | ⟨pre, post, -, h, -⟩⟩
          · exact absurd rfl hc
          · exact absurd h (hfirst pre)
      | succ i =>
        simp only [beq_self_eq_true, if_true, List.getElem?_cons_succ, hline, hcol, Nat.add_left_inj]
        rw [ih]
        simp
    · -- Any other character lengthens the first line of the rest, and leaves the lines behind it alone.
      obtain ⟨first, parts, hparts⟩ := List.exists_cons_of_ne_nil (List.splitOn_ne_nil '\n' cs)
      have hline (pre : List Char) : (Pos.behind (d :: pre)).line = (Pos.behind pre).line := by
        rw [Pos.line_behind_cons, if_neg hd]
      have hcol (pre : List Char) : (Pos.behind (d :: pre)).col =
          if (Pos.behind pre).line = 1 then (Pos.behind pre).col + 1 else (Pos.behind pre).col := by
        rw [Pos.col_behind_cons]
        simp [hd]
      simp only [hparts] at ih
      rw [if_neg (by simpa using hd), hparts, List.modifyHead_cons]
      simp only [hline, hcol]
      match i, j with
      | 0, 0 =>
        simp only [List.getElem?_cons_zero, Option.bind_some, Option.some.injEq, Nat.zero_add, and_self, and_true]
        constructor
        · rintro rfl
          exact ⟨hd, .inl rfl⟩
        · rintro ⟨-, rfl | ⟨pre, post, -, hone, h⟩⟩
          · rfl
          · have := Pos.one_le_col pre
            rw [if_pos hone] at h
            omega
      -- In the first line, the columns of the rest are moved by one.
      | 0, j + 1 =>
        have hplace (pre : List Char) : (Pos.behind pre).line = 0 + 1 ∧
            (if (Pos.behind pre).line = 1 then (Pos.behind pre).col + 1 else (Pos.behind pre).col) = j + 1 + 1 ↔
            (Pos.behind pre).line = 0 + 1 ∧ (Pos.behind pre).col = j + 1 := by
          refine and_congr_right fun h => ?_
          rw [if_pos h, Nat.add_left_inj]
        have hrest := ih (i := 0) (j := j)
        rw [List.getElem?_cons_zero, Option.bind_some] at hrest ⊢
        rw [List.getElem?_cons_succ, hrest]
        simp only [hplace, Nat.add_eq_zero_iff, Nat.one_ne_zero, and_false, false_or]
      -- In the lines behind, they stay where they are.
      | i + 1, j =>
        have hplace (pre : List Char) : (Pos.behind pre).line = i + 1 + 1 ∧
            (if (Pos.behind pre).line = 1 then (Pos.behind pre).col + 1 else (Pos.behind pre).col) = j + 1 ↔
            (Pos.behind pre).line = i + 1 + 1 ∧ (Pos.behind pre).col = j + 1 := by
          refine and_congr_right fun h => ?_
          rw [if_neg (by omega)]
        have hrest := ih (i := i + 1) (j := j)
        rw [List.getElem?_cons_succ] at hrest ⊢
        rw [hrest]
        simp only [hplace, Nat.add_eq_zero_iff, Nat.one_ne_zero, and_false, false_and, false_or]

/-- What stands at a place is what follows the text before it. -/
theorem charAt?_eq_some_iff {s : String} {line col : Int} {c : Char} :
    charAt? s line col = some c ↔ c ≠ '\n' ∧ ∃ pre post, s.toList = pre ++ c :: post ∧
      line = (Pos.behind pre).line ∧ col = (Pos.behind pre).col := by
  rw [charAt?]
  split
  · next h =>
    constructor
    · exact nofun
    · rintro ⟨-, pre, post, -, hline, hcol⟩
      have := Pos.one_le_line pre
      have := Pos.one_le_col pre
      omega
  · next h =>
    have hlines : ((lines s)[(line - 1).toNat]?.bind fun l => l.toList[(col - 1).toNat]?) =
        ((s.toList.splitOn '\n')[(line - 1).toNat]?.bind fun l => l[(col - 1).toNat]?) := by
      rw [lines, List.getElem?_map, Option.bind_map]
      refine congrArg _ (funext fun l => ?_)
      rw [Function.comp_apply, String.toList_ofList]
    -- Places are counted from 1, and parts of a list from 0.
    have hplace (pre : List Char) : ((Pos.behind pre).line = (line - 1).toNat + 1 ∧
        (Pos.behind pre).col = (col - 1).toNat + 1) ↔ line = (Pos.behind pre).line ∧ col = (Pos.behind pre).col := by
      omega
    rw [hlines, splitOn_getElem?_eq_some_iff]
    simp only [hplace]

end Text

end Ceylon
