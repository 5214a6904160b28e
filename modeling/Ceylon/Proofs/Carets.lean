import Mathlib.Data.List.TakeWhile
import Ceylon.Proofs.Writing
import Ceylon.Report.Snippet

/-!
# Carets under what they mark

Below a source line, carets stand under the part of it that is meant (`Layout.span_carets`): what stands before them is
as wide on the screen as what stands before that part in the printed line, and they are as wide as the part, but at
least one column.  The printed line has its tabs expanded; a width is that of the text as printed, by whatever widths
the layout takes for characters.  Numbers of lines are as wide as they are long where the digits are narrow, so the
gutters of both rows agree.
-/

namespace Ceylon

namespace Text

/-! ## Widths on the screen -/

/-- The columns that a text takes as it stands, where `width` gives the columns of a character. -/
def screenWidth (width : Char → Nat) : List Char → Nat
  | [] => 0
  | c :: cs => width c + screenWidth width cs

variable {width : Char → Nat}

@[simp] theorem screenWidth_append (cs ds : List Char) :
    screenWidth width (cs ++ ds) = screenWidth width cs + screenWidth width ds := by
  induction cs with
  | nil => rw [List.nil_append, screenWidth, Nat.zero_add]
  | cons c cs ih => rw [List.cons_append, screenWidth, ih, screenWidth, Nat.add_assoc]

/-- A text of narrow characters is as wide as it is long. -/
theorem screenWidth_of_narrow {cs : List Char} (h : ∀ c ∈ cs, width c = 1) : screenWidth width cs = cs.length := by
  induction cs with
  | nil => rfl
  | cons c cs ih =>
    rw [screenWidth, h c List.mem_cons_self, ih fun d hd => h d (List.mem_cons_of_mem _ hd), List.length_cons,
      Nat.add_comm]

theorem screenWidth_blanks (hspace : width ' ' = 1) (n : Nat) : screenWidth width (List.replicate n ' ') = n := by
  rw [screenWidth_of_narrow, List.length_replicate]
  intro c hc
  obtain rfl := List.eq_of_mem_replicate hc
  exact hspace

/-- The digits are narrow on a usual terminal. -/
theorem charWidth_digit {c : Char} (h : c.isDigit = true) : charWidth c = 1 := by
  have hrange : 48 ≤ c.toNat ∧ c.toNat ≤ 57 := by
    rw [Char.isDigit, Bool.and_eq_true, decide_eq_true_eq, decide_eq_true_eq] at h
    exact ⟨h.1, h.2⟩
  simp only [charWidth]
  rw [if_neg, if_pos]
  · rw [Bool.or_eq_true, decide_eq_true_eq]
    omega
  · simp only [Bool.or_eq_true, Bool.and_eq_true, decide_eq_true_eq]
    omega

/-! ## Replacing parts of a text -/

theorem copy_sliceTo_append {s : String.Slice} {start stop : s.Pos} (h : start ≤ stop) :
    (s.sliceTo start).copy ++ (s.slice! start stop).copy = (s.sliceTo stop).copy := by
  have hstop : s.copy = (s.sliceTo stop).copy ++ (s.sliceFrom stop).copy := String.Slice.copy_eq_copy_sliceTo
  have hwhole := (String.Slice.copy_eq_copy_slice (s := s) (h := h)).symm.trans hstop
  rw [← String.Slice.slice_eq_slice! (h := h)]
  rw [← String.toList_inj, String.toList_append, String.toList_append (s := (s.sliceTo stop).copy)] at hwhole
  exact String.toList_inj.mp (List.append_cancel_right hwhole)

open String.Slice.Pattern in
/-- Replacing what does not occur changes nothing. -/
theorem replace_absent {text pattern : String} (replacement : String) (hne : pattern ≠ "")
    (h : ¬ pattern.toList <:+: text.toList) : text.replace pattern replacement = text := by
  have habsent : ∀ pos : text.toSlice.Pos, ¬ Model.MatchesAt pattern pos := by
    intro pos hpos
    obtain ⟨before, after, heq⟩ := Model.ForwardStringSearcher.exists_matchesAt_iff_eq_append.mp ⟨pos, hpos⟩
    rw [String.copy_toSlice] at heq
    exact h ⟨before.toList, after.toList, by rw [heq]; simp⟩
  have hsteps := (Model.ForwardStringSearcher.lawfulToForwardSearcherModel hne).isValidSearchFrom_toList text.toSlice
  rw [String.replace, String.Slice.replace, ← Std.Iter.foldl_toList]
  generalize (ToForwardSearcher.toSearcher pattern text.toSlice).toList = steps at hsteps
  -- What has been written when the search comes to a position is the text before it.
  suffices hall : ∀ (pos : text.toSlice.Pos) (done : String), Model.IsValidSearchFrom pattern pos steps →
      done = (text.toSlice.sliceTo pos).copy → List.foldl _ done steps = text from
    hall _ _ hsteps (by simp)
  clear hsteps
  intro pos done hvalid hdone
  induction hvalid generalizing done with
  | endPos => simpa using hdone
  | matched hmatch => exact absurd hmatch.matchesAt (habsent _)
  | mismatched hlt _ _ ih =>
    refine ih _ ?_
    rw [hdone]
    exact copy_sliceTo_append (Std.le_of_lt hlt)

end Text

namespace Report

open Text (screenWidth)

variable {width : Char → Nat}

@[simp] theorem expandTabs_append (cs ds : List Char) : expandTabs (cs ++ ds) = expandTabs cs ++ expandTabs ds :=
  List.flatMap_append

/-- A width with its tabs counted is that of the text with its tabs expanded. -/
theorem displayWidth_eq (hspace : width ' ' = 1) (cs : List Char) :
    Text.displayWidth width cs = screenWidth width (expandTabs cs) := by
  induction cs with
  | nil => rfl
  | cons c cs ih =>
    rw [Text.displayWidth, ih, ← List.singleton_append, expandTabs_append, Text.screenWidth_append]
    congr 1
    simp only [expandTabs, List.flatMap_cons, List.flatMap_nil, List.append_nil]
    split
    · exact (Text.screenWidth_blanks hspace _).symm
    · simp [screenWidth]

/-- A number is as wide as it is long. -/
theorem screenWidth_number (hdigit : ∀ c : Char, c.isDigit = true → width c = 1) {n : Int} (h : 0 < n) :
    screenWidth width (toString n).toList = (toString n).length := by
  obtain ⟨m, rfl⟩ := Int.eq_ofNat_of_zero_le (Int.le_of_lt h)
  have hdigits : (toString (m : Int)).toList = Nat.toDigits 10 m := String.toList_ofList
  rw [← String.length_toList, hdigits]
  exact Text.screenWidth_of_narrow fun c hc => hdigit c (Nat.isDigit_of_mem_toDigits (by omega) (by omega) hc)

/-! ## The part that is marked -/

/-- The last column of a part that begins at a column: the one given, if it is not before the first, else that of the
word that begins there, or the first column if none does. -/
inductive MarksTo (line : List Char) (s : Span) (col : Nat) : Nat → Prop
  | given : 0 < s.endCol → MarksTo line s col (max col s.endCol.toNat)
  | word {word rest : List Char} : s.endCol ≤ 0 → line.drop (col - 1) = word ++ rest → word ≠ [] →
    (∀ c ∈ word, Text.isWordChar c = true) → (∀ c ∈ rest.head?, Text.isWordChar c = false) →
    MarksTo line s col (col - 1 + word.length)
  | single : s.endCol ≤ 0 → (∀ c ∈ (line.drop (col - 1)).head?, Text.isWordChar c = false) → MarksTo line s col col

/-- The column at which a part begins. -/
def Span.firstCol (s : Span) : Nat :=
  if s.col ≤ 0 then 1 else s.col.toNat

theorem Span.one_le_firstCol (s : Span) : 1 ≤ s.firstCol := by
  unfold firstCol
  split <;> omega

theorem wordEnd_marks {line : List Char} {s : Span} (hend : s.endCol ≤ 0) :
    MarksTo line s s.firstCol (wordEnd line s.firstCol) := by
  have hsplit := (List.takeWhile_append_dropWhile (p := Text.isWordChar) (l := line.drop (s.firstCol - 1))).symm
  have hrest : ∀ c ∈ ((line.drop (s.firstCol - 1)).dropWhile Text.isWordChar).head?, Text.isWordChar c = false := by
    intro c hc
    have hnot := List.head?_dropWhile_not Text.isWordChar (line.drop (s.firstCol - 1))
    rwa [hc] at hnot
  unfold wordEnd
  dsimp only
  split
  · next hempty =>
    rw [List.isEmpty_iff] at hempty
    refine .single hend ?_
    rw [hempty, List.nil_append] at hsplit
    rwa [← hsplit] at hrest
  · next hword =>
    exact .word hend hsplit (by simpa using hword) (fun c hc => List.mem_takeWhile_imp hc) hrest

/-- A word does not end before the column where it begins. -/
theorem le_wordEnd (line : List Char) (col : Nat) : col ≤ wordEnd line col := by
  unfold wordEnd
  dsimp only
  split
  · exact Nat.le_refl _
  · next hword =>
    rw [List.isEmpty_iff] at hword
    have hlength := List.length_pos_iff.mpr hword
    omega

theorem columns_marks (line : List Char) (s : Span) : MarksTo line s s.firstCol (columns line s).2 := by
  have hcolumns : (columns line s).2 =
      max s.firstCol (if s.endCol ≤ 0 then wordEnd line s.firstCol else s.endCol.toNat) := rfl
  rw [hcolumns]
  split
  · next hend =>
    rw [Nat.max_eq_right (le_wordEnd _ _)]
    exact wordEnd_marks hend
  · next hend => exact .given (by omega)

/-- The row of carets under a span. -/
theorem underline_eq (hspace : width ' ' = 1) (line : List Char) (s : Span) :
    (underline width line s).margin = screenWidth width (expandTabs (line.take (s.firstCol - 1))) ∧
      (underline width line s).length =
        max 1 (screenWidth width (expandTabs ((line.take (columns line s).2).drop (s.firstCol - 1)))) := by
  have hfirst := s.one_le_firstCol
  have hle : s.firstCol ≤ (columns line s).2 := Nat.le_max_left _ _
  have hmarked : (line.drop (s.firstCol - 1)).take ((columns line s).2 - s.firstCol + 1) =
      (line.take (columns line s).2).drop (s.firstCol - 1) := by
    rw [List.drop_take]
    congr 1
    omega
  rw [← hmarked, ← displayWidth_eq hspace, ← displayWidth_eq hspace]
  exact ⟨rfl, rfl⟩

/-! ## Rows as they are seen -/

/-- What is seen of a text: everything but the marks of a palette, which take no columns. -/
inductive Shows (p : Palette) : List Char → List Char → Prop
  | nil : Shows p [] []
  | mark {m : String} {text seen : List Char} : m ∈ [p.boldRed, p.boldBlue, p.reset] → Shows p text seen →
    Shows p (m.toList ++ text) seen
  | char (c : Char) {text seen : List Char} : Shows p text seen → Shows p (c :: text) (c :: seen)

namespace Shows

variable {p : Palette} {text text' seen seen' : List Char}

theorem plain (p : Palette) (text : List Char) : Shows p text text := by
  induction text with
  | nil => exact .nil
  | cons c _ ih => exact .char c ih

theorem append (h : Shows p text seen) (h' : Shows p text' seen') : Shows p (text ++ text') (seen ++ seen') := by
  induction h with
  | nil => exact h'
  | mark hm _ ih =>
    rw [List.append_assoc]
    exact .mark hm ih
  | char c _ ih => exact .char c ih

/-- A text between two marks. -/
theorem between (m m' : String) (hm : m ∈ [p.boldRed, p.boldBlue, p.reset])
    (hm' : m' ∈ [p.boldRed, p.boldBlue, p.reset]) (text : List Char) :
    Shows p (m.toList ++ text ++ m'.toList) text := by
  have hend : Shows p m'.toList [] := by simpa using Shows.mark hm' .nil
  rw [List.append_assoc]
  exact .mark hm (by simpa using (plain p text).append hend)

end Shows

namespace Layout

/-- The gutter before a row. -/
theorem shows_gutter (l : Layout) (mark beside : String) {seen : List Char}
    (h : Shows l.palette beside.toList seen) :
    ∃ row : String, l.gutter mark beside = row ++ "\n" ∧
      Shows l.palette row.toList ((" " ++ mark ++ " |").toList ++ seen) := by
  refine ⟨" " ++ l.palette.boldBlue ++ mark ++ " |" ++ l.palette.reset ++ beside, rfl, ?_⟩
  have hmark := Shows.between (p := l.palette) l.palette.boldBlue l.palette.reset (by simp) (by simp)
    (mark ++ " |").toList
  have hrow := ((Shows.plain l.palette " ".toList).append hmark).append h
  simpa only [String.toList_append, List.append_assoc] using hrow

theorem sourceLine_ne (l : Layout) {s : Span} (h : l.sourceLine s ≠ "") :
    0 < s.line ∧ '\n' ∉ (l.sourceLine s).toList := by
  unfold sourceLine at h ⊢
  split at h
  · exact absurd rfl h
  · next hplace =>
    have hline : 0 < s.line := by
      rw [Bool.or_eq_true, not_or, decide_eq_true_eq] at hplace
      omega
    refine ⟨hline, ?_⟩
    rw [if_neg hplace]
    split
    · exact List.not_mem_nil
    · next text _ =>
      rw [List.getD_eq_getElem?_getD]
      -- A line of the text is a part between breaks.
      cases hget : (Text.lines (text.replace "\r\n" "\n"))[s.line.toNat - 1]? with
      | none => exact List.not_mem_nil
      | some line =>
        obtain ⟨part, hpart, rfl⟩ := List.mem_map.mp (List.mem_of_getElem? hget)
        simpa using Files.Path.not_mem_of_mem_splitOn hpart

/-- What stands in the gutter, before the source line and before the carets. -/
def edge (mark : String) : String :=
  " " ++ mark ++ " |  "

/-- The gutters of the source line and of the carets are equally wide. -/
theorem screenWidth_edge (hspace : width ' ' = 1) (hdigit : ∀ c : Char, c.isDigit = true → width c = 1) {n : Int}
    (h : 0 < n) : screenWidth width (edge (String.ofList (List.replicate (toString n).length ' '))).toList =
      screenWidth width (edge (toString n)).toList := by
  simp only [edge, String.toList_append, String.toList_ofList, Text.screenWidth_append, Text.screenWidth_blanks hspace,
    screenWidth_number hdigit h]

/-- **Carets stand under what they mark**, whatever the characters' widths are, if only the space and the digits take
one column each: the digits because the blank gutter is as long as the number of the line.  For a line that can be
shown, what stands before the carets takes as many columns as what stands before the first marked column in the row of
the source line, or before the end of that line if the column is past it, and there are as many carets as the marked
part takes columns, or a single one. -/
theorem span_carets (l : Layout) (s : Span) (hspace : l.charWidth ' ' = 1)
    (hdigit : ∀ c : Char, c.isDigit = true → l.charWidth c = 1) (hline : l.sourceLine s ≠ "") :
    let line := (l.sourceLine s).toList
    ∃ (before sourceRow caretRow after : String) (margin label : List Char) (carets last : Nat),
      l.span s = before ++ "\n" ++ sourceRow ++ "\n" ++ caretRow ++ "\n" ++ after ∧
      Shows l.palette sourceRow.toList ((edge (toString s.line)).toList ++ expandTabs line) ∧
      Shows l.palette caretRow.toList (margin ++ List.replicate carets '^' ++ label) ∧
      '\n' ∉ line ∧ '\n' ∉ margin ∧ '^' ∉ margin ∧ label.head? ≠ some '^' ∧
      screenWidth l.charWidth margin =
        screenWidth l.charWidth ((edge (toString s.line)).toList ++ expandTabs (line.take (s.firstCol - 1))) ∧
      MarksTo line s s.firstCol last ∧
      carets = max 1 (screenWidth l.charWidth (expandTabs ((line.take last).drop (s.firstCol - 1)))) := by
  obtain ⟨hpositive, hbreak⟩ := l.sourceLine_ne hline
  have hempty : (l.sourceLine s).isEmpty = false := by simpa using hline
  obtain ⟨hmargin, hlength⟩ := underline_eq hspace (l.sourceLine s).toList s
  set line := (l.sourceLine s).toList with hlist
  set blank := String.ofList (List.replicate (toString s.line).length ' ') with hblank
  set label : String := if s.label.isEmpty then "" else " " ++ l.palette.boldRed ++ s.label ++ l.palette.reset
    with hlabel
  obtain ⟨labelSeen, hseen, hhead⟩ : ∃ seen, Shows l.palette label.toList seen ∧ seen.head? ≠ some '^' := by
    rw [hlabel]
    split
    · exact ⟨[], .nil, by simp⟩
    · refine ⟨' ' :: s.label.toList, ?_, by simp⟩
      have hmark := Shows.between (p := l.palette) l.palette.boldRed l.palette.reset (by simp) (by simp)
        s.label.toList
      simpa [String.toList_append] using Shows.char ' ' hmark
  have hcarets : Shows l.palette ((underline l.charWidth line s).text l.palette).toList
      (List.replicate (underline l.charWidth line s).margin ' '
        ++ List.replicate (underline l.charWidth line s).length '^') := by
    have hmark := Shows.between (p := l.palette) l.palette.boldRed l.palette.reset (by simp) (by simp)
      (List.replicate (underline l.charWidth line s).length '^')
    simpa [Underline.text, String.toList_append] using (Shows.plain l.palette _).append hmark
  have hbeside : Shows l.palette ("  " ++ (underline l.charWidth line s).text l.palette ++ label).toList
      ("  ".toList ++ (List.replicate (underline l.charWidth line s).margin ' '
        ++ List.replicate (underline l.charWidth line s).length '^') ++ labelSeen) := by
    rw [String.toList_append, String.toList_append]
    exact ((Shows.plain l.palette _).append hcarets).append hseen
  -- The three rows behind the gutter. What is seen of them is free of the escapes for the colours, which take
  -- no room on the screen.
  obtain ⟨sourceRow, hsource, hsourceSeen⟩ := l.shows_gutter (toString s.line)
    ("  " ++ String.ofList (expandTabs line)) (Shows.plain l.palette _)
  obtain ⟨caretRow, hcaret, hcaretSeen⟩ := l.shows_gutter blank _ hbeside
  obtain ⟨ruler, hruler, -⟩ := l.shows_gutter blank "" (.nil : Shows l.palette [] [])
  refine ⟨"  " ++ l.palette.boldBlue ++ "-->" ++ l.palette.reset ++ " " ++ place s ++ "\n" ++ ruler, sourceRow,
    caretRow, ruler ++ "\n", (edge blank).toList ++ List.replicate (underline l.charWidth line s).margin ' ', labelSeen,
    (underline l.charWidth line s).length, (columns line s).2, ?_, ?_, ?_, hbreak, ?_, ?_, hhead, ?_,
    columns_marks line s, hlength⟩
  · simp only [span, hempty, Bool.false_eq_true, if_false, ← hlist, ← hblank, ← hlabel]
    rw [hruler, hsource, hcaret]
    simp only [String.append_assoc]
  · simpa [edge, String.toList_append] using hsourceSeen
  · simpa [edge, String.toList_append] using hcaretSeen
  · simp [edge, hblank]
  · simp [edge, hblank]
  · rw [Text.screenWidth_append, Text.screenWidth_append, Text.screenWidth_blanks hspace, hmargin,
      screenWidth_edge hspace hdigit hpositive]

/-- A line with a tab and a wide character. -/
def wideLine : Layout where
  source _ := some "\tvalue \u6f22 = 1;"

theorem span_carets_wideLine : wideLine.charWidth ' ' = 1 ∧
    (∀ c : Char, c.isDigit = true → wideLine.charWidth c = 1) ∧ wideLine.sourceLine ⟨"a", 1, 8, 8, ""⟩ ≠ "" ∧
    ∃ (caretRow : String) (margin label : List Char),
      Shows wideLine.palette caretRow.toList (margin ++ List.replicate 2 '^' ++ label) ∧
      screenWidth wideLine.charWidth margin = 16 := by
  have hspace : wideLine.charWidth ' ' = 1 := by decide
  have hdigit : ∀ c : Char, c.isDigit = true → wideLine.charWidth c = 1 := fun _ => Text.charWidth_digit
  have hsource : wideLine.sourceLine ⟨"a", 1, 8, 8, ""⟩ = "\tvalue \u6f22 = 1;" := by
    have hbreaks : ("\tvalue \u6f22 = 1;" : String).replace "\r\n" "\n" = "\tvalue \u6f22 = 1;" :=
      Text.replace_absent _ (by decide) (by decide +kernel)
    have hplace : ¬ (decide ((1 : Int) ≤ 0) || ("a" : String).isEmpty) = true := by decide
    simp only [sourceLine, wideLine, if_neg hplace, hbreaks]
    decide +kernel
  have hline : wideLine.sourceLine ⟨"a", 1, 8, 8, ""⟩ ≠ "" := by
    rw [hsource]
    decide
  obtain ⟨_, _, caretRow, _, margin, label, carets, last, -, -, hrow, -, -, -, -, hmargin, hlast, hcarets⟩ :=
    span_carets wideLine ⟨"a", 1, 8, 8, ""⟩ hspace hdigit hline
  rw [hsource] at hmargin hlast hcarets
  -- eight columns: the tab is one of them, and the ideograph, two wide on the screen, is one
  have hend : last = 8 := by
    cases hlast with
    | given => rfl
    | word h => exact absurd h (by decide)
    | single h => exact absurd h (by decide)
  subst hend
  have htwo : carets = 2 := hcarets.trans (by decide +kernel)
  subst htwo
  exact ⟨hspace, hdigit, hline, caretRow, margin, label, hrow, hmargin.trans (by decide +kernel)⟩

end Layout

end Report

end Ceylon
