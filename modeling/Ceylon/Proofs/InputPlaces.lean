import Ceylon.Proofs.Places
import Ceylon.Proofs.Sessions
import Ceylon.Proofs.Trimming

/-!
# The places of problems at the prompt

What is entered is checked as a part of a longer text, and a problem is shown at a place in what was entered.  Both
places have the same character (`Session.problem_points_at_input`), but the place that is shown counts from the
first character that is not blank: what is entered behind blanks is shown too far to the left, and too far up
(`Session.problem_misses_input`).
-/

namespace Ceylon

open Text

/-! ## Texts line by line -/

theorem length_lines (s : String) : (lines s).length = s.toList.count '\n' + 1 := by
  rw [lines, List.length_map]
  induction s.toList with
  | nil => rfl
  | cons c cs ih =>
    rw [List.splitOn_cons_eq_if_modifyHead, List.count_cons]
    split <;> simp [ih]

/-- What stands before a text on lines of its own. -/
def linesBefore (before : List String) : List Char :=
  before.flatMap fun s => s.toList ++ ['\n']

/-- What stands behind a text on lines of its own. -/
def linesBehind (behind : List String) : List Char :=
  behind.flatMap fun s => '\n' :: s.toList

theorem intercalate_behind (s : String) (behind : List String) :
    ("\n".intercalate (s :: behind)).toList = s.toList ++ linesBehind behind := by
  have hbreak : "\n".toList = ['\n'] := by decide
  rw [String.toList_intercalate, List.map_cons, hbreak]
  induction behind generalizing s with
  | nil => simp [linesBehind]
  | cons t behind ih =>
    rw [List.map_cons, List.intercalate_cons_cons, ih]
    simp [linesBehind]

theorem intercalate_between (before : List String) (s : String) (behind : List String) :
    ("\n".intercalate (before ++ [s] ++ behind)).toList = linesBefore before ++ (s.toList ++ linesBehind behind) := by
  have hbreak : "\n".toList = ['\n'] := by decide
  induction before with
  | nil => exact intercalate_behind s behind
  | cons t before ih =>
    rw [String.toList_intercalate] at ih ⊢
    rw [List.append_assoc, List.cons_append, List.map_cons, List.intercalate_cons_of_ne_nil (by simp),
      ← List.append_assoc before, ih, hbreak]
    simp [linesBefore]

theorem linesBefore_ends (before : List String) : linesBefore before = [] ∨
    ∃ cs, linesBefore before = cs ++ ['\n'] := by
  rcases List.eq_nil_or_concat before with rfl | ⟨before, s, rfl⟩
  · exact .inl rfl
  · exact .inr ⟨linesBefore before ++ s.toList, by simp [linesBefore]⟩

theorem linesBehind_begins (behind : List String) :
    linesBehind behind = [] ∨ ∃ cs, linesBehind behind = '\n' :: cs := by
  cases behind with
  | nil => exact .inl rfl
  | cons s behind => exact .inr ⟨s.toList ++ linesBehind behind, rfl⟩

theorem col_linesBefore (before : List String) : (Pos.behind (linesBefore before)).col = 1 := by
  rcases linesBefore_ends before with h | ⟨cs, h⟩
  · rw [h]
    rfl
  · rw [h, Pos.behind_concat]
    rfl

theorem line_linesBefore (before : List String) :
    (Pos.behind (linesBefore before)).line = Prompt.Session.lineCount before + 1 := by
  induction before with
  | nil => rfl
  | cons s before ih =>
    have h := Pos.line_behind_append (s.toList ++ ['\n']) (linesBefore before)
    have hs := Pos.line_behind s.toList
    rw [Pos.behind_concat, ih, Pos.after, if_pos rfl] at h
    rw [Prompt.Session.lineCount, length_lines, linesBefore, List.flatMap_cons, ← linesBefore]
    dsimp only at h
    omega

/-- A character on the lines of a text belongs to the text. -/
theorem exists_of_line {before : List String} {s : String} {behind : List String} {pre post : List Char} {c : Char}
    (hsplit : linesBefore before ++ (s.toList ++ linesBehind behind) = pre ++ c :: post) (hc : c ≠ '\n')
    (hfirst : Prompt.Session.lineCount before + 1 ≤ (Pos.behind pre).line)
    (hlast : (Pos.behind pre).line < Prompt.Session.lineCount before + 1 + Prompt.Session.lineCount [s]) :
    ∃ pre' post', pre = linesBefore before ++ pre' ∧ s.toList = pre' ++ c :: post' := by
  have hbefore := line_linesBefore before
  rcases Token.split_append hsplit with ⟨mid, hmid⟩ | ⟨mid, rfl, hrest⟩
  · -- Before the text there is a line break behind every character.
    obtain ⟨cs, hcs⟩ := (linesBefore_ends before).resolve_left (by simp [hmid])
    have hbreak : '\n' ∈ mid := by
      have hlast : (pre ++ c :: mid).getLast? = some '\n' := by rw [← hmid, hcs, List.getLast?_concat]
      cases mid with
      | nil => simp [hc] at hlast
      | cons d mid =>
        rw [List.getLast?_append_of_ne_nil _ (by simp), List.getLast?_cons_cons] at hlast
        exact List.mem_of_getLast? hlast
    have hcount := List.count_pos_iff.mpr hbreak
    rw [hmid, Pos.line_behind, List.count_append, List.count_cons] at hbefore
    rw [Pos.line_behind] at hfirst
    omega
  · rcases Token.split_append hrest with ⟨mid', hmid⟩ | ⟨mid', rfl, hbehind⟩
    · exact ⟨mid, mid', rfl, hmid⟩
    · -- Behind the text there is a line break before every character.
      obtain ⟨cs, hcs⟩ := (linesBehind_begins behind).resolve_left (by simp [hbehind])
      obtain ⟨mid, rfl⟩ : ∃ mid, mid' = '\n' :: mid := by
        rw [hcs] at hbehind
        cases mid' with
        | nil => exact absurd (List.cons.inj hbehind).1.symm hc
        | cons d mid => exact ⟨mid, by rw [(List.cons.inj hbehind).1]⟩
      have h := Pos.line_behind_append (linesBefore before) (s.toList ++ '\n' :: mid)
      have hs : (Pos.behind (s.toList ++ '\n' :: mid)).line = 1 + (s.toList.count '\n' + (mid.count '\n' + 1)) := by
        rw [Pos.line_behind, List.count_append, List.count_cons_self]
      rw [Prompt.Session.lineCount, Prompt.Session.lineCount, length_lines] at hlast
      omega

/-! ## Blanks around a text -/

/-- The blanks at the start of a text. -/
def blanksOf (s : String) : List Char :=
  s.toList.takeWhile isSpace

/-- A text is what is left of it without the blanks around it, and these. -/
theorem toList_trim (s : String) : ∃ trail, s.toList = blanksOf s ++ ((trim s).toList ++ trail) := by
  have hright (cs : List Char) : trimRight cs ++ (cs.reverse.takeWhile isSpace).reverse = cs := by
    rw [trimRight, trimLeft, ← List.reverse_append, List.takeWhile_append_dropWhile, List.reverse_reverse]
  refine ⟨((trimLeft s.toList).reverse.takeWhile isSpace).reverse, ?_⟩
  rw [trim, String.toList_ofList, hright, blanksOf, trimLeft, List.takeWhile_append_dropWhile]

namespace Prompt

open Analysis (Diagnostic State)
open Report (Problem Span)

/-! ## What is checked -/

/-- What is checked when something is entered: its place in the unit, and the text there, of which the first
characters have not been entered. -/
structure Trial where
  frame : Session.Frame
  text : String
  hidden : Nat

/-- The text of the unit. -/
def Trial.unitText (e : Trial) : String :=
  e.frame.text e.text

namespace Session

variable {s : Session} {input : String}

/-- What is checked when something is entered, if it can be read. -/
def trial? (s : Session) (input : String) : Option Trial :=
  let input := trim input
  let source : Source := { name := inputName }
  let glyphs := Glyph.ofString input
  if input.isEmpty then none
  else match Syntax.parseExpr source glyphs with
    | .ok _ => some ⟨s.declarationFrame, resultStart ++ beforeEnd ";" input ++ ";", resultStart.length⟩
    | .error _ =>
      match Syntax.parseUnit source glyphs with
      | .error _ => none
      | .ok unit =>
        if !unit.imports.isEmpty && !unit.body.isEmpty then none
        else some ⟨if !unit.imports.isEmpty then s.importFrame else s.declarationFrame, input, 0⟩

/-- Problems of an analysis of the unit, as far as they lie on the lines of what was entered. -/
def Stems (s : Session) (e : Trial) (reply : Reply) : Prop :=
  ∃ latest, analyze s.files e.unitText = .ok latest ∧
    reply.problems = latest.diagnostics.filterMap (shown? e.frame.firstLine (lineCount [e.text]) e.hidden)

theorem stems_evalExpr {s' : Session} {reply : Reply} (h : s.evalExpr input = (.ok reply, s')) :
    s.Stems ⟨s.declarationFrame, resultStart ++ beforeEnd ";" input ++ ";", resultStart.length⟩ reply := by
  unfold evalExpr at h
  dsimp only at h
  cases hanalyze : analyze s.files (s.declarationFrame.text (resultStart ++ beforeEnd ";" input ++ ";")) with
  | error e =>
    rw [check_of_error hanalyze] at h
    cases h
  | ok a =>
    rw [check_of_ok hanalyze] at h
    refine ⟨a, hanalyze, ?_⟩
    obtain ⟨h, -⟩ := Prod.mk.inj h
    rw [← Except.ok.inj h]
    dsimp only
    split <;> rfl

theorem stems_evalUnit {isImport : Bool} {s' : Session} {reply : Reply}
    (h : s.evalUnit input isImport = (.ok reply, s')) :
    s.Stems ⟨if isImport then s.importFrame else s.declarationFrame, input, 0⟩ reply := by
  generalize hframe : (if isImport then s.importFrame else s.declarationFrame) = frame
  unfold evalUnit at h
  rw [hframe] at h
  dsimp only at h
  cases hanalyze : analyze s.files (frame.text input) with
  | error e =>
    rw [check_of_error hanalyze] at h
    cases h
  | ok a =>
    rw [check_of_ok hanalyze] at h
    refine ⟨a, hanalyze, ?_⟩
    dsimp only at h
    -- refused with problems, or accepted and kept
    split at h
    · split at h
      · cases h
      · obtain ⟨h, -⟩ := Prod.mk.inj h
        rw [← Except.ok.inj h]
        rfl
    · cases isImport with
      | true =>
        obtain ⟨h, -⟩ := Prod.mk.inj h
        rw [← Except.ok.inj h]
        rfl
      | false =>
        obtain ⟨h, -⟩ := Prod.mk.inj h
        rw [← Except.ok.inj h]
        rfl

/-- The problems of a reply are those of an analysis, if what was entered can be read. -/
theorem stems_eval {e : Trial} (he : s.trial? input = some e) {s' : Session} {reply : Reply}
    (h : s.eval input = (.ok reply, s')) : s.Stems e reply := by
  simp only [trial?, eval] at he h
  split at he
  · cases he
  · next hne =>
    rw [if_neg hne] at h
    split at he
    · next x hx =>
      rw [hx] at h
      obtain rfl := Option.some.inj he
      exact stems_evalExpr h
    · next hx =>
      rw [hx] at h
      dsimp only at h
      split at he
      · cases he
      · next unit hunit =>
        rw [hunit] at h
        dsimp only at h
        split at he
        · cases he
        · next hmixed =>
          rw [if_neg hmixed] at h
          obtain rfl := Option.some.inj he
          exact stems_evalUnit h

/-! ## Places -/

theorem exists_of_shown? {first lines hidden : Nat} {d : Diagnostic} {p : Problem}
    (h : shown? first lines hidden d = some p) :
    ∃ place line, d.location = some place ∧ place.file = unitName ∧ line = place.line - first + 1 ∧
      (first ≤ place.line ∧ place.line < first + lines) ∧ (line = 1 → hidden < place.col) ∧
      p.message = d.message ∧
      p.spans = [{ file := inputName, line, col := if line = 1 then place.col - hidden else place.col }] := by
  obtain ⟨place, hplace, h⟩ := Option.bind_eq_some_iff.mp h
  dsimp only at h
  split at h
  · cases h
  · next hfile =>
    split at h
    · cases h
    · next hlines =>
      split at h
      · cases h
      · next hhidden =>
        obtain rfl := Option.some.inj h
        simp only [Bool.or_eq_true, decide_eq_true_eq, not_or, not_lt, not_le] at hlines
        simp only [Bool.and_eq_true, decide_eq_true_eq, not_and, not_le] at hhidden
        exact ⟨place, _, hplace, not_not.mp hfile, rfl, hlines, hhidden, rfl, rfl⟩

/-- With a semicolon at its end a text is as it was, unless it had none. -/
theorem beforeEnd_semicolon (s : String) : (beforeEnd ";" s).toList ++ [';'] = s.toList ∨
    (¬ ∃ cs, s.toList = cs ++ [';']) ∧ beforeEnd ";" s = s := by
  have hsemicolon : ";".toList.reverse = [';'] := by decide
  rw [beforeEnd, hsemicolon]
  split
  · next rest hrest =>
    left
    have h := congrArg List.reverse (eq_of_after? hrest)
    rw [List.reverse_reverse] at h
    rw [h, String.toList_ofList]
    simp
  · next hnone =>
    refine .inr ⟨?_, rfl⟩
    rintro ⟨cs, hcs⟩
    rw [hcs, List.reverse_append, List.reverse_singleton, after?_append] at hnone
    cases hnone

/-- How the text of a trial is made from what was entered. -/
theorem text_of_trial? {e : Trial} (he : s.trial? input = some e) :
    ∃ start typed, e.text.toList = start ++ typed ∧ (∀ c ∈ start, c ≠ '\n') ∧ start.length = e.hidden ∧
      (typed = (trim input).toList ∨
        (¬ ∃ cs, (trim input).toList = cs ++ [';']) ∧ typed = (trim input).toList ++ [';']) := by
  simp only [trial?] at he
  split at he
  · cases he
  · split at he
    · obtain rfl := Option.some.inj he
      have hstart : ∀ c ∈ resultStart.toList, c ≠ '\n' := by simp [resultStart, resultName]
      have hlength : resultStart.toList.length = resultStart.length := String.length_toList
      have hsemicolon : ";".toList = [';'] := by decide
      refine ⟨resultStart.toList, (beforeEnd ";" (trim input)).toList ++ [';'], ?_, hstart, hlength, ?_⟩
      · rw [String.toList_append, String.toList_append, List.append_assoc, hsemicolon]
      · rcases beforeEnd_semicolon (trim input) with h | ⟨hnone, h⟩
        · exact .inl h
        · exact .inr ⟨hnone, by rw [h]⟩
    · split at he
      · cases he
      · split at he
        · cases he
        · obtain rfl := Option.some.inj he
          exact ⟨[], (trim input).toList, (List.nil_append _).symm, by simp, rfl, .inl rfl⟩

/-- The place in a text of a place in what is left of it without the blanks around it. -/
def untrimmed (input : String) (line col : Int) : Int × Int :=
  let blank := Pos.behind (blanksOf input)
  (line + blank.line - 1, if line = 1 then col + blank.col - 1 else col)

/-- A character of what is left without the blanks is found in the text. -/
theorem charAt?_untrimmed {pre mid : List Char} {c : Char} (hc : c ≠ '\n')
    (hmid : (trim input).toList = pre ++ c :: mid) :
    charAt? input (untrimmed input (Pos.behind pre).line (Pos.behind pre).col).1
      (untrimmed input (Pos.behind pre).line (Pos.behind pre).col).2 = some c := by
  obtain ⟨trail, htrail⟩ := toList_trim input
  have hlines := Pos.line_behind_append (blanksOf input) pre
  have hcols := Pos.col_behind_append (blanksOf input) pre
  refine charAt?_eq_some_iff.mpr ⟨hc, blanksOf input ++ pre, mid ++ trail, ?_, ?_, ?_⟩
  · rw [htrail, hmid]
    simp
  · rw [untrimmed]
    omega
  · rw [untrimmed]
    -- Columns move by the blanks in the first line only, and only by those behind the last break among them.
    by_cases hone : (Pos.behind pre).line = 1
    · have hpre := Pos.col_behind_of_line hone
      rw [if_pos hone] at hcols
      rw [if_pos (by exact_mod_cast hone)]
      omega
    · rw [if_neg hone] at hcols
      rw [if_neg (by exact_mod_cast hone), hcols]

theorem untrimmed_of_blanksOf (h : blanksOf input = []) (line col : Int) : untrimmed input line col = (line, col) := by
  simp [untrimmed, h, Pos.start]

/-- What an analysis finds on the lines of what was entered is shown at its place there.  The place counts from
behind the blanks with which the input begins, so it is the place in the input if there are none.  Only a semicolon
behind the input need not have been entered. -/
theorem problem_points_at_input {e : Trial} (he : s.trial? input = some e) {s' : Session} {reply : Reply}
    (h : s.eval input = (.ok reply, s')) : ∃ latest, analyze s.files e.unitText = .ok latest ∧
      ∀ p ∈ reply.problems, ∃ d ∈ latest.diagnostics, p.message = d.message ∧
        ∃ place, d.location = some place ∧ place.file = unitName ∧ ∃ line col : Int,
        place.line = e.frame.firstLine + line - 1 ∧ place.col = (if line = 1 then e.hidden + col else col) ∧
        p.spans = [{ file := inputName, line, col }] ∧
        ∀ c, charAt? e.unitText place.line place.col = some c →
          (charAt? input (untrimmed input line col).1 (untrimmed input line col).2 = some c ∧
            (blanksOf input = [] → charAt? input line col = some c)) ∨
          (c = ';' ∧ (¬ ∃ cs, (trim input).toList = cs ++ [';']) ∧ line = (Pos.behind (trim input).toList).line ∧
            col = (Pos.behind (trim input).toList).col) := by
  obtain ⟨latest, hanalyze, hproblems⟩ := stems_eval he h
  refine ⟨latest, hanalyze, fun p hp => ?_⟩
  rw [hproblems] at hp
  obtain ⟨d, hd, hshown⟩ := List.mem_filterMap.mp hp
  obtain ⟨place, line, hplace, hfile, rfl, ⟨hfirst, hlast⟩, hhidden, hmessage, hspans⟩ := exists_of_shown? hshown
  refine ⟨d, hd, hmessage, place, hplace, hfile, place.line - e.frame.firstLine + 1, _, by omega, ?_, hspans,
    fun c hc => ?_⟩
  · split <;> omega
  -- The character is one of the text that was checked.
  obtain ⟨hbreak, pre, post, hsplit, hline, hcol⟩ := charAt?_eq_some_iff.mp hc
  have hfirstLine : e.frame.firstLine = lineCount e.frame.before + 1 := rfl
  rw [Trial.unitText, Frame.text, intercalate_between] at hsplit
  obtain ⟨pre, post, rfl, htext⟩ := exists_of_line hsplit hbreak (by omega) (by omega)
  have hlines := Pos.line_behind_append (linesBefore e.frame.before) pre
  have hcols := Pos.col_behind_append (linesBefore e.frame.before) pre
  rw [line_linesBefore] at hlines
  rw [col_linesBefore] at hcols
  -- It is behind what has not been entered.
  obtain ⟨start, typed, htyped, hstart, hlength, hinput⟩ := text_of_trial? he
  rw [htyped] at htext
  obtain ⟨pre, rfl, hpiece⟩ : ∃ pre', pre = start ++ pre' ∧ typed = pre' ++ c :: post := by
    refine (Token.split_append htext).resolve_left ?_
    rintro ⟨mid, rfl⟩
    have hone : (Pos.behind pre).line = 1 := Pos.line_behind_eq_one fun c hc => hstart c (List.mem_append_left _ hc)
    rw [if_pos hone] at hcols
    have hcolumn := hhidden (by omega)
    simp only [List.length_append, List.length_cons] at hlength
    omega
  -- So it stands where the problem is shown.
  have hstartOne := Pos.line_behind_eq_one hstart
  have hstartLines := Pos.line_behind_append start pre
  have hshownLine : place.line - e.frame.firstLine + 1 = (Pos.behind pre).line := by omega
  have hshownCol : (if place.line - e.frame.firstLine + 1 = 1 then place.col - e.hidden else place.col) =
      (Pos.behind pre).col := by
    by_cases hone : (Pos.behind pre).line = 1
    · have hpre := Pos.col_behind_of_line hone
      rw [if_pos (by omega), List.length_append] at hcols
      rw [if_pos (by omega)]
      omega
    · have hpre := Pos.col_behind_append start pre
      rw [if_neg hone] at hpre
      rw [if_neg (by omega), hpre] at hcols
      rw [if_neg (by omega)]
      omega
  rw [hshownCol, hshownLine]
  have hfound (mid : List Char) (hmid : (trim input).toList = pre ++ c :: mid) :
      charAt? input (untrimmed input (Pos.behind pre).line (Pos.behind pre).col).1
        (untrimmed input (Pos.behind pre).line (Pos.behind pre).col).2 = some c ∧
        (blanksOf input = [] → charAt? input (Pos.behind pre).line (Pos.behind pre).col = some c) := by
    have h := charAt?_untrimmed hbreak hmid
    exact ⟨h, fun hblank => by rwa [untrimmed_of_blanksOf hblank] at h⟩
  rcases hinput with hwhole | ⟨hnone, hwhole⟩
  · exact .inl (hfound post (hwhole ▸ hpiece))
  · rcases Token.split_append (hwhole ▸ hpiece) with ⟨mid, hmid⟩ | ⟨mid, hpre, hlast⟩
    · exact .inl (hfound mid hmid)
    · obtain ⟨rfl, rfl⟩ : mid = [] ∧ c = ';' := by
        cases mid with
        | nil => exact ⟨rfl, (List.cons.inj hlast).1.symm⟩
        | cons d mid => simp at hlast
      rw [hpre, List.append_nil]
      exact .inr ⟨rfl, hnone, rfl, rfl⟩

/-! ## A name that means nothing -/

/-- A session in which nothing has been kept, over an empty tree. -/
def bare : Session :=
  { files := {}, latest := default }

/-- What is checked when a name is entered there. -/
def bareTrial : Trial :=
  ⟨bare.declarationFrame, resultStart ++ beforeEnd ";" "x" ++ ";", resultStart.length⟩

theorem parseExpr_name : ∃ x, Syntax.parseExpr { name := inputName } (Glyph.ofString "x") = .ok x := by
  have htokens : ({ source := { name := inputName }, rest := Glyph.ofString "x" } : Token.Cursor).tokens 0 =
      [⟨.lowerName, "x", ⟨0, 1, 1⟩⟩, ⟨.eof, "", ⟨1, 1, 2⟩⟩] :=
    Token.Cursor.tokens_eq_of_tokensWithin (n := 3) (by decide)
  rw [Syntax.parseExpr, Token.Buffer.ofGlyphs, htokens]
  exact ⟨_, rfl⟩

theorem bareTrial_unitText : bareTrial.unitText = "value _it = x;" := by
  decide

theorem analyze_bare : ∃ latest, analyze bare.files bareTrial.unitText = .ok latest ∧
    ∃ d ∈ latest.diagnostics, ∃ place, d.location = some place ∧ place.file = unitName ∧ place.line = 1 ∧
      place.col = 13 := by
  have htree : tree bare.files bareTrial.unitText = Analysis.lostName := by
    have hname : "/" ++ unitName = "/_repl.ceylon" := by decide
    rw [tree, hname, bareTrial_unitText]
    rfl
  -- That the tree loads is evaluated over a language module that stays closed.
  have houtcome : (Analysis.lostName.analyze []).1 = none := by
    have hload := Analysis.lostName.load_of_loaded? 10 [] (fun done _ => done) (by decide +kernel)
    unfold Analysis.SourceTree.analyze
    generalize State.initial = initial at hload ⊢
    exact Option.isNone_iff_eq_none.mp hload
  have hlost := Analysis.beginning_holds.lost
  refine ⟨_, analyze_of_outcome (htree ▸ houtcome), ?_⟩
  rw [htree]
  generalize (Analysis.lostName.analyze []).2 = latest at hlost ⊢
  simp only [Analysis.isLost, Bool.and_eq_true, decide_eq_true_eq, Array.any_eq_true', Option.any_eq_true] at hlost
  obtain ⟨hunits, d, hd, place, hplace, ⟨hfile, hline⟩, hcol⟩ := hlost
  have hname : unitName = "_repl.ceylon" := by decide
  have hunit : ⟨1⟩ ∈ latest.userUnits := hunits ▸ List.mem_singleton_self _
  exact ⟨d, mem_diagnostics hunit hd, place, hplace, hfile.trans hname.symm, hline, hcol⟩

/-- The name is not found, and the problem is shown at the first column. -/
theorem eval_bare {input : String} (hinput : trim input = "x") : bare.trial? input = some bareTrial ∧
    ∃ reply s', bare.eval input = (.ok reply, s') ∧
      ∃ p ∈ reply.problems, p.spans = [{ file := inputName, line := 1, col := 1 }] := by
  obtain ⟨x, hx⟩ := parseExpr_name
  have hne : ¬ "x".isEmpty = true := by decide
  have htrial : bare.trial? input = some bareTrial := by
    simp only [trial?, hinput, hx, if_neg hne]
    rfl
  refine ⟨htrial, ?_⟩
  obtain ⟨latest, hanalyze, d, hd, place, hplace, hfile, hline, hcol⟩ := analyze_bare
  obtain ⟨reply, s', heval⟩ : ∃ reply s', bare.eval input = (.ok reply, s') := by
    have hcheck : bare.check bareTrial.unitText = .ok { bare with latest } := check_of_ok hanalyze
    unfold eval
    simp only [hinput, hx, if_neg hne]
    unfold evalExpr
    dsimp only
    rw [show bare.check (bare.declarationFrame.text (resultStart ++ beforeEnd ";" "x" ++ ";")) = _ from hcheck]
    exact ⟨_, _, rfl⟩
  refine ⟨reply, s', heval, ?_⟩
  obtain ⟨latest', hanalyze', hproblems⟩ := stems_eval htrial heval
  obtain rfl := Except.ok.inj (hanalyze.symm.trans hanalyze')
  have hlines : lineCount [bareTrial.text] = 1 := by decide
  have hhidden : bareTrial.hidden = 12 := by decide
  have hfirst : bareTrial.frame.firstLine = 1 := rfl
  -- the twelve columns hidden before the input are taken off, so the column shown is the one typed
  have hshown : ∃ p, shown? 1 1 12 d = some p ∧ p.spans = [{ file := inputName, line := 1, col := 1 }] := by
    simp [shown?, hplace, hfile, hline, hcol]
  obtain ⟨p, hp, hspans⟩ := hshown
  rw [hfirst, hlines, hhidden] at hproblems
  exact ⟨p, hproblems ▸ List.mem_filterMap.mpr ⟨d, hd, hp⟩, hspans⟩

theorem charAt?_name : charAt? bareTrial.unitText 1 13 = some 'x' := by
  rw [bareTrial_unitText]
  decide

/-- The name is entered as it is. -/
theorem problem_points_at_input_name : bare.trial? "x" = some bareTrial ∧
    ∃ reply s', bare.eval "x" = (.ok reply, s') ∧ ∃ p ∈ reply.problems,
      p.spans = [{ file := inputName, line := 1, col := 1 }] ∧ charAt? "x" 1 1 = some 'x' := by
  obtain ⟨htrial, reply, s', heval, p, hp, hspans⟩ := eval_bare (show trim "x" = "x" by decide)
  obtain ⟨latest, -, hproblems⟩ := problem_points_at_input htrial heval
  obtain ⟨d, -, -, place, -, -, line, col, hline, hcol, hspans', hchar⟩ := hproblems p hp
  refine ⟨htrial, reply, s', heval, p, hp, hspans, ?_⟩
  obtain ⟨rfl, rfl⟩ : line = 1 ∧ col = 1 := by simpa using hspans'.symm.trans hspans
  have hhidden : bareTrial.hidden = 12 := by decide
  rw [hline, hcol, hhidden] at hchar
  rcases hchar 'x' charAt?_name with ⟨-, h⟩ | ⟨h, -⟩
  · exact h (by decide)
  · exact absurd h (by decide)

/-- The name is entered behind blanks.  The problem is at the name in the unit, but it is shown at the first of the
blanks. -/
theorem problem_misses_input : bare.trial? "  x" = some bareTrial ∧
    ∃ reply s', bare.eval "  x" = (.ok reply, s') ∧ ∃ p ∈ reply.problems,
      p.spans = [{ file := inputName, line := 1, col := 1 }] ∧
      (∃ latest, analyze bare.files bareTrial.unitText = .ok latest ∧ ∃ d ∈ latest.diagnostics, ∃ place,
        d.location = some place ∧ p.message = d.message ∧
        charAt? bareTrial.unitText place.line place.col = some 'x') ∧
      charAt? "  x" 1 1 = some ' ' := by
  obtain ⟨htrial, reply, s', heval, p, hp, hspans⟩ := eval_bare (show trim "  x" = "x" by decide)
  obtain ⟨latest, hanalyze, hproblems⟩ := stems_eval htrial heval
  rw [hproblems] at hp
  obtain ⟨d, hd, hshown⟩ := List.mem_filterMap.mp hp
  obtain ⟨place, line, hplace, -, hline, -, -, hmessage, hspans'⟩ := exists_of_shown? hshown
  -- The spans say where it is shown, and from that the place in the unit is reckoned back.
  obtain ⟨rfl, hcol⟩ : line = 1 ∧ (if line = 1 then place.col - bareTrial.hidden else place.col) = 1 := by
    simpa using hspans'.symm.trans hspans
  have hhidden : bareTrial.hidden = 12 := by decide
  have hfirst : bareTrial.frame.firstLine = 1 := rfl
  rw [if_pos rfl, hhidden] at hcol
  obtain ⟨hplaceLine, hplaceCol⟩ : place.line = 1 ∧ place.col = 13 := by omega
  refine ⟨htrial, reply, s', heval, p, hproblems ▸ hp, hspans, ⟨latest, hanalyze, d, hd, place, hplace, hmessage, ?_⟩,
    by decide⟩
  rw [hplaceLine, hplaceCol]
  exact charAt?_name

end Session

end Prompt

end Ceylon
