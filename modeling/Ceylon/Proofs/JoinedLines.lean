import Ceylon.Proofs.InputPlaces
import Ceylon.Proofs.Joining

/-!
# Texts on lines of their own

Texts that stand on lines of their own have the tokens together that they have alone.
-/

namespace Ceylon

open Text (Glyph isSpace)

namespace Token

/-- The words of a text that stands alone. -/
def wordsAlone (s : String) : List (Kind × String) :=
  (({ source := ⟨"", ""⟩, rest := Glyph.ofString s } : Cursor).tokens 0).dropLast.map Token.word

theorem says_alone {source : Source} {s : String} (h : (Buffer.ofGlyphs source (Glyph.ofString s)).final.kind = .eof) :
    Says s.toList (wordsAlone s) := by
  obtain ⟨cs, ws, hcs, hsays⟩ := Says.of_buffer h
  obtain rfl : s.toList = cs := List.map_injective_iff.mpr (fun _ _ h => Glyph.char.inj h) hcs
  obtain ⟨ts, hts, hwords⟩ := hsays []
  have htokens := hts.tokens_eq { source := ⟨"", ""⟩, rest := Glyph.ofString s } rfl rfl
  have hws : wordsAlone s = ws := by
    rw [wordsAlone, htokens, List.map_dropLast, hwords, List.dropLast_concat]
  rwa [hws]

theorem says_lexed {s : List Char} {ws : List (Kind × String)} (h : Says s ws) (before : List Char) :
    ∃ ts, Lexed before (s.map .char) ts ∧ (∀ t ∈ ts, t.kind ≠ .error) ∧ ts.dropLast.map Token.word = ws := by
  obtain ⟨ts, hts, hwords⟩ := h before
  exact ⟨ts, hts, Says.ne_error hts hwords, by rw [List.map_dropLast, hwords, List.dropLast_concat]⟩

/-- A text on lines of its own, and what comes next. -/
theorem Lexed.nextLine {before : List Char} {s : List Char} {ts us : List Token} {gs : List Glyph}
    (h : Lexed before (s.map .char) ts) (hok : ∀ t ∈ ts, t.kind ≠ .error)
    (hnext : Lexed (before ++ (s ++ ['\n'])) gs us) :
    Lexed before ((s ++ ['\n']).map .char ++ gs) (ts.dropLast ++ us) := by
  have hbreak : isSpace '\n' = true := by decide
  have hbehind := Lexed.behind_blank (show ∀ c ∈ ['\n'], isSpace c by simp [hbreak])
    (show Lexed (before ++ s ++ ['\n']) gs us by simpa [List.append_assoc] using hnext)
  have hjoin := h.join rfl hok (c := '\n') (by decide) (.inl rfl) hbehind
  simpa using hjoin

/-- What stands on the lines before a text comes before its tokens. -/
theorem Lexed.behind_lines {before : List String} (hbefore : ∀ s ∈ before, Says s.toList (wordsAlone s))
    {pre : List Char}
    {gs : List Glyph} {us : List Token} (hus : Lexed (pre ++ linesBefore before) gs us) :
    ∃ ts, Lexed pre ((linesBefore before).map .char ++ gs) (ts ++ us) ∧
      ts.map Token.word = before.flatMap wordsAlone := by
  induction before generalizing pre with
  | nil => exact ⟨[], by simpa [linesBefore] using hus, rfl⟩
  | cons s before ih =>
    have hlines : linesBefore (s :: before) = (s.toList ++ ['\n']) ++ linesBefore before := rfl
    rw [hlines, ← List.append_assoc] at hus
    obtain ⟨ts, hts, hwords⟩ := ih (fun s hs => hbefore s (List.mem_cons_of_mem _ hs)) hus
    obtain ⟨vs, hvs, hok, hwords'⟩ := says_lexed (hbefore s List.mem_cons_self) pre
    refine ⟨vs.dropLast ++ ts, ?_, by rw [List.map_append, hwords', hwords, List.flatMap_cons]⟩
    rw [hlines, List.map_append, List.append_assoc, List.append_assoc]
    exact hvs.nextLine hok hts

/-- What stands on the lines behind a text comes behind its tokens. -/
theorem Lexed.before_lines {behind : List String} (hbehind : ∀ s ∈ behind, Says s.toList (wordsAlone s))
    {pre s : List Char} {ts : List Token} (hts : Lexed pre (s.map .char) ts) (hok : ∀ t ∈ ts, t.kind ≠ .error) :
    ∃ us, Lexed pre ((s ++ linesBehind behind).map .char) (ts.dropLast ++ us) ∧
      us.map Token.word = behind.flatMap wordsAlone ++ [(.eof, "")] := by
  induction behind generalizing pre s ts with
  | nil =>
    obtain ⟨text, htext, divided⟩ := hts.divided hok
    have hlast := Option.some.inj ((List.getLast?_eq_some_getLast hts.ne_nil).symm.trans divided.getLast)
    refine ⟨[ts.getLast hts.ne_nil], ?_, by rw [hlast]; rfl⟩
    rw [List.dropLast_concat_getLast]
    simpa [linesBehind] using hts
  | cons t behind ih =>
    obtain ⟨vs, hvs, hok', hwords⟩ := says_lexed (hbehind t List.mem_cons_self) (pre ++ (s ++ ['\n']))
    obtain ⟨us, hus, hwords'⟩ := ih (fun s hs => hbehind s (List.mem_cons_of_mem _ hs)) hvs hok'
    refine ⟨vs.dropLast ++ us, ?_, by rw [List.map_append, hwords, hwords', List.flatMap_cons, List.append_assoc]⟩
    have hlines : s ++ linesBehind (t :: behind) = (s ++ ['\n']) ++ (t.toList ++ linesBehind behind) := by
      simp [linesBehind]
    rw [hlines, List.map_append]
    exact hts.nextLine hok hus

end Token

namespace Prompt.Session

open Token

/-- The tokens of a text among others, each on lines of its own. -/
theorem Frame.tokens_text {f : Frame} {s : String} {ws : List (Kind × String)} (source : Source)
    (hbefore : ∀ t ∈ f.before, Says t.toList (wordsAlone t)) (hs : Says s.toList ws)
    (hbehind : ∀ t ∈ f.behind, Says t.toList (wordsAlone t)) :
    (Buffer.ofGlyphs source (Glyph.ofString (f.text s))).final.kind = .eof ∧
      ∃ ts us vs, (Buffer.ofGlyphs source (Glyph.ofString (f.text s))).ahead = ts ++ (us ++ vs) ∧
        ts.map Token.word = (f.before.flatMap wordsAlone).filter (·.1 ≠ .comment) ∧
        us.map Token.word = ws.filter (·.1 ≠ .comment) ∧
        vs.map Token.word = (f.behind.flatMap wordsAlone).filter (·.1 ≠ .comment) ∧
        ∀ t ∈ us, f.firstLine ≤ t.pos.line ∧ t.pos.line < f.firstLine + lineCount [s] ∧ 0 < t.pos.col := by
  obtain ⟨us, hus, hok, huswords⟩ := says_lexed hs (linesBefore f.before)
  obtain ⟨vs, hvs, hvswords⟩ := Lexed.before_lines hbehind hus hok
  obtain ⟨ts, hts, htswords⟩ := Lexed.behind_lines hbefore (show Lexed ([] ++ linesBefore f.before) _ _ from hvs)
  have htext : Glyph.ofString (f.text s) =
      (linesBefore f.before).map .char ++ (s.toList ++ linesBehind f.behind).map .char := by
    rw [Glyph.ofString, Frame.text, intercalate_between, List.map_append]
  have htokens := hts.tokens_eq { source, rest := Glyph.ofString (f.text s) } htext rfl
  obtain ⟨vs, es, rfl, hlast, hes⟩ := List.map_eq_append_iff.mp hvswords
  obtain ⟨e, rfl, he⟩ := List.map_eq_singleton_iff.mp hes
  have hkind : e.kind = .eof := congrArg Prod.fst he
  have hwords (ts : List Token) : (ts.filter (·.kind ≠ .comment)).map Token.word =
      (ts.map Token.word).filter (·.1 ≠ .comment) := by
    rw [List.filter_map]
    rfl
  rw [Buffer.ofGlyphs, Buffer.ofTokens, htokens]
  refine ⟨by simp [List.filter_append, hkind], ts.filter (·.kind ≠ .comment), us.dropLast.filter (·.kind ≠ .comment),
    vs.filter (·.kind ≠ .comment), by simp [List.filter_append, hkind], by rw [hwords, htswords],
    by rw [hwords, huswords], by rw [hwords, hlast], fun t ht => ?_⟩
  -- The tokens of the text stand in it.
  obtain ⟨text, htext, divided⟩ := hus.divided hok
  obtain rfl : s.toList = text := List.map_injective_iff.mpr (fun _ _ h => Glyph.char.inj h) htext
  obtain ⟨_, post, hsplit, hpos, ⟨mid, rfl⟩⟩ :=
    divided.placed t (List.mem_of_mem_dropLast (List.mem_of_mem_filter ht))
  rw [List.append_assoc] at hsplit
  have hmid := congrArg (List.count '\n') (List.append_cancel_left hsplit)
  have hbefore := line_linesBefore f.before
  have hline := Pos.line_behind_append (linesBefore f.before) mid
  rw [List.count_append] at hmid
  have hcol := Pos.col_behind (linesBefore f.before ++ mid)
  rw [hpos, Frame.firstLine, lineCount, lineCount, length_lines]
  rw [Pos.line_behind mid] at hline
  omega

end Prompt.Session

end Ceylon
