import Ceylon.Proofs.Evaluation
import Ceylon.Proofs.KeptTexts
import Ceylon.Proofs.Trimming

/-!
# Expressions at the prompt as values

An expression that is entered is laid out as the value of a declaration behind what the session has kept, with a
semicolon put at its end unless the text has one there.  It is read in the unit as it was read alone just if one
semicolon stands behind it (`Session.parseUnit_wrapped`).  A comment at the end of the text may hide the semicolon that
is put there, or the one that the text has.
-/

namespace Ceylon

open Text (Glyph isSpace)
open Token (Buffer Kind Says wordsAlone isLineComment Cursor)
open Syntax (Expr readParts)

namespace Syntax.Parser

/-- A text is an expression if it is parsed as one. -/
theorem isExpr_of_parseExpr {source : Source} {gs : List Glyph} {x : Expr} (h : parseExpr source gs = .ok x) :
    ∃ k, IsExpr (.ofGlyphs source gs) x k := by
  generalize hb : Buffer.ofGlyphs source gs = b
  have hended : b.Ended := hb ▸ (Buffer.ofGlyphs_spec source gs).1
  have hinner : ∀ t ∈ b.ahead, t.kind ≠ .eof := hb ▸ Buffer.ofGlyphs_inner source gs
  have hrun : ∃ b', wholeExpr.run b = .ok (x, b') := by
    rw [parseExpr, hb] at h
    cases hwhole : wholeExpr.run b with
    | error e =>
      rw [hwhole] at h
      cases h
    | ok r =>
      rw [hwhole] at h
      exact ⟨r.2, by rw [← Except.ok.inj h]⟩
  obtain ⟨b', hrun⟩ := hrun
  obtain ⟨y, b₁, hx, hrun⟩ := bind_ok.mp hrun
  have hlocated := expr_located hx default
  rw [discard_bind_eq] at hrun
  have hend {b₂ : Buffer} (h : (get >>= fun b => if b.atEnd = true then pure y
      else peek >>= fun t => Parser.fail (.trailing t)).run b₂ = .ok (x, b')) : b₂.atEnd = true ∧ x = y := by
    have h := get_bind h
    split at h
    · next hatEnd => exact ⟨hatEnd, (Prod.mk.inj (pure_ok.mp h)).1⟩
    · obtain ⟨_, _, _, h⟩ := bind_ok.mp h
      exact absurd h fail_ok
  -- with a semicolon behind the expression, or without one; in both cases every token has been read
  obtain ⟨hsemicolon, hrun⟩ | ⟨hnone, hrun⟩ := accept_bind hrun
  · obtain ⟨hatEnd, rfl⟩ := hend hrun
    obtain ⟨hfinal, hall⟩ := Buffer.all_read hended hinner (hlocated.before hsemicolon rfl) hatEnd
    obtain ⟨k, hk, rfl, -⟩ := expr_echoes.passes hfinal hx
    rw [Buffer.peek_passing] at hsemicolon
    refine ⟨k, hx, hfinal, hk, .inl ⟨hsemicolon, ?_⟩⟩
    have hlt : k < b.ahead.length := by
      by_contra hge
      rw [Buffer.peekAt, List.getElem?_eq_none (by omega), Option.getD_none, hfinal] at hsemicolon
      cases hsemicolon
    have hlength := congrArg List.length hall
    rw [Buffer.advance_passing, Buffer.length_passing, List.length_nil] at hlength
    omega
  · obtain ⟨hatEnd, rfl⟩ := hend hrun
    obtain ⟨hfinal, hall⟩ := Buffer.all_read hended hinner hlocated hatEnd
    obtain ⟨k, hk, rfl, -⟩ := expr_echoes.passes hfinal hx
    refine ⟨k, hx, hfinal, hk, .inr ⟨?_, ?_⟩⟩
    · rw [← Buffer.peek_passing]
      exact of_decide_eq_true hatEnd
    · have hlength := congrArg List.length hall
      rw [Buffer.length_passing, List.length_nil] at hlength
      omega

end Syntax.Parser

namespace Text

theorem dark_of_trim {s : String} (h : trim s = s) : ∀ c ∈ s.toList.getLast?, isSpace c = false := by
  rw [← h, trim, String.toList_ofList, trimRight, List.getLast?_reverse, trimLeft]
  intro c hc
  have hhead := List.head?_dropWhile_not isSpace (trimLeft s.toList).reverse
  rw [Option.mem_def.mp hc] at hhead
  simpa using hhead

end Text

namespace Prompt.Session

open Syntax.Parser

/-- Whether the expression of an input has a semicolon behind it. -/
def hasSemicolon (input : String) : Bool :=
  match expr.run (inputBuffer input) with
  | .ok (_, rest) => rest.peek.kind = .semicolon
  | .error _ => false

/-- Whether an input ends in a line comment. -/
def endsInComment (input : String) : Bool :=
  (wordsAlone input).getLast?.any isLineComment

/-- Whether the semicolon at the end of what becomes of an input is one that the input has: its last character, or a
part of the comment at its end. -/
def keepsEnd (input : String) : Bool :=
  input.toList.getLast? = some ';' || endsInComment input

/-- Whether the expression of an input ends with one semicolon when it becomes the value of a declaration: it has one
just if none is put behind it. -/
def wraps (input : String) : Bool :=
  hasSemicolon input == keepsEnd input

theorem says_of_tokens {s : String} {t : List Token} {n : Nat}
    (h : ({ source := ⟨"", ""⟩, rest := Glyph.ofString s } : Cursor).tokensWithin n = some t)
    (hok : ∀ u ∈ t, u.kind ≠ .error) : Says s.toList (t.dropLast.map Token.word) := by
  have htokens := Token.Cursor.tokens_eq_of_tokensWithin h
  have hlexed := Cursor.tokens_lexed { source := ⟨"", ""⟩, rest := Glyph.ofString s } [] rfl
  rw [htokens] at hlexed
  obtain ⟨cs, hcs, hsays⟩ := Says.of_lexed hlexed hok
  obtain rfl : s.toList = cs := List.map_injective_iff.mpr (fun _ _ h => Glyph.char.inj h) hcs
  exact hsays

theorem says_semicolon : Says [';'] [(.semicolon, ";")] := by
  have h := says_of_tokens (s := ";") (n := 2) (t := [⟨.semicolon, ";", ⟨0, 1, 1⟩⟩, ⟨.eof, "", ⟨1, 1, 2⟩⟩]) (by decide)
    (by decide)
  exact h

/-- What stands before an expression. -/
theorem says_start {cs : List Char} {ws : List (Kind × String)} (h : Says cs ws) :
    Says (resultStart.toList ++ cs) (valueWords resultName ++ ws) := by
  have hstart := says_of_tokens (s := "value _it =") (n := 4) (t := [⟨.kwValue, "value", ⟨0, 1, 1⟩⟩,
    ⟨.lowerName, "_it", ⟨6, 1, 7⟩⟩, ⟨.specify, "=", ⟨10, 1, 11⟩⟩, ⟨.eof, "", ⟨11, 1, 12⟩⟩]) (by decide) (by decide)
  have htext : resultStart.toList ++ cs = "value _it =".toList ++ ' ' :: cs := by
    have hresult : resultStart = "value _it =" ++ " " := by decide
    rw [hresult, String.toList_append, List.append_assoc]
    rfl
  rw [htext]
  exact hstart.append (c := ' ') (by decide) (.inr (by decide)) (Says.behind_blank (by decide) h)

variable {input : String} {x : Expr}

/-- The semicolons behind an expression are its own, if it has one, and the one that is put at its end. -/
theorem says_closed {k : Nat} (htrim : Text.trim input = input) (hx : IsExpr (inputBuffer input) x k) :
    ∃ ws es, Says (Text.beforeEnd ";" input ++ ";").toList ws ∧
      ws.filter (·.1 ≠ .comment) = wordsOf (inputBuffer input) ++ es ∧ (∀ w ∈ es, w.1 = .semicolon) ∧
      ((wordsOf (inputBuffer input) ++ es).length = k + 1 ↔ wraps input = true) := by
  have hsays := says_input hx.final
  have hwords := wordsOf_input hx.final
  have hcount : (wordsOf (inputBuffer input)).length = k + (hasSemicolon input).toNat := by
    unfold hasSemicolon
    generalize inputBuffer input = b at hx
    rw [hx.run]
    dsimp only
    rw [Buffer.peek_passing, wordsOf, List.length_map]
    rcases hx.behind with ⟨hkind, hlength⟩ | ⟨hkind, hlength⟩ <;> rw [hkind, hlength] <;> rfl
  generalize wordsOf (inputBuffer input) = bs at hwords hcount ⊢
  have htext : (Text.beforeEnd ";" input ++ ";").toList = (Text.beforeEnd ";" input).toList ++ [';'] := by
    rw [String.toList_append]
    rfl
  rw [htext, wraps, beq_iff_eq]
  have hown (h : keepsEnd input = true) : (bs ++ []).length = k + 1 ↔ hasSemicolon input = keepsEnd input := by
    rw [h, List.append_nil, hcount]
    cases hasSemicolon input <;> simp
  rcases beforeEnd_semicolon input with hend | ⟨hend, htext⟩
  · -- The semicolon is that of the input.
    have hlast : input.toList.getLast? = some ';' := by rw [← hend, List.getLast?_concat]
    have hkeeps : keepsEnd input = true := by rw [keepsEnd, hlast, decide_eq_true rfl, Bool.true_or]
    exact ⟨wordsAlone input, [], hend ▸ hsays, by rw [← hwords, List.append_nil], by simp, hown hkeeps⟩
  · have hlast : input.toList.getLast? ≠ some ';' := fun h => hend (List.getLast?_eq_some_iff.mp h)
    have hkeeps : keepsEnd input = endsInComment input := by rw [keepsEnd, decide_eq_false hlast, Bool.false_or]
    rw [htext]
    cases hcomment : endsInComment input with
    | true =>
      -- The semicolon that is put at the end belongs to the comment.
      obtain ⟨ws, hws, hsame⟩ := hsays.longerComment (c := ';') (by decide) (by decide)
        (Text.dark_of_trim htrim) hcomment
      exact ⟨ws, [], hws, by rw [hsame, ← hwords, List.append_nil], by simp, hown (hkeeps.trans hcomment)⟩
    | false =>
      have hnone : ∀ w ∈ (wordsAlone input).getLast?, isLineComment w = false := by
        intro w hw
        rw [endsInComment, Option.mem_def.mp hw] at hcomment
        exact hcomment
      refine ⟨_, [(.semicolon, ";")], hsays.append (c := ';') (by decide) (.inr hnone) says_semicolon, ?_, by simp, ?_⟩
      · rw [List.filter_append, ← hwords]
        rfl
      · rw [hkeeps, hcomment, List.length_append, hcount]
        cases hasSemicolon input <;> simp

theorem parts_of_keepsChunks {s : Session} (h : s.KeepsChunks) {text : String} {ws : List (Kind × String)}
    (hs : Says text.toList ws) (source : Source) :
    (Buffer.ofGlyphs source (Glyph.ofString (s.declarationFrame.text text))).final.kind = .eof ∧
    wordsOf (.ofGlyphs source (Glyph.ofString (s.declarationFrame.text text))) =
      (s.imports.map inputBuffer).flatMap wordsOf ++ (s.declarations.map inputBuffer).flatMap wordsOf ++
        ws.filter (·.1 ≠ .comment) := by
  have hbefore : ∀ t ∈ s.imports ++ s.declarations, Says t.toList (wordsAlone t) := fun t ht =>
    says_input ((List.mem_append.mp ht).elim (fun ht => (h.1 t ht).final) fun ht => (h.2 t ht).final)
  obtain ⟨hend, ts, us, vs, hahead, hts, hus, hvs, -⟩ := Frame.tokens_text (f := s.declarationFrame) source hbefore hs
    fun t ht => absurd ht List.not_mem_nil
  obtain rfl : vs = [] := List.map_eq_nil_iff.mp hvs
  refine ⟨hend, ?_⟩
  change ts.map Token.word = ((s.imports ++ s.declarations).flatMap wordsAlone).filter (·.1 ≠ .comment) at hts
  rw [List.flatMap_append, List.filter_append, ← wordsOf_inputs fun t ht => (h.1 t ht).final,
    ← wordsOf_inputs fun t ht => (h.2 t ht).final] at hts
  rw [wordsOf, hahead, List.append_nil, List.map_append, hts, hus]

/-- A session that has begun keeps chunks, whatever is entered. -/
theorem keepsChunks_of_start {files : Files.Tree} {s : Session} (hstart : start files = .ok s)
    (hplace : Files.Tree.isFolderAt [unitName] files.entries = false) (steps : List Step) :
    (s.after steps).KeepsChunks := by
  simp only [start, bind, Except.bind] at hstart
  split at hstart
  · cases hstart
  · obtain rfl := Except.ok.inj hstart
    exact keepsChunks_after hplace
      ⟨fun t ht => absurd ht List.not_mem_nil, fun t ht => absurd ht List.not_mem_nil⟩ steps

/-- In a session that has begun, an expression that is entered becomes the value of a declaration, which comes last in
the unit, and is read there as it was read alone, if one semicolon stands behind it.  Otherwise the unit cannot be
parsed. -/
theorem parseUnit_wrapped {files : Files.Tree} {s : Session} (hstart : start files = .ok s)
    (hplace : Files.Tree.isFolderAt [unitName] files.entries = false) (steps : List Step)
    (htrim : Text.trim input = input)
    (hx : Syntax.parseExpr { name := inputName } (Glyph.ofString input) = .ok x) (source : Source) :
    if wraps input then
      ∃ u, Syntax.parseUnit source (Glyph.ofString ((s.after steps).declarationFrame.text
          (resultStart ++ Text.beforeEnd ";" input ++ ";"))) = .ok u ∧
        ∃ d, u.body.getLast? = some d ∧ d.Binds resultName x
    else
      ∃ e, Syntax.parseUnit source (Glyph.ofString ((s.after steps).declarationFrame.text
        (resultStart ++ Text.beforeEnd ";" input ++ ";"))) = .error e := by
  have hkept := keepsChunks_of_start hstart hplace steps
  generalize s.after steps = s' at hkept ⊢
  obtain ⟨k, hexpr⟩ : ∃ k, IsExpr (inputBuffer input) x k := isExpr_of_parseExpr hx
  obtain ⟨ws, es, hws, hwords, hes, hwraps⟩ := says_closed htrim hexpr
  have hsays : Says (resultStart ++ Text.beforeEnd ";" input ++ ";").toList (valueWords resultName ++ ws) := by
    rw [String.append_assoc, String.toList_append]
    exact says_start hws
  obtain ⟨hend, hparts⟩ := parts_of_keepsChunks hkept hsays source
  rw [List.filter_append, hwords] at hparts
  have himports : ∀ b ∈ s'.imports.map inputBuffer, Chunk atImport importDecl b := List.forall_mem_map.mpr hkept.1
  have hdeclarations : ∀ b ∈ s'.declarations.map inputBuffer, Chunk inText stmt b := List.forall_mem_map.mpr hkept.2
  -- the parts of the whole text are read one by one: what is kept as it was read when it was entered, then the
  -- new value
  have hread := readParts_joined himports hdeclarations hexpr hes hend hparts
  rw [if_congr hwraps rfl rfl] at hread
  rw [Syntax.parseUnit, Syntax.Reading.toExcept, Syntax.readUnit, Syntax.readBuffer]
  dsimp only
  split at hread
  · next hwraps =>
    obtain ⟨hfault, ss, d, hbody, hbinds⟩ := hread
    obtain ⟨us, d', hnumbered, hbinds'⟩ := Syntax.CompilationUnit.number_binds _ hbody hbinds
    rw [if_pos hwraps, hfault]
    exact ⟨_, rfl, d', by rw [hnumbered, List.getLast?_concat], hbinds'⟩
  · next hwraps =>
    obtain ⟨e, hfault⟩ := Option.ne_none_iff_exists'.mp hread
    rw [if_neg hwraps, hfault]
    exact ⟨e, rfl⟩

/-- A name with a semicolon and a comment behind it, in a session with a declaration. -/
theorem parseUnit_wrapped_name : ∃ s x, start {} = .ok s ∧
    Files.Tree.isFolderAt [unitName] ({} : Files.Tree).entries = false ∧ Text.trim "x; // name" = "x; // name" ∧
    Syntax.parseExpr { name := inputName } (Glyph.ofString "x; // name") = .ok x ∧
    ∃ u, Syntax.parseUnit { name := unitName } (Glyph.ofString ((s.after [.eval "value x = 1;"]).declarationFrame.text
        (resultStart ++ Text.beforeEnd ";" "x; // name" ++ ";"))) = .ok u ∧
      ∃ d, u.body.getLast? = some d ∧ d.Binds resultName x := by
  have htokens : ({ source := { name := inputName }, rest := Glyph.ofString "x; // name" } : Cursor).tokens 0 =
      [⟨.lowerName, "x", ⟨0, 1, 1⟩⟩, ⟨.semicolon, ";", ⟨1, 1, 2⟩⟩, ⟨.comment, "// name", ⟨3, 1, 4⟩⟩,
        ⟨.eof, "", ⟨10, 1, 11⟩⟩] :=
    Cursor.tokens_eq_of_tokensWithin (n := 5) (by decide)
  have htokens' : ({ source := ⟨"", ""⟩, rest := Glyph.ofString "x; // name" } : Cursor).tokens 0 =
      [⟨.lowerName, "x", ⟨0, 1, 1⟩⟩, ⟨.semicolon, ";", ⟨1, 1, 2⟩⟩, ⟨.comment, "// name", ⟨3, 1, 4⟩⟩,
        ⟨.eof, "", ⟨10, 1, 11⟩⟩] :=
    Cursor.tokens_eq_of_tokensWithin (n := 5) (by decide)
  have hx : ∃ x, Syntax.parseExpr { name := inputName } (Glyph.ofString "x; // name") = .ok x := by
    rw [Syntax.parseExpr, Buffer.ofGlyphs, htokens]
    exact ⟨_, rfl⟩
  -- The input has a semicolon in front of the comment, so none needs to be added.
  have hsemicolon : hasSemicolon "x; // name" = true := by
    unfold hasSemicolon
    rw [inputBuffer, Buffer.ofGlyphs, htokens]
    rfl
  have hkeeps : keepsEnd "x; // name" = true := by
    rw [keepsEnd, endsInComment, wordsAlone, htokens']
    decide +kernel
  obtain ⟨x, hx⟩ := hx
  have hplace : Files.Tree.isFolderAt [unitName] ({} : Files.Tree).entries = false := by decide
  have htrim : Text.trim "x; // name" = "x; // name" := by decide
  refine ⟨_, x, start_empty, hplace, htrim, hx, ?_⟩
  have hwrapped := parseUnit_wrapped start_empty hplace [.eval "value x = 1;"] htrim hx { name := unitName }
  rwa [if_pos (by rw [wraps, hsemicolon, hkeeps]; rfl)] at hwrapped

/-- The semicolon behind an expression with a comment belongs to the comment, so that the value does not end. -/
theorem parseUnit_unended : ∃ s x e, start {} = .ok s ∧
    Syntax.parseExpr { name := inputName } (Glyph.ofString "1 // one") = .ok x ∧
    Syntax.parseUnit { name := unitName } (Glyph.ofString (s.declarationFrame.text
      (resultStart ++ Text.beforeEnd ";" "1 // one" ++ ";"))) = .error e := by
  have htokens : ({ source := { name := inputName }, rest := Glyph.ofString "1 // one" } : Cursor).tokens 0 =
      [⟨.natural, "1", ⟨0, 1, 1⟩⟩, ⟨.comment, "// one", ⟨2, 1, 3⟩⟩, ⟨.eof, "", ⟨8, 1, 9⟩⟩] :=
    Cursor.tokens_eq_of_tokensWithin (n := 4) (by decide)
  have hunit : ({ source := { name := unitName }, rest := Glyph.ofString "value _it = 1 // one;" } : Cursor).tokens 0 =
      [⟨.kwValue, "value", ⟨0, 1, 1⟩⟩, ⟨.lowerName, "_it", ⟨6, 1, 7⟩⟩, ⟨.specify, "=", ⟨10, 1, 11⟩⟩,
        ⟨.natural, "1", ⟨12, 1, 13⟩⟩, ⟨.comment, "// one;", ⟨14, 1, 15⟩⟩, ⟨.eof, "", ⟨21, 1, 22⟩⟩] :=
    Cursor.tokens_eq_of_tokensWithin (n := 7) (by decide)
  -- The semicolon that is added becomes a part of the comment.
  have htext : Frame.text ⟨[], []⟩ (resultStart ++ Text.beforeEnd ";" "1 // one" ++ ";") = "value _it = 1 // one;" := by
    decide
  have hx : ∃ x, Syntax.parseExpr { name := inputName } (Glyph.ofString "1 // one") = .ok x := by
    rw [Syntax.parseExpr, Buffer.ofGlyphs, htokens]
    exact ⟨_, rfl⟩
  have hfails : ∃ e, Syntax.parseUnit { name := unitName } (Glyph.ofString "value _it = 1 // one;") = .error e := by
    rw [Syntax.parseUnit, Syntax.readUnit, Buffer.ofGlyphs, hunit]
    exact ⟨_, rfl⟩
  obtain ⟨x, hx⟩ := hx
  obtain ⟨e, hfails⟩ := hfails
  exact ⟨_, x, e, start_empty, hx, htext ▸ hfails⟩

end Prompt.Session

end Ceylon
