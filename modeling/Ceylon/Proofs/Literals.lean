import Ceylon.Proofs.Encoding
import Ceylon.Proofs.Lexemes
import Ceylon.Proofs.Reading
import Ceylon.Syntax.Parser.CompilationUnit

/-!
# Literals and the texts they stand for

Every text can be written between delimiters of each sort, with a backslash before every backslash and delimiter
in it.  The lexer finds the end of such a literal without looking at what the backslashes stand before, and the parser
takes them away: what is written is one token, and as an expression it is the literal with the text
(`parseExpr_enclose`).
-/

namespace Ceylon

open Text

/-- The delimiters of literals. -/
inductive Delimiter where
  | doubleQuote
  | backquote
  | singleQuote
deriving DecidableEq, Repr, Inhabited

namespace Delimiter

/-- The character that stands on both sides of a literal. -/
def char : Delimiter → Char
  | doubleQuote => '"'
  | backquote => '\x60'
  | singleQuote => '\''

/-- The literals between delimiters of a sort. -/
def sort : Delimiter → Syntax.LiteralKind
  | doubleQuote => .string
  | backquote => .character
  | singleQuote => .quoted

/-- A text with a backslash before every backslash and delimiter. -/
def escape (d : Delimiter) (s : List Char) : List Char :=
  s.flatMap fun c => if c = '\\' ∨ c = d.char then ['\\', c] else [c]

/-- A text as it is written between delimiters. -/
def enclose (d : Delimiter) (s : List Char) : List Char :=
  d.char :: (d.escape s ++ [d.char])

variable (d : Delimiter)

/-- No delimiter is a backslash. -/
theorem char_ne_backslash : d.char ≠ '\\' := by
  cases d <;> decide

@[simp] theorem escape_nil : d.escape [] = [] := rfl

/-- A special character is escaped. -/
theorem escape_special {c : Char} (h : c = '\\' ∨ c = d.char) (s : List Char) :
    d.escape (c :: s) = '\\' :: c :: d.escape s := by
  rw [escape, List.flatMap_cons, if_pos h]
  rfl

/-- Any other character stays. -/
theorem escape_plain {c : Char} (h : ¬ (c = '\\' ∨ c = d.char)) (s : List Char) :
    d.escape (c :: s) = c :: d.escape s := by
  rw [escape, List.flatMap_cons, if_neg h]
  rfl

end Delimiter

/-! ## Lexing -/

namespace Token

namespace Lexeme

section

variable {delim c : Char} (gs : List Glyph)

/-- The delimiter closes a delimited text. -/
theorem delimited_close : delimited delim (.char delim :: gs) = ([delim], true) := by
  rw [delimited.eq_def]
  simp

/-- An escaped character is part of a delimited text, whatever it is. -/
theorem delimited_escaped (hdelim : delim ≠ '\\') : delimited delim (.char '\\' :: .char c :: gs) =
    ('\\' :: c :: (delimited delim gs).1, (delimited delim gs).2) := by
  rw [delimited.eq_def]
  simp [hdelim.symm]

/-- Any other character is part of a delimited text. -/
theorem delimited_plain (hdelim : c ≠ delim) (hescape : c ≠ '\\') : delimited delim (.char c :: gs) =
    (c :: (delimited delim gs).1, (delimited delim gs).2) := by
  rw [delimited.eq_def]
  simp [hdelim, hescape]

end

/-- A literal ends where its text does. -/
theorem delimited_escape (d : Delimiter) (s : List Char) (gs : List Glyph) :
    delimited d.char ((d.escape s ++ [d.char]).map .char ++ gs) = (d.escape s ++ [d.char], true) := by
  induction s with
  | nil => exact delimited_close gs
  | cons c s ih =>
    by_cases hspecial : c = '\\' ∨ c = d.char
    · rw [d.escape_special hspecial]
      simp only [List.cons_append, List.map_cons]
      rw [delimited_escaped _ d.char_ne_backslash, ih]
    · rw [d.escape_plain hspecial]
      simp only [List.cons_append, List.map_cons]
      rw [not_or] at hspecial
      rw [delimited_plain _ hspecial.2 hspecial.1, ih]

/-- An enclosed text is read as one literal, whatever it contains and whatever follows. -/
theorem reads_enclose (d : Delimiter) (s : List Char) (gs : List Glyph) :
    Reads d.char (d.escape s ++ [d.char]) gs (.ok d.sort.tokenKind) := by
  have hend := delimited_escape d s gs
  refine ⟨by cases d <;> decide, ?_⟩
  cases d <;> exact congrArg (fun r : List Char × Bool => (⟨r.1, if r.2 then .ok _ else .error _⟩ : Lexeme)) hend

end Lexeme

/-- What is written between delimiters is one token. -/
theorem tokens_enclose (source : Source) (d : Delimiter) (s : List Char) :
    ({ source, rest := (d.enclose s).map .char } : Cursor).tokens 0 =
      [⟨d.sort.tokenKind, String.ofList (d.enclose s), .start⟩, ⟨.eof, "", .behind (d.enclose s)⟩] := by
  have hend : Lexed (d.enclose s) (([] : List Char).map .char) [⟨.eof, "", .behind (d.enclose s ++ [])⟩] :=
    .eof (List.forall_mem_nil _)
  have hlexed := @Lexed.piece [] [] _ _ _ _ _ (List.forall_mem_nil _) (Lexeme.reads_enclose d s []) hend
  rw [List.append_nil (d.enclose s)] at hlexed
  refine hlexed.tokens_eq _ ?_ rfl
  simp [Delimiter.enclose]

end Token

/-! ## Parsing -/

namespace Syntax

open Token (Buffer Kind)

/-- An escaped character that stands for itself. -/
theorem unescape_backslash {c : Char} (hn : c ≠ 'n') (ht : c ≠ 't') (hr : c ≠ 'r') (s : List Char) :
    unescape ('\\' :: c :: s) = c :: unescape s := by
  rw [unescape]
  · exact hn
  · exact ht
  · exact hr

/-- A character that is not escaped stands for itself. -/
theorem unescape_plain {c : Char} (h : c ≠ '\\') (s : List Char) : unescape (c :: s) = c :: unescape s := by
  rw [unescape]
  rintro _ _ rfl
  exact absurd rfl h

/-- No delimiter and no backslash is a letter that stands for something else. -/
theorem unescape_escape (d : Delimiter) (s : List Char) : unescape (d.escape s) = s := by
  induction s with
  | nil => rfl
  | cons c s ih =>
    by_cases hspecial : c = '\\' ∨ c = d.char
    · have hself : c ≠ 'n' ∧ c ≠ 't' ∧ c ≠ 'r' := by
        rcases hspecial with rfl | rfl
        · decide
        · cases d <;> decide
      rw [d.escape_special hspecial, unescape_backslash hself.1 hself.2.1 hself.2.2, ih]
    · rw [d.escape_plain hspecial, unescape_plain (not_or.mp hspecial).1, ih]

/-- What has been enclosed is read back. -/
theorem unquote_enclose (d : Delimiter) (s : List Char) :
    unquote (String.ofList (d.enclose s)) = String.ofList s := by
  rw [unquote, String.toList_ofList, Delimiter.enclose, List.tail_cons, List.dropLast_concat, unescape_escape]

namespace Parser

variable {α : Type} {b b' : Buffer} {x : Expr}

theorem peek_run (h : b.peek.kind ≠ .error) : peek.run b = .ok (b.peek, b) :=
  bind_ok.mpr ⟨b, b, rfl, by rw [if_neg h]; rfl⟩

theorem peekKind_run (h : b.peek.kind ≠ .error) : peekKind.run b = .ok (b.peek.kind, b) :=
  bind_ok.mpr ⟨_, _, peek_run h, rfl⟩

theorem next_run (h : b.peek.kind ≠ .error) : next.run b = .ok (b.peek, b.advance) :=
  bind_ok.mpr ⟨_, _, peek_run h, rfl⟩

/-- Throwing away a result reads the same. -/
theorem discard_run {p : Parser α} {a : α} (h : p.run b = .ok (a, b')) : (discard p).run b = .ok (⟨⟩, b') := by
  rw [Functor.discard, map_const, Function.comp_apply, map_eq_pure_bind]
  exact bind_ok.mpr ⟨a, b', h, rfl⟩

/-- The parser gives the result at every depth from the given one on. -/
def RunsFrom (n : Nat) (p : Nat → Parser α) (b : Buffer) (r : α × Buffer) : Prop :=
  ∀ depth, n ≤ depth → (p depth).run b = .ok r

namespace RunsFrom

variable {n : Nat} {p : Nat → Parser α} {r : α × Buffer}

/-- A parser that is a step above others. -/
theorem succ {q : Nat → Parser α} (h : ∀ depth, n ≤ depth → (q (depth + 1)).run b = .ok r) :
    RunsFrom (n + 1) q b r := by
  intro depth hdepth
  obtain ⟨depth, rfl⟩ := Nat.exists_eq_add_one_of_ne_zero (by omega : depth ≠ 0)
  exact h depth (by omega)

end RunsFrom

section

variable {n : Nat} (hend : b'.peek.kind = .eof)
include hend

/-- What can be done about the end of a text. -/
theorem peekKind_end {β : Type} {f : Kind → Parser β} {r : β × Buffer} (h : (f .eof).run b' = .ok r) :
    (peekKind >>= f).run b' = .ok r :=
  bind_ok.mpr ⟨_, _, peekKind_run (by rw [hend]; decide), by rwa [hend]⟩

/-- At the end of a text no selector follows. -/
theorem selectorsWithin_end : RunsFrom 1 (selectorsWithin x) b' (x, b') :=
  .succ fun _ _ => peekKind_end hend rfl

/-- At the end of a text no operator follows an operand. -/
theorem postfixWithin_end : RunsFrom 1 (postfixWithin x) b' (x, b') :=
  .succ fun _ _ => peekKind_end hend rfl

/-- At the end of a text no default operator follows. -/
theorem moreDefaultsWithin_end : RunsFrom 1 (moreDefaultsWithin x) b' (x, b') :=
  .succ fun _ _ => peekKind_end hend rfl

/-- At the end of a text no operator follows, at any level. -/
theorem moreOperandsWithin_end {level : Nat} {found : Level} (h : binaryLevels[level]? = some found) :
    RunsFrom 1 (moreOperandsWithin level found.operators found.hasTest x) b' (x, b') := by
  refine .succ fun _ _ => peekKind_end hend ?_
  have hnone : found.operators.find? (·.kind = .eof) = none := by
    have hlevels : ∀ l ∈ binaryLevels, l.operators.find? (·.kind = .eof) = none := by decide
    exact hlevels found (Array.mem_of_getElem? h)
  rw [hnone, if_neg (by simp)]
  rfl

/-- An operand that the text ends with is what a level of operators reads. -/
theorem binaryWithin_runs {level : Nat} (hlevel : level ≤ binaryLevels.size)
    (h : RunsFrom (n + 1) powerWithin b (x, b')) :
    RunsFrom (n + (binaryLevels.size - level) + 2) (binaryWithin level) b (x, b') := by
  induction hlevel using Nat.decreasingInduction with
  | self => exact .succ fun depth hdepth => h depth (by omega)
  | of_succ level hlevel ih =>
    refine .succ fun depth hdepth => ?_
    have hfound := Array.getElem?_eq_getElem hlevel
    rw [binaryWithin, hfound]
    exact bind_ok.mpr ⟨x, b', ih depth (by omega), moreOperandsWithin_end hend hfound depth (by omega)⟩

/-- An atom that the text ends with is an expression. -/
theorem expr_run (hfirst : UnaryOp.ofKind? b.peek.kind = none) (hok : b.peek.kind ≠ .error)
    (h : RunsFrom 1 atomWithin b (x, b')) : expr.run b = .ok (x, b') := by
  have hprimary : RunsFrom 2 primaryWithin b (x, b') := .succ fun depth hdepth =>
    bind_ok.mpr ⟨x, b', h depth hdepth, selectorsWithin_end hend depth hdepth⟩
  have hprefix : RunsFrom 3 prefixWithin b (x, b') := by
    refine .succ fun depth hdepth => bind_ok.mpr ⟨_, b, peekKind_run hok, ?_⟩
    rw [hfirst]
    exact bind_ok.mpr ⟨x, b', hprimary depth hdepth, postfixWithin_end hend depth (by omega)⟩
  have hpower : RunsFrom 4 powerWithin b (x, b') := .succ fun depth hdepth =>
    bind_ok.mpr ⟨x, b', hprefix depth hdepth, peekKind_end hend rfl⟩
  have hbinary : RunsFrom 14 (binaryWithin 0) b (x, b') := binaryWithin_runs hend (Nat.zero_le _) hpower
  have hdefault : RunsFrom 15 defaultWithin b (x, b') := .succ fun depth hdepth =>
    bind_ok.mpr ⟨x, b', hbinary depth hdepth, moreDefaultsWithin_end hend depth (by omega)⟩
  have hexpr : RunsFrom 16 exprWithin b (x, b') := .succ fun depth hdepth =>
    bind_ok.mpr ⟨x, b', hdefault depth hdepth, peekKind_end hend rfl⟩
  exact bind_ok.mpr ⟨b, b, rfl, hexpr _ (by unfold exprDepth; omega)⟩

end

/-- A literal is read as one token. -/
theorem literal_run (sort : LiteralKind) (h : b.peek.kind ≠ .error) :
    (literal sort).run b = .ok (.literal { pos := b.peek.pos } sort (sort.value b.peek.text), b.advance) :=
  bind_ok.mpr ⟨_, _, next_run h, by cases sort <;> rfl⟩

/-- A literal is read as an atom. -/
theorem atomWithin_literal {sort : LiteralKind} (h : b.peek.kind = sort.tokenKind) : RunsFrom 1 atomWithin b
    (.literal { pos := b.peek.pos } sort (sort.value b.peek.text), b.advance) := by
  have hok : b.peek.kind ≠ .error := by
    rw [h]
    cases sort <;> decide
  refine .succ fun depth _ => bind_ok.mpr ⟨_, _, peek_run hok, ?_⟩
  rw [h]
  cases sort <;> exact literal_run _ hok

end Parser

/-- A text of one token is a literal, if that is one. -/
theorem wholeExpr_literal (source : Source) {t e : Token} {sort : LiteralKind} (ht : t.kind = sort.tokenKind)
    (he : e.kind = .eof) : ∃ b, Parser.wholeExpr.run (.ofTokens source [t, e]) =
      .ok (.literal { pos := t.pos } sort (sort.value t.text), b) := by
  have hcomment : t.kind ≠ .comment := by
    rw [ht]
    cases sort <;> decide
  have hwords : [t, e].filter (·.kind ≠ .comment) = [t, e] := by simp [hcomment, he]
  generalize hb : Buffer.ofTokens source [t, e] = b
  have hahead : b.ahead = [t] := hb ▸ congrArg List.dropLast hwords
  have hfinal : b.final = e := hb ▸ congrArg (List.getLastD · default) hwords
  have hpeek : b.peek = t := by rw [Buffer.peek, Buffer.peekAt, hahead]; rfl
  have hnext : b.advance.ahead = [] := congrArg List.tail hahead
  have hend : b.advance.peek.kind = .eof := by
    rw [Buffer.peek, Buffer.peekAt, hnext]
    exact (congrArg Token.kind hfinal).trans he
  have hok : b.peek.kind ≠ .error ∧ UnaryOp.ofKind? b.peek.kind = none := by
    rw [hpeek, ht]
    cases sort <;> exact ⟨by decide, rfl⟩
  have hatom := Parser.atomWithin_literal (b := b) (hpeek ▸ ht)
  rw [hpeek] at hatom
  refine ⟨b.advance, Parser.bind_ok.mpr ⟨_, _, Parser.expr_run hend hok.2 hok.1 hatom, ?_⟩⟩
  -- There is no semicolon, and nothing behind.
  have haccept : (discard (Parser.accept .semicolon)).run b.advance = .ok (⟨⟩, b.advance) := by
    refine Parser.discard_run (a := false) (Parser.bind_ok.mpr ⟨_, _, rfl, ?_⟩)
    rw [Buffer.accept?, hend]
    rfl
  refine Parser.bind_ok.mpr ⟨_, _, haccept, Parser.bind_ok.mpr ⟨_, _, rfl, ?_⟩⟩
  rw [Buffer.atEnd, hend]
  rfl

/-- A text written between delimiters is read as one token, and parsed as the literal that stands for it. -/
theorem parseExpr_enclose (source : Source) (d : Delimiter) (s : List Char) :
    ({ source, rest := Glyph.decode (encode (d.enclose s)) } : Token.Cursor).tokens 0 =
        [⟨d.sort.tokenKind, String.ofList (d.enclose s), .start⟩, ⟨.eof, "", .behind (d.enclose s)⟩] ∧
      parseExpr source (Glyph.decode (encode (d.enclose s))) =
        .ok (.literal { pos := .start } d.sort (String.ofList s)) := by
  have htokens := Token.tokens_enclose source d s
  rw [Glyph.decode_encode]
  refine ⟨htokens, ?_⟩
  have hbuffer : Buffer.ofGlyphs source ((d.enclose s).map .char) =
      .ofTokens source [⟨d.sort.tokenKind, String.ofList (d.enclose s), .start⟩, ⟨.eof, "", .behind (d.enclose s)⟩] :=
    congrArg (Buffer.ofTokens source) htokens
  obtain ⟨b, hrun⟩ := wholeExpr_literal source (t := ⟨d.sort.tokenKind, String.ofList (d.enclose s), .start⟩)
    (e := ⟨.eof, "", .behind (d.enclose s)⟩) rfl rfl
  rw [parseExpr, hbuffer, hrun]
  have hvalue : d.sort.value (String.ofList (d.enclose s)) = String.ofList s := by
    rw [← unquote_enclose d s]
    cases d <;> rfl
  rw [hvalue]
  rfl

end Syntax

end Ceylon
