import Mathlib.Data.List.TakeWhile
import Ceylon.Proofs.Lexemes

/-!
# Tokens and their text

Reading the tokens of a text loses nothing of it.  A lexeme is always made of the characters that come next, and
white space is all that is skipped, so that tokens divide a text into pieces (`Divided`, `Lexed.divided`) unless an
error comes first.
-/

namespace Ceylon

open Text

namespace Token

/-! ## Texts in tokens -/

/-- A text behind `before`, in tokens: each is a piece of the text, there is only white space between
them, and the last one stands at the end. -/
inductive Divided : (before text : List Char) → List Token → Prop
  | eof {before gap : List Char} (blank : ∀ c ∈ gap, isSpace c) :
    Divided before gap [⟨.eof, "", .behind (before ++ gap)⟩]
  | piece {before gap piece text : List Char} {kind : Kind} {ts : List Token}
    (blank : ∀ c ∈ gap, isSpace c) (nonempty : piece ≠ [])
    (rest : Divided (before ++ gap ++ piece) text ts) :
    Divided before (gap ++ (piece ++ text))
      (⟨kind, String.ofList piece, .behind (before ++ gap)⟩ :: ts)

/-- Tokens without an error divide the text. -/
theorem Lexed.divided {before : List Char} {gs : List Glyph} {ts : List Token} (h : Lexed before gs ts)
    (hok : ∀ t ∈ ts, t.kind ≠ .error) : ∃ text, gs = text.map .char ∧ Divided before text ts := by
  induction h with
  | @eof before gap blank => exact ⟨gap, rfl, .eof blank⟩
  | stray => exact absurd rfl (hok _ List.mem_cons_self)
  | error => exact absurd rfl (hok _ List.mem_cons_self)
  | @piece before gap first more gs kind ts blank _ _ ih =>
    obtain ⟨text, rfl, divided⟩ := ih fun t ht => hok t (List.mem_cons_of_mem _ ht)
    refine ⟨gap ++ (first :: more ++ text), by simp, ?_⟩
    exact .piece blank (List.cons_ne_nil _ _) divided

/-! ## What a division says -/

/-- The bytes of a token's text. -/
def bytes (t : Token) : List UInt8 :=
  encode t.text.toList

namespace Divided

variable {before text : List Char} {ts : List Token}

/-- A token stands where its text is. -/
theorem placed (h : Divided before text ts) : ∀ t ∈ ts, ∃ pre post,
    before ++ text = pre ++ (t.text.toList ++ post) ∧ t.pos = .behind pre ∧ before <+: pre := by
  induction h with
  | @eof before gap blank =>
    intro t ht
    obtain rfl := List.mem_singleton.mp ht
    exact ⟨before ++ gap, [], by simp, rfl, List.prefix_append _ _⟩
  | @piece before gap piece text kind ts blank nonempty rest ih =>
    intro t ht
    rcases List.mem_cons.mp ht with rfl | ht
    · exact ⟨before ++ gap, text, by simp, rfl, List.prefix_append _ _⟩
    · obtain ⟨pre, post, hsplit, hpos, hpre⟩ := ih t ht
      refine ⟨pre, post, ?_, hpos, ?_⟩
      · rw [← hsplit]
        simp
      · rw [List.append_assoc] at hpre
        exact (List.prefix_append _ _).trans hpre

/-- Tokens stand one behind the other. -/
theorem ordered (h : Divided before text ts) :
    ts.Pairwise fun s t =>
      s.pos.offset < t.pos.offset ∧ s.pos.offset + s.bytes.length ≤ t.pos.offset := by
  induction h with
  | eof blank => exact List.pairwise_singleton _ _
  | @piece before gap piece text kind ts blank nonempty rest ih =>
    refine List.pairwise_cons.mpr ⟨fun t ht => ?_, ih⟩
    obtain ⟨pre, post, -, hpos, ⟨between, rfl⟩⟩ := rest.placed t ht
    have hlength : 0 < (encode piece).length := by
      obtain ⟨c, cs, rfl⟩ := List.exists_cons_of_ne_nil nonempty
      have := c.utf8Size_pos
      rw [length_encode_cons]
      omega
    simp only [hpos, Pos.offset_behind, bytes, String.toList_ofList, encode_append, List.length_append]
    omega

/-- The last token stands at the end of the text. -/
theorem getLast (h : Divided before text ts) :
    ts.getLast? = some ⟨.eof, "", .behind (before ++ text)⟩ := by
  induction h with
  | eof blank => rfl
  | @piece before gap piece text kind ts blank nonempty rest ih =>
    rw [List.getLast?_cons, ih]
    simp

/-- A character is white space or part of a token. -/
theorem covered (h : Divided before text ts) {pre post : List Char} {c : Char}
    (hsplit : text = pre ++ c :: post) : isSpace c = true ∨
      ∃ t ∈ ts, t.pos.offset ≤ (encode (before ++ pre)).length ∧
        (encode (before ++ pre)).length + c.utf8Size ≤ t.pos.offset + t.bytes.length := by
  induction h generalizing pre with
  | eof blank =>
    obtain rfl := hsplit
    exact .inl (blank c (by simp))
  | @piece before gap piece text kind ts blank nonempty rest ih =>
    rcases split_append hsplit with ⟨mid, rfl⟩ | ⟨inside, rfl, hinside⟩
    · exact .inl (blank c (by simp))
    · rcases split_append hinside with ⟨mid, rfl⟩ | ⟨behind, rfl, hbehind⟩
      · refine .inr ⟨_, List.mem_cons_self, ?_⟩
        simp only [Pos.offset_behind, bytes, String.toList_ofList, encode_append, List.length_append,
          length_encode_cons]
        omega
      · refine (ih hbehind).imp id fun ⟨t, ht, hcovered⟩ => ⟨t, List.mem_cons_of_mem _ ht, ?_⟩
        simpa [List.append_assoc] using hcovered

end Divided

/-- A byte of an encoded text belongs to a character. -/
theorem exists_char_of_lt {cs : List Char} {i : Nat} (hi : i < (encode cs).length) :
    ∃ pre c post, cs = pre ++ c :: post ∧ (encode pre).length ≤ i ∧
      i < (encode pre).length + c.utf8Size := by
  induction cs generalizing i with
  | nil => cases hi
  | cons c cs ih =>
    rw [length_encode_cons] at hi
    by_cases hlt : i < c.utf8Size
    · exact ⟨[], c, cs, rfl, Nat.zero_le _, by simpa using hlt⟩
    · obtain ⟨pre, d, post, rfl, hle, hlt'⟩ := ih (i := i - c.utf8Size) (by omega)
      refine ⟨c :: pre, d, post, rfl, ?_, ?_⟩
      · rw [length_encode_cons]
        omega
      · rw [length_encode_cons]
        omega

/-- The tokens of a byte string tell all of it. -/
structure Lossless (source : List UInt8) (chars : List Char) (tokens : List Token) : Prop where
  /-- The bytes encode the characters. -/
  encoded : encode chars = source
  /-- The tokens are disjoint and increasing. -/
  ordered : tokens.Pairwise fun s t =>
    s.pos.offset < t.pos.offset ∧ s.pos.offset + s.bytes.length ≤ t.pos.offset
  /-- The text of a token is what stands at its place. -/
  spelled : ∀ t ∈ tokens, (source.drop t.pos.offset).take t.bytes.length = t.bytes
  /-- A byte outside all tokens belongs to white space. -/
  blank : ∀ i < source.length,
    (∀ t ∈ tokens, ¬ (t.pos.offset ≤ i ∧ i < t.pos.offset + t.bytes.length)) →
    ∃ pre c post, chars = pre ++ c :: post ∧ (encode pre).length ≤ i ∧
      i < (encode pre).length + c.utf8Size ∧ isSpace c = true
  /-- The last token is the end of the text. -/
  ended : ∃ t, tokens.getLast? = some t ∧ t.kind = .eof ∧ t.pos.offset = source.length
  /-- Lines and columns count line feeds, and characters behind the last one of these. -/
  counted : ∀ t ∈ tokens, ∃ pre post, chars = pre ++ post ∧ t.pos.offset = (encode pre).length ∧
    t.pos.line = 1 + pre.count '\n' ∧
    t.pos.col = 1 + (pre.reverse.takeWhile (· != '\n')).length

/-- If no token of a byte string is an error, then the tokens tell all of it. -/
theorem tokens_lossless (source : Source) (bytes : List UInt8)
    (hok : ∀ t ∈ ({ source, rest := Glyph.decode bytes } : Cursor).tokens 0, t.kind ≠ .error) :
    ∃ chars, Lossless bytes chars (({ source, rest := Glyph.decode bytes } : Cursor).tokens 0) := by
  obtain ⟨text, htext, divided⟩ :=
    (Cursor.tokens_lexed { source, rest := Glyph.decode bytes } [] rfl).divided hok
  have hencoded := Glyph.encode_of_decode htext
  refine ⟨text, hencoded, divided.ordered, fun t ht => ?_, fun i hi hout => ?_, ?_, fun t ht => ?_⟩
  · obtain ⟨pre, post, hsplit, hpos, -⟩ := divided.placed t ht
    rw [← hencoded, hpos, Pos.offset_behind, show text = _ from hsplit]
    simp [Token.bytes]
  · -- The byte belongs to a character, which is white space or lies within a token.
    obtain ⟨pre, c, post, hsplit, hle, hlt⟩ := exists_char_of_lt (hencoded ▸ hi)
    refine ⟨pre, c, post, hsplit, hle, hlt, ?_⟩
    rcases divided.covered hsplit with hblank | ⟨t, ht, hfrom, hto⟩
    · exact hblank
    · rw [List.nil_append] at hfrom hto
      exact absurd ⟨by omega, by omega⟩ (hout t ht)
  · exact ⟨_, divided.getLast, rfl, by rw [Pos.offset_behind, ← hencoded]; rfl⟩
  · obtain ⟨pre, post, hsplit, hpos, -⟩ := divided.placed t ht
    refine ⟨pre, _, hsplit, ?_⟩
    rw [hpos]
    exact ⟨Pos.offset_behind pre, Pos.line_behind pre, Pos.col_behind pre⟩

/-- A name on one line and an operator on the next. -/
theorem tokens_twoLines :
    ({ source := ⟨"sum", ""⟩, rest := Glyph.decode [0x61, 0x0a, 0x2b, 0x20] } : Cursor).tokens 0 =
      [⟨.lowerName, "a", ⟨0, 1, 1⟩⟩, ⟨.plus, "+", ⟨2, 2, 1⟩⟩, ⟨.eof, "", ⟨4, 2, 3⟩⟩] := by
  rw [Cursor.tokens_of_ne (by decide) (by decide),
    Cursor.tokens_of_ne (by decide) (by decide),
    Cursor.tokens_of_eof (by decide)]
  decide

theorem tokens_lossless_twoLines : ∃ chars, Lossless [0x61, 0x0a, 0x2b, 0x20] chars
    [⟨.lowerName, "a", ⟨0, 1, 1⟩⟩, ⟨.plus, "+", ⟨2, 2, 1⟩⟩, ⟨.eof, "", ⟨4, 2, 3⟩⟩] := by
  have lossless := tokens_lossless ⟨"sum", ""⟩ [0x61, 0x0a, 0x2b, 0x20]
    (by rw [tokens_twoLines]; decide)
  rwa [tokens_twoLines] at lossless

end Token

end Ceylon
