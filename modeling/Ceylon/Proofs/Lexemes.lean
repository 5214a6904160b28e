import Mathlib.Data.List.Infix
import Ceylon.Proofs.Decoding
import Ceylon.Token.Lexer

/-!
# Lexemes and tokens

A lexeme is always made of the characters that come next (`Lexeme.leads_read`), and a cursor counts offset, line
and column along with every character that it passes (`Pos.behind`).  What the lexer does is a relation: `Lexed
before gs ts` says that glyphs `gs` that stand behind the text `before` have the tokens `ts`.  White space is passed
over, and then comes the end, an error, or a lexeme with whatever follows it.  The relation and the lexer agree on
every text, also on texts that cannot be read to the end (`Cursor.tokens_lexed`, `Lexed.tokens_eq`).
-/

namespace Ceylon

open Text

/-! ## Places -/

namespace Pos

/-- The place behind a text. -/
def behind (cs : List Char) : Pos :=
  cs.foldl after start

/-- Behind two texts one is where the second one leads from behind the first one. -/
theorem behind_append (cs ds : List Char) : behind (cs ++ ds) = ds.foldl after (behind cs) :=
  List.foldl_append

/-- Behind a text and one more character. -/
theorem behind_concat (cs : List Char) (c : Char) : behind (cs ++ [c]) = (behind cs).after c :=
  behind_append cs [c]

/-- The offset counts bytes. -/
theorem offset_behind (cs : List Char) : (behind cs).offset = (encode cs).length := by
  induction cs using List.reverseRecOn with
  | nil => rfl
  | append_singleton cs c ih =>
    rw [behind_concat, after]
    split <;> simp [ih]

/-- The line counts line feeds. -/
theorem line_behind (cs : List Char) : (behind cs).line = 1 + cs.count '\n' := by
  induction cs using List.reverseRecOn with
  | nil => rfl
  | append_singleton cs c ih =>
    rw [behind_concat, after]
    split
    · next hc => simp [ih, hc, Nat.add_assoc]
    · next hc => simp [ih, hc]

/-- The column counts the characters since the last line feed. -/
theorem col_behind (cs : List Char) :
    (behind cs).col = 1 + (cs.reverse.takeWhile (· != '\n')).length := by
  induction cs using List.reverseRecOn with
  | nil => rfl
  | append_singleton cs c ih =>
    rw [behind_concat, after]
    split
    · next hc => simp [hc]
    · next hc => simp [ih, hc, Nat.add_assoc]

end Pos

/-! ## Lexemes -/

namespace Token

/-- The characters are the first ones of the glyphs. -/
abbrev Leads (cs : List Char) (gs : List Glyph) : Prop :=
  cs.map Glyph.char <+: gs

/-- Characters at the start, and further ones behind them. -/
theorem Leads.append {cs ds : List Char} {gs : List Glyph} (hcs : Leads cs gs)
    (hds : Leads ds (gs.drop cs.length)) : Leads (cs ++ ds) gs := by
  obtain ⟨rest, rfl⟩ := hcs
  rw [List.drop_left' (List.length_map _)] at hds
  rw [Leads, List.map_append]
  exact (List.prefix_append_right_inj _).mpr hds

section Taking

attribute [local simp] Glyph.takeChars

/-- Only characters of the kind are taken. -/
theorem of_mem_takeChars {p : Char → Bool} {gs : List Glyph} {c : Char}
    (h : c ∈ Glyph.takeChars p gs) : p c = true := by
  induction gs with
  | nil => cases h
  | cons g gs ih =>
    cases g with
    | stray b => cases h
    | char d =>
      rw [Glyph.takeChars] at h
      split at h
      · next hd =>
        rcases List.mem_cons.mp h with rfl | h
        · exact hd
        · exact ih h
      · cases h

/-- The characters that are taken stand in front. -/
theorem leads_takeChars (p : Char → Bool) (gs : List Glyph) : Leads (Glyph.takeChars p gs) gs := by
  induction gs with
  | nil => exact List.nil_prefix
  | cons g gs ih =>
    cases g with
    | stray b => exact List.nil_prefix
    | char c =>
      rw [Glyph.takeChars]
      split
      · exact (List.prefix_cons_inj _).mpr ih
      · exact List.nil_prefix

/-- All characters of the kind are taken, up to the first other one. -/
theorem takeChars_append {p : Char → Bool} {cs : List Char} {gs : List Glyph} (hcs : ∀ c ∈ cs, p c)
    (hgs : Glyph.takeChars p gs = []) : Glyph.takeChars p (cs.map .char ++ gs) = cs := by
  induction cs with
  | nil => exact hgs
  | cons c cs ih =>
    have hmore := ih fun d hd => hcs d (List.mem_cons_of_mem _ hd)
    simp [hcs c List.mem_cons_self, hmore]

/-- Nothing is taken where another character comes first. -/
theorem takeChars_of_not {p : Char → Bool} {c : Char} (hc : p c = false) (gs : List Glyph) :
    Glyph.takeChars p (.char c :: gs) = [] := by
  simp [hc]

/-- What comes behind the characters that satisfy a property is not one of them. -/
theorem eq_of_drop_takeChars {p : Char → Bool} {gs rest : List Glyph} {c : Char}
    (h : gs.drop (Glyph.takeChars p gs).length = .char c :: rest) : p c = false := by
  induction gs with
  | nil => cases h
  | cons g gs ih =>
    cases g with
    | stray b => cases h
    | char d =>
      rw [Glyph.takeChars] at h
      split at h
      · exact ih h
      · next hd =>
        obtain ⟨⟨rfl⟩, -⟩ := List.cons.inj h
        simpa using hd

end Taking

namespace Lexeme

/-- A block comment takes what stands in front. -/
theorem leads_blockComment (gs : List Glyph) : Leads (blockComment gs).1 gs := by
  fun_induction blockComment gs with
  | case1 => exact ⟨_, rfl⟩
  | case2 c rest _ cs closed heq ih =>
    rw [heq] at ih
    exact (List.prefix_cons_inj _).mpr ih
  | case3 => exact List.nil_prefix

/-- A delimited text takes what stands in front. -/
theorem leads_delimited (delim : Char) (gs : List Glyph) : Leads (delimited delim gs).1 gs := by
  fun_induction delimited delim gs with
  | case1 c rest _ => exact ⟨rest, rfl⟩
  | case2 c _ _ e rest cs closed heq ih =>
    rw [heq] at ih
    exact (List.prefix_cons_inj _).mpr ((List.prefix_cons_inj _).mpr ih)
  | case3 c rest _ _ _ => exact ⟨rest, rfl⟩
  | case4 c rest _ _ cs closed heq ih =>
    rw [heq] at ih
    exact (List.prefix_cons_inj _).mpr ih
  | case5 => exact List.nil_prefix

/-- A fraction takes what stands in front. -/
theorem leads_fraction (gs : List Glyph) : Leads (fraction gs) gs := by
  unfold fraction
  split
  · next rest =>
    have hdigits := leads_takeChars isDigit rest
    split
    · exact List.nil_prefix
    · exact (List.prefix_cons_inj _).mpr hdigits
  · exact List.nil_prefix

/-- An exponent takes what stands in front. -/
theorem leads_exponent {gs : List Glyph} {mark digits : List Char}
    (h : exponent? gs = some (mark, digits)) : Leads (mark ++ digits) gs := by
  unfold exponent? at h
  split at h
  · next e rest =>
    split at h
    · split at h
      · next s rest' =>
        split at h
        · obtain ⟨rfl, rfl⟩ := Prod.mk.inj (Option.some.inj h)
          exact (List.prefix_cons_inj _).mpr ((List.prefix_cons_inj _).mpr (leads_takeChars _ _))
        · obtain ⟨rfl, rfl⟩ := Prod.mk.inj (Option.some.inj h)
          exact (List.prefix_cons_inj _).mpr (leads_takeChars _ _)
      · obtain ⟨rfl, rfl⟩ := Prod.mk.inj (Option.some.inj h)
        exact ⟨rest, rfl⟩
    · cases h
  · cases h

/-- A number that ends well leaves the rest alone. -/
theorem leads_endNumber {more : List Char} (kind : Kind) {gs : List Glyph} (hmore : Leads more gs) :
    Leads (endNumber more kind (gs.drop more.length)).more gs := by
  unfold endNumber
  split
  · next c rest hrest =>
    split
    · refine hmore.append ?_
      rw [hrest]
      exact ⟨rest, rfl⟩
    · exact hmore
  · exact hmore

/-- A number takes what stands in front. -/
theorem leads_number (gs : List Glyph) : Leads (number gs).more gs := by
  have hwhole := leads_takeChars isDigit gs
  have hmantissa := Leads.append hwhole (leads_fraction (gs.drop (Glyph.takeChars isDigit gs).length))
  simp only [number]
  generalize hm : Glyph.takeChars isDigit gs ++
    fraction (gs.drop (Glyph.takeChars isDigit gs).length) = mantissa at hmantissa ⊢
  split
  · next mark hexp =>
    have hmark := leads_exponent hexp
    rw [List.append_nil] at hmark
    exact hmantissa.append hmark
  · next mark digits _ hexp =>
    have hall := hmantissa.append (leads_exponent hexp)
    have hend := leads_endNumber .float hall
    rw [List.append_assoc, List.drop_drop]
    simpa using hend
  · exact leads_endNumber _ hmantissa

/-- A word takes what stands in front. -/
theorem leads_word (first : Char) (gs : List Glyph) : Leads (word first gs).more gs :=
  leads_takeChars _ gs

/-- A mark takes what stands in front. -/
theorem leads_punctuation (first : Char) (gs : List Glyph) : Leads (punctuation first gs).more gs := by
  unfold punctuation
  dsimp only
  split
  · next kind hkind =>
    have hspelled := List.find?_some hkind
    simp only [Glyph.ofString, List.isPrefixOf_iff_prefix] at hspelled
    cases hchars : kind.text.toList with
    | nil => exact List.nil_prefix
    | cons c cs =>
      rw [hchars, List.map_cons] at hspelled
      exact (List.cons_prefix_cons.mp hspelled).2
  · exact List.nil_prefix

/-- The characters that delimit literals, with the kinds of these. -/
def quotes : List (Char × Kind) :=
  [('"', .string), ('\x60', .character), ('\'', .quoted)]

/-- What a lexeme can be. -/
theorem read_cases {P : Lexeme → Prop} (first : Char) (gs : List Glyph)
    (line : first = '/' → ∀ rest, gs = .char '/' :: rest → P ⟨Glyph.takeChars (· != '\n') gs, .ok .comment⟩)
    (block : first = '/' → ∀ rest, gs = .char '*' :: rest → P ⟨'*' :: (blockComment rest).1,
      if (blockComment rest).2 then .ok .comment else .error "unterminated comment"⟩)
    (quoted : ∀ kind what, (first, kind) ∈ quotes → P (literal first gs kind what))
    (digits : isDigit first = true → P (number gs)) (letters : isWordStart first = true → P (word first gs))
    (marks : P (punctuation first gs)) : P (read first gs) := by
  unfold read
  dsimp only
  refine iteInduction (fun h => ?line) fun _ => iteInduction (fun h => ?block) fun _ =>
    iteInduction (fun h => quoted .string _ ?_) fun _ => iteInduction (fun h => quoted .character _ ?_) fun _ =>
    iteInduction (fun h => quoted .quoted _ ?_) fun _ => iteInduction digits fun _ =>
    iteInduction letters fun _ => marks
  -- The second character decides between the two kinds of comments.
  case line =>
    simp only [Bool.and_eq_true, beq_iff_eq] at h
    obtain ⟨hfirst, hnext⟩ := h
    split at hnext
    · next c rest =>
      obtain rfl := Option.some.inj hnext
      exact line hfirst rest rfl
    · cases hnext
  case block =>
    simp only [Bool.and_eq_true, beq_iff_eq] at h
    obtain ⟨hfirst, hnext⟩ := h
    split at hnext
    · next c rest _ =>
      obtain rfl := Option.some.inj hnext
      exact block hfirst rest rfl
    · cases hnext
  all_goals
    obtain rfl := beq_iff_eq.mp h
    decide

/-- What belongs to a lexeme comes next in the text. -/
theorem leads_read (first : Char) (gs : List Glyph) : Leads (read first gs).more gs := by
  refine read_cases (P := fun l => Leads l.more gs) first gs (fun _ _ _ => leads_takeChars _ gs) ?_
    (fun _ _ _ => leads_delimited first gs) (fun _ => leads_number gs) (fun _ => leads_word first gs)
    (leads_punctuation first gs)
  rintro - rest rfl
  exact (List.prefix_cons_inj _).mpr (leads_blockComment rest)

/-! ### The kinds of lexemes -/

/-- A literal that is read has its delimiter at the end. -/
theorem kind_of_literal {delim : Char} {gs : List Glyph} {k kind : Kind} {what : String}
    (h : (literal delim gs k what).kind = .ok kind) : k = kind ∧ (delimited delim gs).2 = true := by
  simp only [literal] at h
  split at h
  · next hclosed => exact ⟨Except.ok.inj h, hclosed⟩
  · cases h

/-- A number that ends as it should is of the kind it began with. -/
theorem kind_of_endNumber {more : List Char} {gs : List Glyph} {k kind : Kind}
    (h : (endNumber more k gs).kind = .ok kind) : k = kind := by
  unfold endNumber at h
  split at h
  · split at h
    · cases h
    · exact Except.ok.inj h
  · exact Except.ok.inj h

/-- A number is natural or has a fraction. -/
theorem kind_of_number {gs : List Glyph} {kind : Kind} (h : (number gs).kind = .ok kind) :
    kind ∈ [Kind.float, .natural] := by
  simp only [number] at h
  split at h
  · cases h
  · rw [← kind_of_endNumber h]
    decide
  · rw [← kind_of_endNumber h]
    split <;> decide

/-- A word is a keyword or a name. -/
theorem kind_of_word {first : Char} {gs : List Glyph} {kind : Kind} (h : (word first gs).kind = .ok kind) :
    kind ∈ Kind.upperName :: .lowerName :: Kind.keywords := by
  simp only [word] at h
  obtain rfl := Except.ok.inj h
  split
  · next hkind => exact List.mem_cons_of_mem _ (List.mem_cons_of_mem _ (List.mem_of_find?_eq_some hkind))
  · split <;> decide

/-- Punctuation is spelled as its kind says. -/
theorem kind_of_punctuation {first : Char} {gs : List Glyph} {kind : Kind}
    (h : (punctuation first gs).kind = .ok kind) :
    kind ∈ operators ∧ kind.text.toList = first :: (punctuation first gs).more := by
  simp only [punctuation] at h ⊢
  split at h
  · next k hk =>
    obtain rfl := Except.ok.inj h
    have hmem := List.mem_of_find?_eq_some hk
    have hspelled := List.find?_some hk
    have hne := (by decide : ∀ k ∈ operators, k.text.toList ≠ []) k hmem
    simp only [Glyph.ofString, List.isPrefixOf_iff_prefix] at hspelled
    obtain ⟨c, cs, hchars⟩ := List.exists_cons_of_ne_nil hne
    rw [hchars, List.map_cons] at hspelled
    obtain ⟨⟨rfl⟩, -⟩ := List.cons_prefix_cons.mp hspelled
    exact ⟨hmem, by rw [hchars]; rfl⟩
  · cases h

/-- The kinds of lexemes. -/
def kinds : List Kind :=
  .comment :: (quotes.map (·.2) ++ [.float, .natural] ++ .upperName :: .lowerName :: Kind.keywords ++ operators)

/-- What is read is of one of the kinds that there are. -/
theorem kind_of_read {first : Char} {gs : List Glyph} {kind : Kind} (h : (read first gs).kind = .ok kind) :
    kind ∈ kinds := by
  revert h
  refine read_cases (P := fun l => l.kind = .ok kind → kind ∈ kinds) first gs ?_ ?_ ?_ ?_ ?_ ?_
  · rintro - rest - ⟨⟩
    exact List.mem_cons_self
  · -- A comment that is not closed is an error and no token of a kind.
    rintro - rest - h
    dsimp only at h
    split at h
    · obtain rfl := Except.ok.inj h
      exact List.mem_cons_self
    · cases h
  · intro k what hk h
    obtain ⟨rfl, -⟩ := kind_of_literal h
    exact List.mem_cons_of_mem _ (by simp [List.mem_map_of_mem (f := Prod.snd) hk])
  · intro _ h
    exact List.mem_cons_of_mem _ (by simp only [List.mem_append, kind_of_number h, or_true, true_or])
  · intro _ h
    exact List.mem_cons_of_mem _ (by simp only [List.mem_append, kind_of_word h, or_true, true_or])
  · intro h
    exact List.mem_cons_of_mem _ (List.mem_append_right _ (kind_of_punctuation h).1)

end Lexeme

/-! ## Cursors -/

namespace Cursor

@[simp] theorem advance_cons (c : Cursor) (ch : Char) (cs : List Char) :
    c.advance (ch :: cs) = (c.step ch).advance cs := rfl

/-- Passing characters leads on from one place to the next. -/
theorem advance_next (c : Cursor) (cs : List Char) : (c.advance cs).next = cs.foldl .after c.next := by
  induction cs generalizing c with
  | nil => rfl
  | cons ch cs ih => exact ih (c.step ch)

/-- Passing characters does not change where the token begins. -/
theorem advance_start (c : Cursor) (cs : List Char) : (c.advance cs).start = c.start := by
  induction cs generalizing c with
  | nil => rfl
  | cons ch cs ih => exact ih (c.step ch)

/-- What has been passed is gathered, the last character first. -/
theorem advance_gathered (c : Cursor) (cs : List Char) :
    (c.advance cs).gathered = cs.reverse ++ c.gathered := by
  induction cs generalizing c with
  | nil => rfl
  | cons ch cs ih =>
    rw [advance_cons, ih, List.reverse_cons, List.append_assoc]
    rfl

end Cursor

/-! ## The relation -/

/-- The glyphs that begin with `first`, and go on with the characters `more` and with `gs`, are read as the lexeme
of the characters. -/
structure Lexeme.Reads (first : Char) (more : List Char) (gs : List Glyph) (kind : Except String Kind) : Prop where
  /-- The lexeme does not begin with white space. -/
  dark : isSpace first = false
  read : Lexeme.read first (more.map .char ++ gs) = ⟨more, kind⟩

/-- No lexeme is the end of the text or an error. -/
theorem Lexeme.Reads.kind_ne {first : Char} {more : List Char} {gs : List Glyph} {kind : Kind}
    (reads : Lexeme.Reads first more gs (.ok kind)) : kind ≠ .eof ∧ kind ≠ .error :=
  (by decide : ∀ k ∈ Lexeme.kinds, k ≠ .eof ∧ k ≠ .error) kind
    (Lexeme.kind_of_read (congrArg Lexeme.kind reads.read))

/-- Glyphs behind the text `before`, and their tokens. -/
inductive Lexed : (before : List Char) → List Glyph → List Token → Prop
  | eof {before gap : List Char} (blank : ∀ c ∈ gap, isSpace c) :
    Lexed before (gap.map .char) [⟨.eof, "", .behind (before ++ gap)⟩]
  | stray {before gap : List Char} {b : UInt8} {gs : List Glyph} (blank : ∀ c ∈ gap, isSpace c) :
    Lexed before (gap.map .char ++ .stray b :: gs)
      [⟨.error, "invalid utf-8 sequence", .behind (before ++ gap)⟩]
  | error {before gap : List Char} {first : Char} {more : List Char} {gs : List Glyph} {message : String}
    (blank : ∀ c ∈ gap, isSpace c) (reads : Lexeme.Reads first more gs (.error message)) :
    Lexed before (gap.map .char ++ (.char first :: (more.map .char ++ gs)))
      [⟨.error, message, .behind (before ++ gap)⟩]
  | piece {before gap : List Char} {first : Char} {more : List Char} {gs : List Glyph} {kind : Kind}
    {ts : List Token} (blank : ∀ c ∈ gap, isSpace c) (reads : Lexeme.Reads first more gs (.ok kind))
    (rest : Lexed (before ++ gap ++ first :: more) gs ts) :
    Lexed before (gap.map .char ++ (.char first :: (more.map .char ++ gs)))
      (⟨kind, String.ofList (first :: more), .behind (before ++ gap)⟩ :: ts)

/-- A character of two texts is one of the first or one of the second. -/
theorem split_append {as bs pre post : List Char} {c : Char} (h : as ++ bs = pre ++ c :: post) :
    (∃ mid, as = pre ++ c :: mid) ∨ ∃ mid, pre = as ++ mid ∧ bs = mid ++ c :: post := by
  rcases List.append_eq_append_iff.mp h with ⟨mid, hpre, hbs⟩ | ⟨mid, has, hpost⟩
  · exact .inr ⟨mid, hpre, hbs⟩
  · cases mid with
    | nil => exact .inr ⟨[], by simpa using has.symm, by simpa using hpost.symm⟩
    | cons d mid =>
      obtain ⟨rfl, -⟩ := List.cons.inj hpost
      exact .inl ⟨mid, has⟩

/-- Glyphs that are characters altogether, of which the first ones are known. -/
theorem exists_of_append_eq_map (as : List Char) {cs : List Char} {gs : List Glyph}
    (h : as.map .char ++ gs = cs.map .char) :
    ∃ ds, cs = as ++ ds ∧ gs = ds.map .char := by
  obtain ⟨as', ds, rfl, has, hds⟩ := List.map_eq_append_iff.mp h.symm
  obtain rfl := List.map_injective_iff.mpr (fun _ _ h => Glyph.char.inj h) has
  exact ⟨ds, rfl, hds.symm⟩

/-! ## The lexer -/

namespace Cursor

/-- Behind white space the text goes on. -/
theorem skipSpace_rest (c : Cursor) : c.skipSpace.rest = c.rest.drop (Glyph.takeChars isSpace c.rest).length := by
  rw [skipSpace, acceptWhile, ignore_rest, advance_rest]

/-- Skipping white space takes it from the text, and nothing else. -/
theorem skipSpace_spec (c : Cursor) {before : List Char} (hnext : c.next = .behind before) :
    ∃ gap : List Char, (∀ ch ∈ gap, isSpace ch) ∧ c.rest = gap.map .char ++ c.skipSpace.rest ∧
      c.skipSpace.start = .behind (before ++ gap) ∧ c.skipSpace.next = .behind (before ++ gap) ∧
      c.skipSpace.gathered = [] := by
  refine ⟨Glyph.takeChars isSpace c.rest, fun ch hch => of_mem_takeChars hch, ?_⟩
  have hgap := List.prefix_iff_eq_append.mp (leads_takeChars isSpace c.rest)
  have hend : (c.advance (Glyph.takeChars isSpace c.rest)).next =
      .behind (before ++ Glyph.takeChars isSpace c.rest) := by
    rw [advance_next, hnext, Pos.behind_append]
  refine ⟨?_, hend, hend, rfl⟩
  rw [skipSpace_rest]
  simpa using hgap.symm

/-- Behind the white space there is none. -/
theorem isSpace_of_skipSpace {c : Cursor} {first : Char} {rest : List Glyph}
    (h : c.skipSpace.rest = .char first :: rest) : isSpace first = false :=
  eq_of_drop_takeChars (c.skipSpace_rest.symm.trans h)

/-- White space that ends where the lexeme begins is what is skipped. -/
theorem skipSpace_of_rest {c : Cursor} {before gap : List Char} {gs : List Glyph} (hnext : c.next = .behind before)
    (blank : ∀ ch ∈ gap, isSpace ch) (hgs : Glyph.takeChars isSpace gs = []) (hrest : c.rest = gap.map .char ++ gs) :
    c.skipSpace.rest = gs ∧ c.skipSpace.start = .behind (before ++ gap) ∧
      c.skipSpace.next = .behind (before ++ gap) ∧ c.skipSpace.gathered = [] := by
  have hgap : Glyph.takeChars isSpace c.rest = gap := by rw [hrest, takeChars_append blank hgs]
  have hend : (c.advance (Glyph.takeChars isSpace c.rest)).next = .behind (before ++ gap) := by
    rw [hgap, advance_next, hnext, Pos.behind_append]
  refine ⟨?_, hend, hend, rfl⟩
  rw [skipSpace_rest, hgap, hrest]
  simp

/-- Where nothing is left, the token is the end of the text. -/
theorem readToken_of_nil {c : Cursor} (hrest : c.skipSpace.rest = []) :
    c.readToken = c.skipSpace.emitAs .eof "" := by
  simp only [readToken, hrest]

/-- A token that is read has the text that was gathered. -/
theorem readToken_of_ok {c : Cursor} {first : Char} {rest : List Glyph} {kind : Kind}
    (hrest : c.skipSpace.rest = .char first :: rest)
    (hkind : (Lexeme.read first rest).kind = .ok kind) :
    c.readToken = (c.skipSpace.advance (first :: (Lexeme.read first rest).more)).emit kind := by
  simp only [readToken, hrest, hkind]

/-- The end of the text is the last token. -/
theorem tokens_of_eof {c : Cursor} {n : Nat} (h : c.readToken.1.kind = .eof) :
    c.tokens n = [c.readToken.1] := by
  rw [tokens.eq_def, dif_pos h]

/-- A token of an error is the last one. -/
theorem tokens_of_error {c : Cursor} (h : c.readToken.1.kind = .error) :
    c.tokens 0 = [c.readToken.1] := by
  rw [tokens.eq_def, dif_neg (by rw [h]; exact nofun), dif_pos h]

/-- Any other token is followed by the others. -/
theorem tokens_of_ne {c : Cursor} {n : Nat} (heof : c.readToken.1.kind ≠ .eof)
    (herror : c.readToken.1.kind ≠ .error) :
    c.tokens n = c.readToken.1 :: c.readToken.2.tokens n := by
  rw [tokens.eq_def, dif_neg heof, dif_neg herror]

/-- What is read of a lexeme, at the place where it begins. -/
theorem readToken_of_reads {c : Cursor} {before more : List Char} {first : Char} {gs : List Glyph} {kind : Kind}
    (hrest : c.skipSpace.rest = .char first :: (more.map .char ++ gs)) (hstart : c.skipSpace.start = .behind before)
    (hnext : c.skipSpace.next = .behind before) (hgathered : c.skipSpace.gathered = [])
    (reads : Lexeme.Reads first more gs (.ok kind)) :
    c.readToken.1 = ⟨kind, String.ofList (first :: more), .behind before⟩ ∧ c.readToken.2.rest = gs ∧
      c.readToken.2.next = .behind (before ++ first :: more) := by
  have hread := readToken_of_ok hrest (congrArg Lexeme.kind reads.read)
  rw [congrArg Lexeme.more reads.read] at hread
  refine ⟨?_, ?_, ?_⟩
  · rw [hread, emit, text, advance_gathered, hgathered, advance_start, hstart, List.append_nil,
      List.reverse_reverse]
  · rw [hread, emit, ignore_rest, advance_rest, hrest]
    simp
  · rw [hread, Pos.behind_append, ← hnext]
    exact advance_next _ _

/-- A token that cannot be read is one of an error. -/
theorem readToken_of_error_reads {c : Cursor} {before more : List Char} {first : Char} {gs : List Glyph}
    {message : String} (hrest : c.skipSpace.rest = .char first :: (more.map .char ++ gs))
    (hstart : c.skipSpace.start = .behind before) (reads : Lexeme.Reads first more gs (.error message)) :
    c.readToken.1 = ⟨.error, message, .behind before⟩ := by
  simp only [readToken, hrest, reads.read, emitAs, advance_start, hstart]

/-- The tokens that the lexer reads. -/
theorem tokens_lexed (c : Cursor) (before : List Char) (hnext : c.next = .behind before) :
    Lexed before c.rest (c.tokens 0) := by
  induction hn : c.rest.length using Nat.strong_induction_on generalizing c before with
  | _ n ih =>
    -- In front of every token stands white space, which may be none.
    obtain ⟨gap, blank, hgap, hstart, hbehind, hgathered⟩ := c.skipSpace_spec hnext
    match hrest : c.skipSpace.rest with
    | [] =>
      rw [hrest, List.append_nil] at hgap
      rw [tokens_of_eof (by rw [readToken_of_nil hrest]; rfl), readToken_of_nil hrest, emitAs, hstart, hgap]
      exact .eof blank
    -- Bytes that are no text end the tokens with an error.
    | .stray b :: gs =>
      have htoken : c.readToken.1 = ⟨.error, "invalid utf-8 sequence", .behind (before ++ gap)⟩ := by
        simp only [readToken, hrest, emitAs, hstart]
      rw [tokens_of_error (by rw [htoken]), htoken, hgap, hrest]
      exact .stray blank
    | .char first :: rest =>
      obtain ⟨gs, hgs⟩ := Lexeme.leads_read first rest
      have reads : Lexeme.Reads first (Lexeme.read first rest).more gs (Lexeme.read first rest).kind :=
        ⟨isSpace_of_skipSpace hrest, by rw [hgs]⟩
      generalize (Lexeme.read first rest).kind = result at reads
      generalize (Lexeme.read first rest).more = more at reads hgs
      subst hgs
      rw [hrest] at hgap
      cases result with
      | error message =>
        have htoken := readToken_of_error_reads hrest hstart reads
        rw [tokens_of_error (by rw [htoken]), htoken, hgap]
        exact .error blank reads
      | ok kind =>
        obtain ⟨htoken, hafter, hthen⟩ := readToken_of_reads hrest hstart hbehind hgathered reads
        have heof : c.readToken.1.kind ≠ .eof := htoken ▸ reads.kind_ne.1
        have herror : c.readToken.1.kind ≠ .error := htoken ▸ reads.kind_ne.2
        -- A token takes at least its first character, so that less text is left.
        have htail := ih _ (hn ▸ readToken_rest_length_lt c heof herror) c.readToken.2 _ hthen rfl
        rw [hafter] at htail
        rw [tokens_of_ne heof herror, htoken, hgap]
        exact .piece blank reads htail

end Cursor

/-- There are no other tokens than those that the lexer reads. -/
theorem Lexed.tokens_eq {before : List Char} {gs : List Glyph} {ts : List Token} (h : Lexed before gs ts) (c : Cursor)
    (hrest : c.rest = gs) (hnext : c.next = .behind before) : c.tokens 0 = ts := by
  induction h generalizing c with
  | @eof before gap blank =>
    obtain ⟨hskip, hstart, -⟩ := c.skipSpace_of_rest hnext blank rfl (hrest.trans (List.append_nil _).symm)
    rw [Cursor.tokens_of_eof (by rw [Cursor.readToken_of_nil hskip]; rfl), Cursor.readToken_of_nil hskip,
      Cursor.emitAs, hstart]
  | @stray before gap b gs blank =>
    obtain ⟨hskip, hstart, -⟩ := c.skipSpace_of_rest hnext blank rfl hrest
    have htoken : c.readToken.1 = ⟨.error, "invalid utf-8 sequence", .behind (before ++ gap)⟩ := by
      simp only [Cursor.readToken, hskip, Cursor.emitAs, hstart]
    rw [Cursor.tokens_of_error (by rw [htoken]), htoken]
  | error blank reads =>
    obtain ⟨hskip, hstart, -⟩ := c.skipSpace_of_rest hnext blank (takeChars_of_not reads.dark _) hrest
    have htoken := Cursor.readToken_of_error_reads hskip hstart reads
    rw [Cursor.tokens_of_error (by rw [htoken]), htoken]
  | @piece before gap first more gs kind ts blank reads _ ih =>
    obtain ⟨hskip, hstart, hbehind, hgathered⟩ :=
      c.skipSpace_of_rest hnext blank (takeChars_of_not reads.dark _) hrest
    -- Behind the piece the cursor stands where the rest of the tokens begin.
    obtain ⟨htoken, hafter, hthen⟩ := Cursor.readToken_of_reads hskip hstart hbehind hgathered reads
    have heof : c.readToken.1.kind ≠ .eof := htoken ▸ reads.kind_ne.1
    have herror : c.readToken.1.kind ≠ .error := htoken ▸ reads.kind_ne.2
    rw [Cursor.tokens_of_ne heof herror, htoken, ih _ hafter hthen]

end Token

end Ceylon
