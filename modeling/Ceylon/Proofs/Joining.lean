import Mathlib.Data.List.Find
import Ceylon.Proofs.Lexing
import Ceylon.Proofs.PlacingUnit
import Ceylon.Proofs.Echoes

/-!
# Texts one behind the other

A character that no token goes on with ends the token before it, so a text has the same tokens in front of such a
character as it has alone, except that a line comment goes on up to the end of its line.
-/

namespace Ceylon

open Text (Glyph isSpace isDigit isWordChar isWordStart)

namespace Token

/-- Characters that no token but a comment or a literal goes on with. -/
def separators : List Char :=
  [' ', '\n', ';']

/-- The characters that texts are joined with. -/
theorem mem_separators {c : Char} : c ∈ separators ↔ c = ' ' ∨ c = '\n' ∨ c = ';' := by
  simp [separators]

namespace Lexeme

variable {c : Char} {gs rest : List Glyph}

/-- Taking characters stops where one of another kind stands. -/
theorem takeChars_stop {p : Char → Bool} (hc : p c = false) (gs rest : List Glyph) :
    Glyph.takeChars p (gs ++ .char c :: rest) = Glyph.takeChars p gs := by
  induction gs with
  | nil => exact takeChars_of_not hc rest
  | cons g gs ih =>
    cases g with
    | stray => rfl
    | char d =>
      rw [List.cons_append, Glyph.takeChars, Glyph.takeChars]
      split
      · rw [ih]
      · rfl

/-- Characters that are followed by another one are the same in a longer text. -/
theorem takeChars_inside {p : Char → Bool} {gs : List Glyph} (h : (Glyph.takeChars p gs).length < gs.length)
    (rest : List Glyph) : Glyph.takeChars p (gs ++ rest) = Glyph.takeChars p gs := by
  induction gs with
  | nil => cases h
  | cons g gs ih =>
    cases g with
    | stray => rfl
    | char d =>
      rw [List.cons_append, Glyph.takeChars, Glyph.takeChars]
      rw [Glyph.takeChars] at h
      split
      · next hd =>
        rw [if_pos hd] at h
        rw [ih (Nat.lt_of_succ_lt_succ h)]
      · rfl

/-- A block comment that is closed does not depend on what follows. -/
theorem blockComment_closed (h : (blockComment gs).2 = true) (rest : List Glyph) :
    blockComment (gs ++ rest) = blockComment gs := by
  fun_induction blockComment gs with
  | case1 => rfl
  | case2 c gs hne cs closed heq ih =>
    have hnext : ∀ tail, gs ++ rest = .char '/' :: tail → c = '*' → False := by
      intro tail htail hstar
      cases gs with
      | nil =>
        cases heq
        cases h
      | cons g gs =>
        obtain ⟨rfl, -⟩ := List.cons.inj htail
        exact hne gs rfl hstar
    rw [heq] at ih
    rw [List.cons_append, blockComment.eq_2 c _ hnext, ih h]
  | case3 => cases h

/-- A delimited text that is closed does not depend on what follows. -/
theorem delimited_closed {delim : Char} (hdelim : delim ≠ '\\') (h : (delimited delim gs).2 = true)
    (rest : List Glyph) : delimited delim (gs ++ rest) = delimited delim gs := by
  fun_induction delimited delim gs with
  | case1 c gs hc =>
    obtain rfl := beq_iff_eq.mp hc
    exact delimited_close _
  | case2 c _ hescape e gs cs closed heq ih =>
    obtain rfl := beq_iff_eq.mp hescape
    rw [heq] at ih
    rw [List.cons_append, List.cons_append, delimited_escaped _ hdelim, ih h]
  | case3 => cases h
  | case4 c gs hc hescape cs closed heq ih =>
    rw [heq] at ih
    rw [List.cons_append, delimited_plain _ (by simpa using hc) (by simpa using hescape), ih h]
  | case5 => cases h

/-- What the characters mean that end a token. -/
theorem of_separator (h : c ∈ separators) : isDigit c = false ∧ isWordChar c = false ∧ (c == '.') = false ∧
    (c == 'e' || c == 'E') = false ∧ (c == '+' || c == '-') = false ∧ ∀ k ∈ operators, c ∉ k.text.toList.tail := by
  obtain rfl | rfl | rfl := mem_separators.mp h <;> decide

/-- A literal that is closed does not depend on what follows. -/
theorem literal_closed {delim : Char} {kind k : Kind} {what : String} (hdelim : delim ≠ '\\')
    (h : (literal delim gs kind what).kind = .ok k) (rest : List Glyph) :
    literal delim (gs ++ rest) kind what = literal delim gs kind what := by
  rw [literal, literal, delimited_closed hdelim (kind_of_literal h).2]

/-- A word ends at a separator. -/
theorem word_separated (hc : c ∈ separators) (first : Char) (gs rest : List Glyph) :
    word first (gs ++ .char c :: rest) = word first gs := by
  rw [word, word, takeChars_stop (of_separator hc).2.1]

/-- A fraction ends at a separator. -/
theorem fraction_separated (hc : c ∈ separators) (gs rest : List Glyph) :
    fraction (gs ++ .char c :: rest) = fraction gs := by
  obtain ⟨hdigit, -, hpoint, -⟩ := of_separator hc
  match gs with
  | [] =>
    rw [List.nil_append]
    exact fraction.eq_2 _ fun _ h => by simp_all
  | .char d :: gs =>
    by_cases hd : d = '.'
    · rw [hd, List.cons_append, fraction, fraction, takeChars_stop hdigit]
    · have hother (rest : List Glyph) : fraction (.char d :: rest) = [] :=
        fraction.eq_2 _ fun _ h => hd (by simpa using (List.cons.inj h).1)
      rw [List.cons_append, hother, hother]
  | .stray _ :: gs => rfl

/-- An exponent with digits ends at a separator. -/
theorem exponent_separated (hc : c ∈ separators) {gs : List Glyph} (h : ∀ mark, exponent? gs ≠ some (mark, []))
    (rest : List Glyph) : exponent? (gs ++ .char c :: rest) = exponent? gs := by
  obtain ⟨hdigit, -, -, he, hsign, -⟩ := of_separator hc
  match gs with
  | [] => simp [exponent?, he]
  | [.char e] =>
    have := h [e]
    by_cases he : e == 'e' || e == 'E' <;> simp_all [exponent?]
  | .char e :: .char s :: gs =>
    simp only [exponent?, List.cons_append]
    rw [takeChars_stop hdigit, ← List.cons_append, takeChars_stop hdigit]
  | .char e :: .stray _ :: gs => rfl
  | .stray _ :: gs => rfl

/-- A number may end at a separator. -/
theorem endNumber_separated (hc : c ∈ separators) (more : List Char) (kind : Kind) (gs rest : List Glyph) :
    endNumber more kind (gs ++ .char c :: rest) = endNumber more kind gs := by
  match gs with
  | [] => simp [endNumber, (of_separator hc).2.1]
  | .char d :: gs => rfl
  | .stray _ :: gs => rfl

/-- A number that is read ends at a separator. -/
theorem number_separated (hc : c ∈ separators) {k : Kind} (h : (number gs).kind = .ok k) (rest : List Glyph) :
    number (gs ++ .char c :: rest) = number gs := by
  have hwhole := leads_takeChars isDigit gs
  have hmantissa := Leads.append hwhole (leads_fraction (gs.drop (Glyph.takeChars isDigit gs).length))
  -- What is dropped lies before the separator, so the rest ends in it.
  have hdrop {cs : List Char} (hcs : Leads cs gs) :
      (gs ++ .char c :: rest).drop cs.length = gs.drop cs.length ++ .char c :: rest :=
    List.drop_append_of_le_length (by simpa using hcs.length_le)
  simp only [number] at h ⊢
  rw [takeChars_stop (of_separator hc).1, hdrop hwhole, fraction_separated hc]
  generalize hm : Glyph.takeChars isDigit gs ++
    fraction (gs.drop (Glyph.takeChars isDigit gs).length) = mantissa at h hmantissa ⊢
  rw [hdrop hmantissa, exponent_separated hc fun mark hexp => by simp [hexp] at h]
  cases hexp : exponent? (gs.drop mantissa.length) with
  | none => exact endNumber_separated hc _ _ _ _
  | some parts =>
    obtain ⟨mark, digits⟩ := parts
    cases digits with
    | nil => rfl
    | cons d digits =>
      have hall := (leads_exponent hexp).length_le
      simp only [List.map_append, List.length_append, List.length_map] at hall
      dsimp only
      rw [List.drop_append_of_le_length hall, endNumber_separated hc]

/-- What begins a text without a certain character does so in front of that character too. -/
theorem isPrefixOf_separated {x : Glyph} {rest : List Glyph} : {gs ds : List Glyph} → x ∉ ds →
    ds.isPrefixOf (gs ++ x :: rest) = ds.isPrefixOf gs
  | _, [], _ => by rw [List.isPrefixOf, List.isPrefixOf]
  | [], d :: ds, h => by simp [List.isPrefixOf, Ne.symm (List.ne_of_not_mem_cons h)]
  | g :: gs, d :: ds, h => by
    rw [List.cons_append, List.isPrefixOf, List.isPrefixOf, isPrefixOf_separated (List.not_mem_of_not_mem_cons h)]

/-- A mark ends at a separator. -/
theorem punctuation_separated (hc : c ∈ separators) (first : Char) (gs rest : List Glyph) :
    punctuation first (gs ++ .char c :: rest) = punctuation first gs := by
  have hsame : ∀ k ∈ operators, (Glyph.ofString k.text).isPrefixOf (.char first :: (gs ++ .char c :: rest)) =
      (Glyph.ofString k.text).isPrefixOf (.char first :: gs) := by
    intro k hk
    have htail := (of_separator hc).2.2.2.2.2 k hk
    rw [Glyph.ofString]
    cases hchars : k.text.toList with
    | nil => rfl
    | cons d ds =>
      rw [hchars, List.tail_cons] at htail
      rw [List.map_cons, List.isPrefixOf, List.isPrefixOf, isPrefixOf_separated (by simpa using htail)]
  rw [punctuation, punctuation, List.find?_congr hsame]

/-- The lexeme that begins with `first`, if it is no comment. -/
def plain (first : Char) (rest : List Glyph) : Lexeme :=
  if first == '"' then literal first rest .string "string literal"
  else if first == '\x60' then literal first rest .character "character literal"
  else if first == '\'' then literal first rest .quoted "quoted literal"
  else if isDigit first then number rest
  else if isWordStart first then word first rest
  else punctuation first rest

/-- Two slashes begin a comment that goes on to the end of the line. -/
theorem read_line (rest : List Glyph) : read '/' (.char '/' :: rest) =
    ⟨Glyph.takeChars (· != '\n') (.char '/' :: rest), .ok .comment⟩ :=
  rfl

/-- A slash and a star begin a comment that has to be closed. -/
theorem read_block (rest : List Glyph) : read '/' (.char '*' :: rest) = ⟨'*' :: (blockComment rest).1,
    if (blockComment rest).2 then .ok .comment else .error "unterminated comment"⟩ :=
  rfl

/-- Anything else is read as a plain token. -/
theorem read_plain {first : Char} {gs : List Glyph}
    (h : first = '/' → ∀ rest, gs ≠ .char '/' :: rest ∧ gs ≠ .char '*' :: rest) : read first gs = plain first gs := by
  unfold read
  dsimp only
  rw [if_neg ?line, if_neg ?block]
  · rfl
  all_goals
    intro hcomment
    simp only [Bool.and_eq_true, beq_iff_eq] at hcomment
    obtain ⟨hfirst, hsecond⟩ := hcomment
    rcases gs with _ | ⟨_ | _, rest⟩ <;> simp_all

/-- A plain token ends at a separator. -/
theorem plain_separated {first : Char} {k : Kind} (hc : c ∈ separators) (h : (plain first gs).kind = .ok k)
    (rest : List Glyph) : plain first (gs ++ .char c :: rest) = plain first gs := by
  unfold plain at h ⊢
  split_ifs at h ⊢ with hstring hcharacter hquoted hdigit hword
  · exact literal_closed (by rw [beq_iff_eq.mp hstring]; decide) h _
  · exact literal_closed (by rw [beq_iff_eq.mp hcharacter]; decide) h _
  · exact literal_closed (by rw [beq_iff_eq.mp hquoted]; decide) h _
  · exact number_separated hc h rest
  · exact word_separated hc first gs rest
  · exact punctuation_separated hc first gs rest

/-- A lexeme ends before a separator, unless it is a line comment that goes on. -/
theorem read_separated {first : Char} {more : List Char} {k : Kind} (hc : c ∈ separators)
    (h : read first gs = ⟨more, .ok k⟩)
    (hline : first = '/' → ∀ rest, gs = .char '/' :: rest → c = '\n' ∨ more.length < gs.length) (rest : List Glyph) :
    read first (gs ++ .char c :: rest) = ⟨more, .ok k⟩ := by
  have hc' : c ≠ '/' ∧ c ≠ '*' := by
    obtain rfl | rfl | rfl := mem_separators.mp hc <;> decide
  -- Only a comment to the end of its line could take the separator in.
  by_cases hcomment : first = '/' ∧ ∃ rest, gs = .char '/' :: rest ∨ gs = .char '*' :: rest
  · obtain ⟨rfl, gs, rfl | rfl⟩ := hcomment
    · rw [read_line] at h
      rw [List.cons_append, read_line, ← h, ← List.cons_append]
      have hmore : Glyph.takeChars (· != '\n') (.char '/' :: gs) = more := congrArg Lexeme.more h
      rcases hline rfl gs rfl with rfl | hlt
      · rw [takeChars_stop rfl]
      · rw [takeChars_inside (hmore ▸ hlt)]
    · rw [read_block] at h
      have hclosed : (blockComment gs).2 = true := by
        have hkind := congrArg Lexeme.kind h
        dsimp only at hkind
        split at hkind
        · next hclosed => exact hclosed
        · cases hkind
      rw [List.cons_append, read_block, blockComment_closed hclosed, h]
  · have hplain : read first gs = plain first gs := read_plain fun hfirst rest =>
      ⟨fun h => hcomment ⟨hfirst, rest, .inl h⟩, fun h => hcomment ⟨hfirst, rest, .inr h⟩⟩
    rw [hplain] at h
    rw [read_plain, plain_separated hc (congrArg Lexeme.kind h), h]
    intro hfirst tail
    cases gs with
    | nil => simp [hc'.1, hc'.2]
    | cons g gs =>
      constructor
      · intro heq
        obtain ⟨rfl, -⟩ := List.cons.inj heq
        exact hcomment ⟨hfirst, gs, .inl rfl⟩
      · intro heq
        obtain ⟨rfl, -⟩ := List.cons.inj heq
        exact hcomment ⟨hfirst, gs, .inr rfl⟩

end Lexeme

/-! ## The tokens of texts one behind the other -/

/-- Whether a word is a comment that goes on up to the end of its line. -/
def isLineComment (w : Kind × String) : Bool :=
  w.1 == .comment && ['/', '/'].isPrefixOf w.2.toList

namespace Lexed

variable {before : List Char} {gs : List Glyph} {ts us : List Token} {c : Char}

/-- White space before a text is skipped. -/
theorem behind_blank {gap : List Char} (blank : ∀ c ∈ gap, isSpace c) (h : Lexed (before ++ gap) gs ts) :
    Lexed before (gap.map .char ++ gs) ts := by
  have hblank {gap' : List Char} (blank' : ∀ c ∈ gap', isSpace c) : ∀ c ∈ gap ++ gap', isSpace c := fun c hc =>
    (List.mem_append.mp hc).elim (blank c) (blank' c)
  cases h with
  | eof blank' =>
    rw [← List.map_append, List.append_assoc]
    exact .eof (hblank blank')
  | stray blank' =>
    rw [← List.append_assoc, ← List.map_append, List.append_assoc]
    exact .stray (hblank blank')
  | error blank' reads =>
    rw [← List.append_assoc, ← List.map_append, List.append_assoc]
    exact .error (hblank blank') reads
  | piece blank' reads rest =>
    rw [← List.append_assoc, ← List.map_append, List.append_assoc]
    exact .piece (hblank blank') reads (by simpa [List.append_assoc] using rest)

/-- A text has the same words wherever it stands. -/
theorem moved (h : Lexed before gs ts) (before' : List Char) :
    ∃ ts', Lexed before' gs ts' ∧ ts'.map Token.word = ts.map Token.word := by
  induction h generalizing before' with
  | eof blank => exact ⟨_, .eof blank, rfl⟩
  | stray blank => exact ⟨_, .stray blank, rfl⟩
  | error blank reads => exact ⟨_, .error blank reads, rfl⟩
  | @piece before gap first more gs kind ts blank reads _ ih =>
    obtain ⟨ts', hts', hwords⟩ := ih (before' ++ gap ++ first :: more)
    exact ⟨_, .piece blank reads hts', by simp [hwords, Token.word]⟩

/-- There is a token at the end of every text. -/
theorem ne_nil (h : Lexed before gs ts) : ts ≠ [] := by
  cases h <;> exact List.cons_ne_nil _ _

/-- White space has no tokens but the end. -/
theorem dropLast_of_blank {gap : List Char} (h : Lexed before (gap.map .char) ts) (blank : ∀ c ∈ gap, isSpace c) :
    ts.dropLast = [] := by
  generalize hgs : gap.map Glyph.char = gs at h
  cases h with
  | eof | stray | error => rfl
  | @piece _ gap' first more gs kind ts blank' reads rest =>
    have hmem : Glyph.char first ∈ gap.map Glyph.char := by simp [hgs]
    obtain ⟨c, hc, heq⟩ := List.mem_map.mp hmem
    obtain rfl := Glyph.char.inj heq
    exact absurd (blank c hc) (by simp [reads.dark])

/-- A text has the same tokens in front of a separator as it has alone, and what follows comes behind them. -/
theorem join (h : Lexed before gs ts) {as : List Char} (has : gs = as.map .char) (hok : ∀ t ∈ ts, t.kind ≠ .error)
    (hc : c ∈ separators) (hend : c = '\n' ∨ ∀ t ∈ ts.dropLast.getLast?, isLineComment t.word = false)
    (hnext : Lexed (before ++ as) (.char c :: gs') us) :
    Lexed before (as.map .char ++ .char c :: gs') (ts.dropLast ++ us) := by
  induction h generalizing as with
  | @eof before gap blank =>
    obtain rfl := List.map_injective_iff.mpr (fun _ _ h => Glyph.char.inj h) has
    exact hnext.behind_blank blank
  | stray => exact absurd rfl (hok _ List.mem_cons_self)
  | error => exact absurd rfl (hok _ List.mem_cons_self)
  | @piece before gap first more gs kind ts blank reads rest ih =>
    obtain ⟨bs, rfl, hbs⟩ := exists_of_append_eq_map gap has
    obtain ⟨ds, rfl, rfl⟩ := exists_of_append_eq_map (first :: more) (show _ ++ gs = _ by simpa using hbs)
    rw [List.dropLast_cons_of_ne_nil rest.ne_nil] at hend ⊢
    have hrest := ih rfl (fun t ht => hok t (List.mem_cons_of_mem _ ht))
      (hend.imp id fun h t ht => h t (by rw [List.getLast?_cons, ht]; rfl)) (by simpa [List.append_assoc] using hnext)
    have hreads : Lexeme.Reads first more (ds.map .char ++ .char c :: gs') (.ok kind) := by
      refine ⟨reads.dark, ?_⟩
      rw [← List.append_assoc]
      refine Lexeme.read_separated hc reads.read (fun hfirst tail htail => hend.imp id fun hlast => ?_) gs'
      -- Only a line comment at the very end would take the separator in.
      rw [List.length_append, List.length_map, List.length_map]
      refine Nat.lt_add_of_pos_right (List.length_pos_iff.mpr ?_)
      rintro rfl
      have hcomment := hfirst ▸ htail ▸ reads.read
      rw [Lexeme.read_line] at hcomment
      obtain ⟨hmore, hkind⟩ := Lexeme.mk.inj hcomment
      obtain rfl := Except.ok.inj hkind
      have hnone := rest.dropLast_of_blank (fun _ h => absurd h List.not_mem_nil)
      rw [hnone] at hlast
      have := hlast _ rfl
      rw [hfirst, ← hmore] at this
      simp [isLineComment, Token.word, Glyph.takeChars] at this
    simpa using Lexed.piece blank hreads hrest

/-- No token but the last one is the end of the text or an error. -/
theorem inner_kind (h : Lexed before gs ts) : ∀ t ∈ ts.dropLast, t.kind ≠ .eof ∧ t.kind ≠ .error := by
  induction h with
  | eof | stray | error => exact fun t ht => absurd ht List.not_mem_nil
  | piece _ reads rest ih =>
    intro t ht
    rw [List.dropLast_cons_of_ne_nil rest.ne_nil] at ht
    rcases List.mem_cons.mp ht with rfl | ht
    · exact reads.kind_ne
    · exact ih t ht

end Lexed

/-- A text says certain words, wherever it stands. -/
def Says (s : List Char) (ws : List (Kind × String)) : Prop :=
  ∀ before, ∃ ts, Lexed before (s.map .char) ts ∧ ts.map Token.word = ws ++ [(.eof, "")]

namespace Says

variable {s s' : List Char} {ws ws' : List (Kind × String)} {c : Char}

/-- A text whose words end with its end has no error. -/
theorem ne_error {before : List Char} {ts : List Token} (h : Lexed before (s.map .char) ts)
    (hts : ts.map Token.word = ws ++ [(.eof, "")]) : ∀ t ∈ ts, t.kind ≠ .error := by
  intro t ht
  rw [← List.dropLast_concat_getLast h.ne_nil] at ht
  rcases List.mem_append.mp ht with ht | ht
  · exact (h.inner_kind t ht).2
  · have hlast := congrArg List.getLast? hts
    rw [List.getLast?_map, List.getLast?_eq_some_getLast h.ne_nil, List.getLast?_concat,
      ← List.mem_singleton.mp ht] at hlast
    have hkind : t.kind = .eof := congrArg Prod.fst (Option.some.inj hlast)
    rw [hkind]
    decide

/-- Texts with a separator between them say what each of them says, if a comment to the end of the line is
closed. -/
theorem append (hs : Says s ws) (hc : c ∈ separators) (hend : c = '\n' ∨ ∀ w ∈ ws.getLast?, isLineComment w = false)
    (hs' : Says (c :: s') ws') : Says (s ++ c :: s') (ws ++ ws') := by
  intro before
  obtain ⟨ts, hts, hwords⟩ := hs before
  obtain ⟨us, hus, hwords'⟩ := hs' (before ++ s)
  have hdrop : ts.dropLast.map Token.word = ws := by
    rw [List.map_dropLast, hwords, List.dropLast_concat]
  refine ⟨ts.dropLast ++ us, ?_, by rw [List.map_append, hdrop, hwords', List.append_assoc]⟩
  rw [List.map_append]
  refine hts.join rfl (ne_error hts hwords) hc (hend.imp id fun h t ht => h _ ?_) hus
  rw [← hdrop, List.getLast?_map, ht]
  rfl

/-- A blank in front says nothing. -/
theorem behind_blank (hc : isSpace c = true) (hs : Says s ws) : Says (c :: s) ws := by
  intro before
  obtain ⟨ts, hts, hwords⟩ := hs (before ++ [c])
  exact ⟨ts, Lexed.behind_blank (show ∀ d ∈ [c], _ by simpa using hc) hts, hwords⟩

/-- A text without an error says something. -/
theorem of_lexed {before : List Char} {gs : List Glyph} {ts : List Token} (h : Lexed before gs ts)
    (hok : ∀ t ∈ ts, t.kind ≠ .error) : ∃ s, gs = s.map .char ∧ Says s (ts.dropLast.map Token.word) := by
  obtain ⟨s, rfl, divided⟩ := h.divided hok
  refine ⟨s, rfl, fun before' => ?_⟩
  obtain ⟨ts', hts', hwords⟩ := h.moved before'
  refine ⟨ts', hts', ?_⟩
  have hlast := Option.some.inj ((List.getLast?_eq_some_getLast h.ne_nil).symm.trans divided.getLast)
  conv_lhs => rw [hwords, ← List.dropLast_concat_getLast h.ne_nil, hlast]
  rw [List.map_append]
  rfl

/-- What comes next in the buffer of a text. -/
theorem buffer (hs : Says s ws) (source : Source) :
    (Buffer.ofGlyphs source (s.map .char)).ahead.map Token.word = ws.filter (·.1 ≠ .comment) ∧
      (Buffer.ofGlyphs source (s.map .char)).final.kind = .eof := by
  obtain ⟨ts, hts, hwords⟩ := hs []
  obtain ⟨us, es, rfl, rfl, hes⟩ := List.map_eq_append_iff.mp hwords
  obtain ⟨e, rfl, he⟩ := List.map_eq_singleton_iff.mp hes
  have hkind : e.kind = .eof := congrArg Prod.fst he
  have htokens := hts.tokens_eq { source, rest := s.map .char } rfl rfl
  rw [Buffer.ofGlyphs, Buffer.ofTokens, htokens]
  exact ⟨by simp [List.filter_append, List.filter_map, hkind]; rfl, by simp [List.filter_append, hkind]⟩

/-- The buffer of a text ends with the end of the text if the text has no error. -/
theorem of_buffer {source : Source} {gs : List Glyph} (h : (Buffer.ofGlyphs source gs).final.kind = .eof) :
    ∃ s ws, gs = s.map .char ∧ Says s ws := by
  have lexed := Cursor.tokens_lexed { source, rest := gs } [] rfl
  obtain ⟨us, e, htokens, hlast⟩ := lexed.exists_last
  have hcomment : e.kind ≠ .comment := by
    intro h
    rw [h] at hlast
    cases hlast
  have hfinal : (Buffer.ofGlyphs source gs).final = e := by
    rw [Buffer.ofGlyphs, Buffer.ofTokens, htokens]
    simp [List.filter_append, hcomment]
  rw [htokens] at lexed
  obtain ⟨s, rfl, hs⟩ := of_lexed lexed fun t ht => by
    rcases List.mem_append.mp ht with ht | ht
    · exact (lexed.inner_kind t (by rwa [List.dropLast_concat])).2
    · rw [List.mem_singleton.mp ht, ← hfinal, h]
      decide
  exact ⟨s, _, rfl, hs⟩

end Says

/-! ## Comments at the end -/

/-- A line comment takes in all characters up to the end of its line. -/
theorem Lexeme.read_longer {m : List Char} {k : Kind} {c : Char} (hc : c ≠ '\n')
    (h : read '/' (('/' :: m).map .char) = ⟨'/' :: m, .ok k⟩) :
    read '/' (('/' :: m ++ [c]).map .char) = ⟨'/' :: m ++ [c], .ok .comment⟩ := by
  have htake {ds : List Char} : Glyph.takeChars (· != '\n') (ds.map .char) = ds.takeWhile (· != '\n') := by
    induction ds with
    | nil => rfl
    | cons d ds ih =>
      rw [List.map_cons, Glyph.takeChars, List.takeWhile_cons, ih]
  have hread (ds : List Char) : read '/' (('/' :: ds).map .char) =
      ⟨('/' :: ds).takeWhile (· != '\n'), .ok .comment⟩ := by
    rw [← htake]
    exact read_line _
  rw [hread] at h
  have hall := List.takeWhile_eq_self_iff.mp (Lexeme.mk.inj h).1
  rw [List.cons_append, hread, List.takeWhile_eq_self_iff.mpr]
  simpa [hc, or_imp, forall_and] using hall

/-- Behind a line comment that ends a text, a separator belongs to the comment. -/
theorem Lexed.longerComment {before : List Char} {gs : List Glyph} {ts : List Token} {c : Char} (h : Lexed before gs ts)
    (hc : c ∈ separators) (hne : c ≠ '\n') {as : List Char} (has : gs = as.map .char)
    (hok : ∀ t ∈ ts, t.kind ≠ .error) (hdark : ∀ d ∈ as.getLast?, isSpace d = false)
    (hlast : ∃ t, ts.dropLast.getLast? = some t ∧ isLineComment t.word = true) :
    ∃ t e, Lexed before ((as ++ [c]).map .char) (ts.dropLast.dropLast ++ [t, e]) ∧ t.kind = .comment ∧
      e.word = (.eof, "") := by
  induction h generalizing as with
  | eof | stray | error =>
    obtain ⟨t, ht, -⟩ := hlast
    cases ht
  | @piece before gap first more gs kind ts blank reads rest ih =>
    obtain ⟨bs, rfl, hbs⟩ := exists_of_append_eq_map gap has
    obtain ⟨ds, rfl, rfl⟩ := exists_of_append_eq_map (first :: more) (show _ ++ gs = _ by simpa using hbs)
    have hdark' : ∀ d ∈ ds.getLast?, isSpace d = false := by
      intro d hd
      refine hdark d ?_
      rw [Option.mem_def] at hd ⊢
      rw [← List.append_assoc, List.getLast?_append, hd]
      rfl
    rw [List.dropLast_cons_of_ne_nil rest.ne_nil] at hlast ⊢
    cases hinner : ts.dropLast with
    | nil =>
      -- This is the line comment, and nothing stands behind it.
      rw [hinner] at hlast
      obtain ⟨t, ht, hcomment⟩ := hlast
      rw [List.getLast?_singleton] at ht
      obtain rfl := Option.some.inj ht
      obtain ⟨hkind, hslashes⟩ := Bool.and_eq_true_iff.mp hcomment
      obtain rfl : ds = [] := by
        obtain ⟨text, htext, divided⟩ := rest.divided fun t ht => hok t (List.mem_cons_of_mem _ ht)
        obtain rfl := List.map_injective_iff.mpr (fun _ _ h => Glyph.char.inj h) htext
        cases divided with
        | eof blank =>
          by_contra hds
          have hlast := List.getLast?_eq_some_getLast hds
          have := blank _ (List.mem_of_getLast? hlast)
          rw [hdark' _ hlast] at this
          cases this
        | piece _ _ rest' =>
          rw [List.dropLast_cons_of_ne_nil] at hinner
          · cases hinner
          · rintro rfl
            cases rest'.getLast
      obtain ⟨rfl, m, rfl⟩ : first = '/' ∧ ∃ m, more = '/' :: m := by
        simp only [Token.word, String.toList_ofList] at hslashes
        obtain ⟨m, hm⟩ := List.isPrefixOf_iff_prefix.mp hslashes
        obtain ⟨rfl, hmore⟩ := List.cons.inj hm
        exact ⟨rfl, m, hmore.symm⟩
      refine ⟨⟨.comment, String.ofList ('/' :: ('/' :: m ++ [c])), .behind (before ++ gap)⟩,
        ⟨.eof, "", .behind (before ++ gap ++ ('/' :: ('/' :: m ++ [c])))⟩, ?_, rfl, rfl⟩
      have hreads : Lexeme.Reads '/' ('/' :: m ++ [c]) [] (.ok .comment) := by
        refine ⟨reads.dark, ?_⟩
        rw [List.append_nil]
        exact Lexeme.read_longer hne (by simpa using reads.read)
      have hend : Lexed (before ++ gap ++ ('/' :: ('/' :: m ++ [c]))) [] _ := @Lexed.eof _ [] (by simp)
      simpa using Lexed.piece blank hreads hend
    | cons u us =>
      rw [hinner, List.getLast?_cons_cons] at hlast
      obtain ⟨t, e, hlexed, ht, he⟩ := ih rfl (fun t ht => hok t (List.mem_cons_of_mem _ ht)) hdark' (by rwa [hinner])
      have hreads : Lexeme.Reads first more ((ds ++ [c]).map .char) (.ok kind) := by
        refine ⟨reads.dark, ?_⟩
        rw [List.map_append, ← List.append_assoc]
        refine Lexeme.read_separated hc reads.read (fun _ _ _ => .inr ?_) []
        rw [List.length_append, List.length_map, List.length_map]
        refine Nat.lt_add_of_pos_right (List.length_pos_iff.mpr ?_)
        rintro rfl
        rw [rest.dropLast_of_blank (fun _ h => absurd h List.not_mem_nil)] at hinner
        cases hinner
      rw [hinner] at hlexed
      refine ⟨t, e, ?_, ht, he⟩
      simpa using Lexed.piece blank hreads hlexed

/-- A separator behind a comment to the end of the line makes the comment longer. -/
theorem Says.longerComment {s : List Char} {ws : List (Kind × String)} {c : Char} (h : Says s ws) (hc : c ∈ separators)
    (hne : c ≠ '\n') (hdark : ∀ d ∈ s.getLast?, isSpace d = false) (hlast : ws.getLast?.any isLineComment = true) :
    ∃ vs, Says (s ++ [c]) vs ∧ vs.filter (·.1 ≠ .comment) = ws.filter (·.1 ≠ .comment) := by
  obtain ⟨ts, hts, hwords⟩ := h []
  have hdrop : ts.dropLast.map Token.word = ws := by rw [List.map_dropLast, hwords, List.dropLast_concat]
  rw [← hdrop, List.getLast?_map, Option.any_map] at hlast
  obtain ⟨t, ht, hcomment⟩ := (Option.any_eq_true _ _).mp hlast
  obtain ⟨t', e, hlexed, hkind, he⟩ := hts.longerComment hc hne rfl (Says.ne_error hts hwords) hdark ⟨t, ht, hcomment⟩
  obtain ⟨us, hus⟩ := List.getLast?_eq_some_iff.mp ht
  rw [hus, List.dropLast_concat] at hlexed
  -- the longer text has the tokens of the shorter one up to the last comment, so none of them is an error
  have hfine : ∀ u ∈ us ++ [t', e], u.kind ≠ .error := by
    intro u hu
    rcases List.mem_append.mp hu with hu | hu
    · exact (hts.inner_kind u (hus ▸ List.mem_append_left _ hu)).2
    · have hend : e.kind = .eof := congrArg Prod.fst he
      rcases List.mem_pair.mp hu with rfl | rfl
      · rw [hkind]
        decide
      · rw [hend]
        decide
  obtain ⟨s', hs', hsays⟩ := Says.of_lexed hlexed hfine
  obtain rfl := List.map_injective_iff.mpr (fun _ _ h => Glyph.char.inj h) hs'
  refine ⟨_, hsays, ?_⟩
  have hlast : t.kind = .comment := beq_iff_eq.mp (Bool.and_eq_true_iff.mp hcomment).1
  have hwords : (us ++ [t', e]).dropLast = us ++ [t'] := by
    rw [show us ++ [t', e] = us ++ [t'] ++ [e] by simp, List.dropLast_concat]
  rw [← hdrop, hus, hwords]
  simp [List.filter_append, hlast, Token.word, hkind]

end Token

end Ceylon
