import Mathlib.Algebra.BigOperators.Group.List.Basic
import Mathlib.Algebra.Ring.Int.Defs
import Ceylon.Prompt.Dialog
import Ceylon.Proofs.Evaluation

/-!
# The brackets that the prompt counts

The prompt counts open brackets with a search of its own, which knows literals but no comments.  On a text that
can be read in tokens it comes to what the lexer says: the tokens that are brackets are counted, and what is counted
besides is inside of comments (`openBrackets_eq`).  So there is another prompt for the same input exactly if more
brackets are opened than closed, as long as comments have none (`openBrackets_comment` has one).
-/

namespace Ceylon

open Text Token

/-- How a token of the kind changes the number of open brackets. -/
def Token.Kind.bracket : Kind → Int
  | .parenL | .braceL | .bracketL | .safeIndex => 1
  | .parenR | .braceR | .bracketR => -1
  | _ => 0

namespace Prompt

/-! ## Searching a text in pieces -/

/-- Where the search is behind a text. -/
def Scan.behind (scan : Scan) (cs : List Char) : Scan :=
  cs.foldl (fun scan c => (scan.step c).2) scan

/-- Reading two pieces of text one after the other is reading them as one. -/
theorem Scan.behind_append (scan : Scan) (cs ds : List Char) :
    scan.behind (cs ++ ds) = (scan.behind cs).behind ds :=
  List.foldl_append

/-- The count of a text is the sum over its pieces, each scanned from where the one before it ends. -/
theorem openFrom_append (scan : Scan) (cs ds : List Char) :
    openFrom scan (cs ++ ds) = openFrom scan cs + openFrom (scan.behind cs) ds := by
  induction cs generalizing scan with
  | nil => simp [openFrom, Scan.behind]
  | cons c cs ih =>
    rw [List.cons_append, openFrom, ih, openFrom, Int.add_assoc]
    rfl

/-- The search goes over a text, counts so many brackets in it, and is outside of literals before and after. -/
structure Counts (cs : List Char) (n : Int) : Prop where
  outside : Scan.outside.behind cs = .outside
  count : openFrom .outside cs = n

namespace Counts

variable {cs ds : List Char} {m n : Int}

/-- Pieces that count and leave the scan outside add up. -/
theorem append (hcs : Counts cs m) (hds : Counts ds n) : Counts (cs ++ ds) (m + n) where
  outside := by rw [Scan.behind_append, hcs.outside, hds.outside]
  count := by rw [openFrom_append, hcs.outside, hcs.count, hds.count]

/-- One character that leaves the scan outside counts by itself. -/
theorem of_step {c : Char} (hc : Scan.outside.step c = (n, .outside)) : Counts [c] n where
  outside := congrArg Prod.snd hc
  count := by rw [openFrom, openFrom, hc, Int.add_zero]

/-- Characters that say nothing to the search. -/
theorem of_idle (h : ∀ c ∈ cs, Scan.outside.step c = (0, .outside)) : Counts cs 0 := by
  induction cs with
  | nil => exact ⟨rfl, rfl⟩
  | cons c cs ih =>
    exact (of_step (h c List.mem_cons_self)).append (ih fun d hd => h d (List.mem_cons_of_mem _ hd))

end Counts

/-! ## Lexemes -/

/-- The characters that the search takes for brackets, or for the beginning of a literal. -/
def marks : List Char :=
  ['"', '\'', '\x60', '(', '\x7b', '[', ')', '\x7d', ']']

/-- A character that is no mark is passed over. -/
theorem step_of_not_mem {c : Char} (h : c ∉ marks) : Scan.outside.step c = (0, .outside) := by
  simp only [marks, List.mem_cons, List.not_mem_nil, or_false, not_or] at h
  obtain ⟨h1, h2, h3, h4, h5, h6, h7, h8, h9⟩ := h
  simp [Scan.step, h1, h2, h3, h4, h5, h6, h7, h8, h9]

/-- A class of characters without brackets and quotes. -/
theorem idle_of_class {p : Char → Bool} (hp : marks.all (!p ·) = true) {c : Char} (hc : p c = true) :
    Scan.outside.step c = (0, .outside) := by
  refine step_of_not_mem fun hmem => ?_
  have := List.all_eq_true.mp hp c hmem
  simp [hc] at this

theorem idle_of_isSpace {c : Char} (hc : isSpace c = true) : Scan.outside.step c = (0, .outside) :=
  idle_of_class (by decide) hc

theorem idle_of_isWordChar {c : Char} (hc : isWordChar c = true) : Scan.outside.step c = (0, .outside) :=
  idle_of_class (by decide) hc

theorem idle_of_isDigit {c : Char} (hc : isDigit c = true) : Scan.outside.step c = (0, .outside) :=
  idle_of_class (by decide) hc

theorem idle_of_isWordStart {c : Char} (hc : isWordStart c = true) : Scan.outside.step c = (0, .outside) :=
  idle_of_class (by decide) hc

/-- A literal that is closed ends where the search is looking for its end. -/
theorem counts_delimited {delim : Char} (hdelim : delim ≠ '\\') {gs : List Glyph}
    (hclosed : (Lexeme.delimited delim gs).2 = true) :
    (Scan.inside delim).behind (Lexeme.delimited delim gs).1 = .outside ∧
      openFrom (.inside delim) (Lexeme.delimited delim gs).1 = 0 := by
  -- The scan follows the reading of the literal: the delimiter ends both, an escape skips a character in both,
  -- and any other character stays inside in both.
  fun_induction Lexeme.delimited delim gs with
  | case1 c rest hc =>
    obtain rfl := beq_iff_eq.mp hc
    simp [Scan.behind, Scan.step, openFrom, hdelim]
  | case2 c hc hescape e rest cs closed heq ih =>
    rw [heq] at ih
    obtain ⟨hbehind, hcount⟩ := ih hclosed
    obtain rfl := beq_iff_eq.mp hescape
    refine ⟨?_, ?_⟩
    · rw [← hbehind]
      simp [Scan.behind, Scan.step]
    · simpa [openFrom, Scan.step] using hcount
  | case3 c rest _ _ _ => cases hclosed
  | case4 c rest hc hescape cs closed heq ih =>
    rw [heq] at ih
    obtain ⟨hbehind, hcount⟩ := ih hclosed
    have hc : c ≠ delim := fun h => hc (beq_iff_eq.mpr h)
    have hescape : c ≠ '\\' := fun h => hescape (beq_iff_eq.mpr h)
    refine ⟨?_, ?_⟩
    · rw [← hbehind]
      simp [Scan.behind, Scan.step, hc, hescape]
    · simpa [openFrom, Scan.step, hc, hescape] using hcount
  | case5 => cases hclosed

/-- A closed literal counts nothing, whatever it quotes. -/
theorem counts_literal {first : Char} {kind : Kind} (hquote : (first, kind) ∈ Lexeme.quotes) {gs : List Glyph}
    (hclosed : (Lexeme.delimited first gs).2 = true) :
    Counts (first :: (Lexeme.delimited first gs).1) kind.bracket := by
  obtain ⟨hescape, hstep, hbracket⟩ : first ≠ '\\' ∧ Scan.outside.step first = (0, .inside first) ∧ kind.bracket = 0 :=
    (by decide : ∀ q ∈ Lexeme.quotes, q.1 ≠ '\\' ∧ Scan.outside.step q.1 = (0, .inside q.1) ∧ q.2.bracket = 0)
      _ hquote
  obtain ⟨hbehind, hcount⟩ := counts_delimited hescape hclosed
  refine ⟨?_, ?_⟩
  · rw [Scan.behind, List.foldl_cons, hstep]
    exact hbehind
  · rw [openFrom, hstep, hbracket, hcount]
    rfl

/-- The fraction of a number is a period and digits. -/
theorem of_mem_fraction {gs : List Glyph} {c : Char} (hc : c ∈ Lexeme.fraction gs) : c = '.' ∨ isDigit c = true := by
  unfold Lexeme.fraction at hc
  split at hc
  · split at hc
    · cases hc
    · rcases List.mem_cons.mp hc with rfl | hc
      · exact .inl rfl
      · exact .inr (of_mem_takeChars hc)
  · cases hc

/-- The exponent of a number is its mark, a sign and digits. -/
theorem of_mem_exponent {gs : List Glyph} {mark digits : List Char}
    (h : Lexeme.exponent? gs = some (mark, digits)) :
    (∀ c ∈ mark, c ∈ ['e', 'E', '+', '-']) ∧ ∀ c ∈ digits, isDigit c = true := by
  unfold Lexeme.exponent? at h
  split at h
  · next e rest =>
    split at h
    · next he =>
      have he : e = 'e' ∨ e = 'E' := by simpa using he
      split at h
      · next s rest' =>
        split at h
        · next hs =>
          have hs : s = '+' ∨ s = '-' := by simpa using hs
          obtain ⟨rfl, rfl⟩ := Prod.mk.inj (Option.some.inj h)
          exact ⟨by grind, fun c hc => of_mem_takeChars hc⟩
        · obtain ⟨rfl, rfl⟩ := Prod.mk.inj (Option.some.inj h)
          exact ⟨by grind, fun c hc => of_mem_takeChars hc⟩
      · obtain ⟨rfl, rfl⟩ := Prod.mk.inj (Option.some.inj h)
        exact ⟨by grind, List.forall_mem_nil _⟩
    · cases h
  · cases h

/-- The end of a number adds word characters at most. -/
theorem of_mem_endNumber {more : List Char} {kind : Kind} {gs : List Glyph} {c : Char}
    (hc : c ∈ (Lexeme.endNumber more kind gs).more) : c ∈ more ∨ isWordChar c = true := by
  unfold Lexeme.endNumber at hc
  split at hc
  · next d _ =>
    split at hc
    · next hd =>
      rcases List.mem_append.mp hc with hc | hc
      · exact .inl hc
      · obtain rfl := List.mem_singleton.mp hc
        exact .inr hd
    · exact .inl hc
  · exact .inl hc

/-- What a number is made of says nothing to the search. -/
theorem idle_of_mem_number {gs : List Glyph} {c : Char} (hc : c ∈ (Lexeme.number gs).more) :
    Scan.outside.step c = (0, .outside) := by
  have hsign : ∀ c ∈ ['e', 'E', '+', '-', '.'], Scan.outside.step c = (0, .outside) := by
    simp [Scan.step]
  have hmantissa : ∀ d ∈ Glyph.takeChars isDigit gs ++
      Lexeme.fraction (gs.drop (Glyph.takeChars isDigit gs).length), Scan.outside.step d = (0, .outside) := by
    intro d hd
    rcases List.mem_append.mp hd with hd | hd
    · exact idle_of_isDigit (of_mem_takeChars hd)
    · rcases of_mem_fraction hd with rfl | hd
      · exact hsign _ (by decide)
      · exact idle_of_isDigit hd
  simp only [Lexeme.number] at hc
  generalize Glyph.takeChars isDigit gs ++ Lexeme.fraction (gs.drop (Glyph.takeChars isDigit gs).length) =
    mantissa at hc hmantissa
  -- the exponent is the one part of a number with a sign, and no sign is a bracket or a quote
  have hmark : ∀ {mark digits : List Char}, Lexeme.exponent? (gs.drop mantissa.length) = some (mark, digits) →
      ∀ d ∈ mark ++ digits, Scan.outside.step d = (0, .outside) := by
    intro mark digits h d hd
    obtain ⟨hmark, hdigits⟩ := of_mem_exponent h
    rcases List.mem_append.mp hd with hd | hd
    · exact hsign d (List.mem_append_left ['.'] (hmark d hd))
    · exact idle_of_isDigit (hdigits d hd)
  split at hc
  · next mark hexp =>
    rcases List.mem_append.mp hc with hc | hc
    · exact hmantissa c hc
    · exact hmark hexp c (by simpa using hc)
  · next mark digits _ hexp =>
    rcases of_mem_endNumber hc with hc | hc
    · rw [List.append_assoc] at hc
      rcases List.mem_append.mp hc with hc | hc
      · exact hmantissa c hc
      · exact hmark hexp c hc
    · exact idle_of_isWordChar hc
  · rcases of_mem_endNumber hc with hc | hc
    · exact hmantissa c hc
    · exact idle_of_isWordChar hc

instance (cs : List Char) (n : Int) : Decidable (Counts cs n) :=
  decidable_of_iff (Scan.outside.behind cs = .outside ∧ openFrom .outside cs = n)
    ⟨fun h => ⟨h.1, h.2⟩, fun h => ⟨h.outside, h.count⟩⟩

/-- Punctuation is one bracket or none. -/
theorem counts_operators : ∀ kind ∈ operators, Counts kind.text.toList kind.bracket := by
  decide

/-- A lexeme that is no comment counts as much as its kind says. -/
theorem counts_of_reads {first : Char} {more : List Char} {gs : List Glyph} {kind : Kind}
    (reads : Lexeme.Reads first more gs (.ok kind)) (hcomment : kind ≠ .comment) :
    Counts (first :: more) kind.bracket := by
  suffices h : ∀ l, Lexeme.read first (more.map .char ++ gs) = l → l.kind = .ok kind →
      Counts (first :: l.more) kind.bracket from h _ reads.read rfl
  rintro l rfl
  -- By the way the lexeme is read. A quoted one is closed because it is no error; the words and numbers are
  -- idle; only punctuation counts.
  refine Lexeme.read_cases (P := fun l => l.kind = .ok kind → Counts (first :: l.more) kind.bracket) first _
    ?line ?block ?quoted ?digits ?letters ?marks
  case line =>
    rintro - rest - ⟨⟩
    exact absurd rfl hcomment
  case block =>
    rintro - rest - h
    dsimp only at h
    split at h
    · exact absurd (Except.ok.inj h).symm hcomment
    · cases h
  case quoted =>
    intro k what hquote h
    obtain ⟨rfl, hclosed⟩ := Lexeme.kind_of_literal h
    exact counts_literal hquote hclosed
  case digits =>
    intro hdigit h
    have hbracket := (by decide : ∀ k ∈ [Kind.float, .natural], k.bracket = 0) kind (Lexeme.kind_of_number h)
    rw [hbracket]
    exact .of_idle (List.forall_mem_cons.mpr ⟨idle_of_isDigit hdigit, fun c hc => idle_of_mem_number hc⟩)
  case letters =>
    intro hletter h
    have hbracket := (by decide : ∀ k ∈ Kind.upperName :: .lowerName :: Kind.keywords, k.bracket = 0) kind
      (Lexeme.kind_of_word h)
    rw [hbracket]
    exact .of_idle (List.forall_mem_cons.mpr ⟨idle_of_isWordStart hletter, fun c hc =>
      idle_of_isWordChar (of_mem_takeChars hc)⟩)
  case marks =>
    intro h
    obtain ⟨hmem, hspelled⟩ := Lexeme.kind_of_punctuation h
    rw [← hspelled]
    exact counts_operators kind hmem

/-! ## Texts -/

/-- The number of brackets that tokens open, less those that they close. -/
def bracketsOf (ts : List Token) : Int :=
  (ts.map (·.kind.bracket)).sum

/-- The number of brackets that are counted in comments. -/
def bracketsInComments (ts : List Token) : Int :=
  ((ts.filter (·.kind = .comment)).map (openBrackets ·.text)).sum

/-- No comment makes the search believe that a literal begins and does not end. -/
def CommentsClosed (ts : List Token) : Prop :=
  ∀ t ∈ ts, t.kind = .comment → Scan.outside.behind t.text.toList = .outside

/-- A token text counts its brackets and a closed comment what it contributes; white space counts nothing. So
the texts of a buffer without an error token add up. -/
theorem counts_of_lexed {before : List Char} {gs : List Glyph} {ts : List Token} (h : Lexed before gs ts)
    (hok : ∀ t ∈ ts, t.kind ≠ .error) (hcomments : CommentsClosed ts) {cs : List Char}
    (hcs : gs = cs.map .char) : Counts cs (bracketsOf ts + bracketsInComments ts) := by
  induction h generalizing cs with
  | eof blank =>
    obtain rfl := List.map_injective_iff.mpr (fun _ _ h => Glyph.char.inj h) hcs
    exact .of_idle fun c hc => idle_of_isSpace (blank c hc)
  | stray => exact absurd rfl (hok _ List.mem_cons_self)
  | error => exact absurd rfl (hok _ List.mem_cons_self)
  | @piece before gap first more gs kind ts blank reads _ ih =>
    obtain ⟨hclosed, hcomments⟩ := List.forall_mem_cons.mp hcomments
    obtain ⟨rest, rfl, rfl⟩ := exists_of_append_eq_map (gap ++ first :: more) (by simpa using hcs)
    have hgap : Counts gap 0 := .of_idle fun c hc => idle_of_isSpace (blank c hc)
    have hrest := ih (fun t ht => hok t (List.mem_cons_of_mem _ ht)) hcomments rfl
    -- A comment counts as it is spelled.  Any other token counts by its kind.
    by_cases hcomment : kind = .comment
    · subst hcomment
      have hlexeme : Counts (first :: more) (openBrackets (String.ofList (first :: more))) :=
        ⟨by simpa using hclosed rfl, by rw [openBrackets, String.toList_ofList]⟩
      convert (hgap.append hlexeme).append hrest using 1
      simp [bracketsOf, bracketsInComments, Kind.bracket]
      omega
    · convert (hgap.append (counts_of_reads reads hcomment)).append hrest using 1
      simp [bracketsOf, bracketsInComments, hcomment]
      omega

/-- The tokens of a text that is entered at the prompt. -/
def tokensOf (s : String) : List Token :=
  ({ source := { name := inputName }, rest := Glyph.ofString s } : Cursor).tokens 0

/-- There is another prompt for the same input if brackets are open, and else nothing is pending. -/
theorem Session.pending_enter (s : Session) (palette : Report.Palette) (pending line : String) :
    (s.enter palette pending line).2.1 =
      if openBrackets (addLine pending line) > 0 then addLine pending line else "" := by
  unfold Session.enter
  dsimp only
  split <;> rfl

/-- On a text that can be read in tokens, the prompt counts the brackets among these and those inside of comments.
It continues with another line exactly if there are more that open than that close. -/
theorem openBrackets_eq (text : String) (hok : ∀ t ∈ tokensOf text, t.kind ≠ .error)
    (hcomments : CommentsClosed (tokensOf text)) :
    openBrackets text = bracketsOf (tokensOf text) + bracketsInComments (tokensOf text) ∧
      ∀ (s : Session) palette pending line, Session.addLine pending line = text →
        (s.enter palette pending line).2.1 =
          if bracketsOf (tokensOf text) + bracketsInComments (tokensOf text) > 0 then text else "" := by
  have hcount := (counts_of_lexed (Cursor.tokens_lexed _ [] rfl) hok hcomments rfl).count
  refine ⟨hcount, fun s palette pending line hline => ?_⟩
  rw [s.pending_enter, hline]
  exact congrArg (fun n : Int => if n > 0 then text else "") hcount

/-- A call with a literal and a comment, of which two brackets are still open. -/
def openCall : String :=
  "f(\"(\", x?[1] // (y)\n, [z"

theorem tokens_openCall : tokensOf openCall =
    [⟨.lowerName, "f", ⟨0, 1, 1⟩⟩, ⟨.parenL, "(", ⟨1, 1, 2⟩⟩, ⟨.string, "\"(\"", ⟨2, 1, 3⟩⟩,
      ⟨.comma, ",", ⟨5, 1, 6⟩⟩, ⟨.lowerName, "x", ⟨7, 1, 8⟩⟩, ⟨.safeIndex, "?[", ⟨8, 1, 9⟩⟩,
      ⟨.natural, "1", ⟨10, 1, 11⟩⟩, ⟨.bracketR, "]", ⟨11, 1, 12⟩⟩, ⟨.comment, "// (y)", ⟨13, 1, 14⟩⟩,
      ⟨.comma, ",", ⟨20, 2, 1⟩⟩, ⟨.bracketL, "[", ⟨22, 2, 3⟩⟩, ⟨.lowerName, "z", ⟨23, 2, 4⟩⟩,
      ⟨.eof, "", ⟨24, 2, 5⟩⟩] :=
  Cursor.tokens_eq_of_tokensWithin (n := 20) (by decide +kernel)

theorem openBrackets_eq_openCall :
    (∀ t ∈ tokensOf openCall, t.kind ≠ .error) ∧ CommentsClosed (tokensOf openCall) ∧ openBrackets openCall = 2 := by
  have hok : ∀ t ∈ tokensOf openCall, t.kind ≠ .error := by
    rw [tokens_openCall]
    decide
  have hcomments : CommentsClosed (tokensOf openCall) := by
    rw [CommentsClosed, tokens_openCall]
    decide
  refine ⟨hok, hcomments, ?_⟩
  rw [(openBrackets_eq openCall hok hcomments).1, tokens_openCall]
  decide

/-- A bracket in a comment is taken for one that is open, although no token is a bracket. -/
theorem openBrackets_comment :
    tokensOf "// (" = [⟨.comment, "// (", ⟨0, 1, 1⟩⟩, ⟨.eof, "", ⟨4, 1, 5⟩⟩] ∧
      bracketsOf (tokensOf "// (") = 0 ∧ openBrackets "// (" = 1 := by
  have htokens : tokensOf "// (" = [⟨.comment, "// (", ⟨0, 1, 1⟩⟩, ⟨.eof, "", ⟨4, 1, 5⟩⟩] :=
    Cursor.tokens_eq_of_tokensWithin (n := 5) (by decide)
  exact ⟨htokens, by rw [htokens]; decide, by decide⟩

end Prompt

end Ceylon
