import Ceylon.Proofs.Placing

/-!
# Going back in a buffer

A mark is a position and nothing else: going back to it puts the position right and takes for the token read
last the one before the position (`Buffer.behind?`).  No answer of a buffer depends on the token read last, so that from
then on a buffer answers as it did at the mark (`Client.run_withCurrent`).  The token read last is the one before the
position, too, as long as the last token has not been read, which is not passed (`Client.Proper`).  So a buffer that has
read its last token, and only such a buffer, is not the same as before.
-/

namespace Ceylon.Token

/-- The tokens that are read of a stream: those up to the first one that ends it. -/
def Closes (ts : List Token) : Prop :=
  ∃ words last, ts = words ++ [last] ∧ last.kind.isLast = true ∧ ∀ t ∈ words, t.kind.isLast = false

namespace Buffer

variable {b : Buffer}

/-- Reads the next token if it is of one of the kinds, which are tried in turn. -/
def acceptKind? (b : Buffer) : List Kind → Option Buffer
  | [] => none
  | k :: ks => b.accept? (·.kind = k) <|> b.acceptKind? ks

theorem acceptKind?_eq (b : Buffer) (ks : List Kind) : b.acceptKind? ks = b.accept? (·.kind ∈ ks) := by
  induction ks with
  | nil => simp [acceptKind?, accept?]
  | cons k ks ih =>
    rw [acceptKind?, ih, accept?, accept?, accept?]
    by_cases hk : b.peek.kind = k <;> simp [hk]

/-- The token before the reading position. -/
def behind? (b : Buffer) : Option Token :=
  match b.pos with
  | 0 => none
  | n + 1 => some (b.tokens[n]?.getD b.final)

/-- The buffer with another token as the one read last. -/
def withCurrent (b : Buffer) (t : Option Token) : Buffer :=
  { b with current := t }

theorem reset_pos (b : Buffer) : b.reset b.pos = b.withCurrent b.behind? := by
  obtain ⟨source, tokens, final, comments, pos, current, ahead, hahead⟩ := b
  subst hahead
  rfl

theorem reset_scan (b : Buffer) (m : Nat) : b.scan.2.reset m = b.reset m := by
  rw [scan]
  split <;> rfl

/-- Either nothing is ahead, and the last token comes next, or the next token is the one at the position. -/
theorem peek_cases (hpos : b.pos ≤ b.tokens.size) :
    (b.ahead.isEmpty = true ∧ b.pos = b.tokens.size ∧ b.peek = b.final) ∨
      (b.ahead.isEmpty = false ∧ b.pos < b.tokens.size ∧ b.tokens[b.pos]? = some b.peek) := by
  have hnext : b.ahead[0]? = b.tokens[b.pos]? := by
    rw [b.ahead_eq, List.getElem?_drop, Nat.add_zero, Array.getElem?_toList]
  cases hahead : b.ahead with
  | nil =>
    rw [hahead, List.getElem?_nil, eq_comm, Array.getElem?_eq_none_iff] at hnext
    exact .inl ⟨rfl, by omega, by rw [peek, peekAt, hahead]; rfl⟩
  | cons t ts =>
    rw [hahead, List.getElem?_cons_zero, eq_comm] at hnext
    have hpeek : b.peek = t := by rw [peek, peekAt, hahead]; rfl
    exact .inr ⟨rfl, (Array.getElem?_eq_some_iff.mp hnext).1, by rw [hnext, hpeek]⟩

end Buffer

/-! ## Clients of a buffer -/

/-- What can be asked of a buffer. -/
inductive Request where
  | peek
  | lookAt (distance : Int)
  | atEnd
  | comments
  | scan
  | accept (p : Token → Bool)
  | acceptKind (kinds : List Kind)
  | mark
  /-- To go back to the mark that was set as number `i`. -/
  | reset (i : Nat)

/-- What a buffer says to that. -/
inductive Answer where
  | token (t : Token)
  | tokens (ts : List Token)
  | truth (b : Bool)
  | place (pos : Nat)
  | done

/-- A buffer and the marks that were set in it, in turn. -/
structure Client where
  buffer : Buffer
  marks : List Nat := []

namespace Client

/-- The client of a buffer that was made of the tokens. -/
def start (source : Source) (ts : List Token) : Client :=
  { buffer := .ofTokens source ts }

/-- The client whose buffer has read a token, if it could. -/
def offer (c : Client) : Option Buffer → Answer × Client
  | some b => (.truth true, { c with buffer := b })
  | none => (.truth false, c)

/-- Asks one thing. -/
def perform (c : Client) : Request → Answer × Client
  | .peek => (.token c.buffer.peek, c)
  | .lookAt distance => (.token (c.buffer.lookAt distance), c)
  | .atEnd => (.truth c.buffer.atEnd, c)
  | .comments => (.tokens c.buffer.comments, c)
  | .scan => (.truth c.buffer.scan.1, { c with buffer := c.buffer.scan.2 })
  | .accept p => c.offer (c.buffer.accept? p)
  | .acceptKind kinds => c.offer (c.buffer.acceptKind? kinds)
  | .mark => (.place c.buffer.pos, { c with marks := c.marks ++ [c.buffer.pos] })
  | .reset i =>
    match c.marks[i]? with
    | some m => (.done, { c with buffer := c.buffer.reset m })
    | none => (.done, c)

/-- Asks one thing after the other. -/
def run (c : Client) : List Request → List Answer × Client
  | [] => ([], c)
  | r :: rs => ((c.perform r).1 :: ((c.perform r).2.run rs).1, ((c.perform r).2.run rs).2)

/-! ### The text stays -/

theorem perform_reset (c : Client) (r : Request) (m : Nat) :
    (c.perform r).2.buffer.reset m = c.buffer.reset m := by
  have haccept (p : Token → Bool) : (c.offer (c.buffer.accept? p)).2.buffer.reset m = c.buffer.reset m := by
    rw [Buffer.accept?]
    split <;> rfl
  cases r with
  | peek | lookAt | atEnd | comments | mark => rfl
  | scan => exact c.buffer.reset_scan m
  | accept p => exact haccept p
  | acceptKind kinds =>
    rw [perform, Buffer.acceptKind?_eq]
    exact haccept _
  | reset i =>
    rw [perform]
    split <;> rfl

/-- Whatever is asked in between, going back leads to the same buffer. -/
theorem run_reset (c : Client) (rs : List Request) (m : Nat) :
    (c.run rs).2.buffer.reset m = c.buffer.reset m := by
  induction rs generalizing c with
  | nil => rfl
  | cons r rs ih => exact (ih _).trans (c.perform_reset r m)

/-! ### The token read last -/

/-- Positions and marks are in the text, and the token read last is the one before the position, unless it is the
last one of the text. -/
structure Proper (c : Client) : Prop where
  final : c.buffer.final.kind.isLast = true
  words : ∀ t ∈ c.buffer.tokens, t.kind.isLast = false
  pos_le : c.buffer.pos ≤ c.buffer.tokens.size
  marks_le : ∀ m ∈ c.marks, m ≤ c.buffer.tokens.size
  current : c.buffer.current = c.buffer.behind? ∨
    c.buffer.pos = c.buffer.tokens.size ∧ c.buffer.current = some c.buffer.final

theorem start_proper (source : Source) {ts : List Token} (closes : Closes ts) : (start source ts).Proper := by
  obtain ⟨words, last, rfl, hlast, hwords⟩ := closes
  have hword : last.kind ≠ .comment := by
    intro h
    rw [h] at hlast
    cases hlast
  have hread : (words ++ [last]).filter (·.kind ≠ .comment) = words.filter (·.kind ≠ .comment) ++ [last] := by
    rw [List.filter_append, List.filter_cons_of_pos (by simpa using hword), List.filter_nil]
  have hfinal : (start source (words ++ [last])).buffer.final = last :=
    (congrArg (List.getLastD · default) hread).trans List.getLastD_concat
  have htokens : (start source (words ++ [last])).buffer.tokens = (words.filter (·.kind ≠ .comment)).toArray :=
    congrArg List.toArray ((congrArg List.dropLast hread).trans List.dropLast_concat)
  refine ⟨by rwa [hfinal], ?_, Nat.zero_le _, List.forall_mem_nil _, .inl rfl⟩
  rw [htokens]
  intro t ht
  exact hwords t (List.mem_filter.mp (List.mem_toArray.mp ht)).1

namespace Proper

variable {c : Client}

theorem advance (h : c.Proper) : Proper { c with buffer := c.buffer.advance } := by
  refine ⟨h.final, h.words, ?_, h.marks_le, ?_⟩
  all_goals obtain ⟨hahead, hpos, hpeek⟩ | ⟨hahead, hpos, hpeek⟩ := Buffer.peek_cases h.pos_le
  · simpa only [Buffer.advance, hahead, if_true] using h.pos_le
  · simpa only [Buffer.advance, hahead, Bool.false_eq_true, if_false] using Nat.succ_le_of_lt hpos
  · refine .inr ⟨?_, congrArg some hpeek⟩
    simpa only [Buffer.advance, hahead, if_true] using hpos
  · refine .inl ?_
    simp only [Buffer.advance, Buffer.behind?, hahead, Bool.false_eq_true, if_false, hpeek, Option.getD_some]

/-- Only the last token ends a text. -/
theorem pos_of_atEnd (h : c.Proper) (hend : c.buffer.atEnd = true) :
    c.buffer.pos = c.buffer.tokens.size ∧ c.buffer.peek = c.buffer.final := by
  obtain ⟨-, hpos, hpeek⟩ | ⟨-, -, hpeek⟩ := Buffer.peek_cases h.pos_le
  · exact ⟨hpos, hpeek⟩
  · have hword := h.words _ (Array.mem_of_getElem? hpeek)
    rw [of_decide_eq_true hend] at hword
    cases hword

theorem scan (h : c.Proper) : Proper { c with buffer := c.buffer.scan.2 } := by
  rw [Buffer.scan]
  split
  · next hend =>
    obtain ⟨hpos, hpeek⟩ := h.pos_of_atEnd hend
    exact ⟨h.final, h.words, h.pos_le, h.marks_le, .inr ⟨hpos, congrArg some hpeek⟩⟩
  · exact h.advance

theorem accept (h : c.Proper) (p : Token → Bool) : (c.offer (c.buffer.accept? p)).2.Proper := by
  rw [Buffer.accept?]
  split
  · exact h.advance
  · exact h

theorem perform (h : c.Proper) (r : Request) : (c.perform r).2.Proper := by
  cases r with
  | peek | lookAt | atEnd | comments => exact h
  | scan => exact h.scan
  | accept p => exact h.accept p
  | acceptKind kinds =>
    rw [Client.perform, Buffer.acceptKind?_eq]
    exact h.accept _
  | mark =>
    refine ⟨h.final, h.words, h.pos_le, fun m hm => ?_, h.current⟩
    obtain hm | hm := List.mem_append.mp hm
    · exact h.marks_le m hm
    · exact List.mem_singleton.mp hm ▸ h.pos_le
  | reset i =>
    rw [Client.perform]
    split
    · next m hm =>
      exact ⟨h.final, h.words, h.marks_le m (List.mem_of_getElem? hm), h.marks_le, .inl rfl⟩
    · exact h

theorem run (h : c.Proper) (rs : List Request) : (c.run rs).2.Proper := by
  induction rs generalizing c with
  | nil => exact h
  | cons r rs ih => exact ih (h.perform r)

/-- The last token is not before any position. -/
theorem behind?_ne (h : c.Proper) : c.buffer.behind? ≠ some c.buffer.final := by
  have hpos := h.pos_le
  rw [Buffer.behind?]
  split
  · exact (Option.some_ne_none _).symm
  · next n hn =>
    have hword := h.words c.buffer.tokens[n] (Array.getElem_mem _)
    rw [Array.getElem?_eq_getElem (by omega), Option.getD_some]
    intro hlast
    rw [Option.some.inj hlast, h.final] at hword
    cases hword

/-- Going back to where one is changes nothing, unless the last token was read. -/
theorem reset_pos_iff (h : c.Proper) :
    c.buffer.reset c.buffer.pos = c.buffer ↔ c.buffer.current ≠ some c.buffer.final := by
  rw [Buffer.reset_pos]
  constructor
  · intro hsame hlast
    exact h.behind?_ne ((congrArg Buffer.current hsame).trans hlast)
  · intro hother
    obtain hcurrent | ⟨-, hlast⟩ := h.current
    · rw [← hcurrent]
      rfl
    · exact absurd hlast hother

end Proper

/-! ### Answers -/

/-- No answer depends on the token read last. -/
theorem perform_withCurrent (b : Buffer) (t : Option Token) (marks : List Nat) (r : Request) :
    (perform ⟨b.withCurrent t, marks⟩ r).1 = (perform ⟨b, marks⟩ r).1 ∧
      ∃ b' t' marks', (perform ⟨b, marks⟩ r).2 = ⟨b', marks'⟩ ∧
        (perform ⟨b.withCurrent t, marks⟩ r).2 = ⟨b'.withCurrent t', marks'⟩ := by
  have haccept (p : Token → Bool) :
      (offer ⟨b.withCurrent t, marks⟩ ((b.withCurrent t).accept? p)).1 = (offer ⟨b, marks⟩ (b.accept? p)).1 ∧
      ∃ b' t' marks', (offer ⟨b, marks⟩ (b.accept? p)).2 = ⟨b', marks'⟩ ∧
        (offer ⟨b.withCurrent t, marks⟩ ((b.withCurrent t).accept? p)).2 = ⟨b'.withCurrent t', marks'⟩ := by
    have hpeek : (b.withCurrent t).peek = b.peek := rfl
    rw [Buffer.accept?, Buffer.accept?, hpeek]
    split
    · exact ⟨rfl, b.advance, b.peek, marks, rfl, rfl⟩
    · exact ⟨rfl, b, t, marks, rfl, rfl⟩
  -- The current token is only ever written: by `accept` and `scan` with what is peeked at, by `reset` with
  -- what the mark says.
  cases r with
  | peek | lookAt | atEnd | comments => exact ⟨rfl, b, t, marks, rfl, rfl⟩
  | mark => exact ⟨rfl, b, t, marks ++ [b.pos], rfl, rfl⟩
  | scan =>
    have hend : (b.withCurrent t).atEnd = b.atEnd := rfl
    rw [perform, perform, Buffer.scan, Buffer.scan, hend]
    split
    · exact ⟨rfl, b.withCurrent b.peek, b.peek, marks, rfl, rfl⟩
    · exact ⟨rfl, b.advance, b.peek, marks, rfl, rfl⟩
  | accept p => exact haccept p
  | acceptKind kinds =>
    rw [perform, perform, Buffer.acceptKind?_eq, Buffer.acceptKind?_eq]
    exact haccept _
  | reset i =>
    rw [perform, perform]
    cases marks[i]? with
    | some m => exact ⟨rfl, b.reset m, (b.reset m).current, marks, rfl, rfl⟩
    | none => exact ⟨rfl, b, t, marks, rfl, rfl⟩

theorem run_withCurrent (b : Buffer) (t : Option Token) (marks : List Nat) (rs : List Request) :
    (run ⟨b.withCurrent t, marks⟩ rs).1 = (run ⟨b, marks⟩ rs).1 := by
  induction rs generalizing b t marks with
  | nil => rfl
  | cons r rs ih =>
    obtain ⟨hanswer, b', t', marks', hnext, hnext'⟩ := perform_withCurrent b t marks r
    rw [run, run, hanswer, hnext, hnext', ih]

/-! ## Marks -/

/-- Whatever is asked before and after a mark, going back to it leads to the same position and to the same answers from
there on.  It leads to the same buffer, with the same token read last, unless the last token of the text had been
read. -/
theorem reset_restores (source : Source) {ts : List Token} (closes : Closes ts) (before after : List Request)
    {b b' : Buffer} {marks marks' : List Nat} (hbefore : ((start source ts).run before).2 = ⟨b, marks⟩)
    (hafter : (run ⟨b, marks⟩ after).2 = ⟨b', marks'⟩) :
    (b'.reset b.pos).pos = b.pos ∧
      (∀ marks later, (run ⟨b'.reset b.pos, marks⟩ later).1 = (run ⟨b, marks⟩ later).1) ∧
      (b'.reset b.pos = b ↔ b.current ≠ some b.final) := by
  have hsame : b'.reset b.pos = b.reset b.pos := by
    have hreset := run_reset ⟨b, marks⟩ after b.pos
    rwa [hafter] at hreset
  have hproper : Proper ⟨b, marks⟩ := hbefore ▸ (start_proper source closes).run before
  rw [hsame]
  refine ⟨rfl, fun marks later => ?_, hproper.reset_pos_iff⟩
  rw [Buffer.reset_pos]
  exact run_withCurrent b b.behind? marks later

/-- A name and the end of a text. -/
def nameAndEnd : List Token :=
  [⟨.lowerName, "a", .start⟩, ⟨.eof, "", ⟨1, 1, 2⟩⟩]

/-- The buffer of a name when that has been read. -/
def nameRead : Buffer :=
  (Buffer.ofTokens ⟨"a", ""⟩ nameAndEnd).advance

/-- The buffer of a name when the end has been read, too. -/
def endRead : Buffer :=
  nameRead.scan.2

theorem reset_restores_nameRead : Closes nameAndEnd ∧
    ((start ⟨"a", ""⟩ nameAndEnd).run [.scan]).2 = ⟨nameRead, []⟩ ∧
    (run ⟨nameRead, []⟩ [.mark, .scan]).2 = ⟨endRead, [1]⟩ ∧ endRead.reset nameRead.pos = nameRead := by
  have closes : Closes nameAndEnd := ⟨[⟨.lowerName, "a", .start⟩], ⟨.eof, "", ⟨1, 1, 2⟩⟩, rfl, rfl, by decide⟩
  have hbefore : ((start ⟨"a", ""⟩ nameAndEnd).run [.scan]).2 = ⟨nameRead, []⟩ := rfl
  have hafter : (run ⟨nameRead, []⟩ [.mark, .scan]).2 = ⟨endRead, [1]⟩ := rfl
  have hother : nameRead.current ≠ some nameRead.final := by decide
  exact ⟨closes, hbefore, hafter, (reset_restores _ closes _ _ hbefore hafter).2.2.mpr hother⟩

/-- When the end has been read, a mark is set and one goes back to it, the token read last is the name. -/
theorem reset_forgets_end : ((start ⟨"a", ""⟩ nameAndEnd).run [.scan, .scan, .mark]).2 = ⟨endRead, [1]⟩ ∧
    endRead.current = some ⟨.eof, "", ⟨1, 1, 2⟩⟩ ∧ endRead.pos = 1 ∧
    (endRead.reset endRead.pos).current = some ⟨.lowerName, "a", .start⟩ :=
  ⟨rfl, rfl, rfl, rfl⟩

end Client

end Ceylon.Token
