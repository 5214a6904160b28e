import Ceylon.Proofs.LookingAhead
import Ceylon.Proofs.Unmarked

/-!
# The same words in another text

What a parser makes of words does not depend on the text around them.  One text goes along with another (`Along`) as
long as both have the same words, up to a place where the first one ends or both have a mark that ends a statement.  A
parser that succeeds on the one and stays before that place succeeds on the other with the same tree, but for marks
(`Echoes`).  Look-ahead goes no further than that place either, because no type and no annotation goes on behind it.
-/

namespace Ceylon

open Token (Buffer Kind)

/-- What a token is, apart from its place. -/
def Token.word (t : Token) : Kind × String :=
  (t.kind, t.text)

namespace Token

/-! ## Where texts part -/

/-- Whether a token of the kind is the last one of a statement. -/
def Kind.closes (k : Kind) : Bool :=
  k == .semicolon || k == .braceR

/-- A token that closes a statement is neither the end of the text nor an error. -/
theorem Kind.ne_of_closes {k : Kind} (h : k.closes = true) : k ≠ .eof ∧ k ≠ .error := by
  constructor <;> (rintro rfl; cases h)

/-- What two texts have at the place where they part. -/
inductive Parting : Kind → Kind → Prop
  /-- Both have the same mark at the end of a statement. -/
  | closed {k : Kind} (h : k.closes = true) : Parting k k
  /-- The first text ends where the second one has a semicolon. -/
  | ended : Parting .eof .semicolon
  /-- Both texts end. -/
  | last : Parting .eof .eof

/-- Whether a token of the kind stands inside a statement. -/
def Kind.inner (k : Kind) : Bool :=
  !k.closes && k != .eof

/-- Where texts part, neither has a token of the inside of a statement. -/
theorem Parting.ne {k k' l : Kind} (h : Parting k k') (hl : l.inner = true) : k ≠ l ∧ k' ≠ l := by
  have hinner : ∀ k : Kind, k.closes = true ∨ k = .eof → k ≠ l := by
    rintro k hk rfl
    rcases hk with hk | rfl
    · simp [Kind.inner, hk] at hl
    · cases hl
  cases h with
  | closed h => exact ⟨hinner _ (.inl h), hinner _ (.inl h)⟩
  | ended => exact ⟨hinner _ (.inr rfl), hinner _ (.inl rfl)⟩
  | last => exact ⟨hinner _ (.inr rfl), hinner _ (.inr rfl)⟩

/-- Where texts part, the second one has no error. -/
theorem Parting.ne_error {k k' : Kind} (h : Parting k k') : k' ≠ .error :=
  (h.ne rfl).2

namespace Buffer

variable {b c : Buffer} {k m n : Nat}

/-- Tokens can be passed in two goes. -/
theorem passing_passing (b : Buffer) (m n : Nat) : (b.passing m).passing n = b.passing (m + n) := by
  rw [passing, passing, passing, Nat.add_comm, Function.iterate_add_apply]

/-- What stands behind passed tokens. -/
theorem peekAt_passing (b : Buffer) (m n : Nat) : (b.passing m).peekAt n = b.peekAt (m + n) := by
  rw [← peek_passing, passing_passing, peek_passing]

/-- How many tokens are left when some have been passed. -/
theorem length_passing (b : Buffer) (n : Nat) : (b.passing n).ahead.length = b.ahead.length - n := by
  rw [ahead_passing, List.length_drop]

/-- The number of tokens that have been passed. -/
theorem passing_inj (hm : m ≤ b.ahead.length) (hn : n ≤ b.ahead.length) (h : b.passing m = b.passing n) : m = n := by
  have hlength := congrArg (fun b : Buffer => b.ahead.length) h
  simp only [length_passing] at hlength
  omega

/-- A buffer with fewer tokens ahead has fewer remaining ones. -/
theorem remaining_le (h : b.ahead.length ≤ c.ahead.length) : b.remaining ≤ c.remaining := by
  rw [b.ahead_eq, c.ahead_eq, List.length_drop, List.length_drop, Array.length_toList, Array.length_toList] at h
  rw [remaining, remaining]
  omega

/-- The end of the text remains with the tokens that are ahead. -/
theorem remaining_eq (b : Buffer) : b.remaining = b.ahead.length + 1 := by
  rw [remaining, b.ahead_eq, List.length_drop, Array.length_toList]

/-- What is not the end of the text is passed by one step. -/
theorem length_pos (hend : b.final.kind = .eof) (h : b.peek.kind ≠ .eof) : 0 < b.ahead.length := by
  rw [List.length_pos_iff]
  intro hnil
  rw [peek, peekAt, hnil] at h
  exact h hend

/-- The second buffer has the same words as the first one for `m` tokens, and there the two texts part. -/
structure Along (m : Nat) (b c : Buffer) : Prop where
  le : m ≤ b.ahead.length
  longer : b.ahead.length ≤ c.ahead.length
  words : ∀ i < m, (c.peekAt i).word = (b.peekAt i).word
  parting : Parting (b.peekAt m).kind (c.peekAt m).kind
  /-- What comes next in the second text does not carry the statement on. -/
  past : (c.peekAt (m + 1)).kind ∉ [Kind.kwElse, .kwFail, .error]

namespace Along

/-- Texts that go along still do so when both have passed some tokens. -/
theorem passing (h : Along m b c) (hk : k ≤ m) : Along (m - k) (b.passing k) (c.passing k) where
  le := by
    have := h.le
    rw [length_passing]
    omega
  longer := by
    have := h.longer
    rw [length_passing, length_passing]
    omega
  words i hi := by
    rw [peekAt_passing, peekAt_passing]
    exact h.words _ (by omega)
  parting := by
    rw [peekAt_passing, peekAt_passing, Nat.add_sub_cancel' hk]
    exact h.parting
  past := by
    rw [peekAt_passing, ← Nat.add_assoc, Nat.add_sub_cancel' hk]
    exact h.past

/-- As far as texts go along, inner tokens are the same. -/
theorem inner_iff (h : Along m b c) (hn : n ≤ m) {l : Kind} (hl : l.inner = true) :
    (c.peekAt n).kind = l ↔ (b.peekAt n).kind = l := by
  rcases Nat.lt_or_eq_of_le hn with hlt | rfl
  · rw [(Prod.mk.inj (h.words n hlt)).1]
  · have hne := h.parting.ne hl
    exact ⟨fun h => absurd h hne.2, fun h => absurd h hne.1⟩

/-- The kinds of two tokens that stand at the same distance. -/
def Alike (k k' : Kind) : Prop :=
  k' = k ∨ (k = .eof ∧ k' = .semicolon)

theorem Alike.refl (k : Kind) : Alike k k :=
  .inl rfl

theorem Alike.iff {k k' l : Kind} (h : Alike k k') (hl : l ≠ .eof ∧ l ≠ .semicolon) : k' = l ↔ k = l := by
  rcases h with rfl | ⟨rfl, rfl⟩
  · exact Iff.rfl
  · exact ⟨fun h => absurd h.symm hl.2, fun h => absurd h.symm hl.1⟩

/-- As far as texts go along, their tokens are alike. -/
theorem alike (h : Along m b c) (hn : n ≤ m) : Alike (b.peekAt n).kind (c.peekAt n).kind := by
  rcases Nat.lt_or_eq_of_le hn with hlt | rfl
  · exact .inl (Prod.mk.inj (h.words n hlt)).1
  · have hparting := h.parting
    generalize (b.peekAt n).kind = k at hparting
    generalize (c.peekAt n).kind = k' at hparting
    cases hparting with
    | closed | last => exact .inl rfl
    | ended => exact .inr ⟨rfl, rfl⟩

/-- As far as texts go along, the second one has an error only where the first one has it. -/
theorem ne_error (h : Along m b c) (hn : n ≤ m) (hb : (b.peekAt n).kind ≠ .error) : (c.peekAt n).kind ≠ .error := by
  rcases h.alike hn with heq | ⟨-, heq⟩
  · rwa [heq]
  · rw [heq]
    decide

/-- An inner token stands before the place where the texts part. -/
theorem lt (h : Along m b c) (hn : n ≤ m) (hb : (b.peekAt n).kind.inner = true) : n < m := by
  refine Nat.lt_of_le_of_ne hn ?_
  rintro rfl
  exact (h.parting.ne hb).1 rfl

end Along

end Buffer

end Token

namespace Syntax

open Token (Parting)
open Token.Buffer (Along)
open Token.Buffer.Along (Alike)

namespace Parser

variable {α β γ δ : Type} {closed : Bool} {view : α → γ} {view' : β → δ} {b c : Buffer} {k m n : Nat}

/-! ## A parser and its echo -/

/-- A token that has been looked at is not an error. -/
theorem ne_error_of_peek {r : Token × Buffer} (h : peek.run b = .ok r) : b.peek.kind ≠ .error := by
  intro herror
  obtain ⟨_, _, hget, h⟩ := bind_ok.mp h
  cases get_ok.mp hget
  dsimp only at h
  rw [if_pos herror] at h
  exact fail_ok h

/-- The first parser passes tokens, the last one of which closes a statement if `closed` is set.  Where another text
goes along up to there, the second parser does the same, and what it returns looks the same. -/
structure Echoes (closed : Bool) (view : α → γ) (b : Buffer) (p q : Parser α) : Prop where
  passes : b.final.kind = .eof → ∀ {a b'}, p.run b = .ok (a, b') →
    ∃ k ≤ b.ahead.length, b' = b.passing k ∧
      (closed = true → ∃ l, k = l + 1 ∧ (b.peekAt l).kind.closes = true)
  echo : b.final.kind = .eof → ∀ {a k}, p.run b = .ok (a, b.passing k) → k ≤ b.ahead.length →
    ∀ {c m}, Along m b c → k ≤ m + closed.toNat → ∃ a', q.run c = .ok (a', c.passing k) ∧ view a' = view a

/-- Nothing of what has been read is looked at. -/
def unseen (_ : α) : Unit :=
  ()

namespace Echoes

/-- There is nothing to show of a parser that fails. -/
theorem of_fails {p q : Parser α} (h : ∀ r, p.run b ≠ .ok r) : Echoes closed view b p q where
  passes _ _ _ hrun := absurd hrun (h _)
  echo _ _ _ hrun := absurd hrun (h _)

/-- A parser that fails is echoed by every parser. -/
theorem fail {fault : Fault} {q : Parser α} : Echoes closed view b (Parser.fail fault) q :=
  of_fails fun _ => fail_ok

/-- Returning values that look the same. -/
theorem pure {a a' : α} (h : view a' = view a) : Echoes false view b (pure a) (pure a') where
  passes _ _ _ hrun := by
    cases pure_ok.mp hrun
    exact ⟨0, Nat.zero_le _, rfl, fun h => absurd h Bool.false_ne_true⟩
  echo _ a₁ k hrun hk c m _ _ := by
    obtain ⟨rfl, hb⟩ := Prod.mk.inj (pure_ok.mp hrun)
    obtain rfl := Buffer.passing_inj (n := 0) hk (Nat.zero_le _) hb
    exact ⟨a', rfl, h⟩

/-- A closed part may stand inside another one. -/
theorem opened {p q : Parser α} (h : Echoes closed view b p q) : Echoes false view b p q where
  passes hend _ _ hrun :=
    let ⟨k, hk, hb, _⟩ := h.passes hend hrun
    ⟨k, hk, hb, fun h => absurd h Bool.false_ne_true⟩
  echo hend _ _ hrun hk _ m halong hm := h.echo hend hrun hk halong (Nat.le_trans hm (Nat.le_add_right m _))

/-- One parser after another is echoed, if the second one is echoed wherever the first one leads. -/
theorem bind {p q : Parser α} {f g : α → Parser β} (hp : Echoes false view b p q)
    (hf : ∀ a a' b', view a' = view a → p.run b = .ok (a, b') → Echoes closed view' b' (f a) (g a')) :
    Echoes closed view' b (p >>= f) (q >>= g) where
  passes hend r b'' hrun := by
    obtain ⟨a, b', ha, hr⟩ := bind_ok.mp hrun
    -- The first parser passes `k` tokens and the second one `l` more, which makes `k + l` in all.
    obtain ⟨k, hk, rfl, -⟩ := hp.passes hend ha
    obtain ⟨l, hl, rfl, hclosed⟩ := (hf a a _ rfl ha).passes (by rw [Buffer.final_passing, hend]) hr
    rw [Buffer.length_passing] at hl
    refine ⟨k + l, by omega, Buffer.passing_passing b k l, fun h => ?_⟩
    obtain ⟨i, rfl, hi⟩ := hclosed h
    exact ⟨k + i, rfl, by rwa [Buffer.peekAt_passing] at hi⟩
  echo hend r j hrun hj c m halong hm := by
    obtain ⟨a, b', ha, hr⟩ := bind_ok.mp hrun
    obtain ⟨k, hk, rfl, -⟩ := hp.passes hend ha
    have hfinal : (b.passing k).final.kind = .eof := by rw [Buffer.final_passing, hend]
    obtain ⟨l, hl, hb, hclosed⟩ := (hf a a _ rfl ha).passes hfinal hr
    rw [Buffer.length_passing] at hl
    rw [Buffer.passing_passing] at hb
    obtain rfl := Buffer.passing_inj hj (by omega) hb
    -- The first parser stays before the place where the texts part, since the second one closes the statement.
    have hkm : k ≤ m := by
      cases closed with
      | false => exact Nat.le_trans (Nat.le_add_right k l) hm
      | true =>
        obtain ⟨i, rfl, -⟩ := hclosed rfl
        rw [Bool.toNat_true] at hm
        omega
    obtain ⟨a', ha', hview⟩ := hp.echo hend ha hk halong (by simpa using hkm)
    rw [← Buffer.passing_passing] at hr
    obtain ⟨r', hr', hview'⟩ := (hf a a' _ hview ha).echo hfinal hr (by rwa [Buffer.length_passing])
      (halong.passing hkm) (by omega)
    rw [Buffer.passing_passing] at hr'
    exact ⟨r', bind_ok.mpr ⟨a', _, ha', hr'⟩, hview'⟩

/-- A parser goes on with what is known. -/
theorem given {a a' : α} {f g : α → Parser β} (h : Echoes closed view' b (f a) (g a')) :
    Echoes closed view' b (Pure.pure a >>= f) (Pure.pure a' >>= g) := by
  rwa [pure_bind, pure_bind]

/-- Something is made of what has been read. -/
theorem map {p q : Parser α} {f g : α → β} (hp : Echoes closed view b p q)
    (hf : ∀ a a', view a' = view a → view' (g a') = view' (f a)) :
    Echoes closed view' b (p >>= fun a => Pure.pure (f a)) (q >>= fun a => Pure.pure (g a)) where
  passes hend r b' hrun := by
    obtain ⟨a, b', ha, hr⟩ := bind_ok.mp hrun
    cases pure_ok.mp hr
    exact hp.passes hend ha
  echo hend r k hrun hk c m halong hm := by
    obtain ⟨a, b', ha, hr⟩ := bind_ok.mp hrun
    cases pure_ok.mp hr
    obtain ⟨a', ha', hview⟩ := hp.echo hend ha hk halong hm
    exact ⟨g a', bind_ok.mpr ⟨a', _, ha', rfl⟩, hf _ _ hview⟩

/-- A look at the buffer. -/
theorem get {f g : Buffer → Parser α}
    (h : ∀ c, b.ahead.length ≤ c.ahead.length → Echoes closed view b (f b) (g c)) :
    Echoes closed view b (MonadState.get >>= f) (MonadState.get >>= g) where
  passes hend _ _ hrun := (h b (Nat.le_refl _)).passes hend hrun
  echo hend _ _ hrun hk c _ halong hm := (h c halong.longer).echo hend hrun hk halong hm

/-- A look at the next token. -/
theorem peek {f g : Token → Parser α} (h : ∀ t, Alike b.peek.kind t.kind → Echoes closed view b (f b.peek) (g t)) :
    Echoes closed view b (peek >>= f) (peek >>= g) where
  passes hend _ _ hrun := (h b.peek (.refl _)).passes hend (peek_bind hrun)
  echo hend _ _ hrun hk c m halong hm := by
    obtain ⟨t, b', ht, -⟩ := bind_ok.mp hrun
    have hok := ne_error_of_peek ht
    obtain ⟨a', ha', hview⟩ := (h c.peek (halong.alike (Nat.zero_le m))).echo hend (peek_bind hrun) hk halong hm
    exact ⟨a', (bind_run (peek_run (halong.ne_error (Nat.zero_le m) hok))).trans ha', hview⟩

/-- Parsers that look at the next kind may take different branches only at the end of the first text. -/
theorem peekKind {f g : Kind → Parser α} (h : ∀ k, Alike b.peek.kind k → Echoes closed view b (f b.peek.kind) (g k)) :
    Echoes closed view b (peekKind >>= f) (peekKind >>= g) := by
  rw [Parser.peekKind, bind_assoc, bind_assoc]
  refine .peek fun t ht => ?_
  rw [pure_bind, pure_bind]
  exact h _ ht

/-- A choice by the kind of the next token.  Neither the end of the text nor a semicolon is special in it. -/
theorem byKind {f g : Kind → Parser α} (h : Echoes closed view b (f b.peek.kind) (g b.peek.kind))
    (hended : b.peek.kind = .eof → Echoes closed view b (f .eof) (g .semicolon)) :
    Echoes closed view b (Parser.peekKind >>= f) (Parser.peekKind >>= g) := by
  refine .peekKind fun k hk => ?_
  obtain rfl | ⟨heof, rfl⟩ := hk
  · exact h
  · rw [heof]
    exact hended heof

/-- Where a statement goes on, the other text goes on with the same token. -/
theorem inside {f g : Kind → Parser α} (h : Echoes true view b (f b.peek.kind) (g b.peek.kind)) :
    Echoes true view b (Parser.peekKind >>= f) (Parser.peekKind >>= g) where
  passes hend _ _ hrun := h.passes hend (peekKind_bind hrun)
  echo hend a k hrun hk c m halong hm := by
    have hrun' := peekKind_bind hrun
    obtain ⟨l, hl, hb, hclosed⟩ := h.passes hend hrun'
    obtain rfl := Buffer.passing_inj hk hl hb
    obtain ⟨i, rfl, hi⟩ := hclosed rfl
    have him : i ≤ m := by simpa using hm
    -- The next token is an inner one or closes the statement, as the parser goes on to pass one that does.
    have hsame : c.peek.kind = b.peek.kind := by
      obtain heq | ⟨heof, -⟩ := halong.alike (Nat.zero_le m)
      · exact heq
      · rcases Nat.eq_zero_or_pos m with rfl | hpos
        · obtain rfl := Nat.le_zero.mp him
          rw [heof] at hi
          cases hi
        · exact (Prod.mk.inj (halong.words 0 hpos)).1
    obtain ⟨t, _, ht, -⟩ := bind_ok.mp hrun
    obtain ⟨t, _, ht, -⟩ := bind_ok.mp ht
    have hne : c.peek.kind ≠ .error := hsame ▸ ne_error_of_peek ht
    obtain ⟨a', ha', hview⟩ := h.echo hend hrun' hk halong hm
    refine ⟨a', ?_, hview⟩
    rw [bind_run (peekKind_run hne), hsame]
    exact ha'

/-- A question whether the next token is of a kind. -/
theorem ifNext {l : Kind} {p p' q q' : Parser α} (hl : l ≠ .eof ∧ l ≠ .semicolon)
    (hthen : b.peek.kind = l → Echoes closed view b p q) (helse : b.peek.kind ≠ l → Echoes closed view b p' q') :
    Echoes closed view b (Parser.peekKind >>= fun k => if k = l then p else p')
      (Parser.peekKind >>= fun k => if k = l then q else q') := by
  refine .peekKind fun k hk => ?_
  by_cases h : b.peek.kind = l
  · rw [if_pos h, if_pos ((hk.iff hl).mpr h)]
    exact hthen h
  · rw [if_neg h, if_neg (mt (hk.iff hl).mp h)]
    exact helse h

/-- Marks tell the place, which may be another one. -/
theorem here {f g : Mark → Parser α} (h : ∀ mark mark', Echoes closed view b (f mark) (g mark')) :
    Echoes closed view b (here >>= f) (here >>= g) := by
  rw [Parser.here, bind_assoc, bind_assoc]
  refine .peek fun t ht => ?_
  rw [pure_bind, pure_bind]
  exact h _ _

/-- A token is read if its kind will do. -/
theorem read {p : Parser Token} {P : Kind → Prop} (hne : P b.peek.kind → b.peek.kind ≠ .eof)
    (hok : ∀ {r}, p.run b = .ok r → P b.peek.kind)
    (hrun : ∀ c : Buffer, P c.peek.kind → p.run c = .ok (c.peek, c.advance)) : Echoes false Token.word b p p where
  passes hend _ _ h := by
    have hkind := hok h
    cases h.symm.trans (hrun b hkind)
    exact ⟨1, Buffer.length_pos hend (hne hkind), rfl, fun h => absurd h Bool.false_ne_true⟩
  echo hend a k h hk c m halong hm := by
    have hkind := hok h
    obtain ⟨rfl, hb⟩ := Prod.mk.inj (Except.ok.inj (h.symm.trans (hrun b hkind)))
    obtain rfl := Buffer.passing_inj (n := 1) hk (Buffer.length_pos hend (hne hkind)) hb
    obtain ⟨hkind', htext⟩ := Prod.mk.inj (halong.words 0 hm)
    exact ⟨c.peek, hrun c (by rwa [show c.peek.kind = _ from hkind']), Prod.ext hkind' htext⟩

/-- Taking the next token, unless the text ends here. -/
theorem next (hne : b.peek.kind ≠ .eof) : Echoes false Token.word b next next :=
  read (P := (· ≠ .error)) (fun _ => hne)
    (fun h => let ⟨_, _, ht, _⟩ := bind_ok.mp h; ne_error_of_peek ht) fun _ => next_run

/-- A token that has been expected is of the kind that was expected. -/
theorem kind_of_expect {l : Kind} {r : Token × Buffer} (h : (Parser.expect l).run b = .ok r) : b.peek.kind = l := by
  obtain ⟨t, b', ht, -⟩ := bind_ok.mp h
  by_contra hne
  rw [expect_run_of_ne (ne_error_of_peek ht) hne] at h
  cases h

/-- Expecting a token. -/
theorem expect {l : Kind} (hl : l ≠ .eof ∧ l ≠ .error) : Echoes false Token.word b (expect l) (expect l) :=
  read (P := (· = l)) (fun h => h ▸ hl.1) kind_of_expect fun _ h => expect_run (h ▸ hl.2) h

/-- Taking the next token and going on with it. -/
theorem nextThen {f g : Token → Parser α} (hne : b.peek.kind ≠ .eof)
    (h : ∀ t, t.word = b.peek.word → Echoes closed view b.advance (f b.peek) (g t)) :
    Echoes closed view b (Parser.next >>= f) (Parser.next >>= g) :=
  .bind (next hne) fun t t' b' ht hrun => by
    obtain ⟨_, _, hpeek, -⟩ := bind_ok.mp hrun
    cases hrun.symm.trans (next_run (ne_error_of_peek hpeek))
    exact h t' ht

/-- Expecting a token and going on with it. -/
theorem expectThen {l : Kind} {f g : Token → Parser α} (hl : l ≠ .eof ∧ l ≠ .error)
    (h : b.peek.kind = l → ∀ t, t.word = b.peek.word → Echoes closed view b.advance (f b.peek) (g t)) :
    Echoes closed view b (Parser.expect l >>= f) (Parser.expect l >>= g) :=
  .bind (expect hl) fun t t' b' ht hrun => by
    have hkind := kind_of_expect hrun
    cases hrun.symm.trans (expect_run (hkind ▸ hl.2) hkind)
    exact h hkind t' ht

/-- Passing the next token. -/
theorem skipNext {f g : PUnit → Parser α} (hne : b.peek.kind ≠ .eof) (h : Echoes closed view b.advance (f ⟨⟩) (g ⟨⟩)) :
    Echoes closed view b (discard Parser.next >>= f) (discard Parser.next >>= g) := by
  rw [discard_bind_eq, discard_bind_eq]
  exact .nextThen hne fun _ _ => h

/-- Passing a token that is expected. -/
theorem skip {l : Kind} {f g : PUnit → Parser α} (hl : l ≠ .eof ∧ l ≠ .error)
    (h : b.peek.kind = l → Echoes closed view b.advance (f ⟨⟩) (g ⟨⟩)) :
    Echoes closed view b (discard (Parser.expect l) >>= f) (discard (Parser.expect l) >>= g) := by
  rw [discard_bind_eq, discard_bind_eq]
  exact .expectThen hl fun hkind _ _ => h hkind

/-- The token at which a statement ends. -/
theorem close {l : Kind} (hl : l.closes = true) :
    Echoes true unseen b (Parser.expect l) (Parser.expect l) where
  passes hend a b' h := by
    have hne := Kind.ne_of_closes hl
    have hkind := kind_of_expect h
    obtain ⟨k, hk, hb, -⟩ := (expect hne).passes hend h
    cases h.symm.trans (expect_run (hkind ▸ hne.2) hkind)
    exact ⟨1, Buffer.length_pos hend (hkind ▸ hne.1), rfl, fun _ => ⟨0, rfl, by rwa [← hkind] at hl⟩⟩
  echo hend a k h hk c m halong hm := by
    have hne := Kind.ne_of_closes hl
    have hkind : (b.peekAt 0).kind = l := kind_of_expect h
    obtain ⟨rfl, hb⟩ := Prod.mk.inj (Except.ok.inj (h.symm.trans (expect_run (hkind ▸ hne.2) hkind)))
    obtain rfl := Buffer.passing_inj (n := 1) hk (Buffer.length_pos hend (hkind ▸ hne.1)) hb
    have hkind' : (c.peekAt 0).kind = l := by
      rcases halong.alike (Nat.zero_le m) with heq | ⟨heof, -⟩
      · rw [heq, hkind]
      · exact absurd (hkind.symm.trans heof) hne.1
    exact ⟨c.peek, expect_run (hkind' ▸ hne.2) hkind', rfl⟩

/-- What ends with such a token. -/
theorem endOf {l : Kind} {a a' : α} (hl : l.closes = true) : Echoes true unseen b
    (discard (Parser.expect l) >>= fun _ => Pure.pure a) (discard (Parser.expect l) >>= fun _ => Pure.pure a') := by
  rw [discard_bind_eq, discard_bind_eq]
  exact .map (.close hl) fun _ _ _ => rfl

/-- A token is read if it is there. -/
theorem accept {l : Kind} {f g : Bool → Parser α} (hl : l.inner = true)
    (hthen : b.peek.kind = l → Echoes closed view b.advance (f true) (g true))
    (helse : b.peek.kind ≠ l → Echoes closed view b (f false) (g false)) :
    Echoes closed view b (accept l >>= f) (accept l >>= g) := by
  -- Accepting is looking for the kind and, where it is found, passing the token.
  have haccept : Echoes false id b (Parser.accept l) (Parser.accept l) := by
    by_cases h : b.peek.kind = l
    · have hne : b.peek.kind ≠ .eof := by
        rintro heof
        rw [← h, heof] at hl
        cases hl
      constructor
      · intro hend a b' hrun
        cases hrun.symm.trans (accept_run h)
        exact ⟨1, Buffer.length_pos hend hne, rfl, fun h => absurd h Bool.false_ne_true⟩
      · intro hend a k hrun hk c m halong _
        obtain ⟨rfl, hb⟩ := Prod.mk.inj (Except.ok.inj (hrun.symm.trans (accept_run h)))
        obtain rfl := Buffer.passing_inj (n := 1) hk (Buffer.length_pos hend hne) hb
        exact ⟨true, accept_run ((halong.inner_iff (Nat.zero_le m) hl).mpr h), rfl⟩
    · constructor
      · intro hend a b' hrun
        cases hrun.symm.trans (accept_run_of_ne h)
        exact ⟨0, Nat.zero_le _, rfl, fun h => absurd h Bool.false_ne_true⟩
      · intro hend a k hrun hk c m halong _
        obtain ⟨rfl, hb⟩ := Prod.mk.inj (Except.ok.inj (hrun.symm.trans (accept_run_of_ne h)))
        obtain rfl := Buffer.passing_inj (n := 0) hk (Nat.zero_le _) hb
        exact ⟨false, accept_run_of_ne (mt (halong.inner_iff (Nat.zero_le m) hl).mp h), rfl⟩
  refine .bind haccept fun a a' b' ha hrun => ?_
  obtain rfl : a' = a := ha
  by_cases h : b.peek.kind = l
  · cases hrun.symm.trans (accept_run h)
    exact hthen h
  · cases hrun.symm.trans (accept_run_of_ne h)
    exact helse h

theorem lowerName : Echoes false Name.unmarked b lowerName lowerName :=
  .map (expect (by decide)) fun _ _ h => by simp [nameOf, Name.unmarked, (Prod.mk.inj h).2]

theorem upperName : Echoes false Name.unmarked b upperName upperName :=
  .map (expect (by decide)) fun _ _ h => by simp [nameOf, Name.unmarked, (Prod.mk.inj h).2]

/-- A look ahead that ends before the texts part. -/
theorem look {p : Parser δ} {f g : δ → Parser α} {r : Buffer → δ} (hp : ∀ c, p.run c = .ok (r c, c))
    (hr : ∀ c m, Along m b c → r c = r b) (h : Echoes closed view b (f (r b)) (g (r b))) :
    Echoes closed view b (p >>= f) (p >>= g) where
  passes hend _ _ hrun := h.passes hend ((bind_run (hp b)).symm.trans hrun)
  echo hend _ _ hrun hk c _ halong hm :=
    let ⟨a', ha', hview⟩ := h.echo hend ((bind_run (hp b)).symm.trans hrun) hk halong hm
    ⟨a', (bind_run (hp c)).trans (hr c _ halong ▸ ha'), hview⟩

/-- A look at a token before the place where the texts part. -/
theorem kindAt {f g : Kind → Parser α} (hn : ∀ c m, Along m b c → n ≤ m)
    (h : ∀ k, Alike (b.peekAt n).kind k → Echoes closed view b (f (b.peekAt n).kind) (g k)) :
    Echoes closed view b (kindAt n >>= f) (kindAt n >>= g) where
  passes hend _ _ hrun := (h _ (.refl _)).passes hend hrun
  echo hend _ _ hrun hk c m halong hm := (h _ (halong.alike (hn c m halong))).echo hend hrun hk halong hm

/-- A choice by the kind of such a token. -/
theorem byKindAt {f g : Kind → Parser α} (hn : ∀ c m, Along m b c → n ≤ m)
    (h : Echoes closed view b (f (b.peekAt n).kind) (g (b.peekAt n).kind))
    (hended : (b.peekAt n).kind = .eof → Echoes closed view b (f .eof) (g .semicolon)) :
    Echoes closed view b (Parser.kindAt n >>= f) (Parser.kindAt n >>= g) := by
  refine .kindAt hn fun k hk => ?_
  obtain rfl | ⟨heof, rfl⟩ := hk
  · exact h
  · rw [heof]
    exact hended heof

/-- A question whether the next two tokens are of certain kinds. -/
theorem ifNextTwo {l l' : Kind} {p p' q q' : Parser α} (hl : l.inner = true) (hl' : l' ≠ .eof ∧ l' ≠ .semicolon)
    (hthen : b.peek.kind = l → (b.peekAt 1).kind = l' → Echoes closed view b p q)
    (helse : Echoes closed view b p' q') :
    Echoes closed view b
      (Parser.peekKind >>= fun k => Parser.kindAt 1 >>= fun k' => if (k = l && k' = l') = true then p else p')
      (Parser.peekKind >>= fun k => Parser.kindAt 1 >>= fun k' => if (k = l && k' = l') = true then q else q') := by
  have hl₀ : l ≠ .eof ∧ l ≠ .semicolon := by
    constructor <;> (rintro rfl; cases hl)
  refine .peekKind fun k hk => ?_
  by_cases h : b.peek.kind = l
  · refine .kindAt (fun c m halong => halong.lt (Nat.zero_le m) (h ▸ hl)) fun k' hk' => ?_
    rw [h, (hk.iff hl₀).mpr h]
    simp only [decide_true, Bool.true_and, decide_eq_true_eq, hk'.iff hl']
    split
    · next h' => exact hthen h h'
    · exact helse
  · have h' : k ≠ l := mt (hk.iff hl₀).mp h
    simp only [h, h', decide_false, Bool.false_and, Bool.false_eq_true, if_false]
    exact helse

/-- A part that may go on behind its end with a word that no statement begins with. -/
theorem tail {l : Kind} {p q : Parser α} {f g : α → Parser β} {r r' : α → β} (hl : l = .kwElse ∨ l = .kwFail)
    (hp : Echoes true unseen b p q)
    (hf : ∀ a a' b', p.run b = .ok (a, b') → b'.peek.kind = l → Echoes true unseen b' (f a) (g a')) :
    Echoes true unseen b (p >>= fun a => Parser.peekKind >>= fun k => if k = l then f a else Pure.pure (r a))
      (q >>= fun a => Parser.peekKind >>= fun k => if k = l then g a else Pure.pure (r' a)) := by
  -- The part behind begins with a keyword, which is no place for texts to part.
  have hl₀ : l ≠ .eof ∧ l ≠ .semicolon := by
    rcases hl with rfl | rfl <;> decide
  constructor
  · -- The tokens that are passed are those of the first part, with those of the second one if it is there.
    intro hend y b'' hrun
    obtain ⟨a, b', ha, hy⟩ := bind_ok.mp hrun
    have hy := peekKind_bind hy
    obtain ⟨k, hk, rfl, hclosed⟩ := hp.passes hend ha
    split at hy
    · next hkind =>
      obtain ⟨j, hj, rfl, hclosed'⟩ := (hf a a _ ha hkind).passes (by rw [Buffer.final_passing, hend]) hy
      obtain ⟨i, rfl, hi⟩ := hclosed' rfl
      rw [Buffer.length_passing] at hj
      rw [Buffer.peekAt_passing] at hi
      exact ⟨k + (i + 1), by omega, Buffer.passing_passing b k _, fun _ => ⟨k + i, rfl, hi⟩⟩
    · cases pure_ok.mp hy
      exact ⟨k, hk, rfl, hclosed⟩
  · intro hend y j hrun hj c m halong hm
    obtain ⟨a, b', ha, hy⟩ := bind_ok.mp hrun
    obtain ⟨_, _, hpeek, -⟩ := bind_ok.mp hy
    obtain ⟨_, _, hpeek, -⟩ := bind_ok.mp hpeek
    have hok := ne_error_of_peek hpeek
    have hy := peekKind_bind hy
    obtain ⟨k, hk, rfl, -⟩ := hp.passes hend ha
    have hfinal : (b.passing k).final.kind = .eof := by rw [Buffer.final_passing, hend]
    -- With the keyword in the first text, the second one has it at the same place.
    split at hy
    · next hkind =>
      have hthen := hf a a _ ha hkind
      obtain ⟨i, hi, hb, hclosed⟩ := hthen.passes hfinal hy
      rw [Buffer.length_passing] at hi
      rw [Buffer.passing_passing] at hb
      obtain rfl := Buffer.passing_inj hj (by omega) hb
      obtain ⟨i, rfl, -⟩ := hclosed rfl
      rw [Bool.toNat_true] at hm
      have hkm : k ≤ m := by omega
      obtain ⟨a', ha', -⟩ := hp.echo hend ha hk halong (Nat.le_add_right_of_le hkm)
      have hkind' : (c.passing k).peek.kind = l := (((halong.passing hkm).alike (Nat.zero_le _)).iff hl₀).mpr hkind
      rw [← Buffer.passing_passing] at hy
      obtain ⟨y', hy', hview⟩ := (hf a a' _ ha hkind).echo hfinal hy (by rwa [Buffer.length_passing])
        (halong.passing hkm) (by rw [Bool.toNat_true]; omega)
      rw [Buffer.passing_passing] at hy'
      refine ⟨y', bind_ok.mpr ⟨a', _, ha', ?_⟩, hview⟩
      rw [bind_run (peekKind_run (by rw [hkind']; rcases hl with rfl | rfl <;> decide)), hkind', if_pos rfl]
      exact hy'
    · -- Without it, the second text has none either: at the place where the texts part nothing carries on.
      next hkind =>
      obtain ⟨rfl, hb⟩ := Prod.mk.inj (pure_ok.mp hy)
      obtain rfl := Buffer.passing_inj hj hk hb
      obtain ⟨a', ha', -⟩ := hp.echo hend ha hk halong hm
      have hafter : (c.passing j).peek.kind ≠ .error ∧ (c.passing j).peek.kind ≠ l := by
        rw [Bool.toNat_true] at hm
        rcases Nat.lt_or_eq_of_le hm with hlt | rfl
        · have hpassing := halong.passing (Nat.le_of_lt_succ hlt)
          exact ⟨hpassing.ne_error (Nat.zero_le _) hok,
            mt ((hpassing.alike (Nat.zero_le _)).iff hl₀).mp hkind⟩
        · have hpast := halong.past
          rw [Buffer.peek_passing]
          rcases hl with rfl | rfl <;> simp_all
      refine ⟨r' a', bind_ok.mpr ⟨a', _, ha', ?_⟩, rfl⟩
      rw [bind_run (peekKind_run hafter.1), if_neg hafter.2]
      rfl

end Echoes

end Parser

/-! ## Looking ahead -/

namespace Ahead

/-- Two texts have the same kinds of tokens for `m` tokens, and there they part. -/
structure Meets (m : Nat) (a a' : Ahead) : Prop where
  same : ∀ i < m, a' i = a i
  parting : Parting (a m) (a' m)

/-- Both look-aheads find the same end, which is not behind the place where the texts part. -/
def Agree (m n : Nat) (stop? stop?' : Option Nat) : Prop :=
  stop?' = stop? ∧ ∀ l, stop? = some l → n ≤ l ∧ l ≤ m

namespace Agree

variable {m n : Nat} {stop? stop?' : Option Nat}

theorem none (m n : Nat) : Agree m n none none :=
  ⟨rfl, fun _ h => absurd h.symm (Option.some_ne_none _)⟩

theorem some (h : n ≤ m) : Agree m n (some n) (some n) :=
  ⟨rfl, fun _ h' => Option.some.inj h' ▸ ⟨Nat.le_refl n, h⟩⟩

theorem later {n' : Nat} (hn : n ≤ n') (h : Agree m n' stop? stop?') : Agree m n stop? stop?' :=
  ⟨h.1, fun l hl => ⟨Nat.le_trans hn (h.2 l hl).1, (h.2 l hl).2⟩⟩

theorem bind {f f' : Nat → Option Nat} (h : Agree m n stop? stop?')
    (hf : ∀ l, n ≤ l → l ≤ m → Agree m l (f l) (f' l)) : Agree m n (stop? >>= f) (stop?' >>= f') := by
  obtain ⟨rfl, hle⟩ := h
  cases stop?' with
  | none => exact .none m n
  | some l => exact (hf l (hle l rfl).1 (hle l rfl).2).later (hle l rfl).1

end Agree

section

variable {m : Nat} {a a' : Ahead}

/-- As far as two views of the tokens meet, inner tokens are the same in both. -/
theorem Meets.iff (h : Meets m a a') {n : Nat} {l : Kind} (hl : l.inner = true) (hn : n ≤ m) :
    (a n = l → n < m) ∧ (a' n = l ↔ a n = l) := by
  rcases Nat.lt_or_eq_of_le hn with hlt | rfl
  · exact ⟨fun _ => hlt, by rw [h.same n hlt]⟩
  · have hne := h.parting.ne hl
    exact ⟨fun h => absurd h hne.1, fun h => absurd h hne.2, fun h => absurd h hne.1⟩

theorem marksEndWithin?_agree (h : Meets m a a') : {depth depth' n : Nat} → 4 * m + 1 ≤ depth + 4 * n →
    4 * m + 1 ≤ depth' + 4 * n →
    n ≤ m → Agree m n (marksEndWithin? a depth n) (marksEndWithin? a' depth' n)
  | 0, _, _, hd, _, hn => by omega
  | _ + 1, 0, _, _, hd', hn => by omega
  | depth + 1, depth' + 1, n, hd, hd', hn => by
    obtain ⟨hlt, hiff⟩ := h.iff (l := .question) rfl hn
    rw [marksEndWithin?, marksEndWithin?]
    by_cases hmark : a n = .question
    · rw [if_pos hmark, if_pos (hiff.mpr hmark)]
      exact (marksEndWithin?_agree h (by omega) (by omega) (hlt hmark)).later (Nat.le_succ n)
    · rw [if_neg hmark, if_neg (mt hiff.mp hmark)]
      exact .some hn

mutual

theorem typeEndWithin?_agree (h : Meets m a a') : {depth depth' n : Nat} → 4 * m + 4 ≤ depth + 4 * n →
    4 * m + 4 ≤ depth' + 4 * n →
    n ≤ m → Agree m n (typeEndWithin? a depth n) (typeEndWithin? a' depth' n)
  | 0, _, _, hd, _, hn => by omega
  | _ + 1, 0, _, _, hd', hn => by omega
  | depth + 1, depth' + 1, n, hd, hd', hn => by
    rw [typeEndWithin?, typeEndWithin?]
    exact (primaryEndWithin?_agree h (by omega) (by omega) hn).bind fun l hnl hl =>
      casesEndWithin?_agree h (by omega) (by omega) hl

theorem casesEndWithin?_agree (h : Meets m a a') : {depth depth' n : Nat} → 4 * m + 1 ≤ depth + 4 * n →
    4 * m + 1 ≤ depth' + 4 * n →
    n ≤ m → Agree m n (casesEndWithin? a depth n) (casesEndWithin? a' depth' n)
  | 0, _, _, hd, _, hn => by omega
  | _ + 1, 0, _, _, hd', hn => by omega
  | depth + 1, depth' + 1, n, hd, hd', hn => by
    obtain ⟨hlt, hiff⟩ := h.iff (l := .union) rfl hn
    rw [casesEndWithin?, casesEndWithin?]
    by_cases hbar : a n = .union
    · have hlt := hlt hbar
      rw [if_pos hbar, if_pos (hiff.mpr hbar)]
      refine Agree.later (Nat.le_succ n) ?_
      exact (primaryEndWithin?_agree h (by omega) (by omega) hlt).bind fun l hnl hl =>
        casesEndWithin?_agree h (by omega) (by omega) hl
    · rw [if_neg hbar, if_neg (mt hiff.mp hbar)]
      exact .some hn

theorem primaryEndWithin?_agree (h : Meets m a a') : {depth depth' n : Nat} → 4 * m + 3 ≤ depth + 4 * n →
    4 * m + 3 ≤ depth' + 4 * n →
    n ≤ m → Agree m n (primaryEndWithin? a depth n) (primaryEndWithin? a' depth' n)
  | 0, _, _, hd, _, hn => by omega
  | _ + 1, 0, _, _, hd', hn => by omega
  | depth + 1, depth' + 1, n, hd, hd', hn => by
    rw [primaryEndWithin?_succ, primaryEndWithin?_succ]
    exact (baseEndWithin?_agree h (by omega) (by omega) hn).bind fun l hnl hl =>
      marksEndWithin?_agree h (by omega) (by omega) hl

theorem baseEndWithin?_agree (h : Meets m a a') : {depth depth' n : Nat} → 4 * m + 2 ≤ depth + 4 * n →
    4 * m + 2 ≤ depth' + 4 * n →
    n ≤ m → Agree m n (baseEndWithin? a depth n) (baseEndWithin? a' depth' n)
  | depth, depth', n, hd, hd', hn => by
    obtain ⟨hlt, hiff⟩ := h.iff (l := .upperName) rfl hn
    rw [baseEndWithin?, baseEndWithin?]
    by_cases hname : a n = .upperName
    · have hlt := hlt hname
      obtain ⟨hlt', hiff'⟩ := h.iff (n := n + 1) (l := .smaller) rfl hlt
      rw [if_neg (not_not.mpr hname), if_neg (not_not.mpr (hiff.mpr hname))]
      by_cases hopen : a (n + 1) = .smaller
      · rw [if_pos hopen, if_pos (hiff'.mpr hopen)]
        exact (argsEndWithin?_agree h (by omega) (by omega) hlt).later (Nat.le_succ n)
      · rw [if_neg hopen, if_neg (mt hiff'.mp hopen)]
        exact (Agree.some hlt).later (Nat.le_succ n)
    · rw [if_pos hname, if_pos (mt hiff.mp hname)]
      exact .none m n

theorem argsEndWithin?_agree (h : Meets m a a') : {depth depth' n : Nat} → 4 * m + 2 ≤ depth + 4 * n →
    4 * m + 2 ≤ depth' + 4 * n →
    n ≤ m → Agree m n (argsEndWithin? a depth n) (argsEndWithin? a' depth' n)
  | 0, _, _, hd, _, hn => by omega
  | 1, _, _, hd, _, hn => by omega
  | _ + 1, 0, _, _, hd', hn => by omega
  | _ + 1, 1, _, _, hd', hn => by omega
  | depth + 2, depth' + 2, n, hd, hd', hn => by
    obtain ⟨hlt, hiff⟩ := h.iff (l := .smaller) rfl hn
    rw [argsEndWithin?, argsEndWithin?]
    by_cases hopen : a n = .smaller
    · have hlt := hlt hopen
      rw [if_neg (not_not.mpr hopen), if_neg (not_not.mpr (hiff.mpr hopen)), listEndWithin?_succ, listEndWithin?_succ]
      refine Agree.later (Nat.le_succ n) ?_
      exact (typeEndWithin?_agree h (by omega) (by omega) hlt).bind fun l hnl hl =>
        restEndWithin?_agree h (by omega) (by omega) hl
    · rw [if_pos hopen, if_pos (mt hiff.mp hopen)]
      exact .none m n

theorem restEndWithin?_agree (h : Meets m a a') : {depth depth' n : Nat} → 4 * m + 1 ≤ depth + 4 * n →
    4 * m + 1 ≤ depth' + 4 * n →
    n ≤ m → Agree m n (restEndWithin? a depth n) (restEndWithin? a' depth' n)
  | 0, _, _, hd, _, hn => by omega
  | _ + 1, 0, _, _, hd', hn => by omega
  | depth + 1, depth' + 1, n, hd, hd', hn => by
    obtain ⟨hlt, hiff⟩ := h.iff (l := .comma) rfl hn
    obtain ⟨hlt', hiff'⟩ := h.iff (l := .larger) rfl hn
    -- A comma carries the list on, a bracket ends it, and at any other token there is none.
    by_cases hcomma : a n = .comma
    · have hlt := hlt hcomma
      rw [restEndWithin?, restEndWithin?, hcomma, hiff.mpr hcomma]
      dsimp only
      rw [listEndWithin?_succ, listEndWithin?_succ]
      refine Agree.later (Nat.le_succ n) ?_
      exact (typeEndWithin?_agree h (by omega) (by omega) hlt).bind fun l hnl hl =>
        restEndWithin?_agree h (by omega) (by omega) hl
    · by_cases hclose : a n = .larger
      · rw [restEndWithin?, restEndWithin?, hclose, hiff'.mpr hclose]
        exact (Agree.some (hlt' hclose)).later (Nat.le_succ n)
      · have hnone (a : Ahead) (depth : Nat) (hcomma : a n ≠ .comma) (hclose : a n ≠ .larger) :
            restEndWithin? a depth n = Option.none := by
          rw [restEndWithin?]
          split <;> first | contradiction | rfl
        rw [hnone a _ hcomma hclose, hnone a' _ (mt hiff.mp hcomma) (mt hiff'.mp hclose)]
        exact .none m n

end

end

end Ahead

namespace Parser

variable {b c : Buffer} {m n l : Nat}

theorem along_meets (h : Along m b c) : Ahead.Meets m b.kinds c.kinds :=
  ⟨fun i hi => (Prod.mk.inj (h.words i hi)).1, h.parting⟩

/-- The types in two texts that go along end at the same places. -/
theorem typeEnd?_agree (h : Along m b c) (hn : n ≤ m) :
    Ahead.Agree m n (Ahead.typeEndWithin? b.kinds (typeDepth b) n) (Ahead.typeEndWithin? c.kinds (typeDepth c) n) := by
  have hle := h.le
  have hlonger := h.longer
  have hb := le_typeDepth b
  have hc := le_typeDepth c
  exact Ahead.typeEndWithin?_agree (along_meets h) (by omega) (by omega) hn

theorem typeArgsEnd?_agree (h : Along m b c) (hn : n ≤ m) :
    Ahead.Agree m n (Ahead.argsEndWithin? b.kinds (typeDepth b) n) (Ahead.argsEndWithin? c.kinds (typeDepth c) n) := by
  have hle := h.le
  have hlonger := h.longer
  have hb := le_typeDepth b
  have hc := le_typeDepth c
  exact Ahead.argsEndWithin?_agree (along_meets h) (by omega) (by omega) hn

end Parser

end Syntax

end Ceylon
