import Ceylon.Proofs.Literals

/-!
# Looking ahead over types

The parser of types and the look-ahead over them are two readers of one grammar.  Both are followed from
the same place (`Foretells`): where the look-ahead finds an end, the parser succeeds and stops there, and where
it finds none, the parser is stopped by a fault of the text.  What is said of two readers is kept when both go
on, so that the proofs go through the functions of the grammar side by side.  The depths that bound the two
recursions are never reached: a reader descends at most four levels for each token.
-/

namespace Ceylon

open Token (Buffer Kind)

namespace Token.Buffer

variable {b : Buffer} {n : Nat}

/-! ## Tokens at a distance -/

/-- The kinds of the tokens ahead, as a look-ahead sees them. -/
def kinds (b : Buffer) : Syntax.Ahead :=
  fun n => (b.peekAt n).kind

/-- The buffer when a number of tokens has been read. -/
def passing (b : Buffer) (n : Nat) : Buffer :=
  advance^[n] b

theorem advance_passing (b : Buffer) (n : Nat) : (b.passing n).advance = b.passing (n + 1) :=
  (Function.iterate_succ_apply' _ _ _).symm

/-- Passing tokens does not change the end of the text. -/
theorem final_passing (b : Buffer) (n : Nat) : (b.passing n).final = b.final := by
  induction n with
  | zero => rfl
  | succ n ih => rwa [← advance_passing]

/-- What stands ahead after tokens have been passed. -/
theorem ahead_passing (b : Buffer) (n : Nat) : (b.passing n).ahead = b.ahead.drop n := by
  induction n with
  | zero => rfl
  | succ n ih =>
    rw [← advance_passing, ← List.tail_drop, ← ih]
    rfl

/-- The next token after tokens have been passed. -/
theorem peek_passing (b : Buffer) (n : Nat) : (b.passing n).peek = b.peekAt n := by
  rw [peek, peekAt, peekAt, ahead_passing, final_passing, List.getElem?_drop, Nat.add_zero]

/-- Reading passes one token at a time, up to the last one. -/
theorem pos_passing (h : n ≤ b.ahead.length) : (b.passing n).pos = b.pos + n := by
  induction n with
  | zero => rfl
  | succ n ih =>
    have hahead : (b.passing n).ahead.isEmpty = false := by
      rw [ahead_passing, List.isEmpty_eq_false_iff, ← List.length_pos_iff, List.length_drop]
      omega
    rw [← advance_passing, advance]
    simp only [hahead, Bool.false_eq_true, if_false, ih (by omega)]
    omega

/-- The buffer ends with the end of the text, and nothing in it is an error. -/
structure Clean (b : Buffer) : Prop where
  ends : b.final.kind = .eof
  words : ∀ t ∈ b.tokens, t.kind ≠ .error

namespace Clean

variable (hb : b.Clean)
include hb

/-- Looking ahead never shows an error. -/
theorem kinds_ne_error (n : Nat) : b.kinds n ≠ .error := by
  rw [kinds, peekAt]
  cases hn : b.ahead[n]? with
  | none =>
    rw [Option.getD_none, hb.ends]
    decide
  | some t =>
    have hmem := List.mem_of_getElem? hn
    rw [b.ahead_eq] at hmem
    exact hb.words t (Array.mem_toList_iff.mp (List.mem_of_mem_drop hmem))

/-- What is not the end of the text is one of the tokens ahead. -/
theorem lt_of_kind {k : Kind} (h : b.kinds n = k) (hk : (k == .eof) = false) : n < b.ahead.length := by
  by_contra hn
  rw [kinds, peekAt, List.getElem?_eq_none (by omega), Option.getD_none, hb.ends] at h
  exact ne_of_beq_false hk h.symm

end Clean

end Token.Buffer

namespace Syntax

namespace Parser

variable {α β : Type} {b : Buffer} {n m : Nat} {k : Kind} {end? : Option Nat}

/-! ## Readers side by side -/

/-- What a look-ahead has found at a place is what a parser does there: it stops at the end that was found, and if
none was, it is stopped by a fault of the text. -/
def Foretells (b : Buffer) (n : Nat) (p : Parser α) : Option Nat → Prop
  | some m => n ≤ m ∧ m ≤ b.ahead.length ∧ ∃ a, p.run (b.passing n) = .ok (a, b.passing m)
  | none => ∃ e, p.run (b.passing n) = .error e ∧ e.fault ≠ .tooDeep

/-- What follows a parser that fails is not run. -/
theorem bind_error {p : Parser α} {f : α → Parser β} {e : SyntaxError} (h : p.run b = .error e) :
    (p >>= f).run b = .error e := by
  change (p.run b >>= fun s => (f s.1).run s.2) = .error e
  rw [h]
  rfl

/-- What follows a parser that succeeds is run where that one leads. -/
theorem bind_run {p : Parser α} {f : α → Parser β} {a : α} {b' : Buffer} (h : p.run b = .ok (a, b')) :
    (p >>= f).run b = (f a).run b' := by
  change (p.run b >>= fun s => (f s.1).run s.2) = _
  rw [h]
  rfl

/-- A token that is expected and there is passed. -/
theorem expect_run (hok : b.peek.kind ≠ .error) (h : b.peek.kind = k) :
    (expect k).run b = .ok (b.peek, b.advance) :=
  bind_ok.mpr ⟨_, _, peek_run hok, by rw [if_pos h]; rfl⟩

/-- A token that is expected and not there is reported. -/
theorem expect_run_of_ne (hok : b.peek.kind ≠ .error) (h : b.peek.kind ≠ k) :
    (expect k).run b = .error ⟨.expected k b.peek, b.source, b.peek.pos⟩ := by
  rw [expect, bind_run (peek_run hok), if_neg h]
  rfl

/-- A token that is accepted and there is passed. -/
theorem accept_run (h : b.peek.kind = k) : (accept k).run b = .ok (true, b.advance) := by
  refine bind_ok.mpr ⟨_, _, rfl, ?_⟩
  rw [Buffer.accept?, decide_eq_true h, if_pos rfl]
  rfl

/-- A token that is accepted and not there is left. -/
theorem accept_run_of_ne (h : b.peek.kind ≠ k) : (accept k).run b = .ok (false, b) := by
  refine bind_ok.mpr ⟨_, _, rfl, ?_⟩
  rw [Buffer.accept?, decide_eq_false h, if_neg Bool.false_ne_true]
  rfl

theorem discard_bind_eq (p : Parser α) (f : PUnit → Parser β) : (discard p >>= f) = p >>= fun _ => f ⟨⟩ := by
  rw [Functor.discard, map_const, Function.comp_apply, map_eq_pure_bind, bind_assoc]
  simp

namespace Foretells

/-- Returning a value is foretold where it stands. -/
theorem pure (hn : n ≤ b.ahead.length) (a : α) : Foretells b n (pure a) (some n) :=
  ⟨Nat.le_refl n, hn, a, rfl⟩

/-- The parser first reads something that needs no look-ahead. -/
theorem after {p : Parser α} {f : α → Parser β} {a : α} (hnm : n ≤ m)
    (h : p.run (b.passing n) = .ok (a, b.passing m)) (hf : Foretells b m (f a) end?) :
    Foretells b n (p >>= f) end? := by
  cases end? with
  | none =>
    obtain ⟨e, he, hfault⟩ := hf
    exact ⟨e, (bind_run h).trans he, hfault⟩
  | some l =>
    obtain ⟨hml, hl, r, hr⟩ := hf
    exact ⟨Nat.le_trans hnm hml, hl, r, (bind_run h).trans hr⟩

/-- Both readers go on where the first parts of them have stopped. -/
theorem bind {p : Parser α} {f : α → Parser β} {further : Nat → Option Nat} (h : Foretells b n p end?)
    (hf : ∀ a m, n ≤ m → m ≤ b.ahead.length → Foretells b m (f a) (further m)) :
    Foretells b n (p >>= f) (end? >>= further) := by
  cases end? with
  | none =>
    obtain ⟨e, he, hfault⟩ := h
    exact ⟨e, bind_error he, hfault⟩
  | some m =>
    obtain ⟨hnm, hm, a, ha⟩ := h
    exact after hnm ha (hf a m hnm hm)

/-- The parser makes something of what it has read. -/
theorem map {p : Parser α} (h : Foretells b n p end?) (f : α → β) :
    Foretells b n (p >>= fun a => Pure.pure (f a)) end? := by
  rw [← bind_pure end?]
  exact h.bind fun a m _ hm => pure hm (f a)

section

variable (hb : b.Clean)
include hb

/-- Looking at the next kind is foretold by that kind. -/
theorem peekKind {f : Kind → Parser β} (h : Foretells b n (f (b.kinds n)) end?) :
    Foretells b n (peekKind >>= f) end? := by
  have hok := hb.kinds_ne_error n
  rw [Buffer.kinds, ← Buffer.peek_passing] at h hok
  exact after (Nat.le_refl n) (peekKind_run hok) h

/-- The place of the next token tells nothing about where a parser ends. -/
theorem here {f : Mark → Parser β} (h : ∀ mark, Foretells b n (f mark) end?) :
    Foretells b n (here >>= f) end? := by
  have hok := hb.kinds_ne_error n
  rw [Buffer.kinds, ← Buffer.peek_passing] at hok
  exact after (Nat.le_refl n) (bind_ok.mpr ⟨_, _, peek_run hok, rfl⟩) (h _)

/-- Taking a token is foretold one token further. -/
theorem next {f : Token → Parser β} (h : ∀ t, Foretells b (n + 1) (f t) end?) :
    Foretells b n (next >>= f) end? := by
  have hok := hb.kinds_ne_error n
  rw [Buffer.kinds, ← Buffer.peek_passing] at hok
  exact after (Nat.le_succ n) (b.advance_passing n ▸ next_run hok) (h _)

/-- Expecting a token that is there is foretold one token further. -/
theorem expect {f : Token → Parser β} (hk : b.kinds n = k) (h : ∀ t, Foretells b (n + 1) (f t) end?) :
    Foretells b n (expect k >>= f) end? := by
  have hok := hb.kinds_ne_error n
  rw [Buffer.kinds, ← Buffer.peek_passing] at hk hok
  exact after (Nat.le_succ n) (b.advance_passing n ▸ expect_run hok hk) (h _)

/-- Where another token stands than the parser wants, it finds a fault. -/
theorem expect_of_ne {f : Token → Parser β} (hk : b.kinds n ≠ k) : Foretells b n (Parser.expect k >>= f) none := by
  have hok := hb.kinds_ne_error n
  rw [Buffer.kinds, ← Buffer.peek_passing] at hk hok
  refine ⟨_, bind_error (expect_run_of_ne hok hk), fun h => ?_⟩
  cases h

end

/-- Accepting a token that is there is foretold one token further. -/
theorem accept {f : Bool → Parser β} (hk : b.kinds n = k) (h : Foretells b (n + 1) (f true) end?) :
    Foretells b n (accept k >>= f) end? := by
  rw [Buffer.kinds, ← Buffer.peek_passing] at hk
  exact after (Nat.le_succ n) (b.advance_passing n ▸ accept_run hk) h

/-- Accepting a token that is not there is foretold here. -/
theorem accept_of_ne {f : Bool → Parser β} (hk : b.kinds n ≠ k) (h : Foretells b n (f false) end?) :
    Foretells b n (Parser.accept k >>= f) end? := by
  rw [Buffer.kinds, ← Buffer.peek_passing] at hk
  exact after (Nat.le_refl n) (accept_run_of_ne hk) h

end Foretells

/-! ## The two readers of types -/

/-- The further types of a list, and the bracket behind them. -/
def listRest (depth : Nat) : Parser (List TypeRef) := do
  let more ← moreTypesWithin depth
  discard (expect .larger)
  return more

/-- Type arguments are a first one between brackets, and the rest of the list. -/
theorem typeArgsWithin_succ (depth : Nat) : typeArgsWithin (depth + 1) = (do
    discard (expect .smaller)
    let first ← typeWithin depth
    return first :: (← listRest depth)) := by
  simp [typeArgsWithin, listRest]

/-- The rest of a list goes on behind a comma, or ends with its bracket. -/
theorem listRest_succ (depth : Nat) : listRest (depth + 1) = (do
    if ← accept .comma then return (← typeWithin depth) :: (← listRest depth)
    else do
      discard (expect .larger)
      return []) := by
  rw [listRest, moreTypesWithin, bind_assoc]
  refine bind_congr fun more => ?_
  cases more with
  | false => simp
  | true => simp [listRest, bind_assoc]

end Parser

namespace Ahead

/-- Where a list of types ends, seen from behind one of them. -/
def restEndWithin? (ahead : Ahead) (depth n : Nat) : Option Nat :=
  match ahead n with
  | .comma => listEndWithin? ahead depth (n + 1)
  | .larger => some (n + 1)
  | _ => none

/-- Where a type name with its arguments ends. -/
def baseEndWithin? (ahead : Ahead) (depth n : Nat) : Option Nat :=
  if ahead n ≠ .upperName then none
  else if ahead (n + 1) = .smaller then argsEndWithin? ahead depth (n + 1)
  else some (n + 1)

theorem listEndWithin?_succ (ahead : Ahead) (depth n : Nat) : listEndWithin? ahead (depth + 1) n =
    typeEndWithin? ahead depth n >>= restEndWithin? ahead depth := by
  rw [listEndWithin?]
  rfl

theorem primaryEndWithin?_succ (ahead : Ahead) (depth n : Nat) : primaryEndWithin? ahead (depth + 1) n =
    baseEndWithin? ahead depth n >>= marksEndWithin? ahead depth := by
  rw [primaryEndWithin?, baseEndWithin?]
  split
  · rfl
  · split <;> rfl

end Ahead

namespace Parser

section

variable {b : Buffer} (hb : b.Clean)
include hb

/-- The marks behind a type are foretold. -/
theorem optionalWithin_foretold : {depth depth' n : Nat} → (t : TypeRef) →
    4 * b.ahead.length + 1 ≤ depth + 4 * n → 4 * b.ahead.length + 1 ≤ depth' + 4 * n → n ≤ b.ahead.length →
    Foretells b n (optionalWithin t depth) (Ahead.marksEndWithin? b.kinds depth' n)
  | 0, _, _, _, h, _, hn => by omega
  | _ + 1, 0, _, _, _, h', hn => by omega
  | depth + 1, depth' + 1, n, t, h, h', hn => by
    rw [optionalWithin, Ahead.marksEndWithin?]
    refine .peekKind hb ?_
    by_cases hmark : b.kinds n = .question
    · have hlt := hb.lt_of_kind hmark rfl
      rw [if_pos hmark, if_pos hmark, discard_bind_eq]
      exact .next hb fun _ => optionalWithin_foretold _ (by omega) (by omega) hlt
    · rw [if_neg hmark, if_neg hmark]
      exact .pure hn t

mutual

/-- Looking ahead foretells where a type ends, or that there is none. -/
theorem typeWithin_foretold : {depth depth' n : Nat} →
    4 * b.ahead.length + 4 ≤ depth + 4 * n → 4 * b.ahead.length + 4 ≤ depth' + 4 * n → n ≤ b.ahead.length →
    Foretells b n (typeWithin depth) (Ahead.typeEndWithin? b.kinds depth' n)
  | 0, _, _, h, _, hn => by omega
  | _ + 1, 0, _, _, h', hn => by omega
  | depth + 1, depth' + 1, n, h, h', hn => by
    rw [typeWithin, Ahead.typeEndWithin?]
    refine (primaryTypeWithin_foretold (by omega) (by omega) hn).bind fun first m hnm hm => .peekKind hb ?_
    by_cases hbar : b.kinds m = .union
    · rw [if_pos hbar]
      exact (moreCasesWithin_foretold (by omega) (by omega) hm).map _
    · obtain ⟨depth', rfl⟩ := Nat.exists_eq_add_one_of_ne_zero (n := depth') (by omega)
      rw [if_neg hbar, Ahead.casesEndWithin?, if_neg hbar]
      exact .pure hm first

theorem moreCasesWithin_foretold : {depth depth' n : Nat} →
    4 * b.ahead.length + 1 ≤ depth + 4 * n → 4 * b.ahead.length + 1 ≤ depth' + 4 * n → n ≤ b.ahead.length →
    Foretells b n (moreCasesWithin depth) (Ahead.casesEndWithin? b.kinds depth' n)
  | 0, _, _, h, _, hn => by omega
  | _ + 1, 0, _, _, h', hn => by omega
  | depth + 1, depth' + 1, n, h, h', hn => by
    rw [moreCasesWithin, Ahead.casesEndWithin?]
    by_cases hbar : b.kinds n = .union
    · have hlt := hb.lt_of_kind hbar rfl
      rw [if_pos hbar]
      refine .accept hbar ?_
      rw [if_pos rfl]
      exact (primaryTypeWithin_foretold (by omega) (by omega) hlt).bind fun first m hnm hm =>
        (moreCasesWithin_foretold (by omega) (by omega) hm).map _
    · rw [if_neg hbar]
      exact .accept_of_ne hbar (.pure hn [])

theorem primaryTypeWithin_foretold : {depth depth' n : Nat} →
    4 * b.ahead.length + 3 ≤ depth + 4 * n → 4 * b.ahead.length + 3 ≤ depth' + 4 * n → n ≤ b.ahead.length →
    Foretells b n (primaryTypeWithin depth) (Ahead.primaryEndWithin? b.kinds depth' n)
  | 0, _, _, h, _, hn => by omega
  | _ + 1, 0, _, _, h', hn => by omega
  | depth + 1, depth' + 1, n, h, h', hn => by
    rw [primaryTypeWithin, Ahead.primaryEndWithin?_succ]
    exact (baseTypeWithin_foretold (by omega) (by omega) hn).bind fun base m hnm hm =>
      optionalWithin_foretold hb _ (by omega) (by omega) hm

theorem baseTypeWithin_foretold : {depth depth' n : Nat} →
    4 * b.ahead.length + 2 ≤ depth + 4 * n → 4 * b.ahead.length + 2 ≤ depth' + 4 * n → n ≤ b.ahead.length →
    Foretells b n (baseTypeWithin depth) (Ahead.baseEndWithin? b.kinds depth' n)
  | 0, _, _, h, _, hn => by omega
  | depth + 1, depth', n, h, h', hn => by
    rw [baseTypeWithin, Ahead.baseEndWithin?]
    refine .here hb fun mark => ?_
    rw [upperName, bind_assoc]
    by_cases hname : b.kinds n = .upperName
    · have hlt := hb.lt_of_kind hname rfl
      rw [if_neg (not_not.mpr hname)]
      refine .expect hb hname fun name => ?_
      rw [pure_bind]
      refine .peekKind hb ?_
      -- Behind the name arguments are looked for, and both give up at the same depth.
      by_cases hopen : b.kinds (n + 1) = .smaller
      · rw [if_pos hopen, if_pos hopen]
        exact (typeArgsWithin_foretold (by omega) (by omega) hlt).map _
      · rw [if_neg hopen, if_neg hopen]
        exact .pure hlt _
    · rw [if_pos hname]
      exact .expect_of_ne hb hname

theorem typeArgsWithin_foretold : {depth depth' n : Nat} →
    4 * b.ahead.length + 1 ≤ depth + 4 * n → 4 * b.ahead.length + 2 ≤ depth' + 4 * n → n ≤ b.ahead.length →
    Foretells b n (typeArgsWithin depth) (Ahead.argsEndWithin? b.kinds depth' n)
  | 0, _, _, h, _, hn => by omega
  | _ + 1, 0, _, _, h', hn => by omega
  | _ + 1, 1, _, _, h', hn => by omega
  | depth + 1, depth' + 2, n, h, h', hn => by
    rw [typeArgsWithin_succ, Ahead.argsEndWithin?, discard_bind_eq]
    by_cases hopen : b.kinds n = .smaller
    · have hlt := hb.lt_of_kind hopen rfl
      rw [if_neg (not_not.mpr hopen), Ahead.listEndWithin?_succ]
      refine .expect hb hopen fun _ => ?_
      exact (typeWithin_foretold (by omega) (by omega) hlt).bind fun first m hnm hm =>
        (listRest_foretold (by omega) (by omega) hm).map _
    · rw [if_pos hopen]
      exact .expect_of_ne hb hopen

theorem listRest_foretold : {depth depth' n : Nat} →
    4 * b.ahead.length + 1 ≤ depth + 4 * n → 4 * b.ahead.length + 1 ≤ depth' + 4 * n → n ≤ b.ahead.length →
    Foretells b n (listRest depth) (Ahead.restEndWithin? b.kinds depth' n)
  | 0, _, _, h, _, hn => by omega
  | _ + 1, 0, _, _, h', hn => by omega
  | depth + 1, depth' + 1, n, h, h', hn => by
    rw [listRest_succ, Ahead.restEndWithin?]
    -- A comma carries the list on, a bracket ends it, and both ways of looking fail at anything else.
    by_cases hcomma : b.kinds n = .comma
    · have hlt := hb.lt_of_kind hcomma rfl
      rw [hcomma]
      dsimp only
      rw [Ahead.listEndWithin?_succ]
      refine .accept hcomma ?_
      rw [if_pos rfl]
      exact (typeWithin_foretold (by omega) (by omega) hlt).bind fun first m hnm hm =>
        (listRest_foretold (by omega) (by omega) hm).map _
    · refine .accept_of_ne hcomma ?_
      rw [if_neg Bool.false_ne_true, discard_bind_eq]
      by_cases hclose : b.kinds n = .larger
      · have hlt := hb.lt_of_kind hclose rfl
        rw [hclose]
        exact .expect hb hclose fun _ => .pure hlt []
      · have hnone : (match b.kinds n with
            | .comma => Ahead.listEndWithin? b.kinds (depth' + 1) (n + 1)
            | .larger => some (n + 1)
            | _ => none) = none := by
          split <;> first | contradiction | rfl
        rw [hnone]
        exact .expect_of_ne hb hclose

end

end

/-! ## Types in a buffer -/

variable {b : Buffer}

/-- The depth set for the types in a buffer is more than its tokens can use up. -/
theorem le_typeDepth (b : Buffer) : 4 * b.ahead.length + 4 ≤ typeDepth b := by
  have hahead : b.ahead.length = b.tokens.size - b.pos := by
    rw [b.ahead_eq, List.length_drop, Array.length_toList]
  rw [typeDepth, Buffer.remaining, hahead]
  omega

/-- At the depth that the parser has, looking ahead foretells where a type ends. -/
theorem type_foretold (hb : b.Clean) : Foretells b 0 type (Ahead.typeEndWithin? b.kinds (typeDepth b) 0) := by
  have hdepth := le_typeDepth b
  have htype : Foretells b 0 (typeWithin (typeDepth b)) (Ahead.typeEndWithin? b.kinds (typeDepth b) 0) :=
    typeWithin_foretold hb hdepth hdepth (Nat.zero_le _)
  exact .after (p := get) (a := b) (Nat.le_refl 0) rfl htype

/-- Looking ahead reads nothing. -/
theorem typeEnd?_run (n : Nat) :
    (typeEnd? n).run b = .ok (Ahead.typeEndWithin? b.kinds (typeDepth b) n, b) := rfl

/-- The look-ahead finds a type of `n` tokens exactly where the parser reads one and passes these tokens, and it finds
none exactly where the parser is stopped, which is then a fault of the text. -/
theorem typeEnd?_iff_type (hend : b.final.kind = .eof) (hwords : ∀ t ∈ b.tokens, t.kind ≠ .error) :
    (∀ n, (typeEnd? 0).run b = .ok (some n, b) ↔
      ∃ t b', type.run b = .ok (t, b') ∧ b' = b.passing n ∧ b'.pos = b.pos + n) ∧
    ((typeEnd? 0).run b = .ok (none, b) ↔ ∃ e, type.run b = .error e) ∧
    ∀ e, type.run b = .error e → e.fault ≠ .tooDeep := by
  have hforetold : Foretells b 0 type (Ahead.typeEndWithin? b.kinds (typeDepth b) 0) :=
    type_foretold ⟨hend, hwords⟩
  have hstart : b.passing 0 = b := rfl
  rw [typeEnd?_run]
  cases hfound : Ahead.typeEndWithin? b.kinds (typeDepth b) 0 with
  | none =>
    rw [hfound] at hforetold
    obtain ⟨e, he, hfault⟩ := hforetold
    rw [hstart] at he
    rw [he]
    refine ⟨fun n => ⟨?_, ?_⟩, ⟨fun _ => ⟨e, rfl⟩, fun _ => rfl⟩, ?_⟩
    · intro h
      cases h
    · rintro ⟨_, _, h, _⟩
      cases h
    · rintro _ ⟨⟩
      exact hfault
  | some m =>
    rw [hfound] at hforetold
    obtain ⟨-, hm, t, ht⟩ := hforetold
    rw [hstart] at ht
    have hpos := Buffer.pos_passing hm
    rw [ht]
    refine ⟨fun n => ⟨?_, ?_⟩, ⟨?_, ?_⟩, ?_⟩
    · rintro ⟨⟩
      exact ⟨t, _, rfl, rfl, hpos⟩
    · rintro ⟨_, _, ⟨⟩, -, hn⟩
      -- The parser has passed one number of tokens only.
      obtain rfl : m = n := by omega
      rfl
    · intro h
      cases h
    · rintro ⟨_, h⟩
      cases h
    · rintro _ h
      cases h

/-- A declaration, read up to its type `M<K,L<V>?>|N`. -/
def sharedDeclaration : Buffer :=
  (Buffer.ofTokens ⟨"types", ""⟩
    [⟨.lowerName, "shared", ⟨0, 1, 1⟩⟩, ⟨.upperName, "M", ⟨7, 1, 8⟩⟩, ⟨.smaller, "<", ⟨8, 1, 9⟩⟩,
      ⟨.upperName, "K", ⟨9, 1, 10⟩⟩, ⟨.comma, ",", ⟨10, 1, 11⟩⟩, ⟨.upperName, "L", ⟨11, 1, 12⟩⟩,
      ⟨.smaller, "<", ⟨12, 1, 13⟩⟩, ⟨.upperName, "V", ⟨13, 1, 14⟩⟩, ⟨.larger, ">", ⟨14, 1, 15⟩⟩,
      ⟨.question, "?", ⟨15, 1, 16⟩⟩, ⟨.larger, ">", ⟨16, 1, 17⟩⟩, ⟨.union, "|", ⟨17, 1, 18⟩⟩,
      ⟨.upperName, "N", ⟨18, 1, 19⟩⟩, ⟨.lowerName, "x", ⟨20, 1, 21⟩⟩, ⟨.semicolon, ";", ⟨21, 1, 22⟩⟩,
      ⟨.eof, "", ⟨22, 1, 23⟩⟩]).advance

theorem typeEnd?_iff_type_shared :
    (sharedDeclaration.final.kind = .eof ∧ ∀ t ∈ sharedDeclaration.tokens, t.kind ≠ .error) ∧
    (typeEnd? 0).run sharedDeclaration = .ok (some 12, sharedDeclaration) ∧
    ∃ t b', type.run sharedDeclaration = .ok (t, b') ∧ b' = sharedDeclaration.passing 12 ∧ b'.pos = 13 := by
  have hend : sharedDeclaration.final.kind = .eof := rfl
  have hwords : ∀ t ∈ sharedDeclaration.tokens, t.kind ≠ .error := by decide
  have hfound : (typeEnd? 0).run sharedDeclaration = .ok (some 12, sharedDeclaration) := by
    have hend? : Ahead.typeEndWithin? sharedDeclaration.kinds (typeDepth sharedDeclaration) 0 = some 12 := by
      decide +kernel
    rw [typeEnd?_run, hend?]
  exact ⟨⟨hend, hwords⟩, hfound, ((typeEnd?_iff_type hend hwords).1 12).mp hfound⟩

end Parser

end Syntax

end Ceylon
