import Ceylon.Proofs.Rendering
import Ceylon.Syntax.Parser.Stmt

/-!
# What parsers read

A parser that succeeds has passed tokens, and these are the rendering of what it returns
(`Spelled`).  A successful run of a composed parser is a chain of successful runs of its parts, so the
proofs take it apart into these (`Parser.bind_ok`, `Parser.expect_ok` and so on) and put the pieces of the
rendering together in the same order.
-/

namespace Ceylon

open Token (Buffer Kind)

/-! ## The tokens ahead -/

namespace Token.Buffer

/-- The tokens that have not been passed. -/
def rest (b : Buffer) : List Token :=
  b.tokens.toList.drop b.pos

/-- What remains of a buffer is what stands ahead. -/
theorem rest_eq_ahead (b : Buffer) : b.rest = b.ahead :=
  b.ahead_eq.symm

/-- The first token that has not been passed is the next one. -/
theorem peek_of_rest {b : Buffer} {t : Token} {ts : List Token} (h : b.rest = t :: ts) : b.peek = t := by
  rw [peek, peekAt, ← b.rest_eq_ahead, h]
  rfl

/-- The next token, and those behind it. -/
theorem rest_eq_cons {b : Buffer} (hend : b.final.kind = .eof) (h : b.peek.kind ≠ .eof) :
    b.rest = b.peek :: b.advance.rest := by
  rw [rest_eq_ahead, rest_eq_ahead]
  cases hahead : b.ahead with
  | nil =>
    rw [peek, peekAt, hahead] at h
    exact absurd hend h
  | cons t ts =>
    have hpeek : b.peek = t := by rw [peek, peekAt, hahead]; rfl
    have hadvance : b.advance.ahead = ts := congrArg List.tail hahead
    rw [hpeek, hadvance]

end Token.Buffer

namespace Syntax

/-! ## Spelling -/

/-- What spells items one after another spells them all. -/
theorem Spells.append {items items' : List Item} {ts us : List Token} (h : Spells items ts)
    (h' : Spells items' us) : Spells (items ++ items') (ts ++ us) := by
  induction h with
  | nil => exact h'
  | cons head tail ih =>
    rw [List.cons_append, List.append_assoc]
    exact .cons head ih

/-- A token that matches an item spells it. -/
theorem Spells.single {item : Item} {ts : List Token} (h : item.Matches ts) : Spells [item] ts := by
  simpa using Spells.cons h .nil

theorem following_cons (k : Kind) (x : List Item) (xs : List (List Item)) :
    following k (x :: xs) = [.kind k] ++ x ++ following k xs := by
  simp [following]

/-- The tokens between two places of a buffer spell the items. -/
def Spelled (b : Buffer) (items : List Item) (b' : Buffer) : Prop :=
  b.final.kind = .eof → b'.final = b.final ∧ ∃ ts, b.rest = ts ++ b'.rest ∧ Spells items ts

namespace Spelled

variable {b b' b'' : Buffer} {items items' : List Item}

/-- Nothing is spelled by reading nothing. -/
theorem nil (b : Buffer) : Spelled b [] b :=
  fun _ => ⟨rfl, [], rfl, .nil⟩

/-- What is read in parts is spelled in parts. -/
theorem append (h : Spelled b items b') (h' : Spelled b' items' b'') :
    Spelled b (items ++ items') b'' := by
  intro hend
  obtain ⟨hfinal, ts, hrest, hts⟩ := h hend
  obtain ⟨hfinal', us, hrest', hus⟩ := h' (hfinal ▸ hend)
  refine ⟨hfinal'.trans hfinal, ts ++ us, ?_, hts.append hus⟩
  rw [hrest, hrest', List.append_assoc]

/-- The next token is an item. -/
theorem next {item : Item} (h : b.peek.kind ≠ .eof) (hitem : item.Matches [b.peek]) :
    Spelled b [item] b.advance :=
  fun hend => ⟨rfl, [b.peek], Buffer.rest_eq_cons hend h, .single hitem⟩

/-- A token of a kind is spelled by that kind. -/
theorem kind {k : Kind} (h : b.peek.kind = k) (hk : (k == .eof) = false) :
    Spelled b [.kind k] b.advance :=
  next (h ▸ ne_of_beq_false hk) ⟨b.peek, rfl, h⟩

/-- A token that may be missing is there. -/
theorem present {k : Kind} (h : b.peek.kind = k) (hk : (k == .eof) = false) :
    Spelled b [.optional k] b.advance :=
  next (h ▸ ne_of_beq_false hk) (.inr ⟨b.peek, rfl, h⟩)

/-- A token that may be missing is missing. -/
theorem absent (b : Buffer) (k : Kind) : Spelled b [.optional k] b :=
  fun _ => ⟨rfl, [], rfl, .single (.inl rfl)⟩

/-- The first element of a list, a comma, and what follows it, if anything. -/
theorem listed_cons {x : List Item} {xs : List (List Item)} (hx : Spelled b x b')
    (hcomma : b'.peek.kind = .comma) (hxs : Spelled b'.advance (listed xs) b'') :
    Spelled b (listed (x :: xs)) b'' := by
  cases xs with
  | nil =>
    have hnil := (hx.append (present hcomma rfl)).append hxs
    rwa [listed, List.append_nil] at hnil
  | cons y ys => exact (hx.append (kind hcomma rfl)).append hxs

/-- The first element of a list and a comma before the next one. -/
theorem separated_cons {x y : List Item} {ys : List (List Item)} (hx : Spelled b x b')
    (hcomma : b'.peek.kind = .comma) (hys : Spelled b'.advance (separated .comma (y :: ys)) b'') :
    Spelled b (separated .comma (x :: y :: ys)) b'' := by
  have hall := hx.append ((kind hcomma rfl).append hys)
  rw [separated] at hall
  rwa [separated, following_cons, List.append_assoc]

end Spelled

/-! ## Successful runs -/

namespace Parser

variable {α β : Type} {b b' : Buffer}

/-- Parsers one after another succeed if the second one does where the first one leads. -/
theorem bind_ok {p : Parser α} {f : α → Parser β} {r : β × Buffer} :
    (p >>= f).run b = .ok r ↔ ∃ a b', p.run b = .ok (a, b') ∧ (f a).run b' = .ok r := by
  change (p.run b >>= fun s => (f s.1).run s.2) = .ok r ↔ _
  cases p.run b with
  | error e => simp [bind, Except.bind]
  | ok s =>
    constructor
    · exact fun h => ⟨s.1, s.2, rfl, h⟩
    · rintro ⟨_, _, ⟨⟩, h⟩
      exact h

/-- A parser that returns a value reads nothing. -/
theorem pure_ok {a : α} {r : α × Buffer} : (pure a : Parser α).run b = .ok r ↔ r = (a, b) := by
  change Except.ok (a, b) = .ok r ↔ _
  rw [Except.ok.injEq, eq_comm]

/-- A parser that fails does not succeed. -/
theorem fail_ok {fault : Fault} {r : α × Buffer} : ¬ (fail fault : Parser α).run b = .ok r :=
  nofun

theorem get_ok {r : Buffer × Buffer} : (get : Parser Buffer).run b = .ok r ↔ r = (b, b) := by
  change Except.ok (b, b) = .ok r ↔ _
  rw [Except.ok.injEq, eq_comm]

theorem get_bind {f : Buffer → Parser β} {r : β × Buffer} (h : (get >>= f).run b = .ok r) :
    (f b).run b = .ok r :=
  h

/-- What follows a look at the next token sees that token. -/
theorem peek_bind {f : Token → Parser β} {r : β × Buffer} (h : (peek >>= f).run b = .ok r) :
    (f b.peek).run b = .ok r := by
  obtain ⟨t, b', ht, h⟩ := bind_ok.mp h
  obtain ⟨_, _, hget, ht⟩ := bind_ok.mp ht
  cases get_ok.mp hget
  dsimp only at ht
  split at ht
  · exact absurd ht fail_ok
  · cases pure_ok.mp ht
    exact h

/-- What follows a look at the next kind sees that kind. -/
theorem peekKind_bind {f : Kind → Parser β} {r : β × Buffer} (h : (peekKind >>= f).run b = .ok r) :
    (f b.peek.kind).run b = .ok r := by
  rw [peekKind, bind_assoc] at h
  simpa using peek_bind h

/-- What follows the place sees the place of the next token. -/
theorem here_bind {f : Mark → Parser β} {r : β × Buffer} (h : (here >>= f).run b = .ok r) :
    (f { pos := b.peek.pos }).run b = .ok r := by
  rw [here, bind_assoc] at h
  simpa using peek_bind h

theorem kindAt_bind {n : Nat} {f : Kind → Parser β} {r : β × Buffer}
    (h : (kindAt n >>= f).run b = .ok r) : (f (b.peekAt n).kind).run b = .ok r :=
  h

/-- What follows the taking of a token goes on behind it. -/
theorem next_bind {f : Token → Parser β} {r : β × Buffer} (h : (next >>= f).run b = .ok r) :
    (f b.peek).run b.advance = .ok r := by
  rw [next, bind_assoc] at h
  exact peek_bind h

theorem discard_bind {p : Parser α} {f : PUnit → Parser β} {r : β × Buffer}
    (h : (discard p >>= f).run b = .ok r) : (p >>= fun _ => f ⟨⟩).run b = .ok r := by
  rw [Functor.discard, map_const, Function.comp_apply, map_eq_pure_bind, bind_assoc] at h
  simpa using h

/-- A token that is expected is there, and what follows goes on behind it. -/
theorem expect_bind {k : Kind} {f : Token → Parser β} {r : β × Buffer}
    (h : (expect k >>= f).run b = .ok r) : b.peek.kind = k ∧ (f b.peek).run b.advance = .ok r := by
  rw [expect, bind_assoc] at h
  have h := peek_bind h
  split at h
  · next hk => exact ⟨hk, h⟩
  · cases h

/-- An expected token whose text does not matter. -/
theorem expect_then {k : Kind} {f : PUnit → Parser β} {r : β × Buffer}
    (h : (discard (expect k) >>= f).run b = .ok r) : b.peek.kind = k ∧ (f ⟨⟩).run b.advance = .ok r :=
  expect_bind (discard_bind h)

theorem next_then {f : PUnit → Parser β} {r : β × Buffer} (h : (discard next >>= f).run b = .ok r) :
    (f ⟨⟩).run b.advance = .ok r :=
  next_bind (discard_bind h)

/-- A token that is accepted is passed if it is there. -/
theorem accept_bind {k : Kind} {f : Bool → Parser β} {r : β × Buffer}
    (h : (accept k >>= f).run b = .ok r) :
    (b.peek.kind = k ∧ (f true).run b.advance = .ok r) ∨ (b.peek.kind ≠ k ∧ (f false).run b = .ok r) := by
  rw [accept, bind_assoc] at h
  rw [StateT.run_bind, StateT.run_get, pure_bind] at h
  by_cases hk : b.peek.kind = k
  · simp only [Buffer.accept?, hk, decide_true, if_true] at h
    exact .inl ⟨hk, h⟩
  · simp only [Buffer.accept?, hk, decide_false, Bool.false_eq_true, if_false] at h
    exact .inr ⟨hk, h⟩

/-- A name in lower case is spelled by the next token. -/
theorem lowerName_bind {f : Name → Parser β} {r : β × Buffer} (h : (lowerName >>= f).run b = .ok r) :
    Spelled b (nameOf b.peek).lower b.advance ∧ (f (nameOf b.peek)).run b.advance = .ok r := by
  rw [lowerName, bind_assoc] at h
  obtain ⟨hk, h⟩ := expect_bind h
  exact ⟨.next (by rw [hk]; exact nofun) ⟨b.peek, rfl, hk, rfl⟩, by simpa using h⟩

/-- A name in upper case is spelled by the next token. -/
theorem upperName_bind {f : Name → Parser β} {r : β × Buffer} (h : (upperName >>= f).run b = .ok r) :
    Spelled b (nameOf b.peek).upper b.advance ∧ (f (nameOf b.peek)).run b.advance = .ok r := by
  rw [upperName, bind_assoc] at h
  obtain ⟨hk, h⟩ := expect_bind h
  exact ⟨.next (by rw [hk]; exact nofun) ⟨b.peek, rfl, hk, rfl⟩, by simpa using h⟩

/-! ## Types -/

/-- A type that is no union needs no parentheses. -/
theorem primary_of_not {isUnion : Bool} (h : isUnion = false) (items : List Item) :
    primary isUnion items = items := by
  simp [primary, h]

mutual

/-- A type is spelled as it has been read. -/
theorem typeWithin_spelled : {depth : Nat} → {b b' : Buffer} → {t : TypeRef} →
    (typeWithin depth).run b = .ok (t, b') → Spelled b t.rendering b'
  | 0, _, _, _, h => absurd h fail_ok
  | depth + 1, b, b', t, h => by
    obtain ⟨first, b₁, hfirst, h⟩ := bind_ok.mp h
    obtain ⟨hspelled, hprimary⟩ := primaryTypeWithin_spelled hfirst
    have h := peekKind_bind h
    split at h
    · obtain ⟨more, b₂, hmore, h⟩ := bind_ok.mp h
      cases pure_ok.mp h
      have hcases := hspelled.append (moreCasesWithin_spelled hmore)
      rwa [TypeRef.rendering, separated, primary_of_not hprimary]
    · cases pure_ok.mp h
      exact hspelled

theorem moreCasesWithin_spelled : {depth : Nat} → {b b' : Buffer} → {ts : List TypeRef} →
    (moreCasesWithin depth).run b = .ok (ts, b') → Spelled b (following .union (renderCases ts)) b'
  | 0, _, _, _, h => absurd h fail_ok
  | depth + 1, b, b', ts, h => by
    obtain ⟨hbar, h⟩ | ⟨-, h⟩ := accept_bind h
    · obtain ⟨t, b₁, ht, h⟩ := bind_ok.mp h
      obtain ⟨more, b₂, hmore, h⟩ := bind_ok.mp h
      cases pure_ok.mp h
      obtain ⟨hspelled, hprimary⟩ := primaryTypeWithin_spelled ht
      rw [renderCases, following_cons, primary_of_not hprimary]
      exact ((Spelled.kind hbar rfl).append hspelled).append (moreCasesWithin_spelled hmore)
    · cases pure_ok.mp h
      exact .nil b

/-- A type without cases is spelled as it has been read, and is no union. -/
theorem primaryTypeWithin_spelled : {depth : Nat} → {b b' : Buffer} → {t : TypeRef} →
    (primaryTypeWithin depth).run b = .ok (t, b') → Spelled b t.rendering b' ∧ t.isUnion = false
  | 0, _, _, _, h => absurd h fail_ok
  | depth + 1, b, b', t, h => by
    obtain ⟨base, b₁, hbase, h⟩ := bind_ok.mp h
    exact optionalWithin_spelled h (baseTypeWithin_spelled hbase) rfl

/-- Marks behind a type are spelled with it. -/
theorem optionalWithin_spelled : {depth : Nat} → {b₀ b b' : Buffer} → {t t' : TypeRef} →
    (optionalWithin t depth).run b = .ok (t', b') → Spelled b₀ t.rendering b → t.isUnion = false →
      Spelled b₀ t'.rendering b' ∧ t'.isUnion = false
  | 0, _, _, _, _, _, h, _, _ => absurd h fail_ok
  | depth + 1, b₀, b, b', t, t', h, ht, hprimary => by
    have h := peekKind_bind h
    split at h
    · next hmark =>
      have h := next_then h
      refine optionalWithin_spelled h ?_ rfl
      rw [TypeRef.rendering, primary_of_not hprimary]
      exact ht.append (.kind hmark rfl)
    · cases pure_ok.mp h
      exact ⟨ht, hprimary⟩

/-- A named type is spelled with its arguments. -/
theorem baseTypeWithin_spelled : {depth : Nat} → {b b' : Buffer} → {t : BaseType} →
    (baseTypeWithin depth).run b = .ok (t, b') → Spelled b t.rendering b'
  | 0, _, _, _, h => absurd h fail_ok
  | depth + 1, b, b', t, h => by
    have h := here_bind h
    obtain ⟨hname, h⟩ := upperName_bind h
    have h := peekKind_bind h
    split at h
    · obtain ⟨args, b₁, hargs, h⟩ := bind_ok.mp h
      cases pure_ok.mp h
      exact hname.append (typeArgsWithin_spelled hargs)
    · cases pure_ok.mp h
      exact hname.append (.nil _)

theorem typeArgsWithin_spelled : {depth : Nat} → {b b' : Buffer} → {ts : List TypeRef} →
    (typeArgsWithin depth).run b = .ok (ts, b') → Spelled b (bracketed (renderTypes ts)) b'
  | 0, _, _, _, h => absurd h fail_ok
  | depth + 1, b, b', ts, h => by
    obtain ⟨hopen, h⟩ := expect_then h
    obtain ⟨first, b₁, hfirst, h⟩ := bind_ok.mp h
    obtain ⟨more, b₂, hmore, h⟩ := bind_ok.mp h
    obtain ⟨hclose, h⟩ := expect_then h
    cases pure_ok.mp h
    have hlist := (typeWithin_spelled hfirst).append (moreTypesWithin_spelled hmore)
    exact ((Spelled.kind hopen rfl).append hlist).append (.kind hclose rfl)

theorem moreTypesWithin_spelled : {depth : Nat} → {b b' : Buffer} → {ts : List TypeRef} →
    (moreTypesWithin depth).run b = .ok (ts, b') → Spelled b (following .comma (renderTypes ts)) b'
  | 0, _, _, _, h => absurd h fail_ok
  | depth + 1, b, b', ts, h => by
    obtain ⟨hcomma, h⟩ | ⟨-, h⟩ := accept_bind h
    · obtain ⟨t, b₁, ht, h⟩ := bind_ok.mp h
      obtain ⟨more, b₂, hmore, h⟩ := bind_ok.mp h
      cases pure_ok.mp h
      rw [renderTypes, following_cons]
      exact ((Spelled.kind hcomma rfl).append (typeWithin_spelled ht)).append
        (moreTypesWithin_spelled hmore)
    · cases pure_ok.mp h
      exact .nil b

end

theorem type_spelled {b b' : Buffer} {t : TypeRef} (h : type.run b = .ok (t, b')) :
    Spelled b t.rendering b' :=
  typeWithin_spelled (get_bind h)

theorem baseType_spelled {b b' : Buffer} {t : BaseType} (h : baseType.run b = .ok (t, b')) :
    Spelled b t.rendering b' :=
  baseTypeWithin_spelled (get_bind h)

theorem typeArgs_spelled {b b' : Buffer} {ts : List TypeRef} (h : typeArgs.run b = .ok (ts, b')) :
    Spelled b (bracketed (renderTypes ts)) b' :=
  typeArgsWithin_spelled (get_bind h)

theorem moreTypes_spelled {b b' : Buffer} {ts : List TypeRef} (h : moreTypes.run b = .ok (ts, b')) :
    Spelled b (following .comma (renderTypes ts)) b' :=
  moreTypesWithin_spelled (get_bind h)

end Parser

end Syntax

end Ceylon
