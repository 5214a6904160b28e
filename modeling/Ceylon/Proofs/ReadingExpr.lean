import Ceylon.Proofs.Reading

/-!
# Reading expressions

An expression that is read binds at least as tight as the production demands that reads it, so each
operand has a rendering in its place.  A production that goes on behind an operand it was given, such as
that of the further operands of a level, is followed from where the operand began.
-/

namespace Ceylon.Syntax

open Token (Buffer Kind)

/-! ## Operators -/

theorem operand_of_le {place tightness : Nat} (h : place ≤ tightness) (items : List Item) :
    operand place tightness items = items :=
  if_pos h

/-- The operators of a level bind as tight as the level says, and group to the left; the test for a type
belongs to the level of comparisons. -/
theorem tightness_of_level {level : Nat} {l : Level} (h : binaryLevels[level]? = some l) :
    (∀ op ∈ l.operators, tightnessOf op.kind = level + 2 ∧ groupsRight op.kind = false) ∧
      (l.hasTest = true → testTightness = level + 2) := by
  have all : ∀ entry ∈ binaryLevels.toList.zipIdx,
      (∀ op ∈ entry.1.operators,
        tightnessOf op.kind = entry.2 + 2 ∧ groupsRight op.kind = false) ∧
      (entry.1.hasTest = true → testTightness = entry.2 + 2) := by
    decide +kernel
  exact all (l, level) (List.mem_zipIdx_iff_getElem?.mpr (by simpa using h))

theorem tightnessOf_power : tightnessOf .power = binaryLevels.size + 2 := by
  decide +kernel

/-- Operands of a left-grouping operator. -/
theorem rendering_binary_left {mark : Mark} (op : BinaryOp) {x y : Expr}
    (hop : groupsRight op.kind = false) (hx : tightnessOf op.kind ≤ x.tightness)
    (hy : tightnessOf op.kind + 1 ≤ y.tightness) :
    (Expr.binary mark op x y).rendering = x.rendering ++ [.kind op.kind] ++ y.rendering := by
  simp [Expr.rendering, hop, operand_of_le hx, operand_of_le hy]

/-- Operands of a right-grouping operator. -/
theorem rendering_binary_right {mark : Mark} (op : BinaryOp) {x y : Expr}
    (hop : groupsRight op.kind = true) (hx : tightnessOf op.kind + 1 ≤ x.tightness)
    (hy : tightnessOf op.kind ≤ y.tightness) :
    (Expr.binary mark op x y).rendering = x.rendering ++ [.kind op.kind] ++ y.rendering := by
  simp [Expr.rendering, hop, operand_of_le hx, operand_of_le hy]

theorem BinaryOp.kind_ne_eof (op : BinaryOp) : (op.kind == .eof) = false := by
  refine beq_false_of_ne fun h => ?_
  have := op.isBinary
  rw [h] at this
  revert this
  decide

theorem UnaryOp.kind_ne_eof (op : UnaryOp) : (op.kind == .eof) = false := by
  refine beq_false_of_ne fun h => ?_
  have := op.isUnary
  rw [h] at this
  revert this
  decide

/-- An assignment operator binds loosest and groups to the right. -/
theorem assignment_spec {k : Kind} {op : BinaryOp} (h : BinaryOp.assignment? k = some op) :
    op.kind = k ∧ tightnessOf op.kind = 0 ∧ groupsRight op.kind = true := by
  unfold BinaryOp.assignment? at h
  split at h
  · next hk =>
    cases h
    exact ⟨rfl, by simp [tightnessOf, hk], by simp [groupsRight, hk]⟩
  · cases h

theorem unary_spec {k : Kind} {op : UnaryOp} (h : UnaryOp.ofKind? k = some op) : op.kind = k := by
  unfold UnaryOp.ofKind? at h
  split at h
  · cases h
    rfl
  · cases h

/-! ## Expressions -/

namespace Parser

theorem typeArgsIfInvocation_spelled {b b' : Buffer} {ts : List TypeRef}
    (h : typeArgsIfInvocation.run b = .ok (ts, b')) : Spelled b (bracketed (renderTypes ts)) b' := by
  have h := peekKind_bind h
  split at h
  · cases pure_ok.mp h
    exact .nil b
  · obtain ⟨last, b₁, hlast, h⟩ := bind_ok.mp h
    cases hlast
    split at h
    · cases pure_ok.mp h
      exact .nil b
    · have h := kindAt_bind h
      split at h
      · exact typeArgs_spelled h
      · exact typeArgs_spelled h
      · exact typeArgs_spelled h
      · cases pure_ok.mp h
        exact .nil b

theorem literal_spelled {sort : LiteralKind} {b b' : Buffer} {x : Expr}
    (h : (literal sort).run b = .ok (x, b')) (hk : b.peek.kind = sort.tokenKind) :
    Spelled b x.rendering b' ∧ x.tightness = atomTightness := by
  have h := next_bind h
  cases pure_ok.mp h
  refine ⟨.next (by rw [hk]; cases sort <;> exact nofun) ⟨b.peek, rfl, hk, ?_⟩, rfl⟩
  cases sort <;> rfl

theorem selfReference_spelled {sort : SelfKind} {b b' : Buffer} {x : Expr}
    (h : (selfReference sort).run b = .ok (x, b')) (hk : b.peek.kind = sort.kind) :
    Spelled b x.rendering b' ∧ x.tightness = atomTightness := by
  have h := next_bind h
  cases pure_ok.mp h
  exact ⟨.kind hk (by cases sort <;> rfl), rfl⟩

/-- A member that is selected, whatever follows. -/
theorem member_spelled {β : Type} {mark : Mark} {x : Expr} (op : MemberOp) (next : Expr → Parser β)
    {b₀ b : Buffer} {r : β × Buffer} (hop : b.peek.kind = op.kind) (hx : Spelled b₀ x.rendering b)
    (htight : selectorTightness ≤ x.tightness)
    (h : (do
      if (← peekKind) = .upperName then
        let name ← upperName
        next (.qualified mark x op .type name (← typeArgsIfInvocation))
      else
        let name ← lowerName
        next (.qualified mark x op .member name (← typeArgsIfInvocation)) : Parser β).run b.advance =
          .ok r) :
    ∃ y b', Spelled b₀ y.rendering b' ∧ selectorTightness ≤ y.tightness ∧ (next y).run b' = .ok r := by
  have hx := hx.append (.kind hop (by cases op <;> rfl))
  have h := peekKind_bind h
  split at h
  · obtain ⟨hname, h⟩ := upperName_bind h
    obtain ⟨args, b', hargs, h⟩ := bind_ok.mp h
    refine ⟨_, b', ?_, Nat.le_refl _, h⟩
    -- The receiver binds tightly enough to stand without parentheses.
    rw [Expr.rendering, operand_of_le htight]
    exact (hx.append hname).append (typeArgsIfInvocation_spelled hargs)
  · obtain ⟨hname, h⟩ := lowerName_bind h
    obtain ⟨args, b', hargs, h⟩ := bind_ok.mp h
    refine ⟨_, b', ?_, Nat.le_refl _, h⟩
    rw [Expr.rendering, operand_of_le htight]
    exact (hx.append hname).append (typeArgsIfInvocation_spelled hargs)

mutual

theorem exprWithin_spelled : {depth : Nat} → {b b' : Buffer} → {x : Expr} →
    (exprWithin depth).run b = .ok (x, b') → Spelled b x.rendering b'
  | 0, _, _, _, h => absurd h fail_ok
  | depth + 1, b, b', x, h => by
    obtain ⟨left, b₁, hleft, h⟩ := bind_ok.mp h
    obtain ⟨hspelled, htight⟩ := defaultWithin_spelled hleft
    have h := peekKind_bind h
    split at h
    · next op hop =>
      have h := next_then h
      obtain ⟨right, b₂, hright, h⟩ := bind_ok.mp h
      cases pure_ok.mp h
      obtain ⟨hkind, hzero, hright'⟩ := assignment_spec hop
      rw [rendering_binary_right _ hright' (hzero ▸ htight) (hzero ▸ Nat.zero_le _)]
      exact (hspelled.append (.kind hkind.symm op.kind_ne_eof)).append (exprWithin_spelled hright)
    · cases pure_ok.mp h
      exact hspelled

theorem defaultWithin_spelled : {depth : Nat} → {b b' : Buffer} → {x : Expr} →
    (defaultWithin depth).run b = .ok (x, b') → Spelled b x.rendering b' ∧ 1 ≤ x.tightness
  | 0, _, _, _, h => absurd h fail_ok
  | depth + 1, b, b', x, h => by
    obtain ⟨first, b₁, hfirst, h⟩ := bind_ok.mp h
    obtain ⟨hspelled, htight⟩ := binaryWithin_spelled (Nat.zero_le _) hfirst
    exact moreDefaultsWithin_spelled h hspelled (by omega)

theorem moreDefaultsWithin_spelled : {depth : Nat} → {b₀ b b' : Buffer} → {x x' : Expr} →
    (moreDefaultsWithin x depth).run b = .ok (x', b') → Spelled b₀ x.rendering b → 1 ≤ x.tightness →
      Spelled b₀ x'.rendering b' ∧ 1 ≤ x'.tightness
  | 0, _, _, _, _, _, h, _, _ => absurd h fail_ok
  | depth + 1, b₀, b, b', x, x', h, hx, htight => by
    have h := peekKind_bind h
    split at h
    · next hk =>
      have h := next_then h
      obtain ⟨y, b₁, hy, h⟩ := bind_ok.mp h
      obtain ⟨hspelled, hytight⟩ := binaryWithin_spelled (Nat.zero_le _) hy
      refine moreDefaultsWithin_spelled h ?_ (Nat.le_refl 1)
      rw [rendering_binary_left (.of .default) rfl htight hytight]
      exact (hx.append (.kind hk rfl)).append hspelled
    · cases pure_ok.mp h
      exact ⟨hx, htight⟩

theorem binaryWithin_spelled : {depth level : Nat} → {b b' : Buffer} → {x : Expr} →
    level ≤ binaryLevels.size → (binaryWithin level depth).run b = .ok (x, b') →
      Spelled b x.rendering b' ∧ level + 2 ≤ x.tightness
  | 0, _, _, _, _, _, h => absurd h fail_ok
  | depth + 1, level, b, b', x, hlevel, h => by
    unfold binaryWithin at h
    split at h
    · next hnone =>
      obtain ⟨hspelled, htight⟩ := powerWithin_spelled h
      refine ⟨hspelled, Nat.le_trans ?_ htight⟩
      exact Nat.add_le_add_right hlevel 2
    · next operators hasTest hsome =>
      obtain ⟨first, b₁, hfirst, h⟩ := bind_ok.mp h
      have hlt : level < binaryLevels.size := (Array.getElem?_eq_some_iff.mp hsome).1
      obtain ⟨hspelled, htight⟩ := binaryWithin_spelled hlt hfirst
      exact moreOperandsWithin_spelled hsome h hspelled (by omega)

theorem moreOperandsWithin_spelled : {depth level : Nat} → {operators : List BinaryOp} →
    {hasTest : Bool} → {b₀ b b' : Buffer} → {x x' : Expr} →
    binaryLevels[level]? = some { operators, hasTest } →
    (moreOperandsWithin level operators hasTest x depth).run b = .ok (x', b') →
    Spelled b₀ x.rendering b → level + 2 ≤ x.tightness →
      Spelled b₀ x'.rendering b' ∧ level + 2 ≤ x'.tightness
  | 0, _, _, _, _, _, _, _, _, _, h, _, _ => absurd h fail_ok
  | depth + 1, level, operators, hasTest, b₀, b, b', x, x', hlevel, h, hx, htight => by
    obtain ⟨hoperators, htest⟩ := tightness_of_level hlevel
    have hlt : level < binaryLevels.size := (Array.getElem?_eq_some_iff.mp hlevel).1
    have h := peekKind_bind h
    -- Every turn of the loop puts what is read so far on the left of a new node. An operator of this level has
    -- the tightness of the level, which is what the next turn asks of its left operand.
    split at h
    · next hk =>
      simp only [Bool.and_eq_true, decide_eq_true_eq] at hk
      have h := next_then h
      obtain ⟨t, b₁, ht, h⟩ := bind_ok.mp h
      have htest := htest hk.1
      refine moreOperandsWithin_spelled hlevel h ?_ (Nat.le_of_eq htest.symm)
      rw [Expr.rendering, operand_of_le (htest ▸ htight)]
      exact (hx.append (.kind hk.2 rfl)).append (type_spelled ht)
    · split at h
      · next op hop =>
        have h := next_then h
        obtain ⟨y, b₁, hy, h⟩ := bind_ok.mp h
        obtain ⟨hspelled, hytight⟩ := binaryWithin_spelled hlt hy
        obtain ⟨hoptight, hleft⟩ := hoperators op (List.mem_of_find?_eq_some hop)
        have hkind : op.kind = b.peek.kind := by simpa using List.find?_some hop
        refine moreOperandsWithin_spelled hlevel h ?_ (Nat.le_of_eq hoptight.symm)
        rw [rendering_binary_left _ hleft (hoptight ▸ htight) (hoptight ▸ by omega)]
        exact (hx.append (.kind hkind.symm op.kind_ne_eof)).append hspelled
      · cases pure_ok.mp h
        exact ⟨hx, htight⟩

theorem powerWithin_spelled : {depth : Nat} → {b b' : Buffer} → {x : Expr} →
    (powerWithin depth).run b = .ok (x, b') →
      Spelled b x.rendering b' ∧ binaryLevels.size + 2 ≤ x.tightness
  | 0, _, _, _, h => absurd h fail_ok
  | depth + 1, b, b', x, h => by
    obtain ⟨left, b₁, hleft, h⟩ := bind_ok.mp h
    obtain ⟨hspelled, htight⟩ := prefixWithin_spelled hleft
    have h := peekKind_bind h
    split at h
    · next hk =>
      have h := next_then h
      obtain ⟨right, b₂, hright, h⟩ := bind_ok.mp h
      cases pure_ok.mp h
      obtain ⟨hspelled', htight'⟩ := powerWithin_spelled hright
      refine ⟨?_, Nat.le_of_eq tightnessOf_power.symm⟩
      -- A power groups to the right: its left side binds tighter, and its right side may be a power again.
      have hplace : tightnessOf .power + 1 ≤ left.tightness := by
        rw [tightnessOf_power]
        exact htight
      rw [rendering_binary_right (.of .power) rfl hplace (tightnessOf_power ▸ htight')]
      exact (hspelled.append (.kind hk rfl)).append hspelled'
    · cases pure_ok.mp h
      exact ⟨hspelled, Nat.le_of_succ_le htight⟩

theorem prefixWithin_spelled : {depth : Nat} → {b b' : Buffer} → {x : Expr} →
    (prefixWithin depth).run b = .ok (x, b') → Spelled b x.rendering b' ∧ prefixTightness ≤ x.tightness
  | 0, _, _, _, h => absurd h fail_ok
  | depth + 1, b, b', x, h => by
    have h := peekKind_bind h
    split at h
    · next op hop =>
      have h := next_bind h
      obtain ⟨y, b₁, hy, h⟩ := bind_ok.mp h
      cases pure_ok.mp h
      obtain ⟨hspelled, htight⟩ := prefixWithin_spelled hy
      refine ⟨?_, Nat.le_refl _⟩
      rw [Expr.rendering, operand_of_le htight]
      exact (Spelled.kind (unary_spec hop).symm op.kind_ne_eof).append hspelled
    · obtain ⟨y, b₁, hy, h⟩ := bind_ok.mp h
      obtain ⟨hspelled, htight⟩ := primaryWithin_spelled hy
      obtain ⟨hspelled, htight⟩ := postfixWithin_spelled h hspelled (Nat.le_of_succ_le htight)
      exact ⟨hspelled, Nat.le_of_succ_le htight⟩

theorem postfixWithin_spelled : {depth : Nat} → {b₀ b b' : Buffer} → {x x' : Expr} →
    (postfixWithin x depth).run b = .ok (x', b') → Spelled b₀ x.rendering b →
      postfixTightness ≤ x.tightness → Spelled b₀ x'.rendering b' ∧ postfixTightness ≤ x'.tightness
  | 0, _, _, _, _, _, h, _, _ => absurd h fail_ok
  | depth + 1, b₀, b, b', x, x', h, hx, htight => by
    have h := peekKind_bind h
    -- each postfix operator wraps what is read so far and is as tight as the level asks
    split at h
    · next hk =>
      have h := next_bind h
      refine postfixWithin_spelled h ?_ (Nat.le_refl _)
      rw [Expr.rendering, operand_of_le htight]
      exact hx.append (.kind rfl (by rw [hk]; rfl))
    · next hk =>
      have h := next_bind h
      refine postfixWithin_spelled h ?_ (Nat.le_refl _)
      rw [Expr.rendering, operand_of_le htight]
      exact hx.append (.kind rfl (by rw [hk]; rfl))
    · next hk =>
      have h := next_then h
      refine postfixWithin_spelled h ?_ (Nat.le_refl _)
      rw [Expr.rendering, operand_of_le htight]
      exact hx.append (.kind hk rfl)
    · next hk =>
      have h := next_then h
      refine postfixWithin_spelled h ?_ (Nat.le_refl _)
      rw [Expr.rendering, operand_of_le htight]
      exact hx.append (.kind hk rfl)
    · cases pure_ok.mp h
      exact ⟨hx, htight⟩

theorem primaryWithin_spelled : {depth : Nat} → {b b' : Buffer} → {x : Expr} →
    (primaryWithin depth).run b = .ok (x, b') → Spelled b x.rendering b' ∧ selectorTightness ≤ x.tightness
  | 0, _, _, _, h => absurd h fail_ok
  | depth + 1, b, b', x, h => by
    obtain ⟨atom, b₁, hatom, h⟩ := bind_ok.mp h
    obtain ⟨hspelled, htight⟩ := atomWithin_spelled hatom
    exact selectorsWithin_spelled h hspelled (htight ▸ Nat.le_succ _)

theorem selectorsWithin_spelled : {depth : Nat} → {b₀ b b' : Buffer} → {x x' : Expr} →
    (selectorsWithin x depth).run b = .ok (x', b') → Spelled b₀ x.rendering b →
      selectorTightness ≤ x.tightness →
      Spelled b₀ x'.rendering b' ∧ selectorTightness ≤ x'.tightness
  | 0, _, _, _, _, _, h, _, _ => absurd h fail_ok
  | depth + 1, b₀, b, b', x, x', h, hx, htight => by
    have h := peekKind_bind h
    -- The three kinds of member access, the two of an index, the two argument lists, and the end of the chain.
    split at h
    · next hk =>
      obtain ⟨y, b₁, hy, hytight, h⟩ := member_spelled .plain (selectorsWithin · depth)
        hk hx htight (by simpa only [hk] using next_bind h)
      exact selectorsWithin_spelled h hy hytight
    · next hk =>
      obtain ⟨y, b₁, hy, hytight, h⟩ := member_spelled .safe (selectorsWithin · depth)
        hk hx htight (by simpa only [hk] using next_bind h)
      exact selectorsWithin_spelled h hy hytight
    · next hk =>
      obtain ⟨y, b₁, hy, hytight, h⟩ := member_spelled .spread (selectorsWithin · depth)
        hk hx htight (by simpa only [hk] using next_bind h)
      exact selectorsWithin_spelled h hy hytight
    · next hk =>
      have h := next_bind h
      obtain ⟨s, b₁, hs, h⟩ := bind_ok.mp h
      obtain ⟨hclose, h⟩ := expect_then h
      refine selectorsWithin_spelled h ?_ (Nat.le_refl _)
      simp only [Expr.rendering, operand_of_le htight, hk]
      exact ((hx.append (.kind hk rfl)).append (subscriptWithin_spelled hs)).append (.kind hclose rfl)
    · next hk =>
      have h := next_bind h
      obtain ⟨s, b₁, hs, h⟩ := bind_ok.mp h
      obtain ⟨hclose, h⟩ := expect_then h
      refine selectorsWithin_spelled h ?_ (Nat.le_refl _)
      simp only [Expr.rendering, operand_of_le htight, hk]
      exact ((hx.append (.kind hk rfl)).append (subscriptWithin_spelled hs)).append (.kind hclose rfl)
    · next hk =>
      obtain ⟨args, b₁, hargs, h⟩ := bind_ok.mp h
      refine selectorsWithin_spelled h ?_ (Nat.le_refl _)
      rw [Expr.rendering, operand_of_le htight]
      exact hx.append (positionalWithin_spelled hargs)
    · next hk =>
      split at h
      · obtain ⟨args, b₁, hargs, h⟩ := bind_ok.mp h
        refine selectorsWithin_spelled h ?_ (Nat.le_refl _)
        rw [Expr.rendering, operand_of_le htight]
        exact hx.append (namedWithin_spelled hargs)
      · cases pure_ok.mp h
        exact ⟨hx, htight⟩
    · cases pure_ok.mp h
      exact ⟨hx, htight⟩

theorem subscriptWithin_spelled : {depth : Nat} → {b b' : Buffer} → {s : Subscript} →
    (subscriptWithin depth).run b = .ok (s, b') → Spelled b s.rendering b'
  | 0, _, _, _, h => absurd h fail_ok
  | depth + 1, b, b', s, h => by
    obtain ⟨lower, b₁, hlower, h⟩ := bind_ok.mp h
    obtain ⟨hspelled, htight⟩ := binaryWithin_spelled (by decide) hlower
    obtain ⟨hrange, h⟩ | ⟨-, h⟩ := accept_bind h
    · obtain ⟨upper, b₂, hupper, h⟩ := bind_ok.mp h
      cases pure_ok.mp h
      obtain ⟨hspelled', htight'⟩ := binaryWithin_spelled (by decide) hupper
      rw [Subscript.rendering, operand_of_le htight, operand_of_le htight']
      exact (hspelled.append (.kind hrange rfl)).append hspelled'
    · obtain ⟨htail, h⟩ | ⟨-, h⟩ := accept_bind h
      · cases pure_ok.mp h
        rw [Subscript.rendering, operand_of_le htight]
        exact hspelled.append (.kind htail rfl)
      · cases pure_ok.mp h
        rw [Subscript.rendering, operand_of_le htight]
        exact hspelled

theorem atomWithin_spelled : {depth : Nat} → {b b' : Buffer} → {x : Expr} →
    (atomWithin depth).run b = .ok (x, b') → Spelled b x.rendering b' ∧ x.tightness = atomTightness
  | 0, _, _, _, h => absurd h fail_ok
  | depth + 1, b, b', x, h => by
    have h := peek_bind h
    dsimp only at h
    -- By the kind of the first token. A sequence and a parenthesis need their closing token too.
    split at h
    · obtain ⟨hname, h⟩ := lowerName_bind h
      obtain ⟨args, b₁, hargs, h⟩ := bind_ok.mp h
      cases pure_ok.mp h
      exact ⟨hname.append (typeArgsIfInvocation_spelled hargs), rfl⟩
    · obtain ⟨hname, h⟩ := upperName_bind h
      obtain ⟨args, b₁, hargs, h⟩ := bind_ok.mp h
      cases pure_ok.mp h
      exact ⟨hname.append (typeArgsIfInvocation_spelled hargs), rfl⟩
    · next hk => exact literal_spelled h hk
    · next hk => exact literal_spelled h hk
    · next hk => exact literal_spelled h hk
    · next hk => exact literal_spelled h hk
    · next hk => exact literal_spelled h hk
    · next hk => exact selfReference_spelled h hk
    · next hk => exact selfReference_spelled h hk
    · next hk => exact selfReference_spelled h hk
    · next hk =>
      have h := next_then h
      obtain ⟨y, b₁, hy, h⟩ := bind_ok.mp h
      obtain ⟨hclose, h⟩ := expect_then h
      cases pure_ok.mp h
      exact ⟨((Spelled.kind hk rfl).append (exprWithin_spelled hy)).append (.kind hclose rfl), rfl⟩
    · next hk =>
      have h := next_then h
      obtain ⟨elems, b₁, helems, h⟩ := bind_ok.mp h
      obtain ⟨hclose, h⟩ := expect_then h
      cases pure_ok.mp h
      exact ⟨((Spelled.kind hk rfl).append (exprsWithin_spelled helems)).append (.kind hclose rfl), rfl⟩
    · exact absurd h fail_ok

theorem exprsWithin_spelled : {depth : Nat} → {close : Kind} → {b b' : Buffer} → {xs : List Expr} →
    (exprsWithin close depth).run b = .ok (xs, b') → Spelled b (listed (renderExprs xs)) b'
  | 0, _, _, _, _, h => absurd h fail_ok
  | depth + 1, close, b, b', xs, h => by
    have h := peekKind_bind h
    split at h
    · cases pure_ok.mp h
      exact .nil b
    · obtain ⟨x, b₁, hx, h⟩ := bind_ok.mp h
      have hx := exprWithin_spelled hx
      obtain ⟨hcomma, h⟩ | ⟨-, h⟩ := accept_bind h
      · obtain ⟨more, b₂, hmore, h⟩ := bind_ok.mp h
        cases pure_ok.mp h
        exact hx.listed_cons hcomma (exprsWithin_spelled hmore)
      · cases pure_ok.mp h
        exact hx.append (.absent _ _)

theorem positionalWithin_spelled : {depth : Nat} → {b b' : Buffer} → {a : PositionalArgs} →
    (positionalWithin depth).run b = .ok (a, b') → Spelled b a.rendering b'
  | 0, _, _, _, h => absurd h fail_ok
  | depth + 1, b, b', a, h => by
    obtain ⟨hopen, h⟩ := expect_bind h
    obtain ⟨args, b₁, hargs, h⟩ := bind_ok.mp h
    obtain ⟨hclose, h⟩ := expect_then h
    cases pure_ok.mp h
    exact ((Spelled.kind hopen rfl).append (exprsWithin_spelled hargs)).append (.kind hclose rfl)

theorem namedWithin_spelled : {depth : Nat} → {b b' : Buffer} → {a : NamedArgs} →
    (namedWithin depth).run b = .ok (a, b') → Spelled b a.rendering b'
  | 0, _, _, _, h => absurd h fail_ok
  | depth + 1, b, b', a, h => by
    obtain ⟨hopen, h⟩ := expect_bind h
    obtain ⟨args, b₁, hargs, h⟩ := bind_ok.mp h
    have hargs := (Spelled.kind hopen rfl).append (namedArgsWithin_spelled hargs)
    have h := peekKind_bind h
    split at h
    · obtain ⟨hclose, h⟩ := expect_then h
      cases pure_ok.mp h
      exact (hargs.append (.nil _)).append (.kind hclose rfl)
    · have h := here_bind h
      obtain ⟨values, b₂, hvalues, h⟩ := bind_ok.mp h
      obtain ⟨hclose, h⟩ := expect_then h
      cases pure_ok.mp h
      exact (hargs.append (sequencedWithin_spelled hvalues).1).append (.kind hclose rfl)

theorem namedArgsWithin_spelled : {depth : Nat} → {b b' : Buffer} → {as : List NamedArg} →
    (namedArgsWithin depth).run b = .ok (as, b') → Spelled b (renderNamed as) b'
  | 0, _, _, _, h => absurd h fail_ok
  | depth + 1, b, b', as, h => by
    have h := peekKind_bind h
    have h := kindAt_bind h
    split at h
    · have h := here_bind h
      obtain ⟨hname, h⟩ := lowerName_bind h
      obtain ⟨hspecify, h⟩ := expect_then h
      obtain ⟨value, b₁, hvalue, h⟩ := bind_ok.mp h
      obtain ⟨hsemicolon, h⟩ := expect_then h
      obtain ⟨more, b₂, hmore, h⟩ := bind_ok.mp h
      cases pure_ok.mp h
      exact (((hname.append (.kind hspecify rfl)).append (exprWithin_spelled hvalue)).append
        (.kind hsemicolon rfl)).append (namedArgsWithin_spelled hmore)
    · cases pure_ok.mp h
      exact .nil b

theorem sequencedWithin_spelled : {depth : Nat} → {b b' : Buffer} → {xs : List Expr} →
    (sequencedWithin depth).run b = .ok (xs, b') →
      Spelled b (separated .comma (renderExprs xs)) b' ∧ xs ≠ []
  | 0, _, _, _, h => absurd h fail_ok
  | depth + 1, b, b', xs, h => by
    obtain ⟨x, b₁, hx, h⟩ := bind_ok.mp h
    have hx := exprWithin_spelled hx
    obtain ⟨hcomma, h⟩ | ⟨-, h⟩ := accept_bind h
    · obtain ⟨more, b₂, hmore, h⟩ := bind_ok.mp h
      cases pure_ok.mp h
      obtain ⟨hmore, hne⟩ := sequencedWithin_spelled hmore
      obtain ⟨y, ys, rfl⟩ := List.exists_cons_of_ne_nil hne
      exact ⟨hx.separated_cons hcomma hmore, List.cons_ne_nil _ _⟩
    · cases pure_ok.mp h
      exact ⟨hx.append (.nil _), List.cons_ne_nil _ _⟩

end

theorem expr_spelled {b b' : Buffer} {x : Expr} (h : expr.run b = .ok (x, b')) :
    Spelled b x.rendering b' :=
  exprWithin_spelled (get_bind h)

theorem positional_spelled {b b' : Buffer} {a : PositionalArgs}
    (h : positional.run b = .ok (a, b')) : Spelled b a.rendering b' :=
  positionalWithin_spelled (get_bind h)

end Parser

end Ceylon.Syntax
