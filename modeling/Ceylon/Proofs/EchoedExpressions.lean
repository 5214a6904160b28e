import Ceylon.Proofs.Echoes

/-!
# Expressions in another text

The same words are the same types and expressions in every text that goes along with them, but for marks.
-/

namespace Ceylon

open Token (Buffer Kind)

namespace Syntax

open Token.Buffer (Along)
open Token.Buffer.Along (Alike)

namespace Parser

variable {α γ : Type} {closed : Bool} {view : α → γ} {b : Buffer} {extra : Nat}

/-! ## Types -/

mutual

/-- A type is read alike. -/
theorem typeWithin_echoes : {depth : Nat} → {b : Buffer} →
    Echoes false TypeRef.unmarked b (typeWithin depth) (typeWithin (depth + extra))
  | 0, _ => by
    rw [typeWithin]
    exact .fail
  | depth + 1, b => by
    rw [typeWithin, Nat.add_right_comm, typeWithin]
    refine .bind primaryTypeWithin_echoes fun first first' _ hfirst _ => .ifNext (by decide) (fun _ => ?_) fun _ =>
      .pure hfirst
    exact .map moreCasesWithin_echoes fun _ _ hmore => by simp [TypeRef.unmarked, hfirst, hmore]

theorem moreCasesWithin_echoes : {depth : Nat} → {b : Buffer} →
    Echoes false unmarkedTypes b (moreCasesWithin depth) (moreCasesWithin (depth + extra))
  | 0, _ => by
    rw [moreCasesWithin]
    exact .fail
  | depth + 1, b => by
    rw [moreCasesWithin, Nat.add_right_comm, moreCasesWithin]
    refine .accept rfl (fun _ => ?_) fun _ => .pure rfl
    exact .bind primaryTypeWithin_echoes fun first first' _ hfirst _ =>
      .map moreCasesWithin_echoes fun _ _ hmore => by simp [unmarkedTypes, hfirst, hmore]

theorem primaryTypeWithin_echoes : {depth : Nat} → {b : Buffer} →
    Echoes false TypeRef.unmarked b (primaryTypeWithin depth) (primaryTypeWithin (depth + extra))
  | 0, _ => by
    rw [primaryTypeWithin]
    exact .fail
  | depth + 1, b => by
    rw [primaryTypeWithin, Nat.add_right_comm, primaryTypeWithin]
    exact .bind baseTypeWithin_echoes fun base base' _ hbase _ =>
      optionalWithin_echoes (congrArg TypeRef.base hbase)

/-- Marks behind a type are read alike. -/
theorem optionalWithin_echoes : {depth : Nat} → {b : Buffer} → {t t' : TypeRef} →
    t'.unmarked = t.unmarked →
    Echoes false TypeRef.unmarked b (optionalWithin t depth) (optionalWithin t' (depth + extra))
  | 0, _, _, _, _ => by
    rw [optionalWithin]
    exact .fail
  | depth + 1, b, t, t', ht => by
    rw [optionalWithin, Nat.add_right_comm, optionalWithin]
    refine .ifNext (by decide) (fun hmark => .skipNext (by rw [hmark]; decide) ?_) fun _ => .pure ht
    exact optionalWithin_echoes (by simp [TypeRef.unmarked, ht])

theorem baseTypeWithin_echoes : {depth : Nat} → {b : Buffer} →
    Echoes false BaseType.unmarked b (baseTypeWithin depth) (baseTypeWithin (depth + extra))
  | 0, _ => by
    rw [baseTypeWithin]
    exact .fail
  | depth + 1, b => by
    rw [baseTypeWithin, Nat.add_right_comm, baseTypeWithin]
    refine .here fun _ _ => .bind .upperName fun name name' _ hname _ => .ifNext (by decide) (fun _ => ?_) fun _ =>
      .pure (by simp [BaseType.unmarked, hname])
    exact .map typeArgsWithin_echoes fun _ _ hargs => by simp [BaseType.unmarked, hname, hargs]

theorem typeArgsWithin_echoes : {depth : Nat} → {b : Buffer} →
    Echoes false unmarkedTypes b (typeArgsWithin depth) (typeArgsWithin (depth + extra))
  | 0, _ => by
    rw [typeArgsWithin]
    exact .fail
  | depth + 1, b => by
    rw [typeArgsWithin, Nat.add_right_comm, typeArgsWithin]
    refine .skip (by decide) fun _ => .bind typeWithin_echoes fun first first' _ hfirst _ =>
      .bind moreTypesWithin_echoes fun more more' _ hmore _ => .skip (by decide) fun _ => ?_
    exact .pure (by simp [unmarkedTypes, hfirst, hmore])

theorem moreTypesWithin_echoes : {depth : Nat} → {b : Buffer} →
    Echoes false unmarkedTypes b (moreTypesWithin depth) (moreTypesWithin (depth + extra))
  | 0, _ => by
    rw [moreTypesWithin]
    exact .fail
  | depth + 1, b => by
    rw [moreTypesWithin, Nat.add_right_comm, moreTypesWithin]
    refine .accept rfl (fun _ => ?_) fun _ => .pure rfl
    exact .bind typeWithin_echoes fun first first' _ hfirst _ =>
      .map moreTypesWithin_echoes fun _ _ hmore => by simp [unmarkedTypes, hfirst, hmore]

end

/-- The echo may go deeper. -/
theorem Echoes.deeper {p : Nat → Parser α} {d d' : Nat} (h : d ≤ d')
    (hp : ∀ extra, Echoes closed view b (p d) (p (d + extra))) : Echoes closed view b (p d) (p d') := by
  obtain ⟨extra, rfl⟩ := Nat.exists_eq_add_of_le h
  exact hp extra

/-- There is depth enough in the longer text. -/
theorem typeDepth_le {c : Buffer} (h : b.ahead.length ≤ c.ahead.length) : typeDepth b ≤ typeDepth c := by
  have := Buffer.remaining_le h
  rw [typeDepth, typeDepth]
  omega

theorem type_echoes : Echoes false TypeRef.unmarked b type type :=
  .get fun _ h => .deeper (typeDepth_le h) fun _ => typeWithin_echoes

theorem baseType_echoes : Echoes false BaseType.unmarked b baseType baseType :=
  .get fun _ h => .deeper (typeDepth_le h) fun _ => baseTypeWithin_echoes

theorem typeArgs_echoes : Echoes false unmarkedTypes b typeArgs typeArgs :=
  .get fun _ h => .deeper (typeDepth_le h) fun _ => typeArgsWithin_echoes

theorem moreTypes_echoes : Echoes false unmarkedTypes b moreTypes moreTypes :=
  .get fun _ h => .deeper (typeDepth_le h) fun _ => moreTypesWithin_echoes

/-! ## Expressions -/

/-- Type arguments are looked for and read alike. -/
theorem typeArgsIfInvocation_echoes : Echoes false unmarkedTypes b typeArgsIfInvocation typeArgsIfInvocation := by
  simp only [typeArgsIfInvocation, ne_eq, ite_not]
  refine .ifNext (by decide) (fun _ => ?_) fun _ => .pure rfl
  refine .look (r := fun c => Ahead.argsEndWithin? c.kinds (typeDepth c) 0) (fun _ => rfl)
    (fun c m h => (typeArgsEnd?_agree h (Nat.zero_le m)).1) ?_
  cases hargs : Ahead.argsEndWithin? b.kinds (typeDepth b) 0 with
  | none => exact .pure rfl
  | some n =>
    refine .byKindAt (fun c m h => ((typeArgsEnd?_agree h (Nat.zero_le m)).2 n hargs).2) ?_ fun _ => .pure rfl
    generalize (b.peekAt n).kind = k
    split
    · exact typeArgs_echoes
    · exact typeArgs_echoes
    · exact typeArgs_echoes
    · exact .pure rfl

/-- A token that cannot be the end of the text. -/
theorem ne_eof_of {k : Kind} (h : b.peek.kind = k) (hk : k ≠ .eof := by decide) : b.peek.kind ≠ .eof :=
  h ▸ hk

theorem literal_echoes {kind : LiteralKind} (hne : b.peek.kind ≠ .eof) :
    Echoes false Expr.unmarked b (literal kind) (literal kind) :=
  .nextThen hne fun t ht => .pure (by rw [(Prod.mk.inj ht).2]; cases kind <;> rfl)

theorem selfReference_echoes {kind : SelfKind} (hne : b.peek.kind ≠ .eof) :
    Echoes false Expr.unmarked b (selfReference kind) (selfReference kind) :=
  .nextThen hne fun _ _ => .pure rfl

/-- Neither the end of the text nor a semicolon is an operator. -/
theorem find?_binary_none {operators : List BinaryOp} {k : Kind} (h : k.isBinary = false) :
    operators.find? (·.kind = k) = none := by
  refine List.find?_eq_none.mpr fun op _ hop => ?_
  have hbinary := op.isBinary
  rw [of_decide_eq_true hop, h] at hbinary
  exact Bool.false_ne_true hbinary

mutual

/-- An expression is read alike. -/
theorem exprWithin_echoes : {depth : Nat} → {b : Buffer} →
    Echoes false Expr.unmarked b (exprWithin depth) (exprWithin (depth + extra))
  | 0, _ => by
    rw [exprWithin]
    exact .fail
  | depth + 1, b => by
    rw [exprWithin, Nat.add_right_comm, exprWithin]
    refine .bind defaultWithin_echoes fun x x' b hx _ => .byKind ?_ fun _ => .pure hx
    cases hop : BinaryOp.assignment? b.peek.kind with
    | none => exact .pure hx
    | some op =>
      have hne : b.peek.kind ≠ .eof := by
        rintro heof
        rw [heof] at hop
        cases hop
      exact .skipNext hne (.map exprWithin_echoes fun _ _ hy => by simp [Expr.unmarked, hx, hy])

theorem defaultWithin_echoes : {depth : Nat} → {b : Buffer} →
    Echoes false Expr.unmarked b (defaultWithin depth) (defaultWithin (depth + extra))
  | 0, _ => by
    rw [defaultWithin]
    exact .fail
  | depth + 1, b => by
    rw [defaultWithin, Nat.add_right_comm, defaultWithin]
    exact .bind (binaryWithin_echoes 0) fun _ _ _ hx _ => moreDefaultsWithin_echoes hx

/-- More default operators behind an expression are read alike. -/
theorem moreDefaultsWithin_echoes : {depth : Nat} → {b : Buffer} → {x x' : Expr} →
    x'.unmarked = x.unmarked →
    Echoes false Expr.unmarked b (moreDefaultsWithin x depth) (moreDefaultsWithin x' (depth + extra))
  | 0, _, _, _, _ => by
    rw [moreDefaultsWithin]
    exact .fail
  | depth + 1, b, x, x', hx => by
    rw [moreDefaultsWithin, Nat.add_right_comm, moreDefaultsWithin]
    refine .ifNext (by decide) (fun hkind => .skipNext (ne_eof_of hkind) ?_) fun _ => .pure hx
    exact .bind (binaryWithin_echoes 0) fun _ _ _ hy _ =>
      moreDefaultsWithin_echoes (by simp [Expr.unmarked, hx, hy])

theorem binaryWithin_echoes (level : Nat) : {depth : Nat} → {b : Buffer} →
    Echoes false Expr.unmarked b (binaryWithin level depth) (binaryWithin level (depth + extra))
  | 0, _ => by
    rw [binaryWithin]
    exact .fail
  | depth + 1, b => by
    rw [binaryWithin, Nat.add_right_comm, binaryWithin]
    cases binaryLevels[level]? with
    | none => exact powerWithin_echoes
    | some l =>
      exact .bind (binaryWithin_echoes (level + 1)) fun _ _ _ hx _ =>
        moreOperandsWithin_echoes level l.operators l.hasTest hx

/-- More operands behind an expression are read alike, at every level. -/
theorem moreOperandsWithin_echoes (level : Nat) (operators : List BinaryOp) (hasTest : Bool) :
    {depth : Nat} → {b : Buffer} → {x x' : Expr} → x'.unmarked = x.unmarked →
    Echoes false Expr.unmarked b (moreOperandsWithin level operators hasTest x depth)
      (moreOperandsWithin level operators hasTest x' (depth + extra))
  | 0, _, _, _, _ => by
    rw [moreOperandsWithin]
    exact .fail
  | depth + 1, b, x, x', hx => by
    rw [moreOperandsWithin, Nat.add_right_comm, moreOperandsWithin]
    refine .byKind ?_ fun _ => ?_
    · split
      · -- The test of a type ends a level, as there is at most one.
        next htest =>
        have hkind : b.peek.kind = .kwIs := by simp_all
        refine .skipNext (ne_eof_of hkind) (.bind type_echoes fun _ _ _ ht _ => ?_)
        exact moreOperandsWithin_echoes level operators hasTest (by simp [Expr.unmarked, hx, ht])
      · cases hop : operators.find? (·.kind = b.peek.kind) with
        | none => exact .pure hx
        | some op =>
          have hne : b.peek.kind ≠ .eof := by
            rintro heof
            rw [heof, find?_binary_none rfl] at hop
            cases hop
          refine .skipNext hne (.bind (binaryWithin_echoes (level + 1)) fun _ _ _ hy _ => ?_)
          exact moreOperandsWithin_echoes level operators hasTest (by simp [Expr.unmarked, hx, hy])
    · -- At the end of the first text no operator follows, and at a semicolon neither.
      simp only [reduceCtorEq, decide_false, Bool.and_false, Bool.false_eq_true, if_false]
      rw [find?_binary_none rfl, find?_binary_none rfl]
      exact .pure hx

theorem powerWithin_echoes : {depth : Nat} → {b : Buffer} →
    Echoes false Expr.unmarked b (powerWithin depth) (powerWithin (depth + extra))
  | 0, _ => by
    rw [powerWithin]
    exact .fail
  | depth + 1, b => by
    rw [powerWithin, Nat.add_right_comm, powerWithin]
    refine .bind prefixWithin_echoes fun x x' _ hx _ =>
      .ifNext (by decide) (fun hkind => .skipNext (ne_eof_of hkind) ?_) fun _ => .pure hx
    exact .map powerWithin_echoes fun _ _ hy => by simp [Expr.unmarked, hx, hy]

theorem prefixWithin_echoes : {depth : Nat} → {b : Buffer} →
    Echoes false Expr.unmarked b (prefixWithin depth) (prefixWithin (depth + extra))
  | 0, _ => by
    rw [prefixWithin]
    exact .fail
  | depth + 1, b => by
    rw [prefixWithin, Nat.add_right_comm, prefixWithin]
    have hoperand {b : Buffer} : Echoes false Expr.unmarked b (primaryWithin depth >>= (postfixWithin · depth))
        (primaryWithin (depth + extra) >>= (postfixWithin · (depth + extra))) :=
      .bind primaryWithin_echoes fun _ _ _ hx _ => postfixWithin_echoes hx
    refine .byKind ?_ fun _ => hoperand
    cases hop : UnaryOp.ofKind? b.peek.kind with
    | none => exact hoperand
    | some op =>
      have hne : b.peek.kind ≠ .eof := by
        rintro heof
        rw [heof] at hop
        cases hop
      exact .nextThen hne fun _ _ => .map prefixWithin_echoes fun _ _ hx => by simp [Expr.unmarked, hx]

/-- Operators behind an expression are read alike. -/
theorem postfixWithin_echoes : {depth : Nat} → {b : Buffer} → {x x' : Expr} →
    x'.unmarked = x.unmarked → Echoes false Expr.unmarked b (postfixWithin x depth) (postfixWithin x' (depth + extra))
  | 0, _, _, _, _ => by
    rw [postfixWithin]
    exact .fail
  | depth + 1, b, x, x', hx => by
    rw [postfixWithin, Nat.add_right_comm, postfixWithin]
    refine .byKind ?_ fun _ => .pure hx
    generalize hkind : b.peek.kind = kind
    split
    · exact .nextThen (ne_eof_of hkind) fun _ ht => postfixWithin_echoes
        (by simp [Expr.unmarked, hx, (Prod.mk.inj ht).1])
    · exact .nextThen (ne_eof_of hkind) fun _ ht => postfixWithin_echoes
        (by simp [Expr.unmarked, hx, (Prod.mk.inj ht).1])
    · exact .skipNext (ne_eof_of hkind) (postfixWithin_echoes (by simp [Expr.unmarked, hx]))
    · exact .skipNext (ne_eof_of hkind) (postfixWithin_echoes (by simp [Expr.unmarked, hx]))
    · exact .pure hx

theorem primaryWithin_echoes : {depth : Nat} → {b : Buffer} →
    Echoes false Expr.unmarked b (primaryWithin depth) (primaryWithin (depth + extra))
  | 0, _ => by
    rw [primaryWithin]
    exact .fail
  | depth + 1, b => by
    rw [primaryWithin, Nat.add_right_comm, primaryWithin]
    exact .bind atomWithin_echoes fun _ _ _ hx _ => selectorsWithin_echoes hx

/-- Selectors behind a primary are read alike. -/
theorem selectorsWithin_echoes : {depth : Nat} → {b : Buffer} → {x x' : Expr} →
    x'.unmarked = x.unmarked →
      Echoes false Expr.unmarked b (selectorsWithin x depth) (selectorsWithin x' (depth + extra))
  | 0, _, _, _, _ => by
    rw [selectorsWithin]
    exact .fail
  | depth + 1, b, x, x', hx => by
    -- Whether arguments in braces belong to the expression depends on its shape, which marks do not change.
    have hisReference : x'.isReference = x.isReference := by
      rw [← x'.isReference_unmarked, hx, x.isReference_unmarked]
    rw [selectorsWithin, Nat.add_right_comm, selectorsWithin]
    refine .byKind ?_ fun _ => .pure hx
    generalize hkind : b.peek.kind = kind
    split
    iterate 3
      refine .nextThen (ne_eof_of hkind) fun t ht => ?_
      rw [(Prod.mk.inj ht).1]
      refine .ifNext (by decide) (fun _ => ?_) fun _ => ?_
      · exact .bind .upperName fun _ _ _ hname _ => .bind typeArgsIfInvocation_echoes fun _ _ _ hargs _ =>
          selectorsWithin_echoes (by simp [Expr.unmarked, hx, hname, hargs])
      · exact .bind .lowerName fun _ _ _ hname _ => .bind typeArgsIfInvocation_echoes fun _ _ _ hargs _ =>
          selectorsWithin_echoes (by simp [Expr.unmarked, hx, hname, hargs])
    iterate 2
      refine .nextThen (ne_eof_of hkind) fun t ht => ?_
      rw [(Prod.mk.inj ht).1]
      exact .bind subscriptWithin_echoes fun _ _ _ hs _ => .skip (by decide) fun _ =>
        selectorsWithin_echoes (by simp [Expr.unmarked, hx, hs])
    · exact .bind positionalWithin_echoes fun _ _ _ hargs _ =>
        selectorsWithin_echoes (by simp [Expr.unmarked, Arguments.unmarked, hx, hargs])
    · rw [hisReference]
      split
      · exact .bind namedWithin_echoes fun _ _ _ hargs _ =>
          selectorsWithin_echoes (by simp [Expr.unmarked, Arguments.unmarked, hx, hargs])
      · exact .pure hx
    · exact .pure hx

theorem subscriptWithin_echoes : {depth : Nat} → {b : Buffer} →
    Echoes false Subscript.unmarked b (subscriptWithin depth) (subscriptWithin (depth + extra))
  | 0, _ => by
    rw [subscriptWithin]
    exact .fail
  | depth + 1, b => by
    rw [subscriptWithin, Nat.add_right_comm, subscriptWithin]
    refine .bind (binaryWithin_echoes levelAboveRange) fun _ _ _ hlower _ => ?_
    refine .accept rfl (fun _ => ?_) fun _ => .accept rfl (fun _ => ?_) fun _ => ?_
    · exact .map (binaryWithin_echoes levelAboveRange) fun _ _ hupper => by
        simp [Subscript.unmarked, hlower, hupper]
    · exact .pure (congrArg Subscript.tail hlower)
    · exact .pure (congrArg Subscript.element hlower)

/-- An atom is read alike. -/
theorem atomWithin_echoes : {depth : Nat} → {b : Buffer} →
    Echoes false Expr.unmarked b (atomWithin depth) (atomWithin (depth + extra))
  | 0, _ => by
    rw [atomWithin]
    exact .fail
  | depth + 1, b => by
    rw [atomWithin, Nat.add_right_comm, atomWithin]
    refine .peek fun t ht => ?_
    dsimp only
    -- An atom begins with a token of the same kind, or the first text ends here and has none.
    obtain heq | ⟨heof, -⟩ := ht
    · rw [heq]
      generalize hkind : b.peek.kind = kind
      split
      · exact .bind .lowerName fun _ _ _ hname _ => .map typeArgsIfInvocation_echoes fun _ _ hargs => by
          simp [Expr.unmarked, hname, hargs]
      · exact .bind .upperName fun _ _ _ hname _ => .map typeArgsIfInvocation_echoes fun _ _ hargs => by
          simp [Expr.unmarked, hname, hargs]
      iterate 5 exact literal_echoes (ne_eof_of hkind)
      iterate 3 exact selfReference_echoes (ne_eof_of hkind)
      · exact .skipNext (ne_eof_of hkind) (.bind exprWithin_echoes fun _ _ _ hx _ =>
          .skip (by decide) fun _ => .pure (by simp [Expr.unmarked, hx]))
      · exact .skipNext (ne_eof_of hkind) (.bind (exprsWithin_echoes (by decide)) fun _ _ _ hxs _ =>
          .skip (by decide) fun _ => .pure (by simp [Expr.unmarked, hxs]))
      · exact .fail
    · rw [heof]
      exact .fail

/-- Expressions between brackets are read alike. -/
theorem exprsWithin_echoes {close : Kind} (hclose : close ≠ .eof ∧ close ≠ .semicolon) : {depth : Nat} → {b : Buffer} →
    Echoes false unmarkedExprs b (exprsWithin close depth) (exprsWithin close (depth + extra))
  | 0, _ => by
    rw [exprsWithin]
    exact .fail
  | depth + 1, b => by
    rw [exprsWithin, Nat.add_right_comm, exprsWithin]
    refine .ifNext hclose (fun _ => .pure rfl) fun _ => .bind exprWithin_echoes fun _ _ _ hx _ => ?_
    refine .accept rfl (fun _ => ?_) fun _ => .pure (by simp [unmarkedExprs, hx])
    exact .map (exprsWithin_echoes hclose) fun _ _ hxs => by simp [unmarkedExprs, hx, hxs]

theorem positionalWithin_echoes : {depth : Nat} → {b : Buffer} →
    Echoes false PositionalArgs.unmarked b (positionalWithin depth) (positionalWithin (depth + extra))
  | 0, _ => by
    rw [positionalWithin]
    exact .fail
  | depth + 1, b => by
    rw [positionalWithin, Nat.add_right_comm, positionalWithin]
    exact .expectThen (by decide) fun _ _ _ => .bind (exprsWithin_echoes (by decide)) fun _ _ _ hargs _ =>
      .skip (by decide) fun _ => .pure (by simp [PositionalArgs.unmarked, hargs])

theorem namedWithin_echoes : {depth : Nat} → {b : Buffer} →
    Echoes false NamedArgs.unmarked b (namedWithin depth) (namedWithin (depth + extra))
  | 0, _ => by
    rw [namedWithin]
    exact .fail
  | depth + 1, b => by
    rw [namedWithin, Nat.add_right_comm, namedWithin]
    refine .expectThen (by decide) fun _ _ _ => .bind namedArgsWithin_echoes fun _ _ _ hargs _ =>
      .ifNext (by decide) (fun _ => .skip (by decide) fun _ => ?_) fun _ => .here fun _ _ => ?_
    · exact .pure (by simp [NamedArgs.unmarked, unmarkedSequenced, hargs])
    · exact .bind sequencedWithin_echoes fun _ _ _ hvalues _ => .skip (by decide) fun _ =>
        .pure (by simp [NamedArgs.unmarked, unmarkedSequenced, SequencedArg.unmarked, hargs, hvalues])

theorem namedArgsWithin_echoes : {depth : Nat} → {b : Buffer} →
    Echoes false unmarkedNamed b (namedArgsWithin depth) (namedArgsWithin (depth + extra))
  | 0, _ => by
    rw [namedArgsWithin]
    exact .fail
  | depth + 1, b => by
    rw [namedArgsWithin, Nat.add_right_comm, namedArgsWithin]
    refine .ifNextTwo rfl (by decide) (fun _ _ => .here fun _ _ => ?_) (.pure rfl)
    exact .bind .lowerName fun _ _ _ hname _ => .skip (by decide) fun _ => .bind exprWithin_echoes fun _ _ _ hx _ =>
      .skip (by decide) fun _ => .map namedArgsWithin_echoes fun _ _ hargs => by
        simp [unmarkedNamed, NamedArg.unmarked, hname, hx, hargs]

theorem sequencedWithin_echoes : {depth : Nat} → {b : Buffer} →
    Echoes false unmarkedExprs b (sequencedWithin depth) (sequencedWithin (depth + extra))
  | 0, _ => by
    rw [sequencedWithin]
    exact .fail
  | depth + 1, b => by
    rw [sequencedWithin, Nat.add_right_comm, sequencedWithin]
    refine .bind exprWithin_echoes fun _ _ _ hx _ => .accept rfl (fun _ => ?_) fun _ =>
      .pure (by simp [unmarkedExprs, hx])
    exact .map sequencedWithin_echoes fun _ _ hxs => by simp [unmarkedExprs, hx, hxs]

end

/-- There is depth enough for expressions in the longer text. -/
theorem exprDepth_le {c : Buffer} (h : b.ahead.length ≤ c.ahead.length) : exprDepth b ≤ exprDepth c := by
  have := Buffer.remaining_le h
  rw [exprDepth, exprDepth]
  omega

/-- An expression is read alike at every depth that the texts allow. -/
theorem expr_echoes : Echoes false Expr.unmarked b expr expr :=
  .get fun _ h => .deeper (exprDepth_le h) fun _ => exprWithin_echoes

theorem positional_echoes : Echoes false PositionalArgs.unmarked b positional positional :=
  .get fun _ h => .deeper (exprDepth_le h) fun _ => positionalWithin_echoes

end Parser

end Syntax

end Ceylon
