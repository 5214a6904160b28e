import Ceylon.Proofs.EchoedExpressions
import Ceylon.Proofs.ReadingUnit
import Ceylon.Proofs.Literals

/-!
# Statements in another text

A statement ends with a semicolon or a brace.  What stands behind it does not matter, except for a word that carries on
a condition or a loop.
-/

namespace Ceylon

open Token (Buffer Kind)

namespace Syntax

open Token.Buffer (Along)
open Token.Buffer.Along (Alike)

namespace Parser

variable {α γ : Type} {closed : Bool} {view : α → γ} {b : Buffer} {extra : Nat}

/-! ## Annotations -/

/-- In texts that go along with each other the same annotations come first. -/
theorem annotationsFrom_along {c : Buffer} {m : Nat} (h : Along m b c) : {depth depth' n : Nat} → m ≤ depth + n →
    m ≤ depth' + n → n ≤ m →
    annotationsFrom c depth' n = annotationsFrom b depth n ∧ n + annotationsFrom b depth n ≤ m
  | depth, depth', n, hd, hd', hn => by
    rcases Nat.lt_or_eq_of_le hn with hlt | rfl
    · obtain ⟨depth, rfl⟩ : ∃ d, depth = d + 1 := ⟨depth - 1, by omega⟩
      obtain ⟨depth', rfl⟩ : ∃ d, depth' = d + 1 := ⟨depth' - 1, by omega⟩
      obtain ⟨hkind, htext⟩ := Prod.mk.inj (h.words n hlt)
      -- The words behind agree, too, or the texts part there: at an end and at a semicolon, and neither is
      -- annotated.
      have hnext : annotated.contains (c.peekAt (n + 1)).kind = annotated.contains (b.peekAt (n + 1)).kind := by
        obtain heq | ⟨heof, hsemi⟩ := h.alike hlt
        · rw [heq]
        · rw [heof, hsemi]
          rfl
      obtain ⟨heq, hle⟩ := annotationsFrom_along h
        (show m ≤ depth + (n + 1) by omega) (show m ≤ depth' + (n + 1) by omega) hlt
      simp only [annotationsFrom, hkind, htext, hnext, heq]
      split <;> exact ⟨trivial, by omega⟩
    · have hne := h.parting.ne (l := .lowerName) rfl
      -- Where the texts part, neither has an annotation.
      have hnone {b : Buffer} {d : Nat} (h : (b.peekAt n).kind ≠ .lowerName) : annotationsFrom b d n = 0 := by
        cases d <;> simp [annotationsFrom, h]
      rw [hnone hne.1, hnone hne.2]
      exact ⟨rfl, hn⟩

/-- Annotations that are counted ahead. -/
theorem Echoes.annotated {f g : Nat → Parser α}
    (h : ∀ n, Annotated b n → (∀ c m, Along m b c → n ≤ m) → Echoes closed view b (f n) (g n)) :
    Echoes closed view b (annotationCount >>= f) (annotationCount >>= g) := by
  have hle {c : Buffer} {m : Nat} (h : Along m b c) : m ≤ b.remaining + 0 ∧ m ≤ c.remaining + 0 := by
    have hle := h.le
    have hlonger := h.longer
    rw [b.remaining_eq, c.remaining_eq]
    omega
  refine .look (r := fun b => annotationsFrom b b.remaining 0) (fun _ => rfl)
    (fun c m h => (annotationsFrom_along h (hle h).1 (hle h).2 (Nat.zero_le m)).1) ?_
  refine h _ (fun i hi => by simpa using annotated_annotationsFrom b b.remaining 0 i hi) fun c m h => ?_
  simpa using (annotationsFrom_along h (hle h).1 (hle h).2 (Nat.zero_le m)).2

/-- Annotations are read alike, if as many of them have been counted. -/
theorem annotations_echoes {n : Nat} {a a' : Annotations} (h : Annotated b n) :
    Echoes false unseen b (annotations n a) (annotations n a') := by
  induction n generalizing a a' b with
  | zero => exact .pure rfl
  | succ n ih =>
    have hkind : b.peek.kind = .lowerName := (h 0 (Nat.zero_lt_succ n)).1
    refine .nextThen (ne_eof_of hkind) fun t _ => ih fun i hi => ?_
    rw [Buffer.peekAt_advance]
    exact h (i + 1) (Nat.succ_lt_succ hi)

/-! ## Parts of declarations -/

theorem valueType_echoes : Echoes false unseen b valueType valueType :=
  .ifNext (by decide) (fun hkind => .nextThen (ne_eof_of hkind) fun _ _ => .pure rfl) fun _ =>
    .map type_echoes fun _ _ _ => rfl

theorem resultType_echoes (hne : b.peek.kind ≠ .eof) : Echoes false unseen b resultType resultType := by
  refine .nextThen hne fun t ht => ?_
  rw [(Prod.mk.inj ht).1]
  split <;> exact .pure rfl

theorem typeParamsWithin_echoes {depth : Nat} :
    Echoes false unseen b (typeParamsWithin depth) (typeParamsWithin (depth + extra)) := by
  induction depth generalizing b with
  | zero =>
    rw [typeParamsWithin]
    exact .fail
  | succ depth ih =>
    rw [typeParamsWithin, Nat.add_right_comm, typeParamsWithin]
    refine .here fun _ _ => .accept rfl (fun _ => ?_) fun _ => .accept rfl (fun _ => ?_) fun _ => ?_
    all_goals
      refine .given (.bind .upperName fun _ _ _ _ _ => .accept rfl (fun _ => ?_) fun _ => .pure rfl)
      exact .map ih fun _ _ _ => rfl

theorem typeParams_echoes : Echoes false unseen b typeParams typeParams :=
  .accept rfl (fun _ => .get fun _ h => .bind (.deeper (Buffer.remaining_le h) fun _ => typeParamsWithin_echoes)
    fun _ _ _ _ _ => .skip (by decide) fun _ => .pure rfl) fun _ => .pure rfl

theorem paramsWithin_echoes {depth : Nat} :
    Echoes false unseen b (paramsWithin depth) (paramsWithin (depth + extra)) := by
  induction depth generalizing b with
  | zero =>
    rw [paramsWithin]
    exact .fail
  | succ depth ih =>
    rw [paramsWithin, Nat.add_right_comm, paramsWithin]
    refine .ifNext (by decide) (fun _ => .pure rfl) fun _ => .here fun _ _ => .annotated fun _ hn _ =>
      .bind (annotations_echoes hn) fun _ _ _ _ _ => .bind type_echoes fun _ _ _ _ _ =>
        .accept rfl (fun _ => ?_) fun _ => ?_
    all_goals
      have hmore {b : Buffer} {p p' : Parameter} :
          Echoes false unseen b (accept .comma >>= fun more =>
            if more = true then paramsWithin depth >>= fun ps => pure (p :: ps) else pure [p])
          (accept .comma >>= fun more =>
            if more = true then paramsWithin (depth + extra) >>= fun ps => pure (p' :: ps) else pure [p']) :=
        .accept rfl (fun _ => .map ih fun _ _ _ => rfl) fun _ => .pure rfl
      exact .bind .lowerName fun _ _ _ _ _ => .accept rfl
        (fun _ => .bind expr_echoes fun _ _ _ _ _ => hmore) fun _ => hmore

theorem params_echoes : Echoes false unseen b params params :=
  .expectThen (by decide) fun _ _ _ => .get fun _ h =>
    .bind (.deeper (Nat.add_le_add_right (Buffer.remaining_le h) 1) fun _ => paramsWithin_echoes) fun _ _ _ _ _ =>
      .skip (by decide) fun _ => .pure rfl

theorem satisfied_echoes : Echoes false unseen b satisfied satisfied :=
  .accept rfl (fun _ => .bind type_echoes fun _ _ _ _ _ => .map moreTypes_echoes fun _ _ _ => rfl) fun _ => .pure rfl

theorem extended_echoes : Echoes false unseen b extended extended :=
  .ifNext (by decide) (fun hkind => .nextThen (ne_eof_of hkind) fun _ _ => .bind baseType_echoes fun _ _ _ _ _ =>
    .map positional_echoes fun _ _ _ => rfl) fun _ => .pure rfl

/-! ## Conditions and iterations -/

theorem inferredVariable_echoes : Echoes false unseen b inferredVariable inferredVariable :=
  .here fun _ _ => .bind .lowerName fun _ _ _ _ _ => .skip (by decide) fun _ => .map expr_echoes fun _ _ _ => rfl

/-- What is tested, if it is known whether a variable is declared. -/
def operandIf (declares : Bool) : Parser Operand := do
  if !declares then return .value (← expr)
  else if (← peekKind) = .lowerName then return .var (← inferredVariable)
  else
    let mark ← here
    let type ← valueType
    let name ← lowerName
    discard (expect .specify)
    return .var { mark, type, name, specifier := ← expr }

/-- Whether a variable is declared. -/
theorem Echoes.ifDeclares {n : Nat} {f g : Bool → Parser α} (hn : ∀ c m, Along m b c → n ≤ m)
    (h : ∀ declares, Echoes closed view b (f declares) (g declares)) :
    Echoes closed view b
      (Parser.kindAt n >>= fun k => Parser.kindAt (n + 1) >>= fun k' => f (k = .lowerName && k' = .specify))
      (Parser.kindAt n >>= fun k => Parser.kindAt (n + 1) >>= fun k' => g (k = .lowerName && k' = .specify)) := by
  refine .kindAt hn fun k hk => ?_
  have hiff := hk.iff (l := .lowerName) (by decide)
  by_cases hname : (b.peekAt n).kind = .lowerName
  · refine .kindAt (fun c m halong => halong.lt (hn c m halong) (by rw [hname]; rfl)) fun k' hk' => ?_
    simp only [hname, hiff.mpr hname, hk'.iff (l := .specify) (by decide), decide_true, Bool.true_and]
    exact h _
  · simp only [hname, mt hiff.mp hname, decide_false, Bool.false_and]
    exact h false

theorem operand_echoes : Echoes false unseen b operand operand := by
  have hoperand (declares : Bool) : Echoes false unseen b (operandIf declares) (operandIf declares) := by
    cases declares with
    | false => exact .map expr_echoes fun _ _ _ => rfl
    | true =>
      refine .ifNext (by decide) (fun _ => .map inferredVariable_echoes fun _ _ _ => rfl) fun _ => ?_
      exact .here fun _ _ => .bind valueType_echoes fun _ _ _ _ _ => .bind .lowerName fun _ _ _ _ _ =>
        .skip (by decide) fun _ => .map expr_echoes fun _ _ _ => rfl
  refine .byKind ?_ fun _ => hoperand false
  generalize hkind : b.peek.kind = kind
  split
  · exact hoperand true
  · -- A name behind decides on a declaration only if a specification follows, which is looked for in both
    -- texts.
    refine .kindAt (fun c m halong => halong.lt (Nat.zero_le m) (hkind ▸ rfl)) fun k hk => ?_
    simp only [hk.iff (l := .specify) (by decide)]
    exact hoperand _
  · refine .look (r := fun c => Ahead.typeEndWithin? c.kinds (typeDepth c) 0) (fun _ => rfl)
      (fun c m h => (typeEnd?_agree h (Nat.zero_le m)).1) ?_
    cases htype : Ahead.typeEndWithin? b.kinds (typeDepth b) 0 with
    | none => exact hoperand false
    | some n => exact .ifDeclares (fun c m h => ((typeEnd?_agree h (Nat.zero_le m)).2 n htype).2) hoperand
  · exact hoperand false

theorem condition_echoes : Echoes false unseen b condition condition := by
  have hexpr {b : Buffer} {f g : Expr → Condition} :
      Echoes false unseen b (expr >>= fun x => pure (f x)) (expr >>= fun x => pure (g x)) :=
    .map expr_echoes fun _ _ _ => rfl
  refine .here fun _ _ => .byKind ?_ fun _ => hexpr
  generalize hkind : b.peek.kind = kind
  split
  · exact .skipNext (ne_eof_of hkind) (.map operand_echoes fun _ _ _ => rfl)
  · exact .skipNext (ne_eof_of hkind) (.map operand_echoes fun _ _ _ => rfl)
  · refine .skipNext (ne_eof_of hkind) (.bind type_echoes fun _ _ _ _ _ => ?_)
    exact .ifNextTwo rfl (by decide) (fun _ _ => .map inferredVariable_echoes fun _ _ _ => rfl) hexpr
  · exact hexpr

theorem loopVariable_echoes : Echoes false unseen b loopVariable loopVariable :=
  .here fun _ _ => .bind valueType_echoes fun _ _ _ _ _ => .map .lowerName fun _ _ _ => rfl

theorem iteration_echoes : Echoes false unseen b iteration iteration := by
  refine .here fun _ _ => .bind loopVariable_echoes fun _ _ _ _ _ => .accept rfl (fun _ => ?_) fun _ => ?_
  · exact .bind loopVariable_echoes fun _ _ _ _ _ => .skip (by decide) fun _ => .map expr_echoes fun _ _ _ => rfl
  · exact .skip (by decide) fun _ => .map expr_echoes fun _ _ _ => rfl

/-! ## Statements -/

theorem attributeDecl_echoes {mark mark' : Mark} {a a' : Annotations} {t t' : DeclaredType} :
    Echoes true unseen b (attributeDecl mark a t) (attributeDecl mark' a' t') := by
  refine .bind .lowerName fun _ _ _ _ _ => .accept rfl (fun _ => ?_) fun _ => .accept rfl (fun _ => ?_) fun _ => ?_
  · exact .bind expr_echoes fun _ _ _ _ _ => .given (.endOf rfl)
  · exact .bind expr_echoes fun _ _ _ _ _ => .given (.endOf rfl)
  · exact .given (.endOf rfl)

/-- Whether a declaration starts here is seen alike where the texts go along. -/
theorem startsDeclaration_echoes {n : Nat} (hn : ∀ c m, Along m b c → n ≤ m) :
    Echoes false id b (startsDeclaration n) (startsDeclaration n) := by
  have hdefault : Echoes false id b
      (if n = 0 then pure false else get >>= fun b => fail (.afterAnnotations (b.peekAt n)))
      (if n = 0 then pure false else get >>= fun b => fail (.afterAnnotations (b.peekAt n))) := by
    split
    · exact .pure rfl
    · exact .get fun _ _ => .fail
  refine .byKindAt hn ?_ fun _ => hdefault
  generalize hkind : (b.peekAt n).kind = kind
  split
  iterate 6 exact .pure rfl
  · -- Looking past a type ends at the same token in both texts, and the name must stand behind it.
    refine .look (r := fun c => Ahead.typeEndWithin? c.kinds (typeDepth c) n) (fun _ => rfl)
      (fun c m h => (typeEnd?_agree h (hn c m h)).1) ?_
    cases htype : Ahead.typeEndWithin? b.kinds (typeDepth b) n with
    | none => exact .pure rfl
    | some last =>
      refine .kindAt (fun c m h => ((typeEnd?_agree h (hn c m h)).2 last htype).2) fun k hk => ?_
      exact .pure (by simp [hk.iff (l := .lowerName) (by decide)])
  · exact hdefault

/-- What begins with reading a name succeeds only at a name. -/
theorem name_of_bind {f : Name → Parser α} {r : α × Buffer} (h : (lowerName >>= f).run b = .ok r) :
    b.peek.kind = .lowerName := by
  rw [lowerName, bind_assoc] at h
  exact (expect_bind h).1

/-- A method begins with its name. -/
theorem name_of_method {mark : Mark} {a : Annotations} {t : DeclaredType} {depth : Nat} {r : Stmt × Buffer}
    (h : (methodWithin mark a t depth).run b = .ok r) : b.peek.kind = .lowerName := by
  cases depth with
  | zero =>
    rw [methodWithin] at h
    exact absurd h fail_ok
  | succ depth =>
    rw [methodWithin] at h
    exact name_of_bind h

mutual

/-- A statement is read alike, and its last token closes it. -/
theorem stmtWithin_echoes : {depth : Nat} → {b : Buffer} →
    Echoes true unseen b (stmtWithin depth) (stmtWithin (depth + extra))
  | 0, _ => by
    rw [stmtWithin]
    exact .fail
  | depth + 1, b => by
    rw [stmtWithin, Nat.add_right_comm, stmtWithin]
    refine .here fun _ _ => .inside ?_
    -- The kind of the next token is the same in both texts, and so is the branch taken.
    generalize hkind : b.peek.kind = kind
    split
    · refine .skipNext (ne_eof_of hkind) (.inside ?_)
      split
      · exact .given (.endOf rfl)
      · exact .bind expr_echoes fun _ _ _ _ _ => .given (.endOf rfl)
    · exact .skipNext (ne_eof_of hkind) (.endOf rfl)
    · exact .skipNext (ne_eof_of hkind) (.endOf rfl)
    · exact .map ifWithin_echoes fun _ _ _ => rfl
    · exact .skipNext (ne_eof_of hkind) (.skip (by decide) fun _ => .bind condition_echoes fun _ _ _ _ _ =>
        .skip (by decide) fun _ => .map blockWithin_echoes fun _ _ _ => rfl)
    · exact forWithin_echoes
    · -- The annotations in front are only counted; behind them a declaration starts in both texts or in
      -- neither.
      refine .annotated fun count hcount hle => .bind (startsDeclaration_echoes hle) fun starts starts' b' hs hrun => ?_
      obtain rfl : starts' = starts := hs
      obtain rfl := startsDeclaration_reads_nothing hrun
      split
      · exact declarationWithin_echoes hcount
      · exact .bind expr_echoes fun _ _ _ _ _ => .endOf rfl

/-- A declaration is read alike, and its last token closes it. -/
theorem declarationWithin_echoes {mark mark' : Mark} {count : Nat} : {depth : Nat} → {b : Buffer} → Annotated b count →
    Echoes true unseen b (declarationWithin mark count depth) (declarationWithin mark' count (depth + extra))
  | 0, _, _ => by
    rw [declarationWithin]
    exact .fail
  | depth + 1, b, h => by
    rw [declarationWithin, Nat.add_right_comm, declarationWithin]
    refine .bind (annotations_echoes h) fun _ _ b _ _ => .inside ?_
    -- Whatever follows a type and a name that is neither a method nor a getter makes an attribute.
    have attributed {b : Buffer} {mark mark' : Mark} {a a' : Annotations} {t t' : DeclaredType} : Echoes true unseen b
        (attributeDecl mark a t >>= fun d => pure (Stmt.attribute d))
        (attributeDecl mark' a' t' >>= fun d => pure (Stmt.attribute d)) :=
      .map attributeDecl_echoes fun _ _ _ => rfl
    generalize hkind : b.peek.kind = kind
    split
    · exact .skipNext (ne_eof_of hkind) (.bind .upperName fun _ _ _ _ _ => .bind typeParams_echoes fun _ _ _ _ _ =>
        .bind params_echoes fun _ _ _ _ _ => .bind extended_echoes fun _ _ _ _ _ =>
          .bind satisfied_echoes fun _ _ _ _ _ => .map blockWithin_echoes fun _ _ _ => rfl)
    · exact .skipNext (ne_eof_of hkind) (.bind .upperName fun _ _ _ _ _ => .bind typeParams_echoes fun _ _ _ _ _ =>
        .bind satisfied_echoes fun _ _ _ _ _ => .map blockWithin_echoes fun _ _ _ => rfl)
    · exact .skipNext (ne_eof_of hkind) (.bind .lowerName fun _ _ _ _ _ => .map blockWithin_echoes fun _ _ _ => rfl)
    · exact .bind (resultType_echoes (ne_eof_of hkind)) fun _ _ _ _ _ => methodWithin_echoes
    · exact .bind (resultType_echoes (ne_eof_of hkind)) fun _ _ _ _ _ => methodWithin_echoes
    · -- With a declared type, the token behind the name decides what is declared.
      refine .bind valueType_echoes fun _ _ b _ _ => ?_
      by_cases hname : b.peek.kind = .lowerName
      · refine .byKindAt (fun c m halong => halong.lt (Nat.zero_le m) (hname ▸ rfl)) ?_ fun _ => attributed
        split
        · exact methodWithin_echoes
        · exact methodWithin_echoes
        · exact .bind .lowerName fun _ _ _ _ _ => .map blockWithin_echoes fun _ _ _ => rfl
        · exact attributed
      · -- Without a name there, all that could follow fails.
        refine .of_fails fun r hrun => hname ?_
        have hrun := kindAt_bind hrun
        split at hrun
        · exact name_of_method hrun
        · exact name_of_method hrun
        · exact name_of_bind hrun
        · obtain ⟨_, _, hrun, -⟩ := bind_ok.mp hrun
          exact name_of_bind hrun

theorem methodWithin_echoes {mark mark' : Mark} {a a' : Annotations} {t t' : DeclaredType} : {depth : Nat} →
    {b : Buffer} →
    Echoes true unseen b (methodWithin mark a t depth) (methodWithin mark' a' t' (depth + extra))
  | 0, _ => by
    rw [methodWithin]
    exact .fail
  | depth + 1, b => by
    rw [methodWithin, Nat.add_right_comm, methodWithin]
    refine .bind .lowerName fun _ _ _ _ _ => .bind typeParams_echoes fun _ _ _ _ _ =>
      .bind params_echoes fun _ _ b _ _ => .inside ?_
    generalize hkind : b.peek.kind = kind
    split
    · exact .map blockWithin_echoes fun _ _ _ => rfl
    · exact .skipNext (ne_eof_of hkind) (.bind expr_echoes fun _ _ _ _ _ => .endOf rfl)
    · exact .endOf rfl

theorem ifWithin_echoes : {depth : Nat} → {b : Buffer} →
    Echoes true unseen b (ifWithin depth) (ifWithin (depth + extra))
  | 0, _ => by
    rw [ifWithin]
    exact .fail
  | depth + 1, b => by
    rw [ifWithin, Nat.add_right_comm, ifWithin]
    refine .expectThen (by decide) fun _ _ _ => .skip (by decide) fun _ => .bind condition_echoes fun _ _ _ _ _ =>
      .skip (by decide) fun _ => .tail (.inl rfl) blockWithin_echoes fun _ _ b _ hkind => ?_
    refine .nextThen (ne_eof_of hkind) fun _ _ => .inside ?_
    split
    · exact .map ifWithin_echoes fun _ _ _ => rfl
    · exact .map blockWithin_echoes fun _ _ _ => rfl

theorem forWithin_echoes : {depth : Nat} → {b : Buffer} →
    Echoes true unseen b (forWithin depth) (forWithin (depth + extra))
  | 0, _ => by
    rw [forWithin]
    exact .fail
  | depth + 1, b => by
    rw [forWithin, Nat.add_right_comm, forWithin]
    refine .expectThen (by decide) fun _ _ _ => .skip (by decide) fun _ => .bind iteration_echoes fun _ _ _ _ _ =>
      .skip (by decide) fun _ => .tail (.inr rfl) blockWithin_echoes fun _ _ b _ hkind => ?_
    exact .nextThen (ne_eof_of hkind) fun _ _ => .map blockWithin_echoes fun _ _ _ => rfl

theorem blockWithin_echoes : {depth : Nat} → {b : Buffer} →
    Echoes true unseen b (blockWithin depth) (blockWithin (depth + extra))
  | 0, _ => by
    rw [blockWithin]
    exact .fail
  | depth + 1, b => by
    rw [blockWithin, Nat.add_right_comm, blockWithin]
    exact .expectThen (by decide) fun _ _ _ => .bind stmtsWithin_echoes fun _ _ _ _ _ =>
      .map (.close rfl) fun _ _ _ => rfl

theorem stmtsWithin_echoes : {depth : Nat} → {b : Buffer} →
    Echoes false unseen b (stmtsWithin depth) (stmtsWithin (depth + extra))
  | 0, _ => by
    rw [stmtsWithin]
    exact .fail
  | depth + 1, b => by
    rw [stmtsWithin, Nat.add_right_comm, stmtsWithin]
    refine .byKind ?_ fun _ => .fail
    generalize hkind : b.peek.kind = kind
    split
    · exact .pure rfl
    · exact .fail
    · exact .bind stmtWithin_echoes.opened fun _ _ _ _ _ => .map stmtsWithin_echoes fun _ _ _ => rfl

end

/-- A statement is read alike at every depth that the texts allow. -/
theorem stmt_echoes : Echoes true unseen b stmt stmt :=
  .get fun _ h => .deeper (Nat.mul_le_mul_left 8 (Nat.add_le_add_right (Buffer.remaining_le h) 1)) fun _ =>
    stmtWithin_echoes

/-! ## Imports -/

theorem anyName_echoes : Echoes false unseen b anyName anyName := by
  refine .peek fun t ht => ?_
  have hname : (t.kind = .lowerName ∨ t.kind = .upperName) ↔ (b.peek.kind = .lowerName ∨ b.peek.kind = .upperName) :=
    or_congr (ht.iff (by decide)) (ht.iff (by decide))
  rw [if_congr hname rfl rfl]
  split
  · next h =>
    exact .nextThen (by rcases h with h | h <;> exact ne_eof_of h) fun _ _ => .pure rfl
  · exact .fail

theorem segmentsWithin_echoes : {depth : Nat} → {b : Buffer} →
    Echoes false unseen b (segmentsWithin depth) (segmentsWithin (depth + extra))
  | 0, _ => by
    rw [segmentsWithin]
    exact .fail
  | depth + 1, b => by
    rw [segmentsWithin, Nat.add_right_comm, segmentsWithin]
    refine .accept rfl (fun _ => ?_) fun _ => .pure rfl
    exact .bind .lowerName fun _ _ _ _ _ => .map segmentsWithin_echoes fun _ _ _ => rfl

theorem path_echoes : Echoes false unseen b path path :=
  .bind .lowerName fun _ _ _ _ _ => .get fun _ h =>
    .map (.deeper (Buffer.remaining_le h) fun _ => segmentsWithin_echoes) fun _ _ _ => rfl

theorem importElementsWithin_echoes : {depth : Nat} → {b : Buffer} →
    Echoes false unseen b (importElementsWithin depth) (importElementsWithin (depth + extra))
  | 0, _ => by
    rw [importElementsWithin]
    exact .fail
  | depth + 1, b => by
    rw [importElementsWithin, Nat.add_right_comm, importElementsWithin]
    have hmore {b : Buffer} {e e' : ImportElement} :
        Echoes false unseen b (accept .comma >>= fun more =>
          if more = true then importElementsWithin depth >>= fun es => pure (e :: es) else pure [e])
        (accept .comma >>= fun more =>
          if more = true then importElementsWithin (depth + extra) >>= fun es => pure (e' :: es) else pure [e']) :=
      .accept rfl (fun _ => .map importElementsWithin_echoes fun _ _ _ => rfl) fun _ => .pure rfl
    refine .ifNext (by decide) (fun _ => .pure rfl) fun _ => .bind anyName_echoes fun _ _ _ _ _ =>
      .accept rfl (fun _ => ?_) fun _ => .given hmore
    exact .bind anyName_echoes fun _ _ _ _ _ => .given hmore

theorem importDecl_echoes : Echoes true unseen b importDecl importDecl :=
  .expectThen (by decide) fun _ _ _ => .bind path_echoes fun _ _ _ _ _ => .skip (by decide) fun _ => .get fun _ h =>
    .bind (.deeper (Nat.add_le_add_right (Buffer.remaining_le h) 1) fun _ => importElementsWithin_echoes)
      fun _ _ _ _ _ => .endOf rfl

/-! ## Modules -/

theorem moduleImportsWithin_echoes : {depth : Nat} → {b : Buffer} →
    Echoes false unseen b (moduleImportsWithin depth) (moduleImportsWithin (depth + extra))
  | 0, _ => by
    rw [moduleImportsWithin]
    exact .fail
  | depth + 1, b => by
    rw [moduleImportsWithin, Nat.add_right_comm, moduleImportsWithin]
    exact .ifNext (by decide) (fun h => .nextThen (ne_eof_of h) fun _ _ => .bind path_echoes fun _ _ _ _ _ =>
      .skip (by decide) fun _ => .map moduleImportsWithin_echoes fun _ _ _ => rfl) fun _ => .pure rfl

theorem moduleDescriptor_echoes : Echoes true unseen b moduleDescriptor moduleDescriptor :=
  .expectThen (by decide) fun _ _ _ => .bind path_echoes fun _ _ _ _ _ => .skip (by decide) fun _ => .get fun _ h =>
    .bind (.deeper (Nat.add_le_add_right (Buffer.remaining_le h) 1) fun _ => moduleImportsWithin_echoes)
      fun _ _ _ _ _ => .endOf rfl

/-! ## How statements begin -/

/-- The kinds of tokens with which neither an expression nor a declaration begins. -/
def foreign : List Kind :=
  [.kwModule, .kwImport, .kwElse, .kwFail, .semicolon, .eof]

/-- A parser fails at the next token. -/
def FailsHere (p : Parser α) (b : Buffer) : Prop :=
  ∃ fault, p.run b = .error ⟨fault, b.source, b.peek.pos⟩

namespace FailsHere

variable {β : Type} {p : Parser α} {f : α → Parser β}

/-- Failing reads nothing. -/
theorem fail {fault : Fault} : FailsHere (fail fault : Parser α) b :=
  ⟨fault, rfl⟩

/-- A parser fails where its first part does. -/
theorem bind (h : FailsHere p b) : FailsHere (p >>= f) b :=
  h.imp fun _ h => bind_error h

/-- A parser fails where its second part does, if the first one reads nothing. -/
theorem behind {a : α} (hp : p.run b = .ok (a, b)) (h : FailsHere (f a) b) : FailsHere (p >>= f) b :=
  h.imp fun _ h => (bind_run hp).trans h

/-- A parser that fails does not succeed. -/
theorem not_ok (h : FailsHere p b) (r : α × Buffer) : p.run b ≠ .ok r := by
  obtain ⟨fault, h⟩ := h
  rw [h]
  exact nofun

end FailsHere

/-- The kinds of tokens that no expression begins with. -/
theorem mem_foreign {k : Kind} :
    k ∈ foreign ↔ k = .kwModule ∨ k = .kwImport ∨ k = .kwElse ∨ k = .kwFail ∨ k = .semicolon ∨ k = .eof := by
  simp [foreign]

/-- No token that is foreign to expressions is an error. -/
theorem peek_ok_of_foreign (h : b.peek.kind ∈ foreign) : b.peek.kind ≠ .error := by
  rintro herror
  rw [herror] at h
  revert h
  decide

/-- No atom begins with a foreign token. -/
theorem atomWithin_foreign (h : b.peek.kind ∈ foreign) (depth : Nat) : FailsHere (atomWithin depth) b := by
  cases depth with
  | zero => exact .fail
  | succ depth =>
    rw [atomWithin]
    refine .behind (peek_run (peek_ok_of_foreign h)) ?_
    rcases mem_foreign.mp h with h | h | h | h | h | h <;> (rw [h]; exact .fail)

/-- No operand begins with a foreign token. -/
theorem prefixWithin_foreign (h : b.peek.kind ∈ foreign) (depth : Nat) : FailsHere (prefixWithin depth) b := by
  cases depth with
  | zero => exact .fail
  | succ depth =>
    rw [prefixWithin]
    refine .behind (peekKind_run (peek_ok_of_foreign h)) ?_
    have hunary : UnaryOp.ofKind? b.peek.kind = none := by
      rcases mem_foreign.mp h with h | h | h | h | h | h <;> (rw [h]; rfl)
    rw [hunary]
    cases depth with
    | zero => exact .fail
    | succ depth =>
      rw [primaryWithin]
      exact (atomWithin_foreign h depth).bind.bind

/-- No operation begins with a foreign token. -/
theorem binaryWithin_foreign (h : b.peek.kind ∈ foreign) (level depth : Nat) :
    FailsHere (binaryWithin level depth) b := by
  induction depth generalizing level with
  | zero => exact .fail
  | succ depth ih =>
    rw [binaryWithin]
    split
    · cases depth with
      | zero => exact .fail
      | succ depth =>
        rw [powerWithin]
        exact (prefixWithin_foreign h depth).bind
    · exact (ih (level + 1)).bind

/-- No expression begins with a foreign token. -/
theorem expr_foreign (h : b.peek.kind ∈ foreign) : FailsHere expr b := by
  have hdefault (depth : Nat) : FailsHere (defaultWithin depth) b := by
    cases depth with
    | zero => exact .fail
    | succ depth =>
      rw [defaultWithin]
      exact (binaryWithin_foreign h 0 depth).bind
  refine .behind rfl ?_
  cases exprDepth b with
  | zero => exact .fail
  | succ depth =>
    rw [exprWithin]
    exact (hdefault depth).bind

/-- The place of the next token is known if that token is none of an error. -/
theorem here_run (hok : b.peek.kind ≠ .error) : here.run b = .ok ({ pos := b.peek.pos }, b) :=
  bind_run (peek_run hok)

/-- Where no name comes next, there are no annotations. -/
theorem annotationCount_run (h : b.peek.kind ≠ .lowerName) : annotationCount.run b = .ok (0, b) := by
  have hnone : annotationsFrom b b.remaining 0 = 0 := by
    have hname : (b.peekAt 0).kind ≠ .lowerName := h
    cases b.remaining <;> simp [annotationsFrom, hname]
  exact congrArg (fun n => Except.ok (n, b)) hnone

/-- No statement begins with a foreign token. -/
theorem stmt_foreign (h : b.peek.kind ∈ foreign) : FailsHere stmt b := by
  refine .behind rfl ?_
  cases stmtDepth b with
  | zero => exact .fail
  | succ depth =>
    rw [stmtWithin]
    have hok := peek_ok_of_foreign h
    have hcount : annotationCount.run b = .ok (0, b) :=
      annotationCount_run fun hname => absurd (hname ▸ h) (by decide)
    have hstarts : (startsDeclaration 0).run b = .ok (false, b) := by
      rw [startsDeclaration, bind_run (show (kindAt 0).run b = .ok (b.peek.kind, b) from rfl)]
      rcases mem_foreign.mp h with h | h | h | h | h | h <;> (rw [h]; rfl)
    refine .behind (here_run hok) (.behind (peekKind_run hok) ?_)
    have hplain : FailsHere (startsDeclaration 0 >>= fun starts =>
        if starts = true then declarationWithin { pos := b.peek.pos } 0 depth
        else expr >>= fun x => discard (expect .semicolon) >>= fun _ => pure (Stmt.expr { pos := b.peek.pos } x)) b :=
      .behind hstarts (expr_foreign h).bind
    rcases mem_foreign.mp h with h | h | h | h | h | h <;> (rw [h]; exact .behind hcount hplain)

/-- An import begins with its keyword. -/
theorem import_of_importDecl {r : Import × Buffer} (h : importDecl.run b = .ok r) : b.peek.kind = .kwImport :=
  (expect_bind h).1

/-- No statement begins with these words. -/
theorem kind_of_stmt {r : Stmt × Buffer} (h : stmt.run b = .ok r) : b.peek.kind ∉ .error :: foreign := by
  intro hkind
  rcases List.mem_cons.mp hkind with herror | hkind
  · have h := get_bind h
    rw [stmtDepth, Nat.mul_succ, stmtWithin] at h
    obtain ⟨_, _, hhere, -⟩ := bind_ok.mp h
    obtain ⟨_, _, hpeek, -⟩ := bind_ok.mp hhere
    exact ne_error_of_peek hpeek herror
  · exact (stmt_foreign hkind).not_ok r h

end Parser

end Syntax

end Ceylon
