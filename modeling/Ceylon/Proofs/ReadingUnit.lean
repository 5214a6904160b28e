import Ceylon.Proofs.ReadingExpr
import Ceylon.Syntax.Parser.CompilationUnit

/-!
# Reading declarations, statements and units

A text that parses is the rendering of its tree (`parseBuffer_spells`).  Annotations are no reserved words:
a parser counts them ahead and then reads as many tokens as it has counted, which are all of them
annotations (`Parser.Annotated`).
-/

namespace Ceylon

open Token (Buffer Kind)

/-- What stands ahead after a token has been taken. -/
theorem Token.Buffer.peekAt_advance (b : Buffer) (n : Nat) : b.advance.peekAt n = b.peekAt (n + 1) := by
  have hahead : b.advance.ahead = b.ahead.tail := rfl
  rw [peekAt, peekAt, hahead, List.getElem?_tail]
  rfl

namespace Token.Buffer

/-- The buffer of a text without errors at its start: the last token is the end of the text, and there is
none before it. -/
structure Fresh (b : Buffer) : Prop where
  pos : b.pos = 0
  final : b.final.kind = .eof
  inner : ∀ t ∈ b.tokens.toList, t.kind ≠ .eof

end Token.Buffer

namespace Syntax

/-- One item is spelled by what it matches. -/
theorem Spells.single_iff {item : Item} {ts : List Token} : Spells [item] ts ↔ item.Matches ts := by
  refine ⟨fun h => ?_, .single⟩
  cases h with
  | cons head tail =>
    cases tail
    simpa using head

namespace Spelled

variable {b b' : Buffer} {a : Annotations}

/-- No annotations are spelled by nothing. -/
theorem no_annotations (b : Buffer) : Spelled b [.annotations {}] b :=
  fun _ => ⟨rfl, [], rfl, .single ⟨by simp, by simp [Annotations.words]⟩⟩

/-- One more annotation. -/
theorem annotation (h : Spelled b [.annotations a] b') (hk : b'.peek.kind = .lowerName)
    (hword : Annotations.isWord b'.peek.text = true) :
    Spelled b [.annotations ((a.set? b'.peek.text).getD a)] b'.advance := by
  intro hend
  obtain ⟨hfinal, ts, hrest, hts⟩ := h hend
  obtain ⟨hkinds, hwords⟩ := Spells.single_iff.mp hts
  have hcons := Buffer.rest_eq_cons (hfinal ▸ hend) (b := b') (by rw [hk]; exact nofun)
  refine ⟨hfinal, ts ++ [b'.peek], by rw [hrest, hcons]; simp, .single ⟨?_, fun w => ?_⟩⟩
  · intro t ht
    rcases List.mem_append.mp ht with ht | ht
    · exact hkinds t ht
    · rw [List.mem_singleton.mp ht]
      exact hk
  · rw [Annotations.mem_words_set hword, hwords]
    simp

end Spelled

namespace Parser

/-- What comes next are annotations, as many as are given. -/
def Annotated (b : Buffer) (count : Nat) : Prop :=
  ∀ i < count, (b.peekAt i).kind = .lowerName ∧ Annotations.isWord (b.peekAt i).text = true

/-- What is counted as annotations are words for them. -/
theorem annotated_annotationsFrom (b : Buffer) (depth n : Nat) :
    ∀ i < annotationsFrom b depth n,
      (b.peekAt (n + i)).kind = .lowerName ∧ Annotations.isWord (b.peekAt (n + i)).text = true := by
  induction depth generalizing n with
  | zero => exact fun i hi => absurd hi (Nat.not_lt_zero i)
  | succ depth ih =>
    intro i hi
    rw [annotationsFrom] at hi
    split at hi
    · next hword =>
      simp only [Bool.and_eq_true, decide_eq_true_eq] at hword
      cases i with
      | zero => exact hword.1
      | succ i =>
        rw [Nat.add_comm i 1, ← Nat.add_assoc]
        exact ih (n + 1) i (by omega)
    · exact absurd hi (Nat.not_lt_zero i)

/-- The count of annotations is the number of words in front that are annotations. -/
theorem annotationCount_bind {β : Type} {f : Nat → Parser β} {b : Buffer} {r : β × Buffer}
    (h : (annotationCount >>= f).run b = .ok r) :
    ∃ count, Annotated b count ∧ (f count).run b = .ok r :=
  ⟨_, fun i hi => by simpa using annotated_annotationsFrom b b.remaining 0 i hi, h⟩

/-- Annotations are spelled as they have been read, one after another. -/
theorem annotations_spelled {count : Nat} {a a' : Annotations} {b₀ b b' : Buffer}
    (hb : Annotated b count) (h : (annotations count a).run b = .ok (a', b'))
    (ha : Spelled b₀ [.annotations a] b) : Spelled b₀ [.annotations a'] b' := by
  induction count generalizing a b with
  | zero =>
    cases pure_ok.mp h
    exact ha
  | succ count ih =>
    have h := next_bind h
    obtain ⟨hk, hword⟩ := hb 0 (Nat.zero_lt_succ _)
    refine ih (fun i hi => ?_) h (ha.annotation hk hword)
    rw [Buffer.peekAt_advance]
    exact hb (i + 1) (Nat.succ_lt_succ hi)

/-! ## Parts of declarations -/

section

variable {b b' : Buffer}

theorem valueType_spelled {t : DeclaredType} (h : valueType.run b = .ok (t, b')) :
    Spelled b t.rendering b' := by
  have h := peekKind_bind h
  split at h
  · next hk =>
    have h := next_bind h
    cases pure_ok.mp h
    exact .kind hk rfl
  · obtain ⟨t, b₁, ht, h⟩ := bind_ok.mp h
    cases pure_ok.mp h
    exact type_spelled ht

theorem resultType_spelled {t : DeclaredType} (h : resultType.run b = .ok (t, b'))
    (hk : b.peek.kind = .kwVoid ∨ b.peek.kind = .kwFunction) : Spelled b t.rendering b' := by
  have h := next_bind h
  split at h
  · next hvoid =>
    cases pure_ok.mp h
    exact .kind hvoid rfl
  · next hvoid =>
    cases pure_ok.mp h
    exact .kind (hk.resolve_left hvoid) rfl

/-- Reading a variance, which may be left out. -/
theorem variance_bind {β : Type} {f : Variance → Parser β} {r : β × Buffer}
    (h : (accept .kwOut >>= fun isOut =>
      if isOut = true then pure .covariant >>= f
      else accept .kwIn >>= fun isIn =>
        if isIn = true then pure .contravariant >>= f else pure .invariant >>= f).run b = .ok r) :
    ∃ v b', Spelled b v.rendering b' ∧ (f v).run b' = .ok r := by
  obtain ⟨hout, h⟩ | ⟨-, h⟩ := accept_bind h
  · exact ⟨.covariant, _, .kind hout rfl, h⟩
  · obtain ⟨hin, h⟩ | ⟨-, h⟩ := accept_bind h
    · exact ⟨.contravariant, _, .kind hin rfl, h⟩
    · exact ⟨.invariant, _, .nil b, h⟩

theorem typeParamsWithin_spelled {depth : Nat} {ps : List TypeParameter}
    (h : (typeParamsWithin depth).run b = .ok (ps, b')) :
    Spelled b (separated .comma (ps.map TypeParameter.rendering)) b' ∧ ps ≠ [] := by
  induction depth generalizing b ps with
  | zero => exact absurd h fail_ok
  | succ depth ih =>
    have h := here_bind h
    obtain ⟨v, b₁, hv, h⟩ := variance_bind h
    obtain ⟨hname, h⟩ := upperName_bind h
    have hparam := hv.append hname
    obtain ⟨hcomma, h⟩ | ⟨-, h⟩ := accept_bind h
    · obtain ⟨more, b₂, hmore, h⟩ := bind_ok.mp h
      cases pure_ok.mp h
      obtain ⟨hmore, hne⟩ := ih hmore
      obtain ⟨p, ps, rfl⟩ := List.exists_cons_of_ne_nil hne
      exact ⟨hparam.separated_cons hcomma hmore, List.cons_ne_nil _ _⟩
    · cases pure_ok.mp h
      exact ⟨hparam.append (.nil _), List.cons_ne_nil _ _⟩

theorem typeParams_spelled {ps : List TypeParameter} (h : typeParams.run b = .ok (ps, b')) :
    Spelled b (renderTypeParams ps) b' := by
  obtain ⟨hopen, h⟩ | ⟨-, h⟩ := accept_bind h
  · have h := get_bind h
    obtain ⟨params, b₁, hparams, h⟩ := bind_ok.mp h
    obtain ⟨hclose, h⟩ := expect_then h
    cases pure_ok.mp h
    obtain ⟨hparams, hne⟩ := typeParamsWithin_spelled hparams
    obtain ⟨p, ps, rfl⟩ := List.exists_cons_of_ne_nil hne
    exact ((Spelled.kind hopen rfl).append hparams).append (.kind hclose rfl)
  · cases pure_ok.mp h
    exact .nil _

/-- A value behind an equals sign, if there is one. -/
theorem specifier_bind {β : Type} {f : Option Expr → Parser β} {r : β × Buffer}
    (h : (accept .specify >>= fun isThere =>
      if isThere = true then expr >>= fun x => pure (some x) >>= f
      else pure none >>= f).run b = .ok r) :
    ∃ x b', Spelled b (renderOption renderSpecifier x) b' ∧ (f x).run b' = .ok r := by
  obtain ⟨hspecify, h⟩ | ⟨-, h⟩ := accept_bind h
  · obtain ⟨x, b₁, hx, h⟩ := bind_ok.mp h
    exact ⟨some x, b₁, (Spelled.kind hspecify rfl).append (expr_spelled hx), h⟩
  · exact ⟨none, b, .nil b, h⟩

/-- Reading the dots of a sequenced parameter, which may be left out. -/
theorem ellipsis_bind {β : Type} {f : Bool → Parser β} {r : β × Buffer}
    (h : (accept .ellipsis >>= f).run b = .ok r) : ∃ sequenced b',
      Spelled b (if sequenced then [.kind .ellipsis] else []) b' ∧ (f sequenced).run b' = .ok r := by
  obtain ⟨hk, h⟩ | ⟨-, h⟩ := accept_bind h
  · exact ⟨true, _, .kind hk rfl, h⟩
  · exact ⟨false, _, .nil _, h⟩

theorem paramsWithin_spelled {depth : Nat} {ps : List Parameter}
    (h : (paramsWithin depth).run b = .ok (ps, b')) :
    Spelled b (listed (ps.map Parameter.rendering)) b' := by
  induction depth generalizing b ps with
  | zero => exact absurd h fail_ok
  | succ depth ih =>
    have h := peekKind_bind h
    split at h
    · cases pure_ok.mp h
      exact .nil _
    · have h := here_bind h
      obtain ⟨count, hcount, h⟩ := annotationCount_bind h
      obtain ⟨a, b₁, ha, h⟩ := bind_ok.mp h
      obtain ⟨t, b₂, ht, h⟩ := bind_ok.mp h
      obtain ⟨sequenced, b₃, hsequenced, h⟩ := ellipsis_bind h
      obtain ⟨hname, h⟩ := lowerName_bind h
      obtain ⟨default, b₄, hdefault, h⟩ := specifier_bind h
      have hparam := ((((annotations_spelled hcount ha (.no_annotations b)).append
        (type_spelled ht)).append hsequenced).append hname).append hdefault
      -- A comma promises one more parameter.
      obtain ⟨hcomma, h⟩ | ⟨-, h⟩ := accept_bind h
      · obtain ⟨more, b₅, hmore, h⟩ := bind_ok.mp h
        cases pure_ok.mp h
        exact hparam.listed_cons hcomma (ih hmore)
      · cases pure_ok.mp h
        exact hparam.append (.absent _ _)

theorem params_spelled {l : ParameterList} (h : params.run b = .ok (l, b')) :
    Spelled b l.rendering b' := by
  obtain ⟨hopen, h⟩ := expect_bind h
  have h := get_bind h
  obtain ⟨ps, b₁, hps, h⟩ := bind_ok.mp h
  obtain ⟨hclose, h⟩ := expect_then h
  cases pure_ok.mp h
  exact ((Spelled.kind hopen rfl).append (paramsWithin_spelled hps)).append (.kind hclose rfl)

theorem satisfied_spelled {ts : List TypeRef} (h : satisfied.run b = .ok (ts, b')) :
    Spelled b (renderSatisfied (renderTypes ts)) b' := by
  obtain ⟨hk, h⟩ | ⟨-, h⟩ := accept_bind h
  · obtain ⟨t, b₁, ht, h⟩ := bind_ok.mp h
    obtain ⟨more, b₂, hmore, h⟩ := bind_ok.mp h
    cases pure_ok.mp h
    exact (Spelled.kind hk rfl).append ((type_spelled ht).append (moreTypes_spelled hmore))
  · cases pure_ok.mp h
    exact .nil _

theorem extended_spelled {e : Option ExtendedType} (h : extended.run b = .ok (e, b')) :
    Spelled b (renderOption ExtendedType.rendering e) b' := by
  have h := peekKind_bind h
  split at h
  · next hk =>
    have h := next_bind h
    obtain ⟨t, b₁, ht, h⟩ := bind_ok.mp h
    obtain ⟨args, b₂, hargs, h⟩ := bind_ok.mp h
    cases pure_ok.mp h
    exact ((Spelled.kind hk rfl).append (baseType_spelled ht)).append (positional_spelled hargs)
  · cases pure_ok.mp h
    exact .nil _

/-! ## Conditions and iterations -/

/-- A variable without a type is written with a name, and with the keyword where it must. -/
theorem inferredVariable_spelled {g : Guard} (h : inferredVariable.run b = .ok (g, b')) :
    Spelled b g.named b' ∧ g.type.written = [.optional .kwValue] := by
  have h := here_bind h
  obtain ⟨hname, h⟩ := lowerName_bind h
  obtain ⟨hspecify, h⟩ := expect_then h
  obtain ⟨x, b₁, hx, h⟩ := bind_ok.mp h
  cases pure_ok.mp h
  exact ⟨hname.append ((Spelled.kind hspecify rfl).append (expr_spelled hx)), rfl⟩

/-- The type of a variable that is written out. -/
theorem valueType_written {t : DeclaredType} (h : valueType.run b = .ok (t, b')) :
    Spelled b t.written b' := by
  have h := peekKind_bind h
  split at h
  · next hk =>
    have h := next_bind h
    cases pure_ok.mp h
    exact .present hk rfl
  · obtain ⟨t, b₁, ht, h⟩ := bind_ok.mp h
    cases pure_ok.mp h
    exact type_spelled ht

/-- How the operand of a condition goes on if it declares a variable or not. -/
theorem operand_choice {f : Bool → Parser Operand} {r : Operand × Buffer}
    (h : (match b.peek.kind with
      | .kwValue => pure true >>= f
      | .lowerName => kindAt 1 >>= fun k => pure (decide (k = Kind.specify)) >>= f
      | .upperName => typeEnd? 0 >>= fun last =>
        match last with
        | some n => kindAt n >>= fun k => kindAt (n + 1) >>= fun k' =>
          pure (k = Kind.lowerName && k' = Kind.specify) >>= f
        | none => pure false >>= f
      | _ => pure false >>= f).run b = .ok r) : ∃ declares, (f declares).run b = .ok r := by
  split at h
  · exact ⟨_, h⟩
  · exact ⟨_, h⟩
  · obtain ⟨last, b₁, hlast, h⟩ := bind_ok.mp h
    cases hlast
    split at h
    · exact ⟨_, h⟩
    · exact ⟨_, h⟩
  · exact ⟨_, h⟩

theorem operand_spelled {o : Operand} (h : operand.run b = .ok (o, b')) :
    Spelled b o.rendering b' := by
  have h := peekKind_bind h
  -- Looking ahead for a declared variable reads nothing.
  obtain ⟨declares, h⟩ := operand_choice h
  dsimp only at h
  split at h
  · obtain ⟨x, b₂, hx, h⟩ := bind_ok.mp h
    cases pure_ok.mp h
    exact expr_spelled hx
  · have h := peekKind_bind h
    split at h
    · obtain ⟨g, b₂, hg, h⟩ := bind_ok.mp h
      cases pure_ok.mp h
      obtain ⟨hg, htype⟩ := inferredVariable_spelled hg
      rw [Operand.rendering, Guard.rendering, htype]
      exact (Spelled.absent _ _).append hg
    · have h := here_bind h
      obtain ⟨t, b₂, ht, h⟩ := bind_ok.mp h
      obtain ⟨hname, h⟩ := lowerName_bind h
      obtain ⟨hspecify, h⟩ := expect_then h
      obtain ⟨x, b₃, hx, h⟩ := bind_ok.mp h
      cases pure_ok.mp h
      exact (valueType_written ht).append
        (hname.append ((Spelled.kind hspecify rfl).append (expr_spelled hx)))

theorem condition_spelled {c : Condition} (h : condition.run b = .ok (c, b')) :
    Spelled b c.rendering b' := by
  have h := here_bind h
  have h := peekKind_bind h
  split at h
  · next hk =>
    have h := next_then h
    obtain ⟨o, b₁, ho, h⟩ := bind_ok.mp h
    cases pure_ok.mp h
    exact (Spelled.kind hk rfl).append (operand_spelled ho)
  · next hk =>
    have h := next_then h
    obtain ⟨o, b₁, ho, h⟩ := bind_ok.mp h
    cases pure_ok.mp h
    exact (Spelled.kind hk rfl).append (operand_spelled ho)
  · next hk =>
    have h := next_then h
    obtain ⟨t, b₁, ht, h⟩ := bind_ok.mp h
    have htest := (Spelled.kind hk rfl).append (type_spelled ht)
    -- Behind the tested type stands a name on its own, or what begins an expression.
    have h := peekKind_bind h
    have h := kindAt_bind h
    split at h
    · obtain ⟨g, b₂, hg, h⟩ := bind_ok.mp h
      cases pure_ok.mp h
      exact htest.append (inferredVariable_spelled hg).1
    · obtain ⟨x, b₂, hx, h⟩ := bind_ok.mp h
      cases pure_ok.mp h
      exact htest.append (expr_spelled hx)
  · obtain ⟨x, b₁, hx, h⟩ := bind_ok.mp h
    cases pure_ok.mp h
    exact expr_spelled hx

theorem loopVariable_spelled {v : LoopVariable} (h : loopVariable.run b = .ok (v, b')) :
    Spelled b v.rendering b' := by
  have h := here_bind h
  obtain ⟨t, b₁, ht, h⟩ := bind_ok.mp h
  obtain ⟨hname, h⟩ := lowerName_bind h
  cases pure_ok.mp h
  exact (valueType_spelled ht).append hname

theorem iteration_spelled {i : Iteration} (h : iteration.run b = .ok (i, b')) :
    Spelled b i.rendering b' := by
  have h := here_bind h
  obtain ⟨v, b₁, hv, h⟩ := bind_ok.mp h
  have hv := loopVariable_spelled hv
  obtain ⟨hentry, h⟩ | ⟨-, h⟩ := accept_bind h
  · obtain ⟨value, b₂, hvalue, h⟩ := bind_ok.mp h
    obtain ⟨hin, h⟩ := expect_then h
    obtain ⟨x, b₃, hx, h⟩ := bind_ok.mp h
    cases pure_ok.mp h
    exact (((hv.append (.kind hentry rfl)).append (loopVariable_spelled hvalue)).append
      (.kind hin rfl)).append (expr_spelled hx)
  · obtain ⟨hin, h⟩ := expect_then h
    obtain ⟨x, b₂, hx, h⟩ := bind_ok.mp h
    cases pure_ok.mp h
    exact (hv.append (.kind hin rfl)).append (expr_spelled hx)

/-! ## Statements -/

/-- How an attribute gets its value. -/
theorem initializer_bind {β : Type} {f : Initializer → Parser β} {r : β × Buffer}
    (h : (accept .specify >>= fun isSpecified =>
      if isSpecified = true then expr >>= fun x => pure (.specified x) >>= f
      else accept .assign >>= fun isAssigned =>
        if isAssigned = true then expr >>= fun x => pure (.assigned x) >>= f
        else pure .absent >>= f).run b = .ok r) :
    ∃ init b', Spelled b (Initializer.rendering init) b' ∧ (f init).run b' = .ok r := by
  obtain ⟨hspecify, h⟩ | ⟨-, h⟩ := accept_bind h
  · obtain ⟨x, b₁, hx, h⟩ := bind_ok.mp h
    exact ⟨.specified x, b₁, (Spelled.kind hspecify rfl).append (expr_spelled hx), h⟩
  · obtain ⟨hassign, h⟩ | ⟨-, h⟩ := accept_bind h
    · obtain ⟨x, b₁, hx, h⟩ := bind_ok.mp h
      exact ⟨.assigned x, b₁, (Spelled.kind hassign rfl).append (expr_spelled hx), h⟩
    · exact ⟨.absent, b, .nil b, h⟩

theorem attributeDecl_spelled {mark : Mark} {a : Annotations} {t : DeclaredType} {b₀ : Buffer}
    {d : AttributeDecl} (h : (attributeDecl mark a t).run b = .ok (d, b'))
    (ht : Spelled b₀ ([.annotations a] ++ t.rendering) b) : Spelled b₀ d.rendering b' := by
  obtain ⟨hname, h⟩ := lowerName_bind h
  obtain ⟨init, b₁, hinit, h⟩ := initializer_bind h
  obtain ⟨hsemicolon, h⟩ := expect_then h
  cases pure_ok.mp h
  exact ((ht.append hname).append hinit).append (.kind hsemicolon rfl)

/-- Looking for a declaration reads nothing. -/
theorem startsDeclaration_reads_nothing {n : Nat} {starts : Bool}
    (h : (startsDeclaration n).run b = .ok (starts, b')) : b' = b := by
  have h := kindAt_bind h
  split at h
  -- Only where a type may stand are more tokens looked at, and there is a failure only behind annotations.
  case h_7 =>
    obtain ⟨last, b₂, hlast, h⟩ := bind_ok.mp h
    cases hlast
    split at h
    · have h := kindAt_bind h
      cases pure_ok.mp h
      rfl
    · cases pure_ok.mp h
      rfl
  case h_8 =>
    split at h
    · cases pure_ok.mp h
      rfl
    · cases h
  all_goals
    cases pure_ok.mp h
    rfl

/-- What a `return` returns. -/
theorem result_bind {β : Type} {f : Option Expr → Parser β} {r : β × Buffer}
    (h : (peekKind >>= fun k =>
      if k = .semicolon then pure none >>= f else expr >>= fun x => pure (some x) >>= f).run b =
        .ok r) :
    ∃ x b', Spelled b (renderOption Expr.rendering x) b' ∧ (f x).run b' = .ok r := by
  have h := peekKind_bind h
  split at h
  · exact ⟨none, b, .nil b, h⟩
  · obtain ⟨x, b₁, hx, h⟩ := bind_ok.mp h
    exact ⟨some x, b₁, expr_spelled hx, h⟩

end

mutual

/-- A statement is spelled as it has been read. -/
theorem stmtWithin_spelled : {depth : Nat} → {b b' : Buffer} → {s : Stmt} →
    (stmtWithin depth).run b = .ok (s, b') → Spelled b s.rendering b'
  | 0, _, _, _, h => absurd h fail_ok
  | depth + 1, b, b', s, h => by
    have h := here_bind h
    have h := peekKind_bind h
    split at h
    · next hk =>
      have h := next_then h
      obtain ⟨x, b₁, hx, h⟩ := result_bind h
      obtain ⟨hsemicolon, h⟩ := expect_then h
      cases pure_ok.mp h
      exact ((Spelled.kind hk rfl).append hx).append (.kind hsemicolon rfl)
    · next hk =>
      have h := next_then h
      obtain ⟨hsemicolon, h⟩ := expect_then h
      cases pure_ok.mp h
      exact (Spelled.kind hk rfl).append (.kind hsemicolon rfl)
    · next hk =>
      have h := next_then h
      obtain ⟨hsemicolon, h⟩ := expect_then h
      cases pure_ok.mp h
      exact (Spelled.kind hk rfl).append (.kind hsemicolon rfl)
    · obtain ⟨s, b₁, hs, h⟩ := bind_ok.mp h
      cases pure_ok.mp h
      exact ifWithin_spelled hs
    · next hk =>
      have h := next_then h
      obtain ⟨hopen, h⟩ := expect_then h
      obtain ⟨cond, b₁, hcond, h⟩ := bind_ok.mp h
      obtain ⟨hclose, h⟩ := expect_then h
      obtain ⟨body, b₂, hbody, h⟩ := bind_ok.mp h
      cases pure_ok.mp h
      exact ((((Spelled.kind hk rfl).append (.kind hopen rfl)).append (condition_spelled hcond)).append
        (.kind hclose rfl)).append (blockWithin_spelled hbody)
    · exact forWithin_spelled h
    · -- Counting annotations and looking ahead for a declaration read nothing.
      obtain ⟨count, hcount, h⟩ := annotationCount_bind h
      obtain ⟨starts, b₁, hstarts, h⟩ := bind_ok.mp h
      obtain rfl := startsDeclaration_reads_nothing hstarts
      split at h
      · exact declarationWithin_spelled hcount h
      · obtain ⟨x, b₁, hx, h⟩ := bind_ok.mp h
        obtain ⟨hsemicolon, h⟩ := expect_then h
        cases pure_ok.mp h
        exact (expr_spelled hx).append (.kind hsemicolon rfl)

/-- A declaration is spelled as it has been read. -/
theorem declarationWithin_spelled : {depth count : Nat} → {mark : Mark} → {b b' : Buffer} →
    {s : Stmt} → Annotated b count → (declarationWithin mark count depth).run b = .ok (s, b') →
      Spelled b s.rendering b'
  | 0, _, _, _, _, _, _, h => absurd h fail_ok
  | depth + 1, count, mark, b, b', s, hcount, h => by
    -- The annotations that have been counted come first in the rendering.
    obtain ⟨a, b₁, ha, h⟩ := bind_ok.mp h
    have ha := annotations_spelled hcount ha (.no_annotations b)
    have h := peekKind_bind h
    split at h
    · next hk =>
      have h := next_then h
      obtain ⟨hname, h⟩ := upperName_bind h
      obtain ⟨typeParams, b₂, htypeParams, h⟩ := bind_ok.mp h
      obtain ⟨params, b₃, hparams, h⟩ := bind_ok.mp h
      obtain ⟨extended, b₄, hextended, h⟩ := bind_ok.mp h
      obtain ⟨satisfied, b₅, hsatisfied, h⟩ := bind_ok.mp h
      obtain ⟨body, b₆, hbody, h⟩ := bind_ok.mp h
      cases pure_ok.mp h
      exact ((((((ha.append (.kind hk rfl)).append hname).append (typeParams_spelled htypeParams)).append
        (params_spelled hparams)).append (extended_spelled hextended)).append
        (satisfied_spelled hsatisfied)).append (blockWithin_spelled hbody)
    · next hk =>
      have h := next_then h
      obtain ⟨hname, h⟩ := upperName_bind h
      obtain ⟨typeParams, b₂, htypeParams, h⟩ := bind_ok.mp h
      obtain ⟨satisfied, b₃, hsatisfied, h⟩ := bind_ok.mp h
      obtain ⟨body, b₄, hbody, h⟩ := bind_ok.mp h
      cases pure_ok.mp h
      exact ((((ha.append (.kind hk rfl)).append hname).append (typeParams_spelled htypeParams)).append
        (satisfied_spelled hsatisfied)).append (blockWithin_spelled hbody)
    · next hk =>
      have h := next_then h
      obtain ⟨hname, h⟩ := lowerName_bind h
      obtain ⟨body, b₂, hbody, h⟩ := bind_ok.mp h
      cases pure_ok.mp h
      exact ((ha.append (.kind hk rfl)).append hname).append (blockWithin_spelled hbody)
    · next hk =>
      obtain ⟨t, b₂, ht, h⟩ := bind_ok.mp h
      exact methodWithin_spelled h (ha.append (resultType_spelled ht (.inl hk)))
    · next hk =>
      obtain ⟨t, b₂, ht, h⟩ := bind_ok.mp h
      exact methodWithin_spelled h (ha.append (resultType_spelled ht (.inr hk)))
    · -- A declared type is followed by a name, and the token behind the name tells what is declared.
      obtain ⟨t, b₂, ht, h⟩ := bind_ok.mp h
      have ht := ha.append (valueType_spelled ht)
      have h := kindAt_bind h
      split at h
      · exact methodWithin_spelled h ht
      · exact methodWithin_spelled h ht
      · obtain ⟨hname, h⟩ := lowerName_bind h
        obtain ⟨body, b₃, hbody, h⟩ := bind_ok.mp h
        cases pure_ok.mp h
        exact (ht.append hname).append (blockWithin_spelled hbody)
      · obtain ⟨d, b₃, hd, h⟩ := bind_ok.mp h
        cases pure_ok.mp h
        exact attributeDecl_spelled hd ht

/-- What has been read of a method is spelled behind its annotations and its type. -/
theorem methodWithin_spelled : {depth : Nat} → {mark : Mark} → {a : Annotations} →
    {t : DeclaredType} → {b₀ b b' : Buffer} → {s : Stmt} →
    (methodWithin mark a t depth).run b = .ok (s, b') →
      Spelled b₀ ([.annotations a] ++ t.rendering) b → Spelled b₀ s.rendering b'
  | 0, _, _, _, _, _, _, _, h, _ => absurd h fail_ok
  | depth + 1, mark, a, t, b₀, b, b', s, h, ht => by
    obtain ⟨hname, h⟩ := lowerName_bind h
    obtain ⟨typeParams, b₁, htypeParams, h⟩ := bind_ok.mp h
    obtain ⟨params, b₂, hparams, h⟩ := bind_ok.mp h
    -- The head of a method is the same for every kind of body.
    have hhead := ((ht.append hname).append (typeParams_spelled htypeParams)).append
      (params_spelled hparams)
    have h := peekKind_bind h
    dsimp only at h
    split at h
    · obtain ⟨body, b₃, hbody, h⟩ := bind_ok.mp h
      cases pure_ok.mp h
      exact hhead.append (blockWithin_spelled hbody)
    · next hk =>
      have h := next_then h
      obtain ⟨x, b₃, hx, h⟩ := bind_ok.mp h
      obtain ⟨hsemicolon, h⟩ := expect_then h
      cases pure_ok.mp h
      exact hhead.append (((Spelled.kind hk rfl).append (expr_spelled hx)).append (.kind hsemicolon rfl))
    · obtain ⟨hsemicolon, h⟩ := expect_then h
      cases pure_ok.mp h
      exact hhead.append (.kind hsemicolon rfl)

theorem ifWithin_spelled : {depth : Nat} → {b b' : Buffer} → {s : IfStmt} →
    (ifWithin depth).run b = .ok (s, b') → Spelled b s.rendering b'
  | 0, _, _, _, h => absurd h fail_ok
  | depth + 1, b, b', s, h => by
    obtain ⟨hk, h⟩ := expect_bind h
    obtain ⟨hopen, h⟩ := expect_then h
    obtain ⟨cond, b₁, hcond, h⟩ := bind_ok.mp h
    obtain ⟨hclose, h⟩ := expect_then h
    obtain ⟨body, b₂, hbody, h⟩ := bind_ok.mp h
    have hclause := ((((Spelled.kind hk rfl).append (.kind hopen rfl)).append
      (condition_spelled hcond)).append (.kind hclose rfl)).append (blockWithin_spelled hbody)
    have h := peekKind_bind h
    split at h
    · next helse =>
      have h := next_bind h
      have h := peekKind_bind h
      split at h
      · obtain ⟨s, b₃, hs, h⟩ := bind_ok.mp h
        cases pure_ok.mp h
        -- An `else if` is spelled without a block of its own.
        exact hclause.append ((Spelled.kind helse rfl).append (ifWithin_spelled hs))
      · obtain ⟨block, b₃, hblock, h⟩ := bind_ok.mp h
        cases pure_ok.mp h
        exact hclause.append ((Spelled.kind helse rfl).append (blockWithin_spelled hblock))
    · cases pure_ok.mp h
      exact hclause.append (.nil _)

theorem forWithin_spelled : {depth : Nat} → {b b' : Buffer} → {s : Stmt} →
    (forWithin depth).run b = .ok (s, b') → Spelled b s.rendering b'
  | 0, _, _, _, h => absurd h fail_ok
  | depth + 1, b, b', s, h => by
    obtain ⟨hk, h⟩ := expect_bind h
    obtain ⟨hopen, h⟩ := expect_then h
    obtain ⟨i, b₁, hi, h⟩ := bind_ok.mp h
    obtain ⟨hclose, h⟩ := expect_then h
    obtain ⟨body, b₂, hbody, h⟩ := bind_ok.mp h
    have hclause := ((((Spelled.kind hk rfl).append (.kind hopen rfl)).append
      (iteration_spelled hi)).append (.kind hclose rfl)).append (blockWithin_spelled hbody)
    have h := peekKind_bind h
    split at h
    · next hfail =>
      have h := next_bind h
      obtain ⟨block, b₃, hblock, h⟩ := bind_ok.mp h
      cases pure_ok.mp h
      exact hclause.append ((Spelled.kind hfail rfl).append (blockWithin_spelled hblock))
    · cases pure_ok.mp h
      exact hclause.append (.nil _)

theorem blockWithin_spelled : {depth : Nat} → {b b' : Buffer} → {block : Block} →
    (blockWithin depth).run b = .ok (block, b') → Spelled b block.rendering b'
  | 0, _, _, _, h => absurd h fail_ok
  | depth + 1, b, b', block, h => by
    obtain ⟨hopen, h⟩ := expect_bind h
    obtain ⟨stmts, b₁, hstmts, h⟩ := bind_ok.mp h
    obtain ⟨hclose, h⟩ := expect_bind h
    cases pure_ok.mp h
    exact ((Spelled.kind hopen rfl).append (stmtsWithin_spelled hstmts)).append (.kind hclose rfl)

theorem stmtsWithin_spelled : {depth : Nat} → {b b' : Buffer} → {ss : List Stmt} →
    (stmtsWithin depth).run b = .ok (ss, b') → Spelled b (renderStmts ss) b'
  | 0, _, _, _, h => absurd h fail_ok
  | depth + 1, b, b', ss, h => by
    have h := peekKind_bind h
    split at h
    · cases pure_ok.mp h
      exact .nil b
    · exact absurd h fail_ok
    · obtain ⟨s, b₁, hs, h⟩ := bind_ok.mp h
      obtain ⟨more, b₂, hmore, h⟩ := bind_ok.mp h
      cases pure_ok.mp h
      exact (stmtWithin_spelled hs).append (stmtsWithin_spelled hmore)

end

theorem stmt_spelled {b b' : Buffer} {s : Stmt} (h : stmt.run b = .ok (s, b')) :
    Spelled b s.rendering b' :=
  stmtWithin_spelled (get_bind h)

/-! ## Units -/

section

variable {b b' : Buffer}

theorem segmentsWithin_spelled {depth : Nat} {ns : List Name}
    (h : (segmentsWithin depth).run b = .ok (ns, b')) :
    Spelled b (following .member (ns.map Name.lower)) b' := by
  induction depth generalizing b ns with
  | zero => exact absurd h fail_ok
  | succ depth ih =>
    obtain ⟨hpoint, h⟩ | ⟨-, h⟩ := accept_bind h
    · obtain ⟨hname, h⟩ := lowerName_bind h
      obtain ⟨more, b₁, hmore, h⟩ := bind_ok.mp h
      cases pure_ok.mp h
      rw [List.map_cons, following_cons]
      exact ((Spelled.kind hpoint rfl).append hname).append (ih hmore)
    · cases pure_ok.mp h
      exact .nil _

theorem path_spelled {p : Path} (h : path.run b = .ok (p, b')) : Spelled b p.rendering b' := by
  obtain ⟨hname, h⟩ := lowerName_bind h
  have h := get_bind h
  obtain ⟨more, b₁, hmore, h⟩ := bind_ok.mp h
  cases pure_ok.mp h
  exact hname.append (segmentsWithin_spelled hmore)

theorem moduleImportsWithin_spelled {depth : Nat} {is : List ModuleImport}
    (h : (moduleImportsWithin depth).run b = .ok (is, b')) :
    Spelled b (is.flatMap ModuleImport.rendering) b' := by
  induction depth generalizing b is with
  | zero => exact absurd h fail_ok
  | succ depth ih =>
    have h := peekKind_bind h
    split at h
    · next hk =>
      have h := next_bind h
      obtain ⟨p, b₁, hp, h⟩ := bind_ok.mp h
      obtain ⟨hsemicolon, h⟩ := expect_then h
      obtain ⟨more, b₂, hmore, h⟩ := bind_ok.mp h
      cases pure_ok.mp h
      exact (((Spelled.kind hk rfl).append (path_spelled hp)).append (.kind hsemicolon rfl)).append (ih hmore)
    · cases pure_ok.mp h
      exact .nil _

theorem moduleDescriptor_spelled {d : ModuleDescriptor}
    (h : moduleDescriptor.run b = .ok (d, b')) : Spelled b d.rendering b' := by
  obtain ⟨hk, h⟩ := expect_bind h
  obtain ⟨p, b₁, hp, h⟩ := bind_ok.mp h
  obtain ⟨hopen, h⟩ := expect_then h
  have h := get_bind h
  obtain ⟨is, b₂, his, h⟩ := bind_ok.mp h
  obtain ⟨hclose, h⟩ := expect_then h
  cases pure_ok.mp h
  exact ((((Spelled.kind hk rfl).append (path_spelled hp)).append (.kind hopen rfl)).append
    (moduleImportsWithin_spelled his)).append (.kind hclose rfl)

theorem moduleHeader_spelled {d : Option ModuleDescriptor}
    (h : moduleHeader.run b = .ok (d, b')) :
    Spelled b (renderOption ModuleDescriptor.rendering d) b' := by
  have h := peekKind_bind h
  split at h
  · obtain ⟨d, b₁, hd, h⟩ := bind_ok.mp h
    cases pure_ok.mp h
    exact moduleDescriptor_spelled hd
  · cases pure_ok.mp h
    exact .nil b

/-- A name of either sort is spelled by the next token. -/
theorem anyName_bind {β : Type} {f : Name → Parser β} {r : β × Buffer}
    (h : (anyName >>= f).run b = .ok r) :
    Spelled b [.anyName (nameOf b.peek).text] b.advance ∧ (f (nameOf b.peek)).run b.advance = .ok r := by
  obtain ⟨n, b₁, hn, h⟩ := bind_ok.mp h
  have hn := peek_bind hn
  split at hn
  · next hk =>
    have hn := next_bind hn
    cases pure_ok.mp hn
    exact ⟨.next (by rcases hk with hk | hk <;> rw [hk] <;> exact nofun) ⟨b.peek, rfl, hk, rfl⟩, h⟩
  · exact absurd hn fail_ok

/-- An imported name may have another one in front of it. -/
theorem importElement_bind {β : Type} {f : ImportElement → Parser β} {first : Name} {b₀ : Buffer}
    {r : β × Buffer} (hfirst : Spelled b₀ [.anyName first.text] b)
    (h : (accept .specify >>= fun isAlias =>
      if isAlias = true then anyName >>= fun name =>
        pure { mark := first.mark, newName := some first, name } >>= f
      else pure { mark := first.mark, newName := none, name := first } >>= f).run b = .ok r) :
    ∃ e b', Spelled b₀ (ImportElement.rendering e) b' ∧ (f e).run b' = .ok r := by
  obtain ⟨hspecify, h⟩ | ⟨-, h⟩ := accept_bind h
  · obtain ⟨hname, h⟩ := anyName_bind h
    exact ⟨{ mark := first.mark, newName := some first, name := nameOf b.advance.peek }, _,
      (hfirst.append (.kind hspecify rfl)).append hname, h⟩
  · exact ⟨{ mark := first.mark, newName := none, name := first }, _, hfirst, h⟩

theorem importElementsWithin_spelled {depth : Nat} {es : List ImportElement}
    (h : (importElementsWithin depth).run b = .ok (es, b')) :
    Spelled b (listed (es.map ImportElement.rendering)) b' := by
  induction depth generalizing b es with
  | zero => exact absurd h fail_ok
  | succ depth ih =>
    have h := peekKind_bind h
    split at h
    · cases pure_ok.mp h
      exact .nil _
    · obtain ⟨hfirst, h⟩ := anyName_bind h
      obtain ⟨e, b₁, he, h⟩ := importElement_bind hfirst h
      obtain ⟨hcomma, h⟩ | ⟨-, h⟩ := accept_bind h
      · obtain ⟨more, b₂, hmore, h⟩ := bind_ok.mp h
        cases pure_ok.mp h
        exact he.listed_cons hcomma (ih hmore)
      · cases pure_ok.mp h
        exact he.append (.absent _ _)

theorem importDecl_spelled {i : Import} (h : importDecl.run b = .ok (i, b')) :
    Spelled b i.rendering b' := by
  obtain ⟨hk, h⟩ := expect_bind h
  obtain ⟨p, b₁, hp, h⟩ := bind_ok.mp h
  obtain ⟨hopen, h⟩ := expect_then h
  have h := get_bind h
  obtain ⟨es, b₂, hes, h⟩ := bind_ok.mp h
  obtain ⟨hclose, h⟩ := expect_then h
  cases pure_ok.mp h
  exact ((((Spelled.kind hk rfl).append (path_spelled hp)).append (.kind hopen rfl)).append
    (importElementsWithin_spelled hes)).append (.kind hclose rfl)

/-- Items that are read one after the other. -/
theorem readMany_spelled {α : Type} {more : Parser Bool} {item : Parser α} {r : α → List Item}
    (hmore : ∀ {b goes b'}, more.run b = .ok (goes, b') → b' = b)
    (hitem : ∀ {b a b'}, item.run b = .ok (a, b') → Spelled b (r a) b') {depth : Nat} {as : List α}
    (h : readMany more item depth b = (as, .ok b')) :
    Spelled b (as.flatMap r) b' ∧ more.run b' = .ok (false, b') := by
  induction depth generalizing b as with
  | zero => cases h
  | succ depth ih =>
    rw [readMany] at h
    split at h
    · cases h
    · next hstop =>
      cases h
      obtain rfl := hmore hstop
      exact ⟨.nil _, hstop⟩
    · next hgo =>
      obtain rfl := hmore hgo
      split at h
      · cases h
      · next a b₁ hread =>
        -- What was read before an error would be kept, but this run has come to its end.
        generalize hrest : readMany more item depth b₁ = rest at h
        obtain ⟨as, outcome⟩ := rest
        cases h
        obtain ⟨hspelled, hstop⟩ := ih hrest
        exact ⟨(hitem hread).append hspelled, hstop⟩

end

end Parser

/-- Statements are rendered one after another. -/
theorem renderStmts_eq_flatMap (ss : List Stmt) : renderStmts ss = ss.flatMap Stmt.rendering := by
  induction ss with
  | nil => rfl
  | cons s ss ih => rw [renderStmts, ih, List.flatMap_cons]

/-- A unit that is read without a fault is read to the end of the text. -/
theorem readParts_spelled {b : Buffer} (h : (readParts b).fault = none) :
    ∃ b', Spelled b (readParts b).unit.rendering b' ∧ b'.peek.kind = .eof := by
  unfold readParts at h ⊢
  dsimp only at h ⊢
  split at h
  · cases h
  · next module b₁ hmodule =>
    split at h
    · cases h
    · next imports b₂ himports =>
      split at h
      · cases h
      · next body b₃ hbody =>
        -- Asking whether another import or statement follows reads nothing.
        obtain ⟨himports, -⟩ := Parser.readMany_spelled
          (fun h => by have h := Parser.peekKind_bind h; cases Parser.pure_ok.mp h; rfl)
          Parser.importDecl_spelled himports
        obtain ⟨hbody, hstop⟩ := Parser.readMany_spelled
          (fun h => by cases h; rfl) Parser.stmt_spelled hbody
        have hstop : (!b₃.atEnd) = false := congrArg Prod.fst (Except.ok.inj hstop)
        refine ⟨b₃, ?_, by simpa [Buffer.atEnd] using hstop⟩
        rw [CompilationUnit.rendering, renderStmts_eq_flatMap]
        exact ((Parser.moduleHeader_spelled hmodule).append himports).append hbody

/-- The tokens of a unit that can be parsed are the rendering of its tree: each of them is read once and in
order, and what is read is in the tree. -/
theorem parseBuffer_spells (b : Buffer) (fresh : b.Fresh) (u : CompilationUnit)
    (h : parseBuffer b = .ok u) : Spells u.rendering b.tokens.toList := by
  simp only [parseBuffer, readBuffer, Reading.toExcept] at h
  split at h
  · next hfault =>
    cases h
    obtain ⟨b', hspelled, heof⟩ := readParts_spelled hfault
    obtain ⟨-, ts, hrest, hts⟩ := hspelled fresh.final
    have hall : b.rest = b.tokens.toList := by rw [Buffer.rest, fresh.pos, List.drop_zero]
    -- Only the last token is an end of file, so nothing is left behind it.
    have hnil : b'.rest = [] := by
      cases hcons : b'.rest with
      | nil => rfl
      | cons t us =>
        refine absurd heof ?_
        rw [Buffer.peek_of_rest hcons]
        refine fresh.inner t ?_
        rw [← hall, hrest, hcons]
        exact List.mem_append_right _ List.mem_cons_self
    rw [CompilationUnit.number_rendering, ← hall, hrest, hnil, List.append_nil]
    exact hts
  · cases h

/-- The tokens of `a - b * c - d;`. -/
def differenceBuffer : Buffer :=
  let token (kind : Kind) (text : String) (offset : Nat) : Token :=
    ⟨kind, text, ⟨offset, 1, offset + 1⟩⟩
  { source := ⟨"difference", ""⟩
    tokens := #[token .lowerName "a" 0, token .minus "-" 2, token .lowerName "b" 4,
      token .times "*" 6, token .lowerName "c" 8, token .minus "-" 10, token .lowerName "d" 12,
      token .semicolon ";" 13]
    final := token .eof "" 14
    comments := [] }

theorem isBinary_minus : Kind.minus.isBinary := by decide

theorem isBinary_times : Kind.times.isBinary := by decide

/-- The unit `a - b * c - d;`. -/
def difference : CompilationUnit :=
  let mark (offset id : Nat) : Mark := ⟨⟨offset, 1, offset + 1⟩, id⟩
  let name (text : String) (offset id : Nat) : Expr :=
    .reference (mark offset id) .member ⟨mark offset (id + 1), text⟩ []
  { mark := mark 0 0
    source := ⟨"difference", ""⟩
    module := none
    imports := []
    body := [.expr (mark 0 1) (.binary (mark 0 2) (.of .minus isBinary_minus)
      (.binary (mark 0 3) (.of .minus isBinary_minus) (name "a" 0 4)
        (.binary (mark 4 6) (.of .times isBinary_times) (name "b" 4 7) (name "c" 8 9))) (name "d" 12 11))]
    comments := [] }

theorem parseBuffer_spells_difference : Spells difference.rendering differenceBuffer.tokens.toList :=
  parseBuffer_spells differenceBuffer ⟨rfl, rfl, by decide⟩ difference rfl

end Syntax

end Ceylon
