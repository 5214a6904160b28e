import Ceylon.Proofs.Evaluation
import Ceylon.Proofs.Places
import Ceylon.Proofs.Placing
import Ceylon.Proofs.ReadingUnit

/-!
# Finding the name at a place

The nodes of a unit stand at its tokens, in the order of the walk (`readParts_located`).  The tokens themselves do not
overlap, so that from every place on a name one finds this name and the node that it belongs to
(`identAt?_readUnit`), also in what could be read of a faulty text.
-/

namespace Ceylon

open Text (Glyph)
open Token (Buffer Kind)

namespace Syntax

namespace Parser

section

variable {b b' : Buffer}

/-! ## Parts of declarations -/

/-- Annotations have no places of their own. -/
theorem annotations_located {count : Nat} {a a' : Annotations} (hb : Annotated b count)
    (h : (annotations count a).run b = .ok (a', b')) : Located b [] b' := by
  induction count generalizing a b with
  | zero =>
    cases pure_ok.mp h
    exact .nil _
  | succ count ih =>
    refine .behind (hb 0 (Nat.zero_lt_succ _)).1 rfl (ih (fun i hi => ?_) (next_bind h))
    rw [Buffer.peekAt_advance]
    exact hb (i + 1) (Nat.succ_lt_succ hi)

theorem valueType_located {t : DeclaredType} (h : valueType.run b = .ok (t, b')) :
    Located b t.outline.places b' := by
  have h := peekKind_bind h
  split at h
  · next hk =>
    have h := next_bind h
    cases pure_ok.mp h
    exact .node hk rfl (.nil _)
  · obtain ⟨t, b₁, ht, h⟩ := bind_ok.mp h
    cases pure_ok.mp h
    exact type_located ht _

theorem resultType_located {t : DeclaredType} {k : Kind} (h : resultType.run b = .ok (t, b'))
    (hk : b.peek.kind = k) (hlast : k.isLast = false) : Located b t.outline.places b' := by
  have h := next_bind h
  split at h
  · cases pure_ok.mp h
    exact .node hk hlast (.nil _)
  · cases pure_ok.mp h
    exact .node hk hlast (.nil _)

/-- A variance has no place of its own. -/
theorem variance_located {β : Type} {f : Variance → Parser β} {r : β × Buffer}
    (h : (accept .kwOut >>= fun isOut =>
      if isOut = true then pure .covariant >>= f
      else accept .kwIn >>= fun isIn =>
        if isIn = true then pure .contravariant >>= f else pure .invariant >>= f).run b = .ok r) :
    ∃ v b', Located b [] b' ∧ (f v).run b' = .ok r := by
  obtain ⟨hout, h⟩ | ⟨-, h⟩ := accept_bind h
  · exact ⟨.covariant, _, .skip hout rfl, h⟩
  · obtain ⟨hin, h⟩ | ⟨-, h⟩ := accept_bind h
    · exact ⟨.contravariant, _, .skip hin rfl, h⟩
    · exact ⟨.invariant, _, .nil b, h⟩

theorem typeParamsWithin_located {depth : Nat} {ps : List TypeParameter}
    (h : (typeParamsWithin depth).run b = .ok (ps, b')) :
    Located b (placesOf (ps.map TypeParameter.outline)) b' := by
  induction depth generalizing b ps with
  | zero => exact absurd h fail_ok
  | succ depth ih =>
    have h := here_bind h
    obtain ⟨v, b₁, hv, h⟩ := variance_located h
    obtain ⟨hname, h⟩ := upperName_located h
    have hparam := ((hv.append hname).append (.nil _)).here (o := (nameOf b₁.peek).outline ⟨"name", false⟩)
    obtain ⟨hcomma, h⟩ | ⟨-, h⟩ := accept_bind h
    · obtain ⟨more, b₂, hmore, h⟩ := bind_ok.mp h
      cases pure_ok.mp h
      exact (hparam.before hcomma rfl).append (ih hmore)
    · cases pure_ok.mp h
      exact hparam.append (.nil _)

theorem typeParams_located {ps : List TypeParameter} (h : typeParams.run b = .ok (ps, b')) :
    Located b (placesOf (ps.map TypeParameter.outline)) b' := by
  obtain ⟨hopen, h⟩ | ⟨-, h⟩ := accept_bind h
  · have h := get_bind h
    obtain ⟨params, b₁, hparams, h⟩ := bind_ok.mp h
    obtain ⟨hclose, h⟩ := expect_then h
    cases pure_ok.mp h
    exact .behind hopen rfl ((typeParamsWithin_located hparams).before hclose rfl)
  · cases pure_ok.mp h
    exact .nil _

/-- A value behind an equals sign, if there is one. -/
theorem specifier_located {β : Type} {f : Option Expr → Parser β} {r : β × Buffer}
    (h : (accept .specify >>= fun isThere =>
      if isThere = true then expr >>= fun x => pure (some x) >>= f
      else pure none >>= f).run b = .ok r) :
    ∃ x b', (∀ slot, Located b (placesOf (outlineOption (Expr.outline slot) x)) b') ∧ (f x).run b' = .ok r := by
  obtain ⟨hspecify, h⟩ | ⟨-, h⟩ := accept_bind h
  · obtain ⟨x, b₁, hx, h⟩ := bind_ok.mp h
    exact ⟨some x, b₁, fun slot => .behind hspecify rfl ((expr_located hx slot).append (.nil _)), h⟩
  · exact ⟨none, b, fun _ => .nil b, h⟩

/-- The dots of a sequenced parameter have no place of their own. -/
theorem ellipsis_located {β : Type} {f : Bool → Parser β} {r : β × Buffer}
    (h : (accept .ellipsis >>= f).run b = .ok r) :
    ∃ sequenced b', Located b [] b' ∧ (f sequenced).run b' = .ok r := by
  obtain ⟨hk, h⟩ | ⟨-, h⟩ := accept_bind h
  · exact ⟨true, _, .skip hk rfl, h⟩
  · exact ⟨false, _, .nil _, h⟩

theorem paramsWithin_located {depth : Nat} {ps : List Parameter}
    (h : (paramsWithin depth).run b = .ok (ps, b')) : Located b (placesOf (ps.map Parameter.outline)) b' := by
  induction depth generalizing b ps with
  | zero => exact absurd h fail_ok
  | succ depth ih =>
    have h := peekKind_bind h
    split at h
    · cases pure_ok.mp h
      exact .nil _
    · have h := here_bind h
      obtain ⟨count, hcount, h⟩ := annotationCount_bind h
      obtain ⟨a, b₁, ha, h⟩ := bind_ok.mp h
      obtain ⟨t, b₂, ht, h⟩ := bind_ok.mp h
      obtain ⟨sequenced, b₃, hsequenced, h⟩ := ellipsis_located h
      obtain ⟨hname, h⟩ := lowerName_located h
      obtain ⟨default, b₄, hdefault, h⟩ := specifier_located h
      -- Type, name and default are the parts of a parameter, and it begins where its type does.
      have htype := (annotations_located hcount ha).append (type_located ht ⟨"type", false⟩)
      have hname := (hsequenced.append hname).append (hdefault ⟨"default", false⟩)
      have hparam := (htype.append hname).here (o := t.outline ⟨"type", false⟩)
      obtain ⟨hcomma, h⟩ | ⟨-, h⟩ := accept_bind h
      · obtain ⟨more, b₅, hmore, h⟩ := bind_ok.mp h
        cases pure_ok.mp h
        exact (hparam.before hcomma rfl).append (ih hmore)
      · cases pure_ok.mp h
        exact hparam.append (.nil _)

theorem params_located {l : ParameterList} (h : params.run b = .ok (l, b')) : Located b l.outline.places b' := by
  obtain ⟨hopen, h⟩ := expect_bind h
  have h := get_bind h
  obtain ⟨ps, b₁, hps, h⟩ := bind_ok.mp h
  obtain ⟨hclose, h⟩ := expect_then h
  cases pure_ok.mp h
  exact .node hopen rfl ((paramsWithin_located hps).before hclose rfl)

theorem satisfied_located {ts : List TypeRef} (h : satisfied.run b = .ok (ts, b')) (label : String) :
    Located b (placesOf (outlineTypes label ts)) b' := by
  obtain ⟨hk, h⟩ | ⟨-, h⟩ := accept_bind h
  · obtain ⟨t, b₁, ht, h⟩ := bind_ok.mp h
    obtain ⟨more, b₂, hmore, h⟩ := bind_ok.mp h
    cases pure_ok.mp h
    exact .behind hk rfl ((type_located ht _).append (moreTypes_located hmore label))
  · cases pure_ok.mp h
    exact .nil _

theorem extended_located {e : Option ExtendedType} (h : extended.run b = .ok (e, b')) :
    Located b (placesOf (outlineOption ExtendedType.outline e)) b' := by
  have h := peekKind_bind h
  split at h
  · next hk =>
    have h := next_bind h
    obtain ⟨t, b₁, ht, h⟩ := bind_ok.mp h
    obtain ⟨args, b₂, hargs, h⟩ := bind_ok.mp h
    cases pure_ok.mp h
    have hargs := (positional_located hargs ⟨"args", false⟩).append (.nil _)
    exact (Located.node hk rfl ((baseType_located ht _).append hargs)).append (.nil _)
  · cases pure_ok.mp h
    exact .nil _

/-! ## Conditions and iterations -/

/-- A variable without a type stands at its name. -/
theorem inferredVariable_located {g : Guard} (h : inferredVariable.run b = .ok (g, b')) (label : String) :
    Located b (g.variable.outline label).places b' := by
  have h := here_bind h
  obtain ⟨hname, h⟩ := lowerName_located h
  obtain ⟨hspecify, h⟩ := expect_then h
  obtain ⟨x, b₁, hx, h⟩ := bind_ok.mp h
  cases pure_ok.mp h
  have hvalue := (expr_located hx ⟨"specifier", false⟩).append (.nil _)
  have hname := ((hname.before hspecify rfl).append hvalue).here (o := (nameOf b.peek).outline ⟨"name", false⟩)
  -- The variable and the type it does not have begin at the name.
  exact hname.here (o := DeclaredType.outline (.inferred { pos := b.peek.pos } false))

theorem operand_located {o : Operand} (h : operand.run b = .ok (o, b')) : Located b o.outline.places b' := by
  have h := peekKind_bind h
  -- Whether the operand declares a variable is found by looking ahead, which reads nothing.
  obtain ⟨declares, h⟩ := operand_choice h
  dsimp only at h
  split at h
  · obtain ⟨x, b₂, hx, h⟩ := bind_ok.mp h
    cases pure_ok.mp h
    exact expr_located hx _
  · have h := peekKind_bind h
    split at h
    · obtain ⟨g, b₂, hg, h⟩ := bind_ok.mp h
      cases pure_ok.mp h
      exact inferredVariable_located hg _
    · have h := here_bind h
      obtain ⟨t, b₂, ht, h⟩ := bind_ok.mp h
      obtain ⟨hname, h⟩ := lowerName_located h
      obtain ⟨hspecify, h⟩ := expect_then h
      obtain ⟨x, b₃, hx, h⟩ := bind_ok.mp h
      cases pure_ok.mp h
      have hvalue := (expr_located hx ⟨"specifier", false⟩).append (.nil _)
      exact ((valueType_located ht).append ((hname.before hspecify rfl).append hvalue)).here (o := t.outline)

theorem condition_located {c : Condition} (h : condition.run b = .ok (c, b')) :
    Located b c.outline.places b' := by
  have h := here_bind h
  have h := peekKind_bind h
  -- By the first token: `exists`, `nonempty`, `is`, or a plain expression, which alone adds no node of its
  -- own.
  split at h
  · next hk =>
    have h := next_then h
    obtain ⟨o, b₁, ho, h⟩ := bind_ok.mp h
    cases pure_ok.mp h
    exact .node hk rfl ((operand_located ho).append (.nil _))
  · next hk =>
    have h := next_then h
    obtain ⟨o, b₁, ho, h⟩ := bind_ok.mp h
    cases pure_ok.mp h
    exact .node hk rfl ((operand_located ho).append (.nil _))
  · next hk =>
    have h := next_then h
    obtain ⟨t, b₁, ht, h⟩ := bind_ok.mp h
    have ht := type_located ht ⟨"type", false⟩
    have h := peekKind_bind h
    have h := kindAt_bind h
    split at h
    · obtain ⟨g, b₂, hg, h⟩ := bind_ok.mp h
      cases pure_ok.mp h
      exact .node hk rfl (ht.append ((inferredVariable_located hg _).append (.nil _)))
    · obtain ⟨x, b₂, hx, h⟩ := bind_ok.mp h
      cases pure_ok.mp h
      exact .node hk rfl (ht.append ((expr_located hx _).append (.nil _)))
  · obtain ⟨x, b₁, hx, h⟩ := bind_ok.mp h
    cases pure_ok.mp h
    exact ((expr_located hx _).append (.nil _)).here

theorem loopVariable_located {v : LoopVariable} (h : loopVariable.run b = .ok (v, b')) (label : String) :
    Located b (v.variable.outline label).places b' := by
  have h := here_bind h
  obtain ⟨t, b₁, ht, h⟩ := bind_ok.mp h
  obtain ⟨hname, h⟩ := lowerName_located h
  cases pure_ok.mp h
  exact ((valueType_located ht).append (hname.append (.nil _))).here (o := t.outline)

theorem iteration_located {i : Iteration} (h : iteration.run b = .ok (i, b')) :
    Located b i.outline.places b' := by
  have h := here_bind h
  obtain ⟨v, b₁, hv, h⟩ := bind_ok.mp h
  have hv := loopVariable_located hv
  obtain ⟨hentry, h⟩ | ⟨-, h⟩ := accept_bind h
  · obtain ⟨value, b₂, hvalue, h⟩ := bind_ok.mp h
    obtain ⟨hin, h⟩ := expect_then h
    obtain ⟨x, b₃, hx, h⟩ := bind_ok.mp h
    cases pure_ok.mp h
    have hvalue := (loopVariable_located hvalue "value").before hin rfl
    have hx := (expr_located hx ⟨"source", false⟩).append (.nil _)
    exact (((hv "key").before hentry rfl).append (hvalue.append hx)).here (o := v.variable.outline "key")
  · obtain ⟨hin, h⟩ := expect_then h
    obtain ⟨x, b₂, hx, h⟩ := bind_ok.mp h
    cases pure_ok.mp h
    have hx := (expr_located hx ⟨"source", false⟩).append (.nil _)
    exact (((hv "var").before hin rfl).append hx).here (o := v.variable.outline "var")

/-! ## Statements -/

/-- How an attribute gets its value. -/
theorem initializer_located {β : Type} {f : Initializer → Parser β} {r : β × Buffer}
    (h : (accept .specify >>= fun isSpecified =>
      if isSpecified = true then expr >>= fun x => pure (.specified x) >>= f
      else accept .assign >>= fun isAssigned =>
        if isAssigned = true then expr >>= fun x => pure (.assigned x) >>= f
        else pure .absent >>= f).run b = .ok r) :
    ∃ init b', (∀ slot, Located b (placesOf (outlineOption (Expr.outline slot) init.expr?)) b') ∧
      (f init).run b' = .ok r := by
  obtain ⟨hspecify, h⟩ | ⟨-, h⟩ := accept_bind h
  · obtain ⟨x, b₁, hx, h⟩ := bind_ok.mp h
    exact ⟨.specified x, b₁, fun slot => .behind hspecify rfl ((expr_located hx slot).append (.nil _)), h⟩
  · obtain ⟨hassign, h⟩ | ⟨-, h⟩ := accept_bind h
    · obtain ⟨x, b₁, hx, h⟩ := bind_ok.mp h
      exact ⟨.assigned x, b₁, fun slot => .behind hassign rfl ((expr_located hx slot).append (.nil _)), h⟩
    · exact ⟨.absent, b, fun _ => .nil b, h⟩

/-- What a `return` returns. -/
theorem result_located {β : Type} {f : Option Expr → Parser β} {r : β × Buffer}
    (h : (peekKind >>= fun k =>
      if k = .semicolon then pure none >>= f else expr >>= fun x => pure (some x) >>= f).run b =
        .ok r) :
    ∃ x b', (∀ slot, Located b (placesOf (outlineOption (Expr.outline slot) x)) b') ∧ (f x).run b' = .ok r := by
  have h := peekKind_bind h
  split at h
  · exact ⟨none, b, fun _ => .nil b, h⟩
  · obtain ⟨x, b₁, hx, h⟩ := bind_ok.mp h
    exact ⟨some x, b₁, fun slot => (expr_located hx slot).append (.nil _), h⟩

/-- An attribute stands where its type does. -/
theorem attributeDecl_located {a : Annotations} {t : DeclaredType} {b₀ : Buffer} {d : AttributeDecl}
    (h : (attributeDecl { pos := b₀.peek.pos } a t).run b = .ok (d, b')) (ht : Located b₀ t.outline.places b)
    (slot : Slot) : Located b₀ (d.outline slot).places b' := by
  obtain ⟨hname, h⟩ := lowerName_located h
  obtain ⟨init, b₁, hinit, h⟩ := initializer_located h
  obtain ⟨hsemicolon, h⟩ := expect_then h
  cases pure_ok.mp h
  have hvalue := (hinit ⟨"specifier", false⟩).before hsemicolon rfl
  exact (ht.append (hname.append hvalue)).here (o := t.outline)

end

mutual

/-- A statement is located, whatever it is. -/
theorem stmtWithin_located : {depth : Nat} → {b b' : Buffer} → {s : Stmt} →
    (stmtWithin depth).run b = .ok (s, b') → ∀ slot, Located b (s.outline slot).places b'
  | 0, _, _, _, h => absurd h fail_ok
  | depth + 1, b, b', s, h => by
    intro slot
    have h := here_bind h
    have h := peekKind_bind h
    split at h
    · next hk =>
      have h := next_then h
      obtain ⟨x, b₁, hx, h⟩ := result_located h
      obtain ⟨hsemicolon, h⟩ := expect_then h
      cases pure_ok.mp h
      exact .node hk rfl ((hx _).before hsemicolon rfl)
    · next hk =>
      have h := next_then h
      obtain ⟨hsemicolon, h⟩ := expect_then h
      cases pure_ok.mp h
      exact .node hk rfl (.skip hsemicolon rfl)
    · next hk =>
      have h := next_then h
      obtain ⟨hsemicolon, h⟩ := expect_then h
      cases pure_ok.mp h
      exact .node hk rfl (.skip hsemicolon rfl)
    · obtain ⟨s, b₁, hs, h⟩ := bind_ok.mp h
      cases pure_ok.mp h
      exact ifWithin_located hs slot
    · next hk =>
      have h := next_then h
      obtain ⟨hopen, h⟩ := expect_then h
      obtain ⟨cond, b₁, hcond, h⟩ := bind_ok.mp h
      obtain ⟨hclose, h⟩ := expect_then h
      obtain ⟨body, b₂, hbody, h⟩ := bind_ok.mp h
      cases pure_ok.mp h
      -- The statement begins where its clause does, at the keyword.
      have hcond := Located.behind hopen rfl ((condition_located hcond).before hclose rfl)
      have hclause := Located.node hk rfl (hcond.append ((blockWithin_located hbody).append (.nil _)))
      exact (hclause.append (.nil _)).again
        (o := WhileClause.outline { mark := { pos := b.peek.pos }, cond, body }) rfl
    · exact forWithin_located h slot
    · obtain ⟨count, hcount, h⟩ := annotationCount_bind h
      obtain ⟨starts, b₁, hstarts, h⟩ := bind_ok.mp h
      obtain rfl := startsDeclaration_reads_nothing hstarts
      split at h
      · exact declarationWithin_located hcount h slot
      · obtain ⟨x, b₁, hx, h⟩ := bind_ok.mp h
        obtain ⟨hsemicolon, h⟩ := expect_then h
        cases pure_ok.mp h
        exact (((expr_located hx _).append (.nil _)).before hsemicolon rfl).here

/-- A declaration is located behind its annotations. -/
theorem declarationWithin_located : {depth count : Nat} → {b b' : Buffer} → {s : Stmt} →
    Annotated b count → (declarationWithin { pos := b.peek.pos } count depth).run b = .ok (s, b') →
      ∀ slot, Located b (s.outline slot).places b'
  | 0, _, _, _, _, _, h => absurd h fail_ok
  | depth + 1, count, b, b', s, hcount, h => by
    intro slot
    obtain ⟨a, b₁, ha, h⟩ := bind_ok.mp h
    have ha := annotations_located hcount ha
    have h := peekKind_bind h
    split at h
    · next hk =>
      have h := next_then h
      obtain ⟨hname, h⟩ := upperName_located h
      obtain ⟨typeParams, b₂, htypeParams, h⟩ := bind_ok.mp h
      obtain ⟨params, b₃, hparams, h⟩ := bind_ok.mp h
      obtain ⟨extended, b₄, hextended, h⟩ := bind_ok.mp h
      obtain ⟨satisfied, b₅, hsatisfied, h⟩ := bind_ok.mp h
      obtain ⟨body, b₆, hbody, h⟩ := bind_ok.mp h
      cases pure_ok.mp h
      -- The places follow the order of the text, which is that of the outline.
      have hsupertypes := (extended_located hextended).append (satisfied_located hsatisfied "satisfies")
      have hparts := (typeParams_located htypeParams).append
        ((params_located hparams).append (hsupertypes.append (blockWithin_located hbody)))
      have hdecl := ((ha.before hk rfl).append (hname.append hparts)).here
        (o := (nameOf b₁.advance.peek).outline ⟨"name", false⟩)
      simpa [Stmt.outline, ClassDecl.outline, Node.mark, Stmt.mark] using hdecl
    · next hk =>
      have h := next_then h
      obtain ⟨hname, h⟩ := upperName_located h
      obtain ⟨typeParams, b₂, htypeParams, h⟩ := bind_ok.mp h
      obtain ⟨satisfied, b₃, hsatisfied, h⟩ := bind_ok.mp h
      obtain ⟨body, b₄, hbody, h⟩ := bind_ok.mp h
      cases pure_ok.mp h
      have hparts := (typeParams_located htypeParams).append
        ((satisfied_located hsatisfied "satisfies").append (blockWithin_located hbody))
      have hdecl := ((ha.before hk rfl).append (hname.append hparts)).here
        (o := (nameOf b₁.advance.peek).outline ⟨"name", false⟩)
      simpa [Stmt.outline, InterfaceDecl.outline, Node.mark, Stmt.mark] using hdecl
    · next hk =>
      have h := next_then h
      obtain ⟨hname, h⟩ := lowerName_located h
      obtain ⟨body, b₂, hbody, h⟩ := bind_ok.mp h
      cases pure_ok.mp h
      have hbody := (blockWithin_located hbody).append (.nil _)
      exact ((ha.before hk rfl).append (hname.append hbody)).here
        (o := (nameOf b₁.advance.peek).outline ⟨"name", false⟩)
    · next hk =>
      obtain ⟨t, b₂, ht, h⟩ := bind_ok.mp h
      exact methodWithin_located h (ha.append (resultType_located ht hk rfl)) slot
    · next hk =>
      obtain ⟨t, b₂, ht, h⟩ := bind_ok.mp h
      exact methodWithin_located h (ha.append (resultType_located ht hk rfl)) slot
    · obtain ⟨t, b₂, ht, h⟩ := bind_ok.mp h
      have ht := ha.append (valueType_located ht)
      have h := kindAt_bind h
      split at h
      · exact methodWithin_located h ht slot
      · exact methodWithin_located h ht slot
      · obtain ⟨hname, h⟩ := lowerName_located h
        obtain ⟨body, b₃, hbody, h⟩ := bind_ok.mp h
        -- A getter begins where its type does.
        cases pure_ok.mp h
        have hbody := (blockWithin_located hbody).append (.nil _)
        exact (ht.append (hname.append hbody)).here (o := t.outline)
      · obtain ⟨d, b₃, hd, h⟩ := bind_ok.mp h
        cases pure_ok.mp h
        exact attributeDecl_located hd ht slot

/-- A method is located behind its type. -/
theorem methodWithin_located : {depth : Nat} → {a : Annotations} → {t : DeclaredType} →
    {b₀ b b' : Buffer} → {s : Stmt} →
    (methodWithin { pos := b₀.peek.pos } a t depth).run b = .ok (s, b') → Located b₀ t.outline.places b →
      ∀ slot, Located b₀ (s.outline slot).places b'
  | 0, _, _, _, _, _, _, h, _ => absurd h fail_ok
  | depth + 1, a, t, b₀, b, b', s, h, ht => by
    intro slot
    obtain ⟨hname, h⟩ := lowerName_located h
    obtain ⟨typeParams, b₁, htypeParams, h⟩ := bind_ok.mp h
    obtain ⟨params, b₂, hparams, h⟩ := bind_ok.mp h
    have htypeParams := typeParams_located htypeParams
    have hparams := params_located hparams
    have h := peekKind_bind h
    dsimp only at h
    -- Only the body differs.
    have hdecl (body : MethodBody) {b₃ : Buffer} (hbody : Located b₂ (placesOf body.outline) b₃) :
        Located b₀ ((Stmt.method ⟨{ pos := b₀.peek.pos }, a, t, nameOf b.peek, typeParams, params, body⟩).outline
          slot).places b₃ := by
      have hparts := hname.append (htypeParams.append (hparams.append hbody))
      simpa [Stmt.outline, MethodDecl.outline, Name.outline, Node.mark, Stmt.mark] using
        (ht.append hparts).here (o := t.outline)
    split at h
    · obtain ⟨body, b₃, hbody, h⟩ := bind_ok.mp h
      cases pure_ok.mp h
      exact hdecl (.block body) ((blockWithin_located hbody).append (.nil _))
    · next hk =>
      have h := next_then h
      obtain ⟨x, b₃, hx, h⟩ := bind_ok.mp h
      obtain ⟨hsemicolon, h⟩ := expect_then h
      cases pure_ok.mp h
      exact hdecl (.computed x)
        (.behind hk rfl (((expr_located hx _).append (.nil _)).before hsemicolon rfl))
    · obtain ⟨hsemicolon, h⟩ := expect_then h
      cases pure_ok.mp h
      exact hdecl .absent (.skip hsemicolon rfl)

/-- A conditional statement is located with its alternative. -/
theorem ifWithin_located : {depth : Nat} → {b b' : Buffer} → {s : IfStmt} →
    (ifWithin depth).run b = .ok (s, b') → ∀ slot, Located b (s.outline slot).places b'
  | 0, _, _, _, h => absurd h fail_ok
  | depth + 1, b, b', s, h => by
    intro slot
    obtain ⟨hk, h⟩ := expect_bind h
    obtain ⟨hopen, h⟩ := expect_then h
    obtain ⟨cond, b₁, hcond, h⟩ := bind_ok.mp h
    obtain ⟨hclose, h⟩ := expect_then h
    obtain ⟨body, b₂, hbody, h⟩ := bind_ok.mp h
    have hcond := Located.behind hopen rfl ((condition_located hcond).before hclose rfl)
    have hclause : Located b (IfClause.outline { mark := { pos := b.peek.pos }, cond, body }).places b₂ :=
      -- The clause begins at the keyword, and the statement where the clause does.
      .node hk rfl (hcond.append ((blockWithin_located hbody).append (.nil _)))
    have h := peekKind_bind h
    split at h
    · next helse =>
      have h := next_bind h
      have h := peekKind_bind h
      split at h
      · obtain ⟨s, b₃, hs, h⟩ := bind_ok.mp h
        cases pure_ok.mp h
        have helse := Located.node helse rfl ((ifWithin_located hs ⟨"if", false⟩).append (.nil _))
        exact (hclause.append (helse.append (.nil _))).again rfl
      · obtain ⟨block, b₃, hblock, h⟩ := bind_ok.mp h
        cases pure_ok.mp h
        have helse := Located.node helse rfl ((blockWithin_located hblock).append (.nil _))
        exact (hclause.append (helse.append (.nil _))).again rfl
    · cases pure_ok.mp h
      exact (hclause.append (.nil _)).again rfl

/-- A loop is located with the clause behind it. -/
theorem forWithin_located : {depth : Nat} → {b b' : Buffer} → {s : Stmt} →
    (forWithin depth).run b = .ok (s, b') → ∀ slot, Located b (s.outline slot).places b'
  | 0, _, _, _, h => absurd h fail_ok
  | depth + 1, b, b', s, h => by
    intro slot
    obtain ⟨hk, h⟩ := expect_bind h
    obtain ⟨hopen, h⟩ := expect_then h
    obtain ⟨i, b₁, hi, h⟩ := bind_ok.mp h
    obtain ⟨hclose, h⟩ := expect_then h
    obtain ⟨body, b₂, hbody, h⟩ := bind_ok.mp h
    have hiteration := Located.behind hopen rfl ((iteration_located hi).before hclose rfl)
    -- The clause begins where the statement does, so both have the same place.
    have hclause : Located b
        (ForClause.outline { mark := { pos := b.peek.pos }, iteration := i, body }).places b₂ :=
      .node hk rfl (hiteration.append ((blockWithin_located hbody).append (.nil _)))
    have h := peekKind_bind h
    split at h
    · next hfail =>
      have h := next_bind h
      obtain ⟨block, b₃, hblock, h⟩ := bind_ok.mp h
      cases pure_ok.mp h
      have hfail := Located.node hfail rfl ((blockWithin_located hblock).append (.nil _))
      exact (hclause.append (hfail.append (.nil _))).again rfl
    · cases pure_ok.mp h
      exact (hclause.append (.nil _)).again rfl

/-- A block is located between its braces. -/
theorem blockWithin_located : {depth : Nat} → {b b' : Buffer} → {block : Block} →
    (blockWithin depth).run b = .ok (block, b') → Located b block.outline.places b'
  | 0, _, _, _, h => absurd h fail_ok
  | depth + 1, b, b', block, h => by
    obtain ⟨hopen, h⟩ := expect_bind h
    obtain ⟨stmts, b₁, hstmts, h⟩ := bind_ok.mp h
    obtain ⟨hclose, h⟩ := expect_bind h
    cases pure_ok.mp h
    exact .node hopen rfl ((stmtsWithin_located hstmts _).before hclose rfl)

theorem stmtsWithin_located : {depth : Nat} → {b b' : Buffer} → {ss : List Stmt} →
    (stmtsWithin depth).run b = .ok (ss, b') → ∀ label, Located b (placesOf (outlineStmts label ss)) b'
  | 0, _, _, _, h => absurd h fail_ok
  | depth + 1, b, b', ss, h => by
    intro label
    have h := peekKind_bind h
    split at h
    · cases pure_ok.mp h
      exact .nil b
    · exact absurd h fail_ok
    · obtain ⟨s, b₁, hs, h⟩ := bind_ok.mp h
      obtain ⟨more, b₂, hmore, h⟩ := bind_ok.mp h
      cases pure_ok.mp h
      exact (stmtWithin_located hs _).append (stmtsWithin_located hmore label)

end

theorem stmt_located {b b' : Buffer} {s : Stmt} (h : stmt.run b = .ok (s, b')) (slot : Slot) :
    Located b (s.outline slot).places b' :=
  stmtWithin_located (get_bind h) slot

/-! ## Units -/

section

variable {b b' : Buffer}

/-- The segments of a path are located behind its first name. -/
theorem segmentsWithin_located {depth : Nat} {ns : List Name}
    (h : (segmentsWithin depth).run b = .ok (ns, b')) (slot : Slot) :
    Located b (placesOf (ns.map (Name.outline slot))) b' := by
  induction depth generalizing b ns with
  | zero => exact absurd h fail_ok
  | succ depth ih =>
    obtain ⟨hpoint, h⟩ | ⟨-, h⟩ := accept_bind h
    · obtain ⟨hname, h⟩ := lowerName_located h
      obtain ⟨more, b₁, hmore, h⟩ := bind_ok.mp h
      cases pure_ok.mp h
      exact .behind hpoint rfl (hname.append (ih hmore))
    · cases pure_ok.mp h
      exact .nil _

theorem path_located {p : Path} (h : path.run b = .ok (p, b')) : Located b p.outline.places b' := by
  obtain ⟨hname, h⟩ := lowerName_located h
  have h := get_bind h
  obtain ⟨more, b₁, hmore, h⟩ := bind_ok.mp h
  cases pure_ok.mp h
  exact (hname.append (segmentsWithin_located hmore _)).here (o := (nameOf b.peek).outline ⟨"segments", true⟩)

theorem moduleImportsWithin_located {depth : Nat} {is : List ModuleImport}
    (h : (moduleImportsWithin depth).run b = .ok (is, b')) :
    Located b (placesOf (is.map ModuleImport.outline)) b' := by
  induction depth generalizing b is with
  | zero => exact absurd h fail_ok
  | succ depth ih =>
    have h := peekKind_bind h
    split at h
    · next hk =>
      have h := next_bind h
      obtain ⟨p, b₁, hp, h⟩ := bind_ok.mp h
      obtain ⟨hsemicolon, h⟩ := expect_then h
      obtain ⟨more, b₂, hmore, h⟩ := bind_ok.mp h
      cases pure_ok.mp h
      have himport := Located.node hk rfl (((path_located hp).append (.nil _)).before hsemicolon rfl)
      exact himport.append (ih hmore)
    · cases pure_ok.mp h
      exact .nil _

theorem moduleDescriptor_located {d : ModuleDescriptor} (h : moduleDescriptor.run b = .ok (d, b')) :
    Located b d.outline.places b' := by
  obtain ⟨hk, h⟩ := expect_bind h
  obtain ⟨p, b₁, hp, h⟩ := bind_ok.mp h
  obtain ⟨hopen, h⟩ := expect_then h
  have h := get_bind h
  obtain ⟨is, b₂, his, h⟩ := bind_ok.mp h
  obtain ⟨hclose, h⟩ := expect_then h
  cases pure_ok.mp h
  have his := (moduleImportsWithin_located his).before hclose rfl
  exact .node hk rfl (((path_located hp).before hopen rfl).append his)

theorem moduleHeader_located {d : Option ModuleDescriptor} (h : moduleHeader.run b = .ok (d, b')) :
    Located b (placesOf (outlineOption ModuleDescriptor.outline d)) b' := by
  have h := peekKind_bind h
  split at h
  · obtain ⟨d, b₁, hd, h⟩ := bind_ok.mp h
    cases pure_ok.mp h
    exact (moduleDescriptor_located hd).append (.nil _)
  · cases pure_ok.mp h
    exact .nil b

theorem anyName_located {β : Type} {f : Name → Parser β} {r : β × Buffer}
    (h : (anyName >>= f).run b = .ok r) :
    Located b [(nameOf b.peek).place] b.advance ∧ (f (nameOf b.peek)).run b.advance = .ok r := by
  obtain ⟨n, b₁, hn, h⟩ := bind_ok.mp h
  have hn := peek_bind hn
  split at hn
  · next hk =>
    have hn := next_bind hn
    cases pure_ok.mp hn
    exact ⟨.name rfl (by rcases hk with hk | hk <;> rw [hk] <;> rfl), h⟩
  · exact absurd hn fail_ok

/-- An imported name is located with the name that it is given. -/
theorem importElement_located {β : Type} {f : ImportElement → Parser β} {first : Name} {b₀ : Buffer}
    {r : β × Buffer} (hfirst : Located b₀ [first.place] b)
    (h : (accept .specify >>= fun isAlias =>
      if isAlias = true then anyName >>= fun name =>
        pure { mark := first.mark, newName := some first, name } >>= f
      else pure { mark := first.mark, newName := none, name := first } >>= f).run b = .ok r) :
    ∃ e b', Located b₀ (ImportElement.outline e).places b' ∧ (f e).run b' = .ok r := by
  obtain ⟨hspecify, h⟩ | ⟨-, h⟩ := accept_bind h
  · obtain ⟨hname, h⟩ := anyName_located h
    have hboth := (hfirst.before hspecify rfl).append (hname.append (.nil _))
    exact ⟨{ mark := first.mark, newName := some first, name := nameOf b.advance.peek }, _,
      hboth.again (o := first.outline ⟨"alias", false⟩) rfl, h⟩
  · exact ⟨{ mark := first.mark, newName := none, name := first }, _,
      (hfirst.append (.nil _)).again (o := first.outline ⟨"name", false⟩) rfl, h⟩

theorem importElementsWithin_located {depth : Nat} {es : List ImportElement}
    (h : (importElementsWithin depth).run b = .ok (es, b')) :
    Located b (placesOf (es.map ImportElement.outline)) b' := by
  induction depth generalizing b es with
  | zero => exact absurd h fail_ok
  | succ depth ih =>
    have h := peekKind_bind h
    split at h
    · cases pure_ok.mp h
      exact .nil _
    · obtain ⟨hfirst, h⟩ := anyName_located h
      obtain ⟨e, b₁, he, h⟩ := importElement_located hfirst h
      obtain ⟨hcomma, h⟩ | ⟨-, h⟩ := accept_bind h
      · obtain ⟨more, b₂, hmore, h⟩ := bind_ok.mp h
        cases pure_ok.mp h
        exact (he.before hcomma rfl).append (ih hmore)
      · cases pure_ok.mp h
        exact he.append (.nil _)

theorem importDecl_located {i : Import} (h : importDecl.run b = .ok (i, b')) : Located b i.outline.places b' := by
  obtain ⟨hk, h⟩ := expect_bind h
  obtain ⟨p, b₁, hp, h⟩ := bind_ok.mp h
  obtain ⟨hopen, h⟩ := expect_then h
  have h := get_bind h
  obtain ⟨es, b₂, hes, h⟩ := bind_ok.mp h
  obtain ⟨hclose, h⟩ := expect_then h
  cases pure_ok.mp h
  have hes := (importElementsWithin_located hes).before hclose rfl
  exact .node hk rfl (((path_located hp).before hopen rfl).append hes)

/-- Items that are read one after the other, up to a fault if there is one. -/
theorem readMany_located {α : Type} {item : Parser α} {out : α → Outline} (more : Parser Bool)
    (hmore : ∀ {b goes b'}, more.run b = .ok (goes, b') → b' = b)
    (hitem : ∀ {b a b'}, item.run b = .ok (a, b') → Located b (out a).places b') (depth : Nat) (b : Buffer) :
    ∃ b', Located b (placesOf ((readMany more item depth b).1.map out)) b' ∧
      ∀ end', (readMany more item depth b).2 = .ok end' → end' = b' := by
  induction depth generalizing b with
  | zero =>
    rw [readMany]
    exact ⟨b, .nil b, fun _ h => by simp at h⟩
  | succ depth ih =>
    rw [readMany]
    split
    · exact ⟨b, .nil b, fun _ h => by simp at h⟩
    · -- Looking ahead has read nothing.
      next hstop =>
      obtain rfl := hmore hstop
      exact ⟨_, .nil _, fun _ h => (Except.ok.inj h).symm⟩
    · next hgo =>
      obtain rfl := hmore hgo
      split
      · exact ⟨_, .nil _, fun _ h => by simp at h⟩
      · next hread =>
        obtain ⟨b', hlocated, hend⟩ := ih _
        exact ⟨b', (hitem hread).append hlocated, hend⟩

end

end Parser

/-- Statements are outlined one after another. -/
theorem outlineStmts_eq_map (label : String) (ss : List Stmt) :
    outlineStmts label ss = ss.map (Stmt.outline ⟨label, true⟩) := by
  induction ss with
  | nil => rfl
  | cons s ss ih => rw [outlineStmts, ih, List.map_cons]

/-- The nodes of what could be read of a unit stand at its tokens. -/
theorem readParts_located (b : Buffer) : ∃ b', Located b (placesOf (readParts b).unit.outline.children) b' := by
  unfold readParts
  dsimp only
  split
  · exact ⟨b, .nil b⟩
  · -- What has been read before an error is located as well, for the unit keeps it.
    next module b₁ hmodule =>
    have hmodule := Parser.moduleHeader_located hmodule
    obtain ⟨b₂, himports, hend⟩ := Parser.readMany_located Parser.atImport
      (fun h => by have h := Parser.peekKind_bind h; cases Parser.pure_ok.mp h; rfl)
      Parser.importDecl_located (b₁.remaining + 1) b₁
    split
    · next imports _ hread =>
      rw [hread] at himports
      exact ⟨b₂, by simpa [CompilationUnit.outline, Outline.children, outlineStmts] using hmodule.append himports⟩
    · next imports b₂' hread =>
      rw [hread] at himports hend
      obtain rfl := hend _ rfl
      obtain ⟨b₃, hbody, -⟩ := Parser.readMany_located Parser.inText (fun h => by cases h; rfl)
        (fun h => Parser.stmt_located h ⟨"body", true⟩) (b₂'.remaining + 1) b₂'
      have hall := hmodule.append (himports.append hbody)
      split
      · next hread' =>
        rw [hread'] at hall
        exact ⟨b₃, by simpa [CompilationUnit.outline, Outline.children, outlineStmts_eq_map] using hall⟩
      · next hread' =>
        rw [hread'] at hall
        exact ⟨b₃, by simpa [CompilationUnit.outline, Outline.children, outlineStmts_eq_map] using hall⟩

end Syntax

/-! ## Tokens do not overlap -/

namespace Token

/-- The second token does not start before the first one ends. -/
def EndsBefore (t u : Token) : Prop :=
  t.pos.line < u.pos.line ∨ t.pos.line = u.pos.line ∧ t.pos.col + t.text.length ≤ u.pos.col

namespace Lexed

variable {before : List Char} {gs : List Glyph} {ts : List Token}

/-- Every token stands behind some part of the text. -/
theorem pos_of_mem (h : Lexed before gs ts) : ∀ t ∈ ts, ∃ more, t.pos = .behind (before ++ more) := by
  induction h with
  | @eof before gap | @stray before gap | @error before gap =>
    intro t ht
    obtain rfl := List.mem_singleton.mp ht
    exact ⟨gap, rfl⟩
  | @piece before gap first more gs kind ts _ _ _ ih =>
    intro t ht
    rcases List.mem_cons.mp ht with rfl | ht
    · exact ⟨gap, rfl⟩
    · obtain ⟨further, hpos⟩ := ih t ht
      exact ⟨gap ++ first :: more ++ further, by rw [hpos]; simp⟩

/-- Every token ends before the next one begins. -/
theorem apart (h : Lexed before gs ts) : ts.Pairwise EndsBefore := by
  induction h with
  | eof | stray | error => exact List.pairwise_singleton _ _
  | @piece before gap first more gs kind ts _ _ rest ih =>
    refine List.pairwise_cons.mpr ⟨fun u hu => ?_, ih⟩
    obtain ⟨further, hpos⟩ := rest.pos_of_mem u hu
    have hbeyond := Pos.behind_append_beyond (before ++ gap) (first :: more ++ further)
    rw [← List.append_assoc] at hbeyond
    simp only [EndsBefore, hpos, String.length_ofList]
    refine hbeyond.imp id fun ⟨hline, hcol⟩ => ⟨hline, ?_⟩
    rw [List.length_append] at hcol
    exact Nat.le_trans (Nat.add_le_add_left (Nat.le_add_right _ _) _) hcol

/-- The last token is the only one that may be empty. -/
theorem exists_last (h : Lexed before gs ts) : ∃ us t, ts = us ++ [t] ∧ t.kind.isLast = true := by
  induction h with
  | eof | stray | error => exact ⟨[], _, rfl, rfl⟩
  | piece _ _ _ ih =>
    obtain ⟨us, t, rfl, hlast⟩ := ih
    exact ⟨_ :: us, t, rfl, hlast⟩

end Lexed

/-- What is in the buffer of a text. -/
theorem Buffer.ofGlyphs_spec (source : Source) (glyphs : List Glyph) :
    (Buffer.ofGlyphs source glyphs).Ended ∧ (Buffer.ofGlyphs source glyphs).rest.Pairwise EndsBefore := by
  have lexed := Cursor.tokens_lexed { source, rest := glyphs } [] rfl
  obtain ⟨us, t, htokens, hlast⟩ := lexed.exists_last
  have apart := lexed.apart
  have hword : t.kind ≠ .comment := by
    intro h
    rw [h] at hlast
    exact nomatch hlast
  rw [Buffer.ofGlyphs, Buffer.ofTokens, Buffer.Ended, Buffer.rest]
  rw [htokens] at apart ⊢
  refine ⟨?_, ?_⟩
  · simpa [List.filter_append, List.filter_cons, hword] using hlast
  · simp only [List.drop_zero]
    exact apart.sublist ((List.dropLast_sublist _).trans List.filter_sublist)

end Token

namespace Syntax

/-- Where tokens do not overlap, no node stands on a name before it. -/
theorem Placed.ordered {ts : List Token} {ps : List Place} (h : Placed ts ps)
    (apart : ts.Pairwise Token.EndsBefore) :
    ps.Pairwise Place.Before ∧ ∀ p ∈ ps, ∃ t ∈ ts, p.pos = t.pos := by
  induction h with
  | nil => exact ⟨.nil, List.forall_mem_nil _⟩
  | skip _ ih =>
    obtain ⟨ordered, hfrom⟩ := ih (List.pairwise_cons.mp apart).2
    exact ⟨ordered, fun p hp => (hfrom p hp).imp fun _ h => h.imp_left (List.mem_cons_of_mem _)⟩
  | @node t ts ps _ ih =>
    obtain ⟨ordered, hfrom⟩ := ih apart
    -- A node begins at a token, and so no later than all that is placed behind that token.
    refine ⟨List.pairwise_cons.mpr ⟨fun q hq => ?_, ordered⟩, ?_⟩
    · obtain ⟨u, hu, hpos⟩ := hfrom q hq
      rw [Place.Before, hpos]
      rcases List.mem_cons.mp hu with rfl | hu
      · exact .inr ⟨rfl, Nat.le_refl _⟩
      · refine ((List.pairwise_cons.mp apart).1 u hu).imp id fun h => h.imp_right fun hcol => ?_
        exact Nat.le_trans (Nat.le_add_right _ _) hcol
    · exact List.forall_mem_cons.mpr ⟨⟨t, List.mem_cons_self, rfl⟩, hfrom⟩
  | @name t ts ps _ ih =>
    obtain ⟨hfirst, apart⟩ := List.pairwise_cons.mp apart
    obtain ⟨ordered, hfrom⟩ := ih apart
    -- A name ends before the next token begins.
    refine ⟨List.pairwise_cons.mpr ⟨fun q hq => ?_, ordered⟩, ?_⟩
    · obtain ⟨u, hu, hpos⟩ := hfrom q hq
      rw [Place.Before, hpos]
      exact hfirst u hu
    · refine List.forall_mem_cons.mpr ⟨⟨t, List.mem_cons_self, rfl⟩, fun q hq => ?_⟩
      exact (hfrom q hq).imp fun _ h => h.imp_left (List.mem_cons_of_mem _)

/-- The nodes of what could be read of a text stand in the order of the walk. -/
theorem readUnit_ordered (source : Source) (glyphs : List Glyph) :
    (placesOf (readUnit source glyphs).unit.outline.children).Pairwise Place.Before := by
  obtain ⟨ended, apart⟩ := Buffer.ofGlyphs_spec source glyphs
  obtain ⟨b', hlocated⟩ := readParts_located (.ofGlyphs source glyphs)
  obtain ⟨-, ts, hrest, hplaced⟩ := hlocated ended
  rw [hrest] at apart
  rw [readUnit, readBuffer, CompilationUnit.number_places]
  exact (hplaced.ordered (List.pairwise_append.mp apart).1).1

/-- Every name of a unit is found from every place on it, with the node that it belongs to. -/
theorem identAt?_readUnit (source : Source) (glyphs : List Glyph) {v : Visit} {id : Name}
    (hv : v ∈ (readUnit source glyphs).unit.outline.walk) (hid : v.node = .name id) {line col : Int}
    (covers : id.Covers line col) : ∃ owner, v.parent = some owner ∧
      Editor.identAt? (readUnit source glyphs).unit line col = some (id, owner) := by
  obtain ⟨depth, parent, node⟩ := v
  obtain rfl : node = .name id := hid
  obtain ⟨owner, rfl⟩ : ∃ owner, parent = some owner := by
    rcases List.mem_cons.mp hv with h | h
    · exact nomatch (Visit.mk.inj h).2.2
    · exact Outline.exists_parent_of_mem _ h
  exact ⟨owner, rfl, CompilationUnit.identAt?_eq_some (readUnit_ordered source glyphs) hv covers⟩

/-- A condition that declares a variable without a type of its own. -/
def guardText : String :=
  "if(exists ab=c)\x7b\x7d"

/-- The name of the variable. -/
def guardName : Name :=
  ⟨⟨⟨10, 1, 11⟩, 6⟩, "ab"⟩

/-- From its second letter one finds the name, and not the type that the variable does not have, which begins at the
same token. -/
theorem identAt?_readUnit_guard : ∃ owner, Editor.identAt?
    (readUnit ⟨"guard", ""⟩ (Glyph.ofString guardText)).unit 1 12 = some (guardName, owner) := by
  have htokens : ({ source := ⟨"guard", ""⟩, rest := Glyph.ofString guardText } : Token.Cursor).tokens 0 =
      [⟨.kwIf, "if", ⟨0, 1, 1⟩⟩, ⟨.parenL, "(", ⟨2, 1, 3⟩⟩, ⟨.kwExists, "exists", ⟨3, 1, 4⟩⟩,
        ⟨.lowerName, "ab", ⟨10, 1, 11⟩⟩, ⟨.specify, "=", ⟨12, 1, 13⟩⟩, ⟨.lowerName, "c", ⟨13, 1, 14⟩⟩,
        ⟨.parenR, ")", ⟨14, 1, 15⟩⟩, ⟨.braceL, "\x7b", ⟨15, 1, 16⟩⟩, ⟨.braceR, "\x7d", ⟨16, 1, 17⟩⟩,
        ⟨.eof, "", ⟨17, 1, 18⟩⟩] :=
    Token.Cursor.tokens_eq_of_tokensWithin (n := 10) (by decide)
  have hunit : (readUnit ⟨"guard", ""⟩ (Glyph.ofString guardText)).unit.outline.walk.any
      (fun v => v.node.name? = some guardName.text && v.node.mark = guardName.mark) = true := by
    rw [readUnit, Buffer.ofGlyphs, htokens]
    decide
  -- The name is one of the nodes that the walk through the outline visits.
  obtain ⟨v, hv, hfound⟩ := List.any_eq_true.mp hunit
  rw [Bool.and_eq_true, decide_eq_true_eq, decide_eq_true_eq] at hfound
  obtain ⟨htext, hmark⟩ := hfound
  have hn : v.node = .name guardName := by
    cases hnode : v.node with
    | name n =>
      obtain ⟨mark, text⟩ := n
      rw [hnode] at htext hmark
      exact congrArg Node.name (congrArg₂ Name.mk hmark (Option.some.inj htext))
    | _ =>
      rw [hnode] at htext
      cases htext
  obtain ⟨owner, -, hfound⟩ := identAt?_readUnit ⟨"guard", ""⟩ (Glyph.ofString guardText) hv hn
    (show guardName.Covers 1 12 from ⟨rfl, by decide, by decide⟩)
  exact ⟨owner, hfound⟩

end Syntax

end Ceylon
