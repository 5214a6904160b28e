import Ceylon.Proofs.NodePlaces
import Ceylon.Proofs.ReadingExpr

/-!
# Where parsers put nodes

The nodes of what a parser returns stand at tokens that it has passed, in the order of the walk, and a name is
the only node at its token that another node does not begin with (`Placed`).  The node of an operator or a selector
is made when its first operand has been read; it stands where the operand stands (`Located.again`).  A faulty text is
read as far as the fault, so that all this is said of texts that end in an error, too.
-/

namespace Ceylon

open Token (Buffer Kind)

namespace Token

/-- Whether a token of the kind is the last one of a buffer. -/
def Kind.isLast (k : Kind) : Bool :=
  k == .eof || k == .error

/-- The buffer ends with the end of the text or with an error. -/
def Buffer.Ended (b : Buffer) : Prop :=
  b.final.kind.isLast = true

/-- The next token, and those behind it. -/
theorem Buffer.rest_eq_cons_of_not_isLast {b : Buffer} (ended : b.Ended) (h : b.peek.kind.isLast = false) :
    b.rest = b.peek :: b.advance.rest := by
  rw [rest_eq_ahead, rest_eq_ahead]
  cases hahead : b.ahead with
  | nil =>
    have hpeek : b.peek = b.final := by rw [peek, peekAt, hahead]; rfl
    rw [hpeek, ended] at h
    cases h
  | cons t ts =>
    have hpeek : b.peek = t := by rw [peek, peekAt, hahead]; rfl
    have hadvance : b.advance.ahead = ts := congrArg List.tail hahead
    rw [hpeek, hadvance]

end Token

namespace Syntax

/-! ## Places of tokens -/

/-- The places are those of tokens, in order.  Several nodes may begin at a token, but behind a name comes the next
token. -/
inductive Placed : List Token → List Place → Prop
  | nil : Placed [] []
  | skip {t : Token} {ts : List Token} {ps : List Place} (rest : Placed ts ps) : Placed (t :: ts) ps
  | node {t : Token} {ts : List Token} {ps : List Place} (rest : Placed (t :: ts) ps) :
    Placed (t :: ts) (⟨t.pos, none⟩ :: ps)
  | name {t : Token} {ts : List Token} {ps : List Place} (rest : Placed ts ps) :
    Placed (t :: ts) (⟨t.pos, some t.text⟩ :: ps)

namespace Placed

variable {ts us : List Token} {ps qs : List Place}

/-- Places of one text after another. -/
theorem append (h : Placed ts ps) (h' : Placed us qs) : Placed (ts ++ us) (ps ++ qs) := by
  induction h with
  | nil => exact h'
  | skip _ ih => exact .skip ih
  | node _ ih => exact .node ih
  | name _ ih => exact .name ih

/-- A node may begin where another one begins. -/
theorem again {p : Place} (h : Placed ts (p :: ps)) : Placed ts (⟨p.pos, none⟩ :: p :: ps) := by
  generalize hall : p :: ps = all at h
  induction h with
  | nil => cases hall
  | skip _ ih => exact .skip (ih hall)
  | node rest =>
    cases hall
    exact .node (.node rest)
  | name rest =>
    cases hall
    exact .node (.name rest)

end Placed

/-- The places are those of tokens between two places of a buffer. -/
def Located (b : Buffer) (ps : List Place) (b' : Buffer) : Prop :=
  b.Ended → b'.final = b.final ∧ ∃ ts, b.rest = ts ++ b'.rest ∧ Placed ts ps

namespace Located

variable {b b' b'' : Buffer} {ps qs : List Place}

theorem nil (b : Buffer) : Located b [] b :=
  fun _ => ⟨rfl, [], rfl, .nil⟩

/-- What is located in parts is located as a whole. -/
theorem append (h : Located b ps b') (h' : Located b' qs b'') : Located b (ps ++ qs) b'' := by
  intro ended
  obtain ⟨hfinal, ts, hrest, hts⟩ := h ended
  have ended' : b'.Ended := by rwa [Buffer.Ended, hfinal]
  obtain ⟨hfinal', us, hrest', hus⟩ := h' ended'
  refine ⟨hfinal'.trans hfinal, ts ++ us, ?_, hts.append hus⟩
  rw [hrest, hrest', List.append_assoc]

/-- A token is passed at which no node begins. -/
theorem skip {k : Kind} (h : b.peek.kind = k) (hk : k.isLast = false) : Located b [] b.advance :=
  fun ended => ⟨rfl, [b.peek], Buffer.rest_eq_cons_of_not_isLast ended (h ▸ hk), .skip .nil⟩

/-- What comes behind a token at which no node begins. -/
theorem behind {k : Kind} (h : b.peek.kind = k) (hk : k.isLast = false) (h' : Located b.advance ps b') :
    Located b ps b' :=
  (skip h hk).append h'

/-- What comes before a token at which no node begins. -/
theorem before {k : Kind} (h : Located b ps b') (h' : b'.peek.kind = k) (hk : k.isLast = false) :
    Located b ps b'.advance := by
  simpa using h.append (skip h' hk)

/-- The next token is a name. -/
theorem name {k : Kind} (h : b.peek.kind = k) (hk : k.isLast = false) :
    Located b [(Parser.nameOf b.peek).place] b.advance :=
  fun ended => ⟨rfl, [b.peek], Buffer.rest_eq_cons_of_not_isLast ended (h ▸ hk), .name .nil⟩

/-- A node begins at the next token, which is passed. -/
theorem node {k : Kind} (h : b.peek.kind = k) (hk : k.isLast = false) (h' : Located b.advance ps b') :
    Located b (⟨b.peek.pos, none⟩ :: ps) b' := by
  intro ended
  obtain ⟨hfinal, ts, hrest, hts⟩ := h' ended
  refine ⟨hfinal, b.peek :: ts, ?_, .node (.skip hts)⟩
  rw [Buffer.rest_eq_cons_of_not_isLast ended (h ▸ hk), hrest]
  rfl

/-- A node begins at the next token, and others behind it. -/
theorem here {o : Outline} (h : Located b (o.places ++ qs) b') :
    Located b (⟨b.peek.pos, none⟩ :: (o.places ++ qs)) b' := by
  intro ended
  obtain ⟨hfinal, ts, hrest, hts⟩ := h ended
  cases ts with
  | nil =>
    rw [Outline.places_eq] at hts
    cases hts
  | cons t ts =>
    obtain rfl : b.peek = t := Buffer.peek_of_rest hrest
    exact ⟨hfinal, _, hrest, .node hts⟩

/-- A node begins where the first one of several begins. -/
theorem again {o : Outline} {p : Pos} (h : Located b (o.places ++ qs) b') (hp : o.node.mark.pos = p) :
    Located b (⟨p, none⟩ :: (o.places ++ qs)) b' := by
  intro ended
  obtain ⟨hfinal, ts, hrest, hts⟩ := h ended
  refine ⟨hfinal, ts, hrest, ?_⟩
  rw [Outline.places_eq] at hts ⊢
  exact hp ▸ hts.again

end Located

/-! ## Types -/

/-- The outline of a type begins where the type does. -/
theorem TypeRef.pos_outline (slot : Slot) (t : TypeRef) : (t.outline slot).node.mark.pos = t.mark.pos := by
  cases t with
  | base b => cases b; rfl
  | union | optional => rfl

namespace Parser

variable {β : Type} {b : Buffer}

theorem lowerName_located {f : Name → Parser β} {r : β × Buffer} (h : (lowerName >>= f).run b = .ok r) :
    Located b [(nameOf b.peek).place] b.advance ∧ (f (nameOf b.peek)).run b.advance = .ok r := by
  rw [lowerName, bind_assoc] at h
  obtain ⟨hk, h⟩ := expect_bind h
  exact ⟨.name hk rfl, by simpa using h⟩

theorem upperName_located {f : Name → Parser β} {r : β × Buffer} (h : (upperName >>= f).run b = .ok r) :
    Located b [(nameOf b.peek).place] b.advance ∧ (f (nameOf b.peek)).run b.advance = .ok r := by
  rw [upperName, bind_assoc] at h
  obtain ⟨hk, h⟩ := expect_bind h
  exact ⟨.name hk rfl, by simpa using h⟩

mutual

theorem typeWithin_located : {depth : Nat} → {b b' : Buffer} → {t : TypeRef} →
    (typeWithin depth).run b = .ok (t, b') → ∀ slot, Located b (t.outline slot).places b'
  | 0, _, _, _, h => absurd h fail_ok
  | depth + 1, b, b', t, h => by
    intro slot
    obtain ⟨first, b₁, hfirst, h⟩ := bind_ok.mp h
    have hfirst := primaryTypeWithin_located hfirst
    have h := peekKind_bind h
    split at h
    · obtain ⟨more, b₂, hmore, h⟩ := bind_ok.mp h
      cases pure_ok.mp h
      exact ((hfirst _).append (moreCasesWithin_located hmore "cases")).again (first.pos_outline _)
    · cases pure_ok.mp h
      exact hfirst slot

theorem moreCasesWithin_located : {depth : Nat} → {b b' : Buffer} → {ts : List TypeRef} →
    (moreCasesWithin depth).run b = .ok (ts, b') → ∀ label, Located b (placesOf (outlineTypes label ts)) b'
  | 0, _, _, _, h => absurd h fail_ok
  | depth + 1, b, b', ts, h => by
    intro label
    obtain ⟨hbar, h⟩ | ⟨-, h⟩ := accept_bind h
    · obtain ⟨t, b₁, ht, h⟩ := bind_ok.mp h
      obtain ⟨more, b₂, hmore, h⟩ := bind_ok.mp h
      cases pure_ok.mp h
      have hmore := moreCasesWithin_located hmore label
      exact .behind hbar rfl ((primaryTypeWithin_located ht _).append hmore)
    · cases pure_ok.mp h
      exact .nil b

theorem primaryTypeWithin_located : {depth : Nat} → {b b' : Buffer} → {t : TypeRef} →
    (primaryTypeWithin depth).run b = .ok (t, b') → ∀ slot, Located b (t.outline slot).places b'
  | 0, _, _, _, h => absurd h fail_ok
  | depth + 1, b, b', t, h => by
    obtain ⟨base, b₁, hbase, h⟩ := bind_ok.mp h
    exact optionalWithin_located h (baseTypeWithin_located hbase)

/-- Marks behind a type make types that begin where the first one does. -/
theorem optionalWithin_located : {depth : Nat} → {b₀ b b' : Buffer} → {t t' : TypeRef} →
    (optionalWithin t depth).run b = .ok (t', b') → (∀ slot, Located b₀ (t.outline slot).places b) →
      ∀ slot, Located b₀ (t'.outline slot).places b'
  | 0, _, _, _, _, _, h, _ => absurd h fail_ok
  | depth + 1, b₀, b, b', t, t', h, ht => by
    have h := peekKind_bind h
    split at h
    · next hmark =>
      have h := next_then h
      refine optionalWithin_located h fun slot => ?_
      exact (((ht _).before hmark rfl).append (.nil _)).again (t.pos_outline _)
    · cases pure_ok.mp h
      exact ht

theorem baseTypeWithin_located : {depth : Nat} → {b b' : Buffer} → {t : BaseType} →
    (baseTypeWithin depth).run b = .ok (t, b') → ∀ slot, Located b (t.outline slot).places b'
  | 0, _, _, _, h => absurd h fail_ok
  | depth + 1, b, b', t, h => by
    intro slot
    have h := here_bind h
    obtain ⟨hname, h⟩ := upperName_located h
    have h := peekKind_bind h
    split at h
    · obtain ⟨args, b₁, hargs, h⟩ := bind_ok.mp h
      cases pure_ok.mp h
      exact (hname.append (typeArgsWithin_located hargs "args")).here
        (o := (nameOf b.peek).outline ⟨"name", false⟩)
    · cases pure_ok.mp h
      exact (hname.append (.nil _)).here (o := (nameOf b.peek).outline ⟨"name", false⟩)

theorem typeArgsWithin_located : {depth : Nat} → {b b' : Buffer} → {ts : List TypeRef} →
    (typeArgsWithin depth).run b = .ok (ts, b') → ∀ label, Located b (placesOf (outlineTypes label ts)) b'
  | 0, _, _, _, h => absurd h fail_ok
  | depth + 1, b, b', ts, h => by
    intro label
    obtain ⟨hopen, h⟩ := expect_then h
    obtain ⟨first, b₁, hfirst, h⟩ := bind_ok.mp h
    obtain ⟨more, b₂, hmore, h⟩ := bind_ok.mp h
    obtain ⟨hclose, h⟩ := expect_then h
    cases pure_ok.mp h
    have hmore := moreTypesWithin_located hmore label
    exact (Located.behind hopen rfl ((typeWithin_located hfirst _).append hmore)).before hclose rfl

theorem moreTypesWithin_located : {depth : Nat} → {b b' : Buffer} → {ts : List TypeRef} →
    (moreTypesWithin depth).run b = .ok (ts, b') → ∀ label, Located b (placesOf (outlineTypes label ts)) b'
  | 0, _, _, _, h => absurd h fail_ok
  | depth + 1, b, b', ts, h => by
    intro label
    obtain ⟨hcomma, h⟩ | ⟨-, h⟩ := accept_bind h
    · obtain ⟨t, b₁, ht, h⟩ := bind_ok.mp h
      obtain ⟨more, b₂, hmore, h⟩ := bind_ok.mp h
      cases pure_ok.mp h
      exact .behind hcomma rfl ((typeWithin_located ht _).append (moreTypesWithin_located hmore label))
    · cases pure_ok.mp h
      exact .nil b

end

section

variable {b' : Buffer}

theorem type_located {t : TypeRef} (h : type.run b = .ok (t, b')) (slot : Slot) :
    Located b (t.outline slot).places b' :=
  typeWithin_located (get_bind h) slot

theorem baseType_located {t : BaseType} (h : baseType.run b = .ok (t, b')) (slot : Slot) :
    Located b (t.outline slot).places b' :=
  baseTypeWithin_located (get_bind h) slot

theorem typeArgs_located {ts : List TypeRef} (h : typeArgs.run b = .ok (ts, b')) (label : String) :
    Located b (placesOf (outlineTypes label ts)) b' :=
  typeArgsWithin_located (get_bind h) label

theorem moreTypes_located {ts : List TypeRef} (h : moreTypes.run b = .ok (ts, b')) (label : String) :
    Located b (placesOf (outlineTypes label ts)) b' :=
  moreTypesWithin_located (get_bind h) label

end

end Parser

/-! ## Expressions -/

/-- The outline of an expression begins where the expression does. -/
theorem Expr.pos_outline (slot : Slot) (x : Expr) : (x.outline slot).node.mark.pos = x.mark.pos := by
  cases x <;> rfl

/-- No binary operator is the last token of a text. -/
theorem BinaryOp.isLast_kind (op : BinaryOp) : op.kind.isLast = false := by
  obtain ⟨k, hk⟩ := op
  cases k <;> first | rfl | exact absurd hk (by decide)

/-- No prefix operator is the last token of a text. -/
theorem UnaryOp.isLast_kind (op : UnaryOp) : op.kind.isLast = false := by
  obtain ⟨k, hk⟩ := op
  cases k <;> first | rfl | exact absurd hk (by decide)

namespace Located

variable {b₀ b b' : Buffer} {x y : Expr} {pos : Pos}

/-- The node of an operator stands where its first operand stands. -/
theorem binary (op : BinaryOp) (hx : ∀ slot, Located b₀ (x.outline slot).places b)
    (hop : op.kind = b.peek.kind) (hy : ∀ slot, Located b.advance (y.outline slot).places b') (slot : Slot) :
    Located b₀ ((Expr.binary { pos := x.mark.pos } op x y).outline slot).places b' :=
  (((hx _).before hop.symm op.isLast_kind).append ((hy _).append (.nil _))).again (x.pos_outline _)

/-- So does the node of an operator without a second operand. -/
theorem unary {k : Kind} (hx : ∀ slot, Located b₀ (x.outline slot).places b) (hop : b.peek.kind = k)
    (hk : k.isLast = false) (slot : Slot) :
    Located b₀ (⟨x.mark.pos, none⟩ :: placesOf [x.outline slot]) b.advance :=
  (((hx _).before hop hk).append (.nil _)).again (x.pos_outline _)

end Located

namespace Parser

/-- Type arguments are located if they are read as such, and otherwise there are none. -/
theorem typeArgsIfInvocation_located {b b' : Buffer} {ts : List TypeRef}
    (h : typeArgsIfInvocation.run b = .ok (ts, b')) (label : String) :
    Located b (placesOf (outlineTypes label ts)) b' := by
  have h := peekKind_bind h
  split at h
  · cases pure_ok.mp h
    exact .nil b
  · obtain ⟨last, b₁, hlast, h⟩ := bind_ok.mp h
    cases hlast
    split at h
    · cases pure_ok.mp h
      exact .nil b
    · have h := kindAt_bind h
      split at h
      case h_4 =>
        cases pure_ok.mp h
        exact .nil b
      all_goals exact typeArgs_located h label

theorem literal_located {sort : LiteralKind} {b b' : Buffer} {x : Expr} {k : Kind}
    (h : (literal sort).run b = .ok (x, b')) (hk : b.peek.kind = k) (hlast : k.isLast = false) (slot : Slot) :
    Located b (x.outline slot).places b' := by
  have h := next_bind h
  cases pure_ok.mp h
  exact .node hk hlast (.nil _)

theorem selfReference_located {sort : SelfKind} {b b' : Buffer} {x : Expr} {k : Kind}
    (h : (selfReference sort).run b = .ok (x, b')) (hk : b.peek.kind = k) (hlast : k.isLast = false)
    (slot : Slot) : Located b (x.outline slot).places b' := by
  have h := next_bind h
  cases pure_ok.mp h
  exact .node hk hlast (.nil _)

/-- A member that is selected, whatever follows. -/
theorem member_located {β : Type} {x : Expr} (op : MemberOp) (next : Expr → Parser β)
    {b₀ b : Buffer} {r : β × Buffer} {k : Kind} (hop : b.peek.kind = k) (hk : k.isLast = false)
    (hx : ∀ slot, Located b₀ (x.outline slot).places b)
    (h : (do
      if (← peekKind) = .upperName then
        let name ← upperName
        next (.qualified { pos := x.mark.pos } x op .type name (← typeArgsIfInvocation))
      else
        let name ← lowerName
        next (.qualified { pos := x.mark.pos } x op .member name (← typeArgsIfInvocation)) :
          Parser β).run b.advance = .ok r) :
    ∃ y b', (∀ slot, Located b₀ (y.outline slot).places b') ∧ (next y).run b' = .ok r := by
  have h := peekKind_bind h
  split at h
  · obtain ⟨hname, h⟩ := upperName_located h
    obtain ⟨args, b', hargs, h⟩ := bind_ok.mp h
    have hargs := typeArgsIfInvocation_located hargs "typeArgs"
    refine ⟨_, b', fun slot => ?_, h⟩
    exact (((hx _).before hop hk).append (hname.append hargs)).again (x.pos_outline _)
  · obtain ⟨hname, h⟩ := lowerName_located h
    obtain ⟨args, b', hargs, h⟩ := bind_ok.mp h
    have hargs := typeArgsIfInvocation_located hargs "typeArgs"
    refine ⟨_, b', fun slot => ?_, h⟩
    exact (((hx _).before hop hk).append (hname.append hargs)).again (x.pos_outline _)

mutual

theorem exprWithin_located : {depth : Nat} → {b b' : Buffer} → {x : Expr} →
    (exprWithin depth).run b = .ok (x, b') → ∀ slot, Located b (x.outline slot).places b'
  | 0, _, _, _, h => absurd h fail_ok
  | depth + 1, b, b', x, h => by
    obtain ⟨left, b₁, hleft, h⟩ := bind_ok.mp h
    have hleft := defaultWithin_located hleft
    have h := peekKind_bind h
    split at h
    · next op hop =>
      have h := next_then h
      obtain ⟨right, b₂, hright, h⟩ := bind_ok.mp h
      cases pure_ok.mp h
      exact .binary op hleft (assignment_spec hop).1 (exprWithin_located hright)
    · cases pure_ok.mp h
      exact hleft

theorem defaultWithin_located : {depth : Nat} → {b b' : Buffer} → {x : Expr} →
    (defaultWithin depth).run b = .ok (x, b') → ∀ slot, Located b (x.outline slot).places b'
  | 0, _, _, _, h => absurd h fail_ok
  | depth + 1, b, b', x, h => by
    obtain ⟨first, b₁, hfirst, h⟩ := bind_ok.mp h
    exact moreDefaultsWithin_located h (binaryWithin_located hfirst)

/-- Operands behind the first one make expressions that begin where the first one does. -/
theorem moreDefaultsWithin_located : {depth : Nat} → {b₀ b b' : Buffer} → {x x' : Expr} →
    (moreDefaultsWithin x depth).run b = .ok (x', b') → (∀ slot, Located b₀ (x.outline slot).places b) →
      ∀ slot, Located b₀ (x'.outline slot).places b'
  | 0, _, _, _, _, _, h, _ => absurd h fail_ok
  | depth + 1, b₀, b, b', x, x', h, hx => by
    have h := peekKind_bind h
    split at h
    · next hk =>
      have h := next_then h
      obtain ⟨y, b₁, hy, h⟩ := bind_ok.mp h
      exact moreDefaultsWithin_located h (.binary (.of .default) hx hk.symm (binaryWithin_located hy))
    · cases pure_ok.mp h
      exact hx

theorem binaryWithin_located : {depth level : Nat} → {b b' : Buffer} → {x : Expr} →
    (binaryWithin level depth).run b = .ok (x, b') → ∀ slot, Located b (x.outline slot).places b'
  | 0, _, _, _, _, h => absurd h fail_ok
  | depth + 1, level, b, b', x, h => by
    unfold binaryWithin at h
    split at h
    · exact powerWithin_located h
    · obtain ⟨first, b₁, hfirst, h⟩ := bind_ok.mp h
      exact moreOperandsWithin_located h (binaryWithin_located hfirst)

/-- Operands behind the first one, at every level. -/
theorem moreOperandsWithin_located : {depth level : Nat} → {operators : List BinaryOp} →
    {hasTest : Bool} → {b₀ b b' : Buffer} → {x x' : Expr} →
    (moreOperandsWithin level operators hasTest x depth).run b = .ok (x', b') →
    (∀ slot, Located b₀ (x.outline slot).places b) → ∀ slot, Located b₀ (x'.outline slot).places b'
  | 0, _, _, _, _, _, _, _, _, h, _ => absurd h fail_ok
  | depth + 1, level, operators, hasTest, b₀, b, b', x, x', h, hx => by
    have h := peekKind_bind h
    split at h
    · next hk =>
      simp only [Bool.and_eq_true, decide_eq_true_eq] at hk
      have h := next_then h
      obtain ⟨t, b₁, ht, h⟩ := bind_ok.mp h
      refine moreOperandsWithin_located h fun slot => ?_
      exact (((hx _).before hk.2 rfl).append ((type_located ht _).append (.nil _))).again (x.pos_outline _)
    · split at h
      · next op hop =>
        have h := next_then h
        obtain ⟨y, b₁, hy, h⟩ := bind_ok.mp h
        -- The operator was found among those of the level by the kind of the token.
        have hkind : op.kind = b.peek.kind := by simpa using List.find?_some hop
        exact moreOperandsWithin_located h (.binary op hx hkind (binaryWithin_located hy))
      · cases pure_ok.mp h
        exact hx

theorem powerWithin_located : {depth : Nat} → {b b' : Buffer} → {x : Expr} →
    (powerWithin depth).run b = .ok (x, b') → ∀ slot, Located b (x.outline slot).places b'
  | 0, _, _, _, h => absurd h fail_ok
  | depth + 1, b, b', x, h => by
    obtain ⟨left, b₁, hleft, h⟩ := bind_ok.mp h
    have hleft := prefixWithin_located hleft
    have h := peekKind_bind h
    split at h
    · next hk =>
      have h := next_then h
      obtain ⟨right, b₂, hright, h⟩ := bind_ok.mp h
      cases pure_ok.mp h
      exact .binary (.of .power) hleft hk.symm (powerWithin_located hright)
    · cases pure_ok.mp h
      exact hleft

theorem prefixWithin_located : {depth : Nat} → {b b' : Buffer} → {x : Expr} →
    (prefixWithin depth).run b = .ok (x, b') → ∀ slot, Located b (x.outline slot).places b'
  | 0, _, _, _, h => absurd h fail_ok
  | depth + 1, b, b', x, h => by
    have h := peekKind_bind h
    split at h
    · next op hop =>
      intro slot
      have h := next_bind h
      obtain ⟨y, b₁, hy, h⟩ := bind_ok.mp h
      cases pure_ok.mp h
      exact .node (unary_spec hop).symm op.isLast_kind ((prefixWithin_located hy _).append (.nil _))
    · obtain ⟨y, b₁, hy, h⟩ := bind_ok.mp h
      exact postfixWithin_located h (primaryWithin_located hy)

/-- Operators behind an expression make expressions that begin where the first one does. -/
theorem postfixWithin_located : {depth : Nat} → {b₀ b b' : Buffer} → {x x' : Expr} →
    (postfixWithin x depth).run b = .ok (x', b') → (∀ slot, Located b₀ (x.outline slot).places b) →
      ∀ slot, Located b₀ (x'.outline slot).places b'
  | 0, _, _, _, _, _, h, _ => absurd h fail_ok
  | depth + 1, b₀, b, b', x, x', h, hx => by
    have h := peekKind_bind h
    split at h
    · next hk => exact postfixWithin_located (next_bind h) fun _ => .unary hx hk rfl _
    · next hk => exact postfixWithin_located (next_bind h) fun _ => .unary hx hk rfl _
    · next hk => exact postfixWithin_located (next_then h) fun _ => .unary hx hk rfl _
    · next hk => exact postfixWithin_located (next_then h) fun _ => .unary hx hk rfl _
    · cases pure_ok.mp h
      exact hx

theorem primaryWithin_located : {depth : Nat} → {b b' : Buffer} → {x : Expr} →
    (primaryWithin depth).run b = .ok (x, b') → ∀ slot, Located b (x.outline slot).places b'
  | 0, _, _, _, h => absurd h fail_ok
  | depth + 1, b, b', x, h => by
    obtain ⟨atom, b₁, hatom, h⟩ := bind_ok.mp h
    exact selectorsWithin_located h (atomWithin_located hatom)

/-- Selectors behind a primary make expressions that begin where the primary does. -/
theorem selectorsWithin_located : {depth : Nat} → {b₀ b b' : Buffer} → {x x' : Expr} →
    (selectorsWithin x depth).run b = .ok (x', b') → (∀ slot, Located b₀ (x.outline slot).places b) →
      ∀ slot, Located b₀ (x'.outline slot).places b'
  | 0, _, _, _, _, _, h, _ => absurd h fail_ok
  | depth + 1, b₀, b, b', x, x', h, hx => by
    have h := peekKind_bind h
    split at h
    · -- Members, subscripts and arguments make a new primary, which begins where the old one does.
      next hk =>
      obtain ⟨y, b₁, hy, h⟩ := member_located .plain (selectorsWithin · depth) hk rfl hx
        (by simpa only [hk] using next_bind h)
      exact selectorsWithin_located h hy
    · next hk =>
      obtain ⟨y, b₁, hy, h⟩ := member_located .safe (selectorsWithin · depth) hk rfl hx
        (by simpa only [hk] using next_bind h)
      exact selectorsWithin_located h hy
    · next hk =>
      obtain ⟨y, b₁, hy, h⟩ := member_located .spread (selectorsWithin · depth) hk rfl hx
        (by simpa only [hk] using next_bind h)
      exact selectorsWithin_located h hy
    · next hk =>
      have h := next_bind h
      obtain ⟨s, b₁, hs, h⟩ := bind_ok.mp h
      obtain ⟨hclose, h⟩ := expect_then h
      refine selectorsWithin_located h fun slot => ?_
      have hs := (subscriptWithin_located hs).before hclose rfl
      exact (((hx _).before hk rfl).append hs).again (x.pos_outline _)
    · next hk =>
      have h := next_bind h
      obtain ⟨s, b₁, hs, h⟩ := bind_ok.mp h
      obtain ⟨hclose, h⟩ := expect_then h
      refine selectorsWithin_located h fun slot => ?_
      have hs := (subscriptWithin_located hs).before hclose rfl
      exact (((hx _).before hk rfl).append hs).again (x.pos_outline _)
    · obtain ⟨args, b₁, hargs, h⟩ := bind_ok.mp h
      refine selectorsWithin_located h fun slot => ?_
      have hargs := positionalWithin_located hargs ⟨"positional", false⟩
      exact ((hx _).append (hargs.append (.nil _))).again (x.pos_outline _)
    · split at h
      · obtain ⟨args, b₁, hargs, h⟩ := bind_ok.mp h
        refine selectorsWithin_located h fun slot => ?_
        exact ((hx _).append ((namedWithin_located hargs).append (.nil _))).again (x.pos_outline _)
      · cases pure_ok.mp h
        exact hx
    · cases pure_ok.mp h
      exact hx

theorem subscriptWithin_located : {depth : Nat} → {b b' : Buffer} → {s : Subscript} →
    (subscriptWithin depth).run b = .ok (s, b') → Located b (placesOf s.outline) b'
  | 0, _, _, _, h => absurd h fail_ok
  | depth + 1, b, b', s, h => by
    obtain ⟨lower, b₁, hlower, h⟩ := bind_ok.mp h
    have hlower := binaryWithin_located hlower
    obtain ⟨hrange, h⟩ | ⟨-, h⟩ := accept_bind h
    · obtain ⟨upper, b₂, hupper, h⟩ := bind_ok.mp h
      cases pure_ok.mp h
      exact ((hlower _).before hrange rfl).append ((binaryWithin_located hupper _).append (.nil _))
    · obtain ⟨htail, h⟩ | ⟨-, h⟩ := accept_bind h
      · cases pure_ok.mp h
        exact ((hlower _).before htail rfl).append (.nil _)
      · cases pure_ok.mp h
        exact (hlower _).append (.nil _)

theorem atomWithin_located : {depth : Nat} → {b b' : Buffer} → {x : Expr} →
    (atomWithin depth).run b = .ok (x, b') → ∀ slot, Located b (x.outline slot).places b'
  | 0, _, _, _, h => absurd h fail_ok
  | depth + 1, b, b', x, h => by
    have h := peek_bind h
    dsimp only at h
    split at h
    · -- A name is located with the type arguments behind it.
      intro slot
      obtain ⟨hname, h⟩ := lowerName_located h
      obtain ⟨args, b₁, hargs, h⟩ := bind_ok.mp h
      cases pure_ok.mp h
      exact (hname.append (typeArgsIfInvocation_located hargs "typeArgs")).here
        (o := (nameOf b.peek).outline ⟨"name", false⟩)
    · intro slot
      obtain ⟨hname, h⟩ := upperName_located h
      obtain ⟨args, b₁, hargs, h⟩ := bind_ok.mp h
      cases pure_ok.mp h
      exact (hname.append (typeArgsIfInvocation_located hargs "typeArgs")).here
        (o := (nameOf b.peek).outline ⟨"name", false⟩)
    · next hk => exact literal_located h hk rfl
    · next hk => exact literal_located h hk rfl
    · next hk => exact literal_located h hk rfl
    · next hk => exact literal_located h hk rfl
    · next hk => exact literal_located h hk rfl
    · next hk => exact selfReference_located h hk rfl
    · next hk => exact selfReference_located h hk rfl
    · next hk => exact selfReference_located h hk rfl
    · next hk =>
      intro slot
      have h := next_then h
      obtain ⟨y, b₁, hy, h⟩ := bind_ok.mp h
      obtain ⟨hclose, h⟩ := expect_then h
      cases pure_ok.mp h
      exact .node hk rfl (((exprWithin_located hy _).append (.nil _)).before hclose rfl)
    · next hk =>
      intro slot
      have h := next_then h
      obtain ⟨elems, b₁, helems, h⟩ := bind_ok.mp h
      obtain ⟨hclose, h⟩ := expect_then h
      cases pure_ok.mp h
      exact .node hk rfl ((exprsWithin_located helems _).before hclose rfl)
    · exact absurd h fail_ok

theorem exprsWithin_located : {depth : Nat} → {close : Kind} → {b b' : Buffer} → {xs : List Expr} →
    (exprsWithin close depth).run b = .ok (xs, b') → ∀ label, Located b (placesOf (outlineExprs label xs)) b'
  | 0, _, _, _, _, h => absurd h fail_ok
  | depth + 1, close, b, b', xs, h => by
    intro label
    have h := peekKind_bind h
    split at h
    · cases pure_ok.mp h
      exact .nil b
    · obtain ⟨x, b₁, hx, h⟩ := bind_ok.mp h
      have hx := exprWithin_located hx ⟨label, true⟩
      obtain ⟨hcomma, h⟩ | ⟨-, h⟩ := accept_bind h
      · obtain ⟨more, b₂, hmore, h⟩ := bind_ok.mp h
        cases pure_ok.mp h
        exact (hx.before hcomma rfl).append (exprsWithin_located hmore label)
      · cases pure_ok.mp h
        exact hx.append (.nil _)

theorem positionalWithin_located : {depth : Nat} → {b b' : Buffer} → {a : PositionalArgs} →
    (positionalWithin depth).run b = .ok (a, b') → ∀ slot, Located b (a.outline slot).places b'
  | 0, _, _, _, h => absurd h fail_ok
  | depth + 1, b, b', a, h => by
    intro slot
    obtain ⟨hopen, h⟩ := expect_bind h
    obtain ⟨args, b₁, hargs, h⟩ := bind_ok.mp h
    obtain ⟨hclose, h⟩ := expect_then h
    cases pure_ok.mp h
    exact .node hopen rfl ((exprsWithin_located hargs _).before hclose rfl)

theorem namedWithin_located : {depth : Nat} → {b b' : Buffer} → {a : NamedArgs} →
    (namedWithin depth).run b = .ok (a, b') → Located b a.outline.places b'
  | 0, _, _, _, h => absurd h fail_ok
  | depth + 1, b, b', a, h => by
    obtain ⟨hopen, h⟩ := expect_bind h
    obtain ⟨args, b₁, hargs, h⟩ := bind_ok.mp h
    have hargs := namedArgsWithin_located hargs
    have h := peekKind_bind h
    split at h
    · obtain ⟨hclose, h⟩ := expect_then h
      cases pure_ok.mp h
      rw [NamedArgs.outline, Outline.places_mk, placesOf_append]
      exact .node hopen rfl ((hargs.append (.nil _)).before hclose rfl)
    · have h := here_bind h
      obtain ⟨values, b₂, hvalues, h⟩ := bind_ok.mp h
      obtain ⟨hclose, h⟩ := expect_then h
      cases pure_ok.mp h
      -- What follows the named arguments is a sequenced one, which has at least one value.
      obtain ⟨v, vs, rfl, hvalues⟩ := sequencedWithin_located hvalues
      have hsequenced := ((hvalues "exprs").here (o := v.outline ⟨"exprs", true⟩)).append (.nil _)
      rw [NamedArgs.outline, Outline.places_mk, placesOf_append]
      exact .node hopen rfl ((hargs.append hsequenced).before hclose rfl)

theorem namedArgsWithin_located : {depth : Nat} → {b b' : Buffer} → {as : List NamedArg} →
    (namedArgsWithin depth).run b = .ok (as, b') → Located b (placesOf (outlineNamed as)) b'
  | 0, _, _, _, h => absurd h fail_ok
  | depth + 1, b, b', as, h => by
    have h := peekKind_bind h
    have h := kindAt_bind h
    split at h
    · have h := here_bind h
      obtain ⟨hname, h⟩ := lowerName_located h
      obtain ⟨hspecify, h⟩ := expect_then h
      obtain ⟨value, b₁, hvalue, h⟩ := bind_ok.mp h
      obtain ⟨hsemicolon, h⟩ := expect_then h
      obtain ⟨more, b₂, hmore, h⟩ := bind_ok.mp h
      cases pure_ok.mp h
      have hvalue := ((exprWithin_located hvalue ⟨"x", false⟩).append (.nil _)).before hsemicolon rfl
      -- The argument begins with its name.
      have harg := ((hname.before hspecify rfl).append hvalue).here
        (o := (nameOf b.peek).outline ⟨"name", false⟩)
      exact harg.append (namedArgsWithin_located hmore)
    · cases pure_ok.mp h
      exact .nil b

/-- Sequenced arguments are located, and there is at least one. -/
theorem sequencedWithin_located : {depth : Nat} → {b b' : Buffer} → {xs : List Expr} →
    (sequencedWithin depth).run b = .ok (xs, b') →
      ∃ y ys, xs = y :: ys ∧ ∀ label, Located b (placesOf (outlineExprs label xs)) b'
  | 0, _, _, _, h => absurd h fail_ok
  | depth + 1, b, b', xs, h => by
    obtain ⟨x, b₁, hx, h⟩ := bind_ok.mp h
    have hx := exprWithin_located hx
    obtain ⟨hcomma, h⟩ | ⟨-, h⟩ := accept_bind h
    · obtain ⟨more, b₂, hmore, h⟩ := bind_ok.mp h
      cases pure_ok.mp h
      obtain ⟨-, -, -, hmore⟩ := sequencedWithin_located hmore
      exact ⟨x, more, rfl, fun label => ((hx _).before hcomma rfl).append (hmore label)⟩
    · cases pure_ok.mp h
      exact ⟨x, [], rfl, fun label => (hx _).append (.nil _)⟩

end

theorem expr_located {b b' : Buffer} {x : Expr} (h : expr.run b = .ok (x, b')) (slot : Slot) :
    Located b (x.outline slot).places b' :=
  exprWithin_located (get_bind h) slot

theorem positional_located {b b' : Buffer} {a : PositionalArgs} (h : positional.run b = .ok (a, b'))
    (slot : Slot) : Located b (a.outline slot).places b' :=
  positionalWithin_located (get_bind h) slot

end Parser

end Syntax

end Ceylon
