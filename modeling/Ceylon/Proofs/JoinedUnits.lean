import Ceylon.Proofs.EchoedStatements
import Ceylon.Proofs.Joining

/-!
# Units one behind the other

Texts that are units on their own make up a unit together: the imports of the one come before the declarations of the
other, and none of them takes anything from the text behind it.  A unit that declares a module can only come first.
-/

namespace Ceylon

open Token (Buffer Kind)

namespace Token.Buffer

variable {b c : Buffer}

/-- The second buffer begins with the words of the first one, and goes on with something that begins a statement. -/
structure Inside (b c : Buffer) : Prop where
  words : b.ahead.map Token.word <+: c.ahead.map Token.word
  past : (c.peekAt b.ahead.length).kind ∉ [Kind.kwElse, .kwFail, .error]

/-- The words ahead are those of the tokens ahead. -/
theorem word_peekAt {b : Buffer} {ws : List (Kind × String)} (h : b.ahead.map Token.word = ws) {i : Nat}
    (hi : i < ws.length) : (b.peekAt i).word = ws[i] := by
  subst h
  rw [List.length_map] at hi
  rw [peekAt, List.getElem?_eq_getElem hi, List.getElem_map]
  rfl

namespace Inside

/-- A buffer with the words of another one is no shorter. -/
theorem longer (h : Inside b c) : b.ahead.length ≤ c.ahead.length := by
  simpa using h.words.length_le

/-- The words of the inner buffer are those of the outer one. -/
theorem word (h : Inside b c) {i : Nat} (hi : i < b.ahead.length) : (c.peekAt i).word = (b.peekAt i).word := by
  obtain ⟨ws, hws⟩ := h.words
  rw [word_peekAt hws.symm (by simp; omega), word_peekAt (b := b) rfl (by simpa), List.getElem_append_left (by simpa)]

/-- A buffer stays inside the other one when both have passed some tokens. -/
theorem passing (h : Inside b c) {k : Nat} (hk : k ≤ b.ahead.length) : Inside (b.passing k) (c.passing k) where
  words := by
    rw [ahead_passing, ahead_passing, List.map_drop, List.map_drop]
    exact h.words.drop k
  past := by
    rw [length_passing, peekAt_passing, Nat.add_sub_cancel' hk]
    exact h.past

/-- A part of the first text that ends with a mark goes along with the second text. -/
theorem along (h : Inside b c) {l : Nat} (hl : l < b.ahead.length) (hclosed : (b.peekAt l).kind.closes = true)
    (hnext : l + 1 < b.ahead.length → (b.peekAt (l + 1)).kind ∉ [Kind.kwElse, .kwFail, .error]) : Along l b c where
  le := hl.le
  longer := h.longer
  words i hi := h.word (hi.trans hl)
  parting := by
    rw [(Prod.mk.inj (h.word hl)).1]
    exact .closed hclosed
  past := by
    rcases Nat.lt_or_eq_of_le (Nat.succ_le_of_lt hl) with hlt | heq
    · rw [(Prod.mk.inj (h.word hlt)).1]
      exact hnext hlt
    · rw [show l + 1 = b.ahead.length from heq]
      exact h.past

end Inside

/-- The end of a text comes behind all of its tokens. -/
theorem ofGlyphs_inner (source : Source) (gs : List Text.Glyph) :
    ∀ t ∈ (Buffer.ofGlyphs source gs).ahead, t.kind ≠ .eof := by
  have lexed := Cursor.tokens_lexed { source, rest := gs } [] rfl
  intro t ht
  refine (lexed.inner_kind t ?_).1
  have hahead : (Buffer.ofGlyphs source gs).ahead =
      ((({ source, rest := gs } : Cursor).tokens 0).filter (·.kind ≠ .comment)).dropLast := rfl
  rw [hahead] at ht
  obtain ⟨us, e, htokens, hlast⟩ := lexed.exists_last
  have hcomment : e.kind ≠ .comment := by
    intro h
    rw [h] at hlast
    cases hlast
  rw [htokens] at ht ⊢
  rw [List.dropLast_concat]
  rw [List.filter_append, List.filter_cons_of_pos (by simpa using hcomment), List.filter_nil,
    List.dropLast_concat] at ht
  exact List.mem_of_mem_filter ht

/-- Where the end of the text comes next, all has been read. -/
theorem all_read {b b' : Buffer} {ps : List Syntax.Place} (hb : b.Ended) (hinner : ∀ t ∈ b.ahead, t.kind ≠ .eof)
    (h : Syntax.Located b ps b') (hend : b'.atEnd = true) : b.final.kind = .eof ∧ b'.ahead = [] := by
  obtain ⟨hfinal, ts, hrest, -⟩ := h hb
  rw [rest_eq_ahead, rest_eq_ahead] at hrest
  have hpeek : b'.peek.kind = .eof := of_decide_eq_true hend
  cases hahead : b'.ahead with
  | nil =>
    refine ⟨?_, rfl⟩
    rw [← hfinal, ← hpeek, peek, peekAt, hahead]
    rfl
  | cons t us =>
    refine absurd ?_ (hinner t (by rw [hrest, hahead]; simp))
    rw [← hpeek, peek, peekAt, hahead]
    rfl

end Token.Buffer

namespace Syntax

open Text (Glyph)
open Token.Buffer (Along Inside)

namespace Parser

variable {α γ : Type} {view : α → γ} {more : Parser Bool} {item : Parser α} {b b' b'' c : Buffer} {as as' : List α}

/-! ## Items -/

/-- Items that are read one after the other. -/
inductive Items (more : Parser Bool) (item : Parser α) : Buffer → List α → Buffer → Prop
  | nil (b : Buffer) : Items more item b [] b
  | cons {b b' b'' : Buffer} {a : α} {as : List α} (hmore : more.run b = .ok (true, b))
    (hitem : item.run b = .ok (a, b')) (rest : Items more item b' as b'') : Items more item b (a :: as) b''

namespace Items

/-- Items of one list after those of another. -/
theorem append (h : Items more item b as b') (h' : Items more item b' as' b'') :
    Items more item b (as ++ as') b'' := by
  induction h with
  | nil => exact h'
  | cons hmore hitem _ ih => exact .cons hmore hitem (ih h')

/-- What has been read as many items are items, and after them there are no more. -/
theorem of_readMany (hlook : ∀ b r, more.run b = .ok r → r.2 = b) {depth : Nat}
    (h : readMany more item depth b = (as, .ok b')) : Items more item b as b' ∧ more.run b' = .ok (false, b') := by
  induction depth generalizing b as with
  | zero => cases h
  | succ depth ih =>
    rw [readMany] at h
    split at h
    · cases h
    · next b₁ hmore =>
      -- Asking whether there is more reads nothing.
      obtain rfl : b₁ = b := hlook b _ hmore
      obtain ⟨rfl, hb⟩ := Prod.mk.inj h
      obtain rfl := Except.ok.inj hb
      exact ⟨.nil _, hmore⟩
    · next b₁ hmore =>
      obtain rfl : b₁ = b := hlook b _ hmore
      split at h
      · cases h
      · next a b₂ hitem =>
        obtain ⟨rfl, hb⟩ := Prod.mk.inj h
        obtain ⟨hrest, hend⟩ := ih (Prod.ext rfl hb)
        exact ⟨.cons hmore hitem hrest, hend⟩

/-- Items that stand ahead are read, and then what follows them. -/
theorem readMany (h : Items more item b as b') (depth : Nat) : Parser.readMany more item (as.length + depth) b =
    (as ++ (Parser.readMany more item depth b').1, (Parser.readMany more item depth b').2) := by
  induction h with
  | nil => simp
  | cons hmore hitem _ ih =>
    rw [List.length_cons, Nat.add_right_comm, Parser.readMany, hmore]
    dsimp only
    rw [hitem]
    dsimp only
    rw [ih]
    rfl

/-- Items are read up to the place where there are no more. -/
theorem readMany_stops (h : Items more item b as b') (hend : more.run b' = .ok (false, b')) {depth : Nat}
    (hdepth : as.length < depth) : Parser.readMany more item depth b = (as, .ok b') := by
  obtain ⟨d, rfl⟩ := Nat.exists_eq_add_of_lt hdepth
  rw [Nat.add_assoc, h.readMany, Parser.readMany, hend]
  dsimp only
  rw [List.append_nil]

/-- Items are read up to the one that cannot be read. -/
theorem readMany_fails (h : Items more item b as b') {e : SyntaxError} (hmore : more.run b' = .ok (true, b'))
    (hitem : item.run b' = .error e) {depth : Nat} (hdepth : as.length < depth) :
    Parser.readMany more item depth b = (as, .error e) := by
  obtain ⟨d, rfl⟩ := Nat.exists_eq_add_of_lt hdepth
  rw [Nat.add_assoc, h.readMany, Parser.readMany, hmore]
  dsimp only
  rw [hitem]
  dsimp only
  rw [List.append_nil]

end Items

/-- An item that ends by itself and can be told by its first token. -/
structure Standalone (more : Parser Bool) (item : Parser α) : Prop where
  echoes : ∀ b, Echoes true unseen b item item
  begins : ∀ {b r}, item.run b = .ok r → b.peek.kind ∉ [Kind.kwElse, .kwFail, .error]
  more : ∀ {b c : Buffer}, c.peek.kind = b.peek.kind → more.run b = .ok (true, b) → more.run c = .ok (true, c)

namespace Standalone

/-- Imports stand on their own. -/
theorem imports : Standalone atImport importDecl where
  echoes _ := importDecl_echoes
  begins h := by
    rw [import_of_importDecl h]
    decide
  more {b c} hkind h := by
    have hb : b.peek.kind = .kwImport := by
      have h := peekKind_bind h
      simpa using (Prod.mk.inj (pure_ok.mp h)).1
    rw [atImport, bind_run (peekKind_run (by rw [hkind, hb]; decide)), hkind, hb]
    rfl

/-- Statements stand on their own. -/
theorem statements : Standalone inText stmt where
  echoes _ := stmt_echoes
  begins h := by
    have := kind_of_stmt h
    simp_all [foreign]
  more {b c} hkind h := by
    have hb : b.atEnd = false := by simpa using (Prod.mk.inj (Except.ok.inj h)).1
    have hc : c.atEnd = false := by rwa [Buffer.atEnd, hkind]
    exact congrArg (fun e => Except.ok (!e, c)) hc

/-- Items that stand on their own are read in a longer text as well. -/
theorem echo (hstandalone : Standalone more item) (h : Items more item b as b') (hend : b.final.kind = .eof)
    (hnext : b'.ahead ≠ [] → b'.peek.kind ∉ [Kind.kwElse, .kwFail, .error]) (hin : Inside b c) :
    ∃ as' k, k ≤ b.ahead.length ∧ b' = b.passing k ∧ Items more item c as' (c.passing k) := by
  induction h generalizing c with
  | nil b => exact ⟨[], 0, Nat.zero_le _, rfl, .nil c⟩
  | @cons b b' b'' a as hmore hitem rest ih =>
    have hechoes := hstandalone.echoes b
    obtain ⟨k, hk, rfl, hclosed⟩ := hechoes.passes hend hitem
    obtain ⟨l, rfl, hl⟩ := hclosed rfl
    -- What stands behind an item does not carry it on: it begins another item or ends the items.
    have hbehind : l + 1 < b.ahead.length → (b.peekAt (l + 1)).kind ∉ [Kind.kwElse, .kwFail, .error] := by
      intro hlt
      rw [← Buffer.peek_passing]
      cases rest with
      | nil =>
        refine hnext (List.ne_nil_of_length_pos ?_)
        rw [Buffer.length_passing]
        omega
      | cons _ hitem' _ => exact hstandalone.begins hitem'
    obtain ⟨a', ha', -⟩ := hechoes.echo hend hitem hk (hin.along hk hl hbehind) (Nat.le_refl _)
    obtain ⟨as', j, hj, rfl, has'⟩ := ih (by rw [Buffer.final_passing, hend]) hnext (hin.passing hk)
    rw [Buffer.length_passing] at hj
    rw [Buffer.passing_passing] at has' ⊢
    refine ⟨a' :: as', l + 1 + j, by omega, rfl, .cons (hstandalone.more ?_ hmore) ha' has'⟩
    exact (Prod.mk.inj (hin.word (Nat.lt_of_lt_of_le (Nat.zero_lt_succ l) hk))).1

/-- All items of a text are read in a longer one. -/
theorem echo_all (hstandalone : Standalone more item) (h : Items more item b as b') (hend : b.final.kind = .eof)
    (hall : b'.ahead = []) (hin : Inside b c) : ∃ as', Items more item c as' (c.passing b.ahead.length) := by
  obtain ⟨as', k, hk, rfl, has'⟩ := hstandalone.echo h hend (absurd hall) hin
  have hnone := congrArg List.length hall
  rw [Buffer.length_passing, List.length_nil] at hnone
  exact ⟨as', by rwa [show b.ahead.length = k by omega]⟩

/-- Every item takes a token at least. -/
theorem length_le (hstandalone : Standalone more item) (h : Items more item b as b') (hend : b.final.kind = .eof) :
    ∃ k ≤ b.ahead.length, b' = b.passing k ∧ as.length ≤ k := by
  induction h with
  | nil b => exact ⟨0, Nat.zero_le _, rfl, Nat.le_refl _⟩
  | cons _ hitem _ ih =>
    obtain ⟨k, hk, rfl, hclosed⟩ := (hstandalone.echoes _).passes hend hitem
    obtain ⟨l, rfl, -⟩ := hclosed rfl
    obtain ⟨j, hj, rfl, hlength⟩ := ih (by rw [Buffer.final_passing, hend])
    rw [Buffer.length_passing] at hj
    exact ⟨l + 1 + j, by omega, Buffer.passing_passing _ _ _, by rw [List.length_cons]; omega⟩

/-- A text has fewer items than it has tokens. -/
theorem lt_remaining (hstandalone : Standalone more item) (h : Items more item b as b') (hend : b.final.kind = .eof) :
    as.length < b.remaining + 1 ∧ b'.final.kind = .eof := by
  obtain ⟨k, hk, rfl, hlength⟩ := hstandalone.length_le h hend
  rw [b.remaining_eq, Buffer.final_passing]
  exact ⟨by omega, hend⟩

end Standalone

/-! ## Chunks -/

/-- The words that come next. -/
def wordsOf (b : Buffer) : List (Kind × String) :=
  b.ahead.map Token.word

/-- A text that consists of items. -/
structure Chunk (more : Parser Bool) (item : Parser α) (b : Buffer) : Prop where
  final : b.final.kind = .eof
  items : ∃ as b', Items more item b as b' ∧ b'.ahead = []

section

variable {bs : List Buffer} {ws : List (Kind × String)}

/-- What comes first is the beginning of an item, or what comes behind the chunks. -/
theorem first_of_chunks {P : Kind → Prop} (hP : ∀ {b r}, item.run b = .ok r → P b.peek.kind)
    (hbs : ∀ b ∈ bs, Chunk more item b) (hc : wordsOf c = bs.flatMap wordsOf ++ ws)
    (hnext : bs.flatMap wordsOf = [] → P c.peek.kind) : P c.peek.kind := by
  induction bs with
  | nil => exact hnext rfl
  | cons b bs ih =>
    obtain ⟨as, b', hitems, hall⟩ := (hbs b List.mem_cons_self).items
    rw [List.flatMap_cons] at hc hnext
    cases hahead : b.ahead with
    | nil =>
      -- A chunk without words says nothing about the first word, which is then one of the chunks behind it.
      have hnone : wordsOf b = [] := by rw [wordsOf, hahead, List.map_nil]
      rw [hnone, List.nil_append] at hc hnext
      exact ih (fun b hb => hbs b (List.mem_cons_of_mem _ hb)) hc hnext
    | cons t ts =>
      cases hitems with
      | nil => exact absurd (hahead.symm.trans hall) (List.cons_ne_nil t ts)
      | cons _ hitem _ =>
        have hfirst : (c.peekAt 0).word = (b.peekAt 0).word := by
          rw [Buffer.word_peekAt hc (by simp [wordsOf, hahead]), Buffer.word_peekAt (b := b) rfl (by simp [hahead])]
          simp [wordsOf, hahead]
        exact (Prod.mk.inj hfirst).1 ▸ hP hitem

/-- The items of texts that are put together are read one after another. -/
theorem items_of_chunks (hstandalone : Standalone more item) (hbs : ∀ b ∈ bs, Chunk more item b)
    (hc : wordsOf c = bs.flatMap wordsOf ++ ws)
    (hnext : (c.peekAt (bs.flatMap wordsOf).length).kind ∉ [Kind.kwElse, .kwFail, .error]) :
    ∃ as, Items more item c as (c.passing (bs.flatMap wordsOf).length) := by
  induction bs generalizing c with
  | nil => exact ⟨[], .nil c⟩
  | cons b bs ih =>
    have hb := hbs b List.mem_cons_self
    have hbs' := fun b hb => hbs b (List.mem_cons_of_mem _ hb)
    obtain ⟨as, b', hitems, hall⟩ := hb.items
    rw [List.flatMap_cons, List.length_append] at hnext ⊢
    rw [List.flatMap_cons, List.append_assoc] at hc
    have hlength : (wordsOf b).length = b.ahead.length := List.length_map _
    have hrest : wordsOf (c.passing b.ahead.length) = bs.flatMap wordsOf ++ ws := by
      rw [wordsOf, Buffer.ahead_passing, List.map_drop, ← wordsOf, hc, ← hlength, List.drop_left]
    rw [hlength, ← Buffer.peekAt_passing] at hnext
    -- The first text stands inside, as no text behind it begins with what carries an item on.
    have hin : Inside b c := by
      refine ⟨⟨_, hc.symm⟩, ?_⟩
      rw [← Buffer.peek_passing]
      exact first_of_chunks (P := (· ∉ _)) hstandalone.begins hbs' hrest fun hnone => by
        rwa [hnone, List.length_nil] at hnext
    obtain ⟨as', has'⟩ := hstandalone.echo_all hitems hb.final hall hin
    obtain ⟨as'', has''⟩ := ih hbs' hrest hnext
    rw [Buffer.passing_passing, ← hlength] at has''
    rw [← hlength] at has'
    exact ⟨as' ++ as'', has'.append has''⟩

end

/-! ## The parts of a unit -/

/-- Looking whether an import follows reads nothing. -/
theorem atImport_reads_nothing {r : Bool × Buffer} (h : atImport.run b = .ok r) : r.2 = b := by
  have h := peekKind_bind h
  rw [pure_ok.mp h]

/-- Looking whether there is more text reads nothing. -/
theorem inText_reads_nothing {r : Bool × Buffer} (h : inText.run b = .ok r) : r.2 = b := by
  rw [← Except.ok.inj h]

/-- A text without a fault is read up to its end. -/
theorem readParts_ok (h : (readParts b).fault = none) : ∃ b₁ b₂ b₃,
    moduleHeader.run b = .ok ((readParts b).unit.module, b₁) ∧
    Items atImport importDecl b₁ (readParts b).unit.imports b₂ ∧
    Items inText stmt b₂ (readParts b).unit.body b₃ ∧ b₃.atEnd = true := by
  generalize hr : readParts b = r at h ⊢
  rw [readParts] at hr
  dsimp only at hr
  -- The header, the imports and the statements can each be at fault, and are not.
  split at hr
  · subst hr
    cases h
  · next module b₁ hmodule =>
    split at hr
    · subst hr
      cases h
    · next imports b₂ himports =>
      obtain ⟨himports, -⟩ := Items.of_readMany (fun b r h => atImport_reads_nothing h) himports
      split at hr
      · subst hr
        cases h
      · next body b₃ hbody =>
        obtain ⟨hbody, hend⟩ := Items.of_readMany (fun b r h => inText_reads_nothing h) hbody
        subst hr
        exact ⟨b₁, b₂, b₃, hmodule, himports, hbody, by simpa using (Prod.mk.inj (Except.ok.inj hend)).1⟩

/-- A text is read as its header, its imports and its statements. -/
theorem readParts_eq {m : Option ModuleDescriptor} {is : List Import} {ss : List Stmt} {b₀ b₁ b₂ : Buffer}
    (hmodule : moduleHeader.run b = .ok (m, b₀)) (himports : Items atImport importDecl b₀ is b₁)
    (hnone : atImport.run b₁ = .ok (false, b₁)) (hbody : Items inText stmt b₁ ss b₂)
    (hend : inText.run b₂ = .ok (false, b₂)) (hfinal : b₀.final.kind = .eof) :
    (readParts b).fault = none ∧ (readParts b).unit.module = m ∧ (readParts b).unit.body = ss := by
  obtain ⟨his, hfinal⟩ := Standalone.imports.lt_remaining himports hfinal
  obtain ⟨hss, -⟩ := Standalone.statements.lt_remaining hbody hfinal
  rw [readParts, hmodule]
  dsimp only
  rw [himports.readMany_stops hnone his]
  dsimp only
  rw [hbody.readMany_stops hend hss]
  exact ⟨rfl, rfl, rfl⟩

/-- A text is faulty if one of its statements cannot be read. -/
theorem readParts_fails {m : Option ModuleDescriptor} {is : List Import} {ss : List Stmt} {b₀ b₁ b₂ : Buffer}
    {e : SyntaxError} (hmodule : moduleHeader.run b = .ok (m, b₀)) (himports : Items atImport importDecl b₀ is b₁)
    (hnone : atImport.run b₁ = .ok (false, b₁)) (hbody : Items inText stmt b₁ ss b₂)
    (hmore : inText.run b₂ = .ok (true, b₂)) (hfail : stmt.run b₂ = .error e) (hfinal : b₀.final.kind = .eof) :
    (readParts b).fault = some e := by
  obtain ⟨his, hfinal⟩ := Standalone.imports.lt_remaining himports hfinal
  obtain ⟨hss, -⟩ := Standalone.statements.lt_remaining hbody hfinal
  rw [readParts, hmodule]
  dsimp only
  rw [himports.readMany_stops hnone his]
  dsimp only
  rw [hbody.readMany_fails hmore hfail hss]

/-- Items have their places in the text. -/
theorem Items.located {α : Type} {more : Parser Bool} {item : Parser α} {b b' : Buffer} {as : List α}
    (hitem : ∀ {b a b'}, item.run b = .ok (a, b') → ∃ ps, Located b ps b') (h : Items more item b as b') :
    ∃ ps, Located b ps b' := by
  induction h with
  | nil b => exact ⟨[], .nil b⟩
  | cons _ hrun _ ih =>
    obtain ⟨ps, hps⟩ := hitem hrun
    obtain ⟨qs, hqs⟩ := ih
    exact ⟨ps ++ qs, hps.append hqs⟩

/-- Without a header nothing has been read, and there is none. -/
theorem moduleHeader_none {b b' : Buffer} (h : moduleHeader.run b = .ok (none, b')) :
    b' = b ∧ b.peek.kind ≠ .kwModule := by
  have h := peekKind_bind h
  split at h
  · obtain ⟨_, _, -, h⟩ := bind_ok.mp h
    cases pure_ok.mp h
  · next hkind => exact ⟨(Prod.mk.inj (pure_ok.mp h)).2, hkind⟩

/-- A text that can be read has been read up to its end. -/
theorem final_of_readParts {source : Source} {gs : List Glyph} (h : (readParts (.ofGlyphs source gs)).fault = none) :
    (Buffer.ofGlyphs source gs).final.kind = .eof := by
  obtain ⟨b₁, b₂, b₃, hheader, himports, hbody, hend⟩ := readParts_ok h
  obtain ⟨ps, hps⟩ := himports.located fun h => ⟨_, importDecl_located h⟩
  obtain ⟨qs, hqs⟩ := hbody.located fun h => ⟨_, stmt_located h default⟩
  exact (Buffer.all_read (Buffer.ofGlyphs_spec source gs).1 (Buffer.ofGlyphs_inner source gs)
    (((moduleHeader_located hheader).append hps).append hqs) hend).1

/-- A text without a module, that can be read. -/
theorem readParts_chunks {source : Source} {gs : List Glyph}
    (h : (readParts (.ofGlyphs source gs)).fault = none)
    (hmodule : (readParts (.ofGlyphs source gs)).unit.module = none) :
    ((readParts (.ofGlyphs source gs)).unit.body = [] → Chunk atImport importDecl (.ofGlyphs source gs)) ∧
      ((readParts (.ofGlyphs source gs)).unit.imports = [] → Chunk inText stmt (.ofGlyphs source gs)) := by
  generalize hb : Buffer.ofGlyphs source gs = b at h hmodule ⊢
  have hended : b.Ended := hb ▸ (Buffer.ofGlyphs_spec source gs).1
  have hinner : ∀ t ∈ b.ahead, t.kind ≠ .eof := hb ▸ Buffer.ofGlyphs_inner source gs
  obtain ⟨b₁, b₂, b₃, hheader, himports, hbody, hend⟩ := readParts_ok h
  rw [hmodule] at hheader
  obtain ⟨rfl, -⟩ := moduleHeader_none hheader
  obtain ⟨ps, hps⟩ := himports.located fun h => ⟨_, importDecl_located h⟩
  obtain ⟨qs, hqs⟩ := hbody.located fun h => ⟨_, stmt_located h default⟩
  -- All tokens have been read, so that the imports or the statements alone make up the text.
  obtain ⟨hfinal, hall⟩ := Buffer.all_read hended hinner (hps.append hqs) hend
  constructor
  · intro hnone
    rw [hnone] at hbody
    cases hbody
    exact ⟨hfinal, _, _, himports, hall⟩
  · intro hnone
    rw [hnone] at himports
    cases himports
    exact ⟨hfinal, _, _, hbody, hall⟩

/-- There is more text unless it ends here. -/
theorem inText_run (h : b.peek.kind ≠ .eof) : inText.run b = .ok (true, b) := by
  have hend : b.atEnd = false := decide_eq_false h
  exact congrArg (fun e => Except.ok (!e, b)) hend

/-- At its end there is no more text. -/
theorem inText_run_of_eof (h : b.peek.kind = .eof) : inText.run b = .ok (false, b) := by
  have hend : b.atEnd = true := decide_eq_true h
  exact congrArg (fun e => Except.ok (!e, b)) hend

/-- Without the keyword no import follows. -/
theorem atImport_run (herror : b.peek.kind ≠ .error) (h : b.peek.kind ≠ .kwImport) :
    atImport.run b = .ok (false, b) := by
  rw [atImport, bind_run (peekKind_run herror), decide_eq_false h]
  rfl

/-- Without the keyword there is no header. -/
theorem moduleHeader_run (herror : b.peek.kind ≠ .error) (h : b.peek.kind ≠ .kwModule) :
    moduleHeader.run b = .ok (none, b) := by
  rw [moduleHeader, bind_run (peekKind_run herror), if_neg h]
  rfl

/-- The words behind some words. -/
theorem wordsOf_passing {ws ws' : List (Kind × String)} (h : wordsOf c = ws ++ ws') :
    wordsOf (c.passing ws.length) = ws' := by
  rw [wordsOf, Buffer.ahead_passing, List.map_drop, ← wordsOf, h, List.drop_left]

/-- The first word tells the kind of the next token. -/
theorem peek_of_wordsOf {w : Kind × String} {ws : List (Kind × String)} (h : wordsOf b = w :: ws) :
    b.peek.kind = w.1 :=
  congrArg Prod.fst (Buffer.word_peekAt h (i := 0) (by simp))

/-- Where there are no words the text ends. -/
theorem peek_of_wordsOf_nil (h : wordsOf b = []) : b.peek = b.final := by
  rw [Buffer.peek, Buffer.peekAt, List.map_eq_nil_iff.mp h]
  rfl

/-- Chunks of imports and chunks of declarations are read up to a word that belongs to neither. -/
theorem items_of_joined {is ds : List Buffer} (his : ∀ b ∈ is, Chunk atImport importDecl b)
    (hds : ∀ b ∈ ds, Chunk inText stmt b) {w : Kind × String} {ws : List (Kind × String)}
    (hw : w.1 ∉ [Kind.kwImport, .kwElse, .kwFail, .error])
    (htop : is.flatMap wordsOf ++ ds.flatMap wordsOf = [] → w.1 ≠ .kwModule)
    (hc : wordsOf c = is.flatMap wordsOf ++ ds.flatMap wordsOf ++ w :: ws) :
    ∃ imports b₁ ss, moduleHeader.run c = .ok (none, c) ∧ Items atImport importDecl c imports b₁ ∧
      atImport.run b₁ = .ok (false, b₁) ∧
      Items inText stmt b₁ ss (c.passing (is.flatMap wordsOf ++ ds.flatMap wordsOf).length) := by
  have hlast := peek_of_wordsOf (wordsOf_passing hc)
  rw [List.append_assoc] at hc
  have hc₁ := wordsOf_passing hc
  rw [List.length_append, ← Buffer.passing_passing] at hlast ⊢
  rw [List.append_eq_nil_iff] at htop
  generalize hn : (is.flatMap wordsOf).length = n at *
  generalize hm : (ds.flatMap wordsOf).length = m at *
  -- Behind the imports stands a statement or what follows the texts, and so no import.
  have hfirst : (c.passing n).peek.kind ∉ [Kind.kwImport, .kwElse, .kwFail, .error] := by
    refine first_of_chunks (P := (· ∉ _)) (fun h => ?_) hds hc₁ fun hnone => ?_
    · have := kind_of_stmt h
      simp_all [foreign]
    · obtain rfl : m = 0 := by rw [← hm, hnone, List.length_nil]
      rwa [show (c.passing n).peek.kind = w.1 from hlast]
  -- In front of all stands an import, a statement or what follows the texts, and so no header.
  have hheader : c.peek.kind ∉ [Kind.kwModule, .error] := by
    refine first_of_chunks (P := (· ∉ _)) (fun h => by rw [import_of_importDecl h]; decide) his hc fun hnone => ?_
    obtain rfl : n = 0 := by rw [← hn, hnone, List.length_nil]
    refine first_of_chunks (c := c) (P := (· ∉ _)) (fun h => ?_) hds hc₁ fun hnone' => ?_
    · have := kind_of_stmt h
      simp_all [foreign]
    · obtain rfl : m = 0 := by rw [← hm, hnone', List.length_nil]
      have hne := htop ⟨hnone, hnone'⟩
      rw [show c.peek.kind = w.1 from hlast]
      simp_all
  obtain ⟨imports, himports⟩ := items_of_chunks .imports his hc (by
    rw [hn, ← Buffer.peek_passing]
    exact fun h => hfirst (List.mem_cons_of_mem _ h))
  obtain ⟨ss, hss⟩ := items_of_chunks .statements hds hc₁ (by
    rw [hm, ← Buffer.peek_passing, hlast]
    exact fun h => hw (List.mem_cons_of_mem _ h))
  rw [hn] at himports
  rw [hm] at hss
  exact ⟨imports, _, ss, moduleHeader_run (by simp_all) (by simp_all), himports,
    atImport_run (by simp_all) (by simp_all), hss⟩

/-! ## A value behind the chunks -/

/-- Parsers that read the same are followed by the same. -/
theorem bind_run_eq {β : Type} {p q : Parser α} {f : α → Parser β} (h : p.run b = q.run b') :
    (p >>= f).run b = (q >>= f).run b' := by
  rw [StateT.run_bind, h, ← StateT.run_bind]

/-- Behind the expression, an attribute is to end. -/
theorem attributeDecl_run {mark : Mark} {a : Annotations} {t : DeclaredType} {x : Expr}
    (hname : b.peek.kind = .lowerName) (hspecify : b.advance.peek.kind = .specify)
    (hx : expr.run b.advance.advance = .ok (x, b')) :
    (attributeDecl mark a t).run b = (expect .semicolon >>= fun _ => pure
      { mark, annotations := a, type := t, name := nameOf b.peek, init := .specified x }).run b' := by
  have hlower : lowerName.run b = .ok (nameOf b.peek, b.advance) := by
    rw [lowerName, bind_run (expect_run (by rw [hname]; decide) hname)]
    rfl
  rw [attributeDecl, bind_run hlower, bind_run (accept_run hspecify), if_pos rfl, bind_run hx, pure_bind]
  dsimp only
  rw [discard_bind_eq]

/-- A name with a value in front and an expression behind declares an attribute. -/
theorem valueDecl_run {x : Expr} (hvalue : b.peek.kind = .kwValue)
    (hname : b.advance.peek.kind = .lowerName) (hspecify : b.advance.advance.peek.kind = .specify)
    (hx : expr.run b.advance.advance.advance = .ok (x, b')) :
    ∃ d, stmt.run b = (expect .semicolon >>= fun _ => pure (Stmt.attribute d)).run b' ∧
      d.name.text = b.advance.peek.text ∧ d.init = .specified x := by
  have hok : b.peek.kind ≠ .error := by
    rw [hvalue]
    decide
  have hcount : annotationCount.run b = .ok (0, b) := annotationCount_run (by rw [hvalue]; decide)
  have hstarts : (startsDeclaration 0).run b = .ok (true, b) := by
    rw [startsDeclaration, bind_run (show (kindAt 0).run b = .ok (b.peek.kind, b) from rfl), hvalue]
    rfl
  have htype : valueType.run b = .ok (.inferred { pos := b.peek.pos } false, b.advance) := by
    rw [valueType, bind_run (peekKind_run hok), if_pos hvalue, bind_run (next_run hok)]
    rfl
  have hafter : (kindAt 1).run b.advance = .ok (.specify, b.advance) := by
    rw [← hspecify]
    exact congrArg (fun t => Except.ok (t.kind, b.advance)) (Buffer.peekAt_advance _ 0).symm
  obtain ⟨depth, hdepth⟩ : ∃ depth, stmtDepth b = depth + 2 := ⟨stmtDepth b - 2, by rw [stmtDepth]; omega⟩
  refine ⟨{ mark := { pos := b.peek.pos }, annotations := {}, type := .inferred { pos := b.peek.pos } false
            name := nameOf b.advance.peek, init := .specified x }, ?_, rfl, rfl⟩
  -- The parser goes through the declaration of an attribute, one token at a time.
  rw [stmt, bind_run (get_ok.mpr rfl), hdepth, stmtWithin, bind_run (here_run hok), bind_run (peekKind_run hok), hvalue]
  dsimp only
  rw [bind_run hcount, bind_run hstarts, if_pos rfl, declarationWithin,
    bind_run (show (annotations 0 {}).run b = .ok ({}, b) from rfl), bind_run (peekKind_run hok), hvalue]
  dsimp only
  rw [bind_run htype, bind_run hafter]
  dsimp only
  rw [bind_run_eq (attributeDecl_run hname hspecify hx), bind_assoc]
  simp only [pure_bind]

/-- A text that is an expression of a number of tokens, but for a semicolon behind it. -/
structure IsExpr (b : Buffer) (x : Expr) (k : Nat) : Prop where
  run : expr.run b = .ok (x, b.passing k)
  final : b.final.kind = .eof
  within : k ≤ b.ahead.length
  behind : (b.peekAt k).kind = .semicolon ∧ b.ahead.length = k + 1 ∨ (b.peekAt k).kind = .eof ∧ b.ahead.length = k

/-- The words of a text up to its end. -/
theorem kind_peekAt {ws : List (Kind × String)} {k : Kind} (hws : ∀ w ∈ ws, w.1 = k) (hb : wordsOf b = ws)
    (i : Nat) : (b.peekAt i).kind = if i < ws.length then k else b.final.kind := by
  split
  · next hi => rw [← hws _ (List.getElem_mem hi), ← Buffer.word_peekAt hb hi]; rfl
  · next hi =>
    have hlength : b.ahead.length = ws.length := by rw [← hb, wordsOf, List.length_map]
    rw [Buffer.peekAt, List.getElem?_eq_none (by omega), Option.getD_none]

/-- What begins the declaration of a value. -/
def valueWords (name : String) : List (Kind × String) :=
  [(.kwValue, "value"), (.lowerName, name), (.specify, "=")]

/-- The semicolons behind an expression. -/
theorem IsExpr.semicolons {b : Buffer} {x : Expr} {k : Nat} (hx : IsExpr b x k) {es : List (Kind × String)}
    (hes : ∀ w ∈ es, w.1 = .semicolon) : ∀ w ∈ (wordsOf b).drop k ++ es, w.1 = .semicolon := by
  intro w hw
  refine (List.mem_append.mp hw).elim (fun hw => ?_) (hes w)
  rw [wordsOf, ← List.map_drop] at hw
  rcases hx.behind with ⟨hkind, hlength⟩ | ⟨-, hlength⟩
  · have hlt : k < b.ahead.length := by omega
    rw [List.drop_eq_getElem_cons hlt, List.drop_of_length_le (by omega)] at hw
    rw [List.mem_singleton.mp hw]
    rwa [Buffer.peekAt, List.getElem?_eq_getElem hlt] at hkind
  · rw [List.drop_of_length_le (by omega)] at hw
    exact absurd hw List.not_mem_nil

/-- An expression becomes the value of a name, and is to end with a semicolon. -/
theorem stmt_value {b : Buffer} {x : Expr} {k : Nat} {name : String} (hx : IsExpr b x k)
    {es : List (Kind × String)} (hes : ∀ w ∈ es, w.1 = .semicolon) (hend : c.final.kind = .eof)
    (hc : wordsOf c = valueWords name ++ (wordsOf b ++ es)) :
    wordsOf (c.passing (3 + k)) = (wordsOf b).drop k ++ es ∧
      ∃ s, stmt.run c = (expect .semicolon >>= fun _ => pure s).run (c.passing (3 + k)) ∧ s.Binds name x := by
  have hk := hx.within
  have hlength : (wordsOf b).length = b.ahead.length := List.length_map _
  have hnext : wordsOf (c.passing 3) = wordsOf b ++ es := wordsOf_passing hc
  have hclength : (c.passing 3).ahead.length = b.ahead.length + es.length := by
    have := congrArg List.length hnext
    rwa [wordsOf, List.length_map, List.length_append, hlength] at this
  have hbehind : wordsOf (c.passing (3 + k)) = (wordsOf b).drop k ++ es := by
    rw [← Buffer.passing_passing, wordsOf, Buffer.ahead_passing, List.map_drop, ← wordsOf, hnext,
      List.drop_append_of_le_length (hlength ▸ hk)]
  have hmarks := fun i => kind_peekAt (hx.semicolons hes) hbehind i
  simp only [Buffer.peekAt_passing, Buffer.final_passing, hend] at hmarks
  -- The text of the expression goes along up to its end, behind which only semicolons stand.
  have halong : Along k b (c.passing 3) := by
    refine ⟨hk, by omega, fun i hi => ?_, ?_, ?_⟩
    · rw [Buffer.word_peekAt hnext (by rw [List.length_append]; omega), List.getElem_append_left (by omega),
        Buffer.word_peekAt (b := b) rfl]
      rfl
    · rw [Buffer.peekAt_passing, show 3 + k = 3 + k + 0 from rfl, hmarks, List.length_append, List.length_drop, hlength]
      rcases hx.behind with ⟨h, hb⟩ | ⟨h, hb⟩ <;> rw [h]
      · rw [if_pos (by omega)]
        exact .closed rfl
      · split
        · exact .ended
        · exact .last
    · rw [Buffer.peekAt_passing, ← Nat.add_assoc, hmarks]
      split <;> decide
  obtain ⟨x', hx', hview⟩ := expr_echoes.echo hx.final hx.run hk halong (Nat.le_refl k)
  rw [Buffer.passing_passing] at hx'
  have hword (i : Nat) (hi : i < 3) : (c.passing i).peek.word = (valueWords name)[i] := by
    have hi' : i < (valueWords name).length := hi
    rw [Buffer.peek_passing, Buffer.word_peekAt hc (by rw [List.length_append]; omega), List.getElem_append_left hi']
    rfl
  obtain ⟨d, hd, hdname, hdinit⟩ := valueDecl_run (b := c) (congrArg Prod.fst (hword 0 (by decide)))
    (congrArg Prod.fst (hword 1 (by decide))) (congrArg Prod.fst (hword 2 (by decide))) hx'
  exact ⟨hbehind, _, hd, d, x', rfl, hdname.trans (congrArg Prod.snd (hword 1 (by decide))), hdinit, hview⟩

/-- Chunks of imports, chunks of declarations and a value are a unit together, in which the value comes last, if the
value ends with one semicolon. -/
theorem readParts_joined {is ds : List Buffer} (his : ∀ b ∈ is, Chunk atImport importDecl b)
    (hds : ∀ b ∈ ds, Chunk inText stmt b) {b : Buffer} {x : Expr} {k : Nat} {name : String} (hx : IsExpr b x k)
    {es : List (Kind × String)} (hes : ∀ w ∈ es, w.1 = .semicolon) (hend : c.final.kind = .eof)
    (hc : wordsOf c = is.flatMap wordsOf ++ ds.flatMap wordsOf ++ (valueWords name ++ (wordsOf b ++ es))) :
    if (wordsOf b ++ es).length = k + 1 then
      (readParts c).fault = none ∧ ∃ ss s, (readParts c).unit.body = ss ++ [s] ∧ s.Binds name x
    else (readParts c).fault ≠ none := by
  obtain ⟨imports, b₁, ss, hheader, himports, hnone, hss⟩ := items_of_joined his hds (by decide) (fun _ => by decide) hc
  have hc₂ := wordsOf_passing hc
  have hend₂ := (Buffer.final_passing c (is.flatMap wordsOf ++ ds.flatMap wordsOf).length).symm ▸ hend
  generalize c.passing (is.flatMap wordsOf ++ ds.flatMap wordsOf).length = b₂ at hss hc₂ hend₂
  obtain ⟨hbehind, s, hs, hbinds⟩ := stmt_value hx hes hend₂ hc₂
  have hmarks := hx.semicolons hes
  have hcount : (wordsOf b ++ es).length = k + ((wordsOf b).drop k ++ es).length := by
    have hlength : (wordsOf b).length = b.ahead.length := List.length_map _
    have := hx.within
    rw [List.length_append, List.length_append, List.length_drop]
    omega
  rw [hcount]
  generalize (wordsOf b).drop k ++ es = ms at hbehind hmarks
  have hend₃ : (b₂.passing (3 + k)).final.kind = .eof := by rw [Buffer.final_passing, hend₂]
  generalize b₂.passing (3 + k) = b₃ at hs hbehind hend₃
  have hmore : inText.run b₂ = .ok (true, b₂) := inText_run (by rw [peek_of_wordsOf hc₂]; decide)
  cases ms with
  | nil =>
    -- The value does not end.
    have heof : b₃.peek.kind = .eof := by rw [peek_of_wordsOf_nil hbehind, hend₃]
    have hfail := expect_run_of_ne (b := b₃) (k := .semicolon) (by rw [heof]; decide) (by rw [heof]; decide)
    rw [bind_error hfail] at hs
    rw [if_neg (by simp), readParts_fails hheader himports hnone hss hmore hs hend]
    exact Option.some_ne_none _
  | cons m ms =>
    obtain ⟨hm, hms⟩ := List.forall_mem_cons.mp hmarks
    have hkind : b₃.peek.kind = .semicolon := (peek_of_wordsOf hbehind).trans hm
    rw [bind_run (expect_run (by rw [hkind]; decide) hkind)] at hs
    have hss' := hss.append (.cons hmore hs (.nil b₃.advance))
    have hrest : wordsOf b₃.advance = ms := wordsOf_passing (show wordsOf b₃ = [m] ++ ms from hbehind)
    cases ms with
    | nil =>
      rw [if_pos (by simp)]
      have heof : b₃.advance.peek.kind = .eof := by
        rw [peek_of_wordsOf_nil hrest]
        exact (congrArg Token.kind (Buffer.final_passing b₃ 1)).trans hend₃
      obtain ⟨hfault, -, hbody⟩ := readParts_eq hheader himports hnone hss' (inText_run_of_eof heof) hend
      exact ⟨hfault, ss, s, hbody, hbinds⟩
    | cons m' ms =>
      -- No statement begins with a semicolon.
      have hkind : b₃.advance.peek.kind = .semicolon :=
        (peek_of_wordsOf hrest).trans (hms m' List.mem_cons_self)
      obtain ⟨fault, hfail⟩ := stmt_foreign (b := b₃.advance) (by rw [hkind]; decide)
      rw [if_neg (by simp), readParts_fails hheader himports hnone hss' (inText_run (by rw [hkind]; decide)) hfail hend]
      exact Option.some_ne_none _

end Parser

end Syntax

/-! ## Modules among units that stand one behind the other -/

/-- Passing tokens does not change where the text comes from. -/
theorem Token.Buffer.source_passing (b : Buffer) (n : Nat) : (b.passing n).source = b.source := by
  induction n with
  | zero => rfl
  | succ n ih => rwa [← advance_passing]

namespace Syntax

open Token.Buffer (Along Inside)

namespace Parser

variable {b b' c : Buffer} {is ds : List Buffer} {ws : List (Kind × String)}

/-- A header begins with its keyword. -/
theorem moduleHeader_some {d : ModuleDescriptor} (h : moduleHeader.run b = .ok (some d, b')) :
    b.peek.kind = .kwModule ∧ moduleDescriptor.run b = .ok (d, b') := by
  have h := peekKind_bind h
  split at h
  · next hkind =>
    obtain ⟨d, b₁, hd, h⟩ := bind_ok.mp h
    obtain ⟨hsome, rfl⟩ := Prod.mk.inj (pure_ok.mp h)
    exact ⟨hkind, Option.some.inj hsome ▸ hd⟩
  · cases pure_ok.mp h

/-- A descriptor is read as a header. -/
theorem moduleHeader_run_of_descriptor {d : ModuleDescriptor} (h : moduleDescriptor.run b = .ok (d, b')) :
    moduleHeader.run b = .ok (some d, b') := by
  have hkind : b.peek.kind = .kwModule := (expect_bind h).1
  rw [moduleHeader, bind_run (peekKind_run (by rw [hkind]; decide)), if_pos hkind, bind_run h]
  rfl

/-- What begins with an item, if anything, does not go on with what stands before it. -/
theorem begins_of_items {α β : Type} {more more' : Parser Bool} {item : Parser α} {item' : Parser β}
    {b₁ b₂ b₃ : Buffer} {as : List α} {as' : List β} (hitem : Standalone more item) (hitem' : Standalone more' item')
    (has : Items more item b₁ as b₂) (has' : Items more' item' b₂ as' b₃) (hall : b₃.ahead = []) (hne : b₁.ahead ≠ []) :
    b₁.peek.kind ∉ [Kind.kwElse, .kwFail, .error] := by
  cases has with
  | nil =>
    cases has' with
    | nil => exact absurd hall hne
    | cons _ h _ => exact hitem'.begins h
  | cons _ h _ => exact hitem.begins h

/-- Where declarations make up the rest of a text, there are no more imports. -/
theorem atImport_of_statements {ss : List Stmt} (h : Items inText stmt b ss b') (hend : b'.peek.kind = .eof) :
    atImport.run b = .ok (false, b) := by
  have hkind : b.peek.kind ≠ .error ∧ b.peek.kind ≠ .kwImport := by
    cases h with
    | nil => simp [hend]
    | cons _ hitem _ =>
      have hkind := kind_of_stmt hitem
      exact ⟨fun h => hkind (by simp [h]), fun h => hkind (by simp [h, foreign])⟩
  exact atImport_run hkind.1 hkind.2

/-- A unit that declares a module may go on with declarations. -/
theorem readParts_headed (hfault : (readParts b).fault = none) (hmodule : (readParts b).unit.module.isSome = true)
    (hb : b.Ended) (hinner : ∀ t ∈ b.ahead, t.kind ≠ .eof) (hds : ∀ b ∈ ds, Chunk inText stmt b)
    (hend : c.final.kind = .eof) (hc : wordsOf c = wordsOf b ++ ds.flatMap wordsOf) :
    (readParts c).fault = none ∧ (readParts c).unit.module.isSome = true := by
  obtain ⟨b₁, b₂, b₃, hheader, himports, hbody, hatEnd⟩ := readParts_ok hfault
  obtain ⟨d, hd⟩ := Option.isSome_iff_exists.mp hmodule
  rw [hd] at hheader
  obtain ⟨qs, hqs⟩ := himports.located fun h => ⟨_, importDecl_located h⟩
  obtain ⟨rs, hrs⟩ := hbody.located fun h => ⟨_, stmt_located h default⟩
  obtain ⟨hfinal, hall⟩ := Buffer.all_read hb hinner (((moduleHeader_located hheader).append hqs).append hrs) hatEnd
  obtain ⟨hkind, hdescriptor⟩ := moduleHeader_some hheader
  obtain ⟨k, hk, rfl, hclosed⟩ := (moduleDescriptor_echoes (b := b)).passes hfinal hdescriptor
  obtain ⟨l, rfl, hl⟩ := hclosed rfl
  have hlength : (wordsOf b).length = b.ahead.length := List.length_map _
  have hrest : wordsOf (c.passing b.ahead.length) = ds.flatMap wordsOf := by
    rw [← hlength]
    exact wordsOf_passing hc
  have hnone {c' : Buffer} (hc' : wordsOf c' = []) (hfinal' : c'.final = c.final) : c'.peek.kind = .eof := by
    rw [peek_of_wordsOf_nil hc', hfinal', hend]
  have hfirst : (c.passing b.ahead.length).peek.kind ∉ [Kind.kwElse, .kwFail, .error] := by
    refine first_of_chunks (P := (· ∉ _)) Standalone.statements.begins hds (hrest.trans (List.append_nil _).symm)
      fun h => ?_
    rw [hnone (hrest.trans h) (Buffer.final_passing _ _)]
    decide
  have hin : Inside b c := ⟨⟨_, hc.symm⟩, by rwa [← Buffer.peek_passing]⟩
  have hbehind : l + 1 < b.ahead.length → (b.peekAt (l + 1)).kind ∉ [Kind.kwElse, .kwFail, .error] := by
    intro hlt
    rw [← Buffer.peek_passing]
    refine begins_of_items .imports .statements himports hbody hall (List.ne_nil_of_length_pos ?_)
    rw [Buffer.length_passing]
    omega
  obtain ⟨d', hd', -⟩ := moduleDescriptor_echoes.echo hfinal hdescriptor hk (hin.along hk hl hbehind) (Nat.le_refl _)
  have hfinal' : (b.passing (l + 1)).final.kind = .eof := by rw [Buffer.final_passing, hfinal]
  obtain ⟨is', j, hj, rfl, his'⟩ := Standalone.imports.echo himports hfinal'
    (begins_of_items .statements .statements hbody (.nil _) hall) (hin.passing hk)
  obtain ⟨ss, hss⟩ := Standalone.statements.echo_all hbody (by rw [Buffer.final_passing, hfinal']) hall
    ((hin.passing hk).passing hj)
  -- Behind the unit come the other declarations.
  have hpassed : ((c.passing (l + 1)).passing j).passing ((b.passing (l + 1)).passing j).ahead.length =
      c.passing b.ahead.length := by
    simp only [Buffer.passing_passing, Buffer.length_passing] at hj ⊢
    congr 1
    omega
  rw [hpassed] at hss
  have hbehind : wordsOf ((c.passing b.ahead.length).passing (ds.flatMap wordsOf).length) = [] :=
    wordsOf_passing (by rw [hrest, List.append_nil])
  have heof := hnone hbehind (by rw [Buffer.final_passing, Buffer.final_passing])
  obtain ⟨ss', hss'⟩ := items_of_chunks .statements hds (hrest.trans (List.append_nil _).symm)
    (by rw [← Buffer.peek_passing, heof]; decide)
  obtain ⟨hfault, hmodule, -⟩ := readParts_eq (moduleHeader_run_of_descriptor hd') his'
    (atImport_of_statements (hss.append hss') heof) (hss.append hss') (inText_run_of_eof heof)
    (by rw [Buffer.final_passing, hend])
  exact ⟨hfault, by rw [hmodule]; rfl⟩

/-- A module is not declared behind anything else. -/
theorem readParts_foreign {m : String} (his : ∀ b ∈ is, Chunk atImport importDecl b)
    (hds : ∀ b ∈ ds, Chunk inText stmt b) (hne : is.flatMap wordsOf ++ ds.flatMap wordsOf ≠ [])
    (hend : c.final.kind = .eof)
    (hc : wordsOf c = is.flatMap wordsOf ++ ds.flatMap wordsOf ++ (.kwModule, m) :: ws) :
    ∃ fault, (readParts c).fault =
      some ⟨fault, c.source, (c.peekAt (is.flatMap wordsOf ++ ds.flatMap wordsOf).length).pos⟩ := by
  obtain ⟨imports, b₁, ss, hheader, himports, hnone, hss⟩ :=
    items_of_joined his hds (show Kind.kwModule ∉ _ by decide) (fun h => absurd h hne) hc
  have hmodule : (c.passing _).peek.kind = .kwModule := peek_of_wordsOf (wordsOf_passing hc)
  obtain ⟨fault, hfail⟩ := stmt_foreign (b := c.passing _) (by rw [hmodule]; decide)
  refine ⟨fault, ?_⟩
  rw [Buffer.source_passing, Buffer.peek_passing] at hfail
  exact readParts_fails hheader himports hnone hss (inText_run (by rw [hmodule]; decide)) hfail hend

end Parser

end Syntax

end Ceylon
