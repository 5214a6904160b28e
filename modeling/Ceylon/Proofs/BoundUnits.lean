import Ceylon.Proofs.Binding

/-!
# The layout of bound units

Taking a step of binding changes only what it records and declares (`Grows`), so what a script has done
stays done.  It follows that binding a unit keeps all that has been laid out before and lays out the unit
(`State.Layout`).
-/

namespace Ceylon

namespace Model

open Syntax (Node)

/-- A shape without what binding adds to it after it has been declared. -/
def Shape.bare : Shape → Shape
  | .ofClass generic _ abstract bottom =>
    .ofClass { generic with params := [] } none abstract bottom
  | .ofInterface generic => .ofInterface { generic with params := [] }
  | .method type _ _ void formal => .method type [] [] void formal
  | .getter type _ => .getter type none
  | .typeParameter variance generic => .typeParameter variance { generic with params := [] }
  | s => s

/-- A declaration without what binding adds to it after it has been declared. -/
def Declaration.bare (d : Declaration) : Declaration :=
  { d with shape := d.shape.bare }

namespace Shape

@[simp] theorem kind_bare (s : Shape) : s.bare.kind = s.kind := by
  cases s <;> rfl

@[simp] theorem kind_bound (s : Shape) : s.bound.kind = s.kind := by
  cases s <;> rfl

/-- Forgetting what is resolved later keeps the type parameters of a shape. -/
theorem typeParams_bound (s : Shape) : s.bound.typeParams = s.typeParams := by
  cases s <;> rfl

/-- Forgetting what is resolved later keeps the parameters of a shape. -/
theorem params_bound (s : Shape) : s.bound.params? = s.params? := by
  cases s <;> rfl

/-- A bare shape does not tell which type parameters were added. -/
theorem bare_addTypeParam (s : Shape) (p : DeclId) : (s.addTypeParam p).bare = s.bare := by
  cases s <;> rfl

/-- A bare shape does not tell which parameters were given. -/
theorem bare_withParams (s : Shape) (ps : List DeclId) : (s.withParams ps).bare = s.bare := by
  cases s <;> rfl

/-- A bare shape does not tell which setter was joined. -/
theorem bare_withSetter (s : Shape) (d : DeclId) : (s.withSetter d).bare = s.bare := by
  cases s <;> rfl

theorem type_bare (s : Shape) : s.bare.type = s.type := by
  cases s <;> rfl

theorem extended_bare (s : Shape) : s.bare.generic.extended = s.generic.extended := by
  cases s <;> rfl

theorem satisfied_bare (s : Shape) : s.bare.generic.satisfied = s.generic.satisfied := by
  cases s <;> rfl

theorem isTyped_bare (s : Shape) : s.bare.isTyped = s.isTyped := by
  cases s <;> rfl

/-- Adding a type parameter and forgetting what is resolved later can be done in any order. -/
theorem bound_addTypeParam (s : Shape) (p : DeclId) : (s.addTypeParam p).bound = s.bound.addTypeParam p := by
  cases s <;> rfl

/-- Giving parameters and forgetting what is resolved later can be done in any order. -/
theorem bound_withParams (s : Shape) (ps : List DeclId) : (s.withParams ps).bound = s.bound.withParams ps := by
  cases s <;> rfl

/-- Joining a setter and forgetting what is resolved later can be done in any order. -/
theorem bound_withSetter (s : Shape) (d : DeclId) : (s.withSetter d).bound = s.bound.withSetter d := by
  cases s <;> rfl

/-- Adding a type parameter adds no other one. -/
theorem typeParams_addTypeParam (s : Shape) (p : DeclId) :
    (s.addTypeParam p).typeParams ⊆ s.typeParams ++ [p] := by
  cases s <;> simp [addTypeParam, typeParams, mapGeneric, generic]

theorem params_addTypeParam (s : Shape) (p : DeclId) : (s.addTypeParam p).params? = s.params? := by
  cases s <;> rfl

theorem typeParams_withParams (s : Shape) (ps : List DeclId) :
    (s.withParams ps).typeParams = s.typeParams := by
  cases s <;> rfl

/-- Giving parameters gives no others. -/
theorem params_withParams (s : Shape) (ps : List DeclId) :
    (s.withParams ps).params?.getD [] ⊆ s.params?.getD [] ++ ps := by
  cases s <;> simp [withParams, params?]

theorem typeParams_withSetter (s : Shape) (d : DeclId) :
    (s.withSetter d).typeParams = s.typeParams := by
  cases s <;> rfl

theorem params_withSetter (s : Shape) (d : DeclId) : (s.withSetter d).params? = s.params? := by
  cases s <;> rfl

/-- A shape that is a setter but for what binding adds is the same setter, since binding adds nothing to one. -/
theorem setter_of_bare {s s' : Shape} (h : s'.bare = s.bare) {t : Ty} {d : Option DeclId}
    (hs : s' = .setter t d) : s = .setter t d := by
  subst hs
  cases s <;> simp_all [bare]

end Shape

namespace Graph

/-- The declarations that were there before another one was made. -/
theorem decl_declare_of_lt (g : Graph) (d : Declaration) {e : DeclId}
    (he : e.index < g.decls.size) : (g.declare d).2.decl e = g.decl e := by
  simp [declare, decl, Array.getElem?_push, he.ne]

/-- A declaration that has just been made is found in the graph. -/
theorem decl_declare_self (g : Graph) (d : Declaration) :
    (g.declare d).2.decl (g.declare d).1 = d := by
  simp [declare, decl]

/-- A new declaration is a member of the innermost scope around it. -/
theorem mem_membersOf_declare {g : Graph} {d : Declaration} {s : ScopeId} {e : DeclId}
    (he : e ∈ (g.declare d).2.membersOf s) :
    e ∈ g.membersOf s ∨ e = (g.declare d).1 ∧ d.scope.head? = some s := by
  cases hscope : d.scope with
  | nil =>
    simp only [declare, membersOf, hscope] at he
    exact .inl he
  | cons s' outer =>
    simp only [declare, membersOf, hscope, Std.ExtTreeMap.getD_insert,
      Std.LawfulEqOrd.compare_eq_iff_eq] at he
    split at he
    · next hs =>
      subst hs
      rcases Array.mem_push.mp he with he | rfl
      · exact .inl he
      · exact .inr ⟨rfl, rfl⟩
    · exact .inl he

/-- The bodies that were there before another one was opened. -/
theorem block_addBlock_of_lt (g : Graph) (u : UnitId) (clause : Node) (outer : ScopeChain)
    {b : BlockId} (hb : b.index < g.blocks.size) :
    (g.addBlock u clause outer).2.block b = g.block b := by
  simp [addBlock, block, Array.getElem?_push, hb.ne]

/-- A body that has just been opened is found in the graph. -/
theorem block_addBlock_self (g : Graph) (u : UnitId) (clause : Node) (outer : ScopeChain) :
    (g.addBlock u clause outer).2.block (g.addBlock u clause outer).1 = ⟨u, clause, outer⟩ := by
  simp [addBlock, block]

end Graph

/-- The innermost scope of a chain tells the whole chain. -/
theorem Graph.Chain.eq_of_head {g : Graph} {c c' : ScopeChain} (h : g.Chain c) (h' : g.Chain c')
    (hhead : c.head? = c'.head?) : c = c' := by
  cases c with
  | nil =>
    cases c' with
    | nil => rfl
    | cons => cases hhead
  | cons s outer =>
    cases c' with
    | nil => cases hhead
    | cons s' outer' =>
      obtain rfl : s = s' := Option.some.inj hhead
      rw [h.tail_unique h']

/-- What a chain of scopes depends on. -/
theorem Graph.Chain.mono {g g' : Graph} (hsize : g.decls.size ≤ g'.decls.size)
    (hdecl : ∀ d, d.index < g.decls.size → (g'.decl d).scope = (g.decl d).scope)
    (hblocks : g.blocks.size ≤ g'.blocks.size)
    (hblock : ∀ b, b.index < g.blocks.size → g'.block b = g.block b) {c : ScopeChain}
    (h : g.Chain c) : g'.Chain c := by
  induction c with
  | nil => exact h.elim
  | cons s outer ih =>
    cases s with
    | package p => exact h
    | decl d =>
      obtain ⟨hvalid, hscope, houter⟩ := h
      exact ⟨hvalid.trans_le hsize, hscope.trans (hdecl d hvalid).symm, ih houter⟩
    | block b =>
      obtain ⟨hvalid, hscope, houter⟩ := h
      exact ⟨hvalid.trans_le hblocks, by rw [hblock b hvalid, hscope], ih houter⟩

end Model

namespace Analysis

open Model Syntax

namespace Binding

/-! ## What a step of binding changes -/

/-- From the first state to the second, declarations and bodies have been added, and nothing else has
changed but what is recorded for nodes of one unit with the given numbers. -/
structure Grows (u : UnitId) (ids : Multiset Nat) (s f : State) : Prop where
  scopes : ∀ k : NodeId, (k.unit = u → k.id ∉ ids) → f.scopes[k]? = s.scopes[k]?
  table : ∀ k : NodeId, (k.unit = u → k.id ∉ ids) → f.decls[k]? = s.decls[k]?
  size : s.graph.decls.size ≤ f.graph.decls.size
  decl : ∀ d, d.index < s.graph.decls.size → (f.graph.decl d).bare = (s.graph.decl d).bare
  blocks : s.graph.blocks.size ≤ f.graph.blocks.size
  block : ∀ b, b.index < s.graph.blocks.size → f.graph.block b = s.graph.block b
  unit : ∀ v, { f.unit v with declarations := #[] } = { s.unit v with declarations := #[] }
  others : ∀ v, v ≠ u → f.unit v = s.unit v
  rest : { f with graph := {}, units := #[], scopes := {}, decls := {} } =
    ({ s with graph := {}, units := #[], scopes := {}, decls := {} } : State)
  inferred : f.graph.inferred = s.graph.inferred

namespace Grows

variable {u : UnitId} {ids ids' : Multiset Nat} {s s' f : State}

/-- No step has been taken. -/
theorem refl (u : UnitId) (s : State) : Grows u 0 s s where
  scopes _ _ := rfl
  table _ _ := rfl
  size := le_rfl
  decl _ _ := rfl
  blocks := le_rfl
  block _ _ := rfl
  unit _ := rfl
  others _ _ := rfl
  rest := rfl
  inferred := rfl

/-- One part of a script after another. -/
theorem trans (h : Grows u ids s s') (h' : Grows u ids' s' f) : Grows u (ids + ids') s f where
  scopes k hk := by
    simp only [Multiset.mem_add, not_or] at hk
    rw [h'.scopes k fun hu => (hk hu).2, h.scopes k fun hu => (hk hu).1]
  table k hk := by
    simp only [Multiset.mem_add, not_or] at hk
    rw [h'.table k fun hu => (hk hu).2, h.table k fun hu => (hk hu).1]
  size := h.size.trans h'.size
  decl d hd := (h'.decl d (hd.trans_le h.size)).trans (h.decl d hd)
  blocks := h.blocks.trans h'.blocks
  block b hb := (h'.block b (hb.trans_le h.blocks)).trans (h.block b hb)
  unit v := (h'.unit v).trans (h.unit v)
  others v hv := (h'.others v hv).trans (h.others v hv)
  rest := h'.rest.trans h.rest
  inferred := h'.inferred.trans h.inferred

/-- The scopes of a declaration stay. -/
theorem scope (h : Grows u ids s f) {d : DeclId} (hd : d.index < s.graph.decls.size) :
    (f.graph.decl d).scope = (s.graph.decl d).scope := by
  have hbare := h.decl d hd
  exact congrArg (·.scope) hbare

/-- The kind of a declaration stays. -/
theorem kind (h : Grows u ids s f) {d : DeclId} (hd : d.index < s.graph.decls.size) :
    (f.graph.decl d).shape.kind = (s.graph.decl d).shape.kind := by
  have hbare := congrArg (·.shape.kind) (h.decl d hd)
  simpa [Declaration.bare] using hbare

/-- A chain of scopes stays one. -/
theorem chain (h : Grows u ids s f) {c : ScopeChain} (hc : s.graph.Chain c) : f.graph.Chain c :=
  hc.mono h.size (fun _ hd => h.scope hd) h.blocks h.block

/-- A body that has been opened stays open. -/
theorem opens (h : Grows u ids s f) {v : UnitId} {c : ScopeChain} {n : Node} {b : BlockId}
    (hb : s.Opens v c n b) : f.Opens v c n b :=
  ⟨hb.valid.trans_le h.blocks, (h.block b hb.valid).trans hb.body⟩

/-- A declaration stays in the scope of its owner. -/
theorem inner (h : Grows u ids s f) {owner d : DeclId} {k : DeclKind}
    (howner : owner.index < s.graph.decls.size) (hd : s.Inner owner d k) : f.Inner owner d k where
  valid := hd.valid.trans_le h.size
  scope := by rw [h.scope hd.valid, h.scope howner, hd.scope]
  kind := by rw [h.kind hd.valid, hd.kind]

/-- A getter stays where it is. -/
theorem getterIn (h : Grows u ids s f) {c : ScopeChain} {d : DeclId} (hd : s.GetterIn c d) :
    f.GetterIn c d where
  valid := hd.valid.trans_le h.size
  scope := by rw [h.scope hd.valid, hd.scope]
  kind := by rw [h.kind hd.valid, hd.kind]

end Grows

/-- Changing the shape of a declaration records nothing, if the change does not show in the bare shape. -/
theorem grows_modifyShape {u : UnitId} (s : State) (d : DeclId) {g : Shape → Shape}
    (hg : ∀ shape, (g shape).bare = shape.bare) :
    Grows u 0 s { s with graph := s.graph.modifyShape d g } where
  scopes _ _ := rfl
  table _ _ := rfl
  size := by simp [Graph.modifyShape, Graph.modifyDecl]
  decl e _ := by
    rw [Graph.modifyShape, Graph.decl_modifyDecl]
    split
    · simp [Declaration.bare, hg]
    · rfl
  blocks := le_rfl
  block _ _ := rfl
  unit _ := rfl
  others _ _ := rfl
  rest := rfl
  inferred := rfl

/-- What making a declaration changes. -/
theorem perform_declare (u : UnitId) (node : Node) (name : String) (shared : Bool) (shape : Shape)
    (scope : ScopeChain) (s : State) :
    let d : Declaration := { name, scope, unit := some u, node := some node, shared, shape }
    ∃ units, (∀ v, { ({ s with units } : State).unit v with declarations := #[] } =
        { s.unit v with declarations := #[] }) ∧
      (∀ v, v ≠ u → ({ s with units } : State).unit v = s.unit v) ∧
      perform u (.declare node name shared shape scope) s =
      ((s.graph.declare d).1,
        { s with
          units, graph := (s.graph.declare d).2
          decls := s.decls.insert ⟨u, node.mark.id⟩ (s.graph.declare d).1
          scopes := s.scopes.insert ⟨u, node.mark.id⟩ scope }) := by
  intro d
  -- a declaration at the top of the unit is listed as well; listing it changes that unit only
  have hlist : ∀ (id : DeclId) (s' : State), ∃ units,
      (∀ v, { ({ s' with units } : State).unit v with declarations := #[] } =
        { s'.unit v with declarations := #[] }) ∧
      (∀ v, v ≠ u → ({ s' with units } : State).unit v = s'.unit v) ∧
      listDeclaration u scope id s' = ((), { s' with units }) := by
    intro id s'
    rw [listDeclaration.eq_def]
    split
    · refine ⟨_, fun v => ?_, fun v hv => ?_, rfl⟩
      · rw [State.unit_modify]
        split <;> rfl
      · rw [State.unit_modify, if_neg fun h => hv h.1.symm]
    · exact ⟨s'.units, fun _ => rfl, fun _ _ => rfl, rfl⟩
  obtain ⟨units, hsame, hothers, hunits⟩ := hlist (s.graph.declare d).1
    { s with
      graph := (s.graph.declare d).2
      decls := s.decls.insert ⟨u, node.mark.id⟩ (s.graph.declare d).1
      scopes := s.scopes.insert ⟨u, node.mark.id⟩ scope }
  exact ⟨units, hsame, hothers, congrArg (fun r : Unit × State => ((s.graph.declare d).1, r.2)) hunits⟩

/-- Taking a step of binding changes what it records. -/
theorem perform_grows (u : UnitId) (step : BindStep) (s : State) :
    Grows u step.ids s (perform u step s).2 := by
  -- Each step writes at its own node, adds at the end of an array, or changes a shape in what is not yet bare.
  cases step with
  | record m scope =>
    refine ⟨fun k hk => ?_, fun _ _ => rfl, le_rfl, fun _ _ => rfl, le_rfl, fun _ _ => rfl,
      fun _ => rfl, fun _ _ => rfl, rfl, rfl⟩
    refine getElem?_insert_of_ne ?_
    rintro rfl
    exact hk rfl (Multiset.mem_singleton_self _)
  | declare node name shared shape scope =>
    obtain ⟨units, hunits, hothers, hperform⟩ := perform_declare u node name shared shape scope s
    rw [hperform]
    refine ⟨fun k hk => ?_, fun k hk => ?_, ?_, fun d hd => ?_, le_rfl, fun _ _ => rfl,
      hunits, hothers, rfl, rfl⟩
    · refine getElem?_insert_of_ne ?_
      rintro rfl
      exact hk rfl (Multiset.mem_singleton_self _)
    · refine getElem?_insert_of_ne ?_
      rintro rfl
      exact hk rfl (Multiset.mem_singleton_self _)
    · simp [Graph.declare]
    · exact congrArg Declaration.bare (s.graph.decl_declare_of_lt _ hd)
  | openBody clause scope =>
    refine ⟨fun _ _ => rfl, fun _ _ => rfl, le_rfl, fun _ _ => rfl, ?_, fun b hb => ?_,
      fun _ => rfl, fun _ _ => rfl, rfl, rfl⟩
    · change _ ≤ (s.graph.blocks.push _).size
      simp
    · exact Graph.block_addBlock_of_lt _ _ _ _ hb
  | addTypeParam owner d => exact grows_modifyShape s owner fun shape => shape.bare_addTypeParam d
  | setParams owner ds => exact grows_modifyShape s owner fun shape => shape.bare_withParams ds
  | getter scope name => exact Grows.refl u s
  | join getter setter => exact grows_modifyShape s getter fun shape => shape.bare_withSetter setter

/-- A script that lays nodes out records these nodes and makes the state grow by them. -/
theorem run_grows {f : State} {u : UnitId} {tree : CompilationUnit} {H : Prop} {α : Type}
    {d : Bind α} {ids : Multiset Nat} {P : α → Prop} (h : Lays f u tree H d ids P) (s : State) :
    Grows u ids s (d.run (perform u) s).2 := by
  induction d generalizing H ids s with
  | done a =>
    obtain ⟨rfl, -⟩ := h
    exact Grows.refl u s
  | ask step next ih =>
    obtain ⟨rest, rfl, -, hnext⟩ := h
    rw [Dialogue.run_ask]
    exact (perform_grows u step s).trans (ih _ (hnext _) _)

end Binding

/-! ## What has been declared -/

/-- A node stands in a bound unit. -/
def State.HasNode (f : State) (u : UnitId) (n : Node) : Prop :=
  (f.unit u).isBound = true ∧ (f.unit u).tree.Has n

/-- The declarations and bodies of a state are in order, as a later state shows them: they stand in chains
of scopes, have the parameters and getters that stand where these should, and come from the nodes of bound
units. -/
structure State.Grounded (f s : State) : Prop where
  members : ∀ σ, ∀ d ∈ s.graph.membersOf σ,
    d.index < s.graph.decls.size ∧ (s.graph.decl d).scope.head? = some σ
  chains : ∀ d, d.index < s.graph.decls.size → f.graph.Chain (s.graph.decl d).scope
  typeParams : ∀ d, d.index < s.graph.decls.size →
    ∀ p ∈ (s.graph.decl d).shape.typeParams, f.Inner d p .typeParameter
  params : ∀ d, d.index < s.graph.decls.size →
    ∀ p ∈ (s.graph.decl d).shape.params?.getD [], f.Inner d p .parameter
  getters : ∀ d, d.index < s.graph.decls.size → ∀ t g,
    (s.graph.decl d).shape = .setter t (some g) → f.GetterIn (s.graph.decl d).scope g
  origins : ∀ d, d.index < s.graph.decls.size → ∀ u, (s.graph.decl d).unit = some u →
    ∃ n, (s.graph.decl d).node = some n ∧ f.HasNode u n ∧
      f.decls[(⟨u, n.mark.id⟩ : NodeId)]? = some d ∧ n.declKind = some (s.graph.decl d).shape.kind
  table : ∀ (k : NodeId) (d : DeclId), s.decls[k]? = some d →
    d.index < s.graph.decls.size ∧ s.graph.nodeOf? d = some k
  bodies : ∀ b, b.index < s.graph.blocks.size →
    f.graph.Chain (s.graph.block b).outer ∧ f.HasNode (s.graph.block b).unit (s.graph.block b).clause

namespace Binding

variable {f s : State} {u : UnitId} {tree : CompilationUnit} {step : BindStep}
  {ids : Multiset Nat}

/-- What a step has done stays done while other nodes are recorded. -/
theorem perform_done (hs : f.Grounded s) (may : May f u tree step)
    (grows : Grows u ids (perform u step s).2 f) (fresh : ∀ i ∈ step.ids, i ∉ ids) :
    Done f u step (perform u step s).1 := by
  -- What a step writes stays, because its node is none of those written later; `getter` alone looks for
  -- something that was there before.
  cases step with
  | record m scope =>
    have hm := grows.scopes ⟨u, m.id⟩ fun _ => fresh m.id (Multiset.mem_singleton_self _)
    exact hm.trans Std.ExtTreeMap.getElem?_insert_self
  | declare node name shared shape scope =>
    obtain ⟨units, -, -, hperform⟩ := perform_declare u node name shared shape scope s
    rw [hperform] at grows ⊢
    have hfresh : node.mark.id ∉ ids := fresh _ (Multiset.mem_singleton_self _)
    have hvalid : s.graph.decls.size < (s.graph.declare
        { name, scope, unit := some u, node := some node, shared, shape }).2.decls.size := by
      simp [Graph.declare]
    have hbare := (grows.decl ⟨s.graph.decls.size⟩ hvalid).trans
      (congrArg Declaration.bare (s.graph.decl_declare_self _))
    refine ⟨?_, fun hkind => ⟨?_, hvalid.trans_le grows.size, ?_, ?_, ?_, ?_⟩⟩
    · exact (grows.scopes ⟨u, node.mark.id⟩ fun _ => hfresh).trans
        Std.ExtTreeMap.getElem?_insert_self
    · exact (grows.table ⟨u, node.mark.id⟩ fun _ => hfresh).trans
        Std.ExtTreeMap.getElem?_insert_self
    · exact congrArg (·.scope) hbare
    · exact congrArg (·.unit) hbare
    · exact congrArg (·.node) hbare
    · have hshape := congrArg (·.shape.kind) hbare
      simp only [Declaration.bare, Shape.kind_bare] at hshape
      rw [hkind]
      exact congrArg some hshape.symm
  | openBody clause scope =>
    have hb : s.graph.blocks.size < (s.graph.blocks.push ⟨u, clause, scope⟩).size := by simp
    refine ⟨hb.trans_le grows.blocks, (grows.block _ hb).trans ?_⟩
    exact s.graph.block_addBlock_self u clause scope
  | addTypeParam owner d => trivial
  | setParams owner ds => trivial
  | getter scope name =>
    intro g hg
    obtain ⟨σ, hσ, hmember⟩ : ∃ σ, scope.head? = some σ ∧
        s.graph.directMember? σ name (·.shape.isGetter) = some g := Option.bind_eq_some_iff.mp hg
    have hmem := Array.mem_of_find?_eq_some hmember
    have hfilter := Array.find?_some hmember
    obtain ⟨hvalid, hhead⟩ := hs.members σ g hmem
    have hg' : (f.graph.decl g).scope = (s.graph.decl g).scope := grows.scope hvalid
    refine ⟨hvalid.trans_le grows.size, ?_, ?_⟩
    · exact hg'.trans (Graph.Chain.eq_of_head (hs.chains g hvalid) may.chain (hhead.trans hσ.symm))
    · have hkind : (f.graph.decl g).shape.kind = (s.graph.decl g).shape.kind := grows.kind hvalid
      rw [hkind]
      simp only [Bool.and_eq_true] at hfilter
      cases hshape : (s.graph.decl g).shape <;> simp_all [Shape.isGetter, Shape.kind]
  | join getter setter => trivial

/-- Changing a shape keeps a state grounded, if only type parameters and parameters of the declaration itself are
added. -/
theorem grounded_modifyShape (hs : f.Grounded s) (d : DeclId) {g : Shape → Shape}
    (hbare : ∀ shape, (g shape).bare = shape.bare)
    (htypeParams : ∀ shape, ∀ p ∈ (g shape).typeParams,
      p ∈ shape.typeParams ∨ f.Inner d p .typeParameter)
    (hparams : ∀ shape, ∀ p ∈ (g shape).params?.getD [],
      p ∈ shape.params?.getD [] ∨ f.Inner d p .parameter) :
    f.Grounded { s with graph := s.graph.modifyShape d g } := by
  have hdecl : ∀ e, (s.graph.modifyShape d g).decl e = s.graph.decl e ∨
      e = d ∧ (s.graph.modifyShape d g).decl e =
        { s.graph.decl e with shape := g (s.graph.decl e).shape } := by
    intro e
    rw [Graph.modifyShape, Graph.decl_modifyDecl]
    split
    · next h => exact .inr ⟨h.1.symm, rfl⟩
    · exact .inl rfl
  have hsize : (s.graph.modifyShape d g).decls.size = s.graph.decls.size := by
    simp [Graph.modifyShape, Graph.modifyDecl]
  -- The facts in the order of the structure. At `d` itself they follow from what `g` may add, elsewhere
  -- nothing has changed.
  refine ⟨fun σ e he => ?_, fun e he => ?_, fun e he p hp => ?_, fun e he p hp => ?_,
    fun e he t g' hg' => ?_, fun e he v hv => ?_, fun k e hk => ?_, hs.bodies⟩
  · obtain ⟨hvalid, hhead⟩ := hs.members σ e he
    refine ⟨hsize ▸ hvalid, ?_⟩
    rcases hdecl e with h | ⟨-, h⟩ <;> rw [h] <;> exact hhead
  · rcases hdecl e with h | ⟨-, h⟩ <;> rw [h] <;> exact hs.chains e (hsize ▸ he)
  · rcases hdecl e with h | ⟨rfl, h⟩
    · rw [h] at hp
      exact hs.typeParams e (hsize ▸ he) p hp
    · rw [h] at hp
      exact (htypeParams _ p hp).elim (hs.typeParams e (hsize ▸ he) p) id
  · rcases hdecl e with h | ⟨rfl, h⟩
    · rw [h] at hp
      exact hs.params e (hsize ▸ he) p hp
    · rw [h] at hp
      exact (hparams _ p hp).elim (hs.params e (hsize ▸ he) p) id
  · rcases hdecl e with h | ⟨-, h⟩
    · rw [h] at hg' ⊢
      exact hs.getters e (hsize ▸ he) t g' hg'
    · rw [h] at hg' ⊢
      exact hs.getters e (hsize ▸ he) t g' (Shape.setter_of_bare (hbare _) hg')
  · rcases hdecl e with h | ⟨-, h⟩
    · rw [h] at hv ⊢
      exact hs.origins e (hsize ▸ he) v hv
    · rw [h] at hv ⊢
      obtain ⟨n, hn, hhas, hlisted, hkind⟩ := hs.origins e (hsize ▸ he) v hv
      exact ⟨n, hn, hhas, hlisted, by rw [hkind, ← Shape.kind_bare, ← hbare, Shape.kind_bare]⟩
  · obtain ⟨hvalid, hnode⟩ := hs.table k e hk
    refine ⟨hsize ▸ hvalid, ?_⟩
    rw [← hnode]
    rcases hdecl e with h | ⟨-, h⟩ <;> simp only [Graph.nodeOf?, h]

/-- A new declaration keeps what has been declared in order if it stands in a chain of scopes and starts as
it should, and if its origin, if it has one, leads to it. -/
theorem grounded_declare (hs : f.Grounded s) {d : Declaration} (hchain : f.graph.Chain d.scope)
    (hstarts : f.Starts d.scope d.shape)
    (horigin : ∀ v, d.unit = some v → ∃ n, d.node = some n ∧ f.HasNode v n ∧
      f.decls[(⟨v, n.mark.id⟩ : NodeId)]? = some (s.graph.declare d).1 ∧
      n.declKind = some d.shape.kind) {s' : State}
    (hgraph : s'.graph = (s.graph.declare d).2)
    (htable : ∀ (k : NodeId) (e : DeclId), s'.decls[k]? = some e →
      s.decls[k]? = some e ∨ e = (s.graph.declare d).1 ∧ d.unit = some k.unit ∧
        d.node.map (·.mark.id) = some k.id) : f.Grounded s' := by
  -- A declaration is an old one, or the one that has been made.
  have hself := s.graph.decl_declare_self d
  have hold := fun e => s.graph.decl_declare_of_lt d (e := e)
  have hcases : ∀ e : DeclId, e.index < (s.graph.declare d).2.decls.size →
      e.index < s.graph.decls.size ∨ e = (s.graph.declare d).1 := by
    intro e he
    rcases Nat.lt_or_eq_of_le (Nat.le_of_lt_succ (by simpa [Graph.declare] using he)) with he | he
    · exact .inl he
    · cases e
      exact .inr (congrArg DeclId.mk he)
  have hgrow : ∀ {e : DeclId}, e.index < s.graph.decls.size →
      e.index < (s.graph.declare d).2.decls.size := by
    intro e he
    simpa [Graph.declare] using Nat.lt_succ_of_lt he
  refine ⟨?_, ?_, ?_, ?_, ?_, ?_, ?_, ?_⟩
  all_goals rw [hgraph]
  · intro σ e he
    rcases Graph.mem_membersOf_declare he with he | ⟨rfl, hhead⟩
    · obtain ⟨hvalid, hhead⟩ := hs.members σ e he
      exact ⟨hgrow hvalid, (hold e hvalid).symm ▸ hhead⟩
    · exact ⟨by simp [Graph.declare], hself.symm ▸ hhead⟩
  · intro e he
    rcases hcases e he with he | rfl
    · rw [hold e he]
      exact hs.chains e he
    · rw [hself]
      exact hchain
  · intro e he p hp
    rcases hcases e he with he | rfl
    · rw [hold e he] at hp
      exact hs.typeParams e he p hp
    · rw [hself, hstarts.typeParams] at hp
      cases hp
  · intro e he p hp
    rcases hcases e he with he | rfl
    · rw [hold e he] at hp
      exact hs.params e he p hp
    · rw [hself, hstarts.params] at hp
      cases hp
  · intro e he t g hg
    rcases hcases e he with he | rfl
    · rw [hold e he] at hg ⊢
      exact hs.getters e he t g hg
    · rw [hself] at hg ⊢
      exact hstarts.getter t g hg
  · intro e he v hv
    rcases hcases e he with he | rfl
    · rw [hold e he] at hv ⊢
      exact hs.origins e he v hv
    · rw [hself] at hv ⊢
      exact horigin v hv
  · intro k e hk
    rcases htable k e hk with hk | ⟨rfl, hunit, hnode⟩
    · obtain ⟨hvalid, hnode⟩ := hs.table k e hk
      exact ⟨hgrow hvalid, by rw [← hnode, Graph.nodeOf?, Graph.nodeOf?, hold e hvalid]⟩
    · obtain ⟨n, hn, hid⟩ := Option.map_eq_some_iff.mp hnode
      refine ⟨by simp [Graph.declare], ?_⟩
      simp [Graph.nodeOf?, hself, hunit, hn, hid]
  · exact hs.bodies

/-- A step that a script may take keeps what has been declared in order. -/
theorem perform_grounded (hs : f.Grounded s) (has : ∀ n, tree.Has n → f.HasNode u n)
    (may : May f u tree step) (done : Done f u step (perform u step s).1) :
    f.Grounded (perform u step s).2 := by
  -- Only a declaration and a body add to the arrays; for the new one the permission of the step says what is
  -- asked.
  cases step with
  | record m scope =>
    exact ⟨hs.members, hs.chains, hs.typeParams, hs.params, hs.getters, hs.origins, hs.table,
      hs.bodies⟩
  | declare node name shared shape scope =>
    obtain ⟨units, -, -, hperform⟩ := perform_declare u node name shared shape scope s
    rw [hperform] at done ⊢
    obtain ⟨hchain, hhas, hkind, hstarts⟩ := may
    refine grounded_declare hs hchain.chain hstarts (fun v hv => ?_) rfl fun k e hk => ?_
    · obtain rfl : u = v := Option.some.inj hv
      exact ⟨node, rfl, has node hhas, (done.2 hkind).listed, hkind⟩
    · have hk' : (s.decls.insert (⟨u, node.mark.id⟩ : NodeId) _)[k]? = some e := hk
      rw [Std.ExtTreeMap.getElem?_insert] at hk'
      split at hk'
      · next heq =>
        obtain rfl : (⟨u, node.mark.id⟩ : NodeId) = k := Std.LawfulEqOrd.eq_of_compare heq
        exact .inr ⟨(Option.some.inj hk').symm, rfl, rfl⟩
      · exact .inl hk'
  | openBody clause scope =>
    refine ⟨hs.members, hs.chains, hs.typeParams, hs.params, hs.getters, hs.origins, hs.table,
      fun b hb => ?_⟩
    change b.index < (s.graph.blocks.push _).size at hb
    change f.graph.Chain (((s.graph.addBlock u clause scope).2).block b).outer ∧
      f.HasNode (((s.graph.addBlock u clause scope).2).block b).unit
        (((s.graph.addBlock u clause scope).2).block b).clause
    rcases Nat.lt_or_eq_of_le (Nat.le_of_lt_succ (by simpa using hb)) with hb | hb
    · rw [Graph.block_addBlock_of_lt _ _ _ _ hb]
      exact hs.bodies b hb
    · obtain rfl : b = (s.graph.addBlock u clause scope).1 := by
        cases b
        exact congrArg BlockId.mk hb
      rw [Graph.block_addBlock_self]
      exact ⟨may.1.chain, has _ may.2⟩
  | addTypeParam owner d =>
    refine grounded_modifyShape hs owner (fun shape => shape.bare_addTypeParam d)
      (fun shape p hp => ?_) fun shape p hp => .inl ?_
    · have hp' := shape.typeParams_addTypeParam d hp
      rcases List.mem_append.mp hp' with hp' | hp'
      · exact .inl hp'
      · obtain rfl : p = d := List.mem_singleton.mp hp'
        exact .inr may.1
    · rwa [Shape.params_addTypeParam] at hp
  | setParams owner ds =>
    refine grounded_modifyShape hs owner (fun shape => shape.bare_withParams ds)
      (fun shape p hp => .inl ?_) fun shape p hp => ?_
    · rwa [Shape.typeParams_withParams] at hp
    · have hp' := shape.params_withParams ds hp
      exact (List.mem_append.mp hp').imp id (may p)
  | getter scope name => exact hs
  | join getter setter =>
    refine grounded_modifyShape hs getter (fun shape => shape.bare_withSetter setter)
      (fun shape p hp => .inl ?_) fun shape p hp => .inl ?_
    · rwa [Shape.typeParams_withSetter] at hp
    · rwa [Shape.params_withSetter] at hp

/-- Running a script to the state that it is seen from.  Its steps keep what has been declared in order, and
what else they keep holds at the end, where its result is as it should be. -/
theorem run_lays {H : Prop} {α : Type} {d : Bind α} {P : α → Prop} {Inv : State → Prop}
    (hstep : ∀ step s ids, May f u tree step → Grows u ids (perform u step s).2 f → Inv s →
      Inv (perform u step s).2)
    (h : Lays f u tree H d ids P) (hH : H) (hids : ids.Nodup) (hs : f.Grounded s) (hInv : Inv s)
    (has : ∀ n, tree.Has n → f.HasNode u n) (hf : (d.run (perform u) s).2 = f) :
    P (d.run (perform u) s).1 ∧ f.Grounded f ∧ Inv f := by
  induction d generalizing H ids s with
  | done a =>
    obtain rfl : s = f := hf
    exact ⟨h.2 hH, hs, hInv⟩
  | ask step next ih =>
    obtain ⟨rest, rfl, may, hnext⟩ := h
    rw [Dialogue.run_ask] at hf ⊢
    obtain ⟨-, hrest, hdisjoint⟩ := Multiset.nodup_add.mp hids
    have hgrows : Grows u rest (perform u step s).2 f := hf ▸ run_grows (hnext _) _
    have hdone := perform_done hs (may hH) hgrows fun i hi hi' =>
      Multiset.disjoint_left.mp hdisjoint hi hi'
    exact ih _ (hnext _) ⟨hH, hdone⟩ hrest (perform_grounded hs has (may hH) hdone)
      (hstep step s rest (may hH) hgrows hInv) hf

end Binding

/-! ## Layouts of states -/

/-- The units of a state have numbered nodes; its declarations are in order, and the nodes of its bound
units are placed. -/
structure State.Layout (s : State) : Prop where
  numbered : ∀ u, (s.unit u).tree.Numbered
  grounded : s.Grounded s
  placed : ∀ u n, s.HasNode u n → s.Placed u n

/-- What the places of nodes depend on. -/
structure State.SamePlaces (s s' : State) : Prop where
  scopes : s'.scopes = s.scopes
  table : s'.decls = s.decls
  size : s'.graph.decls.size = s.graph.decls.size
  decl : ∀ d, (s'.graph.decl d).bound = (s.graph.decl d).bound
  members : s'.graph.members = s.graph.members
  blocks : s'.graph.blocks = s.graph.blocks

namespace State.SamePlaces

variable {s s' : State} (h : s.SamePlaces s')
include h

theorem scope (d : DeclId) : (s'.graph.decl d).scope = (s.graph.decl d).scope :=
  congrArg (·.scope) (h.decl d)

theorem unit (d : DeclId) : (s'.graph.decl d).unit = (s.graph.decl d).unit :=
  congrArg (·.unit) (h.decl d)

theorem node (d : DeclId) : (s'.graph.decl d).node = (s.graph.decl d).node :=
  congrArg (·.node) (h.decl d)

theorem shape (d : DeclId) : (s'.graph.decl d).shape.bound = (s.graph.decl d).shape.bound :=
  congrArg (·.shape) (h.decl d)

/-- Declarations keep their kinds. -/
theorem kind (d : DeclId) : (s'.graph.decl d).shape.kind = (s.graph.decl d).shape.kind := by
  rw [← Shape.kind_bound, h.shape, Shape.kind_bound]

theorem block (b : BlockId) : s'.graph.block b = s.graph.block b := by
  rw [Graph.block, Graph.block, h.blocks]

/-- Chains of scopes stay what they are. -/
theorem chain {c : ScopeChain} (hc : s.graph.Chain c) : s'.graph.Chain c :=
  hc.mono h.size.ge (fun d _ => h.scope d) (congrArg Array.size h.blocks).ge fun b _ => h.block b

/-- What stands in the scope of a declaration stays there. -/
theorem inner {owner d : DeclId} {k : DeclKind} (hd : s.Inner owner d k) : s'.Inner owner d k :=
  ⟨h.size ▸ hd.valid, by rw [h.scope, h.scope, hd.scope], by rw [h.kind, hd.kind]⟩

theorem getterIn {c : ScopeChain} {d : DeclId} (hd : s.GetterIn c d) : s'.GetterIn c d :=
  ⟨h.size ▸ hd.valid, by rw [h.scope, hd.scope], by rw [h.kind, hd.kind]⟩

theorem opens {u : UnitId} {c : ScopeChain} {n : Node} {b : BlockId} (hb : s.Opens u c n b) :
    s'.Opens u c n b :=
  ⟨h.blocks ▸ hb.valid, by rw [h.block, hb.body]⟩

/-- A node stays in its scopes. -/
theorem stands {u : UnitId} {c : ScopeChain} {n : Node} (hn : s.Stands u c n) : s'.Stands u c n := by
  rw [State.Stands, h.scopes]
  exact hn

/-- A node keeps its declaration. -/
theorem declares {u : UnitId} {c : ScopeChain} {n : Node} {d : DeclId} (hd : s.Declares u c n d) :
    s'.Declares u c n d where
  listed := by
    rw [h.table]
    exact hd.listed
  valid := h.size ▸ hd.valid
  scope := (h.scope d).trans hd.scope
  unit := (h.unit d).trans hd.unit
  node := (h.node d).trans hd.node
  kind := by
    rw [h.kind]
    exact hd.kind

/-- A node that is placed stays so, if its unit stays in its package. -/
theorem placed {u : UnitId} {n : Node} (hpackage : (s'.unit u).package = (s.unit u).package)
    (hn : s.Placed u n) : s'.Placed u n := by
  obtain ⟨c, hc, hchain, hlaid⟩ := hn
  refine ⟨c, h.stands hc, ⟨h.chain hchain.chain, hpackage ▸ hchain.package⟩,
    fun p hp => h.stands (hlaid.beside p hp), fun hdecl => ?_,
    fun hclause => ?_, fun p hp => h.stands (hlaid.outside p hp), fun v hv => ?_⟩
  · obtain ⟨d, hd, hwithin⟩ := hlaid.declared hdecl
    exact ⟨d, h.declares hd, fun p hp => h.stands (hwithin p hp)⟩
  · obtain ⟨b, hb, hwithin⟩ := hlaid.opened hclause
    exact ⟨b, h.opens hb, fun p hp => h.stands (hwithin p hp)⟩
  · obtain ⟨b, n', hhead, hopens, hmem⟩ := hlaid.held v hv
    exact ⟨b, n', hhead, h.opens hopens, hmem⟩

/-- What has been declared stays in order, as long as the bound units have the same nodes. -/
theorem grounded (hhas : ∀ u n, s.HasNode u n → s'.HasNode u n) (hs : s.Grounded s) :
    s'.Grounded s' where
  members σ d hd := by
    rw [Graph.membersOf, h.members] at hd
    rw [h.size, h.scope]
    exact hs.members σ d hd
  chains d hd := by
    rw [h.scope]
    exact h.chain (hs.chains d (h.size ▸ hd))
  typeParams d hd p hp := by
    rw [← Shape.typeParams_bound, h.shape, Shape.typeParams_bound] at hp
    exact h.inner (hs.typeParams d (h.size ▸ hd) p hp)
  params d hd p hp := by
    rw [← Shape.params_bound, h.shape, Shape.params_bound] at hp
    exact h.inner (hs.params d (h.size ▸ hd) p hp)
  -- the places do not say what type a setter has, so it may have had another before
  getters d hd t g hg := by
    have hbound : (s.graph.decl d).shape.bound = .setter .unknown (some g) := by
      rw [← h.shape, hg]
      rfl
    obtain ⟨t', ht'⟩ : ∃ t', (s.graph.decl d).shape = .setter t' (some g) := by
      cases hshape : (s.graph.decl d).shape <;> simp_all [Shape.bound, Shape.mapGeneric,
        Shape.withType]
    rw [h.scope]
    exact h.getterIn (hs.getters d (h.size ▸ hd) t' g ht')
  origins d hd v hv := by
    rw [h.unit] at hv
    obtain ⟨n, hn, hnode, hlisted, hkind⟩ := hs.origins d (h.size ▸ hd) v hv
    refine ⟨n, (h.node d).trans hn, hhas v n hnode, ?_, (h.kind d).symm ▸ hkind⟩
    rw [h.table]
    exact hlisted
  table k d hk := by
    rw [h.table] at hk
    rw [h.size, Graph.nodeOf?, h.unit, h.node]
    exact hs.table k d hk
  bodies b hb := by
    rw [h.blocks] at hb
    rw [h.block]
    obtain ⟨hc, hnode⟩ := hs.bodies b hb
    exact ⟨h.chain hc, hhas _ _ hnode⟩

end State.SamePlaces

/-- What the layout of a state depends on. -/
structure State.SameLayout (s s' : State) : Prop extends s.SamePlaces s' where
  tree : ∀ u, (s'.unit u).tree = (s.unit u).tree
  package : ∀ u, (s'.unit u).package = (s.unit u).package
  isBound : ∀ u, (s'.unit u).isBound = (s.unit u).isBound

namespace State.SameLayout

variable {s s' s'' : State}

theorem refl (s : State) : s.SameLayout s :=
  ⟨⟨rfl, rfl, rfl, fun _ => rfl, rfl, rfl⟩, fun _ => rfl, fun _ => rfl, fun _ => rfl⟩

theorem trans (h : s.SameLayout s') (h' : s'.SameLayout s'') : s.SameLayout s'' where
  scopes := h'.scopes.trans h.scopes
  table := h'.table.trans h.table
  size := h'.size.trans h.size
  decl d := (h'.decl d).trans (h.decl d)
  members := h'.members.trans h.members
  blocks := h'.blocks.trans h.blocks
  tree u := (h'.tree u).trans (h.tree u)
  package u := (h'.package u).trans (h.package u)
  isBound u := (h'.isBound u).trans (h.isBound u)

/-- Changing a unit in other respects keeps the layout. -/
theorem modifyUnit (s : State) (u : UnitId) {g : UnitState → UnitState}
    (htree : ∀ unit, (g unit).tree = unit.tree) (hpackage : ∀ unit, (g unit).package = unit.package)
    (hbound : ∀ unit, (g unit).isBound = unit.isBound) :
    s.SameLayout { s with units := s.units.modify u.index g } := by
  refine { State.SameLayout.refl s with
    tree := fun v => ?_, package := fun v => ?_, isBound := fun v => ?_ }
  · rw [State.unit_modify]
    split
    · exact htree _
    · rfl
  · rw [State.unit_modify]
    split
    · exact hpackage _
    · rfl
  · rw [State.unit_modify]
    split
    · exact hbound _
    · rfl

variable (h : s.SameLayout s')
include h

/-- Units keep their nodes. -/
theorem hasNode_iff (u : UnitId) (n : Node) : s'.HasNode u n ↔ s.HasNode u n := by
  rw [HasNode, HasNode, h.tree, h.isBound]

/-- A state with the same layout as one that is laid out is laid out. -/
theorem layout (hs : s.Layout) : s'.Layout where
  numbered u := by
    rw [h.tree]
    exact hs.numbered u
  grounded := h.toSamePlaces.grounded (fun u n => (h.hasNode_iff u n).mpr) hs.grounded
  placed u n hn := h.placed (h.package u) (hs.placed u n ((h.hasNode_iff u n).mp hn))

end State.SameLayout

namespace Binding

variable {s f : State} {u : UnitId} {ids : Multiset Nat}

/-- Binding leaves trees as they are, and binds no unit. -/
theorem Grows.unit_eq (h : Grows u ids s f) (v : UnitId) :
    (f.unit v).tree = (s.unit v).tree ∧ (f.unit v).isBound = (s.unit v).isBound := by
  have hunit := h.unit v
  exact ⟨congrArg (·.tree) hunit, congrArg (·.isBound) hunit⟩

/-- Binding leaves units in their packages. -/
theorem Grows.package (h : Grows u ids s f) (v : UnitId) : (f.unit v).package = (s.unit v).package :=
  congrArg (·.package) (h.unit v)

/-- Binding leaves the nodes of bound units as they are. -/
theorem Grows.hasNode_iff (h : Grows u ids s f) (v : UnitId) (n : Node) :
    f.HasNode v n ↔ s.HasNode v n := by
  rw [State.HasNode, State.HasNode, (h.unit_eq v).1, (h.unit_eq v).2]

/-- What has been placed in other units stays placed. -/
theorem Grows.placed (h : Grows u ids s f) {v : UnitId} (hv : v ≠ u) {n : Node}
    (hn : s.Placed v n) : f.Placed v n := by
  have hscopes : ∀ i : Nat, f.scopes[(⟨v, i⟩ : NodeId)]? = s.scopes[(⟨v, i⟩ : NodeId)]? :=
    fun i => h.scopes _ fun hu => absurd hu hv
  have hstands : ∀ c p, s.Stands v c p → f.Stands v c p := fun c p hp => (hscopes _).trans hp
  obtain ⟨c, hc, hchain, hlaid⟩ := hn
  refine ⟨c, hstands c n hc, ⟨h.chain hchain.chain, h.package v ▸ hchain.package⟩,
    fun p hp => hstands c p (hlaid.beside p hp),
    fun hdecl => ?_, fun hclause => ?_, fun p hp => hstands _ p (hlaid.outside p hp),
    fun v' hv' => ?_⟩
  · -- What the other unit declared is listed, and stays as it has been declared.
    obtain ⟨d, hd, hwithin⟩ := hlaid.declared hdecl
    refine ⟨d, ⟨?_, hd.valid.trans_le h.size, ?_, ?_, ?_, ?_⟩, fun p hp =>
      hstands _ p (hwithin p hp)⟩
    · exact (h.table _ fun hu => absurd hu hv).trans hd.listed
    · exact (h.scope hd.valid).trans hd.scope
    · exact (congrArg (·.unit) (h.decl d hd.valid)).trans hd.unit
    · exact (congrArg (·.node) (h.decl d hd.valid)).trans hd.node
    · rw [h.kind hd.valid]
      exact hd.kind
  · obtain ⟨b, hb, hwithin⟩ := hlaid.opened hclause
    exact ⟨b, h.opens hb, fun p hp => hstands _ p (hwithin p hp)⟩
  · obtain ⟨b, n', hhead, hopens, hmem⟩ := hlaid.held v' hv'
    exact ⟨b, n', hhead, h.opens hopens, hmem⟩

/-- What is in order stays in order while another unit is bound. -/
theorem Grows.grounded (h : Grows u ids s f) {before : State} (hs : before.Grounded before)
    (hgraph : s.graph = before.graph) (htable : s.decls = before.decls)
    (hhas : ∀ v n, before.HasNode v n → v ≠ u ∧ f.HasNode v n) : f.Grounded s := by
  have hchain : ∀ {c}, before.graph.Chain c → f.graph.Chain c := fun hc => h.chain (hgraph ▸ hc)
  -- The facts in the order of the structure: what was declared before is carried over, and its nodes belong to
  -- other units.
  refine ⟨fun σ d hd => ?_, fun d hd => ?_, fun d hd p hp => ?_, fun d hd p hp => ?_,
    fun d hd t g hg => ?_, fun d hd v hv => ?_, fun k d hk => ?_, fun b hb => ?_⟩
  · rw [hgraph] at hd ⊢
    exact hs.members σ d hd
  · rw [hgraph] at hd ⊢
    exact hchain (hs.chains d hd)
  · refine h.inner hd ?_
    rw [hgraph] at hd hp
    obtain ⟨hvalid, hscope, hkind⟩ := hs.typeParams d hd p hp
    exact ⟨hgraph ▸ hvalid, hgraph ▸ hscope, hgraph ▸ hkind⟩
  · refine h.inner hd ?_
    rw [hgraph] at hd hp
    obtain ⟨hvalid, hscope, hkind⟩ := hs.params d hd p hp
    exact ⟨hgraph ▸ hvalid, hgraph ▸ hscope, hgraph ▸ hkind⟩
  · refine h.getterIn ?_
    rw [hgraph] at hd hg ⊢
    obtain ⟨hvalid, hscope, hkind⟩ := hs.getters d hd t g hg
    exact ⟨hgraph ▸ hvalid, hgraph ▸ hscope, hgraph ▸ hkind⟩
  · rw [hgraph] at hd hv ⊢
    obtain ⟨n, hn, hhas', hlisted, hkind⟩ := hs.origins d hd v hv
    obtain ⟨hne, hhas'⟩ := hhas v n hhas'
    refine ⟨n, hn, hhas', (h.table _ fun e => absurd e hne).trans ?_, hkind⟩
    rw [htable]
    exact hlisted
  · rw [htable] at hk
    rw [hgraph]
    exact hs.table k d hk
  · rw [hgraph] at hb ⊢
    obtain ⟨hc, hhas'⟩ := hs.bodies b hb
    exact ⟨hchain hc, (hhas _ _ hhas').2⟩

end Binding

/-! ## Binding a unit -/

namespace State

/-- The script of a unit. -/
def script (s : State) (u : UnitId) : Bind Unit :=
  Binding.bindUnit [.package (s.unit u).package] (s.unit u).tree

/-- The state in which the script of a unit begins. -/
def begun (s : State) (u : UnitId) : State :=
  { s with
    log := s.log.push ⟨"binding declarations", Phase.bound.text, (s.unit u).path⟩
    units := s.units.modify u.index fun unit => { unit with isBound := true } }

/-- The state that the script of a unit leads to. -/
def scripted (s : State) (u : UnitId) : State :=
  ((s.script u).run (Binding.perform u) (s.begun u)).2

/-- Whether the declarations of a unit are still to be made. -/
def isUnbound (s : State) (u : UnitId) : Bool :=
  !((s.unit u).failure.isSome || (s.unit u).phase.atLeast .bound)

variable {s : State} {u : UnitId}

/-- To begin binding a unit marks it as bound and does nothing else. -/
theorem unit_begun (hu : u.index < s.units.size) (v : UnitId) :
    (s.begun u).unit v = if u = v then { s.unit v with isBound := true } else s.unit v :=
  (State.unit_modify s u v _).trans (by simp [hu])

theorem tree_begun (hu : u.index < s.units.size) (v : UnitId) :
    ((s.begun u).unit v).tree = (s.unit v).tree := by
  rw [unit_begun hu]
  split <;> rfl

theorem package_begun (s : State) (u v : UnitId) :
    ((s.begun u).unit v).package = (s.unit v).package := by
  refine (congrArg (·.package) (State.unit_modify s u v _)).trans ?_
  split <;> rfl

/-- The script of a unit lays its tree out in the scope of its package. -/
theorem scripted_lays (s : State) (u : UnitId) :
    Binding.Lays (s.scripted u) u (s.unit u).tree
      ((s.scripted u).ChainIn u [.package (s.unit u).package]) (s.script u)
      (Node.unit (s.unit u).tree).idSet
      fun _ => (s.scripted u).Situated u [.package (s.unit u).package] (.unit (s.unit u).tree) :=
  Binding.bindUnit_lays (s.unit u).tree id fun _ => Node.mem_all _

/-- Running the script of a unit changes only what is recorded for the nodes of its tree. -/
theorem scripted_grows (s : State) (u : UnitId) :
    Binding.Grows u (Node.unit (s.unit u).tree).idSet (s.begun u) (s.scripted u) :=
  Binding.run_grows (s.scripted_lays u) (s.begun u)

/-- The script of a unit begins in the scope of its package. -/
theorem scripted_chain (s : State) (u : UnitId) :
    (s.scripted u).ChainIn u [.package (s.unit u).package] := by
  refine ⟨rfl, ?_⟩
  rw [(s.scripted_grows u).package, package_begun]
  rfl

end State

/-- A unit that is not there to be bound is left alone. -/
theorem bindDeclarations_of_not_isUnbound {s : State} {u : UnitId} (h : s.isUnbound u = false) :
    (bindDeclarations u s).2 = s := by
  simp only [State.isUnbound, Bool.not_eq_false'] at h
  simp only [bindDeclarations, bind, StateT.bind, get, getThe, MonadStateOf.get, StateT.get, pure]
  rw [if_pos h]
  rfl

/-- To bind a unit is to run its script and to note the phase. -/
theorem bindDeclarations_of_isUnbound {s : State} {u : UnitId} (h : s.isUnbound u) :
    (bindDeclarations u s).2 = { s.scripted u with
      units := (s.scripted u).units.modify u.index fun unit => { unit with phase := .bound } } := by
  simp only [State.isUnbound, Bool.not_eq_true'] at h
  simp only [bindDeclarations, bind, StateT.bind, get, getThe, MonadStateOf.get, StateT.get, pure]
  rw [if_neg (by simp [h])]
  rfl

/-- The script of a unit lays it out, and what its steps keep holds at the end. -/
theorem scripted_runs {s : State} (hs : s.Layout) {u : UnitId} (hu : u.index < s.units.size)
    (hunbound : (s.unit u).isBound = false) (Inv : State → Prop)
    (hstep : ∀ step s' ids, Binding.May (s.scripted u) u (s.unit u).tree step →
      Binding.Grows u ids (Binding.perform u step s').2 (s.scripted u) → Inv s' →
      Inv (Binding.perform u step s').2) (hInv : Inv (s.begun u)) :
    (s.scripted u).Situated u [.package (s.unit u).package] (.unit (s.unit u).tree) ∧
      (s.scripted u).Grounded (s.scripted u) ∧ Inv (s.scripted u) := by
  have hgrows := s.scripted_grows u
  have hunit := State.unit_begun (s := s) hu
  -- Before the script no node is one of the unit, because it was not bound.
  have hhas : ∀ v n, s.HasNode v n → v ≠ u ∧ (s.scripted u).HasNode v n := by
    rintro v n ⟨hbound, hn⟩
    have hne : v ≠ u := by
      rintro rfl
      simp [hunbound] at hbound
    refine ⟨hne, (hgrows.hasNode_iff v n).mpr ?_⟩
    rw [State.HasNode, hunit, if_neg hne.symm]
    exact ⟨hbound, hn⟩
  have hhas' : ∀ n, (s.unit u).tree.Has n → (s.scripted u).HasNode u n := by
    intro n hn
    refine (hgrows.hasNode_iff u n).mpr ?_
    rw [State.HasNode, hunit, if_pos rfl]
    exact ⟨rfl, hn⟩
  exact Binding.run_lays hstep (s.scripted_lays u) (s.scripted_chain u) (Multiset.coe_nodup.mpr (hs.numbered u))
    (hgrows.grounded hs.grounded rfl rfl hhas) hInv hhas' rfl

/-- The script of a unit keeps the layout of the other units and lays out its own. -/
theorem scripted_layout {s : State} (hs : s.Layout) {u : UnitId} (hu : u.index < s.units.size)
    (hunbound : (s.unit u).isBound = false) : (s.scripted u).Layout := by
  have hgrows := s.scripted_grows u
  have hunit := State.unit_begun (s := s) hu
  have htree := State.tree_begun (s := s) hu
  obtain ⟨hsituated, hgrounded, -⟩ :=
    scripted_runs hs hu hunbound (fun _ => True) (fun _ _ _ _ _ _ => trivial) trivial
  refine ⟨fun v => ?_, hgrounded, fun v n hn => ?_⟩
  · rw [(hgrows.unit_eq v).1, htree]
    exact hs.numbered v
  · by_cases hv : v = u
    · subst hv
      rw [State.HasNode, (hgrows.unit_eq v).1, htree] at hn
      exact hsituated.2 n hn.2
    · rw [State.HasNode, (hgrows.unit_eq v).1, htree, (hgrows.unit_eq v).2, hunit,
        if_neg (Ne.symm hv)] at hn
      refine hgrows.placed hv ?_
      have hsame : s.SamePlaces (s.begun u) := ⟨rfl, rfl, rfl, fun _ => rfl, rfl, rfl⟩
      exact hsame.placed (s.package_begun u v) (hs.placed v n hn)

/-- Binding a unit keeps the layout of the others and lays it out. -/
theorem bindDeclarations_layout {s : State} (hs : s.Layout) {u : UnitId}
    (hu : u.index < s.units.size) (hphase : (s.unit u).isBound → (s.unit u).phase.atLeast .bound) :
    (bindDeclarations u s).2.Layout := by
  cases hnew : s.isUnbound u with
  | false =>
    rw [bindDeclarations_of_not_isUnbound hnew]
    exact hs
  | true =>
    have hunbound : (s.unit u).isBound = false := by
      by_contra hbound
      rw [Bool.not_eq_false] at hbound
      simp [State.isUnbound, hphase hbound] at hnew
    rw [bindDeclarations_of_isUnbound hnew]
    refine State.SameLayout.layout (.modifyUnit _ u ?_ ?_ ?_) (scripted_layout hs hu hunbound)
    all_goals exact fun _ => rfl

end Analysis

end Ceylon
