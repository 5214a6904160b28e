import Ceylon.Proofs.BoundUnits
import Ceylon.Proofs.RuleTypes

/-!
# What is in sight at a place

Names are declared in the bodies of branches and loops, and none of them can be used outside its body.  So the
types at a place are built from declarations that stand in no body but those around the place
(`State.around`).  While expressions are checked, a body counts as open once the variables of its clause have
been given their types, and types are built from declarations in open bodies (`State.outlook`).  Both are kept
to by the hierarchy of a state whose declarations are well formed (`State.Formed`).
-/

namespace Ceylon

/-- What stands in the scope of a declaration is a part of its node. -/
theorem Syntax.Node.mem_parts_of_within {n p : Syntax.Node} (hdecl : n.declKind.isSome = true)
    (hp : p ∈ n.within) : p ∈ n.parts := by
  cases n with
  | stmt s =>
    cases s with
    | classDecl d => exact parts_classDecl d ▸ List.mem_cons_of_mem _ hp
    | interfaceDecl d => exact parts_interfaceDecl d ▸ List.mem_cons_of_mem _ hp
    | method d =>
      -- The type of a method comes first among its parts and stands within it.
      rw [parts_method]
      rcases List.mem_cons.mp hp with rfl | hp
      · exact List.mem_cons_self
      · exact List.mem_cons_of_mem _ (List.mem_cons_of_mem _ hp)
    | «attribute» d => exact absurd hp List.not_mem_nil
    | getter d => exact parts_getter d ▸ List.mem_cons_of_mem _ (List.mem_cons_of_mem _ hp)
    | setter d => exact parts_setter d ▸ List.mem_cons_of_mem _ hp
    | _ => cases hdecl
  | parameter q =>
    rw [parts_parameter]
    rcases List.mem_cons.mp hp with rfl | hp
    · exact List.mem_cons_self
    · exact List.mem_cons_of_mem _ (List.mem_cons_of_mem _ hp)
  | typeParameter q => exact absurd hp List.not_mem_nil
  | «variable» v => exact absurd hp List.not_mem_nil
  | _ => cases hdecl

namespace Model.Graph

variable {g : Graph} {c : ScopeChain} {d : DeclId}

/-- The scopes around a scope of a chain are in a chain of their own. -/
theorem Chain.of_append {c' : ScopeChain} (h : g.Chain (c ++ c')) (hne : c' ≠ []) : g.Chain c' := by
  induction c with
  | nil => exact h
  | cons σ c ih =>
    cases σ with
    | package p =>
      have hnil : c ++ c' = [] := h
      exact absurd (List.append_eq_nil_iff.mp hnil).2 hne
    | decl d => exact ih h.2.2
    | block b => exact ih h.2.2

/-- What a name is found to stand for is imported, or a member of a scope of the chain. -/
theorem mem_of_lookup? {imports : List Imported} {name : String} {filter : Filter}
    (h : g.lookup? imports name filter c = some d) :
    (∃ i ∈ imports, i.decl = d) ∨ ∃ σ ∈ c, d ∈ g.membersOf σ := by
  induction c with
  | nil => cases h
  | cons σ outer ih =>
    rcases (Option.orElse_eq_some _ _ _).mp h with h | ⟨-, h⟩
    · cases σ with
      | package p =>
        obtain ⟨i, hi, rfl⟩ := Option.map_eq_some_iff.mp (Option.filter_eq_some_iff.mp h).1
        exact .inl ⟨i, List.mem_of_find?_eq_some hi, rfl⟩
      | block b => cases h
      | decl e => cases h
    · rcases (Option.orElse_eq_some _ _ _).mp h with h | ⟨-, h⟩
      · exact .inr ⟨σ, List.mem_cons_self, (Analysis.mem_of_directMember? h).1⟩
      · exact (ih h).imp id fun ⟨τ, hτ, hd⟩ => ⟨τ, List.mem_cons_of_mem σ hτ, hd⟩

/-- The class or interface around a place is one of the scopes around it. -/
theorem mem_of_enclosingType? (h : g.enclosingType? c = some d) : .decl d ∈ c := by
  induction c with
  | nil => cases h
  | cons σ outer ih =>
    cases σ with
    | decl e =>
      rw [enclosingType?] at h
      split at h
      · exact Option.some.inj h ▸ List.mem_cons_self
      · exact List.mem_cons_of_mem _ (ih h)
    | package p => exact List.mem_cons_of_mem _ (ih h)
    | block b => exact List.mem_cons_of_mem _ (ih h)

end Model.Graph

namespace Analysis

open Model Syntax

/-- What is tolerated: types that are unknown in part, and types that are missing. -/
structure Leeway where
  lax : Prop
  blank : Prop
  blank_of_lax : lax → blank

namespace State

/-! ## Horizons -/

/-- What types may be built from where the given bodies are open. -/
def horizon (s : State) (lax : Prop) (isOpen : BlockId → Prop) : Horizon where
  lax := lax
  sees d := d.index < s.graph.decls.size ∧ ∀ b, .block b ∈ (s.graph.decl d).scope → isOpen b
  arity d := (s.graph.decl d).shape.typeParams.length
  isBottom d := s.graph.hierarchy.isBottom d

/-- What types may be built from in a chain of scopes. -/
def around (s : State) (ℓ : Leeway) (c : ScopeChain) : Horizon :=
  s.horizon ℓ.lax (.block · ∈ c)

/-- The variables of the clause that opens a body have been given their types. -/
def Entered (s : State) (given : NodeId → Prop) (b : BlockId) : Prop :=
  ∀ v ∈ (s.graph.block b).clause.clauseVariables, v.type.isInferred = true →
    given ⟨(s.graph.block b).unit, v.mark.id⟩

/-- What checks may rely on once the given nodes have been given their types. -/
def outlook (s : State) (ℓ : Leeway) (given : NodeId → Prop) : Outlook where
  toHorizon := s.horizon ℓ.lax (s.Entered given)
  blank := ℓ.blank
  blank_of_lax := ℓ.blank_of_lax

theorem horizon_le (s : State) (lax : Prop) {isOpen isOpen' : BlockId → Prop}
    (h : ∀ b, isOpen b → isOpen' b) : (s.horizon lax isOpen).Le (s.horizon lax isOpen') where
  lax := id
  sees _ hd := ⟨hd.1, fun b hb => h b (hd.2 b hb)⟩
  arity _ _ := rfl
  isBottom _ _ := rfl

/-- More is in sight where there are more bodies around. -/
theorem around_le (s : State) (ℓ : Leeway) {c c' : ScopeChain} (h : ∀ b, .block b ∈ c → .block b ∈ c') :
    (s.around ℓ c).Le (s.around ℓ c') :=
  s.horizon_le ℓ.lax h

/-- The scope of a declaration adds no body. -/
@[simp] theorem around_decl_cons (s : State) (ℓ : Leeway) (d : DeclId) (c : ScopeChain) :
    s.around ℓ (.decl d :: c) = s.around ℓ c := by
  simp [around]

/-- What is in sight in a chain of scopes whose bodies are open. -/
theorem around_le_outlook (s : State) (ℓ : Leeway) {given : NodeId → Prop} {c : ScopeChain}
    (h : ∀ b, .block b ∈ c → s.Entered given b) :
    (s.around ℓ c).Le (s.outlook ℓ given).toHorizon :=
  s.horizon_le ℓ.lax h

/-- The more types have been given, the more is in sight. -/
theorem outlook_le (s : State) (ℓ : Leeway) {given given' : NodeId → Prop}
    (h : ∀ k, given k → given' k) : (s.outlook ℓ given).Le (s.outlook ℓ given') where
  toLe := s.horizon_le ℓ.lax fun _ hb v hv hinferred => h _ (hb v hv hinferred)
  blank := id

/-- What is in sight depends on what binding has made. -/
theorem SamePlaces.horizon {s s' : State} (h : s.SamePlaces s') (lax : Prop) (isOpen : BlockId → Prop) :
    s'.horizon lax isOpen = s.horizon lax isOpen := by
  have hparams : ∀ d, (s'.graph.decl d).shape.typeParams = (s.graph.decl d).shape.typeParams := by
    intro d
    rw [← Shape.typeParams_bound, h.shape, Shape.typeParams_bound]
  have hbottom : ∀ d, s'.graph.hierarchy.isBottom d = s.graph.hierarchy.isBottom d := by
    intro d
    have hshape := h.shape d
    cases hs : (s.graph.decl d).shape <;> cases hs' : (s'.graph.decl d).shape <;>
      simp_all [Graph.hierarchy, Shape.bound, Shape.mapGeneric, Shape.withType]
  simp only [State.horizon, h.size, h.scope, hparams, hbottom]

theorem SamePlaces.around {s s' : State} (h : s.SamePlaces s') (ℓ : Leeway) (c : ScopeChain) :
    s'.around ℓ c = s.around ℓ c :=
  h.horizon ..

theorem SamePlaces.outlook {s s' : State} (h : s.SamePlaces s') (ℓ : Leeway) (given : NodeId → Prop) :
    s'.outlook ℓ given = s.outlook ℓ given := by
  have hentered : s'.Entered given = s.Entered given := by
    funext b
    rw [Entered, h.block, Entered]
  simp only [State.outlook, h.horizon, hentered]

/-- A declaration stands in no body but those of the chain. -/
def Near (s : State) (c : ScopeChain) (d : DeclId) : Prop :=
  d.index < s.graph.decls.size ∧ ∀ b, .block b ∈ (s.graph.decl d).scope → .block b ∈ c

/-! ## Well-formed declarations -/

/-- The declarations of a state are well formed: their types and supertypes are built from what is in sight
where they stand, and so are the types that type references stand for. -/
structure Formed (s : State) (ℓ : Leeway) : Prop where
  builtins : s.builtins.Suits (s.around ℓ [])
  supertypes : ∀ d, d.index < s.graph.decls.size → ∀ st ∈ s.graph.hierarchy.supertypes d,
    st.Within (s.around ℓ (s.graph.decl d).scope)
  declared : ∀ d, d.index < s.graph.decls.size → (s.graph.decl d).shape.type.isKnown = true →
    (s.graph.decl d).shape.type.Within (s.around ℓ (s.graph.decl d).scope)
  /-- Type parameters have no parameters of their own. -/
  plain : ∀ d, d.index < s.graph.decls.size → (s.graph.decl d).shape.kind = .typeParameter →
    (s.graph.decl d).shape.typeParams = []
  imports : ∀ u, ∀ i ∈ (s.unit u).imports, s.Near [] i.decl
  refs : ∀ (k : NodeId) t, s.types.refs[k]? = some t → t.Within (s.around ℓ (s.scopes.getD k []))

section

variable {s : State} {ℓ : Leeway} (hs : s.Layout) (hf : s.Formed ℓ)
include hs hf

/-- Supertypes and parameters lead to nothing out of sight. -/
theorem Formed.closed (isOpen : BlockId → Prop) : s.graph.hierarchy.Closed (s.horizon ℓ.lax isOpen) where
  supertypes d hd st hst := (hf.supertypes d hd.1 st hst).mono (s.horizon_le ℓ.lax hd.2)
  params d hd p hp := by
    have hinner := hs.grounded.typeParams d hd.1 p hp
    refine .mk ⟨hinner.valid, fun b hb => hd.2 b ?_⟩ ?_ (List.forall_mem_nil _)
    · rw [hinner.scope] at hb
      simpa using hb
    · exact (congrArg List.length (hf.plain p hinner.valid hinner.kind)).symm
  arity _ := rfl
  isBottom _ := rfl

theorem Formed.closed_around (c : ScopeChain) : s.graph.hierarchy.Closed (s.around ℓ c) :=
  hf.closed hs _

end

/-! ## Names -/

section

variable {s : State} {c : ScopeChain} {d : DeclId}

theorem Near.around (h : s.Near c d) (ℓ : Leeway) : (s.around ℓ c).sees d :=
  h

theorem Near.outlook (h : s.Near c d) {ℓ : Leeway} {given : NodeId → Prop}
    (hopen : ∀ b, .block b ∈ c → s.Entered given b) : (s.outlook ℓ given).sees d :=
  ⟨h.1, fun b hb => hopen b (h.2 b hb)⟩

theorem Near.mono (h : s.Near c d) {c' : ScopeChain} (hc : ∀ b, .block b ∈ c → .block b ∈ c') :
    s.Near c' d :=
  ⟨h.1, fun b hb => hc b (h.2 b hb)⟩

/-- What stands in no body is near everywhere. -/
theorem Near.everywhere (h : s.Near [] d) (c : ScopeChain) : s.Near c d :=
  h.mono fun _ hb => nomatch hb

/-- A declaration in whose scope a place stands is near. -/
theorem near_of_decl_mem (hc : s.graph.Chain c) (hd : .decl d ∈ c) : s.Near c d := by
  obtain ⟨before, outer, rfl⟩ := List.append_of_mem hd
  obtain ⟨hvalid, rfl, -⟩ := hc.of_append (List.cons_ne_nil _ _)
  exact ⟨hvalid, fun b hb => List.mem_append_right _ (List.mem_cons_of_mem _ hb)⟩

section

variable (hs : s.Layout)
include hs

/-- The members of a scope of the chain are near. -/
theorem near_of_mem (hc : s.graph.Chain c) {σ : ScopeId} (hσ : σ ∈ c) (hd : d ∈ s.graph.membersOf σ) :
    s.Near c d := by
  obtain ⟨hvalid, hhead⟩ := hs.grounded.members σ d hd
  obtain ⟨before, outer, rfl⟩ := List.append_of_mem hσ
  have hchain := hs.grounded.chains d hvalid
  refine ⟨hvalid, fun b hb => List.mem_append_right _ ?_⟩
  cases hscope : (s.graph.decl d).scope with
  | nil => simp [hscope] at hhead
  | cons σ' outer' =>
    obtain rfl : σ' = σ := by simpa [hscope] using hhead
    rw [hscope] at hchain hb
    rwa [hchain.tail_unique (hc.of_append (List.cons_ne_nil _ _))] at hb

/-- The members of a package stand in no body. -/
theorem near_of_package {p : PackageId} (hd : d ∈ s.graph.membersOf (.package p)) : s.Near [] d := by
  obtain ⟨hvalid, hhead⟩ := hs.grounded.members _ d hd
  refine ⟨hvalid, fun b hb => ?_⟩
  have hchain := hs.grounded.chains d hvalid
  cases hscope : (s.graph.decl d).scope with
  | nil => simp [hscope] at hhead
  | cons σ' outer =>
    obtain rfl : σ' = .package p := by simpa [hscope] using hhead
    rw [hscope] at hchain hb
    obtain rfl : outer = [] := hchain
    simp at hb

/-- What a name stands for is near, in the state itself and in what resolving knows of it. -/
theorem near_of_lookupWith? (hc : s.graph.Chain c) {imports : List Imported}
    (himports : ∀ i ∈ imports, s.Near [] i.decl) {name : String} {filter : Filter} {t : State}
    (ht : t.graph.members = s.graph.members) (h : t.lookupWith? imports c name filter = some d) :
    s.Near c d := by
  have hmembers : ∀ σ, t.graph.membersOf σ = s.graph.membersOf σ := fun σ => by
    rw [Graph.membersOf, ht, Graph.membersOf]
  rcases (Option.orElse_eq_some _ _ _).mp h with h | ⟨-, h⟩
  · rcases Graph.mem_of_lookup? h with ⟨i, hi, rfl⟩ | ⟨σ, hσ, hd⟩
    · exact (himports i hi).everywhere c
    · exact near_of_mem hs hc hσ (hmembers σ ▸ hd)
  · exact (near_of_package hs (hmembers _ ▸ (mem_of_directMember? h).1)).everywhere c

end

end

end State

/-! ## Nodes -/

namespace State

/-- The declaration made from a node stands where the node does. -/
theorem Layout.declares {f : State} (hf : f.Layout) {d : DeclId} {u : UnitId} {n : Node}
    (hd : d.index < f.graph.decls.size) (hunit : (f.graph.decl d).unit = some u)
    (hnode : (f.graph.decl d).node = some n) :
    f.HasNode u n ∧ ∃ c, f.Stands u c n ∧ f.Laid u c n ∧ f.Declares u c n d := by
  obtain ⟨n', hnode', hhas, hlisted, hkind⟩ := hf.grounded.origins d hd u hunit
  obtain rfl : n' = n := Option.some.inj (hnode'.symm.trans hnode)
  obtain ⟨c, hstands, -, hlaid⟩ := hf.placed u n' hhas
  obtain ⟨d', hdeclares, -⟩ := hlaid.declared (hkind ▸ rfl)
  obtain rfl : d' = d := Option.some.inj (hdeclares.listed.symm.trans hlisted)
  exact ⟨hhas, c, hstands, hlaid, hdeclares⟩

/-- The declaration of a node is in the table. -/
theorem Layout.listed {f : State} (hf : f.Layout) {u : UnitId} {n : Node} (hn : f.HasNode u n)
    (hdecl : n.declKind.isSome = true) : (⟨u, n.mark.id⟩ : NodeId) ∈ f.decls := by
  obtain ⟨c, -, -, hlaid⟩ := hf.placed u n hn
  obtain ⟨d, hdeclares, -⟩ := hlaid.declared hdecl
  rw [Std.ExtTreeMap.mem_iff_isSome_getElem?, hdeclares.listed]
  rfl

/-- A node of a bound unit of the program, and the bodies around it have been entered. -/
structure Reaches (f : State) (given : NodeId → Prop) (u : UnitId) (n : Node) : Prop where
  user : u ≠ languageUnit
  has : f.HasNode u n
  entered : ∀ c, f.Stands u c n → ∀ b, .block b ∈ c → f.Entered given b

/-- A state whose names have been resolved, so that its expressions can be checked. -/
structure Prepared (f : State) (ℓ : Leeway) : Prop extends f.Formed ℓ where
  layout : f.Layout
  resolved : ∀ u, u ≠ languageUnit → ∀ t, f.HasNode u (.type t) → ℓ.blank ∨ (f.typeRef? u t.mark).isSome = true

theorem HasNode.part {f : State} {u : UnitId} {n p : Node} (h : f.HasNode u n) (hp : p ∈ n.parts) :
    f.HasNode u p :=
  ⟨h.1, h.2.part hp⟩

section

variable {f : State} {ℓ : Leeway} {given : NodeId → Prop} {u : UnitId} {n : Node}

theorem Reaches.mono {given' : NodeId → Prop} (h : f.Reaches given u n)
    (hgiven : ∀ k, given k → given' k) : f.Reaches given' u n where
  user := h.user
  has := h.has
  entered c hc b hb v hv hinferred := hgiven _ (h.entered c hc b hb v hv hinferred)

/-- A node with no more bodies around it is reached too. -/
theorem Reaches.of_stands (h : f.Reaches given u n) {c c' : ScopeChain} (hc : f.Stands u c n) {p : Node}
    (hp : f.HasNode u p) (hstands : f.Stands u c' p)
    (hsub : ∀ b, .block b ∈ c' → .block b ∈ c) : f.Reaches given u p where
  user := h.user
  has := hp
  entered c'' hc'' b hb := by
    obtain rfl : c' = c'' := Option.some.inj (hstands.symm.trans hc'')
    exact h.entered c hc b (hsub b hb)

variable (hf : f.Layout)
include hf

theorem Reaches.beside (h : f.Reaches given u n) {p : Node} (hp : p ∈ n.beside) (hpart : p ∈ n.parts) :
    f.Reaches given u p := by
  obtain ⟨c, hstands, -, hlaid⟩ := hf.placed u n h.has
  exact h.of_stands hstands (h.has.part hpart) (hlaid.beside p hp) fun _ => id

/-- What stands in the scope of a declaration is reached with it. -/
theorem Reaches.within (h : f.Reaches given u n) (hdecl : n.declKind.isSome = true) {p : Node}
    (hp : p ∈ n.within) : f.Reaches given u p := by
  obtain ⟨c, hstands, -, hlaid⟩ := hf.placed u n h.has
  obtain ⟨d, -, hwithin⟩ := hlaid.declared hdecl
  exact h.of_stands hstands (h.has.part (Node.mem_parts_of_within hdecl hp)) (hwithin p hp) fun b hb => by
    simpa using hb

/-- The body of a clause is reached once the variables of the clause have been given their types. -/
theorem Reaches.body (h : f.Reaches given u n) (hclause : n.isClause = true)
    (hgiven : ∀ v ∈ n.clauseVariables, v.type.isInferred = true → given ⟨u, v.mark.id⟩) {p : Node}
    (hp : p ∈ n.within) (hpart : p ∈ n.parts) : f.Reaches given u p := by
  obtain ⟨c, hstands, -, hlaid⟩ := hf.placed u n h.has
  obtain ⟨b, hopens, hwithin⟩ := hlaid.opened hclause
  refine ⟨h.user, h.has.part hpart, fun c' hc' b' hb' => ?_⟩
  obtain rfl : .block b :: c = c' := Option.some.inj ((hwithin p hp).symm.trans hc')
  rcases List.mem_cons.mp hb' with heq | hb'
  · obtain rfl : b' = b := by simpa using heq
    intro v hv hinferred
    rw [hopens.body] at hv ⊢
    exact hgiven v hv hinferred
  · exact h.entered c hstands b' hb'

/-- What a variable is declared and specified with is reached with its clause. -/
theorem Reaches.outside (h : f.Reaches given u n) (hclause : n.isClause = true) {v : Variable}
    (hwithin : .variable v ∈ n.within) (hv : f.HasNode u (.variable v)) {p : Node}
    (hp : p ∈ (Node.variable v).outside) (hpart : p ∈ (Node.variable v).parts) :
    f.Reaches given u p := by
  obtain ⟨c, hstands, -, hlaid⟩ := hf.placed u n h.has
  obtain ⟨b, -, hwithins⟩ := hlaid.opened hclause
  obtain ⟨c', hstands', -, hlaid'⟩ := hf.placed u (.variable v) hv
  obtain rfl : .block b :: c = c' := Option.some.inj ((hwithins _ hwithin).symm.trans hstands')
  exact h.of_stands hstands (hv.part hpart) (hlaid'.outside p hp) fun _ => id

/-- All of an expression or a type is reached at once. -/
theorem Reaches.all (h : f.Reaches given u n) (hplain : n.isPlain = true) :
    ∀ m ∈ n.all, f.Reaches given u m := by
  have hboth : ∀ m ∈ n.all, m.isPlain = true ∧ f.Reaches given u m := by
    refine Node.forall_all ⟨hplain, h⟩ fun m ⟨hm, hreach⟩ p hp => ⟨Node.isPlain_of_part m hm p hp, ?_⟩
    exact hreach.beside hf ((Node.beside_of_isPlain hm).symm ▸ hp) hp
  exact fun m hm => (hboth m hm).2

end

section

variable {f : State} {ℓ : Leeway} (hf : f.Prepared ℓ) {given : NodeId → Prop}
include hf

/-- The resolved state shows to the checks what they rely on. -/
theorem Prepared.shows : f.Shows (f.outlook ℓ given) where
  closed := hf.closed hf.layout _
  builtins := hf.builtins.mono (f.around_le_outlook ℓ fun _ hb => absurd hb List.not_mem_nil)
  members d hd m hm := by
    obtain ⟨hvalid, hhead⟩ := hf.layout.grounded.members _ m hm
    refine ⟨hvalid, fun b hb => hd.2 b ?_⟩
    have hchain := hf.layout.grounded.chains m hvalid
    cases hscope : (f.graph.decl m).scope with
    | nil => simp [hscope] at hhead
    | cons σ outer =>
      obtain rfl : σ = .decl d := by simpa [hscope] using hhead
      rw [hscope] at hchain hb
      obtain ⟨-, rfl, -⟩ := hchain
      simpa using hb
  around d hd e he := by
    have hnear := near_of_decl_mem (hf.layout.grounded.chains d hd.1) (Graph.mem_of_enclosingType? he)
    exact ⟨hnear.1, fun b hb => hd.2 b (hnear.2 b hb)⟩

/-- At a node that has been reached there are only names of what is in sight. -/
theorem Prepared.clear {u : UnitId} {n : Node} (hn : f.Reaches given u n) :
    f.Clear (f.outlook ℓ given) u n := by
  obtain ⟨c, hstands, hchain, -⟩ := hf.layout.placed u n hn.has
  have hopen := hn.entered c hstands
  have hscope : f.scopeAt u n.mark = c := by
    rw [State.scopeAt, Std.ExtTreeMap.getD_eq_getD_getElem?, hstands]
    rfl
  refine ⟨fun name filter d hd => ?_, fun d hd => ?_, ?_⟩
  · rw [hscope] at hd
    exact (near_of_lookupWith? hf.layout hchain.chain (hf.imports u) rfl hd).outlook hopen
  · rw [hscope] at hd
    exact (near_of_decl_mem hchain.chain (Graph.mem_of_enclosingType? hd)).outlook hopen
  · rintro t rfl
    refine ⟨fun ty hty => ?_, hf.resolved u hn.user t hn.has⟩
    have hwithin := hf.refs ⟨u, t.mark.id⟩ ty hty
    rw [show f.scopes.getD ⟨u, t.mark.id⟩ [] = c from hscope] at hwithin
    exact hwithin.mono (f.around_le_outlook ℓ hopen)

end

end State

end Analysis

end Ceylon
