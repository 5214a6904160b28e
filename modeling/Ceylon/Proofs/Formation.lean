import Ceylon.Proofs.Invariants
import Ceylon.Proofs.Sight

/-!
# Well-formed declarations

Binding a unit adds declarations that have neither types nor supertypes yet, and gives type parameters to no
others (`Binding.Adds`).  So while a source tree is loaded, the declarations and what is known about nodes stay
well formed (`State.Unchecked`).
-/

namespace Ceylon.Analysis

open Model Syntax Files

/-! ## Binding -/

namespace Binding

/-- From the first state to the second, declarations of a unit have been added as binding makes them, and
those of other units have kept their type parameters. -/
structure Adds (u : UnitId) (b s : State) : Prop where
  size : b.graph.decls.size ≤ s.graph.decls.size
  unit : ∀ d, d.index < b.graph.decls.size → (s.graph.decl d).unit = (b.graph.decl d).unit
  old : ∀ d, d.index < b.graph.decls.size → (b.graph.decl d).unit ≠ some u →
    (s.graph.decl d).shape.typeParams = (b.graph.decl d).shape.typeParams
  new : ∀ d, b.graph.decls.size ≤ d.index → d.index < s.graph.decls.size →
    (s.graph.decl d).unit = some u ∧ (s.graph.decl d).shape.bound = (s.graph.decl d).shape ∧
      ((s.graph.decl d).shape.kind = .typeParameter → (s.graph.decl d).shape.typeParams = [])

/-- Nothing has been added. -/
theorem Adds.refl (u : UnitId) (s : State) : Adds u s s :=
  ⟨le_rfl, fun _ _ => rfl, fun _ _ _ => rfl, fun _ h h' => absurd h (by omega)⟩

section

variable {f b s : State} {u : UnitId} {tree : CompilationUnit} {step : BindStep} {ids : Multiset Nat}

/-- Changing a shape as binding does, of a declaration that may have type parameters if these change. -/
theorem Adds.modifyShape (h : Adds u b s) (owner : DeclId) {g : Shape → Shape}
    (hbound : ∀ shape, shape.bound = shape → (g shape).bound = g shape)
    (hkind : ∀ shape, (g shape).kind = shape.kind)
    (hparams : (owner.index < s.graph.decls.size → s.Parametric u owner) ∨
      ∀ shape, (g shape).typeParams = shape.typeParams) :
    Adds u b { s with graph := s.graph.modifyShape owner g } := by
  have hsize : (s.graph.modifyShape owner g).decls.size = s.graph.decls.size := by
    simp [Graph.modifyShape, Graph.modifyDecl]
  have hdecl := fun e => s.graph.decl_modifyDecl owner e fun decl => { decl with shape := g decl.shape }
  refine ⟨hsize ▸ h.size, fun d hd => ?_, fun d hd hunit => ?_, fun d hd hd' => ?_⟩
  · refine Eq.trans ?_ (h.unit d hd)
    rw [Graph.modifyShape, hdecl]
    split <;> rfl
  · refine Eq.trans ?_ (h.old d hd hunit)
    rw [Graph.modifyShape, hdecl]
    split
    · next hsame =>
      obtain ⟨rfl, hvalid⟩ := hsame
      -- An old declaration of another unit gets no type parameters, as these belong to their owner's unit.
      refine hparams.elim (fun hparametric => ?_) fun hparams => hparams _
      exact absurd ((h.unit owner hd).symm.trans (hparametric hvalid).unit) hunit
    · rfl
  · obtain ⟨hunit, hshape, htypeParams⟩ := h.new d hd (hsize ▸ hd')
    rw [Graph.modifyShape, hdecl]
    split
    · next hsame =>
      obtain ⟨rfl, hvalid⟩ := hsame
      refine ⟨hunit, hbound _ hshape, fun hparameter => ?_⟩
      have hkind' := (hkind _).symm.trans hparameter
      refine hparams.elim (fun hparametric => absurd hkind' (hparametric hvalid).kind) fun hparams => ?_
      exact (hparams _).trans (htypeParams hkind')
    · exact ⟨hunit, hshape, htypeParams⟩

/-- A step of binding adds declarations of the unit, each as binding makes it. -/
theorem perform_adds (h : Adds u b s) (may : May f u tree step) (grows : Grows u ids (perform u step s).2 f) :
    Adds u b (perform u step s).2 := by
  cases step with
  | record m scope => exact ⟨h.size, h.unit, h.old, h.new⟩
  | declare node name shared shape scope =>
    obtain ⟨units, -, -, hperform⟩ := perform_declare u node name shared shape scope s
    rw [hperform]
    have hstarts := may.2.2.2
    have hold := fun e => s.graph.decl_declare_of_lt
      { name, scope, unit := some u, node := some node, shared, shape } (e := e)
    refine ⟨?_, fun d hd => ?_, fun d hd hunit => ?_, fun d hd hd' => ?_⟩
    · simpa [Graph.declare] using Nat.le_succ_of_le h.size
    · rw [hold d (hd.trans_le h.size)]
      exact h.unit d hd
    · rw [hold d (hd.trans_le h.size)]
      exact h.old d hd hunit
    · -- A new declaration starts as it should, and the others have been there before.
      have hlt : d.index < s.graph.decls.size + 1 := by simpa [Graph.declare] using hd'
      rcases Nat.lt_or_eq_of_le (Nat.le_of_lt_succ hlt) with hlt | hlt
      · rw [hold d hlt]
        exact h.new d hd hlt
      · obtain rfl : d = (s.graph.declare
            { name, scope, unit := some u, node := some node, shared, shape }).1 := by
          cases d
          exact congrArg DeclId.mk hlt
        rw [s.graph.decl_declare_self]
        exact ⟨rfl, hstarts.bound, fun _ => hstarts.typeParams⟩
  | openBody clause scope => exact ⟨h.size, h.unit, h.old, h.new⟩
  | addTypeParam owner d =>
    refine h.modifyShape owner (fun shape hshape => ?_) (fun shape => ?_) (.inl fun hvalid => ?_)
    · rw [shape.bound_addTypeParam, hshape]
    · cases shape <;> rfl
    · have hgrows := (perform_grows u (.addTypeParam owner d) s).trans grows
      refine ⟨(congrArg (·.unit) (hgrows.decl owner hvalid)).symm.trans may.2.unit, ?_⟩
      exact (hgrows.kind hvalid) ▸ may.2.kind
  | setParams owner ds =>
    refine h.modifyShape owner (fun shape hshape => ?_) (fun shape => ?_)
      (.inr fun shape => shape.typeParams_withParams ds)
    · rw [shape.bound_withParams, hshape]
    · cases shape <;> rfl
  | getter scope name => exact h
  | join getter setter =>
    refine h.modifyShape getter (fun shape hshape => ?_) (fun shape => ?_)
      (.inr fun shape => shape.typeParams_withSetter setter)
    · rw [shape.bound_withSetter, hshape]
    · cases shape <;> rfl

end

end Binding

/-- Binding a unit adds declarations to those of other units. -/
theorem scripted_adds {s : State} (hs : s.Layout) {u : UnitId} (hu : u.index < s.units.size)
    (hunbound : (s.unit u).isBound = false) : Binding.Adds u s (s.scripted u) :=
  (scripted_runs hs hu hunbound (Binding.Adds u s)
    (fun _ _ _ may grows h => Binding.perform_adds h may grows) { Binding.Adds.refl u s with }).2.2

/-! ## Adding declarations -/

/-- From the first state to the second, declarations have been added as binding makes them, and what was known
has stayed. -/
structure State.Extends (s s' : State) : Prop where
  size : s.graph.decls.size ≤ s'.graph.decls.size
  bare : ∀ d, d.index < s.graph.decls.size → (s'.graph.decl d).bare = (s.graph.decl d).bare
  typeParams : ∀ d, d.index < s.graph.decls.size →
    (s'.graph.decl d).shape.typeParams = (s.graph.decl d).shape.typeParams
  new : ∀ d, s.graph.decls.size ≤ d.index → d.index < s'.graph.decls.size →
    (∃ u, u ≠ languageUnit ∧ (s'.graph.decl d).unit = some u) ∧
      (s'.graph.decl d).shape.bound = (s'.graph.decl d).shape ∧
      ((s'.graph.decl d).shape.kind = .typeParameter → (s'.graph.decl d).shape.typeParams = [])
  scopes : ∀ k : NodeId, (s.unit k.unit).isBound = true → s'.scopes[k]? = s.scopes[k]?
  isBound : ∀ u, (s.unit u).isBound = true → (s'.unit u).isBound = true
  imports : ∀ u, (s'.unit u).imports = (s.unit u).imports
  phase : ∀ u, (s'.unit u).phase.atLeast .namesResolved = true → (s'.unit u).phase = (s.unit u).phase
  builtins : s'.builtins = s.builtins
  types : s'.types = s.types
  inferred : s'.graph.inferred = s.graph.inferred
  checked : s'.checked = s.checked

section

variable {s s' : State} (h : s.Extends s') {d : DeclId} (hd : d.index < s.graph.decls.size)
include h hd

/-- A declaration stays in its scopes. -/
theorem State.Extends.scope : (s'.graph.decl d).scope = (s.graph.decl d).scope := by
  have hbare := h.bare d hd
  exact congrArg (·.scope) hbare

/-- A declaration keeps its shape, but for what binding adds. -/
theorem State.Extends.shape : (s'.graph.decl d).shape.bare = (s.graph.decl d).shape.bare :=
  congrArg Declaration.shape (h.bare d hd)

/-- A declaration keeps its kind. -/
theorem State.Extends.kind : (s'.graph.decl d).shape.kind = (s.graph.decl d).shape.kind := by
  rw [← Shape.kind_bare, h.shape hd, Shape.kind_bare]

/-- A declaration keeps its type. -/
theorem State.Extends.type : (s'.graph.decl d).shape.type = (s.graph.decl d).shape.type := by
  rw [← Shape.type_bare, h.shape hd, Shape.type_bare]

/-- A declaration keeps its supertypes. -/
theorem State.Extends.supertypes : s'.graph.hierarchy.supertypes d = s.graph.hierarchy.supertypes d := by
  have hextended : (s'.graph.decl d).shape.generic.extended = (s.graph.decl d).shape.generic.extended := by
    rw [← Shape.extended_bare, h.shape hd, Shape.extended_bare]
  have hsatisfied : (s'.graph.decl d).shape.generic.satisfied = (s.graph.decl d).shape.generic.satisfied := by
    rw [← Shape.satisfied_bare, h.shape hd, Shape.satisfied_bare]
  simp only [Hierarchy.supertypes, Graph.hierarchy, hextended, hsatisfied]

/-- The bottom type stays the bottom type. -/
theorem State.Extends.isBottom : s'.graph.hierarchy.isBottom d = s.graph.hierarchy.isBottom d := by
  have hshape := h.shape hd
  cases hs : (s.graph.decl d).shape <;> cases hs' : (s'.graph.decl d).shape <;>
    simp_all [Graph.hierarchy, Shape.bare]

omit hd in
/-- What could be built from before can still be built. -/
theorem State.Extends.around_le (ℓ : Leeway) (c : ScopeChain) : (s.around ℓ c).Le (s'.around ℓ c) where
  lax := id
  sees _ hd := ⟨hd.1.trans_le h.size, fun b hb => hd.2 b (h.scope hd.1 ▸ hb)⟩
  arity _ hd := congrArg List.length (h.typeParams _ hd.1)
  isBottom _ hd := h.isBottom hd.1

omit hd in
/-- What is near some scopes stays near them. -/
theorem State.Extends.near {c : ScopeChain} (hnear : s.Near c d) : s'.Near c d :=
  ⟨hnear.1.trans_le h.size, fun b hb => hnear.2 b (h.scope hnear.1 ▸ hb)⟩

end

/-- Where bodies stay what they are, what was in sight stays in sight. -/
theorem State.Extends.outlook_le {s s' : State} (h : s.Extends s') (hs : s.Layout)
    (hblock : ∀ b, b.index < s.graph.blocks.size → s'.graph.block b = s.graph.block b) (ℓ : Leeway)
    (given : NodeId → Prop) : (s.outlook ℓ given).Le (s'.outlook ℓ given) where
  lax := id
  sees d hd := by
    refine ⟨hd.1.trans_le h.size, fun b hb => ?_⟩
    rw [h.scope hd.1] at hb
    have hopen := hd.2 b hb
    obtain ⟨before, outer, heq⟩ := List.append_of_mem hb
    have hchain := hs.grounded.chains d hd.1
    rw [heq] at hchain
    rw [State.Entered, hblock b (hchain.of_append (List.cons_ne_nil _ _)).1]
    exact hopen
  arity _ hd := congrArg List.length (h.typeParams _ hd.1)
  isBottom _ hd := h.isBottom hd.1
  blank := id

/-- A shape as binding makes it has neither types nor supertypes. -/
theorem Shape.of_bound {shape : Shape} (h : shape.bound = shape) :
    shape.type = .unknown ∧ shape.generic.extended = none ∧ shape.generic.satisfied = [] := by
  rw [← h]
  cases shape <;> exact ⟨rfl, rfl, rfl⟩

/-! ## Before checking -/

/-- A well-formed state, to which units of the program can be added. -/
structure State.Founded (s : State) (ℓ : Leeway) : Prop extends s.Formed ℓ where
  /-- What stands in for a missing type is well formed, too. -/
  fallback : (default : Applied).Within (s.around ℓ [])
  owned : ∀ (k : NodeId) t, s.types.refs[k]? = some t → (s.unit k.unit).isBound = true
  bound : (s.unit languageUnit).isBound = true
  /-- What has a type has been declared in a unit. -/
  rooted : ∀ d, d.index < s.graph.decls.size → (s.graph.decl d).shape.isTyped = true →
    ∃ u, (s.graph.decl d).unit = some u
  /-- The language module says of all its values and methods which types they have. -/
  language : ∀ d, (s.graph.decl d).unit = some languageUnit → (s.graph.decl d).shape.isTyped = true →
    (s.graph.decl d).shape.type.isKnown = true

/-- A well-formed state in which nothing but the language module has been checked. -/
structure State.Unchecked (s : State) (ℓ : Leeway) : Prop extends s.Founded ℓ where
  exprs : ∀ (k : NodeId) t, s.types.exprs[k]? = some t → t.Within (s.around ℓ [])
  inferred : ∀ k : NodeId, s.graph.inferred[k]? = none
  checked : ∀ k : NodeId, s.checked.contains k = true → k.unit = languageUnit
  phase : ∀ u, u ≠ languageUnit → (s.unit u).phase ≠ .checked

/-- What is well formed stays so when declarations are added. -/
theorem State.Founded.extend {s s' : State} {ℓ : Leeway} (hs : s.Founded ℓ) (h : s.Extends s') :
    s'.Founded ℓ where
  builtins := h.builtins ▸ hs.builtins.mono (h.around_le ℓ [])
  supertypes d hd st hst := by
    by_cases hold : d.index < s.graph.decls.size
    · rw [h.supertypes hold] at hst
      rw [h.scope hold]
      exact (hs.supertypes d hold st hst).mono (h.around_le ℓ _)
    · obtain ⟨-, hextended, hsatisfied⟩ := Shape.of_bound (h.new d (by omega) hd).2.1
      simp [Hierarchy.supertypes, Graph.hierarchy, hextended, hsatisfied] at hst
  -- What is new has neither a type nor supertypes yet, so that only the old is in question.
  declared d hd hknown := by
    by_cases hold : d.index < s.graph.decls.size
    · rw [h.type hold] at hknown ⊢
      rw [h.scope hold]
      exact (hs.declared d hold hknown).mono (h.around_le ℓ _)
    · obtain ⟨htype, -, -⟩ := Shape.of_bound (h.new d (by omega) hd).2.1
      rw [htype] at hknown
      cases hknown
  plain d hd hkind := by
    by_cases hold : d.index < s.graph.decls.size
    · rw [h.kind hold] at hkind
      rw [h.typeParams d hold]
      exact hs.plain d hold hkind
    · exact (h.new d (by omega) hd).2.2 hkind
  imports u i hi := h.near (hs.imports u i (h.imports u ▸ hi))
  refs k t ht := by
    rw [h.types] at ht
    have hscope := h.scopes k (hs.owned k t ht)
    rw [Std.ExtTreeMap.getD_eq_getD_getElem?, hscope, ← Std.ExtTreeMap.getD_eq_getD_getElem?]
    exact (hs.refs k t ht).mono (h.around_le ℓ _)
  fallback := hs.fallback.mono (h.around_le ℓ [])
  owned k t ht := h.isBound _ (hs.owned k t (h.types ▸ ht))
  bound := h.isBound _ hs.bound
  rooted d hd htyped := by
    by_cases hold : d.index < s.graph.decls.size
    · rw [← Shape.isTyped_bare, h.shape hold, Shape.isTyped_bare] at htyped
      obtain ⟨u, hunit⟩ := hs.rooted d hold htyped
      exact ⟨u, (congrArg Declaration.unit (h.bare d hold)).trans hunit⟩
    · obtain ⟨u, -, hunit⟩ := (h.new d (by omega) hd).1
      exact ⟨u, hunit⟩
  language d hunit htyped := by
    by_cases hold : d.index < s.graph.decls.size
    · rw [← Shape.isTyped_bare, h.shape hold, Shape.isTyped_bare] at htyped
      rw [h.type hold]
      exact hs.language d ((congrArg Declaration.unit (h.bare d hold)).symm.trans hunit) htyped
    · have hvalid : d.index < s'.graph.decls.size := by
        by_contra hinvalid
        rw [Graph.decl, Array.getD_eq_getD_getElem?, Array.getElem?_eq_none (by omega)] at hunit
        cases hunit
      obtain ⟨u, hu, hunit'⟩ := (h.new d (by omega) hvalid).1
      exact absurd (Option.some.inj (hunit'.symm.trans hunit)) hu

/-- What has not been checked stays so, with new declarations or without. -/
theorem State.Unchecked.extend {s s' : State} {ℓ : Leeway} (hs : s.Unchecked ℓ) (h : s.Extends s') :
    s'.Unchecked ℓ where
  toFounded := hs.toFounded.extend h
  exprs k t ht := (hs.exprs k t (h.types ▸ ht)).mono (h.around_le ℓ [])
  inferred k := h.inferred ▸ hs.inferred k
  checked k hk := hs.checked k (h.checked ▸ hk)
  phase u hu hphase := hs.phase u hu ((h.phase u (hphase ▸ rfl)).symm.trans hphase)

/-! ## Loading -/

/-- From the first state to the second, all that is known about declarations and nodes has stayed. -/
structure State.Stays (s s' : State) : Prop where
  decls : s'.graph.decls = s.graph.decls
  inferred : s'.graph.inferred = s.graph.inferred
  scopes : s'.scopes = s.scopes
  types : s'.types = s.types
  checked : s'.checked = s.checked
  builtins : s'.builtins = s.builtins
  isBound : ∀ u, (s'.unit u).isBound = (s.unit u).isBound
  imports : ∀ u, (s'.unit u).imports = (s.unit u).imports
  phase : ∀ u, (s'.unit u).phase.atLeast .namesResolved = true → (s'.unit u).phase = (s.unit u).phase

namespace State

instance : IsPreorder State State.Stays where
  refl _ := ⟨rfl, rfl, rfl, rfl, rfl, rfl, fun _ => rfl, fun _ => rfl, fun _ _ => rfl⟩
  trans _ _ _ h h' := ⟨h'.decls.trans h.decls, h'.inferred.trans h.inferred, h'.scopes.trans h.scopes,
    h'.types.trans h.types, h'.checked.trans h.checked, h'.builtins.trans h.builtins,
    fun u => (h'.isBound u).trans (h.isBound u), fun u => (h'.imports u).trans (h.imports u),
    fun u hu => (h'.phase u hu).trans (h.phase u (h'.phase u hu ▸ hu))⟩

/-- What has been extended and then stays has been extended. -/
theorem Extends.stays {s s' s'' : State} (h : s.Extends s') (h' : s'.Stays s'') : s.Extends s'' := by
  have hdecl : ∀ d, s''.graph.decl d = s'.graph.decl d := fun d => by rw [Graph.decl, h'.decls, Graph.decl]
  refine ⟨h'.decls ▸ h.size, fun d hd => ?_, fun d hd => ?_, fun d hd hd' => ?_, fun k hk => ?_, fun u hu => ?_,
    fun u => (h'.imports u).trans (h.imports u),
    fun u hu => (h'.phase u hu).trans (h.phase u (h'.phase u hu ▸ hu)), h'.builtins.trans h.builtins,
    h'.types.trans h.types, h'.inferred.trans h.inferred, h'.checked.trans h.checked⟩
  · rw [hdecl]
    exact h.bare d hd
  · rw [hdecl]
    exact h.typeParams d hd
  · rw [hdecl]
    exact h.new d hd (h'.decls ▸ hd')
  · rw [h'.scopes]
    exact h.scopes k hk
  · rw [h'.isBound]
    exact h.isBound u hu

/-- Nothing has been extended. -/
theorem Extends.refl (s : State) : s.Extends s :=
  ⟨le_rfl, fun _ _ => rfl, fun _ _ => rfl, fun _ hd hd' => absurd hd' (by omega), fun _ _ => rfl, fun _ => id,
    fun _ => rfl, fun _ _ => rfl, rfl, rfl, rfl, rfl⟩

/-- What stays has been extended by nothing. -/
theorem Stays.extends {s s' : State} (h : s.Stays s') : s.Extends s' :=
  (Extends.refl s).stays h

end State

/-- Changing a unit in other respects leaves all in place. -/
theorem modifyUnit_stays (u : UnitId) {g : UnitState → UnitState}
    (hbound : ∀ unit, (g unit).isBound = unit.isBound) (himports : ∀ unit, (g unit).imports = unit.imports)
    (hphase : ∀ unit, (g unit).phase.atLeast .namesResolved = true → (g unit).phase = unit.phase) :
    Leads State.Stays (modifyUnit u g) := by
  intro s
  change s.Stays { s with units := s.units.modify u.index g }
  refine ⟨rfl, rfl, rfl, rfl, rfl, rfl, fun v => ?_, fun v => ?_, fun v => ?_⟩
  all_goals
    rw [State.unit_modify]
    split
  · exact hbound _
  · rfl
  · exact himports _
  · rfl
  · exact hphase _
  · exact fun _ => rfl

/-- Failing leaves all in place. -/
theorem fail_stays (u : UnitId) (failure : Failure) : Leads State.Stays (fail u failure) :=
  modifyUnit_stays u (fun _ => rfl) (fun _ => rfl) fun _ _ => rfl

/-- Resolving modules leaves all in place. -/
theorem moduleSteps_stays : ModuleSteps State.Stays where
  log _ _ _ _ := ⟨rfl, rfl, rfl, rfl, rfl, rfl, fun _ => rfl, fun _ => rfl, fun _ _ => rfl⟩
  report u _ _ := .get_bind fun _ => modifyUnit_stays u (fun _ => rfl) (fun _ => rfl) fun _ _ => rfl
  modules _ _ _ _ _ := ⟨rfl, rfl, rfl, rfl, rfl, rfl, fun _ => rfl, fun _ => rfl, fun _ _ => rfl⟩

/-- Adding a unit leaves all in place. -/
theorem addUnit_stays (s : State) (path : String) (tree : CompilationUnit) (package : PackageId) :
    s.Stays (addUnit path tree package s).2 := by
  have hmissing : ∀ u : UnitId, u.index = s.units.size → s.unit u = default := by
    intro u hu
    rw [State.unit, Array.getD_eq_getD_getElem?, Array.getElem?_eq_none hu.ge]
    rfl
  refine ⟨rfl, rfl, rfl, rfl, rfl, rfl, fun u => ?_, fun u => ?_, fun u => ?_⟩
  all_goals
    rw [unit_addUnit]
    split
  · next h => rw [hmissing u h]; rfl
  · rfl
  · next h => rw [hmissing u h]; rfl
  · rfl
  · exact fun h => absurd h Bool.false_ne_true
  · exact fun _ => rfl

/-- Binding a unit extends the state by its declarations. -/
theorem bindDeclarations_extends {s : State} (hs : s.InOrder) {u : UnitId} (hu : u.index < s.units.size)
    (hlanguage : (s.unit languageUnit).isBound = true) : s.Extends (bindDeclarations u s).2 := by
  cases hnew : s.isUnbound u with
  | false =>
    rw [bindDeclarations_of_not_isUnbound hnew]
    exact (refl_of State.Stays s).extends
  | true =>
    have hunbound : (s.unit u).isBound = false := by
      by_contra hbound
      rw [Bool.not_eq_false] at hbound
      simp [State.isUnbound, hs.phases u hbound] at hnew
    have hne : u ≠ languageUnit := by
      rintro rfl
      exact absurd (hunbound.symm.trans hlanguage) Bool.false_ne_true
    have hgrows := s.scripted_grows u
    have hadds := scripted_adds hs.layout hu hunbound
    have hrest := hgrows.rest
    -- A unit that is not bound has no declarations.
    have hold : ∀ d, d.index < s.graph.decls.size → (s.graph.decl d).unit ≠ some u := by
      intro d hd hunit
      obtain ⟨n, -, hhas, -⟩ := hs.layout.grounded.origins d hd u hunit
      exact absurd (hunbound.symm.trans hhas.1) Bool.false_ne_true
    have hscripted : s.Extends (s.scripted u) := by
      refine ⟨hadds.size, hgrows.decl, fun d hd => hadds.old d hd (hold d hd), fun d hd hd' => ?_, fun k hk => ?_,
        fun v hv => ?_, fun v => ?_, fun v hv => ?_, congrArg (·.builtins) hrest, congrArg (·.types) hrest,
        hgrows.inferred, congrArg (·.checked) hrest⟩
      · obtain ⟨hunit, hnew⟩ := hadds.new d hd hd'
        exact ⟨⟨u, hne, hunit⟩, hnew⟩
      · refine hgrows.scopes k fun hku => ?_
        rw [hku] at hk
        exact absurd (hunbound.symm.trans hk) Bool.false_ne_true
      · rw [hgrows.others v (by rintro rfl; exact absurd (hunbound.symm.trans hv) Bool.false_ne_true),
          State.unit_begun hu]
        split
        · rfl
        · exact hv
      · refine (congrArg (·.imports) (hgrows.unit v)).trans ?_
        change ((s.begun u).unit v).imports = _
        rw [State.unit_begun hu]
        split <;> rfl
      · refine (congrArg (·.phase) (hgrows.unit v)).trans ?_
        change ((s.begun u).unit v).phase = _
        rw [State.unit_begun hu]
        split <;> rfl
    rw [bindDeclarations_of_isUnbound hnew]
    exact hscripted.stays (modifyUnit_stays u (g := fun unit => { unit with phase := .bound })
      (fun _ => rfl) (fun _ => rfl) (fun _ h => absurd h Bool.false_ne_true) (s.scripted u))

/-- What holds while a tree is loaded: no names of the program have been resolved yet. -/
structure State.Loaded (s : State) (ℓ : Leeway) : Prop extends s.Unchecked ℓ where
  reached : s.Reached
  early : ∀ u, u ≠ languageUnit → (s.unit u).phase.atLeast .namesResolved = false

/-- What has been loaded stays so when the state is extended. -/
theorem State.Loaded.extend {s s' : State} {ℓ : Leeway} (hs : s.Loaded ℓ) (h : s.Extends s') (hs' : s'.Reached) :
    s'.Loaded ℓ where
  toUnchecked := hs.toUnchecked.extend h
  reached := hs'
  early u hu := by
    by_contra hlate
    rw [Bool.not_eq_false] at hlate
    rw [h.phase u hlate, hs.early u hu] at hlate
    cases hlate

/-- Every action of loading leads from a loaded state to one. -/
theorem SourceTree.loadActions_loaded (t : SourceTree) (ℓ : Leeway) : t.LoadActions (·.Loaded ℓ) := by
  have h := t.loadActions_reached
  have stays : ∀ {α : Type} {m : Analyze α}, Leads (Keeps State.Reached) m → Leads State.Stays m →
      Leads (Keeps (·.Loaded ℓ)) m :=
    fun hm hstays s hs => hs.extend (hstays s).extends (hm s hs.reached)
  refine ⟨fun name => stays (h.package name) (ModuleSteps.packageNamed moduleSteps_stays name),
    fun m p => stays (h.own m p) (ModuleSteps.addPackage moduleSteps_stays m p),
    fun p f => stays (h.source p f) fun s => ?_, fun s u hu hs => ?_,
    fun u => stays (h.module u) (ModuleSteps.resolveModule moduleSteps_stays
      (modifyUnit_stays u (fun _ => rfl) (fun _ => rfl) fun _ => nofun) (fail_stays u)),
    fun s stack log trace hs => hs.extend (State.Stays.extends ?_) (h.walk s stack log trace hs.reached)⟩
  · -- A file with a syntax error is added all the same, and then fails.
    have hadded := addUnit_stays s f.path (t.reading f).unit p
    cases hfault : (t.reading f).fault with
    | none =>
      rw [addSource_of_no_fault t p f hfault]
      exact hadded
    | some e =>
      rw [addSource_of_fault t p f hfault]
      exact trans_of State.Stays hadded (fail_stays _ _ _)
  · exact hs.extend (bindDeclarations_extends hs.reached.inOrder hu hs.bound) (h.bind s u hu hs.reached)
  · exact ⟨rfl, rfl, rfl, rfl, rfl, rfl, fun _ => rfl, fun _ => rfl, fun _ _ => rfl⟩

/-! ## Units that have failed -/

/-- Every unit, but for pending ones, has been bound or has failed, and one that has failed has an error to
show for it. -/
structure State.Accounted (s : State) (pending : UnitId → Prop) : Prop where
  bound : ∀ u, u.index < s.units.size →
    pending u ∨ (s.unit u).isBound = true ∨ (s.unit u).failure.isSome = true
  failed : ∀ u, (s.unit u).failure.isSome = true → (s.unit u).diagnostics ≠ #[]
  errors : ∀ u, ∀ d ∈ (s.unit u).diagnostics, d.severity = .error

namespace State.Accounted

variable {s s' : State} {pending : UnitId → Prop} {u : UnitId}

/-- What is accounted for stays so, as the state advances. -/
theorem advances (hs : s.Accounted pending) (h : s.Advances s') : s'.Accounted pending where
  bound u hu := by
    rw [h.count] at hu
    rw [(h.units u).isBound]
    exact (hs.bound u hu).imp id (Or.imp id (h.units u).failure)
  failed u hu := ((h.units u).failed hu).elim (fun hu => (h.units u).diagnostics_ne (hs.failed u hu)) id
  errors u d hd := ((h.units u).found d hd).elim (hs.errors u d) id

/-- The unit that was pending has been bound or has failed. -/
theorem settle (hs : s.Accounted (· = u)) (hu : (s.unit u).isBound = true ∨ (s.unit u).failure.isSome = true) :
    s.Accounted fun _ => False where
  bound v hv := .inr ((hs.bound v hv).elim (fun h => h ▸ hu) id)
  failed := hs.failed
  errors := hs.errors

/-- A unit that has been added is pending. -/
theorem addUnit (hs : s.Accounted fun _ => False) (path : String) (tree : CompilationUnit) (package : PackageId) :
    (addUnit path tree package s).2.Accounted (· = ⟨s.units.size⟩) := by
  refine ⟨fun v hv => ?_, fun v hv => ?_, fun v d hd => ?_⟩
  · have hsize : v.index < s.units.size + 1 := by
      refine hv.trans_eq ?_
      exact Array.size_push _
    by_cases hlast : v.index = s.units.size
    · exact .inl (congrArg UnitId.mk hlast)
    · rw [unit_addUnit, if_neg hlast]
      exact (hs.bound v (by omega)).elim False.elim .inr
  · rw [unit_addUnit] at hv ⊢
    split at hv
    · cases hv
    · next h =>
      rw [if_neg h]
      exact hs.failed v hv
  · rw [unit_addUnit] at hd
    split at hd
    · simp at hd
    · exact hs.errors v d hd

/-- A unit that was pending is accounted for once it has been bound. -/
theorem bindDeclarations (hs : s.Accounted (· = u)) (hu : u.index < s.units.size) (hnew : s.isUnbound u = true) :
    (bindDeclarations u s).2.Accounted fun _ => False := by
  have hunit := unit_bindDeclarations hu hnew
  have hothers := fun v => unit_bindDeclarations_of_ne (s := s) (v := v) hu
  refine State.Accounted.settle (u := u) ⟨fun v hv => ?_, fun v hv => ?_, fun v d hd => ?_⟩
    (.inl (congrArg (·.isBound) hunit))
  -- The unit that is bound was the one not yet accounted for.  The others stay as they are.
  all_goals by_cases hvu : v = u
  · exact .inl hvu
  · rw [hothers v hvu]
    exact hs.bound v (size_bindDeclarations u s ▸ hv)
  · subst hvu
    rw [congrArg (·.diagnostics) hunit]
    exact hs.failed v ((congrArg (·.failure.isSome) hunit).symm.trans hv)
  · rw [hothers v hvu] at hv ⊢
    exact hs.failed v hv
  · subst hvu
    rw [congrArg (·.diagnostics) hunit] at hd
    exact hs.errors v d hd
  · rw [hothers v hvu] at hd
    exact hs.errors v d hd

end State.Accounted

/-- A unit that is read is bound at once, unless it cannot be parsed. -/
theorem SourceTree.loadKeeps_accounted (t : SourceTree) : t.LoadKeeps fun s => s.Accounted fun _ => False where
  package name s hs := hs.advances (packageNamed_advances name s)
  own m p s hs := hs.advances (addPackage_advances m p s)
  walk _ _ _ _ hs := ⟨hs.bound, hs.failed, hs.errors⟩
  file p f s hs := by
    have hadded := hs.addUnit f.path (t.reading f).unit p
    have hunit := unit_added p s f.path (t.reading f).unit
    have hvalid : s.units.size < (addUnit f.path (t.reading f).unit p s).2.units.size :=
      (Nat.lt_succ_self _).trans_eq (Array.size_push _).symm
    rw [bind_apply, addSource_fst]
    -- A file that can be read is bound at once, and one that cannot has failed.
    cases hfault : (t.reading f).fault with
    | none =>
      rw [addSource_of_no_fault t p f hfault]
      generalize (addUnit f.path (t.reading f).unit p s).2 = s' at hadded hunit hvalid ⊢
      have hnew : s'.isUnbound ⟨s.units.size⟩ = true := by
        rw [State.isUnbound, hunit]
        rfl
      have hbound := State.Accounted.bindDeclarations
        (s := { s' with trace := s'.trace.push ⟨true, s'.span ⟨s.units.size⟩ .bound⟩ })
        ⟨hadded.bound, hadded.failed, hadded.errors⟩ hvalid hnew
      refine SourceTree.declareModule_keeps (fun _ _ hs => ⟨hs.bound, hs.failed, hs.errors⟩)
        (fun _ hs => hs.advances (resolveModule_advances _ _)) (fun hfailed => ?_) hbound
      rw [hunit] at hfailed
      exact absurd hfailed Bool.false_ne_true
    | some e =>
      have hfailed := isSome_failure_fail (u := ⟨s.units.size⟩) hvalid (.unparsable e)
      rw [addSource_of_fault t p f hfault, declareModule_of_failure hfailed]
      exact (hadded.advances (fail_refines _ _ _).toAdvances).settle (.inr hfailed)

/-- Loading keeps states loaded, and accounts for every unit. -/
theorem SourceTree.loadKeeps_loaded (t : SourceTree) (ℓ : Leeway) :
    t.LoadKeeps fun s => s.Loaded ℓ ∧ s.Accounted fun _ => False :=
  have hloaded := (t.loadActions_loaded ℓ).keeps
  have haccounted := t.loadKeeps_accounted
  { package := fun name s hs => ⟨hloaded.package name s hs.1, haccounted.package name s hs.2⟩
    own := fun m p s hs => ⟨hloaded.own m p s hs.1, haccounted.own m p s hs.2⟩
    file := fun p f s hs => ⟨hloaded.file p f s hs.1, haccounted.file p f s hs.2⟩
    walk := fun s stack log trace hs =>
      ⟨hloaded.walk s stack log trace hs.1, haccounted.walk s stack log trace hs.2⟩ }

end Ceylon.Analysis
