import Ceylon.Proofs.Formation
import Ceylon.Proofs.WriteOnce

/-!
# Names that are found by an import

Looking a name up outward may end at an import of the unit: at the package, if no scope further in has a member of
that name (`Graph.importFor?`).  Such a name stands for the imported declaration.  Declaring more can only give an
inner scope a member of the name, and a unit whose names are resolved keeps its imports (`Job.carries`).  So a name
that is found by an import has been found by it ever since the names of the unit were resolved
(`State.Carries.importFor?`).
-/

namespace Ceylon

namespace Model

/-- A filter that looks at the kinds of declarations only. -/
def Filter.OfKind (filter : Filter) : Prop :=
  ∀ d d' : Declaration, d.shape.kind = d'.shape.kind → filter d = filter d'

/-- Looking for types tells declarations apart by their kind. -/
theorem Filter.types_ofKind : Filter.OfKind .types := by
  intro d d' h
  simp only [Filter.types]
  cases hd : d.shape <;> cases hd' : d'.shape <;> simp_all [Shape.kind, Shape.isType]

/-- Looking for values tells declarations apart by their kind. -/
theorem Filter.values_ofKind : Filter.OfKind .values :=
  fun d d' h => congrArg not (Filter.types_ofKind d d' h)

namespace Graph

/-- The import that counts in a scope under a name: at a package, the one of that name, if what it imports passes the
filter. -/
def importAt? (g : Graph) (σ : ScopeId) (imports : List Imported) (name : String) (filter : Filter) :
    Option Imported :=
  match σ with
  | .package _ => (imports.find? fun i => i.localName == name).filter fun i => filter (g.decl i.decl)
  | _ => none

/-- The import by way of which a name is found, if it is found by one. -/
def importFor? (g : Graph) (imports : List Imported) (name : String) (filter : Filter) : ScopeChain → Option Imported
  | [] => none
  | σ :: outer =>
    g.importAt? σ imports name filter
      <|> if (g.directMember? σ name filter).isSome then none else g.importFor? imports name filter outer

section

variable {g : Graph} {imports : List Imported} {name : String} {filter : Filter} {i : Imported}

/-- What is imported under a name is the declaration of the import that is found. -/
theorem importedAt?_eq_map (σ : ScopeId) :
    g.importedAt? σ imports name filter = (g.importAt? σ imports name filter).map (·.decl) := by
  cases σ with
  | package p =>
    simp only [importedAt?, imported?, importAt?]
    cases imports.find? fun i => i.localName == name with
    | none => rfl
    | some i => cases h : filter (g.decl i.decl) <;> simp [Option.filter, h]
  | block b => rfl
  | decl d => rfl

/-- The import that is found is one of those of the unit, under that name. -/
theorem mem_of_importAt? {σ : ScopeId} (h : g.importAt? σ imports name filter = some i) :
    i ∈ imports ∧ i.localName = name := by
  cases σ with
  | package p =>
    have hfind := (Option.filter_eq_some_iff.mp h).1
    have hname : (i.localName == name) = true := List.find?_some (p := fun i : Imported => i.localName == name) hfind
    exact ⟨List.mem_of_find?_eq_some hfind, beq_iff_eq.mp hname⟩
  | block b => cases h
  | decl d => cases h

/-- A name is found in a scope by an import, or further out if the scope has no member of that name. -/
theorem importFor?_cons {σ : ScopeId} {outer : ScopeChain} :
    g.importFor? imports name filter (σ :: outer) = some i ↔ g.importAt? σ imports name filter = some i ∨
      g.importAt? σ imports name filter = none ∧ g.directMember? σ name filter = none ∧
        g.importFor? imports name filter outer = some i := by
  rw [importFor?, Option.orElse_eq_orElse, Option.orElse_eq_or, Option.or_eq_some_iff]
  cases g.directMember? σ name filter <;> simp

/-- The import that is found in some scopes is one of those of the unit, under that name. -/
theorem mem_of_importFor? {c : ScopeChain} (h : g.importFor? imports name filter c = some i) :
    i ∈ imports ∧ i.localName = name := by
  induction c with
  | nil => cases h
  | cons σ outer ih =>
    rcases importFor?_cons.mp h with h | ⟨-, -, h⟩
    · exact mem_of_importAt? h
    · exact ih h

/-- A name that is found by an import stands for what is imported. -/
theorem lookup?_of_importFor? {c : ScopeChain} (h : g.importFor? imports name filter c = some i) :
    g.lookup? imports name filter c = some i.decl := by
  induction c with
  | nil => cases h
  | cons σ outer ih =>
    rw [lookup?, importedAt?_eq_map]
    rcases importFor?_cons.mp h with h | ⟨hnone, hmember, h⟩
    · rw [h]
      rfl
    · rw [hnone, hmember]
      exact ih h

end

/-! ## Declaring more -/

/-- From the first graph to the second, declarations may have been added, and those that were there have kept their
names, their kinds and the scopes that they are members of. -/
structure Widens (g g' : Graph) : Prop where
  size : g.decls.size ≤ g'.decls.size
  name : ∀ d, d.index < g.decls.size → (g'.decl d).name = (g.decl d).name
  kind : ∀ d, d.index < g.decls.size → (g'.decl d).shape.kind = (g.decl d).shape.kind
  members : ∀ σ, ∀ d ∈ g.membersOf σ, d ∈ g'.membersOf σ

instance : IsPreorder Graph Widens where
  refl _ := ⟨le_rfl, fun _ _ => rfl, fun _ _ => rfl, fun _ _ => id⟩
  trans _ _ _ h h' := ⟨h.size.trans h'.size, fun d hd => (h'.name d (hd.trans_le h.size)).trans (h.name d hd),
    fun d hd => (h'.kind d (hd.trans_le h.size)).trans (h.kind d hd), fun σ d => h'.members σ d ∘ h.members σ d⟩

/-- A new declaration widens the graph. -/
theorem widens_declare (g : Graph) (d : Declaration) : g.Widens (g.declare d).2 where
  size := by simp [declare]
  name e he := by rw [g.decl_declare_of_lt d he]
  kind e he := by rw [g.decl_declare_of_lt d he]
  members σ e he := by
    cases hscope : d.scope with
    | nil =>
      simp only [declare, membersOf, hscope]
      exact he
    | cons s outer =>
      simp only [declare, membersOf, hscope, Std.ExtTreeMap.getD_insert, Std.LawfulEqOrd.compare_eq_iff_eq]
      split
      · next hs =>
        subst hs
        exact Array.mem_push_of_mem _ he
      · exact he

/-- Changing a shape widens the graph if the kind stays. -/
theorem widens_modifyShape (g : Graph) (d : DeclId) {f : Shape → Shape} (hf : ∀ shape, (f shape).kind = shape.kind) :
    g.Widens (g.modifyShape d f) where
  size := by simp [modifyShape, modifyDecl]
  name e _ := by
    rw [modifyShape, decl_modifyDecl]
    split <;> rfl
  kind e _ := by
    rw [modifyShape, decl_modifyDecl]
    split
    · exact hf _
    · rfl
  members _ _ := id

/-- A graph widens what binding has made of it. -/
theorem widens_of_bound (g : Graph) : g.bound.Widens g := by
  have hdecl : ∀ d, g.bound.decl d = (g.decl d).bound := by
    intro d
    simp only [Graph.bound, Graph.decl, Array.getD_eq_getD_getElem?, Array.getElem?_map]
    cases g.decls[d.index]? <;> rfl
  refine ⟨?_, fun d _ => ?_, fun d _ => ?_, fun σ d => id⟩
  · simp [Graph.bound]
  · rw [hdecl]
    rfl
  · rw [hdecl]
    exact (Shape.kind_bound _).symm

/-- A name that is found by an import has been found by it before more was declared. -/
theorem Widens.importFor? {g g' : Graph} (h : g.Widens g') (hmembers : ∀ σ, ∀ d ∈ g.membersOf σ, d.index < g.decls.size)
    {imports : List Imported} (himports : ∀ i ∈ imports, i.decl.index < g.decls.size) {name : String} {filter : Filter}
    (hfilter : filter.OfKind) {c : ScopeChain} {i : Imported}
    (hi : g'.importFor? imports name filter c = some i) : g.importFor? imports name filter c = some i := by
  -- The imports are the same, and their declarations have the same kinds.
  have hat : ∀ σ, g'.importAt? σ imports name filter = g.importAt? σ imports name filter := by
    intro σ
    cases σ with
    | package p =>
      simp only [importAt?]
      cases hfind : imports.find? fun i => i.localName == name with
      | none => rfl
      | some j =>
        have hj := hfilter _ _ (h.kind j.decl (himports j (List.mem_of_find?_eq_some hfind)))
        simp only [Option.filter, hj]
    | block b => rfl
    | decl d => rfl
  -- A scope without such a member had none before.
  have hmember : ∀ σ, g'.directMember? σ name filter = none → g.directMember? σ name filter = none := by
    intro σ hnone
    simp only [directMember?, Array.find?_eq_none] at hnone ⊢
    intro d hd
    have hvalid := hmembers σ d hd
    have hd' := hnone d (h.members σ d hd)
    rwa [h.name d hvalid, hfilter _ _ (h.kind d hvalid)] at hd'
  induction c with
  | nil => exact hi
  | cons σ outer ih =>
    rw [importFor?_cons, hat] at hi
    exact importFor?_cons.mpr (hi.imp id fun ⟨hnone, hnot, hi⟩ => ⟨hnone, hmember σ hnot, ih hi⟩)

end Graph

end Model

namespace Analysis

open Model Syntax

/-- The import by way of which a name is found at a place in a unit. -/
def State.importFor? (s : State) (u : UnitId) (m : Mark) (name : String) (filter : Filter) : Option Imported :=
  s.graph.importFor? (s.unit u).imports name filter (s.scopeAt u m)

/-- A name that is found by an import at a place in a unit stands there for what is imported. -/
theorem State.lookup?_of_importFor? {s : State} {u : UnitId} {m : Mark} {name : String} {filter : Filter}
    {i : Imported} (h : s.importFor? u m name filter = some i) :
    s.lookup? u (s.scopeAt u m) name filter = some i.decl := by
  rw [lookup?, lookupWith?, importsOf, Graph.lookup?_of_importFor? h]
  rfl

/-- The names of a unit have been resolved. -/
abbrev State.IsNamed (s : State) (u : UnitId) : Prop :=
  (s.unit u).phase.atLeast .namesResolved = true

/-- From the first state to the second, declarations may have been added, and units whose names were resolved have
kept what names in them depend on. -/
structure State.Carries (s s' : State) : Prop where
  graph : s.graph.Widens s'.graph
  named : ∀ u, s.IsNamed u → s'.IsNamed u
  tree : ∀ u, s.IsNamed u → (s'.unit u).tree = (s.unit u).tree
  imports : ∀ u, s.IsNamed u → (s'.unit u).imports = (s.unit u).imports
  isBound : ∀ u, s.IsNamed u → (s'.unit u).isBound = (s.unit u).isBound
  scopes : ∀ k : NodeId, s.IsNamed k.unit → s'.scopes[k]? = s.scopes[k]?

section

variable {s s' : State} {u v : UnitId}

/-- A unit whose names have been resolved is one of the units. -/
theorem State.valid_of_isNamed (h : s.IsNamed u) : u.index < s.units.size := by
  by_contra hinvalid
  rw [State.IsNamed, State.unit_of_invalid hinvalid] at h
  cases h

/-- What leaves places alone widens the graph by nothing. -/
theorem State.SamePlaces.widens (h : s.SamePlaces s') : s.graph.Widens s'.graph where
  size := h.size.ge
  name d _ := congrArg (·.name) (h.decl d)
  kind d _ := h.kind d
  members σ d hd := by rwa [Graph.membersOf, h.members]

/-- A state that advances carries imports on, if named units keep theirs. -/
theorem State.Advances.carries (h : s.Advances s') (hnamed : ∀ u, s.IsNamed u → s'.IsNamed u)
    (himports : ∀ u, s.IsNamed u → (s'.unit u).imports = (s.unit u).imports) : s.Carries s' where
  graph := h.widens
  named := hnamed
  tree u _ := (h.units u).tree
  imports := himports
  isBound u _ := (h.units u).isBound
  scopes k _ := by rw [h.scopes]

/-- A name that is found by an import of a unit whose names were resolved has been found by it before. -/
theorem State.Carries.importFor? (h : s.Carries s') (hs : s.Layout) (hu : s.IsNamed u)
    (himports : ∀ i ∈ (s.unit u).imports, i.decl.index < s.graph.decls.size) {m : Mark} {name : String}
    {filter : Filter} (hfilter : filter.OfKind) {i : Imported} (hi : s'.importFor? u m name filter = some i) :
    s.importFor? u m name filter = some i := by
  have hscope : s'.scopeAt u m = s.scopeAt u m := by
    rw [State.scopeAt, State.scopeAt, Std.ExtTreeMap.getD_eq_getD_getElem?, Std.ExtTreeMap.getD_eq_getD_getElem?,
      h.scopes ⟨u, m.id⟩ hu]
  rw [State.importFor?, h.imports u hu, hscope] at hi
  exact h.graph.importFor? (fun σ d hd => (hs.grounded.members σ d hd).1) himports hfilter hi

end

/-! ## Jobs that neither resolve names nor check -/

/-- From the first state to the second, declarations may have been added, and nothing is known that resolving names or
checking finds out. -/
structure State.Retains (s s' : State) : Prop where
  graph : s.graph.Widens s'.graph
  targets : s'.targets = s.targets
  refs : s'.types.refs = s.types.refs
  checked : s'.checked = s.checked
  imports : ∀ u, (s'.unit u).imports = (s.unit u).imports
  phase : ∀ u, s'.IsNamed u → (s'.unit u).phase = (s.unit u).phase

instance : IsPreorder State State.Retains where
  refl _ := ⟨refl_of Graph.Widens _, rfl, rfl, rfl, fun _ => rfl, fun _ _ => rfl⟩
  trans _ _ _ h h' := ⟨trans_of Graph.Widens h.graph h'.graph, h'.targets.trans h.targets, h'.refs.trans h.refs,
    h'.checked.trans h.checked, fun u => (h'.imports u).trans (h.imports u),
    fun u hu => (h'.phase u hu).trans (h.phase u (by rwa [State.IsNamed, ← h'.phase u hu]))⟩

section

variable {s : State} {u : UnitId}

/-- A state that stays retains what is imported if members and targets stay. -/
theorem State.Stays.retains {s' : State} (h : s.Stays s') (hmembers : s'.graph.members = s.graph.members)
    (htargets : s'.targets = s.targets) : s.Retains s' where
  graph := by
    have hdecl : ∀ d, s'.graph.decl d = s.graph.decl d := fun d => by rw [Graph.decl, h.decls, Graph.decl]
    exact ⟨(congrArg Array.size h.decls).ge, fun d _ => by rw [hdecl], fun d _ => by rw [hdecl],
      fun σ d hd => by rwa [Graph.membersOf, hmembers]⟩
  targets := htargets
  refs := congrArg (·.refs) h.types
  checked := h.checked
  imports := h.imports
  phase := h.phase

/-- Changing a unit retains its imports if the change does. -/
theorem modifyUnit_retains (u : UnitId) {g : UnitState → UnitState} (himports : ∀ unit, (g unit).imports = unit.imports)
    (hphase : ∀ unit, (g unit).phase.atLeast .namesResolved = true → (g unit).phase = unit.phase) :
    Leads State.Retains (modifyUnit u g) := by
  intro s
  change s.Retains { s with units := s.units.modify u.index g }
  refine ⟨refl_of Graph.Widens _, rfl, rfl, rfl, fun v => ?_, fun v hv => ?_⟩
  · rw [State.unit_modify]
    split
    · exact himports _
    · rfl
  · rw [State.IsNamed, State.unit_modify] at hv
    rw [State.unit_modify]
    split at hv
    · next h =>
      rw [if_pos h]
      exact hphase _ hv
    · next h => rw [if_neg h]

/-- Setting an early phase retains what is imported. -/
theorem setPhase_retains (u : UnitId) {phase : Phase} (hphase : phase.atLeast .namesResolved = false) :
    Leads State.Retains (setPhase u phase) :=
  modifyUnit_retains u (fun _ => rfl) fun _ h => absurd (hphase.symm.trans h) Bool.false_ne_true

/-- Resolving modules retains what is imported. -/
theorem moduleSteps_retains : ModuleSteps State.Retains where
  log u phase message s := (moduleSteps_stays.log u phase message s).retains rfl rfl
  report u n message s := (moduleSteps_stays.report u n message s).retains rfl rfl
  modules s p m d t := (moduleSteps_stays.modules s p m d t).retains rfl rfl

/-- A step of binding retains what is imported. -/
theorem binding_perform_retains (step : BindStep) : Leads State.Retains (Binding.perform u step) := by
  -- Only the graph, the declarations and the scopes change, and the graph only widens.
  have hgraph : ∀ (s : State) graph decls scopes, s.graph.Widens graph →
      s.Retains { s with graph, decls, scopes } :=
    fun s _ _ _ h => ⟨h, rfl, rfl, rfl, fun _ => rfl, fun _ _ => rfl⟩
  cases step with
  | record m scope => exact fun s => hgraph s _ _ _ (refl_of Graph.Widens s.graph)
  | declare node name shared shape scope =>
    refine .bind (fun s => hgraph s _ _ _ (s.graph.widens_declare _)) fun d => .bind ?_ fun _ => .pure d
    unfold Binding.listDeclaration
    split
    · exact modifyUnit_retains u (fun _ => rfl) fun _ _ => rfl
    · exact .pure ()
  | openBody clause scope => exact fun s => hgraph s _ _ _ ⟨le_rfl, fun _ _ => rfl, fun _ _ => rfl, fun _ _ => id⟩
  | addTypeParam owner d =>
    exact fun s => hgraph s _ _ _ (s.graph.widens_modifyShape owner fun shape => by cases shape <;> rfl)
  | setParams owner ds =>
    exact fun s => hgraph s _ _ _ (s.graph.widens_modifyShape owner fun shape => by cases shape <;> rfl)
  | getter scope name => exact fun s => refl_of State.Retains s
  | join getter setter =>
    exact fun s => hgraph s _ _ _ (s.graph.widens_modifyShape getter fun shape => by cases shape <;> rfl)

/-- Binding retains what is imported. -/
theorem bindDeclarations_retains : Leads State.Retains (bindDeclarations u) := by
  refine .get_bind fun s => ?_
  simp only
  split
  · exact .pure ()
  · exact .bind (moduleSteps_retains.log u _ _) fun _ =>
      .bind (modifyUnit_retains u (fun _ => rfl) fun _ _ => rfl) fun _ =>
      .bind (.run binding_perform_retains _) fun _ => setPhase_retains u rfl

end

namespace Job

/-- Whether a job resolves no names and checks nothing. -/
def isQuiet : Job → Bool
  | .pass ⟨.names, _⟩ => false
  | .pass ⟨.check, _⟩ => false
  | _ => true

/-- A quiet job retains what is imported. -/
theorem retains {j : Job} (hj : j.isQuiet = true) : Leads State.Retains j.run := by
  have hfail : ∀ u failure, Leads State.Retains (Analysis.fail u failure) :=
    fun u failure => modifyUnit_retains u (fun _ => rfl) fun _ _ => rfl
  cases j with
  | package name => exact (moduleSteps_retains.packageNamed name).discard
  | own m p => exact moduleSteps_retains.addPackage m p
  | dependency m dep => exact moduleSteps_retains.addDependency m dep
  | unit path source glyphs p => exact fun s => (addUnit_stays s path _ p).retains rfl rfl
  | builtins p =>
    exact fun s => ⟨s.graph.widens_declare _, rfl, rfl, rfl, fun _ => rfl, fun _ _ => rfl⟩
  | fail u failure => exact hfail u failure
  | pass c =>
    obtain ⟨p, u⟩ := c
    cases p with
    | bind => exact bindDeclarations_retains
    | module =>
      exact (moduleSteps_retains.resolveModule (setPhase_retains u rfl) (hfail u)).discard
    | names => cases hj
    | check => cases hj
  | dependencies => exact moduleSteps_retains.resolveDependencies
  | journal stack log trace => exact fun s => ⟨refl_of Graph.Widens _, rfl, rfl, rfl, fun _ => rfl, fun _ _ => rfl⟩

/-- No job takes a unit back to an earlier phase, or takes back that it has failed. -/
theorem onward {j : Job} {s : State} {u : UnitId} (hj : j.Fits s) (hu : u.index < s.units.size) :
    (s.unit u).phase.rank ≤ ((j.run s).2.unit u).phase.rank ∧
      ((s.unit u).failure.isSome = true → ((j.run s).2.unit u).failure.isSome = true) := by
  -- Most jobs leave all phases and failures alone.
  have hsame : ∀ {s' : State}, s.SamePhases s' → (s.unit u).phase.rank ≤ (s'.unit u).phase.rank ∧
      ((s.unit u).failure.isSome = true → (s'.unit u).failure.isSome = true) := by
    intro s' h
    rw [h.phase, h.failure]
    exact ⟨le_rfl, id⟩
  cases j with
  | package name => exact hsame ((moduleSteps_samePhases.packageNamed name).discard s)
  | own m p => exact hsame (moduleSteps_samePhases.addPackage m p s)
  | dependency m dep => exact hsame (moduleSteps_samePhases.addDependency m dep s)
  | unit path source glyphs p =>
    have hunit : ((Job.unit path source glyphs p).run s).2.unit u = s.unit u :=
      (unit_addUnit s path (readUnit source glyphs).unit p u).trans (if_neg hu.ne)
    rw [hunit]
    exact ⟨le_rfl, id⟩
  | builtins p => exact ⟨le_rfl, id⟩
  | fail v failure =>
    rw [show ((Job.fail v failure).run s).2.unit u = _ from s.unit_modify v u _]
    split
    · exact ⟨le_rfl, fun _ => rfl⟩
    · exact ⟨le_rfl, id⟩
  | pass c =>
    obtain ⟨p, v⟩ := c
    by_cases hv : v.index < s.units.size
    · exact ⟨(State.onward_run hv).phase u, (State.onward_run hv).failed u⟩
    · cases p with
      | bind => exact absurd hj hv
      | module => exact hsame (samePhases_of_units (congrArg (·.units) (resolveModule_of_invalid hv)))
      | names => exact hsame (samePhases_of_units (congrArg (·.units) (resolveNames_of_invalid hv)))
      | check =>
        refine hsame (samePhases_of_units (congrArg (·.units) (checkExpressions_of_settled (.inr ?_))))
        rw [State.unit_of_invalid hv]
        decide
  | dependencies => exact hsame (moduleSteps_samePhases.resolveDependencies s)
  | journal stack log trace => exact ⟨le_rfl, id⟩

/-- No job takes a unit back to before its names were resolved. -/
theorem named {j : Job} {s : State} {u : UnitId} (hj : j.Fits s) (hu : s.IsNamed u) : (j.run s).2.IsNamed u := by
  have hphase := (onward hj (State.valid_of_isNamed hu)).1
  rw [State.IsNamed, Phase.atLeast_iff] at hu ⊢
  exact hu.trans hphase

/-- No job takes a unit back to before it was decided whether its names can be resolved. -/
theorem settled {j : Job} {s : State} {u : UnitId} (hj : j.Fits s) (hu : s.isSettled u) : (j.run s).2.isSettled u := by
  have hvalid : u.index < s.units.size := by
    by_contra hinvalid
    rw [State.isSettled, State.unit_of_invalid hinvalid] at hu
    cases hu
  rw [State.isSettled, Bool.or_eq_true] at hu ⊢
  exact hu.imp (onward hj hvalid).2 (named hj)

end Job

/-! ## What all jobs keep -/

/-- In both states units import the same. -/
def State.SameImports (s s' : State) : Prop :=
  ∀ u, (s'.unit u).imports = (s.unit u).imports

instance : IsPreorder State State.SameImports where
  refl _ _ := rfl
  trans _ _ _ h h' u := (h' u).trans (h u)

section

variable {s : State} {u v : UnitId}

/-- A state carries its own imports on. -/
theorem State.Carries.refl (s : State) : s.Carries s :=
  (refl_of State.Advances s).carries (fun _ => id) fun _ _ => rfl

/-- Binding a unit does not concern the units whose names are resolved. -/
theorem bindDeclarations_carries (hu : u.index < s.units.size) : s.Carries (bindDeclarations u s).2 := by
  cases hnew : s.isUnbound u with
  | false =>
    rw [bindDeclarations_of_not_isUnbound hnew]
    exact .refl s
  | true =>
    -- A unit whose names have been resolved is bound, so it is not the one that is bound now.
    have hne : ∀ v, s.IsNamed v → v ≠ u := by
      rintro v hv rfl
      simp only [State.isUnbound, Bool.not_or, Bool.and_eq_true, Bool.not_eq_true'] at hnew
      have hrank : Phase.bound.rank ≤ (s.unit v).phase.rank := le_trans (by decide) (Phase.atLeast_iff.mp hv)
      cases hnew.2.symm.trans (Phase.atLeast_iff.mpr hrank)
    have hgrows := s.scripted_grows u
    have hunit : ∀ v, s.IsNamed v → (bindDeclarations u s).2.unit v = s.unit v := by
      intro v hv
      rw [bindDeclarations_of_isUnbound hnew]
      refine ((s.scripted u).unit_modify u v _).trans ?_
      rw [if_neg fun h => hne v hv h.1.symm, hgrows.others v (hne v hv), State.unit_begun hu, if_neg (hne v hv).symm]
    refine ⟨(bindDeclarations_retains s).graph, fun v hv => ?_, fun v hv => by rw [hunit v hv],
      fun v hv => by rw [hunit v hv], fun v hv => by rw [hunit v hv], fun k hk => ?_⟩
    · rwa [State.IsNamed, hunit v hv]
    · rw [bindDeclarations_of_isUnbound hnew]
      exact hgrows.scopes k fun hku => absurd hku (hne _ hk)

/-- Changing a unit leaves all imports if it leaves those of the unit. -/
theorem modifyUnit_sameImports (u : UnitId) {g : UnitState → UnitState}
    (himports : ∀ unit, (g unit).imports = unit.imports) : Leads State.SameImports (modifyUnit u g) := by
  intro s v
  refine (congrArg (·.imports) (s.unit_modify u v g)).trans ?_
  split
  · exact himports _
  · rfl

/-- The steps of checking leave the imports. -/
theorem checkSteps_sameImports : CheckSteps State.SameImports where
  report u n message s := (moduleSteps_retains.report u n message s).imports
  tables _ _ _ _ _ _ _ _ := rfl

/-- Checking a unit leaves the imports. -/
theorem checkExpressions_sameImports (u : UnitId) : Leads State.SameImports (checkExpressions u) := by
  refine .get_bind fun s => ?_
  simp only
  split
  · exact .pure ()
  · exact .bind (fun s => (moduleSteps_retains.log u _ _ s).imports) fun _ =>
      .bind (checkSteps_sameImports.performTask _ _ _ _) fun _ => modifyUnit_sameImports u fun _ => rfl

/-- Resolving names leaves the imports of units whose names have been resolved. -/
theorem resolveNames_imports (hs : s.Owned) (hv : s.IsNamed v) :
    ((resolveNames u s).2.unit v).imports = (s.unit v).imports := by
  by_cases hvu : v = u
  · subst hvu
    rw [resolveNames_of_settled (.inr hv)]
  · exact congrArg (·.imports) ((resolved_touches hs u).unit v hvu)

end

/-- Whatever is done, units whose names were resolved keep what names in them depend on. -/
theorem Job.carries {j : Job} {s : State} (hj : j.Fits s) (hs : s.InOrder) : s.Carries (j.run s).2 := by
  have hnamed := fun u (hu : s.IsNamed u) => Job.named hj hu
  -- Jobs that bind nothing and resolve no names change no imports.
  have hquiet : ∀ {j : Job}, j.isQuiet = true → s.Advances (j.run s).2 →
      (∀ u, s.IsNamed u → (j.run s).2.IsNamed u) → s.Carries (j.run s).2 :=
    fun h hadvances hnamed => hadvances.carries hnamed fun u _ => (Job.retains h s).imports u
  cases j with
  | package name => exact hquiet rfl ((packageNamed_advances name).discard s) hnamed
  | own m p => exact hquiet rfl (addPackage_advances m p s) hnamed
  | dependency m dep => exact hquiet rfl (addDependency_advances m dep s) hnamed
  | unit path source glyphs p =>
    have hunit : ∀ u, s.IsNamed u → ((Job.unit path source glyphs p).run s).2.unit u = s.unit u := by
      intro u hu
      exact (unit_addUnit s path _ p u).trans (if_neg (State.valid_of_isNamed hu).ne)
    exact ⟨refl_of Graph.Widens _, hnamed, fun u hu => by rw [hunit u hu], fun u hu => by rw [hunit u hu],
      fun u hu => by rw [hunit u hu], fun _ _ => rfl⟩
  | builtins p =>
    exact ⟨s.graph.widens_declare _, hnamed, fun _ _ => rfl, fun _ _ => rfl, fun _ _ => rfl, fun _ _ => rfl⟩
  | fail u failure => exact hquiet rfl (fail_refines u failure s).toAdvances hnamed
  | pass c =>
    obtain ⟨p, u⟩ := c
    cases p with
    | bind => exact bindDeclarations_carries hj
    | module => exact hquiet rfl ((resolveModule_advances u).discard s) hnamed
    | names =>
      exact ((resolveNames_refines u).discard s).toAdvances.carries hnamed fun v hv => resolveNames_imports hs.owned hv
    | check =>
      exact (checkExpressions_refines u s).toAdvances.carries hnamed fun v _ => checkExpressions_sameImports u s v
  | dependencies => exact hquiet rfl (resolveDependencies_advances s) hnamed
  | journal stack log trace =>
    exact hquiet rfl ⟨⟨rfl, rfl, rfl, fun _ => rfl, rfl, rfl⟩, rfl, fun u => .refl _⟩ hnamed

end Analysis

end Ceylon
