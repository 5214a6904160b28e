import Ceylon.Proofs.Actions

/-!
# The states of an analysis

An analysis begins with the language module and goes on by adding units, binding them, and resolving and
checking them, in any order (`State.Reached`).  All its states are laid out, and units count as bound from
the phase on in which they are (`State.Reached.inOrder`).
-/

namespace Ceylon.Analysis

open Model Syntax

/-- A state that is laid out, and whose bound units, and only those, list declarations and have reached the
phase of that name. -/
structure State.InOrder (s : State) : Prop where
  layout : s.Layout
  phases : ∀ u, (s.unit u).isBound → (s.unit u).phase.atLeast .bound
  unlisted : ∀ u, (s.unit u).isBound = false → (s.unit u).declarations = #[]

/-- The units after one has been added. -/
theorem unit_addUnit (s : State) (path : String) (tree : CompilationUnit) (package : PackageId)
    (u : UnitId) : (addUnit path tree package s).2.unit u =
      if u.index = s.units.size then { path, tree, package } else s.unit u := by
  change (s.units.push { path, tree, package }).getD u.index default = _
  rw [Array.getD_eq_getD_getElem?, Array.getElem?_push]
  split
  · rfl
  · rw [← Array.getD_eq_getD_getElem?]
    rfl

theorem isBound_addUnit (s : State) (path : String) (tree : CompilationUnit) (package : PackageId)
    {u : UnitId} (hu : ((addUnit path tree package s).2.unit u).isBound) :
    (addUnit path tree package s).2.unit u = s.unit u := by
  rw [unit_addUnit] at hu ⊢
  split at hu
  · cases hu
  · next hne => rw [if_neg hne]

/-- A bound unit is one of the units of the state. -/
theorem State.valid_of_isBound {s : State} {u : UnitId} (h : (s.unit u).isBound) :
    u.index < s.units.size := by
  by_contra hinvalid
  rw [State.unit, Array.getD_eq_getD_getElem?, Array.getElem?_eq_none (by omega)] at h
  cases h

namespace State.InOrder

variable {s s' : State}

theorem advances (hs : s.InOrder) (h : s.Advances s') : s'.InOrder where
  layout := h.sameLayout.layout hs.layout
  phases u hu := (h.units u).phase (hs.phases u ((h.units u).isBound ▸ hu))
  unlisted u hu := (h.units u).declarations.trans (hs.unlisted u ((h.units u).isBound ▸ hu))

/-- An unbound unit has nothing to lay out. -/
theorem addUnit (hs : s.InOrder) (path : String) {tree : CompilationUnit} (htree : tree.Numbered)
    (package : PackageId) : (addUnit path tree package s).2.InOrder := by
  have hplaces : s.SamePlaces (Analysis.addUnit path tree package s).2 :=
    ⟨rfl, rfl, rfl, fun _ => rfl, rfl, rfl⟩
  have hbound := fun u => isBound_addUnit s path tree package (u := u)
  have hhas : ∀ u n, s.HasNode u n → (Analysis.addUnit path tree package s).2.HasNode u n := by
    rintro u n ⟨hu, hn⟩
    have hvalid := valid_of_isBound hu
    rw [HasNode, unit_addUnit, if_neg hvalid.ne]
    exact ⟨hu, hn⟩
  -- The new unit is not bound yet, so nothing is asked of its nodes.
  refine ⟨⟨fun u => ?_, hplaces.grounded hhas hs.layout.grounded, fun u n hn => ?_⟩, fun u hu => ?_,
    fun u hu => ?_⟩
  · rw [unit_addUnit]
    split
    · exact htree
    · exact hs.layout.numbered u
  · have hpackage := congrArg (·.package) (hbound u hn.1)
    rw [HasNode, hbound u hn.1] at hn
    exact hplaces.placed hpackage (hs.layout.placed u n hn)
  · have hsame := hbound u hu
    rw [hsame] at hu ⊢
    exact hs.phases u hu
  · rw [unit_addUnit] at hu ⊢
    split at hu
    · next h => rw [if_pos h]
    · next h =>
      rw [if_neg h]
      exact hs.unlisted u hu

theorem bindDeclarations (hs : s.InOrder) {u : UnitId} (hu : u.index < s.units.size) :
    (bindDeclarations u s).2.InOrder := by
  cases hnew : s.isUnbound u with
  | false =>
    rw [bindDeclarations_of_not_isUnbound hnew]
    exact hs
  | true =>
    have hlayout := bindDeclarations_layout hs.layout hu (hs.phases u)
    rw [bindDeclarations_of_isUnbound hnew] at hlayout ⊢
    -- The other units are the same as before, and this one is bound.
    have hothers : ∀ v, v ≠ u → (s.scripted u).unit v = s.unit v := by
      intro v hv
      rw [(s.scripted_grows u).others v hv, unit_begun hu, if_neg hv.symm]
    have hself : ((s.scripted u).unit u).isBound := by
      have hunit := (s.scripted_grows u).unit u
      rw [unit_begun hu, if_pos rfl] at hunit
      exact congrArg (·.isBound) hunit
    refine ⟨hlayout, fun v hv => ?_, fun v hv => ?_⟩
    all_goals rw [State.unit_modify] at hv ⊢
    all_goals by_cases hvu : v = u
    · subst hvu
      rw [if_pos ⟨rfl, valid_of_isBound hself⟩]
      rfl
    · have hne : ¬ (u = v ∧ u.index < (s.scripted u).units.size) := fun h => hvu h.1.symm
      rw [if_neg hne, hothers v hvu] at hv ⊢
      exact hs.phases v hv
    · subst hvu
      rw [if_pos ⟨rfl, valid_of_isBound hself⟩] at hv
      exact absurd (hself.symm.trans hv) nofun
    · have hne : ¬ (u = v ∧ u.index < (s.scripted u).units.size) := fun h => hvu h.1.symm
      rw [if_neg hne, hothers v hvu] at hv ⊢
      exact hs.unlisted v hv

/-- The bottom type has no node, and no scope of its own. -/
theorem load (hs : s.InOrder) (package : PackageId) :
    ({ s with builtins := (Builtins.load s.graph package).1, graph := (Builtins.load s.graph package).2 }
      : State).InOrder := by
  set d : Declaration :=
    { name := "Bottom", scope := [.package package], unit := none, node := none, shared := true
      shape := .ofClass {} none false true } with hd
  set declared : State := { s with graph := (s.graph.declare d).2 } with hdeclared
  -- Nothing is recorded for any unit, so the unit may be one that there is not.
  have hgrows : Binding.Grows ⟨s.units.size⟩ 0 s declared := by
    refine ⟨fun _ _ => rfl, fun _ _ => rfl, ?_, fun e he => ?_, le_rfl, fun _ _ => rfl, fun _ => rfl,
      fun _ _ => rfl, rfl, rfl⟩
    · simp [hdeclared, Graph.declare]
    · exact congrArg Declaration.bare (s.graph.decl_declare_of_lt d he)
  have hother : ∀ {v n}, s.HasNode v n → v ≠ ⟨s.units.size⟩ := by
    rintro v n ⟨hv, -⟩ rfl
    exact (valid_of_isBound hv).ne rfl
  have hgrounded := hgrows.grounded hs.layout.grounded rfl rfl fun v n hn => ⟨hother hn, hn⟩
  have hlayout : declared.Layout := by
    refine ⟨hs.layout.numbered, ?_, fun v n hn => hgrows.placed (hother hn) (hs.layout.placed v n hn)⟩
    exact Binding.grounded_declare (d := d) hgrounded rfl
      ⟨rfl, rfl, rfl, fun _ _ h => by cases h⟩ (fun _ h => by cases h) rfl fun k e hk => .inl hk
  have hsame : declared.SameLayout
      { s with
        builtins := (Builtins.load s.graph package).1, graph := (Builtins.load s.graph package).2 } :=
    ⟨⟨rfl, rfl, rfl, fun _ => rfl, rfl, rfl⟩, fun _ => rfl, fun _ => rfl, fun _ => rfl⟩
  exact ⟨hsame.layout hlayout, hs.phases, hs.unlisted⟩

end State.InOrder

/-- A state in which nothing has been declared is in order. -/
theorem inOrder_empty (modules : Array Module) : ({ graph := { modules } } : State).InOrder := by
  have hunbound : ∀ u, ¬ (({ graph := { modules } } : State).unit u).isBound := by
    intro u hu
    exact absurd (State.valid_of_isBound hu) (Nat.not_lt_zero _)
  have hempty : ∀ {α : Type} (k : NodeId) (a : α), (∅ : NodeMap α)[k]? ≠ some a := by simp
  refine ⟨⟨fun u => ?_, ⟨fun σ d hd => ?_, ?_, ?_, ?_, ?_, ?_, fun k d hk => absurd hk (hempty k d), ?_⟩,
    fun u n hn => absurd hn.1 (hunbound u)⟩, fun u hu => absurd hu (hunbound u), fun _ _ => rfl⟩
  · exact List.nodup_singleton _
  · have hmembers : (∅ : Std.ExtTreeMap ScopeId (Array DeclId)).getD σ #[] = #[] := by simp
    exact absurd (hmembers ▸ hd) (Array.not_mem_empty d)
  all_goals exact fun _ h => absurd h (Nat.not_lt_zero _)

theorem analyzeLanguage_inOrder {s : State} (hs : s.InOrder) {language : CompilationUnit}
    (hlanguage : language.Numbered) : (analyzeLanguage language s).2.InOrder := by
  rw [analyzeLanguage, bind_apply, bind_apply, bind_apply, bind_apply, bind_apply, bind_apply,
    bind_apply, bind_apply]
  have howned := (hs.advances (packageNamed_advances languagePath s)).advances
    (addPackage_advances languageModule (packageNamed languagePath s).1 _)
  refine State.InOrder.advances ?_ (addDependency_advances _ _ _)
  refine State.InOrder.advances ?_ (checkExpressions_refines _ _).toAdvances
  refine State.InOrder.advances ?_ ((resolveNames_refines _).discard _).toAdvances
  refine State.InOrder.advances ?_ ((resolveModule_advances _).discard _)
  refine State.InOrder.load ?_ _
  refine State.InOrder.bindDeclarations (howned.addUnit languageFile hlanguage _) ?_
  exact (Array.size_push _).symm ▸ Nat.lt_succ_self _

theorem initialWith_inOrder {language : CompilationUnit} (hlanguage : language.Numbered) :
    (State.initialWith language).InOrder := by
  have hstart : ({ graph := startingGraph } : State).InOrder := inOrder_empty startingGraph.modules
  rw [State.initialWith, StateT.run]
  exact analyzeLanguage_inOrder hstart hlanguage

theorem languageTree_numbered : languageTree.Numbered :=
  CompilationUnit.number_numbered _

/-- The states that an analysis can come to: from the initial one, packages and units are added, and units
are taken through their phases, in any order. -/
inductive State.Reached : State → Prop
  | initial : State.Reached .initial
  | package {s : State} (name : List String) : s.Reached → State.Reached (packageNamed name s).2
  | own {s : State} (m : ModuleId) (p : PackageId) :
    s.Reached → State.Reached (modifyGraph (·.addPackage m p) s).2
  | unit {s : State} (path : String) (source : Source) (glyphs : List Text.Glyph) (p : PackageId) :
    s.Reached → State.Reached (addUnit path (readUnit source glyphs).unit p s).2
  | fail {s : State} (u : UnitId) (failure : Failure) :
    s.Reached → State.Reached (fail u failure s).2
  | bind {s : State} {u : UnitId} (hu : u.index < s.units.size) :
    s.Reached → State.Reached (bindDeclarations u s).2
  | module {s : State} (u : UnitId) : s.Reached → State.Reached (resolveModule u s).2
  | dependencies {s : State} : s.Reached → State.Reached (resolveDependencies s).2
  | names {s : State} (u : UnitId) : s.Reached → State.Reached (resolveNames u s).2
  | check {s : State} (u : UnitId) : s.Reached → State.Reached (checkExpressions u s).2
  | walk {s : State} (stack : Option (PathStack ModuleId)) (log : Array LogEntry)
    (trace : Array TraceEvent) : s.Reached → State.Reached { s with stack, log, trace }

theorem State.Reached.inOrder {s : State} (h : s.Reached) : s.InOrder := by
  induction h with
  | initial => exact initialWith_inOrder languageTree_numbered
  | package name _ ih => exact ih.advances (packageNamed_advances name _)
  | own m p _ ih => exact ih.advances (addPackage_advances m p _)
  | unit path source glyphs p _ ih => exact ih.addUnit path (CompilationUnit.number_numbered _) p
  | fail u failure _ ih => exact ih.advances (fail_refines u failure _).toAdvances
  | bind hu _ ih => exact ih.bindDeclarations hu
  | module u _ ih => exact ih.advances (resolveModule_advances u _)
  | dependencies _ ih => exact ih.advances (resolveDependencies_advances _)
  | names u _ ih => exact ih.advances (resolveNames_refines u _).toAdvances
  | check u _ ih => exact ih.advances (checkExpressions_refines u _).toAdvances
  | walk stack log trace _ ih =>
    exact ih.advances ⟨⟨rfl, rfl, rfl, fun _ => rfl, rfl, rfl⟩, rfl, fun u => .refl _⟩

end Ceylon.Analysis
