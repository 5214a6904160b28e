import Ceylon.Proofs.Invariants
import Ceylon.Proofs.Tasks

/-!
# Units with nothing in them

A unit without imports, declarations and a module has nothing that a problem could be found at.  Whatever an
analysis does to other units, no problem is reported in a blank one, and it does not fail
(`SourceTree.analyze_blank`).
-/

namespace Ceylon.Analysis

open Model Syntax Files

/-- There is nothing in the unit, and nothing wrong with it. -/
structure UnitState.IsBlank (u : UnitState) : Prop where
  module : u.tree.module = none
  imports : u.tree.imports = []
  body : u.tree.body = []
  failure : u.failure = none
  diagnostics : u.diagnostics = #[]

/-- The only node of a unit with nothing in it is the unit. -/
theorem UnitState.IsBlank.nodes {u : UnitState} (h : u.IsBlank) : u.tree.outline.nodes = [.unit u.tree] := by
  have hchildren : u.tree.outline.children = [] := by
    rw [CompilationUnit.outline, h.module, h.imports, h.body]
    rfl
  rw [Outline.nodes_eq, hchildren]
  rfl

/-! ## Actions that spare units -/

/-- From the first state to the second, units keep their paths, and those that are spared stay as they
are. -/
structure Spares (spared : UnitId → Prop) (s s' : State) : Prop where
  path : ∀ v, (s'.unit v).path = (s.unit v).path
  unit : ∀ v, spared v → s'.unit v = s.unit v

instance (spared : UnitId → Prop) : IsPreorder State (Spares spared) where
  refl _ := ⟨fun _ => rfl, fun _ _ => rfl⟩
  trans _ _ _ h h' :=
    ⟨fun v => (h'.path v).trans (h.path v), fun v hv => (h'.unit v hv).trans (h.unit v hv)⟩

/-- From the first state to the second, units keep their paths, and blank ones stay blank. -/
structure KeepsBlank (s s' : State) : Prop where
  path : ∀ v, (s'.unit v).path = (s.unit v).path
  blank : ∀ v, (s.unit v).IsBlank → (s'.unit v).IsBlank

instance : IsPreorder State KeepsBlank where
  refl _ := ⟨fun _ => rfl, fun _ h => h⟩
  trans _ _ _ h h' := ⟨fun v => (h'.path v).trans (h.path v), fun v => h'.blank v ∘ h.blank v⟩

section

variable {spared : UnitId → Prop} {u : UnitId} {s s' : State}

/-- What spares all blank units keeps them blank. -/
theorem Spares.keepsBlank (h : Spares spared s s') (hspared : ∀ v, (s.unit v).IsBlank → spared v) :
    KeepsBlank s s' :=
  ⟨h.path, fun v hv => (h.unit v (hspared v hv)).symm ▸ hv⟩

/-- What changes one unit spares the others. -/
theorem modifyUnit_spares (hu : ¬ spared u) {g : UnitState → UnitState}
    (hpath : ∀ unit, (g unit).path = unit.path) : Leads (Spares spared) (modifyUnit u g) := by
  intro s
  change Spares spared s { s with units := s.units.modify u.index g }
  refine ⟨fun v => ?_, fun v hv => ?_⟩
  · rw [State.unit_modify]
    split
    · exact hpath _
    · rfl
  · rw [State.unit_modify, if_neg]
    rintro ⟨rfl, -⟩
    exact hu hv

/-- Blankness is that of the units. -/
theorem spares_of_units (h : s'.units = s.units) : Spares spared s s' :=
  ⟨fun v => by rw [State.unit, h, State.unit], fun v _ => by rw [State.unit, h, State.unit]⟩

/-- Reporting a problem at a unit spares all others. -/
theorem report_spares (hu : ¬ spared u) (n : Node) (message : String) :
    Leads (Spares spared) (report u n message) :=
  .get_bind fun _ => modifyUnit_spares hu fun _ => rfl

/-- Changing a unit keeps it blank if the change does. -/
theorem modifyUnit_keepsBlank {g : UnitState → UnitState} (hpath : ∀ unit, (g unit).path = unit.path)
    (hblank : ∀ unit, unit.IsBlank → (g unit).IsBlank) : Leads KeepsBlank (modifyUnit u g) := by
  intro s
  change KeepsBlank s { s with units := s.units.modify u.index g }
  refine ⟨fun v => ?_, fun v hv => ?_⟩
  · rw [State.unit_modify]
    split
    · exact hpath _
    · rfl
  · rw [State.unit_modify]
    split
    · exact hblank _ hv
    · exact hv

/-- Where the units stay, blank ones stay blank. -/
theorem keepsBlank_of_units (h : s'.units = s.units) : KeepsBlank s s' := by
  have hspares : Spares (fun _ => True) s s' := spares_of_units h
  exact hspares.keepsBlank fun _ _ => trivial

/-- Setting a phase keeps blank units blank. -/
theorem setPhase_keepsBlank (phase : Phase) : Leads KeepsBlank (setPhase u phase) :=
  modifyUnit_keepsBlank (fun _ => rfl) fun _ h => ⟨h.module, h.imports, h.body, h.failure, h.diagnostics⟩

/-- Noting a step keeps blank units blank. -/
theorem logStep_keepsBlank (phase : Phase) (message : String) : Leads KeepsBlank (logStep u phase message) :=
  fun _ => keepsBlank_of_units rfl

end

/-! ## Phases -/

/-- Binding keeps blank units blank: there is nothing in them to declare. -/
theorem bindDeclarations_keepsBlank {s : State} {u : UnitId} (hu : u.index < s.units.size) :
    KeepsBlank s (bindDeclarations u s).2 := by
  cases hnew : s.isUnbound u with
  | false =>
    rw [bindDeclarations_of_not_isUnbound hnew]
    exact refl_of KeepsBlank s
  | true =>
    rw [bindDeclarations_of_isUnbound hnew]
    -- To begin with binding marks the unit as bound, and the script then leaves units as they are.
    have hbegun : KeepsBlank s (s.begun u) := by
      refine ⟨fun v => ?_, fun v hv => ?_⟩
      · rw [State.unit_begun hu]
        split <;> rfl
      · rw [State.unit_begun hu]
        split
        · exact ⟨hv.module, hv.imports, hv.body, hv.failure, hv.diagnostics⟩
        · exact hv
    have hscripted : KeepsBlank (s.begun u) (s.scripted u) := by
      have hunit := (s.scripted_grows u).unit
      refine ⟨fun v => congrArg (·.path) (hunit v), fun v hv => ?_⟩
      have htree : ((s.scripted u).unit v).tree = ((s.begun u).unit v).tree := congrArg (·.tree) (hunit v)
      exact ⟨htree ▸ hv.module, htree ▸ hv.imports, htree ▸ hv.body,
        (congrArg (·.failure) (hunit v)).trans hv.failure,
        (congrArg (·.diagnostics) (hunit v)).trans hv.diagnostics⟩
    exact trans_of KeepsBlank (trans_of KeepsBlank hbegun hscripted) (setPhase_keepsBlank .bound (s.scripted u))

section

variable {spared : UnitId → Prop} {u : UnitId} (hu : ¬ spared u)
include hu

/-- Failing spares all units. -/
theorem fail_spares (failure : Failure) : Leads (Spares spared) (fail u failure) :=
  modifyUnit_spares hu fun _ => rfl

omit hu in
/-- Declaring a module spares all units. -/
theorem addDeclared_spares (name : List String) (claimed : PathStack ModuleId) :
    Leads (Spares spared) (addDeclared u name claimed) := by
  refine .get_bind fun s => .bind (fun _ => spares_of_units rfl) fun m =>
    .bind (fun _ => spares_of_units rfl) fun _ => .get_bind fun s => ?_
  split
  · exact fun _ => spares_of_units rfl
  · exact .pure ()

/-- Declaring a module changes only the unit that declares it. -/
theorem resolveModule_spares : Leads (Spares spared) (resolveModule u) := by
  have settled : Leads (Spares spared)
      (setPhase u .moduleResolved >>= fun _ => pure (none : Option Failure)) :=
    .bind (modifyUnit_spares hu fun _ => rfl) fun _ => .pure none
  refine .get_bind fun s => ?_
  dsimp only
  split
  · exact .pure _
  · split
    · exact .pure _
    · split
      · exact settled
      · refine .bind (fun _ => spares_of_units rfl) fun _ => ?_
        split
        · exact .bind (fail_spares hu _) fun _ => .pure _
        · split
          · exact .bind (report_spares hu _ _) fun _ => .bind (addDeclared_spares _ _) fun _ => settled
          · exact .bind (addDeclared_spares _ _) fun _ => settled

/-- A step of resolving a unit changes that unit only. -/
theorem resolution_perform_spares (step : ResolveStep) :
    Leads (Spares spared) (Resolution.perform u step) :=
  .resolution_perform spares_of_units (report_spares hu) (fun _ => modifyUnit_spares hu fun _ => rfl) step

/-- Resolving the names of a unit spares those that have nothing to resolve. -/
theorem resolveNames_spares : Leads (Spares spared) (resolveNames u) := by
  refine .get_bind fun s => ?_
  dsimp only
  split
  · exact .pure _
  · split
    · exact .pure _
    · refine .bind (fun _ => spares_of_units rfl) fun _ =>
        .bind (.run (resolution_perform_spares hu) _) fun outcome => ?_
      cases outcome with
      | ok _ => exact .bind (modifyUnit_spares hu fun _ => rfl) fun _ => .pure _
      | error e => exact .bind (fail_spares hu _) fun _ => .pure _

end

/-- Resolving modules keeps blank units blank. -/
theorem resolveModule_keepsBlank (u : UnitId) : Leads KeepsBlank (resolveModule u) := by
  intro s
  by_cases hblank : (s.unit u).IsBlank
  · -- A unit without a module only comes to the next phase.
    have hrest : KeepsBlank s ((if (s.unit u).phase.atLeast .moduleResolved then pure none
        else do setPhase u .moduleResolved; return none : Analyze (Option Failure)) s).2 := by
      split
      · exact refl_of KeepsBlank s
      · exact setPhase_keepsBlank _ s
    rw [resolveModule, get_bind_apply]
    simp only [hblank.failure, hblank.module, Option.isSome_none, Bool.false_eq_true, if_false]
    exact hrest
  · have hspares : Spares (fun v => (s.unit v).IsBlank) s _ := resolveModule_spares hblank s
    exact hspares.keepsBlank fun _ hv => hv

/-- Resolving dependencies keeps blank units blank. -/
theorem resolveDependencies_keepsBlank : Leads KeepsBlank resolveDependencies := by
  refine .get_bind fun s => .bind (.forIn (fun m _ => ?_) _) fun _ => fun _ => keepsBlank_of_units rfl
  refine .bind (fun _ => keepsBlank_of_units rfl) fun _ => .get_bind fun s => ?_
  split
  · exact .pure _
  · next u _ =>
    intro s
    rw [get_bind_apply]
    by_cases hblank : (s.unit u).IsBlank
    · rw [hblank.module]
      exact refl_of KeepsBlank s
    · -- A unit with a module descriptor is not blank.
      refine (?_ : Spares (fun v => (s.unit v).IsBlank) s _).keepsBlank fun _ hv => hv
      refine Leads.bind (R := Spares fun v => (s.unit v).IsBlank)
        (.forIn (fun i _ => .get_bind fun s => ?_) _) (fun _ => .pure _) s
      split
      · exact .bind (report_spares hblank _ _) fun _ => .pure _
      · split
        · exact .bind (report_spares hblank _ _) fun _ => .pure _
        · exact .bind (fun _ => spares_of_units rfl) fun _ => .pure _

/-- Resolving names keeps blank units blank. -/
theorem resolveNames_keepsBlank (u : UnitId) : Leads KeepsBlank (resolveNames u) := by
  intro s
  by_cases hblank : (s.unit u).IsBlank
  · -- There is nothing to resolve.
    have hresolve : Resolution.resolveUnit s.bound u (s.unit u).tree = pure () := by
      rw [Resolution.resolveUnit, hblank.imports, hblank.nodes]
      rfl
    have hrest : KeepsBlank s ((if (s.unit u).phase.atLeast .namesResolved then pure none
        else do
          logStep u .namesResolved "resolving names"
          setPhase u .namesResolved
          return none : Analyze (Option Failure)) s).2 := by
      split
      · exact refl_of KeepsBlank s
      · exact Leads.bind (logStep_keepsBlank _ _) (fun _ => .bind (setPhase_keepsBlank _) fun _ => .pure _) s
    rw [resolveNames, get_bind_apply]
    simp only [hblank.failure, Option.isSome_none, Bool.false_eq_true, if_false, hresolve]
    exact hrest
  · have hspares : Spares (fun v => (s.unit v).IsBlank) s _ := resolveNames_spares hblank s
    exact hspares.keepsBlank fun _ hv => hv

/-! ## Checking -/

section Checking

variable {spared : UnitId → Prop} {f : State}
  (hinference : ∀ d u task, f.inference? d = some (u, task) → ¬ spared u)
include hinference

/-- Checking a task spares the units that it does not get to. -/
theorem performTask_spares (depth : Nat) {u : UnitId} (hu : ¬ spared u) (task : Task) :
    Leads (Spares spared) (Checking.performTask f depth u task) := by
  induction depth generalizing u task with
  | zero => exact .pure ()
  | succ depth ih =>
    refine .get_bind fun s => ?_
    split
    · exact .pure ()
    · refine .bind (fun s => spares_of_units rfl) fun _ =>
        .bind (.run (fun act => ?_) _) fun t =>
        .bind (fun s => spares_of_units rfl) fun _ => ?_
      · cases act with
        | ask q =>
          cases q with
          -- Demanding a type may begin a task of another unit, which is one that types are inferred in.
          | typeOf d =>
            refine .get_bind fun s => ?_
            dsimp only
            split
            · exact .pure _
            · split
              · exact .pure _
              · next u' task' hfound =>
                split
                · exact .bind (fun s => spares_of_units rfl) fun _ => .pure _
                · split
                  · exact .pure _
                  · exact .bind (ih (hinference _ _ _ hfound) task') fun _ => .get_bind fun _ => .pure _
          | problem n message => exact report_spares hu n message
        | settle m t target => exact fun s => spares_of_units rfl
        | infer m t => exact fun s => spares_of_units rfl
        | visit task => exact ih hu task
      · split
        · exact fun s => spares_of_units rfl
        · exact .pure ()

end Checking

/-- What is inferred stands in a unit, so that unit is not blank. -/
theorem not_isBlank_of_inference? {s : State} (hs : s.InOrder) {d : DeclId} {u : UnitId} {task : Task}
    (h : s.facts.inference? d = some (u, task)) : ¬ (s.unit u).IsBlank := by
  intro hblank
  have hmem := (hs.layout.hasNode_of_inference? h).2
  rw [CompilationUnit.Has, hblank.nodes, List.mem_singleton] at hmem
  have htask := (State.inference?_eq_some h).2.2.1
  rw [hmem] at htask
  cases htask

/-- The check of a unit with nothing in it finds nothing. -/
theorem performTask_units_of_isBlank {f s : State} {u : UnitId} {tree : CompilationUnit}
    (hbody : tree.body = []) (depth : Nat) :
    (Checking.performTask f depth u (.unit tree) s).2.units = s.units := by
  have hcheck : Task.check f u (.unit tree) = pure Ty.unknown := by
    rw [Task.check, hbody]
    rfl
  cases depth with
  | zero => rfl
  | succ depth =>
    rw [Checking.performTask, get_bind_apply, hcheck]
    split <;> rfl

/-- Checking keeps blank units blank. -/
theorem checkExpressions_keepsBlank {s : State} (hs : s.InOrder) (u : UnitId) :
    KeepsBlank s (checkExpressions u s).2 := by
  rw [checkExpressions, get_bind_apply]
  split
  · exact refl_of KeepsBlank s
  · rw [bind_apply, bind_apply]
    have hlogged := logStep_keepsBlank (u := u) .checked "checking expressions" s
    refine trans_of KeepsBlank (trans_of KeepsBlank hlogged ?_) (setPhase_keepsBlank .checked _)
    by_cases hblank : (s.unit u).IsBlank
    · exact keepsBlank_of_units (performTask_units_of_isBlank hblank.body _)
    · have hspares : Leads (Spares fun v => (s.unit v).IsBlank) _ :=
        performTask_spares (fun _ _ _ => not_isBlank_of_inference? hs) (s.decls.size + 2) hblank
          (.unit (s.unit u).tree)
      exact (hspares _).keepsBlank fun _ hv => hv

/-! ## Analyses -/

/-- Only the unit of the language module is there, and what stands for units that are not. -/
def OnlyLanguage (s : State) : Prop :=
  ∀ u, (s.unit u).path = languageFile ∨ (s.unit u).path = ""

/-- Advancing adds no unit to that of the language. -/
theorem OnlyLanguage.advances {s s' : State} (hs : OnlyLanguage s) (h : s.Advances s') : OnlyLanguage s' :=
  fun u => (h.units u).path ▸ hs u

/-- After the language has been analyzed there is no other unit. -/
theorem onlyLanguage_analyzeLanguage (language : CompilationUnit) {s : State} (hs : s.units = #[]) :
    OnlyLanguage (analyzeLanguage language s).2 := by
  rw [analyzeLanguage, bind_apply, bind_apply, bind_apply, bind_apply, bind_apply, bind_apply,
    bind_apply, bind_apply]
  have hbefore : OnlyLanguage s := fun u => .inr (by rw [State.unit, hs]; rfl)
  have howned := (hbefore.advances (packageNamed_advances languagePath s)).advances
    (addPackage_advances languageModule (packageNamed languagePath s).1 _)
  refine OnlyLanguage.advances ?_ (addDependency_advances _ _ _)
  refine OnlyLanguage.advances ?_ (checkExpressions_refines _ _).toAdvances
  refine OnlyLanguage.advances ?_ ((resolveNames_refines _).discard _).toAdvances
  refine OnlyLanguage.advances ?_ ((resolveModule_advances _).discard _)
  intro u
  refine Eq.mp (congrArg (fun path => path = languageFile ∨ path = "")
    ((bindDeclarations_keepsBlank ?_).path u).symm) ?_
  · exact (Array.size_push _).symm ▸ Nat.lt_succ_self _
  · rw [unit_addUnit]
    split
    · exact .inl rfl
    · exact howned u

/-- All units with a path are blank, in a state that is in order. -/
structure State.BlankAt (path : String) (s : State) : Prop where
  order : s.InOrder
  blank : ∀ u, (s.unit u).path = path → (s.unit u).IsBlank

/-- The unit of a path stays blank. -/
theorem KeepsBlank.blankAt {path : String} {s s' : State} (h : KeepsBlank s s') (hs : s.BlankAt path)
    (horder : s'.InOrder) : s'.BlankAt path :=
  ⟨horder, fun u hu => h.blank u (hs.blank u ((h.path u).symm.trans hu))⟩

/-- The unit of a path is blank if the units are the same. -/
theorem State.BlankAt.of_units {path : String} {s s' : State} (hs : s.BlankAt path) (h : s'.units = s.units)
    (horder : s'.InOrder) : s'.BlankAt path :=
  (keepsBlank_of_units h).blankAt hs horder

/-- Finding or making a package keeps blank units blank. -/
theorem packageNamed_keepsBlank (name : List String) : Leads KeepsBlank (packageNamed name) := by
  refine .get_bind fun s => ?_
  split
  · exact .pure _
  · exact .get_bind fun _ => .bind (fun _ => keepsBlank_of_units rfl) fun _ => .pure _

variable {t : SourceTree} {path : String}

/-- Whether a source file is read as a unit with nothing in it. -/
def SourceTree.ReadsBlank (t : SourceTree) (f : SourceFile) : Prop :=
  (t.reading f).fault = none ∧ (t.reading f).unit.module = none ∧ (t.reading f).unit.imports = [] ∧
    (t.reading f).unit.body = []

/-- Loading a tree in which the file of the path reads as blank gives a blank unit there. -/
theorem SourceTree.loadActions_blankAt (hread : ∀ f : SourceFile, f.path = path → t.ReadsBlank f) :
    t.LoadActions (State.BlankAt path) where
  package name s hs := (packageNamed_keepsBlank name s).blankAt hs
    (hs.order.advances (packageNamed_advances name s))
  own m p s hs := hs.of_units rfl (hs.order.advances (addPackage_advances m p s))
  source p f s hs := by
    have hnumbered : (t.reading f).unit.Numbered := CompilationUnit.number_numbered _
    have horder := hs.order.addUnit f.path hnumbered p
    have hadded : (addUnit f.path (t.reading f).unit p s).2.BlankAt path := by
      refine ⟨horder, fun v hv => ?_⟩
      rw [unit_addUnit] at hv ⊢
      split at hv
      · next h =>
        obtain ⟨-, hmodule, himports, hbody⟩ := hread f hv
        rw [if_pos h]
        exact ⟨hmodule, himports, hbody, rfl, rfl⟩
      · next h =>
        rw [if_neg h]
        exact hs.blank v hv
    cases hfault : (t.reading f).fault with
    | none =>
      rw [addSource_of_no_fault t p f hfault]
      exact hadded
    | some e =>
      -- The unit that fails is not one at the path.
      have hspares : Leads (Spares fun v => ((addUnit f.path (t.reading f).unit p s).2.unit v).path = path)
          (fail ⟨s.units.size⟩ (.unparsable e)) := by
        refine fail_spares (fun h => ?_) _
        rw [unit_addUnit, if_pos rfl] at h
        simp [(hread f h).1] at hfault
      rw [addSource_of_fault t p f hfault]
      refine ⟨horder.advances (fail_refines _ _ _).toAdvances, fun v hv => ?_⟩
      have hbefore := ((hspares _).path v).symm.trans hv
      exact ((hspares _).unit v hbefore).symm ▸ hadded.blank v hbefore
  bind s u hu hs := (bindDeclarations_keepsBlank hu).blankAt hs (hs.order.bindDeclarations hu)
  module u s hs := (resolveModule_keepsBlank u s).blankAt hs (hs.order.advances (resolveModule_advances u s))
  walk _ _ _ _ hs := hs.of_units rfl (hs.order.advances
    ⟨⟨rfl, rfl, rfl, fun _ => rfl, rfl, rfl⟩, rfl, fun _ => .refl _⟩)

/-- A run keeps the unit of the path blank. -/
theorem runKeeps_blankAt : RunKeeps (State.BlankAt path) where
  dependencies s hs :=
    (resolveDependencies_keepsBlank s).blankAt hs (hs.order.advances (resolveDependencies_advances s))
  names u s hs := (resolveNames_keepsBlank u s).blankAt hs (hs.order.advances (resolveNames_refines u s).toAdvances)
  check u s hs := (checkExpressions_keepsBlank hs.order u).blankAt hs
    (hs.order.advances (checkExpressions_refines u s).toAdvances)
  walk _ _ hs := hs.of_units rfl (hs.order.advances
    ⟨⟨rfl, rfl, rfl, fun _ => rfl, rfl, rfl⟩, rfl, fun _ => .refl _⟩)

/-- If the files at a path are read as units with nothing in them, no problem is found in these. -/
theorem SourceTree.analyze_blank (hread : ∀ f : SourceFile, f.path = path → t.ReadsBlank f)
    (hpath : path ≠ languageFile) (hne : path ≠ "") (exclude : List String) :
    (t.analyze exclude).2.BlankAt path := by
  refine analyze_keeps (loadActions_blankAt hread) runKeeps_blankAt ?_ exclude
  refine ⟨initialWith_inOrder languageTree_numbered, fun u hu => ?_⟩
  have honly : OnlyLanguage .initial := onlyLanguage_analyzeLanguage languageTree rfl
  rcases honly u with h | h
  · exact absurd (hu.symm.trans h) hpath
  · exact absurd (hu.symm.trans h) hne

end Ceylon.Analysis
