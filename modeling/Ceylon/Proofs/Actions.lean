import Mathlib.Order.Defs.Unbundled
import Ceylon.Analysis.Load
import Ceylon.Proofs.BoundUnits

/-!
# What the phases leave alone

After a unit has been bound, the analysis only adds to what is known about it.  Resolving modules changes no
declaration and no unit but for its phase and its findings (`State.Advances`), and resolving names and
checking expressions leave packages and modules alone as well (`State.Refines`).

An action that is made of steps leads where the steps lead, if the relation between the states before and
after is a preorder (`Leads`).
-/

namespace Ceylon.Analysis

open Model Syntax

/-! ## Where actions lead -/

/-- What one action after another does. -/
theorem bind_apply {α β : Type} (m : Analyze α) (f : α → Analyze β) (s : State) :
    (m >>= f) s = f (m s).1 (m s).2 := rfl

/-- An action that reads the state goes on with that state. -/
theorem get_bind_apply {β : Type} (f : State → Analyze β) (s : State) : (get >>= f) s = f s s := rfl

/-- An action leads from every state to one that stands in the relation to it. -/
def Leads (R : State → State → Prop) {α : Type} (m : Analyze α) : Prop :=
  ∀ s, R s (m s).2

namespace Leads

variable {R : State → State → Prop} {α β : Type}

/-- Reading the state leads nowhere else. -/
theorem get_bind {f : State → Analyze β} (hf : ∀ s, Leads R (f s)) : Leads R (get >>= f) :=
  fun s => hf s s

/-- Changing the state leads along a relation that the change respects. -/
theorem modify {g : State → State} (hg : ∀ s, R s (g s)) : Leads R (modify g : Analyze Unit) :=
  hg

/-- Throwing away the result of an action changes nothing about where it leads. -/
theorem discard {m : Analyze α} (hm : Leads R m) : Leads R (Functor.discard m) :=
  hm

/-- What leads along a relation leads along a weaker one. -/
theorem mono {R' : State → State → Prop} {m : Analyze α} (hm : Leads R m)
    (imp : ∀ s s', R s s' → R' s s') : Leads R' m :=
  fun s => imp _ _ (hm s)

variable [IsPreorder State R]

/-- Returning a value leads nowhere else. -/
theorem pure (a : α) : Leads R (Pure.pure a : Analyze α) :=
  fun s => refl_of R s

/-- One action after another leads along the relation, which is transitive. -/
theorem bind {m : Analyze α} {f : α → Analyze β} (hm : Leads R m) (hf : ∀ a, Leads R (f a)) :
    Leads R (m >>= f) :=
  fun s => trans_of R (hm s) (hf _ _)

/-- A loop leads along the relation if each turn does. -/
theorem forIn {as : List α} {f : α → PUnit → Analyze (ForInStep PUnit)}
    (hf : ∀ a r, Leads R (f a r)) (r : PUnit) : Leads R (ForIn.forIn as r f) := by
  induction as generalizing r with
  | nil => exact pure r
  | cons a as ih =>
    rw [List.forIn_cons]
    refine bind (hf a r) fun step => ?_
    cases step with
    | done r => exact pure r
    | yield r => exact ih r

/-- Running a dialogue leads along the relation if each answer does. -/
theorem run {Q : Type} {A : Q → Type} {partner : (q : Q) → Analyze (A q)}
    (hp : ∀ q, Leads R (partner q)) (d : Dialogue A α) : Leads R (d.run partner) := by
  induction d with
  | done a => exact pure a
  | ask q next ih => exact bind (hp q) ih

end Leads

/-! ## Units -/

/-- What is known about a unit may have grown, and it has been bound or not as before. -/
structure UnitState.Advances (u u' : UnitState) : Prop where
  path : u'.path = u.path
  tree : u'.tree = u.tree
  package : u'.package = u.package
  isBound : u'.isBound = u.isBound
  declarations : u'.declarations = u.declarations
  phase : u.phase.atLeast .bound → u'.phase.atLeast .bound
  /-- No problem is forgotten. -/
  kept : ∀ d ∈ u.diagnostics, d ∈ u'.diagnostics
  /-- All new problems are errors. -/
  found : ∀ d ∈ u'.diagnostics, d ∈ u.diagnostics ∨ d.severity = .error
  failure : u.failure.isSome = true → u'.failure.isSome = true
  /-- There is a problem if the unit has failed since. -/
  failed : u'.failure.isSome = true → u.failure.isSome = true ∨ u'.diagnostics ≠ #[]

theorem UnitState.Advances.refl (u : UnitState) : u.Advances u :=
  ⟨rfl, rfl, rfl, rfl, rfl, id, fun _ => id, fun _ => .inl, id, .inl⟩

/-- Problems of a unit do not go away. -/
theorem UnitState.Advances.diagnostics_ne {u u' : UnitState} (h : u.Advances u') (hu : u.diagnostics ≠ #[]) :
    u'.diagnostics ≠ #[] := by
  obtain ⟨d, hd⟩ := Array.exists_mem_of_ne_empty _ hu
  exact Array.ne_empty_of_mem (h.kept d hd)

/-- What is known about a unit has grown, if it has grown twice. -/
theorem UnitState.Advances.trans {u u' u'' : UnitState} (h : u.Advances u') (h' : u'.Advances u'') :
    u.Advances u'' where
  path := h'.path.trans h.path
  tree := h'.tree.trans h.tree
  package := h'.package.trans h.package
  isBound := h'.isBound.trans h.isBound
  declarations := h'.declarations.trans h.declarations
  phase := h'.phase ∘ h.phase
  kept d hd := h'.kept d (h.kept d hd)
  found d hd := (h'.found d hd).elim (h.found d) .inr
  failure := h'.failure ∘ h.failure
  failed hu := (h'.failed hu).elim (fun hu => (h.failed hu).imp id h'.diagnostics_ne) .inr

/-- What stands in a list of problems after one has been added. -/
theorem Diagnostic.mem_addTo {d e : Diagnostic} {ds : Array Diagnostic} :
    e ∈ d.addTo ds ↔ e ∈ ds ∨ e = d ∧ ∀ d' ∈ ds, d'.key ≠ d.key := by
  rw [addTo]
  split
  · next h =>
    obtain ⟨d', hd', hkey⟩ := Array.any_eq_true'.mp h
    exact ⟨.inl, fun he => he.elim id fun he => absurd (beq_iff_eq.mp hkey) (he.2 d' hd')⟩
  · next h =>
    rw [Array.mem_push]
    refine or_congr_right (iff_self_and.mpr fun _ d' hd' hkey => h ?_)
    exact Array.any_eq_true'.mpr ⟨d', hd', beq_iff_eq.mpr hkey⟩

/-- After a problem has been added there is one. -/
theorem Diagnostic.addTo_ne_empty (d : Diagnostic) (ds : Array Diagnostic) : d.addTo ds ≠ #[] := by
  rw [addTo]
  split
  · next h =>
    obtain ⟨d', hd', -⟩ := Array.any_eq_true'.mp h
    exact Array.ne_empty_of_mem hd'
  · exact Array.push_ne_empty

/-- Adding an error to the problems of a unit. -/
theorem UnitState.advances_addTo (u : UnitState) {d : Diagnostic} (hd : d.severity = .error)
    {failure : Option Failure} (hfailure : u.failure.isSome = true → failure.isSome = true) :
    u.Advances { u with failure, diagnostics := d.addTo u.diagnostics } := by
  refine ⟨rfl, rfl, rfl, rfl, rfl, id, fun e he => Diagnostic.mem_addTo.mpr (.inl he), fun e he => ?_, hfailure,
    fun _ => .inr (d.addTo_ne_empty _)⟩
  exact (Diagnostic.mem_addTo.mp he).imp id fun ⟨heq, _⟩ => heq ▸ hd

/-- From the first state to the second, units and declarations have stayed, but for findings about
them. -/
structure State.Advances (s s' : State) : Prop extends s.SamePlaces s' where
  count : s'.units.size = s.units.size
  units : ∀ u, (s.unit u).Advances (s'.unit u)

/-- From the first state to the second, all has stayed but for findings about units and declarations. -/
structure State.Refines (s s' : State) : Prop extends s.Advances s' where
  packages : s'.graph.packages = s.graph.packages
  modules : s'.graph.modules = s.graph.modules
  builtins : s'.builtins = s.builtins
  declared : s'.declared = s.declared
  stack : s'.stack = s.stack

namespace State

theorem SamePlaces.refl (s : State) : s.SamePlaces s :=
  ⟨rfl, rfl, rfl, fun _ => rfl, rfl, rfl⟩

theorem SamePlaces.trans {s s' s'' : State} (h : s.SamePlaces s') (h' : s'.SamePlaces s'') :
    s.SamePlaces s'' where
  scopes := h'.scopes.trans h.scopes
  table := h'.table.trans h.table
  size := h'.size.trans h.size
  decl d := (h'.decl d).trans (h.decl d)
  members := h'.members.trans h.members
  blocks := h'.blocks.trans h.blocks

/-- A state that has advanced has the same layout. -/
theorem Advances.sameLayout {s s' : State} (h : s.Advances s') : s.SameLayout s' where
  toSamePlaces := h.toSamePlaces
  tree u := (h.units u).tree
  package u := (h.units u).package
  isBound u := (h.units u).isBound

instance : IsPreorder State State.Advances where
  refl s := ⟨.refl s, rfl, fun u => .refl (s.unit u)⟩
  trans _ _ _ h h' :=
    ⟨h.toSamePlaces.trans h'.toSamePlaces, h'.count.trans h.count,
      fun u => (h.units u).trans (h'.units u)⟩

instance : IsPreorder State State.Refines where
  refl s := ⟨refl_of State.Advances s, rfl, rfl, rfl, rfl, rfl⟩
  trans _ _ _ h h' :=
    ⟨trans_of State.Advances h.toAdvances h'.toAdvances, h'.packages.trans h.packages,
      h'.modules.trans h.modules, h'.builtins.trans h.builtins, h'.declared.trans h.declared,
      h'.stack.trans h.stack⟩

/-- Changing what is known about a unit. -/
theorem refines_modifyUnit (s : State) (u : UnitId) {g : UnitState → UnitState}
    (hg : ∀ unit : UnitState, unit.Advances (g unit)) :
    s.Refines { s with units := s.units.modify u.index g } where
  toSamePlaces := ⟨rfl, rfl, rfl, fun _ => rfl, rfl, rfl⟩
  count := Array.size_modify ..
  units v := by
    rw [State.unit_modify]
    split
    · exact hg _
    · exact .refl _
  packages := rfl
  modules := rfl
  builtins := rfl
  declared := rfl
  stack := rfl

/-- Changing the type or the supertypes of a declaration. -/
theorem refines_modifyShape (s : State) (d : DeclId) {g : Shape → Shape}
    (hg : ∀ shape, (g shape).bound = shape.bound) :
    s.Refines { s with graph := s.graph.modifyShape d g } where
  scopes := rfl
  table := rfl
  size := by simp [Graph.modifyShape, Graph.modifyDecl]
  decl e := by
    rw [Graph.modifyShape, Graph.decl_modifyDecl]
    split
    · -- Only the shape may differ, and not in what it says about the scopes that a declaration opens.
      simp [Declaration.bound, hg]
    · rfl
  members := rfl
  blocks := rfl
  count := rfl
  units u := .refl (s.unit u)
  packages := rfl
  modules := rfl
  builtins := rfl
  declared := rfl
  stack := rfl

/-- Changing what is known about nodes, and what is kept about the analysis itself. -/
theorem refines_tables (s : State) (types : TypeTable) (targets : NodeMap DeclId)
    (inferred : NodeMap Ty) (inferring : List NodeId) (circular : List DeclId) (checked : NodeSet)
    (log : Array LogEntry) (trace : Array TraceEvent) :
    s.Refines { s with
      graph := { s.graph with inferred }, types, targets, inferring, circular, checked, log, trace } :=
  ⟨⟨⟨rfl, rfl, rfl, fun _ => rfl, rfl, rfl⟩, rfl, fun u => .refl (s.unit u)⟩, rfl, rfl, rfl, rfl, rfl⟩

end State

theorem logStep_refines (u : UnitId) (phase : Phase) (message : String) :
    Leads State.Refines (logStep u phase message) :=
  fun s => s.refines_tables ..

theorem modifyUnit_refines (u : UnitId) {g : UnitState → UnitState}
    (hg : ∀ unit : UnitState, unit.Advances (g unit)) : Leads State.Refines (modifyUnit u g) :=
  fun s => s.refines_modifyUnit u hg

theorem setPhase_refines (u : UnitId) {phase : Phase} (hphase : phase.atLeast .bound) :
    Leads State.Refines (setPhase u phase) :=
  modifyUnit_refines u fun _ => ⟨rfl, rfl, rfl, rfl, rfl, fun _ => hphase, fun _ => id, fun _ => .inl, id, .inl⟩

theorem fail_refines (u : UnitId) (failure : Failure) : Leads State.Refines (fail u failure) :=
  modifyUnit_refines u fun unit => unit.advances_addTo rfl fun _ => rfl

theorem report_refines (u : UnitId) (n : Node) (message : String) :
    Leads State.Refines (report u n message) :=
  .get_bind fun _ => modifyUnit_refines u fun unit => unit.advances_addTo rfl id

theorem traced_refines {α : Type} (span : Span) {m : Analyze α} (hm : Leads State.Refines m) :
    Leads State.Refines (traced span m) :=
  .bind (fun s => s.refines_tables ..) fun _ => .bind hm fun _ => .bind (fun s => s.refines_tables ..)
    fun a => .pure a

/-! ## Resolving names -/

/-- A step of resolving names, for a relation that looks at units only. -/
theorem Leads.resolution_perform {R : State → State → Prop} {u : UnitId}
    (hunits : ∀ {s s' : State}, s'.units = s.units → R s s')
    (hreport : ∀ n message, Leads R (report u n message))
    (himport : ∀ i, Leads R (modifyUnit u fun unit => { unit with imports := unit.imports ++ [i] }))
    (step : ResolveStep) : Leads R (Resolution.perform u step) := by
  -- What changes a declaration finds it by its node, and leaves the units alone if there is none.
  have hshape : ∀ m g, Leads R (Resolution.modifyDeclOf u m g) := by
    intro m g
    rw [Resolution.modifyDeclOf]
    refine .modify fun s => hunits ?_
    split <;> rfl
  cases step with
  | «recall» m => exact fun s => hunits rfl
  | unite m ts => exact fun s => hunits rfl
  | record m t => exact fun s => hunits rfl
  | target m d => exact fun s => hunits rfl
  | problem n message => exact hreport n message
  | «import» i => exact himport i
  | extend m t => exact hshape m _
  | satisfy m t => exact hshape m _
  | declare m t => exact hshape m _

/-- Setting types or supertypes of a declaration refines the state, since it does not show in the bound graph.
-/
theorem modifyDeclOf_refines (u : UnitId) (m : Mark) {g : Shape → Shape}
    (hg : ∀ shape, (g shape).bound = shape.bound) :
    Leads State.Refines (Resolution.modifyDeclOf u m g) := by
  rw [Resolution.modifyDeclOf]
  refine .modify fun s => ?_
  split
  · exact refl_of State.Refines s
  · exact s.refines_modifyShape _ hg

theorem recordRef_refines (s : State) (k : NodeId) (t : Ty) : s.Refines (s.recordRef k t) :=
  s.refines_tables ..

/-- Each step of resolving names refines the state. -/
theorem resolution_perform_refines (u : UnitId) (step : ResolveStep) :
    Leads State.Refines (Resolution.perform u step) := by
  cases step with
  | «recall» m => exact fun s => refl_of State.Refines s
  | unite m ts => exact fun s => recordRef_refines s _ _
  | record m t => exact fun s => recordRef_refines s _ _
  | target m d => exact fun s => s.refines_tables ..
  | problem n message => exact report_refines u n message
  | «import» i =>
    exact modifyUnit_refines u fun _ => ⟨rfl, rfl, rfl, rfl, rfl, id, fun _ => id, fun _ => .inl, id, .inl⟩
  | extend m t => exact modifyDeclOf_refines u m fun shape => by cases shape <;> rfl
  | satisfy m t => exact modifyDeclOf_refines u m fun shape => by cases shape <;> rfl
  | declare m t => exact modifyDeclOf_refines u m fun shape => by cases shape <;> rfl

/-- Resolving the names of a unit refines the state. -/
theorem resolveNames_refines (u : UnitId) : Leads State.Refines (resolveNames u) := by
  refine .get_bind fun s => ?_
  simp only
  split
  · exact .pure _
  · split
    · exact .pure _
    · refine .bind (logStep_refines _ _ _) fun _ =>
        .bind (.run (resolution_perform_refines u) _) fun outcome => ?_
      cases outcome with
      | ok _ => exact .bind (setPhase_refines u rfl) fun _ => .pure _
      | error e => exact .bind (fail_refines _ _) fun _ => .pure _

/-! ## Checking expressions -/

/-- A relation that holds between the states before and after each step of checking. -/
structure CheckSteps (R : State → State → Prop) : Prop where
  report : ∀ u n message, Leads R (report u n message)
  tables : ∀ (s : State) types targets inferred inferring more checked, R s { s with
    graph := { s.graph with inferred }, types, targets, inferring, circular := more ++ s.circular, checked }

namespace CheckSteps

variable {R : State → State → Prop} [IsPreorder State R] (h : CheckSteps R)
include h

section

variable {f : State} {demand : UnitId → Task → Analyze Unit} (hdemand : ∀ u task, Leads R (demand u task))
include hdemand

/-- Demanding the type of a declaration leads along every such relation. -/
theorem demandType (d : DeclId) : Leads R (Checking.demandType f demand d) := by
  refine .get_bind fun s => ?_
  simp only
  split
  · exact .pure _
  · split
    · exact .pure _
    · next u task _ =>
      split
      · exact .bind (fun s => h.tables s _ _ _ _ [_] _) fun _ => .pure _
      · split
        · exact .pure _
        · exact .bind (hdemand u task) fun _ => .get_bind fun _ => .pure _

/-- What checking does at a step leads along every such relation. -/
theorem perform (u : UnitId) (act : Act) : Leads R (Checking.perform f demand u act) := by
  cases act with
  | ask q =>
    cases q with
    | typeOf d => exact h.demandType hdemand d
    | problem n message => exact h.report u n message
  | settle m t target => exact fun s => h.tables s _ _ _ _ [] _
  | infer m t => exact fun s => h.tables s _ _ _ _ [] _
  | visit task => exact hdemand u task

end

/-- Checking a task leads along every such relation, and so does what it demands of others. -/
theorem performTask (f : State) (depth : Nat) (u : UnitId) (task : Task) :
    Leads R (Checking.performTask f depth u task) := by
  induction depth generalizing u task with
  | zero => exact .pure ()
  | succ depth ih =>
    refine .get_bind fun s => ?_
    split
    · exact .pure ()
    · refine .bind (fun s => h.tables s _ _ _ _ [] _) fun _ => .bind (.run (h.perform ih u) _) fun t =>
        .bind (fun s => h.tables s _ _ _ _ [] _) fun _ => ?_
      split
      · exact fun s => h.tables s _ _ _ _ [] _
      · exact .pure ()

end CheckSteps

/-- The steps of checking refine the state. -/
theorem checkSteps_refines : CheckSteps State.Refines where
  report := report_refines
  tables s _ _ _ _ _ _ := s.refines_tables ..

/-- Checking a unit refines the state. -/
theorem checkExpressions_refines (u : UnitId) : Leads State.Refines (checkExpressions u) := by
  refine .get_bind fun s => ?_
  simp only
  split
  · exact .pure ()
  · exact .bind (logStep_refines _ _ _) fun _ => .bind (checkSteps_refines.performTask _ _ _ _) fun _ =>
      setPhase_refines u rfl

/-! ## Packages and modules -/

/-- A relation that holds between the states before and after each step of resolving modules that neither
takes a unit to a phase nor ends its analysis. -/
structure ModuleSteps (R : State → State → Prop) : Prop where
  log : ∀ u phase message, Leads R (logStep u phase message)
  report : ∀ u n message, Leads R (report u n message)
  modules : ∀ (s : State) packages modules declared stack,
    R s { s with graph := { s.graph with packages, modules }, declared, stack }

namespace ModuleSteps

variable {R : State → State → Prop} [IsPreorder State R] (h : ModuleSteps R)
include h

theorem packageNamed (name : List String) : Leads R (packageNamed name) := by
  refine .get_bind fun s => ?_
  split
  · exact .pure _
  · exact .get_bind fun _ => .bind (fun s => h.modules s _ _ _ _) fun _ => .pure _

omit [IsPreorder State R] in
theorem addPackage (m : ModuleId) (p : PackageId) : Leads R (modifyGraph (·.addPackage m p)) :=
  fun s => h.modules s _ _ _ _

omit [IsPreorder State R] in
theorem addDependency (m dep : ModuleId) : Leads R (modifyGraph (·.addDependency m dep)) :=
  fun s => h.modules s _ _ _ _

theorem addDeclared (u : UnitId) (name : List String) (claimed : PathStack ModuleId) :
    Leads R (addDeclared u name claimed) := by
  refine .get_bind fun s => .bind (fun s => h.modules s _ _ _ _) fun m =>
    .bind (fun s => h.modules s _ _ _ _) fun _ => .get_bind fun s => ?_
  split
  · exact h.addPackage _ _
  · exact .pure ()

/-- Resolving the module of a unit leads along every such relation. -/
theorem resolveModule {u : UnitId} (hphase : Leads R (setPhase u .moduleResolved))
    (hfail : ∀ failure, Leads R (fail u failure)) : Leads R (resolveModule u) := by
  have settled : Leads R (setPhase u .moduleResolved >>= fun _ => pure (none : Option Failure)) :=
    .bind hphase fun _ => .pure none
  refine .get_bind fun s => ?_
  simp only
  split
  · exact .pure _
  · split
    · exact .pure _
    · split
      · exact settled
      · refine .bind (h.log _ _ _) fun _ => ?_
        split
        · exact .bind (hfail _) fun _ => .pure _
        · split
          · exact .bind (h.report _ _ _) fun _ => .bind (h.addDeclared _ _ _) fun _ => settled
          · exact .bind (h.addDeclared _ _ _) fun _ => settled

/-- Resolving the dependencies of modules leads along every such relation. -/
theorem resolveDependencies : Leads R resolveDependencies := by
  refine .get_bind fun s => .bind (.forIn (fun m _ => ?_) _) fun _ => h.addDependency _ _
  refine .bind (h.addDependency _ _) fun _ => .get_bind fun s => ?_
  split
  · exact .pure _
  · refine .get_bind fun s => .bind (.forIn (fun i _ => .get_bind fun s => ?_) _) fun _ => .pure _
    split
    · exact .bind (h.report _ _ _) fun _ => .pure _
    · split
      · exact .bind (h.report _ _ _) fun _ => .pure _
      · exact .bind (h.addDependency _ _) fun _ => .pure _

end ModuleSteps

/-- An action that refines the state advances it. -/
theorem Leads.advances {α : Type} {m : Analyze α} (h : Leads State.Refines m) :
    Leads State.Advances m :=
  h.mono fun _ _ h => h.toAdvances

/-- The steps of resolving modules advance the state. -/
theorem moduleSteps_advances : ModuleSteps State.Advances where
  log u phase message := (logStep_refines u phase message).advances
  report u n message := (report_refines u n message).advances
  modules s _ _ _ _ := ⟨⟨rfl, rfl, rfl, fun _ => rfl, rfl, rfl⟩, rfl, fun u => .refl (s.unit u)⟩

theorem packageNamed_advances (name : List String) : Leads State.Advances (packageNamed name) :=
  ModuleSteps.packageNamed moduleSteps_advances name

theorem addPackage_advances (m : ModuleId) (p : PackageId) :
    Leads State.Advances (modifyGraph (·.addPackage m p)) :=
  ModuleSteps.addPackage moduleSteps_advances m p

theorem addDependency_advances (m dep : ModuleId) :
    Leads State.Advances (modifyGraph (·.addDependency m dep)) :=
  ModuleSteps.addDependency moduleSteps_advances m dep

theorem resolveModule_advances (u : UnitId) : Leads State.Advances (resolveModule u) :=
  ModuleSteps.resolveModule moduleSteps_advances (setPhase_refines u rfl).advances
    fun failure => (fail_refines u failure).advances

theorem resolveDependencies_advances : Leads State.Advances resolveDependencies :=
  ModuleSteps.resolveDependencies moduleSteps_advances

end Ceylon.Analysis
