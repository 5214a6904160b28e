import Ceylon.Proofs.Analyses
import Ceylon.Proofs.Loading

/-!
# What holds throughout an analysis

A property of states that every action of loading a source tree keeps holds when the tree has been loaded
(`SourceTree.LoadKeeps.load`), and one that resolving and checking keep holds when all is done
(`RunKeeps.run`).  So all states that an analysis of a source tree comes to are reached by its phases
(`SourceTree.analyze_reached`).
-/

namespace Ceylon.Analysis

open Model Files

/-- From the first state to the second, a property has not been lost. -/
def Keeps (P : State → Prop) (s s' : State) : Prop :=
  P s → P s'

/-- Keeping an invariant is reflexive and transitive. -/
instance (P : State → Prop) : IsPreorder State (Keeps P) where
  refl _ := id
  trans _ _ _ h h' := h' ∘ h

/-! ## Loading -/

/-- A property that is kept by what loading a tree does: a file is read, and its unit bound, at once. -/
structure SourceTree.LoadKeeps (t : SourceTree) (P : State → Prop) : Prop where
  package : ∀ name, Leads (Keeps P) (packageNamed name)
  own : ∀ m p, Leads (Keeps P) (modifyGraph (·.addPackage m p))
  file : ∀ p f, Leads (Keeps P) (t.addSource p f >>= declareModule)
  walk : ∀ (s : State) stack log trace, P s → P { s with stack, log, trace }

/-- A property that is kept by each of the actions of loading a tree. -/
structure SourceTree.LoadActions (t : SourceTree) (P : State → Prop) : Prop where
  package : ∀ name, Leads (Keeps P) (packageNamed name)
  own : ∀ m p, Leads (Keeps P) (modifyGraph (·.addPackage m p))
  source : ∀ p f, Leads (Keeps P) (t.addSource p f)
  bind : ∀ (s : State) (u : UnitId), u.index < s.units.size → P s → P (bindDeclarations u s).2
  module : ∀ u, Leads (Keeps P) (resolveModule u)
  walk : ∀ (s : State) stack log trace, P s → P { s with stack, log, trace }

/-- Reading a source file adds a unit. -/
theorem SourceTree.addSource_valid (t : SourceTree) (p : PackageId) (f : SourceFile) (s : State) :
    (t.addSource p f s).1.index < (t.addSource p f s).2.units.size := by
  have hvalid : s.units.size < (addUnit f.path (t.reading f).unit p s).2.units.size :=
    (Nat.lt_succ_self _).trans_eq (Array.size_push _).symm
  rw [addSource_fst]
  cases hfault : (t.reading f).fault with
  | none =>
    rw [addSource_of_no_fault t p f hfault]
    exact hvalid
  | some e =>
    rw [addSource_of_fault t p f hfault]
    exact hvalid.trans_eq (Array.size_modify ..).symm

/-- The trace is no part of an invariant that survives writing to it. -/
theorem traced_keeps {P : State → Prop} (hwalk : ∀ (s : State) trace, P s → P { s with trace }) {α : Type}
    (span : Span) {m : Analyze α} (hm : Leads (Keeps P) m) : Leads (Keeps P) (traced span m) :=
  .bind (fun s => hwalk s _) fun _ => .bind hm fun _ => .bind (fun s => hwalk s _) fun a => .pure a

/-- Declaring the module of a unit keeps what binding it leads to, if it is kept while modules are resolved.  A
unit that has failed is left as it is. -/
theorem SourceTree.declareModule_keeps {P : State → Prop} (hwalk : ∀ (s : State) trace, P s → P { s with trace })
    {u : UnitId} (hmodule : Leads (Keeps P) (resolveModule u)) {s : State}
    (hfailed : (s.unit u).failure.isSome = true → P s)
    (hbound : P (bindDeclarations u { s with trace := s.trace.push ⟨true, s.span u .bound⟩ }).2) :
    P (declareModule u s).2 := by
  rw [declareModule, get_bind_apply]
  split
  · next hsome => exact hfailed hsome
  · rw [get_bind_apply, bind_apply]
    refine Leads.get_bind (R := Keeps P) (fun s' => .bind (traced_keeps hwalk _ hmodule) fun outcome => ?_) _
      (hwalk _ _ hbound)
    split <;> exact .pure _

/-- An invariant kept by the actions of a load is kept by the load. -/
theorem SourceTree.LoadActions.keeps {t : SourceTree} {P : State → Prop} (h : t.LoadActions P) :
    t.LoadKeeps P where
  package := h.package
  own := h.own
  walk := h.walk
  file p f s hs := by
    have hvalid := t.addSource_valid p f s
    have hadded := h.source p f s hs
    rw [bind_apply]
    generalize (t.addSource p f s).1 = u at hvalid ⊢
    generalize (t.addSource p f s).2 = s at hvalid hadded ⊢
    have hwalk (s : State) (trace) : P s → P { s with trace } := h.walk s s.stack s.log trace
    exact SourceTree.declareModule_keeps hwalk (h.module u) (fun _ => hadded) (h.bind _ u hvalid (hwalk s _ hadded))

namespace SourceTree.LoadKeeps

variable {t : SourceTree} {P : State → Prop} (h : t.LoadKeeps P)
include h

/-- The trace around an action does not matter. -/
theorem traced {α : Type} (span : Span) {m : Analyze α} (hm : Leads (Keeps P) m) :
    Leads (Keeps P) (traced span m) :=
  traced_keeps (fun s => h.walk s _ _) span hm

/-- One step per file. -/
theorem loadFiles (p : PackageId) (fs : List SourceFile) : Leads (Keeps P) (t.loadFiles p fs) := by
  induction fs with
  | nil => exact .pure none
  | cons f fs ih =>
    rw [SourceTree.loadFiles, ← bind_assoc]
    refine .bind (h.file p f) fun outcome => ?_
    cases outcome with
    | some e => exact .pure _
    | none => exact ih

theorem ownPackage (p : PackageId) : Leads (Keeps P) (ownPackage p) := by
  refine .get_bind fun s => ?_
  dsimp only
  split
  · exact h.own _ _
  · exact .pure ()

theorem loadPackage (files : List SourceFile) : Leads (Keeps P) (t.loadPackage files) := by
  refine .get_bind fun s => .bind (h.package _) fun p => .bind (h.loadFiles p _) fun outcome => ?_
  cases outcome with
  | some e => exact .pure _
  | none => exact .bind (h.ownPackage p) fun _ => h.loadFiles p _

mutual

theorem loadFolder : (f : SourceFolder) → Leads (Keeps P) (t.loadFolder f)
  | .mk _ _ _ files folders => by
    rw [SourceTree.loadFolder]
    refine .bind (h.loadPackage files) fun outcome => ?_
    cases outcome with
    | some e => exact .pure _
    | none => exact loadFolders folders

theorem loadFolders : (fs : List SourceFolder) → Leads (Keeps P) (t.loadFolders fs)
  | [] => by
    rw [SourceTree.loadFolders]
    exact .pure none
  | f :: fs => by
    rw [SourceTree.loadFolders]
    refine .bind (fun s => h.walk s _ _ _) fun _ => .bind (loadFolder f) fun outcome =>
      .bind (fun s => h.walk s _ _ _) fun _ => ?_
    cases outcome with
    | some e => exact .pure _
    | none => exact loadFolders fs

end

/-- The whole load, by the recursion over folders above. -/
theorem load (exclude : List String) : Leads (Keeps P) (t.load exclude) := by
  refine h.traced _ ?_
  split
  · exact .pure _
  · next folder _ =>
    exact .bind (h.traced _ (.pure ())) fun _ => .bind (fun s => h.walk s _ _ _) fun _ =>
      .bind (h.loadFolder folder) fun _ => .bind (fun s => h.walk s _ _ _) fun _ => .pure _

end SourceTree.LoadKeeps

/-! ## Completing the analysis -/

/-- A property that is kept by what is done once all units are loaded. -/
structure RunKeeps (P : State → Prop) : Prop where
  dependencies : Leads (Keeps P) resolveDependencies
  names : ∀ u, Leads (Keeps P) (resolveNames u)
  check : ∀ u, Leads (Keeps P) (checkExpressions u)
  walk : ∀ (s : State) trace, P s → P { s with trace }

namespace RunKeeps

variable {P : State → Prop} (h : RunKeeps P)
include h

theorem traced {α : Type} (span : Span) {m : Analyze α} (hm : Leads (Keeps P) m) :
    Leads (Keeps P) (traced span m) :=
  traced_keeps h.walk span hm

/-- A run: dependencies, names, then expressions, each over the user units. -/
theorem run : Leads (Keeps P) run := by
  refine .bind (h.traced _ h.dependencies) fun _ => .get_bind fun s => .bind (.forIn (fun u _ => ?_) _) fun _ =>
    .get_bind fun s => .bind (.forIn (fun u _ => ?_) _) fun _ => .pure _
  · exact .get_bind fun s => .bind (h.traced _ (.discard (h.names u))) fun _ => .pure _
  · exact .get_bind fun s => .bind (h.traced _ (h.check u)) fun _ => .pure _

end RunKeeps

/-- Two properties for what is done once all units are loaded: one that is kept while names are resolved,
and one that then holds while expressions are checked.  Both speak of the units that are done. -/
structure RunStages (P Q : (UnitId → Prop) → State → Prop) : Prop where
  dependencies : ∀ done s, P done s → P done (resolveDependencies s).2
  names : ∀ done s u, u ≠ languageUnit → u.index < s.units.size → P done s →
    P (fun v => done v ∨ v = u) (resolveNames u s).2
  turn : ∀ s : State, P (· ∈ s.userUnits) s → Q (fun _ => False) s
  check : ∀ done s u, u ≠ languageUnit → u.index < s.units.size → Q done s →
    Q (fun v => done v ∨ v = u) (checkExpressions u s).2
  namesWalk : ∀ done (s : State) trace, P done s → P done { s with trace }
  checkWalk : ∀ done (s : State) trace, Q done s → Q done { s with trace }

/-- The user units are all but the language unit. -/
theorem State.mem_userUnits {s : State} {u : UnitId} :
    u ∈ s.userUnits ↔ u ≠ languageUnit ∧ u.index < s.units.size := by
  obtain ⟨i⟩ := u
  simp only [userUnits, List.mem_map, List.mem_range, UnitId.mk.injEq, languageUnit, ne_eq]
  constructor
  · rintro ⟨j, hj, rfl⟩
    exact ⟨Nat.succ_ne_zero j, by omega⟩
  · rintro ⟨hne, hi⟩
    exact ⟨i - 1, by omega, by omega⟩

/-- Taking care of one unit after the other. -/
theorem forIn_units {P : (UnitId → Prop) → State → Prop} (us : List UnitId)
    {f : UnitId → PUnit → Analyze (ForInStep PUnit)}
    (hf : ∀ done s u r, u ∈ us → P done s →
      (∃ r', (f u r s).1 = .yield r') ∧ P (fun v => done v ∨ v = u) (f u r s).2)
    {done : UnitId → Prop} {s : State} (hs : P done s) (r : PUnit) :
    P (fun v => done v ∨ v ∈ us) (ForIn.forIn us r f s).2 := by
  induction us generalizing done s r with
  | nil =>
    have hdone : (fun v => done v ∨ v ∈ ([] : List UnitId)) = done := by
      funext v
      simp
    rw [hdone]
    exact hs
  | cons u us ih =>
    obtain ⟨⟨r', hr'⟩, hu⟩ := hf done s u r List.mem_cons_self hs
    rw [List.forIn_cons, bind_apply, hr']
    -- Each turn yields, so that the loop goes on with the units that are left.
    have hrest := ih (fun done s v r hv => hf done s v r (List.mem_cons_of_mem u hv)) hu r'
    have hdone : (fun v => done v ∨ v ∈ u :: us) = fun v => (done v ∨ v = u) ∨ v ∈ us := by
      funext v
      simp [or_assoc]
    rw [hdone]
    exact hrest

/-- An action on every unit of the program, with its span in the trace. -/
def onUnits (phase : Phase) (f : UnitId → Analyze Unit) : Analyze Unit := do
  for u in (← get).userUnits do
    traced ((← get).span u phase) (f u)

theorem run_eq : run = (do
    traced { phase := "resolve-dependencies" } resolveDependencies
    onUnits .namesResolved fun u => discard (resolveNames u)
    onUnits .checked checkExpressions) := rfl

/-- A property that speaks of the units that are done holds of all of them at the end. -/
theorem onUnits_done {P : (UnitId → Prop) → State → Prop} (phase : Phase) {f : UnitId → Analyze Unit}
    (hf : ∀ done s u, u ≠ languageUnit → u.index < s.units.size → P done s → P (fun v => done v ∨ v = u) (f u s).2)
    (hwalk : ∀ done (s : State) trace, P done s → P done { s with trace })
    (hrefines : ∀ u, Leads State.Refines (f u)) {s : State} (hs : P (fun _ => False) s) :
    P (· ∈ (onUnits phase f s).2.userUnits) (onUnits phase f s).2 := by
  -- No unit is added on the way, so that the units to be done are there all the time.
  have hloop := forIn_units (P := fun done s' => P done s' ∧ s'.units.size = s.units.size) s.userUnits
    (f := fun u _ => do
      traced ((← get).span u phase) (f u)
      return ForInStep.yield PUnit.unit)
    (fun done s' u _ hu ⟨hs', hsize⟩ => by
      obtain ⟨hne, hvalid⟩ := State.mem_userUnits.mp hu
      refine ⟨⟨_, rfl⟩, hwalk _ _ _ (hf _ _ u hne (hvalid.trans_eq hsize.symm) (hwalk _ _ _ hs')), ?_⟩
      exact (hrefines u { s' with trace := s'.trace.push ⟨true, s'.span u phase⟩ }).count.trans hsize)
    ⟨hs, rfl⟩ PUnit.unit
  simp only [false_or] at hloop
  have hunits : (onUnits phase f s).2.userUnits = s.userUnits := by
    rw [State.userUnits, State.userUnits]
    exact congrArg (fun n => (List.range (n - 1)).map fun i => UnitId.mk (i + 1)) hloop.2
  rw [hunits]
  exact hloop.1

/-- Once names and expressions of all units are done, the second property holds of all of them. -/
theorem RunStages.run {P Q : (UnitId → Prop) → State → Prop} (h : RunStages P Q) {s : State}
    (hs : P (fun _ => False) s) : Q (· ∈ (run s).2.userUnits) (run s).2 := by
  rw [run_eq, bind_apply, bind_apply]
  have hdependencies : P (fun _ => False) (traced { phase := "resolve-dependencies" } resolveDependencies s).2 :=
    h.namesWalk _ _ _ (h.dependencies _ _ (h.namesWalk _ _ _ hs))
  have hnames := onUnits_done .namesResolved h.names h.namesWalk
    (fun u => (resolveNames_refines u).discard) hdependencies
  exact onUnits_done .checked h.check h.checkWalk checkExpressions_refines (h.turn _ hnames)

/-- What completing an analysis comes to, when loading a tree has kept a property that holds at first. -/
theorem SourceTree.analyze_then {t : SourceTree} {P Q : State → Prop} (hload : t.LoadKeeps P)
    (hinitial : P .initial) (hrun : ∀ s, P s → Q (run s).2) (exclude : List String) :
    Q (t.analyze exclude).2 := by
  unfold SourceTree.analyze
  generalize State.initial = initial at hinitial ⊢
  have hloaded : P ((t.load exclude).run initial).2 := hload.load exclude initial hinitial
  generalize (t.load exclude).run initial = loaded at hloaded ⊢
  obtain ⟨outcome, s⟩ := loaded
  simp only [StateT.run]
  exact hrun s hloaded

/-- A property that holds at first, and that loading a tree and completing its analysis keep, holds at the
end. -/
theorem SourceTree.analyze_keeps {t : SourceTree} {P : State → Prop} (hload : t.LoadActions P)
    (hrun : RunKeeps P) (hinitial : P .initial) (exclude : List String) : P (t.analyze exclude).2 :=
  analyze_then hload.keeps hinitial hrun.run exclude

/-! ## The states of an analysis -/

/-- Reachability is itself an invariant of loading. -/
theorem SourceTree.loadActions_reached (t : SourceTree) : t.LoadActions State.Reached where
  package name s hs := .package name hs
  own m p s hs := .own m p hs
  source p f s hs := by
    have hadded := State.Reached.unit f.path ⟨f.path, Path.join [t.root, f.path]⟩
      (Text.Glyph.ofString ((t.files.read (Path.join [t.root, f.path])).toOption.getD "")) p hs
    cases hfault : (t.reading f).fault with
    | none =>
      rw [addSource_of_no_fault t p f hfault]
      exact hadded
    | some e =>
      rw [addSource_of_fault t p f hfault]
      exact .fail _ _ hadded
  bind s u hu hs := .bind hu hs
  module u s hs := .module u hs
  walk s stack log trace hs := .walk stack log trace hs

/-- And of running. -/
theorem runKeeps_reached : RunKeeps State.Reached where
  dependencies _ hs := .dependencies hs
  names u _ hs := .names u hs
  check u _ hs := .check u hs
  walk s trace hs := .walk s.stack s.log trace hs

/-- Analyzing a source tree takes its units through their phases. -/
theorem SourceTree.analyze_reached (t : SourceTree) (exclude : List String) :
    (t.analyze exclude).2.Reached :=
  analyze_keeps t.loadActions_reached runKeeps_reached .initial exclude

end Ceylon.Analysis
