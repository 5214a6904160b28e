import Ceylon.Proofs.Invariants
import Ceylon.Proofs.Packages

/-!
# Files at the root of a source tree

A source tree whose root declares a module is not loaded (`SourceTree.heading_of_load`), and a file at the root that
cannot be parsed is reported by the analysis (`SourceTree.analyze_reports`).
-/

namespace Ceylon.Analysis

open Model Files

/-! ## Modules -/

namespace Inventory

variable {heading : SourceFile → Heading} {p : PackageId} {fs : List SourceFile} {i : Inventory}

/-- The root is where loading begins, and it may not be claimed. -/
theorem loadFiles_root (hi : i.stack = some {}) (h : (loadFiles heading p fs i).1 = true) :
    (loadFiles heading p fs i).2.stack = some {} ∧ ∀ f ∈ fs, heading f ≠ .valid := by
  induction fs generalizing i with
  | nil => exact ⟨hi, fun f hf => absurd hf List.not_mem_nil⟩
  | cons f fs ih =>
    rw [loadFiles, andThen] at h ⊢
    obtain ⟨hf, hadd⟩ | ⟨-, -, hne, -⟩ | ⟨-, hadd⟩ := add_cases hi f.path p (heading f)
    · rw [hadd] at h ⊢
      obtain ⟨hstack, hfs⟩ := ih (i := i.place f.path p (heading f)) hi h
      exact ⟨hstack, List.forall_mem_cons.mpr ⟨hf, hfs⟩⟩
    · exact absurd rfl hne
    · rw [hadd] at h
      cases h

/-- At the root no file of a package that is loaded has a valid header. -/
theorem loadPackage_root {files : List SourceFile} (hi : i.stack = some {})
    (h : (loadPackage heading files i).1 = true) : ∀ f ∈ files, heading f ≠ .valid := by
  simp only [loadPackage, andThen] at h
  have hnamed := (i.packageNamed_stack i.here).1.trans hi
  split at h
  · next j hj =>
    have hdescriptors := loadFiles_root hnamed (congrArg Prod.fst hj)
    rw [hj] at hdescriptors
    have hothers := loadFiles_root ((j.ownPackage_stack _).1.trans hdescriptors.1) h
    intro f hf
    rcases List.mem_append.mp ((inOrder_perm files).mem_iff.mpr hf) with hf | hf
    · exact hdescriptors.2 f hf
    · exact hothers.2 f hf
  · cases h

/-- At the root no file of a folder that is loaded has a valid header. -/
theorem loadFolder_root {folder : SourceFolder} (hi : i.stack = some {})
    (h : (loadFolder heading folder i).1 = true) : ∀ f ∈ folder.files, heading f ≠ .valid := by
  obtain ⟨name, path, segments, files, folders⟩ := folder
  rw [loadFolder, andThen] at h
  split at h
  · next j hj => exact loadPackage_root hi (congrArg Prod.fst hj)
  · cases h

end Inventory

/-- No file at the root of a tree that is loaded declares a module. -/
theorem SourceTree.heading_of_load {t : SourceTree} {exclude : List String} {folder : SourceFolder} {s : State}
    (hscan : t.files.scan t.root exclude = .ok folder) (h : (t.load exclude s).1 = none) :
    ∀ f ∈ folder.files, t.heading f ≠ .valid := by
  have houtcome := (t.load_inventory hscan s).1
  rw [h] at houtcome
  exact Inventory.loadFolder_root rfl houtcome.symm

/-! ## Problems -/

/-- From the first state to the second, no unit and no problem has been lost. -/
structure State.KeepsProblems (s s' : State) : Prop where
  count : s.units.size ≤ s'.units.size
  problems : ∀ u, ∀ d ∈ (s.unit u).diagnostics, d ∈ (s'.unit u).diagnostics

namespace State

variable {s s' : State} {d : Diagnostic}

instance : IsPreorder State State.KeepsProblems where
  refl _ := ⟨le_rfl, fun _ _ => id⟩
  trans _ _ _ h h' := ⟨h.count.trans h'.count, fun u d hd => h'.problems u d (h.problems u d hd)⟩

/-- Advancing loses no problem. -/
theorem Advances.keepsProblems (h : s.Advances s') : s.KeepsProblems s' :=
  ⟨h.count.ge, fun u => (h.units u).kept⟩

/-- Problems are those of the units. -/
theorem keepsProblems_of_units (h : s'.units = s.units) : s.KeepsProblems s' :=
  ⟨(congrArg Array.size h).ge, fun u d hd => by rwa [unit, h]⟩

/-- A problem has been found in a unit of the program. -/
def Reports (d : Diagnostic) (s : State) : Prop :=
  ∃ u, u ≠ languageUnit ∧ d ∈ (s.unit u).diagnostics

/-- A problem that has been reported stays. -/
theorem Reports.keeps (hs : Reports d s) (h : s.KeepsProblems s') : Reports d s' := by
  obtain ⟨u, hu, hd⟩ := hs
  exact ⟨u, hu, h.problems u d hd⟩

/-- A problem that has been reported is one of the problems of the analysis. -/
theorem Reports.mem_diagnostics (hs : Reports d s) : d ∈ s.diagnostics := by
  obtain ⟨u, hu, hd⟩ := hs
  have hvalid : u.index < s.units.size := by
    by_contra hinvalid
    rw [unit, Array.getD_eq_getD_getElem?, Array.getElem?_eq_none (by omega)] at hd
    exact absurd hd (Array.not_mem_empty d)
  rw [diagnostics, Diagnostic.sort, List.mem_mergeSort, List.mem_flatMap]
  exact ⟨u, mem_userUnits.mpr ⟨hu, hvalid⟩, List.mem_mergeSort.mpr (Array.mem_toList_iff.mpr hd)⟩

end State

/-- The problem of a unit that cannot be parsed. -/
def unparsed (e : Syntax.SyntaxError) : Diagnostic :=
  ⟨.error, e.fault.message, none, some e.location⟩

/-- Adding a unit loses no problem. -/
theorem addUnit_keepsProblems (path : String) (tree : Syntax.CompilationUnit) (p : PackageId) :
    Leads State.KeepsProblems (addUnit path tree p) := by
  intro s
  refine ⟨(Nat.le_succ _).trans_eq (Array.size_push _).symm, fun u d hd => ?_⟩
  rw [unit_addUnit]
  split
  · next hu =>
    rw [State.unit, Array.getD_eq_getD_getElem?, Array.getElem?_eq_none hu.ge] at hd
    exact absurd hd (Array.not_mem_empty d)
  · exact hd

/-- Changing a unit loses no problem if the change loses none. -/
theorem modifyUnit_keepsProblems (u : UnitId) {g : UnitState → UnitState}
    (hg : ∀ unit, ∀ d ∈ unit.diagnostics, d ∈ (g unit).diagnostics) : Leads State.KeepsProblems (modifyUnit u g) := by
  intro s
  change s.KeepsProblems { s with units := s.units.modify u.index g }
  refine ⟨(Array.size_modify ..).ge, fun v d hd => ?_⟩
  rw [State.unit_modify]
  split
  · exact hg _ d hd
  · exact hd

/-- Binding loses no problem. -/
theorem bindDeclarations_keepsProblems (u : UnitId) : Leads State.KeepsProblems (bindDeclarations u) := by
  have hperform (step : BindStep) : Leads State.KeepsProblems (Binding.perform u step) := by
    cases step with
    | declare node name shared shape scope =>
      refine .bind (fun s => State.keepsProblems_of_units rfl) fun d => .bind ?_ fun _ => .pure d
      unfold Binding.listDeclaration
      split
      · exact modifyUnit_keepsProblems u fun _ _ => id
      · exact .pure ()
    | _ => exact fun s => State.keepsProblems_of_units rfl
  refine .get_bind fun s => ?_
  dsimp only
  split
  · exact .pure ()
  · exact .bind (fun s => State.keepsProblems_of_units rfl) fun _ => .bind (modifyUnit_keepsProblems u fun _ _ => id)
      fun _ => .bind (.run hperform _) fun _ => modifyUnit_keepsProblems u fun _ _ => id

namespace SourceTree

variable {t : SourceTree} {p : PackageId} {f : SourceFile} {s : State} {e : Syntax.SyntaxError}

/-- Adding a source loses no problem. -/
theorem addSource_keepsProblems (t : SourceTree) (p : PackageId) (f : SourceFile) :
    Leads State.KeepsProblems (t.addSource p f) := by
  intro s
  have hadded := addUnit_keepsProblems f.path (t.reading f).unit p s
  cases hfault : (t.reading f).fault with
  | none =>
    rw [addSource_of_no_fault t p f hfault]
    exact hadded
  | some e =>
    rw [addSource_of_fault t p f hfault]
    exact trans_of State.KeepsProblems hadded (fail_refines _ _ _).toAdvances.keepsProblems

/-- A property that stays as long as no problem is lost. -/
theorem loadActions_of_keepsProblems {P : State → Prop} (hP : ∀ {s s' : State}, s.KeepsProblems s' → P s → P s') :
    t.LoadActions P where
  package name _ := hP (packageNamed_advances name _).keepsProblems
  own m p _ := hP (addPackage_advances m p _).keepsProblems
  source p f s := hP (t.addSource_keepsProblems p f s)
  bind s u _ := hP (bindDeclarations_keepsProblems u s)
  module u s := hP (resolveModule_advances u s).keepsProblems
  walk _ _ _ _ := hP (State.keepsProblems_of_units rfl)

/-- A run keeps what losing no problem keeps. -/
theorem runKeeps_of_keepsProblems {P : State → Prop} (hP : ∀ {s s' : State}, s.KeepsProblems s' → P s → P s') :
    RunKeeps P where
  dependencies _ := hP (resolveDependencies_advances _).keepsProblems
  names u _ := hP (resolveNames_refines u _).toAdvances.keepsProblems
  check u _ := hP (checkExpressions_refines u _).toAdvances.keepsProblems
  walk _ _ := hP (State.keepsProblems_of_units rfl)

/-- Loading keeps the unit of the language. -/
theorem loadKeeps_count (t : SourceTree) : t.LoadKeeps (0 < ·.units.size) :=
  (loadActions_of_keepsProblems fun h hs => lt_of_lt_of_le hs h.count).keeps

/-- Loading loses no problem. -/
theorem loadKeeps_reports (t : SourceTree) (d : Diagnostic) : t.LoadKeeps (State.Reports d) :=
  (loadActions_of_keepsProblems fun h hs => hs.keeps h).keeps

/-- Behind the unit of the language module, a file that cannot be parsed is reported when it is read. -/
theorem addSource_reports (hfault : (t.reading f).fault = some e) (hs : 0 < s.units.size) :
    State.Reports (unparsed e) (t.addSource p f s).2 := by
  refine ⟨⟨s.units.size⟩, fun h => hs.ne' (congrArg UnitId.index h), ?_⟩
  have hvalid : s.units.size < (addUnit f.path (t.reading f).unit p s).2.units.size :=
    (Nat.lt_succ_self _).trans_eq (Array.size_push _).symm
  rw [addSource_of_fault t p f hfault]
  have hunit := State.unit_modify (addUnit f.path (t.reading f).unit p s).2 ⟨s.units.size⟩ ⟨s.units.size⟩ fun unit =>
    { unit with
      failure := some (unit.failure.getD (.unparsable e))
      diagnostics := (unparsed e).addTo unit.diagnostics }
  rw [if_pos ⟨rfl, hvalid⟩, unit_added] at hunit
  refine (congrArg (unparsed e ∈ ·.diagnostics) hunit).mpr ?_
  simp [Diagnostic.addTo]

/-- Tracing an action loses no problem if the action loses none. -/
theorem traced_keepsProblems {α : Type} (span : Span) {m : Analyze α} (hm : Leads State.KeepsProblems m) :
    Leads State.KeepsProblems (traced span m) :=
  .bind (fun _ => State.keepsProblems_of_units rfl) fun _ => .bind hm fun _ =>
    .bind (fun _ => State.keepsProblems_of_units rfl) fun a => .pure a

/-- Declaring a module loses no problem. -/
theorem declareModule_keepsProblems (u : UnitId) : Leads State.KeepsProblems (declareModule u) := by
  refine .get_bind fun s => ?_
  split
  · exact .pure _
  · refine .get_bind fun _ => .bind (traced_keepsProblems _ (bindDeclarations_keepsProblems u)) fun _ =>
      .get_bind fun _ => .bind (traced_keepsProblems _ fun s => (resolveModule_advances u s).keepsProblems) fun outcome => ?_
    split <;> exact .pure _

/-- An action reports a problem if it comes to its end. -/
def Reporting (d : Diagnostic) (m : Analyze (Option LoadError)) : Prop :=
  ∀ s : State, 0 < s.units.size → (m s).1 = none → State.Reports d (m s).2

section

variable {d : Diagnostic} {m next : Analyze (Option LoadError)}

/-- What a first part reports is reported when the next one has followed. -/
theorem Reporting.andThen (h : Reporting d m) (hnext : Leads (Keeps (State.Reports d)) next) :
    Reporting d (m >>= fun | some e => pure (some e) | none => next) := by
  intro s hs hend
  have hm := h s hs
  rw [bind_apply] at hend ⊢
  generalize (m s).1 = outcome at hend hm ⊢
  cases outcome with
  | some e => cases hend
  | none => exact hnext _ (hm rfl)

/-- What a second part reports is reported when the first one has gone before. -/
theorem Reporting.after {α : Type} {m : Analyze α} {next : α → Analyze (Option LoadError)}
    (hm : Leads (Keeps (0 < ·.units.size)) m) (h : ∀ a, Reporting d (next a)) : Reporting d (m >>= next) :=
  fun s hs => h _ _ (hm s hs)

/-- Where loading fails nothing has to be reported. -/
theorem Reporting.of_some (d : Diagnostic) (e : LoadError) : Reporting d (pure (some e)) :=
  fun _ _ hend => by cases hend

/-- Reading the state does not matter to what is reported. -/
theorem Reporting.get_bind {f : State → Analyze (Option LoadError)} (h : ∀ s, Reporting d (f s)) :
    Reporting d (get >>= f) :=
  fun s => h s s

end

/-- A file that cannot be read is reported when files are loaded. -/
theorem loadFiles_reports (hfault : (t.reading f).fault = some e) (p : PackageId) {fs : List SourceFile} (hf : f ∈ fs) :
    Reporting (unparsed e) (t.loadFiles p fs) := by
  induction fs with
  | nil => exact absurd hf List.not_mem_nil
  | cons g fs ih =>
    rw [loadFiles, ← bind_assoc]
    rcases List.mem_cons.mp hf with rfl | hrest
    · refine Reporting.andThen (fun s hs _ => ?_) ((t.loadKeeps_reports _).loadFiles p fs)
      exact (addSource_reports hfault hs).keeps (declareModule_keepsProblems _ _)
    · refine .after (t.loadKeeps_count.file p g) fun outcome => ?_
      cases outcome with
      | some e => exact .of_some _ e
      | none => exact ih hrest

/-- A file that cannot be read is reported when its package is loaded. -/
theorem loadPackage_reports (hfault : (t.reading f).fault = some e) {files : List SourceFile} (hf : f ∈ files) :
    Reporting (unparsed e) (t.loadPackage files) := by
  refine .get_bind fun s => .after (t.loadKeeps_count.package _) fun p => ?_
  have hcount := t.loadKeeps_count
  have hkeeps := t.loadKeeps_reports (unparsed e)
  rcases List.mem_append.mp ((Inventory.inOrder_perm files).mem_iff.mpr hf) with hf | hf
  · exact .andThen (loadFiles_reports hfault p hf) (.bind (hkeeps.ownPackage p) fun _ => hkeeps.loadFiles p _)
  · refine .after (hcount.loadFiles p _) fun outcome => ?_
    cases outcome with
    | some e => exact .of_some _ e
    | none => exact .after (hcount.ownPackage p) fun _ => loadFiles_reports hfault p hf

/-- A file that cannot be read is reported when its folder is loaded. -/
theorem loadFolder_reports (hfault : (t.reading f).fault = some e) {folder : SourceFolder} (hf : f ∈ folder.files) :
    Reporting (unparsed e) (t.loadFolder folder) := by
  obtain ⟨name, path, segments, files, folders⟩ := folder
  rw [loadFolder]
  exact .andThen (loadPackage_reports hfault hf) ((t.loadKeeps_reports _).loadFolders folders)

/-- A file at the root that cannot be read is reported when the tree is loaded. -/
theorem load_reports {exclude : List String} {folder : SourceFolder} (hscan : t.files.scan t.root exclude = .ok folder)
    (hfault : (t.reading f).fault = some e) (hf : f ∈ folder.files) : Reporting (unparsed e) (t.load exclude) := by
  intro s hs hend
  rw [load, traced_fst, hscan] at hend
  rw [load, hscan]
  exact loadFolder_reports hfault hf _ hs hend

/-- When a tree has been analyzed, a file at its root that cannot be parsed has been reported. -/
theorem analyze_reports {exclude : List String} {folder : SourceFolder}
    (hscan : t.files.scan t.root exclude = .ok folder) (hfault : (t.reading f).fault = some e)
    (hf : f ∈ folder.files) (h : (t.analyze exclude).1 = none) : unparsed e ∈ (t.analyze exclude).2.diagnostics := by
  have hinitial : 0 < State.initial.units.size := by
    have hunits : (State.initial.units.map UnitState.placement).size = startingInventory.units.size :=
      congrArg (·.units.size) initial_inventory
    rw [Array.size_map] at hunits
    rw [hunits]
    decide
  have hrun : RunKeeps (State.Reports (unparsed e)) := runKeeps_of_keepsProblems fun h hs => hs.keeps h
  unfold SourceTree.analyze at h ⊢
  generalize State.initial = initial at hinitial h ⊢
  have hloaded : ((t.load exclude).run initial).1 = none → State.Reports _ ((t.load exclude).run initial).2 :=
    load_reports hscan hfault hf initial hinitial
  generalize (t.load exclude).run initial = loaded at hloaded h ⊢
  obtain ⟨outcome, s⟩ := loaded
  simp only [StateT.run] at h ⊢
  exact (hrun.run _ (hloaded h)).mem_diagnostics

/-- When a tree has been analyzed, no file at its root declares a module. -/
theorem heading_of_analyze {exclude : List String} {folder : SourceFolder}
    (hscan : t.files.scan t.root exclude = .ok folder) (h : (t.analyze exclude).1 = none) :
    ∀ f ∈ folder.files, t.heading f ≠ .valid := by
  unfold SourceTree.analyze at h
  generalize State.initial = initial at h
  have hloaded : ((t.load exclude).run initial).1 = none → _ := heading_of_load hscan
  generalize (t.load exclude).run initial = loaded at hloaded h
  obtain ⟨outcome, s⟩ := loaded
  exact hloaded h

/-- A tree that is analyzed without an error has been scanned. -/
theorem scan_of_analyze {exclude : List String} (h : (t.analyze exclude).1 = none) :
    ∃ folder, t.files.scan t.root exclude = .ok folder := by
  cases hscan : t.files.scan t.root exclude with
  | ok folder => exact ⟨folder, rfl⟩
  | error e =>
    unfold SourceTree.analyze at h
    generalize State.initial = initial at h
    have hloaded : ((t.load exclude).run initial).1 = some (.scan e) := (t.load_of_scan_error hscan initial).1
    generalize (t.load exclude).run initial = loaded at hloaded h
    obtain ⟨outcome, s⟩ := loaded
    cases hloaded.symm.trans h

end SourceTree

end Ceylon.Analysis
