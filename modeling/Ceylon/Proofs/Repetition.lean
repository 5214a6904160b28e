import Ceylon.Proofs.Invariants
import Ceylon.Proofs.Phases

/-!
# Completing an analysis once more

Completing an analysis a second time finds nothing left to do (`run_run`).  Resolving names and checking
expressions pass over the units that they have done, and over those that have failed.  Resolving the
dependencies of modules is not guarded in this way and does all its steps again.  But each step brings about
that the same step would change nothing (`State.Linked`), since a module depends on another one once and a
problem is recorded once, and nothing that follows undoes this.
-/

namespace Ceylon.Analysis

open Model Syntax

/-! ## Dependencies -/

/-- Has a module depend on the one that an import of its descriptor names. -/
def linkImport (m : ModuleId) (u : UnitId) (i : ModuleImport) : Analyze Unit := do
  match (← get).findModule? i.path.names with
  | none => report u (.path i.path) ("module not found: " ++ i.path.text)
  | some dep =>
    if dep = m then report u (.path i.path) ("module imports itself: " ++ i.path.text)
    else modifyGraph (·.addDependency m dep)

/-- The imports of the module that a unit declares. -/
def UnitState.moduleImports (u : UnitState) : List ModuleImport :=
  match u.tree.module with
  | some descriptor => descriptor.imports
  | none => []

/-- Has a declared module depend on the language module and on the modules that its descriptor imports. -/
def linkModule (m : ModuleId) : Analyze Unit := do
  modifyGraph (·.addDependency m languageModule)
  match ((← get).graph.module m).descriptor with
  | none => return
  | some u =>
    for i in ((← get).unit u).moduleImports do
      linkImport m u i

/-- Resolving dependencies links each module, and then the default one. -/
theorem resolveDependencies_eq : resolveDependencies = (do
    for m in (← get).declared do
      linkModule m
    modifyGraph (·.addDependency defaultModule languageModule)) := by
  -- The turns of the inner loop differ from linking an import only in how they return to the loop.
  have hlink : ∀ (m : ModuleId) (u : UnitId) (i : ModuleImport), (do
      match (← get).findModule? i.path.names with
      | none =>
        report u (.path i.path) ("module not found: " ++ i.path.text)
        pure (ForInStep.yield PUnit.unit)
      | some dep =>
        if dep = m then do
          report u (.path i.path) ("module imports itself: " ++ i.path.text)
          pure (ForInStep.yield PUnit.unit)
        else do
          modifyGraph (·.addDependency m dep)
          pure (ForInStep.yield PUnit.unit)) = (do
      linkImport m u i
      return ForInStep.yield PUnit.unit : Analyze _) := by
    intro m u i
    funext s
    rw [get_bind_apply, linkImport, bind_assoc, get_bind_apply]
    cases s.findModule? i.path.names with
    | none => rfl
    | some dep =>
      dsimp only
      split <;> rfl
  unfold resolveDependencies
  refine bind_congr fun s => ?_
  refine congrArg (· >>= _) (congrArg (ForIn.forIn s.declared PUnit.unit) (funext fun m => funext fun _ => ?_))
  rw [linkModule, bind_assoc]
  refine bind_congr fun _ => ?_
  rw [bind_assoc]
  refine bind_congr fun s => ?_
  cases (s.graph.module m).descriptor with
  | none => rfl
  | some u =>
    simp only [bind_assoc, pure_bind]
    refine bind_congr fun s => congrArg (· >>= _) ?_
    exact congrArg (ForIn.forIn (s.unit u).moduleImports PUnit.unit) (funext fun i => funext fun _ => hlink m u i)

/-! ## Links -/

section

variable (s : State)

/-- A module depends on another one, if there is such a module. -/
def State.DependsOn (m dep : ModuleId) : Prop :=
  m.index < s.graph.modules.size → dep ∈ (s.graph.module m).dependencies

/-- A problem has been reported at a node of a unit, if there is such a unit. -/
def State.Reported (u : UnitId) (n : Node) (message : String) : Prop :=
  u.index < s.units.size → ∃ d ∈ (s.unit u).diagnostics, d.key = (some n.mark.id, message)

/-- An import of the descriptor of a module has been dealt with. -/
def State.Follows (m : ModuleId) (u : UnitId) (i : ModuleImport) : Prop :=
  match s.findModule? i.path.names with
  | none => s.Reported u (.path i.path) ("module not found: " ++ i.path.text)
  | some dep =>
    if dep = m then s.Reported u (.path i.path) ("module imports itself: " ++ i.path.text)
    else s.DependsOn m dep

/-- A module depends on the language module, and all imports of its descriptor have been dealt with. -/
structure State.LinkedModule (m : ModuleId) : Prop where
  language : s.DependsOn m languageModule
  imports : ∀ u, (s.graph.module m).descriptor = some u → ∀ i ∈ (s.unit u).moduleImports, s.Follows m u i

/-- The dependencies of all declared modules have been resolved. -/
structure State.Linked : Prop where
  modules : ∀ m ∈ s.declared, s.LinkedModule m
  standard : s.DependsOn defaultModule languageModule

end

/-- From the first state to the second, the declared modules have stayed what they were, but that they may
depend on more modules and that more problems may have been found. -/
structure State.KeepsLinks (s s' : State) : Prop where
  declared : s'.declared = s.declared
  count : s'.units.size = s.units.size
  tree : ∀ u, (s'.unit u).tree = (s.unit u).tree
  kept : ∀ u, ∀ d ∈ (s.unit u).diagnostics, d ∈ (s'.unit u).diagnostics
  modules : s'.graph.modules.size = s.graph.modules.size
  name : ∀ m, (s'.graph.module m).name = (s.graph.module m).name
  descriptor : ∀ m, (s'.graph.module m).descriptor = (s.graph.module m).descriptor
  dependencies : ∀ m, ∀ dep ∈ (s.graph.module m).dependencies, dep ∈ (s'.graph.module m).dependencies

instance : IsPreorder State State.KeepsLinks where
  refl _ := ⟨rfl, rfl, fun _ => rfl, fun _ _ => id, rfl, fun _ => rfl, fun _ => rfl, fun _ _ => id⟩
  trans _ _ _ h h' := ⟨h'.declared.trans h.declared, h'.count.trans h.count, fun u => (h'.tree u).trans (h.tree u),
    fun u d hd => h'.kept u d (h.kept u d hd), h'.modules.trans h.modules, fun m => (h'.name m).trans (h.name m),
    fun m => (h'.descriptor m).trans (h.descriptor m), fun m d hd => h'.dependencies m d (h.dependencies m d hd)⟩

namespace State

variable {s s' : State} {m dep : ModuleId} {u : UnitId} {n : Node} {message : String} {i : ModuleImport}

/-- What refines a state keeps its links. -/
theorem Refines.keepsLinks (h : s.Refines s') : s.KeepsLinks s' where
  declared := h.declared
  count := h.count
  tree u := (h.units u).tree
  kept u := (h.units u).kept
  modules := congrArg Array.size h.modules
  name m := by rw [Graph.module, Graph.module, h.modules]
  descriptor m := by rw [Graph.module, Graph.module, h.modules]
  dependencies m dep hdep := by
    rw [Graph.module, h.modules]
    exact hdep

section

variable (h : s.KeepsLinks s')
include h

/-- Dependencies stay. -/
theorem DependsOn.mono (hs : s.DependsOn m dep) : s'.DependsOn m dep :=
  fun hm => h.dependencies m dep (hs (h.modules ▸ hm))

/-- Reported problems stay. -/
theorem Reported.mono (hs : s.Reported u n message) : s'.Reported u n message := by
  intro hu
  obtain ⟨d, hd, hkey⟩ := hs (h.count ▸ hu)
  exact ⟨d, h.kept u d hd, hkey⟩

/-- Modules stay under their names. -/
theorem KeepsLinks.findModule? (name : List String) : s'.findModule? name = s.findModule? name := by
  rw [State.findModule?, State.findModule?, h.declared]
  congr 1
  funext m
  rw [h.name]

/-- An import that has been followed stays so. -/
theorem Follows.mono (hs : s.Follows m u i) : s'.Follows m u i := by
  rw [Follows, h.findModule?]
  rw [Follows] at hs
  cases hfound : s.findModule? i.path.names with
  | none =>
    rw [hfound] at hs
    exact Reported.mono h hs
  | some dep =>
    rw [hfound] at hs
    dsimp only at hs ⊢
    split at hs
    · next hself =>
      rw [if_pos hself]
      exact hs.mono h
    · next hself =>
      rw [if_neg hself]
      exact hs.mono h

/-- The imports of a unit stay. -/
theorem KeepsLinks.moduleImports (u : UnitId) : (s'.unit u).moduleImports = (s.unit u).moduleImports := by
  rw [UnitState.moduleImports, UnitState.moduleImports, h.tree]

/-- A module that has been linked stays so. -/
theorem LinkedModule.mono (hs : s.LinkedModule m) : s'.LinkedModule m where
  language := hs.language.mono h
  imports u hu i hi := (hs.imports u (h.descriptor m ▸ hu) i (h.moduleImports u ▸ hi)).mono h

/-- Modules that have been linked stay so. -/
theorem Linked.mono (hs : s.Linked) : s'.Linked where
  modules m hm := (hs.modules m (h.declared ▸ hm)).mono h
  standard := hs.standard.mono h

end

end State

/-! ## Steps that leave nothing to do -/

/-- A module after one has been made to depend on another one. -/
theorem module_addDependency (g : Graph) (m dep m' : ModuleId) :
    (g.addDependency m dep).module m' =
      if m = m' ∧ m.index < g.modules.size then
        if (g.module m').dependencies.contains dep then g.module m'
        else { g.module m' with dependencies := (g.module m').dependencies ++ [dep] }
      else g.module m' := by
  refine (getD_modify ..).trans (if_congr ?_ rfl rfl)
  cases m
  cases m'
  simp

/-- Adding a dependency keeps links. -/
theorem addDependency_keepsLinks (m dep : ModuleId) :
    Leads State.KeepsLinks (modifyGraph (·.addDependency m dep)) := by
  intro s
  have hmodule := fun m' => module_addDependency s.graph m dep m'
  refine ⟨rfl, rfl, fun _ => rfl, fun _ _ => id, Array.size_modify .., fun m' => ?_, fun m' => ?_, fun m' d hd => ?_⟩
  · refine (congrArg Module.name (hmodule m')).trans ?_
    split <;> [split <;> rfl; rfl]
  · refine (congrArg Module.descriptor (hmodule m')).trans ?_
    split <;> [split <;> rfl; rfl]
  · change d ∈ ((s.graph.addDependency m dep).module m').dependencies
    rw [hmodule]
    split
    · split
      · exact hd
      · exact List.mem_append_left _ hd
    · exact hd

/-- A dependency that has been added is there. -/
theorem addDependency_dependsOn (m dep : ModuleId) (s : State) :
    (modifyGraph (·.addDependency m dep) s).2.DependsOn m dep := by
  intro hm
  change dep ∈ ((s.graph.addDependency m dep).module m).dependencies
  rw [module_addDependency, if_pos ⟨rfl, hm.trans_eq (Array.size_modify ..)⟩]
  split
  · next h => exact List.contains_iff_mem.mp h
  · exact List.mem_append_right _ List.mem_cons_self

/-- Adding a dependency again changes nothing. -/
theorem addDependency_of_dependsOn {s : State} {m dep : ModuleId} (h : s.DependsOn m dep) :
    (modifyGraph (·.addDependency m dep) s).2 = s := by
  have hmodules : s.graph.modules.modify m.index (fun mod =>
      if mod.dependencies.contains dep then mod
      else { mod with dependencies := mod.dependencies ++ [dep] }) = s.graph.modules :=
    modify_eq_self (a := default) fun hm => if_pos (List.contains_iff_mem.mpr (h hm))
  change ({ s with graph := { s.graph with modules := s.graph.modules.modify m.index _ } } : State) = s
  rw [hmodules]

/-- Adding a problem again changes nothing. -/
theorem Diagnostic.addTo_of_mem {d d' : Diagnostic} {ds : Array Diagnostic} (hd' : d' ∈ ds)
    (hkey : d'.key = d.key) : d.addTo ds = ds := by
  have hany : ds.any (·.key == d.key) := Array.any_eq_true'.mpr ⟨d', hd', beq_iff_eq.mpr hkey⟩
  rw [addTo, if_pos hany]

/-- The problem that is recorded when something is reported. -/
theorem report_apply (u : UnitId) (n : Node) (message : String) (s : State) :
    let d : Diagnostic := ⟨.error, message, some n, some (s.location u n.mark)⟩
    (report u n message s).2 = { s with
      units := s.units.modify u.index fun unit => { unit with diagnostics := d.addTo unit.diagnostics } } := rfl

/-- A problem that is reported is there. -/
theorem report_reported (u : UnitId) (n : Node) (message : String) (s : State) :
    (report u n message s).2.Reported u n message := by
  intro hu
  rw [report_apply] at hu ⊢
  rw [State.unit_modify, if_pos ⟨rfl, hu.trans_eq (Array.size_modify ..)⟩]
  dsimp only [Diagnostic.addTo]
  split
  · next h =>
    obtain ⟨d, hd, hkey⟩ := Array.any_eq_true'.mp h
    exact ⟨d, hd, beq_iff_eq.mp hkey⟩
  · exact ⟨_, Array.mem_push_self, rfl⟩

/-- Reporting a problem again changes nothing. -/
theorem report_of_reported {s : State} {u : UnitId} {n : Node} {message : String}
    (h : s.Reported u n message) : (report u n message s).2 = s := by
  rw [report_apply]
  generalize hd : (⟨.error, message, some n, some (s.location u n.mark)⟩ : Diagnostic) = d
  have hunits : s.units.modify u.index (fun unit =>
      { unit with diagnostics := d.addTo unit.diagnostics }) = s.units := by
    refine modify_eq_self (a := default) fun hu => ?_
    obtain ⟨d', hd', hkey⟩ := h hu
    rw [← State.unit, Diagnostic.addTo_of_mem hd' (hkey.trans (hd ▸ rfl))]
  rw [hunits]

/-! ## Loops -/

/-- A loop in which each element sees to something that the steps for the others do not undo. -/
theorem forIn_establishes {α : Type} {R : State → State → Prop} [IsPreorder State R] {P : α → State → Prop}
    {f : α → Analyze Unit} (hf : ∀ a, Leads R (f a)) (mono : ∀ a s s', R s s' → P a s → P a s')
    (establishes : ∀ a s, P a (f a s).2) (as : List α) (s : State) :
    ∀ a ∈ as, P a (ForIn.forIn as PUnit.unit (fun a _ => do
      f a
      return ForInStep.yield PUnit.unit) s).2 := by
  induction as generalizing s with
  | nil => exact fun a ha => nomatch ha
  | cons b as ih =>
    intro a ha
    rw [List.forIn_cons]
    rcases List.mem_cons.mp ha with rfl | ha
    · exact mono a _ _ (Leads.forIn (fun a _ => .bind (hf a) fun _ => .pure _) _ _) (establishes a s)
    · exact ih _ a ha

/-- A loop whose steps keep a property. -/
theorem forIn_keeps {α : Type} {P : State → Prop} {f : α → Analyze Unit} (as : List α)
    (hf : ∀ a ∈ as, ∀ s, P s → P (f a s).2) {s : State} (hs : P s) :
    P (ForIn.forIn as PUnit.unit (fun a _ => do
      f a
      return ForInStep.yield PUnit.unit) s).2 := by
  induction as generalizing s with
  | nil => exact hs
  | cons a as ih =>
    rw [List.forIn_cons]
    exact ih (fun b hb => hf b (List.mem_cons_of_mem a hb)) (hf a List.mem_cons_self s hs)

/-- A loop that has nothing to do for any of the elements. -/
theorem forIn_of_done {α : Type} {f : α → Analyze Unit} {s : State} (as : List α)
    (done : ∀ a ∈ as, (f a s).2 = s) :
    (ForIn.forIn as PUnit.unit (fun a _ => do
      f a
      return ForInStep.yield PUnit.unit) s).2 = s :=
  forIn_keeps (P := (· = s)) as (fun a ha _ hs => hs ▸ done a ha) rfl

/-! ## Resolving dependencies once more -/

/-- Linking an import keeps links. -/
theorem linkImport_keepsLinks (m : ModuleId) (u : UnitId) (i : ModuleImport) :
    Leads State.KeepsLinks (linkImport m u i) := by
  have hreport := fun message s => (report_refines u (.path i.path) message s).keepsLinks
  refine .get_bind fun s => ?_
  cases s.findModule? i.path.names with
  | none => exact hreport _
  | some dep =>
    dsimp only
    split
    · exact hreport _
    · exact addDependency_keepsLinks m dep

/-- Linking an import follows it. -/
theorem linkImport_follows (m : ModuleId) (u : UnitId) (i : ModuleImport) (s : State) :
    (linkImport m u i s).2.Follows m u i := by
  rw [State.Follows, (linkImport_keepsLinks m u i s).findModule?, linkImport, get_bind_apply]
  cases s.findModule? i.path.names with
  | none => exact report_reported _ _ _ _
  | some dep =>
    dsimp only
    split
    · exact report_reported _ _ _ _
    · exact addDependency_dependsOn m dep s

/-- Linking an import again changes nothing. -/
theorem linkImport_of_follows {s : State} {m : ModuleId} {u : UnitId} {i : ModuleImport}
    (h : s.Follows m u i) : (linkImport m u i s).2 = s := by
  rw [State.Follows] at h
  rw [linkImport, get_bind_apply]
  cases hfound : s.findModule? i.path.names with
  | none =>
    rw [hfound] at h
    exact report_of_reported h
  | some dep =>
    rw [hfound] at h
    dsimp only at h ⊢
    split at h
    · next hself =>
      rw [if_pos hself]
      exact report_of_reported h
    · next hself =>
      rw [if_neg hself]
      exact addDependency_of_dependsOn h

/-- Dealing with the imports of a descriptor, one after the other. -/
def linkImports (m : ModuleId) (u : UnitId) (is : List ModuleImport) : Analyze Unit := do
  for i in is do
    linkImport m u i

/-- Linking imports keeps links. -/
theorem linkImports_keepsLinks (m : ModuleId) (u : UnitId) (is : List ModuleImport) :
    Leads State.KeepsLinks (linkImports m u is) :=
  .bind (.forIn (fun i _ => .bind (linkImport_keepsLinks m u i) fun _ => .pure _) _) fun _ => .pure _

/-- Linking a module keeps links. -/
theorem linkModule_keepsLinks (m : ModuleId) : Leads State.KeepsLinks (linkModule m) := by
  refine .bind (addDependency_keepsLinks m _) fun _ => .get_bind fun s => ?_
  split
  · exact .pure _
  · exact .get_bind fun s => linkImports_keepsLinks m _ _

/-- Linking a module links it. -/
theorem linkModule_linked (m : ModuleId) (s : State) : (linkModule m s).2.LinkedModule m := by
  rw [linkModule, bind_apply, get_bind_apply]
  have hlanguage := addDependency_dependsOn m languageModule s
  generalize (modifyGraph (·.addDependency m languageModule) s).2 = s at hlanguage ⊢
  cases hdescriptor : (s.graph.module m).descriptor with
  | none => exact ⟨hlanguage, fun u hu => nomatch hdescriptor.symm.trans hu⟩
  | some u =>
    have hkeeps := linkImports_keepsLinks m u (s.unit u).moduleImports s
    refine ⟨hlanguage.mono hkeeps, fun v hv i hi => ?_⟩
    obtain rfl : u = v := Option.some.inj ((hdescriptor.symm.trans (hkeeps.descriptor m).symm).trans hv)
    replace hi : i ∈ (s.unit u).moduleImports := hkeeps.moduleImports u ▸ hi
    exact forIn_establishes (P := fun i s => s.Follows m u i) (linkImport_keepsLinks m u)
      (fun i _ _ h => State.Follows.mono h)
      (linkImport_follows m u) _ s i hi

/-- Linking a module again changes nothing. -/
theorem linkModule_of_linked {s : State} {m : ModuleId} (h : s.LinkedModule m) : (linkModule m s).2 = s := by
  rw [linkModule, bind_apply, get_bind_apply, addDependency_of_dependsOn h.language]
  cases hdescriptor : (s.graph.module m).descriptor with
  | none => rfl
  | some u => exact forIn_of_done _ fun i hi => linkImport_of_follows (h.imports u hdescriptor i hi)

/-- Resolving dependencies leaves nothing to do for doing it again. -/
theorem resolveDependencies_linked (s : State) : (resolveDependencies s).2.Linked := by
  rw [resolveDependencies_eq, get_bind_apply, bind_apply]
  have hkeeps : s.KeepsLinks (ForIn.forIn s.declared PUnit.unit (fun m _ => do
      linkModule m
      return ForInStep.yield PUnit.unit) s).2 :=
    Leads.forIn (fun m _ => .bind (linkModule_keepsLinks m) fun _ => .pure _) _ s
  have hmodules := forIn_establishes (P := fun m s => s.LinkedModule m) linkModule_keepsLinks
    (fun m _ _ h => State.LinkedModule.mono h) linkModule_linked s.declared s
  have hlast := addDependency_keepsLinks defaultModule languageModule
  refine ⟨fun m hm => State.LinkedModule.mono (hlast _) (hmodules m ?_), addDependency_dependsOn _ _ _⟩
  exact hkeeps.declared ▸ hm

/-- Resolving dependencies again changes nothing. -/
theorem resolveDependencies_of_linked {s : State} (h : s.Linked) : (resolveDependencies s).2 = s := by
  have hmodules := forIn_of_done s.declared fun m hm => linkModule_of_linked (h.modules m hm)
  rw [resolveDependencies_eq, get_bind_apply, bind_apply]
  exact (congrArg (fun s' => (modifyGraph (·.addDependency defaultModule languageModule) s').2) hmodules).trans
    (addDependency_of_dependsOn h.standard)

/-! ## Passes over all units -/

/-- What a pass has done or passed over, it does not find to be work again. -/
theorem Pass.not_enters_run {p : Pass} {s : State} {u v : UnitId} (hu : u.index < s.units.size)
    (h : v = u ∨ p.enters s v = false) : p.enters (p.run u s).2 v = false := by
  cases hu' : p.enters s u with
  | false =>
    rw [run_of_not_enters hu']
    exact h.elim (fun hv => hv ▸ hu') id
  | true =>
    have hmoves := run_moves hu hu'
    have of_failed : ((p.run u s).2.unit v).failure.isSome → p.enters (p.run u s).2 v = false := fun hfailed =>
      Bool.and_eq_false_iff.mpr (.inl (Option.isNone_eq_false_iff.mpr hfailed))
    -- The unit itself has reached the goal or has failed; another one is where it was before.
    by_cases hv : v = u
    · subst hv
      rcases hmoves.self with ⟨hphase, -⟩ | ⟨-, hfailed⟩
      · refine Bool.and_eq_false_imp.mpr fun _ => ?_
        rw [hphase]
        cases p <;> rfl
      · exact of_failed hfailed
    · have hbefore := h.resolve_left hv
      cases hfailed : (s.unit v).failure.isSome with
      | true => exact of_failed (hmoves.failed v hfailed)
      | false =>
        refine Bool.and_eq_false_imp.mpr fun _ => ?_
        rw [hmoves.others v hv]
        exact Bool.and_eq_false_imp.mp hbefore (by simpa using hfailed)

/-- User units are units of the state. -/
theorem State.valid_of_mem_userUnits {s : State} {u : UnitId} (hu : u ∈ s.userUnits) :
    u.index < s.units.size := by
  obtain ⟨i, hi, rfl⟩ := List.mem_map.mp hu
  have := List.mem_range.mp hi
  dsimp only
  omega

/-- A pass over all units leaves no work for itself. -/
theorem onUnits_passes (p : Pass) (phase : Phase) (s : State) :
    s.Onward (onUnits phase p.run s).2 ∧
      ∀ u ∈ (onUnits phase p.run s).2.userUnits, p.enters (onUnits phase p.run s).2 u = false := by
  let P (seen : UnitId → Prop) (s' : State) : Prop := s.Onward s' ∧ ∀ v, seen v → p.enters s' v = false
  have hloop : P (fun v => False ∨ v ∈ s.userUnits) (onUnits phase p.run s).2 := by
    refine forIn_units (P := P) s.userUnits (fun seen s' u r hu ⟨honward, hpasses⟩ => ?_)
      ⟨refl_of State.Onward s, fun _ h => h.elim⟩ PUnit.unit
    have hvalid : u.index < s'.units.size := honward.count.symm ▸ State.valid_of_mem_userUnits hu
    have hrun := State.onward_run (p := p)
      (s := { s' with trace := s'.trace.push ⟨true, s'.span u phase⟩ }) hvalid
    exact ⟨⟨_, rfl⟩, ⟨hrun.count.trans honward.count, fun v => (honward.phase v).trans (hrun.phase v),
      fun v => hrun.failed v ∘ honward.failed v⟩, fun v hv =>
      Pass.not_enters_run (s := { s' with trace := _ }) hvalid (hv.symm.imp id (hpasses v))⟩
  obtain ⟨honward, hpasses⟩ := hloop
  have hunits : (onUnits phase p.run s).2.userUnits = s.userUnits := by
    rw [State.userUnits, honward.count, State.userUnits]
  exact ⟨honward, fun u hu => hpasses u (.inr (hunits ▸ hu))⟩

/-! ## Completing an analysis once more -/

/-- Nothing is left to do for the analysis: dependencies are resolved, and neither of the passes that complete an
analysis finds work to do on a unit. -/
structure State.IsComplete (s : State) : Prop where
  linked : s.Linked
  names : ∀ u ∈ s.userUnits, Pass.names.enters s u = false
  check : ∀ u ∈ s.userUnits, Pass.check.enters s u = false

/-- Names are not resolved again in a unit that has failed or got further. -/
theorem Pass.names_enters_eq_false {s : State} {u : UnitId} :
    Pass.names.enters s u = false ↔
      (s.unit u).failure.isSome ∨ Phase.namesResolved.rank ≤ (s.unit u).phase.rank := by
  rw [← Phase.atLeast_iff]
  cases h : (s.unit u).failure <;> simp [enters, goal, h]

/-- A pass over units refines the state if it refines it on each. -/
theorem onUnits_refines (phase : Phase) {f : UnitId → Analyze Unit} (hf : ∀ u, Leads State.Refines (f u)) :
    Leads State.Refines (onUnits phase f) :=
  .get_bind fun _ => .bind (.forIn (fun u _ => .get_bind fun _ =>
    .bind (traced_refines _ (hf u)) fun _ => .pure _) _) fun _ => .pure _

/-- A traced action leaves two events in the trace. -/
theorem traced_snd {α : Type} (span : Span) (m : Analyze α) (s : State) :
    let s' := (m { s with trace := s.trace.push ⟨true, span⟩ }).2
    (traced span m s).2 = { s' with trace := s'.trace.push ⟨false, span⟩ } := rfl

/-- Links do not depend on the trace. -/
theorem State.Linked.walk {s : State} (h : s.Linked) (trace : Array TraceEvent) :
    ({ s with trace } : State).Linked :=
  h.mono (s.refines_tables s.types s.targets s.graph.inferred s.inferring s.circular s.checked s.log trace).keepsLinks

/-- A run resolves dependencies, and then takes two passes over the units. -/
theorem run_snd (s : State) : (run s).2 =
    (onUnits .checked Pass.check.run (onUnits .namesResolved Pass.names.run
      (traced { phase := "resolve-dependencies" } resolveDependencies s).2).2).2 := by
  rw [run_eq, bind_apply, bind_apply]
  rfl

/-- When an analysis has been completed, nothing is left to do for it. -/
theorem run_isComplete (s : State) : (run s).2.IsComplete := by
  rw [run_snd]
  have hlinked : (traced { phase := "resolve-dependencies" } resolveDependencies s).2.Linked := by
    rw [traced_snd]
    exact (resolveDependencies_linked _).walk _
  generalize (traced { phase := "resolve-dependencies" } resolveDependencies s).2 = s at hlinked ⊢
  obtain ⟨-, hnames⟩ := onUnits_passes .names .namesResolved s
  obtain ⟨honward, hcheck⟩ := onUnits_passes .check .checked (onUnits .namesResolved Pass.names.run s).2
  have hrefines := trans_of State.Refines
    (onUnits_refines .namesResolved (fun u => (resolveNames_refines u).discard) s)
    (onUnits_refines .checked checkExpressions_refines _)
  have hunits : (onUnits .checked Pass.check.run (onUnits .namesResolved Pass.names.run s).2).2.userUnits =
      (onUnits .namesResolved Pass.names.run s).2.userUnits := by
    rw [State.userUnits, honward.count, State.userUnits]
  refine ⟨hlinked.mono hrefines.keepsLinks, fun u hu => ?_, hcheck⟩
  have hsettled := Pass.names_enters_eq_false.mp (hnames u (hunits ▸ hu))
  exact Pass.names_enters_eq_false.mpr (hsettled.imp (honward.failed u) fun h => h.trans (honward.phase u))

/-- The second state is the first one with another trace. -/
def State.SameButTrace (s s' : State) : Prop :=
  ∃ trace, s' = { s with trace }

/-- An action that is done leaves only its trace. -/
theorem traced_of_done {α : Type} {m : Analyze α} {s s' : State}
    (hm : ∀ trace, (m { s with trace }).2 = { s with trace }) (span : Span) (h : s.SameButTrace s') :
    s.SameButTrace (traced span m s').2 := by
  obtain ⟨trace, rfl⟩ := h
  rw [traced_snd]
  dsimp only
  rw [hm]
  exact ⟨_, rfl⟩

/-- A pass that is done leaves only its trace. -/
theorem onUnits_of_done {p : Pass} {s s' : State} (phase : Phase)
    (hp : ∀ u ∈ s.userUnits, p.enters s u = false) (h : s.SameButTrace s') :
    s.SameButTrace (onUnits phase p.run s').2 := by
  have hunits : s'.userUnits = s.userUnits := by
    obtain ⟨trace, rfl⟩ := h
    rfl
  refine forIn_keeps (P := s.SameButTrace) (f := fun u => do traced ((← get).span u phase) (p.run u))
    s'.userUnits (fun u hu s' hs' => ?_) h
  exact traced_of_done (fun trace => Pass.run_of_not_enters (s := { s with trace }) (hp u (hunits ▸ hu))) _ hs'

/-- If nothing is left to do for an analysis, completing it leaves nothing but its trace. -/
theorem State.IsComplete.run {s : State} (h : s.IsComplete) : s.SameButTrace (run s).2 := by
  rw [run_snd]
  exact onUnits_of_done .checked h.check (onUnits_of_done .namesResolved h.names
    (traced_of_done (fun trace => resolveDependencies_of_linked (h.linked.walk trace)) _ ⟨s.trace, rfl⟩))

/-- Problems do not depend on the trace. -/
theorem State.diagnostics_walk (s : State) (trace : Array TraceEvent) :
    ({ s with trace } : State).diagnostics = s.diagnostics := rfl

/-- Completing an analysis a second time finds the same problems and leaves all units, all that is known
about nodes and declarations, and all packages and modules as they are; nothing but the trace goes on.  This
holds of every state, so also if loading a source tree has stopped early. -/
theorem run_run (s : State) :
    (run (run s).2).2.diagnostics = (run s).2.diagnostics ∧
      ∃ trace, (run (run s).2).2 = { (run s).2 with trace } := by
  obtain ⟨trace, htrace⟩ := (run_isComplete s).run
  exact ⟨by rw [htrace, State.diagnostics_walk], trace, htrace⟩

end Ceylon.Analysis
