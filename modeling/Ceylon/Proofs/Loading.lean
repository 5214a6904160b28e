import Ceylon.Proofs.Actions

/-!
# What loading a tree does to packages and modules

Which packages and modules there are while a tree is loaded, and which units, depends on the paths of the
files and on which of them declare modules, and on nothing else that the analysis finds out.  An `Inventory`
holds just this, and loading a folder does to the inventory of a state what `Inventory.loadFolder` does to
it (`load_inventory`).
-/

namespace Ceylon.Analysis

open Model Files

/-! ## Inventories -/

/-- What is known of the module header of a unit. -/
inductive Heading where
  | absent
  | valid
  /-- There is one, but the unit has failed. -/
  | void
deriving DecidableEq, Inhabited

/-- The heading of a unit that has failed. -/
def Heading.fail : Heading → Heading
  | .absent => .absent
  | _ => .void

@[simp] theorem Heading.fail_fail (h : Heading) : h.fail.fail = h.fail := by
  cases h <;> rfl

/-- A header that has failed is not valid. -/
theorem Heading.fail_ne_valid (h : Heading) : h.fail ≠ .valid := by
  cases h <;> simp [fail]

/-- The heading of a syntax tree. -/
def Heading.ofTree (tree : Syntax.CompilationUnit) : Heading :=
  if tree.module.isSome then .valid else .absent

/-- Where a unit stands. -/
structure Placement where
  path : String
  package : PackageId
  heading : Heading
deriving DecidableEq, Inhabited

/-- The packages, modules and units of a state, and the way to the current directory. -/
structure Inventory where
  packages : Array Package
  modules : Array Module
  units : Array Placement
  stack : Option (PathStack ModuleId)
deriving DecidableEq

/-- What is known of the header of a unit. -/
def UnitState.heading (u : UnitState) : Heading :=
  if u.failure.isNone then .ofTree u.tree else (Heading.ofTree u.tree).fail

/-- The header of a unit is valid if the unit declares a module and has not failed. -/
theorem UnitState.heading_eq_valid_iff {u : UnitState} :
    u.heading = .valid ↔ u.isDescriptor = true ∧ u.failure = none := by
  rw [heading, Heading.ofTree, isDescriptor]
  cases u.tree.module.isSome <;> cases u.failure <;> simp [Heading.fail]

/-- A unit without a header is none that declares a module. -/
theorem UnitState.heading_eq_absent_iff {u : UnitState} : u.heading = .absent ↔ u.isDescriptor = false := by
  rw [heading, Heading.ofTree, isDescriptor]
  cases u.tree.module.isSome <;> cases u.failure <;> simp [Heading.fail]

/-- What the inventory has of a unit. -/
def UnitState.placement (u : UnitState) : Placement :=
  ⟨u.path, u.package, u.heading⟩

/-- The inventory of a state. -/
def State.inventory (s : State) : Inventory :=
  ⟨s.graph.packages, s.graph.modules, s.units.map UnitState.placement, s.stack⟩

namespace Inventory

/-- The package with the given number. -/
def package (i : Inventory) (p : PackageId) : Package :=
  i.packages.getD p.index default

/-- Makes a package part of a module. -/
def own (i : Inventory) (m : ModuleId) (p : PackageId) : Inventory :=
  { i with
    packages := i.packages.modify p.index fun package => { package with module := some m }
    modules := i.modules.modify m.index fun module =>
      { module with packages := module.packages ++ [p] } }

/-- The package with the given name, made if there is none yet. -/
def packageNamed (i : Inventory) (name : List String) : PackageId × Inventory :=
  match i.packages.findIdx? fun p => p.qualifiedName == ".".intercalate name with
  | some p => (⟨p⟩, i)
  | none => (⟨i.packages.size⟩, { i with packages := i.packages.push { name } })

/-- Adds a unit. -/
def place (i : Inventory) (path : String) (p : PackageId) (heading : Heading) : Inventory :=
  { i with units := i.units.push ⟨path, p, heading⟩ }

/-- Adds the module that a unit of a package declares. -/
def addDeclared (i : Inventory) (u : UnitId) (p : PackageId) (name : List String)
    (claimed : PathStack ModuleId) : Inventory :=
  let declared : Inventory := { i with
    modules := i.modules.push { name, descriptor := some u }
    stack := i.stack.map fun _ => claimed }
  if (i.package p).module.isNone then declared.own ⟨i.modules.size⟩ p else declared

/-- Claims the current directory for a module that a unit of the package declares, if that may be done. -/
def claim (i : Inventory) (u : UnitId) (p : PackageId) : Option Inventory :=
  let stack := i.stack.getD ((i.package p).name.foldl PathStack.push {})
  match stack.define ⟨i.modules.size⟩ with
  | .error _ => none
  | .ok claimed => some (i.addDeclared u p stack.segments claimed)

/-- Adds a unit, which may declare a module.  The answer is whether it may. -/
def add (i : Inventory) (path : String) (p : PackageId) (heading : Heading) : Bool × Inventory :=
  if heading = .valid then
    match (i.place path p .valid).claim ⟨i.units.size⟩ p with
    | some i => (true, i)
    | none => (false, i.place path p .void)
  else (true, i.place path p heading)

/-- Does one thing after another, as long as it may be done. -/
def andThen (first next : Inventory → Bool × Inventory) (i : Inventory) : Bool × Inventory :=
  match first i with
  | (true, i) => next i
  | (false, i) => (false, i)

/-- Adds the files of a package one after the other. -/
def loadFiles (heading : SourceFile → Heading) (p : PackageId) :
    List SourceFile → Inventory → Bool × Inventory
  | [], i => (true, i)
  | f :: fs, i => andThen (·.add f.path p (heading f)) (loadFiles heading p fs) i

/-- Gives a package without a module to the module claimed for the current directory, or else to the default
module. -/
def ownPackage (i : Inventory) (p : PackageId) : Inventory :=
  if (i.package p).module.isNone then
    i.own (match i.stack.bind (·.claim) with
      | some claim => claim.value
      | none => defaultModule) p
  else i

/-- The names of the directories on the way to the current one. -/
def here (i : Inventory) : List String :=
  match i.stack with
  | some stack => stack.segments
  | none => []

/-- Adds the files of a folder as one package, the descriptor first. -/
def loadPackage (heading : SourceFile → Heading) (files : List SourceFile) (i : Inventory) :
    Bool × Inventory :=
  let (p, i) := i.packageNamed i.here
  let (descriptors, others) := files.partition (·.name == descriptorName)
  andThen (loadFiles heading p descriptors) (fun i => loadFiles heading p others (i.ownPackage p)) i

/-- Enters a folder. -/
def enter (i : Inventory) (name : String) : Inventory :=
  { i with stack := i.stack.map (·.push name) }

/-- Leaves a folder. -/
def leave (i : Inventory) : Inventory :=
  { i with stack := i.stack.bind (·.pop?) }

mutual

/-- Adds a folder: its own package, then those inside it. -/
def loadFolder (heading : SourceFile → Heading) : SourceFolder → Inventory → Bool × Inventory
  | .mk _ _ _ files folders, i =>
    andThen (loadPackage heading files) (loadFolders heading folders) i

/-- Adds folders one after the other. -/
def loadFolders (heading : SourceFile → Heading) : List SourceFolder → Inventory → Bool × Inventory
  | [], i => (true, i)
  | f :: fs, i =>
    let (done, i) := loadFolder heading f (i.enter f.name)
    if done then loadFolders heading fs i.leave else (false, i.leave)

end

end Inventory

/-! ## Actions that leave the inventory alone -/

/-- The inventory has stayed. -/
def State.SameInventory (s s' : State) : Prop :=
  s'.inventory = s.inventory

instance : IsPreorder State State.SameInventory where
  refl _ := rfl
  trans _ _ _ h h' := h'.trans h

/-- Changing what is no part of a unit's placement. -/
theorem inventory_modifyUnit (s : State) (u : UnitId) {g : UnitState → UnitState}
    (hg : ∀ unit : UnitState, (g unit).placement = unit.placement) :
    s.SameInventory { s with units := s.units.modify u.index g } := by
  simp only [State.SameInventory, State.inventory, map_modify_of_view_eq s.units u.index hg]

/-- Setting a phase leaves the inventory. -/
theorem setPhase_inventory (u : UnitId) (phase : Phase) :
    Leads State.SameInventory (setPhase u phase) :=
  fun s => inventory_modifyUnit s u fun _ => rfl

/-- Reporting a problem leaves the inventory. -/
theorem report_inventory (u : UnitId) (n : Syntax.Node) (message : String) :
    Leads State.SameInventory (report u n message) :=
  fun s => inventory_modifyUnit s u fun _ => rfl

/-- A step of binding leaves the inventory. -/
theorem binding_perform_inventory (u : UnitId) (step : BindStep) :
    Leads State.SameInventory (Binding.perform u step) := by
  cases step with
  | declare node name shared shape scope =>
    refine .bind (fun s => rfl) fun d => .bind (fun s => ?_) fun _ => .pure d
    unfold Binding.listDeclaration
    split
    · exact inventory_modifyUnit s u fun _ => rfl
    · rfl
  | _ => exact fun s => rfl

/-- Binding leaves the inventory. -/
theorem bindDeclarations_inventory (u : UnitId) : Leads State.SameInventory (bindDeclarations u) := by
  refine .get_bind fun s => ?_
  simp only
  split
  · exact .pure ()
  · exact .bind (fun s => rfl) fun _ => .bind (fun s => inventory_modifyUnit s u fun _ => rfl) fun _ =>
      .bind (.run (binding_perform_inventory u) _) fun _ => setPhase_inventory u _

/-- Binding a new unit takes it to the phase of that name. -/
theorem unit_bindDeclarations {s : State} {u : UnitId} (hu : u.index < s.units.size)
    (hnew : s.isUnbound u) :
    { (bindDeclarations u s).2.unit u with declarations := #[] } =
      { s.unit u with isBound := true, phase := .bound, declarations := #[] } := by
  have hunit := (s.scripted_grows u).unit u
  rw [State.unit_begun hu, if_pos rfl] at hunit
  have hsize : u.index < (s.scripted u).units.size := by
    by_contra hinvalid
    have hbound : ((s.scripted u).unit u).isBound = true := congrArg (·.isBound) hunit
    rw [State.unit, Array.getD_eq_getD_getElem?, Array.getElem?_eq_none (by omega)] at hbound
    cases hbound
  rw [bindDeclarations_of_isUnbound hnew, State.unit_modify, if_pos ⟨rfl, hsize⟩]
  exact congrArg (fun unit : UnitState => { unit with phase := .bound }) hunit

/-- Binding a unit leaves the others. -/
theorem unit_bindDeclarations_of_ne {s : State} {u v : UnitId} (hu : u.index < s.units.size) (hv : v ≠ u) :
    (bindDeclarations u s).2.unit v = s.unit v := by
  cases hnew : s.isUnbound u with
  | false => rw [bindDeclarations_of_not_isUnbound hnew]
  | true =>
    rw [bindDeclarations_of_isUnbound hnew, State.unit_modify, if_neg fun h => hv h.1.symm,
      (s.scripted_grows u).others v hv, State.unit_begun hu, if_neg hv.symm]

/-- Binding adds no unit. -/
theorem size_bindDeclarations (u : UnitId) (s : State) :
    (bindDeclarations u s).2.units.size = s.units.size := by
  have hinventory := congrArg (·.units.size) (bindDeclarations_inventory u s)
  simpa [State.inventory] using hinventory

/-! ## Declaring modules -/

/-- Declaring a module does so in the inventory. -/
theorem addDeclared_inventory {s : State} {u : UnitId} (hbound : (s.unit u).isBound = true)
    (name : List String) (claimed : PathStack ModuleId) :
    (addDeclared u name claimed s).2.inventory =
      s.inventory.addDeclared u (s.unit u).package name claimed := by
  rw [addDeclared, get_bind_apply, Inventory.addDeclared]
  simp only [hbound, if_true, bind_apply, addModule]
  change ((if (s.graph.package (s.unit u).package).module.isNone then _ else _ : Analyze Unit) _).2.inventory
    = if (s.graph.package (s.unit u).package).module.isNone then _ else _
  split <;> rfl

section

variable {s : State} {u : UnitId} {descriptor : Syntax.ModuleDescriptor}
  (hfailure : (s.unit u).failure = none) (hphase : (s.unit u).phase.atLeast .moduleResolved = false)

include hfailure hphase

/-- A unit that declares no module claims nothing. -/
theorem resolveModule_of_no_descriptor (hmodule : (s.unit u).tree.module = none) :
    (resolveModule u s).1 = none ∧ (resolveModule u s).2.inventory = s.inventory := by
  rw [resolveModule, get_bind_apply]
  simp only [hfailure, hphase, hmodule]
  exact ⟨rfl, setPhase_inventory u _ s⟩

/-- A unit that declares a module claims the current directory for it. -/
theorem resolveModule_of_claim (hmodule : (s.unit u).tree.module = some descriptor)
    (hbound : (s.unit u).isBound = true) {i : Inventory}
    (hclaim : s.inventory.claim u (s.unit u).package = some i) :
    (resolveModule u s).1 = none ∧ (resolveModule u s).2.inventory = i := by
  simp only [Inventory.claim] at hclaim
  split at hclaim
  · cases hclaim
  · next claimed hdefine =>
    obtain rfl := Option.some.inj hclaim
    have hdefine : (s.stack.getD ((s.graph.package (s.unit u).package).name.foldl PathStack.push {})).define
        ⟨s.graph.modules.size⟩ = .ok claimed := hdefine
    -- What follows the report, if there is one.
    have settled {s' : State} (hs' : s.Refines s') (hinventory : s.SameInventory s') (name : List String) :
        (setPhase u .moduleResolved (addDeclared u name claimed s').2).2.inventory =
          s.inventory.addDeclared u (s.unit u).package name claimed := by
      refine (setPhase_inventory u _ _).trans ?_
      rw [addDeclared_inventory (by rw [(hs'.units u).isBound, hbound]), hinventory,
        (hs'.units u).package]
    rw [resolveModule, get_bind_apply]
    simp only [hfailure, hphase, hmodule, hdefine]
    rw [if_neg (by simp), if_neg (by simp), bind_apply]
    have hlog := logStep_refines u .moduleResolved "declaring module" s
    split
    · exact ⟨rfl, settled (trans_of State.Refines hlog (report_refines _ _ _ _))
        (report_inventory u _ _ _) _⟩
    · exact ⟨rfl, settled hlog rfl _⟩

/-- A unit that may not declare a module fails. -/
theorem resolveModule_of_no_claim (hmodule : (s.unit u).tree.module = some descriptor)
    (hclaim : s.inventory.claim u (s.unit u).package = none) :
    ∃ e, (resolveModule u s).1 = some (.fatal e) ∧
        (resolveModule u s).2.inventory = (fail u (.fatal e) s).2.inventory := by
  simp only [Inventory.claim] at hclaim
  split at hclaim
  · next fault hdefine =>
    have hdefine : (s.stack.getD ((s.graph.package (s.unit u).package).name.foldl PathStack.push {})).define
        ⟨s.graph.modules.size⟩ = .error fault := hdefine
    rw [resolveModule, get_bind_apply]
    simp only [hfailure, hphase, hmodule, hdefine]
    rw [if_neg (by simp), if_neg (by simp), bind_apply]
    exact ⟨_, rfl, rfl⟩
  · cases hclaim

end

/-! ## Loading files and folders -/

/-- What an action does to the inventory of a state, and whether it comes to its end without an error. -/
def Follows (m : Analyze (Option LoadError)) (f : Inventory → Bool × Inventory) : Prop :=
  ∀ s, ((m s).1.isNone, (m s).2.inventory) = f s.inventory

/-- One action after another, unless the first one meets an error. -/
theorem Follows.andThen {m m' : Analyze (Option LoadError)} {f f' : Inventory → Bool × Inventory}
    (h : Follows m f) (h' : Follows m' f') :
    Follows (do
      match ← m with
      | some e => return some e
      | none => m') (Inventory.andThen f f') := by
  intro s
  have hs := h s
  rw [bind_apply, Inventory.andThen, ← hs]
  cases (m s).1 with
  | none => exact h' (m s).2
  | some e => rfl

/-- Tracing an action leaves its result. -/
theorem traced_fst {α : Type} (span : Span) (m : Analyze α) (s : State) :
    (traced span m s).1 = (m { s with trace := s.trace.push ⟨true, span⟩ }).1 := rfl

/-- Tracing an action leaves the inventory it leads to. -/
theorem traced_inventory {α : Type} (span : Span) (m : Analyze α) (s : State) :
    (traced span m s).2.inventory = (m { s with trace := s.trace.push ⟨true, span⟩ }).2.inventory := rfl

namespace SourceTree

/-- What a source file is read as. -/
def reading (t : SourceTree) (f : SourceFile) : Syntax.Reading :=
  Syntax.readUnit ⟨f.path, Path.join [t.root, f.path]⟩
    (Text.Glyph.ofString ((t.files.read (Path.join [t.root, f.path])).toOption.getD ""))

/-- The heading of a source file. -/
def heading (t : SourceTree) (f : SourceFile) : Heading :=
  if (t.reading f).fault.isNone then .ofTree (t.reading f).unit else (Heading.ofTree (t.reading f).unit).fail

/-- The header of a unit that has failed is void. -/
theorem fail_inventory (u : UnitId) (failure : Failure) (s : State) :
    (fail u failure s).2.inventory =
      { s.inventory with units := s.inventory.units.modify u.index fun x => { x with heading := x.heading.fail } } := by
  have hunits : (fail u failure s).2.units.map UnitState.placement =
      (s.units.map UnitState.placement).modify u.index fun x => { x with heading := x.heading.fail } := by
    apply Array.ext
    · simp [fail, modifyUnit, modify, modifyGet, MonadStateOf.modifyGet, StateT.modifyGet, pure]
    · intro k hk hk'
      simp only [fail, modifyUnit, modify, modifyGet, MonadStateOf.modifyGet, StateT.modifyGet, pure,
        Array.getElem_map, Array.getElem_modify]
      split
      · simp only [UnitState.placement, UnitState.heading, Option.isNone_some, Bool.false_eq_true, if_false]
        split <;> simp
      · rfl
  exact congrArg (fun units => ({ s.inventory with units } : Inventory)) hunits

/-- A unit that fails has failed. -/
theorem isSome_failure_fail {u : UnitId} {s : State} (hu : u.index < s.units.size) (failure : Failure) :
    ((fail u failure s).2.unit u).failure.isSome = true := by
  refine (congrArg (·.failure.isSome) (State.unit_modify s u u _)).trans ?_
  rw [if_pos ⟨rfl, hu⟩]
  rfl

/-- A new unit that has failed. -/
theorem fail_inventory_place {u : UnitId} (failure : Failure) {s : State} {i : Inventory} {path : String}
    {p : PackageId} {heading : Heading} (hs : s.inventory = i.place path p heading)
    (hu : u.index = i.units.size) :
    (fail u failure s).2.inventory = i.place path p heading.fail := by
  rw [fail_inventory, hs, hu]
  simp only [Inventory.place, Inventory.mk.injEq, true_and, and_true]
  apply Array.ext
  · simp
  · intro k hk hk'
    have hk : k < i.units.size + 1 := by simpa using hk'
    rw [Array.getElem_modify, Array.getElem_push, Array.getElem_push]
    by_cases hlast : i.units.size = k
    · simp [hlast]
    · rw [if_neg hlast, dif_pos (by omega), dif_pos (by omega)]

variable (t : SourceTree) (p : PackageId) (f : SourceFile)

/-- A source is added as the next unit. -/
theorem addSource_fst (s : State) : (t.addSource p f s).1 = ⟨s.units.size⟩ := rfl

/-- The unit that has been added. -/
theorem unit_added (s : State) (path : String) (tree : Syntax.CompilationUnit) :
    (addUnit path tree p s).2.unit ⟨s.units.size⟩ = { path, tree, package := p } := by
  change (s.units.push _).getD _ _ = _
  simp [Array.getD_eq_getD_getElem?]

/-- A source file that can be parsed is added as it is. -/
theorem addSource_of_no_fault (hfault : (t.reading f).fault = none) (s : State) :
    (t.addSource p f s).2 = (addUnit f.path (t.reading f).unit p s).2 := by
  have hfault : (Syntax.readUnit _ _).fault = none := hfault
  rw [addSource, bind_apply, bind_apply, hfault]
  rfl

/-- A source file that cannot be parsed has failed from the start. -/
theorem addSource_of_fault {e : Syntax.SyntaxError} (hfault : (t.reading f).fault = some e) (s : State) :
    (t.addSource p f s).2 =
      (fail ⟨s.units.size⟩ (.unparsable e) (addUnit f.path (t.reading f).unit p s).2).2 := by
  have hfault : (Syntax.readUnit _ _).fault = some e := hfault
  rw [addSource, bind_apply, bind_apply, hfault]
  rfl

/-- A unit that is added is placed in the inventory. -/
theorem inventory_added (s : State) (path : String) (tree : Syntax.CompilationUnit) :
    (addUnit path tree p s).2.inventory = s.inventory.place path p (.ofTree tree) := by
  change Inventory.mk s.graph.packages s.graph.modules ((s.units.push _).map _) s.stack = _
  simp [UnitState.placement, UnitState.heading, Inventory.place, State.inventory]

/-- A unit that has failed declares no module. -/
theorem declareModule_of_failure {u : UnitId} {s : State} (h : (s.unit u).failure.isSome = true) :
    declareModule u s = (none, s) := by
  rw [declareModule, get_bind_apply, if_pos h]
  rfl

section

variable {u : UnitId} {s : State} (hu : u.index < s.units.size) (hnew : s.isUnbound u)

/-- A unit in the state in which its module is resolved. -/
structure Ready (s : State) (u : UnitId) (s' : State) : Prop where
  inventory : s'.inventory = s.inventory
  failure : (s'.unit u).failure = none
  phase : (s'.unit u).phase.atLeast .moduleResolved = false
  isBound : (s'.unit u).isBound = true
  tree : (s'.unit u).tree = (s.unit u).tree
  package : (s'.unit u).package = (s.unit u).package

include hu hnew

/-- A unit is ready once it has been bound. -/
theorem ready_bindDeclarations : Ready s u (bindDeclarations u s).2 := by
  have hunit := unit_bindDeclarations hu hnew
  have hfailure : (s.unit u).failure = none := by
    simp only [State.isUnbound, Bool.not_eq_true', Bool.or_eq_false_iff] at hnew
    simpa using hnew.1
  exact ⟨bindDeclarations_inventory u s, (congrArg (·.failure) hunit).trans hfailure,
    congrArg (·.phase.atLeast .moduleResolved) hunit, congrArg (·.isBound) hunit,
    congrArg (·.tree) hunit, congrArg (·.package) hunit⟩

/-- Declaring the module of a unit comes down to resolving it. -/
theorem declareModule_of_isUnbound :
    ∃ s', Ready s u s' ∧ (declareModule u s).2.inventory = (resolveModule u s').2.inventory ∧
      ((resolveModule u s').1 = none → (declareModule u s).1 = none) ∧
      (∀ e, (resolveModule u s').1 = some (.fatal e) → (declareModule u s).1 = some (.fatal e)) := by
  have hfailure : (s.unit u).failure = none := by
    simp only [State.isUnbound, Bool.not_eq_true', Bool.or_eq_false_iff] at hnew
    simpa using hnew.1
  rw [declareModule, get_bind_apply, hfailure, if_neg (by simp), get_bind_apply, bind_apply,
    get_bind_apply, bind_apply]
  have hready := ready_bindDeclarations
    (s := { s with trace := s.trace.push ⟨true, s.span u .bound⟩ }) hu hnew
  have hbound : Ready s u (traced (s.span u .bound) (bindDeclarations u) s).2 :=
    ⟨hready.inventory, hready.failure, hready.phase, hready.isBound, hready.tree, hready.package⟩
  generalize (traced (s.span u .bound) (bindDeclarations u) s).2 = bound at hbound
  refine ⟨{ bound with trace := bound.trace.push ⟨true, bound.span u .moduleResolved⟩ },
    ⟨hbound.inventory, hbound.failure, hbound.phase, hbound.isBound, hbound.tree, hbound.package⟩, ?_⟩
  rw [traced_fst]
  refine ⟨?_, fun h => by rw [h]; rfl, fun e h => by rw [h]; rfl⟩
  rcases (resolveModule u _).1 with _ | _ | _ <;> rfl

/-- Declaring the module of a new unit claims the current directory, if the unit declares a module and may
do so. -/
theorem declareModule_inventory {i : Inventory} {path : String} {p : PackageId}
    (hs : s.inventory = i.place path p (.ofTree (s.unit u).tree)) (hindex : u.index = i.units.size)
    (hp : (s.unit u).package = p) :
    ((declareModule u s).1.isNone, (declareModule u s).2.inventory) =
      i.add path p (.ofTree (s.unit u).tree) := by
  obtain ⟨s', hready, hinventory, hgood, hbad⟩ := declareModule_of_isUnbound hu hnew
  have hu' : u = ⟨i.units.size⟩ := by rw [← hindex]
  -- Without a header there is nothing to declare.
  cases hmodule : (s.unit u).tree.module with
  | none =>
    obtain ⟨hnone, hsame⟩ := resolveModule_of_no_descriptor hready.failure hready.phase
      (hready.tree.symm ▸ hmodule)
    rw [hgood hnone, hinventory, hsame, hready.inventory, hs, Heading.ofTree, hmodule]
    rfl
  | some descriptor =>
    have hheading : Heading.ofTree (s.unit u).tree = .valid := by rw [Heading.ofTree, hmodule]; rfl
    have hmodule' : (s'.unit u).tree.module = some descriptor := hready.tree.symm ▸ hmodule
    have hclaim : s'.inventory.claim u (s'.unit u).package =
        (i.place path p .valid).claim ⟨i.units.size⟩ p := by
      rw [hready.inventory, hready.package, hs, hheading, hp, ← hu']
    rw [Inventory.add, hheading, if_pos rfl]
    -- With one the outcome depends on the claim that has been made above, which both see.
    cases h : (i.place path p .valid).claim ⟨i.units.size⟩ p with
    | some j =>
      obtain ⟨hnone, hj⟩ := resolveModule_of_claim hready.failure hready.phase hmodule' hready.isBound
        (hclaim.trans h)
      rw [hgood hnone, hinventory, hj]
      rfl
    | none =>
      obtain ⟨e, he, hfailed⟩ := resolveModule_of_no_claim hready.failure hready.phase hmodule'
        (hclaim.trans h)
      rw [hbad e he, hinventory, hfailed, fail_inventory_place _ (hready.inventory.trans hs) hindex, hheading]
      rfl

end

/-- Adding a source file and declaring its module, if it declares one. -/
theorem addSource_follows :
    Follows (do let u ← t.addSource p f; declareModule u) (·.add f.path p (t.heading f)) := by
  intro s
  have hinventory := inventory_added p s f.path (t.reading f).unit
  have hunit := unit_added p s f.path (t.reading f).unit
  have hvalid : s.units.size < (addUnit f.path (t.reading f).unit p s).2.units.size :=
    (Nat.lt_succ_self _).trans_eq (Array.size_push _).symm
  have hindex : s.units.size = s.inventory.units.size := (Array.size_map ..).symm
  rw [bind_apply, addSource_fst]
  cases hfault : (t.reading f).fault with
  | none =>
    have hheading : t.heading f = .ofTree (t.reading f).unit := by simp [heading, hfault]
    -- The unit is new, so its header is what decides whether a module is declared.
    have hadd := declareModule_inventory (u := ⟨s.units.size⟩) hvalid (by rw [State.isUnbound, hunit]; rfl)
      (i := s.inventory) (p := p) (by rw [hinventory, hunit]) hindex (by rw [hunit])
    rw [addSource_of_no_fault t p f hfault, hheading, hadd, hunit]
  | some e =>
    have hheading : t.heading f = (Heading.ofTree (t.reading f).unit).fail := by simp [heading, hfault]
    -- A file with a syntax error declares no module, and loading goes on.
    have hadd : s.inventory.add f.path p (t.heading f) =
        (true, s.inventory.place f.path p (Heading.ofTree (t.reading f).unit).fail) := by
      rw [hheading, Inventory.add, if_neg (Heading.fail_ne_valid _)]
    rw [addSource_of_fault t p f hfault,
      declareModule_of_failure (isSome_failure_fail (u := ⟨s.units.size⟩) hvalid _),
      fail_inventory_place (u := ⟨s.units.size⟩) _ hinventory hindex]
    exact hadd.symm

/-- Loading files does to the inventory what it does to the state. -/
theorem loadFiles_follows (fs : List SourceFile) :
    Follows (t.loadFiles p fs) (Inventory.loadFiles t.heading p fs) := by
  induction fs with
  | nil => exact fun s => rfl
  | cons f fs ih => exact (addSource_follows t p f).andThen ih

/-- A package is found or made in the inventory as it is in the state. -/
theorem packageNamed_inventory (name : List String) (s : State) :
    ((packageNamed name s).1, (packageNamed name s).2.inventory) = s.inventory.packageNamed name := by
  rw [packageNamed, get_bind_apply, Inventory.packageNamed, Graph.findPackage?]
  change (_, _) = match s.graph.packages.findIdx? _ with | some p => _ | none => _
  cases s.graph.packages.findIdx? _ with
  | some p => rfl
  | none => rfl

/-- A package is owned in the inventory as it is in the state. -/
theorem ownPackage_inventory (s : State) :
    (ownPackage p s).2.inventory = s.inventory.ownPackage p := by
  rw [ownPackage, get_bind_apply, Inventory.ownPackage]
  change ((if (s.graph.package p).module.isNone then _ else _ : Analyze Unit) s).2.inventory =
    if (s.graph.package p).module.isNone then _ else _
  split <;> rfl

/-- Loading the files behind the first one does the same to both. -/
theorem loadOthers_follows (fs : List SourceFile) :
    Follows (do ownPackage p; t.loadFiles p fs)
      (fun i => Inventory.loadFiles t.heading p fs (i.ownPackage p)) := by
  intro s
  have hfiles := loadFiles_follows t p fs (ownPackage p s).2
  rw [ownPackage_inventory] at hfiles
  exact hfiles

/-- Loading a package does to the inventory what it does to the state. -/
theorem loadPackage_follows (files : List SourceFile) :
    Follows (t.loadPackage files) (Inventory.loadPackage t.heading files) := by
  intro s
  have hnamed := packageNamed_inventory s.inventory.here s
  rw [loadPackage, get_bind_apply, Inventory.loadPackage, ← hnamed]
  exact (loadFiles_follows t _ _).andThen (loadOthers_follows t _ _) (packageNamed s.inventory.here s).2

/-- A folder is entered, loaded and left, and then come the others. -/
theorem loadFolders_cons (folder : SourceFolder) (folders : List SourceFolder) (s : State) :
    let loaded := t.loadFolder folder { s with stack := s.stack.map (·.push folder.name) }
    t.loadFolders (folder :: folders) s = match loaded.1 with
      | some e => (some e, { loaded.2 with stack := loaded.2.stack.bind (·.pop?) })
      | none => t.loadFolders folders { loaded.2 with stack := loaded.2.stack.bind (·.pop?) } := by
  intro loaded
  rw [loadFolders]
  change (match loaded.1 with
    | some e => (pure (some e) : Analyze (Option LoadError))
    | none => t.loadFolders folders) { loaded.2 with stack := loaded.2.stack.bind (·.pop?) } = _
  cases loaded.1 <;> rfl

mutual

/-- Loading a folder does to the inventory what it does to the state. -/
theorem loadFolder_follows : (folder : SourceFolder) →
    Follows (t.loadFolder folder) (Inventory.loadFolder t.heading folder)
  | .mk _ _ _ files folders => by
    simp only [loadFolder, Inventory.loadFolder]
    exact (loadPackage_follows t files).andThen (loadFolders_follows folders)

/-- Loading folders does to the inventory what it does to the state. -/
theorem loadFolders_follows : (folders : List SourceFolder) →
    Follows (t.loadFolders folders) (Inventory.loadFolders t.heading folders)
  | [] => by
    simp only [loadFolders, Inventory.loadFolders]
    exact fun s => rfl
  | f :: fs => by
    intro s
    have hfolder := loadFolder_follows f { s with stack := s.stack.map (·.push f.name) }
    rw [loadFolders_cons, Inventory.loadFolders]
    change _ = match Inventory.loadFolder t.heading f
        ({ s with stack := s.stack.map (·.push f.name) } : State).inventory with
      | (done, i) => if done then Inventory.loadFolders t.heading fs i.leave else (false, i.leave)
    rw [← hfolder]
    cases (t.loadFolder f { s with stack := s.stack.map (·.push f.name) }).1 with
    | none => exact loadFolders_follows fs _
    | some e => rfl

end

/-- Loading a tree that can be scanned loads its folder, from the root on. -/
theorem load_of_scan {exclude : List String} {folder : SourceFolder}
    (hscan : t.files.scan t.root exclude = .ok folder) (s : State) :
    ∃ start : State, (t.load exclude s).1 = (t.loadFolder folder start).1 ∧
      (t.load exclude s).2.inventory = { (t.loadFolder folder start).2.inventory with stack := none } ∧
      start.inventory = { s.inventory with stack := some {} } := by
  rw [load, traced_fst, traced_inventory, hscan]
  exact ⟨_, rfl, rfl, rfl⟩

/-- Loading a tree that can be scanned does to the inventory what loading its folder does. -/
theorem load_inventory {exclude : List String} {folder : SourceFolder}
    (hscan : t.files.scan t.root exclude = .ok folder) (s : State) :
    (t.load exclude s).1.isNone =
        (Inventory.loadFolder t.heading folder { s.inventory with stack := some {} }).1 ∧
      (t.load exclude s).2.inventory =
        { (Inventory.loadFolder t.heading folder { s.inventory with stack := some {} }).2 with
          stack := none } := by
  obtain ⟨start, houtcome, hinventory, hstart⟩ := load_of_scan t hscan s
  rw [houtcome, hinventory, ← hstart, ← loadFolder_follows t folder start]
  exact ⟨rfl, rfl⟩

/-- A tree that cannot be scanned leaves the inventory as it is. -/
theorem load_of_scan_error {exclude : List String} {e : ScanError}
    (hscan : t.files.scan t.root exclude = .error e) (s : State) :
    (t.load exclude s).1 = some (.scan e) ∧ (t.load exclude s).2.inventory = s.inventory := by
  rw [load, traced_fst, traced_inventory, hscan]
  exact ⟨rfl, rfl⟩

end SourceTree

end Ceylon.Analysis
