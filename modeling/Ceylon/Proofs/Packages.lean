import Ceylon.Proofs.FixedTrees
import Ceylon.Proofs.Scanning

/-!
# The packages of a source tree

Loading a tree looks packages up by the dotted spelling of the path to the current directory.  What it does
step by step is to file each unit in the package that is spelled like its directory (`Inventory.Filed`), and
to add the units in the order of the walk, the descriptors first (`Inventory.loadOrder`).  Directories that
are spelled alike share a package, and if no name has a dot in it then only equal ones are
(`load_one_package_per_directory`).
-/

namespace Ceylon

/-- The names of the folders on a path. -/
def Files.Path.directory (path : String) : List String :=
  (segments path).dropLast

/-- The name of the file or folder that a path leads to. -/
def Files.Path.last? (path : String) : Option String :=
  (segments path).getLast?

namespace Analysis

open Model Files

namespace Inventory

/-- The names of the packages. -/
def names (i : Inventory) : List (List String) :=
  i.packages.toList.map Package.name

/-- The current directory is the one at the given path. -/
def At (i : Inventory) (path : List String) : Prop :=
  ∃ claim, i.stack = some ⟨path, claim⟩

/-- The walk is at the path of its stack. -/
theorem At.here {i : Inventory} {path : List String} (h : i.At path) : i.here = path := by
  obtain ⟨claim, h⟩ := h
  rw [Inventory.here, h]

/-- Entering a folder goes one segment down. -/
theorem At.enter {i : Inventory} {path : List String} (h : i.At path) (name : String) :
    (i.enter name).At (path ++ [name]) := by
  obtain ⟨claim, h⟩ := h
  exact ⟨claim, by rw [Inventory.enter, h]; rfl⟩

/-- Leaving a folder goes one segment up. -/
theorem At.leave {i : Inventory} {path : List String} {name : String} (h : i.At (path ++ [name])) :
    i.leave.At path := by
  obtain ⟨claim, h⟩ := h
  refine ⟨claim.filter fun c => c.depth ≤ path.length, ?_⟩
  rw [Inventory.leave, h, Option.bind_some, PathStack.pop?]
  split
  · next h => simp at h
  · simp

@[simp] theorem names_own (i : Inventory) (m : ModuleId) (p : PackageId) :
    (i.own m p).names = i.names := by
  apply List.ext_getElem
  · simp [names, own]
  · intro k hk hk'
    simp only [names, own, List.getElem_map, Array.getElem_toList, Array.getElem_modify]
    split <;> rfl

@[simp] theorem names_ownPackage (i : Inventory) (p : PackageId) :
    (i.ownPackage p).names = i.names := by
  rw [ownPackage]
  split
  · exact names_own ..
  · rfl

@[simp] theorem names_addDeclared (i : Inventory) (u : UnitId) (p : PackageId) (name : List String)
    (claimed : PathStack ModuleId) : (i.addDeclared u p name claimed).names = i.names := by
  rw [addDeclared]
  split
  · exact names_own ..
  · rfl

@[simp] theorem units_addDeclared (i : Inventory) (u : UnitId) (p : PackageId) (name : List String)
    (claimed : PathStack ModuleId) : (i.addDeclared u p name claimed).units = i.units := by
  rw [addDeclared]
  split <;> rfl

@[simp] theorem stack_addDeclared (i : Inventory) (u : UnitId) (p : PackageId) (name : List String)
    (claimed : PathStack ModuleId) :
    (i.addDeclared u p name claimed).stack = i.stack.map fun _ => claimed := by
  rw [addDeclared]
  split <;> rfl

/-- A unit that declares no module is just added.  One that declares a module claims the current directory
for it, unless a directory on the way is claimed already or there is none; then the load ends. -/
theorem add_cases {i : Inventory} {σ : List String} {claim : Option (Claim ModuleId)}
    (hi : i.stack = some ⟨σ, claim⟩) (path : String) (p : PackageId) (heading : Heading) :
    heading ≠ .valid ∧ i.add path p heading = (true, i.place path p heading) ∨
    heading = .valid ∧ claim = none ∧ σ ≠ [] ∧ i.add path p heading =
      (true, (i.place path p .valid).addDeclared ⟨i.units.size⟩ p σ
        ⟨σ, some ⟨σ, σ.length, ⟨i.modules.size⟩⟩⟩) ∨
    heading = .valid ∧ i.add path p heading = (false, i.place path p .void) := by
  by_cases hheading : heading = .valid
  · subst hheading
    have hstack : (i.place path p .valid).stack = some ⟨σ, claim⟩ := hi
    rw [add, if_pos rfl, Inventory.claim, hstack]
    cases claim with
    | some c => exact .inr (.inr ⟨rfl, rfl⟩)
    | none =>
      by_cases hσ : σ = []
      · subst hσ
        exact .inr (.inr ⟨rfl, rfl⟩)
      · -- Below the root and without a claim on the way, the module is declared and claims the path.
        refine .inr (.inl ⟨rfl, rfl, hσ, ?_⟩)
        simp [PathStack.define, hσ, place]
  · exact .inl ⟨hheading, by rw [add, if_neg hheading]⟩

/-- What adding a unit does, whether or not it declares a module. -/
theorem add_adds {i : Inventory} {σ : List String} (hi : i.At σ) (path : String) (p : PackageId)
    (heading : Heading) :
    (i.add path p heading).2.names = i.names ∧ (i.add path p heading).2.At σ ∧
      ∃ b, (i.add path p heading).2.units = i.units.push ⟨path, p, b⟩ := by
  obtain ⟨claim, hi⟩ := hi
  obtain ⟨-, h⟩ | ⟨-, -, -, h⟩ | ⟨-, h⟩ := add_cases hi path p heading
  · rw [h]
    exact ⟨rfl, ⟨claim, hi⟩, heading, rfl⟩
  · rw [h]
    exact ⟨names_addDeclared .., ⟨_, (stack_addDeclared ..).trans (congrArg (Option.map _) hi)⟩, .valid,
      units_addDeclared ..⟩
  · rw [h]
    exact ⟨rfl, ⟨claim, hi⟩, .void, rfl⟩

/-! ## Loading in parts -/

/-- The paths of the units. -/
def paths (i : Inventory) : List String :=
  i.units.toList.map Placement.path

/-- Loading keeps what holds of an inventory and, if it comes to its end, adds units with the given
paths. -/
def Keeps (P : Inventory → Prop) (load : Inventory → Bool × Inventory) (added : List String) : Prop :=
  ∀ i, P i → P (load i).2 ∧ ((load i).1 = true → (load i).2.paths = i.paths ++ added)

/-- What each of two steps keeps, both keep, and they add files one after the other. -/
theorem Keeps.andThen {P : Inventory → Prop} {f g : Inventory → Bool × Inventory} {ps qs : List String}
    (hf : Keeps P f ps) (hg : Keeps P g qs) : Keeps P (Inventory.andThen f g) (ps ++ qs) := by
  intro i hi
  obtain ⟨hP, hps⟩ := hf i hi
  rw [Inventory.andThen]
  cases hfi : f i with
  | mk done j =>
    rw [hfi] at hP hps
    cases done with
    | false => exact ⟨hP, fun h => absurd h Bool.false_ne_true⟩
    | true =>
      obtain ⟨hP', hqs⟩ := hg j hP
      refine ⟨hP', fun h => ?_⟩
      rw [hqs h, hps rfl, List.append_assoc]

/-- Loading files keeps what adding each of them keeps. -/
theorem keeps_loadFiles {P : Inventory → Prop} {heading : SourceFile → Heading} {p : PackageId}
    {fs : List SourceFile} (hP : ∀ f ∈ fs, Keeps P (·.add f.path p (heading f)) [f.path]) :
    Keeps P (loadFiles heading p fs) (fs.map SourceFile.path) := by
  induction fs with
  | nil => exact fun i hi => ⟨hi, fun _ => (List.append_nil _).symm⟩
  | cons f fs ih =>
    exact (hP f (List.mem_cons_self ..)).andThen (ih fun g hg => hP g (List.mem_cons_of_mem _ hg))

/-! ## Packages and directories -/

/-- A path as packages are told apart by it. -/
abbrev dotted (path : List String) : String :=
  ".".intercalate path

/-- The package is the one for a directory. -/
def HasPackage (i : Inventory) (p : PackageId) (path : List String) : Prop :=
  ∃ name, i.names[p.index]? = some name ∧ dotted name = dotted path

/-- Packages with known names, no two of which are spelled the same, and units in the packages of their
directories.  The first unit is that of the language module. -/
structure Filed (known : List String → Prop) (i : Inventory) : Prop where
  named : ∀ name ∈ i.names, known name
  distinct : (i.names.map dotted).Nodup
  filed : ∀ x ∈ i.units.toList.tail,
    known (Path.directory x.path) ∧ i.HasPackage x.package (Path.directory x.path)

variable {known : List String → Prop} {i : Inventory} {σ : List String}

/-- A package of that dotted name is found, or else it is made. -/
theorem packageNamed_cases (i : Inventory) (σ : List String) :
    (∃ p, i.HasPackage p σ ∧ i.packageNamed σ = (p, i)) ∨
    (∀ name ∈ i.names, dotted name ≠ dotted σ) ∧
      i.packageNamed σ = (⟨i.names.length⟩, { i with packages := i.packages.push { name := σ } }) := by
  rw [Inventory.packageNamed]
  cases hfind : i.packages.findIdx? fun p => p.qualifiedName == ".".intercalate σ with
  | some k =>
    obtain ⟨hk, hname, -⟩ := Array.findIdx?_eq_some_iff_getElem.mp hfind
    exact .inl ⟨⟨k⟩, ⟨i.packages[k].name, by simp [names, hk], beq_iff_eq.mp hname⟩, rfl⟩
  | none =>
    refine .inr ⟨fun name hname => ?_, by simp [names]⟩
    obtain ⟨package, hmem, rfl⟩ := List.mem_map.mp hname
    simpa [Package.qualifiedName] using
      Array.findIdx?_eq_none_iff.mp hfind package (Array.mem_toList_iff.mp hmem)

/-- The package for the current directory is found, or made. -/
theorem Filed.packageNamed (hi : i.Filed known) (hσ : known σ) :
    (i.packageNamed σ).2.Filed known ∧ (i.packageNamed σ).2.HasPackage (i.packageNamed σ).1 σ := by
  obtain ⟨p, hp, h⟩ | ⟨hnew, h⟩ := i.packageNamed_cases σ
  · rw [h]
    exact ⟨hi, hp⟩
  · rw [h]
    have hnames : ({ i with packages := i.packages.push { name := σ } } : Inventory).names =
        i.names ++ [σ] := by simp [names]
    refine ⟨⟨?_, ?_, fun x hx => ?_⟩, σ, by simp [hnames], rfl⟩
    · rw [hnames]
      simpa [or_imp, forall_and] using And.intro hi.named hσ
    · rw [hnames, List.map_append, List.nodup_append]
      refine ⟨hi.distinct, by simp, ?_⟩
      simpa using fun name hname => hnew name hname
    · obtain ⟨hx, name, hname, hdotted⟩ := hi.filed x hx
      have hvalid := (List.getElem?_eq_some_iff.mp hname).1
      exact ⟨hx, name, by rw [hnames, List.getElem?_append_left hvalid, hname], hdotted⟩

/-- What holds of the files of a folder while they are loaded. -/
structure Loading (known : List String → Prop) (σ : List String) (p : PackageId) (i : Inventory) :
    Prop where
  filed : i.Filed known
  here : i.At σ
  package : i.HasPackage p σ

/-- Behind the first element of two lists stands what is behind that of the first list, or in the second one.
-/
theorem mem_tail_append {α : Type} {l m : List α} {x : α} (h : x ∈ (l ++ m).tail) :
    x ∈ l.tail ∨ x ∈ m := by
  cases l with
  | nil => exact .inr (List.mem_of_mem_tail h)
  | cons y ys => exact List.mem_append.mp h

/-- Adding a file files it in the package of its directory. -/
theorem Loading.add {p : PackageId} {f : SourceFile} (hσ : known σ) (hf : Path.directory f.path = σ)
    (heading : Heading) : Keeps (Loading known σ p) (·.add f.path p heading) [f.path] := by
  rintro i ⟨hfiled, hat, hpackage⟩
  obtain ⟨hnames, hat', b, hunits⟩ := add_adds hat f.path p heading
  have hhas : ∀ {q τ}, i.HasPackage q τ → (i.add f.path p heading).2.HasPackage q τ := by
    intro q τ h
    rwa [HasPackage, hnames]
  refine ⟨⟨⟨hnames ▸ hfiled.named, hnames ▸ hfiled.distinct, fun x hx => ?_⟩, hat', hhas hpackage⟩,
    fun _ => ?_⟩
  · rw [hunits, Array.toList_push] at hx
    obtain hx | hx := mem_tail_append hx
    · exact ⟨(hfiled.filed x hx).1, hhas (hfiled.filed x hx).2⟩
    · obtain rfl := List.mem_singleton.mp hx
      exact ⟨hf ▸ hσ, hhas (hf ▸ hpackage)⟩
  · rw [paths, hunits]
    simp [paths]

/-- The files of a folder in the order in which they are loaded. -/
def inOrder (files : List SourceFile) : List SourceFile :=
  (files.partition (·.name == descriptorName)).1 ++ (files.partition (·.name == descriptorName)).2

/-- Ordering files only rearranges them. -/
theorem inOrder_perm (files : List SourceFile) : (inOrder files).Perm files := by
  rw [inOrder, List.partition_eq_filter_filter]
  exact List.filter_append_perm ..

/-- Finding or making a package leaves the stack and the units. -/
theorem packageNamed_stack (i : Inventory) (σ : List String) :
    (i.packageNamed σ).2.stack = i.stack ∧ (i.packageNamed σ).2.units = i.units := by
  rw [Inventory.packageNamed]
  split <;> exact ⟨rfl, rfl⟩

/-- Owning a package leaves the stack and the units. -/
theorem ownPackage_stack (i : Inventory) (p : PackageId) :
    (i.ownPackage p).stack = i.stack ∧ (i.ownPackage p).units = i.units := by
  rw [ownPackage]
  split <;> exact ⟨rfl, rfl⟩

/-- Giving a package to a module leaves names and units alone. -/
theorem Loading.ownPackage {p : PackageId} (h : i.Loading known σ p) :
    (i.ownPackage p).Loading known σ p := by
  have hnames := i.names_ownPackage p
  obtain ⟨hstack, hunits⟩ := i.ownPackage_stack p
  obtain ⟨⟨hknown, hdistinct, hfiled⟩, hat, hpackage⟩ := h
  refine ⟨⟨hnames ▸ hknown, hnames ▸ hdistinct, ?_⟩, ?_, ?_⟩
  · rw [hunits]
    simpa only [HasPackage, hnames] using hfiled
  · rwa [At, hstack]
  · rwa [HasPackage, hnames]

/-- Loading a package files its units there. -/
theorem keeps_loadPackage {heading : SourceFile → Heading} {files : List SourceFile} (hσ : known σ)
    (hfiles : ∀ f ∈ files, Path.directory f.path = σ) :
    Keeps (fun i => i.Filed known ∧ i.At σ) (loadPackage heading files)
      ((inOrder files).map SourceFile.path) := by
  rintro i ⟨hfiled, hat⟩
  obtain ⟨hfiled', hpackage⟩ := hfiled.packageNamed hσ
  obtain ⟨hstack, hunits⟩ := i.packageNamed_stack σ
  have hloading : (i.packageNamed σ).2.Loading known σ (i.packageNamed σ).1 :=
    ⟨hfiled', by rwa [At, hstack], hpackage⟩
  have hfile (fs : List SourceFile) (hfs : ∀ f ∈ fs, f ∈ files) :
      Keeps (Loading known σ (i.packageNamed σ).1) (loadFiles heading (i.packageNamed σ).1 fs)
        (fs.map SourceFile.path) :=
    keeps_loadFiles fun f hf => Loading.add hσ (hfiles f (hfs f hf)) _
  -- Of the files in a folder the descriptors come first, then the package is owned, then come the others.
  have hothers := hfile (files.partition (·.name == descriptorName)).2 (by simp +contextual)
  have hkeeps := (hfile (files.partition (·.name == descriptorName)).1 (by simp +contextual)).andThen
    (g := fun i => loadFiles heading _ _ (i.ownPackage _)) (fun j hj => by
      obtain ⟨hj', hpaths⟩ := hothers _ hj.ownPackage
      refine ⟨hj', fun h => (hpaths h).trans ?_⟩
      rw [paths, (j.ownPackage_stack _).2]
      rfl)
  obtain ⟨⟨hfiled, hat', -⟩, hpaths⟩ := hkeeps _ hloading
  rw [loadPackage, hat.here, inOrder, List.map_append]
  refine ⟨⟨hfiled, hat'⟩, fun h => (hpaths h).trans ?_⟩
  rw [paths, hunits]
  rfl

/-- The files of a folder and of those inside it, in the order in which they are loaded. -/
def loadOrder (folder : SourceFolder) : List SourceFile :=
  (folder.walk fun _ => true).flatMap fun g => inOrder g.files

/-- Files are loaded in some order, each of them once. -/
theorem loadOrder_perm (folder : SourceFolder) : (loadOrder folder).Perm folder.allFiles :=
  List.Perm.flatMap_left _ fun g _ => inOrder_perm g.files

/-- The files of a folder come before those of its folders. -/
theorem loadOrder_mk (name path : String) (segments : List String) (files : List SourceFile)
    (folders : List SourceFolder) :
    loadOrder (.mk name path segments files folders) = inOrder files ++ folders.flatMap loadOrder := by
  rw [loadOrder, SourceFolder.walk]
  simp only [SourceFolder.walkAll_eq, if_true, List.flatMap_cons, List.flatMap_assoc]
  rfl

/-- Loading folders files the units of each in its packages. -/
theorem keeps_loadFolders {heading : SourceFile → Heading} {folders : List SourceFolder}
    (hfolders : ∀ g ∈ folders, g.segments = σ ++ [g.name] ∧
      Keeps (fun i => i.Filed known ∧ i.At g.segments) (loadFolder heading g)
        ((loadOrder g).map SourceFile.path)) :
    Keeps (fun i => i.Filed known ∧ i.At σ) (loadFolders heading folders)
      ((folders.flatMap loadOrder).map SourceFile.path) := by
  induction folders with
  | nil =>
    rintro i hi
    rw [loadFolders]
    exact ⟨hi, fun _ => (List.append_nil _).symm⟩
  | cons g gs ih =>
    rintro i ⟨hfiled, hat⟩
    obtain ⟨hsegments, hkeeps⟩ := hfolders g (List.mem_cons_self ..)
    rw [hsegments] at hkeeps
    obtain ⟨⟨hfiled', hat'⟩, hpaths⟩ := hkeeps (i.enter g.name) ⟨⟨hfiled.1, hfiled.2, hfiled.3⟩, hat.enter _⟩
    rw [loadFolders]
    cases hload : loadFolder heading g (i.enter g.name) with
    | mk done j =>
      rw [hload] at hfiled' hat' hpaths
      -- Leaving the folder leads back to where it was entered.
      have hleft : j.leave.Filed known ∧ j.leave.At σ := ⟨⟨hfiled'.1, hfiled'.2, hfiled'.3⟩, hat'.leave⟩
      cases done with
      | false => exact ⟨hleft, nofun⟩
      | true =>
        obtain ⟨hP, hrest⟩ := ih (fun g hg => hfolders g (List.mem_cons_of_mem _ hg)) _ hleft
        refine ⟨hP, fun h => ?_⟩
        have hj : j.leave.paths = i.paths ++ (loadOrder g).map SourceFile.path := hpaths rfl
        rw [List.flatMap_cons, List.map_append, ← List.append_assoc, ← hj]
        exact hrest h

/-- Loading a folder files its units, and loads all of its files if it comes to its end. -/
theorem keeps_loadFolder {heading : SourceFile → Heading} {folder : SourceFolder} (hplaced : folder.Placed)
    (hknown : ∀ g ∈ folder.walk fun _ => true, known g.segments) :
    Keeps (fun i => i.Filed known ∧ i.At folder.segments) (loadFolder heading folder)
      ((loadOrder folder).map SourceFile.path) := by
  induction hplaced with
  | @mk name path segments files folders proper filed distinct below inside ih =>
    have hself : known segments := hknown (.mk name path segments files folders) (by
      simp [SourceFolder.walk])
    have hinside : ∀ g ∈ folders, ∀ h ∈ g.walk fun _ => true, known h.segments := by
      intro g hg h hh
      refine hknown h ?_
      simp only [SourceFolder.walk, SourceFolder.walkAll_eq, if_true, List.mem_cons, List.mem_flatMap]
      exact .inr ⟨g, hg, hh⟩
    rw [loadOrder_mk, List.map_append]
    simp only [loadFolder]
    refine (keeps_loadPackage hself fun f hf => ?_).andThen
      (keeps_loadFolders fun g hg => ⟨below g hg, ih g hg (hinside g hg)⟩)
    rw [Path.directory, filed f hf, List.dropLast_concat]

end Inventory

/-! ## One package for each directory -/

/-- To begin with, only the language has been filed. -/
theorem initial_filed {known : List String → Prop} (h : known languagePath) :
    startingInventory.Filed known :=
  ⟨by simpa [Inventory.names, startingInventory] using h, by decide, by simp [startingInventory]⟩

/-- What holds of the answer, if there is one, can be decided. -/
def decidableForallOk {ε α : Type} (answer : Except ε α) (P : α → Prop) [DecidablePred P] :
    Decidable (∀ a, answer = .ok a → P a) :=
  match answer with
  | .error _ => isTrue (by simp)
  | .ok a => decidable_of_iff (P a) (by simp)

namespace SourceTree

/-- Folders that are entered have no dots in their names. -/
def Undotted (t : SourceTree) (exclude : List String) : Prop :=
  ∀ folder, t.files.scan t.root exclude = .ok folder →
    ∀ g ∈ folder.walk fun _ => true, ∀ name ∈ g.segments, '.' ∉ name.toList

instance (t : SourceTree) (exclude : List String) : Decidable (t.Undotted exclude) :=
  decidableForallOk _ _

/-- The directories whose packages a load may make. -/
def Entered (t : SourceTree) (exclude : List String) (path : List String) : Prop :=
  path = languagePath ∨ ∃ folder, t.files.scan t.root exclude = .ok folder ∧
    ∃ g ∈ folder.walk fun _ => true, g.segments = path

/-- A load files its units, and loads all files if it comes to its end. -/
theorem load_filed {t : SourceTree} (ht : t.files.WellNamed) (exclude : List String) :
    (t.load exclude .initial).2.inventory.Filed (t.Entered exclude) ∧
      ((t.load exclude .initial).1 = none → ∃ folder, t.files.scan t.root exclude = .ok folder ∧
        (t.load exclude .initial).2.inventory.paths =
          languageFile :: (Inventory.loadOrder folder).map SourceFile.path) := by
  have hstart : startingInventory.Filed (t.Entered exclude) := initial_filed (.inl rfl)
  cases hscan : t.files.scan t.root exclude with
  | error e =>
    rw [(t.load_of_scan_error hscan .initial).1, (t.load_of_scan_error hscan .initial).2,
      initial_inventory]
    exact ⟨hstart, nofun⟩
  | ok folder =>
    obtain ⟨hroot, hplaced⟩ := scan_placed ht hscan
    have hentered : ∀ g ∈ folder.walk fun _ => true, t.Entered exclude g.segments :=
      fun g hg => .inr ⟨folder, hscan, g, hg, rfl⟩
    obtain ⟨houtcome, hinventory⟩ := t.load_inventory hscan .initial
    rw [initial_inventory] at houtcome hinventory
    -- Loading starts with the inventory of the language module and an empty stack.
    obtain ⟨⟨hfiled, -⟩, hpaths⟩ := Inventory.keeps_loadFolder hplaced hentered
      { startingInventory with stack := some {} } ⟨⟨hstart.1, hstart.2, hstart.3⟩, none, by rw [hroot]⟩
    rw [hinventory]
    refine ⟨⟨hfiled.1, hfiled.2, hfiled.3⟩, fun h => ⟨folder, rfl, hpaths ?_⟩⟩
    rw [← houtcome, h]
    rfl

end SourceTree

namespace Inventory

variable {known : List String → Prop} {i : Inventory}

/-- Packages are told apart by their dotted names. -/
theorem Filed.package_eq_iff (hi : i.Filed known) {p q : PackageId} {σ τ : List String}
    (hp : i.HasPackage p σ) (hq : i.HasPackage q τ) : p = q ↔ dotted σ = dotted τ := by
  obtain ⟨pname, hpname, hσ⟩ := hp
  obtain ⟨qname, hqname, hτ⟩ := hq
  constructor
  · rintro rfl
    rw [← hσ, ← hτ, Option.some.inj (hpname.symm.trans hqname)]
  · intro h
    obtain ⟨hpvalid, hp⟩ := List.getElem?_eq_some_iff.mp hpname
    obtain ⟨hqvalid, hq⟩ := List.getElem?_eq_some_iff.mp hqname
    have hspelled : (i.names.map dotted)[p.index]? = (i.names.map dotted)[q.index]? := by
      rw [List.getElem?_map, List.getElem?_map, hpname, hqname, Option.map_some, Option.map_some, hσ, hτ, h]
    have hindex := (List.getElem?_inj (by simpa using hpvalid) hi.distinct).mp hspelled
    cases p
    cases q
    exact congrArg PackageId.mk hindex

end Inventory

/-- The units of the program come after the first one. -/
theorem State.userUnits_placements (s : State) :
    (s.userUnits.map fun u => (s.unit u).placement) = s.inventory.units.toList.tail := by
  apply List.ext_getElem
  · simp [userUnits, inventory]
  · intro k hk hk'
    have hk : k + 1 < s.units.size := by
      simp only [userUnits, List.map_map, List.length_map, List.length_range] at hk
      omega
    simp [userUnits, inventory, unit, Array.getD_eq_getD_getElem?, Array.getElem?_eq_getElem hk]

/-- A user unit is placed behind that of the language. -/
theorem State.placement_mem {s : State} {u : UnitId} (hu : u ∈ s.userUnits) :
    (s.unit u).placement ∈ s.inventory.units.toList.tail := by
  rw [← s.userUnits_placements]
  exact List.mem_map_of_mem hu

/-- The paths of user units are those behind that of the language. -/
theorem State.userUnits_paths (s : State) :
    (s.userUnits.map fun u => (s.unit u).path) = s.inventory.paths.tail := by
  rw [Inventory.paths, ← List.map_tail, ← s.userUnits_placements, List.map_map]
  rfl

/-- Names without dots can be read off their dotted form. -/
theorem dotted_inj {σ τ : List String} (hσ : ∀ name ∈ σ, name ≠ "" ∧ '.' ∉ name.toList)
    (hτ : ∀ name ∈ τ, name ≠ "" ∧ '.' ∉ name.toList)
    (h : Inventory.dotted σ = Inventory.dotted τ) : σ = τ := by
  have hne {names : List String} (h : ∀ name ∈ names, name ≠ "" ∧ '.' ∉ name.toList) (hne : names ≠ []) :
      Inventory.dotted names ≠ "" :=
    Path.intercalate_ne_empty hne fun name hname => (h name hname).1
  have hempty : Inventory.dotted [] = "" := String.intercalate_nil
  have hdot : ("." : String) = String.singleton '.' := by decide
  by_cases hσne : σ = []
  · subst hσne
    by_contra hτne
    exact hne hτ (Ne.symm hτne) (h.symm.trans hempty)
  · by_cases hτne : τ = []
    · subst hτne
      exact absurd (h.trans hempty) (hne hσ hσne)
    · rw [← Path.splitOn_intercalate hσne fun name hname => (hσ name hname).2,
        ← Path.splitOn_intercalate hτne fun name hname => (hτ name hname).2, ← hdot]
      exact congrArg (fun name => (name.toList.splitOn '.').map String.ofList) h

/-- The names of the folders on the way to a unit. -/
def UnitState.directory (u : UnitState) : List String :=
  Path.directory u.path

/-- A package has the name that the inventory has for it, and its dotted name. -/
theorem State.name_of_hasPackage {s : State} {p : PackageId} {σ : List String}
    (h : s.inventory.HasPackage p σ) :
    (s.graph.package p).name ∈ s.inventory.names ∧ Inventory.dotted (s.graph.package p).name = Inventory.dotted σ := by
  obtain ⟨name, hname, hdotted⟩ := h
  have hp : (s.graph.package p).name = name := by
    simp only [Inventory.names, inventory, List.getElem?_map, Option.map_eq_some_iff,
      Array.getElem?_toList] at hname
    obtain ⟨package, hpackage, rfl⟩ := hname
    rw [Graph.package, Array.getD_eq_getD_getElem?, hpackage]
    rfl
  rw [hp]
  exact ⟨List.mem_of_getElem? hname, hdotted⟩

/-- Loading a source tree puts two files into one package if and only if the paths of their directories are
spelled the same with dots, and loses none of them.  If no folder has a dot in its name, then each directory
has a package of its own, which is named by the path of the directory. -/
theorem SourceTree.load_one_package_per_directory (t : SourceTree) (ht : t.files.WellNamed)
    (exclude : List String) :
    let s := (t.load exclude .initial).2
    (∀ u ∈ s.userUnits, ∀ v ∈ s.userUnits, (s.unit u).package = (s.unit v).package ↔
      ".".intercalate (s.unit u).directory = ".".intercalate (s.unit v).directory) ∧
    ((t.load exclude .initial).1 = none → ∃ folder, t.files.scan t.root exclude = .ok folder ∧
      (s.userUnits.map fun u => (s.unit u).path).Perm (folder.allFiles.map SourceFile.path)) ∧
    (t.Undotted exclude →
      (∀ u ∈ s.userUnits, (s.graph.package (s.unit u).package).name = (s.unit u).directory) ∧
      ∀ u ∈ s.userUnits, ∀ v ∈ s.userUnits,
        (s.unit u).package = (s.unit v).package ↔ (s.unit u).directory = (s.unit v).directory) := by
  intro s
  obtain ⟨hfiled, hpaths⟩ : s.inventory.Filed (t.Entered exclude) ∧
      ((t.load exclude .initial).1 = none → ∃ folder, t.files.scan t.root exclude = .ok folder ∧
        s.inventory.paths = languageFile :: (Inventory.loadOrder folder).map SourceFile.path) :=
    load_filed ht exclude
  clear_value s
  have hunit : ∀ u ∈ s.userUnits, t.Entered exclude (s.unit u).directory ∧
      s.inventory.HasPackage (s.unit u).package (s.unit u).directory :=
    fun u hu => hfiled.filed (s.unit u).placement (State.placement_mem hu)
  refine ⟨fun u hu v hv => hfiled.package_eq_iff (hunit u hu).2 (hunit v hv).2, fun houtcome => ?_,
    fun hdots => ?_⟩
  · obtain ⟨folder, hscan, hpaths⟩ := hpaths houtcome
    refine ⟨folder, hscan, ?_⟩
    rw [State.userUnits_paths, hpaths]
    exact (Inventory.loadOrder_perm folder).map _
  · -- Directories are named by folders, whose names are proper, and here they have no dots either.
    have hplain {σ : List String} (hσ : t.Entered exclude σ) :
        ∀ name ∈ σ, name ≠ "" ∧ '.' ∉ name.toList := by
      obtain rfl | ⟨folder, hscan, g, hg, rfl⟩ := hσ
      · decide
      · have hproper := (scan_placed ht hscan).2.proper hg
        exact fun name hname => ⟨(hproper name hname).nonempty, hdots folder hscan g hg name hname⟩
    refine ⟨fun u hu => ?_, fun u hu v hv => ?_⟩
    · obtain ⟨hmem, hdotted⟩ := State.name_of_hasPackage (hunit u hu).2
      exact dotted_inj (hplain (hfiled.named _ hmem)) (hplain (hunit u hu).1) hdotted
    · rw [hfiled.package_eq_iff (hunit u hu).2 (hunit v hv).2]
      exact ⟨dotted_inj (hplain (hunit u hu).1) (hplain (hunit v hv).1), congrArg _⟩

/-- A folder whose name has a dot, and folders that spell it. -/
def dottedFolder : SourceTree where
  files := ⟨[.folder "src" [
    .folder "a" [.folder "b" [.file "y.ceylon" "class Y() {}"]],
    .folder "a.b" [.file "x.ceylon" "class X() {}"]]]⟩
  root := "/src"

/-- Files of two folders get into one package, if one of the folders has a dot in its name. -/
theorem dottedFolder_shares_package :
    dottedFolder.files.WellNamed ∧ (dottedFolder.load [] .initial).1 = none ∧
      let s := (dottedFolder.load [] .initial).2
      (s.userUnits.map fun u => ((s.unit u).directory, (s.unit u).package)) =
        [(["a", "b"], ⟨3⟩), (["a.b"], ⟨3⟩)] := by
  have hnamed : dottedFolder.files.WellNamed := by decide
  have hload := SourceTree.load_of_loaded? dottedFolder 10 []
    (fun done i => done && i.units.toList.tail.map (fun x => (Path.directory x.path, x.package)) ==
      [(["a", "b"], ⟨3⟩), (["a.b"], ⟨3⟩)]) (by decide +kernel)
  rw [Bool.and_eq_true, Option.isNone_iff_eq_none] at hload
  refine ⟨hnamed, hload.1, ?_⟩
  rw [← State.userUnits_placements, List.map_map] at hload
  exact eq_of_beq hload.2

/-- Two files of one directory, and one of another. -/
def threeClasses : SourceTree where
  files := ⟨[.folder "src" [
    .folder "a" [.folder "b" [.file "x.ceylon" "class X() {}", .file "y.ceylon" "class Y() {}"]],
    .folder "c" [.file "z.ceylon" "class Z() {}"]]]⟩
  root := "/src"

theorem load_one_package_per_directory_threeClasses :
    threeClasses.files.WellNamed ∧ threeClasses.Undotted [] ∧
      let s := (threeClasses.load [] .initial).2
      (s.userUnits.map fun u => (s.unit u).path) = ["a/b/x.ceylon", "a/b/y.ceylon", "c/z.ceylon"] ∧
      (∀ u ∈ s.userUnits, (s.graph.package (s.unit u).package).name = (s.unit u).directory) ∧
      ∀ u ∈ s.userUnits, ∀ v ∈ s.userUnits,
        (s.unit u).package = (s.unit v).package ↔ (s.unit u).directory = (s.unit v).directory := by
  have hnamed : threeClasses.files.WellNamed := by decide
  have hdots : threeClasses.Undotted [] := by decide +kernel
  have hpaths := SourceTree.load_of_loaded? threeClasses 10 []
    (fun _ i => i.paths.tail == ["a/b/x.ceylon", "a/b/y.ceylon", "c/z.ceylon"]) (by decide +kernel)
  refine ⟨hnamed, hdots, ?_, (threeClasses.load_one_package_per_directory hnamed []).2.2 hdots⟩
  rw [State.userUnits_paths]
  exact eq_of_beq hpaths

end Analysis

end Ceylon
