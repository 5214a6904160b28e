import Ceylon.Proofs.LanguageModule
import Ceylon.Proofs.Scanning

/-!
# Evaluating fixed trees

What loading a fixed tree does to the inventory can be computed: the headings of its files are read from their
bytes, and the inventory before is known (`SourceTree.load_of_loaded?`).
-/

namespace Ceylon.Analysis

open Model Text Files

namespace Inventory

variable {heading heading' : SourceFile → Heading}

theorem loadFiles_congr {p : PackageId} {fs : List SourceFile} (h : ∀ f ∈ fs, heading f = heading' f) :
    loadFiles heading p fs = loadFiles heading' p fs := by
  induction fs with
  | nil => rfl
  | cons f fs ih =>
    funext i
    rw [loadFiles, loadFiles, h f (List.mem_cons_self ..), ih fun g hg => h g (List.mem_cons_of_mem _ hg)]

theorem loadPackage_congr {files : List SourceFile} (h : ∀ f ∈ files, heading f = heading' f) :
    loadPackage heading files = loadPackage heading' files := by
  have hdescriptors : ∀ f ∈ (files.partition (·.name == descriptorName)).1, heading f = heading' f :=
    fun f hf => h f (by simp_all)
  have hothers : ∀ f ∈ (files.partition (·.name == descriptorName)).2, heading f = heading' f :=
    fun f hf => h f (by simp_all)
  funext i
  simp only [loadPackage]
  rw [loadFiles_congr hdescriptors, loadFiles_congr hothers]

mutual

/-- Loading a folder depends on the headings of its files. -/
theorem loadFolder_congr : (folder : SourceFolder) → (∀ f ∈ folder.allFiles, heading f = heading' f) →
    loadFolder heading folder = loadFolder heading' folder
  | .mk _ _ _ files folders, h => by
    rw [SourceFolder.allFiles_mk] at h
    funext i
    rw [loadFolder, loadFolder, loadPackage_congr fun f hf => h f (List.mem_append_left _ hf),
      loadFolders_congr folders fun f hf => h f (List.mem_append_right _ hf)]

theorem loadFolders_congr : (folders : List SourceFolder) →
    (∀ f ∈ folders.flatMap SourceFolder.allFiles, heading f = heading' f) →
    loadFolders heading folders = loadFolders heading' folders
  | [], _ => by
    funext i
    rw [loadFolders, loadFolders]
  | g :: gs, h => by
    rw [List.flatMap_cons] at h
    funext i
    rw [loadFolders, loadFolders, loadFolder_congr g fun f hf => h f (List.mem_append_left _ hf),
      loadFolders_congr gs fun f hf => h f (List.mem_append_right _ hf)]

end

end Inventory

namespace SourceTree

/-- The heading of a file of no more than a number of tokens. -/
def headingWithin (t : SourceTree) (limit : Nat) (f : SourceFile) : Option Heading :=
  let path := Path.join [t.root, f.path]
  (Syntax.readBytes? limit ⟨f.path, path⟩ (bytesOf ((t.files.read path).toOption.getD ""))).map fun r =>
    if r.fault.isNone then .ofTree r.unit else (Heading.ofTree r.unit).fail

theorem heading_eq_of_headingWithin {t : SourceTree} {limit : Nat} {f : SourceFile} {h : Heading}
    (hf : t.headingWithin limit f = some h) : t.heading f = h := by
  obtain ⟨r, hr, rfl⟩ := Option.map_eq_some_iff.mp hf
  rw [heading, reading, Syntax.readUnit_eq_of_readBytes? hr]

/-- What loading a tree whose files have no more than a number of tokens does to the inventory. -/
def loaded? (t : SourceTree) (limit : Nat) (exclude : List String) : Option (Bool × Inventory) :=
  match t.files.scan t.root exclude with
  | .error _ => none
  | .ok folder =>
    if folder.allFiles.all fun f => (t.headingWithin limit f).isSome then
      let (done, i) := Inventory.loadFolder (fun f => (t.headingWithin limit f).getD .absent) folder
        { startingInventory with stack := some {} }
      some (done, { i with stack := none })
    else none

/-- What holds of a fixed tree when it has been loaded can be found out by computing it. -/
theorem load_of_loaded? (t : SourceTree) (limit : Nat) (exclude : List String) (P : Bool → Inventory → Bool)
    (h : (t.loaded? limit exclude).any (fun r => P r.1 r.2) = true) :
    P (t.load exclude .initial).1.isNone (t.load exclude .initial).2.inventory = true := by
  obtain ⟨r, hr, hP⟩ := (Option.any_eq_true _ _).mp h
  rw [loaded?] at hr
  split at hr
  · cases hr
  · next folder hscan =>
    split at hr
    · next hall =>
      obtain rfl := Option.some.inj hr
      -- Reading has come to an end for each file, so the headings are those that loading takes.
      have hheading : ∀ f ∈ folder.allFiles, t.heading f = (t.headingWithin limit f).getD .absent := by
        intro f hf
        obtain ⟨heading, hheading⟩ := Option.isSome_iff_exists.mp (List.all_eq_true.mp hall f hf)
        rw [heading_eq_of_headingWithin hheading, hheading]
        rfl
      rw [← Inventory.loadFolder_congr folder hheading, ← initial_inventory] at hP
      obtain ⟨houtcome, hinventory⟩ := t.load_inventory hscan .initial
      rwa [houtcome, hinventory]
    · cases hr

end SourceTree

end Ceylon.Analysis
