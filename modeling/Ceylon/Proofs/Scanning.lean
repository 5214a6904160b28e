import Mathlib.Data.List.Basic
import Ceylon.Files.Scan

/-!
# Where scanned files lie

The names in a tree of files are proper: they have no slashes and stand for themselves, and no folder holds
two entries of one name (`Tree.WellNamed`).  A scan of such a tree places every folder by the names on the
way to it: the segments of its path, and of the paths of its files, are those names
(`scan_placed`).
-/

namespace Ceylon.Files

/-! ## Paths -/

namespace Path

/-- A name that a file or folder can have. -/
structure Proper (name : String) : Prop where
  nonempty : name ≠ ""
  here : name ≠ "."
  outer : name ≠ ".."
  slash : '/' ∉ name.toList

instance (name : String) : Decidable (Proper name) :=
  decidable_of_iff (name ≠ "" ∧ name ≠ "." ∧ name ≠ ".." ∧ '/' ∉ name.toList)
    ⟨fun ⟨h₁, h₂, h₃, h₄⟩ => ⟨h₁, h₂, h₃, h₄⟩, fun ⟨h₁, h₂, h₃, h₄⟩ => ⟨h₁, h₂, h₃, h₄⟩⟩

/-- A way with one more proper name is proper. -/
theorem proper_concat {names : List String} {name : String} (h : ∀ n ∈ names, Proper n)
    (hname : Proper name) : ∀ n ∈ names ++ [name], Proper n := by
  simpa [or_imp, forall_and] using And.intro h hname

/-- Names between which a character stands can be told apart, if none of them contains it. -/
theorem splitOn_intercalate {c : Char} {names : List String} (hne : names ≠ [])
    (hnames : ∀ name ∈ names, c ∉ name.toList) :
    ((((String.singleton c).intercalate names).toList.splitOn c).map String.ofList) = names := by
  rw [String.toList_intercalate, String.toList_singleton, List.splitOn_intercalate]
  · simp
  · simpa using hnames
  · simpa using hne

/-- Joining proper names and splitting again gives them back. -/
theorem split_intercalate {names : List String} (hne : names ≠ [])
    (hnames : ∀ name ∈ names, Proper name) : split ("/".intercalate names) = names := by
  have hslash : ("/" : String) = String.singleton '/' := by decide
  rw [split, hslash]
  exact splitOn_intercalate hne fun name h => (hnames name h).slash

/-- A proper name is no step up and no empty step, so cleaning keeps it. -/
theorem step_of_proper {rooted : Bool} {done : List String} {name : String} (h : Proper name) :
    step rooted done name = name :: done := by
  rw [step]
  · exact h.nonempty
  · exact h.here
  · exact h.outer

/-- Cleaning keeps every proper name, in order. -/
theorem foldl_step_of_proper {rooted : Bool} {names done : List String} (h : ∀ name ∈ names, Proper name) :
    names.foldl (step rooted) done = names.reverse ++ done := by
  induction names generalizing done with
  | nil => rfl
  | cons name names ih =>
    rw [List.foldl_cons, step_of_proper (h name (List.mem_cons_self ..)),
      ih fun n hn => h n (List.mem_cons_of_mem _ hn), List.reverse_cons, List.append_assoc,
      List.singleton_append]

/-- The segments of a path are the names on it. -/
theorem segments_intercalate {names : List String} (h : ∀ name ∈ names, Proper name) :
    segments ("/".intercalate names) = names := by
  by_cases hne : names = []
  · subst hne
    decide
  · rw [segments, split_intercalate hne h, foldl_step_of_proper h, List.append_nil,
      List.reverse_reverse]

/-- A joined way starts with its first name. -/
theorem toList_intercalate_cons (separator name : String) (names : List String) :
    ∃ rest, (separator.intercalate (name :: names)).toList = name.toList ++ rest := by
  rw [String.toList_intercalate, List.map_cons]
  cases names with
  | nil => exact ⟨[], by simp⟩
  | cons n names => exact ⟨_, List.intercalate_cons_cons.trans (List.append_assoc ..)⟩

theorem intercalate_ne_empty {separator : String} {names : List String} (hne : names ≠ [])
    (h : ∀ name ∈ names, name ≠ "") : separator.intercalate names ≠ "" := by
  obtain ⟨name, names, rfl⟩ := List.exists_cons_of_ne_nil hne
  obtain ⟨rest, hrest⟩ := toList_intercalate_cons separator name names
  rw [← String.toList_eq_nil_iff.ne, hrest]
  exact fun happend => h name (List.mem_cons_self ..)
    (String.toList_eq_nil_iff.mp (List.append_eq_nil_iff.mp happend).1)

/-- A joined way of proper names is not rooted. -/
theorem isRooted_intercalate {names : List String} (h : ∀ name ∈ names, Proper name) :
    isRooted ("/".intercalate names) = false := by
  rw [isRooted, String.startsWith_string_eq_false_iff]
  cases names with
  | nil => decide
  | cons name names =>
    obtain ⟨rest, hrest⟩ := toList_intercalate_cons "/" name names
    have hname := h name (List.mem_cons_self ..)
    rw [hrest]
    rintro ⟨tail, htail⟩
    cases hcs : name.toList with
    | nil => exact hname.nonempty (String.toList_eq_nil_iff.mp hcs)
    | cons c cs =>
      rw [hcs] at htail
      have hc : '/' = c := (List.cons.inj htail).1
      exact hname.slash (hcs ▸ hc ▸ List.mem_cons_self ..)

theorem isEmpty_intercalate {names : List String} (hne : names ≠ []) (h : ∀ name ∈ names, Proper name) :
    ("/".intercalate names).isEmpty = false := by
  rw [← Bool.not_eq_true, String.isEmpty_iff]
  exact intercalate_ne_empty hne fun name hname => (h name hname).nonempty

/-- A joined way of proper names is clean already. -/
theorem clean_intercalate {names : List String} (hne : names ≠ []) (h : ∀ name ∈ names, Proper name) :
    clean ("/".intercalate names) = "/".intercalate names := by
  rw [clean, segments_intercalate h, isRooted_intercalate h]
  simp [isEmpty_intercalate hne h]

/-- The path of an entry of a folder. -/
theorem join_intercalate {names : List String} {name : String} (h : ∀ n ∈ names, Proper n)
    (hname : Proper name) : join ["/".intercalate names, name] = "/".intercalate (names ++ [name]) := by
  have hlast : name.isEmpty = false := by simpa using hname.nonempty
  by_cases hne : names = []
  · subst hne
    have hempty : ("/".intercalate []).isEmpty = true := by decide
    rw [join]
    simp only [List.filter, hempty, hlast, Bool.not_true, Bool.not_false]
    exact clean_intercalate (by simp) (by simpa using hname)
  · rw [join]
    simp only [List.filter, isEmpty_intercalate hne h, hlast, Bool.not_false]
    have hparts : "/".intercalate ["/".intercalate names, name] = "/".intercalate (names ++ [name]) := by
      rw [String.intercalate_append_of_ne_nil hne (by simp), String.intercalate_cons_cons]
    rw [hparts, clean_intercalate (by simp) (proper_concat h hname)]

end Path

/-! ## Trees -/

/-- An entry whose name is proper, and so are those of the entries inside it, which differ from each other
in every folder. -/
inductive Entry.WellNamed : Entry → Prop
  | file {name content : String} : Path.Proper name → WellNamed (.file name content)
  | folder {name : String} {entries : List Entry} : Path.Proper name →
    (entries.map Entry.name).Nodup → (∀ e ∈ entries, WellNamed e) → WellNamed (.folder name entries)
  | special {name content : String} : Path.Proper name → WellNamed (.special name content)

/-- A tree of files as a file system has it. -/
structure Tree.WellNamed (t : Tree) : Prop where
  distinct : (t.entries.map Entry.name).Nodup
  inside : ∀ e ∈ t.entries, e.WellNamed

mutual

/-- Decides whether an entry is well named. -/
def Entry.decideWellNamed : (e : Entry) → Decidable e.WellNamed
  | .file name _ => decidable_of_iff (Path.Proper name) ⟨.file, fun | .file h => h⟩
  | .special name _ => decidable_of_iff (Path.Proper name) ⟨.special, fun | .special h => h⟩
  | .folder name entries =>
    have := Entry.decideAllWellNamed entries
    decidable_of_iff (Path.Proper name ∧ (entries.map Entry.name).Nodup ∧ ∀ e ∈ entries, e.WellNamed)
      ⟨fun ⟨hname, hdistinct, hinside⟩ => .folder hname hdistinct hinside,
        fun | .folder hname hdistinct hinside => ⟨hname, hdistinct, hinside⟩⟩

/-- Decides whether entries are well named. -/
def Entry.decideAllWellNamed : (entries : List Entry) → Decidable (∀ e ∈ entries, e.WellNamed)
  | [] => isTrue (by simp)
  | e :: entries =>
    have := Entry.decideWellNamed e
    have := Entry.decideAllWellNamed entries
    decidable_of_iff (e.WellNamed ∧ ∀ e ∈ entries, e.WellNamed) (List.forall_mem_cons).symm

end

instance (t : Tree) : Decidable t.WellNamed :=
  have := Entry.decideAllWellNamed t.entries
  decidable_of_iff ((t.entries.map Entry.name).Nodup ∧ ∀ e ∈ t.entries, e.WellNamed)
    ⟨fun ⟨hdistinct, hinside⟩ => ⟨hdistinct, hinside⟩, fun h => ⟨h.distinct, h.inside⟩⟩

/-- In a well-named tree every entry has a proper name. -/
theorem Entry.WellNamed.proper {e : Entry} (h : e.WellNamed) : Path.Proper e.name := by
  cases h with
  | file h => exact h
  | folder h => exact h
  | special h => exact h

/-- What a name finds is one of the entries. -/
theorem Entry.mem_of_named? {name : String} {entries : List Entry} {e : Entry}
    (h : Entry.named? name entries = some e) : e ∈ entries :=
  List.mem_of_find?_eq_some h

/-- What a folder holds that is found in a well-named tree. -/
theorem findIn?_wellNamed {path : List String} {e : Entry} {name : String} {entries : List Entry}
    (he : ∀ n es, e = .folder n es → (es.map Entry.name).Nodup ∧ ∀ e ∈ es, e.WellNamed)
    (h : Tree.findIn? path e = some (.folder name entries)) :
    (entries.map Entry.name).Nodup ∧ ∀ e ∈ entries, e.WellNamed := by
  induction path generalizing e with
  | nil =>
    obtain rfl := Option.some.inj h
    exact he _ _ rfl
  | cons segment path ih =>
    cases e with
    | file | special => cases h
    | folder n es =>
      obtain ⟨inner, hinner, h⟩ := Option.bind_eq_some_iff.mp h
      refine ih (fun n' es' heq => ?_) h
      have hwell := (he n es rfl).2 inner (Entry.mem_of_named? hinner)
      subst heq
      cases hwell with
      | folder _ hdistinct hinside => exact ⟨hdistinct, hinside⟩

/-- A folder found in a well-named tree is well named, its entries too. -/
theorem find_wellNamed {t : Tree} (ht : t.WellNamed) {path name : String} {entries : List Entry}
    (h : t.find path = .ok (.folder name entries)) :
    (entries.map Entry.name).Nodup ∧ ∀ e ∈ entries, e.WellNamed := by
  have hroot : ∀ n es, Entry.folder "/" t.entries = .folder n es →
      (es.map Entry.name).Nodup ∧ ∀ e ∈ es, e.WellNamed := by
    rintro n es heq
    cases heq
    exact ⟨ht.distinct, ht.inside⟩
  simp only [Tree.find] at h
  split at h
  · exact hroot _ _ (Except.ok.inj h)
  · split at h
    · cases h
    · split at h
      · next hfound =>
        obtain rfl := Except.ok.inj h
        exact findIn?_wellNamed hroot hfound
      · cases h

/-! ## Scans -/

/-- A folder of source files that lies where its segments say, as do its files and the folders inside. -/
inductive SourceFolder.Placed : SourceFolder → Prop
  | mk {name path : String} {segments : List String} {files : List SourceFile}
      {folders : List SourceFolder}
      (proper : ∀ n ∈ segments, Path.Proper n)
      (filed : ∀ f ∈ files, Path.segments f.path = segments ++ [f.name])
      (distinct : (folders.map SourceFolder.name).Nodup)
      (below : ∀ g ∈ folders, g.segments = segments ++ [g.name])
      (inside : ∀ g ∈ folders, g.Placed) : Placed (.mk name path segments files folders)

/-- Walking a list of folders is walking each of them. -/
theorem SourceFolder.walkAll_eq (enter : SourceFolder → Bool) (folders : List SourceFolder) :
    walkAll enter folders = folders.flatMap (walk enter) := by
  induction folders with
  | nil => rw [walkAll, List.flatMap_nil]
  | cons f fs ih => rw [walkAll, ih, List.flatMap_cons]

/-- The files of a folder are its own and those of its folders. -/
theorem SourceFolder.allFiles_mk (name path : String) (segments : List String) (files : List SourceFile)
    (folders : List SourceFolder) :
    (SourceFolder.mk name path segments files folders).allFiles = files ++ folders.flatMap allFiles := by
  rw [allFiles, walk]
  simp only [walkAll_eq, if_true, List.flatMap_cons, List.flatMap_assoc]
  rfl

/-- The names on the way to a folder are proper. -/
theorem SourceFolder.Placed.proper {folder : SourceFolder} (h : folder.Placed) {g : SourceFolder}
    (hg : g ∈ folder.walk fun _ => true) : ∀ n ∈ g.segments, Path.Proper n := by
  induction h with
  | mk proper _ _ _ _ ih =>
    simp only [walk, walkAll_eq, if_true, List.mem_cons, List.mem_flatMap] at hg
    obtain rfl | ⟨f, hf, hg⟩ := hg
    · exact proper
    · exact ih f hf hg

/-- Scanning the entries of a folder keeps the folders among them that are not skipped. -/
theorem scanFolders_eq (patterns : List String) (path : String) (segments : List String)
    (entries : List Entry) :
    scanFolders patterns path segments entries =
      entries.filterMap (scanFolder? patterns path segments) := by
  induction entries with
  | nil => rw [scanFolders, List.filterMap_nil]
  | cons e es ih =>
    rw [scanFolders, ih, List.filterMap_cons]
    cases scanFolder? patterns path segments e <;> rfl

/-- A scanned folder has the name of its entry. -/
theorem scanFolder?_name {patterns : List String} {path : String} {segments : List String} {e : Entry}
    {f : SourceFolder} (h : scanFolder? patterns path segments e = some f) :
    f.name = e.name ∧ f.segments = segments ++ [e.name] := by
  cases e with
  | file | special => cases h
  | folder name entries =>
    simp only [scanFolder?] at h
    split at h
    · cases h
    · obtain rfl := Option.some.inj h
      exact ⟨rfl, rfl⟩

/-- So scanned folders have names of their own where the entries do. -/
theorem scanFolders_names (patterns : List String) (path : String) (segments : List String)
    (entries : List Entry) :
    ((scanFolders patterns path segments entries).map SourceFolder.name).Sublist
      (entries.map Entry.name) := by
  rw [scanFolders_eq]
  induction entries with
  | nil => exact .slnil
  | cons e es ih =>
    rw [List.filterMap_cons, List.map_cons]
    cases he : scanFolder? patterns path segments e with
    | none => exact .cons _ ih
    | some f =>
      rw [List.map_cons, (scanFolder?_name he).1]
      exact .cons_cons _ ih

/-- Inserting by name adds the one item. -/
theorem insertByName_perm {α : Type} (name : α → String) (a : α) (items : List α) :
    (insertByName name a items).Perm (a :: items) := by
  induction items with
  | nil => exact .refl _
  | cons b rest ih =>
    rw [insertByName]
    split
    · exact .refl _
    · exact (ih.cons b).trans (.swap a b rest)

/-- Sorting by name loses and adds nothing. -/
theorem inNameOrder_perm {α : Type} (name : α → String) (items : List α) :
    (inNameOrder name items).Perm items := by
  induction items with
  | nil => exact .refl _
  | cons a items ih => exact (insertByName_perm name a _).trans (ih.cons a)

@[simp] theorem mem_inNameOrder {α : Type} {name : α → String} {items : List α} {a : α} :
    a ∈ inNameOrder name items ↔ a ∈ items :=
  (inNameOrder_perm name items).mem_iff

/-- The source files of a folder lie in it. -/
theorem scanFiles_segments {patterns segments : List String} {entries : List Entry}
    (hsegments : ∀ n ∈ segments, Path.Proper n) (hentries : ∀ e ∈ entries, e.WellNamed)
    {f : SourceFile} (hf : f ∈ scanFiles patterns ("/".intercalate segments) entries) :
    Path.segments f.path = segments ++ [f.name] := by
  simp only [scanFiles, mem_inNameOrder, List.mem_filterMap] at hf
  obtain ⟨e, he, hf⟩ := hf
  have hproper : Path.Proper e.name := (hentries e he).proper
  cases e with
  | folder | special => cases hf
  | file name content =>
    simp only at hf
    split at hf
    · obtain rfl := Option.some.inj hf
      have hname : Path.Proper name := hproper
      rw [Path.join_intercalate hsegments hname,
        Path.segments_intercalate (Path.proper_concat hsegments hname)]
    · cases hf

/-- What is found in a folder lies in it, if that holds of the folders inside. -/
theorem placed_of_entries {patterns : List String} {name path : String} {segments : List String}
    {entries : List Entry} (hsegments : ∀ n ∈ segments, Path.Proper n)
    (hdistinct : (entries.map Entry.name).Nodup) (hentries : ∀ e ∈ entries, e.WellNamed)
    (inside : ∀ e ∈ entries, ∀ g,
      scanFolder? patterns ("/".intercalate segments) segments e = some g → g.Placed) :
    (SourceFolder.mk name path segments (scanFiles patterns ("/".intercalate segments) entries)
      (inNameOrder SourceFolder.name
        (scanFolders patterns ("/".intercalate segments) segments entries))).Placed := by
  -- A folder of the scan comes from a folder that lies there.
  have hmem : ∀ g ∈ inNameOrder SourceFolder.name
      (scanFolders patterns ("/".intercalate segments) segments entries),
      ∃ e ∈ entries, scanFolder? patterns ("/".intercalate segments) segments e = some g := by
    intro g hg
    simpa [scanFolders_eq] using hg
  refine .mk hsegments (fun f hf => scanFiles_segments hsegments hentries hf) ?_ (fun g hg => ?_)
    fun g hg => ?_
  · rw [((inNameOrder_perm SourceFolder.name _).map _).nodup_iff]
    exact hdistinct.sublist (scanFolders_names ..)
  · obtain ⟨e, -, he⟩ := hmem g hg
    rw [(scanFolder?_name he).2, (scanFolder?_name he).1]
  · obtain ⟨e, hmem, he⟩ := hmem g hg
    exact inside e hmem g he

/-- Every folder of a scan is placed: its path is its way joined, its name the last of it. -/
theorem scanFolder?_placed {patterns segments : List String} {e : Entry} (he : e.WellNamed)
    (hsegments : ∀ n ∈ segments, Path.Proper n) {f : SourceFolder}
    (h : scanFolder? patterns ("/".intercalate segments) segments e = some f) : f.Placed := by
  induction he generalizing segments f with
  | file | special => cases h
  | @folder name entries hname hdistinct hentries ih =>
    simp only [scanFolder?] at h
    split at h
    · cases h
    · obtain rfl := Option.some.inj h
      have hall := Path.proper_concat hsegments hname
      rw [Path.join_intercalate hsegments hname]
      exact placed_of_entries hall hdistinct hentries fun e he g hg => ih e he hall hg

/-- A scan finds every folder and every file where it lies. -/
theorem scan_placed {t : Tree} (ht : t.WellNamed) {root : String} {patterns : List String}
    {found : SourceFolder} (h : t.scan root patterns = .ok found) :
    found.segments = [] ∧ found.Placed := by
  simp only [Tree.scan] at h
  split at h
  · cases h
  · cases h
  · cases h
  · next entries hroot =>
    split at h
    · cases h
    · obtain rfl := Except.ok.inj h
      obtain ⟨hdistinct, hentries⟩ := find_wellNamed ht hroot
      have hroot : ∀ n ∈ ([] : List String), Path.Proper n := by simp
      exact ⟨rfl, placed_of_entries hroot hdistinct hentries
        fun e he g hg => scanFolder?_placed (hentries e he) (by simp) hg⟩

end Ceylon.Files
