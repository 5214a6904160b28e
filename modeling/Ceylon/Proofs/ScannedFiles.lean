import Ceylon.Proofs.Encoding
import Ceylon.Proofs.Writing

/-!
# Which files a scan finds

A scan finds the source files that are neither hidden nor excluded, however deep they lie, and nothing else, such as a
link that has the name of one (`scan_exact`): hiding or excluding a folder takes everything in it away, so a file is
found if no folder on the way to it is hidden and neither the file nor such a folder is excluded (`Wanted`).  A walk
comes to them in the order of the names on their paths, with the files of a folder before what is in its folders
(`Before`).
-/

namespace Ceylon.Files

/-! ## What is looked for -/

/-- The path of some names, or the last one, is matched by a pattern. -/
def Excluded (patterns names : List String) : Prop :=
  ∃ p ∈ patterns, Text.Glob.isMatch p ("/".intercalate names) = true ∨
    ∃ last ∈ names.getLast?, Text.Glob.isMatch p last = true

/-- A regular file that lies below a folder with the given entries, with the name of a source file, and nothing on the
way to which is excluded or hidden. -/
structure Wanted (excluded : List String → Prop) (entries : List Entry) (way : List String) (name : String) :
    Prop where
  lies : (Tree.fileAt? (way ++ [name]) entries).isSome = true
  source : name.endsWith extension = true
  shown : ∀ folder ∈ way, folder.startsWith "." = false
  kept : ∀ names, names ≠ [] → names <+: way ++ [name] → ¬ excluded names

/-- The order in which a walk comes to files, by the names on their paths: in the folder where their ways part, its own
files come first, and names go by their bytes. -/
inductive Before : List String → List String → Prop
  | files {a b : String} : Text.encode a.toList < Text.encode b.toList → Before [a] [b]
  | folders {a b : String} {as bs : List String} : as ≠ [] → bs ≠ [] →
    Text.encode a.toList < Text.encode b.toList → Before (a :: as) (b :: bs)
  | fileFirst {a b : String} {bs : List String} : bs ≠ [] → Before [a] (b :: bs)
  | inside {a : String} {as bs : List String} : Before as bs → Before (a :: as) (a :: bs)

/-- Names are compared by their bytes, which is the order of strings. -/
theorem bytes_lt_bytes {a b : String} : Text.encode a.toList < Text.encode b.toList ↔ a < b :=
  Text.encode_lt_encode_iff.trans String.lt_iff.symm

/-- A common start of two ways does not matter to their order. -/
theorem Before.append_left {as bs : List String} (h : Before as bs) (segments : List String) :
    Before (segments ++ as) (segments ++ bs) := by
  induction segments with
  | nil => exact h
  | cons _ _ ih => exact .inside ih

/-- No way comes before itself. -/
theorem Before.irrefl {as : List String} : ¬ Before as as := by
  intro h
  induction as with
  | nil => cases h
  | cons a as ih =>
    cases h with
    | files h => exact Std.lt_irrefl h
    | folders _ _ h => exact Std.lt_irrefl h
    | fileFirst h => exact h rfl
    | inside h => exact ih h

namespace Path

/-- The last name on a path. -/
theorem base_intercalate {names : List String} {name : String} (h : ∀ n ∈ names, Proper n) (hname : Proper name) :
    base ("/".intercalate (names ++ [name])) = name := by
  have hall := proper_concat h hname
  have hnonempty : ∀ n ∈ names ++ [name], (!n.isEmpty) = true := by simpa using fun n hn => (hall n hn).nonempty
  rw [base, isEmpty_intercalate (by simp) hall, split_intercalate (by simp) hall, List.filter_eq_self.mpr hnonempty]
  simp

end Path

/-- A path below the root is excluded by its base name or by the whole of it. -/
theorem isExcluded_iff {patterns names : List String} {name : String} (h : ∀ n ∈ names, Path.Proper n)
    (hname : Path.Proper name) :
    isExcluded patterns ("/".intercalate (names ++ [name])) = true ↔ Excluded patterns (names ++ [name]) := by
  simp [isExcluded, Excluded, Path.base_intercalate h hname]

/-- A proper name is hidden exactly when it starts with a period. -/
theorem isHidden_iff {name : String} (h : Path.Proper name) : isHidden name = name.startsWith "." := by
  simp [isHidden, h.here, h.outer]

/-! ## Entries -/

/-- In a folder with distinct names each entry is the one its name finds. -/
theorem Entry.named?_of_mem {entries : List Entry} (hdistinct : (entries.map Entry.name).Nodup) {e : Entry}
    (he : e ∈ entries) : Entry.named? e.name entries = some e := by
  induction entries with
  | nil => cases he
  | cons f entries ih =>
    rw [List.map_cons, List.nodup_cons] at hdistinct
    rw [Entry.named?, List.find?_cons]
    rcases List.mem_cons.mp he with rfl | he
    · rw [beq_self_eq_true]
    · have hne : f.name ≠ e.name := fun h => hdistinct.1 (h ▸ List.mem_map_of_mem he)
      rw [beq_eq_false_iff_ne.mpr hne]
      exact ih hdistinct.2 he

/-- What a name finds has that name. -/
theorem Entry.name_of_named? {name : String} {entries : List Entry} {e : Entry}
    (h : Entry.named? name entries = some e) : e.name = name := by
  simpa using List.find?_some h

/-- Looking up a name in a folder with distinct names. -/
theorem Entry.named?_eq_some_iff {entries : List Entry} (hdistinct : (entries.map Entry.name).Nodup) {name : String}
    {e : Entry} : Entry.named? name entries = some e ↔ e ∈ entries ∧ e.name = name := by
  refine ⟨fun h => ⟨Entry.mem_of_named? h, Entry.name_of_named? h⟩, ?_⟩
  rintro ⟨he, rfl⟩
  exact Entry.named?_of_mem hdistinct he

section Wanted

variable {excluded : List String → Prop} {entries : List Entry} {name folder : String} {way : List String}

/-- What is wanted directly in a folder. -/
theorem wanted_nil : Wanted excluded entries [] name ↔
    (∃ content, Entry.named? name entries = some (.file name content)) ∧ name.endsWith extension = true ∧
      ¬ excluded [name] := by
  have hlies : (Tree.fileAt? [name] entries).isSome = true ↔
      ∃ content, Entry.named? name entries = some (.file name content) := by
    rw [Tree.fileAt?, Tree.findIn?_singleton]
    constructor
    · intro h
      split at h
      · next hfound =>
        obtain rfl : _ = name := Entry.name_of_named? hfound
        exact ⟨_, hfound⟩
      · cases h
    · rintro ⟨content, h⟩
      rw [h]
      rfl
  constructor
  · exact fun h => ⟨hlies.mp h.lies, h.source, h.kept [name] (by simp) List.prefix_rfl⟩
  · rintro ⟨h, hsource, hkept⟩
    refine ⟨hlies.mpr h, hsource, by simp, fun names hne hpre => ?_⟩
    -- The only path on the way to a file in the folder itself is its name.
    obtain rfl : names = [name] := by
      rcases List.prefix_cons_iff.mp hpre with rfl | ⟨rest, rfl, hrest⟩
      · exact absurd rfl hne
      · rw [List.prefix_nil.mp hrest]
    exact hkept

/-- What is wanted in a folder inside. -/
theorem wanted_cons : Wanted excluded entries (folder :: way) name ↔
    ∃ inner, Entry.named? folder entries = some (.folder folder inner) ∧ folder.startsWith "." = false ∧
      ¬ excluded [folder] ∧ Wanted (fun names => excluded (folder :: names)) inner way name := by
  have hlies : (Tree.fileAt? (folder :: way ++ [name]) entries).isSome = true ↔
      ∃ inner, Entry.named? folder entries = some (.folder folder inner) ∧
        (Tree.fileAt? (way ++ [name]) inner).isSome = true := by
    rw [List.cons_append, Tree.fileAt?_cons (by simp)]
    -- The conditions on the prefixes of a longer way are the one on its first name and those on the rest
    -- behind it.
    constructor
    · intro h
      rw [Entry.inside] at h
      split at h
      · next hfound =>
        obtain rfl : _ = folder := Entry.name_of_named? hfound
        exact ⟨_, hfound, h⟩
      · rw [Tree.fileAt?_of_nil] at h
        cases h
    · rintro ⟨inner, hfound, h⟩
      rwa [Entry.inside, hfound]
  constructor
  · intro h
    obtain ⟨inner, hfound, hinner⟩ := hlies.mp h.lies
    refine ⟨inner, hfound, h.shown _ List.mem_cons_self, h.kept _ (by simp) (by simp), hinner, h.source,
      fun n hn => h.shown n (List.mem_cons_of_mem _ hn), fun names _ hpre => h.kept _ (by simp) ?_⟩
    exact List.cons_prefix_cons.mpr ⟨rfl, hpre⟩
  · rintro ⟨inner, hfound, hshown, hkept, h⟩
    refine ⟨hlies.mpr ⟨inner, hfound, h.lies⟩, h.source, ?_, fun names hne hpre => ?_⟩
    · rintro n (_ | ⟨_, hn⟩)
      · exact hshown
      · exact h.shown n hn
    · rcases List.prefix_cons_iff.mp hpre with rfl | ⟨rest, rfl, hrest⟩
      · exact absurd rfl hne
      · by_cases hempty : rest = []
        · rwa [hempty]
        · exact h.kept rest hempty hrest

end Wanted

/-! ## What a scan finds -/

section Found

variable {patterns segments : List String} {entries : List Entry} {e : Entry}

/-- The files found in a folder: the regular ones with the suffix that are neither hidden nor excluded. -/
theorem mem_scanFiles (hsegments : ∀ n ∈ segments, Path.Proper n) (hdistinct : (entries.map Entry.name).Nodup)
    (hentries : ∀ e ∈ entries, e.WellNamed) {f : SourceFile} :
    f ∈ scanFiles patterns ("/".intercalate segments) entries ↔
      ∃ name, Wanted (fun names => Excluded patterns (segments ++ names)) entries [] name ∧
        f = ⟨name, "/".intercalate (segments ++ [name])⟩ := by
  have hproper : ∀ name content, Entry.file name content ∈ entries → Path.Proper name :=
    fun _ _ h => (hentries _ h).proper
  simp only [wanted_nil, Entry.named?_eq_some_iff hdistinct, scanFiles, mem_inNameOrder, List.mem_filterMap]
  constructor
  · rintro ⟨e, he, hf⟩
    cases e with
    -- Of what lies in a folder only a regular file is one of the scanned files.
    | folder | special => cases hf
    | file name content =>
      have hname := hproper name content he
      simp only [Path.join_intercalate hsegments hname, Bool.and_eq_true, Bool.not_eq_true', ← Bool.not_eq_true,
        isExcluded_iff hsegments hname, Option.ite_none_right_eq_some, Option.some.injEq] at hf
      exact ⟨name, ⟨⟨content, he, rfl⟩, hf.1.2, hf.1.1⟩, hf.2.symm⟩
  · rintro ⟨name, ⟨⟨content, he, _⟩, hsource, hkept⟩, rfl⟩
    have hname := hproper name content he
    have hexcluded : isExcluded patterns ("/".intercalate (segments ++ [name])) = false := by
      rwa [← Bool.not_eq_true, isExcluded_iff hsegments hname]
    exact ⟨_, he, by simp [Path.join_intercalate hsegments hname, hexcluded, hsource]⟩

/-- A folder that is entered. -/
theorem scanFolder?_eq_some_iff (hsegments : ∀ n ∈ segments, Path.Proper n) {name : String} (hname : Path.Proper name)
    {inner : List Entry} {g : SourceFolder} :
    scanFolder? patterns ("/".intercalate segments) segments (.folder name inner) = some g ↔
      name.startsWith "." = false ∧ ¬ Excluded patterns (segments ++ [name]) ∧
        g = .mk name ("/".intercalate (segments ++ [name])) (segments ++ [name])
          (scanFiles patterns ("/".intercalate (segments ++ [name])) inner)
          (inNameOrder SourceFolder.name (scanFolders patterns ("/".intercalate (segments ++ [name]))
            (segments ++ [name]) inner)) := by
  rw [← isExcluded_iff hsegments hname, ← isHidden_iff hname]
  simp only [scanFolder?, Path.join_intercalate hsegments hname, Bool.or_eq_true]
  split
  · next h => simpa using fun hhidden hkept => absurd h (by simp [hhidden, hkept])
  · next h =>
    rw [not_or, Bool.not_eq_true, Bool.not_eq_true] at h
    simp [h, eq_comm]

/-- The files below a folder are those wanted, if that holds of the folders inside. -/
theorem mem_allFiles_of_entries (hsegments : ∀ n ∈ segments, Path.Proper n)
    (hdistinct : (entries.map Entry.name).Nodup) (hentries : ∀ e ∈ entries, e.WellNamed)
    (inside : ∀ name inner, .folder name inner ∈ entries → ∀ g,
      scanFolder? patterns ("/".intercalate segments) segments (.folder name inner) = some g → ∀ f, f ∈ g.allFiles ↔
        ∃ way last, Wanted (fun names => Excluded patterns (segments ++ name :: names)) inner way last ∧
          f = ⟨last, "/".intercalate (segments ++ name :: way ++ [last])⟩) {name path : String} {f : SourceFile} :
    f ∈ (SourceFolder.mk name path segments (scanFiles patterns ("/".intercalate segments) entries)
      (inNameOrder SourceFolder.name
        (scanFolders patterns ("/".intercalate segments) segments entries))).allFiles ↔
      ∃ way last, Wanted (fun names => Excluded patterns (segments ++ names)) entries way last ∧
        f = ⟨last, "/".intercalate (segments ++ way ++ [last])⟩ := by
  simp only [SourceFolder.allFiles_mk, List.mem_append, mem_scanFiles hsegments hdistinct hentries, List.mem_flatMap,
    mem_inNameOrder, scanFolders_eq, List.mem_filterMap]
  -- A file is one of the folder itself, with an empty way, or comes from the folder that the way goes into
  -- first.
  constructor
  · rintro (⟨last, hwanted, rfl⟩ | ⟨g, ⟨e, he, hg⟩, hf⟩)
    · exact ⟨[], last, hwanted, by rw [List.append_nil]⟩
    · cases e with
      | file | special => cases hg
      | folder folder inner =>
        obtain ⟨way, last, hwanted, rfl⟩ := (inside folder inner he g hg f).mp hf
        have hscan := (scanFolder?_eq_some_iff hsegments (hentries _ he).proper).mp hg
        exact ⟨folder :: way, last, wanted_cons.mpr ⟨inner, Entry.named?_of_mem hdistinct he, hscan.1, hscan.2.1,
          hwanted⟩, rfl⟩
  · rintro ⟨way, last, hwanted, rfl⟩
    cases way with
    | nil => exact .inl ⟨last, hwanted, by rw [List.append_nil]⟩
    | cons folder way =>
      obtain ⟨inner, hfound, hshown, hkept, hwanted⟩ := wanted_cons.mp hwanted
      have he := Entry.mem_of_named? hfound
      have hname : Path.Proper folder := (hentries _ he).proper
      have hg := (@scanFolder?_eq_some_iff patterns _ hsegments folder hname inner _).mpr ⟨hshown, hkept, rfl⟩
      exact .inr ⟨_, ⟨_, he, hg⟩, (inside folder inner he _ hg _).mpr ⟨way, last, hwanted, rfl⟩⟩

/-- The files below a folder inside are those wanted there. -/
theorem mem_allFiles_of_scanFolder? (he : e.WellNamed) (hsegments : ∀ n ∈ segments, Path.Proper n) {name : String}
    {inner : List Entry} (hfolder : e = .folder name inner) {g : SourceFolder}
    (hg : scanFolder? patterns ("/".intercalate segments) segments e = some g) {f : SourceFile} :
    f ∈ g.allFiles ↔
      ∃ way last, Wanted (fun names => Excluded patterns (segments ++ name :: names)) inner way last ∧
        f = ⟨last, "/".intercalate (segments ++ name :: way ++ [last])⟩ := by
  induction he generalizing segments name inner g f with
  | file | special => cases hfolder
  | folder hname hdistinct hentries ih =>
    cases hfolder
    obtain ⟨-, -, rfl⟩ := (scanFolder?_eq_some_iff hsegments hname).mp hg
    have hall := Path.proper_concat hsegments hname
    rw [mem_allFiles_of_entries hall hdistinct hentries fun n es he' g' hg' f' => ih _ he' hall rfl hg']
    simp only [List.append_assoc, List.cons_append, List.nil_append]

/-! ## Where the folders found lie -/

/-- The folders that a walk comes to are there. -/
theorem findIn?_of_walk (he : e.WellNamed) (hsegments : ∀ n ∈ segments, Path.Proper n) {g : SourceFolder}
    (hg : scanFolder? patterns ("/".intercalate segments) segments e = some g) {f : SourceFolder}
    (hf : f ∈ g.walk fun _ => true) :
    ∃ way, f.path = "/".intercalate (segments ++ e.name :: way) ∧ (∀ n ∈ way, Path.Proper n) ∧
      (Tree.findIn? way e).isSome = true := by
  induction he generalizing segments g f with
  | file | special => cases hg
  | @folder name entries hname hdistinct hentries ih =>
    obtain ⟨-, -, rfl⟩ := (scanFolder?_eq_some_iff hsegments hname).mp hg
    simp only [SourceFolder.walk, SourceFolder.walkAll_eq, if_true, List.mem_cons, List.mem_flatMap, mem_inNameOrder,
      scanFolders_eq, List.mem_filterMap] at hf
    obtain rfl | ⟨g', ⟨e', he', hg'⟩, hf⟩ := hf
    · exact ⟨[], rfl, by simp, rfl⟩
    · obtain ⟨way, hpath, hway, hfound⟩ := ih e' he' (Path.proper_concat hsegments hname) hg' hf
      refine ⟨e'.name :: way, ?_, List.forall_mem_cons.mpr ⟨(hentries e' he').proper, hway⟩, ?_⟩
      · rwa [List.append_assoc] at hpath
      · rwa [Tree.findIn?, Entry.named?_of_mem hdistinct he']

end Found

/-! ## In which order -/

section Order

variable {α : Type} {name : α → String}

/-- Inserting a new name keeps the order strict. -/
theorem insertByName_pairwise {a : α} {items : List α} (ha : ∀ b ∈ items, name b ≠ name a)
    (h : items.Pairwise (name · < name ·)) : (insertByName name a items).Pairwise (name · < name ·) := by
  induction items with
  | nil => exact List.pairwise_singleton _ _
  | cons b rest ih =>
    obtain ⟨hb, hrest⟩ := List.pairwise_cons.mp h
    rw [insertByName]
    split
    · next hle =>
      have hlt : name a < name b := Std.lt_of_le_of_ne hle (ha b List.mem_cons_self).symm
      exact List.pairwise_cons.mpr ⟨List.forall_mem_cons.mpr ⟨hlt, fun c hc => String.lt_trans hlt (hb c hc)⟩, h⟩
    · next hle =>
      refine List.pairwise_cons.mpr ⟨fun c hc => ?_, ih (fun c hc => ha c (List.mem_cons_of_mem _ hc)) hrest⟩
      rcases List.mem_cons.mp ((insertByName_perm name a rest).mem_iff.mp hc) with rfl | hc
      · exact String.not_le.mp hle
      · exact hb c hc

/-- Items of different names are put in the order of their names. -/
theorem inNameOrder_pairwise {items : List α} (h : (items.map name).Nodup) :
    (inNameOrder name items).Pairwise (name · < name ·) := by
  induction items with
  | nil => exact .nil
  | cons a items ih =>
    rw [List.map_cons, List.nodup_cons] at h
    refine insertByName_pairwise (fun b hb heq => h.1 ?_) (ih h.2)
    exact heq ▸ List.mem_map_of_mem (mem_inNameOrder.mp hb)

end Order

/-- Two files in the order of a walk. -/
def SourceFile.Precedes (f g : SourceFile) : Prop :=
  Before (Path.segments f.path) (Path.segments g.path)

/-- The files of a folder come in strict order of their names. -/
theorem scanFiles_names (patterns : List String) (path : String) (entries : List Entry)
    (hdistinct : (entries.map Entry.name).Nodup) :
    (scanFiles patterns path entries).Pairwise (·.name < ·.name) := by
  refine inNameOrder_pairwise (hdistinct.sublist ?_)
  clear hdistinct
  induction entries with
  | nil => exact .slnil
  | cons e entries ih =>
    cases e with
    | folder | special => exact .cons _ ih
    | file name content =>
      rw [List.filterMap_cons, List.map_cons]
      dsimp only
      split
      · exact .cons _ ih
      · next h =>
        obtain ⟨-, h⟩ := Option.ite_none_right_eq_some.mp h
        obtain rfl := Option.some.inj h
        exact .cons_cons _ ih

/-- The files below a folder that lies where its segments say lie further down. -/
theorem SourceFolder.Placed.segments_of_mem {folder : SourceFolder} (h : folder.Placed) {f : SourceFile}
    (hf : f ∈ folder.allFiles) : ∃ rest ≠ [], Path.segments f.path = folder.segments ++ rest := by
  induction h with
  | mk _ filed _ below _ ih =>
    rw [allFiles_mk, List.mem_append, List.mem_flatMap] at hf
    obtain hf | ⟨g, hg, hf⟩ := hf
    · exact ⟨_, List.cons_ne_nil _ _, filed f hf⟩
    · obtain ⟨rest, hne, hrest⟩ := ih g hg hf
      exact ⟨g.name :: rest, List.cons_ne_nil _ _, by rw [hrest, below g hg, List.append_assoc]; rfl⟩

/-- The files of a folder in order, then those of its folders in order, are in the order of the walk. -/
theorem SourceFolder.Placed.pairwise_allFiles {name path : String} {segments : List String} {files : List SourceFile}
    {folders : List SourceFolder} (h : (SourceFolder.mk name path segments files folders).Placed)
    (hfiles : files.Pairwise (·.name < ·.name)) (hfolders : folders.Pairwise (·.name < ·.name))
    (inside : ∀ g ∈ folders, g.allFiles.Pairwise SourceFile.Precedes) :
    (SourceFolder.mk name path segments files folders).allFiles.Pairwise SourceFile.Precedes := by
  cases h with
  | mk _ filed _ below hplaced =>
    -- What is below a folder inside has its name next on its path.
    have hbelow : ∀ g ∈ folders, ∀ f ∈ g.allFiles,
        ∃ rest ≠ [], Path.segments f.path = segments ++ g.name :: rest := by
      intro g hg f hf
      obtain ⟨rest, hne, hrest⟩ := (hplaced g hg).segments_of_mem hf
      exact ⟨rest, hne, by rw [hrest, below g hg, List.append_assoc, List.singleton_append]⟩
    rw [allFiles_mk, List.pairwise_append, List.pairwise_flatMap]
    refine ⟨hfiles.imp_of_mem fun hf hg hlt => ?_, ⟨inside, ?_⟩, fun f hf f' hf' => ?_⟩
    · rw [SourceFile.Precedes, filed _ hf, filed _ hg]
      exact (Before.files (bytes_lt_bytes.mpr hlt)).append_left segments
    · refine hfolders.imp_of_mem fun hg hg' hlt f hf f' hf' => ?_
      obtain ⟨rest, hne, hrest⟩ := hbelow _ hg f hf
      obtain ⟨rest', hne', hrest'⟩ := hbelow _ hg' f' hf'
      rw [SourceFile.Precedes, hrest, hrest']
      exact (Before.folders hne hne' (bytes_lt_bytes.mpr hlt)).append_left segments
    · obtain ⟨g, hg, hf'⟩ := List.mem_flatMap.mp hf'
      obtain ⟨rest, hne, hrest⟩ := hbelow g hg f' hf'
      rw [SourceFile.Precedes, filed f hf, hrest]
      exact (Before.fileFirst hne).append_left segments

section Sorted

variable {patterns segments : List String} {entries : List Entry} {e : Entry}

/-- A walk of what is found in a folder keeps the order, if it does in the folders inside. -/
theorem pairwise_of_entries (hdistinct : (entries.map Entry.name).Nodup) {name path : String}
    (hplaced : (SourceFolder.mk name path segments (scanFiles patterns ("/".intercalate segments) entries)
      (inNameOrder SourceFolder.name
        (scanFolders patterns ("/".intercalate segments) segments entries))).Placed)
    (inside : ∀ e ∈ entries, ∀ g, scanFolder? patterns ("/".intercalate segments) segments e = some g →
      g.allFiles.Pairwise SourceFile.Precedes) :
    (SourceFolder.mk name path segments (scanFiles patterns ("/".intercalate segments) entries)
      (inNameOrder SourceFolder.name
        (scanFolders patterns ("/".intercalate segments) segments entries))).allFiles.Pairwise SourceFile.Precedes := by
  refine hplaced.pairwise_allFiles (scanFiles_names _ _ _ hdistinct)
    (inNameOrder_pairwise (hdistinct.sublist (scanFolders_names ..))) fun g hg => ?_
  rw [mem_inNameOrder, scanFolders_eq, List.mem_filterMap] at hg
  obtain ⟨e, he, hg⟩ := hg
  exact inside e he g hg

/-- Within a scanned folder the files come in strict order of their ways. -/
theorem pairwise_of_scanFolder? (he : e.WellNamed) (hsegments : ∀ n ∈ segments, Path.Proper n) {g : SourceFolder}
    (hg : scanFolder? patterns ("/".intercalate segments) segments e = some g) :
    g.allFiles.Pairwise SourceFile.Precedes := by
  induction he generalizing segments g with
  | file | special => cases hg
  | folder hname hdistinct hentries ih =>
    have hplaced := scanFolder?_placed (.folder hname hdistinct hentries) hsegments hg
    obtain ⟨-, -, rfl⟩ := (scanFolder?_eq_some_iff hsegments hname).mp hg
    exact pairwise_of_entries hdistinct hplaced fun e he g' hg' => ih e he (Path.proper_concat hsegments hname) hg'

end Sorted

/-! ## Scans of trees -/

/-- A way is followed step by step. -/
theorem Tree.findIn?_append (way names : List String) (e : Entry) :
    findIn? (way ++ names) e = (findIn? way e).bind (findIn? names) := by
  induction way generalizing e with
  | nil => rfl
  | cons name way ih =>
    cases e with
    | file | special => rfl
    | folder =>
      rw [List.cons_append, findIn?, findIn?, Option.bind_assoc]
      exact congrArg _ (funext ih)

namespace Path

/-- Splitting a joined path splits its two parts. -/
theorem split_slash (path below : String) : split (path ++ "/" ++ below) = split path ++ split below := by
  have hslash : ("/" : String).toList = ['/'] := rfl
  rw [split, String.toList_append, String.toList_append, hslash, List.append_assoc, List.singleton_append,
    List.splitOn_append_cons_self, List.map_append, split, split]

/-- A path below a rooted one is rooted. -/
theorem isRooted_append {root : String} (hroot : isRooted root = true) (below : String) :
    isRooted (root ++ below) = true := by
  rw [isRooted, String.startsWith_string_iff] at hroot ⊢
  rw [String.toList_append]
  exact hroot.trans (List.prefix_append _ _)

/-- The names on a path that begins at a rooted one. -/
theorem join_rooted {root : String} (hroot : isRooted root = true) {names : List String}
    (hnames : ∀ n ∈ names, Proper n) :
    isRooted (join [root, "/".intercalate names]) = true ∧
      segments (join [root, "/".intercalate names]) = segments root ++ names := by
  have hnonempty : root.isEmpty = false := by
    rw [← Bool.not_eq_true, String.isEmpty_iff]
    rintro rfl
    exact absurd hroot (by decide)
  -- Joining leaves out empty parts, so a path without names is the root alone.
  by_cases hne : names = []
  · subst hne
    have hjoin : join [root, "/".intercalate []] = clean root := by
      have hempty : ("/".intercalate []).isEmpty = true := by decide
      rw [join]
      simp only [List.filter, hempty, hnonempty, Bool.not_true, Bool.not_false]
      rfl
    rw [hjoin, segments_clean hroot, List.append_nil]
    exact ⟨isRooted_clean hroot, rfl⟩
  · have hjoin : join [root, "/".intercalate names] = clean (root ++ "/" ++ "/".intercalate names) := by
      rw [join]
      simp only [List.filter, isEmpty_intercalate hne hnames, hnonempty, Bool.not_false]
      rfl
    have hwhole := isRooted_append (isRooted_append hroot "/") ("/".intercalate names)
    rw [hjoin, segments_clean hwhole]
    refine ⟨isRooted_clean hwhole, ?_⟩
    rw [segments, hwhole, split_slash, split_intercalate hne hnames, List.foldl_append, foldl_step_of_proper hnames,
      List.reverse_append, List.reverse_reverse, segments, hroot]

end Path

/-- A rooted folder can be scanned. -/
theorem scan_succeeds {t : Tree} (ht : t.WellNamed) {root name : String} {entries : List Entry} (patterns : List String)
    (hroot : Path.isRooted root = true) (hfolder : t.find root = .ok (.folder name entries)) :
    ∃ found, t.scan root patterns = .ok found := by
  obtain ⟨hdistinct, hentries⟩ := find_wellNamed ht hfolder
  have hfound : Tree.findIn? (Path.segments root) (.folder "/" t.entries) = some (.folder name entries) := by
    rw [Tree.find_rooted hroot] at hfolder
    split at hfolder
    · next h => rw [h, Except.ok.inj hfolder]
    · cases hfolder
  -- every folder the scan walks was found by a way of entries, so looking it up by its path finds it again
  have hthere : ∀ way, (∀ n ∈ way, Path.Proper n) → (Tree.findIn? way (.folder name entries)).isSome = true →
      t.notFound? (Path.join [root, "/".intercalate way]) = none := by
    intro way hway h
    obtain ⟨hrooted, hsegments⟩ := Path.join_rooted hroot hway
    obtain ⟨e, he⟩ := Option.isSome_iff_exists.mp h
    rw [Tree.notFound?, Tree.find_rooted hrooted, hsegments, Tree.findIn?_append, hfound, Option.bind_some, he]
  rw [Tree.scan, hfolder]
  dsimp only
  split
  · next lost hlost =>
    obtain ⟨f, hf, hf'⟩ := List.exists_of_findSome?_eq_some hlost
    refine absurd (hf'.symm.trans ?_) (Option.some_ne_none lost)
    simp only [SourceFolder.walk, SourceFolder.walkAll_eq, if_true, List.mem_cons, List.mem_flatMap, mem_inNameOrder,
      scanFolders_eq, List.mem_filterMap] at hf
    obtain rfl | ⟨g, ⟨e, he, hg⟩, hf⟩ := hf
    · exact hthere [] (by simp) rfl
    · obtain ⟨way, hpath, hway, hinside⟩ := @findIn?_of_walk _ [] _ (hentries e he) (by simp) _ hg _ hf
      rw [hpath]
      refine hthere (e.name :: way) (List.forall_mem_cons.mpr ⟨(hentries e he).proper, hway⟩) ?_
      rwa [Tree.findIn?, Entry.named?_of_mem hdistinct he]
  · exact ⟨_, rfl⟩

/-- **A scan is exact.**  Below a rooted folder it succeeds.  What it finds are the regular files with the names of
source files nothing on the way to which is hidden or excluded, each of them once, in the order of a walk. -/
theorem scan_exact {t : Tree} (ht : t.WellNamed) (root : String) (patterns : List String) :
    (Path.isRooted root = true → ∀ name entries, t.find root = .ok (.folder name entries) →
      ∃ found, t.scan root patterns = .ok found) ∧
    ∀ found, t.scan root patterns = .ok found → ∃ name entries, t.find root = .ok (.folder name entries) ∧
      (∀ f, f ∈ found.allFiles ↔ ∃ way last, Wanted (Excluded patterns) entries way last ∧
        f = ⟨last, "/".intercalate (way ++ [last])⟩) ∧
      found.allFiles.Nodup ∧
      found.allFiles.Pairwise fun f g => Before (Path.segments f.path) (Path.segments g.path) := by
  refine ⟨fun hroot name entries hfolder => scan_succeeds ht patterns hroot hfolder, fun found hscan => ?_⟩
  have hplaced := (scan_placed ht hscan).2
  simp only [Tree.scan] at hscan
  split at hscan
  · cases hscan
  · cases hscan
  · cases hscan
  · next name entries hfolder =>
    split at hscan
    · cases hscan
    · obtain rfl := Except.ok.inj hscan
      obtain ⟨hdistinct, hentries⟩ := find_wellNamed ht hfolder
      have hroot : ∀ n ∈ ([] : List String), Path.Proper n := by simp
      -- the order is strict, so no file comes twice
      have horder := @pairwise_of_entries _ [] _ hdistinct _ _ hplaced fun e he g hg =>
        pairwise_of_scanFolder? (hentries e he) hroot hg
      refine ⟨name, entries, hfolder, fun f => ?_, ?_, horder⟩
      · exact mem_allFiles_of_entries hroot hdistinct hentries fun n inner he g hg f =>
          mem_allFiles_of_scanFolder? (hentries _ he) hroot rfl hg
      · exact horder.imp fun h => by
          rintro rfl
          exact h.irrefl

/-- Source files beside hidden and excluded ones, and beside links with names of source files. -/
def mixedFolder : Tree :=
  ⟨[.folder "ws" [.file "b.ceylon" "", .special "0.ceylon" "", .file "a.ceylon" "",
    .folder ".git" [.file "c.ceylon" ""],
    .folder "p" [.special "link.ceylon" "", .file "a.ceylon" "", .file "notes.txt" ""]]]⟩

theorem scan_exact_mixedFolder : mixedFolder.WellNamed ∧ Path.isRooted "/ws" = true ∧
    ∃ found, mixedFolder.scan "/ws" ["b*"] = .ok found ∧
      found.allFiles = [⟨"a.ceylon", "a.ceylon"⟩, ⟨"a.ceylon", "p/a.ceylon"⟩] ∧
      found.allFiles.Nodup := by
  have hnamed : mixedFolder.WellNamed := by decide
  have hroot : Path.isRooted "/ws" = true := by decide +kernel
  have hfolder : ∃ entries, mixedFolder.find "/ws" = .ok (.folder "ws" entries) := by
    rw [Tree.find_rooted hroot, show Path.segments "/ws" = ["ws"] by decide +kernel]
    exact ⟨_, rfl⟩
  have hfiles : ((mixedFolder.scan "/ws" ["b*"]).toOption.map SourceFolder.allFiles) =
      some [⟨"a.ceylon", "a.ceylon"⟩, ⟨"a.ceylon", "p/a.ceylon"⟩] := by decide +kernel
  obtain ⟨entries, hfolder⟩ := hfolder
  obtain ⟨hsucceeds, hexact⟩ := scan_exact hnamed "/ws" ["b*"]
  obtain ⟨found, hscan⟩ := hsucceeds hroot _ _ hfolder
  obtain ⟨-, -, -, -, hnodup, -⟩ := hexact found hscan
  rw [hscan] at hfiles
  exact ⟨hnamed, hroot, found, hscan, Option.some.inj hfiles, hnodup⟩

end Ceylon.Files
