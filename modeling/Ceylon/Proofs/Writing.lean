import Ceylon.Proofs.Scanning

/-!
# Written files

What a tree of files holds after a file has been written or removed, for each path of names: `fileAt?` is the
content of the file there.  A write is heard at its own path unless a folder is there (`fileAt?_writeIn_self`),
and elsewhere only where a file gives way to a folder on the way (`fileAt?_writeIn_elsewhere`).
-/

namespace Ceylon.Files

/-! ## The names on a rooted path -/

namespace Path

/-- No part of a path has the separator in it. -/
theorem not_mem_of_mem_splitOn {c : Char} {cs part : List Char} (h : part ∈ cs.splitOn c) : c ∉ part := by
  induction cs generalizing part with
  | nil =>
    obtain rfl : part = [] := by simpa using h
    exact List.not_mem_nil
  | cons a cs ih =>
    rw [List.splitOn_cons_eq_if_modifyHead] at h
    split at h
    · rcases List.mem_cons.mp h with rfl | h
      · exact List.not_mem_nil
      · exact ih h
    · next hne =>
      obtain ⟨first, parts, hparts⟩ := List.exists_cons_of_ne_nil (List.splitOn_ne_nil c cs)
      rw [hparts, List.modifyHead_cons] at h
      rcases List.mem_cons.mp h with rfl | h
      · rw [List.mem_cons, not_or]
        exact ⟨fun heq => hne (by simp [heq]), ih (hparts ▸ List.mem_cons_self)⟩
      · exact ih (hparts ▸ List.mem_cons_of_mem _ h)

/-- On a rooted path a step never leaves the root, so the names on it stay proper. -/
theorem proper_step {done : List String} {segment : String} (h : ∀ n ∈ done, Proper n)
    (hslash : '/' ∉ segment.toList) : ∀ n ∈ step true done segment, Proper n := by
  unfold step
  split
  · exact h
  · exact h
  · split
    · simp
    · next => exact absurd rfl (h ".." (by simp)).outer
    · exact fun n hn => h n (List.mem_cons_of_mem _ hn)
  · next h₁ h₂ h₃ => exact List.forall_mem_cons.mpr ⟨⟨h₁, h₂, h₃, hslash⟩, h⟩

/-- The segments of a rooted path are proper names. -/
theorem proper_of_mem_segments {path : String} (hroot : isRooted path = true) :
    ∀ n ∈ segments path, Proper n := by
  have hfold : ∀ (parts done : List String), (∀ p ∈ parts, '/' ∉ p.toList) →
      (∀ n ∈ done, Proper n) → ∀ n ∈ parts.foldl (step true) done, Proper n := by
    intro parts
    induction parts with
    | nil => exact fun _ _ h => h
    | cons p parts ih =>
      intro done hparts h
      exact ih _ (fun q hq => hparts q (List.mem_cons_of_mem p hq))
        (proper_step h (hparts p List.mem_cons_self))
  intro n hn
  rw [segments, hroot, List.mem_reverse] at hn
  refine hfold (split path) [] (fun p hp => ?_) (by simp) n hn
  obtain ⟨part, hpart, rfl⟩ := List.mem_map.mp hp
  simpa using not_mem_of_mem_splitOn hpart

theorem isRooted_here : isRooted "." = false := by
  rw [isRooted, String.startsWith_string_eq_false_iff]
  decide

theorem isRooted_outer : isRooted ".." = false := by
  rw [isRooted, String.startsWith_string_eq_false_iff]
  decide

/-- A path that begins with the separator is rooted. -/
theorem isRooted_slash (path : String) : isRooted ("/" ++ path) = true := by
  simp [isRooted]

/-- A path from the root has the names of the path behind its first slash. -/
theorem segments_slash_intercalate {names : List String} (h : ∀ n ∈ names, Proper n) :
    segments ("/" ++ "/".intercalate names) = names := by
  have hsplit : split ("/" ++ "/".intercalate names) = "" :: split ("/".intercalate names) := by
    rw [split, split, String.toList_append, show ("/" : String).toList = ['/'] from rfl,
      List.singleton_append, List.splitOn_cons_eq_if_modifyHead]
    simp
  by_cases hne : names = []
  · subst hne
    decide
  · rw [segments, isRooted_slash, hsplit, split_intercalate hne h, List.foldl_cons,
      show step true [] "" = [] from rfl, foldl_step_of_proper h, List.append_nil, List.reverse_reverse]

/-- Cleaning a rooted path keeps the names on it. -/
theorem segments_clean {path : String} (hroot : isRooted path = true) :
    segments (clean path) = segments path := by
  rw [clean, if_pos hroot]
  exact segments_slash_intercalate (proper_of_mem_segments hroot)

/-- Cleaning keeps a path rooted. -/
theorem isRooted_clean {path : String} (hroot : isRooted path = true) : isRooted (clean path) = true := by
  rw [clean, if_pos hroot]
  exact isRooted_slash _

end Path

namespace Entry

variable {name : String} {e : Entry} {entries : List Entry}

/-- An entry that is put replaces the one of its name. -/
theorem named?_put (e : Entry) (name : String) (entries : List Entry) :
    named? name (put e entries) = if e.name = name then some e else named? name entries := by
  induction entries with
  | nil => by_cases h : e.name = name <;> simp [put, named?, h]
  | cons f entries ih =>
    rw [put]
    split
    · -- Putting replaces an entry of the same name where it is, or goes on behind the first entry.
      next hf =>
      have hf : f.name = e.name := by simpa using hf
      by_cases he : e.name = name
      · simp [named?, he]
      · simp [named?, he, hf]
    · next hf =>
      have hf : f.name ≠ e.name := by simpa using hf
      by_cases hn : f.name = name
      · simp [named?, hn, show e.name ≠ name from fun h => hf (hn.trans h.symm)]
      · have hrest : named? name (f :: put e entries) = named? name (put e entries) := by
          simp [named?, hn]
        rw [hrest, ih]
        simp [named?, hn]

@[simp] theorem named?_put_file (name content : String) (entries : List Entry) :
    named? name (put (.file name content) entries) = some (.file name content) := by
  rw [named?_put]
  exact if_pos rfl

@[simp] theorem named?_put_folder (name : String) (es entries : List Entry) :
    named? name (put (.folder name es) entries) = some (.folder name es) := by
  rw [named?_put]
  exact if_pos rfl

/-- Entries of other names stay. -/
theorem named?_put_of_ne (h : e.name ≠ name) : named? name (put e entries) = named? name entries := by
  rw [named?_put, if_neg h]

@[simp] theorem inside_put_file (name content : String) (entries : List Entry) :
    inside name (put (.file name content) entries) = [] := by
  rw [inside, named?_put_file]

@[simp] theorem inside_put_folder (name : String) (es entries : List Entry) :
    inside name (put (.folder name es) entries) = es := by
  rw [inside, named?_put_folder]

end Entry

namespace Tree

open Entry (named? put)

/-! ## What lies at a path of names -/

/-- The content of the regular file that a path of names leads to. -/
def fileAt? (names : List String) (entries : List Entry) : Option String :=
  match findIn? names (.folder "/" entries) with
  | some (.file _ content) => some content
  | _ => none

/-- Whether a path of names leads to a folder. -/
def isFolderAt (names : List String) (entries : List Entry) : Bool :=
  match findIn? names (.folder "/" entries) with
  | some (.folder ..) => true
  | _ => false

section Views

variable {name content : String} {rest : List String} {entries : List Entry}

@[simp] theorem fileAt?_nil : fileAt? [] entries = none := rfl

@[simp] theorem isFolderAt_nil : isFolderAt [] entries = true := rfl

/-- What is found behind a name is found in the folder of that name. -/
theorem findIn?_cons_of_inside (hrest : rest ≠ []) :
    findIn? (name :: rest) (.folder "/" entries) = findIn? rest (.folder "/" (Entry.inside name entries)) := by
  obtain ⟨next, rest, rfl⟩ := List.exists_cons_of_ne_nil hrest
  simp only [findIn?, Entry.inside]
  cases h : named? name entries with
  | none => simp [named?]
  | some e =>
    cases e with
    | file | special => simp [findIn?, named?]
    | folder => simp [findIn?]

/-- A file behind a name is one in the folder of that name. -/
theorem fileAt?_cons (hrest : rest ≠ []) :
    fileAt? (name :: rest) entries = fileAt? rest (Entry.inside name entries) := by
  rw [fileAt?, findIn?_cons_of_inside hrest, fileAt?]

/-- A folder behind a name is one in the folder of that name. -/
theorem isFolderAt_cons (hrest : rest ≠ []) :
    isFolderAt (name :: rest) entries = isFolderAt rest (Entry.inside name entries) := by
  rw [isFolderAt, findIn?_cons_of_inside hrest, isFolderAt]

/-- A single name is looked for among the entries. -/
theorem findIn?_singleton : findIn? [name] (.folder "/" entries) = named? name entries := by
  simp only [findIn?]
  cases named? name entries <;> rfl

/-- What lies at a path depends on what its first name stands for. -/
theorem findIn?_congr {entries' : List Entry} (h : named? name entries = named? name entries') :
    findIn? (name :: rest) (.folder "/" entries) = findIn? (name :: rest) (.folder "/" entries') := by
  simp only [findIn?, h]

/-- What is found behind a name depends on the entry of that name. -/
theorem fileAt?_congr {entries' : List Entry} (h : named? name entries = named? name entries') :
    fileAt? (name :: rest) entries = fileAt? (name :: rest) entries' := by
  rw [fileAt?, findIn?_congr h, fileAt?]

/-- Without a folder nothing lies inside. -/
theorem inside_of_not_isFolderAt (h : isFolderAt [name] entries = false) :
    Entry.inside name entries = [] := by
  rw [isFolderAt, findIn?_singleton] at h
  rw [Entry.inside]
  split at h <;> simp_all

/-- Nothing is found where there are no entries. -/
theorem fileAt?_of_nil : fileAt? rest [] = none := by
  cases rest <;> rfl

/-- A file is no folder. -/
theorem isFolderAt_of_fileAt? (h : fileAt? rest entries = some content) :
    isFolderAt rest entries = false := by
  rw [fileAt?] at h
  rw [isFolderAt]
  split at h
  · next hfound => rw [hfound]
  · cases h

/-- The way to a file leads through folders. -/
theorem isFolderAt_above {path : List String} (h : fileAt? rest entries = some content)
    (hpre : path <+: rest) (hne : path ≠ rest) : isFolderAt path entries = true := by
  induction path generalizing rest entries with
  | nil => rfl
  | cons name path ih =>
    obtain ⟨others, rfl⟩ := hpre
    have hothers : path ++ others ≠ [] := fun heq =>
      hne (by rw [List.cons_append, heq, (List.append_eq_nil_iff.mp heq).1])
    rw [List.cons_append, fileAt?_cons hothers] at h
    by_cases hpath : path = []
    · subst hpath
      by_contra hfolder
      rw [inside_of_not_isFolderAt (by simpa using hfolder), fileAt?_of_nil] at h
      cases h
    · rw [isFolderAt_cons hpath]
      exact ih h (List.prefix_append path others) fun heq => hne (by rw [List.cons_append, ← heq])

/-- What is found at a rooted path is what lies at its names. -/
theorem find_rooted {t : Tree} {path : String} (hroot : Path.isRooted path = true) :
    t.find path = match findIn? (Path.segments path) (.folder "/" t.entries) with
      | some e => .ok e
      | none => .error ⟨Path.clean path⟩ := by
  have hclean := Path.isRooted_clean hroot
  have hdot : ∀ name : String, Path.isRooted name = false → (Path.clean path == name) = false := by
    intro name hname
    rw [beq_eq_false_iff_ne]
    rintro rfl
    exact Bool.noConfusion (hclean.symm.trans hname)
  cases hfound : findIn? (Path.segments path) (.folder "/" t.entries) <;>
    simp [find, hdot "." Path.isRooted_here, hdot ".." Path.isRooted_outer, hclean, Path.segments_clean hroot, hfound]

/-- Reading a path gives the content of the file that stands there. -/
theorem read_of_fileAt? {t : Tree} {path : String} (hroot : Path.isRooted path = true)
    (h : fileAt? (Path.segments path) t.entries = some content) : t.read path = .ok content := by
  rw [fileAt?] at h
  rw [read, find_rooted hroot]
  split at h
  · next hfound =>
    obtain rfl := Option.some.inj h
    rw [hfound]
    rfl
  · cases h

end Views

/-! ## Writing -/

section Writing

variable {content : String} {path names : List String} {entries : List Entry}

/-- Writing behind a name writes into the folder of that name, which is made if it is not there. -/
theorem writeIn_cons {name : String} {rest : List String} (hrest : rest ≠ []) :
    writeIn content (name :: rest) entries =
      put (.folder name (writeIn content rest (Entry.inside name entries))) entries := by
  obtain ⟨next, rest, rfl⟩ := List.exists_cons_of_ne_nil hrest
  rw [writeIn]
  exact List.cons_ne_nil _ _

/-- A file is written in its place, unless a folder is there. -/
theorem writeIn_singleton {name : String} :
    writeIn content [name] entries =
      if isFolderAt [name] entries then entries else put (.file name content) entries := by
  rw [writeIn, isFolderAt, findIn?_singleton]
  split <;> simp_all

/-- Writing leaves entries of other names. -/
theorem named?_writeIn_of_ne {name first : String} {rest : List String} (h : name ≠ first) :
    named? first (writeIn content (name :: rest) entries) = named? first entries := by
  by_cases hrest : rest = []
  · subst hrest
    rw [writeIn_singleton]
    split
    · rfl
    · exact Entry.named?_put_of_ne h
  · rw [writeIn_cons hrest]
    exact Entry.named?_put_of_ne h

/-- What has been written is found, unless a folder stands there. -/
theorem fileAt?_writeIn_self (hpath : path ≠ []) (hfolder : isFolderAt path entries = false) :
    fileAt? path (writeIn content path entries) = some content := by
  induction path generalizing entries with
  | nil => exact absurd rfl hpath
  | cons name rest ih =>
    by_cases hrest : rest = []
    · subst hrest
      simp [writeIn_singleton, hfolder, fileAt?, findIn?_singleton]
    · rw [isFolderAt_cons hrest] at hfolder
      rw [writeIn_cons hrest, fileAt?_cons hrest, Entry.inside_put_folder]
      exact ih hrest hfolder

/-- A write is not heard at other paths, but for those on its way. -/
theorem fileAt?_writeIn_elsewhere (h : ¬ names <+: path) :
    fileAt? names (writeIn content path entries) = fileAt? names entries := by
  induction path generalizing names entries with
  | nil => rfl
  | cons name rest ih =>
    obtain _ | ⟨first, others⟩ := names
    · exact absurd List.nil_prefix h
    by_cases hname : name = first
    · subst hname
      have hothers : ¬ others <+: rest := fun hpre => h (List.cons_prefix_cons.mpr ⟨rfl, hpre⟩)
      have hne : others ≠ [] := by rintro rfl; exact hothers List.nil_prefix
      by_cases hrest : rest = []
      · subst hrest
        rw [writeIn_singleton]
        split
        · rfl
        · next hfolder =>
          -- Below a file there is nothing, and before there was no folder either.
          rw [fileAt?_cons hne, fileAt?_cons hne, Entry.inside_put_file,
            inside_of_not_isFolderAt (by simpa using hfolder)]
      · rw [writeIn_cons hrest, fileAt?_cons hne, fileAt?_cons hne, Entry.inside_put_folder]
        exact ih hothers
    · exact fileAt?_congr (named?_writeIn_of_ne hname)

end Writing

/-! ## Removing -/

section Removing

variable {path names : List String} {entries : List Entry}

/-- Leaving out one name leaves the others. -/
theorem named?_filter_of_ne {name other : String} (h : other ≠ name) :
    named? other (entries.filter (·.name != name)) = named? other entries := by
  rw [named?, named?, List.find?_filter]
  congr 1
  funext e
  by_cases he : e.name = other
  · simp [he, h]
  · simp [he]

/-- Removing behind a name removes from the folder of that name, if there is one. -/
theorem removeIn_cons {name : String} {rest : List String} (hrest : rest ≠ []) :
    removeIn (name :: rest) entries =
      if isFolderAt [name] entries then put (.folder name (removeIn rest (Entry.inside name entries))) entries
      else entries := by
  obtain ⟨next, rest, rfl⟩ := List.exists_cons_of_ne_nil hrest
  rw [removeIn, isFolderAt, findIn?_singleton, Entry.inside]
  · split <;> simp_all
  · exact List.cons_ne_nil _ _

/-- Removing leaves entries of other names. -/
theorem named?_removeIn_of_ne {name first : String} {rest : List String} (h : name ≠ first) :
    named? first (removeIn (name :: rest) entries) = named? first entries := by
  by_cases hrest : rest = []
  · subst hrest
    exact named?_filter_of_ne h.symm
  · rw [removeIn_cons hrest]
    split
    · exact Entry.named?_put_of_ne h
    · rfl

/-- Where a file has been removed, and below, there is none. -/
theorem fileAt?_removeIn_below (hpath : path ≠ []) (h : path <+: names) :
    fileAt? names (removeIn path entries) = none := by
  induction path generalizing names entries with
  | nil => exact absurd rfl hpath
  | cons name rest ih =>
    obtain ⟨others, rfl⟩ := h
    -- The last name on the path takes the entry away.  Any other leads into a folder, if there is one.
    by_cases hrest : rest = []
    · subst hrest
      have hgone : named? name (entries.filter (·.name != name)) = none := by simp [named?]
      have heq : fileAt? (name :: others) (entries.filter (·.name != name)) = fileAt? (name :: others) [] :=
        fileAt?_congr hgone
      exact heq
    · have hne : rest ++ others ≠ [] := by simp [hrest]
      rw [removeIn_cons hrest, List.cons_append, fileAt?_cons hne]
      split
      · rw [Entry.inside_put_folder]
        exact ih hrest (List.prefix_append rest others)
      · next hfolder =>
        rw [inside_of_not_isFolderAt (by simpa using hfolder)]
        exact fileAt?_of_nil

/-- Removing a file is not heard elsewhere. -/
theorem fileAt?_removeIn_elsewhere (h : ¬ path <+: names) :
    fileAt? names (removeIn path entries) = fileAt? names entries := by
  induction path generalizing names entries with
  | nil => exact absurd List.nil_prefix h
  | cons name rest ih =>
    obtain _ | ⟨first, others⟩ := names
    · rfl
    -- Only a path with the same first name leads to where something is removed.
    by_cases hname : name = first
    · subst hname
      have hothers : ¬ rest <+: others := fun hpre => h (List.cons_prefix_cons.mpr ⟨rfl, hpre⟩)
      have hrest : rest ≠ [] := by rintro rfl; exact hothers List.nil_prefix
      rw [removeIn_cons hrest]
      split
      · next hfolder =>
        by_cases hne : others = []
        · subst hne
          rw [isFolderAt, findIn?_singleton] at hfolder
          rw [fileAt?, fileAt?, findIn?_singleton, findIn?_singleton, Entry.named?_put_folder]
          split at hfolder <;> simp_all
        · rw [fileAt?_cons hne, fileAt?_cons hne, Entry.inside_put_folder]
          exact ih hothers
      · rfl
    · exact fileAt?_congr (named?_removeIn_of_ne hname)

end Removing

end Tree

end Ceylon.Files
