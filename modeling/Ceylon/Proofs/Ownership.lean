import Ceylon.Proofs.Packages

/-!
# The modules of packages

While a tree is walked, the module declared on the way to the current directory is the one that the stack of
directories claims (`Inventory.ClaimOf`), and there is at most one.  A package is given to it after the
descriptor of its directory has been read and before the other files are, so that a module which one of these
declares has the packages below the directory but not that of the directory itself, which stays in the default module.
`Inventory.Walked` is what holds all along the walk: adding files, entering a directory and leaving it keep it, so that
in the end the module of every package is known (`load_module_ownership`).
-/

namespace Ceylon.Analysis

open Model Files

namespace Inventory

/-! ## Who owns what -/

/-- The name of a package. -/
def nameOf (i : Inventory) (p : PackageId) : Option (List String) :=
  i.names[p.index]?

/-- The module that owns a package. -/
def ownerOf (i : Inventory) (p : PackageId) : Option ModuleId :=
  i.packages[p.index]?.bind Package.module

/-- The packages that a module lists. -/
def packagesOf (i : Inventory) (m : ModuleId) : List PackageId :=
  (i.modules[m.index]?.map Module.packages).getD []

/-- The unit that declares a module. -/
def descriptorOf (i : Inventory) (m : ModuleId) : Option UnitId :=
  i.modules[m.index]?.bind Module.descriptor

/-- A unit declares a module, from a file of the given name in the given directory. -/
def Declares (i : Inventory) (k : Nat) (directory : List String) (file : Option String) : Prop :=
  ∃ x, i.units[k]? = some x ∧ x.heading = .valid ∧ Path.directory x.path = directory ∧
    Path.last? x.path = file

/-- A unit is the only one that declares a module in a directory on the way to the given one. -/
structure Sole (i : Inventory) (σ : List String) (k : Nat) : Prop where
  declares : ∃ τ n, i.Declares k τ n ∧ τ <+: σ
  unique : ∀ k' τ n, i.Declares k' τ n → τ <+: σ → k' = k

/-- The module is the one that the package of a directory comes to belong to: that of the one unit which declares a
module above the directory or in its descriptor, or the default module if there is no such unit. -/
def Owned (i : Inventory) (σ : List String) (m : ModuleId) : Prop :=
  m = defaultModule ∧
      (∀ k τ n, i.Declares k τ n → τ <+: σ → τ = σ ∧ n ≠ some descriptorName) ∨
  ∃ k, i.descriptorOf m = some ⟨k⟩ ∧ i.Sole σ k ∧ ∀ n, i.Declares k σ n → n = some descriptorName

/-- A claim of the current directory stands for the one module that is declared on the way to it. -/
def ClaimOf (i : Inventory) (σ : List String) : Option (Claim ModuleId) → Prop
  | none => ∀ k τ n, i.Declares k τ n → ¬ τ <+: σ
  | some c => ∃ k τ n, i.Declares k τ n ∧ τ <+: σ ∧ τ.length = c.depth ∧
      i.descriptorOf c.value = some ⟨k⟩ ∧ i.Sole σ k

/-- Names from whose dotted form they can be read off. -/
def Plain (name : List String) : Prop :=
  ∀ n ∈ name, n ≠ "" ∧ '.' ∉ n.toList

/-- Packages belong to the modules that they ought to belong to, and are listed there. -/
structure Settled (i : Inventory) : Prop where
  owners : ∀ p τ m, p.index ≠ 0 → i.nameOf p = some τ → i.ownerOf p = some m → i.Owned τ m
  lists : ∀ m p, (i.packagesOf m).count p = if i.ownerOf p = some m then 1 else 0
  housed : ∀ k τ n, i.Declares k τ n → ∃ p : PackageId, p.index ≠ 0 ∧ i.nameOf p = some τ
  plain : ∀ name ∈ i.names, Plain name
  language : i.nameOf ⟨0⟩ = some languagePath
  default : 1 < i.modules.size

/-- What holds all along the walk through a tree. -/
structure Walked (i : Inventory) (σ : List String) (claim : Option (Claim ModuleId)) : Prop
    extends i.Settled where
  stack : i.stack = some ⟨σ, claim⟩
  claimed : i.ClaimOf σ claim

/-- All packages but one have a module. -/
def OwnedBut (i : Inventory) (p : PackageId) : Prop :=
  ∀ q τ, q ≠ p → i.nameOf q = some τ → (i.ownerOf q).isSome

/-- There is no other package at or below a directory than its own. -/
structure Alone (i : Inventory) (p : PackageId) (σ : List String) : Prop where
  index : p.index ≠ 0
  name : i.nameOf p = some σ
  others : ∀ (q : PackageId) τ, q.index ≠ 0 → q ≠ p → i.nameOf q = some τ → ¬ σ <+: τ

/-- Behind the first of the names, which is that of the language module, none is at or below a directory. -/
def Fresh (names : List (List String)) (σ : List String) : Prop :=
  ∀ τ ∈ names.tail, ¬ σ <+: τ

/-- No name of a package so far begins with a fresh one. -/
theorem Fresh.not_prefix {i : Inventory} {σ : List String} (h : Fresh i.names σ) {q : PackageId}
    {τ : List String} (hq : q.index ≠ 0) (hτ : i.nameOf q = some τ) : ¬ σ <+: τ := by
  refine h τ (List.mem_of_getElem? (i := q.index - 1) ?_)
  rw [List.getElem?_tail, Nat.sub_add_cancel (Nat.pos_of_ne_zero hq)]
  exact hτ

/-- The inventory with another package. -/
def withPackage (i : Inventory) (name : List String) : Inventory :=
  { i with packages := i.packages.push { name } }

@[simp] theorem names_withPackage (i : Inventory) (name : List String) :
    (i.withPackage name).names = i.names ++ [name] := by
  simp [withPackage, names]

/-- A new package gets the next place in the list. -/
theorem nameOf_withPackage (i : Inventory) (name : List String) (q : PackageId) :
    (i.withPackage name).nameOf q = if q.index = i.names.length then some name else i.nameOf q := by
  rw [nameOf, names_withPackage]
  split
  · next h => rw [h, List.getElem?_concat_length]
  · next h =>
    rw [nameOf]
    by_cases hlt : q.index < i.names.length
    · exact List.getElem?_append_left hlt
    · rw [List.getElem?_eq_none (l := i.names) (by omega),
        List.getElem?_eq_none (by rw [List.length_append, List.length_singleton]; omega)]

/-- A package with a name is not the next one. -/
theorem ne_length_of_nameOf {i : Inventory} {q : PackageId} {τ : List String} (h : i.nameOf q = some τ) :
    q.index ≠ i.names.length :=
  (List.getElem?_eq_some_iff.mp h).1.ne

@[simp] theorem ownerOf_withPackage (i : Inventory) (name : List String) (q : PackageId) :
    (i.withPackage name).ownerOf q = i.ownerOf q := by
  rw [ownerOf, withPackage, Array.getElem?_push, ownerOf]
  split
  · next h =>
    rw [Array.getElem?_eq_none (by omega)]
    rfl
  · rfl

/-! ## Giving packages to modules -/

section

variable {i : Inventory} {m : ModuleId} {p : PackageId}

@[simp] theorem nameOf_own (q : PackageId) : (i.own m p).nameOf q = i.nameOf q := by
  rw [nameOf, names_own, nameOf]

/-- A package that is owned has its owner from then on. -/
theorem ownerOf_own (q : PackageId) :
    (i.own m p).ownerOf q = if p = q then (i.nameOf q).map fun _ => m else i.ownerOf q := by
  rw [ownerOf, own, Array.getElem?_modify]
  by_cases hq : p = q
  · subst hq
    rw [if_pos rfl, if_pos rfl, nameOf, names, List.getElem?_map, Array.getElem?_toList]
    cases i.packages[p.index]? <;> rfl
  · have hindex : p.index ≠ q.index := fun h => hq (by cases p; cases q; exact congrArg _ h)
    rw [if_neg hq, if_neg hindex, ownerOf]

/-- A module gets the packages that it owns. -/
theorem packagesOf_own (hm : m.index < i.modules.size) (m' : ModuleId) :
    (i.own m p).packagesOf m' = if m = m' then i.packagesOf m' ++ [p] else i.packagesOf m' := by
  rw [packagesOf, own, Array.getElem?_modify]
  by_cases hm' : m = m'
  · subst hm'
    rw [if_pos rfl, if_pos rfl, packagesOf, Array.getElem?_eq_getElem hm]
    rfl
  · have hindex : m.index ≠ m'.index := fun h => hm' (by cases m; cases m'; exact congrArg _ h)
    rw [if_neg hm', if_neg hindex, packagesOf]

@[simp] theorem descriptorOf_own (m' : ModuleId) : (i.own m p).descriptorOf m' = i.descriptorOf m' := by
  rw [descriptorOf, own, Array.getElem?_modify]
  split
  · rw [descriptorOf]
    cases i.modules[m'.index]? <;> rfl
  · rfl

/-- A package that had no module is listed once. -/
theorem lists_own (hlists : ∀ m p, (i.packagesOf m).count p = if i.ownerOf p = some m then 1 else 0)
    (hm : m.index < i.modules.size) {σ : List String} (hname : i.nameOf p = some σ)
    (hnew : i.ownerOf p = none) (m' : ModuleId) (q : PackageId) :
    ((i.own m p).packagesOf m').count q = if (i.own m p).ownerOf q = some m' then 1 else 0 := by
  rw [packagesOf_own hm, ownerOf_own]
  have hq := hlists m' q
  by_cases hpq : p = q
  · subst hpq
    rw [if_pos rfl, hname, Option.map_some]
    rw [hnew, if_neg nofun] at hq
    by_cases hmm : m = m'
    · simp [hmm, hq]
    · simp [hmm, hq]
  · rw [if_neg hpq]
    split
    · rw [List.count_append, hq]
      simp [hpq]
    · exact hq

end

/-! ## Declaring units -/

section

variable {i i' : Inventory} {σ : List String}

/-- A header is the only one for a path, if the headers in question are the same. -/
theorem Sole.congr {k : Nat} (h : i.Sole σ k)
    (hdeclares : ∀ k τ n, τ <+: σ → (i'.Declares k τ n ↔ i.Declares k τ n)) : i'.Sole σ k := by
  obtain ⟨τ, n, hk, hτ⟩ := h.declares
  exact ⟨⟨τ, n, (hdeclares k τ n hτ).mpr hk, hτ⟩,
    fun k' τ n hk' hτ => h.unique k' τ n ((hdeclares k' τ n hτ).mp hk') hτ⟩

/-- The owner of a package depends on the units that declare modules on the way to it. -/
theorem Owned.congr {m : ModuleId} (h : i.Owned σ m)
    (hdeclares : ∀ k τ n, τ <+: σ → (i'.Declares k τ n ↔ i.Declares k τ n))
    (hdescriptor : ∀ u, i.descriptorOf m = some u → i'.descriptorOf m = some u) : i'.Owned σ m := by
  obtain ⟨hm, hnone⟩ | ⟨k, hk, hsole, hfile⟩ := h
  · exact .inl ⟨hm, fun k τ n hk hτ => hnone k τ n ((hdeclares k τ n hτ).mp hk) hτ⟩
  · exact .inr ⟨k, hdescriptor _ hk, hsole.congr hdeclares,
      fun n hn => hfile n ((hdeclares k σ n List.prefix_rfl).mp hn)⟩

/-- A claim depends on the headers above a directory only. -/
theorem ClaimOf.congr {claim : Option (Claim ModuleId)} (h : i.ClaimOf σ claim)
    (hdeclares : ∀ k τ n, τ <+: σ → (i'.Declares k τ n ↔ i.Declares k τ n))
    (hdescriptor : ∀ m u, i.descriptorOf m = some u → i'.descriptorOf m = some u) :
    i'.ClaimOf σ claim := by
  cases claim with
  | none => exact fun k τ n hk hτ => h k τ n ((hdeclares k τ n hτ).mp hk) hτ
  | some c =>
    obtain ⟨k, τ, n, hk, hτ, hdepth, hc, hsole⟩ := h
    exact ⟨k, τ, n, (hdeclares k τ n hτ).mpr hk, hτ, hdepth, hdescriptor _ _ hc, hsole.congr hdeclares⟩

variable {path : String} {p : PackageId}

/-- A unit stands in one directory. -/
theorem Declares.directory_eq {k : Nat} {τ τ' : List String} {n n' : Option String}
    (h : i.Declares k τ n) (h' : i.Declares k τ' n') : τ = τ' := by
  obtain ⟨x, hx, -, hτ, -⟩ := h
  obtain ⟨x', hx', -, hτ', -⟩ := h'
  obtain rfl := Option.some.inj (hx.symm.trans hx')
  exact hτ.symm.trans hτ'

/-- A file without a valid header declares nothing. -/
theorem declares_place_of_ne {heading : Heading} (hheading : heading ≠ .valid) {k : Nat}
    {τ : List String} {n : Option String} :
    (i.place path p heading).Declares k τ n ↔ i.Declares k τ n := by
  simp only [Declares, place, Array.getElem?_push]
  split
  · next hk =>
    subst hk
    simp [hheading]
  · rfl

/-- A file with a valid header declares its directory. -/
theorem declares_place_valid {file : String} (hpath : Path.segments path = σ ++ [file]) {k : Nat}
    {τ : List String} {n : Option String} :
    (i.place path p .valid).Declares k τ n ↔
      i.Declares k τ n ∨ k = i.units.size ∧ τ = σ ∧ n = some file := by
  have hdirectory : Path.directory path = σ := by rw [Path.directory, hpath, List.dropLast_concat]
  have hlast : Path.last? path = some file := by rw [Path.last?, hpath, List.getLast?_concat]
  simp only [Declares, place, Array.getElem?_push]
  split
  · next hk =>
    subst hk
    constructor
    · rintro ⟨x, hx, -, hτ, hn⟩
      obtain rfl := Option.some.inj hx
      exact .inr ⟨rfl, hτ.symm.trans hdirectory, hn.symm.trans hlast⟩
    · rintro (⟨x, hx, -⟩ | ⟨-, rfl, rfl⟩)
      · simp at hx
      · exact ⟨_, rfl, rfl, hdirectory, hlast⟩
  · next hk => simp [hk]

end

/-! ## Steps of the walk -/

/-- What is settled depends on the names and owners of packages, on modules, and on the units that declare
them. -/
theorem Settled.congr {i i' : Inventory} (h : i.Settled) (hpackages : i'.packages = i.packages)
    (hmodules : i'.modules = i.modules) (hdeclares : ∀ k τ n, i'.Declares k τ n ↔ i.Declares k τ n) :
    i'.Settled where
  owners p τ m hp hτ hm := by
    rw [nameOf, names, hpackages] at hτ
    rw [ownerOf, hpackages] at hm
    exact (h.owners p τ m hp hτ hm).congr (fun k τ n _ => hdeclares k τ n) fun u hu => by
      rwa [descriptorOf, hmodules]
  lists m p := by
    rw [ownerOf, hpackages, packagesOf, hmodules]
    exact h.lists m p
  housed k τ n hk := by
    simpa only [nameOf, names, hpackages] using h.housed k τ n ((hdeclares k τ n).mp hk)
  plain := by
    rw [names, hpackages]
    exact h.plain
  language := by
    rw [nameOf, names, hpackages]
    exact h.language
  default := hmodules ▸ h.default

namespace Walked

variable {i : Inventory} {σ : List String} {claim : Option (Claim ModuleId)}

/-- A file without a header is placed without a change to what is claimed. -/
theorem place (h : i.Walked σ claim) (path : String) (p : PackageId) {heading : Heading}
    (hheading : heading ≠ .valid) : (i.place path p heading).Walked σ claim where
  toSettled := h.toSettled.congr rfl rfl fun _ _ _ => declares_place_of_ne hheading
  stack := h.stack
  claimed := h.claimed.congr (fun _ _ _ _ => declares_place_of_ne hheading) fun _ _ => id

/-- A package without a module can be given to the one that ought to own it. -/
theorem own (h : i.Walked σ claim) {m : ModuleId} {p : PackageId} {τ : List String}
    (hm : m.index < i.modules.size) (hname : i.nameOf p = some τ) (hnew : i.ownerOf p = none)
    (howned : i.Owned τ m) : (i.own m p).Walked σ claim where
  stack := h.stack
  claimed := h.claimed.congr (fun _ _ _ _ => .rfl) fun m' u hu => by rwa [descriptorOf_own]
  owners q τ' m' hq hτ' hm' := by
    -- The package that is given an owner is the new one.  All others have the owner they had.
    have hsame : i.Owned τ' m' := by
      rw [nameOf_own] at hτ'
      rw [ownerOf_own] at hm'
      split at hm'
      · next hpq =>
        subst hpq
        rw [hname] at hτ' hm'
        obtain rfl := Option.some.inj hτ'
        obtain rfl := Option.some.inj hm'
        exact howned
      · exact h.owners q τ' m' hq hτ' hm'
    exact hsame.congr (fun _ _ _ _ => .rfl) fun u hu => by rwa [descriptorOf_own]
  lists := lists_own h.lists hm hname hnew
  housed k τ n hk := by simpa using h.housed k τ n hk
  plain := (names_own i m p).symm ▸ h.plain
  language := (nameOf_own _).trans h.language
  default := by simpa [Inventory.own] using h.default

end Walked

/-- The inventory after a unit has declared a module at the current directory. -/
def declared (i : Inventory) (path : String) (p : PackageId) (σ : List String) : Inventory :=
  { i.place path p .valid with
    modules := i.modules.push { name := σ, descriptor := some ⟨i.units.size⟩ }
    stack := some ⟨σ, some ⟨σ, σ.length, ⟨i.modules.size⟩⟩⟩ }

section

variable {i : Inventory} {path : String} {p : PackageId} {σ : List String}

/-- A module that has been declared is described by its file. -/
theorem descriptorOf_declared (m : ModuleId) :
    (i.declared path p σ).descriptorOf m =
      if m.index = i.modules.size then some ⟨i.units.size⟩ else i.descriptorOf m := by
  rw [descriptorOf, declared, Array.getElem?_push]
  split
  · rfl
  · rfl

/-- A module with a descriptor is one of the modules. -/
theorem valid_of_descriptorOf {m : ModuleId} {u : UnitId} (h : i.descriptorOf m = some u) :
    m.index < i.modules.size := by
  by_contra hinvalid
  rw [descriptorOf, Array.getElem?_eq_none (by omega)] at h
  cases h

/-- Modules that have been declared keep their descriptors. -/
theorem descriptorOf_declared_of_some {m : ModuleId} {u : UnitId} (h : i.descriptorOf m = some u) :
    (i.declared path p σ).descriptorOf m = some u := by
  rw [descriptorOf_declared, if_neg (valid_of_descriptorOf h).ne, h]

/-- Declaring a module adds no packages to another one. -/
theorem packagesOf_declared (m : ModuleId) :
    (i.declared path p σ).packagesOf m = i.packagesOf m := by
  rw [packagesOf, declared, Array.getElem?_push]
  split
  · next h =>
    rw [packagesOf, Array.getElem?_eq_none (by omega)]
    rfl
  · rfl

/-- A file with a header declares its module, which owns its package unless that has an owner. -/
theorem addDeclared_place (hstack : i.stack = some ⟨σ, none⟩) :
    (i.place path p .valid).addDeclared ⟨i.units.size⟩ p σ ⟨σ, some ⟨σ, σ.length, ⟨i.modules.size⟩⟩⟩ =
      if (i.package p).module.isNone then (i.declared path p σ).own ⟨i.modules.size⟩ p
      else i.declared path p σ := by
  have hstack : (i.place path p .valid).stack = some ⟨σ, none⟩ := hstack
  rw [addDeclared, hstack]
  rfl

theorem package_module (p : PackageId) : (i.package p).module = i.ownerOf p := by
  rw [package, ownerOf, Array.getD_eq_getD_getElem?]
  cases i.packages[p.index]? <;> rfl

end

namespace Walked

variable {i : Inventory} {σ : List String} {claim : Option (Claim ModuleId)}

/-- A unit may declare a module where none has been declared on the way.  The package of the directory is
owned by the module if it had none before; another file than the descriptor comes too late for that. -/
theorem declare (h : i.Walked σ none) {path file : String} {p : PackageId} (halone : i.Alone p σ)
    (hpath : Path.segments path = σ ++ [file]) (hnew : i.ownerOf p = none ∨ file ≠ descriptorName) :
    (i.declared path p σ).Walked σ (some ⟨σ, σ.length, ⟨i.modules.size⟩⟩) := by
  have hdeclares {k : Nat} {τ : List String} {n : Option String} :
      (i.declared path p σ).Declares k τ n ↔
        i.Declares k τ n ∨ k = i.units.size ∧ τ = σ ∧ n = some file := declares_place_valid hpath
  have hself : (i.declared path p σ).Declares i.units.size σ (some file) := hdeclares.mpr (.inr ⟨rfl, rfl, rfl⟩)
  have hsole : (i.declared path p σ).Sole σ i.units.size := by
    refine ⟨⟨σ, some file, hself, List.prefix_rfl⟩, fun k τ n hk hτ => ?_⟩
    obtain hk | ⟨rfl, -⟩ := hdeclares.mp hk
    · exact absurd hτ (h.claimed k τ n hk)
    · rfl
  have hdescriptor : (i.declared path p σ).descriptorOf ⟨i.modules.size⟩ = some ⟨i.units.size⟩ := by
    rw [descriptorOf_declared, if_pos rfl]
  refine ⟨⟨?_, ?_, ?_, h.plain, h.language, ?_⟩, rfl,
    i.units.size, σ, some file, hself, List.prefix_rfl, rfl, hdescriptor, hsole⟩
  · intro q τ m hq hτ hm
    have howned := h.owners q τ m hq hτ hm
    by_cases hqp : q = p
    · -- The package itself belongs to the default module, as no module had been declared on the way.
      subst hqp
      obtain rfl : σ = τ := Option.some.inj (halone.name.symm.trans hτ)
      obtain ⟨hdefault, hnone⟩ | ⟨k, -, hk, -⟩ := howned
      · refine .inl ⟨hdefault, fun k τ n hk hτ => ?_⟩
        obtain hk | ⟨-, rfl, rfl⟩ := hdeclares.mp hk
        · exact hnone k τ n hk hτ
        · have hfile := hnew.resolve_left fun h => nomatch h.symm.trans hm
          exact ⟨rfl, fun h => hfile (Option.some.inj h)⟩
      · obtain ⟨τ, n, hk, hτ⟩ := hk.declares
        exact absurd hτ (h.claimed k τ n hk)
    · refine howned.congr (fun k τ' n hτ' => ?_) fun u hu => descriptorOf_declared_of_some hu
      rw [hdeclares]
      refine ⟨fun hk => hk.resolve_right ?_, .inl⟩
      rintro ⟨-, rfl, -⟩
      exact halone.others q τ hq hqp hτ hτ'
  · intro m q
    rw [packagesOf_declared]
    exact h.lists m q
  · intro k τ n hk
    obtain hk | ⟨-, rfl, -⟩ := hdeclares.mp hk
    · exact h.housed k τ n hk
    · exact ⟨p, halone.index, halone.name⟩
  · simpa [declared] using h.default.trans (Nat.lt_succ_self _)

/-- Adding a file of the current directory, if that may be done.  While the package has no module only the descriptor
is added, and behind it the descriptor is not. -/
theorem add (h : i.Walked σ claim) {path file : String} {p : PackageId} (halone : i.Alone p σ)
    (hpath : Path.segments path = σ ++ [file])
    (hnew : claim = none → i.ownerOf p = none ∨ file ≠ descriptorName)
    (hfirst : i.ownerOf p = none → file = descriptorName)
    (hsofar : i.ownerOf p = none → ∀ k n, i.Declares k σ n → n = some descriptorName) {heading : Heading}
    (hdone : (i.add path p heading).1 = true) :
    ∃ claim', (i.add path p heading).2.Walked σ claim' ∧
      (claim' = none → claim = none ∧ (i.add path p heading).2.ownerOf p = i.ownerOf p) ∧
      (∀ q, (i.ownerOf q).isSome → ((i.add path p heading).2.ownerOf q).isSome) ∧
      ∀ k n, (i.add path p heading).2.Declares k σ n → i.Declares k σ n ∨ n = some file := by
  obtain ⟨hheading, hadd⟩ | ⟨-, rfl, -, hadd⟩ | ⟨-, hadd⟩ := add_cases h.stack path p heading
  · -- A file without a header changes nothing about the claims.
    rw [hadd]
    exact ⟨claim, h.place path p hheading, fun hclaim => ⟨hclaim, rfl⟩, fun _ => id,
      fun k n hk => .inl ((declares_place_of_ne hheading).mp hk)⟩
  · -- A header with nothing claimed above it makes the new claim.
    have hdeclared := h.declare halone hpath (hnew rfl)
    have hdeclares {k : Nat} {n : Option String} (hk : (i.declared path p σ).Declares k σ n) :
        i.Declares k σ n ∨ n = some file := by
      obtain hk | ⟨-, -, hn⟩ := (declares_place_valid hpath).mp hk
      · exact .inl hk
      · exact .inr hn
    rw [hadd, addDeclared_place h.stack]
    refine ⟨some ⟨σ, σ.length, ⟨i.modules.size⟩⟩, ?_, nofun, fun q hq => ?_, fun k n hk => ?_⟩
    · split
      · next hnone =>
        rw [package_module, Option.isNone_iff_eq_none] at hnone
        refine hdeclared.own ?_ halone.name hnone ?_
        · simp [declared]
        · obtain ⟨k, τ, n, hk, hτ, -, hdescriptor, hsole⟩ := hdeclared.claimed
          refine .inr ⟨k, hdescriptor, hsole, fun n' hn' => ?_⟩
          obtain hn' | rfl := hdeclares hn'
          · exact hsofar hnone k n' hn'
          · rw [hfirst hnone]
      · exact hdeclared
    · split
      · rw [ownerOf_own]
        split
        · next hpq =>
          have hname : (i.declared path p σ).nameOf q = some σ := hpq ▸ halone.name
          rw [hname]
          rfl
        · exact hq
      · exact hq
    · split at hk
      · exact hdeclares hk
      · exact hdeclares hk
  · rw [hadd] at hdone
    cases hdone

/-- The package of the current directory is given to the module that ought to own it. -/
theorem ownPackage (h : i.Walked σ claim) {p : PackageId} (hname : i.nameOf p = some σ)
    (hsofar : i.ownerOf p = none → ∀ k n, i.Declares k σ n → n = some descriptorName) :
    (i.ownPackage p).Walked σ claim ∧ ((i.ownPackage p).ownerOf p).isSome ∧
      ∀ q, (i.ownerOf q).isSome → ((i.ownPackage p).ownerOf q).isSome := by
  rw [Inventory.ownPackage, package_module]
  split
  · next hnone =>
    rw [Option.isNone_iff_eq_none] at hnone
    refine ⟨?_, ?_, fun q hq => ?_⟩
    · rw [h.stack, Option.bind_some]
      have hclaimed := h.claimed
      -- Without a claim the default module owns the package, and with one the module that claims it.
      cases claim with
      | none =>
        refine h.own h.default hname hnone (.inl ⟨rfl, fun k τ n hk hτ => ?_⟩)
        exact absurd hτ (hclaimed k τ n hk)
      | some c =>
        obtain ⟨k, τ, n, -, -, -, hdescriptor, hsole⟩ := hclaimed
        exact h.own (valid_of_descriptorOf hdescriptor) hname hnone
          (.inr ⟨k, hdescriptor, hsole, hsofar hnone k⟩)
    · rw [ownerOf_own, if_pos rfl, hname]
      rfl
    · rw [ownerOf_own]
      split
      · next hpq =>
        subst hpq
        rw [hname]
        rfl
      · exact hq
  · next hsome =>
    refine ⟨h, ?_, fun _ => id⟩
    simpa [Option.isNone_iff_eq_none, Option.isSome_iff_ne_none] using hsome

/-- The package of a directory that has not been seen before is a new one. -/
theorem packageNamed (h : i.Walked σ claim) (hσ : Plain σ) (hlanguage : σ ≠ languagePath)
    (hfresh : Fresh i.names σ) :
    i.packageNamed σ = (⟨i.names.length⟩, i.withPackage σ) ∧ (i.withPackage σ).Walked σ claim ∧
      (i.withPackage σ).Alone ⟨i.names.length⟩ σ ∧ (i.withPackage σ).ownerOf ⟨i.names.length⟩ = none := by
  -- A package of that dotted name would have the same path, which is fresh.
  have hnew : i.packageNamed σ = (⟨i.names.length⟩, i.withPackage σ) := by
    obtain ⟨p, ⟨name, hname, hdotted⟩, -⟩ | ⟨-, hnew⟩ := i.packageNamed_cases σ
    · obtain rfl := dotted_inj (h.plain name (List.mem_of_getElem? hname)) hσ hdotted
      by_cases hp : p.index = 0
      · have hzero := h.language
        rw [nameOf, ← hp, hname] at hzero
        exact absurd (Option.some.inj hzero) hlanguage
      · exact absurd List.prefix_rfl (hfresh.not_prefix hp hname)
    · exact hnew
  have hindex : i.names.length ≠ 0 := by
    intro hzero
    have hlanguage := h.language
    rw [nameOf, List.getElem?_eq_none (by omega)] at hlanguage
    cases hlanguage
  have hname {q : PackageId} {τ : List String} (hτ : i.nameOf q = some τ) :
      (i.withPackage σ).nameOf q = some τ := by
    rw [nameOf_withPackage, if_neg (ne_length_of_nameOf hτ), hτ]
  have hunowned {q : PackageId} (hq : q.index = i.names.length) : i.ownerOf q = none := by
    rw [ownerOf, Array.getElem?_eq_none (by simp [hq, names])]
    rfl
  refine ⟨hnew, ⟨⟨fun q τ m hq hτ hm => ?_, fun m q => ?_, fun k τ n hk => ?_, ?_, hname h.language,
    h.default⟩, h.stack, h.claimed.congr (fun _ _ _ _ => .rfl) fun _ _ => id⟩,
    ⟨hindex, by rw [nameOf_withPackage, if_pos rfl], fun q τ hq hne hτ => ?_⟩,
    (ownerOf_withPackage ..).trans (hunowned rfl)⟩
  · rw [ownerOf_withPackage] at hm
    rw [nameOf_withPackage, if_neg fun h => Option.some_ne_none m (hm.symm.trans (hunowned h))] at hτ
    exact (h.owners q τ m hq hτ hm).congr (fun _ _ _ _ => .rfl) fun _ => id
  · rw [ownerOf_withPackage]
    exact h.lists m q
  · obtain ⟨p, hp, hτ⟩ := h.housed k τ n hk
    exact ⟨p, hp, hname hτ⟩
  · rw [names_withPackage]
    simpa [or_imp, forall_and] using And.intro h.plain hσ
  · rw [nameOf_withPackage, if_neg fun h => hne (by rw [← h])] at hτ
    exact hfresh.not_prefix hq hτ

/-- Entering a directory that has not been seen before. -/
theorem enter (h : i.Walked σ claim) {name : String} (hfresh : Fresh i.names (σ ++ [name])) :
    (i.enter name).Walked (σ ++ [name]) claim := by
  have hon {k : Nat} {τ : List String} {n : Option String} (hk : i.Declares k τ n) (hτ : τ <+: σ ++ [name]) :
      τ <+: σ := by
    obtain rfl | hτ := List.prefix_concat_iff.mp hτ
    · obtain ⟨p, hp, hname⟩ := h.housed k _ n hk
      exact absurd List.prefix_rfl (hfresh.not_prefix hp hname)
    · exact hτ
  have hclaimed := h.claimed
  refine ⟨h.toSettled.congr rfl rfl fun _ _ _ => .rfl, ?_, ?_⟩
  · rw [Inventory.enter, h.stack]
    rfl
  · cases claim with
    | none => exact fun k τ n hk hτ => hclaimed k τ n hk (hon hk hτ)
    | some c =>
      obtain ⟨k, τ, n, hk, hτ, hdepth, hdescriptor, hsole⟩ := hclaimed
      have hτ' := hτ.trans (List.prefix_append σ [name])
      exact ⟨k, τ, n, hk, hτ', hdepth, hdescriptor, ⟨τ, n, hk, hτ'⟩,
        fun k' τ' n' hk' hτ' => hsole.unique k' τ' n' hk' (hon hk' hτ')⟩

/-- Leaving a directory gives up the claim of a module that was declared in it. -/
theorem leave {name : String} (h : i.Walked (σ ++ [name]) claim) :
    ∃ claim', i.leave.Walked σ claim' := by
  have hstack : i.leave.stack = some ⟨σ, claim.filter fun c => c.depth ≤ σ.length⟩ := by
    rw [Inventory.leave, h.stack, Option.bind_some, PathStack.pop?]
    split
    · next h => simp at h
    · simp
  refine ⟨claim.filter fun c => c.depth ≤ σ.length, h.toSettled.congr rfl rfl fun _ _ _ => .rfl, hstack, ?_⟩
  have hclaimed := h.claimed
  -- The claim of a directory above stays; one of the directory that is left goes, and then no header above is
  -- left.
  cases claim with
  | none => exact fun k τ n hk hτ => hclaimed k τ n hk (hτ.trans (List.prefix_append σ [name]))
  | some c =>
    obtain ⟨k, τ, n, hk, hτ, hdepth, hdescriptor, hsole⟩ := hclaimed
    have hunique : ∀ k' τ' n', i.Declares k' τ' n' → τ' <+: σ → k' = k :=
      fun k' τ' n' hk' hτ' => hsole.unique k' τ' n' hk' (hτ'.trans (List.prefix_append σ [name]))
    rw [Option.filter_some]
    split
    · next hc =>
      have hτ : τ <+: σ := by
        refine (List.prefix_concat_iff.mp hτ).resolve_left ?_
        rintro rfl
        rw [decide_eq_true_eq, ← hdepth, List.length_append, List.length_singleton] at hc
        omega
      exact ⟨k, τ, n, hk, hτ, hdepth, hdescriptor, ⟨τ, n, hk, hτ⟩, hunique⟩
    · next hc =>
      intro k' τ' n' hk' hτ'
      obtain rfl := hunique k' τ' n' hk' hτ'
      obtain rfl := hk'.directory_eq hk
      simp [← hdepth, hτ'.length_le] at hc

end Walked

/-! ## The walk -/

/-- Loading leads from an inventory with one property to one with the other, if it comes to its end. -/
def Ensures (P : Inventory → Prop) (load : Inventory → Bool × Inventory) (Q : Inventory → Prop) : Prop :=
  ∀ i, P i → (load i).1 = true → Q (load i).2

/-- What one step ensures the next one may take for granted. -/
theorem Ensures.andThen {P Q R : Inventory → Prop} {f g : Inventory → Bool × Inventory}
    (hf : Ensures P f Q) (hg : Ensures Q g R) : Ensures P (Inventory.andThen f g) R := by
  intro i hi hdone
  rw [Inventory.andThen] at hdone ⊢
  have hQ := hf i hi
  cases hfi : f i with
  | mk done j =>
    rw [hfi] at hQ hdone
    cases done with
    | false => cases hdone
    | true => exact hg j (hQ rfl) hdone

/-- Files are loaded one after another, and each keeps what has to hold between them. -/
theorem ensures_loadFiles {P : Inventory → Prop} {heading : SourceFile → Heading} {p : PackageId}
    {fs : List SourceFile} (hP : ∀ f ∈ fs, Ensures P (·.add f.path p (heading f)) P) :
    Ensures P (loadFiles heading p fs) P := by
  induction fs with
  | nil => exact fun i hi _ => hi
  | cons f fs ih =>
    exact (hP f (List.mem_cons_self ..)).andThen (ih fun g hg => hP g (List.mem_cons_of_mem _ hg))

/-- A package is alone with its path as long as the names stay. -/
theorem Alone.congr {i i' : Inventory} {p : PackageId} {σ : List String} (h : i.Alone p σ)
    (hnames : i'.names = i.names) : i'.Alone p σ where
  index := h.index
  name := by rw [nameOf, hnames]; exact h.name
  others q τ hq hne hτ := by
    rw [nameOf, hnames] at hτ
    exact h.others q τ hq hne hτ

/-- The inventory while the files of a package are loaded. -/
structure Housing (names : List (List String)) (σ : List String) (p : PackageId)
    (claim : Option (Claim ModuleId)) (i : Inventory) : Prop where
  walked : i.Walked σ claim
  names : i.names = names
  alone : i.Alone p σ
  owned : i.OwnedBut p

variable {names : List (List String)} {σ : List String} {p : PackageId}

/-- Adding a file keeps the house in order. -/
theorem Housing.add {i : Inventory} {claim : Option (Claim ModuleId)} (h : i.Housing names σ p claim)
    {f : SourceFile} (hf : Path.segments f.path = σ ++ [f.name])
    (hnew : claim = none → i.ownerOf p = none ∨ f.name ≠ descriptorName)
    (hfirst : i.ownerOf p = none → f.name = descriptorName)
    (hsofar : i.ownerOf p = none → ∀ k n, i.Declares k σ n → n = some descriptorName) {heading : Heading}
    (hdone : (i.add f.path p heading).1 = true) :
    ∃ claim', (i.add f.path p heading).2.Housing names σ p claim' ∧
      (claim' = none → claim = none ∧ (i.add f.path p heading).2.ownerOf p = i.ownerOf p) ∧
      ((i.ownerOf p).isSome → ((i.add f.path p heading).2.ownerOf p).isSome) ∧
      ∀ k n, (i.add f.path p heading).2.Declares k σ n → i.Declares k σ n ∨ n = some f.name := by
  obtain ⟨claim', hwalked, hclaim, howned, hdeclares⟩ := h.walked.add h.alone hf hnew hfirst hsofar hdone
  have hnames := (add_adds ⟨claim, h.walked.stack⟩ f.path p heading).1
  refine ⟨claim', ⟨hwalked, hnames.trans h.names, h.alone.congr hnames, fun q τ hq hτ => ?_⟩, hclaim,
    howned p, hdeclares⟩
  rw [nameOf, hnames] at hτ
  exact howned q (h.owned q τ hq hτ)

/-- No module has been declared on the way to a package, or none that it has been given to, and none has been declared
in its directory but by the descriptor. -/
def Undecided (names : List (List String)) (σ : List String) (p : PackageId) (i : Inventory) : Prop :=
  ∃ claim, i.Housing names σ p claim ∧ (claim = none → i.ownerOf p = none) ∧
    ∀ k n, i.Declares k σ n → n = some descriptorName

/-- A package has been given to a module. -/
def Decided (names : List (List String)) (σ : List String) (p : PackageId) (i : Inventory) : Prop :=
  ∃ claim, i.Housing names σ p claim ∧ (i.ownerOf p).isSome

/-- The descriptor comes before the package has been given to a module. -/
theorem ensures_addDescriptor {f : SourceFile} (hf : Path.segments f.path = σ ++ [f.name])
    (hdescriptor : f.name = descriptorName) (heading : Heading) :
    Ensures (Undecided names σ p) (·.add f.path p heading) (Undecided names σ p) := by
  rintro i ⟨claim, h, hnone, hsofar⟩ hdone
  obtain ⟨claim', h', hclaim, -, hdeclares⟩ := h.add hf (fun hclaim => .inl (hnone hclaim)) (fun _ => hdescriptor)
    (fun _ => hsofar) hdone
  refine ⟨claim', h', fun hnone' => ?_, fun k n hk => ?_⟩
  · obtain ⟨hold, howner⟩ := hclaim hnone'
    exact howner.trans (hnone hold)
  · obtain hk | rfl := hdeclares k n hk
    · exact hsofar k n hk
    · rw [hdescriptor]

/-- The other files come after it has. -/
theorem ensures_addOther {f : SourceFile} (hf : Path.segments f.path = σ ++ [f.name])
    (hother : f.name ≠ descriptorName) (heading : Heading) :
    Ensures (Decided names σ p) (·.add f.path p heading) (Decided names σ p) := by
  rintro i ⟨claim, h, hsome⟩ hdone
  have howner : i.ownerOf p ≠ none := Option.isSome_iff_ne_none.mp hsome
  obtain ⟨claim', h', -, howned, -⟩ := h.add hf (fun _ => .inr hother) (fun hnone => absurd hnone howner)
    (fun hnone => absurd hnone howner) hdone
  exact ⟨claim', h', howned hsome⟩

/-- A package that is undecided is decided as soon as it is owned. -/
theorem Undecided.ownPackage {i : Inventory} (h : i.Undecided names σ p) :
    (i.ownPackage p).Decided names σ p := by
  obtain ⟨claim, h, -, hsofar⟩ := h
  obtain ⟨hwalked, hsome, howned⟩ := h.walked.ownPackage h.alone.name fun _ => hsofar
  have hnames := i.names_ownPackage p
  refine ⟨claim, ⟨hwalked, hnames.trans h.names, h.alone.congr hnames, fun q τ hq hτ => ?_⟩, hsome⟩
  rw [nameOf, hnames] at hτ
  exact howned q (h.owned q τ hq hτ)

/-- The inventory when a directory has been entered or its files have been loaded. -/
structure Standing (names : List (List String)) (σ : List String) (i : Inventory) : Prop where
  walked : ∃ claim, i.Walked σ claim
  names : i.names = names
  owned : ∀ q τ, i.nameOf q = some τ → (i.ownerOf q).isSome

/-- Loading a package decides who owns it, and settles its claims. -/
theorem ensures_loadPackage (heading : SourceFile → Heading) {files : List SourceFile} (hσ : Plain σ)
    (hlanguage : σ ≠ languagePath) (hfresh : Fresh names σ)
    (hfiles : ∀ f ∈ files, Path.segments f.path = σ ++ [f.name]) :
    Ensures (Standing names σ) (loadPackage heading files) (Standing (names ++ [σ]) σ) := by
  rintro i ⟨⟨claim, hwalked⟩, rfl, howned⟩ hdone
  obtain ⟨hnamed, hwalked', halone, hunowned⟩ := hwalked.packageNamed hσ hlanguage hfresh
  have hhere : i.here = σ := At.here ⟨claim, hwalked.stack⟩
  rw [loadPackage, hhere, hnamed] at hdone ⊢
  have hstart : (i.withPackage σ).Housing (i.names ++ [σ]) σ ⟨i.names.length⟩ claim := by
    refine ⟨hwalked', names_withPackage i σ, halone, fun q τ hq hτ => ?_⟩
    rw [nameOf_withPackage, if_neg fun h => hq (by rw [← h])] at hτ
    rw [ownerOf_withPackage]
    exact howned q τ hτ
  -- A directory in which a module is declared has a package, and this one has only just got its own.
  have hundeclared (k : Nat) (n : Option String) : ¬ (i.withPackage σ).Declares k σ n := fun hk => by
    obtain ⟨q, hq, hτ⟩ := hwalked.housed k σ n hk
    exact hfresh.not_prefix hq hτ List.prefix_rfl
  have hdescriptors : Ensures (Undecided (i.names ++ [σ]) σ ⟨i.names.length⟩)
      (loadFiles heading ⟨i.names.length⟩ (files.partition (·.name == descriptorName)).1)
      (Undecided (i.names ++ [σ]) σ ⟨i.names.length⟩) :=
    ensures_loadFiles fun f hf => ensures_addDescriptor (hfiles f (by simp_all)) (by simp_all) (heading f)
  have hothers : Ensures (Decided (i.names ++ [σ]) σ ⟨i.names.length⟩)
      (loadFiles heading ⟨i.names.length⟩ (files.partition (·.name == descriptorName)).2)
      (Decided (i.names ++ [σ]) σ ⟨i.names.length⟩) :=
    ensures_loadFiles fun f hf => ensures_addOther (hfiles f (by simp_all)) (by simp_all) (heading f)
  obtain ⟨claim', h, hsome⟩ := hdescriptors.andThen
    (R := Decided (i.names ++ [σ]) σ ⟨i.names.length⟩)
    (g := fun j => loadFiles heading _ (files.partition (·.name == descriptorName)).2 (j.ownPackage _))
    (fun j hj hdone => hothers _ hj.ownPackage hdone) (i.withPackage σ)
    ⟨claim, hstart, fun _ => hunowned, fun k n hk => absurd hk (hundeclared k n)⟩ hdone
  refine ⟨⟨claim', h.walked⟩, h.names, fun q τ hτ => ?_⟩
  by_cases hq : q = ⟨i.names.length⟩
  · exact hq ▸ hsome
  · exact h.owned q τ hq hτ

/-- A directory inside another one is fresh after the files of that have been loaded. -/
theorem Fresh.below (h : Fresh names σ) (name : String) : Fresh (names ++ [σ]) (σ ++ [name]) := by
  intro τ hτ hprefix
  obtain hτ | hτ := mem_tail_append hτ
  · exact h τ hτ ((List.prefix_append σ [name]).trans hprefix)
  · obtain rfl := List.mem_singleton.mp hτ
    have hlength := hprefix.length_le
    rw [List.length_append, List.length_singleton] at hlength
    omega

/-- A folder lies above those inside it. -/
theorem segments_prefix_of_mem_walk {folder : SourceFolder} (hplaced : folder.Placed) {g : SourceFolder}
    (hg : g ∈ folder.walk fun _ => true) : folder.segments <+: g.segments := by
  induction hplaced with
  | mk _ _ _ below _ ih =>
    simp only [SourceFolder.walk, SourceFolder.walkAll_eq, if_true, List.mem_cons, List.mem_flatMap] at hg
    obtain rfl | ⟨f, hf, hg⟩ := hg
    · exact List.prefix_rfl
    · refine List.IsPrefix.trans ?_ (ih f hf hg)
      rw [below f hf]
      exact List.prefix_append ..

/-- Directories beside each other have nothing in common below. -/
theorem name_eq_of_below {τ : List String} {m n : String} (hm : σ ++ [m] <+: τ) (hn : σ ++ [n] <+: τ) :
    m = n := by
  have hprefix := List.prefix_of_prefix_length_le hm hn (by simp)
  have heq := hprefix.eq_of_length (by simp)
  exact List.singleton_inj.mp (List.append_cancel_left heq)

/-- Loading folders keeps the walk where it was, and leaves every new package with an owner. -/
theorem ensures_loadFolders {heading : SourceFile → Heading} {folders : List SourceFolder}
    (hdistinct : (folders.map SourceFolder.name).Nodup)
    (hbelow : ∀ g ∈ folders, g.segments = σ ++ [g.name]) (hplaced : ∀ g ∈ folders, g.Placed)
    (hfolders : ∀ g ∈ folders, ∀ names, Fresh names g.segments →
      Ensures (Standing names g.segments) (loadFolder heading g)
        (Standing (names ++ (g.walk fun _ => true).map SourceFolder.segments) g.segments))
    (hfresh : ∀ g ∈ folders, Fresh names g.segments) :
    Ensures (Standing names σ) (loadFolders heading folders)
      (Standing (names ++ (folders.flatMap (·.walk fun _ => true)).map SourceFolder.segments) σ) := by
  induction folders generalizing names with
  | nil =>
    intro i hi _
    rw [loadFolders]
    simpa using hi
  | cons g gs ih =>
    rintro i ⟨⟨claim, hwalked⟩, rfl, howned⟩ hdone
    have hg := hbelow g (List.mem_cons_self ..)
    have hgfresh := hfresh g (List.mem_cons_self ..)
    rw [List.map_cons, List.nodup_cons] at hdistinct
    have hload := hfolders g (List.mem_cons_self ..) i.names hgfresh (i.enter g.name)
      ⟨⟨claim, hg ▸ hwalked.enter (hg ▸ hgfresh)⟩, rfl, howned⟩
    rw [loadFolders] at hdone ⊢
    cases hresult : loadFolder heading g (i.enter g.name) with
    | mk done j =>
      rw [hresult] at hload hdone
      cases done with
      | false => cases hdone
      | true =>
        obtain ⟨⟨claim', hwalked'⟩, hnames, howned'⟩ := hload rfl
        obtain ⟨claim'', hleft⟩ := (hg ▸ hwalked' : j.Walked (σ ++ [g.name]) claim').leave
        -- The folders that follow have other names, so they are still fresh.
        have hstill : ∀ h ∈ gs, Fresh j.leave.names h.segments := by
          intro h hh τ hτ hprefix
          rw [show j.leave.names = _ from hnames] at hτ
          obtain hτ | hτ := mem_tail_append hτ
          · exact hfresh h (List.mem_cons_of_mem _ hh) τ hτ hprefix
          · obtain ⟨f, hf, rfl⟩ := List.mem_map.mp hτ
            have hgτ := segments_prefix_of_mem_walk (hplaced g (List.mem_cons_self ..)) hf
            rw [hg] at hgτ
            rw [hbelow h (List.mem_cons_of_mem _ hh)] at hprefix
            exact hdistinct.1 (name_eq_of_below hprefix hgτ ▸ List.mem_map_of_mem hh)
        have hrest := ih hdistinct.2 (fun h hh => hbelow h (List.mem_cons_of_mem _ hh))
          (fun h hh => hplaced h (List.mem_cons_of_mem _ hh))
          (fun h hh => hfolders h (List.mem_cons_of_mem _ hh)) hstill j.leave
          ⟨⟨claim'', hleft⟩, rfl, howned'⟩ hdone
        have hleave : j.leave.names = i.names ++ (g.walk fun _ => true).map SourceFolder.segments := hnames
        rw [hleave] at hrest
        rw [List.flatMap_cons, List.map_append, ← List.append_assoc]
        exact hrest

/-- Loading a folder walks through it. -/
theorem ensures_loadFolder {heading : SourceFile → Heading} {folder : SourceFolder} (hplaced : folder.Placed)
    (hplain : ∀ g ∈ folder.walk fun _ => true, Plain g.segments ∧ g.segments ≠ languagePath)
    (hfresh : Fresh names folder.segments) :
    Ensures (Standing names folder.segments) (loadFolder heading folder)
      (Standing (names ++ (folder.walk fun _ => true).map SourceFolder.segments) folder.segments) := by
  induction hplaced generalizing names with
  | @mk name path segments files folders proper filed distinct below inside ih =>
    have hself := hplain (.mk name path segments files folders) (by simp [SourceFolder.walk])
    have hinside : ∀ g ∈ folders, ∀ h ∈ g.walk fun _ => true,
        Plain h.segments ∧ h.segments ≠ languagePath := by
      intro g hg h hh
      refine hplain h ?_
      simp only [SourceFolder.walk, SourceFolder.walkAll_eq, if_true, List.mem_cons, List.mem_flatMap]
      exact .inr ⟨g, hg, hh⟩
    -- First the package of the folder itself, then one folder after the other.
    have hfolders := (ensures_loadPackage heading hself.1 hself.2 hfresh filed).andThen
      (ensures_loadFolders distinct below inside (fun g hg names hfresh => ih g hg (hinside g hg) hfresh)
        fun g hg => below g hg ▸ Fresh.below hfresh g.name)
    rw [List.append_assoc, List.singleton_append, ← List.map_cons] at hfolders
    simp only [loadFolder, SourceFolder.walk, SourceFolder.walkAll_eq, if_true]
    exact hfolders

end Inventory

/-! ## The modules of a loaded tree -/

/-- What is there from the start is settled, and the walk begins at the root. -/
theorem initial_standing :
    ({ startingInventory with stack := some {} } : Inventory).Standing [languagePath] [] := by
  have hdeclares (k : Nat) (τ : List String) (n : Option String) :
      ¬ ({ startingInventory with stack := some {} } : Inventory).Declares k τ n := by
    rintro ⟨x, hx, hdeclares, -⟩
    have hmem := Array.mem_of_getElem? hx
    simp only [startingInventory, List.mem_toArray, List.mem_singleton] at hmem
    rw [hmem] at hdeclares
    cases hdeclares
  -- There is only the package of the language module.
  have hone {q : PackageId} {τ : List String}
      (hτ : ({ startingInventory with stack := some {} } : Inventory).nameOf q = some τ) : q.index = 0 := by
    have hvalid := (List.getElem?_eq_some_iff.mp hτ).1
    simp [Inventory.names, startingInventory] at hvalid
    exact hvalid
  refine ⟨⟨none, ⟨fun q τ m hq hτ => absurd (hone hτ) hq, fun m p => ?_,
    fun k τ n hk => absurd hk (hdeclares k τ n), ?_, rfl, by decide⟩, rfl,
    fun k τ n hk => absurd hk (hdeclares k τ n)⟩, rfl, fun q τ hτ => ?_⟩
  · rcases m with ⟨_ | _ | m⟩ <;> rcases p with ⟨_ | p⟩ <;>
      simp [Inventory.packagesOf, Inventory.ownerOf, startingInventory, languageModule]
  · simp [Inventory.names, startingInventory, Inventory.Plain, languagePath]
  · rw [Inventory.ownerOf, hone hτ]
    rfl

namespace SourceTree

/-- No folder that is entered is that of the language module. -/
def OutsideLanguage (t : SourceTree) (exclude : List String) : Prop :=
  ∀ folder, t.files.scan t.root exclude = .ok folder →
    ∀ g ∈ folder.walk fun _ => true, g.segments ≠ languagePath

instance (t : SourceTree) (exclude : List String) : Decidable (t.OutsideLanguage exclude) :=
  decidableForallOk _ _

/-- A tree that has been loaded to its end is settled. -/
theorem load_standing {t : SourceTree} (ht : t.files.WellNamed) {exclude : List String}
    (hdots : t.Undotted exclude) (hlanguage : t.OutsideLanguage exclude)
    (hload : (t.load exclude .initial).1 = none) :
    ∃ folder, t.files.scan t.root exclude = .ok folder ∧
      (t.load exclude .initial).2.inventory.Settled ∧
      (t.load exclude .initial).2.inventory.names =
        languagePath :: (folder.walk fun _ => true).map SourceFolder.segments ∧
      ∀ q τ, (t.load exclude .initial).2.inventory.nameOf q = some τ →
        ((t.load exclude .initial).2.inventory.ownerOf q).isSome := by
  cases hscan : t.files.scan t.root exclude with
  | error e =>
    rw [(t.load_of_scan_error hscan .initial).1] at hload
    cases hload
  | ok folder =>
    obtain ⟨hroot, hplaced⟩ := scan_placed ht hscan
    obtain ⟨houtcome, hinventory⟩ := t.load_inventory hscan .initial
    rw [initial_inventory] at houtcome hinventory
    rw [hload] at houtcome
    -- Folders have proper names without a dot, so that their dotted names tell them apart.
    have hplain : ∀ g ∈ folder.walk fun _ => true, Inventory.Plain g.segments ∧ g.segments ≠ languagePath := by
      refine fun g hg => ⟨fun name hname => ?_, hlanguage folder hscan g hg⟩
      exact ⟨(hplaced.proper hg name hname).nonempty, hdots folder hscan g hg name hname⟩
    have hstart : ({ startingInventory with stack := some {} } : Inventory).Standing [languagePath]
        folder.segments := by
      rw [hroot]
      exact initial_standing
    have hfresh : Inventory.Fresh [languagePath] folder.segments := by simp [Inventory.Fresh]
    obtain ⟨⟨claim, hwalked⟩, hnames, howned⟩ := Inventory.ensures_loadFolder hplaced hplain hfresh _
      hstart houtcome.symm
    rw [hinventory]
    exact ⟨folder, rfl, hwalked.toSettled.congr rfl rfl fun _ _ _ => .rfl, hnames, howned⟩

end SourceTree

namespace State

/-- A unit has a module header and could be parsed. -/
def DeclaresModule (s : State) (u : UnitId) : Prop :=
  (s.unit u).isDescriptor = true ∧ (s.unit u).failure = none

theorem ownerOf_inventory (s : State) (p : PackageId) :
    s.inventory.ownerOf p = (s.graph.package p).module :=
  (Inventory.package_module p).symm

/-- The names of packages are those of the inventory. -/
theorem nameOf_inventory {s : State} {p : PackageId} (hp : p.index < s.graph.packages.size) :
    s.inventory.nameOf p = some (s.graph.package p).name := by
  simp [Inventory.nameOf, Inventory.names, inventory, Graph.package, Array.getD_eq_getD_getElem?,
    Array.getElem?_eq_getElem hp]

/-- A package of the inventory is one of the state, by the same name. -/
theorem name_of_inventory {s : State} {p : PackageId} {σ : List String} (h : s.inventory.nameOf p = some σ) :
    p.index < s.graph.packages.size ∧ (s.graph.package p).name = σ := by
  have hp : p.index < s.graph.packages.size := by
    simpa [Inventory.names, inventory] using (List.getElem?_eq_some_iff.mp h).1
  exact ⟨hp, Option.some.inj ((nameOf_inventory hp).symm.trans h)⟩

theorem packagesOf_inventory (s : State) (m : ModuleId) :
    s.inventory.packagesOf m = (s.graph.module m).packages := by
  rw [Inventory.packagesOf, Graph.module, Array.getD_eq_getD_getElem?]
  change (s.graph.modules[m.index]?.map _).getD [] = _
  cases s.graph.modules[m.index]? <;> rfl

theorem descriptorOf_inventory (s : State) (m : ModuleId) :
    s.inventory.descriptorOf m = (s.graph.module m).descriptor := by
  rw [Inventory.descriptorOf, Graph.module, Array.getD_eq_getD_getElem?]
  change s.graph.modules[m.index]?.bind _ = _
  cases s.graph.modules[m.index]? <;> rfl

theorem units_inventory {s : State} {u : UnitId} (hu : u.index < s.units.size) :
    s.inventory.units[u.index]? = some (s.unit u).placement := by
  simp [inventory, unit, Array.getD_eq_getD_getElem?, Array.getElem?_eq_getElem hu]

/-- What is known of a unit is what the inventory has at its place. -/
theorem placement_of_inventory {s : State} {k : Nat} {x : Placement} (h : s.inventory.units[k]? = some x) :
    (s.unit ⟨k⟩).placement = x := by
  have hvalid : k < s.units.size := by
    simpa [inventory] using (Array.getElem?_eq_some_iff.mp h).1
  exact Option.some.inj ((units_inventory (u := ⟨k⟩) hvalid).symm.trans h)

/-- A unit that declares a module does so in the inventory. -/
theorem declares_inventory {s : State} {u : UnitId} (hu : s.DeclaresModule u) :
    s.inventory.Declares u.index (s.unit u).directory (Path.last? (s.unit u).path) := by
  have hvalid : u.index < s.units.size := by
    by_contra hinvalid
    have hdescriptor := hu.1
    rw [unit, Array.getD_eq_getD_getElem?, Array.getElem?_eq_none (by omega)] at hdescriptor
    cases hdescriptor
  exact ⟨(s.unit u).placement, units_inventory hvalid, UnitState.heading_eq_valid_iff.mpr hu, rfl, rfl⟩

/-- A header in the inventory is that of a unit that declares a module. -/
theorem declaresModule_of_inventory {s : State} {k : Nat} {τ : List String} {n : Option String}
    (h : s.inventory.Declares k τ n) :
    s.DeclaresModule ⟨k⟩ ∧ (s.unit ⟨k⟩).directory = τ ∧ Path.last? (s.unit ⟨k⟩).path = n := by
  obtain ⟨x, hx, hdeclares, hτ, hn⟩ := h
  obtain rfl := placement_of_inventory hx
  exact ⟨UnitState.heading_eq_valid_iff.mp hdeclares, hτ, hn⟩

end State

/-- When a source tree has been loaded to its end, each of its directories has a package.  It belongs to the module
that is declared above the directory or in its descriptor, if there is one, and to the default module if there is none:
so also if a module is declared in another file of the directory, which comes too late for the package of the directory
itself.  Each package is listed once by its module and by no other one. -/
theorem SourceTree.load_module_ownership (t : SourceTree) (ht : t.files.WellNamed)
    (exclude : List String) (hdots : t.Undotted exclude) (hlanguage : t.OutsideLanguage exclude)
    (hload : (t.load exclude .initial).1 = none) :
    let s := (t.load exclude .initial).2
    (∃ folder, t.files.scan t.root exclude = .ok folder ∧ s.graph.packages.toList.map Package.name =
      languagePath :: (folder.walk fun _ => true).map SourceFolder.segments) ∧
    ∀ p : PackageId, p.index < s.graph.packages.size →
      ((s.graph.package p).name ≠ languagePath →
        (∀ u, s.DeclaresModule u → (s.unit u).directory <+: (s.graph.package p).name →
          ((s.unit u).directory = (s.graph.package p).name →
            Path.last? (s.unit u).path = some descriptorName) →
          ∃ m, (s.graph.package p).module = some m ∧ (s.graph.module m).descriptor = some u) ∧
        ((∀ u, s.DeclaresModule u → (s.unit u).directory <+: (s.graph.package p).name →
            (s.unit u).directory = (s.graph.package p).name ∧
              Path.last? (s.unit u).path ≠ some descriptorName) →
          (s.graph.package p).module = some defaultModule)) ∧
      ∃ m, (s.graph.package p).module = some m ∧
        ∀ m', (s.graph.module m').packages.count p = if m' = m then 1 else 0 := by
  intro s
  obtain ⟨folder, hscan, hsettled, hnames, howned⟩ : ∃ folder, t.files.scan t.root exclude = .ok folder ∧
      s.inventory.Settled ∧ s.inventory.names =
        languagePath :: (folder.walk fun _ => true).map SourceFolder.segments ∧
      ∀ q τ, s.inventory.nameOf q = some τ → (s.inventory.ownerOf q).isSome :=
    load_standing ht hdots hlanguage hload
  clear_value s
  refine ⟨⟨folder, hscan, hnames⟩, fun p hp => ?_⟩
  have hname := State.nameOf_inventory hp
  obtain ⟨m, hm⟩ := Option.isSome_iff_exists.mp (howned p _ hname)
  have howner : (s.graph.package p).module = some m := (s.ownerOf_inventory p).symm.trans hm
  refine ⟨fun hother => ?_, m, howner, fun m' => ?_⟩
  · -- the first package is the one of the language, which the statement leaves out
    have hindex : p.index ≠ 0 := by
      intro hzero
      have hlanguage := hsettled.language
      rw [← hzero, hname] at hlanguage
      exact hother (Option.some.inj hlanguage)
    have hisowned := hsettled.owners p _ m hindex hname hm
    refine ⟨fun u hu hprefix hdescriptor => ?_, fun hlate => ?_⟩
    · have hdeclares := State.declares_inventory hu
      -- either no header reaches the package and it is the default module's, or exactly one does
      obtain ⟨-, hnone⟩ | ⟨k, hk, hsole, -⟩ := hisowned
      · obtain ⟨hself, hfile⟩ := hnone _ _ _ hdeclares hprefix
        exact absurd (hdescriptor hself) hfile
      · refine ⟨m, howner, ?_⟩
        rw [← s.descriptorOf_inventory, hk, ← hsole.unique _ _ _ hdeclares hprefix]
    · obtain ⟨rfl, -⟩ | ⟨k, hk, hsole, hfile⟩ := hisowned
      · exact howner
      · obtain ⟨τ, n, hdeclares, hprefix⟩ := hsole.declares
        obtain ⟨hu, rfl, rfl⟩ := State.declaresModule_of_inventory hdeclares
        obtain ⟨hself, hother⟩ := hlate _ hu hprefix
        exact absurd (hfile _ (hself ▸ hdeclares)) hother
  · rw [← s.packagesOf_inventory, hsettled.lists, hm]
    simp [eq_comm]

/-- A module that is declared around a package, and one that is declared too late for its own. -/
def moduleBelowRoot : SourceTree where
  files := ⟨[.folder "src" [
    .folder "p" [.file "module.ceylon" "module p {}", .folder "q" [.file "x.ceylon" "class X() {}"]],
    .folder "r" [.file "a.ceylon" "module r {}"]]]⟩
  root := "/src"

theorem load_module_ownership_moduleBelowRoot :
    moduleBelowRoot.files.WellNamed ∧ moduleBelowRoot.Undotted [] ∧ moduleBelowRoot.OutsideLanguage [] ∧
      (moduleBelowRoot.load [] .initial).1 = none ∧
      let s := (moduleBelowRoot.load [] .initial).2
      s.DeclaresModule ⟨1⟩ ∧ (s.unit ⟨1⟩).directory = ["p"] ∧ (s.graph.package ⟨3⟩).name = ["p", "q"] ∧
      (∃ m, (s.graph.package ⟨3⟩).module = some m ∧ (s.graph.module m).descriptor = some ⟨1⟩) ∧
      (∃ m, (s.graph.package ⟨3⟩).module = some m ∧
        ∀ m', (s.graph.module m').packages.count ⟨3⟩ = if m' = m then 1 else 0) ∧
      s.DeclaresModule ⟨3⟩ ∧ (s.graph.package ⟨4⟩).name = (s.unit ⟨3⟩).directory ∧
      (s.graph.package ⟨4⟩).module = some defaultModule := by
  have hnamed : moduleBelowRoot.files.WellNamed := by decide
  have hdots : moduleBelowRoot.Undotted [] := by decide +kernel
  have hlanguage : moduleBelowRoot.OutsideLanguage [] := by decide +kernel
  have hcomputed := SourceTree.load_of_loaded? moduleBelowRoot 10 []
    (fun done i => done && i.units[1]? == some ⟨"p/module.ceylon", ⟨2⟩, .valid⟩ &&
      i.nameOf ⟨3⟩ == some ["p", "q"] && i.units[3]? == some ⟨"r/a.ceylon", ⟨4⟩, .valid⟩ &&
      i.nameOf ⟨4⟩ == some ["r"] && i.units.all fun x => x.heading != .valid ||
        Path.directory x.path == ["p"] ||
        Path.directory x.path == ["r"] && Path.last? x.path != some descriptorName) (by decide +kernel)
  simp only [Bool.and_eq_true, Option.isNone_iff_eq_none, beq_iff_eq, Array.all_eq_true_iff_forall_mem] at hcomputed
  obtain ⟨⟨⟨⟨⟨hload, hunit⟩, hname⟩, hlate⟩, hlateName⟩, hall⟩ := hcomputed
  refine ⟨hnamed, hdots, hlanguage, hload, ?_⟩
  intro s
  obtain ⟨hdeclares, hdirectory, -⟩ := State.declaresModule_of_inventory (s := s) ⟨_, hunit, rfl, rfl, rfl⟩
  -- the header in `r/a.ceylon`, which comes too late for the package it stands in
  obtain ⟨hlateDeclares, hlateDirectory, -⟩ :=
    State.declaresModule_of_inventory (s := s) ⟨_, hlate, rfl, rfl, rfl⟩
  obtain ⟨hp, hname⟩ := State.name_of_inventory (s := s) hname
  obtain ⟨hlateValid, hlateName⟩ := State.name_of_inventory (s := s) hlateName
  have hownership := (moduleBelowRoot.load_module_ownership hnamed [] hdots hlanguage hload).2
  obtain ⟨howner, hlisted⟩ := hownership ⟨3⟩ hp
  have hdirectory : (s.unit ⟨1⟩).directory = ["p"] := hdirectory.trans (by decide)
  have hlateDirectory : (s.unit ⟨3⟩).directory = ["r"] := hlateDirectory.trans (by decide)
  refine ⟨hdeclares, hdirectory, hname, (howner ?_).1 ⟨1⟩ hdeclares ?_ fun hself => ?_, hlisted, hlateDeclares,
    hlateName.trans hlateDirectory.symm, ((hownership ⟨4⟩ hlateValid).1 ?_).2 fun u hu hprefix => ?_⟩
  · rw [hname]
    decide
  · rw [hname, hdirectory]
    decide
  · rw [hname, hdirectory] at hself
    cases hself
  · rw [hlateName]
    decide
  · obtain ⟨x, hx, hvalid, hxdirectory, hlast⟩ := State.declares_inventory hu
    have hx := hall x (Array.mem_of_getElem? hx)
    rw [hlateName] at hprefix ⊢
    rw [← hxdirectory] at hprefix ⊢
    rw [← hlast]
    simp only [hvalid, bne_self_eq_false, Bool.false_or, Bool.or_eq_true, beq_iff_eq, Bool.and_eq_true,
      bne_iff_ne] at hx
    obtain hx | ⟨hx, hother⟩ := hx
    · rw [hx] at hprefix
      exact absurd hprefix (by decide)
    · exact ⟨hx, hother⟩

/-- A folder with a descriptor that cannot be parsed, and one with a module header in another file. -/
def looseHeaders : SourceTree where
  files := ⟨[.folder "src" [
    .folder "p" [.file "module.ceylon" "module p {} class"],
    .folder "q" [.file "a.ceylon" "module q {}"]]]⟩
  root := "/src"

/-- A module header is not enough for a module to own the package of its folder. -/
theorem looseHeaders_not_owned :
    looseHeaders.files.WellNamed ∧ looseHeaders.Undotted [] ∧ looseHeaders.OutsideLanguage [] ∧
      (looseHeaders.load [] .initial).1 = none ∧
      let s := (looseHeaders.load [] .initial).2
      (s.graph.module defaultModule).descriptor = none ∧
      ∀ u ∈ [⟨1⟩, ⟨2⟩], (s.unit u).isDescriptor = true ∧
        (s.graph.package (s.unit u).package).name = (s.unit u).directory ∧
        (s.graph.package (s.unit u).package).module = some defaultModule := by
  have hnamed : looseHeaders.files.WellNamed := by decide
  have hdots : looseHeaders.Undotted [] := by decide +kernel
  have hlanguage : looseHeaders.OutsideLanguage [] := by decide +kernel
  -- Loading is evaluated on the inventory, which is all that ownership depends on.
  have hcomputed := SourceTree.load_of_loaded? looseHeaders 10 []
    (fun done i => done && i.descriptorOf defaultModule == none && [1, 2].all fun k =>
      i.units[k]?.any fun x => x.heading != .absent &&
        i.packages[x.package.index]? == some ⟨Path.directory x.path, some defaultModule⟩) (by decide +kernel)
  simp only [Bool.and_eq_true, Option.isNone_iff_eq_none, beq_iff_eq, List.all_eq_true,
    Option.any_eq_true] at hcomputed
  obtain ⟨⟨hload, hdefault⟩, hunits⟩ := hcomputed
  refine ⟨hnamed, hdots, hlanguage, hload, ?_⟩
  intro s
  refine ⟨(s.descriptorOf_inventory _).symm.trans hdefault, fun u hu => ?_⟩
  obtain ⟨x, hx, hheading, hpackage⟩ := hunits u.index (by revert u; decide)
  obtain rfl := State.placement_of_inventory (s := s) hx
  have hpackage : s.graph.package (s.unit u).package = ⟨(s.unit u).directory, some defaultModule⟩ := by
    rw [Graph.package, Array.getD_eq_getD_getElem?]
    exact congrArg (Option.getD · default) hpackage
  rw [hpackage]
  exact ⟨by simpa [UnitState.placement, UnitState.heading_eq_absent_iff] using hheading, rfl, rfl⟩

end Ceylon.Analysis
