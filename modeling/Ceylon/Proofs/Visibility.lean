import Ceylon.Analysis.Names

/-!
# Names in use are the names that are found

Looking a name up stops at the first scope that has it (`State.lookup?`), while the names in use are
gathered from all scopes, and those that a scope further in has as well are left out (`State.visible`).
Both follow one list of entries, innermost first: the names in use are its entries less those whose name
came before (`mem_firstOfEach`), and a name stands for its first entry (`State.lookup_entries`).  So a name
is in use exactly if it is found, and stands for the same declaration (`State.visible_iff_lookup`).
-/

namespace Ceylon.Analysis

open Model

namespace State

/-! ## The first entry for each name -/

/-- Adds an entry unless there is one for its name. -/
private def addEntry (seen : Array (String × DeclId)) (e : String × DeclId) : Array (String × DeclId) :=
  if seen.any (·.1 == e.1) then seen else seen.push e

private theorem firstOfEach_eq (es : List (String × DeclId)) :
    firstOfEach es = (es.foldl addEntry #[]).toList := rfl

private theorem any_eq_true_iff {seen : Array (String × DeclId)} {name : String} :
    seen.any (·.1 == name) = true ↔ name ∈ seen.toList.map Prod.fst := by
  rw [← Array.any_toList, List.any_eq_true, List.mem_map]
  simp only [beq_iff_eq]

private theorem nodup_addEntry {seen : Array (String × DeclId)} (h : (seen.toList.map Prod.fst).Nodup)
    (e : String × DeclId) : ((addEntry seen e).toList.map Prod.fst).Nodup := by
  rw [addEntry]
  split
  · exact h
  · next hnew =>
    rw [any_eq_true_iff] at hnew
    rw [Array.toList_push, List.map_append]
    refine List.nodup_append.mpr ⟨h, List.pairwise_singleton _ _, ?_⟩
    rintro name hname _ he rfl
    obtain rfl : name = e.1 := by simpa using he
    exact hnew hname

/-- An entry is there in the end if it was there before, or if it is the first one for a new name. -/
private theorem mem_foldl_addEntry (es : List (String × DeclId)) (seen : Array (String × DeclId))
    {name : String} {d : DeclId} : (name, d) ∈ (es.foldl addEntry seen).toList ↔
      (name, d) ∈ seen.toList ∨ name ∉ seen.toList.map Prod.fst ∧ es.lookup name = some d := by
  induction es generalizing seen with
  | nil => simp
  | cons e es ih =>
    obtain ⟨key, value⟩ := e
    rw [List.foldl_cons, ih, addEntry, List.lookup_cons]
    by_cases hkey : name = key
    · subst hkey
      split
      · next h => simp [any_eq_true_iff.mp h]
      · next h =>
        rw [any_eq_true_iff] at h
        simp [h, eq_comm]
    · have hne : (name == key) = false := beq_eq_false_iff_ne.mpr hkey
      split
      · simp [hne]
      · simp [hne, hkey]

/-- No name has two entries among the first ones. -/
theorem nodup_firstOfEach (es : List (String × DeclId)) : ((firstOfEach es).map Prod.fst).Nodup := by
  rw [firstOfEach_eq]
  have hkept : ∀ seen : Array (String × DeclId), (seen.toList.map Prod.fst).Nodup →
      ((es.foldl addEntry seen).toList.map Prod.fst).Nodup := by
    induction es with
    | nil => exact fun _ h => h
    | cons e es ih => exact fun seen h => ih _ (nodup_addEntry h e)
  exact hkept #[] List.nodup_nil

/-- What is left are the entries that come first for their names. -/
theorem mem_firstOfEach {es : List (String × DeclId)} {name : String} {d : DeclId} :
    (name, d) ∈ firstOfEach es ↔ es.lookup name = some d := by
  rw [firstOfEach_eq, mem_foldl_addEntry]
  simp

/-! ## Scopes as lists of entries -/

private theorem lookup_map {α : Type} (key : α → String) (value : α → DeclId) (as : List α) (name : String) :
    (as.map fun a => (key a, value a)).lookup name = (as.find? fun a => key a == name).map value := by
  induction as with
  | nil => rfl
  | cons a as ih =>
    rw [List.map_cons, List.lookup_cons, List.find?_cons, BEq.comm, ih]
    cases key a == name <;> rfl

variable (s : State) (u : Option UnitId)

theorem lookup_members (σ : ScopeId) (name : String) :
    ((s.graph.membersOf σ).toList.map fun d => ((s.graph.decl d).name, d)).lookup name =
      s.graph.directMember? σ name .any := by
  have hentries := lookup_map (fun d => (s.graph.decl d).name) id (s.graph.membersOf σ).toList name
  simp only [id, Array.find?_toList] at hentries
  rw [hentries, Graph.directMember?]
  simp [Filter.any]

theorem importedAt_package (g : Graph) (p : PackageId) (imports : List Imported) (name : String) :
    g.importedAt? (.package p) imports name .any = Graph.imported? imports name := by
  rw [Graph.importedAt?]
  cases Graph.imported? imports name <;> rfl

/-- What the entries of a scope have under a name: at a package the import of that name, or else the first
member. -/
theorem lookup_namesIn (σ : ScopeId) (name : String) : (s.namesIn u σ).lookup name =
    (s.graph.importedAt? σ (s.importsOf u) name .any <|> s.graph.directMember? σ name .any) := by
  cases σ with
  | package p =>
    rw [namesIn, List.lookup_append, lookup_members, lookup_map, importedAt_package, Graph.imported?,
      Option.orElse_eq_orElse, Option.orElse_eq_or]
  | block b => exact lookup_members s (.block b) name
  | decl d => exact lookup_members s (.decl d) name

theorem lookup_flatMap_namesIn (chain : ScopeChain) (name : String) :
    (chain.flatMap (s.namesIn u)).lookup name = s.graph.lookup? (s.importsOf u) name .any chain := by
  induction chain with
  | nil => rfl
  | cons σ outer ih =>
    rw [List.flatMap_cons, List.lookup_append, lookup_namesIn, ih, Graph.lookup?]
    simp [Option.or_assoc]

/-- All entries of a chain of scopes, innermost first, and those of the language package after them. -/
def entries (chain : ScopeChain) : List (String × DeclId) :=
  chain.flatMap (s.namesIn u) ++ s.namesIn none (.package s.builtins.package)

/-- A name stands for its first entry. -/
theorem lookup_entries (chain : ScopeChain) (name : String) :
    (s.entries u chain).lookup name = s.lookup? u chain name .any := by
  rw [entries, List.lookup_append, lookup_flatMap_namesIn, lookup_namesIn]
  simp [lookup?, lookupWith?, importsOf, Graph.importedAt?, Graph.imported?]

/-! ## Which entry comes first -/

/-- Nested scopes are gone through first. -/
theorem lookup_nested {g : Graph} (imports : List Imported) (name : String) (filter : Filter)
    {nested : List ScopeId} (hnested : ∀ p, .package p ∉ nested) (outer : ScopeChain) :
    g.lookup? imports name filter (nested ++ outer) =
      ((nested.findSome? fun σ => g.directMember? σ name filter) <|> g.lookup? imports name filter outer) := by
  induction nested with
  | nil => rfl
  | cons σ nested ih =>
    have himported : g.importedAt? σ imports name filter = none := by
      cases σ with
      | package p => exact absurd List.mem_cons_self (hnested p)
      | block b => rfl
      | decl d => rfl
    rw [List.cons_append, Graph.lookup?, himported,
      ih fun p hp => hnested p (List.mem_cons_of_mem _ hp), List.findSome?_cons]
    cases g.directMember? σ name filter <;> rfl

/-- In a chain of nested scopes that ends in a package, no name is in use twice, and a name is in use for a
declaration exactly if looking it up finds that declaration: the first one in the nested scopes, from the
inside out, or else what the unit imports under the name, or else the first member of the package, or else
the first one of the language package. -/
theorem visible_iff_lookup (nested : List ScopeId) (p : PackageId) (hnested : ∀ q, .package q ∉ nested) :
    ((s.visible u (nested ++ [.package p])).map Prod.fst).Nodup ∧
      ∀ name,
        (∀ d, (name, d) ∈ s.visible u (nested ++ [.package p]) ↔
          s.lookup? u (nested ++ [.package p]) name .any = some d) ∧
        s.lookup? u (nested ++ [.package p]) name .any =
          ((nested.findSome? fun σ => s.graph.directMember? σ name .any)
            <|> Graph.imported? (s.importsOf u) name
            <|> s.graph.directMember? (.package p) name .any
            <|> s.graph.directMember? (.package s.builtins.package) name .any) := by
  refine ⟨nodup_firstOfEach _, fun name => ⟨fun d => ?_, ?_⟩⟩
  · rw [← lookup_entries]
    exact mem_firstOfEach
  · rw [lookup?, lookupWith?, lookup_nested _ _ _ hnested, Graph.lookup?, Graph.lookup?]
    simp [importedAt_package, Option.or_assoc]

/-- A package with a block in it, and a language package.  The block, the package and the language package
each have a value `x`, and the one unit imports the `z` of the language package as `y`, which is also the
name of a value of its package. -/
def shadowing : State :=
  let value (name : String) (scope : ScopeChain) : Declaration :=
    { name, scope, unit := none, node := none, shared := true, shape := .value .unknown false }
  { graph := [value "x" [.block ⟨0⟩, .package ⟨0⟩], value "x" [.package ⟨0⟩], value "y" [.package ⟨0⟩],
      value "x" [.package ⟨1⟩], value "z" [.package ⟨1⟩]].foldl (fun g d => (g.declare d).2) {}
    builtins := { (default : Builtins) with package := ⟨1⟩ }
    units := #[{ path := "p/a.ceylon", tree := default, package := ⟨0⟩, imports := [⟨"y", ⟨4⟩, default⟩] }] }

theorem visible_iff_lookup_shadowing :
    (∀ q, .package q ∉ [ScopeId.block ⟨0⟩]) ∧
      shadowing.visible (some ⟨0⟩) [.block ⟨0⟩, .package ⟨0⟩] = [("x", ⟨0⟩), ("y", ⟨4⟩), ("z", ⟨4⟩)] ∧
      shadowing.lookup? (some ⟨0⟩) [.block ⟨0⟩, .package ⟨0⟩] "y" .any = some ⟨4⟩ := by
  have hnested : ∀ q, .package q ∉ [ScopeId.block ⟨0⟩] := by simp
  have hvisible : shadowing.visible (some ⟨0⟩) [.block ⟨0⟩, .package ⟨0⟩] =
      [("x", ⟨0⟩), ("y", ⟨4⟩), ("z", ⟨4⟩)] := by decide +kernel
  refine ⟨hnested, hvisible, ?_⟩
  refine (((visible_iff_lookup shadowing (some ⟨0⟩) [.block ⟨0⟩] ⟨0⟩ hnested).2 "y").1 ⟨4⟩).mp ?_
  rw [List.singleton_append, hvisible]
  simp

end State

end Ceylon.Analysis
