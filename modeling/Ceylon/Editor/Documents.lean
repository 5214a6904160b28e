/-!
# Open documents

The documents that are open in an editor, by their names and in the order of these.
-/

namespace Ceylon.Editor

/-- An open document. -/
structure Document where
  uri : String
  version : Int
  content : String
  /-- The path of its unit below the root of the workspace. -/
  path : String
deriving DecidableEq, Repr, Inhabited

/-- Puts a document in its place, which may be that of an older one. -/
def Document.put (d : Document) : List Document → List Document
  | [] => [d]
  | e :: es =>
    if d.uri = e.uri then d :: es
    else if d.uri < e.uri then d :: e :: es
    else e :: d.put es

/-- Documents in the order of their names, which differ from each other. -/
def InUriOrder (ds : List Document) : Prop :=
  ds.Pairwise (·.uri < ·.uri)

/-- Putting a document in its place takes away one of its name, and no other. -/
theorem Document.mem_put {d e : Document} {ds : List Document} (h : InUriOrder ds) :
    e ∈ d.put ds ↔ e = d ∨ e ∈ ds ∧ e.uri ≠ d.uri := by
  induction ds with
  | nil => simp [put]
  | cons f ds ih =>
    obtain ⟨hf, hds⟩ := List.pairwise_cons.mp h
    rw [put]
    split
    · next heq =>
      have hlater : ∀ g ∈ ds, g.uri ≠ d.uri := by
        rintro g hg hgd
        exact String.lt_irrefl _ (hgd ▸ heq ▸ hf g hg)
      grind
    · split
      · next hlt =>
        have hlater : ∀ g ∈ ds, g.uri ≠ d.uri := by
          rintro g hg hgd
          exact String.lt_irrefl _ (hgd ▸ String.lt_trans hlt (hf g hg))
        grind
      · rw [List.mem_cons, ih hds]
        grind

theorem Document.inUriOrder_put (d : Document) {ds : List Document} (h : InUriOrder ds) :
    InUriOrder (d.put ds) := by
  induction ds with
  | nil => simp [put, InUriOrder]
  | cons e ds ih =>
    obtain ⟨he, hds⟩ := List.pairwise_cons.mp h
    rw [put]
    split
    · next heq => exact List.pairwise_cons.mpr ⟨fun f hf => heq ▸ he f hf, hds⟩
    · split
      · next hlt =>
        refine List.pairwise_cons.mpr ⟨fun f hf => ?_, h⟩
        rcases List.mem_cons.mp hf with rfl | hf
        · exact hlt
        · exact String.lt_trans hlt (he f hf)
      · next hne hnlt =>
        refine List.pairwise_cons.mpr ⟨fun f hf => ?_, ih hds⟩
        rcases (mem_put hds).mp hf with rfl | ⟨hf, -⟩
        · rcases Std.lt_trichotomy f.uri e.uri with hlt | heq | hlt
          · exact absurd hlt hnlt
          · exact absurd heq hne
          · exact hlt
        · exact he f hf

theorem inUriOrder_nil : InUriOrder [] :=
  .nil

/-- The documents that are open. -/
structure Documents where
  /-- All documents in the order of their names. -/
  all : List Document := []
  ordered : InUriOrder all := by exact Ceylon.Editor.inUriOrder_nil
deriving DecidableEq, Repr

instance : Inhabited Documents := ⟨{}⟩

namespace Documents

/-- The document with the given name. -/
def get? (ds : Documents) (uri : String) : Option Document :=
  ds.all.find? (·.uri == uri)

/-- The document whose unit has the given path. -/
def atPath? (ds : Documents) (path : String) : Option Document :=
  ds.all.find? (·.path == path)

/-- Opens a document, or replaces one of its name. -/
def insert (ds : Documents) (d : Document) : Documents :=
  ⟨d.put ds.all, d.inUriOrder_put ds.ordered⟩

/-- Gives an open document a new version.  A document that is not open stays so. -/
def change? (ds : Documents) (uri : String) (version : Int) (content : String) :
    Option (Document × Documents) :=
  (ds.get? uri).map fun d =>
    let d := { d with version, content }
    (d, ds.insert d)

/-- Closes a document. -/
def erase (ds : Documents) (uri : String) : Documents :=
  ⟨ds.all.filter (·.uri != uri), ds.ordered.filter _⟩

variable {ds : Documents} {d e : Document} {uri : String}

/-- No two open documents have one name. -/
theorem eq_of_uri (hd : d ∈ ds.all) (he : e ∈ ds.all) (h : d.uri = e.uri) : d = e := by
  obtain ⟨i, hi, rfl⟩ := List.mem_iff_getElem.mp hd
  obtain ⟨j, hj, rfl⟩ := List.mem_iff_getElem.mp he
  have hlt := List.pairwise_iff_getElem.mp ds.ordered
  rcases Nat.lt_trichotomy i j with hij | rfl | hij
  · exact absurd (h ▸ hlt i j hi hj hij) (String.lt_irrefl _)
  · rfl
  · exact absurd (h ▸ hlt j i hj hi hij) (String.lt_irrefl _)

theorem get?_eq_some : ds.get? uri = some d ↔ d ∈ ds.all ∧ d.uri = uri := by
  refine ⟨fun h => ⟨List.mem_of_find?_eq_some h, by simpa using List.find?_some h⟩, ?_⟩
  rintro ⟨hd, rfl⟩
  cases hget : ds.get? d.uri with
  | none => exact absurd (beq_self_eq_true d.uri) (by simpa using List.find?_eq_none.mp hget d hd)
  | some e =>
    have heq : e.uri = d.uri := by simpa using List.find?_some hget
    rw [eq_of_uri (List.mem_of_find?_eq_some hget) hd heq]

@[simp] theorem mem_insert : e ∈ (ds.insert d).all ↔ e = d ∨ e ∈ ds.all ∧ e.uri ≠ d.uri :=
  Document.mem_put ds.ordered

@[simp] theorem mem_erase : e ∈ (ds.erase uri).all ↔ e ∈ ds.all ∧ e.uri ≠ uri := by
  simp [erase]

end Documents

end Ceylon.Editor
