import Ceylon.Editor.Server
import Ceylon.Proofs.Writing
import Mathlib.Data.List.Infix

/-!
# Open documents over the file tree

What a server lays over the file tree while an editor opens, changes, saves and closes documents.  An editor
tells documents apart by their names, but the server lays them at their paths, and two names can lead to one
path: outside of the workspace only the last part of a name counts.

As long as no document is opened in the place of another one that is still open, the files laid over the tree
are the open documents, with their contents (`Server.overlay_after`).  Without this condition the first of two
such documents to be closed takes the file of the other one away (`Server.overlay_of_shared_place`).
-/

namespace Ceylon.Editor

open Files
open Files.Tree (fileAt? isFolderAt)

/-! ## What an editor tells -/

/-- What an editor tells about its documents. -/
inductive Event where
  | opened (uri : String) (version : Int) (content : String)
  | changed (uri : String) (version : Int) (contents : List String)
  | saved (uri : String)
  | closed (uri : String)
deriving DecidableEq, Repr

namespace Server

/-- The server hears of an event. -/
def handle (s : Server) : Event → List Notice × Server
  | .opened uri version content => s.opened uri version content
  | .changed uri version contents => ([], s.changed uri version contents)
  | .saved uri => s.saved uri
  | .closed uri => s.closed uri

/-- The server after it has heard of events. -/
def after (s : Server) (es : List Event) : Server :=
  es.foldl (fun s e => (s.handle e).2) s

@[simp] theorem after_nil (s : Server) : s.after [] = s := rfl

@[simp] theorem after_cons (s : Server) (e : Event) (es : List Event) :
    s.after (e :: es) = (s.handle e).2.after es := rfl

/-- A run in two parts. -/
theorem after_append (s : Server) (es es' : List Event) : s.after (es ++ es') = (s.after es).after es' :=
  List.foldl_append

/-! ### Handlers keep what they are not about -/

section Frame

variable (s : Server)

@[simp] theorem workspace_root : s.workspace.2.root = s.root := by
  unfold workspace; split <;> rfl

@[simp] theorem workspace_documents : s.workspace.2.documents = s.documents := by
  unfold workspace; split <;> rfl

@[simp] theorem workspace_overlay : s.workspace.2.overlay = s.overlay := by
  unfold workspace; split <;> rfl

@[simp] theorem workspace_checks : s.workspace.2.checks = s.checks := by
  unfold workspace; split <;> rfl

@[simp] theorem workspace_connected : s.workspace.2.connected = s.connected := by
  unfold workspace; split <;> rfl

@[simp] theorem workspace_files : s.workspace.2.files = s.files := by
  unfold workspace; split <;> rfl

/-- Publishing reads the workspace and changes nothing else. -/
@[simp] theorem publish_server : s.publish.2 = s.workspace.2 := rfl

end Frame

end Server

/-! ## Places -/

/-- The names on the way to the file of a document. -/
def Document.place (d : Document) : List String :=
  Path.segments ("/" ++ d.path)

end Ceylon.Editor

namespace Ceylon.Files.Tree

/-- Whether a file can be written: its place is no folder, and no file is on the way to it. -/
structure Writable (t : Tree) (path : List String) : Prop where
  ne_nil : path ≠ []
  noFolder : isFolderAt path t.entries = false
  wayClear : ∀ names, names <+: path → names ≠ path → fileAt? names t.entries = none

instance (t : Tree) (path : List String) : Decidable (t.Writable path) :=
  decidable_of_iff (path ≠ [] ∧ isFolderAt path t.entries = false ∧
      ∀ names ∈ path.inits, names ≠ path → fileAt? names t.entries = none)
    ⟨fun ⟨h₁, h₂, h₃⟩ => ⟨h₁, h₂, fun names hpre => h₃ names ((List.mem_inits names path).mpr hpre)⟩,
      fun h => ⟨h.ne_nil, h.noFolder, fun names hmem => h.wayClear names ((List.mem_inits names path).mp hmem)⟩⟩

variable {path names : List String} {content : String} {entries : List Entry}

/-- Where there is a file, one can be written. -/
theorem writable_of_fileAt? {t : Tree} (h : fileAt? path t.entries = some content) : t.Writable path where
  ne_nil := by rintro rfl; cases h
  noFolder := isFolderAt_of_fileAt? h
  wayClear names hpre hne := by
    by_contra hfile
    obtain ⟨other, hother⟩ := Option.ne_none_iff_exists'.mp hfile
    exact Bool.noConfusion ((isFolderAt_above h hpre hne).symm.trans (isFolderAt_of_fileAt? hother))

/-- A write that can be made leaves all other files as they are. -/
theorem Writable.fileAt?_writeIn {t : Tree} (h : t.Writable path) :
    fileAt? names (writeIn content path t.entries) =
      if names = path then some content else fileAt? names t.entries := by
  have hself : fileAt? path (writeIn content path t.entries) = some content :=
    fileAt?_writeIn_self h.ne_nil h.noFolder
  split
  · next heq => rw [heq, hself]
  · next hne =>
    by_cases hpre : names <+: path
    · rw [h.wayClear names hpre hne]
      by_contra hfile
      obtain ⟨other, hother⟩ := Option.ne_none_iff_exists'.mp hfile
      exact Bool.noConfusion ((isFolderAt_above hself hpre hne).symm.trans (isFolderAt_of_fileAt? hother))
    · exact fileAt?_writeIn_elsewhere hpre

/-- Removing a file leaves all other files as they are. -/
theorem fileAt?_removeIn_of_fileAt? (h : fileAt? path entries = some content) :
    fileAt? names (removeIn path entries) = if names = path then none else fileAt? names entries := by
  have hpath : path ≠ [] := by rintro rfl; cases h
  split
  · next heq => exact fileAt?_removeIn_below hpath (heq ▸ List.prefix_refl path)
  · next hne =>
    by_cases hpre : path <+: names
    · rw [fileAt?_removeIn_below hpath hpre]
      by_contra hfile
      obtain ⟨other, hother⟩ := Option.ne_none_iff_exists'.mp (Ne.symm hfile)
      exact Bool.noConfusion
        ((isFolderAt_above hother hpre (Ne.symm hne)).symm.trans (isFolderAt_of_fileAt? h))
    · exact fileAt?_removeIn_elsewhere hpre

end Ceylon.Files.Tree

namespace Ceylon.Editor.Server

open Files
open Files.Tree (fileAt? isFolderAt)

/-- The names on the way to the file of a document with a name. -/
def placeOf (s : Server) (uri : String) : List String :=
  Path.segments ("/" ++ s.relativePath uri)

/-! ## The overlay holds the open documents -/

/-- The files laid over the tree are the open documents. -/
structure Mirrors (s : Server) : Prop where
  /-- The root of the workspace has not changed since the documents were opened. -/
  path : ∀ d ∈ s.documents.all, d.path = s.relativePath d.uri
  /-- Open documents have places of their own. -/
  apart : ∀ d ∈ s.documents.all, ∀ e ∈ s.documents.all, d.place = e.place → d = e
  held : ∀ names content, fileAt? names s.overlay.entries = some content ↔
    ∃ d ∈ s.documents.all, d.place = names ∧ d.content = content

namespace Mirrors

variable {s t : Server} {d : Document}

/-- Mirroring reads the root, the documents and the overlay only. -/
theorem congr (h : s.Mirrors) (hroot : t.root = s.root) (hdocuments : t.documents = s.documents)
    (hoverlay : t.overlay = s.overlay) : t.Mirrors where
  path d hd := by
    rw [relativePath, hroot]
    exact h.path d (hdocuments ▸ hd)
  apart := hdocuments ▸ h.apart
  held := hdocuments ▸ hoverlay ▸ h.held

/-- The overlay has the text of an open document at the place of the document. -/
theorem fileAt?_place (h : s.Mirrors) (hd : d ∈ s.documents.all) :
    fileAt? d.place s.overlay.entries = some d.content :=
  (h.held d.place d.content).mpr ⟨d, hd, rfl, rfl⟩

/-- A document is laid in a place that is its own. -/
theorem lay (h : s.Mirrors) (hpath : d.path = s.relativePath d.uri) (hwritable : s.overlay.Writable d.place)
    (hapart : ∀ e ∈ s.documents.all, e.uri ≠ d.uri → e.place ≠ d.place) :
    (Server.lay { s with documents := s.documents.insert d } d).Mirrors := by
  refine ⟨fun e he => ?_, fun e he f hf heq => ?_, fun names content => ?_⟩
  · rcases Documents.mem_insert.mp he with rfl | ⟨he, -⟩
    · exact hpath
    · exact h.path e he
  · rcases Documents.mem_insert.mp he with rfl | ⟨hein, hne⟩ <;>
      rcases Documents.mem_insert.mp hf with rfl | ⟨hfin, hnf⟩
    · rfl
    · exact absurd heq.symm (hapart f hfin hnf)
    · exact absurd heq (hapart e hein hne)
    · exact h.apart e hein f hfin heq
  · -- A document of the same name that was open before was in the same place.
    have hsame : ∀ e ∈ s.documents.all, e.uri = d.uri → e.place = d.place := by
      intro e he huri
      rw [Document.place, h.path e he, huri, ← hpath, Document.place]
    change fileAt? names (Tree.writeIn d.content d.place s.overlay.entries) = some content ↔
      ∃ e ∈ (s.documents.insert d).all, e.place = names ∧ e.content = content
    rw [hwritable.fileAt?_writeIn]
    split
    · next hnames =>
      refine ⟨fun hc => ⟨d, Documents.mem_insert.mpr (.inl rfl), hnames.symm, Option.some.inj hc⟩, ?_⟩
      rintro ⟨e, he, hplace, rfl⟩
      rcases Documents.mem_insert.mp he with rfl | ⟨he, hne⟩
      · rfl
      · exact absurd (hplace.trans hnames) (hapart e he hne)
    · next hnames =>
      rw [h.held]
      constructor
      · rintro ⟨e, he, rfl, rfl⟩
        exact ⟨e, Documents.mem_insert.mpr (.inr ⟨he, fun huri => hnames (hsame e he huri)⟩), rfl, rfl⟩
      · rintro ⟨e, he, rfl, rfl⟩
        rcases Documents.mem_insert.mp he with rfl | ⟨he, -⟩
        · exact absurd rfl hnames
        · exact ⟨e, he, rfl, rfl⟩

/-- An open document gives up its place. -/
theorem lift (h : s.Mirrors) (hd : d ∈ s.documents.all) :
    (Server.lift { s with documents := s.documents.erase d.uri } d).Mirrors := by
  refine ⟨fun e he => ?_, fun e he f hf heq => ?_, fun names content => ?_⟩
  · exact h.path e (Documents.mem_erase.mp he).1
  · exact h.apart e (Documents.mem_erase.mp he).1 f (Documents.mem_erase.mp hf).1 heq
  · change fileAt? names (Tree.removeIn d.place s.overlay.entries) = some content ↔
      ∃ e ∈ (s.documents.erase d.uri).all, e.place = names ∧ e.content = content
    rw [Tree.fileAt?_removeIn_of_fileAt? (h.fileAt?_place hd)]
    split
    · next hnames =>
      subst hnames
      refine ⟨fun hc => (Option.some_ne_none _ hc.symm).elim, ?_⟩
      rintro ⟨e, he, hplace, -⟩
      obtain ⟨he, huri⟩ := Documents.mem_erase.mp he
      -- No other document has this place.
      exact absurd (congrArg Document.uri (h.apart e he d hd hplace)) huri
    · next hnames =>
      rw [h.held]
      constructor
      · rintro ⟨e, he, rfl, rfl⟩
        refine ⟨e, Documents.mem_erase.mpr ⟨he, fun huri => hnames ?_⟩, rfl, rfl⟩
        rw [Documents.eq_of_uri he hd huri]
      · rintro ⟨e, he, rfl, rfl⟩
        exact ⟨e, (Documents.mem_erase.mp he).1, rfl, rfl⟩

end Mirrors

/-! ## Runs -/

/-- Whether an event is one that an overlay can follow: a document is opened only where its file can be
written, and not in the place of another one that is open. -/
def Admits (s : Server) : Event → Prop
  | .opened uri _ _ =>
    s.overlay.Writable (s.placeOf uri) ∧ ∀ d ∈ s.documents.all, d.uri ≠ uri → d.place ≠ s.placeOf uri
  | .changed .. => True
  | .saved _ => True
  | .closed _ => True

instance (s : Server) : (e : Event) → Decidable (s.Admits e)
  | .opened .. => inferInstanceAs (Decidable (_ ∧ _))
  | .changed .. => .isTrue trivial
  | .saved _ => .isTrue trivial
  | .closed _ => .isTrue trivial

/-- Whether each of the events is such a one when it comes. -/
def AdmitsAll (s : Server) : List Event → Prop
  | [] => True
  | e :: es => s.Admits e ∧ (s.handle e).2.AdmitsAll es

instance decidableAdmitsAll (s : Server) : (es : List Event) → Decidable (s.AdmitsAll es)
  | [] => .isTrue trivial
  | e :: es =>
    have := decidableAdmitsAll (s.handle e).2 es
    inferInstanceAs (Decidable (s.Admits e ∧ _))

/-- A step of the server keeps the overlay a mirror of the open documents. -/
theorem Mirrors.handle {s : Server} {e : Event} (h : s.Mirrors) (hadmits : s.Admits e) :
    (s.handle e).2.Mirrors := by
  cases e with
  | opened uri version content =>
    obtain ⟨hwritable, hapart⟩ := hadmits
    have hlaid := h.lay (d := ⟨uri, version, content, s.relativePath uri⟩) rfl hwritable hapart
    refine hlaid.congr ?_ ?_ ?_ <;> simp [Server.handle, opened, Server.lay]
  -- A changed document was open, so its file is there already and can be written to, and no other has its
  -- place.
  | changed uri version contents =>
    cases hget : s.documents.get? uri with
    | none =>
      refine h.congr ?_ ?_ ?_ <;> simp [Server.handle, changed, Documents.change?, hget]
    | some d =>
      obtain ⟨hd, rfl⟩ := Documents.get?_eq_some.mp hget
      have hwritable : s.overlay.Writable d.place := Tree.writable_of_fileAt? (h.fileAt?_place hd)
      have hapart : ∀ e ∈ s.documents.all, e.uri ≠ d.uri → e.place ≠ d.place :=
        fun e he hne heq => hne (congrArg Document.uri (h.apart e he d hd heq))
      have hlaid := h.lay (d := { d with version, content := contents.getLastD "" })
        (h.path d hd) hwritable hapart
      refine hlaid.congr ?_ ?_ ?_ <;>
        simp [Server.handle, changed, Documents.change?, hget, Server.lay]
  -- Saving only publishes.
  | saved uri =>
    refine h.congr ?_ ?_ ?_ <;> simp only [Server.handle, saved] <;> split <;> simp
  | closed uri =>
    cases hget : s.documents.get? uri with
    | none =>
      refine h.congr ?_ ?_ ?_ <;> simp [Server.handle, closed, hget]
    | some d =>
      obtain ⟨hd, rfl⟩ := Documents.get?_eq_some.mp hget
      refine (h.lift hd).congr ?_ ?_ ?_ <;> simp [Server.handle, closed, hget]

/-- The run lemma: along admitted events the overlay keeps mirroring the open documents. -/
theorem Mirrors.after {s : Server} {es : List Event} (h : s.Mirrors) (hadmits : s.AdmitsAll es) :
    (s.after es).Mirrors := by
  induction es generalizing s with
  | nil => exact h
  | cons e es ih => exact ih (h.handle hadmits.1) hadmits.2

/-- Before a document is opened nothing is laid over the tree. -/
theorem mirrors_start (disk : Tree) (checks : List Lint.Check) (rootUri rootPath : Option String) :
    ((start disk checks).initialized rootUri rootPath).Mirrors where
  path _ hd := absurd hd List.not_mem_nil
  apart _ hd := absurd hd List.not_mem_nil
  held names content := by
    have hempty : fileAt? names ([] : List Files.Entry) = none := Tree.fileAt?_of_nil
    constructor
    · intro h
      cases hempty.symm.trans h
    · rintro ⟨d, hd, -⟩
      exact absurd hd List.not_mem_nil

variable {disk : Tree} {checks : List Lint.Check} {rootUri rootPath : Option String}

/-- The overlay has the content of each open document at its path, and no other file. -/
structure OverlaysOpen (s : Server) : Prop where
  reads : ∀ d ∈ s.documents.all, s.overlay.read ("/" ++ d.path) = .ok d.content
  only : ∀ names content, fileAt? names s.overlay.entries = some content →
    ∃ d ∈ s.documents.all, d.place = names ∧ d.content = content

/-- Whatever an editor tells, the files laid over the tree are the open documents. -/
theorem overlay_after {es : List Event}
    (hadmits : ((start disk checks).initialized rootUri rootPath).AdmitsAll es) :
    (((start disk checks).initialized rootUri rootPath).after es).OverlaysOpen := by
  have h := (mirrors_start disk checks rootUri rootPath).after hadmits
  exact ⟨fun d hd => Tree.read_of_fileAt? (Path.isRooted_slash d.path) (h.fileAt?_place hd),
    fun names content => (h.held names content).mp⟩

/-- A document is opened, another one comes and goes, and the first is changed. -/
theorem overlay_after_change :
    let s := (start {} Lint.Check.all).initialized (some "file:///ws") none
    let es : List Event := [.opened "file:///ws/a.ceylon" 1 "class A() {}", .opened "file:///b.ceylon" 1 "",
      .closed "file:///b.ceylon", .changed "file:///ws/a.ceylon" 2 ["class B() {}"]]
    s.AdmitsAll es ∧ ((s.after es).documents.all.map fun d => d.content) = ["class B() {}"] ∧
    (s.after es).OverlaysOpen := by
  intro s es
  have hadmits : s.AdmitsAll es := by decide +kernel
  exact ⟨hadmits, by decide, overlay_after hadmits⟩

/-- Two documents outside of the workspace that have one place: when one is closed, the file of the other
is gone. -/
theorem overlay_of_shared_place :
    let s := ((start {} Lint.Check.all).initialized (some "file:///ws") none).after
      [.opened "file:///one/a.ceylon" 1 "Integer x = 1;", .opened "file:///two/a.ceylon" 1 "Integer x = 1;",
        .closed "file:///two/a.ceylon"]
    ∃ d ∈ s.documents.all, s.overlay.read ("/" ++ d.path) ≠ .ok d.content := by
  decide +kernel

end Ceylon.Editor.Server
