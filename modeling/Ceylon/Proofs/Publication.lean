import Ceylon.Proofs.Overlay

/-!
# What an editor is shown

The problems that a server last published of a document, against those of a fresh analysis of the open
documents over the file tree.

The analysis that the server keeps is a fresh one, or it has been given up (`Server.Current`).  So when a
document is opened, or saved while it is open, the problems of all open documents are shown as they are
(`Server.shown_fresh`).  When a document is closed nothing is published but that it has no problems: the
others are still shown with the problems from before (`Server.shown_since`).
-/

namespace Ceylon.Editor

open Analysis (State)
open Text (Json)

/-! ## Notices -/

/-- The problems of a document, if the notice is about them. -/
def Notice.problemsOf? (n : Notice) (uri : String) : Option (List Json) :=
  match n.params with
  | .obj [("uri", .str u), ("diagnostics", .arr problems)] =>
    if n.method = "textDocument/publishDiagnostics" ∧ u = uri then some problems else none
  | _ => none

/-- A notice of problems speaks of the document it names and of no other. -/
@[simp] theorem Notice.problemsOf?_problemNotice (u uri : String) (problems : List Json) :
    (Server.problemNotice u problems).problemsOf? uri = if u = uri then some problems else none := by
  simp [Notice.problemsOf?, Server.problemNotice]

/-- The problems of a document that the last notice about them tells. -/
def shown (notices : List Notice) (uri : String) : Option (List Json) :=
  notices.reverse.findSome? (·.problemsOf? uri)

/-- What is shown of a document is the last notice about it. -/
theorem shown_append (notices later : List Notice) (uri : String) :
    shown (notices ++ later) uri = (shown later uri).or (shown notices uri) := by
  simp [shown]

namespace Server

/-- What a server sends while it hears of events. -/
def notices (s : Server) : List Event → List Notice
  | [] => []
  | e :: es => (s.handle e).1 ++ (s.handle e).2.notices es

/-- A longer run sends the notices of its first part and then those of the rest, sent from where the first
part ends. -/
theorem notices_append (s : Server) (es es' : List Event) :
    s.notices (es ++ es') = s.notices es ++ (s.after es).notices es' := by
  induction es generalizing s with
  | nil => rfl
  | cons e es ih => simp [notices, ih]

/-! ## The kept analysis -/

/-- The problems of a document in a fresh analysis. -/
def fresh (s : Server) (d : Document) : List Json :=
  s.problems (analyze s.files) d

/-- The problems a server reads off an analysis depend on its checks only. -/
theorem problems_congr {s t : Server} (h : t.checks = s.checks) (a : State) : t.problems a = s.problems a := by
  funext d
  rw [problems, problems, h]

/-- A fresh analysis depends on the files and the checks only. -/
theorem fresh_congr {s t : Server} (hfiles : t.files = s.files) (hchecks : t.checks = s.checks) :
    t.fresh = s.fresh := by
  funext d
  rw [fresh, fresh, hfiles, problems_congr hchecks]

/-- An analysis that is kept is that of the present files. -/
structure Current (s : Server) : Prop where
  eq : ∀ a, s.latest = some a → a = analyze s.files

variable {s t : Server}

/-- Whether the stored analysis is current depends on that analysis and the files only. -/
theorem Current.congr (h : s.Current) (hlatest : t.latest = s.latest) (hfiles : t.files = s.files) :
    t.Current :=
  ⟨fun a ha => hfiles ▸ h.eq a (hlatest ▸ ha)⟩

/-- A server without a stored analysis is current: the next question analyses the files anew. -/
theorem current_of_latest (h : s.latest = none) : s.Current :=
  ⟨fun _ ha => absurd (h.symm.trans ha) (Option.some_ne_none _).symm⟩

/-- A stored analysis is used as it is. -/
theorem workspace_of_some {a : State} (h : s.latest = some a) : s.workspace = (a, s) := by
  rw [workspace, h]

/-- Without a stored analysis the files are analysed, and the result is stored. -/
theorem workspace_of_none (h : s.latest = none) :
    s.workspace = (analyze s.files, { s with latest := some (analyze s.files) }) := by
  rw [workspace, h]

/-- Looking at the workspace gives an analysis of its files and leaves it behind. -/
theorem Current.workspace_eq (h : s.Current) :
    s.workspace = (analyze s.files, { s with latest := some (analyze s.files) }) := by
  cases hlatest : s.latest with
  | none => exact workspace_of_none hlatest
  | some a =>
    have ha := h.eq a hlatest
    rw [workspace_of_some hlatest, ← ha, ← hlatest]

/-- Publishing stores at most a fresh analysis. -/
theorem Current.publish (h : s.Current) : s.publish.2.Current := by
  rw [publish_server, h.workspace_eq]
  exact ⟨fun _ ha => (Option.some.inj ha).symm⟩

/-- Every event that changes a file also drops the stored analysis, so no event leaves a stale one. -/
theorem Current.handle (h : s.Current) (e : Event) : (s.handle e).2.Current := by
  have hconnected : ({ s with connected := true } : Server).Current := h.congr rfl rfl
  cases e with
  | opened uri version content =>
    rw [Server.handle, opened]
    exact (current_of_latest rfl).publish
  | changed uri version contents =>
    rw [Server.handle, changed]
    dsimp only
    split
    · exact hconnected
    · -- A change gives up the analysis that was kept.
      exact current_of_latest rfl
  | saved uri =>
    rw [Server.handle, saved]
    dsimp only
    split
    · -- Saving publishes what the kept analysis says, or what a new one does.
      exact hconnected.publish
    · exact hconnected
  | closed uri =>
    rw [Server.handle, closed]
    split
    · exact h
    · exact current_of_latest rfl

/-- The run lemma of `Current.handle`. -/
theorem Current.after (h : s.Current) (es : List Event) : (s.after es).Current := by
  induction es generalizing s with
  | nil => exact h
  | cons e es ih => exact ih (h.handle e)

/-! ## Publishing -/

/-- The notices about the open documents tell what a fresh analysis says. -/
theorem Current.publish_fst (h : s.Current) (hconnected : s.connected = true) :
    s.publish.1 = s.documents.all.map fun d => problemNotice d.uri (s.fresh d) := by
  have hpublish : s.publish.1 = s.workspace.2.sent (s.workspace.2.documents.all.map fun d =>
      problemNotice d.uri (s.workspace.2.problems s.workspace.1 d)) := rfl
  have hworkspace : s.workspace.1 = analyze s.files := by rw [h.workspace_eq]
  rw [hpublish, sent, workspace_connected, if_pos hconnected, workspace_documents,
    problems_congr s.workspace_checks, hworkspace]
  rfl

/-- Publishing does not change what a fresh analysis finds. -/
theorem fresh_publish : s.publish.2.fresh = s.fresh :=
  fresh_congr s.workspace_files s.workspace_checks

/-- Notices about documents of different names tell of each one. -/
theorem shown_map_problemNotice {ds : List Document} {d : Document} (problems : Document → List Json)
    (hd : d ∈ ds) (hnames : ∀ e ∈ ds, e.uri = d.uri → e = d) :
    shown (ds.map fun d => problemNotice d.uri (problems d)) d.uri = some (problems d) := by
  rw [shown, ← List.map_reverse, List.findSome?_map]
  generalize hfound : List.findSome? _ _ = found
  cases found with
  | none =>
    have hnone := List.findSome?_eq_none_iff.mp hfound d (List.mem_reverse.mpr hd)
    simp at hnone
  | some ps =>
    obtain ⟨e, he, heq⟩ := List.exists_of_findSome?_eq_some hfound
    obtain ⟨huri, rfl⟩ : e.uri = d.uri ∧ problems e = ps := by simpa using heq
    rw [hnames e (List.mem_reverse.mp he) huri]

/-- What is published of an open document is what a fresh analysis says. -/
theorem Current.shown_publish (h : s.Current) (hconnected : s.connected = true) {d : Document}
    (hd : d ∈ s.documents.all) : shown s.publish.1 d.uri = some (s.publish.2.fresh d) := by
  rw [h.publish_fst hconnected, fresh_publish]
  exact shown_map_problemNotice s.fresh hd fun e he huri => Documents.eq_of_uri he hd huri

/-- Whether the server publishes at an event. -/
def Publishes (s : Server) : Event → Prop
  | .opened .. => True
  | .changed .. => False
  | .saved uri => (s.documents.get? uri).isSome = true
  | .closed _ => False

/-- After an event that publishes, what is shown of an open document is what a fresh analysis of the files
finds. -/
theorem Current.shown_handle (h : s.Current) {e : Event} (hpublishes : s.Publishes e) {d : Document}
    (hd : d ∈ (s.handle e).2.documents.all) :
    shown (s.handle e).1 d.uri = some ((s.handle e).2.fresh d) := by
  cases e with
  | opened uri version content =>
    simp only [Server.handle, opened, publish_server, workspace_documents] at hd ⊢
    exact (current_of_latest rfl).shown_publish rfl hd
  | saved uri =>
    have hopen : (s.documents.get? uri).isSome = true := hpublishes
    simp only [Server.handle, saved, hopen, if_true, publish_server, workspace_documents] at hd ⊢
    have hcurrent : ({ s with connected := true } : Server).Current := h.congr rfl rfl
    exact hcurrent.shown_publish rfl hd
  | changed => exact hpublishes.elim
  | closed => exact hpublishes.elim

/-! ## After the server has published -/

/-- Whether the server says nothing of the documents that stay open, and these stay as they are. -/
def Silent (s : Server) : Event → Prop
  | .opened .. => False
  | .changed uri _ _ => s.documents.get? uri = none
  | .saved uri => s.documents.get? uri = none
  | .closed _ => True

/-- Whether the server is silent at each of the events when it comes. -/
def SilentAll (s : Server) : List Event → Prop
  | [] => True
  | e :: es => s.Silent e ∧ (s.handle e).2.SilentAll es

/-- After a silent event an open document was open before and has no new notice. -/
theorem handle_of_silent {e : Event} (hsilent : s.Silent e) {d : Document}
    (hd : d ∈ (s.handle e).2.documents.all) : d ∈ s.documents.all ∧ shown (s.handle e).1 d.uri = none := by
  cases e with
  | opened => exact hsilent.elim
  | changed uri version contents =>
    have hget : s.documents.get? uri = none := hsilent
    simp only [handle, changed, Documents.change?, hget, Option.map_none] at hd ⊢
    exact ⟨hd, rfl⟩
  | saved uri =>
    have hget : s.documents.get? uri = none := hsilent
    simp only [handle, saved, hget, Option.isSome_none, Bool.false_eq_true, if_false] at hd ⊢
    exact ⟨hd, rfl⟩
  | closed uri =>
    -- closing sends one notice, an empty one about the closed document, and every document left has another
    -- name
    have hother : d ∈ s.documents.all ∧ d.uri ≠ uri := by
      cases hget : s.documents.get? uri with
      | none =>
        simp only [handle, closed, hget] at hd
        refine ⟨hd, ?_⟩
        rintro rfl
        exact Option.some_ne_none _ ((Documents.get?_eq_some.mpr ⟨hd, rfl⟩).symm.trans hget)
      | some e =>
        simp only [handle, closed, hget, Server.lift] at hd
        exact Documents.mem_erase.mp hd
    refine ⟨hother.1, ?_⟩
    have hnotices : (s.handle (.closed uri)).1 = s.sent [problemNotice uri []] := by
      rw [handle, closed]
      split <;> rfl
    rw [hnotices, sent]
    split
    · simp [shown, hother.2.symm]
    · rfl

/-- The run lemma of `handle_of_silent`: along silent events nothing is said of the documents that stay open.
-/
theorem after_of_silentAll {es : List Event} (hsilent : s.SilentAll es) {d : Document}
    (hd : d ∈ (s.after es).documents.all) : d ∈ s.documents.all ∧ shown (s.notices es) d.uri = none := by
  induction es generalizing s with
  | nil => exact ⟨hd, rfl⟩
  | cons e es ih =>
    obtain ⟨hd, hlater⟩ := ih hsilent.2 hd
    obtain ⟨hd, hnow⟩ := handle_of_silent hsilent.1 hd
    exact ⟨hd, by rw [notices, shown_append, hlater, hnow]; rfl⟩

/-- Whether an event is about a document that is not open, and so changes nothing. -/
def Ignores (s : Server) : Event → Prop
  | .opened .. => False
  | .changed uri _ _ => s.documents.get? uri = none
  | .saved uri => s.documents.get? uri = none
  | .closed uri => s.documents.get? uri = none

/-- An ignored event is silent. -/
theorem Ignores.silent {e : Event} (h : s.Ignores e) : s.Silent e := by
  cases e with
  | opened => exact h.elim
  | changed => exact h
  | saved => exact h
  | closed => trivial

/-- An ignored event changes neither the documents nor what a fresh analysis finds. -/
theorem handle_of_ignores {e : Event} (h : s.Ignores e) :
    (s.handle e).2.documents = s.documents ∧ (s.handle e).2.fresh = s.fresh := by
  cases e with
  | opened => exact h.elim
  | changed uri version contents =>
    have hget : s.documents.get? uri = none := h
    simp only [Server.handle, changed, Documents.change?, hget, Option.map_none]
    exact ⟨trivial, fresh_congr rfl rfl⟩
  | saved uri =>
    have hget : s.documents.get? uri = none := h
    simp only [Server.handle, saved, hget, Option.isSome_none, Bool.false_eq_true, if_false]
    exact ⟨trivial, fresh_congr rfl rfl⟩
  | closed uri =>
    have hget : s.documents.get? uri = none := h
    simp only [Server.handle, closed, hget]
    exact ⟨trivial, trivial⟩

/-- Whether an event is ignored depends on the open documents only. -/
theorem Ignores.congr {e : Event} (h : s.Ignores e) (hdocuments : t.documents = s.documents) :
    t.Ignores e := by
  cases e <;> simp only [Ignores, hdocuments] at h ⊢ <;> exact h

/-- The run lemma of `handle_of_ignores`. -/
theorem after_of_ignores {es : List Event} (h : ∀ e ∈ es, s.Ignores e) :
    s.SilentAll es ∧ (s.after es).fresh = s.fresh := by
  induction es generalizing s with
  | nil => exact ⟨trivial, rfl⟩
  | cons e es ih =>
    obtain ⟨he, hes⟩ := List.forall_mem_cons.mp h
    obtain ⟨hdocuments, hfresh⟩ := handle_of_ignores he
    obtain ⟨hsilent, hlater⟩ := ih fun e he => (hes e he).congr hdocuments
    exact ⟨⟨he.silent, hsilent⟩, hlater.trans hfresh⟩

/-! ## Runs -/

variable {disk : Files.Tree} {checks : List Lint.Check} {rootUri rootPath : Option String}
  {es₁ es₂ : List Event} {e : Event}

/-- An open document is shown with the problems of when the server last published. -/
theorem shown_since
    (hpublishes : (((start disk checks).initialized rootUri rootPath).after es₁).Publishes e)
    (hsilent : (((start disk checks).initialized rootUri rootPath).after (es₁ ++ [e])).SilentAll es₂)
    {d : Document}
    (hd : d ∈ (((start disk checks).initialized rootUri rootPath).after (es₁ ++ e :: es₂)).documents.all) :
    shown (((start disk checks).initialized rootUri rootPath).notices (es₁ ++ e :: es₂)) d.uri =
      some ((((start disk checks).initialized rootUri rootPath).after (es₁ ++ [e])).fresh d) := by
  generalize hstart : (start disk checks).initialized rootUri rootPath = s at *
  have hcurrent : (s.after es₁).Current := by
    subst hstart
    exact (current_of_latest rfl).after es₁
  have hpublished : s.after (es₁ ++ [e]) = ((s.after es₁).handle e).2 := after_append s es₁ [e]
  rw [List.append_cons, after_append] at hd
  obtain ⟨hopen, hlater⟩ := after_of_silentAll hsilent hd
  rw [hpublished] at hopen hlater ⊢
  rw [notices_append, notices, shown_append, shown_append, hlater, hcurrent.shown_handle hpublishes hopen]
  rfl

/-- After the events all open documents are shown with the problems of a fresh analysis. -/
def ShowsFresh (s : Server) (es : List Event) : Prop :=
  ∀ d ∈ (s.after es).documents.all, shown (s.notices es) d.uri = some ((s.after es).fresh d)

/-- When the server has published, the open documents are shown with the problems that they have, until
something changes. -/
theorem shown_fresh
    (hpublishes : (((start disk checks).initialized rootUri rootPath).after es₁).Publishes e)
    (hignores : ∀ e' ∈ es₂,
      (((start disk checks).initialized rootUri rootPath).after (es₁ ++ [e])).Ignores e') :
    ((start disk checks).initialized rootUri rootPath).ShowsFresh (es₁ ++ e :: es₂) := by
  intro d hd
  obtain ⟨hsilent, hfresh⟩ := after_of_ignores hignores
  rw [shown_since hpublishes hsilent hd, ← congrFun hfresh d, ← after_append, ← List.append_cons]

/-- Two documents are opened and one of them is saved. -/
theorem shown_fresh_saved :
    let s := (start {} Lint.Check.all).initialized (some "file:///ws") none
    let es : List Event := [.opened "file:///ws/a.ceylon" 1 "B b = B();",
      .opened "file:///ws/b.ceylon" 1 "class B() {}"]
    let saved : Event := .saved "file:///ws/a.ceylon"
    (s.after es).Publishes saved ∧ (s.after (es ++ [saved])).documents.all.length = 2 ∧
    s.ShowsFresh (es ++ [saved]) := by
  intro s es saved
  have hopen : ((s.after es).documents.get? "file:///ws/a.ceylon").isSome = true := by decide
  have hpublishes : (s.after es).Publishes saved := hopen
  have hignores : ∀ e ∈ ([] : List Event), (s.after (es ++ [saved])).Ignores e := fun _ he =>
    absurd he List.not_mem_nil
  exact ⟨hpublishes, by decide, shown_fresh hpublishes hignores⟩

end Server

end Ceylon.Editor
