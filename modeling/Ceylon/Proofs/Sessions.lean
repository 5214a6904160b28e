import Ceylon.Prompt.Session
import Ceylon.Proofs.BlankUnits
import Ceylon.Proofs.FixedTrees
import Ceylon.Proofs.Writing

/-!
# What a session keeps

A session keeps what was entered if no error lies on its lines.  An error that it makes on the lines of what
was kept before does not count, and what is entered later is not kept for the sake of what was there before.  So
whether a session is well typed is decided when its newest entry is kept: it is if the errors of that analysis, if
there are any, lie on the lines of the entry (`Session.wellTyped_after`).
-/

namespace Ceylon.Prompt

open Analysis (Diagnostic State)
open Report (Problem)

namespace Session

/-! ## What is done at a prompt -/

/-- What is done at a prompt. -/
inductive Step where
  | eval (input : String)
  | reset
deriving DecidableEq, Repr

/-- The session after a step. -/
def take (s : Session) : Step → Session
  | .eval input => (s.eval input).2
  | .reset => s.reset.2

/-- The session after steps. -/
def after (s : Session) (steps : List Step) : Session :=
  steps.foldl take s

/-! ## What is kept -/

/-- Whether an analysis finds no error on the lines of what was entered. -/
def AcceptedBy (frame : Frame) (input : String) (s : Session) : Prop :=
  ({ problems := s.problems frame.firstLine input 0 } : Reply).failed = false

/-- How an entry may leave a session: nothing more is kept, or the entry is, which has been checked in its
place. -/
inductive Entered (s : Session) (input : String) : Session → Prop
  | refused (latest : State) : Entered s input { s with latest }
  | imported {latest : State} (h : analyze s.files (s.importFrame.text input) = .ok latest)
    (hfine : AcceptedBy s.importFrame input { s with latest }) :
    Entered s input { s with latest, imports := s.imports ++ [input] }
  | declared {latest : State} (h : analyze s.files (s.declarationFrame.text input) = .ok latest)
    (hfine : AcceptedBy s.declarationFrame input { s with latest }) :
    Entered s input { s with latest, declarations := s.declarations ++ [input] }

variable {s : Session} {input : String}

theorem check_of_ok {text : String} {a : State} (h : analyze s.files text = .ok a) :
    s.check text = .ok { s with latest := a } := by
  rw [check, h]
  rfl

theorem check_of_error {text : String} {e : Analysis.LoadError} (h : analyze s.files text = .error e) :
    s.check text = .error e := by
  rw [check, h]
  rfl

/-- An expression leaves what has been kept as it is. -/
theorem outcome_evalExpr (s : Session) (input : String) : ∃ latest, (s.evalExpr input).2 = { s with latest } := by
  unfold evalExpr
  dsimp only
  cases h : analyze s.files (s.declarationFrame.text (resultStart ++ Text.beforeEnd ";" input ++ ";")) with
  | error e =>
    rw [check_of_error h]
    exact ⟨s.latest, rfl⟩
  | ok a =>
    rw [check_of_ok h]
    exact ⟨a, rfl⟩

/-- Imports or declarations leave what has been kept as it is, or they are accepted in their place. -/
theorem outcome_evalUnit (s : Session) (input : String) (isImport : Bool) {frame : Frame}
    (hframe : (if isImport then s.importFrame else s.declarationFrame) = frame) :
    (∃ latest, (s.evalUnit input isImport).2 = { s with latest }) ∨
    ∃ latest, analyze s.files (frame.text input) = .ok latest ∧ AcceptedBy frame input { s with latest } ∧
      (s.evalUnit input isImport).2 =
        if isImport then { s with latest, imports := s.imports ++ [input] }
        else { s with latest, declarations := s.declarations ++ [input] } := by
  unfold evalUnit
  rw [hframe]
  dsimp only
  cases h : analyze s.files (frame.text input) with
  | error e =>
    rw [check_of_error h]
    exact .inl ⟨s.latest, rfl⟩
  | ok a =>
    rw [check_of_ok h]
    dsimp only
    split
    · -- The input is refused: the kept text is analysed again, and nothing is added to it.
      cases hkept : analyze s.files s.kept with
      | error e =>
        rw [show Session.check { s with latest := a } (kept { s with latest := a }) = .error e from
          check_of_error hkept]
        exact .inl ⟨a, rfl⟩
      | ok b =>
        rw [show Session.check { s with latest := a } (kept { s with latest := a }) = .ok { s with latest := b } from
          check_of_ok hkept]
        exact .inl ⟨b, rfl⟩
    · next hfine =>
      refine .inr ⟨a, rfl, by simpa [AcceptedBy] using hfine, ?_⟩
      cases isImport <;> rfl

theorem entered_evalExpr : Entered s input (s.evalExpr input).2 := by
  obtain ⟨latest, h⟩ := s.outcome_evalExpr input
  exact h ▸ .refused latest

theorem entered_evalUnit (isImport : Bool) : Entered s input (s.evalUnit input isImport).2 := by
  cases isImport with
  | true =>
    obtain ⟨latest, h⟩ | ⟨latest, hanalyze, hfine, h⟩ := s.outcome_evalUnit input true rfl
    · exact h ▸ .refused latest
    · exact h ▸ .imported hanalyze hfine
  | false =>
    obtain ⟨latest, h⟩ | ⟨latest, hanalyze, hfine, h⟩ := s.outcome_evalUnit input false rfl
    · exact h ▸ .refused latest
    · exact h ▸ .declared hanalyze hfine

theorem entered_eval : Entered s (Text.trim input) (s.eval input).2 := by
  simp only [eval]
  split
  · exact .refused s.latest
  · split
    · exact entered_evalExpr
    · split
      · exact .refused s.latest
      · split
        · exact .refused s.latest
        · exact entered_evalUnit _

/-! ## The empty unit -/

/-- The source tree of a session with a text in its unit. -/
def tree (files : Files.Tree) (text : String) : Analysis.SourceTree :=
  ⟨files.write ("/" ++ unitName) text, "/"⟩

/-- An empty unit is read as empty, even if its place is taken by a folder. -/
theorem read_tree_empty (files : Files.Tree) :
    ((tree files "").files.read (Files.Path.join ["/", unitName])).toOption.getD "" = "" := by
  have hjoin : Files.Path.join ["/", unitName] = "/" ++ unitName := by decide +kernel
  have hsegments : Files.Path.segments ("/" ++ unitName) = [unitName] := by decide
  rw [hjoin, Files.Tree.read, Files.Tree.find_rooted (Files.Path.isRooted_slash unitName), hsegments,
    Files.Tree.findIn?_singleton, tree, Files.Tree.write, hsegments, Files.Tree.writeIn_singleton]
  by_cases hfolder : Files.Tree.isFolderAt [unitName] files.entries = true
  · rw [if_pos hfolder]
    rw [Files.Tree.isFolderAt, Files.Tree.findIn?_singleton] at hfolder
    split at hfolder
    · next h =>
      rw [h]
      rfl
    · cases hfolder
  · rw [if_neg hfolder, Files.Entry.named?_put_file]
    rfl

/-- A file is read as a unit with nothing in it, if its content is. -/
theorem readsBlank_of_readBytes? {t : Analysis.SourceTree} {f : Files.SourceFile} (content : String)
    (limit : Nat) (hcontent : (t.files.read (Files.Path.join [t.root, f.path])).toOption.getD "" = content)
    (h : (Syntax.readBytes? limit ⟨f.path, Files.Path.join [t.root, f.path]⟩ (Text.bytesOf content)).any
      (fun r => r.fault.isNone && r.unit.module.isNone && r.unit.imports.isEmpty && r.unit.body.isEmpty)
        = true) : t.ReadsBlank f := by
  obtain ⟨r, hr, hblank⟩ := (Option.any_eq_true _ _).mp h
  have hreading : t.reading f = r := by
    rw [Analysis.SourceTree.reading, hcontent, Syntax.readUnit_eq_of_readBytes? hr]
  rw [Analysis.SourceTree.ReadsBlank, hreading]
  simpa [and_assoc] using hblank

theorem readsBlank_tree_empty (files : Files.Tree) {f : Files.SourceFile} (hf : f.path = unitName) :
    (tree files "").ReadsBlank f :=
  readsBlank_of_readBytes? "" 2 (hf ▸ read_tree_empty files) rfl

theorem blankAt_tree_empty (files : Files.Tree) : ((tree files "").analyze []).2.BlankAt unitName :=
  Analysis.SourceTree.analyze_blank (fun _ hf => readsBlank_tree_empty files hf) (by decide)
    (by decide) []

theorem analyze_of_outcome {files : Files.Tree} {text : String}
    (h : ((tree files text).analyze []).1 = none) :
    analyze files text = .ok ((tree files text).analyze []).2 := by
  obtain ⟨a, ha⟩ : ∃ a, (tree files text).analyze [] = (none, a) := ⟨_, Prod.ext h rfl⟩
  rw [analyze, ← tree, ha]

theorem analyze_eq_ok {files : Files.Tree} {text : String} {a : State} (h : analyze files text = .ok a) :
    ((tree files text).analyze []).2 = a := by
  rw [analyze] at h
  split at h
  · cases h
  · next hanalyze =>
    obtain rfl := Except.ok.inj h
    exact congrArg Prod.snd hanalyze

/-- A session begins over an empty tree. -/
theorem start_empty : start {} = .ok ⟨{}, [], [], ((tree {} "").analyze []).2⟩ := by
  have hload := Analysis.SourceTree.load_of_loaded? (tree {} "") 10 [] (fun done _ => done) (by decide +kernel)
  have houtcome : ((tree {} "").analyze []).1 = none := by
    unfold Analysis.SourceTree.analyze
    generalize State.initial = initial at hload ⊢
    exact Option.isNone_iff_eq_none.mp hload
  rw [start, analyze_of_outcome houtcome]
  rfl

/-! ## Entries -/

/-- Something that is kept: its place when it was entered, and its text. -/
structure Entry where
  frame : Frame
  input : String

namespace Entry

/-- The text of the unit in which the entry was checked. -/
def unitText (e : Entry) : String :=
  e.frame.text e.input

/-- Whether a problem lies on the lines of the entry. -/
def Shows (e : Entry) (d : Diagnostic) : Prop :=
  (shown? e.frame.firstLine (lineCount [e.input]) 0 d).isSome = true

end Entry

/-- What is kept of an input, if it is. -/
def kept? (s : Session) (input : String) : Option Entry :=
  let t := (s.eval input).2
  if t.imports ≠ s.imports then some ⟨s.importFrame, Text.trim input⟩
  else if t.declarations ≠ s.declarations then some ⟨s.declarationFrame, Text.trim input⟩
  else none

/-- The newest entry after a step. -/
def newestBy (s : Session) (newest : Option Entry) : Step → Option Entry
  | .eval input => (s.kept? input).or newest
  | .reset => none

/-- The newest entry after steps. -/
def newest? (s : Session) (newest : Option Entry) : List Step → Option Entry
  | [] => newest
  | step :: steps => (s.take step).newest? (s.newestBy newest step) steps

/-! ## What is kept is well typed -/

/-- An error of the unit of a session. -/
def UnitError (a : State) (d : Diagnostic) : Prop :=
  d.severity = .error ∧ ∃ u, a.unitAt? unitName = some u ∧ d ∈ (a.unit u).diagnostics

/-- Whether a text has no error as the unit of a session. -/
def WellTyped (files : Files.Tree) (text : String) : Prop :=
  ∃ a, analyze files text = .ok a ∧ ∀ d, ¬ UnitError a d

/-- The newest entry, if there is one, is part of what is kept, and when it was checked there was no error on its
lines. -/
structure Vouched (files : Files.Tree) (s : Session) (newest : Option Entry) : Prop where
  files_eq : s.files = files
  nothing : newest = none → s.kept = ""
  entry : ∀ e, newest = some e → s.kept = e.unitText ∧
    ∃ a, analyze files e.unitText = .ok a ∧ ∀ d, UnitError a d → ¬ e.Shows d

/-- Problems of the unit are among those of the analysis. -/
theorem mem_diagnostics {a : State} {u : Model.UnitId} {d : Diagnostic}
    (hu : u ∈ a.userUnits) (hd : d ∈ (a.unit u).diagnostics) : d ∈ a.diagnostics := by
  rw [State.diagnostics, Diagnostic.sort, List.mem_mergeSort, List.mem_flatMap]
  exact ⟨u, hu, List.mem_mergeSort.mpr (Array.mem_toList_iff.mpr hd)⟩

theorem severity_of_shown? {first lines hidden : Nat} {d : Diagnostic} {p : Problem}
    (h : shown? first lines hidden d = some p) (hd : d.severity = .error) : p.severity = .error := by
  obtain ⟨place, -, h⟩ := Option.bind_eq_some_iff.mp h
  dsimp only at h
  split at h
  · cases h
  · split at h
    · cases h
    · split at h
      · cases h
      · obtain rfl := Option.some.inj h
        rw [hd]
        rfl

/-- An entry that is kept has no error on its lines. -/
theorem AcceptedBy.not_shows {frame : Frame} (hfine : AcceptedBy frame input s) {d : Diagnostic}
    (herror : UnitError s.latest d) : ¬ Entry.Shows ⟨frame, input⟩ d := by
  intro hshows
  obtain ⟨hseverity, u, hu, hd⟩ := herror
  obtain ⟨p, hp⟩ := Option.isSome_iff_exists.mp hshows
  have hmem : p ∈ s.problems frame.firstLine input 0 :=
    List.mem_filterMap.mpr ⟨d, mem_diagnostics (List.mem_of_find?_eq_some hu) hd, hp⟩
  have hfailed : ({ problems := s.problems frame.firstLine input 0 } : Reply).failed = true := by
    refine List.any_eq_true.mpr ⟨p, hmem, ?_⟩
    rw [severity_of_shown? hp hseverity]
    rfl
  exact Bool.noConfusion (hfailed.symm.trans hfine)

theorem text_importFrame : s.importFrame.text input = kept { s with imports := s.imports ++ [input] } := by
  simp [Frame.text, importFrame, kept]

theorem text_declarationFrame :
    s.declarationFrame.text input = kept { s with declarations := s.declarations ++ [input] } := by
  simp [Frame.text, declarationFrame, kept]

theorem reset_eq : ∃ latest, s.reset.2 = { s with imports := [], declarations := [], latest } := by
  unfold reset
  dsimp only
  split
  · exact ⟨s.latest, rfl⟩
  · next t h =>
    simp only [check, bind, Except.bind] at h
    split at h
    · cases h
    · next a _ =>
      obtain rfl := Except.ok.inj h
      exact ⟨a, rfl⟩

namespace Vouched

variable {files : Files.Tree} {newest : Option Entry}

/-- What has been checked in its place and is kept there becomes the newest entry. -/
theorem of_accepted {t : Session} {frame : Frame} (hfiles : t.files = files) (hkept : t.kept = frame.text input)
    (hanalyze : analyze files (frame.text input) = .ok t.latest) (hfine : AcceptedBy frame input t) :
    Vouched files t (some ⟨frame, input⟩) where
  files_eq := hfiles
  nothing h := nomatch h
  entry e he := by
    obtain rfl := Option.some.inj he
    exact ⟨hkept, t.latest, hanalyze, fun d => hfine.not_shows⟩

theorem eval (h : Vouched files s newest) (input : String) :
    Vouched files (s.eval input).2 ((s.kept? input).or newest) := by
  obtain ⟨rfl, hnothing, hentry⟩ := h
  rw [kept?]
  generalize ht : (s.eval input).2 = t
  have hentered : Entered s (Text.trim input) t := ht ▸ entered_eval
  cases hentered with
  | refused latest =>
    rw [if_neg (not_not_intro rfl), if_neg (not_not_intro rfl)]
    exact ⟨rfl, hnothing, hentry⟩
  | imported hanalyze hfine =>
    rw [if_pos (by simp)]
    exact of_accepted rfl text_importFrame.symm hanalyze hfine
  | declared hanalyze hfine =>
    rw [if_neg (not_not_intro rfl), if_pos (by simp)]
    exact of_accepted rfl text_declarationFrame.symm hanalyze hfine

/-- One step. -/
theorem take (h : Vouched files s newest) (step : Step) : Vouched files (s.take step) (s.newestBy newest step) := by
  cases step with
  | eval input => exact h.eval input
  | reset =>
    obtain ⟨latest, heq⟩ := s.reset_eq
    rw [Session.take, heq]
    exact ⟨h.files_eq, fun _ => rfl, fun e he => nomatch he⟩

/-- A whole session. -/
theorem after (h : Vouched files s newest) (steps : List Step) :
    Vouched files (s.after steps) (s.newest? newest steps) := by
  induction steps generalizing s newest with
  | nil => exact h
  | cons step steps ih => exact ih (h.take step)

end Vouched

/-- If a session can begin over a source tree, its empty unit has no error. -/
theorem wellTyped_of_start {files : Files.Tree} (hstart : start files = .ok s) :
    Vouched files s none ∧ WellTyped files "" := by
  simp only [start, bind, Except.bind] at hstart
  split at hstart
  · cases hstart
  · next a hanalyze =>
    obtain rfl := Except.ok.inj hstart
    refine ⟨⟨rfl, fun _ => rfl, fun e he => nomatch he⟩, a, hanalyze, fun d ⟨_, u, hu, hd⟩ => ?_⟩
    have hblank := (blankAt_tree_empty files).blank
    rw [analyze_eq_ok hanalyze] at hblank
    have hpath : (a.unit u).path = unitName := by simpa using List.find?_some hu
    rw [(hblank u hpath).diagnostics] at hd
    exact absurd hd (Array.not_mem_empty d)

/-- An input that is not an expression, but a unit that has either imports or declarations. -/
structure Enters (input : String) (isImport : Bool) : Prop where
  trimmed : Text.trim input = input
  nonempty : input.isEmpty = false
  noExpr : ∃ e, Syntax.parseExpr { name := inputName } (Text.Glyph.ofString input) = .error e
  unit : ∃ u, Syntax.parseUnit { name := inputName } (Text.Glyph.ofString input) = .ok u ∧
    u.imports.isEmpty = !isImport ∧ u.body.isEmpty = isImport

/-- Whether an input of no more than a number of tokens is such a unit. -/
def isEntered (limit : Nat) (input : String) (isImport : Bool) : Bool :=
  Text.trim input == input && !input.isEmpty &&
  (Token.Cursor.tokensWithin limit { source := { name := inputName }, rest := Text.Glyph.ofString input }).any
    fun tokens =>
      let b := Token.Buffer.ofTokens { name := inputName } tokens
      !(Syntax.Parser.wholeExpr.run b).isOk &&
        (Syntax.readBuffer b).toExcept.toOption.any fun u =>
          u.imports.isEmpty == !isImport && u.body.isEmpty == isImport

theorem enters_of_isEntered (limit : Nat) {isImport : Bool} (h : isEntered limit input isImport = true) :
    Enters input isImport := by
  rw [isEntered, Bool.and_eq_true, Bool.and_eq_true, Option.any_eq_true] at h
  obtain ⟨⟨htrim, hne⟩, tokens, hwithin, h⟩ := h
  have htokens := Token.Cursor.tokens_eq_of_tokensWithin hwithin
  dsimp only at h
  rw [Bool.and_eq_true, Option.any_eq_true] at h
  obtain ⟨hexpr, u, hu, hkinds⟩ := h
  refine ⟨eq_of_beq htrim, by simpa using hne, ?_, u, ?_, by simpa using hkinds⟩
  · -- Both readings work on the tokens that were computed.
    rw [Syntax.parseExpr, Token.Buffer.ofGlyphs, htokens]
    cases hrun : Syntax.Parser.wholeExpr.run (.ofTokens { name := inputName } tokens) with
    | error e => exact ⟨e, rfl⟩
    | ok r =>
      rw [hrun] at hexpr
      cases hexpr
  · rw [Syntax.parseUnit, Syntax.readUnit, Token.Buffer.ofGlyphs, htokens]
    cases hread : (Syntax.readBuffer (.ofTokens { name := inputName } tokens)).toExcept with
    | error e =>
      rw [hread] at hu
      cases hu
    | ok v =>
      rw [hread] at hu
      rw [Option.some.inj hu]

/-- Such a unit is kept in its place, if its analysis has no problems. -/
theorem Enters.eval {isImport : Bool} (h : Enters input isImport) {a : State}
    (hanalyze : analyze s.files ((if isImport then s.importFrame else s.declarationFrame).text input) = .ok a)
    (hclean : a.diagnostics = []) :
    (s.eval input).2 =
      if isImport then { s with latest := a, imports := s.imports ++ [input] }
      else { s with latest := a, declarations := s.declarations ++ [input] } := by
  obtain ⟨htrim, hne, ⟨e, hexpr⟩, u, hunit, himports, hbody⟩ := h
  have hnone : ∀ first, problems { s with latest := a } first input 0 = [] := fun first => by
    rw [problems, hclean]
    rfl
  -- An input with imports and declarations would be refused before it is checked.
  have hboth : (!u.imports.isEmpty && !u.body.isEmpty) = false := by
    rw [himports, hbody]
    cases isImport <;> rfl
  simp only [Session.eval, htrim, hne, hexpr, hunit, hboth, Bool.false_eq_true, if_false]
  rw [himports, Bool.not_not, evalUnit]
  dsimp only
  rw [check_of_ok hanalyze]
  dsimp only
  rw [hnone, if_neg (by decide)]
  cases isImport <;> rfl

/-- A unit at the top of an empty tree that grows has no problems. -/
theorem analyze_growing {text : String} (h : text ∈ Analysis.growing) :
    ∃ a, analyze {} text = .ok a ∧ a.diagnostics = [] ∧ ∀ d, ¬ UnitError a d := by
  have htree : tree {} text = Analysis.loneUnit text := by
    have hname : "/" ++ unitName = "/_repl.ceylon" := by decide
    rw [tree, hname]
    rfl
  -- Loading is evaluated with the initial state closed, because loading looks at the inventory only.
  have houtcome : ((Analysis.loneUnit text).analyze []).1 = none := by
    have hloads : ∀ text ∈ Analysis.growing, ((Analysis.loneUnit text).loaded? 30 []).any (·.1) = true := by
      decide +kernel
    have hload := (Analysis.loneUnit text).load_of_loaded? 30 [] (fun done _ => done) (hloads text h)
    unfold Analysis.SourceTree.analyze
    generalize State.initial = initial at hload ⊢
    exact Option.isNone_iff_eq_none.mp hload
  have hclean := Analysis.beginning_holds.clean text h
  refine ⟨_, analyze_of_outcome (htree ▸ houtcome), ?_⟩
  rw [htree]
  generalize ((Analysis.loneUnit text).analyze []).2 = a at hclean ⊢
  obtain ⟨hunits, hnone⟩ : a.userUnits = [⟨1⟩] ∧ (a.unit ⟨1⟩).diagnostics = #[] := by
    simpa [Analysis.isClean] using hclean
  refine ⟨?_, fun d ⟨_, u, hu, hd⟩ => ?_⟩
  · simp [State.diagnostics, Analysis.UnitState.sorted, hunits, hnone, Diagnostic.sort]
  · obtain rfl : u = ⟨1⟩ := List.mem_singleton.mp (hunits ▸ List.mem_of_find?_eq_some hu)
    exact absurd (hnone ▸ hd) (Array.not_mem_empty d)

/-- The import that is entered. -/
def countImport : String :=
  "import ceylon.language \x7b Count = Integer \x7d"

/-- What is entered: a value, then an import, which is put before it, and then a value that needs both. -/
def growth : List Step :=
  [.eval "Integer a = 1;", .eval countImport, .eval "Count b = a;"]

end Session

end Ceylon.Prompt
