import Ceylon.Proofs.JoinedUnits
import Ceylon.Proofs.JoinedLines
import Ceylon.Proofs.RootFiles

/-!
# The texts that a session keeps

A session keeps texts that are imports, and texts that are declarations, each of which can be read alone
(`Session.keepsChunks_after`).  A text that declares a module is never kept: at the top of the unit it would make the
root of the tree a module, and elsewhere it is an error on its own lines.
-/

namespace Ceylon.Prompt.Session

open Analysis (Diagnostic State SourceTree)
open Text (Glyph)
open Token (Buffer Kind Says wordsAlone)
open Syntax (readParts)
open Syntax.Parser

variable {files : Files.Tree} {text : String} {latest : State}

/-! ## The unit of a session as a file -/

/-- The unit of a session among the files of its tree. -/
def unitFile : Files.SourceFile :=
  ⟨unitName, Files.Path.join ["", unitName]⟩

theorem read_tree (hplace : Files.Tree.isFolderAt [unitName] files.entries = false) (text : String) :
    (tree files text).files.read (Files.Path.join ["/", unitName]) = .ok text := by
  have hjoin : Files.Path.join ["/", unitName] = "/" ++ unitName := by decide +kernel
  have hsegments : Files.Path.segments ("/" ++ unitName) = [unitName] := by decide
  have hfile : Files.Tree.fileAt? [unitName] (tree files text).files.entries = some text := by
    rw [tree, Files.Tree.write, hsegments]
    exact Files.Tree.fileAt?_writeIn_self (by simp) hplace
  rw [hjoin]
  exact Files.Tree.read_of_fileAt? (Files.Path.isRooted_slash unitName) (hsegments ▸ hfile)

theorem unitFile_mem (hplace : Files.Tree.isFolderAt [unitName] files.entries = false) {folder : Files.SourceFolder}
    (hscan : (tree files text).files.scan "/" [] = .ok folder) : unitFile ∈ folder.files := by
  have hsegments : Files.Path.segments ("/" ++ unitName) = [unitName] := by decide
  have hmem : Files.Entry.file unitName text ∈ (tree files text).files.entries := by
    rw [tree, Files.Tree.write, hsegments, Files.Tree.writeIn_singleton, hplace]
    exact Files.Entry.mem_of_named? (Files.Entry.named?_put_file ..)
  have hends : unitName.endsWith Files.extension = true := by decide +kernel
  have hroot : (tree files text).files.find "/" = .ok (.folder "/" (tree files text).files.entries) := by
    have hrooted : Files.Path.isRooted "/" = true := Files.Path.isRooted_slash ""
    rw [Files.Tree.find_rooted hrooted]
    rfl
  rw [Files.Tree.scan, hroot] at hscan
  dsimp only at hscan
  split at hscan
  · cases hscan
  · obtain rfl := Except.ok.inj hscan
    refine (Files.inNameOrder_perm _ _).mem_iff.mpr (List.mem_filterMap.mpr ⟨_, hmem, ?_⟩)
    simp [Files.isExcluded, hends, unitFile]

/-- The unit of a session as a source. -/
def unitSource : Source :=
  ⟨unitName, Files.Path.join ["/", unitName]⟩

theorem reading_unitFile (hplace : Files.Tree.isFolderAt [unitName] files.entries = false) (text : String) :
    (tree files text).reading unitFile = Syntax.readUnit unitSource (Glyph.ofString text) := by
  have hpath : unitFile.path = unitName := by decide +kernel
  have hread := read_tree hplace text
  rw [SourceTree.reading, hpath, show (tree files text).root = "/" from rfl, hread]
  rfl

/-- What has been analyzed declares no module, and is reported if it cannot be read. -/
theorem analyze_reading (hplace : Files.Tree.isFolderAt [unitName] files.entries = false)
    (h : analyze files text = .ok latest) :
    ((readParts (.ofGlyphs unitSource (Glyph.ofString text))).fault = none →
      (readParts (.ofGlyphs unitSource (Glyph.ofString text))).unit.module = none) ∧
    ∀ e, (readParts (.ofGlyphs unitSource (Glyph.ofString text))).fault = some e →
      Analysis.unparsed e ∈ latest.diagnostics := by
  have houtcome : ((tree files text).analyze []).1 = none := by
    rw [analyze, ← tree] at h
    split at h
    · cases h
    · next hanalyze => rw [hanalyze]
  have hlatest := analyze_eq_ok h
  obtain ⟨folder, hscan⟩ := SourceTree.scan_of_analyze houtcome
  have hmem := unitFile_mem hplace hscan
  have hreading := reading_unitFile hplace text
  constructor
  · intro hfault
    -- No file at the root of a tree that loads declares a module.
    have hheading := SourceTree.heading_of_analyze hscan houtcome unitFile hmem
    rw [SourceTree.heading, hreading, Syntax.readUnit, Syntax.readBuffer] at hheading
    dsimp only at hheading
    rw [hfault, Option.isNone_none, if_pos rfl, Analysis.Heading.ofTree] at hheading
    rw [← Syntax.CompilationUnit.module_number]
    simpa using hheading
  · intro e he
    rw [← hlatest]
    exact SourceTree.analyze_reports hscan (hreading ▸ he) hmem houtcome

/-! ## Texts that are entered -/

/-- What was entered, as the tokens that a parser reads. -/
def inputBuffer (input : String) : Buffer :=
  .ofGlyphs { name := inputName } (Glyph.ofString input)

theorem says_input {input : String} (h : (inputBuffer input).final.kind = .eof) :
    Says input.toList (wordsAlone input) :=
  Token.says_alone h

theorem wordsOf_input {input : String} (h : (inputBuffer input).final.kind = .eof) :
    wordsOf (inputBuffer input) = (wordsAlone input).filter (·.1 ≠ .comment) :=
  ((says_input h).buffer { name := inputName }).1

theorem wordsOf_inputs {texts : List String} (h : ∀ t ∈ texts, (inputBuffer t).final.kind = .eof) :
    (texts.map inputBuffer).flatMap wordsOf = (texts.flatMap wordsAlone).filter (·.1 ≠ .comment) := by
  rw [List.flatMap_map, List.filter_flatMap]
  exact List.flatMap_congr fun t ht => wordsOf_input (h t ht)

/-- Texts that consist of imports. -/
def AreImports (texts : List String) : Prop :=
  ∀ t ∈ texts, Chunk atImport importDecl (inputBuffer t)

/-- Texts that consist of declarations. -/
def AreDeclarations (texts : List String) : Prop :=
  ∀ t ∈ texts, Chunk inText stmt (inputBuffer t)

theorem isSome_shown? {d : Diagnostic} {first lines : Nat} {place : Location} (hplace : d.location = some place)
    (hfile : place.file = unitName) (hfirst : first ≤ place.line) (hlast : place.line < first + lines)
    (hcol : 0 < place.col) : (shown? first lines 0 d).isSome = true := by
  have hlines : ¬ (place.line < first || place.line ≥ first + lines) = true := by simp [hfirst, hlast]
  have hhidden : ¬ (place.line - first + 1 = 1 && place.col ≤ ((0 : Nat) : Int)) = true := by simp; omega
  rw [shown?, hplace]
  simp only [Option.bind_eq_bind, Option.bind_some]
  rw [if_neg (not_not.mpr hfile), if_neg hlines, if_neg hhidden]
  rfl

/-- What is accepted has no error on its lines. -/
theorem AcceptedBy.severity {s : Session} {frame : Frame} {input : String} (hfine : AcceptedBy frame input s)
    {d : Diagnostic} (hd : d ∈ s.latest.diagnostics) {place : Location} (hplace : d.location = some place)
    (hfile : place.file = unitName) (hcol : 0 < place.col) (hfirst : frame.firstLine ≤ place.line)
    (hlast : place.line < frame.firstLine + lineCount [input]) : d.severity ≠ .error := by
  intro herror
  obtain ⟨p, hp⟩ := Option.isSome_iff_exists.mp (isSome_shown? hplace hfile hfirst hlast hcol)
  have hfailed : ({ problems := s.problems frame.firstLine input 0 } : Reply).failed = true :=
    List.any_eq_true.mpr ⟨p, List.mem_filterMap.mpr ⟨d, hd, hp⟩, by rw [severity_of_shown? hp herror]; rfl⟩
  exact Bool.noConfusion (hfailed.symm.trans hfine)

/-- What is kept declares no module. -/
theorem module_of_accepted {s : Session} (hplace : Files.Tree.isFolderAt [unitName] s.files.entries = false)
    {is ds es : List String} (his : AreImports is) (hds : AreDeclarations ds) (hes : AreDeclarations es)
    {input : String} (hinput : (readParts (inputBuffer input)).fault = none)
    (h : analyze s.files (Frame.text ⟨is ++ ds, es⟩ input) = .ok latest)
    (hfine : AcceptedBy ⟨is ++ ds, es⟩ input { s with latest }) :
    (readParts (inputBuffer input)).unit.module = none := by
  by_contra hmodule
  have hmodule := Option.isSome_iff_ne_none.mpr hmodule
  have hfinal : (inputBuffer input).final.kind = .eof := final_of_readParts hinput
  have hischunks : ∀ b ∈ is.map inputBuffer, Chunk atImport importDecl b := List.forall_mem_map.mpr his
  have hdschunks : ∀ b ∈ ds.map inputBuffer, Chunk inText stmt b := List.forall_mem_map.mpr hds
  have heschunks : ∀ b ∈ es.map inputBuffer, Chunk inText stmt b := List.forall_mem_map.mpr hes
  have hbefore : ∀ t ∈ is ++ ds, Says t.toList (wordsAlone t) := fun t ht =>
    says_input ((List.mem_append.mp ht).elim (fun ht => (his t ht).final) fun ht => (hds t ht).final)
  obtain ⟨hend, ts, us, vs, hahead, hts, hus, hvs, hlines⟩ := Frame.tokens_text (f := ⟨is ++ ds, es⟩) unitSource hbefore
    (says_input hfinal) fun t ht => says_input (hes t ht).final
  obtain ⟨hheaded, hreported⟩ := analyze_reading hplace h
  have hsource : (Buffer.ofGlyphs unitSource (Glyph.ofString (Frame.text ⟨is ++ ds, es⟩ input))).source =
      unitSource := rfl
  generalize Buffer.ofGlyphs unitSource (Glyph.ofString (Frame.text ⟨is ++ ds, es⟩ input)) = c at *
  rw [← wordsOf_input hfinal] at hus
  rw [← wordsOf_inputs fun t ht => (hes t ht).final] at hvs
  rw [List.flatMap_append, List.filter_append, ← wordsOf_inputs fun t ht => (his t ht).final,
    ← wordsOf_inputs fun t ht => (hds t ht).final] at hts
  have hwords : wordsOf c = ts.map Token.word ++ (us.map Token.word ++ vs.map Token.word) := by
    rw [wordsOf, hahead, List.map_append, List.map_append]
  by_cases hne : ts = []
  · -- At the top, the unit declares the module.
    rw [hne, List.map_nil, List.nil_append, hus, hvs] at hwords
    obtain ⟨hfault, hdeclared⟩ := readParts_headed hinput hmodule (Buffer.ofGlyphs_spec _ _).1
      (Buffer.ofGlyphs_inner _ _) heschunks hend hwords
    rw [hheaded hfault] at hdeclared
    cases hdeclared
  · -- Elsewhere the module is an error on the lines of what was entered.
    obtain ⟨b₁, _, _, hheader, -⟩ := readParts_ok hinput
    obtain ⟨m, hm⟩ := Option.isSome_iff_exists.mp hmodule
    rw [hm] at hheader
    have hkind := (moduleHeader_some hheader).1
    obtain ⟨t, rest, hrest⟩ : ∃ t rest, (inputBuffer input).ahead = t :: rest := by
      refine List.exists_cons_of_ne_nil fun hnone => ?_
      rw [peek_of_wordsOf_nil (by rw [wordsOf, hnone, List.map_nil]), hfinal] at hkind
      cases hkind
    rw [Buffer.peek, Buffer.peekAt, hrest] at hkind
    rw [wordsOf, hrest, List.map_cons] at hus
    obtain ⟨u, us, rfl, hu, -⟩ := List.map_eq_cons_iff.mp hus
    have hkind : u.kind = .kwModule := (congrArg Prod.fst hu).trans hkind
    have hcount : (is.map inputBuffer |>.flatMap wordsOf) ++ (ds.map inputBuffer).flatMap wordsOf =
        ts.map Token.word := hts.symm
    have hforeign : wordsOf c = (is.map inputBuffer).flatMap wordsOf ++ (ds.map inputBuffer).flatMap wordsOf ++
        (.kwModule, u.text) :: (us.map Token.word ++ vs.map Token.word) := by
      rw [hcount, hwords, List.map_cons, ← hkind]
      rfl
    obtain ⟨fault, hfault⟩ := readParts_foreign hischunks hdschunks
      (by rw [hcount]; simpa using hne) hend hforeign
    have hat : c.peekAt ts.length = u := by
      rw [Buffer.peekAt, hahead, List.getElem?_append_right (Nat.le_refl _), Nat.sub_self]
      rfl
    rw [hcount, List.length_map, hat, hsource] at hfault
    obtain ⟨hfirst, hlast, hcol⟩ := hlines u List.mem_cons_self
    exact hfine.severity (d := Analysis.unparsed _) (hreported _ hfault) rfl rfl
      (Int.ofNat_lt.mpr hcol) (Int.ofNat_le.mpr hfirst) (Int.ofNat_lt.mpr hlast) rfl

/-! ## What is kept -/

/-- What a session has kept: imports, and declarations, in texts that can be read alone. -/
def KeepsChunks (s : Session) : Prop :=
  AreImports s.imports ∧ AreDeclarations s.declarations

variable {s : Session} {input : String}

theorem keepsChunks_evalUnit (hplace : Files.Tree.isFolderAt [unitName] s.files.entries = false) (h : s.KeepsChunks)
    (hfault : (readParts (inputBuffer input)).fault = none) {isImport : Bool}
    (hapart : if isImport then (readParts (inputBuffer input)).unit.body = []
      else (readParts (inputBuffer input)).unit.imports = []) :
    (s.evalUnit input isImport).2.KeepsChunks := by
  have hnone : AreDeclarations [] := fun t ht => absurd ht List.not_mem_nil
  have hone {P : String → Prop} {ts : List String} (hts : ∀ t ∈ ts, P t) (ht : P input) : ∀ t ∈ ts ++ [input], P t := by
    simpa [or_imp, forall_and] using And.intro hts ht
  cases isImport with
  | true =>
    have hframe : s.importFrame = ⟨s.imports ++ [], s.declarations⟩ := by rw [List.append_nil, importFrame]
    obtain ⟨latest, ht⟩ | ⟨latest, hanalyze, hfine, ht⟩ := s.outcome_evalUnit input true hframe
    · exact ht ▸ h
    · -- An input that was accepted declares no module, so what it reads to are imports or declarations alone.
      have hmodule := module_of_accepted hplace h.1 hnone h.2 hfault hanalyze hfine
      exact ht ▸ ⟨hone h.1 ((readParts_chunks hfault hmodule).1 hapart), h.2⟩
  | false =>
    obtain ⟨latest, ht⟩ | ⟨latest, hanalyze, hfine, ht⟩ := s.outcome_evalUnit input false rfl
    · exact ht ▸ h
    · have hmodule := module_of_accepted hplace h.1 h.2 hnone hfault hanalyze hfine
      exact ht ▸ ⟨h.1, hone h.2 ((readParts_chunks hfault hmodule).2 hapart)⟩

theorem readParts_of_parseUnit {source : Source} {gs : List Glyph} {u : Syntax.CompilationUnit}
    (h : Syntax.parseUnit source gs = .ok u) :
    (readParts (.ofGlyphs source gs)).fault = none ∧ u = (readParts (.ofGlyphs source gs)).unit.number := by
  rw [Syntax.parseUnit, Syntax.Reading.toExcept] at h
  split at h
  · next hfault => exact ⟨hfault, (Except.ok.inj h).symm⟩
  · cases h

theorem keepsChunks_eval (hplace : Files.Tree.isFolderAt [unitName] s.files.entries = false) (h : s.KeepsChunks) :
    (s.eval input).2.KeepsChunks := by
  simp only [eval]
  generalize Text.trim input = input
  split
  · exact h
  · split
    · obtain ⟨latest, heq⟩ := s.outcome_evalExpr input
      exact heq ▸ h
    · split
      · exact h
      · next unit hunit =>
        obtain ⟨hfault, rfl⟩ := readParts_of_parseUnit hunit
        split
        · exact h
        · next hapart =>
          -- An input is kept only if it has imports alone or declarations alone.
          refine keepsChunks_evalUnit hplace h hfault ?_
          rw [Bool.and_eq_true, Bool.not_eq_true', Bool.not_eq_true', List.isEmpty_eq_false_iff,
            List.isEmpty_eq_false_iff, not_and, Classical.not_not] at hapart
          split
          · next himports =>
            rw [Bool.not_eq_true', List.isEmpty_eq_false_iff] at himports
            exact (Syntax.CompilationUnit.body_number _).mp (hapart himports)
          · next himports =>
            rw [Bool.not_eq_true', List.isEmpty_eq_false_iff, Classical.not_not] at himports
            exact (Syntax.CompilationUnit.imports_number _).mp himports

theorem keepsChunks_take (hplace : Files.Tree.isFolderAt [unitName] s.files.entries = false) (h : s.KeepsChunks)
    (step : Step) : (s.take step).files = s.files ∧ (s.take step).KeepsChunks := by
  cases step with
  | eval input =>
    have hentered : Entered s (Text.trim input) (s.eval input).2 := entered_eval
    have hkeeps : (s.eval input).2.KeepsChunks := keepsChunks_eval hplace h
    rw [take]
    generalize (s.eval input).2 = t at hentered hkeeps ⊢
    refine ⟨?_, hkeeps⟩
    cases hentered <;> rfl
  | reset =>
    obtain ⟨latest, heq⟩ := s.reset_eq
    rw [take, heq]
    exact ⟨rfl, fun t ht => absurd ht List.not_mem_nil, fun t ht => absurd ht List.not_mem_nil⟩

theorem keepsChunks_after (hplace : Files.Tree.isFolderAt [unitName] s.files.entries = false) (h : s.KeepsChunks)
    (steps : List Step) : (s.after steps).KeepsChunks := by
  induction steps generalizing s with
  | nil => exact h
  | cons step steps ih =>
    obtain ⟨hfiles, hkeeps⟩ := keepsChunks_take hplace h step
    exact ih (hfiles ▸ hplace) hkeeps

end Ceylon.Prompt.Session
