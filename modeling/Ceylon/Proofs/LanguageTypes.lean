import Ceylon.Proofs.LanguageModule
import Ceylon.Proofs.OptionalTypes
import Ceylon.Proofs.WriteOnce

/-!
# The types of the language module stay

What the language module declares is the same in all states of an analysis (`State.KeepsLanguage`): nothing but
the resolution of its own names could change it, and that has been done at the start.  So `Void`, `Nothing` and
the bottom type always are what optional types need them to be (`State.Reached.standard`).
-/

namespace Ceylon.Analysis

open Model

/-! ## Checks leave declarations alone -/

/-- The declarations are the same in both states. -/
def State.SameDecls (s s' : State) : Prop :=
  s'.graph.decls = s.graph.decls

/-- Keeping every declaration is reflexive and transitive. -/
instance : IsPreorder State State.SameDecls where
  refl _ := rfl
  trans _ _ _ h h' := Eq.trans h' h

theorem checkSteps_sameDecls : CheckSteps State.SameDecls where
  report u n message s := (report_sameNotes u n message s).decl
  tables _ _ _ _ _ _ _ := rfl

/-- Checking the expressions of a unit declares nothing new. -/
theorem checkExpressions_sameDecls (u : UnitId) : Leads State.SameDecls (checkExpressions u) := by
  refine .get_bind fun s => ?_
  simp only
  split
  · exact .pure ()
  · exact .bind (fun s => (logStep_sameNotes u _ _ s).decl) fun _ =>
      .bind (checkSteps_sameDecls.performTask _ _ _ _) fun _ s => (setPhase_sameNotes u _ s).decl

/-! ## The declarations of the language module -/

/-- A state in which the declarations of the language module are what they were at the start. -/
structure State.KeepsLanguage (s : State) : Prop where
  builtins : s.builtins = State.initial.builtins
  bound : (s.unit languageUnit).isBound = true
  settled : s.isSettled languageUnit = true
  size : State.initial.graph.decls.size ≤ s.graph.decls.size
  bare : ∀ d, d.index < State.initial.graph.decls.size →
    (s.graph.decl d).bare = (State.initial.graph.decl d).bare
  typeParams : ∀ d, d.index < State.initial.graph.decls.size →
    (s.graph.decl d).shape.typeParams = (State.initial.graph.decl d).shape.typeParams

namespace State.KeepsLanguage

variable {s s' : State} (h : s.KeepsLanguage)
include h

theorem extend (hext : s.Extends s') (hsettled : s'.isSettled languageUnit = true) : s'.KeepsLanguage where
  builtins := hext.builtins.trans h.builtins
  bound := hext.isBound _ h.bound
  settled := hsettled
  size := h.size.trans hext.size
  bare d hd := (hext.bare d (hd.trans_le h.size)).trans (h.bare d hd)
  typeParams d hd := (hext.typeParams d (hd.trans_le h.size)).trans (h.typeParams d hd)

theorem stay (hstays : s.Stays s') (hsettled : s'.isSettled languageUnit = true) : s'.KeepsLanguage :=
  h.extend hstays.extends hsettled

omit h in
/-- The declarations that there are at the start are those of the language module, but for the bottom type. -/
theorem initial_unit {d : DeclId} (hd : d.index < State.initial.graph.decls.size) {u : UnitId}
    (hu : u ≠ languageUnit) : (State.initial.graph.decl d).unit ≠ some u := by
  have hstandard := State.initial_isStandard
  simp only [isStandard, Bool.and_eq_true, Array.all_eq_true] at hstandard
  have hdecl := hstandard.1.2 d.index hd
  rw [Graph.decl, Array.getD_eq_getD_getElem?, Array.getElem?_eq_getElem hd]
  intro hunit
  rw [Option.getD_some] at hunit
  rw [hunit] at hdecl
  exact hu (by simpa using hdecl)

theorem stay_of_samePhases (hstays : s.Stays s') (hphases : s.SamePhases s') : s'.KeepsLanguage := by
  refine h.stay hstays ?_
  rw [isSettled, hphases.phase, hphases.failure]
  exact h.settled

/-- No declaration of the language module belongs to another unit. -/
theorem unit_ne {d : DeclId} (hd : d.index < State.initial.graph.decls.size) {u : UnitId}
    (hu : u ≠ languageUnit) : (s.graph.decl d).unit ≠ some u := by
  have hbare := congrArg Declaration.unit (h.bare d hd)
  exact fun hunit => initial_unit hd hu (hbare.symm.trans hunit)

/-- Resolving names keeps the language types: the language unit is settled and is not resolved again. -/
theorem resolveNames (hs : s.InOrder) (u : UnitId) : (resolveNames u s).2.KeepsLanguage := by
  by_cases hu : u = languageUnit
  · subst hu
    have hsame : (Analysis.resolveNames languageUnit s).2 = s := State.resolved_of_isSettled h.settled
    rw [hsame]
    exact h
  · -- Resolving another unit changes only declarations of that unit.
    have htouches : Touches u s (Analysis.resolveNames u s).2 := resolved_touches hs.owned u
    have hrefines := resolveNames_refines u s
    have hunit := htouches.unit languageUnit (Ne.symm hu)
    have hdecl : ∀ d, d.index < State.initial.graph.decls.size →
        (Analysis.resolveNames u s).2.graph.decl d = s.graph.decl d :=
      fun d hd => htouches.decl d (h.unit_ne hd hu)
    refine ⟨hrefines.builtins.trans h.builtins, hunit ▸ h.bound, ?_, ?_, fun d hd => ?_, fun d hd => ?_⟩
    · rw [isSettled, hunit]
      exact h.settled
    · exact h.size.trans hrefines.size.ge
    · rw [hdecl d hd]
      exact h.bare d hd
    · rw [hdecl d hd]
      exact h.typeParams d hd

/-- A new unit keeps them: its declarations come behind. -/
theorem addUnit (path : String) (tree : Syntax.CompilationUnit) (p : PackageId) :
    (addUnit path tree p s).2.KeepsLanguage := by
  refine h.stay (addUnit_stays s path tree p) ?_
  have hne : languageUnit.index ≠ s.units.size := (State.valid_of_isBound h.bound).ne
  rw [isSettled, unit_addUnit, if_neg hne]
  exact h.settled

/-- Checking keeps them: it changes no declaration. -/
theorem checkExpressions (u : UnitId) : (checkExpressions u s).2.KeepsLanguage := by
  have hrefines := checkExpressions_refines u s
  have hdecl : ∀ d, (Analysis.checkExpressions u s).2.graph.decl d = s.graph.decl d := fun d => by
    rw [Graph.decl, checkExpressions_sameDecls u s, Graph.decl]
  refine ⟨hrefines.builtins.trans h.builtins, (hrefines.units languageUnit).isBound.trans h.bound,
    isSettled_checkExpressions h.settled, h.size.trans hrefines.size.ge, fun d hd => ?_, fun d hd => ?_⟩
  · rw [hdecl d]
    exact h.bare d hd
  · rw [hdecl d]
    exact h.typeParams d hd

/-- Binding keeps them: what it declares comes behind. -/
theorem bindDeclarations (hs : s.InOrder) {u : UnitId} (hu : u.index < s.units.size) :
    (bindDeclarations u s).2.KeepsLanguage :=
  h.extend (bindDeclarations_extends hs hu h.bound) ((State.onward_run (p := .bind) hu).isSettled h.settled)

section

variable {d : DeclId} (hd : d.index < State.initial.graph.decls.size)
include hd

/-- The shape of a language declaration is the one it starts with, but for types inferred. -/
theorem shape : (s.graph.decl d).shape.bare = (State.initial.graph.decl d).shape.bare :=
  congrArg Declaration.shape (h.bare d hd)

/-- So is what it extends. -/
theorem extended : s.graph.hierarchy.extended d = State.initial.graph.hierarchy.extended d := by
  change (s.graph.decl d).shape.generic.extended = (State.initial.graph.decl d).shape.generic.extended
  rw [← Shape.extended_bare, h.shape hd, Shape.extended_bare]

/-- So is what it satisfies. -/
theorem satisfied : s.graph.hierarchy.satisfied d = State.initial.graph.hierarchy.satisfied d := by
  change (s.graph.decl d).shape.generic.satisfied = (State.initial.graph.decl d).shape.generic.satisfied
  rw [← Shape.satisfied_bare, h.shape hd, Shape.satisfied_bare]

/-- So are its type parameters. -/
theorem params : s.graph.hierarchy.params d = State.initial.graph.hierarchy.params d :=
  h.typeParams d hd

/-- So is whether it is the bottom type. -/
theorem isBottom : s.graph.hierarchy.isBottom d = State.initial.graph.hierarchy.isBottom d := by
  have hshape := h.shape hd
  cases hs : (s.graph.decl d).shape <;> cases hs' : (State.initial.graph.decl d).shape <;>
    simp_all [Graph.hierarchy, Shape.bare]

end

/-- `Void`, `Nothing` and the bottom type are as they were at the start. -/
theorem standard : s.builtins.Standard s.graph.hierarchy := by
  have hstandard := State.initial_isStandard
  simp only [isStandard, Bool.and_eq_true, Bool.not_eq_true', List.isEmpty_iff, List.all_cons, List.all_nil,
    decide_eq_true_eq, Bool.and_true] at hstandard
  obtain ⟨⟨⟨⟨⟨⟨⟨⟨⟨⟨hextended, hsatisfied⟩, htop⟩, hparams⟩, hparams'⟩, hproper⟩, hproper'⟩, hbottom⟩,
    hnothing, hvoid, hbottom'⟩, -⟩, -⟩ := hstandard
  rw [h.builtins]
  refine ⟨?_, (h.satisfied hnothing).trans hsatisfied, ?_, (h.params hnothing).trans hparams,
    (h.params hvoid).trans hparams', (h.isBottom hnothing).trans hproper, (h.isBottom hvoid).trans hproper',
    (h.isBottom hbottom').trans hbottom⟩
  · rw [h.extended hnothing]
    split at hextended
    · next d heq => rw [heq, of_decide_eq_true hextended]
    · cases hextended
  · rw [Hierarchy.supertypes, h.extended hvoid, h.satisfied hvoid]
    exact htop

end State.KeepsLanguage

theorem initial_keepsLanguage : State.initial.KeepsLanguage := by
  have hstandard := State.initial_isStandard
  simp only [State.isStandard, Bool.and_eq_true, decide_eq_true_eq] at hstandard
  refine ⟨rfl, (State.initial_loaded ⟨False, False, id⟩).bound, ?_, le_rfl, fun _ _ => rfl, fun _ _ => rfl⟩
  rw [State.isSettled, hstandard.2]
  exact Bool.or_true _

/-- The run lemma: the language types stay what they are in every state that is reached. -/
theorem State.Reached.keepsLanguage {s : State} (h : s.Reached) : s.KeepsLanguage := by
  induction h with
  | initial => exact initial_keepsLanguage
  | package name _ ih =>
    exact ih.stay_of_samePhases (moduleSteps_stays.packageNamed name _) (moduleSteps_samePhases.packageNamed name _)
  | own m p _ ih =>
    exact ih.stay_of_samePhases (moduleSteps_stays.addPackage m p _) (moduleSteps_samePhases.addPackage m p _)
  | unit path source glyphs p _ ih => exact ih.addUnit path _ p
  | fail u failure _ ih => exact ih.stay (fail_stays u failure _) (isSettled_fail failure ih.settled)
  | bind hu hs ih => exact ih.bindDeclarations hs.inOrder hu
  | module u _ ih =>
    have hstays := moduleSteps_stays.resolveModule
      (modifyUnit_stays u (fun _ => rfl) (fun _ => rfl) fun _ => nofun) (fail_stays u)
    exact ih.stay (hstays _) (isSettled_resolveModule ih.settled)
  | dependencies _ ih =>
    exact ih.stay_of_samePhases (moduleSteps_stays.resolveDependencies _)
      (moduleSteps_samePhases.resolveDependencies _)
  | names u hs ih => exact ih.resolveNames hs.inOrder u
  | check u _ ih => exact ih.checkExpressions u
  | walk stack log trace _ ih => exact { ih with }

/-- In all states of an analysis, `Void`, `Nothing` and the bottom type are what optional types need them to
be. -/
theorem State.Reached.standard {s : State} (h : s.Reached) : s.builtins.Standard s.graph.hierarchy :=
  h.keepsLanguage.standard

end Ceylon.Analysis
