import Ceylon.Proofs.LanguageModule
import Ceylon.Proofs.Phases
import Ceylon.Proofs.ResolvedUnits

/-!
# What analyzing units finds

An analysis resolves the names of one unit after the other, and then checks the expressions of one unit after the
other.  When the names have been resolved, either a problem has been found, or all units can be checked and all
that is declared gets its type (`State.Named.ready`).  From then on what the units, declarations and type
references are stays fixed, and each unit that is checked leaves types that are right and nothing undone
(`State.Examined`).  So at the end of an analysis this is so for all units of the program
(`SourceTree.analyze_examined`), unless problems are not tolerated and one has been found.
-/

namespace Ceylon.Analysis

open Model Syntax

/-! ## Roots of units -/

/-- The root of each bound unit of the program stands in the scope of its package. -/
def State.RootsStand (s : State) : Prop :=
  ∀ u, u ≠ languageUnit → (s.unit u).isBound = true →
    s.Stands u [.package (s.unit u).package] (.unit (s.unit u).tree)

namespace State.RootsStand

variable {s s' : State}

theorem of_sameLayout (hs : s.RootsStand) (h : s.SameLayout s') : s'.RootsStand := by
  intro u hu hbound
  rw [h.isBound] at hbound
  rw [h.package, h.tree]
  exact h.stands (hs u hu hbound)

theorem advances (hs : s.RootsStand) (h : s.Advances s') : s'.RootsStand :=
  hs.of_sameLayout h.sameLayout

theorem addUnit (hs : s.RootsStand) (path : String) (tree : CompilationUnit) (package : PackageId) :
    (addUnit path tree package s).2.RootsStand := by
  intro u hu hbound
  have hsame := isBound_addUnit s path tree package hbound
  rw [hsame] at hbound ⊢
  exact hs u hu hbound

theorem bindDeclarations (hs : s.RootsStand) (horder : s.InOrder) {u : UnitId} (hu : u.index < s.units.size) :
    (bindDeclarations u s).2.RootsStand := by
  cases hnew : s.isUnbound u with
  | false =>
    rw [bindDeclarations_of_not_isUnbound hnew]
    exact hs
  | true =>
    have hunbound : (s.unit u).isBound = false := by
      by_contra hbound
      rw [Bool.not_eq_false] at hbound
      simp [State.isUnbound, horder.phases u hbound] at hnew
    have hgrows := s.scripted_grows u
    obtain ⟨hsituated, -⟩ :=
      scripted_runs horder.layout hu hunbound (fun _ => True) (fun _ _ _ _ _ _ => trivial) trivial
    rw [bindDeclarations_of_isUnbound hnew]
    -- Coming to its phase, the unit stays what it is otherwise.
    have hlayout : (s.scripted u).SameLayout { s.scripted u with
        units := (s.scripted u).units.modify u.index fun unit => { unit with phase := .bound } } :=
      .modifyUnit _ u (fun _ => rfl) (fun _ => rfl) fun _ => rfl
    intro v hv hbound
    rw [hlayout.package, hlayout.tree]
    rw [hlayout.isBound] at hbound
    refine hlayout.stands ?_
    by_cases hvu : v = u
    · subst hvu
      rw [hgrows.package, package_begun, (hgrows.unit_eq v).1, tree_begun hu]
      exact hsituated.1
    · rw [(hgrows.unit_eq v).2, unit_begun hu, if_neg (Ne.symm hvu)] at hbound
      rw [hgrows.package, package_begun, (hgrows.unit_eq v).1, tree_begun hu]
      exact (hgrows.scopes _ fun heq => absurd heq hvu).trans (hs v hv hbound)

end State.RootsStand

theorem State.Reached.rootsStand {s : State} (h : s.Reached) : s.RootsStand := by
  induction h with
  | initial =>
    intro u hu hbound
    rw [unit_of_isStocked initial_isStocked hu] at hbound
    cases hbound
  | package name _ ih => exact ih.advances (packageNamed_advances name _)
  | own m p _ ih => exact ih.advances (addPackage_advances m p _)
  | unit path source glyphs p _ ih => exact ih.addUnit path _ p
  | fail u failure _ ih => exact ih.advances (fail_refines u failure _).toAdvances
  | bind hu hs ih => exact ih.bindDeclarations hs.inOrder hu
  | module u _ ih => exact ih.advances (resolveModule_advances u _)
  | dependencies _ ih => exact ih.advances (resolveDependencies_advances _)
  | names u _ ih => exact ih.advances (resolveNames_refines u _).toAdvances
  | check u _ ih => exact ih.advances (checkExpressions_refines u _).toAdvances
  | walk stack log trace _ ih =>
    exact ih.advances ⟨⟨rfl, rfl, rfl, fun _ => rfl, rfl, rfl⟩, rfl, fun u => .refl _⟩

/-! ## The turn from names to expressions -/

/-- Where nothing but the language module has been checked, nothing wrong has been found out. -/
theorem State.Unchecked.sound {s : State} {ℓ ℓ' : Leeway} (hs : s.Unchecked ℓ)
    (hle : (s.around ℓ []).Le (s.around ℓ' []))
    (root : NodeId) : s.Sound s.facts ℓ' root [] where
  facts := rfl
  exprs k t ht := ((hs.exprs k t ht).mono hle).mono
    (s.facts.around_le_outlook _ fun _ hb => absurd hb List.not_mem_nil)
  inferred k t ht := by
    rw [hs.inferred k] at ht
    cases ht
  done u task hu _ hbegun _ := absurd (hs.checked _ hbegun) hu
  nodup := List.nodup_nil
  begun := List.forall_mem_nil _
  listed := List.forall_mem_nil _
  inferring _ _ _ _ hmem := absurd hmem List.not_mem_nil

/-- Types may be unknown in part and missing, or neither. -/
def Leeway.of (lax : Prop) : Leeway :=
  ⟨lax, lax, id⟩

/-- What is tolerated while a state is checked.  Types may also be missing if there is a declaration that does not
get a type; a setter without a getter is one that is reported only when it is checked. -/
def State.leeway (f : State) (lax : Prop) : Leeway where
  lax := lax
  blank := lax ∨ ∃ d, d.index < f.graph.decls.size ∧ (f.graph.decl d).shape.isTyped = true ∧ ¬ f.GetsType d
  blank_of_lax := .inl

theorem State.around_leeway (s f : State) (lax : Prop) (c : ScopeChain) :
    (s.around (.of lax) c).Le (s.around (f.leeway lax) c) :=
  s.horizon_le lax fun _ => id

theorem State.isReady_facts (s : State) (u : UnitId) : s.facts.isReady u = s.isReady u := by
  have hphase : ∀ p : Phase, (if p.atLeast .namesResolved then Phase.namesResolved else p).atLeast .namesResolved =
      p.atLeast .namesResolved := by
    intro p
    split
    · next h => exact h.symm
    · rfl
  simp only [isReady, unit_facts, UnitState.facts, hphase]

theorem State.Formed.facts {s f : State} {lax : Prop} (hs : s.Formed (.of lax)) : s.facts.Formed (f.leeway lax) where
  builtins := hs.builtins.mono (s.around_leeway f lax [])
  supertypes d hd st hst := (hs.supertypes d hd st hst).mono (s.around_leeway f lax _)
  declared d hd hknown := (hs.declared d hd hknown).mono (s.around_leeway f lax _)
  plain := hs.plain
  imports u i hi := hs.imports u i (congrArg (·.imports) (s.unit_facts u) ▸ hi)
  refs k t ht := (hs.refs k t ht).mono (s.around_leeway f lax _)

theorem State.inference?_of_isInference {f : State} {d : DeclId} {u : UnitId} {task : Task}
    (hunit : (f.graph.decl d).unit = some u) (hnode : (f.graph.decl d).node = some task.node)
    (hinference : task.isInference = true) (hready : f.isReady u = true) : f.inference? d = some (u, task) := by
  cases task with
  | method | «attribute» | getter => simp [inference?, hunit, hnode, hready, Task.node]
  | _ => cases hinference

section

variable {s : State} {lax : Prop} (hs : s.Named (.of lax) (· ∈ s.userUnits))
include hs

/-- If no problem has been found, then all units of the program can be checked. -/
theorem State.Named.isReady (clean : ¬ s.HasFindings) {u : UnitId} (hu : u ∈ s.userUnits) : s.isReady u = true := by
  obtain ⟨hne, hvalid⟩ := State.mem_userUnits.mp hu
  have hfine : (s.unit u).failure.isSome = false := by
    by_contra hfailed
    exact clean ⟨u, hne, hs.accounted.failed u (Bool.not_eq_false _ ▸ hfailed)⟩
  have hbound := ((hs.accounted.bound u hvalid).resolve_left id).resolve_right (by simp [hfine])
  have hsettled := hs.done u hu
  rw [State.isSettled, hfine, Bool.false_or] at hsettled
  exact State.isReady_iff.mpr ⟨hbound, by simpa using hfine, hsettled⟩

/-- If no problem has been found, then what has a type gets it, unless it is a setter without a getter. -/
theorem State.Named.getsType (strict : ¬ lax) (clean : ¬ s.HasFindings) {d : DeclId}
    (hd : d.index < s.graph.decls.size) (htyped : (s.graph.decl d).shape.isTyped = true) :
    s.facts.GetsType d ∨ ∃ u setter t, u ≠ languageUnit ∧ (s.graph.decl d).unit = some u ∧
      (s.graph.decl d).node = some (.stmt (.setter setter)) ∧ (s.graph.decl d).shape = .setter t none := by
  obtain ⟨u, hunit⟩ := hs.rooted d hd htyped
  by_cases hu : u = languageUnit
  · exact .inl (.declared (hs.language d (hu ▸ hunit) htyped))
  obtain ⟨n, hnode, hhas, hlisted, hkind⟩ := hs.order.layout.grounded.origins d hd u hunit
  have hready := hs.isReady clean (State.mem_userUnits.mpr ⟨hu, State.valid_of_isBound hhas.1⟩)
  -- What a declaration gets its type from depends on the node that declares it: what is written is settled by
  -- resolving names, what is left out by the task that infers it.
  have hsettles := hs.settled u hu hready n hhas
  have declared : (s.naming (.of lax)).declared ⟨u, n.mark.id⟩ → s.facts.GetsType d := fun h =>
    .declared (h.resolve_left strict d hlisted htyped)
  have inferred : ∀ task : Task, task.node = n → task.isInference = true → s.facts.GetsType d :=
    fun task htask hinference => .byTask
      (State.inference?_of_isInference hunit (htask ▸ hnode) hinference ((s.isReady_facts u).trans hready)) hinference
  cases n with
  | «variable» v =>
    cases hv : v.type.isInferred with
    | false => exact .inl (declared (hsettles hv))
    | true => exact .inl (.byClause hunit hnode hv)
  | parameter p => exact .inl (declared hsettles)
  | stmt n =>
    cases n with
    | method m =>
      cases hm : m.type.isInferred with
      | false => exact .inl (declared (hsettles hm))
      | true => exact .inl (inferred (.method m) rfl hm)
    | «attribute» a =>
      cases ha : a.type.isInferred with
      | false => exact .inl (declared (hsettles ha))
      | true => exact .inl (inferred (.attribute a) rfl ha)
    | getter g =>
      cases hg : g.type.isInferred with
      | false => exact .inl (declared (hsettles hg))
      | true => exact .inl (inferred (.getter g) rfl hg)
    | setter setter =>
      cases hshape : (s.graph.decl d).shape with
      | setter t g =>
        cases g with
        | some g => exact .inl (.ofGetter hshape)
        | none => exact .inr ⟨u, setter, t, hu, hunit, hnode, rfl⟩
      | _ => simp [hshape, Node.declKind, Shape.kind] at hkind
    | _ => cases hshape : (s.graph.decl d).shape <;> simp_all [Node.declKind, Shape.kind, Shape.isTyped, Shape.isType]
  | _ => cases hshape : (s.graph.decl d).shape <;> simp_all [Node.declKind, Shape.kind, Shape.isTyped, Shape.isType]

/-- Expressions can be checked when all names of the program have been resolved. -/
theorem State.Named.ready (clean : lax ∨ ¬ s.HasFindings) : s.facts.Ready (s.facts.leeway lax) where
  toFormed := hs.toFormed.facts
  layout := s.sameLayout_facts.layout hs.order.layout
  resolved u hu t ht := by
    rcases clean with hlax | clean
    · exact .inl (.inl hlax)
    · have hhas := (s.sameLayout_facts.hasNode_iff u _).mp ht
      have hready := hs.isReady clean (State.mem_userUnits.mpr ⟨hu, State.valid_of_isBound hhas.1⟩)
      exact .inr (hs.settled u hu hready _ hhas)
  gets d hd htyped := by
    by_cases h : s.facts.GetsType d
    · exact .inr h
    · exact .inl (.inr ⟨d, hd, htyped, h⟩)
  language := hs.language

/-- Nothing but the language module has been checked then. -/
theorem State.Named.sound (root : NodeId) : s.Sound s.facts (s.facts.leeway lax) root [] :=
  hs.toUnchecked.sound (s.around_leeway s.facts lax []) root

end

/-! ## Checking one unit after the other -/

/-- Units of the program are checked in a state of which all facts are known: those that are done have been checked,
and the others wait for it, unless they have failed. -/
structure State.Examined (s f : State) (lax : Prop) (done : UnitId → Prop) : Prop where
  ready : f.Ready (f.leeway lax)
  roots : f.RootsStand
  accounted : s.Accounted fun _ => False
  sound : ∀ root, s.Sound f (f.leeway lax) root []
  waiting : ∀ u ∈ s.userUnits, ¬ done u → (s.unit u).failure = none → (s.unit u).phase = .namesResolved
  done : ∀ u, done u → (s.unit u).failure = none → s.progress.begun ⟨u, (s.unit u).tree.mark.id⟩
  /-- What has a type has been declared in a unit. -/
  rooted : ∀ d, d.index < f.graph.decls.size → (f.graph.decl d).shape.isTyped = true →
    ∃ u, (f.graph.decl d).unit = some u
  gets : ¬ lax → ∀ d, d.index < f.graph.decls.size → (f.graph.decl d).shape.isTyped = true →
    f.GetsType d ∨ ∃ u setter t, u ≠ languageUnit ∧ (f.graph.decl d).unit = some u ∧
      (f.graph.decl d).node = some (.stmt (.setter setter)) ∧ (f.graph.decl d).shape = .setter t none

theorem State.Sound.reroot {s f : State} {ℓ : Leeway} {root : NodeId} (hs : s.Sound f ℓ root []) (root' : NodeId) :
    s.Sound f ℓ root' [] :=
  { hs with listed := List.forall_mem_nil _ }

/-- That a unit comes to its last phase is no fact that checking depends on. -/
theorem facts_setPhase {s : State} {u : UnitId} (hphase : (s.unit u).phase = .namesResolved) :
    (setPhase u .checked s).2.facts = s.facts := by
  have hunits : (s.units.modify u.index fun unit => { unit with phase := .checked }).map UnitState.facts =
      s.units.map UnitState.facts := by
    refine Array.ext (by simp) fun i _ hi => ?_
    simp only [Array.getElem_map, Array.getElem_modify]
    split
    · next h =>
      subst h
      have hi : u.index < s.units.size := by simpa using hi
      rw [State.unit, Array.getD_eq_getD_getElem?, Array.getElem?_eq_getElem hi] at hphase
      have hphase : s.units[u.index].phase = .namesResolved := hphase
      simp [UnitState.facts, hphase, Phase.atLeast, Phase.rank]
    · rfl
  change ({ s with units := s.units.modify u.index _ } : State).facts = _
  simp only [State.facts, hunits]

section

variable {s : State} {u : UnitId}

/-- The root of a unit is reached. -/
theorem State.RootsStand.reaches (hs : s.facts.RootsStand) (hu : u ≠ languageUnit) (hbound : (s.unit u).isBound = true)
    {given : NodeId → Prop} : s.facts.Reaches given u (Task.unit (s.unit u).tree).node := by
  have hhas := (s.sameLayout_facts.hasNode_iff u _).mpr ⟨hbound, Node.mem_all (.unit (s.unit u).tree)⟩
  refine ⟨hu, hhas, fun c hc b hb => ?_⟩
  -- The root of the unit stands in no body.
  have hstands := hs u hu hhas.1
  rw [s.sameLayout_facts.tree u] at hstands
  obtain rfl : c = [.package (s.facts.unit u).package] := Option.some.inj (hc.symm.trans hstands)
  simp at hb

variable (hfine : (s.unit u).failure = none) (hphase : (s.unit u).phase = .namesResolved)
include hfine hphase

/-- Checking a unit that waits for it. -/
theorem checkExpressions_of_waiting : (checkExpressions u s).2 = (setPhase u .checked
    (Checking.performTask s.facts (s.decls.size + 2) u (.unit (s.unit u).tree)
      (logStep u .checked "checking expressions" s).2).2).2 := by
  rw [checkExpressions, get_bind_apply]
  simp only [hfine, hphase, Option.isSome_none, Bool.false_eq_true, ne_eq, not_true_eq_false, decide_false,
    Bool.or_self, if_false]
  rfl

/-- Checking a unit of the program that waits for it leads to a spoiled state, or to one in which what has been found
out is right and the unit is done. -/
theorem checkExpressions_ends {ℓ : Leeway} (hf : s.facts.Ready ℓ) (hroots : s.facts.RootsStand)
    (hs : ∀ root, s.Sound s.facts ℓ root []) (hu : u ≠ languageUnit) (hbound : (s.unit u).isBound = true) :
    (checkExpressions u s).2.Spoiled ℓ ∨ (∀ root, (checkExpressions u s).2.Sound s.facts ℓ root []) ∧
      s.progress.Le (checkExpressions u s).2.progress ∧
      (checkExpressions u s).2.progress.begun ⟨u, (s.unit u).tree.mark.id⟩ := by
  let logged := (logStep u .checked "checking expressions" s).2
  let checked := (Checking.performTask s.facts (s.decls.size + 2) u (.unit (s.unit u).tree) logged).2
  rw [checkExpressions_of_waiting hfine hphase]
  change (setPhase u .checked checked).2.Spoiled ℓ ∨ _
  have hlogged : logged.Sound s.facts ℓ ⟨u, (s.unit u).tree.mark.id⟩ [] :=
    (hs _).grow rfl (.refl _) rfl rfl (fun _ _ => .inl) fun _ _ => .inl
  have hphases := trans_of State.SamePhases (logStep_samePhases (u := u) .checked "checking expressions" s)
    (checkSteps_samePhases.performTask s.facts (s.decls.size + 2) u (.unit (s.unit u).tree) logged)
  -- Checking the unit is the task of its root, with more fuel than there are tasks to begin.
  rcases performTask_ends hf (s.decls.size + 2) hu hlogged le_rfl (hroots.reaches hu hbound) (.inl rfl) with
    hspoiled | ⟨hsound, hle, hbegun⟩
  · exact .inl (hspoiled.advances (setPhase_refines u rfl checked).toAdvances)
  · refine .inr ⟨fun root => ?_, hle, hbegun⟩
    have hset : (setPhase u .checked checked).2.Sound s.facts ℓ ⟨u, (s.unit u).tree.mark.id⟩ [] :=
      hsound.grow (facts_setPhase ((hphases.phase u).trans hphase)) (.refl _) rfl rfl (fun _ _ => .inl)
        fun _ _ => .inl
    exact hset.reroot root

end

/-- Checking a unit of the program leads to a spoiled state, or the unit is done. -/
theorem checkExpressions_examined {s f : State} {lax : Prop} {done : UnitId → Prop} {u : UnitId}
    (hu : u ≠ languageUnit) (hvalid : u.index < s.units.size) (hs : s.Examined f lax done) :
    (checkExpressions u s).2.Spoiled (f.leeway lax) ∨
      (checkExpressions u s).2.Examined f lax fun v => done v ∨ v = u := by
  -- A unit that has failed or is not at its turn is left as it is, and then nothing is owed of it.
  by_cases hidle : (s.unit u).failure.isSome ∨ (s.unit u).phase ≠ .namesResolved
  · rw [checkExpressions_of_settled hidle]
    refine .inr { hs with
      waiting := fun v hv hnot => hs.waiting v hv fun h => hnot (.inl h)
      done := fun v hv hfine => ?_ }
    by_cases hdone : done v
    · exact hs.done v hdone hfine
    · obtain rfl := hv.resolve_left hdone
      have hphase := hs.waiting v (State.mem_userUnits.mpr ⟨hu, hvalid⟩) hdone hfine
      exact (hidle.elim (fun h => by simp [hfine] at h) fun h => h hphase).elim
  · obtain ⟨hfine, hphase⟩ : (s.unit u).failure = none ∧ (s.unit u).phase = .namesResolved := by
      simpa using hidle
    obtain rfl : s.facts = f := (hs.sound ⟨u, 0⟩).facts
    have hmoves := checkExpressions_moves hvalid hfine hphase
    have hadvances := (checkExpressions_refines u s).toAdvances
    have hbound : (s.unit u).isBound = true :=
      ((hs.accounted.bound u hvalid).resolve_left id).resolve_right (by simp [hfine])
    have hkept : ∀ v, ((checkExpressions u s).2.unit v).failure = none → (s.unit v).failure = none := by
      intro v hnone
      by_contra hfailed
      have hsome := hmoves.failed v (Option.isSome_iff_ne_none.mpr hfailed)
      simp [hnone] at hsome
    rcases checkExpressions_ends hfine hphase hs.ready hs.roots hs.sound hu hbound with hspoiled | ⟨hsound, hle, hbegun⟩
    · exact .inl hspoiled
    · refine .inr ⟨hs.ready, hs.roots, hs.accounted.advances hadvances, hsound, fun v hv hnot hnone => ?_,
        fun v hv hnone => ?_, hs.rooted, hs.gets⟩
      · rw [not_or] at hnot
        rw [State.userUnits, hmoves.count, ← State.userUnits] at hv
        exact (hmoves.others v hnot.2).trans (hs.waiting v hv hnot.1 (hkept v hnone))
      · rw [(hadvances.units v).tree]
        rcases hv with hv | rfl
        · exact hle.begun _ (hs.done v hv (hkept v hnone))
        · exact hbegun

/-! ## Analyses -/

theorem State.advances_trace (s : State) (trace : Array TraceEvent) : s.Advances { s with trace } :=
  ⟨⟨rfl, rfl, rfl, fun _ => rfl, rfl, rfl⟩, rfl, fun _ => .refl _⟩

theorem State.SamePhases.isSettled {s s' : State} (h : s.SamePhases s') {u : UnitId} (hu : s.isSettled u = true) :
    s'.isSettled u = true := by
  rwa [State.isSettled, h.phase, h.failure]

/-- How far an analysis comes that does not find problems where none are tolerated. -/
theorem runStages_examined (lax : Prop) : RunStages
    (fun done s => s.Reached ∧ (s.Spoiled (.of lax) ∨ s.Named (.of lax) done))
    (fun done s => s.Reached ∧ (¬ lax ∧ s.HasFindings ∨ ∃ f, s.Examined f lax done)) where
  dependencies done s h := by
    have hadvances := resolveDependencies_advances s
    refine ⟨.dependencies h.1, h.2.imp (·.advances hadvances) fun hnamed => ?_⟩
    exact hnamed.stays (moduleSteps_stays.resolveDependencies s) hadvances fun u hu =>
      State.SamePhases.isSettled (moduleSteps_samePhases.resolveDependencies s) (hnamed.done u hu)
  names done s u hu hvalid h := by
    refine ⟨.names u h.1, h.2.elim (fun hspoiled => .inl ?_) (resolveNames_named hu hvalid)⟩
    exact hspoiled.advances (resolveNames_refines u s).toAdvances
  -- Between the two passes the facts are fixed: every unit is named now, and none is checked.
  turn s h := by
    refine ⟨h.1, h.2.elim .inl fun hnamed => ?_⟩
    by_cases hspoiled : ¬ lax ∧ s.HasFindings
    · exact .inl hspoiled
    · have clean : lax ∨ ¬ s.HasFindings := by
        by_cases hlax : lax
        · exact .inl hlax
        · exact .inr fun hfindings => hspoiled ⟨hlax, hfindings⟩
      refine .inr ⟨s.facts, hnamed.ready clean, h.1.rootsStand.of_sameLayout s.sameLayout_facts, hnamed.accounted,
        hnamed.sound, fun u hu _ hfine => ?_, fun _ hu => hu.elim, hnamed.rooted,
        fun strict d => hnamed.getsType strict (clean.resolve_left strict)⟩
      have hsettled := hnamed.done u hu
      rw [State.isSettled, hfine, Option.isSome_none, Bool.false_or, Phase.atLeast_iff] at hsettled
      have hunchecked := hnamed.phase u (State.mem_userUnits.mp hu).1
      cases hphase : (s.unit u).phase <;> simp_all [Phase.rank]
  -- A finding spoils the state for good when findings matter; else the unit is examined against the same
  -- facts.
  check done s u hu hvalid h := by
    refine ⟨.check u h.1, ?_⟩
    rcases h.2 with ⟨strict, hfindings⟩ | ⟨f, hexamined⟩
    · exact .inl ⟨strict, hfindings.advances (checkExpressions_refines u s).toAdvances⟩
    · exact (checkExpressions_examined hu hvalid hexamined).imp id fun h => ⟨f, h⟩
  namesWalk done s trace h := by
    refine ⟨.walk s.stack s.log trace h.1, h.2.imp (·.advances (s.advances_trace trace)) fun hnamed => ?_⟩
    exact hnamed.stays ⟨rfl, rfl, rfl, rfl, rfl, rfl, fun _ => rfl, fun _ => rfl, fun _ _ => rfl⟩
      (s.advances_trace trace) hnamed.done
  checkWalk done s trace h := by
    refine ⟨.walk s.stack s.log trace h.1, h.2.imp id ?_⟩
    rintro ⟨f, hf⟩
    refine ⟨f, hf.ready, hf.roots, hf.accounted.advances (s.advances_trace trace), fun root => ?_, hf.waiting, hf.done,
      hf.rooted, hf.gets⟩
    exact (hf.sound root).grow rfl (.refl _) rfl rfl (fun _ _ => .inl) fun _ _ => .inl

/-- What an analysis of a source tree has come to at the end, unless it has found problems where none are
tolerated. -/
theorem SourceTree.analyze_examined (t : SourceTree) (exclude : List String) (lax : Prop) :
    ¬ lax ∧ (t.analyze exclude).2.HasFindings ∨
      ∃ f, (t.analyze exclude).2.Examined f lax (· ∈ (t.analyze exclude).2.userUnits) := by
  refine SourceTree.analyze_then (Q := fun s => ¬ lax ∧ s.HasFindings ∨ ∃ f, s.Examined f lax (· ∈ s.userUnits))
    (t.loadKeeps_loaded (.of lax)) ⟨State.initial_loaded _, State.initial_accounted⟩ (fun s hs => ?_) exclude
  exact ((runStages_examined lax).run ⟨hs.1.reached, .inr (hs.1.named hs.2)⟩).2

end Ceylon.Analysis
