import Ceylon.Proofs.Confluence
import Ceylon.Proofs.LanguageTypes

/-!
# The order of checks does not matter

In any state that an analysis comes to, units can be checked (`State.Checkable`), and checking some of them leads to
the least state that shows that they have been checked (`checkedAll_explains`).  So whatever the order in which the
units are checked, what is recorded for nodes and declarations is the same in the end, and so are the problems that
are found, unless an inference needs its own result: then the declaration at which it is reported depends on
which unit is checked first.
-/

namespace Ceylon.Analysis

open Model Syntax

/-! ## States that can be checked -/

/-- A well-formed state in which units may be checked: what checking has found out is right, and nothing has been
left undone of the units that have been checked. -/
structure State.Checkable (s : State) : Prop extends s.Founded (.of True) where
  order : s.InOrder
  recorded : s.Recorded
  roots : s.RootsStand
  sound : ∀ root, s.Sound s.facts (.of True) root []
  performed : ∀ u, u ≠ languageUnit → (s.unit u).phase = .checked →
    s.progress.begun ⟨u, (s.unit u).tree.mark.id⟩
  settled : s.isSettled languageUnit = true
  finished : (s.unit languageUnit).phase ≠ .namesResolved
  named : ∀ u, (s.unit u).phase.atLeast .namesResolved = true → (s.unit u).isBound = true

/-- With every leeway allowed the state asks nothing of its types. -/
theorem State.leeway_true (f : State) : f.leeway True = .of True := by
  simp [State.leeway, Leeway.of]

/-- A founded state in order is ready for checking. -/
theorem State.Founded.ready {s : State} (hs : s.Founded (.of True)) (horder : s.InOrder) :
    s.facts.Ready (.of True) where
  toFormed := s.leeway_true ▸ hs.toFormed.facts
  layout := s.sameLayout_facts.layout horder.layout
  resolved _ _ _ _ := .inl trivial
  gets _ _ _ := .inl trivial
  language := hs.language

/-- Whether a state is well formed depends on its facts. -/
theorem State.founded_facts {s : State} {ℓ : Leeway} : s.facts.Founded ℓ ↔ s.Founded ℓ := by
  have himports : ∀ u, (s.facts.unit u).imports = (s.unit u).imports := fun u => congrArg (·.imports) (s.unit_facts u)
  have hbound := s.sameLayout_facts.isBound
  refine ⟨fun hs => ?_, fun hs => ?_⟩
  · exact
      { builtins := hs.builtins, supertypes := hs.supertypes, declared := hs.declared, plain := hs.plain
        imports := fun u i hi => hs.imports u i ((himports u).symm ▸ hi)
        refs := hs.refs, fallback := hs.fallback
        owned := fun k t ht => (hbound k.unit).symm.trans (hs.owned k t ht)
        bound := (hbound languageUnit).symm.trans hs.bound
        rooted := hs.rooted, language := hs.language }
  · exact
      { builtins := hs.builtins, supertypes := hs.supertypes, declared := hs.declared, plain := hs.plain
        imports := fun u i hi => hs.imports u i (himports u ▸ hi)
        refs := hs.refs, fallback := hs.fallback
        owned := fun k t ht => (hbound k.unit).trans (hs.owned k t ht)
        bound := (hbound languageUnit).trans hs.bound
        rooted := hs.rooted, language := hs.language }

/-! ## Checking units -/

section

variable {s : State} {u : UnitId}

/-- A unit that waits for its check in a state that can be checked. -/
theorem State.Checkable.waiting (hs : s.Checkable) (hfine : (s.unit u).failure = none)
    (hphase : (s.unit u).phase = .namesResolved) : u ≠ languageUnit ∧ (s.unit u).isBound = true := by
  refine ⟨?_, hs.named u (by rw [hphase]; rfl)⟩
  rintro rfl
  exact hs.finished hphase

/-- So is a checkable one. -/
theorem State.Checkable.ready (hs : s.Checkable) : s.facts.Ready (.of True) :=
  hs.toFounded.ready hs.order

theorem State.Checkable.rootsStand (hs : s.Checkable) : s.facts.RootsStand :=
  hs.roots.of_sameLayout s.sameLayout_facts

/-- Checking a unit keeps the facts, and units may be checked after it. -/
theorem State.Checkable.check (hs : s.Checkable) (u : UnitId) :
    (checkExpressions u s).2.facts = s.facts ∧ (checkExpressions u s).2.Checkable := by
  by_cases hidle : (s.unit u).failure.isSome ∨ (s.unit u).phase ≠ .namesResolved
  · rw [checkExpressions_of_settled hidle]
    exact ⟨rfl, hs⟩
  obtain ⟨hfine, hphase⟩ : (s.unit u).failure = none ∧ (s.unit u).phase = .namesResolved := by simpa using hidle
  obtain ⟨hu, hbound⟩ := hs.waiting hfine hphase
  have hadvances := (checkExpressions_refines u s).toAdvances
  have hmoves := checkExpressions_moves (State.valid_of_isBound hbound) hfine hphase
  rcases checkExpressions_ends hfine hphase hs.ready hs.rootsStand hs.sound hu hbound with
    hspoiled | ⟨hsound, hle, hbegun⟩
  · exact absurd trivial hspoiled.1
  have hfacts := (hsound ⟨u, 0⟩).facts
  -- Checking keeps what the other passes rely on, and the unit's own task is begun now.
  refine ⟨hfacts, { State.founded_facts.mp (hfacts ▸ State.founded_facts.mpr hs.toFounded) with
    order := hs.order.advances hadvances
    recorded := ((checkWalk_keeps hs.order hs.recorded u).result (checkWalk_traces u) rfl).mono
      fun _ => isSettled_checkExpressions
    roots := hs.roots.advances hadvances
    sound := hfacts ▸ hsound
    performed := fun v hv hdone => ?_
    settled := isSettled_checkExpressions hs.settled
    finished := fun hphase => hs.finished ((hmoves.others languageUnit hu.symm).symm.trans hphase)
    named := fun v hv => ?_ }⟩
  · rw [(hadvances.units v).tree]
    by_cases hvu : v = u
    · exact hvu ▸ hbegun
    · exact hle.begun _ (hs.performed v hv ((hmoves.others v hvu).symm.trans hdone))
  · rw [(hadvances.units v).isBound]
    by_cases hvu : v = u
    · exact hvu ▸ hbound
    · exact hs.named v (hmoves.others v hvu ▸ hv)

/-- A state shows that a unit has been checked, if it can be. -/
def Examines (f s : State) (u : UnitId) : Prop :=
  f.isReady u = true → u ≠ languageUnit → s.checked.contains ⟨u, (f.unit u).tree.mark.id⟩ = true

/-- More notes examine no less. -/
theorem Examines.mono {f s s' : State} (h : Gains f s s') (hs : Examines f s u) : Examines f s' u :=
  fun hready hu => h.checked _ (hs hready hu)

/-- That a unit has come to a phase is nothing that checking records. -/
theorem gains_setPhase {f : State} (u : UnitId) (phase : Phase) (s : State) :
    Gains f s (setPhase u phase s).2 ∧ Gains f (setPhase u phase s).2 s := by
  have hdiagnostics : ∀ v, ((setPhase u phase s).2.unit v).diagnostics = (s.unit v).diagnostics := by
    intro v
    refine (congrArg UnitState.diagnostics (s.unit_modify u v fun unit => { unit with phase })).trans ?_
    split <;> rfl
  exact ⟨.of_same rfl rfl rfl rfl rfl hdiagnostics, .of_same rfl rfl rfl rfl rfl fun v => (hdiagnostics v).symm⟩

/-- Unless an inference needs its own result, checking a unit leads to the least state that shows it. -/
theorem checkExpressions_explains (hs : s.Checkable) (u : UnitId)
    (hquiet : (checkExpressions u s).2.circular = s.circular) :
    Explains s.facts s (checkExpressions u s) fun s' _ => Examines s.facts s' u := by
  have htree := s.sameLayout_facts.tree u
  by_cases hidle : (s.unit u).failure.isSome ∨ (s.unit u).phase ≠ .namesResolved
  -- A unit that does not wait for its check, though it could be checked, has been checked before.
  · have hstay : checkExpressions u s = ((), s) := Prod.ext rfl (checkExpressions_of_settled hidle)
    rw [hstay]
    refine .stay (fun hready hu => ?_) fun _ _ _ _ => rfl
    rw [State.isReady_facts] at hready
    obtain ⟨-, hfine, hlate⟩ := State.isReady_iff.mp hready
    have hphase : (s.unit u).phase = .checked := by
      have hother := hidle.resolve_left (by simp [hfine])
      have hlate := Phase.atLeast_iff.mp hlate
      cases hp : (s.unit u).phase <;> simp_all [Phase.rank]
    rw [htree]
    exact hs.performed u hu hphase
  obtain ⟨hfine, hphase⟩ : (s.unit u).failure = none ∧ (s.unit u).phase = .namesResolved := by simpa using hidle
  obtain ⟨hu, hbound⟩ := hs.waiting hfine hphase
  have hready : s.facts.isReady u = true := by
    rw [State.isReady_facts]
    exact State.isReady_iff.mpr ⟨hbound, hfine, by rw [hphase]; rfl⟩
  have hsettled : s.isSettled u = true := by
    rw [State.isSettled, hphase]
    exact Bool.or_true _
  have htrees : (fun v => (s.facts.unit v).tree) = fun v => (s.unit v).tree := funext s.sameLayout_facts.tree
  have hinference : ∀ d v t, s.facts.inference? d = some (v, t) →
      Task.Fits (fun v => (s.facts.unit v).tree) (fun v => s.isSettled v = true) v t := by
    rw [htrees]
    exact fun d v t => fits_of_inference? hs.order
  have hfits : Task.Fits (fun v => (s.facts.unit v).tree) (fun v => s.isSettled v = true) u
      (.unit (s.unit u).tree) := by
    rw [htrees]
    exact ⟨hsettled, (s.unit u).tree.assigns_unit⟩
  -- Otherwise its task is performed; neither the log nor the phase matters for what a state shows.
  let logged := (logStep u .checked "checking expressions" s).2
  have hlogged : logged.Sound s.facts (.of True) ⟨u, (s.unit u).tree.mark.id⟩ [] :=
    (hs.sound _).grow rfl (.refl _) rfl rfl (fun _ _ => .inl) fun _ _ => .inl
  have hunderway : Underway (fun v => (s.facts.unit v).tree) (fun v => s.isSettled v = true) logged :=
    ⟨hs.recorded.of_sameNotes (logStep_sameNotes u _ _ s) fun _ => id, fun v => (s.sameLayout_facts.tree v).symm⟩
  let checked := (Checking.performTask s.facts (s.decls.size + 2) u (.unit (s.unit u).tree) logged).2
  have hstate : checkExpressions u s = ((), (setPhase u .checked checked).2) :=
    Prod.ext rfl (checkExpressions_of_waiting hfine hphase)
  rw [hstate] at hquiet ⊢
  have hperformed := performTask_explains hinference hs.ready trivial (s.decls.size + 2) hu hlogged hunderway hfits
    hready le_rfl (hs.rootsStand.reaches hu hbound) (.inl rfl) hquiet
  have hexplained := hperformed.congr (s := s) (.of_same rfl rfl rfl rfl rfl fun _ => rfl)
    (.of_same rfl rfl rfl rfl rfl fun _ => rfl) (gains_setPhase u .checked _).1 (gains_setPhase u .checked _).2
    fun _ _ _ h => h.checked _
  exact ⟨hexplained.grows, hexplained.closes, fun _ _ => htree ▸ hexplained.shown,
    fun s' a hs' hcloses ha => hexplained.least s' a hs' hcloses (htree ▸ ha hready hu)⟩

/-! ## Checking several units -/

/-- Checking a unit recalls: it writes nothing over. -/
theorem recalls_checkExpressions (u : UnitId) : Leads State.Recalls (checkExpressions u) := by
  refine .get_bind fun s => ?_
  dsimp only
  split
  · exact .pure ()
  · exact .bind (fun _ => List.suffix_rfl) fun _ => .bind (checkSteps_recalls.performTask _ _ _ _) fun _ _ =>
      List.suffix_rfl

/-- The run lemma of `recalls_checkExpressions`. -/
theorem State.recalls_checkedAll (s : State) (us : List UnitId) : s.Recalls (s.checkedAll us) := by
  induction us generalizing s with
  | nil => exact refl_of State.Recalls s
  | cons u us ih => exact trans_of State.Recalls (recalls_checkExpressions u s) (ih _)

/-- Unless an inference needs its own result, checking units one after the other leads to the least state that shows
that they have been checked. -/
theorem checkedAll_explains (hs : s.Checkable) (us : List UnitId) (hquiet : (s.checkedAll us).circular = s.circular) :
    Explains s.facts s ((), s.checkedAll us) fun s' _ => ∀ u ∈ us, Examines s.facts s' u := by
  induction us generalizing s with
  | nil => exact .stay (List.forall_mem_nil _) fun _ _ _ _ => rfl
  | cons u us ih =>
    obtain ⟨hfacts, hs'⟩ := hs.check u
    obtain ⟨hquiet, hquiet'⟩ :=
      (recalls_checkExpressions u s).circular_eq ((checkExpressions u s).2.recalls_checkedAll us) hquiet
    have hrest := ih hs' hquiet'
    rw [hfacts] at hrest
    have hboth : Explains s.facts s ((), s.checkedAll (u :: us)) fun s' _ =>
        ∃ _ : Unit, Examines s.facts s' u ∧ ∀ v ∈ us, Examines s.facts s' v :=
      (checkExpressions_explains hs u hquiet).bind hrest fun _ _ _ => Examines.mono
    exact ⟨hboth.grows, hboth.closes, List.forall_mem_cons.mpr (hboth.shown.elim fun _ h => h),
      fun s' a hgrows hcloses h => hboth.least s' a hgrows hcloses ⟨(), List.forall_mem_cons.mp h⟩⟩

end

/-! ## States that have grown from each other -/

/-- Two tables that contain each other are equal. -/
theorem eq_of_lookups {α : Type} {m m' : NodeMap α} (h : ∀ (k : NodeId) a, m[k]? = some a → m'[k]? = some a)
    (h' : ∀ (k : NodeId) a, m'[k]? = some a → m[k]? = some a) : m' = m :=
  Std.ExtTreeMap.ext_getElem? fun k => Option.ext fun a => ⟨h' k a, h k a⟩

section

variable {f s s' : State} (h : Gains f s s') (h' : Gains f s' s)
include h h'

/-- States that gain from each other give every declaration the same type. -/
theorem Gains.typeOf_eq (d : DeclId) : s'.graph.typeOf d = s.graph.typeOf d := by
  have hinferred : s'.graph.inferred = s.graph.inferred := eq_of_lookups h.inferred h'.inferred
  rw [Graph.typeOf_eq, Graph.typeOf_eq, h.decl, Graph.inferredType, Graph.inferredType, h.nodeOf?, hinferred]

/-- And have the same type tables. -/
theorem Gains.types_eq : s'.types = s.types := by
  have hexprs := eq_of_lookups h.exprs h'.exprs
  have hrefs := h.refs
  cases hs : s.types
  cases hs' : s'.types
  rw [hs, hs'] at hexprs hrefs
  dsimp only at hexprs hrefs
  rw [hexprs, hrefs]

end

/-! ## States that an analysis comes to -/

/-- What has been found out stays right when the facts change in what does not matter for it. -/
theorem State.Sound.renew {s s' : State} {ℓ : Leeway} {root : NodeId} (hs : s.Sound s.facts ℓ root []) (hlax : ℓ.lax)
    (hle : ∀ given, (s.outlook ℓ given).Le (s'.outlook ℓ given)) (hexprs : s'.types.exprs = s.types.exprs)
    (hinferred : s'.graph.inferred = s.graph.inferred) (hchecked : s'.checked = s.checked)
    (hhas : ∀ k : NodeId, s.progress.begun k → ∀ n, s'.HasNode k.unit n → s.HasNode k.unit n) :
    s'.Sound s'.facts ℓ root [] := by
  have hprogress : s'.progress = s.progress := by
    rw [State.progress, hexprs, hinferred, hchecked, State.progress]
  refine ⟨rfl, fun k t ht => ?_, fun k t ht => ?_, fun u task hu hn hbegun hnot => ?_, List.nodup_nil,
    List.forall_mem_nil _, List.forall_mem_nil _, fun _ _ _ _ hmem => absurd hmem List.not_mem_nil⟩
  · rw [hprogress]
    exact (hs.exprs k t (hexprs ▸ ht)).mono (hle _).toLe
  · rw [hprogress]
    exact (hs.inferred k t (hinferred ▸ ht)).mono (hle _)
  · rw [hprogress] at hbegun ⊢
    have hn' := (s.sameLayout_facts.hasNode_iff u _).mpr
      (hhas ⟨u, task.mark.id⟩ hbegun _ ((s'.sameLayout_facts.hasNode_iff u _).mp hn))
    obtain ⟨⟨t, ht⟩, hgiven⟩ := hs.done u task hu hn' hbegun hnot
    exact ⟨⟨t, fun hgives => (ht.type hgives).mono (hle _), ht.covers, fun _ _ => .inl hlax⟩, hgiven⟩

/-- A job that an analysis can be asked to do once the language module is there.  Only a unit that is there is bound,
and names are resolved of a unit only after it has been bound, unless there is nothing to be done. -/
def Job.Proper (s : State) : Job → Prop
  | .builtins _ => False
  | .pass ⟨.bind, u⟩ => u.index < s.units.size
  | .pass ⟨.names, u⟩ => (s.unit u).isBound = true ∨ s.isSettled u = true
  | _ => True

/-- The states that an analysis comes to, whatever it is asked to do. -/
inductive State.Proceeds : State → Prop
  | initial : State.Proceeds .initial
  | next {s : State} {j : Job} (hj : j.Proper s) : s.Proceeds → State.Proceeds (j.run s).2

theorem Job.Proper.fits {s : State} {j : Job} (hj : j.Proper s) : j.Fits s := by
  cases j with
  | pass c =>
    obtain ⟨p, u⟩ := c
    cases p with
    | bind => exact hj
    | _ => trivial
  | _ => trivial

namespace State.Checkable

variable {s s' : State}

/-- What has been found out stays right when facts are added that do not matter for it. -/
theorem stay (hs : s.Checkable) (hstays : s.Stays s') (hplaces : s.SamePlaces s') (horder : s'.InOrder)
    (hrecorded : s'.Recorded) (hroots : s'.RootsStand)
    (htree : ∀ u, (s'.unit u).isBound = true → (s'.unit u).tree = (s.unit u).tree)
    (hsettled : s'.isSettled languageUnit = true) : s'.Checkable where
  toFounded := hs.toFounded.extend hstays.extends
  order := horder
  recorded := hrecorded
  roots := hroots
  sound root := by
    refine (hs.sound root).renew trivial (fun given => ?_) (congrArg (·.exprs) hstays.types) hstays.inferred
      hstays.checked fun k _ n hn => ⟨(hstays.isBound k.unit).symm.trans hn.1, htree _ hn.1 ▸ hn.2⟩
    -- Declarations stand where they stood, so the types in sight of each are the same ones.
    rw [hplaces.outlook]
    exact s.outlook_le _ fun _ => id
  performed u hu hphase := by
    have hsame := hstays.phase u (by rw [hphase]; rfl)
    have hbound := hs.named u (by rw [← hsame, hphase]; rfl)
    rw [State.progress, hstays.checked, htree u ((hstays.isBound u).trans hbound)]
    exact hs.performed u hu (hsame.symm.trans hphase)
  settled := hsettled
  finished hphase := hs.finished ((hstays.phase languageUnit (by rw [hphase]; rfl)).symm.trans hphase)
  named u hu := by
    rw [hstays.isBound]
    exact hs.named u (hstays.phase u hu ▸ hu)

/-- Resolving names keeps a state checkable. -/
theorem names (hs : s.Checkable) {u : UnitId} (hu : (s.unit u).isBound = true ∨ s.isSettled u = true)
    (hrecorded : (resolveNames u s).2.Recorded) : (resolveNames u s).2.Checkable := by
  have hadvances := (resolveNames_refines u s).toAdvances
  have horder := hs.order.advances hadvances
  have hroots := hs.roots.advances hadvances
  change (s.resolved u).Checkable
  change (s.resolved u).InOrder at horder
  change (s.resolved u).Recorded at hrecorded
  change (s.resolved u).RootsStand at hroots
  cases hnew : s.isSettled u with
  | true =>
    rw [State.resolved_of_isSettled hnew]
    exact hs
  | false =>
    have hbound := hu.resolve_right (by simp [hnew])
    have hne : u ≠ languageUnit := by
      rintro rfl
      cases hnew.symm.trans hs.settled
    rw [State.resolved_of_not_isSettled (Bool.eq_false_iff.mp hnew)] at horder hrecorded hroots ⊢
    -- With all leeway there is nothing that can spoil a state.
    rcases resolution_ends hs.order hs.toFounded hne hbound with hspoiled | ⟨hresolves, -, -⟩
    · exact absurd trivial hspoiled.1
    have henriches := hresolves.trans (enriches_modifyUnit (advances_conclusion (s.resolution u).1)
      (imports_conclusion _) (phase_conclusion _))
    generalize (modifyUnit u (State.conclusion (s.resolution u).1) (s.resolution u).2).2 = s' at *
    have hplaces := henriches.refines.toSamePlaces
    have hnode := henriches.refines.toAdvances.sameLayout.hasNode_iff
    refine ⟨henriches.founded hs.toFounded hne hbound, horder, hrecorded, hroots,
      fun root => ?_, fun v hv hphase => ?_, ?_, ?_, fun v hv => ?_⟩
    · refine (hs.sound root).renew trivial (fun given => ?_) henriches.exprs henriches.inferred henriches.checked
        fun k _ n => (hnode k.unit n).mp
      rw [hplaces.outlook]
      exact s.outlook_le _ fun _ => id
    -- The unit itself was open, so that it has not been checked.
    · by_cases hvu : v = u
      · subst hvu
        rw [State.isSettled, henriches.phase hphase] at hnew
        simp [Phase.atLeast, Phase.rank] at hnew
      · rw [henriches.unit v hvu] at hphase ⊢
        rw [State.progress, henriches.checked]
        exact hs.performed v hv hphase
    · rw [State.isSettled, henriches.unit languageUnit hne.symm]
      exact hs.settled
    · rw [henriches.unit languageUnit hne.symm]
      exact hs.finished
    · by_cases hvu : v = u
      · rw [(henriches.refines.units v).isBound, hvu]
        exact hbound
      · rw [henriches.unit v hvu] at hv ⊢
        exact hs.named v hv

/-- So does binding a unit. -/
theorem bind (hs : s.Checkable) {u : UnitId} (hu : u.index < s.units.size)
    (hrecorded : (bindDeclarations u s).2.Recorded) : (bindDeclarations u s).2.Checkable := by
  cases hnew : s.isUnbound u with
  | false =>
    rw [bindDeclarations_of_not_isUnbound hnew]
    exact hs
  | true =>
    have hextends := bindDeclarations_extends hs.order hu hs.bound
    have hothers := fun v => unit_bindDeclarations_of_ne (s := s) (v := v) hu
    have hself := unit_bindDeclarations hu hnew
    have hopen : s.isSettled u = false := by
      simp only [State.isUnbound, Bool.not_eq_true', Bool.or_eq_false_iff] at hnew
      rw [State.isSettled, hnew.1, Bool.false_or]
      cases hphase : (s.unit u).phase <;> simp_all [Phase.atLeast, Phase.rank]
    have hblock : ∀ b, b.index < s.graph.blocks.size → (bindDeclarations u s).2.graph.block b = s.graph.block b := by
      intro b hb
      rw [bindDeclarations_of_isUnbound hnew]
      exact (s.scripted_grows u).block b hb
    have hroots' := hs.roots.bindDeclarations hs.order hu
    have horder' := hs.order.bindDeclarations hu
    have hsettled := (State.onward_run (p := .bind) hu).isSettled hs.settled
    change (bindDeclarations u s).2.isSettled languageUnit = true at hsettled
    generalize (bindDeclarations u s).2 = s' at *
    refine ⟨hs.toFounded.extend hextends, horder', hrecorded, hroots',
      fun root => ?_, fun v hv hphase => ?_, hsettled, fun hphase => ?_, fun v hv => ?_⟩
    · refine (hs.sound root).renew trivial (hextends.outlook_le hs.order.layout hblock _)
        (congrArg (·.exprs) hextends.types) hextends.inferred hextends.checked fun k hk n hn => ?_
      -- What has been begun belongs to units that have been settled, and this one was not.
      have hne : k.unit ≠ u := by
        rintro rfl
        exact absurd (hopen.symm.trans (hs.recorded.checked k hk)) Bool.false_ne_true
      rwa [State.HasNode, hothers k.unit hne] at hn
    · have hvu : v ≠ u := by
        rintro rfl
        cases (congrArg UnitState.phase hself).symm.trans hphase
      rw [hothers v hvu] at hphase ⊢
      rw [State.progress, hextends.checked]
      exact hs.performed v hv hphase
    · exact hs.finished ((hextends.phase languageUnit (by rw [hphase]; rfl)).symm.trans hphase)
    · exact hextends.isBound v (hs.named v (hextends.phase v hv ▸ hv))

/-- So does adding a unit. -/
theorem addUnit (hs : s.Checkable) (path : String) {tree : CompilationUnit} (htree : tree.Numbered) (p : PackageId)
    (hrecorded : (addUnit path tree p s).2.Recorded) : (addUnit path tree p s).2.Checkable := by
  refine hs.stay (addUnit_stays s path tree p) ⟨rfl, rfl, rfl, fun _ => rfl, rfl, rfl⟩ (hs.order.addUnit path htree p)
    hrecorded (hs.roots.addUnit path tree p) (fun u hu => congrArg (·.tree) (isBound_addUnit s path tree p hu)) ?_
  have hne : languageUnit.index ≠ s.units.size := (State.valid_of_isBound hs.bound).ne
  rw [State.isSettled, unit_addUnit, if_neg hne]
  exact hs.settled

/-- Units may be checked after a job that only adds to what is known about modules and units. -/
theorem advances (hs : s.Checkable) (hstays : s.Stays s') (hadvances : s.Advances s') (hrecorded : s'.Recorded)
    (hsettled : s'.isSettled languageUnit = true) : s'.Checkable :=
  hs.stay hstays hadvances.toSamePlaces (hs.order.advances hadvances) hrecorded
    (hs.roots.advances hadvances) (fun u _ => (hadvances.units u).tree) hsettled

end State.Checkable

/-- The state of a new context is checkable: the language unit is bound, named and checked. -/
theorem initial_checkable : State.initial.Checkable := by
  -- The language module has been loaded and checked, and there is no other unit yet.
  have hs := State.initial_loaded (.of True)
  have hstandard := State.initial_isStandard
  simp only [State.isStandard, Bool.and_eq_true, decide_eq_true_eq] at hstandard
  refine { hs.toFounded with
    order := State.Reached.initial.inOrder
    recorded := State.initial_arises.recorded.2
    roots := State.Reached.initial.rootsStand
    sound := hs.sound (State.initial.around_le _ fun _ => id)
    performed := fun u hu hphase => absurd hphase (hs.phase u hu)
    settled := initial_keepsLanguage.settled
    finished := by
      rw [hstandard.2]
      decide
    named := fun u hu => ?_ }
  by_cases hlanguage : u = languageUnit
  · exact hlanguage ▸ hs.bound
  · rw [State.unit_of_isStocked State.initial_isStocked hlanguage] at hu
    cases hu

/-- In all states that an analysis comes to, units can be checked. -/
theorem State.Proceeds.checkable {s : State} (h : s.Proceeds) : s.Checkable := by
  induction h with
  | initial => exact initial_checkable
  | @next s j hj _ ih =>
    have hrecorded := j.recorded hj.fits ih.order ih.recorded
    -- One case per job. Only the passes touch notes; the others advance the state and leave what is settled.
    cases j with
    | package name =>
      exact ih.advances (moduleSteps_stays.packageNamed name s) (packageNamed_advances name s) hrecorded
        ((moduleSteps_samePhases.packageNamed name s).isSettled ih.settled)
    | own m p =>
      exact ih.advances (moduleSteps_stays.addPackage m p s) (addPackage_advances m p s) hrecorded
        ((moduleSteps_samePhases.addPackage m p s).isSettled ih.settled)
    | dependency m dep =>
      exact ih.advances (moduleSteps_stays.addDependency m dep s) (addDependency_advances m dep s) hrecorded
        ((moduleSteps_samePhases.addDependency m dep s).isSettled ih.settled)
    | unit path source glyphs p => exact ih.addUnit path (CompilationUnit.number_numbered _) p hrecorded
    | builtins p => exact hj.elim
    | fail u failure =>
      exact ih.advances (fail_stays u failure s) (fail_refines u failure s).toAdvances hrecorded
        (isSettled_fail failure ih.settled)
    | pass c =>
      obtain ⟨p, u⟩ := c
      cases p with
      | bind => exact ih.bind hj hrecorded
      | module =>
        have hstays := moduleSteps_stays.resolveModule
          (modifyUnit_stays u (fun _ => rfl) (fun _ => rfl) fun _ => nofun) (fail_stays u)
        exact ih.advances (hstays s) (resolveModule_advances u s) hrecorded (isSettled_resolveModule ih.settled)
      | names => exact ih.names hj hrecorded
      | check => exact (ih.check u).2
    | dependencies =>
      exact ih.advances (moduleSteps_stays.resolveDependencies s) (resolveDependencies_advances s) hrecorded
        ((moduleSteps_samePhases.resolveDependencies s).isSettled ih.settled)
    | journal stack log trace =>
      exact ih.advances ⟨rfl, rfl, rfl, rfl, rfl, rfl, fun _ => rfl, fun _ => rfl, fun _ _ => rfl⟩
        ⟨⟨rfl, rfl, rfl, fun _ => rfl, rfl, rfl⟩, rfl, fun u => .refl _⟩ hrecorded ih.settled

/-- Passes on units that have been bound can be called in any order. -/
theorem State.Proceeds.after {s : State} (hs : s.Proceeds) {calls : List Call}
    (hbound : ∀ c ∈ calls, (s.unit c.unit).isBound = true) : (s.after calls).Proceeds := by
  induction calls generalizing s with
  | nil => exact hs
  | cons c calls ih =>
    obtain ⟨hc, hbound⟩ := List.forall_mem_cons.mp hbound
    have hproper : (Job.pass c).Proper s := by
      obtain ⟨p, u⟩ := c
      cases p with
      | bind => exact State.valid_of_isBound hc
      | names => exact .inl hc
      | _ => trivial
    exact ih (.next hproper hs) fun c' hc' => State.isBound_run (State.valid_of_isBound hc) (hbound c' hc')

/-- A unit that has been read is bound by its first pass. -/
theorem State.Proceeds.read {s : State} (hs : s.Proceeds) (path : String) (source : Source) (glyphs : List Text.Glyph)
    (p : PackageId) {s' : State}
    (hs' : (bindDeclarations ⟨s.units.size⟩ (addUnit path (readUnit source glyphs).unit p s).2).2 = s') :
    s'.Proceeds ∧ (s'.unit ⟨s.units.size⟩).isBound = true ∧
      ∀ v, (s.unit v).isBound = true → (s'.unit v).isBound = true := by
  have hvalid : s.units.size < (addUnit path (readUnit source glyphs).unit p s).2.units.size :=
    (Nat.lt_succ_self _).trans_eq (Array.size_push _).symm
  subst hs'
  refine ⟨.next (j := .pass ⟨.bind, _⟩) hvalid (.next (j := .unit path source glyphs p) trivial hs),
    State.isBound_bindDeclarations hvalid (.inr ⟨rfl, ?_⟩), fun v hv => State.isBound_bindDeclarations hvalid (.inl ?_)⟩
  · rw [State.isUnbound, unit_addUnit, if_pos rfl]
    rfl
  · rw [unit_addUnit, if_neg (State.valid_of_isBound hv).ne]
    exact hv

/-- Two bound units go through their passes in a proper order. -/
theorem resolveBoth_proceeds {s : State} (hs : s.Proceeds) {u v : UnitId} (hu : (s.unit u).isBound = true)
    (hv : (s.unit v).isBound = true) : (resolveBoth u v s).2.Proceeds := by
  have hbound : ∀ p, ∀ c ∈ [(⟨p, u⟩ : Call), ⟨p, v⟩], (s.unit c.unit).isBound = true := fun p =>
    List.forall_mem_cons.mpr ⟨hu, List.forall_mem_singleton.mpr hv⟩
  have hjoined := hs.after (hbound .module)
  have hkept := fun w => State.isBound_after (s := s) (v := w) fun c hc =>
    State.valid_of_isBound (hbound .module c hc)
  rw [resolveBoth, bind_apply, bind_apply, bind_apply, bind_apply]
  change State.Proceeds (State.after (resolveDependencies (s.after [⟨.module, u⟩, ⟨.module, v⟩])).2
    [⟨.names, u⟩, ⟨.names, v⟩])
  generalize s.after [⟨.module, u⟩, ⟨.module, v⟩] = s' at *
  refine State.Proceeds.after (.next (j := .dependencies) trivial hjoined) fun c hc => ?_
  exact ((resolveDependencies_advances s').units c.unit).isBound.trans (hkept _ (hbound .names c hc))

/-- The two units of the witness come from sources, so their state proceeds. -/
theorem joinUnits_proceeds {s : State} (hs : s.Proceeds) (first second : Source) (glyphs glyphs' : List Text.Glyph) :
    (joinUnits (readUnit first glyphs).unit (readUnit second glyphs').unit s).2.Proceeds := by
  rw [joinUnits, bind_apply, bind_apply, bind_apply, bind_apply, bind_apply]
  -- Each step is a job that an analysis can be asked to do.
  have hpackage : (discard (packageNamed []) s).2.Proceeds := .next (j := .package []) trivial hs
  generalize (discard (packageNamed []) s).2 = s at hpackage ⊢
  obtain ⟨hfirst, hbound, -⟩ := hpackage.read "first.ceylon" first glyphs ⟨1⟩ rfl
  obtain ⟨hsecond, hbound', hstays⟩ := hfirst.read "second.ceylon" second glyphs' ⟨1⟩ rfl
  exact resolveBoth_proceeds hsecond (hstays _ hbound) hbound'

/-! ## Two orders -/

/-- In whatever order units are checked, the types and targets of nodes, the types of declarations and the problems of
units are the same in the end, if no inference needs its own result in either order. -/
theorem State.checkedAll_perm {s : State} (hs : s.Proceeds) {us vs : List UnitId} (hperm : us.Perm vs)
    (hus : (s.checkedAll us).circular = s.circular) (hvs : (s.checkedAll vs).circular = s.circular) :
    (s.checkedAll vs).types = (s.checkedAll us).types ∧ (s.checkedAll vs).targets = (s.checkedAll us).targets ∧
      (∀ d, (s.checkedAll vs).graph.typeOf d = (s.checkedAll us).graph.typeOf d) ∧
      ∀ u d, d ∈ ((s.checkedAll vs).unit u).diagnostics ↔ d ∈ ((s.checkedAll us).unit u).diagnostics := by
  have hfirst := checkedAll_explains hs.checkable us hus
  have hsecond := checkedAll_explains hs.checkable vs hvs
  -- Each of the two states shows what the other one does, and each of them is the least that does.
  obtain ⟨hforth, -⟩ := hfirst.least _ () hsecond.grows hsecond.closes fun u hu =>
    hsecond.shown u (hperm.mem_iff.mp hu)
  obtain ⟨hback, -⟩ := hsecond.least _ () hfirst.grows hfirst.closes fun u hu =>
    hfirst.shown u (hperm.mem_iff.mpr hu)
  exact ⟨hforth.types_eq hback, eq_of_lookups hforth.targets hback.targets, hforth.typeOf_eq hback,
    fun u d => ⟨hback.diagnostics u d, hforth.diagnostics u d⟩⟩

/-- Two units are checked in both orders, in each of which two values get their types from the other unit. -/
theorem State.checkedAll_perm_crossing :
    let s := (joinUnits crossingUnits.1 crossingUnits.2 .initial).2
    let ahead := s.checkedAll [⟨1⟩, ⟨2⟩]
    let back := s.checkedAll [⟨2⟩, ⟨1⟩]
    s.Proceeds ∧ [(⟨1⟩ : UnitId), ⟨2⟩].Perm [⟨2⟩, ⟨1⟩] ∧ ahead.circular = s.circular ∧ back.circular = s.circular ∧
      ahead.graph.inferred.toList.length = 4 ∧ back.types = ahead.types ∧ back.targets = ahead.targets ∧
      (∀ d, back.graph.typeOf d = ahead.graph.typeOf d) ∧
      ∀ u d, d ∈ (back.unit u).diagnostics ↔ d ∈ (ahead.unit u).diagnostics := by
  intro s ahead back
  have hproceeds : s.Proceeds := joinUnits_proceeds .initial ..
  have hcrossed : isCrossed s = true := Analysis.beginning_holds.crossed
  simp only [isCrossed, List.all_cons, List.all_nil, Bool.and_eq_true, decide_eq_true_eq, Bool.and_true] at hcrossed
  obtain ⟨⟨hahead, hinferred⟩, hback, -⟩ := hcrossed
  exact ⟨hproceeds, .swap .., hahead, hback, hinferred, checkedAll_perm hproceeds (.swap ..) hahead hback⟩

end Ceylon.Analysis
