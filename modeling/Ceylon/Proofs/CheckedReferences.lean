import Ceylon.Proofs.CheckedUnits
import Ceylon.Proofs.Encounters
import Ceylon.Proofs.ImportedNames

/-!
# References that checking comes to

When a task has been performed, everything that there is to do for the nodes below its own has been done: a
reference that is found by an import has the imported declaration as its target, and other tasks have been begun
(`State.Done`).  The check of a task comes to all these nodes whatever its questions are answered with, and what it
has done once stays, as each expression is settled once (`run_meets`).  No task is refused for lack of depth, so a
task that has been begun and is not under way has been performed (`performTask_tracks`).
-/

namespace Ceylon

namespace Dialogue

variable {Q : Type} {A : Q → Type} {α : Type}

/-- Leading a dialogue that stays within a budget with a partner that has a state.  The invariant speaks of what is
left of the budget. -/
theorem Spends.run {ι σ : Type} {may : Q → Prop} {cost : Q → Multiset ι} {partner : (q : Q) → StateM σ (A q)}
    {I : Multiset ι → σ → Prop} (mono : ∀ b b' s, b' ≤ b → I b s → I b' s)
    (hstep : ∀ q rest s, may q → I (cost q + rest) s → I rest (partner q s).2) {d : Dialogue A α} {b : Multiset ι}
    (h : d.Spends may cost b) {s : σ} (hs : I b s) : I 0 (d.run partner s).2 := by
  induction d generalizing b s with
  | done a => exact mono b 0 s (Multiset.zero_le b) hs
  | ask q next ih =>
    obtain ⟨hq, rest, hrest, hnext⟩ := h
    exact ih _ (hnext _) (hstep q rest s hq (mono b _ s hrest hs))

/-- What a question with the property brings about, and what stays then, holds at the end of a dialogue in which such
a question comes up. -/
theorem Raises.run {ι σ : Type} {may E : Q → Prop} {cost : Q → Multiset ι} {partner : (q : Q) → StateM σ (A q)}
    {I : Multiset ι → σ → Prop} {G : σ → Prop} (mono : ∀ b b' s, b' ≤ b → I b s → I b' s)
    (hstep : ∀ q rest s, may q → I (cost q + rest) s → I rest (partner q s).2)
    (hstays : ∀ q rest s, may q → I (cost q + rest) s → E q ∨ G s → G (partner q s).2) {d : Dialogue A α}
    {b : Multiset ι} (hspends : d.Spends may cost b) {s : σ} (hs : I b s) (h : d.Raises E ∨ G s) :
    G (d.run partner s).2 := by
  induction d generalizing b s with
  | done a => exact h.resolve_left id
  | ask q next ih =>
    obtain ⟨hq, rest, hrest, hnext⟩ := hspends
    have hbudget := mono b _ s hrest hs
    refine ih _ (hnext _) (hstep q rest s hq hbudget) ?_
    rcases h with (hE | hraises) | hG
    · exact .inr (hstays q rest s hq hbudget (.inl hE))
    · exact .inl (hraises _)
    · exact .inr (hstays q rest s hq hbudget (.inr hG))

end Dialogue

namespace Analysis

open Model Syntax

/-! ## What has been done for nodes -/

/-- What there is to do for a node by itself has been done, as far as the names in a state show: if its name is found
by an import, it has the imported declaration as its target, and if it is a task, it has been begun. -/
structure State.Done (f s : State) (u : UnitId) (n : Node) : Prop where
  target : ∀ name filter i, n.mention? = some (name, filter) → f.importFor? u n.mark name filter = some i →
    s.targets[(⟨u, n.mark.id⟩ : NodeId)]? = some i.decl
  begun : n.isTask = true → s.checked.contains ⟨u, n.mark.id⟩ = true

/-- What there is to do below the node of a task has been done, as far as no other task stands between. -/
def State.Performed (f s : State) (u : UnitId) (task : Task) : Prop :=
  ∀ p ∈ task.node.parts, ∀ n, p.Spans n → n.isErrand = true → f.Done s u n

/-- From the first state to the second, targets stay and tasks are begun. -/
structure State.Accrues (s s' : State) : Prop where
  targets : ∀ (k : NodeId) d, s.targets[k]? = some d → s'.targets[k]? = some d
  checked : ∀ k, s.checked.contains k = true → s'.checked.contains k = true

section

variable {f s s' : State} {u : UnitId}

instance : IsPreorder State State.Accrues where
  refl _ := ⟨fun _ _ => id, fun _ => id⟩
  trans _ _ _ h h' := ⟨fun k d => h'.targets k d ∘ h.targets k d, fun k => h'.checked k ∘ h.checked k⟩

theorem State.Done.mono {n : Node} (h : f.Done s u n) (hle : s.Accrues s') : f.Done s' u n where
  target name filter i hn hi := hle.targets _ _ (h.target name filter i hn hi)
  begun htask := hle.checked _ (h.begun htask)

theorem State.Performed.mono {task : Task} (h : f.Performed s u task) (hle : s.Accrues s') : f.Performed s' u task :=
  fun p hp n hn herrand => (h p hp n hn herrand).mono hle

end

/-! ## Tasks under way -/

/-- A task of a bound unit whose names are resolved, which can be begun. -/
structure Task.Due (f : State) (done : UnitId → Prop) (u : UnitId) (task : Task) : Prop
    extends Task.Fits (fun v => (f.unit v).tree) done u task where
  bound : (f.unit u).isBound = true
  named : f.IsNamed u

/-- In a state in which the tasks with the given nodes are under way, all others that have been begun have been
performed. -/
structure State.Tracks (f : State) (root : NodeId) (under : List NodeId) (s : State) : Prop where
  refs : s.types.refs = f.types.refs
  named : ∀ k, s.checked.contains k = true → f.IsNamed k.unit
  performed : ∀ u task, (f.unit u).tree.Has task.node → s.checked.contains ⟨u, task.mark.id⟩ = true →
    (⟨u, task.mark.id⟩ : NodeId) ∉ under → f.Performed s u task
  nodup : under.Nodup
  begun : ∀ k ∈ under, s.checked.contains k = true
  listed : ∀ k ∈ under, k = root ∨ k ∈ f.decls

/-- Having a task performed leaves no other task unfinished. -/
def Tracked (f : State) (done : UnitId → Prop) (root : NodeId) (under : List NodeId)
    (demand : UnitId → Task → Analyze Unit) : Prop :=
  ∀ u task s, Underway (fun v => (f.unit v).tree) done s → f.Tracks root under s → task.Due f done u →
    task.node.isTask = true → f.Tracks root under (demand u task s).2 ∧
      s.Accrues (demand u task s).2 ∧ (demand u task s).2.checked.contains ⟨u, task.mark.id⟩ = true

section

variable {f s s' : State} {done : UnitId → Prop} {root : NodeId} {under : List NodeId} {u : UnitId} {task : Task}

/-- A check has tasks of its own unit performed. -/
theorem Task.Due.visit (h : task.Due f done u) {t : Task} (hhas : (f.unit u).tree.Has t.node)
    (htask : t.node.isTask = true) : t.Due f done u :=
  ⟨⟨h.done, hhas.assigns htask⟩, h.bound, h.named⟩

/-- What begins no task leaves none unfinished. -/
theorem State.Tracks.mono (h : f.Tracks root under s) (hle : s.Accrues s') (hrefs : s'.types.refs = s.types.refs)
    (hchecked : s'.checked = s.checked) : f.Tracks root under s' where
  refs := hrefs.trans h.refs
  named k hk := h.named k (hchecked ▸ hk)
  performed v t hhas hbegun hnot := (h.performed v t hhas (hchecked ▸ hbegun) hnot).mono hle
  nodup := h.nodup
  begun k hk := hle.checked k (h.begun k hk)
  listed := h.listed

theorem Task.eq_of_id {tree : CompilationUnit} (h : tree.Numbered) {task task' : Task} (hhas : tree.Has task.node)
    (hhas' : tree.Has task'.node) (hid : task'.mark.id = task.mark.id) : task' = task :=
  Task.node_injective (h.eq_of_id hhas' hhas (by rw [mark_node, mark_node, hid]))

theorem recordExpr_refs (k : NodeId) (t : Ty) (target : Option DeclId) (s : State) :
    (Checking.recordExpr k t target s).2.types.refs = s.types.refs := by
  change (if t.isKnown then _ else _ : TypeTable).refs = _
  split <;> rfl

section

variable {demand : UnitId → Task → Analyze Unit} (hinference : ∀ d v t, f.inference? d = some (v, t) → t.Due f done v)
  (hdemand : Tracked f done root under demand)
include hinference hdemand

/-- Taking a step of a check leaves no task unfinished but those under way. -/
theorem perform_tracks (hs : Underway (fun v => (f.unit v).tree) done s) (ht : f.Tracks root under s)
    (hdue : task.Due f done u) {act : Act} (hact : act.Within (f.unit u).tree task.node)
    (hpersists : s.Persists (Checking.perform f demand u act s).2) :
    f.Tracks root under (Checking.perform f demand u act s).2 ∧ s.Accrues (Checking.perform f demand u act s).2 := by
  -- the steps other than a demand and a visit begin no task and leave the references alone
  have hstay : ∀ {s' : State}, s.Persists s' → s'.types.refs = s.types.refs → s'.checked = s.checked →
      f.Tracks root under s' ∧ s.Accrues s' := fun hp hrefs hchecked =>
    have hle : s.Accrues _ := ⟨hp.targets, fun k hk => hchecked ▸ hk⟩
    ⟨ht.mono hle hrefs hchecked, hle⟩
  cases act with
  | ask q =>
    cases q with
    | typeOf d =>
      change f.Tracks root under (Checking.demandType f demand d s).2 ∧ s.Accrues (Checking.demandType f demand d s).2
      rw [Checking.demandType, get_bind_apply]
      dsimp only
      split
      · exact ⟨ht, refl_of State.Accrues s⟩
      cases hfound : f.inference? (f.graph.principal d) with
      | none => exact ⟨ht, refl_of State.Accrues s⟩
      | some found =>
        obtain ⟨v, t⟩ := found
        dsimp only
        split
        · exact hstay ⟨fun _ _ => id, fun _ _ => id, fun _ _ => id, fun _ _ => id, fun _ _ => rfl⟩ rfl rfl
        split
        · exact ⟨ht, refl_of State.Accrues s⟩
        · obtain ⟨htracks, hle, -⟩ :=
            hdemand v t s hs ht (hinference _ v t hfound) (State.inference?_eq_some hfound).2.2.1
          exact ⟨htracks, hle⟩
    | problem n message =>
      have hsame := report_sameNotes u n message s
      exact hstay hpersists (congrArg (·.refs) hsame.types) hsame.checked
  | settle m t target => exact hstay hpersists (recordExpr_refs _ t target s) rfl
  | infer m t => exact hstay hpersists rfl rfl
  | visit t =>
    obtain ⟨htracks, hle, -⟩ := hdemand u t s hs ht (hdue.visit hact.1 hact.2) hact.2
    exact ⟨htracks, hle⟩

omit hinference in
/-- The step by which a check handles a node does what there is to do for the node. -/
theorem perform_done (hs : Underway (fun v => (f.unit v).tree) done s) (ht : f.Tracks root under s)
    (hdue : task.Due f done u) {act : Act} (hact : act.Within (f.unit u).tree task.node) {n : Node}
    (hhandles : Act.Handles f u n act) : f.Done (Checking.perform f demand u act s).2 u n := by
  cases hhandles with
  | @reference x name filter hx t =>
    refine ⟨fun name' filter' i hx' hi => ?_, fun htask => by cases htask⟩
    obtain ⟨rfl, rfl⟩ := Prod.mk.inj (Option.some.inj (hx.symm.trans hx'))
    have htarget : f.lookup? u (f.scopeAt u x.mark) name filter = some i.decl := State.lookup?_of_importFor? hi
    rw [htarget]
    exact Std.ExtTreeMap.getElem?_insert_self
  | task t =>
    refine ⟨fun name filter i hn _ => ?_, fun htask => ?_⟩
    · cases t <;> cases hn
    · rw [t.mark_node]
      exact (hdemand u t s hs ht (hdue.visit hact.1 hact.2) hact.2).2.2

end

/-- A state on the way of the check of a task, begun in a state in which the task was under way. -/
structure Checks (f : State) (done : UnitId → Prop) (root : NodeId) (under : List NodeId) (before s : State)
    (u : UnitId) (task : Task) (ids : Multiset Nat) (s' : State) : Prop
    extends Performing (fun v => (f.unit v).tree) done before u task ids s' where
  tracks : f.Tracks root under s'
  accrues : s.Accrues s'

section

variable (hf : f.Layout) (hinference : ∀ d v t, f.inference? d = some (v, t) → t.Due f done v)
include hf hinference

/-- Taking a step of the check of a task. -/
theorem Checks.step {depth : Nat} (hdemand : Tracked f done root under (Checking.performTask f depth))
    (hdue : task.Due f done u) {before : State} {act : Act} {ids : Multiset Nat}
    (hact : act.Within (f.unit u).tree task.node) (h : Checks f done root under before s u task (act.cost + ids) s') :
    Checks f done root under before s u task ids (Checking.perform f (Checking.performTask f depth) u act s').2 ∧
      s'.Accrues (Checking.perform f (Checking.performTask f depth) u act s').2 := by
  -- The step is one of the walk, so what has been recorded before it stays.
  have hwalk : (Checking.actWalk f (Checking.taskWalk f depth) u act).Keeps
      (Performing (fun v => (f.unit v).tree) done before u task (act.cost + ids))
      (Performing (fun v => (f.unit v).tree) done before u task ids) :=
    actWalk_keeps hf.numbered (fun d v t h => (hinference d v t h).toFits)
      (fun v t hfits => taskWalk_performs hf.numbered (fun d v t h => (hinference d v t h).toFits) depth hfits)
      hdue.toFits hact
  have htraces := Checking.actWalk_traces f (Checking.taskWalk_traces f depth) u act
  obtain ⟨htracks, hle⟩ := perform_tracks hinference hdemand h.toUnderway h.tracks hdue hact
    (hwalk.persists htraces h.toPerforming)
  exact ⟨⟨hwalk.result htraces h.toPerforming, htracks, trans_of State.Accrues h.accrues hle⟩, hle⟩

/-- The check of a task does what there is to do for all nodes below its own, and leaves no other task unfinished. -/
theorem check_tracks {depth : Nat} (hdemand : Tracked f done root under (Checking.performTask f depth))
    {before : State} (hs : Performing (fun v => (f.unit v).tree) done before u task task.node.idSet s)
    (ht : f.Tracks root under s) (hdue : task.Due f done u) :
    let r := (task.check f u).run (Checking.perform f (Checking.performTask f depth) u) s
    f.Tracks root under r.2 ∧ s.Accrues r.2 ∧ f.Performed r.2 u task := by
  have hmono : ∀ b b' s', b' ≤ b → Checks f done root under before s u task b s' →
      Checks f done root under before s u task b' s' :=
    fun _ _ _ hb h => ⟨h.toPerforming.mono hb, h.tracks, h.accrues⟩
  have hstep := fun (act : Act) ids s' hact (h : Checks f done root under before s u task (act.cost + ids) s') =>
    h.step hf hinference hdemand hdue hact
  have hsettles := task.check_settles (f := f) (u := u) hdue.assigns
  have hbegin : Checks f done root under before s u task task.node.idSet s := ⟨hs, ht, refl_of State.Accrues s⟩
  have hend := hsettles.run hmono (fun act ids s' hact h => (hstep act ids s' hact h).1) hbegin
  refine ⟨hend.tracks, hend.accrues, fun p hp n hn herrand => ?_⟩
  refine Dialogue.Raises.run (G := fun s' => f.Done s' u n) hmono (fun act ids s' hact h => (hstep act ids s' hact h).1)
    (fun act ids s' hact h hdone => ?_) hsettles hbegin (.inl (task.check_meets p hp n hn herrand))
  rcases hdone with hhandles | hdone
  · exact perform_done hdemand h.toUnderway h.tracks hdue hact hhandles
  · exact hdone.mono (hstep act ids s' hact h).2

omit hf hinference in
theorem State.accrues_beginning (s : State) (u : UnitId) (task : Task) : s.Accrues (s.beginning u task) :=
  ⟨fun _ _ => id, fun k hk => by simp [beginning, hk]⟩

omit hf hinference in
/-- A task that begins is under way. -/
theorem State.Tracks.begin (h : f.Tracks root under s) (hnew : s.checked.contains ⟨u, task.mark.id⟩ = false)
    (hnamed : f.IsNamed u) (hlisted : (⟨u, task.mark.id⟩ : NodeId) = root ∨ (⟨u, task.mark.id⟩ : NodeId) ∈ f.decls) :
    f.Tracks root (⟨u, task.mark.id⟩ :: under) (s.beginning u task) := by
  have hle := s.accrues_beginning u task
  have hbegun : ∀ k, (s.beginning u task).checked.contains k = true →
      k = ⟨u, task.mark.id⟩ ∨ s.checked.contains k = true := by
    intro k hk
    simp only [State.beginning, Std.ExtTreeSet.contains_insert, Bool.or_eq_true, beq_iff_eq] at hk
    exact hk.imp (fun heq => (Std.LawfulEqOrd.eq_of_compare heq).symm) id
  refine ⟨h.refs, fun k hk => ?_, fun v t hhas hk hnot => ?_, ?_, ?_, List.forall_mem_cons.mpr ⟨hlisted, h.listed⟩⟩
  · exact (hbegun k hk).elim (fun heq => heq ▸ hnamed) (h.named k)
  · rw [List.mem_cons, not_or] at hnot
    exact (h.performed v t hhas ((hbegun _ hk).resolve_left hnot.1) hnot.2).mono hle
  · exact List.nodup_cons.mpr ⟨fun hmem => absurd (hnew.symm.trans (h.begun _ hmem)) Bool.false_ne_true, h.nodup⟩
  · exact List.forall_mem_cons.mpr ⟨by simp [State.beginning], fun k hk => hle.checked k (h.begun k hk)⟩

omit hinference in
/-- A task that has been performed is not under way any more. -/
theorem State.Tracks.finish (h : f.Tracks root (⟨u, task.mark.id⟩ :: under) s)
    (hhas : (f.unit u).tree.Has task.node) (hperformed : f.Performed s u task) : f.Tracks root under s where
  refs := h.refs
  named := h.named
  performed v t hhas' hbegun hnot := by
    by_cases hkey : (⟨v, t.mark.id⟩ : NodeId) = ⟨u, task.mark.id⟩
    · obtain ⟨rfl, hid⟩ := NodeId.mk.inj hkey
      obtain rfl := Task.eq_of_id (hf.numbered v) hhas hhas' hid
      exact hperformed
    · exact h.performed v t hhas' hbegun (by simp [hkey, hnot])
  nodup := (List.nodup_cons.mp h.nodup).2
  begun k hk := h.begun k (List.mem_cons_of_mem _ hk)
  listed k hk := h.listed k (List.mem_cons_of_mem _ hk)

/-- A task that is performed, and is not refused for lack of depth, leaves no task unfinished but those under way. -/
theorem performTask_tracks (depth : Nat) (hs : Underway (fun v => (f.unit v).tree) done s) (ht : f.Tracks root under s)
    (hdepth : f.decls.size + 2 ≤ depth + under.length) (hdue : task.Due f done u)
    (hlisted : (⟨u, task.mark.id⟩ : NodeId) = root ∨ (⟨u, task.mark.id⟩ : NodeId) ∈ f.decls) :
    f.Tracks root under (Checking.performTask f depth u task s).2 ∧
      s.Accrues (Checking.performTask f depth u task s).2 ∧
      (Checking.performTask f depth u task s).2.checked.contains ⟨u, task.mark.id⟩ = true := by
  -- On the depth. The tasks under way are distinct declarations, so there are never more of them than the
  -- table has, and the depth does not run out.
  induction depth generalizing u task under s with
  | zero =>
    have hlength := length_le_of_listed ht.nodup ht.listed
    omega
  | succ depth ih =>
    cases hnew : s.checked.contains ⟨u, task.mark.id⟩ with
    | true =>
      rw [Checking.performTask, get_bind_apply, if_pos hnew]
      exact ⟨ht, refl_of State.Accrues s, hnew⟩
    | false =>
      have hbegun := ht.begin hnew hdue.named hlisted
      have hdemand : Tracked f done root (⟨u, task.mark.id⟩ :: under) (Checking.performTask f depth) := by
        intro v t s' hs' ht' hdue' htask
        refine ih hs' ht' (by simp only [List.length_cons]; omega) hdue' (.inr ?_)
        exact t.mark_node ▸ hf.listed ⟨hdue'.bound, hdue'.assigns.has⟩ (Node.declKind_of_isTask htask)
      obtain ⟨htracks, hle, hperformed⟩ := check_tracks hf hinference hdemand
        (hs.performing hf.numbered hdue.toFits hnew _) hbegun hdue
      rw [performTask_of_new f depth hnew]
      have hend : ∀ (s' : State) (t : Ty), s'.Accrues (s'.ending u task t) := fun _ _ => ⟨fun _ _ => id, fun _ => id⟩
      refine ⟨(htracks.finish hf hdue.assigns.has hperformed).mono (hend _ _) rfl rfl, ?_, ?_⟩
      · exact trans_of State.Accrues (trans_of State.Accrues (s.accrues_beginning u task) hle) (hend _ _)
      · exact (hend _ _).checked _ (htracks.begun _ List.mem_cons_self)

end

end

/-! ## Units -/

section

variable {s s' : State} {u : UnitId}

/-- Whether a name is found by an import does not depend on what checking finds out. -/
theorem State.importFor?_facts (s : State) (u : UnitId) (m : Mark) (name : String) (filter : Filter) :
    s.facts.importFor? u m name filter = s.importFor? u m name filter := by
  have hgraph : ∀ imports c,
      s.facts.graph.importFor? imports name filter c = s.graph.importFor? imports name filter c := by
    intro imports c
    induction c with
    | nil => rfl
    | cons σ outer ih =>
      rw [Graph.importFor?, Graph.importFor?, ih]
      cases σ <;> rfl
  rw [importFor?, hgraph, unit_facts]
  rfl

theorem State.isNamed_facts : s.facts.IsNamed u ↔ s.IsNamed u := by
  rw [IsNamed, unit_facts, UnitState.facts]
  dsimp only
  split
  · next h => exact ⟨fun _ => h, fun _ => rfl⟩
  · exact Iff.rfl

theorem State.performed_facts {task : Task} : s.facts.Performed s' u task ↔ s.Performed s' u task := by
  have hdone : ∀ n, s.facts.Done s' u n ↔ s.Done s' u n := fun n =>
    ⟨fun h => ⟨fun name filter i hn hi => h.target name filter i hn ((s.importFor?_facts ..).trans hi), h.begun⟩,
      fun h => ⟨fun name filter i hn hi => h.target name filter i hn ((s.importFor?_facts ..).symm.trans hi), h.begun⟩⟩
  simp only [Performed, hdone]

theorem due_of_inference? (hs : s.InOrder) {d : DeclId} {task : Task} (h : s.facts.inference? d = some (u, task)) :
    task.Due s.facts (fun v => s.isSettled v) u := by
  obtain ⟨hdone, hassigns⟩ := fits_of_inference? hs h
  obtain ⟨hbound, -, hphase⟩ := State.isReady_iff.mp (State.isReady_of_inference? h)
  exact ⟨⟨hdone, by rwa [s.unit_facts]⟩, hbound, hphase⟩

/-- Checking a unit leaves no task unfinished that has been begun, and begins that of the unit. -/
theorem checkExpressions_tracks (hs : s.InOrder) (hrecorded : s.Recorded) (hfine : (s.unit u).failure = none)
    (hphase : (s.unit u).phase = .namesResolved) (hbound : (s.unit u).isBound = true)
    (hnamed : ∀ k, s.checked.contains k = true → s.IsNamed k.unit)
    (hperformed : ∀ v task, (s.unit v).tree.Has task.node → s.checked.contains ⟨v, task.mark.id⟩ = true →
      s.Performed s v task) :
    s.facts.Tracks ⟨u, (s.unit u).tree.mark.id⟩ [] (checkExpressions u s).2 ∧ s.Accrues (checkExpressions u s).2 ∧
      (checkExpressions u s).2.checked.contains ⟨u, (s.unit u).tree.mark.id⟩ = true := by
  have htree : (fun v => (s.facts.unit v).tree) = fun v => (s.unit v).tree := funext fun v => by
    rw [s.unit_facts]
    rfl
  have hsettled : s.isSettled u := by
    rw [State.isSettled, hphase]
    exact Bool.or_true _
  have hunderway : Underway (fun v => (s.facts.unit v).tree) (fun v => s.isSettled v)
      (logStep u .checked "checking expressions" s).2 := by
    rw [htree]
    exact Underway.of_sameNotes ⟨hrecorded, fun _ => rfl⟩ (logStep_sameNotes u _ _ s)
  -- before the unit is checked no task is under way, and the tasks of other units that have begun are done
  have htracks : s.facts.Tracks ⟨u, (s.unit u).tree.mark.id⟩ [] (logStep u .checked "checking expressions" s).2 := by
    refine ⟨rfl, fun k hk => State.isNamed_facts.mpr (hnamed k hk), fun v task hhas hk _ => ?_, List.nodup_nil,
      List.forall_mem_nil _, List.forall_mem_nil _⟩
    rw [s.unit_facts] at hhas
    exact State.performed_facts.mpr ((hperformed v task hhas hk).mono ⟨fun _ _ => id, fun _ => id⟩)
  have hdue : Task.Due s.facts (fun v => s.isSettled v) u (.unit (s.unit u).tree) := by
    refine ⟨⟨hsettled, ?_⟩, ?_, State.isNamed_facts.mpr ?_⟩
    · rw [s.unit_facts]
      exact (s.unit u).tree.assigns_unit
    · rwa [s.unit_facts]
    · rw [State.IsNamed, hphase]
      rfl
  have hdepth : s.facts.decls.size + 2 ≤ s.decls.size + 2 + ([] : List NodeId).length := le_rfl
  obtain ⟨hend, hle, hbegun⟩ := performTask_tracks (s.sameLayout_facts.layout hs.layout)
    (fun d v t => due_of_inference? hs) (s.decls.size + 2) hunderway htracks hdepth hdue (.inl rfl)
  rw [checkExpressions, get_bind_apply]
  simp only [hfine, hphase, Option.isSome_none, Bool.false_eq_true, ne_eq, not_true_eq_false, decide_false,
    Bool.or_self, if_false]
  exact ⟨hend.mono ⟨fun _ _ => id, fun _ => id⟩ rfl rfl, ⟨hle.targets, hle.checked⟩, hbegun⟩

end

end Analysis

end Ceylon
