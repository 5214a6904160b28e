import Ceylon.Proofs.Records
import Ceylon.Proofs.Settling

/-!
# Checking records once

While the expressions of a unit are checked, tasks are begun one inside the other, in this unit and in others,
each at most once.  What a task records concerns the nodes that are assigned to it, so it leaves alone all nodes of
tasks that have been begun before (`Leaves`), and nothing is recorded for its own when it is begun
(`State.Noted.pending`).  As it settles each of its expressions once, and gives each of its variables a type once,
whatever has been recorded stays (`checkWalk_keeps`).
-/

namespace Ceylon

namespace Analysis

open Model Syntax Walk

/-- The units of a state have the given trees, and in those that are done some may have been checked. -/
structure Underway (tree : UnitId → CompilationUnit) (done : UnitId → Prop) (s : State) : Prop
    extends s.Noted done where
  trees : ∀ u, (s.unit u).tree = tree u

/-- From the first state to the second, what checking has recorded for a node has not changed. -/
structure State.SameAt (s s' : State) (k : NodeId) : Prop where
  expr : s'.types.exprs[k]? = s.types.exprs[k]?
  inferred : s'.graph.inferred[k]? = s.graph.inferred[k]?
  target : s'.targets[k]? = s.targets[k]?

theorem State.SameAt.trans {s s' s'' : State} {k : NodeId} (h : s.SameAt s' k) (h' : s'.SameAt s'' k) :
    s.SameAt s'' k :=
  ⟨h'.expr.trans h.expr, h'.inferred.trans h.inferred, h'.target.trans h.target⟩

/-- A node nobody has written to stays so while its notes stay the same. -/
theorem State.Untouched.of_sameAt {s s' : State} {u : UnitId} {n : Node} (hs : s.Untouched u n)
    (h : s.SameAt s' ⟨u, n.mark.id⟩) : s'.Untouched u n :=
  ⟨h.expr.trans hs.expr, h.inferred.trans hs.inferred, fun x hx => h.target.trans (hs.target x hx)⟩

/-- From the first state to the second, nothing has been recorded for the nodes that are assigned to tasks begun
before. -/
structure Leaves (tree : UnitId → CompilationUnit) (s s' : State) : Prop where
  begun : ∀ k, s.checked.contains k → s'.checked.contains k
  nodes : ∀ u task n, (tree u).Assigns task n → s.checked.contains ⟨u, task.mark.id⟩ → s.SameAt s' ⟨u, n.mark.id⟩

/-- The frame of a walk composes over its steps. -/
instance (tree : UnitId → CompilationUnit) : IsPreorder State (Leaves tree) where
  refl _ := ⟨fun _ => id, fun _ _ _ _ _ => ⟨rfl, rfl, rfl⟩⟩
  trans _ _ _ h h' := ⟨fun k => h'.begun k ∘ h.begun k, fun u task n hn hbegun =>
    (h.nodes u task n hn hbegun).trans (h'.nodes u task n hn (h.begun _ hbegun))⟩

/-- A walk keeps what has been recorded, and leaves alone what concerns the tasks begun before it. -/
def Walk.Performs (tree : UnitId → CompilationUnit) (done : UnitId → Prop) {α : Type} (w : Walk α) : Prop :=
  ∀ s, Underway tree done s → w.Keeps (· = s) fun s' => Underway tree done s' ∧ Leaves tree s s'

section

variable {tree : UnitId → CompilationUnit} {done : UnitId → Prop} {s s' : State}

/-- The invariant of a walk under way reads notes and marks only, so a step that keeps the notes keeps it. -/
theorem Underway.of_sameNotes (h : Underway tree done s) (hsame : s.SameNotes s') : Underway tree done s' where
  toNoted := h.toNoted.of_sameNotes hsame fun _ => id
  trees u := (hsame.tree u).trans (h.trees u)

/-- A step that keeps the notes is within every frame. -/
theorem leaves_of_sameNotes (h : s.SameNotes s') : Leaves tree s s' where
  begun _ hk := h.checked ▸ hk
  nodes _ _ _ _ _ := ⟨by rw [h.types], by rw [h.inferred], by rw [h.targets]⟩

namespace Walk.Performs

variable {α β : Type}

/-- The walk that does nothing is within its frame. -/
theorem pure (a : α) : Performs tree done (Pure.pure a) :=
  fun s hs => (Keeps.pure a).mono (fun _ => id) <| by
    rintro _ rfl
    exact ⟨hs, refl_of (Leaves tree) _⟩

/-- Sequencing within the frame. -/
theorem bind {w : Walk α} {f : α → Walk β} (h : Performs tree done w) (hf : ∀ a, Performs tree done (f a)) :
    Performs tree done (w >>= f) := fun s hs =>
  (h s hs).bind fun a => .of_eq fun s' hs' => (hf a s' hs'.1).mono (fun _ => id) fun _ h =>
    ⟨h.1, trans_of (Leaves tree) hs'.2 h.2⟩

/-- A look at the state stays within the frame when every continuation does. -/
theorem look_bind {f : State → Walk β} (hf : ∀ s, Performs tree done (f s)) :
    Performs tree done (look >>= f) :=
  fun s hs => .look_bind <| by
    rintro _ rfl
    exact hf _ _ hs

/-- One step performs when it persists, keeps the invariant and stays within the frame. -/
theorem step {m : Analyze α} (h : ∀ s, Underway tree done s →
    s.Persists (m s).2 ∧ Underway tree done (m s).2 ∧ Leaves tree s (m s).2) : Performs tree done (Walk.step m) :=
  fun s hs => .step <| by
    rintro _ rfl
    exact h _ hs

/-- A step that keeps the notes performs. -/
theorem step_of_sameNotes {m : Analyze α} (h : Leads State.SameNotes m) : Performs tree done (Walk.step m) :=
  .step fun s hs => ⟨(h s).persists, hs.of_sameNotes (h s), leaves_of_sameNotes (h s)⟩

end Walk.Performs

/-- From the first state to the second, checking has recorded something for one node, and nothing else has
changed. -/
structure State.RecordsAt (k : NodeId) (s s' : State) : Prop where
  units : s'.units = s.units
  decls : s'.graph.decls = s.graph.decls
  scopes : s'.scopes = s.scopes
  checked : s'.checked = s.checked
  others : ∀ k', k' ≠ k → s.SameAt s' k'

/-- Recording something for a node of a unit that is done. -/
theorem Underway.record {k : NodeId} (h : Underway tree done s) (hrec : s.RecordsAt k s') (hk : done k.unit)
    (hpending : ∀ u task n, (tree u).Assigns task n → s.checked.contains ⟨u, task.mark.id⟩ = false →
      (⟨u, n.mark.id⟩ : NodeId) ≠ k) : Underway tree done s' where
  -- Each table changes at `k` only, and `k` is assigned to no task that has yet to begin.
  scopes k' hk' := by
    rw [State.unit, hrec.units]
    exact h.scopes k' (hrec.scopes ▸ hk')
  exprs k' hk' := by
    by_cases heq : k' = k
    · exact heq ▸ hk
    · exact h.exprs k' ((hrec.others k' heq).expr ▸ hk')
  inferred k' hk' := by
    by_cases heq : k' = k
    · exact heq ▸ hk
    · exact h.inferred k' ((hrec.others k' heq).inferred ▸ hk')
  targets k' hk' := by
    by_cases heq : k' = k
    · exact heq ▸ hk
    · exact h.targets k' ((hrec.others k' heq).target ▸ hk')
  declared d u hunit hknown := by
    rw [Graph.decl, hrec.decls] at hunit hknown
    exact h.declared d u hunit hknown
  checked k' hk' := h.checked k' (hrec.checked ▸ hk')
  pending u task n hn hbegun := by
    rw [State.unit, hrec.units] at hn
    rw [hrec.checked] at hbegun
    refine (h.pending u task n hn hbegun).of_sameAt (hrec.others _ (hpending u task n ?_ hbegun))
    rw [← h.trees]
    exact hn
  trees u := by
    rw [State.unit, hrec.units]
    exact h.trees u

section

variable {k : NodeId} {t : Ty} {target : Option DeclId}

/-- Recording an inferred type writes at one node. -/
theorem recordInferred_recordsAt (s : State) (k : NodeId) (t : Ty) :
    s.RecordsAt k (Checking.recordInferred k t s).2 :=
  ⟨rfl, rfl, rfl, rfl, fun _ hk => ⟨rfl, getElem?_insertIfNew_of_ne hk.symm, rfl⟩⟩

/-- The first type that is inferred stays. -/
theorem recordInferred_persists (s : State) (k : NodeId) (t : Ty) : s.Persists (Checking.recordInferred k t s).2 :=
  ⟨fun _ _ => id, fun _ _ => id, fun _ _ => id, fun _ _ => id, fun _ hd =>
    Graph.typeOf_persists rfl rfl rfl (fun _ _ => getElem?_insertIfNew_of_some) hd⟩

/-- Recording an expression sets the target of no other node. -/
theorem recordExpr_targets {k' : NodeId} (h : k' ≠ k) :
    (Checking.recordExpr k t target s).2.targets[k']? = s.targets[k']? := by
  cases target with
  | none => rfl
  | some d => exact getElem?_insert_of_ne h.symm

/-- Recording an expression writes at one node. -/
theorem recordExpr_recordsAt (s : State) (k : NodeId) (t : Ty) (target : Option DeclId) :
    s.RecordsAt k (Checking.recordExpr k t target s).2 := by
  refine ⟨rfl, rfl, rfl, rfl, fun k' hk => ⟨?_, rfl, recordExpr_targets hk⟩⟩
  change (if t.isKnown then _ else _ : TypeTable).exprs[k']? = _
  split
  · exact getElem?_insertIfNew_of_ne hk.symm
  · rfl

/-- The first type of an expression stays, and so does its target, if it is recorded for the first time. -/
theorem recordExpr_persists (hk : s.targets[k]? = none) : s.Persists (Checking.recordExpr k t target s).2 where
  scopes _ _ := id
  decls _ _ := id
  types k' t' hk' := by
    change (if t.isKnown then _ else _ : TypeTable).get? k' = some t'
    split
    · rw [TypeTable.get?_eq_some] at hk' ⊢
      exact hk'.imp id fun hk' => ⟨hk'.1, getElem?_insertIfNew_of_some hk'.2⟩
    · exact hk'
  targets k' d hk' := by
    rw [recordExpr_targets fun heq => ?_, hk']
    rw [heq, hk] at hk'
    cases hk'
  typeOf _ _ := rfl

end

/-! ## Tasks -/

/-- A task that can be begun: it is that of a node of a unit that is done. -/
structure Task.Fits (tree : UnitId → CompilationUnit) (done : UnitId → Prop) (u : UnitId) (task : Task) : Prop where
  done : done u
  assigns : (tree u).Assigns task.node task.node

/-- A task of a unit is under way since the first state, and may still record something for nodes with the given
numbers: it has come to none of those yet that are assigned to it, nor to the type that it infers itself. -/
structure Performing (tree : UnitId → CompilationUnit) (done : UnitId → Prop) (s : State) (u : UnitId) (task : Task)
    (ids : Multiset Nat) (s' : State) : Prop extends Underway tree done s' where
  leaves : Leaves tree s s'
  new : s.checked.contains ⟨u, task.mark.id⟩ = false
  begun : s'.checked.contains ⟨u, task.mark.id⟩
  nodup : ids.Nodup
  blank : ∀ n, (tree u).Assigns task.node n → n.mark.id ∈ ids → s'.Untouched u n
  own : s'.graph.inferred[(⟨u, task.mark.id⟩ : NodeId)]? = none

section

variable {u : UnitId} {task : Task} {ids ids' : Multiset Nat} {s'' : State}

/-- A task is about a statement or a declaration, not about an expression. -/
theorem Task.node_ne_expr (task : Task) (x : Expr) : task.node ≠ .expr x := by
  cases task <;> exact nofun

/-- Nor is it about a variable on its own. -/
theorem Task.node_ne_variable (task : Task) (v : Variable) : task.node ≠ .variable v := by
  cases task <;> exact nofun

/-- A task that may still write fewer nodes is within a task that may write more. -/
theorem Performing.mono (h : Performing tree done s u task ids s') (hids : ids' ≤ ids) :
    Performing tree done s u task ids' s' :=
  { h with
    nodup := Multiset.nodup_of_le hids h.nodup
    blank := fun n hn hid => h.blank n hn (Multiset.mem_of_le hids hid) }

/-- What is done for other tasks does not concern one that is under way. -/
theorem Performing.leave (h : Performing tree done s u task ids s') (hfits : Task.Fits tree done u task)
    (hs : Underway tree done s'') (hleaves : Leaves tree s' s'') : Performing tree done s u task ids s'' where
  toUnderway := hs
  leaves := trans_of (Leaves tree) h.leaves hleaves
  new := h.new
  begun := hleaves.begun _ h.begun
  nodup := h.nodup
  blank n hn hid :=
    (h.blank n hn hid).of_sameAt (hleaves.nodes u task.node n hn (by rw [task.mark_node]; exact h.begun))
  own := by
    have hsame := hleaves.nodes u task.node task.node hfits.assigns (by rw [task.mark_node]; exact h.begun)
    rw [task.mark_node] at hsame
    exact hsame.inferred.trans h.own

/-- A walk that performs under a task leaves the task at work. -/
theorem Walk.Performs.keeps {α : Type} {w : Walk α} (h : w.Performs tree done) (hfits : Task.Fits tree done u task)
    (hids : ids ≤ ids') : w.Keeps (Performing tree done s u task ids') (Performing tree done s u task ids) :=
  .of_eq fun s' hs' => (h s' hs'.toUnderway).mono (fun _ => id) fun _ h => (hs'.mono hids).leave hfits h.1 h.2

variable (hnumbered : ∀ u, (tree u).Numbered)
include hnumbered

/-- When a task is begun, nothing has been recorded for the nodes that are assigned to it. -/
theorem Underway.performing (h : Underway tree done s) (hfits : Task.Fits tree done u task)
    (hnew : s.checked.contains ⟨u, task.mark.id⟩ = false) (inferring : List NodeId) :
    Performing tree done s u task task.node.idSet
      { s with checked := s.checked.insert ⟨u, task.mark.id⟩, inferring } where
  toNoted := { h.toNoted with
    checked := fun k hk => by
      rw [Std.ExtTreeSet.contains_insert, Bool.or_eq_true, beq_iff_eq] at hk
      rcases hk with heq | hk
      · exact (Std.LawfulEqOrd.eq_of_compare heq) ▸ hfits.done
      · exact h.checked k hk
    -- A task that has not been begun now had not been begun before.
    pending := fun v task' n hn hbegun => by
      rw [Std.ExtTreeSet.contains_insert, Bool.or_eq_false_iff] at hbegun
      exact (h.pending v task' n hn hbegun.2).of_tables rfl rfl rfl }
  trees := h.trees
  leaves := ⟨fun k hk => by simp [hk], fun _ _ _ _ _ => ⟨rfl, rfl, rfl⟩⟩
  new := hnew
  begun := Std.ExtTreeSet.contains_insert_self
  nodup := (hnumbered u).nodup_idSet hfits.assigns.has
  blank n hn _ := (h.pending u task.node n (by rwa [h.trees]) (by rwa [task.mark_node])).of_tables rfl rfl rfl
  own := by
    have hfresh := h.pending u task.node task.node (by rw [h.trees]; exact hfits.assigns) (by rwa [task.mark_node])
    rw [← task.mark_node]
    exact hfresh.inferred

/-- Recording something for a node that is assigned to a task under way concerns no other task. -/
theorem Performing.record {n : Node} (h : Performing tree done s u task ids s') (hdone : done u)
    (hn : (tree u).Assigns task.node n) (hrec : s'.RecordsAt ⟨u, n.mark.id⟩ s'') :
    Underway tree done s'' ∧ Leaves tree s s'' := by
  -- A node that is assigned to another task has another number.
  have hother : ∀ v task' n', (tree v).Assigns task' n' → (⟨v, task'.mark.id⟩ : NodeId) ≠ ⟨u, task.mark.id⟩ →
      (⟨v, n'.mark.id⟩ : NodeId) ≠ ⟨u, n.mark.id⟩ := by
    intro v task' n' hn' hne heq
    obtain ⟨rfl, hid⟩ := NodeId.mk.inj heq
    exact hne (by rw [hn'.unique (hnumbered v) hn hid, task.mark_node])
  refine ⟨h.toUnderway.record hrec hdone fun v task' n' hn' hbegun => hother v task' n' hn' fun heq => ?_,
    fun k hk => hrec.checked ▸ h.leaves.begun k hk, fun v task' n' hn' hbegun => ?_⟩
  · rw [heq, h.begun] at hbegun
    cases hbegun
  · refine (h.leaves.nodes v task' n' hn' hbegun).trans (hrec.others _ (hother v task' n' hn' fun heq => ?_))
    rw [heq, h.new] at hbegun
    cases hbegun

/-- Recording something for a node of a task under way, for the first time. -/
theorem Performing.advance {n : Node} (h : Performing tree done s u task ({n.mark.id} + ids) s')
    (hfits : Task.Fits tree done u task) (hn : (tree u).Assigns task.node n) (hne : n ≠ task.node)
    (hrec : s'.RecordsAt ⟨u, n.mark.id⟩ s'') : Performing tree done s u task ids s'' := by
  obtain ⟨-, hids, hdisjoint⟩ := Multiset.nodup_add.mp h.nodup
  obtain ⟨hunderway, hleaves⟩ := h.record hnumbered hfits.done hn hrec
  refine ⟨hunderway, hleaves, h.new, hrec.checked ▸ h.begun, hids, fun n' hn' hid => ?_, ?_⟩
  · refine (h.blank n' hn' (Multiset.mem_add.mpr (.inr hid))).of_sameAt (hrec.others _ fun heq => ?_)
    have hid' : n'.mark.id = n.mark.id := congrArg (·.id) heq
    rw [hid'] at hid
    exact Multiset.disjoint_left.mp hdisjoint (Multiset.mem_singleton_self _) hid
  · refine (hrec.others ⟨u, task.mark.id⟩ fun heq => hne ?_).inferred.trans h.own
    have hid : task.node.mark.id = n.mark.id := by
      rw [task.mark_node]
      exact congrArg (·.id) heq
    exact ((hnumbered u).eq_of_id hfits.assigns.has hn.has hid).symm

section

variable {f : State} (hinference : ∀ d v t, f.inference? d = some (v, t) → Task.Fits tree done v t)
  {demand : UnitId → Task → Walk Unit}
  (hdemand : ∀ v t, Task.Fits tree done v t → (demand v t).Performs tree done)
include hinference hdemand

omit hnumbered in
/-- Demanding the type of a declaration performs: the task it starts is recorded as begun first. -/
theorem demandWalk_performs (d : DeclId) : (Checking.demandWalk f demand d).Performs tree done := by
  refine .look_bind fun s => ?_
  dsimp only
  split
  · exact .pure _
  split
  · exact .pure _
  next v t ht =>
  split
  · exact .bind (.step_of_sameNotes fun _ => ⟨rfl, rfl, rfl, rfl, rfl, rfl, rfl, fun _ => rfl, fun _ => rfl⟩)
      fun _ => .pure _
  split
  · exact .pure _
  · exact .bind (hdemand v t (hinference _ v t ht)) fun _ => .look_bind fun _ => .pure _

/-- What a step of a check costs is settled by it. -/
theorem actWalk_keeps (hfits : Task.Fits tree done u task) {act : Act} (hact : act.Within (tree u) task.node) :
    (Checking.actWalk f demand u act).Keeps (Performing tree done s u task (act.cost + ids))
      (Performing tree done s u task ids) := by
  have hids : ∀ b : Multiset Nat, ids ≤ b + ids := Multiset.le_add_left ids
  cases act with
  | ask q =>
    cases q with
    | typeOf d => exact (demandWalk_performs hinference hdemand d).keeps hfits (hids _)
    | problem n message => exact (Performs.step_of_sameNotes (report_sameNotes u n message)).keeps hfits (hids _)
  | settle m t target =>
    obtain ⟨x, hx, rfl⟩ := hact
    refine .step fun s' hs' => ⟨recordExpr_persists ?_, ?_⟩
    · exact (hs'.blank _ hx (Multiset.mem_add.mpr (.inl (Multiset.mem_singleton_self _)))).target x rfl
    · exact Performing.advance (n := .expr x) hnumbered hs' hfits hx (task.node_ne_expr x).symm
        (recordExpr_recordsAt ..)
  | infer m t =>
    obtain ⟨v, hv, -, rfl⟩ := hact
    refine .step fun s' hs' => ⟨recordInferred_persists .., ?_⟩
    exact Performing.advance (n := .variable v) hnumbered hs' hfits hv (task.node_ne_variable v).symm
      (recordInferred_recordsAt ..)
  | visit t => exact (hdemand u t ⟨hfits.done, hact.1.assigns hact.2⟩).keeps hfits (hids _)

/-- What the check of a task costs in all is settled by it. -/
theorem checkRun_keeps (hfits : Task.Fits tree done u task) :
    ((task.check f u).run (Checking.actWalk f demand u)).Keeps (Performing tree done s u task task.node.idSet)
      (Performing tree done s u task 0) :=
  .run (fun _ _ _ hids h => h.mono hids) (fun _ _ hact => actWalk_keeps hnumbered hinference hdemand hfits hact)
    (task.check_settles hfits.assigns)

end

/-- A task settles its expressions once, whatever other tasks it demands or visits. -/
theorem taskWalk_performs {f : State} (hinference : ∀ d v t, f.inference? d = some (v, t) → Task.Fits tree done v t)
    (depth : Nat) (hfits : Task.Fits tree done u task) :
    (Checking.taskWalk f depth u task).Performs tree done := by
  induction depth generalizing u task with
  | zero => exact .pure _
  | succ depth ih =>
    refine fun _ hs => .look_bind fun s heq => ?_
    subst heq
    split
    · exact Performs.pure _ _ hs
    · next hnew =>
      have hbegun := hs.performing hnumbered hfits (Bool.eq_false_iff.mpr hnew)
      refine .bind (Q := Performing tree done s u task task.node.idSet) (.step ?_) fun _ =>
        .bind (checkRun_keeps hnumbered hinference (fun v t => ih) hfits) fun t => ?_
      · rintro _ rfl
        exact ⟨⟨fun _ _ => id, fun _ _ => id, fun _ _ => id, fun _ _ => id, fun _ _ => rfl⟩, hbegun _⟩
      · -- When the task is done, it is no longer being inferred, which the notes do not tell.
        have hended : (step (modify fun s : State =>
            { s with inferring := s.inferring.erase ⟨u, task.mark.id⟩ })).Performs tree done :=
          .step_of_sameNotes fun _ => ⟨rfl, rfl, rfl, rfl, rfl, rfl, rfl, fun _ => rfl, fun _ => rfl⟩
        refine .bind (hended.keeps hfits le_rfl) fun _ => ?_
        split
        · refine .step fun s' hs' => ⟨recordInferred_persists .., ?_⟩
          exact hs'.record hnumbered hfits.done hfits.assigns (task.mark_node ▸ recordInferred_recordsAt ..)
        · exact (Keeps.pure _).mono (fun _ => id) fun s' hs' => ⟨hs'.toUnderway, hs'.leaves⟩

end

end

/-! ## Units -/

/-- A type is inferred only in a unit that is settled. -/
theorem State.isSettled_of_inference? {s : State} {d : DeclId} {u : UnitId} {task : Task}
    (h : s.facts.inference? d = some (u, task)) : s.isSettled u := by
  have hready := State.isReady_of_inference? h
  simp only [State.isReady, State.unit_facts, UnitState.facts, Bool.and_eq_true] at hready
  rw [State.isSettled, Bool.or_eq_true]
  refine .inr (Eq.trans ?_ hready.2)
  split
  · next hlate => exact hlate
  · rfl

/-- The task that infers the type of a declaration belongs to a unit whose tree assigns it. -/
theorem fits_of_inference? {s : State} (hs : s.InOrder) {d : DeclId} {u : UnitId} {task : Task}
    (h : s.facts.inference? d = some (u, task)) :
    Task.Fits (fun v => (s.unit v).tree) (fun v => s.isSettled v) u task where
  done := State.isSettled_of_inference? h
  assigns := (hs.layout.hasNode_of_inference? h).2.assigns (State.inference?_eq_some h).2.2.1

/-- Checking the expressions of a unit keeps what has been recorded. -/
theorem checkWalk_keeps {s : State} (hs : s.InOrder) (h : s.Recorded) (u : UnitId) :
    (checkWalk u).Keeps (· = s) fun s' => s'.Noted fun v => s.isSettled v := by
  refine .look_bind fun s heq => ?_
  subst heq
  dsimp only
  split
  · exact (Keeps.pure _).mono (fun _ => id) fun s' hs' => hs' ▸ h
  · next hready =>
    -- A unit that is to be checked has its names resolved, and so is settled.
    have hsettled : s.isSettled u := by
      simp only [Bool.or_eq_true, decide_eq_true_eq, not_or, not_not] at hready
      rw [State.isSettled, hready.2]
      exact Bool.or_true _
    have hunderway : Underway (fun v => (s.unit v).tree) (fun v => s.isSettled v) s := ⟨h, fun _ => rfl⟩
    have hlog : (step (logStep u .checked "checking expressions")).Performs
        (fun v => (s.unit v).tree) (fun v => s.isSettled v) := .step_of_sameNotes (logStep_sameNotes u _ _)
    have hfits : Task.Fits (fun v => (s.unit v).tree) (fun v => s.isSettled v) u (.unit (s.unit u).tree) :=
      ⟨hsettled, (s.unit u).tree.assigns_unit⟩
    have htask := taskWalk_performs hs.layout.numbered (fun d v t => fits_of_inference? hs) (s.decls.size + 2) hfits
    have hphase : (step (setPhase u .checked)).Performs
        (fun v => (s.unit v).tree) (fun v => s.isSettled v) := .step_of_sameNotes (setPhase_sameNotes u _)
    exact ((hlog.bind fun _ => htask.bind fun _ => hphase) s hunderway).mono (fun _ => id)
      fun s' hs' => hs'.1.toNoted

end Analysis

end Ceylon
