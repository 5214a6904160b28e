import Ceylon.Proofs.BoundUnits

/-!
# Which nodes a task checks

A task checks the nodes below its own node, as far as no other task stands between: classes and the
declarations that can be given inferred types are left to tasks of their own.  So every node of a unit is
assigned to one task, that of the innermost node around it that is checked by itself, or that of the whole unit
(`CompilationUnit.Assigns`).
-/

namespace Ceylon

namespace Syntax

/-- Whether a node is checked as a task of its own. -/
def Node.isTask : Node → Bool
  | .stmt (.classDecl _) => true
  | .stmt (.method _) => true
  | .stmt (.attribute _) => true
  | .stmt (.getter _) => true
  | .stmt (.setter _) => true
  | _ => false

theorem Node.declKind_of_isTask {n : Node} (h : n.isTask = true) : n.declKind.isSome = true := by
  cases n with
  | stmt s => cases s <;> first | rfl | cases h
  | _ => cases h

namespace Outline

mutual

/-- The nodes of a tree that stands below the node of a task, each with the node of the task it is assigned
to. -/
def assigned (task : Node) : Outline → List (Node × Node)
  | .mk _ node _ children =>
    let inner := if node.isTask then node else task
    (node, inner) :: assignedOf inner children

/-- The nodes of several trees with the nodes of their tasks. -/
def assignedOf (task : Node) : List Outline → List (Node × Node)
  | [] => []
  | o :: os => o.assigned task ++ assignedOf task os

end

mutual

theorem map_fst_assigned (task : Node) : (o : Outline) → (o.assigned task).map (·.1) = o.nodes
  | .mk slot node attributes children => by
    rw [nodes_mk, assigned, List.map_cons, map_fst_assignedOf _ children]

theorem map_fst_assignedOf (task : Node) :
    (os : List Outline) → (assignedOf task os).map (·.1) = os.flatMap nodes
  | [] => rfl
  | o :: os => by
    rw [assignedOf, List.map_append, map_fst_assigned task o, map_fst_assignedOf task os, List.flatMap_cons]

end

mutual

/-- The node of a task is assigned to that task. -/
theorem eq_of_mem_assigned {task n t : Node} (htask : n.isTask) :
    (o : Outline) → (n, t) ∈ o.assigned task → t = n
  | .mk slot node attributes children, h => by
    rw [assigned] at h
    rcases List.mem_cons.mp h with heq | h
    · obtain ⟨rfl, rfl⟩ := Prod.mk.inj heq
      exact if_pos htask
    · exact eq_of_mem_assignedOf htask children h

theorem eq_of_mem_assignedOf {task n t : Node} (htask : n.isTask) :
    (os : List Outline) → (n, t) ∈ assignedOf task os → t = n
  | o :: os, h =>
    (List.mem_append.mp h).elim (eq_of_mem_assigned htask o) (eq_of_mem_assignedOf htask os)

end

/-- The root of a tree is assigned to the task that the tree stands below, unless it is a task itself. -/
theorem root_mem_assigned {task : Node} {o : Outline} (htask : o.node.isTask = false) :
    (o.node, task) ∈ o.assigned task := by
  obtain ⟨slot, node, attributes, children⟩ := o
  refine List.mem_cons.mpr (.inl (Prod.ext rfl ?_))
  exact (if_neg (by simpa [Outline.node] using htask)).symm

theorem assigned_subset_assignedOf {task : Node} {o : Outline} :
    {os : List Outline} → o ∈ os → o.assigned task ⊆ assignedOf task os
  | o' :: os, ho => by
    rcases List.mem_cons.mp ho with rfl | ho
    · exact List.subset_append_left ..
    · exact List.Subset.trans (assigned_subset_assignedOf ho) (List.subset_append_right ..)

mutual

/-- What stands below a node is assigned to the same task, unless it is a task itself. -/
theorem part_mem_assigned {task n p t : Node} (hp : p ∈ n.parts) (htask : p.isTask = false) :
    (o : Outline) → o.Faithful → (n, t) ∈ o.assigned task → (p, t) ∈ o.assigned task
  | .mk slot node attributes children, ⟨heq, hall⟩, h => by
    rw [assigned] at h ⊢
    refine List.mem_cons_of_mem _ ?_
    rcases List.mem_cons.mp h with hroot | h
    · obtain ⟨rfl, rfl⟩ := Prod.mk.inj hroot
      obtain ⟨c, hc, rfl⟩ := List.mem_map.mp hp
      exact assigned_subset_assignedOf (heq ▸ hc) (root_mem_assigned htask)
    · exact part_mem_assignedOf hp htask children hall h

theorem part_mem_assignedOf {task n p t : Node} (hp : p ∈ n.parts) (htask : p.isTask = false) :
    (os : List Outline) → AllFaithful os → (n, t) ∈ assignedOf task os → (p, t) ∈ assignedOf task os
  | o :: os, ⟨ho, hos⟩, h =>
    List.mem_append.mpr ((List.mem_append.mp h).imp (part_mem_assigned hp htask o ho)
      (part_mem_assignedOf hp htask os hos))

end

end Outline

/-- A node of a unit is assigned to the task with the given node. -/
def CompilationUnit.Assigns (u : CompilationUnit) (task n : Node) : Prop :=
  (n, task) ∈ u.outline.assigned (.unit u)

namespace CompilationUnit

variable {u : CompilationUnit} {n n' p task task' : Node}

/-- What is assigned to a task is a node of the unit. -/
theorem Assigns.has (h : u.Assigns task n) : u.Has n := by
  rw [Has, ← Outline.map_fst_assigned (.unit u)]
  exact List.mem_map_of_mem h

theorem assigns_unit (u : CompilationUnit) : u.Assigns (.unit u) (.unit u) :=
  Outline.root_mem_assigned (o := u.outline) rfl

theorem Has.assigns (h : u.Has n) (htask : n.isTask) : u.Assigns n n := by
  rw [Has, ← Outline.map_fst_assigned (.unit u)] at h
  obtain ⟨⟨_, t⟩, hmem, rfl⟩ := List.mem_map.mp h
  obtain rfl := Outline.eq_of_mem_assigned htask _ hmem
  exact hmem

theorem Assigns.part (h : u.Assigns task n) (hp : p ∈ n.parts) (htask : p.isTask = false) :
    u.Assigns task p :=
  Outline.part_mem_assigned hp htask _ u.outline_faithful h

/-- In a numbered unit, the number of a node tells to which task it is assigned. -/
theorem Assigns.unique (hu : u.Numbered) (h : u.Assigns task n) (h' : u.Assigns task' n')
    (hid : n.mark.id = n'.mark.id) : task = task' := by
  have hnodup : ((u.outline.assigned (.unit u)).map fun p => p.1.mark.id).Nodup := by
    rw [← Function.comp_def (fun n : Node => n.mark.id), ← List.map_map, Outline.map_fst_assigned]
    exact hu
  exact congrArg Prod.snd (List.inj_on_of_nodup_map hnodup h h' hid)

end CompilationUnit

end Syntax

namespace Analysis

open Model Syntax

/-! ## Tasks and their nodes -/

/-- The node that a task checks. -/
def Task.node : Task → Node
  | .unit tree => .unit tree
  | .ofClass d => .stmt (.classDecl d)
  | .method d => .stmt (.method d)
  | .attribute d => .stmt (.attribute d)
  | .getter d => .stmt (.getter d)
  | .setter d => .stmt (.setter d)

@[simp] theorem Task.mark_node (task : Task) : task.node.mark = task.mark := by
  cases task <;> rfl

theorem Task.node_injective {task task' : Task} (h : task.node = task'.node) : task = task' := by
  cases task <;> cases task' <;> simp_all [Task.node]

theorem Task.exists_of_isTask {n : Node} (h : n.isTask = true) : ∃ task : Task, task.node = n := by
  cases n with
  | stmt n =>
    cases n with
    | classDecl d => exact ⟨.ofClass d, rfl⟩
    | method d => exact ⟨.method d, rfl⟩
    | «attribute» d => exact ⟨.attribute d, rfl⟩
    | getter d => exact ⟨.getter d, rfl⟩
    | setter d => exact ⟨.setter d, rfl⟩
    | _ => cases h
  | _ => cases h

/-- In a unit that is laid out, the number of its node tells which task it is. -/
theorem Task.eq_of_key {f : State} (hf : f.Layout) {u u' : UnitId} {task task' : Task} (hhas : f.HasNode u task.node)
    (hhas' : f.HasNode u' task'.node)
    (hkey : (⟨u', task'.mark.id⟩ : NodeId) = ⟨u, task.mark.id⟩) : u' = u ∧ task' = task := by
  obtain ⟨rfl, hid⟩ := NodeId.mk.inj hkey
  refine ⟨rfl, Task.node_injective ((hf.numbered u').eq_of_id hhas'.2 hhas.2 ?_)⟩
  rw [Task.mark_node, Task.mark_node, hid]

/-- A task that infers a type is that of the node of the declaration. -/
theorem State.inference?_eq_some {f : State} {d : DeclId} {u : UnitId} {task : Task}
    (h : f.inference? d = some (u, task)) :
    (f.graph.decl d).unit = some u ∧ (f.graph.decl d).node = some task.node ∧ task.node.isTask = true ∧
      (task.node.declKind = some .method ∨ task.node.declKind = some .value ∨
        task.node.declKind = some .getter) := by
  obtain ⟨v, hunit, h⟩ := Option.bind_eq_some_iff.mp h
  obtain ⟨n, hnode, h⟩ := Option.bind_eq_some_iff.mp h
  split at h
  · split at h
    case h_4 => cases h
    all_goals
      obtain ⟨rfl, rfl⟩ := Prod.mk.inj (Option.some.inj h)
      exact ⟨hunit, hnode, rfl, by simp [Task.node, Node.declKind]⟩
  · split at h <;> cases h

theorem State.isReady_iff {s : State} {u : UnitId} : s.isReady u = true ↔
    (s.unit u).isBound = true ∧ (s.unit u).failure = none ∧ (s.unit u).phase.atLeast .namesResolved = true := by
  simp only [State.isReady, Bool.and_eq_true, Option.isNone_iff_eq_none, and_assoc]

/-- The unit of a task that infers a type is ready. -/
theorem State.isReady_of_inference? {f : State} {d : DeclId} {u : UnitId} {task : Task}
    (h : f.inference? d = some (u, task)) : f.isReady u := by
  obtain ⟨v, -, h⟩ := Option.bind_eq_some_iff.mp h
  obtain ⟨n, -, h⟩ := Option.bind_eq_some_iff.mp h
  split at h
  · split at h
    case h_4 => cases h
    all_goals
      obtain ⟨rfl, -⟩ := Prod.mk.inj (Option.some.inj h)
      assumption
  · split at h <;> cases h

theorem State.unit_facts (s : State) (u : UnitId) : s.facts.unit u = (s.unit u).facts := by
  simp only [State.unit, State.facts, Array.getD_eq_getD_getElem?, Array.getElem?_map]
  cases s.units[u.index]? <;> rfl

theorem State.sameLayout_facts (s : State) : s.SameLayout s.facts :=
  ⟨⟨rfl, rfl, rfl, fun _ => rfl, rfl, rfl⟩, fun u => congrArg (·.tree) (s.unit_facts u),
    fun u => congrArg (·.package) (s.unit_facts u), fun u => congrArg (·.isBound) (s.unit_facts u)⟩

/-- The node of a task that infers a type is one of its unit. -/
theorem State.Layout.hasNode_of_inference? {s : State} (hs : s.Layout) {d : DeclId} {u : UnitId} {task : Task}
    (h : s.facts.inference? d = some (u, task)) : s.HasNode u task.node := by
  obtain ⟨hunit, hnode, -⟩ := State.inference?_eq_some h
  have hdecl : s.facts.graph.decl d = s.graph.decl d := rfl
  rw [hdecl] at hunit hnode
  have hvalid : d.index < s.graph.decls.size := by
    by_contra hinvalid
    rw [Graph.decl_of_invalid hinvalid] at hunit
    cases hunit
  obtain ⟨n, hnode', hhas, -⟩ := hs.grounded.origins d hvalid u hunit
  obtain rfl : n = task.node := Option.some.inj (hnode'.symm.trans hnode)
  exact hhas

end Analysis

end Ceylon
