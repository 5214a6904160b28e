import Mathlib.Algebra.BigOperators.Group.Multiset.Basic
import Mathlib.Algebra.Order.BigOperators.Group.List
import Mathlib.Tactic.Abel
import Ceylon.Proofs.Dialogue
import Ceylon.Proofs.Layout

/-!
# Binding lays units out

Binding a unit records every node of its tree once (`Lays`), so that what is recorded for a node stays.
That makes the layout of the unit a matter of its script: with the answers that hold in the final state,
each part of the tree finds its nodes where they should stand (`bindStmt_lays`).
-/

namespace Ceylon

/-! ## The numbers below a node -/

namespace Syntax.Node

/-- The numbers of the nodes of the tree below a node. -/
def idSet (n : Node) : Multiset Nat :=
  n.all.map (·.mark.id)

/-- The nodes of a tree are its root and the nodes of its parts. -/
theorem idSet_eq (n : Node) : n.idSet = {n.mark.id} + (n.parts.map idSet).sum := by
  have hparts : ∀ ns : List Node,
      (((ns.flatMap all).map (·.mark.id) : List Nat) : Multiset Nat) = (ns.map idSet).sum := by
    intro ns
    induction ns with
    | nil => rfl
    | cons n ns ih => simp [idSet, ← ih]
  rw [idSet, n.all_eq, List.map_cons, ← Multiset.cons_coe, hparts, Multiset.singleton_add]

/-- The numbers below some of the parts of a node and its own are among the numbers below it. -/
theorem sum_idSet_le {n : Node} {ns : List Node} (h : ns.Sublist n.parts) :
    (ns.map idSet).sum + {n.mark.id} ≤ n.idSet := by
  rw [n.idSet_eq, Multiset.add_comm ({n.mark.id} : Multiset Nat)]
  refine add_le_add_left ?_ _
  exact (h.map idSet).sum_le_sum fun _ _ => Multiset.zero_le _

/-- Parts of a node that are taken together have nodes of that node. -/
theorem part_idSet_le {n : Node} {ns : List Node} (h : ns.Sublist n.parts) : (ns.map idSet).sum ≤ n.idSet :=
  (Multiset.le_add_right _ _).trans (sum_idSet_le h)

/-- The root of a tree is one of its nodes. -/
theorem id_le_idSet (n : Node) : {n.mark.id} ≤ n.idSet := by
  simpa using sum_idSet_le (List.nil_sublist n.parts)

end Syntax.Node

namespace Syntax

namespace Outline

mutual

/-- What stands below a node of a tree stands in the tree in the same order. -/
theorem all_sublist {n : Node} : (o : Outline) → o.Faithful → n ∈ o.nodes → n.all.Sublist o.nodes
  | .mk slot node attributes children, ⟨heq, hall⟩, h => by
    rw [nodes_mk] at h ⊢
    rcases List.mem_cons.mp h with rfl | h
    · rw [Node.all, nodes_eq, ← heq, n.node_outline]
    · exact (all_sublist_flatMap children hall h).cons _

/-- The nodes below one of several outlines stand among all their nodes. -/
theorem all_sublist_flatMap {n : Node} :
    (os : List Outline) → AllFaithful os → n ∈ os.flatMap nodes → n.all.Sublist (os.flatMap nodes)
  | o :: os, ⟨ho, hos⟩, h => by
    rw [List.flatMap_cons] at h ⊢
    rcases List.mem_append.mp h with h | h
    · exact (all_sublist o ho h).trans (List.sublist_append_left ..)
    · exact (all_sublist_flatMap os hos h).trans (List.sublist_append_right ..)

end

end Outline

/-- In a numbered unit, the numbers of the nodes below a node are different. -/
theorem CompilationUnit.Numbered.nodup_idSet {u : CompilationUnit} (hu : u.Numbered) {n : Node} (h : u.Has n) :
    n.idSet.Nodup :=
  Multiset.coe_nodup.mpr (((Outline.all_sublist _ u.outline_faithful h).map _).nodup hu)

/-- In a numbered unit, the number of a node is not among those below one of its parts. -/
theorem CompilationUnit.Numbered.id_notMem_part {u : CompilationUnit} (hu : u.Numbered) {n part : Node} (h : u.Has n)
    (hpart : part ∈ n.parts) : n.mark.id ∉ part.idSet := by
  have hle := Node.sum_idSet_le (List.singleton_sublist.mpr hpart)
  rw [List.map_singleton, List.sum_singleton] at hle
  have hdisjoint := (Multiset.nodup_add.mp (Multiset.nodup_of_le hle (hu.nodup_idSet h))).2.2
  exact fun hid => Multiset.disjoint_left.mp hdisjoint hid (Multiset.mem_singleton_self _)

end Syntax

namespace Analysis

open Model Syntax

/-! ## The contract of binding -/

namespace BindStep

/-- The numbers of the nodes that a step records. -/
def ids : BindStep → Multiset Nat
  | .record m _ => {m.id}
  | .declare node .. => {node.mark.id}
  | _ => 0

end BindStep

/-- A declaration of the given kind stands in the scope of another one. -/
structure State.Inner (f : State) (owner d : DeclId) (kind : DeclKind) : Prop where
  valid : d.index < f.graph.decls.size
  scope : (f.graph.decl d).scope = .decl owner :: (f.graph.decl owner).scope
  kind : (f.graph.decl d).shape.kind = kind

/-- A getter stands in a chain of scopes. -/
structure State.GetterIn (f : State) (scope : ScopeChain) (d : DeclId) : Prop where
  valid : d.index < f.graph.decls.size
  scope : (f.graph.decl d).scope = scope
  kind : (f.graph.decl d).shape.kind = .getter

/-- A declaration of a unit that may be given type parameters. -/
structure State.Parametric (f : State) (u : UnitId) (d : DeclId) : Prop where
  unit : (f.graph.decl d).unit = some u
  kind : (f.graph.decl d).shape.kind ≠ .typeParameter

/-- A shape that a declaration may be made with: it has neither parameters nor supertypes yet, and if it is
that of a setter, its getter stands in the same scopes. -/
structure State.Starts (f : State) (scope : ScopeChain) (shape : Shape) : Prop where
  typeParams : shape.typeParams = []
  params : shape.params?.getD [] = []
  bound : shape.bound = shape
  getter : ∀ t d, shape = .setter t (some d) → f.GetterIn scope d

namespace Binding

/-- What the script of a unit may do, seen from the state it leads to. -/
def May (f : State) (u : UnitId) (tree : CompilationUnit) : BindStep → Prop
  | .record .. => True
  | .declare node _ _ shape scope =>
    f.ChainIn u scope ∧ tree.Has node ∧ node.declKind = some shape.kind ∧ f.Starts scope shape
  | .openBody clause scope => f.ChainIn u scope ∧ tree.Has clause
  | .addTypeParam owner d => f.Inner owner d .typeParameter ∧ f.Parametric u owner
  | .setParams owner ds => ∀ d ∈ ds, f.Inner owner d .parameter
  | .getter scope _ => f.ChainIn u scope
  | .join .. => True

/-- What is so in the state that the script of a unit leads to, after a step has been answered. -/
def Done (f : State) (u : UnitId) : (step : BindStep) → step.Answer → Prop
  | .record m scope, _ => f.scopes[(⟨u, m.id⟩ : NodeId)]? = some scope
  | .declare node _ _ shape scope, d =>
    f.Stands u scope node ∧ (node.declKind = some shape.kind → f.Declares u scope node d)
  | .openBody clause scope, b => f.Opens u scope clause b
  | .addTypeParam .., _ => True
  | .setParams .., _ => True
  | .getter scope _, d => ∀ g, d = some g → f.GetterIn scope g
  | .join .., _ => True

/-- A script records nodes with the given numbers, whatever it is answered.  Under the hypothesis, it only
does what it may, and if its answers hold in the state it leads to, its result has the property. -/
def Lays (f : State) (u : UnitId) (tree : CompilationUnit) {α : Type} :
    Prop → Bind α → Multiset Nat → (α → Prop) → Prop
  | H, .done a, ids, P => ids = 0 ∧ (H → P a)
  | H, .ask step next, ids, P => ∃ rest, ids = step.ids + rest ∧ (H → May f u tree step) ∧
    ∀ r, Lays f u tree (H ∧ Done f u step r) (next r) rest P

/-- What the result of a script is thrown away for can begin right after it. -/
theorem discard_bind {α β : Type} (d : Bind α) (g : Unit → Bind β) :
    Functor.discard d >>= g = d >>= fun _ => g () :=
  bind_map_left (fun _ => ()) d g

namespace Lays

variable {f : State} {u : UnitId} {tree : CompilationUnit} {α β : Type} {H H' : Prop}
  {ids ids' : Multiset Nat}

/-- A script lays out the same nodes where more is given and less is asked for. -/
theorem mono {d : Bind α} {P P' : α → Prop} (h : Lays f u tree H d ids P) (pre : H' → H)
    (post : ∀ a, H' → P a → P' a) : Lays f u tree H' d ids P' := by
  induction d generalizing H H' ids with
  | done a => exact ⟨h.1, fun hH => post a hH (h.2 (pre hH))⟩
  | ask step next ih =>
    obtain ⟨rest, hids, hmay, hnext⟩ := h
    exact ⟨rest, hids, fun hH => hmay (pre hH), fun r =>
      ih r (hnext r) (fun hH => ⟨pre hH.1, hH.2⟩) fun a hH => post a hH.1⟩

/-- One script after another lays out the nodes of both. -/
theorem bind {d : Bind α} {g : α → Bind β} {P : α → Prop} {P' : β → Prop}
    (h : Lays f u tree H d ids P) (hg : ∀ a, Lays f u tree (H ∧ P a) (g a) ids' P') :
    Lays f u tree H (d >>= g) (ids + ids') P' := by
  induction d generalizing H ids with
  | done a =>
    obtain ⟨rfl, hP⟩ := h
    rw [zero_add]
    exact (hg a).mono (fun hH => ⟨hH, hP hH⟩) fun _ _ h => h
  | ask step next ih =>
    obtain ⟨rest, rfl, hmay, hnext⟩ := h
    exact ⟨rest + ids', add_assoc .., hmay, fun r =>
      ih r (hnext r) fun a => (hg a).mono (fun hH => ⟨hH.1.1, hH.2⟩) fun _ _ h => h⟩

/-- Returning a value lays out nothing. -/
theorem pure {a : α} {P : α → Prop} (h : H → P a) : Lays f u tree H (Pure.pure a) 0 P :=
  ⟨rfl, h⟩

/-- A step lays out the nodes that it records. -/
theorem take (step : BindStep) (h : H → May f u tree step) :
    Lays f u tree H (Binding.take step) step.ids (Done f u step) :=
  ⟨0, by simp, h, fun _ => ⟨rfl, fun hH => hH.2⟩⟩

/-- Recording the scope of a node. -/
theorem record {m : Mark} {scope : ScopeChain} {g : Unit → Bind β} {P : β → Prop}
    (hg : Lays f u tree (H ∧ f.scopes[(⟨u, m.id⟩ : NodeId)]? = some scope) (g ()) ids P) :
    Lays f u tree H (Binding.take (.record m scope) >>= g) ({m.id} + ids) P :=
  bind (take _ fun _ => trivial) fun _ => hg

/-- A step that records nothing. -/
theorem act {step : BindStep} {g : step.Answer → Bind β} {P : β → Prop} (hstep : step.ids = 0)
    (may : H → May f u tree step)
    (hg : ∀ r, Lays f u tree (H ∧ Done f u step r) (g r) ids P) :
    Lays f u tree H (Binding.take step >>= g) ids P :=
  ⟨ids, by rw [hstep, zero_add], may, hg⟩

/-- Throwing away a result lays out the same nodes. -/
theorem discard {d : Bind α} {P : α → Prop} (h : Lays f u tree H d ids P) :
    Lays f u tree H (Functor.discard d) ids fun _ => ∃ a, P a := by
  have hd : Lays f u tree H (d >>= fun _ => Pure.pure ()) (ids + 0) fun _ => ∃ a, P a :=
    h.bind fun a => pure fun hH => ⟨a, hH.2⟩
  rwa [add_zero] at hd

/-- Nodes may be counted in another way. -/
theorem of_eq {d : Bind α} {P : α → Prop} (h : Lays f u tree H d ids P) (hids : ids' = ids) :
    Lays f u tree H d ids' P :=
  hids ▸ h

/-- Two scripts, of which the second does not need what the first one has shown. -/
theorem both {d : Bind Unit} {g : Unit → Bind β} {P : Prop} {P' : β → Prop}
    (h : Lays f u tree H d ids fun _ => P) (hg : Lays f u tree H (g ()) ids' P') :
    Lays f u tree H (d >>= g) (ids + ids') fun b => P ∧ P' b :=
  h.bind fun _ => hg.mono And.left fun _ hH h => ⟨hH.2, h⟩

end Lays

end Binding

/-! ## Trees that are placed as a whole -/

/-- A node stands in a chain of scopes, and all nodes below it are placed. -/
def State.Situated (f : State) (u : UnitId) (c : ScopeChain) (n : Node) : Prop :=
  f.Stands u c n ∧ ∀ m ∈ n.all, f.Placed u m

section

variable {f : State} {u : UnitId} {tree : CompilationUnit} {c : ScopeChain} {H : Prop}

/-- A node is situated if it is laid out and its parts are situated. -/
theorem State.Situated.intro {n : Node} (stands : f.Stands u c n) (chain : f.ChainIn u c)
    (laid : f.Laid u c n) (below : ∀ p ∈ n.parts, ∃ c', f.Situated u c' p) : f.Situated u c n := by
  refine ⟨stands, fun m hm => ?_⟩
  rw [n.all_eq] at hm
  rcases List.mem_cons.mp hm with rfl | hm
  · exact ⟨c, stands, chain, laid⟩
  · obtain ⟨p, hp, hm⟩ := List.mem_flatMap.mp hm
    obtain ⟨_, hsituated⟩ := below p hp
    exact hsituated.2 m hm

/-- All parts of a plain node stand beside it. -/
theorem Node.beside_of_isPlain {n : Node} (h : n.isPlain) : n.beside = n.parts := by
  cases n <;> first | rfl | cases h

/-- A node with nothing to declare or to open is laid out if its parts stand beside it. -/
theorem State.Laid.of_beside {n : Node} (hdecl : n.declKind = none) (hclause : n.isClause = false)
    (houtside : n.outside = []) (hbeside : ∀ p ∈ n.beside, f.Stands u c p) : f.Laid u c n where
  beside := hbeside
  declared h := by simp [hdecl] at h
  opened h := by simp [hclause] at h
  outside p hp := by simp [houtside] at hp
  held v hv := by
    subst hv
    cases hdecl

/-- A plain node is laid out if its parts stand where it does. -/
theorem State.Laid.of_isPlain {n : Node} (h : n.isPlain) (parts : ∀ p ∈ n.parts, f.Stands u c p) :
    f.Laid u c n := by
  have hbeside := Node.beside_of_isPlain h
  refine .of_beside ?_ ?_ ?_ (by rwa [hbeside])
  all_goals cases n <;> first | rfl | cases h

/-- A plain tree is placed if all its nodes stand in the same scopes. -/
theorem State.Situated.of_isPlain {n : Node} (h : n.isPlain) (chain : f.ChainIn u c)
    (stands : ∀ m ∈ n.all, f.Stands u c m) : f.Situated u c n := by
  refine ⟨stands n n.mem_all, fun m hm => ?_⟩
  have hplain := Node.isPlain_of_mem_all h hm
  refine ⟨c, stands m hm, chain, .of_isPlain hplain fun p hp => stands p ?_⟩
  exact Node.forall_all (P := fun m => ∀ p ∈ m.all, p ∈ n.all) (fun _ h => h)
    (fun m hm p hp q hq => hm q (Node.all_of_part hp hq)) m hm p (Node.all_of_part hp p.mem_all)

namespace Binding

/-- A script records the trees below some nodes, and situates them in a chain of scopes. -/
def LaysParts (f : State) (u : UnitId) (tree : CompilationUnit) (H : Prop) (c : ScopeChain) (d : Bind Unit)
    (ns : List Node) : Prop :=
  Lays f u tree H d (ns.map Node.idSet).sum fun _ => ∀ n ∈ ns, f.Situated u c n

namespace LaysParts

variable {d : Bind Unit} {g : Unit → Bind Unit} {ns ns' : List Node} {H' : Prop}

/-- No parts are laid out by doing nothing. -/
theorem nil : LaysParts f u tree H c (Pure.pure ()) [] :=
  .pure fun _ => List.forall_mem_nil _

/-- A single part. -/
theorem single {n : Node} (h : Lays f u tree H d n.idSet fun _ => f.Situated u c n) :
    LaysParts f u tree H c d [n] :=
  Lays.of_eq (h.mono id fun _ _ h => List.forall_mem_singleton.mpr h) (by simp)

/-- Parts are laid out one script after another. -/
theorem append (h : LaysParts f u tree H c d ns) (hg : LaysParts f u tree H c (g ()) ns') :
    LaysParts f u tree H c (d >>= g) (ns ++ ns') :=
  Lays.of_eq ((Lays.both h hg).mono id fun _ _ h => List.forall_mem_append.mpr h) (by simp)

/-- One part, and then the others. -/
theorem cons {n : Node} (h : Lays f u tree H d n.idSet fun _ => f.Situated u c n)
    (hg : LaysParts f u tree H c (g ()) ns) : LaysParts f u tree H c (d >>= g) (n :: ns) :=
  (single h).append hg

/-- The order in which the trees are recorded does not matter. -/
theorem perm (h : LaysParts f u tree H c d ns) (hns : ns.Perm ns') : LaysParts f u tree H c d ns' :=
  Lays.of_eq (Lays.mono h id fun _ _ h n hn => h n (hns.mem_iff.mpr hn)) (hns.map _).sum_eq.symm

end LaysParts

/-- Recording nodes in a scope makes them stand there. -/
theorem recordNodes_lays (c : ScopeChain) (ns : List Node) :
    Lays f u tree H (recordNodes c ns) (ns.map (·.mark.id) : List Nat)
      fun _ => ∀ n ∈ ns, f.Stands u c n := by
  induction ns generalizing H with
  | nil => exact .pure fun _ => by simp
  | cons n ns ih =>
    have hn : Lays f u tree H (recordNodes c (n :: ns))
        ({n.mark.id} + (ns.map (·.mark.id) : List Nat)) fun _ => ∀ m ∈ n :: ns, f.Stands u c m :=
      .record (ih.mono id fun _ hH h => List.forall_mem_cons.mpr ⟨hH.2, h⟩)
    exact hn

/-- Recording a tree of plain nodes lays it out. -/
theorem recordTree_lays {o : Outline} (faithful : o.Faithful) (plain : o.node.isPlain)
    (chain : H → f.ChainIn u c) :
    Lays f u tree H (recordTree c o) o.node.idSet fun _ => f.Situated u c o.node := by
  rw [recordTree, faithful.nodes_eq]
  exact (recordNodes_lays c o.node.all).mono id fun _ hH hstands =>
    State.Situated.of_isPlain plain (chain hH) hstands

/-- Recording trees of plain nodes lays them out. -/
theorem recordTrees_lays {os : List Outline} (faithful : Outline.AllFaithful os)
    (plain : ∀ o ∈ os, o.node.isPlain) (chain : H → f.ChainIn u c) :
    LaysParts f u tree H c (recordTrees c os) (os.map Outline.node) := by
  induction os with
  | nil => exact .nil
  | cons o os ih =>
    exact .cons (recordTree_lays faithful.1 (plain o List.mem_cons_self) chain)
      (ih faithful.2 fun o' ho' => plain o' (List.mem_cons_of_mem o ho'))

/-- Binding an expression lays it out: it declares nothing and opens no scope. -/
theorem bindExpr_lays (x : Expr) (chain : H → f.ChainIn u c) :
    Lays f u tree H (bindExpr c x) (Node.expr x).idSet fun _ => f.Situated u c (.expr x) := by
  rw [← x.node_outline default]
  exact recordTree_lays (x.outline_faithful default) (by rw [x.node_outline]; rfl) chain

/-- Binding an expression that may be missing. -/
theorem bindOption_lays (x : Option Expr) (chain : H → f.ChainIn u c) :
    LaysParts f u tree H c (bindOption c x) (x.toList.map Node.expr) := by
  cases x with
  | none => exact .nil
  | some x => exact .single (bindExpr_lays x chain)

/-- Recording a declared type lays it out. -/
theorem declaredType_lays (t : DeclaredType) (chain : H → f.ChainIn u c) :
    Lays f u tree H (recordTree c t.outline) t.node.idSet fun _ => f.Situated u c t.node := by
  rw [← t.node_outline]
  exact recordTree_lays t.outline_faithful
    (by rw [t.node_outline]; exact Node.isPlain_declaredType t) chain

/-- Recording a type lays it out. -/
theorem typeRef_lays (t : TypeRef) (slot : Slot) (chain : H → f.ChainIn u c) :
    Lays f u tree H (recordTree c (t.outline slot)) (Node.type t).idSet
      fun _ => f.Situated u c (.type t) := by
  rw [← t.node_outline slot]
  exact recordTree_lays (t.outline_faithful slot) (by rw [t.node_outline]; rfl) chain

/-! ## Declarations without bodies -/

/-- A node has made a declaration, and its name stands beside it. -/
structure Introduced (f : State) (u : UnitId) (c : ScopeChain) (node : Node) (name : Name) (d : DeclId) : Prop where
  stands : f.Stands u c node
  declares : f.Declares u c node d
  name : f.Situated u c (.name name)

/-- Declaring a node introduces it, with its name, in the scope it is declared in. -/
theorem declare_lays {node : Node} {name : Name} {shared : Bool} (shape : Shape)
    (kind : node.declKind = some shape.kind) (chain : H → f.ChainIn u c)
    (has : H → tree.Has node) (starts : H → f.Starts c shape) :
    Lays f u tree H (declare c node name shared shape) ({node.mark.id} + (Node.name name).idSet)
      (Introduced f u c node name) := by
  refine .bind (.take _ fun hH => ⟨chain hH, has hH, kind, starts hH⟩) fun d => ?_
  refine Lays.of_eq (.record (.pure fun hH => ?_)) (by rfl)
  obtain ⟨⟨hH, hstands, hdeclares⟩, hname⟩ := hH
  refine ⟨hstands, hdeclares kind, .of_isPlain rfl (chain hH) fun m hm => ?_⟩
  obtain rfl : m = .name name := List.mem_singleton.mp hm
  exact hname

/-- The scope that a declaration opens has the scopes of the declaration around it. -/
theorem chain_of_declares {n : Node} {d : DeclId} (h : f.Declares u c n d)
    (chain : f.ChainIn u c) : f.ChainIn u (.decl d :: c) :=
  ⟨⟨h.valid, h.scope.symm, chain.chain⟩, by rw [List.getLast?_cons, chain.package]; rfl⟩

/-- A node that declares something and opens no body is laid out if its parts are. -/
theorem laid_of_declares {n : Node} {d : DeclId} (h : f.Declares u c n d)
    (hclause : n.isClause = false) (hvariable : ∀ v, n ≠ .variable v)
    (hbeside : ∀ p ∈ n.beside, f.Stands u c p)
    (hwithin : ∀ p ∈ n.within, f.Stands u (.decl d :: c) p) : f.Laid u c n where
  beside := hbeside
  declared _ := ⟨d, h, hwithin⟩
  opened hc := by simp [hclause] at hc
  outside p hp := by
    cases n with
    | «variable» v => exact absurd rfl (hvariable v)
    | _ => cases hp
  held v hv := absurd hv (hvariable v)

namespace Introduced

variable {n : Node} {name : Name} {d : DeclId}

/-- The chain of scopes inside the declaration. -/
theorem chain (h : Introduced f u c n name d) (chain : f.ChainIn u c) : f.ChainIn u (.decl d :: c) :=
  chain_of_declares h.declares chain

/-- Unless it is a type parameter, the declaration may have type parameters. -/
theorem parametric (h : Introduced f u c n name d) (hkind : n.declKind ≠ some .typeParameter) : f.Parametric u d :=
  ⟨h.declares.unit, fun h' => hkind (h.declares.kind.trans (congrArg some h'))⟩

end Introduced

/-- The name of a declaration is a part of its node, and each other part stands beside the node or in the scope that it
opens. -/
theorem situated_of_introduced {n : Node} {name : Name} {d : DeclId} (made : Introduced f u c n name d)
    (chain : f.ChainIn u c)
    (hclause : n.isClause = false) (hvariable : ∀ v, n ≠ .variable v)
    (hparts : n.parts.Perm (.name name :: (n.beside ++ n.within))) (hbeside : ∀ p ∈ n.beside, f.Situated u c p)
    (hwithin : ∀ p ∈ n.within, f.Situated u (.decl d :: c) p) : f.Situated u c n := by
  refine .intro made.stands chain (laid_of_declares made.declares hclause hvariable
    (fun p hp => (hbeside p hp).1) fun p hp => (hwithin p hp).1) fun p hp => ?_
  rcases List.mem_cons.mp (hparts.mem_iff.mp hp) with rfl | hp
  · exact ⟨c, made.name⟩
  · rcases List.mem_append.mp hp with hp | hp
    · exact ⟨c, hbeside p hp⟩
    · exact ⟨.decl d :: c, hwithin p hp⟩

/-- The numbers below such a node. -/
theorem idSet_of_parts {n : Node} {name : Name} (hparts : n.parts.Perm (.name name :: (n.beside ++ n.within))) :
    n.idSet = {n.mark.id} + (Node.name name).idSet + ((n.beside ++ n.within).map Node.idSet).sum := by
  rw [Node.idSet_eq, (hparts.map _).sum_eq, List.map_cons, List.sum_cons, add_assoc]

/-- A script makes the declaration of a node, and then lays out what stands beside the node and in its scope. -/
theorem declaration_lays {n : Node} {name : Name} {decl : Bind DeclId} {script : DeclId → Bind Unit}
    (made : Lays f u tree H decl ({n.mark.id} + (Node.name name).idSet) (Introduced f u c n name))
    (chain : H → f.ChainIn u c) (hclause : n.isClause = false) (hvariable : ∀ v, n ≠ .variable v)
    (hparts : n.parts.Perm (.name name :: (n.beside ++ n.within)))
    (rest : ∀ d, Lays f u tree (H ∧ Introduced f u c n name d) (script d) ((n.beside ++ n.within).map Node.idSet).sum
      fun _ => (∀ p ∈ n.beside, f.Situated u c p) ∧ ∀ p ∈ n.within, f.Situated u (.decl d :: c) p) :
    Lays f u tree H (decl >>= script) n.idSet fun _ => f.Situated u c n := by
  refine Lays.of_eq (.bind made fun d => (rest d).mono id ?_) (idSet_of_parts hparts)
  rintro _ ⟨hH, hmade⟩ ⟨hbeside, hwithin⟩
  exact situated_of_introduced hmade (chain hH) hclause hvariable hparts hbeside hwithin

/-- Nothing stands beside the node of such a declaration. -/
theorem declaration_lays_within {n : Node} {name : Name} {decl : Bind DeclId} {script : DeclId → Bind Unit}
    (made : Lays f u tree H decl ({n.mark.id} + (Node.name name).idSet) (Introduced f u c n name))
    (chain : H → f.ChainIn u c) (hclause : n.isClause = false) (hvariable : ∀ v, n ≠ .variable v)
    (hbeside : n.beside = []) (hparts : n.parts.Perm (.name name :: n.within))
    (rest : ∀ d, LaysParts f u tree (H ∧ Introduced f u c n name d) (.decl d :: c) (script d) n.within) :
    Lays f u tree H (decl >>= script) n.idSet fun _ => f.Situated u c n := by
  refine declaration_lays made chain hclause hvariable (by rwa [hbeside]) fun d => ?_
  rw [hbeside]
  exact (rest d).mono id fun _ _ h => ⟨List.forall_mem_nil _, h⟩

/-- Type parameters stand in the scope of their owner, which gets each of them. -/
theorem bindTypeParams_lays {owner : DeclId} {scope : ScopeChain} (ps : List TypeParameter)
    (chain : H → f.ChainIn u (.decl owner :: scope)) (parametric : H → f.Parametric u owner)
    (has : H → ∀ p ∈ ps, tree.Has (.typeParameter p)) :
    LaysParts f u tree H (.decl owner :: scope) (bindTypeParams (.decl owner :: scope) owner ps)
      (ps.map Node.typeParameter) := by
  induction ps with
  | nil => exact .nil
  | cons p ps ih =>
    have hfirst : Lays f u tree H (do
        let d ← declare (.decl owner :: scope) (.typeParameter p) p.name false (.typeParameter p.variance {})
        take (.addTypeParam owner d))
        (Node.typeParameter p).idSet fun _ => f.Situated u (.decl owner :: scope) (.typeParameter p) := by
      refine declaration_lays_within (declare_lays (.typeParameter p.variance {}) rfl chain
        (fun hH => has hH p List.mem_cons_self) fun _ => ⟨rfl, rfl, rfl, nofun⟩) chain rfl nofun rfl .rfl fun d => ?_
      -- The parameter is listed with its owner, in whose scope it has been declared.
      refine (Lays.take _ ?_).mono id fun _ _ _ => List.forall_mem_nil _
      rintro ⟨hH, hmade⟩
      refine ⟨⟨hmade.declares.valid, ?_, ?_⟩, parametric hH⟩
      · rw [hmade.declares.scope, (chain hH).chain.2.1]
      · exact (Option.some.inj hmade.declares.kind).symm
    exact LaysParts.cons hfirst (ih fun hH p' hp' => has hH p' (List.mem_cons_of_mem p hp'))

/-- A parameter stands in the scope that it is declared in, and its default in a scope of its own. -/
theorem bindParam_lays (p : Parameter) (chain : H → f.ChainIn u c)
    (has : H → tree.Has (.parameter p)) :
    Lays f u tree H (bindParam c p) (Node.parameter p).idSet
      fun d => f.Declares u c (.parameter p) d ∧ f.Situated u c (.parameter p) := by
  have hparts : (Node.parameter p).parts.Perm (.name p.name :: (Node.parameter p).within) :=
    Node.parts_parameter p ▸ .swap ..
  rw [bindParam]
  refine Lays.of_eq (.bind (declare_lays (.parameter .unknown p.default.isSome p.sequenced) rfl chain has
    fun _ => ⟨rfl, rfl, rfl, nofun⟩) fun d => ?_) (idSet_of_parts hparts)
  have chain' := fun hH : H ∧ Introduced f u c (.parameter p) p.name d => hH.2.chain (chain hH.1)
  -- The parameter is returned as it has been declared, after its type and its default.
  have hmade : Lays f u tree (H ∧ Introduced f u c (.parameter p) p.name d) (Pure.pure d) 0 (· = d) :=
    .pure fun _ => rfl
  have hrest := Lays.both (g := fun _ => bindOption (.decl d :: c) p.default >>= fun _ => Pure.pure d)
    (typeRef_lays p.type default chain') (Lays.both (bindOption_lays p.default chain') hmade)
  refine (Lays.of_eq hrest (by rw [add_zero]; rfl)).mono id ?_
  rintro _ ⟨hH, hmade⟩ ⟨htype, hdefault, rfl⟩
  exact ⟨hmade.declares, situated_of_introduced hmade (chain hH) rfl nofun hparts (List.forall_mem_nil _)
    (List.forall_mem_cons.mpr ⟨htype, hdefault⟩)⟩

/-- Parameters are declared one after another. -/
theorem bindParamList_lays (ps : List Parameter) (chain : H → f.ChainIn u c)
    (has : H → ∀ p ∈ ps, tree.Has (.parameter p)) :
    Lays f u tree H (bindParamList c ps) ((ps.map Node.parameter).map Node.idSet).sum
      fun ds => (∀ d ∈ ds, ∃ p, f.Declares u c (.parameter p) d) ∧
        ∀ n ∈ ps.map Node.parameter, f.Situated u c n := by
  induction ps generalizing H with
  | nil => exact .pure fun _ => by simp
  | cons p ps ih =>
    rw [bindParamList]
    apply Lays.of_eq
    case h =>
      apply Lays.bind (bindParam_lays p chain fun hH => has hH p List.mem_cons_self)
      intro d
      apply Lays.bind (ih (fun hH => chain hH.1) fun hH p' hp' =>
        has hH.1 p' (List.mem_cons_of_mem p hp'))
      intro ds
      refine .pure ?_
      rintro ⟨⟨hH, hd, hp⟩, hds, hps⟩
      exact ⟨List.forall_mem_cons.mpr ⟨⟨p, hd⟩, hds⟩, List.forall_mem_cons.mpr ⟨hp, hps⟩⟩
    case hids => simp

/-- A list of parameters stands in the scope of its owner, which gets them all. -/
theorem bindParams_lays {owner : DeclId} {scope : ScopeChain} (list : ParameterList)
    (chain : H → f.ChainIn u (.decl owner :: scope)) (has : H → tree.Has (.parameterList list)) :
    Lays f u tree H (bindParams (.decl owner :: scope) owner list) (Node.parameterList list).idSet
      fun _ => f.Situated u (.decl owner :: scope) (.parameterList list) := by
  rw [bindParams]
  apply Lays.of_eq
  case h =>
    apply Lays.record
    apply Lays.bind (bindParamList_lays list.params (fun hH => chain hH.1) fun hH p hp => ?_)
    · intro ds
      apply (Lays.act (g := .done) rfl ?_ fun _ => .pure ?_)
      · -- Each of them is declared in the scope of the owner, as the step asks for.
        rintro ⟨⟨hH, -⟩, hds, -⟩ d hd
        obtain ⟨p, hp⟩ := hds d hd
        refine ⟨hp.valid, ?_, ?_⟩
        · rw [hp.scope, (chain hH).chain.2.1]
        · exact (Option.some.inj hp.kind).symm
      · rintro ⟨⟨⟨hH, hstands⟩, -, hps⟩, -⟩
        refine .intro hstands (chain hH) (.of_beside rfl rfl rfl ?_) ?_
        · rw [show Node.beside (.parameterList list) = Node.parts (.parameterList list) from rfl,
            Node.parts_parameterList]
          exact fun n hn => (hps n hn).1
        · rw [Node.parts_parameterList]
          exact fun n hn => ⟨_, hps n hn⟩
    · refine (has hH.1).part ?_
      rw [Node.parts_parameterList]
      exact List.mem_map.mpr ⟨p, hp, rfl⟩
  case hids =>
    rw [Node.idSet_eq, Node.parts_parameterList]
    simp [Node.mark]

/-! ## Conditions and loops -/

/-- The chain of scopes inside the body that a clause opens. -/
def Inside (f : State) (u : UnitId) (outer : ScopeChain) (clause : Node) (inner : ScopeChain) :
    Prop :=
  ∃ b, inner = .block b :: outer ∧ f.Opens u outer clause b

/-- Inside a body the chain of scopes goes on to the package. -/
theorem Inside.chain {clause : Node} {inner : ScopeChain} (h : Inside f u c clause inner)
    (chain : f.ChainIn u c) : f.ChainIn u inner := by
  obtain ⟨b, rfl, hopens⟩ := h
  refine ⟨⟨hopens.valid, ?_, chain.chain⟩, by rw [List.getLast?_cons, chain.package]; rfl⟩
  rw [hopens.body]

/-- A variable stands in the body of its clause, and its type and its value stand outside. -/
theorem bindVariable_lays {inner : ScopeChain} {clause : Node} (v : Variable)
    (chain : H → f.ChainIn u c) (inside : H → Inside f u c clause inner)
    (mem : v ∈ clause.clauseVariables) (has : H → tree.Has (.variable v)) :
    Lays f u tree H (bindVariable c inner v) (Node.variable v).idSet
      fun _ => f.Situated u inner (.variable v) := by
  -- The variable is declared inside, in front of its type and its value.
  have hmade : Lays f u tree H (declare inner (.variable v) v.name false (.value .unknown false)) _
      (Introduced f u inner (.variable v) v.name) :=
    declare_lays _ rfl (fun hH => (inside hH).chain (chain hH)) has fun _ => ⟨rfl, rfl, rfl, nofun⟩
  have hrest : LaysParts f u tree H c (recordTree c v.type.outline >>= fun _ => bindOption c v.specifier)
      (v.type.node :: v.specifier.toList.map Node.expr) :=
    .cons (declaredType_lays v.type chain) (bindOption_lays v.specifier chain)
  refine Lays.of_eq ((Lays.both (g := fun _ => recordTree c v.type.outline >>= fun _ => bindOption c v.specifier)
    hmade.discard hrest).mono id ?_) ?_
  · rintro _ hH ⟨⟨d, made⟩, hparts⟩
    obtain ⟨b, rfl, hopens⟩ := inside hH
    refine .intro made.stands (Inside.chain ⟨b, rfl, hopens⟩ (chain hH)) ?_ fun p hp => ?_
    · refine ⟨List.forall_mem_nil _, fun _ => ⟨d, made.declares, List.forall_mem_nil _⟩, nofun,
        fun p hp => (hparts p hp).1, ?_⟩
      rintro _ ⟨rfl⟩
      exact ⟨b, clause, rfl, hopens, mem⟩
    · rw [Node.parts_variable] at hp
      rcases List.mem_cons.mp ((List.Perm.swap ..).mem_iff.mp hp) with rfl | hp
      · exact ⟨_, made.name⟩
      · exact ⟨_, hparts p hp⟩
  · rw [Node.idSet_eq, Node.parts_variable, ((List.Perm.swap ..).map _).sum_eq, List.map_cons, List.sum_cons, add_assoc]

/-- What a condition tests: an expression stands outside the body, a variable inside. -/
structure OperandLaid (f : State) (u : UnitId) (outer inner : ScopeChain) (o : Operand) : Prop where
  situated : ∃ c, f.Situated u c o.node
  outside : ∀ p ∈ Node.ofOperand o, f.Stands u outer p
  inside : ∀ v ∈ o.variables, f.Stands u inner (.variable v)

/-- What a condition tests is laid out on both sides of the body. -/
theorem bindOperand_lays {inner : ScopeChain} {clause : Node} (o : Operand)
    (chain : H → f.ChainIn u c) (inside : H → Inside f u c clause inner)
    (mem : ∀ v ∈ o.variables, v ∈ clause.clauseVariables) (has : H → tree.Has o.node) :
    Lays f u tree H (bindOperand c inner o) o.node.idSet fun _ => OperandLaid f u c inner o := by
  cases o with
  | var g =>
    refine (bindVariable_lays g.variable chain inside (mem _ List.mem_cons_self) has).mono id ?_
    intro _ _ h
    exact ⟨⟨_, h⟩, List.forall_mem_nil _, List.forall_mem_singleton.mpr h.1⟩
  | value x =>
    refine (bindExpr_lays x chain).mono id ?_
    intro _ _ h
    exact ⟨⟨_, h⟩, List.forall_mem_singleton.mpr h.1, List.forall_mem_nil _⟩

/-- A condition stands outside the body, and the variables that it declares stand inside. -/
theorem bindCondition_lays {inner : ScopeChain} (clause : Node) (cond : Condition)
    (chain : H → f.ChainIn u c) (inside : H → Inside f u c clause inner)
    (mem : ∀ v ∈ cond.variables, v ∈ clause.clauseVariables)
    (has : H → tree.Has (.condition cond)) :
    Lays f u tree H (bindCondition c inner cond) (Node.condition cond).idSet
      fun _ => f.Situated u c (.condition cond) ∧
        ∀ v ∈ cond.variables, f.Stands u inner (.variable v) := by
  have hpart : H → ∀ p ∈ (Node.condition cond).parts, tree.Has p := fun hH => (has hH).parts
  rw [Node.parts_condition] at hpart
  unfold bindCondition
  rw [Node.idSet_eq, Node.parts_condition]
  -- The condition itself is recorded first, so that it is known to stand outside in what follows.
  refine .record ?_
  cases cond with
  | boolean mark x =>
    refine Lays.of_eq ((bindExpr_lays x fun hH => chain hH.1).mono id ?_) (by simp)
    rintro _ ⟨hH, hstands⟩ hx
    refine ⟨.intro hstands (chain hH) (.of_beside rfl rfl rfl ?_) ?_, List.forall_mem_nil _⟩
    · exact List.forall_mem_singleton.mpr hx.1
    · rw [Node.parts_condition]
      exact List.forall_mem_singleton.mpr ⟨_, hx⟩
  -- These two have only an operand; the test of a type has the type as well.
  | «exists» mark o | nonempty mark o =>
    refine Lays.of_eq ((bindOperand_lays o (fun hH => chain hH.1) (fun hH => inside hH.1) mem
      fun hH => hpart hH.1 _ (List.mem_singleton_self _)).mono id ?_) (by simp)
    rintro _ ⟨hH, hstands⟩ ho
    refine ⟨.intro hstands (chain hH) (.of_beside rfl rfl rfl ho.outside) ?_, ho.inside⟩
    rw [Node.parts_condition]
    exact List.forall_mem_singleton.mpr ho.situated
  | is mark narrowed o =>
    refine Lays.of_eq ((Lays.both (typeRef_lays narrowed default fun hH => chain hH.1)
      (bindOperand_lays o (fun hH => chain hH.1) (fun hH => inside hH.1) mem fun hH =>
        hpart hH.1 _ (List.mem_cons_of_mem _ (List.mem_singleton_self _)))).mono id ?_) (by simp)
    rintro _ ⟨hH, hstands⟩ ⟨htype, ho⟩
    refine ⟨.intro hstands (chain hH) (.of_beside rfl rfl rfl ?_) ?_, ho.inside⟩
    · exact List.forall_mem_cons.mpr ⟨htype.1, ho.outside⟩
    · rw [Node.parts_condition]
      exact List.forall_mem_cons.mpr ⟨⟨_, htype⟩, List.forall_mem_singleton.mpr ho.situated⟩

/-- An iteration stands outside the body, and its variables stand inside. -/
theorem bindIteration_lays {inner : ScopeChain} (clause : Node) (i : Iteration)
    (chain : H → f.ChainIn u c) (inside : H → Inside f u c clause inner)
    (mem : ∀ v ∈ i.variables, v ∈ clause.clauseVariables) (has : H → tree.Has (.iteration i)) :
    Lays f u tree H (bindIteration c inner i) (Node.iteration i).idSet
      fun _ => f.Situated u c (.iteration i) ∧
        ∀ v ∈ i.variables, f.Stands u inner (.variable v) := by
  have hpart : H → ∀ p ∈ (Node.iteration i).parts, tree.Has p := fun hH => (has hH).parts
  rw [Node.parts_iteration] at hpart
  unfold bindIteration
  rw [Node.idSet_eq, Node.parts_iteration]
  refine .record ?_
  -- A loop variable stands in the body, and what the loop goes over beside the clause.
  have hvariable {H' : Prop} (pre : H' → H) (v : Variable) (hv : v ∈ i.variables) (hp : Node.variable v ∈ _) :
      Lays f u tree H' (bindVariable c inner v) (Node.variable v).idSet fun _ => f.Situated u inner (.variable v) :=
    bindVariable_lays v (chain ∘ pre) (inside ∘ pre) (mem v hv) fun hH => hpart (pre hH) _ hp
  cases i with
  | values mark var source =>
    refine Lays.of_eq ((Lays.both (hvariable And.left var.variable List.mem_cons_self List.mem_cons_self)
      (bindExpr_lays source fun hH => chain hH.1)).mono id ?_) (by simp)
    rintro _ ⟨hH, hstands⟩ ⟨hvar, hsource⟩
    refine ⟨.intro hstands (chain hH) (.of_beside rfl rfl rfl ?_) ?_, ?_⟩
    · exact List.forall_mem_singleton.mpr hsource.1
    · rw [Node.parts_iteration]
      exact List.forall_mem_cons.mpr ⟨⟨_, hvar⟩, List.forall_mem_singleton.mpr ⟨_, hsource⟩⟩
    · exact List.forall_mem_singleton.mpr hvar.1
  | entries mark key value source =>
    refine Lays.of_eq ((Lays.both (hvariable And.left key.variable List.mem_cons_self List.mem_cons_self)
      (Lays.both (hvariable And.left value.variable (List.mem_cons_of_mem _ List.mem_cons_self)
          (List.mem_cons_of_mem _ List.mem_cons_self))
        (bindExpr_lays source fun hH => chain hH.1))).mono id ?_) (by simp)
    rintro _ ⟨hH, hstands⟩ ⟨hkey, hvalue, hsource⟩
    refine ⟨.intro hstands (chain hH) (.of_beside rfl rfl rfl ?_) ?_, ?_⟩
    · exact List.forall_mem_singleton.mpr hsource.1
    · rw [Node.parts_iteration]
      exact List.forall_mem_cons.mpr ⟨⟨_, hkey⟩, List.forall_mem_cons.mpr
        ⟨⟨_, hvalue⟩, List.forall_mem_singleton.mpr ⟨_, hsource⟩⟩⟩
    · exact List.forall_mem_cons.mpr ⟨hkey.1, List.forall_mem_singleton.mpr hvalue.1⟩

/-- A clause has opened its body. -/
structure Opened (f : State) (u : UnitId) (c : ScopeChain) (clause : Node) (inner : ScopeChain) : Prop where
  stands : f.Stands u c clause
  inside : Inside f u c clause inner

/-- Opening a body makes its clause stand outside. -/
theorem openBody_lays {clause : Node} (chain : H → f.ChainIn u c) (has : H → tree.Has clause) :
    Lays f u tree H (openBody c clause) {clause.mark.id}
      (Opened f u c clause) := by
  rw [openBody]
  refine Lays.of_eq (.record (.act rfl ?_ fun b => .pure ?_)) (add_zero _).symm
  · exact fun hH => ⟨chain hH.1, has hH.1⟩
  · rintro ⟨⟨hH, hstands⟩, hopens⟩
    exact ⟨hstands, b, rfl, hopens⟩

/-- A clause is laid out if its condition stands outside its body, and the rest inside. -/
theorem laid_of_inside {n : Node} {inner : ScopeChain} (h : Inside f u c n inner)
    (hdecl : n.declKind = none) (houtside : n.outside = []) (hbeside : ∀ p ∈ n.beside, f.Stands u c p)
    (hwithin : ∀ p ∈ n.within, f.Stands u inner p) : f.Laid u c n where
  beside := hbeside
  declared h := by simp [hdecl] at h
  opened _ := by
    obtain ⟨b, rfl, hopens⟩ := h
    exact ⟨b, hopens, hwithin⟩
  outside p hp := by simp [houtside] at hp
  held v hv := by
    subst hv
    cases hdecl

/-- A setter is introduced, and joined to the getter of its name if there is one. -/
theorem declareSetter_lays (d : SetterDecl) (chain : H → f.ChainIn u c)
    (has : H → tree.Has (.stmt (.setter d))) :
    Lays f u tree H (declareSetter c d) ({d.mark.id} + (Node.name d.name).idSet)
      (Introduced f u c (.stmt (.setter d)) d.name) := by
  rw [declareSetter]
  refine .act rfl chain fun getter => ?_
  rw [← add_zero ({d.mark.id} + (Node.name d.name).idSet : Multiset Nat)]
  -- The getter was looked for in the same scope, which is what a setter has to start with.
  refine .bind (declare_lays (.setter .unknown getter) rfl (fun hH => chain hH.1)
    (fun hH => has hH.1) fun hH => ?_) fun id => ?_
  · refine ⟨rfl, rfl, rfl, ?_⟩
    rintro _ g ⟨rfl, rfl⟩
    exact hH.2 g rfl
  · cases getter with
    | none => exact .pure fun hH => hH.2
    | some g => exact .act rfl (fun _ => trivial) fun _ => .pure fun hH => hH.1.2

/-! ## Statements -/

/-- The outline of a list of type references, as recorded. -/
theorem types_lays (label : String) (ts : List TypeRef) (chain : H → f.ChainIn u c) :
    LaysParts f u tree H c (recordTrees c (outlineTypes label ts)) (ts.map Node.type) := by
  rw [← map_node_outlineTypes label ts]
  refine recordTrees_lays (outlineTypes_faithful label ts) (fun o ho => ?_) chain
  have hnode : o.node ∈ ts.map Node.type :=
    map_node_outlineTypes label ts ▸ List.mem_map.mpr ⟨o, ho, rfl⟩
  obtain ⟨t, -, ht⟩ := List.mem_map.mp hnode
  rw [← ht]
  rfl

/-- An extended type that may be missing. -/
theorem extended_lays (e : Option ExtendedType) (chain : H → f.ChainIn u c) :
    LaysParts f u tree H c (recordTrees c (outlineOption ExtendedType.outline e))
      (e.toList.map Node.extendedType) := by
  have hnodes : (outlineOption ExtendedType.outline e).map Outline.node
      = e.toList.map Node.extendedType := map_node_outlineOption _ e
  rw [← hnodes]
  refine recordTrees_lays (outlineOption_faithful ExtendedType.outline_faithful)
    (fun o ho => ?_) chain
  obtain ⟨e, -, rfl⟩ : ∃ e', e = some e' ∧ e'.outline = o := by simpa [outlineOption] using ho
  rfl

/-- A node whose parts all stand beside it is laid out if its scope is recorded before they are. -/
theorem recorded_lays {n : Node} {ns : List Node} {g : Unit → Bind Unit} (chain : H → f.ChainIn u c)
    (hdecl : n.declKind = none) (hclause : n.isClause = false) (houtside : n.outside = [])
    (hbeside : n.beside = n.parts) (hparts : n.parts = ns)
    (rest : LaysParts f u tree (H ∧ f.Stands u c n) c (g ()) ns) :
    Lays f u tree H (take (.record n.mark c) >>= g) n.idSet fun _ => f.Situated u c n := by
  rw [Node.idSet_eq, hparts]
  refine .record (Lays.mono rest id ?_)
  rintro _ ⟨hH, hstands⟩ hall
  refine .intro hstands (chain hH) (.of_beside hdecl hclause houtside fun p hp => ?_) fun p hp => ?_
  · exact (hall p (hparts ▸ hbeside ▸ hp)).1
  · exact ⟨c, hall p (hparts ▸ hp)⟩

/-- The parts of a clause: what it tests or goes over stands beside it, and in the scope that it opens stand its
variables and its body. -/
structure ClauseParts (clause : Node) (head : List Node) (body : Block) : Prop where
  parts : clause.parts = head ++ [.block body]
  beside : clause.beside = head
  within : clause.within = clause.clauseVariables.map Node.variable ++ [.block body]
  declKind : clause.declKind = none
  outside : clause.outside = []

/-- A script opens the body of a clause, and then lays out what stands beside the clause and in its scope. -/
theorem clause_lays {clause : Node} {head : List Node} {body : Block} {script : ScopeChain → Bind Unit}
    (parts : ClauseParts clause head body) (chain : H → f.ChainIn u c) (has : H → tree.Has clause)
    (rest : ∀ inner, Lays f u tree (H ∧ Opened f u c clause inner) (script inner)
      ((head.map Node.idSet).sum + (Node.block body).idSet) fun _ =>
        ((∀ p ∈ head, f.Situated u c p) ∧ ∀ v ∈ clause.clauseVariables, f.Stands u inner (.variable v)) ∧
          f.Situated u inner (.block body)) :
    Lays f u tree H (openBody c clause >>= script) clause.idSet fun _ => f.Situated u c clause := by
  have hids : clause.idSet = {clause.mark.id} + ((head.map Node.idSet).sum + (Node.block body).idSet) := by
    rw [Node.idSet_eq, parts.parts, List.map_append, List.sum_append, List.map_singleton, List.sum_singleton]
  refine Lays.of_eq (.bind (openBody_lays chain has) fun inner => (rest inner).mono id ?_) hids
  rintro _ ⟨hH, hopened⟩ ⟨⟨hhead, hvars⟩, hbody⟩
  refine .intro hopened.stands (chain hH) (laid_of_inside hopened.inside parts.declKind parts.outside ?_ ?_) ?_
  · exact parts.beside ▸ fun p hp => (hhead p hp).1
  · rw [parts.within]
    refine List.forall_mem_append.mpr ⟨fun p hp => ?_, List.forall_mem_singleton.mpr hbody.1⟩
    obtain ⟨v, hv, rfl⟩ := List.mem_map.mp hp
    exact hvars v hv
  · rw [parts.parts]
    exact List.forall_mem_append.mpr ⟨fun p hp => ⟨c, hhead p hp⟩, List.forall_mem_singleton.mpr ⟨inner, hbody⟩⟩

/-- What a clause tests or goes over, and then its body. -/
theorem headed_lays {inner : ScopeChain} {head : Node} {vars : List Variable} {body : Block} {d : Bind Unit}
    {g : Unit → Bind Unit}
    (hhead : Lays f u tree H d head.idSet fun _ =>
      f.Situated u c head ∧ ∀ v ∈ vars, f.Stands u inner (.variable v))
    (hbody : Lays f u tree H (g ()) (Node.block body).idSet fun _ => f.Situated u inner (.block body)) :
    Lays f u tree H (d >>= g) (([head].map Node.idSet).sum + (Node.block body).idSet) fun _ =>
      ((∀ p ∈ [head], f.Situated u c p) ∧ ∀ v ∈ vars, f.Stands u inner (.variable v)) ∧
        f.Situated u inner (.block body) := by
  rw [List.map_singleton, List.sum_singleton]
  exact (Lays.both hhead hbody).mono id fun _ _ h => ⟨⟨List.forall_mem_singleton.mpr h.1.1, h.1.2⟩, h.2⟩

/-- A clause with nothing but a body. -/
theorem headless_lays {inner : ScopeChain} {body : Block} {d : Bind Unit}
    (hbody : Lays f u tree H d (Node.block body).idSet fun _ => f.Situated u inner (.block body)) :
    Lays f u tree H d ((([] : List Node).map Node.idSet).sum + (Node.block body).idSet) fun _ =>
      ((∀ p ∈ ([] : List Node), f.Situated u c p) ∧ ∀ v ∈ ([] : List Variable), f.Stands u inner (.variable v)) ∧
        f.Situated u inner (.block body) :=
  Lays.of_eq (hbody.mono id fun _ _ h => ⟨⟨List.forall_mem_nil _, List.forall_mem_nil _⟩, h⟩) (by simp)

mutual

/-- Binding a statement lays it out. -/
theorem bindStmt_lays : (s : Stmt) → ∀ {c : ScopeChain} {H : Prop}, (H → f.ChainIn u c) →
    (H → tree.Has (.stmt s)) →
    Lays f u tree H (bindStmt c s) (Node.stmt s).idSet fun _ => f.Situated u c (.stmt s)
  | .classDecl { mark, annotations, name, typeParams, params, extended, satisfied, body },
      c, H, chain, has => by
    have hpart := fun hH => (has hH).parts
    rw [Node.parts_classDecl] at hpart
    rw [bindStmt]
    -- A class has all but its name in its own scope: type parameters, parameters, supertypes and body.
    refine declaration_lays_within (declare_lays (.ofClass {} none annotations.isAbstract false) rfl chain has
      fun _ => ⟨rfl, rfl, rfl, nofun⟩) chain rfl nofun rfl (.of_eq (Node.parts_classDecl _)) fun d => ?_
    have chain' {n : Node} (hH : H ∧ Introduced f u c n name d) := hH.2.chain (chain hH.1)
    refine LaysParts.perm (.append (bindTypeParams_lays typeParams chain'
        (fun hH => hH.2.parametric (by simp [Node.declKind])) fun hH p hp => hpart hH.1 _ (by simp [hp]))
      (.cons (bindParams_lays params chain' fun hH => hpart hH.1 _ (by simp))
      (.append (extended_lays extended chain')
      (.append (types_lays "satisfies" satisfied chain')
      (.single (bindBlock_lays body chain' fun hH => hpart hH.1 _ (by simp))))))) (.of_eq ?_)
    simp [Node.within]
  | .interfaceDecl { mark, annotations, name, typeParams, satisfied, body }, c, H, chain, has => by
    have hpart := fun hH => (has hH).parts
    rw [Node.parts_interfaceDecl] at hpart
    rw [bindStmt]
    refine declaration_lays_within (declare_lays (.ofInterface {}) rfl chain has
      fun _ => ⟨rfl, rfl, rfl, nofun⟩) chain rfl nofun rfl (.of_eq (Node.parts_interfaceDecl _)) fun d => ?_
    have chain' {n : Node} (hH : H ∧ Introduced f u c n name d) := hH.2.chain (chain hH.1)
    refine LaysParts.perm (.append (bindTypeParams_lays typeParams chain'
        (fun hH => hH.2.parametric (by simp [Node.declKind])) fun hH p hp => hpart hH.1 _ (by simp [hp]))
      (.append (types_lays "satisfies" satisfied chain')
      (.single (bindBlock_lays body chain' fun hH => hpart hH.1 _ (by simp))))) (.of_eq ?_)
    simp [Node.within]
  | .method { mark, annotations, type, name, typeParams, params, body }, c, H, chain, has => by
    have hpart := fun hH => (has hH).parts
    rw [Node.parts_method] at hpart
    rw [bindStmt]
    refine declaration_lays_within (declare_lays (.method .unknown [] [] type.isVoid annotations.isFormal) rfl chain
      has fun _ => ⟨rfl, rfl, rfl, nofun⟩) chain rfl nofun rfl (Node.parts_method _ ▸ .swap ..) fun d => ?_
    have chain' {n : Node} (hH : H ∧ Introduced f u c n name d) := hH.2.chain (chain hH.1)
    -- The type is recorded behind the type parameters, which it may name, but it is the first of the parts.
    refine LaysParts.perm (.append (bindTypeParams_lays typeParams chain'
        (fun hH => hH.2.parametric (by simp [Node.declKind])) fun hH p hp => hpart hH.1 _ (by simp [hp]))
      (.cons (declaredType_lays type chain')
      (.cons (bindParams_lays params chain' fun hH => hpart hH.1 _ (by simp))
      (bindMethodBody_lays body chain' fun hH p hp => hpart hH.1 _ (by simp [hp]))))) ?_
    exact List.perm_middle
  | .attribute d, c, H, chain, has => by
    rw [bindStmt, discard_bind]
    -- An attribute opens no scope: its type and its value stand beside it.
    refine declaration_lays (declare_lays (.value .unknown d.annotations.isVariable) rfl chain has
      fun _ => ⟨rfl, rfl, rfl, nofun⟩) chain rfl nofun ?_ fun _ => ?_
    · rw [Node.parts_attribute, show Node.within (.stmt (.attribute d)) = [] from rfl, List.append_nil]
      exact .swap ..
    · rw [show Node.within (.stmt (.attribute d)) = [] from rfl, List.append_nil]
      refine (LaysParts.cons (declaredType_lays d.type fun hH => chain hH.1)
        (bindOption_lays d.init.expr? fun hH => chain hH.1)).mono id fun _ _ h => ⟨h, List.forall_mem_nil _⟩
  | .getter { mark, annotations, type, name, body }, c, H, chain, has => by
    have hpart := fun hH => (has hH).parts
    rw [Node.parts_getter] at hpart
    rw [bindStmt]
    refine declaration_lays (declare_lays (.getter .unknown none) rfl chain has
      fun _ => ⟨rfl, rfl, rfl, nofun⟩) chain rfl nofun (Node.parts_getter _ ▸ .swap ..) fun d => ?_
    refine Lays.of_eq ((Lays.both (declaredType_lays type fun hH => chain hH.1)
      (bindBlock_lays body (fun hH => hH.2.chain (chain hH.1)) fun hH => hpart hH.1 _ (by simp))).mono id
      fun _ _ h => ⟨List.forall_mem_singleton.mpr h.1, List.forall_mem_singleton.mpr h.2⟩) ?_
    simp [Node.beside, Node.within]
  | .setter { mark, annotations, name, body }, c, H, chain, has => by
    have hpart := fun hH => (has hH).parts
    rw [Node.parts_setter] at hpart
    rw [bindStmt]
    refine declaration_lays_within (declareSetter_lays _ chain has) chain rfl nofun rfl
      (.of_eq (Node.parts_setter _)) fun d => ?_
    exact .single (bindBlock_lays body (fun hH => hH.2.chain (chain hH.1)) fun hH => hpart hH.1 _ (by simp))
  | .expr mark x, c, H, chain, has => by
    rw [bindStmt]
    exact recorded_lays (n := .stmt (.expr mark x)) chain rfl rfl rfl rfl (Node.parts_exprStmt ..)
      (.single (bindExpr_lays x fun hH => chain hH.1))
  | .return mark x, c, H, chain, has => by
    rw [bindStmt]
    exact recorded_lays (n := .stmt (.return mark x)) chain rfl rfl rfl rfl (Node.parts_return ..)
      (bindOption_lays x fun hH => chain hH.1)
  | .break mark, c, H, chain, has => by
    rw [bindStmt]
    exact recorded_lays (n := .stmt (.break mark)) (g := .done) chain rfl rfl rfl rfl rfl .nil
  | .continue mark, c, H, chain, has => by
    rw [bindStmt]
    exact recorded_lays (n := .stmt (.continue mark)) (g := .done) chain rfl rfl rfl rfl rfl .nil
  | .ifElse s, c, H, chain, has => by
    rw [bindStmt]
    exact bindIf_lays s chain has
  | .while mark { mark := clauseMark, cond, body }, c, H, chain, has => by
    have hclause := fun hH => (has hH).parts
    rw [Node.parts_while] at hclause
    have hpart := fun hH => (hclause hH _ (List.mem_singleton_self _)).parts
    rw [Node.parts_whileClause] at hpart
    rw [bindStmt]
    refine recorded_lays (n := .stmt (.while mark _)) chain rfl rfl rfl rfl (Node.parts_while ..) (.single ?_)
    -- The statement stands around its clause, and the clause around the body that it opens.
    refine clause_lays ⟨Node.parts_whileClause _, rfl, rfl, rfl, rfl⟩ (fun hH => chain hH.1)
      (fun hH => hclause hH.1 _ (by simp)) fun inner => ?_
    exact headed_lays (bindCondition_lays _ cond (fun hH => chain hH.1.1) (fun hH => hH.2.inside) (fun _ hv => hv)
      fun hH => hpart hH.1.1 _ (by simp)) (bindBlock_lays body (fun hH => hH.2.inside.chain (chain hH.1.1))
        fun hH => hpart hH.1.1 _ (by simp))
  | .for mark { mark := clauseMark, iteration, body } fail, c, H, chain, has => by
    have hclause := fun hH => (has hH).parts
    rw [Node.parts_for] at hclause
    have hpart := fun hH => (hclause hH _ List.mem_cons_self).parts
    rw [Node.parts_forClause] at hpart
    rw [bindStmt]
    refine recorded_lays (n := .stmt (.for mark _ fail)) chain rfl rfl rfl rfl (Node.parts_for ..) ?_
    have hfirst : Lays f u tree (H ∧ f.Stands u c (.stmt (.for mark ⟨clauseMark, iteration, body⟩ fail)))
        (openBody c (.forClause ⟨clauseMark, iteration, body⟩) >>= fun inner =>
          bindIteration c inner iteration >>= fun _ => bindBlock inner body)
        (Node.forClause ⟨clauseMark, iteration, body⟩).idSet
        fun _ => f.Situated u c (.forClause ⟨clauseMark, iteration, body⟩) :=
      clause_lays ⟨Node.parts_forClause _, rfl, rfl, rfl, rfl⟩ (fun hH => chain hH.1)
        (fun hH => hclause hH.1 _ (by simp)) fun inner => headed_lays
          (bindIteration_lays _ iteration (fun hH => chain hH.1.1) (fun hH => hH.2.inside) (fun _ hv => hv)
            fun hH => hpart hH.1.1 _ (by simp))
          (bindBlock_lays body (fun hH => hH.2.inside.chain (chain hH.1.1)) fun hH => hpart hH.1.1 _ (by simp))
    -- A clause behind the loop is laid out beside it, outside the scope of the loop variables.
    simpa only [bind_assoc] using LaysParts.cons hfirst
      (bindFail_lays fail (fun hH => chain hH.1) fun hH p hp => hclause hH.1 _ (List.mem_cons_of_mem _ hp))

/-- Binding statements one after another lays them out. -/
theorem bindStmts_lays : (ss : List Stmt) → ∀ {c : ScopeChain} {H : Prop}, (H → f.ChainIn u c) →
    (H → ∀ n ∈ ss.map Node.stmt, tree.Has n) → LaysParts f u tree H c (bindStmts c ss) (ss.map Node.stmt)
  | [], c, H, chain, has => .nil
  | s :: ss, c, H, chain, has => by
    rw [bindStmts]
    exact .cons (bindStmt_lays s chain fun hH => has hH _ List.mem_cons_self)
      (bindStmts_lays ss chain fun hH n hn => has hH n (List.mem_cons_of_mem _ hn))

/-- Binding a block lays it out. -/
theorem bindBlock_lays : (b : Block) → ∀ {c : ScopeChain} {H : Prop}, (H → f.ChainIn u c) →
    (H → tree.Has (.block b)) →
    Lays f u tree H (bindBlock c b) (Node.block b).idSet fun _ => f.Situated u c (.block b)
  | { mark, stmts, close }, c, H, chain, has => by
    have hpart := fun hH => (has hH).parts
    rw [Node.parts_block] at hpart
    rw [bindBlock]
    exact recorded_lays (n := .block { mark, stmts, close }) chain rfl rfl rfl rfl (Node.parts_block _)
      (bindStmts_lays stmts (fun hH => chain hH.1) fun hH => hpart hH.1)

/-- Binding the body of a method lays it out. -/
theorem bindMethodBody_lays : (b : MethodBody) → ∀ {c : ScopeChain} {H : Prop},
    (H → f.ChainIn u c) → (H → ∀ n ∈ b.nodes, tree.Has n) → LaysParts f u tree H c (bindMethodBody c b) b.nodes
  | .absent, c, H, chain, has => by
    rw [bindMethodBody]
    exact .nil
  | .block b, c, H, chain, has => by
    rw [bindMethodBody]
    exact .single (bindBlock_lays b chain fun hH => has hH _ (List.mem_singleton_self _))
  | .computed x, c, H, chain, has => by
    rw [bindMethodBody]
    exact .single (bindExpr_lays x chain)

/-- Binding a conditional statement lays it out. -/
theorem bindIf_lays : (s : IfStmt) → ∀ {c : ScopeChain} {H : Prop}, (H → f.ChainIn u c) →
    (H → tree.Has (.stmt (.ifElse s))) →
    Lays f u tree H (bindIf c s) (Node.stmt (.ifElse s)).idSet
      fun _ => f.Situated u c (.stmt (.ifElse s))
  | { mark, clause := { mark := clauseMark, cond, body }, alternative }, c, H, chain, has => by
    have hclause := fun hH => (has hH).parts
    rw [Node.parts_ifElse] at hclause
    have hpart := fun hH => (hclause hH _ List.mem_cons_self).parts
    rw [Node.parts_ifClause] at hpart
    rw [bindIf]
    refine recorded_lays (n := .stmt (.ifElse _)) chain rfl rfl rfl rfl (Node.parts_ifElse _) ?_
    have hfirst : Lays f u tree (H ∧ f.Stands u c (.stmt (.ifElse ⟨mark, ⟨clauseMark, cond, body⟩, alternative⟩)))
        (openBody c (.ifClause ⟨clauseMark, cond, body⟩) >>= fun inner =>
          bindCondition c inner cond >>= fun _ => bindBlock inner body)
        (Node.ifClause ⟨clauseMark, cond, body⟩).idSet
        fun _ => f.Situated u c (.ifClause ⟨clauseMark, cond, body⟩) :=
      clause_lays ⟨Node.parts_ifClause _, rfl, rfl, rfl, rfl⟩ (fun hH => chain hH.1)
        (fun hH => hclause hH.1 _ (by simp)) fun inner => headed_lays
          (bindCondition_lays _ cond (fun hH => chain hH.1.1) (fun hH => hH.2.inside) (fun _ hv => hv)
            fun hH => hpart hH.1.1 _ (by simp))
          (bindBlock_lays body (fun hH => hH.2.inside.chain (chain hH.1.1)) fun hH => hpart hH.1.1 _ (by simp))
    -- An alternative is laid out beside the clause, outside the scope of what its condition declares.
    simpa only [bind_assoc] using LaysParts.cons hfirst
      (bindElse_lays alternative (fun hH => chain hH.1) fun hH p hp => hclause hH.1 _ (List.mem_cons_of_mem _ hp))

/-- Binding the alternative of a conditional statement, which may be missing. -/
theorem bindElse_lays : (e : Option ElseClause) → ∀ {c : ScopeChain} {H : Prop},
    (H → f.ChainIn u c) → (H → ∀ n ∈ e.toList.map Node.elseClause, tree.Has n) →
    LaysParts f u tree H c (bindElse c e) (e.toList.map Node.elseClause)
  | none, c, H, chain, has => by
    rw [bindElse]
    exact .nil
  | some (.block mark b), c, H, chain, has => by
    have hclause := fun hH => has hH _ (List.mem_singleton_self _)
    have hpart := fun hH => (hclause hH).parts
    rw [Node.parts_else] at hpart
    rw [bindElse]
    exact .single (clause_lays ⟨Node.parts_else .., rfl, rfl, rfl, rfl⟩ chain hclause fun inner => headless_lays
      (bindBlock_lays b (fun hH => hH.2.inside.chain (chain hH.1)) fun hH => hpart hH.1 _ (by simp)))
  | some (.ifElse mark s), c, H, chain, has => by
    have hpart := fun hH => (has hH _ (List.mem_singleton_self _)).parts
    rw [Node.parts_elseIf] at hpart
    rw [bindElse]
    exact .single (recorded_lays (n := .elseClause (.ifElse mark s)) chain rfl rfl rfl rfl (Node.parts_elseIf ..)
      (.single (bindIf_lays s (fun hH => chain hH.1) fun hH => hpart hH.1 _ (by simp))))

/-- Binding the clause behind a loop, which may be missing. -/
theorem bindFail_lays : (e : Option FailClause) → ∀ {c : ScopeChain} {H : Prop},
    (H → f.ChainIn u c) → (H → ∀ n ∈ e.toList.map Node.failClause, tree.Has n) →
    LaysParts f u tree H c (bindFail c e) (e.toList.map Node.failClause)
  | none, c, H, chain, has => by
    rw [bindFail]
    exact .nil
  | some { mark, body }, c, H, chain, has => by
    have hclause := fun hH => has hH _ (List.mem_singleton_self _)
    have hpart := fun hH => (hclause hH).parts
    rw [Node.parts_failClause] at hpart
    rw [bindFail]
    exact .single (clause_lays ⟨Node.parts_failClause _, rfl, rfl, rfl, rfl⟩ chain hclause fun inner => headless_lays
      (bindBlock_lays body (fun hH => hH.2.inside.chain (chain hH.1)) fun hH => hpart hH.1 _ (by simp)))

end

/-- Binding a unit records all its nodes, and lays them out. -/
theorem bindUnit_lays (unit : CompilationUnit) (chain : H → f.ChainIn u c)
    (has : H → tree.Has (.unit unit)) :
    Lays f u tree H (bindUnit c unit) (Node.unit unit).idSet
      fun _ => f.Situated u c (.unit unit) := by
  have hpart := fun hH => (has hH).parts
  rw [Node.parts_unit] at hpart
  -- The header of the module and the imports are recorded as trees of plain nodes.
  have hmodule : (outlineOption ModuleDescriptor.outline unit.module).map Outline.node
      = unit.module.toList.map Node.moduleDescriptor := map_node_outlineOption _ unit.module
  have himports : (unit.imports.map Import.outline).map Outline.node
      = unit.imports.map Node.import := by simp [Function.comp_def, Import.outline, Outline.node]
  refine recorded_lays (n := .unit unit) chain rfl rfl rfl rfl (Node.parts_unit unit) ?_
  rw [← hmodule, ← himports, List.append_assoc]
  refine .append (recordTrees_lays (outlineOption_faithful ModuleDescriptor.outline_faithful) (fun o ho => ?_)
      fun hH => chain hH.1)
    (.append (recordTrees_lays (allFaithful_map Import.outline_faithful) (fun o ho => ?_) fun hH => chain hH.1)
      (bindStmts_lays unit.body (fun hH => chain hH.1) fun hH n hn => hpart hH.1 n (List.mem_append_right _ hn)))
  · obtain ⟨d, -, rfl⟩ : ∃ d, unit.module = some d ∧ d.outline = o := by
      simpa [outlineOption] using ho
    rfl
  · obtain ⟨i, -, rfl⟩ := List.mem_map.mp ho
    rfl

end Binding

end

end Analysis

end Ceylon
