import Ceylon.Proofs.AnalyzedUnits

/-!
# The types of analyzed programs

All types that an analysis stores are built as their declarations say, with as many arguments as there are type
parameters (`SourceTree.analyze_builds`).  If no error has been found in a program, then there is nothing unknown
in them, and no type is missing: every expression has a type, and so has everything that is declared and is not
a type itself (`SourceTree.analyze_types`).  So a rule that does not find a type can rely on it that the user is
told of a problem.
-/

namespace Ceylon

namespace Model

/-- A declaration with its arguments occurs in a type. -/
inductive Applied.OccursIn (a : Applied) : Ty → Prop
  | self : a.OccursIn (.applied a)
  | argument {b : Applied} {t : Ty} (ht : t ∈ b.args) (h : a.OccursIn t) : a.OccursIn (.applied b)
  | case {cases : List Applied} {extended : Option Applied} {c : Applied} (hc : c ∈ cases)
    (h : a.OccursIn (.applied c)) : a.OccursIn (.union cases extended)
  | above {cases : List Applied} {c : Applied} (h : a.OccursIn (.applied c)) :
    a.OccursIn (.union cases (some c))

/-- What occurs in a type within a horizon lies within it. -/
theorem Applied.OccursIn.within {z : Horizon} {a : Applied} {t : Ty} (h : a.OccursIn t) (ht : t.Within z) :
    a.Within z := by
  induction h with
  | self => exact ht.of_applied
  | argument hmem _ ih => exact ih (ht.of_applied.args _ hmem)
  | case hc _ ih => exact ih (.applied (ht.cases _ hc))
  | above _ ih =>
    cases ht with
    | union _ _ _ above => exact ih (.applied (above _ rfl))

end Model

namespace Syntax.Node

theorem all_sublist_of_part {n p : Node} (hp : p ∈ n.parts) : p.all.Sublist (n.parts.flatMap all) := by
  rw [List.flatMap_def]
  exact List.sublist_flatten_of_mem (List.mem_map_of_mem hp)

theorem all_sublist {n m : Node} (hm : m ∈ n.all) : m.all.Sublist n.all := by
  refine forall_all (P := fun m => m.all.Sublist n.all) (.refl _) (fun m hm p hp => .trans ?_ hm) m hm
  rw [m.all_eq]
  exact (all_sublist_of_part hp).cons m

theorem length_all_lt_of_part {n p : Node} (hp : p ∈ n.parts) : p.all.length < n.all.length := by
  rw [n.all_eq, List.length_cons]
  exact Nat.lt_succ_of_le (all_sublist_of_part hp).length_le

end Syntax.Node

namespace Analysis

open Model Syntax

theorem State.HasNode.below {f : State} {u : UnitId} {n m : Node} (h : f.HasNode u n) (hm : m ∈ n.all) :
    f.HasNode u m :=
  Node.forall_all h (fun _ hn _ hp => hn.part hp) m hm

/-! ## Where an analysis stores types -/

/-- A type that an analysis has stored: for a node, or for a declaration as its type or as one that it extends or
satisfies. -/
inductive State.Stores (s : State) : Ty → Prop
  | node {k : NodeId} {t : Ty} (h : s.types.get? k = some t) : s.Stores t
  | type (d : DeclId) : s.Stores (s.graph.typeOf d)
  | extended {d : DeclId} {a : Applied} (h : (s.graph.decl d).shape.generic.extended = some a) :
    s.Stores (.applied a)
  | satisfied {d : DeclId} {a : Applied} (h : a ∈ (s.graph.decl d).shape.generic.satisfied) :
    s.Stores (.applied a)

/-- No unit of the program has an error. -/
def State.IsClean (s : State) : Prop :=
  ∀ u ∈ s.userUnits, ∀ d ∈ (s.unit u).diagnostics, d.severity ≠ .error

theorem State.Accounted.not_hasFindings {s : State} {pending : UnitId → Prop} (hs : s.Accounted pending)
    (clean : s.IsClean) : ¬ s.HasFindings := by
  rintro ⟨u, hu, hfound⟩
  obtain ⟨d, hd⟩ := Array.exists_mem_of_ne_empty _ hfound
  have hvalid : u.index < s.units.size := by
    by_contra hinvalid
    rw [State.unit_of_invalid hinvalid] at hd
    exact Array.not_mem_empty d hd
  exact clean u (State.mem_userUnits.mpr ⟨hu, hvalid⟩) d hd (hs.errors u d hd)

section

variable {s f : State} {lax : Prop} {done : UnitId → Prop} (hs : s.Examined f lax done)
include hs

theorem State.Examined.decl (d : DeclId) : s.graph.decl d = f.graph.decl d :=
  (hs.sound default).decl d

/-- The type of a node is built from declarations of the program. -/
theorem State.Examined.node_within {k : NodeId} {t : Ty} (h : s.types.get? k = some t) :
    ∃ isOpen, t.Within (f.horizon lax isOpen) := by
  have hsound := hs.sound default
  rcases (Option.orElse_eq_some _ _ _).mp h with h | ⟨-, h⟩
  · rw [show s.types.refs = f.types.refs from congrArg (·.types.refs) hsound.facts] at h
    exact ⟨_, hs.ready.refs _ _ h⟩
  · exact ⟨_, hsound.exprs _ _ h⟩

/-- A type that has been stored is built from declarations of the program, or is missing. -/
theorem State.Examined.within {t : Ty} (h : s.Stores t) :
    t = .unknown ∨ ∃ isOpen, t.Within (f.horizon lax isOpen) := by
  have hformed := hs.ready.toFormed
  have hsound := hs.sound default
  have hsupertypes : ∀ {d : DeclId} {a : Applied}, a ∈ f.graph.hierarchy.supertypes d →
      ∃ isOpen, (Ty.applied a).Within (f.horizon lax isOpen) := by
    intro d a ha
    by_cases hd : d.index < f.graph.decls.size
    · exact ⟨_, .applied (hformed.supertypes d hd a ha)⟩
    · simp only [Hierarchy.supertypes, Graph.hierarchy, Graph.decl_of_invalid hd] at ha
      cases ha
  cases h with
  | node h => exact .inr (hs.node_within h)
  | type d =>
    -- a known type is the declared one, which is formed, or an inferred one, which is sound
    cases hknown : (s.graph.typeOf d).isKnown with
    | false =>
      refine .inl ?_
      cases htype : s.graph.typeOf d <;> simp_all
    | true =>
      rcases typeOf_of_isKnown hknown with ⟨hdeclared, heq⟩ | ⟨k, -, hinferred⟩
      · rw [heq]
        rw [hs.decl] at hdeclared ⊢
        by_cases hd : d.index < f.graph.decls.size
        · exact .inr ⟨_, hformed.declared d hd hdeclared⟩
        · rw [Graph.decl_of_invalid hd] at hdeclared
          cases hdeclared
      · exact .inr ⟨_, (hsound.inferred k _ hinferred).within_of_isKnown hknown⟩
  | extended h =>
    rw [hs.decl] at h
    exact .inr (hsupertypes (List.mem_append_left _ (Option.mem_toList.mpr h)))
  | satisfied h =>
    rw [hs.decl] at h
    exact .inr (hsupertypes (List.mem_append_right _ h))

/-- What occurs in a type that has been stored has the arguments that its declaration asks for, and no unknown
ones unless these are tolerated. -/
theorem State.Examined.builds {t : Ty} (h : s.Stores t) {a : Applied} (ha : a.OccursIn t) :
    a.args.length = (s.graph.decl a.decl).shape.typeParams.length ∧
      (¬ lax → ∀ arg ∈ a.args, arg.isKnown = true) := by
  rcases hs.within h with rfl | ⟨isOpen, ht⟩
  · cases ha
  · have hbuilt := ha.within ht
    refine ⟨?_, fun strict arg harg => ?_⟩
    · rw [hs.decl]
      exact hbuilt.arity
    · by_contra hunknown
      exact strict ((hbuilt.args arg harg).lax_of_unknown (by simpa using hunknown))

/-! ## What has been checked -/

/-- Below the node of a task that has been begun, everything has been dealt with. -/
theorem State.Examined.settles {u : UnitId} (hu : u ≠ languageUnit) (task : Task) (hhas : f.HasNode u task.node)
    (hbegun : s.progress.begun ⟨u, task.mark.id⟩) :
    ∀ m ∈ task.node.all, s.progress.Settles (f.leeway lax) u m := by
  induction hn : task.node.all.length using Nat.strong_induction_on generalizing task with
  | h n ih =>
    obtain ⟨⟨t, hfinished⟩, -⟩ := (hs.sound default).done u task hu hhas hbegun List.not_mem_nil
    intro m hm
    rw [Node.all_eq] at hm
    rcases List.mem_cons.mp hm with rfl | hm
    · cases task with
      | unit tree =>
        intro htask
        cases htask
      | _ => exact fun _ => hbegun
    · obtain ⟨part, hpart, hm⟩ := List.mem_flatMap.mp hm
      rcases hfinished.covers part hpart m hm with hsettles | ⟨n', hn', htask, hm', hbegun'⟩
      · exact hsettles
      · -- A task of its own stands between, which has been begun as well.
        obtain ⟨task', rfl⟩ := Task.exists_of_isTask htask
        have hlt := (Node.all_sublist hn').length_le.trans_lt (Node.length_all_lt_of_part hpart)
        rw [Task.mark_node] at hbegun'
        exact ih _ (hn ▸ hlt) task' ((hhas.part hpart).below hn') hbegun' rfl m hm'

end

section

variable {s f : State} (hs : s.Examined f False (· ∈ s.userUnits)) (clean : ¬ s.HasFindings)
include hs clean

/-- If no problem has been found, everything in the units of the program has been dealt with. -/
theorem State.Examined.settles_of_clean {u : UnitId} (hu : u ≠ languageUnit) {n : Node} (hn : f.HasNode u n) :
    s.progress.Settles (f.leeway False) u n := by
  have hsound := hs.sound default
  have hmem : u ∈ s.userUnits := State.mem_userUnits.mpr ⟨hu, hsound.valid hn.1⟩
  have hfine : (s.unit u).failure = none := by
    by_contra hfailed
    exact clean ⟨u, hu, hs.accounted.failed u (Option.isSome_iff_ne_none.mpr hfailed)⟩
  have htree : (f.unit u).tree = (s.unit u).tree := hsound.facts ▸ s.sameLayout_facts.tree u
  have hroot := hs.settles hu (.unit (f.unit u).tree) ⟨hn.1, Node.mem_all _⟩
    (htree ▸ hs.done u hmem hfine)
  exact hroot n hn.2

/-- If no problem has been found, then the tasks that give types have given them. -/
theorem State.Examined.given {u : UnitId} (hu : u ≠ languageUnit) (task : Task) (hhas : f.HasNode u task.node)
    (hgives : task.givesType = true) : s.progress.given ⟨u, task.mark.id⟩ := by
  have hsettles := hs.settles_of_clean clean hu hhas
  have hbegun : s.progress.begun ⟨u, task.mark.id⟩ := by
    cases task with
    | unit tree => cases hgives
    | _ => exact hsettles rfl
  exact ((hs.sound default).done u task hu hhas hbegun List.not_mem_nil).2 hgives

/-- If no problem has been found, then there is no setter without a getter either, and no type is missing. -/
theorem State.Examined.not_blank : ¬ (f.leeway False).blank := by
  rintro (h | ⟨d, hd, htyped, hnot⟩)
  · exact h
  · obtain ⟨u, setter, t, hu, hunit, hnode, hshape⟩ := (hs.gets id d hd htyped).resolve_left hnot
    obtain ⟨n, hnode', hhas, hlisted, -⟩ := hs.ready.layout.grounded.origins d hd u hunit
    obtain rfl : n = .stmt (.setter setter) := Option.some.inj (hnode'.symm.trans hnode)
    have hbegun := hs.settles_of_clean clean hu hhas rfl
    obtain ⟨⟨_, hfinished⟩, -⟩ :=
      (hs.sound default).done u (.setter setter) hu hhas hbegun List.not_mem_nil
    rcases hfinished.getter setter rfl with h | ⟨d', t', g, hlisted', hshape'⟩
    · exact h
    · obtain rfl : d = d' := Option.some.inj (hlisted.symm.trans hlisted')
      cases hshape.symm.trans hshape'

/-- If no problem has been found, then every expression has a type. -/
theorem State.Examined.types {u : UnitId} (hu : u ∈ s.userUnits) {x : Expr} (hx : (s.unit u).tree.Has (.expr x)) :
    ∃ ty, s.types.get? ⟨u, x.mark.id⟩ = some ty ∧ ty.isKnown = true := by
  have hsound := hs.sound default
  obtain ⟨hne, hvalid⟩ := State.mem_userUnits.mp hu
  -- A unit that is not bound has failed, which leaves an error in it.
  have hbound : (s.unit u).isBound = true := by
    refine ((hs.accounted.bound u hvalid).resolve_left id).resolve_right fun hfailed => ?_
    exact clean ⟨u, hne, hs.accounted.failed u hfailed⟩
  have hnode : f.HasNode u (.expr x) := hsound.facts ▸ (s.sameLayout_facts.hasNode_iff u _).mpr ⟨hbound, hx⟩
  have hsettled : s.progress.settled ⟨u, x.mark.id⟩ :=
    (hs.settles_of_clean clean hne hnode).resolve_left (hs.not_blank clean)
  obtain ⟨ty, hty⟩ := Option.isSome_iff_exists.mp hsettled
  -- A node has one entry in the tables, of an expression or of a type reference.
  have hget : ∃ ty, s.types.get? ⟨u, x.mark.id⟩ = some ty := by
    rw [TypeTable.get?, hty]
    cases s.types.refs[(⟨u, x.mark.id⟩ : NodeId)]? with
    | none => exact ⟨ty, rfl⟩
    | some ty' => exact ⟨ty', rfl⟩
  obtain ⟨ty', hty'⟩ := hget
  obtain ⟨isOpen, hwithin⟩ := hs.node_within hty'
  refine ⟨ty', hty', ?_⟩
  by_contra hunknown
  exact hwithin.lax_of_unknown (by simpa using hunknown)

/-- If no problem has been found, then everything that is declared and is not a type has one. -/
theorem State.Examined.typeOf_isKnown {d : DeclId} (hd : d.index < s.graph.decls.size)
    (htyped : (s.graph.decl d).shape.isTyped = true) : (s.graph.typeOf d).isKnown = true := by
  have hsound := hs.sound default
  rw [hs.decl] at htyped
  have hd : d.index < f.graph.decls.size := hsound.facts ▸ hd
  have hblank := hs.not_blank clean
  have hgrounded := hs.ready.layout.grounded
  by_contra hunknown
  rw [Bool.not_eq_true] at hunknown
  have hundeclared : (f.graph.decl d).shape.type.isKnown = false := by
    by_contra hdeclared
    rw [Bool.not_eq_false, ← hs.decl] at hdeclared
    rw [Graph.typeOf, if_pos hdeclared] at hunknown
    exact absurd (hunknown.symm.trans hdeclared) Bool.false_ne_true
  have huser : ∀ u, (f.graph.decl d).unit = some u → u ≠ languageUnit := by
    rintro u hunit rfl
    have hdeclared := hs.ready.language d hunit htyped
    exact absurd (hundeclared.symm.trans hdeclared) Bool.false_ne_true
  -- The node of the declaration, with its unit.
  obtain ⟨u, hunit⟩ := hs.rooted d hd htyped
  obtain ⟨n, hnode, hhas, -, hkind⟩ := hgrounded.origins d hd u hunit
  have hu := huser u hunit
  have hnodeOf : f.graph.nodeOf? d = some ⟨u, n.mark.id⟩ := by simp [Graph.nodeOf?, hunit, hnode]
  have hgets : f.GetsType d := by
    by_contra hnot
    exact hblank (.inr ⟨d, hd, htyped, hnot⟩)
  cases hgets with
  | declared h => exact absurd (hundeclared.symm.trans h) Bool.false_ne_true
  | @byTask u' task h hinference =>
    obtain ⟨-, hnode', -, hinferred⟩ := State.inference?_eq_some h
    obtain rfl : n = task.node := Option.some.inj (hnode.symm.trans hnode')
    rw [hkind] at hinferred
    refine hblank (hsound.blank_of_given hunknown hnodeOf (by simpa using hinferred) ?_)
    rw [Task.mark_node]
    exact hs.given clean hu task hhas (task.givesType_of_isInference hinference)
  | @byClause u' v _ hnode' hinferred =>
    obtain rfl : n = .variable v := Option.some.inj (hnode.symm.trans hnode')
    refine hblank (hsound.blank_of_given hunknown hnodeOf (.inr (.inl (Option.some.inj hkind).symm)) ?_)
    exact hs.settles_of_clean clean hu hhas hinferred
  | @ofGetter t g hshape =>
    -- A setter is given the type of its getter by its own task.
    obtain ⟨setter, rfl⟩ : ∃ setter, n = .stmt (.setter setter) := by
      rw [hshape] at hkind
      cases n with
      | stmt n =>
        cases n with
        | setter setter => exact ⟨setter, rfl⟩
        | _ => cases hkind
      | _ => cases hkind
    obtain ⟨t', ht'⟩ := Option.isSome_iff_exists.mp (hs.given clean hu (.setter setter) hhas rfl)
    have hknown : t'.isKnown = true := by
      by_contra hmissing
      exact hblank ((hsound.inferred _ _ ht').blank_of_unknown (by simpa using hmissing))
    have hinferred : s.graph.inferredType d = t' := by
      rw [Graph.inferredType, hsound.nodeOf?, hnodeOf]
      exact congrArg (·.getD .unknown) ht'
    have htype : s.graph.typeOf d = t' := by
      rw [← hs.decl] at hshape hundeclared
      rw [hshape] at hundeclared
      simp [Graph.typeOf, hundeclared, hshape, hinferred]
    exact absurd (hunknown.symm.trans (htype ▸ hknown)) Bool.false_ne_true

end

/-! ## Analyzed programs -/

section

variable (t : SourceTree) (exclude : List String)

theorem SourceTree.analyze_accounted : (t.analyze exclude).2.Accounted fun _ => False := by
  rcases t.analyze_examined exclude True with ⟨h, -⟩ | ⟨f, hexamined⟩
  · exact absurd trivial h
  · exact hexamined.accounted

/-- What an analysis that has not found errors has come to. -/
theorem SourceTree.analyze_clean (clean : (t.analyze exclude).2.IsClean) :
    ¬ (t.analyze exclude).2.HasFindings ∧
      ∃ f, (t.analyze exclude).2.Examined f False (· ∈ (t.analyze exclude).2.userUnits) := by
  have hclean := (t.analyze_accounted exclude).not_hasFindings clean
  exact ⟨hclean, (t.analyze_examined exclude False).resolve_left fun h => hclean h.2⟩

/-- All types that an analysis stores apply each declaration to as many arguments as it has type parameters.  If no
error has been found, then all these arguments are known. -/
theorem SourceTree.analyze_builds {ty : Ty} (hstored : (t.analyze exclude).2.Stores ty) {a : Applied}
    (ha : a.OccursIn ty) :
    a.args.length = ((t.analyze exclude).2.graph.decl a.decl).shape.typeParams.length ∧
      ((t.analyze exclude).2.IsClean → ∀ arg ∈ a.args, arg.isKnown = true) := by
  constructor
  · obtain ⟨f, hexamined⟩ := (t.analyze_examined exclude True).resolve_left fun h => h.1 trivial
    exact (hexamined.builds hstored ha).1
  · intro clean
    obtain ⟨-, f, hexamined⟩ := t.analyze_clean exclude clean
    exact (hexamined.builds hstored ha).2 id

/-- The type of the boxes that the function makes. -/
def boxOfIntegers : Applied :=
  ⟨⟨57⟩, [.applied ⟨⟨50⟩, []⟩]⟩

theorem boxMaker_computed :
    let s := (boxMaker.analyze []).2
    s.userUnits = [⟨1⟩] ∧ s.IsClean ∧ (∃ x, (s.unit ⟨1⟩).tree.Has (.expr x)) ∧
      s.types.get? ⟨⟨1⟩, 21⟩ = some (.applied boxOfIntegers) ∧ 60 < s.graph.decls.size ∧
      (s.graph.decl ⟨60⟩).shape.isTyped = true ∧ (s.graph.decl ⟨60⟩).shape.type.isKnown = false := by
  have h := beginning_holds.boxed
  generalize (boxMaker.analyze []).2 = s at h ⊢
  simp only [isBoxed, Bool.and_eq_true, decide_eq_true_eq, Bool.not_eq_true', List.any_eq_true,
    Option.any_eq_true] at h
  obtain ⟨⟨⟨⟨⟨⟨hunits, hclean⟩, n, hn, hexpr⟩, ty, hty, hbox⟩, hvalid⟩, htyped⟩, hinferred⟩ := h
  refine ⟨hunits, fun u hu d hd => ?_, ?_, ?_, hvalid, htyped, hinferred⟩
  · obtain rfl : u = ⟨1⟩ := by simpa [hunits] using hu
    rw [Array.isEmpty_iff.mp hclean] at hd
    simp at hd
  · cases n with
    | expr x => exact ⟨x, hn⟩
    | _ => cases hexpr
  · rw [hty]
    split at hbox
    · rfl
    · cases hbox

theorem analyze_builds_boxMaker :
    (boxMaker.analyze []).2.Stores (.applied boxOfIntegers) ∧ boxOfIntegers.OccursIn (.applied boxOfIntegers) ∧
      (boxMaker.analyze []).2.IsClean ∧
      boxOfIntegers.args.length = ((boxMaker.analyze []).2.graph.decl boxOfIntegers.decl).shape.typeParams.length ∧
      ∀ arg ∈ boxOfIntegers.args, arg.isKnown = true := by
  obtain ⟨-, hclean, -, hstored, -⟩ := boxMaker_computed
  have h := boxMaker.analyze_builds [] (.node hstored) .self
  exact ⟨.node hstored, .self, hclean, h.1, h.2 hclean⟩

/-- If an analysis has not found errors, then all expressions of the program have types, and so have all methods,
values, getters, setters and parameters. -/
theorem SourceTree.analyze_types (clean : (t.analyze exclude).2.IsClean) :
    (∀ u ∈ (t.analyze exclude).2.userUnits, ∀ x, ((t.analyze exclude).2.unit u).tree.Has (.expr x) →
      ∃ ty, (t.analyze exclude).2.types.get? ⟨u, x.mark.id⟩ = some ty ∧ ty.isKnown = true) ∧
    ∀ d, d.index < (t.analyze exclude).2.graph.decls.size →
      ((t.analyze exclude).2.graph.decl d).shape.isTyped = true →
      ((t.analyze exclude).2.graph.typeOf d).isKnown = true := by
  obtain ⟨hclean, f, hexamined⟩ := t.analyze_clean exclude clean
  exact ⟨fun u hu x hx => hexamined.types hclean hu hx,
    fun d hd htyped => hexamined.typeOf_isKnown hclean hd htyped⟩

end

theorem analyze_types_boxMaker :
    (boxMaker.analyze []).2.IsClean ∧
      (∃ x, ((boxMaker.analyze []).2.unit ⟨1⟩).tree.Has (.expr x) ∧
        ∃ ty, (boxMaker.analyze []).2.types.get? ⟨⟨1⟩, x.mark.id⟩ = some ty ∧ ty.isKnown = true) ∧
      ((boxMaker.analyze []).2.graph.decl ⟨60⟩).shape.type.isKnown = false ∧
      ((boxMaker.analyze []).2.graph.typeOf ⟨60⟩).isKnown = true := by
  obtain ⟨hunits, hclean, ⟨x, hx⟩, -, hvalid, htyped, hinferred⟩ := boxMaker_computed
  have h := boxMaker.analyze_types [] hclean
  have hunit : ⟨1⟩ ∈ (boxMaker.analyze []).2.userUnits := hunits ▸ List.mem_singleton_self _
  exact ⟨hclean, ⟨x, hx, h.1 _ hunit x hx⟩, hinferred, h.2 ⟨60⟩ hvalid htyped⟩

end Analysis

end Ceylon
