import Ceylon.Proofs.Records

/-!
# Resolving names records once

Resolving a unit finds no targets, inferred types and types of expressions recorded for the nodes of the unit,
and none of its declarations has a declared type.  Its imports give the imported names their targets, each once
(`Importing`); then its nodes are visited, where a reference may get its target more than once, but always the
same, a declaration gets its declared type once, and the type of a reference has been looked up in vain before it
is recorded (`Visiting`).  So whatever has been recorded stays (`namesWalk_keeps`), also if a fatal error ends the
pass.
-/

namespace Ceylon.Analysis

open Model Syntax Walk

section

variable {u : UnitId} {s s' : State}

/-- A declaration in the table is that of the node. -/
theorem State.InOrder.nodeOf (hs : s.InOrder) {k : NodeId} {d : DeclId} (hk : s.decls[k]? = some d) :
    s.graph.nodeOf? d = some k :=
  (hs.layout.grounded.table k d hk).2

theorem State.InOrder.owned (hs : s.InOrder) : s.Owned where
  declared k d hk := by
    obtain ⟨v, hunit, hnode⟩ := Option.bind_eq_some_iff.mp (hs.nodeOf hk)
    obtain ⟨n, -, hk'⟩ := Option.bind_eq_some_iff.mp hnode
    rw [hunit, ← Option.some.inj hk']
  numbered := hs.layout.numbered

/-! ## What a step of resolving changes -/

namespace Touches

variable (h : Touches u s s')
include h

theorem scopes : s'.scopes = s.scopes :=
  congrArg (·.scopes) h.fixed

theorem decls : s'.decls = s.decls :=
  congrArg (·.decls) h.fixed

theorem exprs : s'.types.exprs = s.types.exprs :=
  congrArg (·.types.exprs) h.fixed

theorem inferred : s'.graph.inferred = s.graph.inferred :=
  congrArg (·.graph.inferred) h.fixed

theorem checked : s'.checked = s.checked :=
  congrArg (·.checked) h.fixed

theorem declBound (d : DeclId) : (s'.graph.decl d).bound = (s.graph.decl d).bound := by
  rw [← State.decl_fixed, h.fixed, State.decl_fixed]

theorem nodeOf (d : DeclId) : s'.graph.nodeOf? d = s.graph.nodeOf? d := by
  have hunit : (s'.graph.decl d).unit = (s.graph.decl d).unit := congrArg (·.unit) (h.declBound d)
  have hnode : (s'.graph.decl d).node = (s.graph.decl d).node := congrArg (·.node) (h.declBound d)
  rw [Graph.nodeOf?, hunit, hnode, Graph.nodeOf?]

/-- Changing the share of a unit keeps what has been recorded, if neither types of expressions nor inferred
types have been recorded for it, and if types of references, targets and declared types stay. -/
theorem persists (hrefs : ∀ i t, s.types.refs[(⟨u, i⟩ : NodeId)]? = some t →
      s'.types.refs[(⟨u, i⟩ : NodeId)]? = some t)
    (hexprs : ∀ i, s.types.exprs[(⟨u, i⟩ : NodeId)]? = none)
    (hinferred : ∀ i, s.graph.inferred[(⟨u, i⟩ : NodeId)]? = none)
    (htargets : ∀ i d, s.targets[(⟨u, i⟩ : NodeId)]? = some d → s'.targets[(⟨u, i⟩ : NodeId)]? = some d)
    (htypes : ∀ d, (s.graph.decl d).unit = some u → (s.graph.decl d).shape.type.isKnown →
      (s'.graph.decl d).shape.type = (s.graph.decl d).shape.type) : s.Persists s' where
  scopes k c hk := h.scopes ▸ hk
  decls k d hk := h.decls ▸ hk
  -- A lookup finds the reference before the expression. In the unit itself no expression is recorded yet, so
  -- nothing is shadowed.
  types k t hk := by
    rw [TypeTable.get?_eq_some] at hk ⊢
    rcases hk with hk | ⟨hnone, hk⟩
    · by_cases hk' : k.unit = u
      · subst hk'
        exact .inl (hrefs k.id t hk)
      · exact .inl (by rwa [h.refs k hk'])
    · have hother : k.unit ≠ u := by
        rintro rfl
        rw [hexprs k.id] at hk
        cases hk
      rw [h.refs k hother, h.exprs]
      exact .inr ⟨hnone, hk⟩
  targets k d hk := by
    by_cases hk' : k.unit = u
    · subst hk'
      exact htargets k.id d hk
    · rwa [h.targets k hk']
  typeOf d hd := by
    -- a declaration of the unit has a written type or none at all, since nothing of the unit is inferred yet
    by_cases hunit : (s.graph.decl d).unit = some u
    · have hdeclared : (s.graph.decl d).shape.type.isKnown := by
        by_contra hdeclared
        have hnone : (s.graph.nodeOf? d).bind (fun k => s.graph.inferred[k]?) = none := by
          rw [Graph.nodeOf?, hunit]
          cases (s.graph.decl d).node with
          | none => rfl
          | some n => exact hinferred n.mark.id
        rw [Graph.typeOf_eq, if_neg hdeclared, Graph.inferredType, hnone] at hd
        split at hd <;> cases hd
      rw [Graph.typeOf_eq, Graph.typeOf_eq, htypes d hunit hdeclared, if_pos hdeclared, if_pos hdeclared]
    · rw [Graph.typeOf_eq, Graph.typeOf_eq, h.decl d hunit, Graph.inferredType, h.nodeOf, h.inferred,
        Graph.inferredType]

end Touches

namespace Resolution

/-- A step sets only the targets that it says it sets. -/
theorem perform_targets {step : ResolveStep} {k : NodeId} (hk : k.unit = u → k.id ∉ step.targeted) :
    (perform u step s).2.targets[k]? = s.targets[k]? := by
  cases step with
  | target m d =>
    refine getElem?_insert_of_ne ?_
    rintro rfl
    exact hk rfl (Multiset.mem_singleton_self _)
  | «recall» | unite | record | problem | «import» => rfl
  | extend | satisfy | declare =>
    simp only [perform, modifyDeclOf, modify, modifyGet, MonadStateOf.modifyGet, StateT.modifyGet, pure]
    split <;> rfl

theorem modifyDeclOf_type {m : Mark} {g : Shape → Shape} {d : DeclId}
    (h : s.decls[(⟨u, m.id⟩ : NodeId)]? = some d → ∀ shape, (g shape).type = shape.type) :
    ((modifyDeclOf u m g s).2.graph.decl d).shape.type = (s.graph.decl d).shape.type := by
  simp only [modifyDeclOf, modify, modifyGet, MonadStateOf.modifyGet, StateT.modifyGet, pure]
  split
  · rfl
  · next e he =>
    rw [Graph.modifyShape, s.graph.decl_modifyDecl]
    split
    · next hsame => exact h (hsame.1 ▸ he) _
    · rfl

/-- A step sets only the declared types that it says it sets. -/
theorem perform_type {step : ResolveStep} {d : DeclId}
    (hd : ∀ i ∈ step.declared, s.decls[(⟨u, i⟩ : NodeId)]? ≠ some d) :
    ((perform u step s).2.graph.decl d).shape.type = (s.graph.decl d).shape.type := by
  cases step with
  | declare m t => exact modifyDeclOf_type fun hm => absurd hm (hd m.id (Multiset.mem_singleton_self _))
  | extend m t => exact modifyDeclOf_type fun _ shape => by cases shape <;> rfl
  | satisfy m t => exact modifyDeclOf_type fun _ shape => by cases shape <;> rfl
  | «recall» | unite | record | target | problem | «import» => rfl

end Resolution

/-! ## The stages of resolving a unit -/

/-- A state on the way of resolving a unit, begun in a state that is in order and in which the unit was not
settled. -/
structure Resolves (u : UnitId) (before s : State) : Prop where
  touches : Touches u before s
  refines : before.Refines s

namespace Resolves

variable {before : State}

theorem refl (u : UnitId) (s : State) : Resolves u s s :=
  ⟨.refl u s, refl_of State.Refines s⟩

theorem perform (h : Resolves u before s) (hbefore : before.InOrder) (step : ResolveStep) :
    Touches u s (Resolution.perform u step s).2 ∧ Resolves u before (Resolution.perform u step s).2 := by
  have howned := (hbefore.advances h.refines.toAdvances).owned
  have htouches := perform_touches howned u step
  exact ⟨htouches, h.touches.trans htouches,
    trans_of State.Refines h.refines (resolution_perform_refines u step s)⟩

/-- Resolving a unit that is not settled keeps what has been recorded, if types of references, targets and declared
types stay. -/
theorem persists (h : Resolves u before s) (hbefore : before.Recorded) (hnew : before.isSettled u = false)
    (hstep : Touches u s s')
    (hrefs : ∀ i t, s.types.refs[(⟨u, i⟩ : NodeId)]? = some t → s'.types.refs[(⟨u, i⟩ : NodeId)]? = some t)
    (htargets : ∀ i d, s.targets[(⟨u, i⟩ : NodeId)]? = some d → s'.targets[(⟨u, i⟩ : NodeId)]? = some d)
    (htypes : ∀ d, (s.graph.decl d).unit = some u → (s.graph.decl d).shape.type.isKnown →
      (s'.graph.decl d).shape.type = (s.graph.decl d).shape.type) : s.Persists s' := by
  refine hstep.persists hrefs (fun i => ?_) (fun i => ?_) htargets htypes
  · rw [h.touches.exprs]
    exact Option.not_isSome_iff_eq_none.mp fun hi => absurd (hnew.symm.trans (hbefore.exprs _ hi)) nofun
  · rw [h.touches.inferred]
    exact Option.not_isSome_iff_eq_none.mp fun hi => absurd (hnew.symm.trans (hbefore.inferred _ hi)) nofun

/-- Once resolving a unit has ended, the unit counts as done. -/
theorem noted (h : Resolves u before s) (hbefore : before.Recorded)
    (htargets : ∀ v task x, (s.unit v).tree.Assigns task (.expr x) → v = u →
      s.targets[(⟨u, x.mark.id⟩ : NodeId)]? = none) :
    s.Noted fun v => before.isSettled v ∨ v = u where
  scopes k hk := by
    rw [h.touches.scopes] at hk
    rw [(h.refines.units k.unit).isBound]
    exact hbefore.scopes k hk
  exprs k hk := .inl (hbefore.exprs k (h.touches.exprs ▸ hk))
  inferred k hk := .inl (hbefore.inferred k (h.touches.inferred ▸ hk))
  targets k hk := by
    by_cases hu : k.unit = u
    · exact .inr hu
    · exact .inl (hbefore.targets k (h.touches.targets k hu ▸ hk))
  declared d v hunit hknown := by
    by_cases hv : v = u
    · exact .inr hv
    · have hbound : (s.graph.decl d).unit = (before.graph.decl d).unit := congrArg (·.unit) (h.touches.declBound d)
      rw [hbound] at hunit
      rw [h.touches.decl d fun hu => hv (Option.some.inj (hunit.symm.trans hu))] at hknown
      exact .inl (hbefore.declared d v hunit hknown)
  checked k hk := .inl (hbefore.checked k (h.touches.checked ▸ hk))
  -- a task that has yet to begin finds its nodes blank: resolving writes references and no expressions
  pending v task n hn hbegun := by
    rw [h.touches.checked] at hbegun
    have hfresh := hbefore.pending v task n ((h.refines.units v).tree ▸ hn) hbegun
    refine ⟨h.touches.exprs ▸ hfresh.expr, h.touches.inferred ▸ hfresh.inferred, fun x hx => ?_⟩
    by_cases hv : v = u
    · subst hx hv
      exact htargets v task x hn rfl
    · rw [h.touches.targets _ hv]
      exact hfresh.target x hx

end Resolves

/-- A state on the way of resolving the imports of a unit, with the numbers of the nodes that may still be
given targets: so far, none but imported names have targets. -/
structure Importing (before : State) (u : UnitId) (ids : Multiset Nat) (s : State) : Prop
    extends Resolves u before s where
  nodup : ids.Nodup
  blank : ∀ i ∈ ids, s.targets[(⟨u, i⟩ : NodeId)]? = none
  imported : ∀ i, s.targets[(⟨u, i⟩ : NodeId)]?.isSome →
    ∃ e, (before.unit u).tree.Has (.importElement e) ∧ e.mark.id = i
  undeclared : ∀ d, (s.graph.decl d).unit = some u → (s.graph.decl d).shape.type.isKnown = false

/-- A state on the way of visiting the nodes of a unit, with the numbers of the declarations that may still be
given their declared types: so far, targets have been given to imported names, and to references those that
their names stand for. -/
structure Visiting (before : State) (c : Resolution.Context) (ids : Multiset Nat) (s : State) : Prop
    extends Resolves c.unit before s where
  nodup : ids.Nodup
  undeclared : ∀ i ∈ ids, ∀ d, s.decls[(⟨c.unit, i⟩ : NodeId)]? = some d →
    (s.graph.decl d).shape.type.isKnown = false
  targets : ∀ i d, s.targets[(⟨c.unit, i⟩ : NodeId)]? = some d →
    (∃ e, (before.unit c.unit).tree.Has (.importElement e) ∧ e.mark.id = i) ∨
      ∃ b : BaseType, (before.unit c.unit).tree.Has (.type (.base b)) ∧ b.mark.id = i ∧
        c.typeNamed? b.mark b.name.text = some d

section

variable {before : State} {ids : Multiset Nat} (hbefore : before.InOrder) (hrecorded : before.Recorded)
include hbefore hrecorded

theorem Resolves.importing (hnew : before.isSettled u = false) (h : Resolves u before s)
    (htargets : s.targets = before.targets) (hdecl : ∀ d, s.graph.decl d = before.graph.decl d) :
    Importing before u (Node.unit (before.unit u).tree).idSet s where
  toResolves := h
  nodup := Multiset.coe_nodup.mpr (hbefore.layout.numbered u)
  blank i _ := by
    rw [htargets]
    exact hrecorded.targets_eq_none (k := ⟨u, i⟩) (Bool.eq_false_iff.mp hnew)
  imported i hi := by
    rw [htargets] at hi
    exact absurd (hnew.symm.trans (hrecorded.targets ⟨u, i⟩ hi)) nofun
  undeclared d hd := by
    rw [hdecl] at hd ⊢
    exact Bool.eq_false_iff.mpr fun hknown => absurd (hnew.symm.trans (hrecorded.declared d u hd hknown)) nofun

/-- A step of resolving imports gives a target to an imported name that has had none. -/
theorem Importing.perform {step : ResolveStep} (hnew : before.isSettled u = false)
    (h : Importing before u (step.targeted + ids) s) (hmay : Resolution.AllowsImport (before.unit u).tree step) :
    s.Persists (Resolution.perform u step s).2 ∧ Importing before u ids (Resolution.perform u step s).2 := by
  obtain ⟨hstep, hresolves⟩ := h.toResolves.perform hbefore step
  obtain ⟨-, hids, hdisjoint⟩ := Multiset.nodup_add.mp h.nodup
  have hother : ∀ i, i ∉ step.targeted →
      (Resolution.perform u step s).2.targets[(⟨u, i⟩ : NodeId)]? = s.targets[(⟨u, i⟩ : NodeId)]? :=
    fun i hi => Resolution.perform_targets fun _ => hi
  -- importing declares no type and records no reference
  have htype : ∀ d, ((Resolution.perform u step s).2.graph.decl d).shape.type = (s.graph.decl d).shape.type := by
    refine fun d => Resolution.perform_type fun i hi => ?_
    cases step <;> first | cases Multiset.notMem_zero i hi | cases hmay
  have hfirst : Resolution.RecordsFirst u s step := by
    cases step <;> first | exact fun i hi => absurd hi (Multiset.notMem_zero i) | cases hmay
  refine ⟨h.toResolves.persists hrecorded hnew hstep (fun _ _ => perform_keeps_refs hfirst) (fun i d hi => ?_)
    fun d _ _ => htype d, hresolves, hids, fun i hi => ?_, fun i hi => ?_, fun d hd => ?_⟩
  · rw [hother i fun htargeted => ?_, hi]
    exact absurd ((h.blank i (Multiset.mem_add.mpr (.inl htargeted))).symm.trans hi) nofun
  · rw [hother i (Multiset.disjoint_right.mp hdisjoint hi)]
    exact h.blank i (Multiset.mem_add.mpr (.inr hi))
  · by_cases htargeted : i ∈ step.targeted
    · cases step with
      | target m d =>
        obtain ⟨e, he, rfl⟩ := hmay
        exact ⟨e, he, (Multiset.mem_singleton.mp htargeted).symm⟩
      | _ => cases Multiset.notMem_zero i htargeted
    · rw [hother i htargeted] at hi
      exact h.imported i hi
  · rw [htype]
    refine h.undeclared d ?_
    rw [← hd]
    exact (congrArg (·.unit) (hstep.declBound d)).symm

omit hrecorded in
/-- When the imports of a unit have been resolved, its nodes can be visited. -/
theorem Importing.visiting (imports : List Imported) (h : Importing before u ids s) :
    Visiting before ⟨before.bound, u, imports⟩ (Node.unit (before.unit u).tree).idSet s where
  toResolves := h.toResolves
  nodup := Multiset.coe_nodup.mpr (hbefore.layout.numbered u)
  undeclared i _ d hd := by
    have howned := (hbefore.advances h.refines.toAdvances).owned
    exact h.undeclared d (howned.declared _ d hd)
  targets i d hi := .inl (h.imported i (by rw [hi]; rfl))

/-- A step of visiting nodes gives a reference the target that its name stands for, if it does not have it yet,
and a declaration its declared type, if it has had none.  The type of a reference has been looked up before. -/
theorem Visiting.perform {c : Resolution.Context} {step : ResolveStep} (hnew : before.isSettled c.unit = false)
    (h : Visiting before c (step.declared + ids) s) (hmay : c.Allows (before.unit c.unit).tree step)
    (hfirst : Resolution.RecordsFirst c.unit s step) :
    s.Persists (Resolution.perform c.unit step s).2 ∧
      Visiting before c ids (Resolution.perform c.unit step s).2 := by
  obtain ⟨hstep, hresolves⟩ := h.toResolves.perform hbefore step
  obtain ⟨-, hids, hdisjoint⟩ := Multiset.nodup_add.mp h.nodup
  have hnumbered := hbefore.layout.numbered c.unit
  have horder := hbefore.advances h.refines.toAdvances
  -- A target that the step sets is that of a reference.
  have hset : ∀ i, i ∈ step.targeted → ∃ b : BaseType, ∃ d,
      (before.unit c.unit).tree.Has (.type (.base b)) ∧ b.mark.id = i ∧ c.typeNamed? b.mark b.name.text = some d ∧
        (Resolution.perform c.unit step s).2.targets[(⟨c.unit, i⟩ : NodeId)]? = some d := by
    intro i hi
    cases step with
    | target m d =>
      obtain ⟨b, hb, rfl, hd⟩ := hmay
      obtain rfl := Multiset.mem_singleton.mp hi
      exact ⟨b, d, hb, rfl, hd, Std.ExtTreeMap.getElem?_insert_self⟩
    | _ => cases Multiset.notMem_zero i hi
  have hother : ∀ i, i ∉ step.targeted →
      (Resolution.perform c.unit step s).2.targets[(⟨c.unit, i⟩ : NodeId)]? = s.targets[(⟨c.unit, i⟩ : NodeId)]? :=
    fun i hi => Resolution.perform_targets fun _ => hi
  refine ⟨h.toResolves.persists hrecorded hnew hstep (fun _ _ => perform_keeps_refs hfirst) (fun i d hi => ?_)
    fun d hunit hknown => ?_, hresolves, hids, fun i hi d hd => ?_, fun i d hi => ?_⟩
  · by_cases htargeted : i ∈ step.targeted
    · obtain ⟨b, d', hb, rfl, hd', hi'⟩ := hset i htargeted
      rcases h.targets _ d hi with ⟨e, he, hid⟩ | ⟨b', hb', hid, hd⟩
      · cases hnumbered.eq_of_id he hb hid
      · cases hnumbered.eq_of_id hb' hb hid
        rw [hi', ← hd', hd]
    · rw [hother i htargeted, hi]
  · refine Resolution.perform_type fun i hi hd => ?_
    exact absurd ((h.undeclared i (Multiset.mem_add.mpr (.inl hi)) d hd).symm.trans hknown) nofun
  · rw [hstep.decls] at hd
    rw [Resolution.perform_type fun i' hi' hd' => ?_]
    · exact h.undeclared i (Multiset.mem_add.mpr (.inr hi)) d hd
    · obtain rfl : i' = i :=
        congrArg (·.id) (Option.some.inj ((horder.nodeOf hd').symm.trans (horder.nodeOf hd)))
      exact Multiset.disjoint_left.mp hdisjoint hi' hi
  · by_cases htargeted : i ∈ step.targeted
    · obtain ⟨b, d', hb, hid, hd', hi'⟩ := hset i htargeted
      exact .inr ⟨b, hb, hid, Option.some.inj (hi'.symm.trans hi) ▸ hd'⟩
    · rw [hother i htargeted] at hi
      exact h.targets i d hi

/-- No expression of a unit has a target while the names of the unit are resolved. -/
theorem Visiting.noted {c : Resolution.Context} (h : Visiting before c ids s) :
    s.Noted fun v => before.isSettled v ∨ v = c.unit := by
  refine h.toResolves.noted hrecorded fun v task x hx hv => ?_
  subst hv
  rw [(h.refines.units _).tree] at hx
  have hnumbered := hbefore.layout.numbered c.unit
  cases hi : s.targets[(⟨c.unit, x.mark.id⟩ : NodeId)]? with
  | none => rfl
  | some d =>
    rcases h.targets _ d hi with ⟨e, he, hid⟩ | ⟨b, hb, hid, -⟩
    · cases hnumbered.eq_of_id he hx.has hid
    · cases hnumbered.eq_of_id hb hx.has hid

/-- The imports of a unit come first, and then its nodes, unless a fatal error ends the pass. -/
theorem resolveUnit_keeps (hnew : before.isSettled u = false) :
    ((Resolution.resolveUnit before.bound u (before.unit u).tree).run.run fun q =>
      step (Resolution.perform u q)).Keeps (Importing before u (Node.unit (before.unit u).tree).idSet)
      fun s => s.Noted fun v => before.isSettled v ∨ v = u := by
  -- Importing spends the nodes of the imports; what it leaves is what visiting the tree may spend.
  have himports : ((ExceptT.run ((before.unit u).tree.imports.foldlM
      (Resolution.resolveImport before.bound u) [])).run fun q => step (Resolution.perform u q)).Keeps
      (Importing before u (Node.unit (before.unit u).tree).idSet) (Importing before u 0) :=
    .run (fun b b' s hb h => { h with
        nodup := Multiset.nodup_of_le hb h.nodup
        blank := fun i hi => h.blank i (Multiset.mem_of_le hb hi) })
      (fun q rest hq => .step fun s h => h.perform hbefore hrecorded hnew hq)
      (Resolution.resolveImports_spends before.bound u (before.unit u).tree)
  have hvisits : ∀ imports, ((ExceptT.run ((before.unit u).tree.outline.nodes.forM
      (Resolution.visit ⟨before.bound, u, imports⟩))).run fun q => step (Resolution.perform u q)).Keeps
      (Visiting before ⟨before.bound, u, imports⟩ (Node.unit (before.unit u).tree).idSet)
      (Visiting before ⟨before.bound, u, imports⟩ 0) := by
    intro imports
    refine Keeps.mono (.run_suits (fun b b' s hb h => { h with
        nodup := Multiset.nodup_of_le hb h.nodup
        undeclared := fun i hi => h.undeclared i (Multiset.mem_of_le hb hi) })
      (fun q rest s hq hfirst h => h.perform hbefore hrecorded hnew hq hfirst)
      (Resolution.visitAll_spends ⟨before.bound, u, imports⟩ (before.unit u).tree)) (fun s h => ⟨h, ?_⟩) fun _ => id
    exact (Resolution.visitAll_looksUp (hbefore.layout.numbered u) _ s fun _ hi => hi.elim).1
  rw [Resolution.resolveUnit, ExceptT.run_bind, Dialogue.run_bind]
  refine .bind himports fun r => ?_
  cases r with
  | ok imports =>
    exact (hvisits imports).mono (fun s h => h.visiting hbefore imports) fun s h => h.noted hbefore hrecorded
  | error e =>
    exact (Keeps.pure _).mono (fun _ => id) fun s h => (h.visiting hbefore []).noted hbefore hrecorded

/-- Resolving the names of a unit keeps what has been recorded, whether a fatal error ends it or not. -/
theorem namesWalk_keeps (u : UnitId) :
    (namesWalk u).Keeps (· = before) fun s => s.Noted fun v => before.isSettled v ∨ v = u := by
  have hdone : before.Noted fun v => before.isSettled v ∨ v = u := hrecorded.mono fun _ => .inl
  refine .look_bind fun s hs => ?_
  subst hs
  dsimp only
  split
  · exact (Keeps.pure _).mono (fun s' hs' => hs' ▸ hdone) fun _ => id
  split
  · exact (Keeps.pure _).mono (fun s' hs' => hs' ▸ hdone) fun _ => id
  · next hfine hearly =>
    -- The unit has neither failed nor gone through this pass, so nothing has been noted about it.
    have hnew : s.isSettled u = false := by
      rw [State.isSettled, Bool.or_eq_false_iff]
      exact ⟨Bool.eq_false_iff.mpr hfine, Bool.eq_false_iff.mpr hearly⟩
    refine .bind (Q := Importing s u (Node.unit (s.unit u).tree).idSet) (.step ?_) fun _ =>
      .bind (resolveUnit_keeps hbefore hrecorded hnew) fun r => ?_
    · rintro _ rfl
      exact ⟨(logStep_sameNotes u _ _ _).persists, Resolves.importing hbefore hrecorded hnew
        ⟨touches_logStep u _ _ _, logStep_refines u _ _ _⟩ rfl fun _ => rfl⟩
    · have hkeeps : ∀ s' s'' : State, s'.SameNotes s'' →
          (s'.Noted fun v => s.isSettled v ∨ v = u) → s''.Noted fun v => s.isSettled v ∨ v = u :=
        fun _ _ hsame h => h.of_sameNotes hsame fun _ => id
      cases r with
      | ok _ => exact .bind (.step_of_sameNotes (setPhase_sameNotes u _) hkeeps) fun _ => .pure _
      | error e => exact .bind (.step_of_sameNotes (fail_sameNotes u _) hkeeps) fun _ => .pure _

end

end

end Ceylon.Analysis
