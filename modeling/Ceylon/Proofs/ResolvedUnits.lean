import Ceylon.Proofs.CheckedUnits
import Ceylon.Proofs.Formation
import Ceylon.Proofs.Naming
import Ceylon.Proofs.ResolvedTypes

/-!
# What resolving units finds

Resolving the names of a unit keeps a state well formed and adds to what is known about the unit; unless a
problem is found, all of its nodes are dealt with (`resolveNames_ends`).
-/

namespace Ceylon

namespace Model.Shape

/-- Binding a shape does not change whether it carries a type. -/
theorem isTyped_bound (s : Shape) : s.bound.isTyped = s.isTyped := by
  cases s <;> rfl

/-- Nor does giving it one. -/
theorem isTyped_withType (s : Shape) (t : Ty) : (s.withType t).isTyped = s.isTyped := by
  cases s <;> rfl

/-- A shape that carries a type takes the one it is given. -/
theorem type_withType_of_isTyped {s : Shape} (h : s.isTyped = true) (t : Ty) : (s.withType t).type = t := by
  cases s <;> first | rfl | cases h

/-- A shape either keeps its type or takes the new one. -/
theorem type_withType (s : Shape) (t : Ty) : (s.withType t).type = s.type ∨ (s.withType t).type = t := by
  cases s <;> first | exact .inr rfl | exact .inl rfl

/-- What a declaration of the shape extends or satisfies. -/
def supertypes (s : Shape) : List Applied :=
  s.generic.extended.toList ++ s.generic.satisfied

/-- Extending adds the one supertype. -/
theorem mem_supertypes_extend {s : Shape} {t st : Applied}
    (h : st ∈ (s.mapGeneric fun g => { g with extended := some t }).supertypes) : st = t ∨ st ∈ s.supertypes := by
  cases s with
  | ofClass | ofInterface | typeParameter => exact (List.mem_cons.mp h).imp id (List.mem_append_right _)
  | method | value | getter | setter | parameter => exact .inr h

/-- Satisfying adds the one supertype. -/
theorem mem_supertypes_satisfy {s : Shape} {t st : Applied}
    (h : st ∈ (s.mapGeneric fun g => { g with satisfied := g.satisfied ++ [t] }).supertypes) :
    st = t ∨ st ∈ s.supertypes := by
  cases s with
  | ofClass generic | ofInterface generic | typeParameter _ generic =>
    have h : st ∈ generic.extended.toList ++ (generic.satisfied ++ [t]) := h
    rw [← List.append_assoc] at h
    exact (List.mem_append.mp h).symm.imp List.mem_singleton.mp id
  | method | value | getter | setter | parameter => exact .inr h

end Model.Shape

namespace Analysis

open Model Syntax

/-! ## Adding to the share of a unit -/

/-- From the first state to the second, resolving a unit has added to the share of the unit what is well
formed. -/
structure Enriches (ℓ : Leeway) (u : UnitId) (s s' : State) : Prop extends Touches u s s' where
  refines : s.Refines s'
  supertypes : ∀ d, ∀ st ∈ s'.graph.hierarchy.supertypes d,
    st ∈ s.graph.hierarchy.supertypes d ∨ st.Within (s.around ℓ (s.graph.decl d).scope)
  types : ∀ d, (s'.graph.decl d).shape.type = (s.graph.decl d).shape.type ∨
    (s'.graph.decl d).shape.type.Within (s.around ℓ (s.graph.decl d).scope)
  imports : ∀ i ∈ (s'.unit u).imports, i ∈ (s.unit u).imports ∨ s.Near [] i.decl
  found : ∀ i t, s'.types.refs[(⟨u, i⟩ : NodeId)]? = some t →
    s.types.refs[(⟨u, i⟩ : NodeId)]? = some t ∨ t.Within (s.around ℓ (s.scopes.getD ⟨u, i⟩ []))
  phase : (s'.unit u).phase = .checked → (s.unit u).phase = .checked

/-- How far resolving names has come in a state. -/
def State.naming (s : State) (ℓ : Leeway) : Naming where
  referred k := s.types.refs[k]?.isSome = true
  declared k := ℓ.blank ∨ ∀ d, s.decls[k]? = some d → (s.graph.decl d).shape.isTyped = true →
    (s.graph.decl d).shape.type.isKnown = true

/-- Where no leeway for blanks is left, a type within reach is known. -/
theorem isKnown_of_within {s : State} {ℓ : Leeway} {c : ScopeChain} {t : Ty} (h : t.Within (s.around ℓ c))
    (hblank : ¬ ℓ.blank) : t.isKnown = true := by
  by_contra hknown
  exact hblank (ℓ.blank_of_lax (h.lax_of_unknown (Bool.eq_false_iff.mpr hknown)))

namespace Enriches

variable {s s' : State} {ℓ : Leeway} {u : UnitId} (h : Enriches ℓ u s s')
include h

/-- What is well formed stays so. -/
theorem founded (hs : s.Founded ℓ) (hu : u ≠ languageUnit) (hbound : (s.unit u).isBound = true) :
    s'.Founded ℓ := by
  have hsame := h.refines.toSamePlaces
  have haround := fun c => hsame.around ℓ c
  have hnear : ∀ {c d}, s.Near c d → s'.Near c d := fun hd =>
    ⟨hsame.size ▸ hd.1, fun b hb => hd.2 b (hsame.scope _ ▸ hb)⟩
  -- The facts in the order of the structure. Those about one declaration or one reference hold of what was
  -- there by `hs` and of what is new by the enrichment.
  refine ⟨⟨?_, fun d hd st hst => ?_, fun d hd hknown => ?_, fun d hd hkind => ?_, fun v i hi => ?_,
    fun k t ht => ?_⟩, ?_, fun k t ht => ?_, ?_, fun d hd htyped => ?_, fun d hunit htyped => ?_⟩
  · rw [h.refines.builtins, haround]
    exact hs.builtins
  · rw [haround, hsame.scope]
    exact (h.supertypes d st hst).elim (hs.supertypes d (hsame.size ▸ hd) st) id
  · rw [haround, hsame.scope]
    rcases h.types d with heq | hwithin
    · rw [heq] at hknown ⊢
      exact hs.declared d (hsame.size ▸ hd) hknown
    · exact hwithin
  · rw [← Shape.typeParams_bound, hsame.shape, Shape.typeParams_bound]
    exact hs.plain d (hsame.size ▸ hd) ((hsame.kind d).symm.trans hkind)
  · by_cases hv : v = u
    · subst hv
      exact hnear ((h.imports i hi).elim (hs.imports v i) id)
    · rw [h.unit v hv] at hi
      exact hnear (hs.imports v i hi)
  · rw [haround, hsame.scopes]
    by_cases hk : k.unit = u
    · subst hk
      exact (h.found k.id t ht).elim (hs.refs k t) id
    · exact hs.refs k t (h.refs k hk ▸ ht)
  · rw [haround]
    exact hs.fallback
  · rw [(h.refines.units k.unit).isBound]
    by_cases hk : k.unit = u
    · exact hk ▸ hbound
    · exact hs.owned k t (h.refs k hk ▸ ht)
  · rw [(h.refines.units languageUnit).isBound]
    exact hs.bound
  · rw [← Shape.isTyped_bound, hsame.shape, Shape.isTyped_bound] at htyped
    rw [hsame.unit]
    exact hs.rooted d (hsame.size ▸ hd) htyped
  · have hother : (s.graph.decl d).unit ≠ some u := by
      rw [← hsame.unit d, hunit]
      exact fun heq => hu (Option.some.inj heq).symm
    rw [h.decl d hother] at hunit htyped ⊢
    exact hs.language d hunit htyped

/-- What is enriched before any unit is checked is still unchecked. -/
theorem unchecked (hs : s.Unchecked ℓ) (hu : u ≠ languageUnit) (hbound : (s.unit u).isBound = true) :
    s'.Unchecked ℓ := by
  refine ⟨h.founded hs.toFounded hu hbound, fun k t ht => ?_, fun k => ?_, fun k hk => ?_, fun v hv hchecked => ?_⟩
  · rw [h.refines.toSamePlaces.around]
    exact hs.exprs k t (h.exprs ▸ ht)
  · rw [h.inferred]
    exact hs.inferred k
  · exact hs.checked k (h.checked ▸ hk)
  · by_cases hvu : v = u
    · subst hvu
      exact hs.phase v hv (h.phase hchecked)
    · rw [h.unit v hvu] at hchecked
      exact hs.phase v hv hchecked

/-- Enrichments of one unit compose. -/
theorem trans {s'' : State} (h' : Enriches ℓ u s' s'') : Enriches ℓ u s s'' := by
  have hsame := h.refines.toSamePlaces
  -- What is new after the second step was new before or is within the horizon of its place, which does not
  -- move.
  refine ⟨h.toTouches.trans h'.toTouches, trans_of State.Refines h.refines h'.refines, fun d st hst => ?_, fun d => ?_,
    fun i hi => ?_, fun i t ht => ?_, fun hchecked => h.phase (h'.phase hchecked)⟩
  · rcases h'.supertypes d st hst with hst | hwithin
    · exact h.supertypes d st hst
    · rw [hsame.around, hsame.scope] at hwithin
      exact .inr hwithin
  · rcases h'.types d with heq | hwithin
    · rw [heq]
      exact h.types d
    · rw [hsame.around, hsame.scope] at hwithin
      exact .inr hwithin
  · rcases h'.imports i hi with hi | hnear
    · exact h.imports i hi
    · exact .inr ⟨hsame.size ▸ hnear.1, fun b hb => hnear.2 b (hsame.scope _ ▸ hb)⟩
  · rcases h'.found i t ht with ht | hwithin
    · exact h.found i t ht
    · rw [hsame.around, hsame.scopes] at hwithin
      exact .inr hwithin

/-- What has been resolved stays resolved. -/
theorem naming : (s.naming ℓ).Le (s'.naming ℓ) := by
  refine ⟨fun k hk => ?_, fun k hk => ?_⟩
  · exact h.known k hk
  · by_cases hblank : ℓ.blank
    · exact .inl hblank
    · refine .inr fun d hd htyped => ?_
      rw [← Shape.isTyped_bound, h.refines.toSamePlaces.shape, Shape.isTyped_bound] at htyped
      have hknown := hk.resolve_left hblank d (h.decls ▸ hd) htyped
      rcases h.types d with heq | hwithin
      · rwa [heq]
      · exact isKnown_of_within hwithin hblank

end Enriches

/-! ## Taking steps -/

section

variable {s : State} {ℓ : Leeway} {u : UnitId}

/-- Adding nothing that has to be well formed. -/
theorem Enriches.of_same {s' : State} (h : Touches u s s') (hrefines : s.Refines s')
    (hgraph : s'.graph = s.graph) (htypes : s'.types = s.types)
    (himports : (s'.unit u).imports = (s.unit u).imports)
    (hphase : (s'.unit u).phase = .checked → (s.unit u).phase = .checked) : Enriches ℓ u s s' where
  toTouches := h
  refines := hrefines
  supertypes d st hst := .inl (hgraph ▸ hst)
  types d := .inl (by rw [hgraph])
  imports i hi := .inl (himports ▸ hi)
  found i t ht := .inl (htypes ▸ ht)
  phase := hphase

/-- What becomes of a declaration when the one a mark declares is modified. -/
theorem decl_modifyDeclOf {m : Mark} {g : Shape → Shape} (d : DeclId) :
    (Resolution.modifyDeclOf u m g s).2.graph.decl d =
      if s.decls[(⟨u, m.id⟩ : NodeId)]? = some d ∧ d.index < s.graph.decls.size then
        { s.graph.decl d with shape := g (s.graph.decl d).shape }
      else s.graph.decl d := by
  simp only [Resolution.modifyDeclOf, modify, modifyGet, MonadStateOf.modifyGet, StateT.modifyGet, pure]
  split
  · next hnone =>
    rw [if_neg]
    rintro ⟨hd, -⟩
    rw [hnone] at hd
    cases hd
  · next e he =>
    rw [Graph.modifyShape, s.graph.decl_modifyDecl]
    by_cases hd : e = d
    · subst hd
      simp only [he, true_and]
    · rw [if_neg fun h => hd h.1, if_neg fun h => hd (Option.some.inj (he.symm.trans h.1))]

/-- Changing the declaration of a node to what is well formed. -/
theorem enriches_modifyDeclOf (hs : s.Owned) (m : Mark) {g : Shape → Shape}
    (hbound : ∀ shape, (g shape).bound = shape.bound)
    (h : ∀ d, s.decls[(⟨u, m.id⟩ : NodeId)]? = some d → ∀ shape,
      (∀ st ∈ (g shape).supertypes, st ∈ shape.supertypes ∨ st.Within (s.around ℓ (s.graph.decl d).scope)) ∧
      ((g shape).type = shape.type ∨ (g shape).type.Within (s.around ℓ (s.graph.decl d).scope))) :
    Enriches ℓ u s (Resolution.modifyDeclOf u m g s).2 := by
  -- Only shapes change, so units and recorded types are what they were.
  have hrest : (Resolution.modifyDeclOf u m g s).2.types = s.types ∧
      (Resolution.modifyDeclOf u m g s).2.units = s.units := by
    simp only [Resolution.modifyDeclOf, modify, modifyGet, MonadStateOf.modifyGet, StateT.modifyGet, pure]
    split <;> exact ⟨rfl, rfl⟩
  have hunit : (Resolution.modifyDeclOf u m g s).2.unit u = s.unit u := by
    rw [State.unit, hrest.2, State.unit]
  refine ⟨touches_modifyDeclOf hs u m hbound, modifyDeclOf_refines u m hbound s, fun d st hst => ?_, fun d => ?_,
    fun i hi => .inl (hunit ▸ hi), fun i t ht => .inl (hrest.1 ▸ ht), fun hphase => hunit ▸ hphase⟩
  · simp only [Hierarchy.supertypes, Graph.hierarchy] at hst ⊢
    rw [decl_modifyDeclOf] at hst
    split at hst
    · next hd => exact (h d hd.1 _).1 st hst
    · exact .inl hst
  · rw [decl_modifyDeclOf]
    split
    · next hd => exact (h d hd.1 _).2
    · exact .inl rfl

/-- Recording a type of a reference leaves one recorded. -/
theorem isSome_recordRef (s : State) (k : NodeId) (t : Ty) : (s.recordRef k t).types.refs[k]?.isSome = true := by
  rw [State.recordRef, Std.ExtTreeMap.getElem?_insert_self]
  rfl

/-- Recording a type within reach enriches. -/
theorem enriches_recordRef {m : Mark} {t : Ty} (ht : t.Within (s.around ℓ (s.scopeAt u m))) :
    Enriches ℓ u s (s.recordRef ⟨u, m.id⟩ t) := by
  refine ⟨touches_recordRef u m.id t s, recordRef_refines s _ t, fun _ _ => .inl, fun _ => .inl rfl, fun _ => .inl,
    fun i t' ht' => ?_, id⟩
  by_cases hi : i = m.id
  · subst hi
    rw [State.recordRef, Std.ExtTreeMap.getElem?_insert_self] at ht'
    exact .inr (Option.some.inj ht' ▸ ht)
  · rw [State.recordRef, getElem?_insert_of_ne fun h => hi (congrArg NodeId.id h).symm] at ht'
    exact .inl ht'

/-- Changing what is known about the unit itself, but for what it imports. -/
theorem enriches_modifyUnit {g : UnitState → UnitState} (hadvances : ∀ unit : UnitState, unit.Advances (g unit))
    (himports : ∀ unit, (g unit).imports = unit.imports)
    (hphase : ∀ unit, (g unit).phase = .checked → unit.phase = .checked) :
    Enriches ℓ u s (modifyUnit u g s).2 := by
  have hbound : ∀ unit, (g unit).bound = unit.bound := fun unit => by
    rw [UnitState.bound, (hadvances unit).path, (hadvances unit).tree, (hadvances unit).package, UnitState.bound]
  have hunit : (modifyUnit u g s).2.unit u = g (s.unit u) ∨ (modifyUnit u g s).2.unit u = s.unit u := by
    have heq := s.unit_modify u u g
    split at heq
    · exact .inl heq
    · exact .inr heq
  refine .of_same (touches_modifyUnit u hbound s) (modifyUnit_refines u hadvances s) rfl rfl ?_ ?_
  · rcases hunit with h | h <;> rw [h]
    exact himports _
  · rcases hunit with h | h <;> rw [h]
    · exact hphase _
    · exact id

end

/-- A step that is proper adds what is well formed, and its answer is right, unless it reports a problem where
none is tolerated. -/
theorem perform_enriches {s : State} {ℓ : Leeway} {u : UnitId} (hs : s.InOrder) (hwell : s.Founded ℓ)
    (hu : u ≠ languageUnit) (hbound : (s.unit u).isBound = true) {step : ResolveStep} (hstep : step.Proper s ℓ u) :
    Enriches ℓ u s (Resolution.perform u step s).2 ∧
      ((Resolution.perform u step s).2.Spoiled ℓ ∨
        step.Right s ℓ u ((Resolution.perform u step s).2.naming ℓ) (Resolution.perform u step s).1) := by
  have hrefs : ∀ {m : Mark} {t : Ty}, s.types.refs[(⟨u, m.id⟩ : NodeId)]? = some t →
      t.Within (s.around ℓ (s.scopeAt u m)) ∧ (s.naming ℓ).referred ⟨u, m.id⟩ := fun ht =>
    ⟨hwell.refs _ _ ht, Option.isSome_iff_exists.mpr ⟨_, ht⟩⟩
  -- One case per step. Only `problem` can spoil the state, and it does so exactly where no leeway allows for
  -- it.
  cases step with
  | «recall» m => exact ⟨.of_same (.refl u s) (refl_of State.Refines s) rfl rfl rfl id, .inr fun t ht => hrefs ht⟩
  | unite m ts =>
    have hwithin := s.graph.hierarchy.unite_within (hwell.closed_around hs.layout (s.scopeAt u m))
      (.inr hstep.1) hstep.2
    exact ⟨enriches_recordRef hwithin, .inr ⟨hwithin, isSome_recordRef s _ _⟩⟩
  | record m t => exact ⟨enriches_recordRef hstep, .inr (isSome_recordRef s _ _)⟩
  | target m d => exact ⟨.of_same (touches_setTarget u m d s) (State.refines_tables ..) rfl rfl rfl id, .inr trivial⟩
  | problem n message =>
    refine ⟨enriches_modifyUnit (fun unit => unit.advances_addTo rfl id) (fun _ => rfl) fun _ => id, ?_⟩
    by_cases hlax : ℓ.lax
    · exact .inr hlax
    · exact .inl ⟨hlax, hasFindings_report hu (State.valid_of_isBound hbound) n message⟩
  | «import» i =>
    refine ⟨⟨perform_touches hs.owned u _, resolution_perform_refines u _ s, fun _ _ => .inl, fun _ => .inl rfl,
      fun j hj => ?_, fun _ _ => .inl, fun hphase => ?_⟩, .inr trivial⟩
    · change j ∈ (({ s with units := s.units.modify u.index _ } : State).unit u).imports at hj
      rw [State.unit_modify, if_pos ⟨rfl, State.valid_of_isBound hbound⟩] at hj
      refine (List.mem_append.mp hj).imp id fun hj => ?_
      rw [List.mem_singleton.mp hj]
      exact hstep
    · change (({ s with units := s.units.modify u.index _ } : State).unit u).phase = _ at hphase
      rw [State.unit_modify] at hphase
      split at hphase <;> exact hphase
  | extend m t =>
    refine ⟨enriches_modifyDeclOf hs.owned m (fun shape => by cases shape <;> rfl) fun d hd shape =>
      ⟨fun st hst => ?_, .inl (by cases shape <;> rfl)⟩, .inr trivial⟩
    rcases shape.mem_supertypes_extend hst with rfl | hst
    · exact .inr (hstep d hd)
    · exact .inl hst
  | satisfy m t =>
    refine ⟨enriches_modifyDeclOf hs.owned m (fun shape => by cases shape <;> rfl) fun d hd shape =>
      ⟨fun st hst => ?_, .inl (by cases shape <;> rfl)⟩, .inr trivial⟩
    rcases shape.mem_supertypes_satisfy hst with rfl | hst
    · exact .inr (hstep d hd)
    · exact .inl hst
  | declare m t =>
    refine ⟨enriches_modifyDeclOf hs.owned m (fun shape => by cases shape <;> rfl) fun d hd shape =>
      ⟨fun st hst => .inl ?_, ?_⟩, .inr ?_⟩
    · cases shape <;> exact hst
    · refine (shape.type_withType t).imp id fun heq => ?_
      rw [heq]
      exact hstep d hd
    · by_cases hblank : ℓ.blank
      · exact .inl hblank
      · refine .inr fun d hd htyped => ?_
        have hlisted : s.decls[(⟨u, m.id⟩ : NodeId)]? = some d :=
          (perform_touches hs.owned u (.declare m t)).decls ▸ hd
        have hvalid := (hs.layout.grounded.table _ d hlisted).1
        simp only [Resolution.perform] at htyped ⊢
        rw [decl_modifyDeclOf, if_pos ⟨hlisted, hvalid⟩] at htyped ⊢
        rw [Shape.isTyped_withType] at htyped
        rw [Shape.type_withType_of_isTyped htyped]
        exact isKnown_of_within (hstep d hlisted) hblank

/-! ## Units -/

section

variable {before s : State} {ℓ : Leeway} {u : UnitId}

/-- Whether a step is proper depends on the places of the state only. -/
theorem ResolveStep.Proper.of_samePlaces (h : before.SamePlaces s) {step : ResolveStep}
    (hstep : step.Proper before ℓ u) : step.Proper s ℓ u := by
  have hscope : ∀ m, s.scopeAt u m = before.scopeAt u m := fun m => by rw [State.scopeAt, h.scopes, State.scopeAt]
  cases step with
  | unite m ts =>
    rw [Proper, hscope, h.around]
    exact hstep
  | record m t =>
    rw [Proper, hscope, h.around]
    exact hstep
  | «import» i => exact ⟨h.size ▸ hstep.1, fun b hb => hstep.2 b (h.scope _ ▸ hb)⟩
  | extend m t | satisfy m t | declare m t =>
    intro d hd
    rw [h.scope, h.around]
    exact hstep d (h.table ▸ hd)
  | _ => trivial

/-- So does whether an answer is right. -/
theorem ResolveStep.Right.of_samePlaces (h : before.SamePlaces s) {w : Naming} {step : ResolveStep}
    {r : step.Answer} (hr : step.Right s ℓ u w r) : step.Right before ℓ u w r := by
  have hscope : ∀ m, before.scopeAt u m = s.scopeAt u m := fun m => by rw [State.scopeAt, ← h.scopes, State.scopeAt]
  cases step with
  | «recall» m =>
    intro t ht
    rw [hscope, ← h.around]
    exact hr t ht
  | unite m ts =>
    rw [Right, hscope, ← h.around]
    exact hr
  | _ => exact hr

/-- Resolving the names of a unit, begun in a well-formed state, comes to a spoiled one, or keeps the state well
formed, and deals with all nodes of the unit unless a fatal error ends it. -/
theorem resolution_ends (hs : s.InOrder) (hwell : s.Founded ℓ) (hu : u ≠ languageUnit)
    (hbound : (s.unit u).isBound = true) :
    (s.resolution u).2.Spoiled ℓ ∨
      Enriches ℓ u s (s.resolution u).2 ∧
        (s.naming ℓ).Le ((s.resolution u).2.naming ℓ) ∧
        ∀ a, (s.resolution u).1 = .ok a → ∀ n, s.HasNode u n → ((s.resolution u).2.naming ℓ).Settles u n := by
  let begun := (logStep u .namesResolved "resolving names" s).2
  have hbegun : Enriches ℓ u s begun :=
    .of_same (touches_logStep u _ _ s) (logStep_refines u _ _ s) rfl rfl rfl id
  -- The script upholds the contract, so it is enough that each of its steps enriches the state.
  refine Dialogue.Upholds.run (c := resolveContract s ℓ u) (State.naming · ℓ)
    (Enriches ℓ u s) (·.Spoiled ℓ) (fun s' step h hstep => ?_)
    (fun s' step h => Leads.spoiled (resolution_perform_refines u step) h)
    (Resolution.resolveUnit_keeps hs.layout hwell.builtins hwell.fallback hbound) hbegun
  have hsame := h.refines.toSamePlaces
  have hbound' : (s'.unit u).isBound = true := by rwa [(h.refines.units u).isBound]
  obtain ⟨henriches, hright⟩ := perform_enriches (hs.advances h.refines.toAdvances) (h.founded hwell hu hbound) hu
    hbound' (ResolveStep.Proper.of_samePlaces hsame hstep)
  rcases hright with hspoiled | hright
  · exact .inl hspoiled
  · exact .inr ⟨h.trans henriches, henriches.naming, ResolveStep.Right.of_samePlaces hsame hright⟩

/-- The end of a resolution, good or bad, advances the unit. -/
theorem advances_conclusion (o : Except FatalError Unit) (unit : UnitState) :
    unit.Advances (State.conclusion o unit) := by
  cases o with
  | ok _ =>
    exact ⟨rfl, rfl, rfl, rfl, rfl, fun _ => rfl, fun _ => id, fun _ => .inl, id, fun hfailed => .inl hfailed⟩
  | error e => exact unit.advances_addTo rfl fun _ => rfl

/-- It adds no import. -/
theorem imports_conclusion (o : Except FatalError Unit) (unit : UnitState) :
    (State.conclusion o unit).imports = unit.imports := by
  cases o <;> rfl

/-- It does not check the unit. -/
theorem phase_conclusion (o : Except FatalError Unit) (unit : UnitState)
    (h : (State.conclusion o unit).phase = .checked) : unit.phase = .checked := by
  cases o with
  | ok _ => cases h
  | error e => exact h

/-- What holds while names are resolved of one unit after the other. -/
structure State.Named (s : State) (ℓ : Leeway) (done : UnitId → Prop) : Prop extends s.Unchecked ℓ where
  order : s.InOrder
  accounted : s.Accounted fun _ => False
  settled : ∀ u, u ≠ languageUnit → s.isReady u = true → ∀ n, s.HasNode u n → (s.naming ℓ).Settles u n
  done : ∀ u, done u → s.isSettled u = true

/-- The step lemma of naming: names of one more unit are resolved, and either something was reported or the
unit is named too. -/
theorem resolveNames_named {done : UnitId → Prop} (hu : u ≠ languageUnit) (hvalid : u.index < s.units.size)
    (hs : s.Named ℓ done) :
    (resolveNames u s).2.Spoiled ℓ ∨ (resolveNames u s).2.Named ℓ fun v => done v ∨ v = u := by
  change (s.resolved u).Spoiled ℓ ∨ (s.resolved u).Named ℓ _
  cases hnew : s.isSettled u with
  | true =>
    rw [s.resolved_of_isSettled hnew]
    exact .inr { hs with done := fun v hv => hv.elim (hs.done v) fun h => h ▸ hnew }
  | false =>
    rw [s.resolved_of_not_isSettled (Bool.eq_false_iff.mp hnew)]
    rw [State.isSettled, Bool.or_eq_false_iff] at hnew
    have hbound : (s.unit u).isBound = true :=
      ((hs.accounted.bound u hvalid).resolve_left id).resolve_right (Bool.eq_false_iff.mp hnew.1)
    have hends := resolution_ends hs.order hs.toFounded hu hbound
    generalize (s.resolution u).1 = o at hends ⊢
    generalize (s.resolution u).2 = s₁ at hends ⊢
    rcases hends with hspoiled | ⟨hresolves, hle, hsettles⟩
    · exact .inl (hspoiled.advances (modifyUnit_refines u (advances_conclusion o) s₁).toAdvances)
    · have henriches : Enriches ℓ u s₁ (modifyUnit u (State.conclusion o) s₁).2 :=
        enriches_modifyUnit (advances_conclusion o) (imports_conclusion o) (phase_conclusion o)
      have hunit : (modifyUnit u (State.conclusion o) s₁).2.unit u = State.conclusion o (s₁.unit u) := by
        have heq := s₁.unit_modify u u (State.conclusion o)
        rwa [if_pos ⟨rfl, hvalid.trans_eq hresolves.refines.count.symm⟩] at heq
      generalize (modifyUnit u (State.conclusion o) s₁).2 = s₂ at henriches hunit ⊢
      have hrefines := trans_of State.Refines hresolves.refines henriches.refines
      have hother : ∀ v, v ≠ u → s₂.unit v = s.unit v := fun v hv =>
        (henriches.unit v hv).trans (hresolves.unit v hv)
      have hwell' := (hresolves.trans henriches).unchecked hs.toUnchecked hu hbound
      have hle' := hle.trans henriches.naming
      have hnode := hrefines.toAdvances.sameLayout.hasNode_iff
      refine .inr ⟨hwell', hs.order.advances hrefines.toAdvances, hs.accounted.advances hrefines.toAdvances,
        fun v hv hready n hn => ?_, fun v hv => ?_⟩
      · by_cases hvu : v = u
        · subst hvu
          cases o with
          | ok a => exact (hsettles a rfl n ((hnode v n).mp hn)).mono henriches.naming
          | error e =>
            -- After a fatal error the unit is not ready.
            rw [State.isReady, hunit] at hready
            simp [State.conclusion] at hready
        · rw [State.isReady, hother v hvu] at hready
          exact (hs.settled v hv hready n ((hnode v n).mp hn)).mono hle'
      · by_cases hvu : v = u
        · subst hvu
          rw [State.isSettled, hunit]
          cases o with
          | ok a => exact Bool.or_eq_true_iff.mpr (.inr rfl)
          | error e => rfl
        · rw [State.isSettled, hother v hvu]
          exact hs.done v (hv.resolve_right hvu)

/-! ## Beginning -/

/-- A loaded state is the start of naming: no unit is named yet. -/
theorem State.Loaded.named (hs : s.Loaded ℓ) (haccounted : s.Accounted fun _ => False) :
    s.Named ℓ fun _ => False where
  toUnchecked := hs.toUnchecked
  order := hs.reached.inOrder
  accounted := haccounted
  settled u hu hready := by
    simp [State.isReady, hs.early u hu] at hready
  done _ hdone := hdone.elim

/-- What has been resolved stays resolved where nothing that resolving finds out changes. -/
theorem State.Named.stays {done : UnitId → Prop} {s' : State} (hs : s.Named ℓ done) (hstays : s.Stays s')
    (hadvances : s.Advances s') (hdone : ∀ u, done u → s'.isSettled u = true) : s'.Named ℓ done where
  toUnchecked := hs.toUnchecked.extend hstays.extends
  order := hs.order.advances hadvances
  accounted := hs.accounted.advances hadvances
  settled u hu hready n hn := by
    have hnaming : s'.naming ℓ = s.naming ℓ := by
      rw [State.naming, State.naming, hstays.types, hadvances.table]
      simp only [Graph.decl, hstays.decls]
    obtain ⟨hbound, hfine, hphase⟩ := State.isReady_iff.mp hready
    have hready : s.isReady u = true := by
      refine State.isReady_iff.mpr ⟨(hstays.isBound u).symm.trans hbound, ?_, hstays.phase u hphase ▸ hphase⟩
      rw [← Option.not_isSome_iff_eq_none] at hfine ⊢
      exact fun hfailed => hfine ((hadvances.units u).failure hfailed)
    rw [hnaming]
    exact hs.settled u hu hready n ((hadvances.sameLayout.hasNode_iff u n).mp hn)
  done := hdone

end

end Analysis

end Ceylon
