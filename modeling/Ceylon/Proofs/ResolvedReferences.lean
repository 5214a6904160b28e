import Ceylon.Proofs.ImportedNames

/-!
# References that resolving comes to

Resolving a unit gives each reference to a type the declaration that its name stands for as its target: the type of
a reference is recorded after its target, so a reference with a type has a target (`Context.serving`), and visiting
the node of a reference finds its type or records it.  The imports come first (`resolveImports_yields`); the names
under which a unit imports are different.  So when the names of a unit have been resolved, a type reference that is
found by an import has the imported declaration as its target (`resolveNames_servesImports`).
-/

namespace Ceylon.Analysis

open Model Syntax

/-! ## Parts of resolving that come to an end -/

/-- Begun in a state with the first property, a part of resolving a unit ends in one with the second, unless a fatal
error ends it. -/
def Resolve.Yields {α : Type} (u : UnitId) (P : State → Prop) (r : Resolve α) (Q : α → State → Prop) : Prop :=
  ∀ s, P s → ∀ a, (r.run.run (Resolution.perform u) s).1 = .ok a → Q a (r.run.run (Resolution.perform u) s).2

namespace Resolve.Yields

variable {α β : Type} {u : UnitId} {P : State → Prop}

/-- Nothing is done, and the state is as it was. -/
theorem pure (a : α) : Yields u P (Pure.pure a : Resolve α) fun a' s => a' = a ∧ P s := by
  rintro s hs _ ⟨rfl⟩
  exact ⟨rfl, hs⟩

/-- A thrown error ends the resolution, so nothing is claimed behind it. -/
theorem throw (e : FatalError) (Q : α → State → Prop) : Yields u P (MonadExcept.throw e : Resolve α) Q :=
  nofun

/-- The rule of consequence. -/
theorem mono {r : Resolve α} {Q Q' : α → State → Prop} (h : r.Yields u P Q) (imp : ∀ a s, Q a s → Q' a s) :
    r.Yields u P Q' :=
  fun s hs a ha => imp a _ (h s hs a ha)

/-- Sequencing: the rest starts in what the first part yields. -/
theorem bind {r : Resolve α} {g : α → Resolve β} {Q : α → State → Prop} {Q' : β → State → Prop} (h : r.Yields u P Q)
    (hg : ∀ a, (g a).Yields u (Q a) Q') : Yields u P (r >>= g) Q' := by
  intro s hs b hb
  rw [ExceptT.run_bind, Dialogue.run_bind, bind_apply] at hb ⊢
  have hend := h s hs
  generalize (r.run.run (Resolution.perform u) : Analyze (Except FatalError α)) s = result at hb hend ⊢
  obtain ⟨_ | a, s'⟩ := result
  · cases hb
  · exact hg a s' (hend a rfl) b hb

/-- One step yields what its performance does. -/
theorem take {step : ResolveStep} {Q : step.Answer → State → Prop}
    (h : ∀ s, P s → Q (Resolution.perform u step s).1 (Resolution.perform u step s).2) :
    (Resolution.take step).Yields u P Q := by
  rintro s hs _ ⟨rfl⟩
  exact h s hs

/-- A fold keeps an invariant that each of its steps keeps. -/
theorem foldlM {g : β → α → Resolve β} {I : β → State → Prop} {as : List α}
    (h : ∀ a ∈ as, ∀ b, (g b a).Yields u (I b) I) (b : β) : Yields u (I b) (as.foldlM g b) I := by
  induction as generalizing b with
  | nil =>
    refine (pure b).mono ?_
    rintro _ s ⟨rfl, hs⟩
    exact hs
  | cons a as ih =>
    exact bind (h a List.mem_cons_self b) fun b' => ih (fun a' ha' => h a' (List.mem_cons_of_mem a ha')) b'

end Resolve.Yields

namespace Resolution

/-! ## Nodes -/

section

variable (c : Context) (tree : CompilationUnit)

/-- What a step of visiting nodes may be, if some references have their targets: none gets its type before that. -/
def Context.MayServe (served : Nat → Prop) : ResolveStep → Prop
  | .unite m _ => CompositeIn tree m
  | .record m _ => served m.id ∨ tree.Has (.voidType m)
  | .target m d => ∃ b : BaseType, tree.Has (.type (.base b)) ∧ b.mark = m ∧ c.typeNamed? b.mark b.name.text = some d
  | .import _ => False
  | _ => True

/-- What the answer to a step says about the references that have their targets. -/
def Delivers (served : Nat → Prop) : (step : ResolveStep) → step.Answer → Prop
  | .recall m, known => known.isSome = true → served m.id
  | .target m _, _ => served m.id
  | _, _ => True

/-- The contract of visiting the nodes of a unit, by the numbers of the references that have their targets. -/
def Context.serving : Dialogue.Contract (Nat → Prop) ResolveStep.Answer where
  Leads served served' := ∀ i, served i → served' i
  May := c.MayServe tree
  Right := Delivers
  refl _ _ := id
  trans h h' i := h' i ∘ h i

end

section

variable {c : Context} {tree : CompilationUnit}

/-- A report serves no reference. -/
theorem report_serves {w : Nat → Prop} (n : Node) (message : String) :
    (report n message).Upholds (c.serving tree) w fun _ _ => True :=
  .take trivial fun _ _ _ _ => trivial

mutual

/-- Resolving a type reference serves the base types in it, along the shape of the reference. -/
theorem resolveType_serves : (t : TypeRef) → {w : Nat → Prop} → tree.Has (.type t) →
    (resolveType c t).Upholds (c.serving tree) w fun w' _ => ∀ b, t = .base b → w' b.mark.id
  | .base b, w, h => by
    refine .bind (resolveBase_serves b h) fun _ _ _ hserved => .pure ?_
    rintro _ ⟨rfl⟩
    exact hserved
  | .union mark first more, w, h => by
    refine .bind (P := fun _ _ => True) (.take trivial fun _ _ _ _ => trivial) fun _ _ known _ => ?_
    -- A union that has its type already was served when it got it.
    cases known with
    | some t => exact .pure nofun
    | none =>
      have hfirst : tree.Has (.type first) := h.part (by simp [Node.parts_union])
      have hmore : ∀ t ∈ more, tree.Has (.type t) := fun t ht => h.part (by simpa [Node.parts_union] using .inr ht)
      exact .bind (resolveType_serves first hfirst) fun _ _ _ _ => .bind (resolveTypes_serves more hmore)
        fun _ _ _ _ => .take (.union h) fun _ _ _ _ => nofun
  | .optional mark inner, w, h => by
    refine .bind (P := fun _ _ => True) (.take trivial fun _ _ _ _ => trivial) fun _ _ known _ => ?_
    cases known with
    | some t => exact .pure nofun
    | none =>
      have hinner : tree.Has (.type inner) := h.part (by simp [Node.parts_optional])
      exact .bind (resolveType_serves inner hinner) fun _ _ _ _ => .take (.optional h) fun _ _ _ _ => nofun

theorem resolveBase_serves : (b : BaseType) → {w : Nat → Prop} → tree.Has (.type (.base b)) →
    (resolveBase c b).Upholds (c.serving tree) w fun w' _ => w' b.mark.id
  | { mark, name, args }, w, h => by
    refine .bind (.take trivial fun _ _ _ hknown => hknown) fun w₁ _ known hknown => ?_
    cases known with
    | some t => exact .pure (hknown rfl)
    | none =>
      dsimp only
      split
      · exact .throw _ _
      · next d hd =>
        have hargs : ∀ t ∈ args, tree.Has (.type t) := fun t ht => h.part (by simpa [Node.parts_base] using ht)
        -- The target is recorded before the type, so that a type that is found stands for a target.
        have hrecord : ∀ {w : Nat → Prop} (t : Applied), w mark.id → Resolve.Upholds (c.serving tree) w (do
            take (.record mark (.applied t))
            return t) fun w' _ => w' mark.id := fun t hserved =>
          .bind (P := fun w' _ => w' mark.id) (.take (.inl hserved) fun _ hle _ _ => hle _ hserved)
            fun _ _ _ hserved => .pure hserved
        refine .bind (.take ⟨_, h, rfl, hd⟩ fun _ _ _ hserved => hserved) fun w₂ _ _ hserved => ?_
        refine .bind (resolveTypes_serves args hargs) fun w₃ hle ts _ => ?_
        split
        · exact .bind (report_serves _ _) fun _ hle' _ _ => hrecord _ (hle' _ (hle _ hserved))
        · exact hrecord _ (hle _ hserved)

theorem resolveTypes_serves : (ts : List TypeRef) → {w : Nat → Prop} → (∀ t ∈ ts, tree.Has (.type t)) →
    (resolveTypes c ts).Upholds (c.serving tree) w fun _ _ => True
  | [], _, _ => .pure trivial
  | t :: ts, _, h =>
    .bind (resolveType_serves t (h t List.mem_cons_self)) fun _ _ _ _ =>
      .bind (resolveTypes_serves ts fun t' ht' => h t' (List.mem_cons_of_mem t ht')) fun _ _ _ _ => .pure trivial

end

variable {w : Nat → Prop}

theorem resolveDeclared_serves (t : DeclaredType) (h : tree.Has t.node) :
    (resolveDeclared c t).Upholds (c.serving tree) w fun _ _ => True := by
  cases t with
  | ref t => exact .bind (resolveType_serves t h) fun _ _ _ _ => .pure trivial
  | void mark =>
    refine .bind (P := fun _ _ => True) (.take trivial fun _ _ _ _ => trivial) fun _ _ known _ => ?_
    cases known with
    | some t => exact .pure trivial
    | none =>
      exact .bind (P := fun _ _ => True) (.take (.inr h) fun _ _ _ _ => trivial) fun _ _ _ _ => .pure trivial
  | inferred mark function => exact .pure trivial

theorem setDeclared_serves (m : Mark) (t : DeclaredType) (h : tree.Has t.node) :
    (setDeclared c m t).Upholds (c.serving tree) w fun _ _ => True := by
  refine .bind (resolveDeclared_serves t h) fun _ _ known _ => ?_
  cases known with
  | none => exact .pure trivial
  | some t => exact .take trivial fun _ _ _ _ => trivial

theorem satisfyAll_serves (m : Mark) (ts : List TypeRef) (h : ∀ t ∈ ts, tree.Has (.type t)) :
    Resolve.Upholds (c.serving tree) w (ts.forM (satisfy c m)) fun _ _ => True := by
  refine .mono (.forM (P := fun _ _ => True) (fun _ _ _ _ => id) fun t ht w => ?_) fun _ _ _ _ => trivial
  refine .bind (resolveType_serves t (h t ht)) fun _ _ st _ => ?_
  cases st with
  | applied st =>
    dsimp only
    split
    · exact .take trivial fun _ _ _ _ => trivial
    · exact report_serves _ _
  | unknown => exact report_serves _ _
  | union cases extended => exact report_serves _ _

theorem resolveClass_serves (n : ClassDecl) (h : tree.Has (.stmt (.classDecl n))) :
    (resolveClass c n).Upholds (c.serving tree) w fun _ _ => True := by
  have hsatisfied : ∀ w, Resolve.Upholds (c.serving tree) w (n.satisfied.forM (satisfy c n.mark)) fun _ _ => True :=
    fun w => satisfyAll_serves n.mark n.satisfied fun t ht => h.part (by simp [Node.parts_classDecl, ht])
  have hextend : ∀ {w : Nat → Prop} t, (take (.extend n.mark t)).Upholds (c.serving tree) w fun _ _ => True :=
    fun _ => .take trivial fun _ _ _ _ => trivial
  simp only [resolveClass]
  split
  · next e he =>
    have hclause : tree.Has (.extendedType e) := h.part (by simp [Node.parts_classDecl, he])
    have htype : tree.Has (.type (.base e.type)) := hclause.part (by simp [Node.parts_extendedType])
    refine .bind (resolveBase_serves e.type htype) fun _ _ et _ => ?_
    split
    · exact .bind (hextend et) fun w _ _ _ => hsatisfied w
    · exact .bind (report_serves _ _) fun w _ _ _ => hsatisfied w
  · split
    · exact .bind (hextend _) fun w _ _ _ => hsatisfied w
    · exact hsatisfied w

/-- Once the node of a type reference has been visited, the reference has its target. -/
theorem visit_serves (n : Node) (h : tree.Has n) :
    (visit c n).Upholds (c.serving tree) w fun w' _ => ∀ b, n = .type (.base b) → w' b.mark.id := by
  -- only a base type is a node to serve, so at any other the rule just has to run within the contract
  have hnone : ∀ {r : Resolve Unit}, r.Upholds (c.serving tree) w (fun _ _ => True) →
      (∀ b, n ≠ .type (.base b)) → r.Upholds (c.serving tree) w fun w' _ => ∀ b, n = .type (.base b) → w' b.mark.id :=
    fun hr hn => hr.mono fun _ _ _ _ b hb => absurd hb (hn b)
  cases n with
  | type t =>
    refine .mono (resolveType_serves t h).discard ?_
    rintro _ - - ⟨_, hserved⟩ b ⟨rfl⟩
    exact hserved b rfl
  | voidType mark =>
    exact hnone ((resolveDeclared_serves (.void mark) h).discard.mono fun _ _ _ _ => trivial) nofun
  | typeParameter p => exact hnone (.take trivial fun _ _ _ _ => trivial) nofun
  | «variable» v => exact hnone (setDeclared_serves v.mark v.type (h.part (by simp [Node.parts_variable]))) nofun
  | parameter p =>
    have htype : tree.Has (.type p.type) := h.part (by simp [Node.parts_parameter])
    refine hnone (.bind (resolveType_serves p.type htype) fun _ _ _ _ => ?_) nofun
    exact .take trivial fun _ _ _ _ => trivial
  | stmt s =>
    cases s with
    | classDecl n => exact hnone (resolveClass_serves n h) nofun
    | interfaceDecl n =>
      refine hnone (.bind (P := fun _ _ => True) (.take trivial fun _ _ _ _ => trivial) fun _ _ _ _ => ?_) nofun
      exact satisfyAll_serves n.mark n.satisfied fun t ht => h.part (by simp [Node.parts_interfaceDecl, ht])
    | method n => exact hnone (setDeclared_serves n.mark n.type (h.part (by simp [Node.parts_method]))) nofun
    | «attribute» n => exact hnone (setDeclared_serves n.mark n.type (h.part (by simp [Node.parts_attribute]))) nofun
    | getter n => exact hnone (setDeclared_serves n.mark n.type (h.part (by simp [Node.parts_getter]))) nofun
    | _ => exact .pure nofun
  | _ => exact .pure nofun

end

/-- A step that imports nothing leaves alone what units import. -/
theorem perform_sameImports {u : UnitId} {step : ResolveStep} (hstep : ∀ i, step ≠ .import i) :
    Leads State.SameImports (perform u step) := by
  have hshape : ∀ m g, Leads State.SameImports (modifyDeclOf u m g) := by
    intro m g
    rw [modifyDeclOf]
    refine .modify fun s v => ?_
    split <;> rfl
  cases step with
  | problem n message => exact fun s => (moduleSteps_retains.report u n message s).imports
  | «import» i => exact absurd rfl (hstep i)
  | «recall» | unite | record | target => exact fun _ _ => rfl
  | extend m t => exact hshape m _
  | satisfy m t => exact hshape m _
  | declare m t => exact hshape m _

/-! ## Served references -/

/-- The reference with the given number has the target that its name stands for. -/
def Context.Served (c : Context) (tree : CompilationUnit) (s : State) (i : Nat) : Prop :=
  ∀ b : BaseType, tree.Has (.type (.base b)) → b.mark.id = i →
    ∃ d, c.typeNamed? b.mark b.name.text = some d ∧ s.targets[(⟨c.unit, i⟩ : NodeId)]? = some d

/-- A state on the way of visiting the nodes of a unit: references whose types are known have their targets. -/
structure Serving (c : Context) (tree : CompilationUnit) (s : State) : Prop where
  imports : (s.unit c.unit).imports = c.imports
  served : ∀ i, s.types.refs[(⟨c.unit, i⟩ : NodeId)]?.isSome = true → c.Served tree s i

section

variable {c : Context} {tree : CompilationUnit} {s : State}

/-- Only references to simple types have targets to be set. -/
theorem served_of_ne {n : Node} (hnumbered : tree.Numbered) (hn : tree.Has n) (hne : ∀ b, n ≠ .type (.base b)) :
    c.Served tree s n.mark.id :=
  fun b hb hid => absurd (hnumbered.eq_of_id hn hb hid.symm) (hne b)

/-- Nothing is asked at the node of a composite type: what is served is base types. -/
theorem served_composite (hnumbered : tree.Numbered) {m : Mark} (h : CompositeIn tree m) : c.Served tree s m.id := by
  cases h with
  | union h => exact served_of_ne hnumbered h nofun
  | optional h => exact served_of_ne hnumbered h nofun

/-- A step of visiting nodes keeps to the contract. -/
theorem Serving.step (hnumbered : tree.Numbered) (h : Serving c tree s) {q : ResolveStep}
    (may : c.MayServe tree (c.Served tree s) q) :
    Serving c tree (perform c.unit q s).2 ∧
      (∀ i, c.Served tree s i → c.Served tree (perform c.unit q s).2 i) ∧
      Delivers (c.Served tree (perform c.unit q s).2) q (perform c.unit q s).1 := by
  have himports : ((perform c.unit q s).2.unit c.unit).imports = c.imports := by
    refine (perform_sameImports ?_ s c.unit).trans h.imports
    rintro i rfl
    exact may
  -- A target is written at a base type only, and with a declaration the table may give, so it does not take
  -- away what was served there.
  have hmono : ∀ i, c.Served tree s i → c.Served tree (perform c.unit q s).2 i := by
    intro i hi b hb hid
    by_cases htarget : ∃ m d, q = .target m d ∧ m.id = i
    · obtain ⟨m, d, rfl, rfl⟩ := htarget
      obtain ⟨b', hb', rfl, hd⟩ := may
      cases hnumbered.eq_of_id hb' hb hid.symm
      exact ⟨d, hd, Std.ExtTreeMap.getElem?_insert_self⟩
    · obtain ⟨d, hd, htargets⟩ := hi b hb hid
      refine ⟨d, hd, (perform_targets fun _ hmem => htarget ?_).trans htargets⟩
      cases q with
      | target m d => exact ⟨m, d, rfl, (Multiset.mem_singleton.mp hmem).symm⟩
      | _ => cases Multiset.notMem_zero i hmem
  refine ⟨⟨himports, fun i hi => hmono i ?_⟩, hmono, ?_⟩
  · by_cases hrecords : i ∈ q.referred
    · cases q with
      | unite m ts =>
        obtain rfl := Multiset.mem_singleton.mp hrecords
        exact served_composite hnumbered may
      | record m t =>
        obtain rfl := Multiset.mem_singleton.mp hrecords
        exact may.elim id fun hvoid => served_of_ne hnumbered hvoid nofun
      | _ => cases Multiset.notMem_zero i hrecords
    · rw [perform_refs fun _ => hrecords] at hi
      exact h.served i hi
  · cases q with
    | «recall» m => exact h.served m.id
    | target m d =>
      obtain ⟨b, hb, rfl, hd⟩ := may
      intro b' hb' hid
      cases hnumbered.eq_of_id hb hb' hid.symm
      exact ⟨d, hd, Std.ExtTreeMap.getElem?_insert_self⟩
    | _ => trivial

/-- When the nodes of a unit have been visited, all references in it have their targets. -/
theorem visitAll_yields (hnumbered : tree.Numbered) :
    Resolve.Yields c.unit (Serving c tree) (tree.outline.nodes.forM (visit c)) fun _ s =>
      (s.unit c.unit).imports = c.imports ∧ ∀ i, c.Served tree s i := by
  intro s hs x hx
  have hvisits : Resolve.Upholds (c.serving tree) (c.Served tree s) (tree.outline.nodes.forM (visit c)) fun w _ =>
      ∀ n ∈ tree.outline.nodes, ∀ b, n = .type (.base b) → w b.mark.id :=
    .forM (c := c.serving tree) (P := fun w (n : Node) => ∀ b, n = .type (.base b) → w b.mark.id)
      (fun _ _ _ hle h b hb => hle _ (h b hb)) fun n hn _ => visit_serves n hn
  rcases hvisits.run (c.Served tree) (Serving c tree) (fun _ => False)
    (fun s step hs may => .inr (hs.step hnumbered may)) (fun _ _ => id) hs with h | ⟨hserving, -, hserved⟩
  · exact h.elim
  · refine ⟨hserving.imports, fun i b hb hid => ?_⟩
    subst hid
    exact hserved x hx _ hb b rfl b hb rfl

end

/-! ## Imports -/

/-- A state on the way of resolving the imports of a unit: the unit imports declarations that are there, under
different names. -/
structure Gathering (u : UnitId) (size : Nat) (found : List Imported) (s : State) : Prop where
  valid : u.index < s.units.size
  imports : (s.unit u).imports = found
  names : (found.map (·.localName)).Nodup
  decls : ∀ i ∈ found, i.decl.index < size
  refs : ∀ i, s.types.refs[(⟨u, i⟩ : NodeId)]? = none

section

variable {f : State} {u : UnitId} {size : Nat}

/-- A report adds no import. -/
theorem report_yields {imports : List Imported} (n : Node) (message : String) :
    (report n message).Yields u (Gathering u size imports) fun _ => Gathering u size imports := by
  refine .take fun s hs => { hs with valid := ?_, imports := ?_ }
  · exact hs.valid.trans_eq (Array.size_modify ..).symm
  · exact ((moduleSteps_retains.report u n message s).imports u).trans hs.imports

/-- A name is imported if it stands for a declaration and nothing else has been imported under it. -/
theorem resolveElement_yields
    (hvalid : ∀ σ name filter d, f.graph.directMember? σ name filter = some d → d.index < size)
    (p : PackageId) (imports : List Imported) (e : ImportElement) :
    (resolveElement f u p imports e).Yields u (Gathering u size imports) (Gathering u size) := by
  have hstay : Resolve.Yields u (Gathering u size imports) (Pure.pure imports) (Gathering u size) := by
    refine (Resolve.Yields.pure imports).mono ?_
    rintro _ s ⟨rfl, hs⟩
    exact hs
  simp only [resolveElement]
  split
  · exact .bind (report_yields _ _) fun _ => hstay
  · next d hd =>
    -- a name that is imported already is reported and not added, so the local names stay distinct
    have hadd : Resolve.Yields u (Gathering u size imports)
        (if imports.any fun i => i.localName == e.localName then do
          report (.importElement e) ("duplicate import: " ++ e.localName)
          return imports
        else do
          take (.import ⟨e.localName, d, e⟩)
          take (.target e.mark d)
          return imports ++ [⟨e.localName, d, e⟩]) (Gathering u size) := by
      split
      · exact .bind (report_yields _ _) fun _ => hstay
      · next hnew =>
        refine .bind (Q := fun _ => Gathering u size (imports ++ [⟨e.localName, d, e⟩])) (.take fun s hs => ?_)
          fun _ => .bind (Q := fun _ => Gathering u size (imports ++ [⟨e.localName, d, e⟩])) (.take fun s hs => ?_)
            fun _ => (Resolve.Yields.pure _).mono ?_
        · refine ⟨hs.valid.trans_eq (Array.size_modify ..).symm, ?_, ?_, ?_, hs.refs⟩
          · refine (congrArg (·.imports) (s.unit_modify u u _)).trans ?_
            rw [if_pos ⟨rfl, hs.valid⟩, hs.imports]
          · rw [List.map_append, List.map_singleton, List.nodup_append]
            refine ⟨hs.names, List.nodup_singleton _, fun name hname other hother heq => hnew ?_⟩
            obtain ⟨i, hi, rfl⟩ := List.mem_map.mp hname
            exact List.any_eq_true.mpr ⟨i, hi, beq_iff_eq.mpr (heq.trans (List.mem_singleton.mp hother))⟩
          · intro i hi
            rcases List.mem_append.mp hi with hi | hi
            · exact hs.decls i hi
            · exact List.mem_singleton.mp hi ▸ hvalid _ _ _ _ hd
        · exact ⟨hs.valid, hs.imports, hs.names, hs.decls, hs.refs⟩
        · rintro _ s ⟨rfl, hs⟩
          exact hs
    split
    · exact .bind (report_yields _ _) fun _ => hadd
    · exact hadd

/-- Resolving the imports of a unit gathers imported declarations of the context only. -/
theorem resolveImports_yields
    (hvalid : ∀ σ name filter d, f.graph.directMember? σ name filter = some d → d.index < size)
    (imports : List Import) :
    Resolve.Yields u (Gathering u size []) (imports.foldlM (resolveImport f u) []) (Gathering u size) := by
  refine .foldlM (fun i _ imported => ?_) []
  simp only [resolveImport]
  split
  · exact .throw _ _
  · exact .foldlM (fun e _ imported => resolveElement_yields hvalid _ imported e) imported

/-- Resolving a unit imports under different names, and serves all references with what is imported. -/
theorem resolveUnit_yields (hvalid : ∀ σ name filter d, f.graph.directMember? σ name filter = some d → d.index < size)
    {tree : CompilationUnit} (hnumbered : tree.Numbered) :
    (resolveUnit f u tree).Yields u (Gathering u size []) fun _ s => ((s.unit u).imports.map (·.localName)).Nodup ∧
      (∀ i ∈ (s.unit u).imports, i.decl.index < size) ∧
      ∀ i, Context.Served ⟨f, u, (s.unit u).imports⟩ tree s i := by
  refine .bind (resolveImports_yields hvalid tree.imports) fun imports s hs x hx => ?_
  have hserving : Serving ⟨f, u, imports⟩ tree s :=
    ⟨hs.imports, fun i hi => absurd (hs.refs i) (Option.isSome_iff_ne_none.mp hi)⟩
  obtain ⟨himports, hserved⟩ := visitAll_yields hnumbered s hserving x hx
  refine ⟨?_, ?_, ?_⟩
  · exact himports ▸ hs.names
  · exact himports ▸ hs.decls
  · exact himports ▸ hserved

end

end Resolution

/-! ## Units -/

/-- A reference that is found by an import stands for what is imported. -/
theorem Resolution.Context.typeNamed?_of_importFor? {c : Context} {m : Mark} {name : String} {i : Imported}
    (h : c.facts.graph.importFor? c.imports name .types (c.facts.scopes.getD ⟨c.unit, m.id⟩ []) = some i) :
    c.typeNamed? m name = some i.decl := by
  rw [typeNamed?, State.lookupWith?, Graph.lookup?_of_importFor? h]
  rfl

/-- A unit imports under different names, and a type reference in it that is found by an import has the imported
declaration as its target. -/
structure State.ServesImports (s : State) (u : UnitId) : Prop where
  names : ((s.unit u).imports.map (·.localName)).Nodup
  decls : ∀ i ∈ (s.unit u).imports, i.decl.index < s.graph.decls.size
  served : ∀ b : BaseType, (s.unit u).tree.Has (.type (.base b)) →
    ∀ i, s.importFor? u b.mark b.name.text .types = some i → s.targets[(⟨u, b.mark.id⟩ : NodeId)]? = some i.decl

section

variable {s : State} {u : UnitId}

/-- The steps of resolving a unit come to an end without a fatal error if the names of the unit are resolved then. -/
theorem resolution_ok (hnew : s.isSettled u = false) (hnamed : (s.resolved u).IsNamed u) :
    (s.resolution u).1 = .ok () := by
  have hphases : s.SamePhases (s.resolution u).2 := trans_of State.SamePhases
    (logStep_samePhases (u := u) .namesResolved "resolving names" s)
    (Leads.run (resolution_perform_samePhases (u := u)) (Resolution.resolveUnit s.bound u (s.unit u).tree).run _)
  rw [State.isSettled, Bool.or_eq_false_iff] at hnew
  cases hresult : (s.resolution u).1 with
  | ok x => rfl
  | error e =>
    rw [State.IsNamed, State.resolved_of_not_isSettled (by simp [State.isSettled, hnew]), hresult] at hnamed
    generalize (s.resolution u).2 = s' at hphases hnamed
    have hunit := s'.unit_modify u u (State.conclusion (.error e))
    have hphase : ((modifyUnit u (State.conclusion (.error e)) s').2.unit u).phase = (s.unit u).phase := by
      refine (congrArg (·.phase) hunit).trans ?_
      split <;> exact hphases.phase u
    rw [hphase] at hnamed
    cases hnew.2.symm.trans hnamed

/-- When the names of a unit have been resolved, it serves its imports. -/
theorem resolveNames_servesImports (hs : s.InOrder) (hnew : s.isSettled u = false) (himports : (s.unit u).imports = [])
    (hrefs : ∀ i, s.types.refs[(⟨u, i⟩ : NodeId)]? = none) (hnamed : (s.resolved u).IsNamed u) :
    (s.resolved u).ServesImports u := by
  have htouches := resolved_touches hs.owned u
  have hsize := State.decls_size_of_fixed htouches.fixed
  have horder : (s.resolved u).InOrder := hs.advances ((resolveNames_refines u).discard s).toAdvances
  have hvalid : u.index < s.units.size :=
    (State.valid_of_isNamed hnamed).trans_eq (State.units_size_of_fixed htouches.fixed)
  have hmembers : ∀ σ name filter d, s.bound.graph.directMember? σ name filter = some d →
      d.index < s.graph.decls.size :=
    fun σ _ _ d hd => (hs.layout.grounded.members σ d (mem_of_directMember? hd).1).1
  obtain ⟨hnames, hdecls, hserved⟩ := Resolution.resolveUnit_yields hmembers (hs.layout.numbered u)
    (logStep u .namesResolved "resolving names" s).2 ⟨hvalid, himports, List.nodup_nil, List.forall_mem_nil _, hrefs⟩
    () (resolution_ok hnew hnamed)
  -- Coming to its phase, the unit stays what it is otherwise.
  have hend : ((s.resolved u).unit u).imports = ((s.resolution u).2.unit u).imports ∧
      (s.resolved u).targets = (s.resolution u).2.targets := by
    rw [State.resolved_of_not_isSettled (Bool.not_eq_true _ ▸ hnew), resolution_ok hnew hnamed]
    generalize (s.resolution u).2 = s'
    refine ⟨(congrArg (·.imports) (s'.unit_modify u u (State.conclusion (.ok ())))).trans ?_, rfl⟩
    split <;> rfl
  have htree : ((s.resolved u).unit u).tree = (s.unit u).tree :=
    (((resolveNames_refines u).discard s).units u).tree
  refine ⟨hend.1 ▸ hnames, fun i hi => hsize.symm ▸ hdecls i (hend.1 ▸ hi), fun b hb i hi => ?_⟩
  have hbound : (s.resolved u).bound = s.bound := State.bound_eq_of_fixed htouches.fixed
  have hfound : (s.resolved u).bound.graph.importFor? ((s.resolved u).unit u).imports b.name.text .types
      ((s.resolved u).bound.scopes.getD ⟨u, b.mark.id⟩ []) = some i := (Graph.widens_of_bound _).importFor?
    (fun σ d hd => by simpa [Graph.bound] using (horder.layout.grounded.members σ d hd).1)
    (fun i hi => by simpa [Graph.bound, hsize] using hdecls i (hend.1 ▸ hi)) Filter.types_ofKind hi
  obtain ⟨d, hd, htarget⟩ := hserved b.mark.id b (htree ▸ hb) rfl
  rw [hbound, hend.1] at hfound
  obtain rfl := Option.some.inj (hd.symm.trans (Resolution.Context.typeNamed?_of_importFor? hfound))
  exact hend.2 ▸ htarget

end

end Ceylon.Analysis
