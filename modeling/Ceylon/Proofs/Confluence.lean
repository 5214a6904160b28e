import Ceylon.Proofs.AnalyzedUnits
import Ceylon.Proofs.CheckedOnce
import Ceylon.Proofs.Repetition

/-!
# What checking adds to a state

Checking only adds to what has been recorded (`Gains`), and what it adds is called for by what is there already.
A state shows that a task has been performed (`Task.Shown`) if it shows the result of each of its steps (`Act.Shown`);
the types that these steps have been answered with are those that the state knows to the end (`Fixes`).  So each step
leads to the least state that shows it: any other one that has grown from the same beginning, and shows all
tasks that have been begun since (`Closes`) and the step itself, has what the step has recorded (`Explains`).
-/

namespace Ceylon.Analysis

open Model Syntax

/-! ## Gaining -/

/-- Checks of units that are ready give types to the nodes of variables whose types are left out, and to those of
declarations whose tasks give types. -/
def State.Infers (f : State) (k : NodeId) : Prop :=
  f.isReady k.unit = true ∧ ∃ n, f.HasNode k.unit n ∧ n.mark.id = k.id ∧
    ((∃ v, n = .variable v ∧ v.type.isInferred = true) ∨ ∃ task : Task, task.node = n ∧ task.givesType = true)

/-- The problem that is reported at a node. -/
def State.problem (f : State) (u : UnitId) (n : Node) (message : String) : Diagnostic :=
  ⟨.error, message, some n, some (f.location u n.mark)⟩

/-- From the first state to the second, checking has recorded types and targets, and reported problems. -/
structure Gains (f s s' : State) : Prop where
  decls : s'.graph.decls = s.graph.decls
  refs : s'.types.refs = s.types.refs
  exprs : ∀ (k : NodeId) t, s.types.exprs[k]? = some t → s'.types.exprs[k]? = some t
  targets : ∀ (k : NodeId) d, s.targets[k]? = some d → s'.targets[k]? = some d
  inferred : ∀ (k : NodeId) t, s.graph.inferred[k]? = some t → s'.graph.inferred[k]? = some t
  checked : ∀ k : NodeId, s.checked.contains k = true → s'.checked.contains k = true
  diagnostics : ∀ u, ∀ d ∈ (s.unit u).diagnostics, d ∈ (s'.unit u).diagnostics
  owed : ∀ (k : NodeId) t, s'.graph.inferred[k]? = some t → s.graph.inferred[k]? = some t ∨ f.Infers k
  reported : ∀ u, ∀ d ∈ (s'.unit u).diagnostics,
    d ∈ (s.unit u).diagnostics ∨ ∃ n message, f.HasNode u n ∧ d = f.problem u n message

instance (f : State) : IsPreorder State (Gains f) where
  refl _ := ⟨rfl, rfl, fun _ _ => id, fun _ _ => id, fun _ _ => id, fun _ => id, fun _ _ => id, fun _ _ => .inl,
    fun _ _ => .inl⟩
  trans _ _ _ h h' := ⟨h'.decls.trans h.decls, h'.refs.trans h.refs, fun k t => h'.exprs k t ∘ h.exprs k t,
    fun k d => h'.targets k d ∘ h.targets k d, fun k t => h'.inferred k t ∘ h.inferred k t,
    fun k => h'.checked k ∘ h.checked k, fun u d => h'.diagnostics u d ∘ h.diagnostics u d,
    fun k t ht => (h'.owed k t ht).elim (h.owed k t) .inr,
    fun u d hd => (h'.reported u d hd).elim (h.reported u d) .inr⟩

/-- The state knows the type of a declaration as far as checking will ever find it out. -/
def Fixes (f s : State) (d : DeclId) : Prop :=
  ∀ s', Gains f s s' → s'.graph.typeOf d = s.graph.typeOf d

section

variable {f s s' : State} {d : DeclId}

theorem Gains.decl (h : Gains f s s') (d : DeclId) : s'.graph.decl d = s.graph.decl d := by
  rw [Graph.decl, h.decls, Graph.decl]

theorem Gains.nodeOf? (h : Gains f s s') (d : DeclId) : s'.graph.nodeOf? d = s.graph.nodeOf? d := by
  rw [Graph.nodeOf?, h.decl, Graph.nodeOf?]

/-- A state that differs only in what does not matter. -/
theorem Gains.of_same (hdecls : s'.graph.decls = s.graph.decls) (hinferred : s'.graph.inferred = s.graph.inferred)
    (htypes : s'.types = s.types) (htargets : s'.targets = s.targets) (hchecked : s'.checked = s.checked)
    (hdiagnostics : ∀ u, (s'.unit u).diagnostics = (s.unit u).diagnostics) : Gains f s s' where
  decls := hdecls
  refs := by rw [htypes]
  exprs _ _ := by rw [htypes]; exact id
  targets _ _ := by rw [htargets]; exact id
  inferred _ _ := by rw [hinferred]; exact id
  checked _ := by rw [hchecked]; exact id
  diagnostics _ _ := by rw [hdiagnostics]; exact id
  owed _ _ := by rw [hinferred]; exact .inl
  reported _ _ := by rw [hdiagnostics]; exact .inl

theorem Fixes.mono (h : Fixes f s d) (hs : Gains f s s') : Fixes f s' d :=
  fun s'' hs'' => (h s'' (trans_of (Gains f) hs hs'')).trans (h s' hs).symm

theorem fixes_of_isKnown (hknown : (s.graph.typeOf d).isKnown = true) : Fixes f s d := fun s' h =>
  Graph.typeOf_persists (by rw [h.decl]) (by rw [h.decl]) (h.nodeOf? d) h.inferred hknown

/-- The type of a declaration is known to the end if nothing more is inferred for it. -/
theorem fixes_of_nodeOf? (h : ∀ k, s.graph.nodeOf? d = some k → (s.graph.decl d).shape.type.isKnown = false →
    (s.graph.decl d).shape.infers = true → s.graph.inferred[k]? = none → ¬ f.Infers k) : Fixes f s d := by
  intro s' hs
  rw [Graph.typeOf_eq, Graph.typeOf_eq, hs.decl]
  split
  · rfl
  next hunknown =>
  split
  case isFalse => rfl
  next hinfers =>
  rw [Graph.inferredType, Graph.inferredType, hs.nodeOf?]
  cases hnode : s.graph.nodeOf? d with
  | none => rfl
  | some k =>
    rw [Option.bind_some, Option.bind_some]
    cases hk : s.graph.inferred[k]? with
    | some t => rw [hs.inferred k t hk]
    | none =>
      cases hk' : s'.graph.inferred[k]? with
      | none => rfl
      | some t =>
        -- A type that a later state has here must be owed, but nothing is inferred at this node.
        have howed := (hs.owed k t hk').resolve_left fun h => by rw [hk] at h; cases h
        exact absurd howed (h k hnode (Bool.eq_false_iff.mpr hunknown) hinfers hk)

end

/-! ## What states show -/

/-- A state shows that the type of a declaration has been asked for, and what has been answered: the type that it
knows to the end, after the task that infers it has been begun. -/
structure Tells (f s : State) (d : DeclId) (r : Option Ty) : Prop where
  answer : r = some (s.graph.typeOf d)
  fixed : Fixes f s d
  begun : (f.graph.decl d).shape.type.isKnown = false → ∀ u task, f.inference? d = some (u, task) →
    s.checked.contains ⟨u, task.mark.id⟩ = true

/-- A state shows that a step of a check of a unit has been taken, and what it has been answered with. -/
def Act.Shown (f s : State) (u : UnitId) : (act : Act) → act.Answer → Prop
  | .ask (.typeOf d), r => Tells f s (f.graph.principal d) r
  | .ask (.problem n message), _ => ∃ d ∈ (s.unit u).diagnostics, d.key = (some n.mark.id, message)
  | .settle m t target, _ => (t.isKnown = true → s.types.exprs[(⟨u, m.id⟩ : NodeId)]? = some t) ∧
    ∀ d, target = some d → s.targets[(⟨u, m.id⟩ : NodeId)]? = some d
  | .infer m t, _ => s.graph.inferred[(⟨u, m.id⟩ : NodeId)]? = some t
  | .visit task, _ => s.checked.contains ⟨u, task.mark.id⟩ = true

/-- A state shows that a check of a unit has been led to its end, with the given result. -/
def Check.Shown (f s : State) (u : UnitId) {α : Type} (c : Check α) (a : α) : Prop :=
  c.Reaches (Act.Shown f s u) (· = a)

/-- A state shows that a task has been performed. -/
def Task.Shown (f s : State) (u : UnitId) (task : Task) : Prop :=
  ∃ t, (task.check f u).Shown f s u t ∧
    (task.givesType = true → s.graph.inferred[(⟨u, task.mark.id⟩ : NodeId)]? = some t)

/-- The second state shows that the tasks that have been begun since the first one have been performed. -/
def Closes (f s s' : State) : Prop :=
  ∀ u task, f.HasNode u (Task.node task) → s'.checked.contains ⟨u, task.mark.id⟩ = true →
    s.checked.contains ⟨u, task.mark.id⟩ = false → task.Shown f s' u

section

variable {f s s' s'' : State} {u : UnitId} {α β : Type}

theorem Act.Shown.mono (h : Gains f s s') {act : Act} {r : act.Answer} (hr : act.Shown f s u r) :
    act.Shown f s' u r := by
  cases act with
  | ask q =>
    cases q with
    | typeOf d =>
      obtain ⟨hr, hfixed, hbegun⟩ := hr
      refine ⟨?_, hfixed.mono h, fun hunknown v task htask => h.checked _ (hbegun hunknown v task htask)⟩
      rw [hr, hfixed s' h]
    | problem n message => exact hr.imp fun d hd => ⟨h.diagnostics u d hd.1, hd.2⟩
  | settle m t target =>
    exact ⟨fun hknown => h.exprs _ t (hr.1 hknown), fun d hd => h.targets _ d (hr.2 d hd)⟩
  | «infer» m t => exact h.inferred _ t hr
  | visit task => exact h.checked _ hr

theorem Check.Shown.mono (h : Gains f s s') {c : Check α} {a : α} (hc : c.Shown f s u a) : c.Shown f s' u a :=
  Dialogue.Reaches.of_ok hc fun _ _ => Act.Shown.mono h

theorem Task.Shown.mono (h : Gains f s s') {task : Task} (htask : task.Shown f s u) : task.Shown f s' u :=
  htask.imp fun t ht => ⟨ht.1.mono h, fun hgives => h.inferred _ t (ht.2 hgives)⟩

theorem Closes.trans (h : Closes f s s') (h' : Closes f s' s'') (hgrows : Gains f s' s'') : Closes f s s'' := by
  intro u task hn hbegun hnew
  cases hbegun' : s'.checked.contains ⟨u, task.mark.id⟩ with
  | true => exact (h u task hn hbegun' hnew).mono hgrows
  | false => exact h' u task hn hbegun hbegun'

theorem Closes.of_grows (h : Closes f s s'') (hs : Gains f s s') : Closes f s' s'' := by
  intro u task hn hbegun hnew
  refine h u task hn hbegun (Bool.eq_false_iff.mpr fun hold => ?_)
  rw [hs.checked _ hold] at hnew
  cases hnew

/-- A step that begins no task. -/
theorem closes_of_checked (h : ∀ k, s'.checked.contains k = true → s.checked.contains k = true) : Closes f s s' := by
  intro u task _ hbegun hnew
  rw [h _ hbegun] at hnew
  cases hnew

/-! ## The least state that shows a step -/

/-- What an action has led to shows what the property says of its result, and a state that has grown from the same
beginning shows this of that result only, and only if it has all that the action has recorded. -/
structure Explains (f s : State) (r : α × State) (P : State → α → Prop) : Prop where
  grows : Gains f s r.2
  closes : Closes f s r.2
  shown : P r.2 r.1
  least : ∀ s' a, Gains f s s' → Closes f s s' → P s' a → Gains f r.2 s' ∧ a = r.1

namespace Explains

/-- An action that changes nothing. -/
theorem stay {a : α} {P : State → α → Prop} (h : P s a) (hunique : ∀ s' a', Gains f s s' → P s' a' → a' = a) :
    Explains f s (a, s) P :=
  ⟨refl_of (Gains f) s, closes_of_checked fun _ => id, h, fun s' a' hs' _ ha => ⟨hs', hunique s' a' hs' ha⟩⟩

/-- One action after another. -/
theorem bind {r : α × State} {r' : β × State} {P : State → α → Prop} {P' : α → State → β → Prop}
    (h : Explains f s r P) (h' : Explains f r.2 r' (P' r.1)) (mono : ∀ s s' a, Gains f s s' → P s a → P s' a) :
    Explains f s r' fun s' b => ∃ a, P s' a ∧ P' a s' b where
  grows := trans_of (Gains f) h.grows h'.grows
  closes := h.closes.trans h'.closes h'.grows
  shown := ⟨r.1, mono _ _ _ h'.grows h.shown, h'.shown⟩
  least := by
    rintro s' b hs hcloses ⟨a, ha, hb⟩
    obtain ⟨hs', rfl⟩ := h.least s' a hs hcloses ha
    exact h'.least s' b hs' (hcloses.of_grows h.grows) hb

/-- What does not matter may change before and after an action. -/
theorem congr {s₁ s₂ : State} {r : α × State} {P : State → α → Prop} (h : Explains f s₁ r P) (hs : Gains f s s₁)
    (hs' : Gains f s₁ s) (hr : Gains f r.2 s₂) (hr' : Gains f s₂ r.2)
    (mono : ∀ s s' a, Gains f s s' → P s a → P s' a) : Explains f s (r.1, s₂) P where
  grows := trans_of (Gains f) hs (trans_of (Gains f) h.grows hr)
  closes := (h.closes.trans (closes_of_checked hr'.checked) hr).of_grows hs'
  shown := mono _ _ _ hr h.shown
  least s' a hgrows hcloses ha :=
    (h.least s' a (trans_of (Gains f) hs' hgrows) (hcloses.of_grows hs) ha).imp_left (trans_of (Gains f) hr')

end Explains

end

/-! ## Types of declarations -/

section

variable {f s : State} {ℓ : Leeway} {root : NodeId} {under : List NodeId} {d : DeclId}

/-- The type of a declaration in sight is known to the end when no task infers one for it, or the one that does has
been performed. -/
theorem State.Sound.fixes (hs : s.Sound f ℓ root under) (hf : f.Ready ℓ) (hd : (s.progress.outlook f ℓ).sees d)
    (htyped : (f.graph.decl d).shape.isTyped = true)
    (hnot : ∀ t g, (f.graph.decl d).shape ≠ .setter t (some g))
    (hidle : ∀ u task, f.inference? d = some (u, task) → task.isInference = true →
      s.progress.begun ⟨u, task.mark.id⟩ ∧ (⟨u, task.mark.id⟩ : NodeId) ∉ under) : Fixes f s d := by
  refine fixes_of_nodeOf? fun k hk hunknown hinfers hnone ⟨hready, n, hn, hid, hkind⟩ => ?_
  rw [hs.decl] at hunknown hinfers
  rw [hs.nodeOf?] at hk
  have hmissing : ¬ s.progress.given k := fun hgiven => Option.isSome_iff_ne_none.mp hgiven hnone
  obtain ⟨u, hunit, hk⟩ := Option.bind_eq_some_iff.mp hk
  obtain ⟨m, hnode, hk⟩ := Option.bind_eq_some_iff.mp hk
  obtain rfl := Option.some.inj hk
  obtain ⟨hhas, c, -, -, hdeclares⟩ := hf.layout.declares hd.1 hunit hnode
  obtain rfl : n = m := (hf.layout.numbered u).eq_of_id hn.2 hhas.2 hid
  rcases hkind with ⟨v, rfl, hinferred⟩ | ⟨task, rfl, hgives⟩
  · exact hmissing (given_of_clause hf.layout hd hunit hnode hinferred)
  cases hinference : task.isInference with
  | true =>
    have hlanguage : u ≠ languageUnit := by
      rintro rfl
      rw [hf.language d hunit htyped] at hunknown
      cases hunknown
    have hfound := State.inference?_of_isInference hunit hnode hinference hready
    obtain ⟨hbegun, hunder⟩ := hidle u task hfound hinference
    refine hmissing ?_
    rw [task.mark_node]
    exact (hs.done u task hlanguage hhas hbegun hunder).2 hgives
  | false =>
    -- Only a setter is given a type that its task does not infer; its own type is that of its getter.
    have hkind := hdeclares.kind
    cases task with
    | setter n =>
      cases hshape : (f.graph.decl d).shape with
      | setter t g =>
        cases g with
        | some g => exact hnot t g hshape
        | none => simp [hshape, Shape.infers] at hinfers
      | _ => simp [hshape, Task.node, Node.declKind, Shape.kind] at hkind
    | _ => simp_all [Task.givesType]

end

/-! ## Reporting and recording -/

section

variable {f s : State} {u : UnitId}

/-- The problems of a unit after one has been reported. -/
theorem diagnostics_report (hu : u.index < s.units.size) (hsource : s.location u = f.location u) (n : Node)
    (message : String) (v : UnitId) : ((report u n message s).2.unit v).diagnostics =
      if v = u then (f.problem u n message).addTo (s.unit u).diagnostics else (s.unit v).diagnostics := by
  rw [report_apply, State.unit_modify, State.problem, ← hsource]
  by_cases hv : v = u
  · rw [if_pos ⟨hv.symm, hu⟩, if_pos hv, hv]
  · rw [if_neg fun h => hv h.1.symm, if_neg hv]

/-- Reporting a problem. -/
theorem report_explains (hf : f.Layout) (hu : u.index < s.units.size) (hsource : s.location u = f.location u)
    {n : Node} (hn : f.HasNode u n) (message : String) :
    Explains f s (report u n message s) (Act.Shown f · u (.ask (.problem n message))) := by
  have hunit := diagnostics_report hu hsource n message
  have hmem : ∀ v, ∀ d ∈ ((report u n message s).2.unit v).diagnostics, d ∈ (s.unit v).diagnostics ∨
      v = u ∧ d = f.problem u n message ∧ ∀ d' ∈ (s.unit u).diagnostics, d'.key ≠ (some n.mark.id, message) := by
    intro v d hd
    rw [hunit] at hd
    split at hd
    · next hv => exact (Diagnostic.mem_addTo.mp hd).imp (hv ▸ id) fun hd => ⟨hv, hd⟩
    · exact .inl hd
  refine ⟨⟨rfl, rfl, fun _ _ => id, fun _ _ => id, fun _ _ => id, fun _ => id, fun v d hd => ?_, fun _ _ => .inl,
    fun v d hd => ?_⟩, closes_of_checked fun _ => id, ?_, fun s' _ hs _ => ?_⟩
  · rw [hunit]
    split
    · next hv => exact Diagnostic.mem_addTo.mpr (.inl (hv ▸ hd))
    · exact hd
  · exact (hmem v d hd).imp id fun ⟨hv, hd, _⟩ => ⟨n, message, hv ▸ hn, hv ▸ hd⟩
  · exact report_reported u n message s (hu.trans_eq (Array.size_modify ..).symm)
  · rintro ⟨d, hd, hkey⟩
    refine ⟨{ hs with diagnostics := fun v e he => ?_, reported := fun v e he => ?_ }, rfl⟩
    · rcases hmem v e he with he | ⟨rfl, rfl, hnew⟩
      · exact hs.diagnostics v e he
      -- What has been reported at the same node since is the same problem.
      · obtain ⟨n', message', hn', rfl⟩ := (hs.reported v d hd).resolve_left fun hd => hnew d hd hkey
        obtain ⟨hid, rfl⟩ := Prod.mk.inj hkey
        obtain rfl := (hf.numbered v).eq_of_id hn'.2 hn.2 (Option.some.inj hid)
        exact hd
    · refine (hs.reported v e he).imp (fun he => ?_) id
      rw [hunit]
      split
      · next hv => exact Diagnostic.mem_addTo.mpr (.inl (hv ▸ he))
      · exact he

/-- Recording the type and the target of an expression for which nothing has been recorded. -/
theorem recordExpr_explains {x : Expr} (hblank : s.Untouched u (.expr x)) (t : Ty) (target : Option DeclId) :
    Explains f s (Checking.recordExpr ⟨u, x.mark.id⟩ t target s) (Act.Shown f · u (.settle x.mark t target)) := by
  have hothers := (recordExpr_recordsAt s ⟨u, x.mark.id⟩ t target).others
  have hexpr : (Checking.recordExpr ⟨u, x.mark.id⟩ t target s).2.types.exprs[(⟨u, x.mark.id⟩ : NodeId)]? =
      if t.isKnown then some t else none := by
    change (if t.isKnown then _ else _ : TypeTable).exprs[(⟨u, x.mark.id⟩ : NodeId)]? = _
    split
    · exact getElem?_insertIfNew_self hblank.expr
    · exact hblank.expr
  have htarget : (Checking.recordExpr ⟨u, x.mark.id⟩ t target s).2.targets[(⟨u, x.mark.id⟩ : NodeId)]? = target := by
    cases target with
    | none => exact hblank.target x rfl
    | some d => exact Std.ExtTreeMap.getElem?_insert_self
  have hrefs : (Checking.recordExpr ⟨u, x.mark.id⟩ t target s).2.types.refs = s.types.refs := by
    change (if t.isKnown then _ else _ : TypeTable).refs = _
    split <;> rfl
  -- The node was blank before, so what stands there afterwards is what this step wrote; everything else is as
  -- it was.
  refine ⟨⟨rfl, hrefs, fun k t' ht' => ?_, fun k d hd => ?_, fun _ _ => id, fun _ => id, fun _ _ => id,
    fun _ _ => .inl, fun _ _ => .inl⟩, closes_of_checked fun _ => id,
    ⟨fun hknown => hexpr.trans (if_pos hknown), fun d hd => htarget.trans hd⟩, fun s' _ hs _ ⟨ht, hd⟩ =>
    ⟨{ hs with refs := hs.refs.trans hrefs.symm, exprs := fun k t' ht' => ?_, targets := fun k d hk => ?_ }, rfl⟩⟩
  · by_cases hk : k = ⟨u, x.mark.id⟩
    · cases hblank.expr.symm.trans (hk ▸ ht')
    · exact (hothers k hk).expr.trans ht'
  · by_cases hk : k = ⟨u, x.mark.id⟩
    · cases (hblank.target x rfl).symm.trans (hk ▸ hd)
    · exact (hothers k hk).target.trans hd
  · by_cases hk : k = ⟨u, x.mark.id⟩
    · rw [hk, hexpr] at ht'
      split at ht'
      · next hknown => rw [hk, ← ht', ht hknown]
      · cases ht'
    · exact hs.exprs k t' ((hothers k hk).expr.symm.trans ht')
  · by_cases heq : k = ⟨u, x.mark.id⟩
    · rw [heq, htarget] at hk
      exact heq ▸ hd d hk
    · exact hs.targets k d ((hothers k heq).target.symm.trans hk)

/-- Recording the type that is inferred for a node for which none has been recorded. -/
theorem recordInferred_explains {m : Mark} (hblank : s.graph.inferred[(⟨u, m.id⟩ : NodeId)]? = none)
    (hinfers : f.Infers ⟨u, m.id⟩) (t : Ty) :
    Explains f s (Checking.recordInferred ⟨u, m.id⟩ t s) (Act.Shown f · u (.infer m t)) := by
  have hself : (Checking.recordInferred ⟨u, m.id⟩ t s).2.graph.inferred[(⟨u, m.id⟩ : NodeId)]? = some t :=
    getElem?_insertIfNew_self hblank
  -- At any other node there is what there was.
  have hother : ∀ k : NodeId, k ≠ ⟨u, m.id⟩ →
      (Checking.recordInferred ⟨u, m.id⟩ t s).2.graph.inferred[k]? = s.graph.inferred[k]? :=
    fun k hk => getElem?_insertIfNew_of_ne hk.symm
  refine ⟨⟨rfl, rfl, fun _ _ => id, fun _ _ => id, fun k t' => getElem?_insertIfNew_of_some, fun _ => id,
    fun _ _ => id, fun k t' ht' => ?_, fun _ _ => .inl⟩, closes_of_checked fun _ => id, hself,
    fun s' _ hs _ ht => ⟨{ hs with inferred := fun k t' ht' => ?_, owed := fun k t' ht' => ?_ }, rfl⟩⟩
  · by_cases hk : k = ⟨u, m.id⟩
    · exact .inr (hk ▸ hinfers)
    · exact .inl (hother k hk ▸ ht')
  · by_cases hk : k = ⟨u, m.id⟩
    · rw [hk, hself] at ht'
      rw [hk, ← ht']
      exact ht
    · exact hs.inferred k t' (hother k hk ▸ ht')
  · exact (hs.owed k t' ht').imp getElem?_insertIfNew_of_some id

end

/-! ## Performing tasks -/

/-- From the first state to the second, no inference that has needed its own result has been forgotten. -/
def State.Recalls (s s' : State) : Prop :=
  s.circular <:+ s'.circular

instance : IsPreorder State State.Recalls where
  refl _ := List.suffix_rfl
  trans _ _ _ h h' := h.trans h'

theorem checkSteps_recalls : CheckSteps State.Recalls where
  report _ _ _ _ := List.suffix_rfl
  tables _ _ _ _ _ more _ := List.suffix_append more _

/-- If no inference has needed its own result in the end, then none has on the way. -/
theorem State.Recalls.circular_eq {s s' s'' : State} (h : s.Recalls s') (h' : s'.Recalls s'')
    (hquiet : s''.circular = s.circular) : s'.circular = s.circular ∧ s''.circular = s'.circular := by
  have heq : s'.circular = s.circular := (h.eq_of_length_le (hquiet ▸ h'.length_le)).symm
  exact ⟨heq, hquiet.trans heq.symm⟩

section

variable (f : State) (ℓ : Leeway) (root : NodeId) (under : List NodeId) (done : UnitId → Prop)

/-- Unless an inference needs its own result, what is to be demanded performs a task. -/
def Demands (demand : UnitId → Task → Analyze Unit) : Prop :=
  ∀ (u : UnitId) (task : Task) (s : State), s.Sound f ℓ root under →
    Underway (fun v => (f.unit v).tree) done s → Task.Fits (fun v => (f.unit v).tree) done u task →
    u ≠ languageUnit → f.isReady u = true → f.Reaches s.progress.given u task.node → task.node.isTask = true →
    (demand u task s).2.circular = s.circular →
    Explains f s (demand u task s) (Act.Shown f · u (.visit task))

end

section

variable {f s : State} {ℓ : Leeway} {root : NodeId} {under : List NodeId} {done : UnitId → Prop}
  (hinference : ∀ d v t, f.inference? d = some (v, t) → Task.Fits (fun v => (f.unit v).tree) done v t)
include hinference

/-- If a type has been inferred for a declaration, then the task that infers it has been begun. -/
theorem Underway.begun_of_isKnown (hunderway : Underway (fun v => (f.unit v).tree) done s)
    (hdecls : s.graph.decls = f.graph.decls) {d : DeclId} {u : UnitId} {task : Task}
    (hfound : f.inference? d = some (u, task)) (hknown : (s.graph.typeOf d).isKnown = true)
    (hunknown : (f.graph.decl d).shape.type.isKnown = false) : s.checked.contains ⟨u, task.mark.id⟩ = true := by
  have hdecl : s.graph.decl d = f.graph.decl d := by rw [Graph.decl, hdecls, Graph.decl]
  obtain ⟨hunit, hnode, -⟩ := State.inference?_eq_some hfound
  rcases typeOf_of_isKnown hknown with ⟨hdeclared, -⟩ | ⟨k, hk, hgiven⟩
  · rw [hdecl, hunknown] at hdeclared
    cases hdeclared
  have hkey : k = ⟨u, task.node.mark.id⟩ := by
    simp [Graph.nodeOf?, hdecl, hunit, hnode] at hk
    simp [hk]
  -- Nothing is inferred for a node before the task that it is assigned to has been begun.
  by_contra hnew
  have hassigned := (hinference d u task hfound).assigns
  rw [← hunderway.trees] at hassigned
  have huntouched := hunderway.pending u task.node task.node hassigned
    (task.mark_node ▸ Bool.eq_false_iff.mpr hnew)
  rw [hkey, huntouched.inferred] at hgiven
  cases hgiven

/-- Finding the type of a declaration. -/
theorem demandType_explains {demand : UnitId → Task → Analyze Unit} (hf : f.Ready ℓ) (hs : s.Sound f ℓ root under)
    (hunderway : Underway (fun v => (f.unit v).tree) done s) (hends : Performs f ℓ root under demand)
    (hdemand : Demands f ℓ root under done demand) (hlax : ℓ.lax) {d : DeclId} (hd : (s.progress.outlook f ℓ).sees d)
    (htyped : (f.graph.decl d).shape.isTyped = true)
    (hquiet : (Checking.demandType f demand d s).2.circular = s.circular) :
    Explains f s (Checking.demandType f demand d s) (Tells f · (f.graph.principal d)) := by
  obtain ⟨hd, htyped, hnot⟩ := principal_sees hf.layout hd htyped
  rw [Checking.demandType, get_bind_apply] at hquiet ⊢
  dsimp only at hquiet ⊢
  generalize f.graph.principal d = d at hd htyped hnot hquiet ⊢
  -- What is answered before a task has been demanded is what the state knows to the end.
  have stay : Tells f s d (some (s.graph.typeOf d)) → Explains f s (some (s.graph.typeOf d), s) (Tells f · d) :=
    fun h => .stay h fun s' a hs' ha => by rw [ha.answer, h.fixed s' hs']
  by_cases hknown : (s.graph.typeOf d).isKnown = true
  · rw [if_pos hknown]
    refine stay ⟨rfl, fixes_of_isKnown hknown, fun hunknown u task hfound => ?_⟩
    exact hunderway.begun_of_isKnown hinference (congrArg (·.graph.decls) hs.facts) hfound hknown hunknown
  rw [if_neg hknown] at hquiet ⊢
  rw [Bool.not_eq_true] at hknown
  have hmissing : s.graph.typeOf d = .unknown := by
    cases h : s.graph.typeOf d <;> simp_all
  cases hfound : f.inference? d with
  | none =>
    rw [← hmissing]
    refine stay ⟨rfl, hs.fixes hf hd htyped hnot fun u task h => ?_, fun _ u task h => ?_⟩
    · cases hfound.symm.trans h
    · cases hfound.symm.trans h
  | some found =>
    obtain ⟨u, task⟩ := found
    simp only [hfound] at hquiet
    dsimp only
    have hunknown := hs.decl d ▸ declared_unknown hknown
    obtain ⟨hunit, -, htask, -⟩ := State.inference?_eq_some hfound
    have hlanguage := hf.ne_languageUnit hunit htyped hunknown
    have hreach := reaches_of_inference? hf.layout hd hfound hlanguage
    by_cases hidle : s.inferring.contains ⟨u, task.mark.id⟩ = true
    · rw [if_pos hidle] at hquiet
      exact absurd hquiet (List.cons_ne_self _ _)
    rw [if_neg hidle] at hquiet ⊢
    -- Once the task has been begun, it has been performed.
    have hfixes : ∀ {s' : State}, s'.Sound f ℓ root under → (s'.progress.outlook f ℓ).sees d →
        s'.progress.begun ⟨u, task.mark.id⟩ → Fixes f s' d := by
      intro s' hs' hd' hbegun
      refine hs'.fixes hf hd' htyped hnot fun u' task' hfound' hinference' => ?_
      obtain ⟨rfl, rfl⟩ := Prod.mk.inj (Option.some.inj (hfound.symm.trans hfound'))
      refine ⟨hbegun, fun hunder => hidle (List.contains_iff_mem.mpr ?_)⟩
      exact hs.inferring u task hreach.has hinference' hunder
    by_cases hbegun : s.checked.contains ⟨u, task.mark.id⟩ = true
    · rw [if_pos hbegun, ← hmissing]
      refine stay ⟨rfl, hfixes hs hd hbegun, fun _ u' task' hfound' => ?_⟩
      obtain ⟨rfl, rfl⟩ := Prod.mk.inj (Option.some.inj (hfound.symm.trans hfound'))
      exact hbegun
    · rw [if_neg hbegun] at hquiet ⊢
      have hdemanded := hdemand u task s hs hunderway (hinference d u task hfound) hlanguage
        (State.isReady_of_inference? hfound) hreach htask hquiet
      rcases hends u task s hs hlanguage hreach htask with hspoiled | ⟨hs', hle, hbegun⟩
      · exact absurd hlax hspoiled.1
      have hfixed := hfixes hs' (hle.outlook.sees d hd) hbegun
      refine ⟨hdemanded.grows, hdemanded.closes, ⟨rfl, hfixed, fun _ u' task' hfound' => ?_⟩,
        fun s'' a hs'' hcloses ha => ?_⟩
      · obtain ⟨rfl, rfl⟩ := Prod.mk.inj (Option.some.inj (hfound.symm.trans hfound'))
        exact hbegun
      · obtain ⟨hgrows, -⟩ := hdemanded.least s'' () hs'' hcloses (ha.begun hunknown u task hfound)
        exact ⟨hgrows, ha.answer.trans (congrArg some (hfixed s'' hgrows))⟩

/-- Taking a step of a check of a task under way. -/
theorem perform_explains {depth : Nat} (hf : f.Ready ℓ) (hlax : ℓ.lax) {s₀ : State} {u : UnitId} {task : Task}
    {rest : Multiset Nat} {act : Act} (hs : s.Sound f ℓ root under)
    (hperforming : Performing (fun v => (f.unit v).tree) done s₀ u task (act.cost + rest) s)
    (hends : Performs f ℓ root under (Checking.performTask f depth))
    (hdemand : Demands f ℓ root under done (Checking.performTask f depth)) (hu : u ≠ languageUnit)
    (hready : f.isReady u = true) (hfits : Task.Fits (fun v => (f.unit v).tree) done u task)
    (hproper : act.Proper f ℓ u s.progress) (hwithin : act.Within (f.unit u).tree task.node)
    (hquiet : (Checking.perform f (Checking.performTask f depth) u act s).2.circular = s.circular) :
    Explains f s (Checking.perform f (Checking.performTask f depth) u act s) (Act.Shown f · u act) := by
  have hbound := (State.isReady_iff.mp hready).1
  -- the nodes a step pays for are still blank
  have hcost : ∀ n : Node, (f.unit u).tree.Assigns task.node n → act.cost = {n.mark.id} → s.Untouched u n :=
    fun n hn hcost => hperforming.blank n hn (Multiset.mem_add.mpr (.inl (hcost ▸ Multiset.mem_singleton_self _)))
  cases act with
  | ask q =>
    cases q with
    | typeOf d =>
      exact demandType_explains hinference hf hs hperforming.toUnderway hends hdemand hlax hproper.1.1 hproper.1.2
        hquiet
    | problem n message =>
      have hsource : s.location u = f.location u := by
        funext m
        rw [State.location, State.location, hperforming.trees]
      exact report_explains hf.layout (hs.valid hbound) hsource hproper.2 message
  | settle m t target =>
    obtain ⟨x, hx, rfl⟩ := hwithin
    exact recordExpr_explains (hcost (.expr x) hx rfl) t target
  | «infer» m t =>
    obtain ⟨v, hv, hinferred, rfl⟩ := hwithin
    refine recordInferred_explains (hcost (.variable v) hv rfl).inferred ?_ t
    exact ⟨hready, .variable v, ⟨hbound, hv.has⟩, rfl, .inl ⟨v, rfl, hinferred⟩⟩
  | visit task' =>
    have hassigns : (f.unit u).tree.Assigns task'.node task'.node := hwithin.1.assigns hwithin.2
    exact hdemand u task' s hs hperforming.toUnderway ⟨hfits.done, hassigns⟩ hu hready hproper.1 hproper.2 hquiet

/-- Leading a check of a task under way to its end. -/
theorem run_explains {depth : Nat} (hf : f.Ready ℓ) (hlax : ℓ.lax) {s₀ : State} {u : UnitId} {task : Task}
    {ids : Multiset Nat} {α : Type} {c : Check α} {P : Progress → α → Prop} (hs : s.Sound f ℓ root under)
    (hperforming : Performing (fun v => (f.unit v).tree) done s₀ u task ids s)
    (hends : Performs f ℓ root under (Checking.performTask f depth))
    (hdemand : Demands f ℓ root under done (Checking.performTask f depth)) (hu : u ≠ languageUnit)
    (hready : f.isReady u = true) (hfits : Task.Fits (fun v => (f.unit v).tree) done u task)
    (hkeeps : c.Keeps f ℓ u s.progress P) (hsettles : c.Settles (f.unit u).tree task.node ids)
    (hquiet : (c.run (Checking.perform f (Checking.performTask f depth) u) s).2.circular = s.circular) :
    Explains f s (c.run (Checking.perform f (Checking.performTask f depth) u) s) fun s' a => c.Shown f s' u a := by
  -- Each step leads to the least state that shows it, and the rest of the check leads on from there.
  induction c generalizing s ids with
  | done a => exact .stay rfl fun _ _ _ h => h.symm
  | ask act next ih =>
    obtain ⟨hproper, hnext⟩ := hkeeps
    obtain ⟨hwithin, rest, hrest, hrests⟩ := hsettles
    rw [Dialogue.run_ask] at hquiet ⊢
    have hrecalls := checkSteps_recalls.performTask f depth
    obtain ⟨hquiet, hquiet'⟩ := State.Recalls.circular_eq (checkSteps_recalls.perform hrecalls u act s)
      (Leads.run (checkSteps_recalls.perform hrecalls u) _ _) hquiet
    have hstep := perform_explains hinference hf hlax hs (hperforming.mono hrest) hends hdemand hu hready hfits
      hproper hwithin hquiet
    have hbound := (State.isReady_iff.mp hready).1
    rcases perform_ends hf hs hends hu hbound hproper with hspoiled | ⟨hs', hle, hright⟩
    · exact absurd hlax hspoiled.1
    have hperforming' : Performing (fun v => (f.unit v).tree) done s₀ u task rest
        (Checking.perform f (Checking.performTask f depth) u act s).2 := by
      refine (actWalk_keeps hf.layout.numbered hinference (fun v t => ?_) hfits hwithin).result
        (Checking.actWalk_traces f (Checking.taskWalk_traces f depth) u act) (hperforming.mono hrest)
      exact taskWalk_performs hf.layout.numbered hinference depth
    exact hstep.bind (ih _ hs' hperforming' (hnext _ hle _ hright) (hrests _) hquiet') fun _ _ _ h => Act.Shown.mono h

omit hinference in
/-- Ending a task. -/
theorem ending_explains {u : UnitId} {task : Task} (hready : f.isReady u = true) (hhas : f.HasNode u task.node)
    (hown : s.graph.inferred[(⟨u, task.mark.id⟩ : NodeId)]? = none) (t : Ty) :
    Explains f s ((), s.ending u task t) fun s' _ =>
      task.givesType = true → s'.graph.inferred[(⟨u, task.mark.id⟩ : NodeId)]? = some t := by
  let idle : State := { s with inferring := s.inferring.erase ⟨u, task.mark.id⟩ }
  have hidle : Gains f s idle := .of_same rfl rfl rfl rfl rfl fun _ => rfl
  have hidle' : Gains f idle s := .of_same rfl rfl rfl rfl rfl fun _ => rfl
  -- A task that gives a type records it.  Any other leaves no more than that it is idle.
  by_cases hgives : task.givesType = true
  · have hstate : s.ending u task t = (Checking.recordInferred ⟨u, task.mark.id⟩ t idle).2 := by
      rw [State.ending, if_pos hgives]
      rfl
    have hinfers : f.Infers ⟨u, task.mark.id⟩ :=
      ⟨hready, task.node, hhas, congrArg Mark.id task.mark_node, .inr ⟨task, rfl, hgives⟩⟩
    have hrecord := (recordInferred_explains (s := idle) hown hinfers t).congr hidle hidle' (refl_of (Gains f) _)
      (refl_of (Gains f) _) fun _ _ _ h => Act.Shown.mono h
    rw [hstate]
    exact ⟨hrecord.grows, hrecord.closes, fun _ => hrecord.shown,
      fun s' a hs hcloses ha => hrecord.least s' a hs hcloses (ha hgives)⟩
  · have hstate : s.ending u task t = idle := by rw [State.ending, if_neg hgives]
    rw [hstate]
    exact ⟨hidle, closes_of_checked fun _ => id, fun h => absurd h hgives,
      fun s' _ hs _ _ => ⟨trans_of (Gains f) hidle' hs, rfl⟩⟩

/-- Unless an inference needs its own result, performing a task leads to the least state that shows it. -/
theorem performTask_explains (hf : f.Ready ℓ) (hlax : ℓ.lax) (depth : Nat) {u : UnitId} (hu : u ≠ languageUnit)
    {task : Task} (hs : s.Sound f ℓ root under) (hunderway : Underway (fun v => (f.unit v).tree) done s)
    (hfits : Task.Fits (fun v => (f.unit v).tree) done u task) (hready : f.isReady u = true)
    (hdepth : f.decls.size + 2 ≤ depth + under.length) (htask : f.Reaches s.progress.given u task.node)
    (hlisted : (⟨u, task.mark.id⟩ : NodeId) = root ∨ (⟨u, task.mark.id⟩ : NodeId) ∈ f.decls)
    (hquiet : (Checking.performTask f depth u task s).2.circular = s.circular) :
    Explains f s (Checking.performTask f depth u task s) fun s' _ =>
      s'.checked.contains ⟨u, task.mark.id⟩ = true := by
  -- What a task demands is performed one level further down, with the task among those that are under way.
  induction depth generalizing u task under s with
  | zero =>
    -- No more tasks can be under way than there are declarations, and the unit itself.
    have hlength := length_le_of_listed hs.nodup hs.listed
    omega
  | succ depth ih =>
    cases hnew : s.checked.contains ⟨u, task.mark.id⟩ with
    | true =>
      rw [Checking.performTask, get_bind_apply, if_pos hnew]
      exact .stay hnew fun _ _ _ _ => rfl
    | false =>
      have hdepth' : f.decls.size + 2 ≤ depth + (⟨u, task.mark.id⟩ :: under : List NodeId).length := by
        rw [List.length_cons]
        omega
      have hdemand : Demands f ℓ root (⟨u, task.mark.id⟩ :: under) done (Checking.performTask f depth) := by
        intro u' task' s' hs' hunderway' hfits' hu' hready' hreach htask' hquiet'
        refine ih hu' hs' hunderway' hfits' hready' hdepth' hreach (.inr ?_) hquiet'
        exact task'.mark_node ▸ hf.layout.listed hreach.has (Node.declKind_of_isTask htask')
      let r := (task.check f u).run (Checking.perform f (Checking.performTask f depth) u) (s.beginning u task)
      have hstate : Checking.performTask f (depth + 1) u task s = ((), r.2.ending u task r.1) :=
        Prod.ext rfl (performTask_of_new f depth hnew)
      rw [hstate] at hquiet ⊢
      have hbegin := hs.begin hf.layout htask.has hnew hlisted
      have hperforming : Performing (fun v => (f.unit v).tree) done s u task task.node.idSet (s.beginning u task) :=
        hunderway.performing hf.layout.numbered hfits hnew _
      have hrun : Explains f (s.beginning u task) r fun s' t => (task.check f u).Shown f s' u t :=
        run_explains hinference hf hlax hbegin hperforming (performTask_performs hf hdepth') hdemand hu hready hfits
          (Task.check_keeps hf.toPrepared task (htask.mono (s.progress_beginning u task).given))
          (task.check_settles hfits.assigns) hquiet
      have hended : Performing (fun v => (f.unit v).tree) done s u task 0 r.2 :=
        (checkRun_keeps hf.layout.numbered hinference
          (fun v t => taskWalk_performs hf.layout.numbered hinference depth) hfits).result
          (.run (Checking.actWalk_traces f (Checking.taskWalk_traces f depth) u) _) hperforming
      have hshown : Explains f (s.beginning u task) ((), r.2.ending u task r.1) fun s' _ => task.Shown f s' u :=
        hrun.bind (ending_explains hready htask.has hended.own r.1) fun _ _ _ h => Check.Shown.mono h
      have hgrows : Gains f s (s.beginning u task) :=
        { refl_of (Gains f) s with checked := fun k hk => State.begun_beginning.mpr (.inr hk) }
      refine ⟨trans_of (Gains f) hgrows hshown.grows, fun v task' hhas' hbegun hnew' => ?_, ?_,
        fun s' _ hs' hcloses hbegun => ?_⟩
      -- Of the tasks that have been begun, this one has just been performed, and the run has closed the others.
      · by_cases hkey : (⟨v, task'.mark.id⟩ : NodeId) = ⟨u, task.mark.id⟩
        · obtain ⟨rfl, rfl⟩ := Task.eq_of_key hf.layout htask.has hhas' hkey
          exact hshown.shown
        · refine hshown.closes v task' hhas' hbegun (Bool.eq_false_iff.mpr fun hold => ?_)
          rw [(State.begun_beginning.mp hold).resolve_left hkey] at hnew'
          cases hnew'
      · exact hshown.grows.checked _ (State.begun_beginning.mpr (.inl rfl))
      · have hs'' : Gains f (s.beginning u task) s' :=
          { hs' with checked := fun k hk => (State.begun_beginning.mp hk).elim (· ▸ hbegun) (hs'.checked k) }
        have hshown' : task.Shown f s' u := hcloses u task htask.has hbegun hnew
        exact ⟨(hshown.least s' () hs'' (hcloses.of_grows hgrows) hshown').1, rfl⟩

end

end Ceylon.Analysis
