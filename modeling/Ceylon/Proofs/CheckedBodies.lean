import Ceylon.Proofs.CheckedTypes

/-!
# What checks of bodies and tasks do

Checking a statement keeps to the contract of checks and deals with all of the statement; the body of a branch
or loop is checked once the variables of its clause have been given their types.  A task deals with all parts
of its node, and the type that it infers for its declaration fits (`Task.check_keeps`).
-/

namespace Ceylon.Analysis

open Model Syntax

section

variable {f : State} {z : Outlook} (hf : f.Shows z)

/-! ## Rules -/

/-- Asking for a type that can be inferred keeps to the contract. -/
theorem requireInferred_keeps (name : Name) (t : Ty) (faulty : Bool) :
    (requireInferred name t faulty).Keeps f z fun _ => True :=
  (Rule.reportIf_keeps _ _ _).mono fun _ _ => trivial

/-- Nothing was there to infer a type from. -/
theorem requireNothing_keeps (name : Name) :
    (requireInferred name .unknown false).Keeps f z fun _ => z.blank :=
  (Rule.reportIf_keeps _ _ _).mono fun _ hblank => hblank rfl

/-- Asking for a condition to be boolean keeps to the contract. -/
theorem checkBoolean_keeps (x : Typed) : (checkBoolean f x).Keeps f z fun _ => True :=
  (Rule.reportIf_keeps _ _ _).mono fun _ _ => trivial

/-- The type of the last `return`, if there is one, fits. -/
def LastFits (z : Outlook) (last : Option Ty) : Prop :=
  ∀ t, last = some t → t.Fits z

theorem LastFits.mono {z' : Outlook} (hz : z.Le z') {last : Option Ty} (h : LastFits z last) :
    LastFits z' last :=
  fun t ht => (h t ht).mono hz

theorem lastFits_none : LastFits z none :=
  nofun

/-- A last type that fits is one to go on with. -/
theorem LastFits.of_fits {t : Ty} (h : t.Fits z) : LastFits z (some t) :=
  fun _ ht => Option.some.inj ht ▸ h

/-- A returned value keeps to the contract, and its type may be the last one. -/
theorem checkReturned_keeps (mode : ReturnMode) {last : Option Ty} (hlast : LastFits z last) {x : Typed}
    (hx : x.Fits z) : (checkReturned f mode last x).Keeps f z (LastFits z) := by
  cases mode with
  | void => exact .bind (Rule.reportAt_keeps _ _) fun _ _ => Rule.pure_keeps hlast
  | «infer» => exact Rule.pure_keeps (.of_fits hx.type)
  | expect expected => exact .bind (Rule.assignable_keeps _ _ _ _) fun _ _ => Rule.pure_keeps hlast

include hf in
/-- Where the type of a declaration is inferred, what its body returns gives one that fits. -/
theorem inferReturned_keeps (name : Name) (mode : ReturnMode) {last : Option Ty} (hlast : LastFits z last) :
    (inferReturned f name mode last).Keeps f z fun t => mode = .infer → t.Fits z := by
  cases mode with
  | void => exact Rule.pure_keeps nofun
  | «infer» =>
    have hfits : (last.getD (Builtins.plain f.builtins.void)).Fits z := by
      cases last with
      | none => exact plain_fits hf (by simp [Builtins.simple])
      | some t => exact hlast t rfl
    exact .bind (requireInferred_keeps name _ false) fun _ _ => Rule.pure_keeps fun _ => hfits
  | expect expected => exact Rule.pure_keeps nofun

include hf in
/-- What an iteration takes from a source has a type that fits. -/
theorem elementType_keeps {source : Typed} (hs : source.Fits z) :
    (elementType f source).Keeps f z (·.Fits z) := by
  unfold elementType
  split
  · next hunknown => exact Rule.pure_keeps (.missing (hs.type.blank_of_unknown (by simpa using hunknown)))
  · dsimp only
    have hknown := Builtins.typeArg_within (d := f.builtins.iterable) (i := 0) hf.closed hs.type
    split
    · exact .bind (Rule.reportAt_keeps _ _) fun _ hblank => Rule.pure_keeps (.of_isKnown hknown fun _ => hblank)
    · next hisKnown =>
      refine Rule.pure_keeps (.within (hknown ?_))
      simpa [Builtins.element] using hisKnown

include hf in
/-- What a loop over entries goes over has entries, unless types may be missing. -/
theorem entryType_keeps {source : Typed} (hs : source.Fits z) : (entryType f source).Keeps f z fun t =>
    t.Fits z ∧ (z.blank ∨ (f.graph.hierarchy.supertype? t f.builtins.entry).isSome) := by
  refine .bind (elementType_keeps hf hs) fun t ht => ?_
  split
  · exact .bind (Rule.reportAt_keeps _ _) fun _ hblank => Rule.pure_keeps ⟨ht, .inl hblank⟩
  · next hentry =>
    refine Rule.pure_keeps ⟨ht, ?_⟩
    cases hknown : t.isKnown with
    | false => exact .inl (ht.blank_of_unknown hknown)
    | true => exact .inr (Option.isSome_iff_ne_none.mpr (by simpa [hknown] using hentry))

include hf in
/-- Key and item of an entry have types that fit. -/
theorem keyItem_fits {t : Ty} (ht : t.Fits z)
    (hentry : z.blank ∨ (f.graph.hierarchy.supertype? t f.builtins.entry).isSome) :
    (f.builtins.keyItem f.graph.hierarchy t).1.Fits z ∧ (f.builtins.keyItem f.graph.hierarchy t).2.Fits z := by
  have harity : z.arity f.builtins.entry = 2 :=
    (hf.builtins.generic (f.builtins.entry, 2) (by simp [Builtins.generic])).2
  exact ⟨Builtins.typeArg_fits hf.closed ht (hentry.imp id fun h => ⟨h, by omega⟩),
    Builtins.typeArg_fits hf.closed ht (hentry.imp id fun h => ⟨h, by omega⟩)⟩

end

section

variable {f : State} {ℓ : Leeway} {u : UnitId} {p : Progress}

/-! ## Variables, conditions and loops -/

/-- An expression that there may be is reached. -/
theorem checkOption_keeps (hf : f.Prepared ℓ) (x : Option Expr)
    (hx : ∀ x' ∈ x, f.Reaches p.given u (.expr x')) :
    (checkOption f u x).Keeps f ℓ u p fun p' _ => ∀ x' ∈ x, p'.Covers ℓ u (.expr x') := by
  cases x with
  | none => exact .pure nofun
  | some x =>
    refine (discard_keeps (checkExpr_keeps hf x (hx x rfl))).mono fun p' _ _ ⟨t, ht⟩ x' hx' => ?_
    exact Option.some.inj hx' ▸ ht.covers

/-- A variable is given its type. -/
theorem giveType_keeps {v : Variable} (hv : f.HasNode u (.variable v)) {t : Ty} (ht : t.Fits (p.outlook f ℓ))
    (faulty : Bool) (message : String) : (giveType f u v t faulty message).Keeps f ℓ u p fun p' _ =>
      p'.Settles ℓ u (.variable v) := by
  have hname : f.HasNode u (.name v.name) := hv.part (by simp [Node.parts_variable])
  unfold giveType
  split
  · refine .bind (applyRule_keeps (P := fun _ _ => True) (requireInferred_reportsAt hname t faulty) fun p' _ =>
      requireInferred_keeps v.name t faulty) fun p₁ hle₁ _ _ => ?_
    exact .ask (ht.mono hle₁.outlook) fun p₂ hle₂ _ hgiven _ => hgiven
  · next hdeclared =>
    refine applyRule_keeps (assignable_reportsAt _ _ hv _) fun p' hle =>
      (Rule.assignable_keeps _ _ _ _).mono fun _ _ hinferred => ?_
    exact absurd hinferred hdeclared

/-- A variable that has been given its type, and whose specifier has been dealt with. -/
theorem covers_variable {v : Variable} (h : p.Settles ℓ u (.variable v))
    (hspecifier : ∀ x ∈ v.specifier, p.Covers ℓ u (.expr x)) : p.Covers ℓ u (.variable v) := by
  refine .of_parts h fun part hpart => ?_
  rw [Node.parts_variable] at hpart
  rcases List.mem_cons.mp hpart with rfl | hpart
  · exact Progress.covers_declaredType v.type
  · rcases List.mem_cons.mp hpart with rfl | hpart
    · exact Progress.covers_name v.name
    · obtain ⟨x, hx, rfl⟩ := List.mem_map.mp hpart
      exact hspecifier x (by simpa using hx)

/-- What an operand consists of is reached. -/
def ReachesOperand (f : State) (u : UnitId) (p : Progress) : Operand → Prop
  | .var g => f.Reaches p.given u (.expr g.specifier)
  | .value x => f.Reaches p.given u (.expr x)

/-- What has been done with the operand of a condition. -/
def CoversOperand (ℓ : Leeway) (u : UnitId) (p : Progress) (o : Operand) : Prop :=
  p.Covers ℓ u o.node ∧ ∀ v ∈ o.variables, p.Settles ℓ u (.variable v)

theorem coversOperand_var {g : Guard} {p' : Progress} {t : Typed} (ht : Checked f ℓ u g.specifier p t)
    (hle : p.Le p') (h : p'.Settles ℓ u (.variable g.variable)) : CoversOperand ℓ u p' (.var g) := by
  refine ⟨covers_variable h fun x hx => ?_, List.forall_mem_singleton.mpr h⟩
  exact Option.some.inj hx ▸ ht.covers.mono hle

theorem coversOperand_value {x : Expr} (h : p.Covers ℓ u (.expr x)) : CoversOperand ℓ u p (.value x) :=
  ⟨h, List.forall_mem_nil _⟩

/-- A guard covers its operand, if what it asks of the operand keeps to the contract. -/
theorem checkGuard_keeps (hf : f.Prepared ℓ) {check : Typed → Rule Unit}
    (hcheck : ∀ z t, (check t).Keeps f z fun _ => True)
    (hplaces : ∀ t : Typed, f.HasNode u (.expr t.expr) → (check t).ReportsAt (f.HasNode u)) (o : Operand)
    (ho : ReachesOperand f u p o) (hvars : ∀ v ∈ o.variables, f.HasNode u (.variable v)) :
    (checkGuard f u check o).Keeps f ℓ u p fun p' _ => CoversOperand ℓ u p' o := by
  cases o with
  | value x =>
    refine .bind (checkExpr_keeps hf x ho) fun p₁ hle₁ t ht => ?_
    refine (applyRule_keeps (P := fun _ _ => True) (hplaces t ht.place) fun p' _ => hcheck _ t).mono
      fun p₂ hle₂ _ _ => ?_
    exact coversOperand_value (ht.covers.mono hle₂)
  | var g =>
    refine .bind (checkExpr_keeps hf g.specifier ho) fun p₁ hle₁ t ht => ?_
    refine .bind (applyRule_keeps (P := fun _ _ => True) (hplaces t ht.place).watched fun p' _ =>
      (Rule.watched_keeps (hcheck _ t)).mono fun _ _ => trivial) fun p₂ hle₂ r _ => ?_
    have hfits := Builtins.definite_fits hf.shows.closed hf.shows.builtins (ht.fits.type.mono hle₂.outlook)
    exact (giveType_keeps (hvars _ List.mem_cons_self) hfits _ _).mono fun p₃ hle₃ _ hgiven =>
      coversOperand_var ht (hle₂.trans hle₃) hgiven

/-- What a condition consists of is reached. -/
structure ReachesCondition (f : State) (u : UnitId) (p : Progress) (c : Condition) : Prop where
  node : f.Reaches p.given u (.condition c)
  specifiers : ∀ v ∈ c.variables, ∀ x ∈ v.specifier, f.Reaches p.given u (.expr x)

/-- The variables of a condition are among its parts. -/
theorem mem_parts_of_variable {c : Condition} {v : Variable} (hv : v ∈ c.variables) :
    .variable v ∈ (Node.condition c).parts := by
  have hoperand : ∀ o : Operand, v ∈ o.variables → o.node = .variable v := by
    rintro (g | x) hv
    · exact congrArg Node.variable (List.mem_singleton.mp hv).symm
    · exact absurd hv List.not_mem_nil
  rw [Node.parts_condition]
  cases c with
  | boolean mark x => exact absurd hv List.not_mem_nil
  | «exists» mark operand => exact List.mem_singleton.mpr (hoperand operand hv).symm
  | nonempty mark operand => exact List.mem_singleton.mpr (hoperand operand hv).symm
  | is mark narrowed operand =>
    exact List.mem_cons_of_mem _ (List.mem_singleton.mpr (hoperand operand hv).symm)

/-- The variables of a condition are nodes of the unit. -/
theorem ReachesCondition.variable {c : Condition} (hc : ReachesCondition f u p c) {v : Variable}
    (hv : v ∈ c.variables) : f.HasNode u (.variable v) :=
  hc.node.has.part (mem_parts_of_variable hv)

/-- The operand of a condition is reached with the condition. -/
theorem reachesOperand (hf : f.Prepared ℓ) {c : Condition} (hc : ReachesCondition f u p c) {o : Operand}
    (hvariables : o.variables ⊆ c.variables) (hbeside : Node.ofOperand o ⊆ (Node.condition c).beside)
    (hpart : o.node ∈ (Node.condition c).parts) : ReachesOperand f u p o := by
  cases o with
  | var g => exact hc.specifiers g.variable (hvariables List.mem_cons_self) g.specifier rfl
  | value x => exact hc.node.beside hf.layout (hbeside List.mem_cons_self) hpart

theorem settles_condition (c : Condition) : p.Settles ℓ u (.condition c) :=
  fun h => absurd h Bool.false_ne_true

/-- Checking a condition covers it, and settles the variables that it declares. -/
theorem checkCondition_keeps (hf : f.Prepared ℓ) (c : Condition) (hc : ReachesCondition f u p c) :
    (checkCondition f u c).Keeps f ℓ u p fun p' _ =>
      p'.Covers ℓ u (.condition c) ∧ ∀ v ∈ c.variables, p'.Settles ℓ u (.variable v) := by
  cases c with
  | boolean mark x =>
    -- A test declares no variable: the operand alone is to be covered.
    have hx := hc.node.beside hf.layout (p := .expr x) List.mem_cons_self (by simp [Node.parts_condition])
    refine .bind (checkExpr_keeps hf x hx) fun p₁ hle₁ t ht => ?_
    refine (applyRule_keeps (P := fun _ _ => True) (checkBoolean_reportsAt ht.place) fun p' _ =>
      checkBoolean_keeps t).mono
      fun p₂ hle₂ _ _ => ⟨.of_parts (settles_condition _) ?_, List.forall_mem_nil _⟩
    simp [Node.parts_condition, ht.covers.mono hle₂]
  | «exists» mark operand =>
    have ho := reachesOperand hf hc (List.Subset.refl _) (List.Subset.refl _) (by simp [Node.parts_condition])
    refine (checkGuard_keeps hf (fun _ _ => checkOptional_keeps _) (fun _ => checkOptional_reportsAt) operand ho
      fun v hv => hc.variable hv).mono
      fun p' _ _ hcovers => ⟨.of_parts (settles_condition _) ?_, hcovers.2⟩
    simp [Node.parts_condition, hcovers.1]
  | nonempty mark operand =>
    have ho := reachesOperand hf hc (List.Subset.refl _) (List.Subset.refl _) (by simp [Node.parts_condition])
    refine (checkGuard_keeps hf (fun _ _ => checkContainer_keeps _) (fun _ => checkContainer_reportsAt) operand ho
      fun v hv => hc.variable hv).mono
      fun p' _ _ hcovers => ⟨.of_parts (settles_condition _) ?_, hcovers.2⟩
    simp [Node.parts_condition, hcovers.1]
  | is mark narrowed operand =>
    have ho := reachesOperand hf hc (List.Subset.refl _) (List.subset_cons_self _ _)
      (by simp [Node.parts_condition])
    -- Only a guard declares one, and the type it is narrowed to has been resolved.
    cases operand with
    | value x =>
      refine (discard_keeps (checkExpr_keeps hf x ho)).mono
        fun p' _ _ hchecked => ⟨.of_parts (settles_condition _) ?_, List.forall_mem_nil _⟩
      obtain ⟨t, ht⟩ := hchecked
      simp [Node.parts_condition, Operand.node, ht.covers, Progress.covers_type]
    | var g =>
      refine .bind (discard_keeps (checkExpr_keeps hf g.specifier ho)) fun p₁ hle₁ _ hchecked => ?_
      obtain ⟨t, ht⟩ := hchecked
      have hnarrowed := hc.node.beside hf.layout (p := .type narrowed) List.mem_cons_self
        (by simp [Node.parts_condition])
      obtain ⟨hrefs, hmissing⟩ := (hf.clear (hnarrowed.mono hle₁.given)).refs narrowed rfl
      have hfits : ((f.typeRef? u narrowed.mark).getD .unknown).Fits (p₁.outlook f ℓ) := by
        -- A type that was not resolved has been reported, so that missing it is allowed.
        cases href : f.typeRef? u narrowed.mark with
        | none => exact .missing (hmissing.resolve_right (by simp [href]))
        | some ty => exact .within (hrefs ty href)
      refine (giveType_keeps (hc.variable List.mem_cons_self) hfits _ _).mono fun p₂ hle₂ _ hgiven => ?_
      have hcovers := coversOperand_var ht hle₂ hgiven
      refine ⟨.of_parts (settles_condition _) ?_, hcovers.2⟩
      simp [Node.parts_condition, hcovers.1, Progress.covers_type]

/-- A loop variable that has been given its type. -/
theorem covers_loopVariable {v : LoopVariable} (h : p.Settles ℓ u (.variable v.variable)) :
    p.Covers ℓ u (.variable v.variable) :=
  covers_variable h nofun

/-- Checking an iteration covers it, and settles the variables that it declares. -/
theorem checkIteration_keeps (hf : f.Prepared ℓ) (i : Iteration)
    (hi : f.Reaches p.given u (.iteration i)) :
    (checkIteration f u i).Keeps f ℓ u p fun p' _ =>
      p'.Covers ℓ u (.iteration i) ∧ ∀ v ∈ i.variables, p'.Settles ℓ u (.variable v) := by
  cases i with
  | values mark var source =>
    have hx := hi.beside hf.layout (p := .expr source) List.mem_cons_self (by simp [Node.parts_iteration])
    refine .bind (checkExpr_keeps hf source hx) fun p₁ hle₁ t ht => ?_
    refine .bind (applyRule_keeps (P := fun p' r => r.1.Fits (p'.outlook f ℓ))
      (elementType_reportsAt ht.place).watched fun p' hle =>
        Rule.watched_keeps (elementType_keeps hf.shows (ht.fits.mono hle.outlook))) fun p₂ hle₂ r hr => ?_
    refine (giveType_keeps (hi.has.part (by simp [Node.parts_iteration])) hr _ _).mono fun p₃ hle₃ _ hgiven =>
      ⟨.of_parts nofun ?_, List.forall_mem_singleton.mpr hgiven⟩
    simp [Node.parts_iteration, covers_loopVariable hgiven, ht.covers.mono (hle₂.trans hle₃)]
  -- The entries need a type with a key and an item; where it has none, something has been reported.
  | entries mark key value source =>
    have hx := hi.beside hf.layout (p := .expr source) List.mem_cons_self (by simp [Node.parts_iteration])
    refine .bind (checkExpr_keeps hf source hx) fun p₁ hle₁ t ht => ?_
    refine .bind (applyRule_keeps (P := fun p' r => r.1.Fits (p'.outlook f ℓ) ∧
      (ℓ.blank ∨ (f.graph.hierarchy.supertype? r.1 f.builtins.entry).isSome))
      (entryType_reportsAt ht.place).watched fun p' hle =>
        Rule.watched_keeps (entryType_keeps hf.shows (ht.fits.mono hle.outlook))) fun p₂ hle₂ r hr => ?_
    obtain ⟨hkey, hitem⟩ := keyItem_fits hf.shows hr.1 hr.2
    refine .bind (giveType_keeps (hi.has.part (by simp [Node.parts_iteration])) hkey _ _) fun p₃ hle₃ _ hgiven => ?_
    refine (giveType_keeps (hi.has.part (by simp [Node.parts_iteration])) (hitem.mono hle₃.outlook) _ _).mono
      fun p₄ hle₄ _ hgiven' => ?_
    have hgiven := hgiven.mono hle₄
    refine ⟨.of_parts nofun ?_, List.forall_mem_cons.mpr ⟨hgiven, List.forall_mem_singleton.mpr hgiven'⟩⟩
    simp [Node.parts_iteration, covers_loopVariable hgiven, covers_loopVariable hgiven',
      ht.covers.mono (hle₂.trans (hle₃.trans hle₄))]

/-! ## Statements -/

/-- What a condition consists of is reached with the clause that it belongs to. -/
theorem reachesCondition (hf : f.Prepared ℓ) {n : Node} (hn : f.Reaches p.given u n)
    (hclause : n.isClause = true) {c : Condition} (hbeside : .condition c ∈ n.beside)
    (hpart : .condition c ∈ n.parts) (hwithin : ∀ v ∈ c.variables, .variable v ∈ n.within) :
    ReachesCondition f u p c where
  node := hn.beside hf.layout hbeside hpart
  specifiers v hv x hx := by
    refine hn.outside hf.layout hclause (hwithin v hv)
      ((hn.has.part hpart).part (mem_parts_of_variable hv)) (p := .expr x) ?_ ?_
    · exact List.mem_cons_of_mem _ (by simpa using hx)
    · rw [Node.parts_variable]
      exact List.mem_cons_of_mem _ (List.mem_cons_of_mem _ (by simpa using hx))

/-- A part of a tree has been dealt with, and the type of the last `return` fits. -/
structure Passed (f : State) (ℓ : Leeway) (u : UnitId) (n : Node) (p : Progress) (last : Option Ty) : Prop where
  last : LastFits (p.outlook f ℓ) last
  covers : p.Covers ℓ u n

/-- Checking what a statement returns covers it. -/
theorem checkReturn_keeps (hf : f.Prepared ℓ) (mode : Option ReturnMode) {last : Option Ty}
    (hlast : LastFits (p.outlook f ℓ) last) {mark : Mark} {x : Option Expr}
    (hs : f.Reaches p.given u (.stmt (.return mark x))) :
    (checkReturn f u mode last mark x).Keeps f ℓ u p (Passed f ℓ u (.stmt (.return mark x))) := by
  have hx : ∀ x' ∈ x, f.Reaches p.given u (.expr x') := by
    intro x' hx'
    have hpart : .expr x' ∈ (Node.stmt (.return mark x)).parts := by
      rw [Node.parts_return]
      exact List.mem_map_of_mem (by simpa using hx')
    exact hs.beside hf.layout hpart hpart
  have hcovers : ∀ {p' : Progress}, (∀ x' ∈ x, p'.Covers ℓ u (.expr x')) →
      p'.Covers ℓ u (.stmt (.return mark x)) := by
    refine fun hx => .of_parts nofun fun part hpart => ?_
    rw [Node.parts_return] at hpart
    obtain ⟨x', hx', rfl⟩ := List.mem_map.mp hpart
    exact hx x' (by simpa using hx')
  -- A value is in place or not, and the body may return one or not.
  unfold checkReturn
  dsimp only
  split
  · refine .bind (applyRule_keeps (P := fun _ _ => True) (.reportAt hs.has _) fun _ _ =>
      (Rule.reportAt_keeps _ _).mono fun _ _ => trivial) fun p₁ hle₁ _ _ => ?_
    refine .bind (checkOption_keeps hf x fun x' hx' => (hx x' hx').mono hle₁.given) fun p₂ hle₂ _ hxs => ?_
    exact .pure ⟨hlast.mono (hle₁.trans hle₂).outlook, hcovers hxs⟩
  · exact .pure ⟨hlast, hcovers nofun⟩
  · exact .pure ⟨.of_fits (plain_fits hf.shows (by simp [Builtins.simple])), hcovers nofun⟩
  · refine .bind (applyRule_keeps (P := fun _ _ => True) (.reportAt hs.has _) fun _ _ =>
      (Rule.reportAt_keeps _ _).mono fun _ _ => trivial) fun p₁ hle₁ _ _ => ?_
    exact .pure ⟨hlast.mono hle₁.outlook, hcovers nofun⟩
  · next mode x =>
    refine .bind (checkExpr_keeps hf x (hx x rfl)) fun p₁ hle₁ t ht => ?_
    refine (applyRule_keeps (P := fun p' => LastFits (p'.outlook f ℓ))
      (checkReturned_reportsAt mode _ ht.place) fun p' hle => checkReturned_keeps mode
      (hlast.mono (hle₁.trans hle).outlook) (ht.fits.mono hle.outlook)).mono fun p₂ hle₂ _ hlast => ⟨hlast, ?_⟩
    exact hcovers fun x' hx' => Option.some.inj hx' ▸ ht.covers.mono hle₂

/-- Leaving a task to itself. -/
theorem visit_keeps (task : Task) {last : Option Ty} (hlast : LastFits (p.outlook f ℓ) last)
    (hs : f.Reaches p.given u task.node) (htask : task.node.isTask = true) :
    Check.Keeps f ℓ u p (do visit task; return last) (Passed f ℓ u task.node) := by
  refine .bind (.ask ⟨hs, htask⟩ fun p₁ _ _ hbegun => hbegun) fun p₁ hle₁ _ hbegun =>
    .pure ⟨hlast.mono hle₁.outlook, ?_⟩
  exact Progress.covers_of_begun htask (task.mark_node ▸ hbegun)

mutual

/-- Checking a statement keeps to the contract. -/
theorem checkStmt_keeps (hf : f.Prepared ℓ) (mode : Option ReturnMode) : (s : Stmt) → {p : Progress} →
    {last : Option Ty} → f.Reaches p.given u (.stmt s) → LastFits (p.outlook f ℓ) last →
    (checkStmt f u mode last s).Keeps f ℓ u p (Passed f ℓ u (.stmt s))
  | .classDecl d, p, last, hs, hlast => by
    -- Classes, methods, attributes, getters and setters are tasks of their own, to be visited here.
    rw [checkStmt]
    exact visit_keeps (.ofClass d) hlast hs rfl
  | .interfaceDecl { mark, annotations, name, typeParams, satisfied, body }, p, last, hs, hlast => by
    rw [checkStmt]
    have hparts := Node.parts_interfaceDecl { mark, annotations, name, typeParams, satisfied, body }
    have hbody := hs.within hf.layout rfl (p := .block body) (by simp [Node.within])
    refine .bind (discard_keeps (checkBlock_keeps hf none body hbody lastFits_none)) fun p₁ hle₁ _ hpassed => ?_
    obtain ⟨_, hpassed⟩ := hpassed
    refine .pure ⟨hlast.mono hle₁.outlook, .of_parts nofun ?_⟩
    -- The type parameters of an interface are inert.
    have htypeParams : ∀ tp : TypeParameter, p₁.Covers ℓ u (.typeParameter tp) :=
      fun tp => Progress.covers_of_isInert rfl
    simp [hparts, or_imp, forall_and, hpassed.covers, Progress.covers_name, Progress.covers_type, htypeParams]
  | .method d, p, last, hs, hlast => by
    rw [checkStmt]
    exact visit_keeps (.method d) hlast hs rfl
  | .attribute d, p, last, hs, hlast => by
    rw [checkStmt]
    exact visit_keeps (.attribute d) hlast hs rfl
  | .getter d, p, last, hs, hlast => by
    rw [checkStmt]
    exact visit_keeps (.getter d) hlast hs rfl
  | .setter d, p, last, hs, hlast => by
    rw [checkStmt]
    exact visit_keeps (.setter d) hlast hs rfl
  | .expr mark x, p, last, hs, hlast => by
    rw [checkStmt]
    have hparts := Node.parts_exprStmt mark x
    have hx := hs.beside hf.layout (p := .expr x) (by simp [Node.beside, hparts]) (by simp [hparts])
    refine .bind (discard_keeps (checkExpr_keeps hf x hx)) fun p₁ hle₁ _ ⟨t, ht⟩ => ?_
    refine .pure ⟨hlast.mono hle₁.outlook, .of_parts nofun ?_⟩
    simp [hparts, ht.covers]
  | .return mark x, p, last, hs, hlast => by
    rw [checkStmt]
    exact checkReturn_keeps hf mode hlast hs
  | .break mark, p, last, hs, hlast => .pure ⟨hlast, .of_parts nofun (List.forall_mem_nil _)⟩
  | .continue mark, p, last, hs, hlast => .pure ⟨hlast, .of_parts nofun (List.forall_mem_nil _)⟩
  | .ifElse s, p, last, hs, hlast => by
    rw [checkStmt]
    exact checkIf_keeps hf mode s hs hlast
  | .while mark { mark := clauseMark, cond, body }, p, last, hs, hlast => by
    -- The variables of the condition are settled before the body, which may use them.
    rw [checkStmt]
    have hparts := Node.parts_while mark { mark := clauseMark, cond, body }
    have hparts' := Node.parts_whileClause { mark := clauseMark, cond, body }
    have hclause := hs.beside hf.layout (p := .whileClause { mark := clauseMark, cond, body })
      (by simp [Node.beside, hparts]) (by simp [hparts])
    refine .bind (checkCondition_keeps hf cond (reachesCondition hf hclause rfl (by simp [Node.beside])
      (by simp [hparts']) (by simp [Node.within]))) fun p₁ hle₁ _ hcond => ?_
    have hbody := (hclause.mono hle₁.given).body hf.layout rfl hcond.2 (p := .block body)
      (by simp [Node.within]) (by simp [hparts'])
    refine (checkBlock_keeps hf mode body hbody (hlast.mono hle₁.outlook)).mono fun p₂ hle₂ _ hpassed => ?_
    refine ⟨hpassed.last, .of_parts nofun ?_⟩
    rw [hparts]
    refine List.forall_mem_singleton.mpr (.of_parts nofun ?_)
    simp [hparts', hcond.1.mono hle₂, hpassed.covers]
  | .for mark { mark := clauseMark, iteration, body } fail, p, last, hs, hlast => by
    rw [checkStmt]
    have hparts := Node.parts_for mark { mark := clauseMark, iteration, body } fail
    have hparts' := Node.parts_forClause { mark := clauseMark, iteration, body }
    have hclause := hs.beside hf.layout (p := .forClause { mark := clauseMark, iteration, body })
      (by simp [Node.beside, hparts]) (by simp [hparts])
    have hiteration := hclause.beside hf.layout (p := .iteration iteration) (by simp [Node.beside])
      (by simp [hparts'])
    refine .bind (checkIteration_keeps hf iteration hiteration) fun p₁ hle₁ _ hiter => ?_
    have hbody := (hclause.mono hle₁.given).body hf.layout rfl hiter.2 (p := .block body)
      (by simp [Node.within]) (by simp [hparts'])
    refine .bind (checkBlock_keeps hf mode body hbody (hlast.mono hle₁.outlook)) fun p₂ hle₂ _ hpassed => ?_
    -- A clause behind the loop goes on with the last type that the body leaves.
    refine (checkFail_keeps hf mode fail (fun c hc => ?_) hpassed.last).mono fun p₃ hle₃ _ hfail => ?_
    · have hpart : .failClause c ∈ (Node.stmt (.for mark { mark := clauseMark, iteration, body } fail)).parts := by
        rw [hparts]
        exact List.mem_cons_of_mem _ (List.mem_map_of_mem (by simpa using hc))
      exact (hs.beside hf.layout hpart hpart).mono (hle₁.trans hle₂).given
    · refine ⟨hfail.1, .of_parts nofun ?_⟩
      rw [hparts]
      refine List.forall_mem_cons.mpr ⟨.of_parts nofun ?_, fun part hpart => ?_⟩
      · simp [hparts', hiter.1.mono (hle₂.trans hle₃), hpassed.covers.mono hle₃]
      · obtain ⟨c, hc, rfl⟩ := List.mem_map.mp hpart
        exact hfail.2 c (by simpa using hc)

/-- Checking statements one after another covers them. -/
theorem checkStmts_keeps (hf : f.Prepared ℓ) (mode : Option ReturnMode) : (ss : List Stmt) →
    {p : Progress} → {last : Option Ty} → (∀ s ∈ ss, f.Reaches p.given u (.stmt s)) →
    LastFits (p.outlook f ℓ) last → (checkStmts f u mode last ss).Keeps f ℓ u p fun p' last =>
      LastFits (p'.outlook f ℓ) last ∧ ∀ s ∈ ss, p'.Covers ℓ u (.stmt s)
  | [], p, last, _, hlast => .pure ⟨hlast, List.forall_mem_nil _⟩
  | s :: ss, p, last, hss, hlast => by
    rw [checkStmts]
    refine .bind (checkStmt_keeps hf mode s (hss s List.mem_cons_self) hlast) fun p₁ hle₁ _ hs => ?_
    refine (checkStmts_keeps hf mode ss (fun s' hs' => (hss s' (List.mem_cons_of_mem s hs')).mono hle₁.given)
      hs.last).mono fun p₂ hle₂ _ hrest => ⟨hrest.1, ?_⟩
    exact List.forall_mem_cons.mpr ⟨hs.covers.mono hle₂, hrest.2⟩

/-- Checking a block covers it. -/
theorem checkBlock_keeps (hf : f.Prepared ℓ) (mode : Option ReturnMode) : (b : Block) → {p : Progress} →
    {last : Option Ty} → f.Reaches p.given u (.block b) → LastFits (p.outlook f ℓ) last →
    (checkBlock f u mode last b).Keeps f ℓ u p (Passed f ℓ u (.block b))
  | { mark, stmts, close }, p, last, hb, hlast => by
    rw [checkBlock]
    have hparts := Node.parts_block { mark, stmts, close }
    refine (checkStmts_keeps hf mode stmts (fun s hs => hb.beside hf.layout (by simp [Node.beside, hparts, hs])
      (by simp [hparts, hs])) hlast).mono fun p₁ hle₁ _ hstmts => ⟨hstmts.1, .of_parts nofun ?_⟩
    simpa [hparts] using hstmts.2

/-- Checking a conditional statement covers it, with its alternative. -/
theorem checkIf_keeps (hf : f.Prepared ℓ) (mode : Option ReturnMode) : (s : IfStmt) → {p : Progress} →
    {last : Option Ty} → f.Reaches p.given u (.stmt (.ifElse s)) → LastFits (p.outlook f ℓ) last →
    (checkIf f u mode last s).Keeps f ℓ u p (Passed f ℓ u (.stmt (.ifElse s)))
  | { mark, clause := { mark := clauseMark, cond, body }, alternative }, p, last, hs, hlast => by
    rw [checkIf]
    have hparts := Node.parts_ifElse { mark, clause := { mark := clauseMark, cond, body }, alternative }
    have hparts' := Node.parts_ifClause { mark := clauseMark, cond, body }
    have hclause := hs.beside hf.layout (p := .ifClause { mark := clauseMark, cond, body })
      (by simp [Node.beside, hparts]) (by simp [hparts])
    refine .bind (checkCondition_keeps hf cond (reachesCondition hf hclause rfl (by simp [Node.beside])
      (by simp [hparts']) (by simp [Node.within]))) fun p₁ hle₁ _ hcond => ?_
    -- What the condition declares has been given its type, so the body may mention it.
    have hbody := (hclause.mono hle₁.given).body hf.layout rfl hcond.2 (p := .block body)
      (by simp [Node.within]) (by simp [hparts'])
    refine .bind (checkBlock_keeps hf mode body hbody (hlast.mono hle₁.outlook)) fun p₂ hle₂ _ hpassed => ?_
    refine (checkElse_keeps hf mode alternative (fun e he => ?_) hpassed.last).mono fun p₃ hle₃ _ helse => ?_
    · have hpart : .elseClause e ∈ (Node.stmt (.ifElse
          { mark, clause := { mark := clauseMark, cond, body }, alternative })).parts := by
        rw [hparts]
        exact List.mem_cons_of_mem _ (List.mem_map_of_mem (by simpa using he))
      exact (hs.beside hf.layout hpart hpart).mono (hle₁.trans hle₂).given
    · -- The parts of the statement are its clause, whose parts have been covered, and the alternative.
      refine ⟨helse.1, .of_parts nofun ?_⟩
      rw [hparts]
      refine List.forall_mem_cons.mpr ⟨.of_parts nofun ?_, fun part hpart => ?_⟩
      · simp [hparts', hcond.1.mono (hle₂.trans hle₃), hpassed.covers.mono hle₃]
      · obtain ⟨e, he, rfl⟩ := List.mem_map.mp hpart
        exact helse.2 e (by simpa using he)

/-- Checking the alternative of a conditional statement covers it, if there is one. -/
theorem checkElse_keeps (hf : f.Prepared ℓ) (mode : Option ReturnMode) : (e : Option ElseClause) →
    {p : Progress} → {last : Option Ty} → (∀ c ∈ e, f.Reaches p.given u (.elseClause c)) →
    LastFits (p.outlook f ℓ) last → (checkElse f u mode last e).Keeps f ℓ u p fun p' last =>
      LastFits (p'.outlook f ℓ) last ∧ ∀ c ∈ e, p'.Covers ℓ u (.elseClause c)
  | none, p, last, _, hlast => .pure ⟨hlast, nofun⟩
  | some (.block mark b), p, last, he, hlast => by
    rw [checkElse]
    have hparts := Node.parts_else mark b
    have hbody := (he _ rfl).body hf.layout rfl nofun (p := .block b) (by simp [Node.within]) (by simp [hparts])
    refine (checkBlock_keeps hf mode b hbody hlast).mono fun p₁ hle₁ _ hpassed => ⟨hpassed.last, ?_⟩
    rintro _ ⟨rfl⟩
    refine .of_parts nofun ?_
    simp [hparts, hpassed.covers]
  | some (.ifElse mark s), p, last, he, hlast => by
    rw [checkElse]
    have hparts := Node.parts_elseIf mark s
    have hs := (he _ rfl).beside hf.layout (p := .stmt (.ifElse s)) (by simp [Node.beside, hparts])
      (by simp [hparts])
    refine (checkIf_keeps hf mode s hs hlast).mono fun p₁ hle₁ _ hpassed => ⟨hpassed.last, ?_⟩
    rintro _ ⟨rfl⟩
    refine .of_parts nofun ?_
    simp [hparts, hpassed.covers]

/-- Checking the clause behind a loop covers it, if there is one. -/
theorem checkFail_keeps (hf : f.Prepared ℓ) (mode : Option ReturnMode) : (e : Option FailClause) →
    {p : Progress} → {last : Option Ty} → (∀ c ∈ e, f.Reaches p.given u (.failClause c)) →
    LastFits (p.outlook f ℓ) last → (checkFail f u mode last e).Keeps f ℓ u p fun p' last =>
      LastFits (p'.outlook f ℓ) last ∧ ∀ c ∈ e, p'.Covers ℓ u (.failClause c)
  | none, p, last, _, hlast => .pure ⟨hlast, nofun⟩
  | some { mark, body }, p, last, he, hlast => by
    rw [checkFail]
    have hparts := Node.parts_failClause { mark, body }
    have hbody := (he _ rfl).body hf.layout rfl nofun (p := .block body) (by simp [Node.within])
      (by simp [hparts])
    refine (checkBlock_keeps hf mode body hbody hlast).mono fun p₁ hle₁ _ hpassed => ⟨hpassed.last, ?_⟩
    rintro _ ⟨rfl⟩
    refine .of_parts nofun ?_
    simp [hparts, hpassed.covers]

end

/-! ## Tasks -/

/-- Checking the default argument of a parameter covers the parameter. -/
theorem checkDefault_keeps (hf : f.Prepared ℓ) (q : Parameter) (hq : f.Reaches p.given u (.parameter q)) :
    (checkDefault f u q).Keeps f ℓ u p fun p' _ => p'.Covers ℓ u (.parameter q) := by
  have hcovers : ∀ {p' : Progress}, (∀ x ∈ q.default, p'.Covers ℓ u (.expr x)) →
      p'.Covers ℓ u (.parameter q) := by
    refine fun hx => .of_parts nofun fun part hpart => ?_
    rw [Node.parts_parameter] at hpart
    rcases List.mem_cons.mp hpart with rfl | hpart
    · exact Progress.covers_type q.type
    · rcases List.mem_cons.mp hpart with rfl | hpart
      · exact Progress.covers_name q.name
      · obtain ⟨x, hx', rfl⟩ := List.mem_map.mp hpart
        exact hx x (by simpa using hx')
  unfold checkDefault
  split
  · next hnone => exact .pure (hcovers fun x hx => absurd (hnone.symm.trans hx) nofun)
  · next x hx =>
    -- A default stands within the parameter, where the parameters before it are in sight.
    have hreach := hq.within hf.layout rfl (p := .expr x) (by simp [Node.within, hx])
    refine .bind (checkExpr_keeps hf x hreach) fun p₁ hle₁ t ht => ?_
    refine (applyRule_keeps (P := fun _ _ => True) (assignable_reportsAt _ _ hreach.has _) fun _ _ =>
      Rule.assignable_keeps _ _ _ _).mono
      fun p₂ hle₂ _ _ => hcovers fun x' hx' => ?_
    exact Option.some.inj (hx.symm.trans hx') ▸ ht.covers.mono hle₂

/-- Checking default arguments covers the parameters. -/
theorem checkDefaults_keeps (hf : f.Prepared ℓ) (ps : List Parameter)
    (hps : ∀ q ∈ ps, f.Reaches p.given u (.parameter q)) :
    (checkDefaults f u ps).Keeps f ℓ u p fun p' _ => ∀ q ∈ ps, p'.Covers ℓ u (.parameter q) := by
  induction ps generalizing p with
  | nil => exact .pure (List.forall_mem_nil _)
  | cons q ps ih =>
    refine .bind (checkDefault_keeps hf q (hps q List.mem_cons_self)) fun p₁ hle₁ _ hq => ?_
    refine (ih fun q' hq' => (hps q' (List.mem_cons_of_mem q hq')).mono hle₁.given).mono fun p₂ hle₂ _ hps => ?_
    exact List.forall_mem_cons.mpr ⟨hq.mono hle₂, hps⟩

/-- The parameters of a declaration, with their default values. -/
theorem checkParameters_keeps (hf : f.Prepared ℓ) (list : ParameterList)
    (hlist : f.Reaches p.given u (.parameterList list)) :
    (checkDefaults f u list.params).Keeps f ℓ u p fun p' _ => p'.Covers ℓ u (.parameterList list) := by
  have hparts := Node.parts_parameterList list
  refine (checkDefaults_keeps hf list.params fun q hq => hlist.beside hf.layout
    (by simp [Node.beside, hparts, hq]) (by simp [hparts, hq])).mono fun p₁ _ _ hps => .of_parts nofun ?_
  simpa [hparts] using hps

/-- Checking an extended type covers it. -/
theorem checkExtended_keeps (hf : f.Prepared ℓ) (m : Mark) (e : Option ExtendedType)
    (he : ∀ e' ∈ e, f.Reaches p.given u (.extendedType e')) :
    (checkExtended f u m e).Keeps f ℓ u p fun p' _ => ∀ e' ∈ e, p'.Covers ℓ u (.extendedType e') := by
  cases e with
  | none => exact .pure nofun
  | some e =>
    have hargs : ∀ x ∈ e.args.args, f.Reaches p.given u (.expr x) := by
      intro x hx
      refine (he e rfl).all hf.layout rfl _ (Node.all_of_part (p := .positionalArgs e.args) ?_
        (Node.all_of_part (p := .expr x) ?_ (Node.mem_all _)))
      · simp [Node.parts_extendedType]
      · simp [Node.parts_positionalArgs, hx]
    refine .bind (checkExprs_keeps hf e.args.args hargs) fun p₁ hle₁ ts hts => ?_
    -- the type is settled and the arguments are covered as soon as they are checked
    have hcovers : ∀ p' : Progress, p₁.Le p' → ∀ e' ∈ some e, p'.Covers ℓ u (.extendedType e') := by
      rintro p' hle _ ⟨rfl⟩
      refine .of_parts nofun ?_
      simp only [Node.parts_extendedType, List.forall_mem_cons, Progress.covers_type, true_and]
      refine ⟨.of_parts nofun ?_, List.forall_mem_nil _⟩
      simpa [Node.parts_positionalArgs] using fun x hx => (hts.2.1 x hx).mono hle
    split
    · exact .pure (hcovers p₁ (.refl p₁))
    · split
      · have hplaces : (TypedArguments.positional e.args ts).At (f.HasNode u) :=
          ⟨(he e rfl).has.part (by simp [Node.parts_extendedType]), hts.2.2⟩
        exact (applyRule_keeps (P := fun _ _ => True) (matchArguments_reportsAt _ hplaces _) fun _ _ =>
          matchArguments_keeps _ _ _).mono
          fun p₂ hle₂ _ _ => hcovers p₂ hle₂
      · exact .pure (hcovers p₁ (.refl p₁))

/-- The setter made from a node has a getter. -/
def State.HasGetter (f : State) (u : UnitId) (m : Mark) : Prop :=
  ∃ d t g, f.decls[(⟨u, m.id⟩ : NodeId)]? = some d ∧ (f.graph.decl d).shape = .setter t (some g)

/-- A task that has been performed has dealt with all parts of its node, and the type that it gives its
declaration fits. -/
structure Finished (f : State) (ℓ : Leeway) (u : UnitId) (task : Task) (p : Progress) (t : Ty) : Prop where
  type : task.givesType = true → t.Fits (p.outlook f ℓ)
  covers : ∀ part ∈ task.node.parts, p.Covers ℓ u part
  getter : ∀ d, task = .setter d → ℓ.lax ∨ f.HasGetter u d.mark

theorem Finished.mono {task : Task} {t : Ty} (h : Finished f ℓ u task p t) {p' : Progress} (hle : p.Le p') :
    Finished f ℓ u task p' t :=
  ⟨fun hgives => (h.type hgives).mono hle.outlook, fun part hpart => (h.covers part hpart).mono hle, h.getter⟩

/-- A task that gives no type has only to deal with the parts of its node. -/
theorem Finished.of_covers {task : Task} {t : Ty} (htype : task.givesType = false)
    (hcovers : ∀ part ∈ task.node.parts, p.Covers ℓ u part) (hsetter : ∀ d, task ≠ .setter d) :
    Finished f ℓ u task p t :=
  ⟨fun hgives => absurd (htype.symm.trans hgives) Bool.false_ne_true, hcovers,
    fun d hd => absurd hd (hsetter d)⟩

/-- What a declaration returns is inferred just where its type is. -/
theorem returnMode_eq_infer (f : State) (u : UnitId) (m : Mark) (t : DeclaredType) :
    returnMode f u m t = .infer ↔ t.isInferred = true := by
  cases t <;> simp [returnMode, DeclaredType.isInferred]

/-- An attribute is finished when it has been checked. -/
theorem checkAttribute_keeps (hf : f.Prepared ℓ) (d : AttributeDecl)
    (hd : f.Reaches p.given u (.stmt (.attribute d))) :
    (checkAttribute f u d).Keeps f ℓ u p (Finished f ℓ u (.attribute d)) := by
  have hparts := Node.parts_attribute d
  have hcovers : ∀ {p' : Progress}, (∀ x ∈ d.init.expr?, p'.Covers ℓ u (.expr x)) →
      ∀ part ∈ (Task.attribute d).node.parts, p'.Covers ℓ u part := by
    intro p' hx part hpart
    rw [Task.node, hparts] at hpart
    rcases List.mem_cons.mp hpart with rfl | hpart
    · exact Progress.covers_declaredType d.type
    · rcases List.mem_cons.mp hpart with rfl | hpart
      · exact Progress.covers_name d.name
      · obtain ⟨x, hx', rfl⟩ := List.mem_map.mp hpart
        exact hx x (by simpa using hx')
  have hname : f.HasNode u (.name d.name) := hd.has.part (by simp [hparts])
  have hsetter : ∀ d', Task.attribute d = .setter d' → ℓ.lax ∨ f.HasGetter u d'.mark := by simp
  unfold checkAttribute
  split
  · next hnone =>
    -- without an initialiser there is nothing to infer from, so an inferred type is missing and that is
    -- reported
    have hx : ∀ {p' : Progress}, ∀ x ∈ d.init.expr?, p'.Covers ℓ u (.expr x) := fun x hx =>
      absurd hnone (Option.ne_none_iff_exists'.mpr ⟨x, hx⟩)
    dsimp only
    split
    · refine .bind (applyRule_keeps (P := fun _ _ => ℓ.blank) (requireInferred_reportsAt hname _ _) fun _ _ =>
        requireNothing_keeps d.name)
        fun p₁ _ _ hblank => .pure ⟨fun _ => .missing hblank, hcovers hx, hsetter⟩
    · next hdeclared => exact .pure ⟨fun h => absurd h hdeclared, hcovers hx, hsetter⟩
  · next x hx =>
    have hreach := hd.beside hf.layout (p := .expr x) (by simp [Node.beside, hx]) (by simp [hparts, hx])
    refine .bind (checkExpr_keeps hf x hreach) fun p₁ hle₁ t ht => ?_
    have hx' : ∀ {p' : Progress}, p₁.Le p' → ∀ x' ∈ d.init.expr?, p'.Covers ℓ u (.expr x') :=
      fun hle x' hx' => Option.some.inj (hx.symm.trans hx') ▸ ht.covers.mono hle
    split
    · refine .bind (applyRule_keeps (P := fun _ _ => True) (requireInferred_reportsAt hname _ _) fun _ _ =>
        requireInferred_keeps d.name _ _)
        fun p₂ hle₂ _ _ => .pure ⟨fun _ => (ht.fits.mono hle₂.outlook).type, hcovers (hx' hle₂), hsetter⟩
    · next hdeclared =>
      refine .bind (applyRule_keeps (P := fun _ _ => True) (assignable_reportsAt _ _ hreach.has _) fun _ _ =>
        Rule.assignable_keeps _ _ _ _)
        fun p₂ hle₂ _ _ => .pure ⟨fun h => absurd h hdeclared, hcovers (hx' hle₂), hsetter⟩

/-- Checking the body of a method covers it, and finds a type where it is to be inferred. -/
theorem checkMethodBody_keeps (hf : f.Prepared ℓ) {name : Name} (hname : f.HasNode u (.name name))
    (mode : ReturnMode) (body : MethodBody)
    (hbody : ∀ part ∈ body.nodes, f.Reaches p.given u part) :
    (checkMethodBody f u name mode body).Keeps f ℓ u p fun p' t =>
      (mode = .infer → t.Fits (p'.outlook f ℓ)) ∧ ∀ part ∈ body.nodes, p'.Covers ℓ u part := by
  -- A method without a body has nothing to infer from. A block gives its returns, an expression its type.
  cases body with
  | absent =>
    cases mode with
    | void => exact .pure ⟨nofun, List.forall_mem_nil _⟩
    | «infer» =>
      exact .bind (applyRule_keeps (P := fun _ _ => ℓ.blank) (requireInferred_reportsAt hname _ _) fun _ _ =>
        requireNothing_keeps name)
        fun p₁ _ _ hblank => .pure ⟨fun _ => .missing hblank, List.forall_mem_nil _⟩
    | expect expected => exact .pure ⟨nofun, List.forall_mem_nil _⟩
  | block b =>
    refine .bind (checkBlock_keeps hf (some mode) b (hbody _ List.mem_cons_self) lastFits_none)
      fun p₁ hle₁ last hpassed => ?_
    refine (applyRule_keeps (P := fun p' t => mode = .infer → t.Fits (p'.outlook f ℓ))
      (inferReturned_reportsAt hname mode last) fun p' hle =>
      inferReturned_keeps hf.shows name mode (hpassed.last.mono hle.outlook)).mono fun p₂ hle₂ t ht => ⟨ht, ?_⟩
    exact List.forall_mem_singleton.mpr (hpassed.covers.mono hle₂)
  | computed x =>
    refine .bind (checkExpr_keeps hf x (hbody _ List.mem_cons_self)) fun p₁ hle₁ t ht => ?_
    have hcovers : ∀ p' : Progress, p₁.Le p' → ∀ part ∈ (MethodBody.computed x).nodes, p'.Covers ℓ u part :=
      fun p' hle => List.forall_mem_singleton.mpr (ht.covers.mono hle)
    cases mode with
    | void => exact .pure ⟨nofun, hcovers p₁ (.refl p₁)⟩
    | «infer» =>
      exact .bind (applyRule_keeps (P := fun _ _ => True) (requireInferred_reportsAt hname _ _) fun _ _ =>
        requireInferred_keeps name _ _)
        fun p₂ hle₂ _ _ => .pure ⟨fun _ => (ht.fits.mono hle₂.outlook).type, hcovers p₂ hle₂⟩
    | expect expected =>
      exact .bind (applyRule_keeps (P := fun _ _ => True)
        (assignable_reportsAt _ _ (hbody _ List.mem_cons_self).has _) fun _ _ => Rule.assignable_keeps _ _ _ _)
        fun p₂ hle₂ _ _ => .pure ⟨nofun, hcovers p₂ hle₂⟩

/-- A setter has the type of its getter; one without a getter is reported. -/
theorem setterType_keeps (hf : f.Prepared ℓ) (d : SetterDecl)
    (hd : f.Reaches p.given u (.stmt (.setter d))) :
    (applyRule (setterType f u d)).Keeps f ℓ u p fun p' t =>
      t.Fits (p'.outlook f ℓ) ∧ (ℓ.lax ∨ f.HasGetter u d.mark) := by
  have hname : f.HasNode u (.name d.name) := hd.has.part (by simp [Node.parts_setter])
  unfold setterType
  split
  · next getter hgetter =>
    -- The setter that stands here has a getter, which was found when it was bound.
    obtain ⟨s, hs, hgetter⟩ := Option.bind_eq_some_iff.mp hgetter
    obtain ⟨t, hshape⟩ : ∃ t, (f.graph.decl s).shape = .setter t (some getter) := by
      split at hgetter
      · next t g hshape => exact ⟨t, by rw [hshape, hgetter]⟩
      · cases hgetter
    obtain ⟨c, hstands, -, hlaid⟩ := hf.layout.placed u _ hd.has
    obtain ⟨s', hdeclares, -⟩ := hlaid.declared rfl
    obtain rfl : s' = s := Option.some.inj (hdeclares.listed.symm.trans hs)
    have hin := hf.layout.grounded.getters s' hdeclares.valid t getter hshape
    have hscope := hin.scope.trans hdeclares.scope
    have htyped : (f.graph.decl getter).shape.isTyped = true := by
      have hkind := hin.kind
      cases hgshape : (f.graph.decl getter).shape <;> simp_all [Shape.kind, Shape.isTyped, Shape.isType]
    refine applyRule_keeps (typeOfDecl_reportsAt _ hname) fun p' hle => ?_
    -- Both stand in one scope, so the getter is in sight where the setter is.
    have hsees : (p'.outlook f ℓ).sees getter :=
      ⟨hin.valid, fun b hb => (hd.mono hle.given).entered c hstands b (hscope ▸ hb)⟩
    exact (Rule.typeOfDecl_keeps hsees htyped _).mono fun t' ht' => ⟨ht', .inr ⟨s', t, getter, hs, hshape⟩⟩
  · exact ⟨⟨trivial, hname⟩, fun p₁ _ _ hlax => ⟨.missing (ℓ.blank_of_lax hlax), .inl hlax⟩⟩

/-- Performing a task keeps to the contract and leaves nothing undone. -/
theorem Task.check_keeps (hf : f.Prepared ℓ) (task : Task) (htask : f.Reaches p.given u task.node) :
    (task.check f u).Keeps f ℓ u p (Finished f ℓ u task) := by
  cases task with
  | unit tree =>
    have hparts := Node.parts_unit tree
    refine .bind (discard_keeps (checkStmts_keeps hf none tree.body (fun s hs => ?_) lastFits_none))
      -- Imports and the header of a module are inert, which leaves the statements.
      fun p₁ hle₁ _ hpassed => .pure (.of_covers rfl (fun part hpart => ?_) (by simp))
    · exact htask.beside hf.layout (by simp [Task.node, Node.beside, hparts, hs])
        (by simp [Task.node, hparts, hs])
    · rw [Task.node, hparts] at hpart
      rcases List.mem_append.mp hpart with hpart | hpart
      · refine Progress.covers_of_isInert ?_
        rcases List.mem_append.mp hpart with hpart | hpart <;> obtain ⟨_, -, rfl⟩ := List.mem_map.mp hpart <;> rfl
      · obtain ⟨_, _, hstmts⟩ := hpassed
        obtain ⟨s, hs, rfl⟩ := List.mem_map.mp hpart
        exact hstmts s hs
  | ofClass d =>
    have hparts := Node.parts_classDecl d
    have hwithin : ∀ {part : Node}, part ∈ (Node.stmt (.classDecl d)).within → ∀ {p' : Progress}, p.Le p' →
        f.Reaches p'.given u part := fun hpart p' hle =>
      (htask.within hf.layout rfl hpart).mono hle.given
    -- Parameters, extended type and body are checked in turn, each at the stage of the one before.
    refine .bind (checkParameters_keeps hf d.params (hwithin (by simp [Node.within]) (.refl p)))
      fun p₁ hle₁ _ hparams => ?_
    refine .bind (checkExtended_keeps hf d.mark d.extended fun e he =>
      hwithin (by simp [Node.within, Option.mem_def.mp he]) hle₁) fun p₂ hle₂ _ hextended => ?_
    refine .bind (discard_keeps (checkBlock_keeps hf (some .void) d.body
      (hwithin (by simp [Node.within]) (hle₁.trans hle₂)) lastFits_none)) fun p₃ hle₃ _ hbody => ?_
    obtain ⟨_, hpassed⟩ := hbody
    refine .pure (.of_covers rfl ?_ (by simp))
    have htypeParams : ∀ tp : TypeParameter, p₃.Covers ℓ u (.typeParameter tp) :=
      fun tp => Progress.covers_of_isInert rfl
    have hextended' : ∀ e, d.extended = some e → p₃.Covers ℓ u (.extendedType e) :=
      fun e he => (hextended e he).mono hle₃
    simpa [Task.node, hparts, or_imp, forall_and, Progress.covers_name, Progress.covers_type, htypeParams,
      hparams.mono (hle₂.trans hle₃), hpassed.covers] using hextended'
  | method d =>
    have hparts := Node.parts_method d
    have hname : f.HasNode u (.name d.name) := htask.has.part (by simp [Task.node, hparts])
    have hwithin : ∀ {part : Node}, part ∈ (Node.stmt (.method d)).within → ∀ {p' : Progress}, p.Le p' →
        f.Reaches p'.given u part := fun hpart p' hle =>
      (htask.within hf.layout rfl hpart).mono hle.given
    refine .bind (checkParameters_keeps hf d.params (hwithin (by simp [Node.within]) (.refl p)))
      fun p₁ hle₁ _ hparams => ?_
    refine (checkMethodBody_keeps hf hname (returnMode f u d.mark d.type) d.body fun part hpart =>
      hwithin (by simp [Node.within, hpart]) hle₁).mono fun p₂ hle₂ t ht => ⟨fun h => ht.1 ?_, ?_, by simp⟩
    · -- Its own type is inferred only if none is written.
      exact (returnMode_eq_infer ..).mpr h
    · have htypeParams : ∀ tp : TypeParameter, p₂.Covers ℓ u (.typeParameter tp) :=
        fun tp => Progress.covers_of_isInert rfl
      have hnodes := ht.2
      simpa [Task.node, hparts, or_imp, forall_and, Progress.covers_name, Progress.covers_declaredType,
        htypeParams, hparams.mono hle₂] using hnodes
  | «attribute» d => exact checkAttribute_keeps hf d htask
  | getter d =>
    have hparts := Node.parts_getter d
    have hname : f.HasNode u (.name d.name) := htask.has.part (by simp [Task.node, hparts])
    have hbody := htask.within hf.layout rfl (p := .block d.body) (by simp [Task.node, Node.within])
    refine .bind (checkBlock_keeps hf (some (returnMode f u d.mark d.type)) d.body hbody lastFits_none)
      fun p₁ hle₁ last hpassed => ?_
    refine (applyRule_keeps (P := fun p' t => returnMode f u d.mark d.type = .infer → t.Fits (p'.outlook f ℓ))
      (inferReturned_reportsAt hname _ last) fun p' hle =>
        inferReturned_keeps hf.shows d.name _ (hpassed.last.mono hle.outlook)).mono
      fun p₂ hle₂ t ht => ⟨fun h => ht ((returnMode_eq_infer ..).mpr h), ?_, by simp⟩
    simp [Task.node, hparts, Progress.covers_name, Progress.covers_declaredType, hpassed.covers.mono hle₂]
  | setter d =>
    have hparts := Node.parts_setter d
    have hbody := htask.within hf.layout rfl (p := .block d.body) (by simp [Task.node, Node.within])
    -- The parameter of a setter gets the type of its getter before the body is checked.
    refine .bind (setterType_keeps hf d htask) fun p₁ hle₁ t ht => ?_
    refine .bind (discard_keeps (checkBlock_keeps hf (some .void) d.body (hbody.mono hle₁.given) lastFits_none))
      fun p₂ hle₂ _ hbody => .pure ⟨fun _ => ht.1.mono hle₂.outlook, ?_, ?_⟩
    · obtain ⟨_, hpassed⟩ := hbody
      simp [Task.node, hparts, Progress.covers_name, hpassed.covers]
    · rintro _ ⟨rfl⟩
      exact ht.2

end

end Ceylon.Analysis
