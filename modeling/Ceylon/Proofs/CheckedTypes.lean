import Ceylon.Proofs.ProblemPlaces
import Ceylon.Proofs.Sight
import Ceylon.Proofs.Tasks

/-!
# What checks do

A check keeps to a contract whose terms change as checking comes further (`checkContract`): the types that it
gives to expressions and variables are built from what is in sight when it gives them, it reports problems at nodes
of its unit, it has tasks checked only where all bodies around them have been entered, and when it is done everything
in its tree has been dealt with (`Progress.Covers`).
-/

namespace Ceylon

namespace Syntax

/-- Whether neither a node nor anything below it is checked. -/
def Node.isInert : Node → Bool
  | .moduleDescriptor _ => true
  | .moduleImport _ => true
  | .import _ => true
  | .importElement _ => true
  | .path _ => true
  | .name _ => true
  | .type _ => true
  | .inferredType .. => true
  | .voidType _ => true
  | .typeParameter _ => true
  | _ => false

/-- The parts of a node that checking passes by are passed by as well. -/
theorem Node.isInert_of_part (n : Node) (h : n.isInert) : ∀ p ∈ n.parts, p.isInert := by
  -- Only headers, imports, names and types are inert, and their parts are of these kinds.
  cases n with
  | moduleDescriptor d =>
    simp [parts, outline, ModuleDescriptor.outline, ModuleImport.outline, Path.outline,
      Outline.children, Outline.node, isInert]
  | moduleImport i =>
    simp [parts, outline, ModuleImport.outline, Path.outline, Outline.children, Outline.node, isInert]
  | «import» i =>
    simp [parts, outline, Import.outline, ImportElement.outline, Path.outline, Outline.children,
      Outline.node, isInert]
  | importElement e =>
    simp [parts, outline, ImportElement.outline, Outline.children, isInert, or_imp, forall_and]
  | path p => simp [parts, outline, Path.outline, Outline.children, isInert]
  | name n => simp [parts, outline, Name.outline, Outline.children]
  | type t =>
    cases t with
    | base b => simp [parts_base, isInert]
    | union mark first more => simp [parts_union, isInert]
    | optional mark inner => simp [parts_optional, isInert]
  | inferredType mark function => simp [parts, outline, DeclaredType.outline, Outline.children]
  | voidType mark => simp [parts, outline, DeclaredType.outline, Outline.children]
  | typeParameter p => simp [parts_typeParameter, isInert]
  | _ => cases h

/-- Checking passes by the type of a declaration. -/
theorem Node.isInert_declaredType (t : DeclaredType) : t.node.isInert := by
  cases t <;> rfl

end Syntax

namespace Analysis

open Model Syntax

/-! ## Progress -/

/-- How far checking has come. -/
structure Progress where
  /-- The nodes of the variables and declarations that have been given inferred types. -/
  given : NodeId → Prop
  /-- The expressions that have types. -/
  settled : NodeId → Prop
  /-- The tasks that have been begun. -/
  begun : NodeId → Prop

namespace Progress

/-- Checking comes further. -/
structure Le (p p' : Progress) : Prop where
  given : ∀ k, p.given k → p'.given k
  settled : ∀ k, p.settled k → p'.settled k
  begun : ∀ k, p.begun k → p'.begun k

theorem Le.refl (p : Progress) : p.Le p :=
  ⟨fun _ => id, fun _ => id, fun _ => id⟩

theorem Le.trans {p p' p'' : Progress} (h : p.Le p') (h' : p'.Le p'') : p.Le p'' :=
  ⟨fun k hk => h'.given k (h.given k hk), fun k hk => h'.settled k (h.settled k hk),
    fun k hk => h'.begun k (h.begun k hk)⟩

section

variable (ℓ : Leeway) (u : UnitId) (p : Progress)

/-- A node has been dealt with. -/
def Settles : Node → Prop
  | .expr x => ℓ.blank ∨ p.settled ⟨u, x.mark.id⟩
  | .variable v => v.type.isInferred = true → p.given ⟨u, v.mark.id⟩
  | n => n.isTask = true → p.begun ⟨u, n.mark.id⟩

/-- All nodes below a node have been dealt with, but for those of tasks that have been begun. -/
def Covers (n : Node) : Prop :=
  ∀ m ∈ n.all, p.Settles ℓ u m ∨
    ∃ n' ∈ n.all, n'.isTask = true ∧ m ∈ n'.all ∧ p.begun ⟨u, n'.mark.id⟩

end

variable {ℓ : Leeway} {u : UnitId} {p p' : Progress} {n : Node}

/-- What is settled stays so, as checking goes on. -/
theorem Settles.mono (h : p.Settles ℓ u n) (hp : p.Le p') : p'.Settles ℓ u n := by
  cases n with
  | expr x => exact Or.imp id (hp.settled _) h
  | «variable» v => exact hp.given _ ∘ h
  | _ => exact hp.begun _ ∘ h

/-- What is covered stays so, as checking goes on. -/
theorem Covers.mono (h : p.Covers ℓ u n) (hp : p.Le p') : p'.Covers ℓ u n := fun m hm =>
  (h m hm).imp (·.mono hp) fun ⟨n', hn', htask, hm', hbegun⟩ => ⟨n', hn', htask, hm', hp.begun _ hbegun⟩

/-- A node is covered if it is settled and its parts are covered. -/
theorem Covers.of_parts (h : p.Settles ℓ u n) (hparts : ∀ part ∈ n.parts, p.Covers ℓ u part) :
    p.Covers ℓ u n := by
  intro m hm
  rw [n.all_eq] at hm
  rcases List.mem_cons.mp hm with rfl | hm
  · exact .inl h
  · obtain ⟨part, hpart, hm⟩ := List.mem_flatMap.mp hm
    refine (hparts part hpart m hm).imp id fun ⟨n', hn', hrest⟩ => ⟨n', Node.all_of_part hpart hn', hrest⟩

/-- A node that checking passes by is covered from the start. -/
theorem covers_of_isInert (h : n.isInert = true) : p.Covers ℓ u n := by
  refine fun m hm => .inl ?_
  have hinert : m.isInert = true := Node.forall_all h Node.isInert_of_part m hm
  cases m with
  | moduleDescriptor | moduleImport | «import» | importElement | path | name | type | inferredType
  | voidType | typeParameter => exact nofun
  | _ => cases hinert

theorem covers_name (n : Name) : p.Covers ℓ u (.name n) :=
  covers_of_isInert rfl

theorem covers_type (t : TypeRef) : p.Covers ℓ u (.type t) :=
  covers_of_isInert rfl

theorem covers_declaredType (t : DeclaredType) : p.Covers ℓ u t.node :=
  covers_of_isInert (Node.isInert_declaredType t)

/-- A task that has been begun is left to itself. -/
theorem covers_of_begun (htask : n.isTask = true) (h : p.begun ⟨u, n.mark.id⟩) : p.Covers ℓ u n :=
  fun _ hm => .inr ⟨n, n.mem_all, htask, hm, h⟩

end Progress

/-! ## The contract of checks -/

section

variable (f : State) (ℓ : Leeway) (u : UnitId)

/-- What checking may rely on when it has come so far. -/
abbrev Progress.outlook (p : Progress) : Outlook :=
  f.outlook ℓ p.given

/-- What a check may do. -/
def Act.Proper (p : Progress) : Act → Prop
  | .ask q => q.Proper f (p.outlook f ℓ) ∧ q.At (f.HasNode u)
  | .settle _ t _ => t.Fits (p.outlook f ℓ)
  | .infer _ t => t.Fits (p.outlook f ℓ)
  | .visit task => f.Reaches p.given u task.node ∧ task.node.isTask = true

/-- What is so when a check has done something. -/
def Act.Right (p : Progress) : (act : Act) → act.Answer → Prop
  | .ask (.typeOf _), r => ∀ t, r = some t → t.Fits (p.outlook f ℓ)
  | .ask (.problem ..), _ => ℓ.lax
  | .settle m _ _, _ => ℓ.blank ∨ p.settled ⟨u, m.id⟩
  | .infer m _, _ => p.given ⟨u, m.id⟩
  | .visit task, _ => p.begun ⟨u, task.mark.id⟩

/-- The contract of the checks of a unit. -/
def checkContract : Dialogue.Contract Progress Act.Answer where
  Leads := Progress.Le
  May := Act.Proper f ℓ u
  Right := Act.Right f ℓ u
  refl := .refl
  trans := .trans

/-- Begun when checking has come so far, a check keeps to its contract, and its result has the property. -/
abbrev Check.Keeps {α : Type} (p : Progress) (c : Check α) (P : Progress → α → Prop) : Prop :=
  c.Upholds (checkContract f ℓ u) p P

/-- An expression that has been checked. -/
structure Checked (x : Expr) (p : Progress) (t : Typed) : Prop where
  has : f.HasNode u (.expr x)
  expr : t.expr = x
  fits : t.Fits (p.outlook f ℓ)
  covers : p.Covers ℓ u (.expr x)

end

section

variable {f : State} {ℓ : Leeway} {u : UnitId} {p p' : Progress} {α : Type}

/-- A later stage of checking has a wider outlook. -/
theorem Progress.Le.outlook (h : p.Le p') : (p.outlook f ℓ).Le (p'.outlook f ℓ) :=
  f.outlook_le ℓ h.given

/-- What is known of a checked expression stays true, as checking goes on. -/
theorem Checked.mono {x : Expr} {t : Typed} (h : Checked f ℓ u x p t) (hp : p.Le p') :
    Checked f ℓ u x p' t :=
  ⟨h.has, h.expr, h.fits.mono hp.outlook, h.covers.mono hp⟩

/-- The expression that a checked type belongs to stands in the unit. -/
theorem Checked.place {x : Expr} {t : Typed} (h : Checked f ℓ u x p t) : f.HasNode u (.expr t.expr) :=
  h.expr ▸ h.has

/-- A check applies a rule that keeps to its contract however far checking has come. -/
theorem applyRule_keeps {r : Rule α} {P : Progress → α → Prop} (hplaces : r.ReportsAt (f.HasNode u))
    (h : ∀ p', p.Le p' → r.Keeps f (p'.outlook f ℓ) (P p')) : (applyRule r).Keeps f ℓ u p P := by
  have stay : ∀ {p' p'' : Progress}, p'.Le p'' → ∀ q (r : q.Answer), Act.Right f ℓ u p' (.ask q) r →
      q.Right (p''.outlook f ℓ) r := by
    intro p' p'' hle q r hr
    cases q with
    | typeOf d => exact fun t ht => (hr t ht).mono hle.outlook
    | problem n message => exact ℓ.blank_of_lax hr
  induction r generalizing p with
  | done a => exact h p (.refl p)
  | ask q next ih =>
    refine ⟨⟨(h p (.refl p)).1, hplaces.1⟩, fun p' hle r hr => ih r (hplaces.2 r trivial) fun p'' hle' => ?_⟩
    exact (h p'' (hle.trans hle')).2 r (stay hle' q r hr)

/-- Settling a node with a type that fits keeps to the contract, and settles the node. -/
theorem settle_keeps {m : Mark} {t : Ty} (ht : t.Fits (p.outlook f ℓ)) (target : Option DeclId) :
    (settle m t target).Keeps f ℓ u p fun p' _ => ℓ.blank ∨ p'.settled ⟨u, m.id⟩ :=
  .ask ht fun _ _ _ hr => hr

/-- Throwing away what a check finds keeps to the contract. -/
theorem discard_keeps {c : Check α} {P : Progress → α → Prop} (h : c.Keeps f ℓ u p P) :
    Check.Keeps f ℓ u p (Functor.discard c) fun p' _ => ∃ a, P p' a :=
  Dialogue.Upholds.bind h fun _ _ a ha => ⟨a, ha⟩

/-! ## Expressions -/

/-- Concluding an expression whose parts have been dealt with. -/
theorem conclude_keeps {x : Expr} {faulty : Bool} {rule : Rule Verdict} (hx : f.HasNode u (.expr x))
    (hplaces : rule.ReportsAt (f.HasNode u)) (hparts : ∀ part ∈ (Node.expr x).parts, p.Covers ℓ u part)
    (h : ∀ p', p.Le p' → rule.Keeps f (p'.outlook f ℓ) (Verdict.Fits (p'.outlook f ℓ))) :
    (conclude x faulty rule).Keeps f ℓ u p (Checked f ℓ u x) := by
  refine .bind (applyRule_keeps (P := fun p' r => r.1.Fits (p'.outlook f ℓ)) hplaces.watched fun p' hle =>
    Rule.watched_keeps (h p' hle)) fun p₁ hle₁ r hr => ?_
  refine .bind (settle_keeps hr.type _) fun p₂ hle₂ _ hsettled => .pure ⟨hx, rfl, ?_, ?_⟩
  · have hr' := hr.mono hle₂.outlook
    exact ⟨hr'.type, hr'.target, hr'.receiver⟩
  · exact .of_parts hsettled fun part hpart => (hparts part hpart).mono (hle₁.trans hle₂)

/-- An expression keeps to the contract if its parts are covered and the rule for its type keeps to it. -/
theorem concludeType_keeps {x : Expr} {faulty : Bool} {rule : Rule Ty} (hx : f.HasNode u (.expr x))
    (hplaces : rule.ReportsAt (f.HasNode u)) (hparts : ∀ part ∈ (Node.expr x).parts, p.Covers ℓ u part)
    (h : ∀ p', p.Le p' → rule.Keeps f (p'.outlook f ℓ) (Ty.Fits (p'.outlook f ℓ))) :
    (concludeType x faulty rule).Keeps f ℓ u p (Checked f ℓ u x) :=
  conclude_keeps hx (hplaces.bind fun _ => .pure _) hparts fun p' hle =>
    .bind (h p' hle) fun _ ht => Rule.pure_keeps ⟨ht, nofun, nofun⟩

end

/-- The type arguments of a reference in parentheses stand below it. -/
theorem mem_all_of_typeArg {a : TypeRef} : (x : Expr) → a ∈ typeArgsOf x.unparen →
    .type a ∈ (Node.expr x).all
  | .paren _ x, ha => by
    -- The argument belongs to the reference within the parentheses.
    refine Node.all_of_part (p := .expr x) ?_ (mem_all_of_typeArg x ha)
    rw [Node.parts_expr]
    exact List.mem_singleton_self _
  | .reference mark sort name typeArgs, ha => by
    refine Node.all_of_part (p := .type a) ?_ (Node.mem_all _)
    rw [Node.parts_expr]
    exact List.mem_cons_of_mem _ (List.mem_map_of_mem ha)
  | .qualified mark primary op sort name typeArgs, ha => by
    refine Node.all_of_part (p := .type a) ?_ (Node.mem_all _)
    rw [Node.parts_expr]
    exact List.mem_cons_of_mem _ (List.mem_cons_of_mem _ (List.mem_map_of_mem ha))
  | .invocation .., ha => nomatch ha
  | .index .., ha => nomatch ha
  | .literal .., ha => nomatch ha
  | .self .., ha => nomatch ha
  | .sequence .., ha => nomatch ha
  | .binary .., ha => nomatch ha
  | .prefixed .., ha => nomatch ha
  | .postfixed .., ha => nomatch ha
  | .isTest .., ha => nomatch ha
  | .existsTest .., ha => nomatch ha
  | .nonemptyTest .., ha => nomatch ha

/-- What stands in parentheses is a node of the unit, too. -/
theorem State.HasNode.unparen {f : State} {u : UnitId} : {x : Expr} → f.HasNode u (.expr x) →
    f.HasNode u (.expr x.unparen)
  | .paren mark x, h => (h.part (p := .expr x) (by simp [Node.parts_expr])).unparen
  | .reference .., h => h
  | .qualified .., h => h
  | .invocation .., h => h
  | .index .., h => h
  | .literal .., h => h
  | .self .., h => h
  | .sequence .., h => h
  | .binary .., h => h
  | .prefixed .., h => h
  | .postfixed .., h => h
  | .isTest .., h => h
  | .existsTest .., h => h
  | .nonemptyTest .., h => h

section

variable {f : State} {ℓ : Leeway} {u : UnitId}

/-- An expression that is reached, with all of its parts. -/
theorem reaches_part (hf : f.Prepared ℓ) {p : Progress} {n part : Node} (h : f.Reaches p.given u n)
    (hplain : n.isPlain = true) (hpart : part ∈ n.parts) {p' : Progress} (hle : p.Le p') :
    f.Reaches p'.given u part :=
  (h.beside hf.layout ((Node.beside_of_isPlain hplain).symm ▸ hpart) hpart).mono hle.given

mutual

/-- Checking an expression keeps to the contract. -/
theorem checkExpr_keeps (hf : f.Prepared ℓ) : (x : Expr) → {p : Progress} →
    f.Reaches p.given u (.expr x) → (checkExpr f u x).Keeps f ℓ u p (Checked f ℓ u x)
  | .reference mark sort name typeArgs, p, hx => by
    -- The name and the type arguments are inert: there is nothing to check in them.
    rw [checkExpr]
    refine conclude_keeps hx.has (referenceRule_reportsAt hx.has sort name typeArgs) ?_ fun p' hle => ?_
    · rw [Node.parts_expr]
      simp [Progress.covers_name, Progress.covers_type]
    · refine referenceRule_keeps hf.shows (hf.clear (hx.mono hle.given)) sort name fun a ha => hf.clear ?_
      refine reaches_part hf hx rfl ?_ hle
      rw [Node.parts_expr]
      exact List.mem_cons_of_mem _ (List.mem_map_of_mem ha)
  | .qualified mark primary op sort name typeArgs, p, hx => by
    rw [checkExpr]
    -- The primary comes first; what it covers and the type it finds are carried on to the later stages.
    refine .bind (checkExpr_keeps hf primary (reaches_part hf hx rfl (by simp [Node.parts_expr]) (.refl p)))
      fun p₁ hle₁ t ht => ?_
    refine conclude_keeps hx.has (qualifiedRule_reportsAt hx.has ht.place op sort name typeArgs) ?_ fun p' hle => ?_
    · rw [Node.parts_expr]
      simp [ht.covers, Progress.covers_name, Progress.covers_type]
    · refine qualifiedRule_keeps hf.shows _ (ht.fits.mono hle.outlook) op sort name fun a ha => hf.clear ?_
      refine reaches_part hf hx rfl ?_ (hle₁.trans hle)
      rw [Node.parts_expr]
      exact List.mem_cons_of_mem _ (List.mem_cons_of_mem _ (List.mem_map_of_mem ha))
  | .invocation mark primary args, p, hx => by
    rw [checkExpr]
    have hprimary : f.Reaches p.given u (.expr primary) :=
      reaches_part hf hx rfl (by simp [Node.parts_expr]) (.refl p)
    refine .bind (checkExpr_keeps hf primary hprimary) fun p₁ hle₁ t ht => ?_
    refine .bind (checkArguments_keeps hf args (reaches_part hf hx rfl (by simp [Node.parts_expr]) hle₁))
      fun p₂ hle₂ typed htyped => ?_
    refine concludeType_keeps hx.has (invocationType_reportsAt hx.has ht.place htyped.2.2) ?_ fun p' hle => ?_
    · simp [Node.parts_expr, ht.covers.mono hle₂, htyped.2.1]
    · refine invocationType_keeps hf.shows _ (ht.fits.mono (hle₂.trans hle).outlook) (fun a ha => ?_)
        fun a ha => (htyped.1 a ha).mono hle.outlook
      -- The explicit type arguments stand in the primary, and so does what has been resolved of them.
      rw [ht.expr] at ha
      exact hf.clear ((hprimary.all hf.layout rfl _ (mem_all_of_typeArg primary ha)).mono
        (hle₁.trans (hle₂.trans hle)).given)
  | .index mark primary safe subscript, p, hx => by
    rw [checkExpr]
    refine .bind (checkExpr_keeps hf primary (reaches_part hf hx rfl (by simp [Node.parts_expr]) (.refl p)))
      fun p₁ hle₁ t ht => ?_
    refine .bind (checkSubscript_keeps hf subscript fun x hmem =>
      reaches_part hf hx rfl (by simp [Node.parts_expr, hmem]) hle₁) fun p₂ hle₂ typed htyped => ?_
    refine concludeType_keeps hx.has (indexType_reportsAt ht.place safe htyped.2) ?_ fun p' hle => ?_
    · simpa [Node.parts_expr, ht.covers.mono hle₂] using htyped.1
    · exact indexType_keeps hf.shows (ht.fits.mono (hle₂.trans hle).outlook) safe typed
  | .literal mark kind text, p, hx => by
    rw [checkExpr]
    refine concludeType_keeps hx.has (.pure _) ?_ fun p' hle => Rule.pure_keeps (literalType_fits hf.shows kind)
    simp [Node.parts_expr]
  | .self mark kind, p, hx => by
    rw [checkExpr]
    refine conclude_keeps hx.has (selfRule_reportsAt hx.has kind) ?_ fun p' hle =>
      selfRule_keeps hf.shows (hf.clear (hx.mono hle.given)) kind
    simp [Node.parts_expr]
  | .sequence mark elems, p, hx => by
    rw [checkExpr]
    refine .bind (checkExprs_keeps hf elems fun x hmem =>
      reaches_part hf hx rfl (by simp [Node.parts_expr, hmem]) (.refl p)) fun p₁ hle₁ ts hts => ?_
    refine concludeType_keeps hx.has (sequenceType_reportsAt hx.has ts) ?_ fun p' hle => ?_
    · simpa [Node.parts_expr] using hts.2.1
    · exact sequenceType_keeps hf.shows _ fun t ht => (hts.1 t ht).mono hle.outlook
  | .paren mark x, p, hx => by
    rw [checkExpr]
    refine .bind (checkExpr_keeps hf x (reaches_part hf hx rfl (by simp [Node.parts_expr]) (.refl p)))
      fun p₁ hle₁ t ht => ?_
    refine .bind (settle_keeps ht.fits.type _) fun p₂ hle₂ _ hsettled => .pure ⟨hx.has, rfl, ?_, ?_⟩
    · -- A parenthesis has the type of what it encloses, and refers to the same declaration.
      have hfits := ht.fits.mono hle₂.outlook
      exact ⟨hfits.type, hfits.target, hfits.receiver⟩
    · refine .of_parts hsettled ?_
      simp [Node.parts_expr, ht.covers.mono hle₂]
  | .binary mark op x y, p, hx => by
    rw [checkExpr]
    refine .bind (checkExpr_keeps hf x (reaches_part hf hx rfl (by simp [Node.parts_expr]) (.refl p)))
      -- The right operand is checked at the stage that the left one leads to.
      fun p₁ hle₁ l hl => ?_
    refine .bind (checkExpr_keeps hf y (reaches_part hf hx rfl (by simp [Node.parts_expr]) hle₁))
      fun p₂ hle₂ r hr => ?_
    refine concludeType_keeps hx.has (binaryType_reportsAt hl.place hr.place op hl.place.unparen) ?_ fun p' hle => ?_
    · simp [Node.parts_expr, hl.covers.mono hle₂, hr.covers]
    · exact binaryType_keeps hf.shows op (hl.fits.mono (hle₂.trans hle).outlook) (hr.fits.mono hle.outlook)
  | .prefixed mark op x, p, hx => by
    rw [checkExpr]
    refine .bind (checkExpr_keeps hf x (reaches_part hf hx rfl (by simp [Node.parts_expr]) (.refl p)))
      fun p₁ hle₁ t ht => ?_
    refine concludeType_keeps hx.has (prefixType_reportsAt ht.place op ht.place.unparen) ?_ fun p' hle =>
      prefixType_keeps hf.shows op (ht.fits.mono hle.outlook)
    simp [Node.parts_expr, ht.covers]
  | .postfixed mark op x, p, hx => by
    rw [checkExpr]
    refine .bind (checkExpr_keeps hf x (reaches_part hf hx rfl (by simp [Node.parts_expr]) (.refl p)))
      fun p₁ hle₁ t ht => ?_
    refine concludeType_keeps hx.has (stepType_reportsAt ht.place ht.place.unparen) ?_ fun p' hle =>
      stepType_keeps hf.shows (ht.fits.mono hle.outlook)
    simp [Node.parts_expr, ht.covers]
  | .isTest mark x type, p, hx => by
    rw [checkExpr]
    refine .bind (checkExpr_keeps hf x (reaches_part hf hx rfl (by simp [Node.parts_expr]) (.refl p)))
      fun p₁ hle₁ t ht => ?_
    refine concludeType_keeps hx.has (.pure _) ?_ fun p' hle => Rule.pure_keeps (boolean_fits hf.shows)
    simp [Node.parts_expr, ht.covers, Progress.covers_type]
  | .existsTest mark x, p, hx => by
    rw [checkExpr]
    refine .bind (checkExpr_keeps hf x (reaches_part hf hx rfl (by simp [Node.parts_expr]) (.refl p)))
      fun p₁ hle₁ t ht => ?_
    refine concludeType_keeps hx.has ((checkOptional_reportsAt ht.place).bind fun _ => .pure _) ?_ fun p' hle =>
      .bind (checkOptional_keeps t) fun _ _ => Rule.pure_keeps (boolean_fits hf.shows)
    simp [Node.parts_expr, ht.covers]
  | .nonemptyTest mark x, p, hx => by
    rw [checkExpr]
    refine .bind (checkExpr_keeps hf x (reaches_part hf hx rfl (by simp [Node.parts_expr]) (.refl p)))
      fun p₁ hle₁ t ht => ?_
    refine concludeType_keeps hx.has ((checkContainer_reportsAt ht.place).bind fun _ => .pure _) ?_ fun p' hle =>
      .bind (checkContainer_keeps t) fun _ _ => Rule.pure_keeps (boolean_fits hf.shows)
    simp [Node.parts_expr, ht.covers]

/-- Checking expressions one after another covers them and finds types that fit. -/
theorem checkExprs_keeps (hf : f.Prepared ℓ) : (xs : List Expr) → {p : Progress} →
    (∀ x ∈ xs, f.Reaches p.given u (.expr x)) → (checkExprs f u xs).Keeps f ℓ u p fun p' ts =>
      (∀ t ∈ ts, t.Fits (p'.outlook f ℓ)) ∧ (∀ x ∈ xs, p'.Covers ℓ u (.expr x)) ∧
        ∀ t ∈ ts, f.HasNode u (.expr t.expr)
  | [], p, _ => .pure ⟨List.forall_mem_nil _, List.forall_mem_nil _, List.forall_mem_nil _⟩
  | x :: xs, p, hxs => by
    rw [checkExprs]
    refine .bind (checkExpr_keeps hf x (hxs x List.mem_cons_self)) fun p₁ hle₁ t ht => ?_
    refine .bind (checkExprs_keeps hf xs fun x' hx' =>
      (hxs x' (List.mem_cons_of_mem x hx')).mono hle₁.given) fun p₂ hle₂ ts hts => .pure ⟨?_, ?_, ?_⟩
    · exact List.forall_mem_cons.mpr ⟨ht.fits.mono hle₂.outlook, hts.1⟩
    · exact List.forall_mem_cons.mpr ⟨ht.covers.mono hle₂, hts.2.1⟩
    · exact List.forall_mem_cons.mpr ⟨ht.place, hts.2.2⟩

/-- Checking arguments covers them and finds types that fit. -/
theorem checkArguments_keeps (hf : f.Prepared ℓ) : (args : Arguments) → {p : Progress} →
    f.Reaches p.given u args.node → (checkArguments f u args).Keeps f ℓ u p fun p' typed =>
      (∀ a ∈ typed.all, a.Fits (p'.outlook f ℓ)) ∧ p'.Covers ℓ u args.node ∧ typed.At (f.HasNode u)
  | .positional { mark, args }, p, hargs => by
    rw [checkArguments]
    refine .bind (checkExprs_keeps hf args fun x hmem =>
      reaches_part hf hargs rfl (by simp [Arguments.node, Node.parts_positionalArgs, hmem]) (.refl p))
      fun p₁ hle₁ ts hts => .pure ⟨hts.1, .of_parts nofun ?_, hargs.has, hts.2.2⟩
    simpa [Arguments.node, Node.parts_positionalArgs] using hts.2.1
  | .named { mark, args, sequenced }, p, hargs => by
    rw [checkArguments]
    have hparts := Node.parts_namedArgs { mark, args, sequenced }
    refine .bind (checkNamed_keeps hf args fun a hmem =>
      reaches_part hf hargs rfl (by simp [Arguments.node, hparts, hmem]) (.refl p)) fun p₁ hle₁ ts hts => ?_
    -- the sequenced argument comes last, so the others keep what they have while it is checked
    refine .bind (checkSequenced_keeps hf sequenced fun a hmem =>
      reaches_part hf hargs rfl (by simpa [Arguments.node, hparts] using hmem) hle₁)
      fun p₂ hle₂ rest hrest => ?_
    refine .pure ⟨fun a ha => ?_, .of_parts nofun fun part hpart => ?_, hargs.has, hts.2.2, fun a ha => ?_, hrest.2.2⟩
    · rcases List.mem_append.mp ha with ha | ha
      · obtain ⟨b, hb, rfl⟩ := List.mem_map.mp ha
        exact (hts.1 b hb).mono hle₂.outlook
      · exact hrest.1 a ha
    · rw [Arguments.node, hparts] at hpart
      rcases List.mem_append.mp hpart with hpart | hpart
      · obtain ⟨a, ha, rfl⟩ := List.mem_map.mp hpart
        exact (hts.2.1 a ha).mono hle₂
      · obtain ⟨a, ha, rfl⟩ := List.mem_map.mp hpart
        exact hrest.2.1 a (by simpa using ha)
    · exact hargs.has.part (by simpa [Arguments.node, hparts] using ha)

/-- Checking named arguments covers them and finds types that fit. -/
theorem checkNamed_keeps (hf : f.Prepared ℓ) : (args : List NamedArg) → {p : Progress} →
    (∀ a ∈ args, f.Reaches p.given u (.namedArg a)) → (checkNamed f u args).Keeps f ℓ u p fun p' ts =>
      (∀ t ∈ ts, t.2.Fits (p'.outlook f ℓ)) ∧ (∀ a ∈ args, p'.Covers ℓ u (.namedArg a)) ∧
        ∀ t ∈ ts, f.HasNode u (.name t.1) ∧ f.HasNode u (.expr t.2.expr)
  | [], p, _ => .pure ⟨List.forall_mem_nil _, List.forall_mem_nil _, List.forall_mem_nil _⟩
  | { mark, name, value } :: as, p, hargs => by
    rw [checkNamed]
    have hparts := Node.parts_namedArg { mark, name, value }
    refine .bind (checkExpr_keeps hf value (reaches_part hf (hargs _ List.mem_cons_self) rfl
      (by simp [hparts]) (.refl p))) fun p₁ hle₁ t ht => ?_
    refine .bind (checkNamed_keeps hf as fun a ha =>
      (hargs a (List.mem_cons_of_mem _ ha)).mono hle₁.given) fun p₂ hle₂ ts hts => .pure ⟨?_, ?_, ?_⟩
    · exact List.forall_mem_cons.mpr ⟨ht.fits.mono hle₂.outlook, hts.1⟩
    · refine List.forall_mem_cons.mpr ⟨.of_parts nofun ?_, hts.2.1⟩
      simp [hparts, Progress.covers_name, ht.covers.mono hle₂]
    · refine List.forall_mem_cons.mpr ⟨⟨?_, ht.place⟩, hts.2.2⟩
      exact (hargs _ List.mem_cons_self).has.part (by simp [hparts])

/-- Checking the sequenced argument, if there is one, covers it and finds types that fit. -/
theorem checkSequenced_keeps (hf : f.Prepared ℓ) : (arg : Option SequencedArg) → {p : Progress} →
    (∀ a ∈ arg, f.Reaches p.given u (.sequencedArg a)) →
    (checkSequenced f u arg).Keeps f ℓ u p fun p' ts =>
      (∀ t ∈ ts, t.Fits (p'.outlook f ℓ)) ∧ (∀ a ∈ arg, p'.Covers ℓ u (.sequencedArg a)) ∧
        ∀ t ∈ ts, f.HasNode u (.expr t.expr)
  | none, p, _ => .pure ⟨List.forall_mem_nil _, nofun, List.forall_mem_nil _⟩
  | some { mark, values }, p, harg => by
    rw [checkSequenced]
    have hparts := Node.parts_sequencedArg { mark, values }
    refine (checkExprs_keeps hf values fun x hmem => reaches_part hf (harg _ rfl) rfl
      (by simp [hparts, hmem]) (.refl p)).mono fun p₁ hle₁ ts hts => ⟨hts.1, ?_, hts.2.2⟩
    rintro _ ⟨rfl⟩
    refine .of_parts nofun ?_
    simpa [hparts] using hts.2.1

/-- Checking a subscript covers its expressions. -/
theorem checkSubscript_keeps (hf : f.Prepared ℓ) : (subscript : Subscript) → {p : Progress} →
    (∀ x ∈ subscript.exprs, f.Reaches p.given u (.expr x)) →
    (checkSubscript f u subscript).Keeps f ℓ u p fun p' typed =>
      (∀ x ∈ subscript.exprs, p'.Covers ℓ u (.expr x)) ∧ typed.At (f.HasNode u)
  | .element index, p, hx => by
    rw [checkSubscript]
    refine .bind (checkExpr_keeps hf index (hx _ (by simp [Subscript.exprs]))) fun p₁ hle₁ t ht =>
      .pure ⟨?_, ht.place⟩
    simp [Subscript.exprs, ht.covers]
  | .span lower upper, p, hx => by
    rw [checkSubscript]
    refine .bind (checkExpr_keeps hf lower (hx _ (by simp [Subscript.exprs]))) fun p₁ hle₁ l hl => ?_
    -- The bounds are checked one after the other, so the upper one is reached in a later progress.
    refine .bind (checkExpr_keeps hf upper ((hx _ (by simp [Subscript.exprs])).mono hle₁.given))
      fun p₂ hle₂ r hr => .pure ⟨?_, hl.place, hr.place⟩
    simp [Subscript.exprs, hl.covers.mono hle₂, hr.covers]
  | .tail lower, p, hx => by
    rw [checkSubscript]
    refine .bind (checkExpr_keeps hf lower (hx _ (by simp [Subscript.exprs]))) fun p₁ hle₁ t ht =>
      .pure ⟨?_, ht.place⟩
    simp [Subscript.exprs, ht.covers]

end

end

end Analysis

end Ceylon
