import Ceylon.Proofs.CheckedTypes
import Ceylon.Proofs.Settling

/-!
# What a check comes to

Whatever the answers to its questions are, the check of a task gives every reference that it comes to the target
that the name of the reference has where it stands, and has every task that it comes to checked
(`Task.check_meets`).  It comes to all nodes below its own, as far as no other task stands between
(`Node.Spans`).
-/

namespace Ceylon

namespace Dialogue

variable {Q : Type} {A : Q → Type} {α β : Type}

/-- Whatever the answers are, a question with the property comes up. -/
def Raises (E : Q → Prop) : Dialogue A α → Prop
  | .done _ => False
  | .ask q next => E q ∨ ∀ r, (next r).Raises E

namespace Raises

variable {E : Q → Prop} {d : Dialogue A α} {f : α → Dialogue A β}

/-- What the first part raises is raised by the whole. -/
theorem bind (h : d.Raises E) : (d >>= f).Raises E := by
  induction d with
  | done a => exact h.elim
  | ask q next ih => exact h.imp id fun hnext r => ih r (hnext r)

/-- What comes up after a dialogue may depend on what its result is like. -/
theorem after_ensures {P : α → Prop} (h : d.Ensures (fun _ => True) (fun _ _ => True) P)
    (hf : ∀ a, P a → (f a).Raises E) : (d >>= f).Raises E := by
  induction d with
  | done a => exact hf a h
  | ask q next ih => exact .inr fun r => ih r (h.2 r trivial)

/-- What the second part raises is raised by the whole. -/
theorem after (hf : ∀ a, (f a).Raises E) : (d >>= f).Raises E :=
  after_ensures (.trivial d) fun a _ => hf a

end Raises

end Dialogue

namespace Syntax

namespace Node

/-- The nodes that a check of a node comes to: those below the node, as far as no node of a task stands between. -/
inductive Spans : Node → Node → Prop
  | self (n : Node) : Spans n n
  | part {n p m : Node} (htask : n.isTask = false) (hp : p ∈ n.parts) (hm : Spans p m) : Spans n m

/-- Whether there is something to do for a node by itself: to look its name up, or to check it. -/
def isErrand : Node → Bool
  | .expr (.reference ..) => true
  | n => n.isTask

/-- The name by which a node refers to a declaration, and what declarations it may refer to. -/
def mention? : Node → Option (String × Model.Filter)
  | .type (.base b) => some (b.name.text, .types)
  | .expr (.reference _ .member called _) => some (called.text, .values)
  | .expr (.reference _ .type called _) => some (called.text, .types)
  | _ => none

/-- There is nothing to do for what stands below an inert node. -/
theorem isErrand_of_spans {n m : Node} (h : n.isInert = true) (hm : n.Spans m) : m.isErrand = false := by
  induction hm with
  | self n =>
    cases n with
    | stmt | expr => cases h
    | _ => rfl
  | part _ hp _ ih => exact ih (isInert_of_part _ h _ hp)

end Node

end Syntax

namespace Analysis

open Model Syntax

/-- The step of a check by which it does what there is to do for a node. -/
inductive Act.Handles (f : State) (u : UnitId) : Node → Act → Prop
  | reference {x : Expr} {name : String} {filter : Filter} (hx : (Node.expr x).mention? = some (name, filter))
    (t : Ty) :
    Act.Handles f u (.expr x) (.settle x.mark t (f.lookup? u (f.scopeAt u x.mark) name filter))
  | task (t : Task) : Act.Handles f u t.node (.visit t)

/-- A check comes to all nodes that it should below the given one. -/
def Check.Meets (f : State) (u : UnitId) {α : Type} (c : Check α) (n : Node) : Prop :=
  ∀ m, n.Spans m → m.isErrand = true → c.Raises (Act.Handles f u m)

section

variable {f : State} {u : UnitId} {α β : Type} {c : Check α} {n : Node}

namespace Check.Meets

/-- What the first part meets is met by the whole. -/
theorem bind {g : α → Check β} (h : c.Meets f u n) : Check.Meets f u (c >>= g) n :=
  fun m hm herrand => (h m hm herrand).bind

/-- What the second part meets is met by the whole. -/
theorem after {g : α → Check β} (h : ∀ a, (g a).Meets f u n) : Check.Meets f u (c >>= g) n :=
  fun m hm herrand => .after fun a => h a m hm herrand

/-- Throwing away a result meets the same nodes. -/
theorem discard (h : c.Meets f u n) : Check.Meets f u (Functor.discard c) n :=
  h.bind

/-- A node for which there is nothing to do by itself. -/
theorem of_parts (h : n.isErrand = false) (hparts : ∀ p ∈ n.parts, c.Meets f u p) : c.Meets f u n := by
  intro m hm herrand
  cases hm with
  | self => cases h.symm.trans herrand
  | part _ hp hm => exact hparts _ hp m hm herrand

/-- A node that checking passes by needs not be met. -/
theorem of_isInert (h : n.isInert = true) : c.Meets f u n :=
  fun _ hm herrand => absurd ((Node.isErrand_of_spans h hm).symm.trans herrand) Bool.false_ne_true

/-- What stands below the node of a task is left to the task. -/
theorem of_task (t : Task) (h : t.node.isTask = true) : (visit t).Meets f u t.node := by
  intro m hm _
  cases hm with
  | self => exact .inl (.task t)
  | part htask => cases h.symm.trans htask

end Check.Meets

/-! ## References -/

/-- A reference that finds nothing is reported. -/
theorem referenceRule_ensures {x : Expr} {mark : Mark} {sort : RefSort} {name : Name} {typeArgs : List TypeRef}
    {called : String × Filter} (hcalled : (Node.expr (.reference mark sort name typeArgs)).mention? = some called) :
    (referenceRule f u x sort name typeArgs).Ensures (fun _ => True) (fun _ _ => True)
      (·.target = f.lookup? u (f.scopeAt u x.mark) called.1 called.2) := by
  cases sort with
  | member =>
    obtain rfl : (name.text, Filter.values) = called := Option.some.inj hcalled
    simp only [referenceRule]
    split
    · next hnone => exact .bind (.trivial _) fun _ _ => hnone.symm
    · next d hd => exact .bind (.trivial _) fun _ _ => .bind (.trivial _) fun _ _ => hd.symm
  | type =>
    obtain rfl : (name.text, Filter.types) = called := Option.some.inj hcalled
    simp only [referenceRule]
    split
    · next hnone => exact .bind (.trivial _) fun _ _ => hnone.symm
    · next d hd => exact .bind (.trivial _) fun _ _ => hd.symm

/-- A reference is given the target that its name has, whatever its rule asks. -/
theorem conclude_meets {mark : Mark} {sort : RefSort} {name : Name} {typeArgs : List TypeRef} (faulty : Bool) :
    let x : Expr := .reference mark sort name typeArgs
    (conclude x faulty (referenceRule f u x sort name typeArgs)).Raises (Act.Handles f u (.expr x)) := by
  intro x
  obtain ⟨called, hcalled⟩ : ∃ called, (Node.expr x).mention? = some called := by
    cases sort
    · exact ⟨_, rfl⟩
    · exact ⟨_, rfl⟩
  have hrule : (applyRule (watched (referenceRule f u x sort name typeArgs))).Ensures (fun _ => True) (fun _ _ => True)
      (·.1.target = f.lookup? u (f.scopeAt u x.mark) called.1 called.2) :=
    applyRule_ensures (watched_ensures (referenceRule_ensures hcalled))
  refine .after_ensures hrule fun (v, reported) hv => ?_
  exact .inl (hv ▸ .reference hcalled v.type)

/-! ## Expressions -/

mutual

/-- Checking an expression meets it and all below it. -/
theorem checkExpr_meets : (x : Expr) → (checkExpr f u x).Meets f u (.expr x)
  | .reference mark sort name typeArgs => by
    rw [checkExpr]
    intro m hm herrand
    cases hm with
    | self => exact conclude_meets _
    | part _ hp hm =>
      -- Below a reference there are only its name and types.
      have hinert : (Node.expr (.reference mark sort name typeArgs)).parts.all Node.isInert := by
        simp [Node.parts_expr, Node.isInert]
      cases (Node.isErrand_of_spans (List.all_eq_true.mp hinert _ hp) hm).symm.trans herrand
  | .qualified mark primary op sort name typeArgs => by
    rw [checkExpr]
    refine .of_parts rfl ?_
    rw [Node.parts_expr]
    refine List.forall_mem_cons.mpr ⟨(checkExpr_meets primary).bind, List.forall_mem_cons.mpr ⟨.of_isInert rfl, ?_⟩⟩
    exact List.forall_mem_map.mpr fun _ _ => .of_isInert rfl
  | .invocation mark primary args => by
    rw [checkExpr]
    refine .of_parts rfl ?_
    rw [Node.parts_expr]
    refine List.forall_mem_cons.mpr ⟨(checkExpr_meets primary).bind, List.forall_mem_singleton.mpr ?_⟩
    exact .after fun _ => (checkArguments_meets args).bind
  | .index mark primary safe subscript => by
    rw [checkExpr]
    refine .of_parts rfl ?_
    rw [Node.parts_expr]
    refine List.forall_mem_cons.mpr ⟨(checkExpr_meets primary).bind, List.forall_mem_map.mpr fun x hx => ?_⟩
    exact .after fun _ => (checkSubscript_meets subscript x hx).bind
  | .literal mark kind text => .of_parts rfl (by simp [Node.parts_expr])
  | .self mark kind => .of_parts rfl (by simp [Node.parts_expr])
  | .sequence mark elems => by
    rw [checkExpr]
    refine .of_parts rfl ?_
    rw [Node.parts_expr]
    exact List.forall_mem_map.mpr fun x hx => (checkExprs_meets elems x hx).bind
  | .paren mark x => by
    rw [checkExpr]
    exact .of_parts rfl (by simpa [Node.parts_expr] using (checkExpr_meets x).bind)
  | .binary mark op x y => by
    rw [checkExpr]
    refine .of_parts rfl ?_
    rw [Node.parts_expr]
    refine List.forall_mem_cons.mpr ⟨(checkExpr_meets x).bind, List.forall_mem_singleton.mpr ?_⟩
    exact .after fun _ => (checkExpr_meets y).bind
  | .prefixed mark op x => by
    rw [checkExpr]
    exact .of_parts rfl (by simpa [Node.parts_expr] using (checkExpr_meets x).bind)
  | .postfixed mark op x => by
    rw [checkExpr]
    exact .of_parts rfl (by simpa [Node.parts_expr] using (checkExpr_meets x).bind)
  | .isTest mark x tested => by
    rw [checkExpr]
    refine .of_parts rfl ?_
    rw [Node.parts_expr]
    exact List.forall_mem_cons.mpr ⟨(checkExpr_meets x).bind, List.forall_mem_singleton.mpr (.of_isInert rfl)⟩
  | .existsTest mark x => by
    rw [checkExpr]
    exact .of_parts rfl (by simpa [Node.parts_expr] using (checkExpr_meets x).bind)
  | .nonemptyTest mark x => by
    rw [checkExpr]
    exact .of_parts rfl (by simpa [Node.parts_expr] using (checkExpr_meets x).bind)

/-- Checking expressions meets each of them. -/
theorem checkExprs_meets : (xs : List Expr) → ∀ x ∈ xs, (checkExprs f u xs).Meets f u (.expr x)
  | [] => List.forall_mem_nil _
  | x :: xs => by
    rw [checkExprs]
    refine List.forall_mem_cons.mpr ⟨(checkExpr_meets x).bind, fun x' hx' => ?_⟩
    exact .after fun _ => (checkExprs_meets xs x' hx').bind

/-- Checking arguments meets them. -/
theorem checkArguments_meets : (args : Arguments) → (checkArguments f u args).Meets f u args.node
  | .positional { mark, args } => by
    rw [checkArguments]
    refine .of_parts rfl ?_
    rw [Arguments.node, Node.parts_positionalArgs]
    exact List.forall_mem_map.mpr fun x hx => (checkExprs_meets args x hx).bind
  | .named { mark, args, sequenced } => by
    rw [checkArguments]
    refine .of_parts rfl ?_
    rw [Arguments.node, Node.parts_namedArgs]
    refine List.forall_mem_append.mpr ⟨List.forall_mem_map.mpr fun a ha => ?_, List.forall_mem_map.mpr fun a ha => ?_⟩
    · exact (checkNamed_meets args a ha).bind
    · exact .after fun _ => (checkSequenced_meets sequenced a (by simpa using ha)).bind

/-- Checking named arguments meets each of them. -/
theorem checkNamed_meets : (args : List NamedArg) → ∀ a ∈ args, (checkNamed f u args).Meets f u (.namedArg a)
  | [] => List.forall_mem_nil _
  | { mark, name, value } :: as => by
    rw [checkNamed]
    refine List.forall_mem_cons.mpr ⟨.of_parts rfl ?_, fun a ha => ?_⟩
    · rw [Node.parts_namedArg]
      exact List.forall_mem_cons.mpr ⟨.of_isInert rfl, List.forall_mem_singleton.mpr (checkExpr_meets value).bind⟩
    · exact .after fun _ => (checkNamed_meets as a ha).bind

/-- Checking the sequenced argument meets it. -/
theorem checkSequenced_meets : (arg : Option SequencedArg) →
    ∀ a ∈ arg, (checkSequenced f u arg).Meets f u (.sequencedArg a)
  | some { mark, values }, _, rfl => by
    rw [checkSequenced]
    refine .of_parts rfl ?_
    rw [Node.parts_sequencedArg]
    exact List.forall_mem_map.mpr fun x hx => checkExprs_meets values x hx

/-- Checking a subscript meets its expressions. -/
theorem checkSubscript_meets : (subscript : Subscript) →
    ∀ x ∈ subscript.exprs, (checkSubscript f u subscript).Meets f u (.expr x)
  | .element index => by
    rw [checkSubscript]
    exact List.forall_mem_singleton.mpr (checkExpr_meets index).bind
  | .span lower upper => by
    rw [checkSubscript]
    refine List.forall_mem_cons.mpr ⟨(checkExpr_meets lower).bind, List.forall_mem_singleton.mpr ?_⟩
    exact .after fun _ => (checkExpr_meets upper).bind
  | .tail lower => by
    rw [checkSubscript]
    exact List.forall_mem_singleton.mpr (checkExpr_meets lower).bind

end

/-! ## Statements -/

/-- There is nothing to meet in a declared type. -/
theorem meets_declaredType (t : DeclaredType) : c.Meets f u t.node :=
  .of_isInert (Node.isInert_declaredType t)

/-- The type and the name of a variable are not checked. -/
theorem meets_variable (v : Variable) (h : ∀ x ∈ v.specifier, c.Meets f u (.expr x)) : c.Meets f u (.variable v) := by
  refine .of_parts rfl ?_
  rw [Node.parts_variable]
  refine List.forall_mem_cons.mpr ⟨meets_declaredType _, List.forall_mem_cons.mpr ⟨.of_isInert rfl, ?_⟩⟩
  exact List.forall_mem_map.mpr fun x hx => h x (by simpa using hx)

/-- Checking a default argument meets its parameter. -/
theorem checkDefault_meets (p : Parameter) : (checkDefault f u p).Meets f u (.parameter p) := by
  have hdefault : ∀ x ∈ p.default, (checkDefault f u p).Meets f u (.expr x) := by
    intro x hx
    rw [checkDefault, Option.mem_def.mp hx]
    exact (checkExpr_meets x).bind
  refine .of_parts rfl ?_
  rw [Node.parts_parameter]
  refine List.forall_mem_cons.mpr ⟨.of_isInert rfl, List.forall_mem_cons.mpr ⟨.of_isInert rfl, ?_⟩⟩
  exact List.forall_mem_map.mpr fun x hx => hdefault x (by simpa using hx)

/-- Checking default arguments meets each parameter. -/
theorem checkDefaults_meets : (ps : List Parameter) → ∀ p ∈ ps, (checkDefaults f u ps).Meets f u (.parameter p)
  | [] => List.forall_mem_nil _
  | p :: ps => by
    rw [checkDefaults]
    refine List.forall_mem_cons.mpr ⟨(checkDefault_meets p).bind, fun p' hp' => ?_⟩
    exact .after fun _ => checkDefaults_meets ps p' hp'

/-- Checking what a statement returns meets the statement. -/
theorem checkReturn_meets (mode : Option ReturnMode) (last : Option Ty) (mark : Mark) (x : Option Expr) :
    (checkReturn f u mode last mark x).Meets f u (.stmt (.return mark x)) := by
  refine .of_parts rfl ?_
  rw [Node.parts_return]
  refine List.forall_mem_map.mpr fun x' hx' => ?_
  obtain rfl : x = some x' := by simpa using hx'
  cases mode with
  | none => exact .after fun _ => (checkExpr_meets x').discard.bind
  | some mode => cases mode <;> exact (checkExpr_meets x').bind

/-- The operand of a condition is checked first, whatever else is asked of it. -/
theorem meets_operand {o : Operand} (h : ∀ x, o = .value x → c.Meets f u (.expr x))
    (hvar : ∀ g, o = .var g → c.Meets f u (.expr g.specifier)) : c.Meets f u o.node := by
  cases o with
  | value x => exact h x rfl
  | var g =>
    refine meets_variable _ fun x hx => ?_
    obtain rfl : g.specifier = x := Option.some.inj hx
    exact hvar g rfl

/-- Checking a guard meets its operand. -/
theorem checkGuard_meets (check : Typed → Rule Unit) (o : Operand) : (checkGuard f u check o).Meets f u o.node := by
  refine meets_operand ?_ ?_
  · rintro x rfl
    exact (checkExpr_meets x).bind
  · rintro g rfl
    exact (checkExpr_meets g.specifier).bind

/-- Checking a condition meets it. -/
theorem checkCondition_meets (cond : Condition) : (checkCondition f u cond).Meets f u (.condition cond) := by
  refine .of_parts rfl ?_
  rw [Node.parts_condition]
  cases cond with
  | boolean mark x => exact List.forall_mem_singleton.mpr (checkExpr_meets x).bind
  | «exists» mark operand => exact List.forall_mem_singleton.mpr (checkGuard_meets _ operand)
  | nonempty mark operand => exact List.forall_mem_singleton.mpr (checkGuard_meets _ operand)
  | is mark narrowed operand =>
    refine List.forall_mem_cons.mpr ⟨.of_isInert rfl, List.forall_mem_singleton.mpr (meets_operand ?_ ?_)⟩
    · rintro x rfl
      exact (checkExpr_meets x).discard
    · rintro g rfl
      exact (checkExpr_meets g.specifier).discard.bind

/-- Checking an iteration meets it. -/
theorem checkIteration_meets (i : Iteration) : (checkIteration f u i).Meets f u (.iteration i) := by
  refine .of_parts rfl ?_
  rw [Node.parts_iteration]
  -- Loop variables have no expressions of their own.
  have hvariable : ∀ v : LoopVariable, (checkIteration f u i).Meets f u (.variable v.variable) := by
    refine fun v => meets_variable _ fun x hx => ?_
    cases hx
  cases i with
  | values mark var source =>
    exact List.forall_mem_cons.mpr ⟨hvariable var, List.forall_mem_singleton.mpr (checkExpr_meets source).bind⟩
  | entries mark key value source =>
    exact List.forall_mem_cons.mpr ⟨hvariable key, List.forall_mem_cons.mpr ⟨hvariable value,
      List.forall_mem_singleton.mpr (checkExpr_meets source).bind⟩⟩

/-- Checking an extended type meets it. -/
theorem checkExtended_meets (m : Mark) (e : ExtendedType) :
    (checkExtended f u m (some e)).Meets f u (.extendedType e) := by
  refine .of_parts rfl ?_
  rw [Node.parts_extendedType]
  refine List.forall_mem_cons.mpr ⟨.of_isInert rfl, List.forall_mem_singleton.mpr (.of_parts rfl ?_)⟩
  rw [Node.parts_positionalArgs]
  exact List.forall_mem_map.mpr fun x hx => (checkExprs_meets _ x hx).bind

mutual

/-- Checking a statement meets it and all below it. -/
theorem checkStmt_meets (mode : Option ReturnMode) (last : Option Ty) :
    (s : Stmt) → (checkStmt f u mode last s).Meets f u (.stmt s)
  | .classDecl d => by
    rw [checkStmt]
    -- A declaration is met in its own task, which is visited here.
    exact (Check.Meets.of_task (.ofClass d) rfl).bind
  | .interfaceDecl { mark, annotations, name, typeParams, satisfied, body } => by
    rw [checkStmt]
    refine .of_parts rfl ?_
    rw [Node.parts_interfaceDecl]
    refine List.forall_mem_append.mpr
      ⟨List.forall_mem_append.mpr ⟨List.forall_mem_cons.mpr ⟨.of_isInert rfl, ?_⟩, ?_⟩, ?_⟩
    · exact List.forall_mem_map.mpr fun _ _ => .of_isInert rfl
    · exact List.forall_mem_map.mpr fun _ _ => .of_isInert rfl
    · exact List.forall_mem_singleton.mpr (checkBlock_meets none none body).discard.bind
  | .method d => by
    rw [checkStmt]
    exact (Check.Meets.of_task (.method d) rfl).bind
  | .attribute d => by
    rw [checkStmt]
    exact (Check.Meets.of_task (.attribute d) rfl).bind
  | .getter d => by
    rw [checkStmt]
    exact (Check.Meets.of_task (.getter d) rfl).bind
  | .setter d => by
    rw [checkStmt]
    exact (Check.Meets.of_task (.setter d) rfl).bind
  | .expr mark x => by
    rw [checkStmt]
    refine .of_parts rfl ?_
    rw [Node.parts_exprStmt]
    exact List.forall_mem_singleton.mpr (checkExpr_meets x).discard.bind
  | .return mark x => by
    rw [checkStmt]
    exact checkReturn_meets mode last mark x
  | .break _ => .of_parts rfl (List.forall_mem_nil _)
  | .continue _ => .of_parts rfl (List.forall_mem_nil _)
  | .ifElse s => by
    rw [checkStmt]
    exact checkIf_meets mode last s
  | .while mark { mark := clauseMark, cond, body } => by
    rw [checkStmt]
    refine .of_parts rfl ?_
    rw [Node.parts_while]
    refine List.forall_mem_singleton.mpr (.of_parts rfl ?_)
    rw [Node.parts_whileClause]
    exact List.forall_mem_cons.mpr ⟨(checkCondition_meets cond).bind, List.forall_mem_singleton.mpr
      (.after fun _ => checkBlock_meets mode last body)⟩
  | .for mark { mark := clauseMark, iteration, body } fail => by
    rw [checkStmt]
    refine .of_parts rfl ?_
    rw [Node.parts_for]
    refine List.forall_mem_cons.mpr ⟨.of_parts rfl ?_, List.forall_mem_map.mpr fun e he => ?_⟩
    · rw [Node.parts_forClause]
      exact List.forall_mem_cons.mpr ⟨(checkIteration_meets iteration).bind, List.forall_mem_singleton.mpr
        (.after fun _ => (checkBlock_meets mode last body).bind)⟩
    · -- The clause behind the loop comes after the iteration and the body.
      exact .after fun _ => .after fun last => checkFail_meets mode last fail e (by simpa using he)

/-- Checking statements meets each of them. -/
theorem checkStmts_meets (mode : Option ReturnMode) (last : Option Ty) :
    (ss : List Stmt) → ∀ s ∈ ss, (checkStmts f u mode last ss).Meets f u (.stmt s)
  | [] => List.forall_mem_nil _
  | s :: ss => by
    rw [checkStmts]
    refine List.forall_mem_cons.mpr ⟨(checkStmt_meets mode last s).bind, fun s' hs' => ?_⟩
    exact .after fun last => checkStmts_meets mode last ss s' hs'

/-- Checking a block meets it. -/
theorem checkBlock_meets (mode : Option ReturnMode) (last : Option Ty) :
    (b : Block) → (checkBlock f u mode last b).Meets f u (.block b)
  | { mark, stmts, close } => by
    rw [checkBlock]
    refine .of_parts rfl ?_
    rw [Node.parts_block]
    exact List.forall_mem_map.mpr fun s hs => checkStmts_meets mode last stmts s hs

/-- Checking a conditional statement meets it. -/
theorem checkIf_meets (mode : Option ReturnMode) (last : Option Ty) :
    (s : IfStmt) → (checkIf f u mode last s).Meets f u (.stmt (.ifElse s))
  | { mark, clause := { mark := clauseMark, cond, body }, alternative } => by
    rw [checkIf]
    refine .of_parts rfl ?_
    rw [Node.parts_ifElse]
    refine List.forall_mem_cons.mpr ⟨.of_parts rfl ?_, List.forall_mem_map.mpr fun e he => ?_⟩
    · rw [Node.parts_ifClause]
      exact List.forall_mem_cons.mpr ⟨(checkCondition_meets cond).bind, List.forall_mem_singleton.mpr
        (.after fun _ => (checkBlock_meets mode last body).bind)⟩
    · exact .after fun _ => .after fun last => checkElse_meets mode last alternative e (by simpa using he)

/-- Checking an alternative meets it. -/
theorem checkElse_meets (mode : Option ReturnMode) (last : Option Ty) :
    (e : Option ElseClause) → ∀ e' ∈ e, (checkElse f u mode last e).Meets f u (.elseClause e')
  | some (.block mark b), _, rfl => by
    rw [checkElse]
    refine .of_parts rfl ?_
    rw [Node.parts_else]
    exact List.forall_mem_singleton.mpr (checkBlock_meets mode last b)
  | some (.ifElse mark s), _, rfl => by
    rw [checkElse]
    refine .of_parts rfl ?_
    rw [Node.parts_elseIf]
    exact List.forall_mem_singleton.mpr (checkIf_meets mode last s)

/-- Checking the clause behind a loop meets it. -/
theorem checkFail_meets (mode : Option ReturnMode) (last : Option Ty) :
    (e : Option FailClause) → ∀ e' ∈ e, (checkFail f u mode last e).Meets f u (.failClause e')
  | some { mark, body }, _, rfl => by
    rw [checkFail]
    refine .of_parts rfl ?_
    rw [Node.parts_failClause]
    exact List.forall_mem_singleton.mpr (checkBlock_meets mode last body)

end

/-! ## Tasks -/

/-- Checking default arguments meets the list of parameters. -/
theorem checkParams_meets (l : ParameterList) : (checkDefaults f u l.params).Meets f u (.parameterList l) := by
  refine .of_parts rfl ?_
  rw [Node.parts_parameterList]
  exact List.forall_mem_map.mpr fun p hp => checkDefaults_meets l.params p hp

/-- Checking the body of a method meets it. -/
theorem checkMethodBody_meets (name : Name) (mode : ReturnMode) (b : MethodBody) :
    ∀ n ∈ b.nodes, (checkMethodBody f u name mode b).Meets f u n := by
  cases b with
  | absent => exact List.forall_mem_nil _
  | computed x => exact List.forall_mem_singleton.mpr (checkExpr_meets x).bind
  | block b => exact List.forall_mem_singleton.mpr (checkBlock_meets _ _ b).bind

/-- The check of a task comes to all nodes below its own that are not left to other tasks. -/
theorem Task.check_meets (t : Task) : ∀ p ∈ t.node.parts, (t.check f u).Meets f u p := by
  cases t with
  | unit unit =>
    rw [Task.node, Node.parts_unit]
    refine List.forall_mem_append.mpr ⟨List.forall_mem_append.mpr ⟨?_, ?_⟩, List.forall_mem_map.mpr fun s hs => ?_⟩
    · exact List.forall_mem_map.mpr fun _ _ => .of_isInert rfl
    · exact List.forall_mem_map.mpr fun _ _ => .of_isInert rfl
    · exact (checkStmts_meets none none unit.body s hs).discard.bind
  | ofClass d =>
    -- Of the parts of a class its parameters, its extended type and its body are checked, in this order.
    rw [Task.node, Node.parts_classDecl]
    refine List.forall_mem_append.mpr ⟨List.forall_mem_append.mpr ⟨List.forall_mem_append.mpr ⟨?_, ?_⟩, ?_⟩, ?_⟩
    · exact List.forall_mem_cons.mpr ⟨.of_isInert rfl, List.forall_mem_map.mpr fun _ _ => .of_isInert rfl⟩
    · refine List.forall_mem_cons.mpr ⟨(checkParams_meets d.params).bind, List.forall_mem_map.mpr fun e he => ?_⟩
      -- The extended type is there, as it is one of the parts.
      rw [Task.check, show d.extended = some e by simpa using he]
      exact .after fun _ => (checkExtended_meets d.mark e).bind
    · exact List.forall_mem_map.mpr fun _ _ => .of_isInert rfl
    · exact List.forall_mem_singleton.mpr (.after fun _ => .after fun _ => (checkBlock_meets _ _ d.body).discard.bind)
  | method d =>
    rw [Task.node, Node.parts_method]
    refine List.forall_mem_append.mpr ⟨List.forall_mem_cons.mpr ⟨meets_declaredType _, List.forall_mem_cons.mpr
      ⟨.of_isInert rfl, List.forall_mem_map.mpr fun _ _ => .of_isInert rfl⟩⟩, ?_⟩
    refine List.forall_mem_cons.mpr ⟨(checkParams_meets d.params).bind, fun n hn => ?_⟩
    exact .after fun _ => checkMethodBody_meets _ _ d.body n hn
  | «attribute» d =>
    rw [Task.node, Node.parts_attribute]
    refine List.forall_mem_cons.mpr ⟨meets_declaredType _, List.forall_mem_cons.mpr ⟨.of_isInert rfl, ?_⟩⟩
    refine List.forall_mem_map.mpr fun x hx => ?_
    rw [Task.check, checkAttribute, show d.init.expr? = some x by simpa using hx]
    exact (checkExpr_meets x).bind
  | getter d =>
    rw [Task.node, Node.parts_getter]
    exact List.forall_mem_cons.mpr ⟨meets_declaredType _, List.forall_mem_cons.mpr ⟨.of_isInert rfl,
      List.forall_mem_singleton.mpr (checkBlock_meets _ none d.body).bind⟩⟩
  | setter d =>
    rw [Task.node, Node.parts_setter]
    exact List.forall_mem_cons.mpr ⟨.of_isInert rfl, List.forall_mem_singleton.mpr
      (.after fun _ => (checkBlock_meets _ none d.body).discard.bind)⟩

end

end Analysis

end Ceylon
