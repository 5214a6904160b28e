import Ceylon.Proofs.Tasks

/-!
# Every expression is settled once

The check of a task settles only expressions that are assigned to the task, and gives types only to variables that
are; each of them once at most, whatever the answers to its questions are (`Task.check_settles`).  So what it costs,
at the number of each expression and variable, stays within the numbers of the nodes below its own.
-/

namespace Ceylon

namespace Syntax

namespace Node

/-- The nodes of a part are among those of the node. -/
theorem idSet_le_of_part {n p : Node} (h : p ∈ n.parts) : p.idSet ≤ n.idSet := by
  simpa using part_idSet_le (List.singleton_sublist.mpr h)

/-- The nodes of two parts are among those of the node. -/
theorem pair_idSet_le {n p q : Node} (h : n.parts = [p, q]) : p.idSet + q.idSet ≤ n.idSet := by
  simpa [h] using part_idSet_le (List.Sublist.refl n.parts)

end Node

namespace Expr

variable {x : Expr} {p q : Node}

/-- An expression is one of its own nodes. -/
theorem id_le_idSet (x : Expr) : {x.mark.id} ≤ (Node.expr x).idSet :=
  (Node.expr x).id_le_idSet

/-- An expression and the nodes of its parts are its nodes. -/
theorem parts_idSet_le (x : Expr) :
    ((Node.expr x).parts.map Node.idSet).sum + {x.mark.id} ≤ (Node.expr x).idSet :=
  Node.sum_idSet_le (List.Sublist.refl _)

/-- An expression with one operand. -/
theorem operand_idSet_le (h : [p].Sublist (Node.expr x).parts) :
    p.idSet + {x.mark.id} ≤ (Node.expr x).idSet := by
  simpa [Node.mark] using Node.sum_idSet_le h

/-- An expression with two operands. -/
theorem operands_idSet_le (h : [p, q].Sublist (Node.expr x).parts) :
    p.idSet + (q.idSet + {x.mark.id}) ≤ (Node.expr x).idSet := by
  simpa [Node.mark, add_assoc] using Node.sum_idSet_le h

end Expr

/-- A node of a unit is checked by the task with the given node, or is a task itself. -/
structure CompilationUnit.Offers (u : CompilationUnit) (task n : Node) : Prop where
  has : u.Has n
  assigns : n.isTask = false → u.Assigns task n

/-- The parts of what is assigned to a task are offered to it. -/
theorem CompilationUnit.Assigns.offers {u : CompilationUnit} {task n p : Node} (h : u.Assigns task n)
    (hp : p ∈ n.parts) : u.Offers task p :=
  ⟨h.has.part hp, h.part hp⟩

end Syntax

namespace Analysis

open Model Syntax

/-- What the steps of a check cost: settling an expression costs its number, and so does giving a variable its
type. -/
def Act.cost : Act → Multiset Nat
  | .settle m .. => {m.id}
  | .infer m _ => {m.id}
  | _ => 0

/-- The expressions that a step settles are assigned to the task, and so are the variables that it gives types
that were left out; the tasks that it has checked are those of nodes of the unit. -/
def Act.Within (tree : CompilationUnit) (task : Node) : Act → Prop
  | .settle m .. => ∃ x, tree.Assigns task (.expr x) ∧ x.mark = m
  | .infer m _ => ∃ v : Variable, tree.Assigns task (.variable v) ∧ v.type.isInferred ∧ v.mark = m
  | .visit t => tree.Has t.node ∧ t.node.isTask
  | _ => True

/-- A check settles only expressions and variables that are assigned to the task, and each number is settled
once. -/
abbrev Check.Settles {α : Type} (tree : CompilationUnit) (task : Node) (c : Check α) (ids : Multiset Nat) : Prop :=
  c.Spends (Act.Within tree task) Act.cost ids

section

variable {tree : CompilationUnit} {task : Node} {f : State} {u : UnitId} {α : Type} {ids : Multiset Nat}

/-- Rules settle nothing. -/
theorem applyRule_settles (r : Rule α) : (applyRule r).Settles tree task ids := by
  induction r generalizing ids with
  | done a => trivial
  | ask q next ih => exact ⟨trivial, ids, (zero_add ids).le, fun r => ih r⟩

/-- Settling an expression uses its number once. -/
theorem settle_settles {x : Expr} (h : tree.Assigns task (.expr x)) (t : Ty) (target : Option DeclId) :
    (settle x.mark t target).Settles tree task {x.mark.id} :=
  .ask ⟨x, h, rfl⟩ le_rfl

/-- Visiting a task settles nothing of the one that is under way. -/
theorem visit_settles {t : Task} (h : tree.Has t.node) (htask : t.node.isTask) :
    (visit t).Settles tree task ids :=
  .ask ⟨h, htask⟩ (Multiset.zero_le _)

/-- Inferring the type of a variable uses its number once. -/
theorem inferVariable_settles {v : Variable} (h : tree.Assigns task (.variable v)) (hinferred : v.type.isInferred)
    (t : Ty) : (inferVariable v.mark t).Settles tree task {v.mark.id} :=
  .ask ⟨v, h, hinferred, rfl⟩ le_rfl

/-! ## Expressions -/

/-- An expression is settled once its rule has been applied. -/
theorem conclude_settles {x : Expr} (h : tree.Assigns task (.expr x)) (faulty : Bool) (rule : Rule Verdict) :
    (conclude x faulty rule).Settles tree task {x.mark.id} :=
  .free_bind (applyRule_settles _) fun _ => .bind_free (settle_settles h _ _) fun _ => .pure _

/-- An expression is settled once its type has been found. -/
theorem concludeType_settles {x : Expr} (h : tree.Assigns task (.expr x)) (faulty : Bool) (rule : Rule Ty) :
    (concludeType x faulty rule).Settles tree task {x.mark.id} :=
  conclude_settles h faulty _

mutual

/-- Checking an expression settles it and the expressions below it once. -/
theorem checkExpr_settles : (x : Expr) → tree.Assigns task (.expr x) →
    (checkExpr f u x).Settles tree task (Node.expr x).idSet
  | .reference mark sort name typeArgs, h => by
    rw [checkExpr]
    exact (conclude_settles h _ _).mono (Expr.id_le_idSet _)
  | .qualified mark primary op sort name typeArgs, h => by
    rw [checkExpr]
    have hparts := Node.parts_expr (.qualified mark primary op sort name typeArgs)
    -- The primary settles its own nodes, and the rule behind it the expression itself.
    exact .bind_le (checkExpr_settles primary (h.part (by simp [hparts]) rfl)) (fun _ => conclude_settles h _ _)
      (Expr.operand_idSet_le (by simp [hparts]))
  | .invocation mark primary args, h => by
    rw [checkExpr]
    have hparts := Node.parts_expr (.invocation mark primary args)
    have hargs := h.part (p := args.node) (by simp [hparts]) (by cases args <;> rfl)
    exact .bind_le (checkExpr_settles primary (h.part (by simp [hparts]) rfl))
      (fun _ => (checkArguments_settles args hargs).bind fun _ => concludeType_settles h _ _)
      (Expr.operands_idSet_le (by simp [hparts]))
  | .index mark primary safe subscript, h => by
    rw [checkExpr]
    have hparts := Node.parts_expr (.index mark primary safe subscript)
    refine .bind_le (checkExpr_settles primary (h.part (by simp [hparts]) rfl))
      (fun _ => (checkSubscript_settles subscript fun x hx => h.part (by simp [hparts, hx]) rfl).bind
        fun _ => concludeType_settles h _ _) ?_
    simpa [hparts, add_assoc] using Expr.parts_idSet_le (.index mark primary safe subscript)
  | .literal mark kind text, h => by
    rw [checkExpr]
    exact (concludeType_settles h _ _).mono (Expr.id_le_idSet _)
  | .self mark kind, h => by
    rw [checkExpr]
    exact (conclude_settles h _ _).mono (Expr.id_le_idSet _)
  | .sequence mark elems, h => by
    rw [checkExpr]
    have hparts := Node.parts_expr (.sequence mark elems)
    refine .bind_le (checkExprs_settles elems fun x hx => h.part (by simp [hparts, hx]) rfl)
      (fun _ => concludeType_settles h _ _) ?_
    simpa [hparts] using Expr.parts_idSet_le (.sequence mark elems)
  | .paren mark x, h => by
    rw [checkExpr]
    have hparts := Node.parts_expr (.paren mark x)
    exact .bind_le (checkExpr_settles x (h.part (by simp [hparts]) rfl))
      (fun _ => .bind_free (settle_settles h _ _) fun _ => .pure _)
      (Expr.operand_idSet_le (by simp [hparts]))
  | .binary mark op x y, h => by
    rw [checkExpr]
    have hparts := Node.parts_expr (.binary mark op x y)
    exact .bind_le (checkExpr_settles x (h.part (by simp [hparts]) rfl))
      (fun _ => (checkExpr_settles y (h.part (by simp [hparts]) rfl)).bind fun _ => concludeType_settles h _ _)
      (Expr.operands_idSet_le (by simp [hparts]))
  | .prefixed mark op x, h => by
    rw [checkExpr]
    have hparts := Node.parts_expr (.prefixed mark op x)
    exact .bind_le (checkExpr_settles x (h.part (by simp [hparts]) rfl)) (fun _ => concludeType_settles h _ _)
      (Expr.operand_idSet_le (by simp [hparts]))
  | .postfixed mark op x, h => by
    rw [checkExpr]
    have hparts := Node.parts_expr (.postfixed mark op x)
    exact .bind_le (checkExpr_settles x (h.part (by simp [hparts]) rfl)) (fun _ => concludeType_settles h _ _)
      (Expr.operand_idSet_le (by simp [hparts]))
  | .isTest mark x tested, h => by
    rw [checkExpr]
    have hparts := Node.parts_expr (.isTest mark x tested)
    exact .bind_le (checkExpr_settles x (h.part (by simp [hparts]) rfl)) (fun _ => concludeType_settles h _ _)
      (Expr.operand_idSet_le (by simp [hparts]))
  | .existsTest mark x, h => by
    rw [checkExpr]
    have hparts := Node.parts_expr (.existsTest mark x)
    exact .bind_le (checkExpr_settles x (h.part (by simp [hparts]) rfl)) (fun _ => concludeType_settles h _ _)
      (Expr.operand_idSet_le (by simp [hparts]))
  | .nonemptyTest mark x, h => by
    rw [checkExpr]
    have hparts := Node.parts_expr (.nonemptyTest mark x)
    exact .bind_le (checkExpr_settles x (h.part (by simp [hparts]) rfl)) (fun _ => concludeType_settles h _ _)
      (Expr.operand_idSet_le (by simp [hparts]))

/-- Checking expressions settles the nodes of each once. -/
theorem checkExprs_settles : (xs : List Expr) → (∀ x ∈ xs, tree.Assigns task (.expr x)) →
    (checkExprs f u xs).Settles tree task ((xs.map Node.expr).map Node.idSet).sum
  | [], _ => by
    rw [checkExprs]
    exact .pure _
  | x :: xs, h => by
    rw [checkExprs]
    refine .bind_le (checkExpr_settles x (h x List.mem_cons_self)) (fun _ =>
      .bind_free (checkExprs_settles xs fun x hx => h x (List.mem_cons_of_mem _ hx)) fun _ => .pure _) ?_
    simp

/-- Checking arguments settles their nodes once. -/
theorem checkArguments_settles : (args : Arguments) → tree.Assigns task args.node →
    (checkArguments f u args).Settles tree task args.node.idSet
  | .positional { mark, args }, h => by
    rw [checkArguments]
    have hparts := Node.parts_positionalArgs { mark, args }
    refine .bind_free ((checkExprs_settles args fun x hx =>
      h.part (by simp [Arguments.node, hparts, hx]) rfl).mono ?_) fun _ => .pure _
    simpa [Arguments.node, hparts] using
      Node.part_idSet_le (List.Sublist.refl (Node.positionalArgs { mark, args }).parts)
  | .named { mark, args, sequenced }, h => by
    rw [checkArguments]
    have hparts := Node.parts_namedArgs { mark, args, sequenced }
    refine .bind_le (checkNamed_settles args fun a ha => h.part (by simp [Arguments.node, hparts, ha]) rfl)
      (fun _ => .bind_free (checkSequenced_settles sequenced fun a ha =>
        h.part (by simpa [Arguments.node, hparts] using ha) rfl) fun _ => .pure _) ?_
    simpa [Arguments.node, hparts] using
      Node.part_idSet_le (List.Sublist.refl (Node.namedArgs { mark, args, sequenced }).parts)

/-- Checking named arguments settles their nodes once. -/
theorem checkNamed_settles : (args : List NamedArg) → (∀ a ∈ args, tree.Assigns task (.namedArg a)) →
    (checkNamed f u args).Settles tree task ((args.map Node.namedArg).map Node.idSet).sum
  | [], _ => by
    rw [checkNamed]
    exact .pure _
  | { mark, name, value } :: as, h => by
    rw [checkNamed]
    have hparts := Node.parts_namedArg { mark, name, value }
    have hvalue := (h _ List.mem_cons_self).part (p := .expr value) (by simp [hparts]) rfl
    refine .bind_le (checkExpr_settles value hvalue) (fun _ =>
      .bind_free (checkNamed_settles as fun a ha => h a (List.mem_cons_of_mem _ ha)) fun _ => .pure _) ?_
    rw [List.map_cons, List.map_cons, List.sum_cons]
    refine add_le_add_left ?_ _
    exact Node.idSet_le_of_part (by simp [hparts])

/-- Checking the sequenced argument settles its nodes once. -/
theorem checkSequenced_settles : (arg : Option SequencedArg) → (∀ a ∈ arg, tree.Assigns task (.sequencedArg a)) →
    (checkSequenced f u arg).Settles tree task ((arg.toList.map Node.sequencedArg).map Node.idSet).sum
  | none, _ => by
    rw [checkSequenced]
    exact .pure _
  | some { mark, values }, h => by
    rw [checkSequenced]
    have hparts := Node.parts_sequencedArg { mark, values }
    refine (checkExprs_settles values fun x hx => (h _ rfl).part (by simp [hparts, hx]) rfl).mono ?_
    simpa [hparts] using Node.part_idSet_le (List.Sublist.refl (Node.sequencedArg { mark, values }).parts)

/-- Checking a subscript settles the nodes of its expressions once. -/
theorem checkSubscript_settles : (s : Subscript) → (∀ x ∈ s.exprs, tree.Assigns task (.expr x)) →
    (checkSubscript f u s).Settles tree task ((s.exprs.map Node.expr).map Node.idSet).sum
  | .element index, h => by
    rw [checkSubscript]
    simpa [Subscript.exprs] using Dialogue.Spends.bind_free (checkExpr_settles index
      (h _ (by simp [Subscript.exprs]))) fun _ => .pure _
  | .span lower upper, h => by
    rw [checkSubscript]
    refine .bind_le (checkExpr_settles lower (h _ (by simp [Subscript.exprs]))) (fun _ =>
      .bind_free (checkExpr_settles upper (h _ (by simp [Subscript.exprs]))) fun _ => .pure _) ?_
    simp [Subscript.exprs]
  | .tail lower, h => by
    rw [checkSubscript]
    simpa [Subscript.exprs] using Dialogue.Spends.bind_free (checkExpr_settles lower
      (h _ (by simp [Subscript.exprs]))) fun _ => .pure _

end

/-! ## Statements -/

/-- What settles no more than is below some parts of a node settles no more than is below the node. -/
theorem settles_of_parts {c : Check α} {n : Node} (ns : List Node) (hns : ns.Sublist n.parts)
    (h : c.Settles tree task (ns.map Node.idSet).sum) : c.Settles tree task n.idSet :=
  h.mono (Node.part_idSet_le hns)

/-- What settles all parts of a node settles among its nodes. -/
theorem settles_of_all_parts {c : Check α} {n : Node} {ns : List Node} (hns : n.parts = ns)
    (h : c.Settles tree task (ns.map Node.idSet).sum) : c.Settles tree task n.idSet :=
  settles_of_parts ns (hns ▸ List.Sublist.refl _) h

/-- What settles a part of a node settles among its nodes. -/
theorem settles_of_part {c : Check α} {n p : Node} (hp : p ∈ n.parts) (h : c.Settles tree task p.idSet) :
    c.Settles tree task n.idSet :=
  h.mono (Node.idSet_le_of_part hp)

/-- Checking a default argument settles its nodes once. -/
theorem checkDefault_settles (p : Parameter) (h : tree.Assigns task (.parameter p)) :
    (checkDefault f u p).Settles tree task (Node.parameter p).idSet := by
  rw [checkDefault]
  split
  · exact .pure _
  · next x hx =>
    have hpart : .expr x ∈ (Node.parameter p).parts := by simp [Node.parts_parameter, hx]
    exact settles_of_part hpart ((checkExpr_settles x (h.part hpart rfl)).bind_free fun _ => applyRule_settles _)

/-- Checking default arguments settles the nodes of each once. -/
theorem checkDefaults_settles : (ps : List Parameter) → (∀ p ∈ ps, tree.Assigns task (.parameter p)) →
    (checkDefaults f u ps).Settles tree task ((ps.map Node.parameter).map Node.idSet).sum
  | [], _ => .pure _
  | p :: ps, h => by
    rw [checkDefaults]
    exact (checkDefault_settles p (h p List.mem_cons_self)).bind fun _ =>
      checkDefaults_settles ps fun p hp => h p (List.mem_cons_of_mem _ hp)

/-- Checking an expression that may be missing settles its nodes once. -/
theorem checkOption_settles (x : Option Expr) (h : ∀ x' ∈ x, tree.Assigns task (.expr x')) :
    (checkOption f u x).Settles tree task ((x.toList.map Node.expr).map Node.idSet).sum := by
  cases x with
  | none => exact .pure _
  | some x => simpa [checkOption] using (checkExpr_settles (f := f) (u := u) x (h x rfl)).discard

/-- Checking what a statement returns settles its nodes once. -/
theorem checkReturn_settles (mode : Option ReturnMode) (last : Option Ty) (mark : Mark) (x : Option Expr)
    (h : tree.Assigns task (.stmt (.return mark x))) :
    (checkReturn f u mode last mark x).Settles tree task (Node.stmt (.return mark x)).idSet := by
  have hparts := Node.parts_return mark x
  have hx : ∀ x' ∈ x, tree.Assigns task (.expr x') := fun x' hx' => h.part (by simpa [hparts] using hx') rfl
  have hoption : (checkOption f u x).Settles tree task (Node.stmt (.return mark x)).idSet :=
    settles_of_all_parts hparts (checkOption_settles x hx)
  unfold checkReturn
  split
  · exact .free_bind (applyRule_settles _) fun _ => hoption.bind_free fun _ => .pure _
  · exact .pure _
  · exact .pure _
  · exact .bind_free (applyRule_settles _) fun _ => .pure _
  · next x =>
    have hpart : .expr x ∈ (Node.stmt (.return mark (some x))).parts := by simp [hparts]
    exact settles_of_part hpart ((checkExpr_settles x (hx x rfl)).bind_free fun _ => applyRule_settles _)

/-- Giving a variable its type uses its number once. -/
theorem giveType_settles {v : Variable} (h : tree.Assigns task (.variable v)) (t : Ty) (faulty : Bool)
    (message : String) : (giveType f u v t faulty message).Settles tree task {v.mark.id} := by
  rw [giveType]
  split
  · next hinferred => exact .free_bind (applyRule_settles _) fun _ => inferVariable_settles h hinferred _
  · exact applyRule_settles _

/-- A variable is one of its own nodes. -/
theorem variable_id_le_idSet (v : Variable) : {v.mark.id} ≤ (Node.variable v).idSet :=
  (Node.variable v).id_le_idSet

/-- The value of a guard is a part of its variable. -/
theorem specifier_mem_parts (g : Guard) : .expr g.specifier ∈ (Node.variable g.variable).parts := by
  simp [Node.parts_variable, Guard.variable]

/-- The specifier of a guard and its variable are settled. -/
theorem guard_idSet_le (g : Guard) :
    (Node.expr g.specifier).idSet + {g.variable.mark.id} ≤ (Node.variable g.variable).idSet := by
  simpa [Node.mark] using Node.sum_idSet_le (List.singleton_sublist.mpr (specifier_mem_parts g))

/-- Checking a guard settles the nodes of its operand once. -/
theorem checkGuard_settles (check : Typed → Rule Unit) (o : Operand) (h : tree.Assigns task o.node) :
    (checkGuard f u check o).Settles tree task o.node.idSet := by
  cases o with
  | value x => exact (checkExpr_settles x h).bind_free fun _ => applyRule_settles _
  | var g =>
    exact .bind_le (checkExpr_settles _ (h.part (specifier_mem_parts g) rfl)) (fun _ =>
      .free_bind (applyRule_settles _) fun _ => giveType_settles h _ _ _) (guard_idSet_le g)

/-- Checking a condition settles its nodes once. -/
theorem checkCondition_settles (c : Condition) (h : tree.Assigns task (.condition c)) :
    (checkCondition f u c).Settles tree task (Node.condition c).idSet := by
  have hparts := Node.parts_condition c
  -- An operand is a value or a variable, and both belong to the task of their condition.
  have hoperand : ∀ o : Operand, o.node ∈ (Node.condition c).parts → tree.Assigns task o.node :=
    fun o ho => h.part ho (by cases o <;> rfl)
  cases c with
  | boolean mark x =>
    have hpart : .expr x ∈ (Node.condition (.boolean mark x)).parts := by simp [hparts]
    exact settles_of_part hpart ((checkExpr_settles x (h.part hpart rfl)).bind_free fun _ => applyRule_settles _)
  | «exists» mark operand =>
    have hpart : operand.node ∈ (Node.condition (.exists mark operand)).parts := by simp [hparts]
    exact settles_of_part hpart (checkGuard_settles _ operand (hoperand _ hpart))
  | nonempty mark operand =>
    have hpart : operand.node ∈ (Node.condition (.nonempty mark operand)).parts := by simp [hparts]
    exact settles_of_part hpart (checkGuard_settles _ operand (hoperand _ hpart))
  | is mark narrowed operand =>
    have hpart : operand.node ∈ (Node.condition (.is mark narrowed operand)).parts := by simp [hparts]
    refine settles_of_part hpart ?_
    cases operand with
    | value x => exact (checkExpr_settles x (hoperand _ hpart)).discard
    | var g =>
      exact .bind_le (checkExpr_settles _ ((hoperand _ hpart).part (specifier_mem_parts g) rfl)).discard
        (fun _ => giveType_settles (hoperand _ hpart) _ _ _) (guard_idSet_le g)

/-- Checking an iteration settles its nodes once. -/
theorem checkIteration_settles (i : Iteration) (h : tree.Assigns task (.iteration i)) :
    (checkIteration f u i).Settles tree task (Node.iteration i).idSet := by
  have hparts := Node.parts_iteration i
  refine settles_of_all_parts hparts ?_
  cases i with
  | values mark var source =>
    refine .bind_le (checkExpr_settles source (h.part (by simp [hparts]) rfl)) (fun _ =>
      .free_bind (applyRule_settles _) fun _ => giveType_settles (h.part (by simp [hparts]) rfl) _ _ _) ?_
    rw [List.map_cons, List.map_singleton, List.sum_cons, List.sum_singleton, add_comm]
    exact add_le_add_left (variable_id_le_idSet var.variable) _
  | entries mark key value source =>
    refine .bind_le (checkExpr_settles source (h.part (by simp [hparts]) rfl)) (fun _ =>
      .free_bind (applyRule_settles _) fun _ => (giveType_settles (h.part (by simp [hparts]) rfl) _ _ _).bind fun _ =>
        giveType_settles (h.part (by simp [hparts]) rfl) _ _ _) ?_
    rw [List.map_cons, List.map_cons, List.map_singleton, List.sum_cons, List.sum_cons, List.sum_singleton,
      add_comm (Node.expr source).idSet, ← add_assoc (Node.variable key.variable).idSet]
    exact add_le_add_left (add_le_add (variable_id_le_idSet key.variable) (variable_id_le_idSet value.variable)) _

/-- Checking an extended type settles its nodes once. -/
theorem checkExtended_settles (m : Mark) (e : Option ExtendedType)
    (h : ∀ e' ∈ e, tree.Assigns task (.extendedType e')) :
    (checkExtended f u m e).Settles tree task ((e.toList.map Node.extendedType).map Node.idSet).sum := by
  cases e with
  | none => exact .pure _
  | some e =>
    have hargs : .positionalArgs e.args ∈ (Node.extendedType e).parts := by simp [Node.parts_extendedType]
    have hparts := Node.parts_positionalArgs e.args
    have hexprs : (checkExprs f u e.args.args).Settles tree task (Node.extendedType e).idSet := by
      refine settles_of_part hargs (settles_of_all_parts hparts (checkExprs_settles _ fun x hx => ?_))
      exact ((h e rfl).part hargs rfl).part (by simp [hparts, hx]) rfl
    have : ((([e].map Node.extendedType).map Node.idSet).sum : Multiset Nat) = (Node.extendedType e).idSet := by simp
    rw [Option.toList_some, this, checkExtended]
    refine hexprs.bind_free fun _ => ?_
    split
    · exact .pure _
    · split
      · exact applyRule_settles _
      · exact .pure _

mutual

/-- Checking a statement settles the expressions below it once, but for those that are left to other tasks. -/
theorem checkStmt_settles (mode : Option ReturnMode) (last : Option Ty) : (s : Stmt) →
    tree.Offers task (.stmt s) → (checkStmt f u mode last s).Settles tree task (Node.stmt s).idSet
  | .classDecl d, h => by
    rw [checkStmt]
    -- A declaration is a task of its own, which settles its nodes when it is checked.
    exact .bind_free (visit_settles h.has rfl) fun _ => .pure _
  | .interfaceDecl { mark, annotations, name, typeParams, satisfied, body }, h => by
    rw [checkStmt]
    have hpart : .block body ∈ (Node.stmt (.interfaceDecl
      { mark, annotations, name, typeParams, satisfied, body })).parts := by simp [Node.parts_interfaceDecl]
    exact .bind_free (settles_of_part hpart (checkBlock_settles none none body
      ((h.assigns rfl).part hpart rfl)).discard) fun _ => .pure _
  | .method d, h => by
    rw [checkStmt]
    exact .bind_free (visit_settles h.has rfl) fun _ => .pure _
  | .attribute d, h => by
    rw [checkStmt]
    exact .bind_free (visit_settles h.has rfl) fun _ => .pure _
  | .getter d, h => by
    rw [checkStmt]
    exact .bind_free (visit_settles h.has rfl) fun _ => .pure _
  | .setter d, h => by
    rw [checkStmt]
    exact .bind_free (visit_settles h.has rfl) fun _ => .pure _
  | .expr mark x, h => by
    rw [checkStmt]
    have hpart : .expr x ∈ (Node.stmt (.expr mark x)).parts := by simp [Node.parts_exprStmt]
    exact .bind_free (settles_of_part hpart (checkExpr_settles x ((h.assigns rfl).part hpart rfl)).discard)
      fun _ => .pure _
  | .return mark x, h => by
    rw [checkStmt]
    exact checkReturn_settles mode last mark x (h.assigns rfl)
  | .break _, _ => by
    rw [checkStmt]
    exact .pure _
  | .continue _, _ => by
    rw [checkStmt]
    exact .pure _
  | .ifElse s, h => by
    rw [checkStmt]
    exact checkIf_settles mode last s (h.assigns rfl)
  | .while mark { mark := clauseMark, cond, body }, h => by
    rw [checkStmt]
    have hclause := (h.assigns rfl).part (p := .whileClause { mark := clauseMark, cond, body })
      (by simp [Node.parts_while]) rfl
    have hparts := Node.parts_whileClause { mark := clauseMark, cond, body }
    refine settles_of_all_parts (Node.parts_while ..) ?_
    rw [List.map_singleton, List.sum_singleton]
    refine settles_of_all_parts hparts (.bind_le (checkCondition_settles cond (hclause.part (by simp [hparts]) rfl))
      (fun _ =>
      checkBlock_settles mode last body (hclause.part (by simp [hparts]) rfl)) ?_)
    simp
  | .for mark { mark := clauseMark, iteration, body } fail, h => by
    rw [checkStmt]
    have hparts := Node.parts_for mark { mark := clauseMark, iteration, body } fail
    have hclause := (h.assigns rfl).part (p := .forClause { mark := clauseMark, iteration, body })
      (by simp [hparts]) rfl
    have hclauseParts := Node.parts_forClause { mark := clauseMark, iteration, body }
    refine settles_of_all_parts hparts (.bind_le
      (checkIteration_settles iteration (hclause.part (by simp [hclauseParts]) rfl)) (fun _ =>
      (checkBlock_settles mode last body (hclause.part (by simp [hclauseParts]) rfl)).bind fun last =>
        checkFail_settles mode last fail fun c hc => (h.assigns rfl).part (by simpa [hparts] using hc) rfl) ?_)
    -- The clause has the nodes of the iteration and of the body; the clause behind it comes last.
    rw [List.map_cons, List.sum_cons, ← add_assoc]
    exact add_le_add_left (Node.pair_idSet_le hclauseParts) _

/-- Checking statements settles the nodes of each once. -/
theorem checkStmts_settles (mode : Option ReturnMode) (last : Option Ty) : (ss : List Stmt) →
    (∀ s ∈ ss, tree.Offers task (.stmt s)) →
    (checkStmts f u mode last ss).Settles tree task ((ss.map Node.stmt).map Node.idSet).sum
  | [], _ => by
    rw [checkStmts]
    exact .pure _
  | s :: ss, h => by
    rw [checkStmts]
    exact (checkStmt_settles mode last s (h s List.mem_cons_self)).bind fun last =>
      checkStmts_settles mode last ss fun s hs => h s (List.mem_cons_of_mem _ hs)

/-- Checking a block settles its nodes once. -/
theorem checkBlock_settles (mode : Option ReturnMode) (last : Option Ty) : (b : Block) →
    tree.Assigns task (.block b) → (checkBlock f u mode last b).Settles tree task (Node.block b).idSet
  | { mark, stmts, close }, h => by
    rw [checkBlock]
    have hparts := Node.parts_block { mark, stmts, close }
    exact settles_of_all_parts hparts
      (checkStmts_settles mode last stmts fun s hs => h.offers (by simp [hparts, hs]))

/-- Checking a conditional statement settles its nodes once. -/
theorem checkIf_settles (mode : Option ReturnMode) (last : Option Ty) : (s : IfStmt) →
    tree.Assigns task (.stmt (.ifElse s)) →
    (checkIf f u mode last s).Settles tree task (Node.stmt (.ifElse s)).idSet
  | { mark, clause := { mark := clauseMark, cond, body }, alternative }, h => by
    rw [checkIf]
    have hparts := Node.parts_ifElse { mark, clause := { mark := clauseMark, cond, body }, alternative }
    have hclause := h.part (p := .ifClause { mark := clauseMark, cond, body }) (by simp [hparts]) rfl
    have hclauseParts := Node.parts_ifClause { mark := clauseMark, cond, body }
    refine settles_of_all_parts hparts (.bind_le
      (checkCondition_settles cond (hclause.part (by simp [hclauseParts]) rfl)) (fun _ =>
      (checkBlock_settles mode last body (hclause.part (by simp [hclauseParts]) rfl)).bind fun last =>
        checkElse_settles mode last alternative
          fun c hc => h.part (by simpa [hparts] using hc) (by cases c <;> rfl)) ?_)
    rw [List.map_cons, List.sum_cons, ← add_assoc]
    exact add_le_add_left (Node.pair_idSet_le hclauseParts) _

/-- Checking an alternative settles its nodes once. -/
theorem checkElse_settles (mode : Option ReturnMode) (last : Option Ty) : (e : Option ElseClause) →
    (∀ c ∈ e, tree.Assigns task (.elseClause c)) →
    (checkElse f u mode last e).Settles tree task ((e.toList.map Node.elseClause).map Node.idSet).sum
  | none, _ => by
    rw [checkElse]
    exact .pure _
  | some (.block mark b), h => by
    rw [checkElse]
    have hpart : .block b ∈ (Node.elseClause (.block mark b)).parts := by simp [Node.parts_else]
    simpa using settles_of_part hpart (checkBlock_settles mode last b ((h _ rfl).part hpart rfl))
  | some (.ifElse mark s), h => by
    rw [checkElse]
    have hpart : .stmt (.ifElse s) ∈ (Node.elseClause (.ifElse mark s)).parts := by simp [Node.parts_elseIf]
    simpa using settles_of_part hpart (checkIf_settles mode last s ((h _ rfl).part hpart rfl))

/-- Checking the clause behind a loop settles its nodes once. -/
theorem checkFail_settles (mode : Option ReturnMode) (last : Option Ty) : (c : Option FailClause) →
    (∀ c' ∈ c, tree.Assigns task (.failClause c')) →
    (checkFail f u mode last c).Settles tree task ((c.toList.map Node.failClause).map Node.idSet).sum
  | none, _ => by
    rw [checkFail]
    exact .pure _
  | some { mark, body }, h => by
    rw [checkFail]
    have hpart : .block body ∈ (Node.failClause { mark, body }).parts := by simp [Node.parts_failClause]
    simpa using settles_of_part hpart (checkBlock_settles mode last body ((h _ rfl).part hpart rfl))

end

/-! ## Tasks -/

/-- Checking an attribute settles its nodes once. -/
theorem checkAttribute_settles (d : AttributeDecl) (h : tree.Assigns task (.stmt (.attribute d))) :
    (checkAttribute f u d).Settles tree task (Node.stmt (.attribute d)).idSet := by
  rw [checkAttribute]
  split
  · split
    · exact .bind_free (applyRule_settles _) fun _ => .pure _
    · exact .pure _
  · next x hx =>
    have hpart : .expr x ∈ (Node.stmt (.attribute d)).parts := by simp [Node.parts_attribute, hx]
    refine settles_of_part hpart ((checkExpr_settles x (h.part hpart rfl)).bind_free fun _ => ?_)
    split <;> exact .bind_free (applyRule_settles _) fun _ => .pure _

/-- Checking the body of a method settles its nodes once. -/
theorem checkMethodBody_settles (name : Name) (mode : ReturnMode) (b : MethodBody)
    (h : ∀ n ∈ b.nodes, tree.Assigns task n) :
    (checkMethodBody f u name mode b).Settles tree task (b.nodes.map Node.idSet).sum := by
  cases b with
  | absent =>
    cases mode with
    | void => exact .pure _
    | infer => exact .bind_free (applyRule_settles _) fun _ => .pure _
    | expect t => exact .pure _
  | computed x =>
    refine .bind_free ((checkExpr_settles x (h _ List.mem_cons_self)).mono ?_) fun _ => ?_
    · simp [MethodBody.nodes]
    · cases mode with
      | void => exact .pure _
      | infer => exact .bind_free (applyRule_settles _) fun _ => .pure _
      | expect t => exact .bind_free (applyRule_settles _) fun _ => .pure _
  | block b =>
    refine .bind_free ((checkBlock_settles _ _ b (h _ List.mem_cons_self)).mono ?_) fun _ => applyRule_settles _
    simp [MethodBody.nodes]

/-- The parameters of a list are assigned with the list. -/
theorem checkParams_settles (l : ParameterList) (h : tree.Assigns task (.parameterList l)) :
    (checkDefaults f u l.params).Settles tree task (Node.parameterList l).idSet := by
  have hparts := Node.parts_parameterList l
  exact settles_of_all_parts hparts (checkDefaults_settles _ fun p hp => h.part (by simp [hparts, hp]) rfl)

/-- The check of a task settles the expressions and variables that are assigned to the task, each of them once at
most. -/
theorem Task.check_settles (t : Task) (h : tree.Assigns t.node t.node) :
    (t.check f u).Settles tree t.node t.node.idSet := by
  cases t with
  | unit unit =>
    have hparts := Node.parts_unit unit
    -- Imports and the header of the module are not checked.
    refine settles_of_parts (unit.body.map .stmt) (hparts ▸ List.sublist_append_right ..) ?_
    exact .bind_free (checkStmts_settles none none unit.body fun s hs =>
      h.offers (by simp [Task.node, hparts, hs])).discard fun _ => .pure _
  | ofClass d =>
    have hparts := Node.parts_classDecl d
    have hparams := h.part (p := .parameterList d.params) (by simp [Task.node, hparts]) rfl
    have hbody := h.part (p := .block d.body) (by simp [Task.node, hparts]) rfl
    refine settles_of_parts (.parameterList d.params :: d.extended.toList.map .extendedType ++ [.block d.body]) ?_ ?_
    · rw [Task.node, hparts]
      exact ((List.sublist_append_right ..).trans (List.sublist_append_left ..)).append_right _
    · refine .bind_le (checkParams_settles d.params hparams) (fun _ => (checkExtended_settles d.mark d.extended
        fun e he => h.part (by simpa [Task.node, hparts] using he) rfl).bind fun _ =>
          (checkBlock_settles (some .void) none d.body hbody).discard.bind_free fun _ => .pure _) ?_
      simp
  | method d =>
    have hparts := Node.parts_method d
    have hparams := h.part (p := .parameterList d.params) (by simp [Task.node, hparts]) rfl
    refine settles_of_parts (.parameterList d.params :: d.body.nodes) ?_ ?_
    · rw [Task.node, hparts]
      exact List.sublist_append_right ..
    · refine .bind_le (checkParams_settles d.params hparams) (fun _ =>
        checkMethodBody_settles _ _ d.body fun n hn => h.part (by simp [Task.node, hparts, hn]) ?_) ?_
      · cases hbody : d.body <;> simp_all [MethodBody.nodes] <;> rfl
      · simp
  | «attribute» d => exact checkAttribute_settles d h
  | getter d =>
    have hpart : .block d.body ∈ (Node.stmt (.getter d)).parts := by simp [Node.parts_getter]
    exact settles_of_part hpart ((checkBlock_settles _ none d.body (h.part hpart rfl)).bind_free
      fun _ => applyRule_settles _)
  | setter d =>
    have hpart : .block d.body ∈ (Node.stmt (.setter d)).parts := by simp [Node.parts_setter]
    exact settles_of_part hpart (.free_bind (applyRule_settles _) fun _ =>
      (checkBlock_settles _ none d.body (h.part hpart rfl)).discard.bind_free fun _ => .pure _)

end

end Analysis

end Ceylon
