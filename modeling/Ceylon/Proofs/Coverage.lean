import Ceylon.Proofs.Analyses

/-!
# Binding covers the tree

Binding a unit records every node of its tree once, and makes one declaration for every node that declares
something, in the order of the text (`Binding.Makes`).  Each declaration is a member of the scope that its
node stands in and of no other one, and the unit lists those that stand in the package
(`bindDeclarations_covers`).

A parameter, a type parameter, a variable, a condition and an iteration are parts of their owners only, so
that a script meets none of them outside its owner; that each of them has its place says that none is left
out.
-/

namespace Ceylon

/-! ## Nodes that declare something -/

namespace Syntax.Node

/-- The nodes of the tree below a node that declare something, in the order of the text. -/
def declaring (n : Node) : List Node :=
  n.all.filter (·.declKind.isSome)

/-- The nodes below a node that declare something are the node itself, if it does, and those below its parts. -/
theorem declaring_eq (n : Node) :
    n.declaring = (if n.declKind.isSome then [n] else []) ++ n.parts.flatMap declaring := by
  have hparts : ∀ ns : List Node,
      (ns.flatMap all).filter (·.declKind.isSome) = ns.flatMap declaring := by
    intro ns
    induction ns with
    | nil => rfl
    | cons n ns ih => simp [declaring, ← ih]
  rw [declaring, n.all_eq, List.filter_cons, hparts]
  split <;> rfl

/-- A plain node declares nothing. -/
theorem declKind_of_isPlain {n : Node} (h : n.isPlain) : n.declKind = none := by
  cases n <;> first | rfl | cases h

/-- Nothing below a plain node declares anything. -/
theorem declaring_of_isPlain {n : Node} (h : n.isPlain) : n.declaring = [] := by
  refine List.filter_eq_nil_iff.mpr fun m hm => ?_
  simp [declKind_of_isPlain (isPlain_of_mem_all h hm)]

/-- Nothing below plain nodes declares anything. -/
theorem flatMap_declaring_of_isPlain {ns : List Node} (h : ∀ n ∈ ns, n.isPlain) :
    ns.flatMap declaring = [] :=
  List.flatMap_eq_nil_iff.mpr fun n hn => declaring_of_isPlain (h n hn)

@[simp] theorem declaring_name (n : Name) : (Node.name n).declaring = [] :=
  declaring_of_isPlain rfl

@[simp] theorem declaring_expr (x : Expr) : (Node.expr x).declaring = [] :=
  declaring_of_isPlain rfl

@[simp] theorem declaring_type (t : TypeRef) : (Node.type t).declaring = [] :=
  declaring_of_isPlain rfl

@[simp] theorem declaring_declaredType (t : DeclaredType) : t.node.declaring = [] :=
  declaring_of_isPlain (isPlain_declaredType t)

@[simp] theorem flatMap_declaring_exprs (xs : List Expr) : (xs.map Node.expr).flatMap declaring = [] :=
  flatMap_declaring_of_isPlain (by simp [isPlain])

@[simp] theorem flatMap_declaring_types (ts : List TypeRef) :
    (ts.map Node.type).flatMap declaring = [] :=
  flatMap_declaring_of_isPlain (by simp [isPlain])

@[simp] theorem flatMap_declaring_extended (e : Option ExtendedType) :
    (e.toList.map Node.extendedType).flatMap declaring = [] :=
  flatMap_declaring_of_isPlain (by simp [isPlain])

@[simp] theorem declaring_typeParameter (p : TypeParameter) :
    (Node.typeParameter p).declaring = [.typeParameter p] := by
  rw [declaring_eq, parts_typeParameter]
  simp [declKind]

@[simp] theorem declaring_parameter (p : Parameter) :
    (Node.parameter p).declaring = [.parameter p] := by
  rw [declaring_eq, parts_parameter]
  simp [declKind]

@[simp] theorem declaring_variable (v : Variable) : (Node.variable v).declaring = [.variable v] := by
  rw [declaring_eq, parts_variable]
  simp [declKind]

/-- Type parameters declare themselves and nothing else. -/
@[simp] theorem flatMap_declaring_typeParameters (ps : List TypeParameter) :
    (ps.map Node.typeParameter).flatMap declaring = ps.map .typeParameter := by
  induction ps with
  | nil => rfl
  | cons p ps ih => simpa using ih

/-- A parameter list declares its parameters. -/
@[simp] theorem declaring_parameterList (l : ParameterList) :
    (Node.parameterList l).declaring = l.params.map .parameter := by
  rw [declaring_eq, parts_parameterList]
  simp only [declKind, Option.isSome_none, Bool.false_eq_true, if_false, List.nil_append]
  induction l.params with
  | nil => rfl
  | cons p ps ih => simpa using ih

/-- An operand declares its variable, if it has one. -/
theorem declaring_operand (o : Operand) : o.node.declaring = o.variables.map .variable := by
  cases o with
  | var g => exact declaring_variable g.variable
  | value x => exact declaring_expr x

/-- A condition declares its variables. -/
theorem declaring_condition (c : Condition) :
    (Node.condition c).declaring = c.variables.map .variable := by
  rw [declaring_eq, parts_condition]
  cases c <;> simp [declKind, Condition.variables, declaring_operand]

/-- An iteration declares its variables. -/
theorem declaring_iteration (i : Iteration) :
    (Node.iteration i).declaring = i.variables.map .variable := by
  rw [declaring_eq, parts_iteration]
  cases i <;> simp [declKind, Iteration.variables]

end Syntax.Node

namespace Analysis

open Model Syntax

/-! ## The declarations that a script makes -/

/-- The node whose declaration a step makes. -/
def BindStep.declared : BindStep → List Node
  | .declare node .. => [node]
  | _ => []

namespace Binding

/-- Whatever it is answered, a script makes the declarations of the given nodes, in this order. -/
def Makes {α : Type} : Bind α → List Node → Prop
  | .done _, ns => ns = []
  | .ask step next, ns => ∃ rest, ns = step.declared ++ rest ∧ ∀ r, Makes (next r) rest

namespace Makes

variable {α β : Type} {ns ns' : List Node}

/-- What one script makes, and then what the next one makes. -/
theorem bind {d : Bind α} {g : α → Bind β} (h : Makes d ns) (hg : ∀ a, Makes (g a) ns') :
    Makes (d >>= g) (ns ++ ns') := by
  induction d generalizing ns with
  | done a =>
    obtain rfl : ns = [] := h
    exact hg a
  | ask step next ih =>
    obtain ⟨rest, rfl, hnext⟩ := h
    exact ⟨rest ++ ns', List.append_assoc .., fun r => ih r (hnext r)⟩

/-- Returning a value makes no declaration. -/
theorem pure (a : α) : Makes (Pure.pure a : Bind α) [] := rfl

/-- A step makes what it declares. -/
theorem take (step : BindStep) : Makes (Binding.take step) step.declared :=
  ⟨[], (List.append_nil _).symm, fun _ => rfl⟩

/-- A script that makes no declaration, before another one. -/
theorem before {d : Bind α} {g : α → Bind β} (h : Makes d []) (hg : ∀ a, Makes (g a) ns) :
    Makes (d >>= g) ns :=
  bind h hg

/-- A script that makes no declaration, after another one. -/
theorem after {d : Bind α} {g : α → Bind β} (h : Makes d ns) (hg : ∀ a, Makes (g a) []) :
    Makes (d >>= g) ns :=
  List.append_nil ns ▸ bind h hg

/-- The declarations may be listed in another way. -/
theorem of_eq {d : Bind α} (h : Makes d ns) (heq : ns' = ns) : Makes d ns' :=
  heq ▸ h

end Makes

section

variable (c : ScopeChain)

/-- Recording scopes makes no declarations. -/
theorem recordNodes_makes (ns : List Node) : Makes (recordNodes c ns) [] := by
  induction ns with
  | nil => exact .pure ()
  | cons n ns ih => exact .before (.take _) fun _ => ih

/-- Recording a tree makes no declaration. -/
theorem recordTree_makes (o : Outline) : Makes (recordTree c o) [] :=
  recordNodes_makes c o.nodes

theorem recordTrees_makes (os : List Outline) : Makes (recordTrees c os) [] := by
  induction os with
  | nil => exact .pure ()
  | cons o os ih => exact .before (recordTree_makes c o) fun _ => ih

/-- Binding an expression makes no declaration. -/
theorem bindExpr_makes (x : Expr) : Makes (bindExpr c x) [] :=
  recordTree_makes c _

theorem bindOption_makes (x : Option Expr) : Makes (bindOption c x) [] := by
  cases x with
  | none => exact .pure ()
  | some x => exact bindExpr_makes c x

/-- A declaration is made for the node. -/
theorem declare_makes (node : Node) (name : Name) (shared : Bool) (shape : Shape) :
    Makes (declare c node name shared shape) [node] :=
  .after (.take _) fun _ => .before (.take _) fun _ => .pure _

/-- Each type parameter is declared. -/
theorem bindTypeParams_makes (owner : DeclId) (ps : List TypeParameter) :
    Makes (bindTypeParams c owner ps) (ps.map .typeParameter) := by
  induction ps with
  | nil => exact .pure ()
  | cons p ps ih =>
    exact .bind (declare_makes c _ _ _ _) fun _ => .before (.take _) fun _ => ih

/-- A parameter is declared. -/
theorem bindParam_makes (p : Parameter) : Makes (bindParam c p) [.parameter p] :=
  .after (declare_makes c _ _ _ _) fun _ => .before (recordTree_makes _ _) fun _ =>
    .before (bindOption_makes _ _) fun _ => .pure _

/-- Parameters are declared in order. -/
theorem bindParamList_makes (ps : List Parameter) :
    Makes (bindParamList c ps) (ps.map .parameter) := by
  induction ps with
  | nil => exact .pure _
  | cons p ps ih => exact .bind (bindParam_makes c p) fun _ => .after ih fun _ => .pure _

theorem bindParams_makes (owner : DeclId) (list : ParameterList) :
    Makes (bindParams c owner list) (list.params.map .parameter) :=
  .before (.take _) fun _ => .after (bindParamList_makes c list.params) fun _ => .take _

/-- A variable is made, and its type and its specifier make nothing. -/
theorem bindVariable_makes (inner : ScopeChain) (v : Variable) :
    Makes (bindVariable c inner v) [.variable v] :=
  .after (.after (declare_makes inner _ _ _ _) fun _ => .pure _) fun _ =>
    .before (recordTree_makes _ _) fun _ => bindOption_makes _ _

/-- The variables of an operand are declared. -/
theorem bindOperand_makes (inner : ScopeChain) (o : Operand) :
    Makes (bindOperand c inner o) (o.variables.map .variable) := by
  cases o with
  | var g => exact bindVariable_makes c inner g.variable
  | value x => exact bindExpr_makes c x

/-- The variables of a condition are declared. -/
theorem bindCondition_makes (inner : ScopeChain) (condition : Condition) :
    Makes (bindCondition c inner condition) (condition.variables.map .variable) := by
  refine .before (.take _) fun _ => ?_
  cases condition with
  | boolean mark x => exact bindExpr_makes c x
  | «exists» mark operand => exact bindOperand_makes c inner operand
  | nonempty mark operand => exact bindOperand_makes c inner operand
  | is mark narrowed operand =>
    exact .before (recordTree_makes _ _) fun _ => bindOperand_makes c inner operand

/-- The variables of an iteration are declared. -/
theorem bindIteration_makes (inner : ScopeChain) (i : Iteration) :
    Makes (bindIteration c inner i) (i.variables.map .variable) := by
  refine .before (.take _) fun _ => ?_
  cases i with
  | values mark var source =>
    exact .after (bindVariable_makes c inner var.variable) fun _ => bindExpr_makes c source
  | entries mark key value source =>
    exact .bind (bindVariable_makes c inner key.variable) fun _ =>
      .after (bindVariable_makes c inner value.variable) fun _ => bindExpr_makes c source

/-- Opening a body makes no declaration. -/
theorem openBody_makes (clause : Node) : Makes (openBody c clause) [] :=
  .before (.take _) fun _ => .before (.take _) fun _ => .pure _

/-- A setter is made, whether or not it has a getter. -/
theorem declareSetter_makes (d : SetterDecl) : Makes (declareSetter c d) [.stmt (.setter d)] := by
  refine .before (.take _) fun getter => .after (declare_makes c _ _ _ _) fun id => ?_
  cases getter with
  | none => exact .pure id
  | some g => exact .before (.take _) fun _ => .pure id

end

mutual

/-- The script of a statement makes the declarations of the nodes in it, in the order of the text. -/
theorem bindStmt_makes : (s : Stmt) → ∀ c : ScopeChain,
    Makes (bindStmt c s) (Node.stmt s).declaring
  | .classDecl { mark, annotations, name, typeParams, params, extended, satisfied, body }, c => by
    rw [bindStmt, Node.declaring_eq, Node.parts_classDecl]
    refine .of_eq (.bind (declare_makes c _ _ _ _) fun d =>
      .bind (bindTypeParams_makes _ d typeParams) fun _ => .bind (bindParams_makes _ d params) fun _ =>
      .before (recordTrees_makes _ _) fun _ => .before (recordTrees_makes _ _) fun _ =>
      bindBlock_makes body _) ?_
    -- The declarations of its parts, with its own in front, are those that stand in the tree.
    simp [Node.declKind]
  | .interfaceDecl { mark, annotations, name, typeParams, satisfied, body }, c => by
    rw [bindStmt, Node.declaring_eq, Node.parts_interfaceDecl]
    refine .of_eq (.bind (declare_makes c _ _ _ _) fun d =>
      .bind (bindTypeParams_makes _ d typeParams) fun _ => .before (recordTrees_makes _ _) fun _ =>
      bindBlock_makes body _) ?_
    simp [Node.declKind]
  | .method { mark, annotations, type, name, typeParams, params, body }, c => by
    rw [bindStmt, Node.declaring_eq, Node.parts_method]
    refine .of_eq (.bind (declare_makes c _ _ _ _) fun d =>
      .bind (bindTypeParams_makes _ d typeParams) fun _ => .before (recordTree_makes _ _) fun _ =>
      .bind (bindParams_makes _ d params) fun _ => bindMethodBody_makes body _) ?_
    simp [Node.declKind]
  | .attribute d, c => by
    rw [bindStmt, Node.declaring_eq, Node.parts_attribute]
    refine .of_eq (.after (.after (declare_makes c _ _ _ _) fun _ => .pure _) fun _ =>
      .before (recordTree_makes _ _) fun _ => bindOption_makes _ _) ?_
    simp [Node.declKind]
  | .getter { mark, annotations, type, name, body }, c => by
    rw [bindStmt, Node.declaring_eq, Node.parts_getter]
    refine .of_eq (.bind (declare_makes c _ _ _ _) fun d => .before (recordTree_makes _ _) fun _ =>
      bindBlock_makes body _) ?_
    simp [Node.declKind]
  | .setter { mark, annotations, name, body }, c => by
    rw [bindStmt, Node.declaring_eq, Node.parts_setter]
    refine .of_eq (.bind (declareSetter_makes c _) fun d => bindBlock_makes body _) ?_
    simp [Node.declKind]
  | .expr mark x, c => by
    rw [bindStmt, Node.declaring_eq, Node.parts_exprStmt]
    exact .of_eq (.before (.take _) fun _ => bindExpr_makes c x) (by simp [Node.declKind])
  | .return mark x, c => by
    rw [bindStmt, Node.declaring_eq, Node.parts_return]
    exact .of_eq (.before (.take _) fun _ => bindOption_makes c x) (by simp [Node.declKind])
  | .break mark, c => by
    rw [bindStmt]
    exact .take _
  | .continue mark, c => by
    rw [bindStmt]
    exact .take _
  | .ifElse s, c => by
    rw [bindStmt]
    exact bindIf_makes s c
  | .while mark { mark := clauseMark, cond, body }, c => by
    rw [bindStmt, Node.declaring_eq, Node.parts_while]
    refine .of_eq (.before (.take _) fun _ => .before (openBody_makes c _) fun inner =>
      .bind (bindCondition_makes c inner cond) fun _ => bindBlock_makes body inner) ?_
    rw [List.flatMap_singleton, Node.declaring_eq, Node.parts_whileClause]
    simp [Node.declKind, Node.declaring_condition]
  | .for mark { mark := clauseMark, iteration, body } fail, c => by
    rw [bindStmt, Node.declaring_eq, Node.parts_for]
    refine .of_eq (.before (.take _) fun _ => .before (openBody_makes c _) fun inner =>
      .bind (bindIteration_makes c inner iteration) fun _ =>
      .bind (bindBlock_makes body inner) fun _ => bindFail_makes fail c) ?_
    rw [List.flatMap_cons, Node.declaring_eq, Node.parts_forClause]
    simp [Node.declKind, Node.declaring_iteration]

/-- Statements declare what each of them declares. -/
theorem bindStmts_makes : (ss : List Stmt) → ∀ c : ScopeChain,
    Makes (bindStmts c ss) ((ss.map Node.stmt).flatMap Node.declaring)
  | [], c => .pure ()
  | s :: ss, c => by
    rw [bindStmts]
    exact .bind (bindStmt_makes s c) fun _ => bindStmts_makes ss c

theorem bindBlock_makes : (b : Block) → ∀ c : ScopeChain,
    Makes (bindBlock c b) (Node.block b).declaring
  | { mark, stmts, close }, c => by
    rw [bindBlock, Node.declaring_eq, Node.parts_block]
    exact .before (.take _) fun _ => bindStmts_makes stmts c

theorem bindMethodBody_makes : (b : MethodBody) → ∀ c : ScopeChain,
    Makes (bindMethodBody c b) (b.nodes.flatMap Node.declaring)
  | .absent, c => by
    rw [bindMethodBody]
    exact .pure ()
  | .block b, c => by
    rw [bindMethodBody]
    exact .of_eq (bindBlock_makes b c) (by simp [MethodBody.nodes])
  | .computed x, c => by
    rw [bindMethodBody]
    exact .of_eq (bindExpr_makes c x) (by simp [MethodBody.nodes])

/-- A conditional statement declares what stands in its clause and its alternative. -/
theorem bindIf_makes : (s : IfStmt) → ∀ c : ScopeChain,
    Makes (bindIf c s) (Node.stmt (.ifElse s)).declaring
  | { mark, clause := { mark := clauseMark, cond, body }, alternative }, c => by
    rw [bindIf, Node.declaring_eq, Node.parts_ifElse]
    refine .of_eq (.before (.take _) fun _ => .before (openBody_makes c _) fun inner =>
      .bind (bindCondition_makes c inner cond) fun _ => .bind (bindBlock_makes body inner) fun _ =>
      bindElse_makes alternative c) ?_
    rw [List.flatMap_cons, Node.declaring_eq, Node.parts_ifClause]
    simp [Node.declKind, Node.declaring_condition]

theorem bindElse_makes : (e : Option ElseClause) → ∀ c : ScopeChain,
    Makes (bindElse c e) ((e.toList.map Node.elseClause).flatMap Node.declaring)
  | none, c => by
    rw [bindElse]
    exact .pure ()
  | some (.block mark b), c => by
    rw [bindElse]
    refine .of_eq (.before (openBody_makes c _) fun inner => bindBlock_makes b inner) ?_
    rw [Option.toList_some, List.map_singleton, List.flatMap_singleton, Node.declaring_eq,
      Node.parts_else]
    simp [Node.declKind]
  | some (.ifElse mark s), c => by
    rw [bindElse]
    refine .of_eq (.before (.take _) fun _ => bindIf_makes s c) ?_
    rw [Option.toList_some, List.map_singleton, List.flatMap_singleton, Node.declaring_eq,
      Node.parts_elseIf]
    simp [Node.declKind]

theorem bindFail_makes : (e : Option FailClause) → ∀ c : ScopeChain,
    Makes (bindFail c e) ((e.toList.map Node.failClause).flatMap Node.declaring)
  | none, c => by
    rw [bindFail]
    exact .pure ()
  | some { mark, body }, c => by
    rw [bindFail]
    refine .of_eq (.before (openBody_makes c _) fun inner => bindBlock_makes body inner) ?_
    rw [Option.toList_some, List.map_singleton, List.flatMap_singleton, Node.declaring_eq,
      Node.parts_failClause]
    simp [Node.declKind]

end

/-- The script of a unit makes the declarations of its nodes, in the order of the text. -/
theorem bindUnit_makes (c : ScopeChain) (tree : CompilationUnit) :
    Makes (bindUnit c tree) (Node.unit tree).declaring := by
  rw [Node.declaring_eq, Node.parts_unit]
  refine .of_eq (.before (.take _) fun _ => .before (recordTrees_makes _ _) fun _ =>
    .before (recordTrees_makes _ _) fun _ => bindStmts_makes tree.body c) ?_
  have hmodule : (tree.module.toList.map Node.moduleDescriptor).flatMap Node.declaring = [] :=
    Node.flatMap_declaring_of_isPlain (by simp [Node.isPlain])
  have himports : (tree.imports.map Node.import).flatMap Node.declaring = [] :=
    Node.flatMap_declaring_of_isPlain (by simp [Node.isPlain])
  rw [List.flatMap_append, List.flatMap_append, hmodule, himports]
  rfl

/-! ## Where the declarations go -/

/-- A scope at the top of a unit. -/
def isTop : ScopeChain → Bool
  | .package _ :: _ => true
  | _ => false

/-- The numbers of the next declarations of a state. -/
def nextDecls (s : State) (count : Nat) : List DeclId :=
  (List.range' s.graph.decls.size count).map DeclId.mk

/-- The declarations that are made next, in two parts. -/
theorem nextDecls_append (s s' : State) (m n : Nat)
    (h : s'.graph.decls.size = s.graph.decls.size + m) :
    nextDecls s (m + n) = nextDecls s m ++ nextDecls s' n := by
  rw [nextDecls, nextDecls, nextDecls, h, ← List.map_append, List.range'_append_1]

/-- The declarations that are made next have the numbers behind those that are there. -/
theorem mem_nextDecls {s : State} {n : Nat} {d : DeclId} :
    d ∈ nextDecls s n ↔ s.graph.decls.size ≤ d.index ∧ d.index < s.graph.decls.size + n := by
  obtain ⟨i⟩ := d
  simp [nextDecls, List.mem_range'_1]

/-- The next declarations differ from each other. -/
theorem nodup_nextDecls (s : State) (n : Nat) : (nextDecls s n).Nodup :=
  (List.nodup_range' ..).map fun _ _ h => DeclId.mk.inj h

/-- From the first state to the second, declarations have been made for the given nodes of a unit, in this
order.  Each has become a member of the scope around it, and the unit lists those at its top. -/
structure Made (u : UnitId) (ns : List Node) (s f : State) : Prop where
  count : f.units.size = s.units.size
  size : f.graph.decls.size = s.graph.decls.size + ns.length
  kept : ∀ d, d.index < s.graph.decls.size → (f.graph.decl d).bare = (s.graph.decl d).bare
  units : ∀ d ∈ nextDecls s ns.length, (f.graph.decl d).unit = some u
  nodes : (nextDecls s ns.length).map (fun d => (f.graph.decl d).node) = ns.map some
  members : ∀ σ, (f.graph.membersOf σ).toList = (s.graph.membersOf σ).toList ++
    (nextDecls s ns.length).filter fun d => (f.graph.decl d).scope.head? = some σ
  listed : u.index < s.units.size → (f.unit u).declarations.toList =
    (s.unit u).declarations.toList ++ (nextDecls s ns.length).filter fun d => isTop (f.graph.decl d).scope

namespace Made

variable {u : UnitId} {ns ns' : List Node} {s s' f : State}

/-- No step has been taken. -/
theorem refl (u : UnitId) (s : State) : Made u [] s s where
  count := rfl
  size := rfl
  kept _ _ := rfl
  units _ := nofun
  nodes := rfl
  members _ := (List.append_nil _).symm
  listed _ := (List.append_nil _).symm

/-- One part of a script after another. -/
theorem trans (h : Made u ns s s') (h' : Made u ns' s' f) : Made u (ns ++ ns') s f := by
  have hnext := nextDecls_append s s' ns.length ns'.length h.size
  -- What has been declared first is still the same.
  have hkept : ∀ d ∈ nextDecls s ns.length, (f.graph.decl d).bare = (s'.graph.decl d).bare := by
    intro d hd
    exact h'.kept d (h.size ▸ (mem_nextDecls.mp hd).2)
  have hscope : ∀ d ∈ nextDecls s ns.length, (f.graph.decl d).scope = (s'.graph.decl d).scope :=
    fun d hd => congrArg (·.scope) (hkept d hd)
  refine ⟨h'.count.trans h.count, ?_, fun d hd => ?_, fun d hd => ?_, ?_, fun σ => ?_, fun hu => ?_⟩
  · rw [h'.size, h.size, List.length_append]
    omega
  · have hd' : d.index < s'.graph.decls.size := by
      rw [h.size]
      omega
    exact (h'.kept d hd').trans (h.kept d hd)
  · rw [List.length_append, hnext] at hd
    rcases List.mem_append.mp hd with hd | hd
    · exact (congrArg (·.unit) (hkept d hd)).trans (h.units d hd)
    · exact h'.units d hd
  · rw [List.length_append, hnext, List.map_append, h'.nodes, List.map_append, ← h.nodes]
    congr 1
    exact List.map_congr_left fun d hd => congrArg (·.node) (hkept d hd)
  · rw [List.length_append, hnext, List.filter_append, h'.members, h.members, List.append_assoc]
    congr 2
    refine List.filter_congr fun d hd => ?_
    rw [hscope d hd]
  · rw [List.length_append, hnext, List.filter_append, h'.listed (h.count ▸ hu), h.listed hu,
      List.append_assoc]
    congr 2
    refine List.filter_congr fun d hd => ?_
    rw [hscope d hd]

end Made

/-- Changing a shape makes no declaration. -/
theorem made_modifyShape {u : UnitId} (s : State) (d : DeclId) {g : Shape → Shape}
    (hg : ∀ shape, (g shape).bare = shape.bare) :
    Made u [] s { s with graph := s.graph.modifyShape d g } where
  count := rfl
  size := by simp [Graph.modifyShape, Graph.modifyDecl]
  kept := (grows_modifyShape s d hg (u := u)).decl
  units _ := nofun
  nodes := rfl
  members _ := (List.append_nil _).symm
  listed _ := (List.append_nil _).symm

/-- A new declaration comes after the other members of the innermost scope around it. -/
theorem toList_membersOf_declare (g : Graph) (d : Declaration) (σ : ScopeId) :
    ((g.declare d).2.membersOf σ).toList =
      (g.membersOf σ).toList ++ if d.scope.head? = some σ then [(g.declare d).1] else [] := by
  cases hscope : d.scope with
  | nil => simp [Graph.declare, Graph.membersOf, hscope]
  | cons σ' outer =>
    simp only [Graph.declare, Graph.membersOf, hscope, Std.ExtTreeMap.getD_insert,
      Std.LawfulEqOrd.compare_eq_iff_eq, List.head?_cons, Option.some.injEq]
    split
    · next h => simp [h]
    · simp

/-- A unit lists a declaration at its top after the others. -/
theorem listDeclaration_spec (u : UnitId) (scope : ScopeChain) (d : DeclId) (s : State) :
    (listDeclaration u scope d s).2.graph = s.graph ∧
      (listDeclaration u scope d s).2.units.size = s.units.size ∧
      (u.index < s.units.size → ((listDeclaration u scope d s).2.unit u).declarations.toList =
        (s.unit u).declarations.toList ++ if isTop scope then [d] else []) := by
  match scope with
  | .package _ :: _ =>
    refine ⟨rfl, Array.size_modify .., fun hu => ?_⟩
    change (({ s with units := s.units.modify u.index _ } : State).unit u).declarations.toList = _
    rw [State.unit_modify, if_pos ⟨rfl, hu⟩]
    simp [isTop]
  | [] => exact ⟨rfl, rfl, fun _ => (List.append_nil _).symm⟩
  | .decl _ :: _ => exact ⟨rfl, rfl, fun _ => (List.append_nil _).symm⟩
  | .block _ :: _ => exact ⟨rfl, rfl, fun _ => (List.append_nil _).symm⟩

/-- Changing a unit makes no declaration, if its list of declarations stays. -/
theorem Made.modifyUnit {u : UnitId} {ns : List Node} {s f : State} (h : Made u ns s f)
    {g : UnitState → UnitState} (hg : ∀ unit, (g unit).declarations = unit.declarations) :
    Made u ns s { f with units := f.units.modify u.index g } where
  count := (Array.size_modify ..).trans h.count
  size := h.size
  kept := h.kept
  units := h.units
  nodes := h.nodes
  members := h.members
  listed hu := by
    have hsame : (({ f with units := f.units.modify u.index g } : State).unit u).declarations =
        (f.unit u).declarations := by
      rw [State.unit_modify]
      split
      · exact hg _
      · rfl
    rw [hsame]
    exact h.listed hu

/-- A step makes the declaration that it stands for. -/
theorem perform_made (u : UnitId) (step : BindStep) (s : State) :
    Made u step.declared s (perform u step s).2 := by
  cases step with
  | record m scope => exact { Made.refl u s with }
  | declare node name shared shape scope =>
    -- A new declaration comes last in the graph, in its scope and in the list of the unit.
    set d : Declaration := { name, scope, unit := some u, node := some node, shared, shape } with hd
    set k : NodeId := ⟨u, node.mark.id⟩
    obtain ⟨hgraph, hcount, hlisted⟩ := listDeclaration_spec u scope (s.graph.declare d).1
      { s with
        graph := (s.graph.declare d).2
        decls := s.decls.insert k (s.graph.declare d).1
        scopes := s.scopes.insert k scope }
    set f := (perform u (.declare node name shared shape scope) s).2
    have hf : f.graph = (s.graph.declare d).2 := hgraph
    have hself : f.graph.decl ⟨s.graph.decls.size⟩ = d := by
      rw [hf]
      exact s.graph.decl_declare_self d
    have hnext : nextDecls s (BindStep.declare node name shared shape scope).declared.length =
      [⟨s.graph.decls.size⟩] := rfl
    refine ⟨hcount, ?_, fun e he => ?_, ?_, ?_, fun σ => ?_, fun hu => ?_⟩
    · rw [hf]
      simp [Graph.declare, BindStep.declared]
    · rw [hf, s.graph.decl_declare_of_lt d he]
    · rw [hnext, List.forall_mem_singleton, hself]
    · rw [hnext, List.map_singleton, hself]
      rfl
    · rw [hnext, hf, toList_membersOf_declare, ← hf, List.filter_singleton, hself]
      simp [hd, Graph.declare]
    · rw [hnext, List.filter_singleton, hself]
      exact (hlisted hu).trans (by simp [hd, Graph.declare, State.unit])
  | openBody clause scope => exact { Made.refl u s with }
  | addTypeParam owner d => exact made_modifyShape s owner fun shape => shape.bare_addTypeParam d
  | setParams owner ds => exact made_modifyShape s owner fun shape => shape.bare_withParams ds
  | getter scope name => exact Made.refl u s
  | join getter setter => exact made_modifyShape s getter fun shape => shape.bare_withSetter setter

/-- A script makes its declarations one after the other. -/
theorem run_made {α : Type} {d : Bind α} {ns : List Node} (h : Makes d ns) (u : UnitId) (s : State) :
    Made u ns s (d.run (perform u) s).2 := by
  induction d generalizing ns s with
  | done a =>
    obtain rfl : ns = [] := h
    exact Made.refl u s
  | ask step next ih =>
    obtain ⟨rest, rfl, hnext⟩ := h
    rw [Dialogue.run_ask]
    exact (perform_made u step s).trans (ih _ (hnext _) _)

/-- A script that is run takes steps that record the nodes with its numbers. -/
theorem Lays.sum_asked {f : State} {u : UnitId} {tree : CompilationUnit} {H : Prop} {α : Type}
    {d : Bind α} {ids : Multiset Nat} {P : α → Prop} (h : Lays f u tree H d ids P) (s : State) :
    ((d.asked (perform u) s).map BindStep.ids).sum = ids := by
  induction d generalizing H ids s with
  | done a => exact h.1.symm
  | ask step next ih =>
    obtain ⟨rest, rfl, -, hnext⟩ := h
    rw [Dialogue.asked, List.map_cons, List.sum_cons, ih _ (hnext _)]

end Binding

/-! ## Coverage -/

/-- A declaration stands in the scopes that its node stands in.  It is a member of the innermost of them,
once, and of no other scope. -/
def State.Houses (s : State) (u : UnitId) (n : Node) (d : DeclId) : Prop :=
  ∃ σ outer, s.Stands u (σ :: outer) n ∧ (s.graph.decl d).scope = σ :: outer ∧
    (s.graph.membersOf σ).toList.count d = 1 ∧ ∀ σ', σ' ≠ σ → d ∉ s.graph.membersOf σ'

/-- The tree of a unit has been covered. -/
structure State.Covers (s : State) (u : UnitId) : Prop where
  /-- Every node that a walk visits stands somewhere. -/
  stands : ∀ n ∈ (s.unit u).tree.outline.nodes, ∃ c, s.Stands u c n
  /-- A node has a declaration if it is one that declares something. -/
  table : ∀ n ∈ (s.unit u).tree.outline.nodes,
    (s.decls[(⟨u, n.mark.id⟩ : NodeId)]?).isSome ↔ n.declKind.isSome
  /-- The declaration of a node is made from it, and stands where it should. -/
  declared : ∀ n ∈ (s.unit u).tree.outline.nodes, ∀ d, s.decls[(⟨u, n.mark.id⟩ : NodeId)]? = some d →
    (s.graph.decl d).unit = some u ∧ (s.graph.decl d).node = some n ∧
      n.declKind = some (s.graph.decl d).shape.kind ∧ s.Houses u n d
  /-- Every declaration of the unit is that of a node. -/
  made : ∀ d, d.index < s.graph.decls.size → (s.graph.decl d).unit = some u →
    ∃ n ∈ (s.unit u).tree.outline.nodes, s.decls[(⟨u, n.mark.id⟩ : NodeId)]? = some d
  /-- The unit lists the declarations that stand in the package, in the order of the text. -/
  listed : (s.unit u).declarations.toList =
    ((s.unit u).tree.outline.nodes.filterMap fun n => s.decls[(⟨u, n.mark.id⟩ : NodeId)]?).filter
      fun d => (s.graph.decl d).scope = [.package (s.unit u).package]

section

variable {s b : State} {u : UnitId}

/-- The declarations of a unit that has just been bound, beginning in `b`. -/
structure State.JustBound (b s : State) (u : UnitId) : Prop where
  inOrder : s.InOrder
  isBound : (s.unit u).isBound
  made : Binding.Made u (Node.unit (s.unit u).tree).declaring b s
  valid : u.index < b.units.size
  unlisted : (b.unit u).declarations = #[]
  members : ∀ σ, ∀ d ∈ b.graph.membersOf σ, d.index < b.graph.decls.size
  others : ∀ d, d.index < b.graph.decls.size → (s.graph.decl d).unit ≠ some u

namespace State.JustBound

variable (h : b.JustBound s u)
include h

/-- The declarations of the unit are the ones that have been made. -/
theorem mem_nextDecls {d : DeclId} (hd : d.index < s.graph.decls.size)
    (hunit : (s.graph.decl d).unit = some u) :
    d ∈ Binding.nextDecls b (Node.unit (s.unit u).tree).declaring.length := by
  refine Binding.mem_nextDecls.mpr ⟨?_, h.made.size ▸ hd⟩
  by_contra hlt
  exact h.others d (by omega) hunit

/-- What stands in the table at a node of the unit is a new declaration, which is made from the node. -/
theorem node_of_table {n : Node} (hn : n ∈ (s.unit u).tree.outline.nodes) {d : DeclId}
    (hd : s.decls[(⟨u, n.mark.id⟩ : NodeId)]? = some d) :
    d.index < s.graph.decls.size ∧ (s.graph.decl d).unit = some u ∧ (s.graph.decl d).node = some n := by
  obtain ⟨hvalid, hnode⟩ := h.inOrder.layout.grounded.table _ d hd
  obtain ⟨u', hunit, hnode⟩ := Option.bind_eq_some_iff.mp hnode
  obtain ⟨m, hm, hkey⟩ := Option.bind_eq_some_iff.mp hnode
  obtain ⟨rfl, hid⟩ := NodeId.mk.inj (Option.some.inj hkey)
  obtain ⟨m', hm', hhas, -⟩ := h.inOrder.layout.grounded.origins d hvalid u' hunit
  obtain rfl : m = m' := Option.some.inj (hm.symm.trans hm')
  obtain rfl : m = n := (h.inOrder.layout.numbered u').eq_of_id hhas.2 hn hid
  exact ⟨hvalid, hunit, hm⟩

/-- Only nodes that declare something have a declaration in the table. -/
theorem declKind_of_table {n : Node} (hn : n ∈ (s.unit u).tree.outline.nodes) {d : DeclId}
    (hd : s.decls[(⟨u, n.mark.id⟩ : NodeId)]? = some d) : n.declKind.isSome := by
  obtain ⟨hvalid, hunit, hnode⟩ := h.node_of_table hn hd
  have hmem : some n ∈ (Node.unit (s.unit u).tree).declaring.map some := by
    rw [← h.made.nodes, ← hnode]
    exact List.mem_map_of_mem (h.mem_nextDecls hvalid hunit)
  obtain ⟨m, hm, hmn⟩ := List.mem_map.mp hmem
  obtain rfl := Option.some.inj hmn
  exact (List.mem_filter.mp hm).2

/-- A new declaration is a member of the innermost scope around it, once, and of no other scope. -/
theorem houses {n : Node} {d : DeclId} {c : ScopeChain} (hstands : s.Stands u c n)
    (hd : s.Declares u c n d) (hchain : s.graph.Chain c) : s.Houses u n d := by
  obtain ⟨σ, outer, rfl⟩ := hchain.exists_cons
  have hnew := h.mem_nextDecls hd.valid hd.unit
  refine ⟨σ, outer, hstands, hd.scope, ?_, fun σ' hσ' hmem => hσ' ?_⟩
  · rw [h.made.members, List.count_append, List.count_eq_zero.mpr fun hold => ?_, zero_add,
      List.count_filter (by simp [hd.scope])]
    · exact List.count_eq_one_of_mem (Binding.nodup_nextDecls _ _) hnew
    · have hlt := h.members σ d (Array.mem_toList_iff.mp hold)
      exact absurd (Binding.mem_nextDecls.mp hnew).1 (by omega)
  · have hhead := (h.inOrder.layout.grounded.members σ' d hmem).2
    rw [hd.scope] at hhead
    exact (Option.some.inj hhead).symm

/-- The declarations that have been made are those of the nodes of the unit, in the order of the text. -/
theorem filterMap_table :
    ((s.unit u).tree.outline.nodes.filterMap fun n => s.decls[(⟨u, n.mark.id⟩ : NodeId)]?) =
      Binding.nextDecls b (Node.unit (s.unit u).tree).declaring.length := by
  -- The table leads from the node of each new declaration back to the declaration.
  have hback : ∀ (ds : List DeclId) (ns : List Node), (∀ d ∈ ds, d ∈ Binding.nextDecls b
      (Node.unit (s.unit u).tree).declaring.length) →
      ds.map (fun d => (s.graph.decl d).node) = ns.map some →
      ns.filterMap (fun n => s.decls[(⟨u, n.mark.id⟩ : NodeId)]?) = ds := by
    intro ds
    induction ds with
    | nil => simp
    | cons d ds ih =>
      intro ns hds hmap
      obtain ⟨n, ns, rfl, hn, hns⟩ := List.map_eq_cons_iff.mp hmap.symm
      have hd := hds d List.mem_cons_self
      have hlt : d.index < s.graph.decls.size := h.made.size ▸ (Binding.mem_nextDecls.mp hd).2
      obtain ⟨n', hn', -, hlisted, -⟩ :=
        h.inOrder.layout.grounded.origins d hlt u (h.made.units d hd)
      obtain rfl : n = n' := Option.some.inj (hn.trans hn')
      have hrest := ih ns (fun d' hd' => hds d' (List.mem_cons_of_mem d hd')) hns.symm
      rw [List.filterMap_cons, hlisted, hrest]
  rw [← hback _ _ (fun _ hd => hd) h.made.nodes, Node.declaring, List.filterMap_filter]
  refine List.filterMap_congr fun n hn => ?_
  split
  · rfl
  · next hkind =>
    by_contra hsome
    obtain ⟨d, hd⟩ := Option.ne_none_iff_exists'.mp hsome
    exact hkind (h.declKind_of_table hn hd)

/-- A declaration at the top of the unit stands in its package. -/
theorem isTop_iff {d : DeclId} (hd : d ∈ Binding.nextDecls b (Node.unit (s.unit u).tree).declaring.length) :
    Binding.isTop (s.graph.decl d).scope ↔
      (s.graph.decl d).scope = [.package (s.unit u).package] := by
  refine ⟨fun htop => ?_, fun hscope => by rw [hscope]; rfl⟩
  have hlt : d.index < s.graph.decls.size := h.made.size ▸ (Binding.mem_nextDecls.mp hd).2
  obtain ⟨n, -, hhas, hlisted, -⟩ := h.inOrder.layout.grounded.origins d hlt u (h.made.units d hd)
  obtain ⟨c, -, hchain, hlaid⟩ := h.inOrder.layout.placed u n hhas
  obtain ⟨d', hd', -⟩ := hlaid.declared (h.declKind_of_table hhas.2 hlisted)
  obtain rfl : d' = d := Option.some.inj (hd'.listed.symm.trans hlisted)
  rw [hd'.scope] at htop ⊢
  match c, hchain, htop with
  | .package q :: outer, ⟨hnil, hlast⟩, _ =>
    obtain rfl : outer = [] := hnil
    exact congrArg (fun σ => [σ]) (Option.some.inj hlast)

/-- A unit that has just been bound is covered by its declarations. -/
theorem covers : s.Covers u := by
  have hplaced : ∀ n ∈ (s.unit u).tree.outline.nodes, s.Placed u n :=
    fun n hn => h.inOrder.layout.placed u n ⟨h.isBound, hn⟩
  refine ⟨fun n hn => ?_, fun n hn => ⟨fun hsome => ?_, fun hkind => ?_⟩, fun n hn d hd => ?_,
    fun d hd hunit => ?_, ?_⟩
  · obtain ⟨c, hstands, -, -⟩ := hplaced n hn
    exact ⟨c, hstands⟩
  · obtain ⟨d, hd⟩ := Option.isSome_iff_exists.mp hsome
    exact h.declKind_of_table hn hd
  · obtain ⟨c, -, -, hlaid⟩ := hplaced n hn
    obtain ⟨d, hd, -⟩ := hlaid.declared hkind
    exact Option.isSome_iff_exists.mpr ⟨d, hd.listed⟩
  · obtain ⟨c, hstands, hchain, hlaid⟩ := hplaced n hn
    -- The declaration in the table is the one that was laid out here.
    obtain ⟨d', hd', -⟩ := hlaid.declared (h.declKind_of_table hn hd)
    obtain rfl : d' = d := Option.some.inj (hd'.listed.symm.trans hd)
    exact ⟨hd'.unit, hd'.node, hd'.kind, h.houses hstands hd' hchain.chain⟩
  · obtain ⟨n, -, hhas, hlisted, -⟩ := h.inOrder.layout.grounded.origins d hd u hunit
    exact ⟨n, hhas.2, hlisted⟩
  · -- The unit lists what it declares at the top, in the order of the nodes.
    rw [h.made.listed h.valid, h.unlisted, h.filterMap_table]
    exact List.filter_congr fun d hd => by rw [Bool.eq_iff_iff, h.isTop_iff hd, decide_eq_true_iff]

end State.JustBound

end

/-- To bind a unit that can be bound makes exactly its declarations. -/
theorem justBound_of_isUnbound {s : State} (hs : s.InOrder) {u : UnitId}
    (hu : u.index < s.units.size) (hnew : s.isUnbound u) : (s.begun u).JustBound (bindDeclarations u s).2 u := by
  have horder := hs.bindDeclarations hu
  have hunbound : (s.unit u).isBound = false := by
    by_contra hbound
    rw [Bool.not_eq_false] at hbound
    simp [State.isUnbound, hs.phases u hbound] at hnew
  have hgrows := s.scripted_grows u
  have hunit := hgrows.unit_eq u
  rw [State.tree_begun hu, State.unit_begun hu, if_pos rfl] at hunit
  have hmade := Binding.run_made (Binding.bindUnit_makes [.package (s.unit u).package] (s.unit u).tree)
    u (s.begun u)
  rw [bindDeclarations_of_isUnbound hnew] at horder ⊢
  -- Taking the unit to its phase changes nothing else.
  have hself : ∀ {α : Type} (g : UnitState → α), (∀ unit, g { unit with phase := .bound } = g unit) →
      g (({ s.scripted u with units := (s.scripted u).units.modify u.index fun unit =>
        { unit with phase := .bound } } : State).unit u) = g ((s.scripted u).unit u) := by
    intro α g hg
    rw [State.unit_modify]
    split
    · exact hg _
    · rfl
  refine ⟨horder, ?_, ?_, ?_, ?_, fun σ d hd => (hs.layout.grounded.members σ d hd).1, fun d hd hd' => ?_⟩
  · rw [hself (·.isBound) fun _ => rfl, hunit.2]
  · rw [hself (·.tree) fun _ => rfl, hunit.1]
    exact Binding.Made.modifyUnit hmade fun _ => rfl
  · change u.index < (s.units.modify _ _).size
    rwa [Array.size_modify]
  · rw [State.unit_begun hu, if_pos rfl]
    exact hs.unlisted u hunbound
  · have hold : (s.graph.decl d).unit = some u := (congrArg (·.unit) (hgrows.decl d hd)).symm.trans hd'
    obtain ⟨n, -, hhas, -⟩ := hs.layout.grounded.origins d hd u hold
    exact absurd (hunbound.symm.trans hhas.1) Bool.false_ne_true

/-- Binding a unit covers its tree: each node that a walk of the tree visits is recorded by one step, and
nothing else is, and each node that declares something gets one declaration, in its place. -/
theorem bindDeclarations_covers {s : State} (hs : s.Reached) {u : UnitId} (hu : u.index < s.units.size)
    (hnew : s.isUnbound u) :
    (((s.script u).asked (Binding.perform u) (s.begun u)).map BindStep.ids).sum =
        ((s.unit u).tree.outline.nodes.map (·.mark.id) : List Nat) ∧
      ((s.unit u).tree.outline.nodes.map (·.mark.id)).Nodup ∧
      (bindDeclarations u s).2.Covers u :=
  ⟨(s.scripted_lays u).sum_asked (s.begun u), hs.inOrder.layout.numbered u,
    (justBound_of_isUnbound hs.inOrder hu hnew).covers⟩

/-- A unit with a class and a branch that introduces a variable, added to an analysis that has just begun
and then bound. -/
theorem bindDeclarations_covers_branch :
    let text := "class A(String? s) \x7b void m() \x7b if (exists String t = s) \x7b print(t); \x7d \x7d \x7d"
    let added := addUnit "a.ceylon" (readUnit ⟨"a.ceylon", "a.ceylon"⟩ (Text.Glyph.ofString text)).unit ⟨0⟩
      .initial
    added.2.isUnbound added.1 ∧ (bindDeclarations added.1 added.2).2.Covers added.1 := by
  intro text added
  have hnew : added.1.index = State.initial.units.size := rfl
  have hunbound : added.2.isUnbound added.1 := by
    rw [State.isUnbound, unit_addUnit, if_pos hnew]
    rfl
  have hvalid : added.1.index < added.2.units.size := by
    change State.initial.units.size < (State.initial.units.push _).size
    rw [Array.size_push]
    exact Nat.lt_succ_self _
  exact ⟨hunbound, (bindDeclarations_covers (.unit _ _ _ _ .initial) hvalid hunbound).2.2⟩

end Analysis

end Ceylon
