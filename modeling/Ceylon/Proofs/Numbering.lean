import Mathlib.Data.List.Nodup
import Ceylon.Proofs.Outline
import Ceylon.Syntax.Numbering

/-!
# Numbers of nodes

Numbering a tree hands out consecutive numbers in the order of the outline, so that the nodes of a
numbered unit have numbers of their own (`CompilationUnit.number_ids`), and a number tells which node it
is (`CompilationUnit.Numbered.eq_of_id`).
-/

namespace Ceylon.Syntax

/-- The numbers of the nodes of an outline, in their order. -/
def Outline.ids (o : Outline) : List Nat :=
  o.nodes.map fun n => n.mark.id

/-- The numbers of the nodes of outlines, in their order. -/
def idsOf (os : List Outline) : List Nat :=
  os.flatMap Outline.ids

@[simp] theorem idsOf_nil : idsOf [] = [] := rfl

@[simp] theorem idsOf_cons (o : Outline) (os : List Outline) : idsOf (o :: os) = o.ids ++ idsOf os := rfl

@[simp] theorem idsOf_append (os os' : List Outline) : idsOf (os ++ os') = idsOf os ++ idsOf os' := by
  simp [idsOf]

@[simp] theorem Outline.ids_mk (slot : Slot) (node : Node) (attributes : List (String × Attribute))
    (children : List Outline) :
    (Outline.mk slot node attributes children).ids = node.mark.id :: idsOf children := by
  simp [ids, idsOf, List.map_flatMap]
  rfl

/-! ## Consecutive numbers -/

/-- The numbers from `n` up to, but not with, `n'`. -/
def Segment (n : Nat) (ids : List Nat) (n' : Nat) : Prop :=
  ids = List.range' n ids.length ∧ n' = n + ids.length

/-- Nothing is numbered. -/
theorem Segment.nil (n : Nat) : Segment n [] n :=
  ⟨rfl, rfl⟩

/-- Numbers that follow each other, one segment behind the other. -/
theorem Segment.append {n m k : Nat} {as bs : List Nat} (ha : Segment n as m)
    (hb : Segment m bs k) : Segment n (as ++ bs) k := by
  obtain ⟨ha, rfl⟩ := ha
  obtain ⟨hb, rfl⟩ := hb
  refine ⟨?_, by simp; omega⟩
  rw [List.length_append, ← List.range'_append_1, ← ha, ← hb]

/-- Numbers that follow each other are different. -/
theorem Segment.nodup {n n' : Nat} {ids : List Nat} (h : Segment n ids n') : ids.Nodup := by
  rw [h.1]
  exact List.nodup_range'

/-- With the numbers `before` handed out already, the result has the numbers `ids`, which go on from
these without a gap. -/
def Numbers (before : List Nat) {α : Type} (m : Numbering α) (ids : α → List Nat) : Prop :=
  ∀ n₀ n, Segment n₀ before n → Segment n₀ (ids (m n).1) (m n).2

namespace Numbers

variable {α β : Type} {before : List Nat}

/-- Nothing is numbered, and what has been numbered before is the result. -/
theorem pure {a : α} {ids : α → List Nat} (h : ids a = before) :
    Numbers before (Pure.pure a : Numbering α) ids := by
  intro n₀ n hn
  change Segment n₀ (ids a) n
  rwa [h]

/-- What is numbered second gets the numbers behind those of the first. -/
theorem bind {m : Numbering α} {f : α → Numbering β} {ids : α → List Nat} {ids' : β → List Nat}
    (hm : Numbers [] m ids) (hf : ∀ a, Numbers (before ++ ids a) (f a) ids') :
    Numbers before (m >>= f) ids' := by
  intro n₀ n hn
  exact hf (m n).1 n₀ (m n).2 (hn.append (hm n n (Segment.nil n)))

/-- A mark gets the next number. -/
theorem mark (m : Mark) : Numbers [] m.number fun m => [m.id] := by
  rintro n₀ n ⟨-, rfl⟩
  exact ⟨rfl, rfl⟩

/-- An optional part is numbered as the part is. -/
theorem option {f : α → Numbering α} {out : α → Outline}
    (hf : ∀ a, Numbers [] (f a) fun a => (out a).ids) (a : Option α) :
    Numbers [] (numberOption f a) fun a => idsOf (outlineOption out a) := by
  cases a with
  | none => exact pure rfl
  | some a => exact bind (hf a) fun a => pure (by simp [outlineOption])

/-- The parts of a list are numbered one after the other. -/
theorem mapM {f : α → Numbering α} {out : α → Outline}
    (hf : ∀ a, Numbers [] (f a) fun a => (out a).ids) (as : List α) :
    Numbers [] (as.mapM f) fun as => idsOf (as.map out) := by
  induction as with
  | nil => exact pure rfl
  | cons a as ih =>
    rw [List.mapM_cons]
    exact bind (hf a) fun a => bind ih fun as => pure (by simp)

end Numbers

/-! ## Trees -/

theorem Name.numbers (slot : Slot) (n : Name) : Numbers [] n.number fun n => (n.outline slot).ids :=
  .bind (.mark n.mark) fun _ => .pure rfl

theorem Path.numbers (p : Path) : Numbers [] p.number fun p => p.outline.ids :=
  .bind (.mark p.mark) fun _ => .bind (.mapM (Name.numbers ⟨"segments", true⟩) p.segments) fun _ =>
    .pure (by simp [Path.outline, Node.mark])

mutual

/-- The nodes of a type are numbered in the order of the walk. -/
theorem TypeRef.numbers (slot : Slot) :
    (t : TypeRef) → Numbers [] t.number fun t => (t.outline slot).ids
  | .base b => .bind (b.numbers slot) fun _ => .pure rfl
  | .union mark first more =>
    .bind (.mark mark) fun _ => .bind (first.numbers ⟨"cases", true⟩) fun _ =>
      .bind (numberTypes_numbers "cases" more) fun _ =>
        .pure (by simp [TypeRef.outline, Node.mark, TypeRef.mark])
  | .optional mark inner =>
    .bind (.mark mark) fun _ => .bind (inner.numbers ⟨"inner", false⟩) fun _ =>
      .pure (by simp [TypeRef.outline, Node.mark, TypeRef.mark])

theorem BaseType.numbers (slot : Slot) :
    (b : BaseType) → Numbers [] b.number fun b => (b.outline slot).ids
  | { mark, name, args } =>
    .bind (.mark mark) fun _ => .bind (name.numbers ⟨"name", false⟩) fun _ =>
      .bind (numberTypes_numbers "args" args) fun _ =>
        .pure (by simp [BaseType.outline, Node.mark, TypeRef.mark])

theorem numberTypes_numbers (label : String) :
    (ts : List TypeRef) → Numbers [] (numberTypes ts) fun ts => idsOf (outlineTypes label ts)
  | [] => .pure rfl
  | t :: ts =>
    .bind (t.numbers ⟨label, true⟩) fun _ => .bind (numberTypes_numbers label ts) fun _ =>
      .pure (by simp [outlineTypes])

end

theorem DeclaredType.numbers (t : DeclaredType) : Numbers [] t.number fun t => t.outline.ids := by
  cases t with
  | ref t => exact .bind (t.numbers ⟨"type", false⟩) fun _ => .pure rfl
  | inferred mark function => exact .bind (.mark mark) fun _ => .pure rfl
  | void mark => exact .bind (.mark mark) fun _ => .pure rfl

mutual

/-- The nodes of an expression are numbered in the order of the walk. -/
theorem Expr.numbers (slot : Slot) :
    (x : Expr) → Numbers [] x.number fun x => (x.outline slot).ids
  | .reference mark _ name typeArgs =>
    .bind (.mark mark) fun _ => .bind (name.numbers ⟨"name", false⟩) fun _ =>
      .bind (numberTypes_numbers "typeArgs" typeArgs) fun _ =>
        .pure (by simp [Expr.outline, Node.mark, Expr.mark])
  | .qualified mark primary _ _ name typeArgs =>
    .bind (.mark mark) fun _ => .bind (primary.numbers ⟨"primary", false⟩) fun _ =>
      .bind (name.numbers ⟨"name", false⟩) fun _ =>
        .bind (numberTypes_numbers "typeArgs" typeArgs) fun _ =>
          .pure (by simp [Expr.outline, Node.mark, Expr.mark])
  | .invocation mark primary args =>
    .bind (.mark mark) fun _ => .bind (primary.numbers ⟨"primary", false⟩) fun _ =>
      .bind args.numbers fun _ => .pure (by simp [Expr.outline, Node.mark, Expr.mark])
  | .index mark primary _ subscript =>
    .bind (.mark mark) fun _ => .bind (primary.numbers ⟨"primary", false⟩) fun _ =>
      .bind subscript.numbers fun _ => .pure (by simp [Expr.outline, Node.mark, Expr.mark])
  | .literal mark .. => .bind (.mark mark) fun _ => .pure rfl
  | .self mark _ => .bind (.mark mark) fun _ => .pure rfl
  | .sequence mark elems =>
    .bind (.mark mark) fun _ => .bind (numberExprs_numbers "elems" elems) fun _ =>
      .pure (by simp [Expr.outline, Node.mark, Expr.mark])
  | .paren mark x =>
    .bind (.mark mark) fun _ => .bind (x.numbers ⟨"x", false⟩) fun _ =>
      .pure (by simp [Expr.outline, Node.mark, Expr.mark])
  | .binary mark _ x y =>
    .bind (.mark mark) fun _ => .bind (x.numbers ⟨"x", false⟩) fun _ =>
      .bind (y.numbers ⟨"y", false⟩) fun _ => .pure (by simp [Expr.outline, Node.mark, Expr.mark])
  | .prefixed mark _ x =>
    .bind (.mark mark) fun _ => .bind (x.numbers ⟨"x", false⟩) fun _ =>
      .pure (by simp [Expr.outline, Node.mark, Expr.mark])
  | .postfixed mark _ x =>
    .bind (.mark mark) fun _ => .bind (x.numbers ⟨"x", false⟩) fun _ =>
      .pure (by simp [Expr.outline, Node.mark, Expr.mark])
  | .isTest mark x type =>
    .bind (.mark mark) fun _ => .bind (x.numbers ⟨"x", false⟩) fun _ =>
      .bind (type.numbers ⟨"type", false⟩) fun _ =>
        .pure (by simp [Expr.outline, Node.mark, Expr.mark])
  | .existsTest mark x =>
    .bind (.mark mark) fun _ => .bind (x.numbers ⟨"x", false⟩) fun _ =>
      .pure (by simp [Expr.outline, Node.mark, Expr.mark])
  | .nonemptyTest mark x =>
    .bind (.mark mark) fun _ => .bind (x.numbers ⟨"x", false⟩) fun _ =>
      .pure (by simp [Expr.outline, Node.mark, Expr.mark])

theorem numberExprs_numbers (label : String) :
    (xs : List Expr) → Numbers [] (numberExprs xs) fun xs => idsOf (outlineExprs label xs)
  | [] => .pure rfl
  | x :: xs =>
    .bind (x.numbers ⟨label, true⟩) fun _ => .bind (numberExprs_numbers label xs) fun _ =>
      .pure (by simp [outlineExprs])

theorem Arguments.numbers : (a : Arguments) → Numbers [] a.number fun a => a.outline.ids
  | .positional args => .bind (args.numbers ⟨"positional", false⟩) fun _ => .pure rfl
  | .named args => .bind args.numbers fun _ => .pure rfl

theorem PositionalArgs.numbers (slot : Slot) :
    (a : PositionalArgs) → Numbers [] a.number fun a => (a.outline slot).ids
  | { mark, args } =>
    .bind (.mark mark) fun _ => .bind (numberExprs_numbers "args" args) fun _ =>
      .pure (by simp [PositionalArgs.outline, Node.mark])

theorem NamedArgs.numbers : (a : NamedArgs) → Numbers [] a.number fun a => a.outline.ids
  | { mark, args, sequenced } =>
    .bind (.mark mark) fun _ => .bind (numberNamed_numbers args) fun _ =>
      .bind (numberSequenced_numbers sequenced) fun _ =>
        .pure (by simp [NamedArgs.outline, Node.mark])

theorem NamedArg.numbers : (a : NamedArg) → Numbers [] a.number fun a => idsOf (outlineNamed [a])
  | { mark, name, value } =>
    .bind (.mark mark) fun _ => .bind (name.numbers ⟨"name", false⟩) fun _ =>
      .bind (value.numbers ⟨"x", false⟩) fun _ => .pure (by simp [outlineNamed, Node.mark])

theorem numberNamed_numbers :
    (as : List NamedArg) → Numbers [] (numberNamed as) fun as => idsOf (outlineNamed as)
  | [] => .pure rfl
  | a :: as =>
    .bind a.numbers fun a => .bind (numberNamed_numbers as) fun _ =>
      .pure (by cases a; simp [outlineNamed])

theorem numberSequenced_numbers :
    (a : Option SequencedArg) → Numbers [] (numberSequenced a) fun a => idsOf (outlineSequenced a)
  | none => .pure rfl
  | some a => .bind a.numbers fun _ => .pure rfl

theorem SequencedArg.numbers :
    (a : SequencedArg) → Numbers [] a.number fun a => idsOf (outlineSequenced (some a))
  | { mark, values } =>
    .bind (.mark mark) fun _ => .bind (numberExprs_numbers "exprs" values) fun _ =>
      .pure (by simp [outlineSequenced, Node.mark])

theorem Subscript.numbers : (s : Subscript) → Numbers [] s.number fun s => idsOf s.outline
  | .element index =>
    .bind (index.numbers ⟨"index", false⟩) fun _ => .pure (by simp [Subscript.outline])
  | .span lower upper =>
    .bind (lower.numbers ⟨"index", false⟩) fun _ => .bind (upper.numbers ⟨"upper", false⟩) fun _ =>
      .pure (by simp [Subscript.outline])
  | .tail lower =>
    .bind (lower.numbers ⟨"index", false⟩) fun _ => .pure (by simp [Subscript.outline])

end

theorem TypeParameter.numbers (p : TypeParameter) : Numbers [] p.number fun p => p.outline.ids :=
  .bind (.mark p.mark) fun _ => .bind (p.name.numbers ⟨"name", false⟩) fun _ =>
    .pure (by simp [TypeParameter.outline, Node.mark])

theorem Parameter.numbers (p : Parameter) : Numbers [] p.number fun p => p.outline.ids :=
  .bind (.mark p.mark) fun _ => .bind (p.type.numbers ⟨"type", false⟩) fun _ =>
    .bind (p.name.numbers ⟨"name", false⟩) fun _ =>
      .bind (.option (Expr.numbers ⟨"default", false⟩) p.default) fun _ =>
        .pure (by simp [Parameter.outline, Node.mark])

theorem ParameterList.numbers (l : ParameterList) : Numbers [] l.number fun l => l.outline.ids :=
  .bind (.mark l.mark) fun _ => .bind (.mapM Parameter.numbers l.params) fun _ =>
    .pure (by simp [ParameterList.outline, Node.mark])

theorem ExtendedType.numbers (e : ExtendedType) : Numbers [] e.number fun e => e.outline.ids :=
  .bind (.mark e.mark) fun _ => .bind (e.type.numbers ⟨"type", false⟩) fun _ =>
    .bind (e.args.numbers ⟨"args", false⟩) fun _ =>
      .pure (by simp [ExtendedType.outline, Node.mark])

theorem LoopVariable.numbers (label : String) (v : LoopVariable) :
    Numbers [] v.number fun v => (v.variable.outline label).ids :=
  .bind (.mark v.mark) fun _ => .bind v.type.numbers fun _ =>
    .bind (v.name.numbers ⟨"name", false⟩) fun _ =>
      .pure (by simp [LoopVariable.variable, Variable.outline, outlineOption, Node.mark])

theorem Operand.numbers (o : Operand) : Numbers [] o.number fun o => o.outline.ids := by
  cases o with
  | var g =>
    have hg : Numbers [] g.number fun g => (g.variable.outline "var").ids :=
      .bind (.mark g.mark) fun _ => .bind g.type.numbers fun _ =>
        .bind (g.name.numbers ⟨"name", false⟩) fun _ =>
          .bind (g.specifier.numbers ⟨"specifier", false⟩) fun _ =>
            .pure (by simp [Guard.variable, Variable.outline, outlineOption, Node.mark])
    exact .bind hg fun _ => .pure rfl
  | value x => exact .bind (x.numbers ⟨"x", false⟩) fun _ => .pure rfl

theorem Condition.numbers (c : Condition) : Numbers [] c.number fun c => c.outline.ids := by
  cases c with
  | boolean mark x =>
    exact .bind (.mark mark) fun _ => .bind (x.numbers ⟨"x", false⟩) fun _ =>
      .pure (by simp [Condition.outline, Node.mark, Condition.mark])
  | «exists» mark operand =>
    exact .bind (.mark mark) fun _ => .bind operand.numbers fun _ =>
      .pure (by simp [Condition.outline, Node.mark, Condition.mark])
  | nonempty mark operand =>
    exact .bind (.mark mark) fun _ => .bind operand.numbers fun _ =>
      .pure (by simp [Condition.outline, Node.mark, Condition.mark])
  | is mark type operand =>
    exact .bind (.mark mark) fun _ => .bind (type.numbers ⟨"type", false⟩) fun _ =>
      .bind operand.numbers fun _ => .pure (by simp [Condition.outline, Node.mark, Condition.mark])

theorem Iteration.numbers (i : Iteration) : Numbers [] i.number fun i => i.outline.ids := by
  cases i with
  | values mark var source =>
    exact .bind (.mark mark) fun _ => .bind (var.numbers "var") fun _ =>
      .bind (source.numbers ⟨"source", false⟩) fun _ =>
        .pure (by simp [Iteration.outline, Node.mark, Iteration.mark])
  | entries mark key value source =>
    exact .bind (.mark mark) fun _ => .bind (key.numbers "key") fun _ =>
      .bind (value.numbers "value") fun _ => .bind (source.numbers ⟨"source", false⟩) fun _ =>
        .pure (by simp [Iteration.outline, Node.mark, Iteration.mark])

theorem Initializer.numbers (i : Initializer) :
    Numbers [] i.number fun i => idsOf (outlineOption (Expr.outline ⟨"specifier", false⟩) i.expr?) := by
  cases i with
  | absent => exact .pure rfl
  | specified x =>
    exact .bind (x.numbers ⟨"specifier", false⟩) fun _ =>
      .pure (by simp [Initializer.expr?, outlineOption])
  | assigned x =>
    exact .bind (x.numbers ⟨"specifier", false⟩) fun _ =>
      .pure (by simp [Initializer.expr?, outlineOption])

theorem AttributeDecl.numbers (slot : Slot) (d : AttributeDecl) :
    Numbers [] d.number fun d => (d.outline slot).ids :=
  .bind (.mark d.mark) fun _ => .bind d.type.numbers fun _ =>
    .bind (d.name.numbers ⟨"name", false⟩) fun _ => .bind d.init.numbers fun _ =>
      .pure (by simp [AttributeDecl.outline, Node.mark, Stmt.mark])

mutual

/-- The nodes of a statement are numbered in the order of the walk. -/
theorem Stmt.numbers (slot : Slot) :
    (s : Stmt) → Numbers [] s.number fun s => (s.outline slot).ids
  | .classDecl d => .bind (d.numbers slot) fun _ => .pure rfl
  | .interfaceDecl d => .bind (d.numbers slot) fun _ => .pure rfl
  | .method d => .bind (d.numbers slot) fun _ => .pure rfl
  | .attribute d => .bind (d.numbers slot) fun _ => .pure rfl
  | .getter d => .bind (d.numbers slot) fun _ => .pure rfl
  | .setter d => .bind (d.numbers slot) fun _ => .pure rfl
  | .expr mark x =>
    .bind (.mark mark) fun _ => .bind (x.numbers ⟨"x", false⟩) fun _ =>
      .pure (by simp [Stmt.outline, Node.mark, Stmt.mark])
  | .return mark x =>
    .bind (.mark mark) fun _ => .bind (.option (Expr.numbers ⟨"x", false⟩) x) fun _ =>
      .pure (by simp [Stmt.outline, Node.mark, Stmt.mark])
  | .break mark => .bind (.mark mark) fun _ => .pure rfl
  | .continue mark => .bind (.mark mark) fun _ => .pure rfl
  | .ifElse s => .bind (s.numbers slot) fun _ => .pure rfl
  | .while mark clause =>
    .bind (.mark mark) fun _ => .bind clause.numbers fun _ =>
      .pure (by simp [Stmt.outline, Node.mark, Stmt.mark])
  | .for mark clause fail =>
    .bind (.mark mark) fun _ => .bind clause.numbers fun _ =>
      .bind (numberFail_numbers fail) fun _ => .pure (by simp [Stmt.outline, Node.mark, Stmt.mark])

theorem numberStmts_numbers (label : String) :
    (ss : List Stmt) → Numbers [] (numberStmts ss) fun ss => idsOf (outlineStmts label ss)
  | [] => .pure rfl
  | s :: ss =>
    .bind (s.numbers ⟨label, true⟩) fun _ => .bind (numberStmts_numbers label ss) fun _ =>
      .pure (by simp [outlineStmts])

theorem Block.numbers : (b : Block) → Numbers [] b.number fun b => b.outline.ids
  | { mark, stmts, close := _ } =>
    .bind (.mark mark) fun _ => .bind (numberStmts_numbers "stmts" stmts) fun _ =>
      .pure (by simp [Block.outline, Node.mark])

theorem ClassDecl.numbers (slot : Slot) :
    (d : ClassDecl) → Numbers [] d.number fun d => (d.outline slot).ids
  | { mark, annotations := _, name, typeParams, params, extended, satisfied, body } =>
    .bind (.mark mark) fun _ => .bind (name.numbers ⟨"name", false⟩) fun _ =>
      .bind (.mapM TypeParameter.numbers typeParams) fun _ => .bind params.numbers fun _ =>
        .bind (.option ExtendedType.numbers extended) fun _ =>
          .bind (numberTypes_numbers "satisfies" satisfied) fun _ => .bind body.numbers fun _ =>
            .pure (by simp [ClassDecl.outline, Node.mark, Stmt.mark])

theorem InterfaceDecl.numbers (slot : Slot) :
    (d : InterfaceDecl) → Numbers [] d.number fun d => (d.outline slot).ids
  | { mark, annotations := _, name, typeParams, satisfied, body } =>
    .bind (.mark mark) fun _ => .bind (name.numbers ⟨"name", false⟩) fun _ =>
      .bind (.mapM TypeParameter.numbers typeParams) fun _ =>
        .bind (numberTypes_numbers "satisfies" satisfied) fun _ => .bind body.numbers fun _ =>
          .pure (by simp [InterfaceDecl.outline, Node.mark, Stmt.mark])

theorem MethodDecl.numbers (slot : Slot) :
    (d : MethodDecl) → Numbers [] d.number fun d => (d.outline slot).ids
  | { mark, annotations := _, type, name, typeParams, params, body } =>
    .bind (.mark mark) fun _ => .bind type.numbers fun _ =>
      .bind (name.numbers ⟨"name", false⟩) fun _ =>
        .bind (.mapM TypeParameter.numbers typeParams) fun _ => .bind params.numbers fun _ =>
          .bind body.numbers fun _ => .pure (by simp [MethodDecl.outline, Node.mark, Stmt.mark])

theorem MethodBody.numbers : (b : MethodBody) → Numbers [] b.number fun b => idsOf b.outline
  | .absent => .pure rfl
  | .block b => .bind b.numbers fun _ => .pure (by simp [MethodBody.outline])
  | .computed x =>
    .bind (x.numbers ⟨"specifier", false⟩) fun _ => .pure (by simp [MethodBody.outline])

theorem GetterDecl.numbers (slot : Slot) :
    (d : GetterDecl) → Numbers [] d.number fun d => (d.outline slot).ids
  | { mark, annotations := _, type, name, body } =>
    .bind (.mark mark) fun _ => .bind type.numbers fun _ =>
      .bind (name.numbers ⟨"name", false⟩) fun _ => .bind body.numbers fun _ =>
        .pure (by simp [GetterDecl.outline, Node.mark, Stmt.mark])

theorem SetterDecl.numbers (slot : Slot) :
    (d : SetterDecl) → Numbers [] d.number fun d => (d.outline slot).ids
  | { mark, annotations := _, name, body } =>
    .bind (.mark mark) fun _ => .bind (name.numbers ⟨"name", false⟩) fun _ =>
      .bind body.numbers fun _ => .pure (by simp [SetterDecl.outline, Node.mark, Stmt.mark])

theorem IfStmt.numbers (slot : Slot) :
    (s : IfStmt) → Numbers [] s.number fun s => (s.outline slot).ids
  | { mark, clause, alternative } =>
    .bind (.mark mark) fun _ => .bind clause.numbers fun _ =>
      .bind (numberElse_numbers alternative) fun _ =>
        .pure (by simp [IfStmt.outline, Node.mark, Stmt.mark])

theorem IfClause.numbers : (c : IfClause) → Numbers [] c.number fun c => c.outline.ids
  | { mark, cond, body } =>
    .bind (.mark mark) fun _ => .bind cond.numbers fun _ => .bind body.numbers fun _ =>
      .pure (by simp [IfClause.outline, Node.mark])

theorem numberElse_numbers :
    (c : Option ElseClause) → Numbers [] (numberElse c) fun c => idsOf (outlineElse c)
  | none => .pure rfl
  | some c => .bind c.numbers fun _ => .pure rfl

theorem ElseClause.numbers :
    (c : ElseClause) → Numbers [] c.number fun c => idsOf (outlineElse (some c))
  | .block mark b =>
    .bind (.mark mark) fun _ => .bind b.numbers fun _ =>
      .pure (by simp [outlineElse, Node.mark, ElseClause.mark])
  | .ifElse mark s =>
    .bind (.mark mark) fun _ => .bind (s.numbers ⟨"if", false⟩) fun _ =>
      .pure (by simp [outlineElse, Node.mark, ElseClause.mark])

theorem WhileClause.numbers : (c : WhileClause) → Numbers [] c.number fun c => c.outline.ids
  | { mark, cond, body } =>
    .bind (.mark mark) fun _ => .bind cond.numbers fun _ => .bind body.numbers fun _ =>
      .pure (by simp [WhileClause.outline, Node.mark])

theorem ForClause.numbers : (c : ForClause) → Numbers [] c.number fun c => c.outline.ids
  | { mark, iteration, body } =>
    .bind (.mark mark) fun _ => .bind iteration.numbers fun _ => .bind body.numbers fun _ =>
      .pure (by simp [ForClause.outline, Node.mark])

theorem numberFail_numbers :
    (c : Option FailClause) → Numbers [] (numberFail c) fun c => idsOf (outlineFail c)
  | none => .pure rfl
  | some c => .bind c.numbers fun _ => .pure rfl

theorem FailClause.numbers :
    (c : FailClause) → Numbers [] c.number fun c => idsOf (outlineFail (some c))
  | { mark, body } =>
    .bind (.mark mark) fun _ => .bind body.numbers fun _ =>
      .pure (by simp [outlineFail, Node.mark])

end

theorem ModuleImport.numbers (i : ModuleImport) : Numbers [] i.number fun i => i.outline.ids :=
  .bind (.mark i.mark) fun _ => .bind i.path.numbers fun _ =>
    .pure (by simp [ModuleImport.outline, Node.mark])

theorem ModuleDescriptor.numbers (d : ModuleDescriptor) :
    Numbers [] d.number fun d => d.outline.ids :=
  .bind (.mark d.mark) fun _ => .bind d.path.numbers fun _ =>
    .bind (.mapM ModuleImport.numbers d.imports) fun _ =>
      .pure (by simp [ModuleDescriptor.outline, Node.mark])

theorem ImportElement.numbers (e : ImportElement) : Numbers [] e.number fun e => e.outline.ids :=
  .bind (.mark e.mark) fun _ => .bind (.option (Name.numbers ⟨"alias", false⟩) e.newName) fun _ =>
    .bind (e.name.numbers ⟨"name", false⟩) fun _ =>
      .pure (by simp [ImportElement.outline, Node.mark])

theorem Import.numbers (i : Import) : Numbers [] i.number fun i => i.outline.ids :=
  .bind (.mark i.mark) fun _ => .bind i.path.numbers fun _ =>
    .bind (.mapM ImportElement.numbers i.elements) fun _ => .pure (by simp [Import.outline, Node.mark])

/-- The nodes of a numbered unit have the numbers from zero on, in the order of the outline. -/
theorem CompilationUnit.number_ids (u : CompilationUnit) :
    u.number.outline.ids = List.range u.number.outline.nodes.length := by
  have hu : Numbers [] (do
      return { u with
        mark := ← u.mark.number
        module := ← numberOption ModuleDescriptor.number u.module
        imports := ← u.imports.mapM Import.number
        body := ← numberStmts u.body } : Numbering CompilationUnit) fun u => u.outline.ids :=
    .bind (.mark u.mark) fun _ => .bind (.option ModuleDescriptor.numbers u.module) fun _ =>
      .bind (.mapM Import.numbers u.imports) fun _ =>
        .bind (numberStmts_numbers "body" u.body) fun _ =>
          .pure (by simp [CompilationUnit.outline, Node.mark])
  have hsegment := (hu 0 0 (Segment.nil 0)).1
  rw [List.range_eq_range']
  have hlength : u.number.outline.ids.length = u.number.outline.nodes.length := List.length_map _
  rw [← hlength]
  exact hsegment

/-- No two nodes of a unit have the same number. -/
def CompilationUnit.Numbered (u : CompilationUnit) : Prop :=
  u.outline.ids.Nodup

/-- In a unit that has been numbered, the numbers of the nodes are different. -/
theorem CompilationUnit.number_numbered (u : CompilationUnit) : u.number.Numbered := by
  rw [Numbered, number_ids]
  exact List.nodup_range

/-- In a numbered unit, a number tells which node it is. -/
theorem CompilationUnit.Numbered.eq_of_id {u : CompilationUnit} (h : u.Numbered) {n n' : Node}
    (hn : u.Has n) (hn' : u.Has n') (hid : n.mark.id = n'.mark.id) : n = n' :=
  List.inj_on_of_nodup_map h hn hn' hid

end Ceylon.Syntax
