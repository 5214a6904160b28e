import Ceylon.Syntax.Numbering
import Ceylon.Syntax.Parser.Expr

/-!
# The rendering of a tree

The fields of a tree in the order of the grammar.  A rendering is a list of items, each of which stands for
one token, or for tokens whose choice a tree does not record: the order and repetition of annotations, a
comma before a closing bracket, `value` before the variable of a condition.  Of a literal the tree has
what its text means, so that the escapes in it may be written in any way.

Parentheses are nodes of the tree, and there are no others.  So each operand must bind at least as tight as
its place demands (`Expr.tightness`); one that binds looser has no rendering there.  In this way the
rendering of a tree says how the operators of a text nest.
-/

namespace Ceylon.Syntax

open Token (Kind)

/-! ## The words of annotations -/

theorem Annotations.mem_words {a : Annotations} {w : String} : w ∈ a.words ↔
    (a.isShared = true ∧ "shared" = w) ∨ (a.isVariable = true ∧ "variable" = w) ∨
      (a.isFormal = true ∧ "formal" = w) ∨ (a.isDefault = true ∧ "default" = w) ∨
      (a.isActual = true ∧ "actual" = w) ∨ (a.isAbstract = true ∧ "abstract" = w) := by
  simp [words]

/-- Setting an annotation adds its word. -/
theorem Annotations.mem_words_set {a : Annotations} {word w : String} (h : isWord word = true) :
    w ∈ ((a.set? word).getD a).words ↔ w ∈ a.words ∨ w = word := by
  unfold isWord set? at h
  split at h
  all_goals simp only [set?, Option.getD_some, mem_words, eq_comm (a := w)]
  all_goals grind

/-! ## Items -/

/-- An item of a rendering. -/
inductive Item where
  /-- A token of the given kind. -/
  | kind (k : Kind)
  /-- A name of the given kind. -/
  | name (k : Kind) (text : String)
  /-- A name of either kind. -/
  | anyName (text : String)
  /-- A literal that stands for `text`. -/
  | literal (sort : LiteralKind) (text : String)
  /-- Annotations in any order, repeated or not. -/
  | annotations (a : Annotations)
  /-- A token of the given kind, or none. -/
  | optional (k : Kind)
  /-- What cannot be rendered. -/
  | never

/-- The kind of the tokens of a sort of literals. -/
def LiteralKind.tokenKind : LiteralKind → Kind
  | .string => .string
  | .natural => .natural
  | .float => .float
  | .character => .character
  | .quoted => .quoted

/-- What the text of a literal stands for. -/
def LiteralKind.value : LiteralKind → String → String
  | .natural, text => text
  | .float, text => text
  | _, text => unquote text

/-- Whether tokens are an item. -/
def Item.Matches : Item → List Token → Prop
  | .kind k, ts => ∃ t, ts = [t] ∧ t.kind = k
  | .name k text, ts => ∃ t, ts = [t] ∧ t.kind = k ∧ t.text = text
  | .anyName text, ts =>
    ∃ t, ts = [t] ∧ (t.kind = .lowerName ∨ t.kind = .upperName) ∧ t.text = text
  | .literal sort text, ts => ∃ t, ts = [t] ∧ t.kind = sort.tokenKind ∧ sort.value t.text = text
  | .annotations a, ts => (∀ t ∈ ts, t.kind = .lowerName) ∧ ∀ w, w ∈ a.words ↔ w ∈ ts.map Token.text
  | .optional k, ts => ts = [] ∨ ∃ t, ts = [t] ∧ t.kind = k
  | .never, _ => False

/-- Tokens are items, one after the other. -/
inductive Spells : List Item → List Token → Prop
  | nil : Spells [] []
  | cons {item : Item} {items : List Item} {ts us : List Token} (head : item.Matches ts)
    (tail : Spells items us) : Spells (item :: items) (ts ++ us)

/-! ## Lists -/

/-- Renderings, each behind a token of the given kind. -/
def following (k : Kind) (xs : List (List Item)) : List Item :=
  xs.flatMap ([.kind k] ++ ·)

/-- Renderings between tokens of the given kind. -/
def separated (k : Kind) : List (List Item) → List Item
  | [] => []
  | x :: xs => x ++ following k xs

/-- Renderings between commas; there may be one more behind the last. -/
def listed : List (List Item) → List Item
  | [] => []
  | [x] => x ++ [.optional .comma]
  | x :: xs => x ++ [.kind .comma] ++ listed xs

/-! ## Names and types -/

/-- A name with a small initial. -/
def Name.lower (n : Name) : List Item :=
  [.name .lowerName n.text]

/-- A name with a capital initial. -/
def Name.upper (n : Name) : List Item :=
  [.name .upperName n.text]

def Path.rendering (p : Path) : List Item :=
  separated .member (p.segments.map Name.lower)

/-- Whether the type is a union, which cannot be part of another one nor be made optional. -/
def TypeRef.isUnion : TypeRef → Bool
  | .union .. => true
  | _ => false

/-- Type arguments, if there are any. -/
def bracketed : List (List Item) → List Item
  | [] => []
  | x :: xs => [.kind .smaller] ++ separated .comma (x :: xs) ++ [.kind .larger]

/-- A type that must not be a union. -/
def primary (isUnion : Bool) (items : List Item) : List Item :=
  if isUnion then [.never] else items

mutual

def TypeRef.rendering : TypeRef → List Item
  | .base b => b.rendering
  | .union _ first more =>
    separated .union (primary first.isUnion first.rendering :: renderCases more)
  | .optional _ inner => primary inner.isUnion inner.rendering ++ [.kind .question]

def BaseType.rendering : BaseType → List Item
  | { name, args, .. } => name.upper ++ bracketed (renderTypes args)

def renderTypes : List TypeRef → List (List Item)
  | [] => []
  | t :: ts => t.rendering :: renderTypes ts

def renderCases : List TypeRef → List (List Item)
  | [] => []
  | t :: ts => primary t.isUnion t.rendering :: renderCases ts

end

def DeclaredType.rendering : DeclaredType → List Item
  | .ref t => t.rendering
  | .inferred _ function => [.kind (if function then .kwFunction else .kwValue)]
  | .void _ => [.kind .kwVoid]

/-! ## Expressions -/

/-- How tight a binary operator binds: assignment loosest, then the default operator, the levels of
`binaryLevels`, and the power operator. -/
def tightnessOf (k : Kind) : Nat :=
  if k.isAssignment then 0
  else if k = .default then 1
  else match binaryLevels.findIdx? fun l => l.operators.any (·.kind = k) with
    | some level => level + 2
    | none => 11

/-- Whether an operator groups to the right: assignments and the power operator do. -/
def groupsRight (k : Kind) : Bool :=
  k.isAssignment || k = .power

/-- How tight the test for a type binds: as tight as a comparison. -/
def testTightness : Nat :=
  tightnessOf .smaller

/-- How tight an operator before its operand binds. -/
def prefixTightness : Nat :=
  12

/-- How tight an operator behind its operand binds. -/
def postfixTightness : Nat :=
  13

/-- How tight selectors and arguments bind. -/
def selectorTightness : Nat :=
  14

/-- How tight an expression binds that nothing can be taken out of. -/
def atomTightness : Nat :=
  15

/-- How tight the operator of an expression binds. -/
def Expr.tightness : Expr → Nat
  | .binary _ op .. => tightnessOf op.kind
  | .isTest .. => testTightness
  | .prefixed .. => prefixTightness
  | .postfixed .. | .existsTest .. | .nonemptyTest .. => postfixTightness
  | .qualified .. | .invocation .. | .index .. => selectorTightness
  | .reference .. | .literal .. | .self .. | .sequence .. | .paren .. => atomTightness

/-- An operand in a place that demands some tightness. -/
def operand (place tightness : Nat) (items : List Item) : List Item :=
  if place ≤ tightness then items else [.never]

/-- The kind of a member operator. -/
def MemberOp.kind : MemberOp → Kind
  | .plain => .member
  | .safe => .safeMember
  | .spread => .spread

/-- The kind of the names of a sort of references. -/
def RefSort.kind : RefSort → Kind
  | .member => .lowerName
  | .type => .upperName

/-- The kind of a reserved reference. -/
def SelfKind.kind : SelfKind → Kind
  | .this => .kwThis
  | .outer => .kwOuter
  | .super => .kwSuper

mutual

def Expr.rendering : Expr → List Item
  | .reference _ sort name typeArgs => [.name sort.kind name.text] ++ bracketed (renderTypes typeArgs)
  | .qualified _ x op sort name typeArgs =>
    operand selectorTightness x.tightness x.rendering ++ [.kind op.kind] ++ [.name sort.kind name.text]
      ++ bracketed (renderTypes typeArgs)
  | .invocation _ x args => operand selectorTightness x.tightness x.rendering ++ args.rendering
  | .index _ x safe subscript =>
    operand selectorTightness x.tightness x.rendering ++ [.kind (if safe then .safeIndex else .bracketL)]
      ++ subscript.rendering ++ [.kind .bracketR]
  | .literal _ sort text => [.literal sort text]
  | .self _ sort => [.kind sort.kind]
  | .sequence _ elems => [.kind .braceL] ++ listed (renderExprs elems) ++ [.kind .braceR]
  | .paren _ x => [.kind .parenL] ++ x.rendering ++ [.kind .parenR]
  | .binary _ op x y =>
    let tightness := tightnessOf op.kind
    let (left, right) :=
      if groupsRight op.kind then (tightness + 1, tightness) else (tightness, tightness + 1)
    operand left x.tightness x.rendering ++ [.kind op.kind] ++ operand right y.tightness y.rendering
  | .prefixed _ op x => [.kind op.kind] ++ operand prefixTightness x.tightness x.rendering
  | .postfixed _ op x => operand postfixTightness x.tightness x.rendering ++ [.kind op]
  | .isTest _ x type =>
    operand testTightness x.tightness x.rendering ++ [.kind .kwIs] ++ type.rendering
  | .existsTest _ x => operand postfixTightness x.tightness x.rendering ++ [.kind .kwExists]
  | .nonemptyTest _ x => operand postfixTightness x.tightness x.rendering ++ [.kind .kwNonempty]

def renderExprs : List Expr → List (List Item)
  | [] => []
  | x :: xs => x.rendering :: renderExprs xs

def Arguments.rendering : Arguments → List Item
  | .positional args => args.rendering
  | .named args => args.rendering

def PositionalArgs.rendering : PositionalArgs → List Item
  | { args, .. } => [.kind .parenL] ++ listed (renderExprs args) ++ [.kind .parenR]

def NamedArgs.rendering : NamedArgs → List Item
  | { args, sequenced, .. } =>
    [.kind .braceL] ++ renderNamed args ++ renderSequenced sequenced ++ [.kind .braceR]

def NamedArg.rendering : NamedArg → List Item
  | { name, value, .. } => name.lower ++ [.kind .specify] ++ value.rendering ++ [.kind .semicolon]

def renderNamed : List NamedArg → List Item
  | [] => []
  | a :: as => a.rendering ++ renderNamed as

def SequencedArg.rendering : SequencedArg → List Item
  | { values, .. } => separated .comma (renderExprs values)

def renderSequenced : Option SequencedArg → List Item
  | none => []
  | some a => a.rendering

def Subscript.rendering : Subscript → List Item
  | .element index => operand (levelAboveRange + 2) index.tightness index.rendering
  | .span lower upper =>
    operand (levelAboveRange + 2) lower.tightness lower.rendering ++ [.kind .range]
      ++ operand (levelAboveRange + 2) upper.tightness upper.rendering
  | .tail lower => operand (levelAboveRange + 2) lower.tightness lower.rendering ++ [.kind .ellipsis]

end

/-! ## Declarations and statements -/

/-- What is there of an optional part. -/
def renderOption {α : Type} (f : α → List Item) : Option α → List Item
  | none => []
  | some a => f a

/-- The kind of the token of a variance. -/
def Variance.rendering : Variance → List Item
  | .invariant => []
  | .covariant => [.kind .kwOut]
  | .contravariant => [.kind .kwIn]

def TypeParameter.rendering (p : TypeParameter) : List Item :=
  p.variance.rendering ++ p.name.upper

/-- The value that a name is specified to have. -/
def renderSpecifier (x : Expr) : List Item :=
  [.kind .specify] ++ x.rendering

def Parameter.rendering (p : Parameter) : List Item :=
  [.annotations p.annotations] ++ p.type.rendering ++ (if p.sequenced then [.kind .ellipsis] else [])
    ++ p.name.lower ++ renderOption renderSpecifier p.default

def ParameterList.rendering (l : ParameterList) : List Item :=
  [.kind .parenL] ++ listed (l.params.map Parameter.rendering) ++ [.kind .parenR]

def ExtendedType.rendering (e : ExtendedType) : List Item :=
  [.kind .kwExtends] ++ e.type.rendering ++ e.args.rendering

/-- The interfaces that a declaration satisfies, if there are any. -/
def renderSatisfied : List (List Item) → List Item
  | [] => []
  | t :: ts => [.kind .kwSatisfies] ++ separated .comma (t :: ts)

/-- The variable of a condition without its type. -/
def Guard.named (g : Guard) : List Item :=
  g.name.lower ++ renderSpecifier g.specifier

/-- The type of a variable, with `value` left out or not. -/
def DeclaredType.written : DeclaredType → List Item
  | .inferred _ false => [.optional .kwValue]
  | t => t.rendering

/-- The variable of `exists` and `nonempty`. -/
def Guard.rendering (g : Guard) : List Item :=
  g.type.written ++ g.named

def Operand.rendering : Operand → List Item
  | .var g => g.rendering
  | .value x => x.rendering

/-- What a test of a type is about: its variable has that type. -/
def Operand.tested : Operand → List Item
  | .var g => g.named
  | .value x => x.rendering

def Condition.rendering : Condition → List Item
  | .boolean _ x => x.rendering
  | .exists _ operand => [.kind .kwExists] ++ operand.rendering
  | .nonempty _ operand => [.kind .kwNonempty] ++ operand.rendering
  | .is _ type operand => [.kind .kwIs] ++ type.rendering ++ operand.tested

def LoopVariable.rendering (v : LoopVariable) : List Item :=
  v.type.rendering ++ v.name.lower

def Iteration.rendering : Iteration → List Item
  | .values _ var source => var.rendering ++ [.kind .kwIn] ++ source.rendering
  | .entries _ key value source =>
    key.rendering ++ [.kind .entry] ++ value.rendering ++ [.kind .kwIn] ++ source.rendering

def Initializer.rendering : Initializer → List Item
  | .absent => []
  | .specified x => renderSpecifier x
  | .assigned x => [.kind .assign] ++ x.rendering

def AttributeDecl.rendering (d : AttributeDecl) : List Item :=
  [.annotations d.annotations] ++ d.type.rendering ++ d.name.lower ++ d.init.rendering
    ++ [.kind .semicolon]

/-- The type parameters of a declaration, if there are any. -/
def renderTypeParams (ps : List TypeParameter) : List Item :=
  bracketed (ps.map TypeParameter.rendering)

mutual

def Stmt.rendering : Stmt → List Item
  | .classDecl d => d.rendering
  | .interfaceDecl d => d.rendering
  | .method d => d.rendering
  | .attribute d => d.rendering
  | .getter d => d.rendering
  | .setter d => d.rendering
  | .expr _ x => x.rendering ++ [.kind .semicolon]
  | .return _ x => [.kind .kwReturn] ++ renderOption Expr.rendering x ++ [.kind .semicolon]
  | .break _ => [.kind .kwBreak] ++ [.kind .semicolon]
  | .continue _ => [.kind .kwContinue] ++ [.kind .semicolon]
  | .ifElse s => s.rendering
  | .while _ clause => clause.rendering
  | .for _ clause fail => clause.rendering ++ renderFail fail

def renderStmts : List Stmt → List Item
  | [] => []
  | s :: ss => s.rendering ++ renderStmts ss

def Block.rendering : Block → List Item
  | { stmts, .. } => [.kind .braceL] ++ renderStmts stmts ++ [.kind .braceR]

def ClassDecl.rendering : ClassDecl → List Item
  | { annotations, name, typeParams, params, extended, satisfied, body, .. } =>
    [.annotations annotations] ++ [.kind .kwClass] ++ name.upper ++ renderTypeParams typeParams
      ++ params.rendering ++ renderOption ExtendedType.rendering extended
      ++ renderSatisfied (renderTypes satisfied) ++ body.rendering

def InterfaceDecl.rendering : InterfaceDecl → List Item
  | { annotations, name, typeParams, satisfied, body, .. } =>
    [.annotations annotations] ++ [.kind .kwInterface] ++ name.upper ++ renderTypeParams typeParams
      ++ renderSatisfied (renderTypes satisfied) ++ body.rendering

def MethodDecl.rendering : MethodDecl → List Item
  | { annotations, type, name, typeParams, params, body, .. } =>
    [.annotations annotations] ++ type.rendering ++ name.lower ++ renderTypeParams typeParams
      ++ params.rendering ++ body.rendering

def MethodBody.rendering : MethodBody → List Item
  | .absent => [.kind .semicolon]
  | .block b => b.rendering
  | .computed x => [.kind .compute] ++ x.rendering ++ [.kind .semicolon]

def GetterDecl.rendering : GetterDecl → List Item
  | { annotations, type, name, body, .. } =>
    [.annotations annotations] ++ type.rendering ++ name.lower ++ body.rendering

def SetterDecl.rendering : SetterDecl → List Item
  | { annotations, name, body, .. } =>
    [.annotations annotations] ++ [.kind .kwAssign] ++ name.lower ++ body.rendering

def IfStmt.rendering : IfStmt → List Item
  | { clause, alternative, .. } => clause.rendering ++ renderElse alternative

def IfClause.rendering : IfClause → List Item
  | { cond, body, .. } =>
    [.kind .kwIf] ++ [.kind .parenL] ++ cond.rendering ++ [.kind .parenR] ++ body.rendering

def ElseClause.rendering : ElseClause → List Item
  | .block _ b => [.kind .kwElse] ++ b.rendering
  | .ifElse _ s => [.kind .kwElse] ++ s.rendering

def renderElse : Option ElseClause → List Item
  | none => []
  | some c => c.rendering

def WhileClause.rendering : WhileClause → List Item
  | { cond, body, .. } =>
    [.kind .kwWhile] ++ [.kind .parenL] ++ cond.rendering ++ [.kind .parenR] ++ body.rendering

def ForClause.rendering : ForClause → List Item
  | { iteration, body, .. } =>
    [.kind .kwFor] ++ [.kind .parenL] ++ iteration.rendering ++ [.kind .parenR] ++ body.rendering

def FailClause.rendering : FailClause → List Item
  | { body, .. } => [.kind .kwFail] ++ body.rendering

def renderFail : Option FailClause → List Item
  | none => []
  | some c => c.rendering

end

/-! ## Units -/

def ModuleImport.rendering (i : ModuleImport) : List Item :=
  [.kind .kwImport] ++ i.path.rendering ++ [.kind .semicolon]

def ModuleDescriptor.rendering (d : ModuleDescriptor) : List Item :=
  [.kind .kwModule] ++ d.path.rendering ++ [.kind .braceL] ++ d.imports.flatMap ModuleImport.rendering
    ++ [.kind .braceR]

/-- A new name for an imported one. -/
def Name.alias (n : Name) : List Item :=
  [.anyName n.text] ++ [.kind .specify]

def ImportElement.rendering (e : ImportElement) : List Item :=
  renderOption Name.alias e.newName ++ [.anyName e.name.text]

def Import.rendering (i : Import) : List Item :=
  [.kind .kwImport] ++ i.path.rendering ++ [.kind .braceL]
    ++ listed (i.elements.map ImportElement.rendering) ++ [.kind .braceR]

/-- The rendering of a unit. -/
def CompilationUnit.rendering (u : CompilationUnit) : List Item :=
  renderOption ModuleDescriptor.rendering u.module ++ u.imports.flatMap Import.rendering
    ++ renderStmts u.body

/-! ## Numbered trees

The numbers of the nodes are no part of the rendering. -/

/-- Whatever numbers are handed out, the result has the property. -/
def Numbering.Gives {α : Type} (m : Numbering α) (P : α → Prop) : Prop :=
  ∀ n, P (m n).1

namespace Numbering.Gives

variable {α β : Type}

theorem pure {a : α} {P : α → Prop} (h : P a) : Gives (Pure.pure a) P :=
  fun _ => h

theorem bind {m : Numbering α} {f : α → Numbering β} {P : α → Prop} {Q : β → Prop} (hm : Gives m P)
    (hf : ∀ a, P a → Gives (f a) Q) : Gives (m >>= f) Q :=
  fun n => hf (m n).1 (hm n) (m n).2

theorem mark (m : Mark) : Gives m.number fun _ => True :=
  fun _ => trivial

theorem option {f : α → Numbering α} {r : α → List Item} (hf : ∀ a, Gives (f a) (r · = r a))
    (a : Option α) : Gives (numberOption f a) (renderOption r · = renderOption r a) := by
  cases a with
  | none => exact pure rfl
  | some a => exact bind (hf a) fun a' ha => pure ha

theorem mapM {ρ : Type} {f : α → Numbering α} {r : α → ρ} (hf : ∀ a, Gives (f a) (r · = r a))
    (as : List α) : Gives (as.mapM f) (·.map r = as.map r) := by
  induction as with
  | nil => exact pure rfl
  | cons a as ih =>
    rw [List.mapM_cons]
    exact bind (hf a) fun a' ha => bind ih fun as' has => pure (by simp [ha, has])

end Numbering.Gives

open Ceylon.Syntax.Numbering

theorem Name.number_text (n : Name) : Gives n.number (·.text = n.text) :=
  .bind (.mark n.mark) fun _ _ => .pure rfl

theorem Name.number_lower (n : Name) : Gives n.number (·.lower = n.lower) :=
  .bind (.mark n.mark) fun _ _ => .pure rfl

theorem Path.number_rendering (p : Path) : Gives p.number (·.rendering = p.rendering) :=
  .bind (.mark p.mark) fun _ _ => .bind (.mapM Name.number_lower p.segments) fun _ h =>
    .pure (congrArg (separated .member) h)

mutual

theorem TypeRef.number_rendering : (t : TypeRef) →
    Gives t.number fun t' => t'.rendering = t.rendering ∧ t'.isUnion = t.isUnion
  | .base b => .bind b.number_rendering fun _ h => .pure ⟨h, rfl⟩
  | .union mark first more =>
    .bind (.mark mark) fun _ _ => .bind first.number_rendering fun _ hfirst =>
      .bind (numberTypes_rendering more) fun _ hmore =>
        .pure ⟨by simp [TypeRef.rendering, hfirst, hmore], rfl⟩
  | .optional mark inner =>
    .bind (.mark mark) fun _ _ => .bind inner.number_rendering fun _ h =>
      .pure ⟨by simp [TypeRef.rendering, h], rfl⟩

theorem BaseType.number_rendering : (b : BaseType) → Gives b.number (·.rendering = b.rendering)
  | { mark, name, args } =>
    .bind (.mark mark) fun _ _ => .bind name.number_text fun _ hname =>
      .bind (numberTypes_rendering args) fun _ hargs =>
        .pure (by simp [BaseType.rendering, Name.upper, hname, hargs])

theorem numberTypes_rendering : (ts : List TypeRef) → Gives (numberTypes ts) fun ts' =>
    renderTypes ts' = renderTypes ts ∧ renderCases ts' = renderCases ts
  | [] => .pure ⟨rfl, rfl⟩
  | t :: ts => .bind t.number_rendering fun _ ht => .bind (numberTypes_rendering ts) fun _ hts =>
      .pure (by simp [renderTypes, renderCases, ht, hts])

end

theorem DeclaredType.number_rendering (t : DeclaredType) :
    Gives t.number (·.rendering = t.rendering) := by
  cases t with
  | ref t => exact .bind t.number_rendering fun _ h => .pure h.1
  | inferred mark function => exact .bind (.mark mark) fun _ _ => .pure rfl
  | void mark => exact .bind (.mark mark) fun _ _ => .pure rfl

mutual

theorem Expr.number_rendering : (x : Expr) →
    Gives x.number fun x' => x'.rendering = x.rendering ∧ x'.tightness = x.tightness
  | .reference mark sort name typeArgs =>
    .bind (.mark mark) fun _ _ => .bind name.number_text fun _ hname =>
      .bind (numberTypes_rendering typeArgs) fun _ hargs =>
        .pure ⟨by simp [Expr.rendering, hname, hargs], rfl⟩
  | .qualified mark x op sort name typeArgs =>
    .bind (.mark mark) fun _ _ => .bind x.number_rendering fun _ hx =>
      .bind name.number_text fun _ hname => .bind (numberTypes_rendering typeArgs) fun _ hargs =>
        .pure ⟨by simp [Expr.rendering, hx, hname, hargs], rfl⟩
  | .invocation mark x args =>
    .bind (.mark mark) fun _ _ => .bind x.number_rendering fun _ hx =>
      .bind args.number_rendering fun _ hargs => .pure ⟨by simp [Expr.rendering, hx, hargs], rfl⟩
  | .index mark x safe subscript =>
    .bind (.mark mark) fun _ _ => .bind x.number_rendering fun _ hx =>
      .bind subscript.number_rendering fun _ hs => .pure ⟨by simp [Expr.rendering, hx, hs], rfl⟩
  | .literal mark sort text => .bind (.mark mark) fun _ _ => .pure ⟨rfl, rfl⟩
  | .self mark sort => .bind (.mark mark) fun _ _ => .pure ⟨rfl, rfl⟩
  | .sequence mark elems =>
    .bind (.mark mark) fun _ _ => .bind (numberExprs_rendering elems) fun _ h =>
      .pure ⟨by simp [Expr.rendering, h], rfl⟩
  | .paren mark x =>
    .bind (.mark mark) fun _ _ => .bind x.number_rendering fun _ h =>
      .pure ⟨by simp [Expr.rendering, h], rfl⟩
  | .binary mark op x y =>
    .bind (.mark mark) fun _ _ => .bind x.number_rendering fun _ hx =>
      .bind y.number_rendering fun _ hy => .pure ⟨by simp [Expr.rendering, hx, hy], rfl⟩
  | .prefixed mark op x | .postfixed mark op x =>
    .bind (.mark mark) fun _ _ => .bind x.number_rendering fun _ h =>
      .pure ⟨by simp [Expr.rendering, h], rfl⟩
  | .isTest mark x type =>
    .bind (.mark mark) fun _ _ => .bind x.number_rendering fun _ hx =>
      .bind type.number_rendering fun _ ht => .pure ⟨by simp [Expr.rendering, hx, ht], rfl⟩
  | .existsTest mark x | .nonemptyTest mark x =>
    .bind (.mark mark) fun _ _ => .bind x.number_rendering fun _ h =>
      .pure ⟨by simp [Expr.rendering, h], rfl⟩

theorem numberExprs_rendering :
    (xs : List Expr) → Gives (numberExprs xs) (renderExprs · = renderExprs xs)
  | [] => .pure rfl
  | x :: xs => .bind x.number_rendering fun _ hx => .bind (numberExprs_rendering xs) fun _ hxs =>
      .pure (by simp [renderExprs, hx, hxs])

theorem Arguments.number_rendering : (a : Arguments) → Gives a.number (·.rendering = a.rendering)
  | .positional args => .bind args.number_rendering fun _ h => .pure h
  | .named args => .bind args.number_rendering fun _ h => .pure h

theorem PositionalArgs.number_rendering :
    (a : PositionalArgs) → Gives a.number (·.rendering = a.rendering)
  | { mark, args } => .bind (.mark mark) fun _ _ => .bind (numberExprs_rendering args) fun _ h =>
      .pure (by simp [PositionalArgs.rendering, h])

theorem NamedArgs.number_rendering : (a : NamedArgs) → Gives a.number (·.rendering = a.rendering)
  | { mark, args, sequenced } =>
    .bind (.mark mark) fun _ _ => .bind (numberNamed_rendering args) fun _ hargs =>
      .bind (numberSequenced_rendering sequenced) fun _ hs =>
        .pure (by simp [NamedArgs.rendering, hargs, hs])

theorem NamedArg.number_rendering : (a : NamedArg) → Gives a.number (·.rendering = a.rendering)
  | { mark, name, value } =>
    .bind (.mark mark) fun _ _ => .bind name.number_text fun _ hname =>
      .bind value.number_rendering fun _ hvalue =>
        .pure (by simp [NamedArg.rendering, Name.lower, hname, hvalue])

theorem numberNamed_rendering :
    (as : List NamedArg) → Gives (numberNamed as) (renderNamed · = renderNamed as)
  | [] => .pure rfl
  | a :: as => .bind a.number_rendering fun _ ha => .bind (numberNamed_rendering as) fun _ has =>
      .pure (by simp [renderNamed, ha, has])

theorem SequencedArg.number_rendering :
    (a : SequencedArg) → Gives a.number (·.rendering = a.rendering)
  | { mark, values } => .bind (.mark mark) fun _ _ => .bind (numberExprs_rendering values) fun _ h =>
      .pure (by simp [SequencedArg.rendering, h])

theorem numberSequenced_rendering : (a : Option SequencedArg) →
    Gives (numberSequenced a) (renderSequenced · = renderSequenced a)
  | none => .pure rfl
  | some a => .bind a.number_rendering fun _ h => .pure (by simp [renderSequenced, h])

theorem Subscript.number_rendering : (s : Subscript) → Gives s.number (·.rendering = s.rendering)
  | .element index => .bind index.number_rendering fun _ h =>
      .pure (by simp [Subscript.rendering, h])
  | .span lower upper => .bind lower.number_rendering fun _ hl =>
      .bind upper.number_rendering fun _ hu => .pure (by simp [Subscript.rendering, hl, hu])
  | .tail lower => .bind lower.number_rendering fun _ h => .pure (by simp [Subscript.rendering, h])

end

theorem numberSpecifier_rendering (x : Expr) :
    Gives x.number (renderSpecifier · = renderSpecifier x) :=
  fun n => by simp [renderSpecifier, x.number_rendering n]

theorem TypeParameter.number_rendering (p : TypeParameter) :
    Gives p.number (·.rendering = p.rendering) :=
  .bind (.mark p.mark) fun _ _ => .bind p.name.number_text fun _ h =>
    .pure (by simp [TypeParameter.rendering, Name.upper, h])

theorem Parameter.number_rendering (p : Parameter) : Gives p.number (·.rendering = p.rendering) :=
  .bind (.mark p.mark) fun _ _ => .bind p.type.number_rendering fun _ htype =>
    .bind p.name.number_lower fun _ hname =>
      .bind (.option numberSpecifier_rendering p.default) fun _ hdefault =>
        .pure (by simp [Parameter.rendering, htype, hname, hdefault])

theorem ParameterList.number_rendering (l : ParameterList) :
    Gives l.number (·.rendering = l.rendering) :=
  .bind (.mark l.mark) fun _ _ => .bind (.mapM Parameter.number_rendering l.params) fun _ h =>
    .pure (by simp [ParameterList.rendering, h])

theorem ExtendedType.number_rendering (e : ExtendedType) :
    Gives e.number (·.rendering = e.rendering) :=
  .bind (.mark e.mark) fun _ _ => .bind e.type.number_rendering fun _ htype =>
    .bind e.args.number_rendering fun _ hargs =>
      .pure (by simp [ExtendedType.rendering, htype, hargs])

theorem DeclaredType.number_written (t : DeclaredType) : Gives t.number (·.written = t.written) := by
  cases t with
  | ref t => exact .bind t.number_rendering fun _ h => .pure h.1
  | inferred mark function => cases function <;> exact .bind (.mark mark) fun _ _ => .pure rfl
  | void mark => exact .bind (.mark mark) fun _ _ => .pure rfl

theorem Guard.number_rendering (g : Guard) :
    Gives g.number fun g' => g'.rendering = g.rendering ∧ g'.named = g.named :=
  .bind (.mark g.mark) fun _ _ => .bind g.type.number_written fun _ htype =>
    .bind g.name.number_lower fun _ hname =>
      .bind (numberSpecifier_rendering g.specifier) fun _ hs =>
        .pure (by simp [Guard.rendering, Guard.named, htype, hname, hs])

theorem Operand.number_rendering (o : Operand) :
    Gives o.number fun o' => o'.rendering = o.rendering ∧ o'.tested = o.tested := by
  cases o with
  | var g => exact .bind g.number_rendering fun _ h => .pure h
  | value x => exact .bind x.number_rendering fun _ h => .pure ⟨h.1, h.1⟩

theorem Condition.number_rendering (c : Condition) : Gives c.number (·.rendering = c.rendering) := by
  cases c with
  | boolean mark x =>
    exact .bind (.mark mark) fun _ _ => .bind x.number_rendering fun _ h => .pure h.1
  | «exists» mark o | nonempty mark o =>
    exact .bind (.mark mark) fun _ _ => .bind o.number_rendering fun _ h =>
      .pure (by simp [Condition.rendering, h])
  | is mark type o =>
    exact .bind (.mark mark) fun _ _ => .bind type.number_rendering fun _ htype =>
      .bind o.number_rendering fun _ ho => .pure (by simp [Condition.rendering, htype, ho])

theorem LoopVariable.number_rendering (v : LoopVariable) :
    Gives v.number (·.rendering = v.rendering) :=
  .bind (.mark v.mark) fun _ _ => .bind v.type.number_rendering fun _ htype =>
    .bind v.name.number_lower fun _ hname => .pure (by simp [LoopVariable.rendering, htype, hname])

theorem Iteration.number_rendering (i : Iteration) : Gives i.number (·.rendering = i.rendering) := by
  cases i with
  | «values» mark var source =>
    exact .bind (.mark mark) fun _ _ => .bind var.number_rendering fun _ hvar =>
      .bind source.number_rendering fun _ hsource =>
        .pure (by simp [Iteration.rendering, hvar, hsource])
  | entries mark key value source =>
    exact .bind (.mark mark) fun _ _ => .bind key.number_rendering fun _ hkey =>
      .bind value.number_rendering fun _ hvalue => .bind source.number_rendering fun _ hsource =>
        .pure (by simp [Iteration.rendering, hkey, hvalue, hsource])

theorem Initializer.number_rendering (i : Initializer) :
    Gives i.number (·.rendering = i.rendering) := by
  cases i with
  | absent => exact .pure rfl
  | specified x | assigned x =>
    exact .bind x.number_rendering fun _ h =>
      .pure (by simp [Initializer.rendering, renderSpecifier, h])

theorem AttributeDecl.number_rendering (d : AttributeDecl) :
    Gives d.number (·.rendering = d.rendering) :=
  .bind (.mark d.mark) fun _ _ => .bind d.type.number_rendering fun _ htype =>
    .bind d.name.number_lower fun _ hname => .bind d.init.number_rendering fun _ hinit =>
      .pure (by simp [AttributeDecl.rendering, htype, hname, hinit])

mutual

theorem Stmt.number_rendering : (s : Stmt) → Gives s.number (·.rendering = s.rendering)
  | .classDecl d => .bind d.number_rendering fun _ h => .pure h
  | .interfaceDecl d => .bind d.number_rendering fun _ h => .pure h
  | .method d => .bind d.number_rendering fun _ h => .pure h
  | .attribute d => .bind d.number_rendering fun _ h => .pure h
  | .getter d => .bind d.number_rendering fun _ h => .pure h
  | .setter d => .bind d.number_rendering fun _ h => .pure h
  | .expr mark x =>
    .bind (.mark mark) fun _ _ => .bind x.number_rendering fun _ h =>
      .pure (by simp [Stmt.rendering, h])
  | .return mark x =>
    .bind (.mark mark) fun _ _ =>
      .bind (.option (fun x n => (x.number_rendering n).1) x) fun _ h =>
        .pure (by simp [Stmt.rendering, h])
  | .break mark => .bind (.mark mark) fun _ _ => .pure rfl
  | .continue mark => .bind (.mark mark) fun _ _ => .pure rfl
  | .ifElse s => .bind s.number_rendering fun _ h => .pure h
  | .while mark clause =>
    .bind (.mark mark) fun _ _ => .bind clause.number_rendering fun _ h => .pure h
  | .for mark clause fail =>
    .bind (.mark mark) fun _ _ => .bind clause.number_rendering fun _ hclause =>
      .bind (numberFail_rendering fail) fun _ hfail =>
        .pure (by simp [Stmt.rendering, hclause, hfail])

theorem numberStmts_rendering :
    (ss : List Stmt) → Gives (numberStmts ss) (renderStmts · = renderStmts ss)
  | [] => .pure rfl
  | s :: ss => .bind s.number_rendering fun _ hs => .bind (numberStmts_rendering ss) fun _ hss =>
      .pure (by simp [renderStmts, hs, hss])

theorem Block.number_rendering : (b : Block) → Gives b.number (·.rendering = b.rendering)
  | { mark, stmts, close := _ } =>
    .bind (.mark mark) fun _ _ => .bind (numberStmts_rendering stmts) fun _ h =>
      .pure (by simp [Block.rendering, h])

theorem ClassDecl.number_rendering : (d : ClassDecl) → Gives d.number (·.rendering = d.rendering)
  | { mark, annotations := _, name, typeParams, params, extended, satisfied, body } =>
    .bind (.mark mark) fun _ _ => .bind name.number_text fun _ hname =>
      .bind (.mapM TypeParameter.number_rendering typeParams) fun _ htypeParams =>
      .bind params.number_rendering fun _ hparams =>
      .bind (.option ExtendedType.number_rendering extended) fun _ hextended =>
      .bind (numberTypes_rendering satisfied) fun _ hsatisfied =>
      .bind body.number_rendering fun _ hbody =>
        .pure (by simp [ClassDecl.rendering, renderTypeParams, Name.upper, hname, htypeParams, hparams,
          hextended, hsatisfied, hbody])

theorem InterfaceDecl.number_rendering :
    (d : InterfaceDecl) → Gives d.number (·.rendering = d.rendering)
  | { mark, annotations := _, name, typeParams, satisfied, body } =>
    .bind (.mark mark) fun _ _ => .bind name.number_text fun _ hname =>
      .bind (.mapM TypeParameter.number_rendering typeParams) fun _ htypeParams =>
      .bind (numberTypes_rendering satisfied) fun _ hsatisfied =>
      .bind body.number_rendering fun _ hbody =>
        .pure (by simp [InterfaceDecl.rendering, renderTypeParams, Name.upper, hname, htypeParams,
          hsatisfied, hbody])

theorem MethodDecl.number_rendering :
    (d : MethodDecl) → Gives d.number (·.rendering = d.rendering)
  | { mark, annotations := _, type, name, typeParams, params, body } =>
    .bind (.mark mark) fun _ _ => .bind type.number_rendering fun _ htype =>
      .bind name.number_lower fun _ hname =>
      .bind (.mapM TypeParameter.number_rendering typeParams) fun _ htypeParams =>
      .bind params.number_rendering fun _ hparams =>
      .bind body.number_rendering fun _ hbody =>
        .pure (by simp [MethodDecl.rendering, renderTypeParams, htype, hname, htypeParams, hparams, hbody])

theorem MethodBody.number_rendering :
    (b : MethodBody) → Gives b.number (·.rendering = b.rendering)
  | .absent => .pure rfl
  | .block b => .bind b.number_rendering fun _ h => .pure h
  | .computed x => .bind x.number_rendering fun _ h => .pure (by simp [MethodBody.rendering, h])

theorem GetterDecl.number_rendering :
    (d : GetterDecl) → Gives d.number (·.rendering = d.rendering)
  | { mark, annotations := _, type, name, body } =>
    .bind (.mark mark) fun _ _ => .bind type.number_rendering fun _ htype =>
      .bind name.number_lower fun _ hname => .bind body.number_rendering fun _ hbody =>
        .pure (by simp [GetterDecl.rendering, htype, hname, hbody])

theorem SetterDecl.number_rendering :
    (d : SetterDecl) → Gives d.number (·.rendering = d.rendering)
  | { mark, annotations := _, name, body } =>
    .bind (.mark mark) fun _ _ => .bind name.number_lower fun _ hname =>
      .bind body.number_rendering fun _ hbody => .pure (by simp [SetterDecl.rendering, hname, hbody])

theorem IfStmt.number_rendering : (s : IfStmt) → Gives s.number (·.rendering = s.rendering)
  | { mark, clause, alternative } =>
    .bind (.mark mark) fun _ _ => .bind clause.number_rendering fun _ hclause =>
      .bind (numberElse_rendering alternative) fun _ helse =>
        .pure (by simp [IfStmt.rendering, hclause, helse])

theorem IfClause.number_rendering : (c : IfClause) → Gives c.number (·.rendering = c.rendering)
  | { mark, cond, body } =>
    .bind (.mark mark) fun _ _ => .bind cond.number_rendering fun _ hcond =>
      .bind body.number_rendering fun _ hbody => .pure (by simp [IfClause.rendering, hcond, hbody])

theorem ElseClause.number_rendering :
    (c : ElseClause) → Gives c.number (·.rendering = c.rendering)
  | .block mark b =>
    .bind (.mark mark) fun _ _ => .bind b.number_rendering fun _ h =>
      .pure (by simp [ElseClause.rendering, h])
  | .ifElse mark s =>
    .bind (.mark mark) fun _ _ => .bind s.number_rendering fun _ h =>
      .pure (by simp [ElseClause.rendering, h])

theorem numberElse_rendering :
    (c : Option ElseClause) → Gives (numberElse c) (renderElse · = renderElse c)
  | none => .pure rfl
  | some c => .bind c.number_rendering fun _ h => .pure (by simp [renderElse, h])

theorem WhileClause.number_rendering :
    (c : WhileClause) → Gives c.number (·.rendering = c.rendering)
  | { mark, cond, body } =>
    .bind (.mark mark) fun _ _ => .bind cond.number_rendering fun _ hcond =>
      .bind body.number_rendering fun _ hbody => .pure (by simp [WhileClause.rendering, hcond, hbody])

theorem ForClause.number_rendering : (c : ForClause) → Gives c.number (·.rendering = c.rendering)
  | { mark, iteration, body } =>
    .bind (.mark mark) fun _ _ => .bind iteration.number_rendering fun _ hi =>
      .bind body.number_rendering fun _ hbody => .pure (by simp [ForClause.rendering, hi, hbody])

theorem FailClause.number_rendering :
    (c : FailClause) → Gives c.number (·.rendering = c.rendering)
  | { mark, body } =>
    .bind (.mark mark) fun _ _ => .bind body.number_rendering fun _ h =>
      .pure (by simp [FailClause.rendering, h])

theorem numberFail_rendering :
    (c : Option FailClause) → Gives (numberFail c) (renderFail · = renderFail c)
  | none => .pure rfl
  | some c => .bind c.number_rendering fun _ h => .pure (by simp [renderFail, h])

end

theorem ModuleImport.number_rendering (i : ModuleImport) :
    Gives i.number (·.rendering = i.rendering) :=
  .bind (.mark i.mark) fun _ _ => .bind i.path.number_rendering fun _ h =>
    .pure (by simp [ModuleImport.rendering, h])

theorem ModuleDescriptor.number_rendering (d : ModuleDescriptor) :
    Gives d.number (·.rendering = d.rendering) :=
  .bind (.mark d.mark) fun _ _ => .bind d.path.number_rendering fun _ hpath =>
    .bind (.mapM ModuleImport.number_rendering d.imports) fun _ himports =>
      .pure (by simp [ModuleDescriptor.rendering, List.flatMap_def, hpath, himports])

theorem ImportElement.number_rendering (e : ImportElement) :
    Gives e.number (·.rendering = e.rendering) :=
  .bind (.mark e.mark) fun _ _ =>
    .bind (.option (r := Name.alias) (fun n k => by simp [Name.alias, n.number_text k]) e.newName)
      fun _ hnew => .bind e.name.number_text fun _ hname => .pure (by simp [ImportElement.rendering, hnew, hname])

theorem Import.number_rendering (i : Import) : Gives i.number (·.rendering = i.rendering) :=
  .bind (.mark i.mark) fun _ _ => .bind i.path.number_rendering fun _ hpath =>
    .bind (.mapM ImportElement.number_rendering i.elements) fun _ helements =>
      .pure (by simp [Import.rendering, hpath, helements])

/-- Numbering the nodes of a unit leaves its rendering as it is. -/
theorem CompilationUnit.number_rendering (u : CompilationUnit) : u.number.rendering = u.rendering := by
  have gives : Gives (do
      return { u with
        mark := ← u.mark.number
        module := ← numberOption ModuleDescriptor.number u.module
        imports := ← u.imports.mapM Import.number
        body := ← numberStmts u.body }) (·.rendering = u.rendering) :=
    .bind (.mark u.mark) fun _ _ =>
      .bind (.option ModuleDescriptor.number_rendering u.module) fun _ hmodule =>
      .bind (.mapM Import.number_rendering u.imports) fun _ himports =>
      .bind (numberStmts_rendering u.body) fun _ hbody =>
        .pure (by simp [CompilationUnit.rendering, List.flatMap_def, hmodule, himports, hbody])
  exact gives 0

end Ceylon.Syntax
