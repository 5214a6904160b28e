import Mathlib.Data.Option.Basic
import Ceylon.Analysis.Checker.Stmt
import Ceylon.Proofs.Outlook

/-!
# Where rules report problems

A typing rule reports problems at the expression that it types, at its operands and arguments, and at the names and
lists that stand with these (`Rule.ReportsAt`), whatever the types of declarations are.  So a check that applies
rules to nodes of a unit reports problems at nodes of the unit only.
-/

namespace Ceylon.Analysis

open Model Syntax

/-- A question that reports a problem at a node with the property, if it reports one. -/
def Question.At (nodes : Node → Prop) : Question → Prop
  | .typeOf _ => True
  | .problem n _ => nodes n

/-- Whatever the answers are, a rule reports problems only at nodes with the property. -/
abbrev Rule.ReportsAt {α : Type} (r : Rule α) (nodes : Node → Prop) : Prop :=
  r.Ensures (Question.At nodes) (fun _ _ => True) fun _ => True

/-- The nodes that a rule may report problems with arguments at. -/
def TypedArguments.At (nodes : Node → Prop) : TypedArguments → Prop
  | .positional list args => nodes (.positionalArgs list) ∧ ∀ a ∈ args, nodes (.expr a.expr)
  | .named list args sequenced => nodes (.namedArgs list) ∧ (∀ a ∈ args, nodes (.name a.1) ∧ nodes (.expr a.2.expr)) ∧
    (∀ a ∈ list.sequenced, nodes (.sequencedArg a)) ∧ ∀ a ∈ sequenced, nodes (.expr a.expr)

/-- The nodes that a rule may report problems with subscripts at. -/
def TypedSubscript.At (nodes : Node → Prop) : TypedSubscript → Prop
  | .element index => nodes (.expr index.expr)
  | .span lower upper => nodes (.expr lower.expr) ∧ nodes (.expr upper.expr)
  | .tail lower => nodes (.expr lower.expr)

section

variable {nodes : Node → Prop} {f : State} {u : UnitId} {α : Type}

namespace Rule.ReportsAt

theorem pure (a : α) : Rule.ReportsAt (Pure.pure a) nodes :=
  trivial

theorem bind {β : Type} {r : Rule α} {next : α → Rule β} (h : r.ReportsAt nodes)
    (hnext : ∀ a, (next a).ReportsAt nodes) : Rule.ReportsAt (r >>= next) nodes :=
  Dialogue.Ensures.bind h fun a _ => hnext a

theorem discard {r : Rule α} (h : r.ReportsAt nodes) : Rule.ReportsAt (Functor.discard r) nodes :=
  h.bind fun _ => pure _

theorem reportAt {n : Node} (h : nodes n) (message : String) : (reportAt n message).ReportsAt nodes :=
  ⟨h, fun _ _ => trivial⟩

/-- What only reports under a condition. -/
theorem reportIf {n : Node} (h : nodes n) (c : Bool) (message : String) :
    Rule.ReportsAt (if c = true then Analysis.reportAt n message else Pure.pure ()) nodes := by
  split
  · exact reportAt h message
  · exact pure _

/-- Whether it reports or not, a rule goes on in the same way. -/
theorem reportThen {n : Node} (h : nodes n) (c : Prop) [Decidable c] (message : String) {next : Unit → Rule α}
    (hnext : (next ()).ReportsAt nodes) :
    Rule.ReportsAt (if c then Analysis.reportAt n message >>= next else next ()) nodes := by
  split
  · exact (reportAt h message).bind fun _ => hnext
  · exact hnext

theorem watched {r : Rule α} (h : r.ReportsAt nodes) : (watched r).ReportsAt nodes :=
  watched_ensures (P := fun _ => True) h

theorem forM {xs : List α} {report : α → Rule Unit} (h : ∀ x ∈ xs, (report x).ReportsAt nodes) :
    Rule.ReportsAt (xs.forM report) nodes := by
  induction xs with
  | nil => exact pure _
  | cons x xs ih =>
    exact (h x List.mem_cons_self).bind fun _ => ih fun x' hx' => h x' (List.mem_cons_of_mem x hx')

end Rule.ReportsAt

open Rule

theorem typeOfDecl_reportsAt (d : DeclId) {place : Node} (h : nodes place) :
    (typeOfDecl f d place).ReportsAt nodes := by
  refine ⟨trivial, fun r _ => ?_⟩
  cases r with
  | some t => exact trivial
  | none => exact (ReportsAt.reportAt h _).bind fun _ => .pure _

theorem assignable_reportsAt (t expected : Ty) {n : Node} (h : nodes n) (message : String) :
    (assignable f t expected n message).ReportsAt nodes :=
  .reportIf h _ _

/-! ## Operators -/

section

variable {x y : Typed} (hx : nodes (.expr x.expr)) (hy : nodes (.expr y.expr))

include hx in
theorem category_reportsAt (d : DeclId) : (category f x d).ReportsAt nodes := by
  unfold category
  split
  · exact .pure _
  · split
    · exact .pure _
    · exact (ReportsAt.reportAt hx _).bind fun _ => .pure _

include hx in
theorem operand_reportsAt (expected : Ty) : (operand f x expected).ReportsAt nodes :=
  .reportIf hx _ _

include hx hy in
theorem arithmetic_reportsAt (d : DeclId) : (arithmetic f x y d).ReportsAt nodes := by
  refine (category_reportsAt hx d).bind fun r => ?_
  cases r with
  | none => exact (category_reportsAt hy d).discard.bind fun _ => .pure _
  | some st => exact (operand_reportsAt hy _).bind fun _ => .pure _

include hx hy in
theorem comparison_reportsAt : (comparison f x y).ReportsAt nodes := by
  refine (category_reportsAt hx _).bind fun r => ?_
  cases r with
  | none => exact .pure _
  | some st => exact operand_reportsAt hy _

include hx in
theorem defaultOperator_reportsAt : (defaultOperator f x y).ReportsAt nodes := by
  unfold defaultOperator
  split
  · exact .pure _
  · exact .reportThen hx _ _ (.reportThen hx _ _ (.pure _))

include hx hy in
theorem addition_reportsAt : (addition f x y).ReportsAt nodes := by
  unfold addition
  dsimp only
  split
  · exact (operand_reportsAt hy _).bind fun _ => .pure _
  · exact arithmetic_reportsAt hx hy _

include hx hy in
theorem categories_reportsAt (d e : DeclId) : (categories f x y d e).ReportsAt nodes :=
  (category_reportsAt hx d).discard.bind fun _ => (category_reportsAt hy e).discard

include hx hy in
theorem operationType_reportsAt (op : Token.Kind) : (operationType f op x y).ReportsAt nodes := by
  have after : ∀ {r : Rule Unit} {t : Ty}, r.ReportsAt nodes → Rule.ReportsAt (r >>= fun _ => pure t) nodes :=
    fun h => h.bind fun _ => .pure _
  unfold operationType
  dsimp only
  split
  · exact addition_reportsAt hx hy
  iterate 9 exact arithmetic_reportsAt hx hy _
  iterate 2 exact (operand_reportsAt hx _).bind fun _ => after (operand_reportsAt hy _)
  iterate 3 exact after (categories_reportsAt hx hy _ _)
  iterate 5 exact after (comparison_reportsAt hx hy)
  · exact after (categories_reportsAt hx hy _ _)
  · exact (category_reportsAt hx _).discard.bind fun _ => after (comparison_reportsAt hx hy)
  · exact after (categories_reportsAt hx hy _ _)
  · exact defaultOperator_reportsAt hx
  · exact .pure _

theorem assignTarget_reportsAt (h : nodes (.expr x.expr.unparen)) : (assignTarget f x).ReportsAt nodes := by
  unfold assignTarget
  split
  · split
    · exact .pure _
    · exact .pure _
    · exact .reportAt h _
  · exact .reportIf h _ _

include hx hy in
theorem binaryType_reportsAt (op : BinaryOp) (h : nodes (.expr x.expr.unparen)) :
    (binaryType f op x y).ReportsAt nodes := by
  unfold binaryType
  split
  · refine (assignTarget_reportsAt h).bind fun _ => ?_
    split
    · exact (assignable_reportsAt _ _ hy _).bind fun _ => .pure _
    · exact (operationType_reportsAt hx hy _).discard.bind fun _ => .pure _
  · exact operationType_reportsAt hx hy _

include hx in
theorem stepType_reportsAt (h : nodes (.expr x.expr.unparen)) : (stepType f x).ReportsAt nodes :=
  (assignTarget_reportsAt h).bind fun _ => (category_reportsAt hx _).discard.bind fun _ => .pure _

include hx in
theorem prefixType_reportsAt (op : UnaryOp) (h : nodes (.expr x.expr.unparen)) :
    (prefixType f op x).ReportsAt nodes := by
  unfold prefixType
  dsimp only
  split
  iterate 2 exact (category_reportsAt hx _).bind fun _ => .pure _
  iterate 2 exact (operand_reportsAt hx _).bind fun _ => .pure _
  iterate 2 exact stepType_reportsAt hx h
  · exact .pure _

end

/-! ## Arguments -/

theorem bindFound_reportsAt {x : Expr} (hx : nodes (.expr x)) (found : Bindings) (hasUnknown : Bool) (bound : Bindings)
    (typeParams : List DeclId) : (bindFound f x found hasUnknown bound typeParams).ReportsAt nodes := by
  induction typeParams generalizing bound with
  | nil => exact .pure _
  | cons tp tps ih =>
    unfold bindFound
    split
    · exact ih bound
    · split
      · exact .reportThen hx _ _ (ih bound)
      · exact ih _

theorem argumentAssignable_reportsAt {a : Typed} (ha : nodes (.expr a.expr)) (param : DeclId) (expected : Ty)
    (what : String) : (argumentAssignable f a param expected what).ReportsAt nodes :=
  .reportIf ha _ _

theorem matchPositional_reportsAt {list : PositionalArgs} (hlist : nodes (.positionalArgs list)) (bound : Bindings)
    (params : List DeclId) {args : List Typed} (hargs : ∀ a ∈ args, nodes (.expr a.expr)) :
    (matchPositional f list bound params args).ReportsAt nodes := by
  induction params generalizing args with
  | nil => exact .forM fun a ha => .reportAt (hargs a ha) _
  | cons p ps ih =>
    unfold matchPositional
    dsimp only
    split
    · exact .forM fun a ha => argumentAssignable_reportsAt (hargs a ha) _ _ _
    · exact .reportThen hlist _ _ (ih hargs)
    · exact ih hargs
    · next a as _ =>
      exact (argumentAssignable_reportsAt (hargs a List.mem_cons_self) _ _ _).bind fun _ =>
        ih fun a' ha' => hargs a' (List.mem_cons_of_mem a ha')

theorem matchNamed_reportsAt (bound : Bindings) (params : List DeclId) {args : List (Name × Typed)}
    (hargs : ∀ a ∈ args, nodes (.name a.1) ∧ nodes (.expr a.2.expr)) (given : List String) :
    (matchNamed f bound params given args).ReportsAt nodes := by
  induction args generalizing given with
  | nil => exact .pure _
  | cons a args ih =>
    obtain ⟨hname, hexpr⟩ := hargs a List.mem_cons_self
    have hrest := ih fun a' ha' => hargs a' (List.mem_cons_of_mem a ha')
    unfold matchNamed
    split
    · exact (ReportsAt.reportAt hname _).bind fun _ => hrest given
    · split
      · exact (ReportsAt.reportAt hname _).bind fun _ => hrest _
      · exact (argumentAssignable_reportsAt hexpr _ _ _).bind fun _ => hrest _

theorem matchSequenced_reportsAt (bound : Bindings) (params : List DeclId) (given : List String) {arg : SequencedArg}
    (harg : nodes (.sequencedArg arg)) {args : List Typed} (hargs : ∀ a ∈ args, nodes (.expr a.expr)) :
    (matchSequenced f bound params given arg args).ReportsAt nodes := by
  unfold matchSequenced
  split
  · exact (ReportsAt.reportAt harg _).bind fun _ => .pure _
  · exact (ReportsAt.forM fun a ha => argumentAssignable_reportsAt (hargs a ha) _ _ _).bind fun _ => .pure _

theorem matchArguments_reportsAt (params : List DeclId) {args : TypedArguments} (hargs : args.At nodes)
    (bound : Bindings) : (matchArguments f params args bound).ReportsAt nodes := by
  cases args with
  | positional list args => exact matchPositional_reportsAt hargs.1 bound params hargs.2
  | named list args sequenced =>
    obtain ⟨hlist, hnamed, harg, hsequenced⟩ := hargs
    refine (matchNamed_reportsAt bound params hnamed []).bind fun given => ?_
    have hmissing : ∀ given : List String, Rule.ReportsAt (params.forM (requireArgument f list given)) nodes :=
      fun given => .forM fun p _ => .reportIf hlist _ _
    split
    · exact hmissing given
    · next arg harg' => exact (matchSequenced_reportsAt bound params given (harg arg harg') hsequenced).bind hmissing

/-! ## Expressions -/

section

variable {x : Expr} (hx : nodes (.expr x))
include hx

theorem applyTypeArgs_reportsAt (d : DeclId) (typeArgs : List TypeRef) (t : Ty) :
    (applyTypeArgs f u d typeArgs t x).ReportsAt nodes := by
  unfold applyTypeArgs
  split
  · exact .pure _
  · exact .reportThen hx _ _ (.pure _)

theorem referenceRule_reportsAt (sort : RefSort) (name : Name) (typeArgs : List TypeRef) :
    (referenceRule f u x sort name typeArgs).ReportsAt nodes := by
  unfold referenceRule
  dsimp only
  split
  · split
    · exact (ReportsAt.reportAt hx _).bind fun _ => .pure _
    · exact (typeOfDecl_reportsAt _ hx).bind fun _ => (applyTypeArgs_reportsAt hx _ _ _).bind fun _ => .pure _
  · split
    · exact (ReportsAt.reportAt hx _).bind fun _ => .pure _
    · exact (applyTypeArgs_reportsAt hx _ _ _).bind fun _ => .pure _

theorem selfRule_reportsAt (kind : SelfKind) : (selfRule f u x kind).ReportsAt nodes := by
  have missing : ∀ message (v : Verdict), Rule.ReportsAt (do reportAt (.expr x) message; return v) nodes :=
    fun message v => (ReportsAt.reportAt hx _).bind fun _ => .pure _
  unfold selfRule
  dsimp only
  split
  all_goals
    split
    · exact .pure _
    · exact missing _ _

theorem sequenceType_reportsAt (elems : List Typed) : (sequenceType f x elems).ReportsAt nodes := by
  unfold sequenceType
  split
  · exact (ReportsAt.reportAt hx _).bind fun _ => .pure _
  · exact .pure _

section

variable {primary : Typed} (hprimary : nodes (.expr primary.expr))

include hprimary in
omit hx in
theorem unwrap_reportsAt (op : MemberOp) : (unwrap f primary op).ReportsAt nodes := by
  have missing : ∀ message (t : Ty), Rule.ReportsAt (do reportAt (.expr primary.expr) message; return t) nodes :=
    fun message t => (ReportsAt.reportAt hprimary _).bind fun _ => .pure _
  unfold unwrap
  dsimp only
  split
  · exact .pure _
  · cases op with
    | plain => exact .pure _
    | safe =>
      dsimp only
      split
      · exact .pure _
      · exact missing _ _
    | spread =>
      dsimp only
      split
      · exact .pure _
      · exact missing _ _

include hprimary in
theorem selectMember_reportsAt (op : MemberOp) (name : Name) (filter : Filter) :
    (selectMember f u x primary op name filter).ReportsAt nodes := by
  refine (unwrap_reportsAt hprimary op).bind fun recv => ?_
  split
  · exact .pure _
  · split
    · exact (ReportsAt.reportAt hx _).bind fun _ => .pure _
    · exact .reportThen hx _ _ (.pure _)

include hprimary in
theorem qualifiedRule_reportsAt (op : MemberOp) (sort : RefSort) (name : Name) (typeArgs : List TypeRef) :
    (qualifiedRule f u x primary op sort name typeArgs).ReportsAt nodes := by
  unfold qualifiedRule
  split
  · refine (selectMember_reportsAt hx hprimary op name _).bind fun found => ?_
    split
    · exact .pure _
    · exact (typeOfDecl_reportsAt _ hx).bind fun _ => (applyTypeArgs_reportsAt hx _ _ _).bind fun _ => .pure _
  · refine (selectMember_reportsAt hx hprimary op name _).bind fun found => ?_
    split
    · exact .pure _
    · exact (applyTypeArgs_reportsAt hx _ _ _).bind fun _ => .pure _

include hprimary in
theorem invocationType_reportsAt {args : TypedArguments} (hargs : args.At nodes) :
    (invocationType f u x primary args).ReportsAt nodes := by
  unfold invocationType
  dsimp only
  split
  · exact .reportThen hprimary _ _ (.pure _)
  · split
    · exact (ReportsAt.reportAt hprimary _).bind fun _ => .pure _
    · refine ReportsAt.bind ?_ fun bound => (matchArguments_reportsAt _ hargs bound).bind fun _ => ?_
      · unfold invocationBindings
        dsimp only
        split
        · exact .pure _
        · exact bindFound_reportsAt hx _ _ _ _
      · split
        · exact (typeOfDecl_reportsAt _ hx).bind fun _ => .pure _
        · exact .pure _

end

end

theorem indexType_reportsAt {primary : Typed} (hprimary : nodes (.expr primary.expr)) (safe : Bool)
    {subscript : TypedSubscript} (h : subscript.At nodes) : (indexType f primary safe subscript).ReportsAt nodes := by
  have missing : ∀ message (t : Ty), Rule.ReportsAt (do reportAt (.expr primary.expr) message; return t) nodes :=
    fun message t => (ReportsAt.reportAt hprimary _).bind fun _ => .pure _
  have hindex : ∀ key (a : Typed), nodes (.expr a.expr) → (checkIndex f key a).ReportsAt nodes :=
    fun key a ha => .reportIf ha _ _
  unfold indexType
  dsimp only
  split
  · exact .pure _
  · split
    · exact missing _ _
    · split
      · cases subscript with
        | element index => exact (hindex _ index h).bind fun _ => .pure _
        | span lower upper =>
          exact (hindex _ lower h.1).bind fun _ => (hindex _ upper h.2).bind fun _ => .pure _
        | tail lower => exact (hindex _ lower h).bind fun _ => .pure _
      · exact missing _ _

theorem checkOptional_reportsAt {x : Typed} (hx : nodes (.expr x.expr)) : (checkOptional f x).ReportsAt nodes :=
  .reportIf hx _ _

theorem checkContainer_reportsAt {x : Typed} (hx : nodes (.expr x.expr)) : (checkContainer f x).ReportsAt nodes :=
  .reportIf hx _ _

/-! ## Statements -/

theorem requireInferred_reportsAt {name : Name} (h : nodes (.name name)) (t : Ty) (faulty : Bool) :
    (requireInferred name t faulty).ReportsAt nodes :=
  .reportIf h _ _

theorem checkBoolean_reportsAt {x : Typed} (hx : nodes (.expr x.expr)) : (checkBoolean f x).ReportsAt nodes :=
  .reportIf hx _ _

theorem checkReturned_reportsAt (mode : ReturnMode) (last : Option Ty) {x : Typed} (hx : nodes (.expr x.expr)) :
    (checkReturned f mode last x).ReportsAt nodes := by
  cases mode with
  | void => exact (ReportsAt.reportAt hx _).bind fun _ => .pure _
  | «infer» => exact .pure _
  | expect expected => exact (assignable_reportsAt _ _ hx _).bind fun _ => .pure _

theorem elementType_reportsAt {source : Typed} (h : nodes (.expr source.expr)) :
    (elementType f source).ReportsAt nodes := by
  unfold elementType
  split
  · exact .pure _
  · exact .reportThen h _ _ (.pure _)

theorem entryType_reportsAt {source : Typed} (h : nodes (.expr source.expr)) : (entryType f source).ReportsAt nodes :=
  (elementType_reportsAt h).bind fun _ => .reportThen h _ _ (.pure _)

theorem inferReturned_reportsAt {name : Name} (h : nodes (.name name)) (mode : ReturnMode) (last : Option Ty) :
    (inferReturned f name mode last).ReportsAt nodes := by
  cases mode with
  | void => exact .pure _
  | «infer» => exact (requireInferred_reportsAt h _ _).bind fun _ => .pure _
  | expect expected => exact .pure _

end

end Ceylon.Analysis
