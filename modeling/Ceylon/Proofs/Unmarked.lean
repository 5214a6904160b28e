import Ceylon.Proofs.Rendering

/-!
# Trees without their marks

A tree without its marks is what a text says, wherever it stands: the same words in another text make a tree
that differs in its marks only.  The numbers that the nodes of a unit are given are part of the marks, so they change
nothing here (`Expr.number_unmarked`).
-/

namespace Ceylon.Syntax

/-! ## Taking the marks away -/

/-- A name without its mark. -/
def Name.unmarked (n : Name) : Name :=
  { n with mark := default }

mutual

/-- A type without its marks. -/
def TypeRef.unmarked : TypeRef → TypeRef
  | .base b => .base b.unmarked
  | .union _ first more => .union default first.unmarked (unmarkedTypes more)
  | .optional _ inner => .optional default inner.unmarked

def BaseType.unmarked : BaseType → BaseType
  | { mark := _, name, args } => { mark := default, name := name.unmarked, args := unmarkedTypes args }

def unmarkedTypes : List TypeRef → List TypeRef
  | [] => []
  | t :: ts => t.unmarked :: unmarkedTypes ts

end

mutual

/-- An expression without its marks. -/
def Expr.unmarked : Expr → Expr
  | .reference _ sort name typeArgs => .reference default sort name.unmarked (unmarkedTypes typeArgs)
  | .qualified _ x op sort name typeArgs =>
    .qualified default x.unmarked op sort name.unmarked (unmarkedTypes typeArgs)
  | .invocation _ x args => .invocation default x.unmarked args.unmarked
  | .index _ x safe subscript => .index default x.unmarked safe subscript.unmarked
  | .literal _ kind text => .literal default kind text
  | .self _ kind => .self default kind
  | .sequence _ elems => .sequence default (unmarkedExprs elems)
  | .paren _ x => .paren default x.unmarked
  | .binary _ op x y => .binary default op x.unmarked y.unmarked
  | .prefixed _ op x => .prefixed default op x.unmarked
  | .postfixed _ op x => .postfixed default op x.unmarked
  | .isTest _ x type => .isTest default x.unmarked type.unmarked
  | .existsTest _ x => .existsTest default x.unmarked
  | .nonemptyTest _ x => .nonemptyTest default x.unmarked

def unmarkedExprs : List Expr → List Expr
  | [] => []
  | x :: xs => x.unmarked :: unmarkedExprs xs

def Arguments.unmarked : Arguments → Arguments
  | .positional args => .positional args.unmarked
  | .named args => .named args.unmarked

def PositionalArgs.unmarked : PositionalArgs → PositionalArgs
  | { mark := _, args } => { mark := default, args := unmarkedExprs args }

def NamedArgs.unmarked : NamedArgs → NamedArgs
  | { mark := _, args, sequenced } =>
    { mark := default, args := unmarkedNamed args, sequenced := unmarkedSequenced sequenced }

def NamedArg.unmarked : NamedArg → NamedArg
  | { mark := _, name, value } => { mark := default, name := name.unmarked, value := value.unmarked }

def unmarkedNamed : List NamedArg → List NamedArg
  | [] => []
  | a :: as => a.unmarked :: unmarkedNamed as

def SequencedArg.unmarked : SequencedArg → SequencedArg
  | { mark := _, values } => { mark := default, values := unmarkedExprs values }

def unmarkedSequenced : Option SequencedArg → Option SequencedArg
  | none => none
  | some a => some a.unmarked

def Subscript.unmarked : Subscript → Subscript
  | .element index => .element index.unmarked
  | .span lower upper => .span lower.unmarked upper.unmarked
  | .tail lower => .tail lower.unmarked

end

/-- Whether an expression is a name does not depend on its marks. -/
theorem Expr.isReference_unmarked (x : Expr) : x.unmarked.isReference = x.isReference := by
  cases x <;> rfl

/-! ## Numbers

The numbers of the nodes are in the marks. -/

open Ceylon.Syntax.Numbering

theorem Name.number_unmarked (n : Name) : Gives n.number (·.unmarked = n.unmarked) :=
  .bind (.mark n.mark) fun _ _ => .pure rfl

mutual

theorem TypeRef.number_unmarked : (t : TypeRef) → Gives t.number (·.unmarked = t.unmarked)
  | .base b => .bind b.number_unmarked fun _ h => .pure (congrArg TypeRef.base h)
  | .union mark first more =>
    .bind (.mark mark) fun _ _ => .bind first.number_unmarked fun _ hfirst =>
      .bind (numberTypes_unmarked more) fun _ hmore => .pure (by simp [TypeRef.unmarked, hfirst, hmore])
  | .optional mark inner =>
    .bind (.mark mark) fun _ _ => .bind inner.number_unmarked fun _ h => .pure (by simp [TypeRef.unmarked, h])

theorem BaseType.number_unmarked : (b : BaseType) → Gives b.number (·.unmarked = b.unmarked)
  | { mark, name, args } =>
    .bind (.mark mark) fun _ _ => .bind name.number_unmarked fun _ hname =>
      .bind (numberTypes_unmarked args) fun _ hargs => .pure (by simp [BaseType.unmarked, hname, hargs])

theorem numberTypes_unmarked :
    (ts : List TypeRef) → Gives (numberTypes ts) (unmarkedTypes · = unmarkedTypes ts)
  | [] => .pure rfl
  | t :: ts => .bind t.number_unmarked fun _ ht => .bind (numberTypes_unmarked ts) fun _ hts =>
      .pure (by simp [unmarkedTypes, ht, hts])

end

mutual

theorem Expr.number_unmarked : (x : Expr) → Gives x.number (·.unmarked = x.unmarked)
  | .reference mark sort name typeArgs =>
    .bind (.mark mark) fun _ _ => .bind name.number_unmarked fun _ hname =>
      .bind (numberTypes_unmarked typeArgs) fun _ hargs => .pure (by simp [Expr.unmarked, hname, hargs])
  | .qualified mark x op sort name typeArgs =>
    .bind (.mark mark) fun _ _ => .bind x.number_unmarked fun _ hx =>
      .bind name.number_unmarked fun _ hname => .bind (numberTypes_unmarked typeArgs) fun _ hargs =>
        .pure (by simp [Expr.unmarked, hx, hname, hargs])
  | .invocation mark x args =>
    .bind (.mark mark) fun _ _ => .bind x.number_unmarked fun _ hx =>
      .bind args.number_unmarked fun _ hargs => .pure (by simp [Expr.unmarked, hx, hargs])
  | .index mark x safe subscript =>
    .bind (.mark mark) fun _ _ => .bind x.number_unmarked fun _ hx =>
      .bind subscript.number_unmarked fun _ hs => .pure (by simp [Expr.unmarked, hx, hs])
  | .literal mark sort text => .bind (.mark mark) fun _ _ => .pure rfl
  | .self mark sort => .bind (.mark mark) fun _ _ => .pure rfl
  | .sequence mark elems =>
    .bind (.mark mark) fun _ _ => .bind (numberExprs_unmarked elems) fun _ h =>
      .pure (by simp [Expr.unmarked, h])
  | .binary mark op x y =>
    .bind (.mark mark) fun _ _ => .bind x.number_unmarked fun _ hx =>
      .bind y.number_unmarked fun _ hy => .pure (by simp [Expr.unmarked, hx, hy])
  | .isTest mark x type =>
    .bind (.mark mark) fun _ _ => .bind x.number_unmarked fun _ hx =>
      .bind type.number_unmarked fun _ ht => .pure (by simp [Expr.unmarked, hx, ht])
  | .paren mark x | .prefixed mark op x | .postfixed mark op x | .existsTest mark x | .nonemptyTest mark x =>
    .bind (.mark mark) fun _ _ => .bind x.number_unmarked fun _ h => .pure (by simp [Expr.unmarked, h])

theorem numberExprs_unmarked :
    (xs : List Expr) → Gives (numberExprs xs) (unmarkedExprs · = unmarkedExprs xs)
  | [] => .pure rfl
  | x :: xs => .bind x.number_unmarked fun _ hx => .bind (numberExprs_unmarked xs) fun _ hxs =>
      .pure (by simp [unmarkedExprs, hx, hxs])

theorem Arguments.number_unmarked : (a : Arguments) → Gives a.number (·.unmarked = a.unmarked)
  | .positional args => .bind args.number_unmarked fun _ h => .pure (congrArg Arguments.positional h)
  | .named args => .bind args.number_unmarked fun _ h => .pure (congrArg Arguments.named h)

theorem PositionalArgs.number_unmarked : (a : PositionalArgs) → Gives a.number (·.unmarked = a.unmarked)
  | { mark, args } => .bind (.mark mark) fun _ _ => .bind (numberExprs_unmarked args) fun _ h =>
      .pure (by simp [PositionalArgs.unmarked, h])

theorem NamedArgs.number_unmarked : (a : NamedArgs) → Gives a.number (·.unmarked = a.unmarked)
  | { mark, args, sequenced } =>
    .bind (.mark mark) fun _ _ => .bind (numberNamed_unmarked args) fun _ hargs =>
      .bind (numberSequenced_unmarked sequenced) fun _ hs => .pure (by simp [NamedArgs.unmarked, hargs, hs])

theorem NamedArg.number_unmarked : (a : NamedArg) → Gives a.number (·.unmarked = a.unmarked)
  | { mark, name, value } =>
    .bind (.mark mark) fun _ _ => .bind name.number_unmarked fun _ hname =>
      .bind value.number_unmarked fun _ hvalue => .pure (by simp [NamedArg.unmarked, hname, hvalue])

theorem numberNamed_unmarked : (as : List NamedArg) → Gives (numberNamed as) (unmarkedNamed · = unmarkedNamed as)
  | [] => .pure rfl
  | a :: as => .bind a.number_unmarked fun _ ha => .bind (numberNamed_unmarked as) fun _ has =>
      .pure (by simp [unmarkedNamed, ha, has])

theorem SequencedArg.number_unmarked : (a : SequencedArg) → Gives a.number (·.unmarked = a.unmarked)
  | { mark, values } => .bind (.mark mark) fun _ _ => .bind (numberExprs_unmarked values) fun _ h =>
      .pure (by simp [SequencedArg.unmarked, h])

theorem numberSequenced_unmarked : (a : Option SequencedArg) →
    Gives (numberSequenced a) (unmarkedSequenced · = unmarkedSequenced a)
  | none => .pure rfl
  | some a => .bind a.number_unmarked fun _ h => .pure (by simp [unmarkedSequenced, h])

theorem Subscript.number_unmarked : (s : Subscript) → Gives s.number (·.unmarked = s.unmarked)
  | .element index => .bind index.number_unmarked fun _ h => .pure (congrArg Subscript.element h)
  | .span lower upper => .bind lower.number_unmarked fun _ hl =>
      .bind upper.number_unmarked fun _ hu => .pure (by simp [Subscript.unmarked, hl, hu])
  | .tail lower => .bind lower.number_unmarked fun _ h => .pure (congrArg Subscript.tail h)

end

/-! ## Values -/

/-- Whether a statement gives a name to an expression, whose marks do not matter. -/
def Stmt.Binds (s : Stmt) (name : String) (x : Expr) : Prop :=
  ∃ d y, s = .attribute d ∧ d.name.text = name ∧ d.init = .specified y ∧ y.unmarked = x.unmarked

theorem Stmt.number_binds {s : Stmt} {name : String} {x : Expr} (h : s.Binds name x) :
    Gives s.number (·.Binds name x) := by
  obtain ⟨d, y, rfl, hname, hinit, hy⟩ := h
  have hinitial : Gives d.init.number fun i => ∃ z, i = .specified z ∧ z.unmarked = x.unmarked := by
    rw [hinit]
    exact .bind y.number_unmarked fun z hz => .pure ⟨z, rfl, hz.trans hy⟩
  have hd : Gives d.number fun d' => (Stmt.attribute d').Binds name x :=
    .bind (.mark d.mark) fun _ _ => .bind (P := fun _ => True) (fun _ => trivial) fun _ _ =>
      .bind d.name.number_text fun _ hname' => .bind hinitial fun _ ⟨z, hz, hunmarked⟩ =>
        .pure ⟨_, z, rfl, hname'.trans hname, hz, hunmarked⟩
  exact .bind hd fun _ h => .pure h

theorem numberStmts_binds {s : Stmt} {name : String} {x : Expr} (h : s.Binds name x) (ss : List Stmt) :
    Gives (numberStmts (ss ++ [s])) fun ss' => ∃ us s', ss' = us ++ [s'] ∧ s'.Binds name x := by
  induction ss with
  | nil => exact .bind (s.number_binds h) fun s' hs' => .pure ⟨[], s', rfl, hs'⟩
  | cons t ss ih =>
    refine .bind (P := fun _ => True) (fun _ => trivial) fun t' _ => .bind ih fun _ hrest => ?_
    obtain ⟨us, s', rfl, hs'⟩ := hrest
    exact .pure ⟨t' :: us, s', rfl, hs'⟩

/-! ## Units -/

section

variable (u : CompilationUnit)

/-- What holds of the parts of a unit with numbers, holds of the unit. -/
theorem CompilationUnit.number_gives {P : CompilationUnit → Prop} {Q : Option ModuleDescriptor → Prop}
    {R : List Import → Prop} {S : List Stmt → Prop} (hmodule : Gives (numberOption ModuleDescriptor.number u.module) Q)
    (himports : Gives (u.imports.mapM Import.number) R) (hbody : Gives (numberStmts u.body) S)
    (hP : ∀ mark module imports body, Q module → R imports → S body → P { u with mark, module, imports, body }) :
    P u.number := by
  have hall : Gives (do
      return { u with
        mark := ← u.mark.number
        module := ← numberOption ModuleDescriptor.number u.module
        imports := ← u.imports.mapM Import.number
        body := ← numberStmts u.body }) P :=
    .bind (.mark u.mark) fun mark _ => .bind hmodule fun module hm => .bind himports fun imports hi =>
      .bind hbody fun body hb => .pure (hP mark module imports body hm hi hb)
  exact hall 0

theorem CompilationUnit.module_number : u.number.module = none ↔ u.module = none := by
  refine u.number_gives (P := fun v => v.module = none ↔ u.module = none) (Q := (· = none ↔ u.module = none))
    (R := fun _ => True) (S := fun _ => True) ?_ (fun _ => trivial) (fun _ => trivial) fun _ _ _ _ h _ _ => h
  cases u.module with
  | none => exact .pure Iff.rfl
  | some d => exact .bind (P := fun _ => True) (fun _ => trivial) fun _ _ => .pure (by simp)

theorem CompilationUnit.imports_number : u.number.imports = [] ↔ u.imports = [] := by
  refine u.number_gives (P := fun v => v.imports = [] ↔ u.imports = []) (Q := fun _ => True)
    (R := (· = [] ↔ u.imports = [])) (S := fun _ => True) (fun _ => trivial) ?_ (fun _ => trivial)
    fun _ _ _ _ _ h _ => h
  intro n
  have hlength := Gives.mapM (r := fun _ => ()) (fun _ _ => rfl) u.imports (f := Import.number) n
  rw [← List.map_eq_nil_iff (f := fun _ => ()), hlength, List.map_eq_nil_iff]

theorem CompilationUnit.body_number : u.number.body = [] ↔ u.body = [] := by
  refine u.number_gives (P := fun v => v.body = [] ↔ u.body = []) (Q := fun _ => True)
    (R := fun _ => True) (S := (· = [] ↔ u.body = [])) (fun _ => trivial) (fun _ => trivial) ?_
    fun _ _ _ _ _ _ h => h
  cases u.body with
  | nil => exact .pure Iff.rfl
  | cons s ss =>
    refine .bind (P := fun _ => True) (fun _ => trivial) fun s' _ => ?_
    exact .bind (P := fun _ => True) (fun _ => trivial) fun ss' _ => .pure (by simp)

theorem CompilationUnit.number_binds {ss : List Stmt} {s : Stmt} {name : String} {x : Expr}
    (hbody : u.body = ss ++ [s]) (h : s.Binds name x) :
    ∃ us s', u.number.body = us ++ [s'] ∧ s'.Binds name x :=
  u.number_gives (P := fun v => ∃ us s', v.body = us ++ [s'] ∧ s'.Binds name x) (Q := fun _ => True)
    (R := fun _ => True) (fun _ => trivial) (fun _ => trivial) (hbody ▸ numberStmts_binds h ss)
    fun _ _ _ _ _ _ h => h

end

end Ceylon.Syntax
