import Ceylon.Editor.Query
import Ceylon.Proofs.Rendering

/-!
# Where nodes stand

To find the name at a place of the text, one goes down the tree and takes, at each node, the last child that
starts at or before the place.  This finds a name from every place on it if the nodes stand in the order of the
walk, where nothing else stands on a name (`Place.Before`, `CompilationUnit.identAt?_eq_some`).  Numbering the nodes
of a unit leaves them where they are (`CompilationUnit.number_places`).
-/

namespace Ceylon.Syntax

/-- Where a node stands, and the text of it if it is a name. -/
structure Place where
  pos : Pos
  name : Option String

namespace Place

/-- The number of characters that are known to belong to the node. -/
def width (p : Place) : Nat :=
  (p.name.map String.length).getD 0

/-- The second node does not start before the first one, and not on it if that is a name. -/
def Before (p q : Place) : Prop :=
  p.pos.line < q.pos.line ∨ p.pos.line = q.pos.line ∧ p.pos.col + p.width ≤ q.pos.col

end Place

/-- The text of a name. -/
@[simp] def Node.name? : Node → Option String
  | .name n => some n.text
  | _ => none

/-- Where the node stands. -/
@[simp] def Node.place (n : Node) : Place :=
  ⟨n.mark.pos, n.name?⟩

mutual

/-- Where the nodes of an outline stand, in the order of the walk. -/
def Outline.places : Outline → List Place
  | .mk _ node _ children => node.place :: placesOf children

/-- Where the nodes of outlines stand. -/
def placesOf : List Outline → List Place
  | [] => []
  | o :: os => o.places ++ placesOf os

end

@[simp] theorem Outline.places_mk (slot : Slot) (node : Node) (attributes : List (String × Attribute))
    (children : List Outline) :
    (Outline.mk slot node attributes children).places = node.place :: placesOf children := rfl

@[simp] theorem placesOf_nil : placesOf [] = [] := rfl

@[simp] theorem placesOf_cons (o : Outline) (os : List Outline) :
    placesOf (o :: os) = o.places ++ placesOf os := rfl

@[simp] theorem placesOf_append (os os' : List Outline) :
    placesOf (os ++ os') = placesOf os ++ placesOf os' := by
  induction os with
  | nil => rfl
  | cons o os ih => rw [List.cons_append, placesOf_cons, placesOf_cons, ih, List.append_assoc]

/-- The first place of an outline is that of its root. -/
theorem Outline.places_eq (o : Outline) : o.places = o.node.place :: placesOf o.children := by
  cases o
  rfl

/-! ## Going down to a name -/

/-- The place `(line, col)` is on the name. -/
structure Name.Covers (n : Name) (line col : Int) : Prop where
  line : line = n.mark.pos.line
  start : n.mark.pos.col ≤ col
  stop : col < n.mark.pos.col + n.text.length

/-- The place of a name. -/
abbrev Name.place (n : Name) : Place :=
  (Node.name n).place

namespace Name.Covers

variable {n : Name} {line col : Int} {p : Place}

theorem precedes_of_before (h : n.Covers line col) (hp : n.place.Before p) :
    Outline.precedes line col p.pos = true := by
  obtain ⟨hline, hstart, hstop⟩ := h
  simp only [Place.Before, Name.place, Node.place, Node.mark, Node.name?, Place.width, Option.map_some,
    Option.getD_some] at hp
  rw [Outline.precedes]
  split <;> simp only [decide_eq_true_eq] <;> omega

theorem not_precedes_of_before (h : n.Covers line col) (hp : p.Before n.place) :
    Outline.precedes line col p.pos = false := by
  obtain ⟨hline, hstart, hstop⟩ := h
  simp only [Place.Before, Name.place, Node.place, Node.mark] at hp
  rw [Outline.precedes]
  split <;> simp only [decide_eq_false_iff_not] <;> omega

theorem not_precedes_self (h : n.Covers line col) : Outline.precedes line col n.mark.pos = false := by
  obtain ⟨hline, hstart, hstop⟩ := h
  rw [Outline.precedes]
  split <;> simp only [decide_eq_false_iff_not] <;> omega

end Name.Covers

namespace Outline

mutual

/-- The places of the nodes that a walk meets are the places of the outline. -/
theorem place_mem_of_mem_visits {v : Visit} : (o : Outline) → {depth : Nat} → {parent : Option Node} →
    v ∈ o.visits depth parent → v.node.place ∈ o.places
  | .mk _ node _ children, depth, parent, h => by
    rw [visits, List.mem_cons] at h
    rw [places_mk, List.mem_cons]
    exact h.imp (fun h => by rw [h]) (place_mem_of_mem_visitsOf children)

theorem place_mem_of_mem_visitsOf {v : Visit} : (os : List Outline) → {depth : Nat} → {parent : Node} →
    v ∈ visitsOf depth parent os → v.node.place ∈ placesOf os
  | [], _, _, h => absurd h List.not_mem_nil
  | o :: os, depth, parent, h => by
    rw [visitsOf, List.mem_append] at h
    rw [placesOf_cons, List.mem_append]
    exact h.imp (place_mem_of_mem_visits o) (place_mem_of_mem_visitsOf os)

end

mutual

theorem exists_parent {v : Visit} : (o : Outline) → {depth : Nat} → {parent : Node} →
    v ∈ o.visits depth (some parent) → ∃ owner, v.parent = some owner
  | .mk _ node _ children, depth, parent, h => by
    rw [visits, List.mem_cons] at h
    rcases h with rfl | h
    · exact ⟨parent, rfl⟩
    · exact exists_parent_of_mem children h

/-- A node below another one has a parent. -/
theorem exists_parent_of_mem {v : Visit} : (os : List Outline) → {depth : Nat} → {parent : Node} →
    v ∈ visitsOf depth parent os → ∃ owner, v.parent = some owner
  | [], _, _, h => absurd h List.not_mem_nil
  | o :: os, depth, parent, h => by
    rw [visitsOf, List.mem_append] at h
    exact h.elim (exists_parent o) (exists_parent_of_mem os)

end

section

variable {line col : Int} {id : Name}

/-- Nothing behind the name starts before a place on it. -/
theorem pathIn_of_before (covers : id.Covers line col) {os : List Outline}
    (hos : ∀ q ∈ placesOf os, id.place.Before q) : pathIn line col os = [] := by
  cases os with
  | nil => rfl
  | cons o os =>
    have hfirst : o.node.place ∈ placesOf (o :: os) := by
      rw [placesOf_cons, places_eq]
      exact List.mem_cons_self
    have hbehind : precedes line col o.node.mark.pos = true := covers.precedes_of_before (hos _ hfirst)
    rw [pathIn, if_pos hbehind]

variable {depth' : Nat} {owner : Node}

mutual

/-- A place on a name leads to the name and its parent. -/
theorem pathTo_of_covers (covers : id.Covers line col) : (o : Outline) → {depth : Nat} →
    {parent : Option Node} → o.places.Pairwise Place.Before →
    ⟨depth', some owner, .name id⟩ ∈ o.visits depth parent →
      ∃ outer, parent.toList ++ o.pathTo line col = outer ++ [owner, .name id]
  | .mk _ node _ children, depth, parent, ordered, h => by
    rw [visits, List.mem_cons] at h
    rw [places_mk, List.pairwise_cons] at ordered
    rw [pathTo]
    rcases h with h | h
    · obtain ⟨-, rfl, rfl⟩ := Visit.mk.inj h
      rw [pathIn_of_before covers ordered.1]
      exact ⟨[], rfl⟩
    · obtain ⟨outer, houter⟩ := pathIn_of_covers covers children ordered.2 h
      exact ⟨parent.toList ++ outer, by rw [houter, List.append_assoc]⟩

theorem pathIn_of_covers (covers : id.Covers line col) : (os : List Outline) → {depth : Nat} →
    {parent : Node} → (placesOf os).Pairwise Place.Before →
    ⟨depth', some owner, .name id⟩ ∈ visitsOf depth parent os →
      ∃ outer, parent :: pathIn line col os = outer ++ [owner, .name id]
  | [], _, _, _, h => absurd h List.not_mem_nil
  | o :: os, depth, parent, ordered, h => by
    rw [visitsOf, List.mem_append] at h
    rw [placesOf_cons, List.pairwise_append] at ordered
    obtain ⟨here, later, apart⟩ := ordered
    have hfirst : o.node.place ∈ o.places := by
      rw [places_eq]
      exact List.mem_cons_self
    rw [pathIn]
    rcases h with h | h
    · have hmem := place_mem_of_mem_visits o h
      have hreached : precedes line col o.node.mark.pos = false := by
        rw [places_eq, List.pairwise_cons] at here
        rw [places_eq, List.mem_cons] at hmem
        rcases hmem with heq | hmem
        · have hpos : id.mark.pos = o.node.mark.pos := congrArg Place.pos heq
          exact hpos ▸ covers.not_precedes_self
        · exact covers.not_precedes_of_before (here.1 _ hmem)
      obtain ⟨outer, houter⟩ := pathTo_of_covers covers o here h
      rw [hreached, if_neg Bool.false_ne_true, pathIn_of_before covers (apart _ hmem)]
      exact ⟨outer, houter⟩
    · have hreached : precedes line col o.node.mark.pos = false :=
        covers.not_precedes_of_before (apart _ hfirst _ (place_mem_of_mem_visitsOf os h))
      obtain ⟨outer, houter⟩ := pathIn_of_covers covers os later h
      rw [hreached, if_neg Bool.false_ne_true]
      -- The path is not empty, for it has the parent of the name before the name itself.
      cases hpath : pathIn line col os with
      | nil =>
        rw [hpath] at houter
        have hlength := congrArg List.length houter
        simp at hlength
      | cons n ns =>
        rw [hpath] at houter
        exact ⟨outer, houter⟩

end

end

end Outline

/-- If the nodes of a unit stand in the order of the walk, then a place on a name leads to the name and the node
that it belongs to. -/
theorem CompilationUnit.identAt?_eq_some {u : CompilationUnit}
    (ordered : (placesOf u.outline.children).Pairwise Place.Before)
    {depth : Nat} {owner : Node} {id : Name} (h : ⟨depth, some owner, .name id⟩ ∈ u.outline.walk) {line col : Int}
    (covers : id.Covers line col) : Editor.identAt? u line col = some (id, owner) := by
  have hbelow : ⟨depth, some owner, .name id⟩ ∈ Outline.visitsOf 1 (.unit u) u.outline.children := by
    rcases List.mem_cons.mp h with h | h
    · exact nomatch (Visit.mk.inj h).2.1
    · exact h
  obtain ⟨outer, houter⟩ := Outline.pathIn_of_covers covers _ ordered hbelow
  have hpath : u.outline.pathTo line col = outer ++ [owner, .name id] := houter
  have htouches : Editor.touches id line col = true := by
    obtain ⟨hline, hstart, hstop⟩ := covers
    simp only [Editor.touches, Bool.and_eq_true, beq_iff_eq, decide_eq_true_eq]
    omega
  rw [Editor.identAt?, Editor.nodesAt, hpath]
  simp [htouches]

/-! ## Numbered trees -/

namespace Numbering

/-- Whatever numbers are handed out, `f` tells the same of the result as of `a`. -/
abbrev Keeps {α β : Type} (m : Numbering α) (a : α) (f : α → β) : Prop :=
  Gives m fun a' => f a' = f a

namespace Gives

variable {α : Type}

/-- A mark is numbered where it stands. -/
theorem pos (m : Mark) : Keeps m.number m Mark.pos :=
  fun _ => rfl

/-- An optional part keeps its places if the part does. -/
theorem outlined {f : α → Numbering α} {out : α → Outline} (hf : ∀ a, Keeps (f a) a fun a => (out a).places)
    (a : Option α) : Keeps (numberOption f a) a fun a => placesOf (outlineOption out a) := by
  cases a with
  | none => exact pure rfl
  | some a => exact bind (hf a) fun a' ha => pure (by simp [outlineOption, ha])

/-- A list of parts keeps its places if each of the parts does. -/
theorem outlines {f : α → Numbering α} {out : α → Outline} (hf : ∀ a, Keeps (f a) a fun a => (out a).places)
    (as : List α) : Keeps (as.mapM f) as fun as => placesOf (as.map out) := by
  induction as with
  | nil => exact pure rfl
  | cons a as ih =>
    rw [List.mapM_cons]
    exact bind (hf a) fun a' ha => bind ih fun as' has => pure (by simp [ha, has])

end Gives

end Numbering

open Ceylon.Syntax.Numbering

/-- Named arguments stand one after the other. -/
theorem placesOf_outlineNamed (a : NamedArg) (as : List NamedArg) :
    placesOf (outlineNamed (a :: as)) = placesOf (outlineNamed [a]) ++ placesOf (outlineNamed as) := by
  cases a
  simp [outlineNamed]

theorem Name.number_places (slot : Slot) (n : Name) : Keeps n.number n fun n => (n.outline slot).places :=
  .bind (.pos n.mark) fun _ hmark => .pure (by simp [Name.outline, Node.mark, hmark])

theorem Path.number_places (p : Path) : Keeps p.number p fun p => p.outline.places :=
  .bind (.pos p.mark) fun _ hmark =>
    .bind (.outlines (Name.number_places ⟨"segments", true⟩) p.segments) fun _ hsegments =>
    .pure (by simp [Path.outline, Node.mark, hmark, hsegments])

mutual

/-- Numbering a type leaves its nodes where they are. -/
theorem TypeRef.number_places (slot : Slot) :
    (t : TypeRef) → Keeps t.number t fun t => (t.outline slot).places
  | .base b => .bind (b.number_places slot) fun _ hb => .pure hb
  | .union mark first more =>
    .bind (.pos mark) fun _ hmark => .bind (first.number_places ⟨"cases", true⟩) fun _ hfirst =>
      .bind (numberTypes_places "cases" more) fun _ hmore =>
        .pure (by simp [TypeRef.outline, Node.mark, TypeRef.mark, hmark, hfirst, hmore])
  | .optional mark inner =>
    .bind (.pos mark) fun _ hmark => .bind (inner.number_places ⟨"inner", false⟩) fun _ hinner =>
      .pure (by simp [TypeRef.outline, Node.mark, TypeRef.mark, hmark, hinner])

theorem BaseType.number_places (slot : Slot) :
    (b : BaseType) → Keeps b.number b fun b => (b.outline slot).places
  | { mark, name, args } =>
    .bind (.pos mark) fun _ hmark => .bind (name.number_places ⟨"name", false⟩) fun _ hname =>
      .bind (numberTypes_places "args" args) fun _ hargs =>
        .pure (by simp [BaseType.outline, Node.mark, TypeRef.mark, hmark, hname, hargs])

theorem numberTypes_places (label : String) :
    (ts : List TypeRef) → Keeps (numberTypes ts) ts fun ts => placesOf (outlineTypes label ts)
  | [] => .pure rfl
  | t :: ts =>
    .bind (t.number_places ⟨label, true⟩) fun _ ht => .bind (numberTypes_places label ts) fun _ hts =>
      .pure (by simp [outlineTypes, ht, hts])

end

theorem DeclaredType.number_places (t : DeclaredType) : Keeps t.number t fun t => t.outline.places := by
  cases t with
  | ref t => exact .bind (t.number_places ⟨"type", false⟩) fun _ ht => .pure ht
  | inferred mark function | void mark =>
    exact .bind (.pos mark) fun _ hmark => .pure (by simp [DeclaredType.outline, Node.mark, hmark])

mutual

/-- Numbering an expression leaves its nodes where they are. -/
theorem Expr.number_places (slot : Slot) :
    (x : Expr) → Keeps x.number x fun x => (x.outline slot).places
  | .reference mark _ name typeArgs =>
    .bind (.pos mark) fun _ hmark => .bind (name.number_places ⟨"name", false⟩) fun _ hname =>
      .bind (numberTypes_places "typeArgs" typeArgs) fun _ htypeArgs =>
        .pure (by simp [Expr.outline, Node.mark, Expr.mark, hmark, hname, htypeArgs])
  | .qualified mark primary _ _ name typeArgs =>
    .bind (.pos mark) fun _ hmark => .bind (primary.number_places ⟨"primary", false⟩) fun _ hprimary =>
      .bind (name.number_places ⟨"name", false⟩) fun _ hname =>
        .bind (numberTypes_places "typeArgs" typeArgs) fun _ htypeArgs =>
          .pure (by simp [Expr.outline, Node.mark, Expr.mark, hmark, hprimary, hname, htypeArgs])
  | .invocation mark primary args =>
    .bind (.pos mark) fun _ hmark => .bind (primary.number_places ⟨"primary", false⟩) fun _ hprimary =>
      .bind args.number_places fun _ hargs =>
        .pure (by simp [Expr.outline, Node.mark, Expr.mark, hmark, hprimary, hargs])
  | .index mark primary _ subscript =>
    .bind (.pos mark) fun _ hmark => .bind (primary.number_places ⟨"primary", false⟩) fun _ hprimary =>
      .bind subscript.number_places fun _ hsubscript =>
        .pure (by simp [Expr.outline, Node.mark, Expr.mark, hmark, hprimary, hsubscript])
  | .literal mark .. | .self mark _ =>
    .bind (.pos mark) fun _ hmark => .pure (by simp [Expr.outline, Node.mark, Expr.mark, hmark])
  | .sequence mark elems =>
    .bind (.pos mark) fun _ hmark => .bind (numberExprs_places "elems" elems) fun _ helems =>
      .pure (by simp [Expr.outline, Node.mark, Expr.mark, hmark, helems])
  | .paren mark x =>
    .bind (.pos mark) fun _ hmark => .bind (x.number_places ⟨"x", false⟩) fun _ hx =>
      .pure (by simp [Expr.outline, Node.mark, Expr.mark, hmark, hx])
  | .binary mark _ x y =>
    .bind (.pos mark) fun _ hmark => .bind (x.number_places ⟨"x", false⟩) fun _ hx =>
      .bind (y.number_places ⟨"y", false⟩) fun _ hy =>
        .pure (by simp [Expr.outline, Node.mark, Expr.mark, hmark, hx, hy])
  | .prefixed mark _ x | .postfixed mark _ x =>
    .bind (.pos mark) fun _ hmark => .bind (x.number_places ⟨"x", false⟩) fun _ hx =>
      .pure (by simp [Expr.outline, Node.mark, Expr.mark, hmark, hx])
  | .isTest mark x type =>
    .bind (.pos mark) fun _ hmark => .bind (x.number_places ⟨"x", false⟩) fun _ hx =>
      .bind (type.number_places ⟨"type", false⟩) fun _ htype =>
        .pure (by simp [Expr.outline, Node.mark, Expr.mark, hmark, hx, htype])
  | .existsTest mark x | .nonemptyTest mark x =>
    .bind (.pos mark) fun _ hmark => .bind (x.number_places ⟨"x", false⟩) fun _ hx =>
      .pure (by simp [Expr.outline, Node.mark, Expr.mark, hmark, hx])

theorem numberExprs_places (label : String) :
    (xs : List Expr) → Keeps (numberExprs xs) xs fun xs => placesOf (outlineExprs label xs)
  | [] => .pure rfl
  | x :: xs =>
    .bind (x.number_places ⟨label, true⟩) fun _ hx => .bind (numberExprs_places label xs) fun _ hxs =>
      .pure (by simp [outlineExprs, hx, hxs])

theorem Arguments.number_places : (a : Arguments) → Keeps a.number a fun a => a.outline.places
  | .positional args => .bind (args.number_places ⟨"positional", false⟩) fun _ hargs => .pure hargs
  | .named args => .bind args.number_places fun _ hargs => .pure hargs

theorem PositionalArgs.number_places (slot : Slot) :
    (a : PositionalArgs) → Keeps a.number a fun a => (a.outline slot).places
  | { mark, args } =>
    .bind (.pos mark) fun _ hmark => .bind (numberExprs_places "args" args) fun _ hargs =>
      .pure (by simp [PositionalArgs.outline, Node.mark, hmark, hargs])

theorem NamedArgs.number_places : (a : NamedArgs) → Keeps a.number a fun a => a.outline.places
  | { mark, args, sequenced } =>
    .bind (.pos mark) fun _ hmark => .bind (numberNamed_places args) fun _ hargs =>
      .bind (numberSequenced_places sequenced) fun _ hsequenced =>
        .pure (by simp [NamedArgs.outline, Node.mark, hmark, hargs, hsequenced])

theorem NamedArg.number_places : (a : NamedArg) → Keeps a.number a fun a => placesOf (outlineNamed [a])
  | { mark, name, value } =>
    .bind (.pos mark) fun _ hmark => .bind (name.number_places ⟨"name", false⟩) fun _ hname =>
      .bind (value.number_places ⟨"x", false⟩) fun _ hvalue =>
        .pure (by simp [outlineNamed, Node.mark, hmark, hname, hvalue])

theorem numberNamed_places :
    (as : List NamedArg) → Keeps (numberNamed as) as fun as => placesOf (outlineNamed as)
  | [] => .pure rfl
  | a :: as =>
    .bind a.number_places fun _ ha => .bind (numberNamed_places as) fun _ has =>
      .pure (by
        dsimp only at ha has ⊢
        rw [placesOf_outlineNamed, ha, has, ← placesOf_outlineNamed])

theorem numberSequenced_places :
    (a : Option SequencedArg) → Keeps (numberSequenced a) a fun a => placesOf (outlineSequenced a)
  | none => .pure rfl
  | some a => .bind a.number_places fun _ ha => .pure ha

theorem SequencedArg.number_places :
    (a : SequencedArg) → Keeps a.number a fun a => placesOf (outlineSequenced (some a))
  | { mark, values } =>
    .bind (.pos mark) fun _ hmark => .bind (numberExprs_places "exprs" values) fun _ hvalues =>
      .pure (by simp [outlineSequenced, Node.mark, hmark, hvalues])

theorem Subscript.number_places : (s : Subscript) → Keeps s.number s fun s => placesOf s.outline
  | .element index =>
    .bind (index.number_places ⟨"index", false⟩) fun _ hindex => .pure (by simp [Subscript.outline, hindex])
  | .span lower upper =>
    .bind (lower.number_places ⟨"index", false⟩) fun _ hlower =>
      .bind (upper.number_places ⟨"upper", false⟩) fun _ hupper =>
      .pure (by simp [Subscript.outline, hlower, hupper])
  | .tail lower =>
    .bind (lower.number_places ⟨"index", false⟩) fun _ hlower => .pure (by simp [Subscript.outline, hlower])

end

theorem TypeParameter.number_places (p : TypeParameter) : Keeps p.number p fun p => p.outline.places :=
  .bind (.pos p.mark) fun _ hmark => .bind (p.name.number_places ⟨"name", false⟩) fun _ hname =>
    .pure (by simp [TypeParameter.outline, Node.mark, hmark, hname])

theorem Parameter.number_places (p : Parameter) : Keeps p.number p fun p => p.outline.places :=
  .bind (.pos p.mark) fun _ hmark => .bind (p.type.number_places ⟨"type", false⟩) fun _ htype =>
    .bind (p.name.number_places ⟨"name", false⟩) fun _ hname =>
      .bind (.outlined (Expr.number_places ⟨"default", false⟩) p.default) fun _ hdefault =>
        .pure (by simp [Parameter.outline, Node.mark, hmark, htype, hname, hdefault])

theorem ParameterList.number_places (l : ParameterList) : Keeps l.number l fun l => l.outline.places :=
  .bind (.pos l.mark) fun _ hmark => .bind (.outlines Parameter.number_places l.params) fun _ hparams =>
    .pure (by simp [ParameterList.outline, Node.mark, hmark, hparams])

theorem ExtendedType.number_places (e : ExtendedType) : Keeps e.number e fun e => e.outline.places :=
  .bind (.pos e.mark) fun _ hmark => .bind (e.type.number_places ⟨"type", false⟩) fun _ htype =>
    .bind (e.args.number_places ⟨"args", false⟩) fun _ hargs =>
      .pure (by simp [ExtendedType.outline, Node.mark, hmark, htype, hargs])

theorem LoopVariable.number_places (label : String) (v : LoopVariable) :
    Keeps v.number v fun v => (v.variable.outline label).places :=
  .bind (.pos v.mark) fun _ hmark => .bind v.type.number_places fun _ htype =>
    .bind (v.name.number_places ⟨"name", false⟩) fun _ hname =>
      .pure (by simp [LoopVariable.variable, Variable.outline, outlineOption, Node.mark, hmark, htype, hname])

theorem Operand.number_places (o : Operand) : Keeps o.number o fun o => o.outline.places := by
  cases o with
  | var g =>
    have hg : Keeps g.number g fun g => (g.variable.outline "var").places :=
      .bind (.pos g.mark) fun _ hmark => .bind g.type.number_places fun _ htype =>
        .bind (g.name.number_places ⟨"name", false⟩) fun _ hname =>
          .bind (g.specifier.number_places ⟨"specifier", false⟩) fun _ hspecifier =>
            .pure (by simp [Guard.variable, Variable.outline, outlineOption, Node.mark, hmark, htype, hname,
              hspecifier])
    exact .bind hg fun _ h => .pure h
  | value x => exact .bind (x.number_places ⟨"x", false⟩) fun _ hx => .pure hx

theorem Condition.number_places (c : Condition) : Keeps c.number c fun c => c.outline.places := by
  cases c with
  | boolean mark x =>
    exact .bind (.pos mark) fun _ hmark => .bind (x.number_places ⟨"x", false⟩) fun _ hx =>
      .pure (by simp [Condition.outline, Node.mark, Condition.mark, hmark, hx])
  | «exists» mark operand | nonempty mark operand =>
    exact .bind (.pos mark) fun _ hmark => .bind operand.number_places fun _ hoperand =>
      .pure (by simp [Condition.outline, Node.mark, Condition.mark, hmark, hoperand])
  | is mark type operand =>
    exact .bind (.pos mark) fun _ hmark => .bind (type.number_places ⟨"type", false⟩) fun _ htype =>
      .bind operand.number_places fun _ hoperand =>
        .pure (by simp [Condition.outline, Node.mark, Condition.mark, hmark, htype, hoperand])

theorem Iteration.number_places (i : Iteration) : Keeps i.number i fun i => i.outline.places := by
  cases i with
  | values mark var source =>
    exact .bind (.pos mark) fun _ hmark => .bind (var.number_places "var") fun _ hvar =>
      .bind (source.number_places ⟨"source", false⟩) fun _ hsource =>
        .pure (by simp [Iteration.outline, Node.mark, Iteration.mark, hmark, hvar, hsource])
  | entries mark key value source =>
    exact .bind (.pos mark) fun _ hmark => .bind (key.number_places "key") fun _ hkey =>
      .bind (value.number_places "value") fun _ hvalue =>
        .bind (source.number_places ⟨"source", false⟩) fun _ hsource =>
        .pure (by simp [Iteration.outline, Node.mark, Iteration.mark, hmark, hkey, hvalue, hsource])

theorem Initializer.number_places (i : Initializer) :
    Keeps i.number i fun i => placesOf (outlineOption (Expr.outline ⟨"specifier", false⟩) i.expr?) := by
  cases i with
  | absent => exact .pure rfl
  | specified x | assigned x =>
    exact .bind (x.number_places ⟨"specifier", false⟩) fun _ hx =>
      .pure (by simp [Initializer.expr?, outlineOption, hx])

theorem AttributeDecl.number_places (slot : Slot) (d : AttributeDecl) :
    Keeps d.number d fun d => (d.outline slot).places :=
  .bind (.pos d.mark) fun _ hmark => .bind d.type.number_places fun _ htype =>
    .bind (d.name.number_places ⟨"name", false⟩) fun _ hname => .bind d.init.number_places fun _ hinit =>
      .pure (by simp [AttributeDecl.outline, Node.mark, Stmt.mark, hmark, htype, hname, hinit])

mutual

/-- Numbering a statement leaves its nodes where they are. -/
theorem Stmt.number_places (slot : Slot) :
    (s : Stmt) → Keeps s.number s fun s => (s.outline slot).places
  | .classDecl d | .interfaceDecl d | .method d | .attribute d | .getter d | .setter d =>
    .bind (d.number_places slot) fun _ hd => .pure hd
  | .expr mark x =>
    .bind (.pos mark) fun _ hmark => .bind (x.number_places ⟨"x", false⟩) fun _ hx =>
      .pure (by simp [Stmt.outline, Node.mark, Stmt.mark, hmark, hx])
  | .return mark x =>
    .bind (.pos mark) fun _ hmark => .bind (.outlined (Expr.number_places ⟨"x", false⟩) x) fun _ hx =>
      .pure (by simp [Stmt.outline, Node.mark, Stmt.mark, hmark, hx])
  | .break mark | .continue mark =>
    .bind (.pos mark) fun _ hmark => .pure (by simp [Stmt.outline, Node.mark, Stmt.mark, hmark])
  | .ifElse s => .bind (s.number_places slot) fun _ hs => .pure hs
  | .while mark clause =>
    .bind (.pos mark) fun _ hmark => .bind clause.number_places fun _ hclause =>
      .pure (by simp [Stmt.outline, Node.mark, Stmt.mark, hmark, hclause])
  | .for mark clause fail =>
    .bind (.pos mark) fun _ hmark => .bind clause.number_places fun _ hclause =>
      .bind (numberFail_places fail) fun _ hfail =>
        .pure (by simp [Stmt.outline, Node.mark, Stmt.mark, hmark, hclause, hfail])

theorem numberStmts_places (label : String) :
    (ss : List Stmt) → Keeps (numberStmts ss) ss fun ss => placesOf (outlineStmts label ss)
  | [] => .pure rfl
  | s :: ss =>
    .bind (s.number_places ⟨label, true⟩) fun _ hs => .bind (numberStmts_places label ss) fun _ hss =>
      .pure (by simp [outlineStmts, hs, hss])

theorem Block.number_places : (b : Block) → Keeps b.number b fun b => b.outline.places
  | { mark, stmts, close := _ } =>
    .bind (.pos mark) fun _ hmark => .bind (numberStmts_places "stmts" stmts) fun _ hstmts =>
      .pure (by simp [Block.outline, Node.mark, hmark, hstmts])

theorem ClassDecl.number_places (slot : Slot) :
    (d : ClassDecl) → Keeps d.number d fun d => (d.outline slot).places
  | { mark, annotations := _, name, typeParams, params, extended, satisfied, body } =>
    .bind (.pos mark) fun _ hmark => .bind (name.number_places ⟨"name", false⟩) fun _ hname =>
      .bind (.outlines TypeParameter.number_places typeParams) fun _ htypeParams =>
        .bind params.number_places fun _ hparams =>
        .bind (.outlined ExtendedType.number_places extended) fun _ hextended =>
          .bind (numberTypes_places "satisfies" satisfied) fun _ hsatisfied =>
            .bind body.number_places fun _ hbody =>
            .pure (by simp [ClassDecl.outline, Node.mark, Stmt.mark, hmark, hname, htypeParams, hparams,
              hextended, hsatisfied, hbody])

theorem InterfaceDecl.number_places (slot : Slot) :
    (d : InterfaceDecl) → Keeps d.number d fun d => (d.outline slot).places
  | { mark, annotations := _, name, typeParams, satisfied, body } =>
    .bind (.pos mark) fun _ hmark => .bind (name.number_places ⟨"name", false⟩) fun _ hname =>
      .bind (.outlines TypeParameter.number_places typeParams) fun _ htypeParams =>
        .bind (numberTypes_places "satisfies" satisfied) fun _ hsatisfied =>
          .bind body.number_places fun _ hbody =>
          .pure (by simp [InterfaceDecl.outline, Node.mark, Stmt.mark, hmark, hname, htypeParams, hsatisfied,
            hbody])

theorem MethodDecl.number_places (slot : Slot) :
    (d : MethodDecl) → Keeps d.number d fun d => (d.outline slot).places
  | { mark, annotations := _, type, name, typeParams, params, body } =>
    .bind (.pos mark) fun _ hmark => .bind type.number_places fun _ htype =>
      .bind (name.number_places ⟨"name", false⟩) fun _ hname =>
        .bind (.outlines TypeParameter.number_places typeParams) fun _ htypeParams =>
          .bind params.number_places fun _ hparams =>
          .bind body.number_places fun _ hbody =>
            .pure (by simp [MethodDecl.outline, Node.mark, Stmt.mark, hmark, htype, hname, htypeParams,
              hparams, hbody])

theorem MethodBody.number_places : (b : MethodBody) → Keeps b.number b fun b => placesOf b.outline
  | .absent => .pure rfl
  | .block b => .bind b.number_places fun _ hb => .pure (by simp [MethodBody.outline, hb])
  | .computed x =>
    .bind (x.number_places ⟨"specifier", false⟩) fun _ hx => .pure (by simp [MethodBody.outline, hx])

theorem GetterDecl.number_places (slot : Slot) :
    (d : GetterDecl) → Keeps d.number d fun d => (d.outline slot).places
  | { mark, annotations := _, type, name, body } =>
    .bind (.pos mark) fun _ hmark => .bind type.number_places fun _ htype =>
      .bind (name.number_places ⟨"name", false⟩) fun _ hname => .bind body.number_places fun _ hbody =>
        .pure (by simp [GetterDecl.outline, Node.mark, Stmt.mark, hmark, htype, hname, hbody])

theorem SetterDecl.number_places (slot : Slot) :
    (d : SetterDecl) → Keeps d.number d fun d => (d.outline slot).places
  | { mark, annotations := _, name, body } =>
    .bind (.pos mark) fun _ hmark => .bind (name.number_places ⟨"name", false⟩) fun _ hname =>
      .bind body.number_places fun _ hbody =>
        .pure (by simp [SetterDecl.outline, Node.mark, Stmt.mark, hmark, hname, hbody])

theorem IfStmt.number_places (slot : Slot) :
    (s : IfStmt) → Keeps s.number s fun s => (s.outline slot).places
  | { mark, clause, alternative } =>
    .bind (.pos mark) fun _ hmark => .bind clause.number_places fun _ hclause =>
      .bind (numberElse_places alternative) fun _ halternative =>
        .pure (by simp [IfStmt.outline, Node.mark, Stmt.mark, hmark, hclause, halternative])

theorem IfClause.number_places : (c : IfClause) → Keeps c.number c fun c => c.outline.places
  | { mark, cond, body } =>
    .bind (.pos mark) fun _ hmark => .bind cond.number_places fun _ hcond =>
      .bind body.number_places fun _ hbody =>
      .pure (by simp [IfClause.outline, Node.mark, hmark, hcond, hbody])

theorem numberElse_places :
    (c : Option ElseClause) → Keeps (numberElse c) c fun c => placesOf (outlineElse c)
  | none => .pure rfl
  | some c => .bind c.number_places fun _ hc => .pure hc

theorem ElseClause.number_places :
    (c : ElseClause) → Keeps c.number c fun c => placesOf (outlineElse (some c))
  | .block mark b =>
    .bind (.pos mark) fun _ hmark => .bind b.number_places fun _ hb =>
      .pure (by simp [outlineElse, Node.mark, ElseClause.mark, hmark, hb])
  | .ifElse mark s =>
    .bind (.pos mark) fun _ hmark => .bind (s.number_places ⟨"if", false⟩) fun _ hs =>
      .pure (by simp [outlineElse, Node.mark, ElseClause.mark, hmark, hs])

theorem WhileClause.number_places : (c : WhileClause) → Keeps c.number c fun c => c.outline.places
  | { mark, cond, body } =>
    .bind (.pos mark) fun _ hmark => .bind cond.number_places fun _ hcond =>
      .bind body.number_places fun _ hbody =>
      .pure (by simp [WhileClause.outline, Node.mark, hmark, hcond, hbody])

theorem ForClause.number_places : (c : ForClause) → Keeps c.number c fun c => c.outline.places
  | { mark, iteration, body } =>
    .bind (.pos mark) fun _ hmark => .bind iteration.number_places fun _ hiteration =>
      .bind body.number_places fun _ hbody =>
      .pure (by simp [ForClause.outline, Node.mark, hmark, hiteration, hbody])

theorem numberFail_places :
    (c : Option FailClause) → Keeps (numberFail c) c fun c => placesOf (outlineFail c)
  | none => .pure rfl
  | some c => .bind c.number_places fun _ hc => .pure hc

theorem FailClause.number_places :
    (c : FailClause) → Keeps c.number c fun c => placesOf (outlineFail (some c))
  | { mark, body } =>
    .bind (.pos mark) fun _ hmark => .bind body.number_places fun _ hbody =>
      .pure (by simp [outlineFail, Node.mark, hmark, hbody])

end

theorem ModuleImport.number_places (i : ModuleImport) : Keeps i.number i fun i => i.outline.places :=
  .bind (.pos i.mark) fun _ hmark => .bind i.path.number_places fun _ hpath =>
    .pure (by simp [ModuleImport.outline, Node.mark, hmark, hpath])

theorem ModuleDescriptor.number_places (d : ModuleDescriptor) :
    Keeps d.number d fun d => d.outline.places :=
  .bind (.pos d.mark) fun _ hmark => .bind d.path.number_places fun _ hpath =>
    .bind (.outlines ModuleImport.number_places d.imports) fun _ himports =>
      .pure (by simp [ModuleDescriptor.outline, Node.mark, hmark, hpath, himports])

theorem ImportElement.number_places (e : ImportElement) : Keeps e.number e fun e => e.outline.places :=
  .bind (.pos e.mark) fun _ hmark =>
    .bind (.outlined (Name.number_places ⟨"alias", false⟩) e.newName) fun _ hnewName =>
    .bind (e.name.number_places ⟨"name", false⟩) fun _ hname =>
      .pure (by simp [ImportElement.outline, Node.mark, hmark, hnewName, hname])

theorem Import.number_places (i : Import) : Keeps i.number i fun i => i.outline.places :=
  .bind (.pos i.mark) fun _ hmark => .bind i.path.number_places fun _ hpath =>
    .bind (.outlines ImportElement.number_places i.elements) fun _ helements =>
      .pure (by simp [Import.outline, Node.mark, hmark, hpath, helements])

/-- Numbering the nodes of a unit leaves them where they are. -/
theorem CompilationUnit.number_places (u : CompilationUnit) :
    placesOf u.number.outline.children = placesOf u.outline.children := by
  have keeps : Keeps (do
      return { u with
        mark := ← u.mark.number
        module := ← numberOption ModuleDescriptor.number u.module
        imports := ← u.imports.mapM Import.number
        body := ← numberStmts u.body }) u fun u => placesOf u.outline.children :=
    .bind (.pos u.mark) fun _ _ =>
      .bind (.outlined ModuleDescriptor.number_places u.module) fun _ hmodule =>
      .bind (.outlines Import.number_places u.imports) fun _ himports =>
      .bind (numberStmts_places "body" u.body) fun _ hbody =>
        .pure (by simp [CompilationUnit.outline, Outline.children, hmodule, himports, hbody])
  exact keeps 0

end Ceylon.Syntax
