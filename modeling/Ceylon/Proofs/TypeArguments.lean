import Ceylon.Analysis.Checker.Run
import Ceylon.Proofs.MemberLookup
import Ceylon.Proofs.Substitution

/-!
# Explicit type arguments of members

The type of a reference `x.m<A>` is made by two substitutions, first of the type arguments of the receiver and then
of the explicit ones; the type of its invocation is made by both at once.  They are the same if the parameters of
`m` do not occur in the type arguments of the receiver (`conclude_qualified_together`).  If they do, as in a generic
method that selects itself from a receiver made of its own parameters, then the explicit arguments are put in there,
too (`reference_captures`).
-/

namespace Ceylon.Analysis

open Model Hierarchy
open Syntax

variable {f : State}

/-! ## What is bound -/

theorem key_of_mem_bindings {h : Hierarchy} {t : Applied} {p : DeclId × Ty} (hp : p ∈ h.bindings t) :
    p.1 ∈ h.params t.decl :=
  (List.of_mem_zip (List.mem_of_mem_filter hp)).1

theorem key_of_mem_explicitBindings {u : UnitId} {typeParams : List DeclId} {typeArgs : List TypeRef}
    {p : DeclId × Ty} (hp : p ∈ explicitBindings f u typeParams typeArgs) : p.1 ∈ typeParams := by
  obtain ⟨⟨d, a⟩, hmem, heq⟩ := List.mem_filterMap.mp hp
  obtain ⟨t, -, rfl⟩ := Option.map_eq_some_iff.mp heq
  exact (List.of_mem_zip hmem).1

/-- If a member is found together with a supertype, then that is a supertype for its container. -/
theorem memberOf?_container (hg : f.graph.InPlace) {t : Ty} {name : String} {filter : Filter} {d : DeclId}
    {sup : Applied} (hm : f.memberOf? t name filter = some (d, some sup)) :
    filter (f.graph.decl d) = true ∧ (f.graph.decl sup.decl).shape.isType = true := by
  obtain ⟨recv, -, hmember⟩ := Option.bind_eq_some_iff.mp hm
  obtain ⟨m, hfound, hsup⟩ := Option.bind_eq_some_iff.mp hmember
  split at hsup
  · cases hsup
  · next container hcontainer =>
    obtain ⟨rfl, hsupertype⟩ : m = d ∧ f.graph.hierarchy.supertype? (.applied recv) container = some sup := by
      simpa using hsup
    obtain ⟨-, hfilter, htype⟩ := hg.container_above hfound hcontainer
    have hsearch : f.graph.hierarchy.answer? (.search recv container []) = some (some sup) :=
      Option.join_eq_some_iff.mp hsupertype
    obtain rfl : sup.decl = container := (Answers.search_exact ⟨depth, hsearch⟩).2 sup rfl
    exact ⟨hfilter, htype⟩

/-- The type parameters of a member are not those of the supertype that it was found in. -/
theorem typeParams_apart (hg : f.graph.InPlace) {t : Ty} {name : String} {d : DeclId} {sup : Applied}
    (hm : f.memberOf? t name .values = some (d, some sup)) {p : DeclId}
    (hp : p ∈ f.graph.hierarchy.params sup.decl) : p ∉ (f.graph.decl d).shape.typeParams := by
  intro hmember
  obtain ⟨htyped, htype⟩ := memberOf?_container hg hm
  have hscope := (hg.typeParams sup.decl p hp).symm.trans (hg.typeParams d p hmember)
  obtain rfl : sup.decl = d := by simpa using hscope
  simp [Filter.values, Shape.isTyped, htype] at htyped

/-! ## What is recorded -/

/-- Nothing but this is recorded. -/
def Records (m : Mark) (t : Ty) (target : Option DeclId) : Act → Prop
  | .ask _ => True
  | .settle m' t' target' => m' = m ∧ t' = t ∧ target' = target
  | _ => False

/-- The declaration has the type. -/
def Declares (d : DeclId) (t : Ty) : (q : Question) → q.Answer → Prop
  | .typeOf e, r => e = d → r = some t
  | .problem .., _ => True

/-- The answers to the questions of rules. -/
def Gives (right : (q : Question) → q.Answer → Prop) : (act : Act) → act.Answer → Prop
  | .ask q, r => right q r
  | _, _ => True

/-- As long as declarations have the types that they are said to have, a check finds this out, records it at this place
and records nothing else. -/
structure Finds (right : (q : Question) → q.Answer → Prop) (m : Mark) (v : Verdict) (c : Check Typed) : Prop where
  ensures : c.Ensures (Records m v.type v.target) (Gives right) fun typed =>
    typed.type = v.type ∧ typed.target = v.target ∧ typed.receiver = v.receiver

/-- What a rule finds out is recorded. -/
theorem conclude_finds {right : (q : Question) → q.Answer → Prop} (x : Expr) (faulty : Bool) {rule : Rule Verdict}
    {v : Verdict} (h : rule.Ensures (fun _ => True) right (· = v)) :
    Finds right x.mark v (conclude x faulty rule) := by
  refine ⟨(applyRule_ensures (watched_ensures h)).bind fun r hr => ?_⟩
  obtain ⟨v', reported⟩ := r
  obtain rfl : v' = v := hr
  exact ⟨⟨rfl, rfl, rfl⟩, fun _ _ => ⟨rfl, rfl, rfl⟩⟩

theorem rewrap_plain (t : Ty) : rewrap f t .plain = t := by
  cases t <;> rfl

/-- The rule of a member that is selected by a plain operator and given type arguments substitutes twice. -/
theorem qualifiedRule_ensures (u : UnitId) (x : Expr) (primary : Typed) (name : Name) (typeArgs : List TypeRef)
    {d : DeclId} {sup : Applied} (declared : Ty) (known : primary.type.isKnown) (explicit : typeArgs ≠ [])
    (hmember : f.memberOf? primary.type name.text .values = some (d, some sup)) :
    let h := f.graph.hierarchy
    (qualifiedRule f u x primary .plain .member name typeArgs).Ensures (fun _ => True) (Declares d declared)
      (· = { type := h.substitute (explicitBindings f u (f.graph.decl d).shape.typeParams typeArgs)
               (h.substitute (h.bindings sup) declared), target := some d, receiver := some sup }) := by
  intro h
  -- The receiver is known and not wrapped, so the member is looked up on its type.
  have selected : (selectMember f u x primary .plain name .values).Ensures (fun _ => True) (Declares d declared)
      (· = some (d, some sup)) := by
    have hunwrap : unwrap f primary .plain = pure primary.type := by simp [unwrap, known]
    rw [selectMember, hunwrap, pure_bind]
    simp only [known, Bool.not_true, Bool.false_eq_true, if_false, hmember]
    split
    · exact ⟨.intro, fun _ _ => rfl⟩
    · exact rfl
  refine selected.bind ?_
  rintro _ rfl
  refine ⟨.intro, fun r hr => ?_⟩
  obtain rfl := hr rfl
  have applied (t : Ty) : (applyTypeArgs f u d typeArgs t x).Ensures (fun _ => True) (Declares d declared)
      (· = h.substitute (explicitBindings f u (f.graph.decl d).shape.typeParams typeArgs) t) := by
    rw [applyTypeArgs, if_neg (by simpa using explicit)]
    dsimp only
    split
    · exact ⟨.intro, fun _ _ => rfl⟩
    · exact rfl
  refine (applied _).bind ?_
  rintro _ rfl
  rw [rewrap_plain]
  exact rfl

/-- The type that is recorded for `x.m<A>` is the declared type of `m` in which the type arguments of the receiver and
the explicit ones are substituted at once, as in an invocation.  It is if the parameters of `m` do not occur in the
type arguments of the receiver, if all unions there are in normal form, and if those of the arguments drop no case of
a union of the declared type in which parameters of `m` occur. -/
theorem conclude_qualified_together (hg : f.graph.InPlace) (u : UnitId) (x : Expr) (faulty : Bool) (primary : Typed)
    (name : Name) (typeArgs : List TypeRef) (d : DeclId) (sup : Applied) (declared : Ty)
    (known : primary.type.isKnown) (explicit : typeArgs ≠ [])
    (hmember : f.memberOf? primary.type name.text .values = some (d, some sup))
    (receiver : ∀ a ∈ sup.args, f.graph.hierarchy.Untouched (f.graph.decl d).shape.typeParams a)
    (unions : declared.EveryUnion fun cases _ =>
      f.graph.hierarchy.KeepsCases (f.graph.hierarchy.bindings sup) cases ∨
        ∀ c ∈ cases, (Ty.applied c).Avoids (f.graph.decl d).shape.typeParams)
    (first second : Ty)
    (hfirst : f.graph.hierarchy.answer? (.substitute (f.graph.hierarchy.bindings sup) declared) = some first)
    (hsecond : f.graph.hierarchy.answer? (.substitute
      (explicitBindings f u (f.graph.decl d).shape.typeParams typeArgs) first) = some second) :
    let h := f.graph.hierarchy
    let bound := explicitBindings f u (f.graph.decl d).shape.typeParams typeArgs ++ bindingsOf h (some sup)
    Finds (Declares d declared) x.mark
      { type := h.substitute bound declared, target := some d, receiver := some sup }
      (conclude x faulty (qualifiedRule f u x primary .plain .member name typeArgs)) := by
  intro h bound
  -- The receiver's arguments mention no type parameter of the member, so the two substitutions are one.
  have together : h.AnswersWithin depth (.substitute bound declared) second :=
    substitute_together (fun p hp => typeParams_apart hg hmember (key_of_mem_bindings hp))
      (fun p hp => key_of_mem_explicitBindings hp) (fun p hp => receiver p.2 (mem_bindings hp).1) unions
      hfirst hsecond
  have finds := conclude_finds x faulty
    (qualifiedRule_ensures u x primary name typeArgs declared known explicit hmember)
  have hrecorded : h.substitute (explicitBindings f u (f.graph.decl d).shape.typeParams typeArgs)
      (h.substitute (h.bindings sup) declared) = h.substitute bound declared := by
    rw [substitute_eq le_rfl hfirst, substitute_eq le_rfl hsecond, substitute_eq le_rfl together]
  rwa [hrecorded] at finds

/-- `class Box<T>` with a method `Pair<T, U> pair<U>()`, and `class Integer` and `class Pair<First, Second>`.  The
type reference with the number 1 stands for `Integer`. -/
def boxes : State :=
  let package : ScopeChain := [.package ⟨0⟩]
  let box : ScopeChain := .decl ⟨0⟩ :: package
  let declaration (name : String) (scope : ScopeChain) (shape : Shape) : Declaration :=
    { name, scope, unit := none, node := none, shared := true, shape }
  let ofClass (params : List DeclId) : Shape := .ofClass { params } none false false
  let typeParameter : Shape := .typeParameter .invariant {}
  { graph := .ofList [
      declaration "Box" package (ofClass [⟨1⟩]),
      declaration "T" box typeParameter,
      declaration "pair" box (.method (.applied ⟨⟨5⟩, [.applied ⟨⟨1⟩, []⟩, .applied ⟨⟨3⟩, []⟩]⟩) [⟨3⟩] [] false false),
      declaration "U" (.decl ⟨2⟩ :: box) typeParameter,
      declaration "Integer" package (ofClass []),
      declaration "Pair" package (ofClass [⟨6⟩, ⟨7⟩]),
      declaration "First" (.decl ⟨5⟩ :: package) typeParameter,
      declaration "Second" (.decl ⟨5⟩ :: package) typeParameter]
    types := { refs := (∅ : NodeMap Ty).insert ⟨⟨0⟩, 1⟩ (.applied ⟨⟨4⟩, []⟩) } }

theorem boxes_inPlace : boxes.graph.InPlace :=
  Graph.inPlace_ofList (by decide)

/-- `Pair<T, U>` for the given types. -/
def pairOf (first second : Ty) : Ty :=
  .applied ⟨⟨5⟩, [first, second]⟩

theorem boxes_explicitBindings :
    explicitBindings boxes ⟨0⟩ (boxes.graph.decl ⟨2⟩).shape.typeParams [.base ⟨⟨default, 1⟩, default, []⟩] =
      [(⟨3⟩, .applied ⟨⟨4⟩, []⟩)] := by
  have htypeParams : (boxes.graph.decl ⟨2⟩).shape.typeParams = [⟨3⟩] := rfl
  rw [htypeParams]
  simp [explicitBindings, State.typeRef?, TypeRef.mark, boxes]

theorem boxes_memberOf? (a : Ty) :
    boxes.memberOf? (.applied ⟨⟨0⟩, [a]⟩) "pair" .values = some (⟨2⟩, some ⟨⟨0⟩, [a]⟩) := by
  have hfound : boxes.graph.findMember? ⟨0⟩ "pair" .values = some ⟨2⟩ := by decide
  have hcontainer : boxes.graph.containerType? ⟨2⟩ = some ⟨0⟩ := by decide
  simp only [State.memberOf?, State.receiver?, Option.bind_eq_bind, Option.bind_some, hfound, hcontainer]
  rw [supertype?_eq (n := 1) (by decide) rfl]

/-- The type of `x.pair<Integer>` for a `Box<Box<Integer>>` is `Pair<Box<Integer>, Integer>`. -/
theorem conclude_qualified_together_boxes :
    let integer : Ty := .applied ⟨⟨4⟩, []⟩
    let box : Ty := .applied ⟨⟨0⟩, [integer]⟩
    let primary : Typed := { (default : Typed) with type := .applied ⟨⟨0⟩, [box]⟩ }
    let name : Name := ⟨default, "pair"⟩
    let typeArgs : List TypeRef := [.base ⟨⟨default, 1⟩, default, []⟩]
    let x : Expr := .qualified default default .plain .member name typeArgs
    let declared := pairOf (.applied ⟨⟨1⟩, []⟩) (.applied ⟨⟨3⟩, []⟩)
    Finds (Declares ⟨2⟩ declared) x.mark
      { type := pairOf box integer, target := some ⟨2⟩, receiver := some ⟨⟨0⟩, [box]⟩ }
      (conclude x false (qualifiedRule boxes ⟨0⟩ x primary .plain .member name typeArgs)) := by
  intro integer box primary name typeArgs x declared
  have integer_untouched : boxes.graph.hierarchy.Untouched [⟨3⟩] integer :=
    ⟨.applied (by decide) (List.forall_mem_nil _), .applied (List.forall_mem_nil _)⟩
  have box_untouched : boxes.graph.hierarchy.Untouched [⟨3⟩] box :=
    ⟨.applied (by decide) (List.forall_mem_singleton.mpr integer_untouched.avoids),
      .applied (List.forall_mem_singleton.mpr integer_untouched.normal)⟩
  have unions : declared.EveryUnion fun cases _ =>
      boxes.graph.hierarchy.KeepsCases (boxes.graph.hierarchy.bindings ⟨⟨0⟩, [box]⟩) cases ∨
        ∀ c ∈ cases, (Ty.applied c).Avoids (boxes.graph.decl ⟨2⟩).shape.typeParams :=
    .applied (List.forall_mem_cons.mpr ⟨.applied (List.forall_mem_nil _),
      List.forall_mem_singleton.mpr (.applied (List.forall_mem_nil _))⟩)
  have first : boxes.graph.hierarchy.AnswersWithin 8
      (.substitute (boxes.graph.hierarchy.bindings ⟨⟨0⟩, [box]⟩) declared) (pairOf box (.applied ⟨⟨3⟩, []⟩)) := rfl
  have second : boxes.graph.hierarchy.AnswersWithin 8
      (.substitute (explicitBindings boxes ⟨0⟩ (boxes.graph.decl ⟨2⟩).shape.typeParams typeArgs)
        (pairOf box (.applied ⟨⟨3⟩, []⟩))) (pairOf box integer) := by
    rw [boxes_explicitBindings]
    rfl
  have both : boxes.graph.hierarchy.substitute
      (explicitBindings boxes ⟨0⟩ (boxes.graph.decl ⟨2⟩).shape.typeParams typeArgs ++
        bindingsOf boxes.graph.hierarchy (some ⟨⟨0⟩, [box]⟩)) declared = pairOf box integer := by
    rw [boxes_explicitBindings]
    exact substitute_eq (n := 8) (by decide) rfl
  -- The result is what substituting everything at once comes to.
  rw [← both]
  exact conclude_qualified_together boxes_inPlace ⟨0⟩ x false primary name typeArgs ⟨2⟩ ⟨⟨0⟩, [box]⟩
    declared rfl (List.cons_ne_nil _ _) (boxes_memberOf? box) (List.forall_mem_singleton.mpr box_untouched) unions
    _ _ (answerWithin_mono _ (by decide) first) (answerWithin_mono _ (by decide) second)

/-- The type that is recorded for `x.pair<Integer>` in the method `pair` itself, for a receiver of type `Box<U>`, is
`Pair<Integer, Integer>`.  At once, the two substitutions give `Pair<U, Integer>`. -/
theorem reference_captures :
    let integer : Ty := .applied ⟨⟨4⟩, []⟩
    let u : Ty := .applied ⟨⟨3⟩, []⟩
    let primary : Typed := { (default : Typed) with type := .applied ⟨⟨0⟩, [u]⟩ }
    let name : Name := ⟨default, "pair"⟩
    let typeArgs : List TypeRef := [.base ⟨⟨default, 1⟩, default, []⟩]
    let x : Expr := .qualified default default .plain .member name typeArgs
    let declared := pairOf (.applied ⟨⟨1⟩, []⟩) u
    boxes.memberOf? primary.type "pair" .values = some (⟨2⟩, some ⟨⟨0⟩, [u]⟩) ∧
      Finds (Declares ⟨2⟩ declared) x.mark
        { type := pairOf integer integer, target := some ⟨2⟩, receiver := some ⟨⟨0⟩, [u]⟩ }
        (conclude x false (qualifiedRule boxes ⟨0⟩ x primary .plain .member name typeArgs)) ∧
      boxes.graph.hierarchy.substitute
        (explicitBindings boxes ⟨0⟩ (boxes.graph.decl ⟨2⟩).shape.typeParams typeArgs ++
          bindingsOf boxes.graph.hierarchy (some ⟨⟨0⟩, [u]⟩)) declared = pairOf u integer ∧
      pairOf integer integer ≠ pairOf u integer := by
  intro integer u primary name typeArgs x declared
  have first : boxes.graph.hierarchy.substitute (boxes.graph.hierarchy.bindings ⟨⟨0⟩, [u]⟩) declared =
      pairOf u u := substitute_eq (n := 8) (by decide) rfl
  have second : boxes.graph.hierarchy.substitute
      (explicitBindings boxes ⟨0⟩ (boxes.graph.decl ⟨2⟩).shape.typeParams typeArgs) (pairOf u u) =
        pairOf integer integer := by
    rw [boxes_explicitBindings]
    exact substitute_eq (n := 8) (by decide) rfl
  -- bound together, the `U` of the receiver is not replaced again
  have both : boxes.graph.hierarchy.substitute
      (explicitBindings boxes ⟨0⟩ (boxes.graph.decl ⟨2⟩).shape.typeParams typeArgs ++
        bindingsOf boxes.graph.hierarchy (some ⟨⟨0⟩, [u]⟩)) declared = pairOf u integer := by
    rw [boxes_explicitBindings]
    exact substitute_eq (n := 8) (by decide) rfl
  have finds := conclude_finds x false (qualifiedRule_ensures ⟨0⟩ x primary name typeArgs declared rfl
    (List.cons_ne_nil _ _) (boxes_memberOf? u))
  rw [first, second] at finds
  exact ⟨boxes_memberOf? u, finds, both, by simp [pairOf, integer, u]⟩

end Ceylon.Analysis
