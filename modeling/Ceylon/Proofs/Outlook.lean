import Ceylon.Analysis.Checker.Basic
import Ceylon.Proofs.TypeHorizon

/-!
# What typing rules rely on

A typing rule works with types that lie within a horizon.  Some may be missing: then the outlook is blank,
which it also is once a problem has been reported (`Question.Right`).  So one contract of a rule
(`Rule.Keeps`) says at once that it builds its types from what is in sight, and, of an outlook that is not
blank, that it finds a type or reports a problem.
-/

namespace Ceylon

namespace Model

/-- What a check may rely on: what types are built from, and whether types may be missing. -/
structure Outlook extends Horizon where
  /-- Whether types may be missing. -/
  blank : Prop
  blank_of_lax : lax → blank

/-- A type lies within the horizon, or is missing where it may be. -/
inductive Ty.Fits (z : Outlook) : Ty → Prop
  | missing (h : z.blank) : Ty.Fits z .unknown
  | within {t : Ty} (h : t.Within z.toHorizon) : Ty.Fits z t

/-- An outlook that shows more than another one. -/
structure Outlook.Le (z z' : Outlook) : Prop extends z.toHorizon.Le z'.toHorizon where
  blank : z.blank → z'.blank

namespace Ty

@[simp] theorem isKnown_unknown : isKnown .unknown = false := rfl

@[simp] theorem isKnown_applied (a : Applied) : isKnown (.applied a) = true := rfl

@[simp] theorem isKnown_union (cases : List Applied) (extended : Option Applied) :
    isKnown (.union cases extended) = true := rfl

end Ty

namespace Ty.Fits

variable {z z' : Outlook} {t : Ty}

/-- A type that fits and is unknown may be missing. -/
theorem blank_of_unknown (h : t.Fits z) (hunknown : t.isKnown = false) : z.blank := by
  cases h with
  | missing hblank => exact hblank
  | within hwithin => exact z.blank_of_lax (hwithin.lax_of_unknown hunknown)

/-- A type that fits and is known is in sight. -/
theorem within_of_isKnown (h : t.Fits z) (hknown : t.isKnown = true) : t.Within z.toHorizon := by
  cases h with
  | missing _ => cases hknown
  | within hwithin => exact hwithin

/-- A type that fits does so in a wider outlook. -/
theorem mono (hz : z.Le z') (h : t.Fits z) : t.Fits z' := by
  cases h with
  | missing hblank => exact .missing (hz.blank hblank)
  | within hwithin => exact .within (hwithin.mono hz.toLe)

/-- A type fits if it does as soon as it is known, and may be missing otherwise. -/
theorem of_isKnown (hknown : t.isKnown = true → t.Within z.toHorizon) (hblank : t.isKnown = false → z.blank) :
    t.Fits z := by
  cases t with
  | unknown => exact .missing (hblank rfl)
  | applied a => exact .within (hknown rfl)
  | union cases extended => exact .within (hknown rfl)

end Ty.Fits

/-! ## The type algebra on types that may be missing -/

namespace Hierarchy

variable {h : Hierarchy} {z : Outlook}

/-- The answer to a question is its step, with the answers to other questions one level down. -/
theorem answer?_eq (h : Hierarchy) (q : Query) :
    h.answer? q = (h.step q).run (h.answerWithin (depth - 1)) := rfl

/-- The supertype of a type that fits is in sight. -/
theorem supertype?_within (hc : h.Closed z.toHorizon) {t : Ty} (ht : t.Fits z) (d : DeclId) :
    Found z.toHorizon d (h.supertype? t d) := by
  cases ht with
  | missing _ => exact found_none d
  | within hwithin => exact h.supertype_within hc hwithin d

/-- There is nothing to replace in a missing type. -/
theorem substitute_unknown (h : Hierarchy) (b : Bindings) : h.substitute b .unknown = .unknown := by
  have hrule : h.substituteStep b .unknown = .done .unknown := by
    unfold substituteStep
    split <;> rfl
  rw [substitute, answer?_eq, step, hrule]
  rfl

/-- Substituting in a type that fits gives one that fits. -/
theorem substitute_fits (hc : h.Closed z.toHorizon) {b : Bindings}
    (hb : ∀ p ∈ b, p.2.Within z.toHorizon) {t : Ty} (ht : t.Fits z) : (h.substitute b t).Fits z := by
  cases ht with
  | missing hblank =>
    rw [substitute_unknown]
    exact .missing hblank
  | within hwithin => exact .within (h.substitute_within hc hb hwithin)

/-- Missing types add nothing to a union. -/
theorem unite_filter (h : Hierarchy) (ts : List Ty) : h.unite (ts.filter (·.isKnown)) = h.unite ts := by
  have hcases : (ts.filter (·.isKnown)).flatMap Ty.cases = ts.flatMap Ty.cases := by
    induction ts with
    | nil => rfl
    | cons t ts ih =>
      rw [List.filter_cons, List.flatMap_cons, ← ih]
      cases t <;> rfl
  have hfind : ∀ p : Ty → Bool, p .unknown = false → (ts.filter (·.isKnown)).find? p = ts.find? p := by
    intro p hp
    rw [List.find?_filter]
    congr 1
    funext t
    cases t <;> simp [hp]
  have hrule : h.uniteStep (ts.filter (·.isKnown)) = h.uniteStep ts := by
    rw [uniteStep, uniteStep, hcases, hfind h.isBottomType rfl]
  rw [unite, unite, answer?_eq, answer?_eq, step, step, hrule, hfind Ty.isKnown rfl]

/-- The union of types that fit fits. -/
theorem unite_fits (hc : h.Closed z.toHorizon) {ts : List Ty} (hne : ts ≠ [])
    (hts : ∀ t ∈ ts, t.Fits z) : (h.unite ts).Fits z := by
  rw [← unite_filter]
  cases hknown : ts.filter (·.isKnown) with
  | nil =>
    -- All types are missing, and so is their union.
    obtain ⟨t, ht⟩ := List.exists_mem_of_ne_nil ts hne
    have hunknown : t.isKnown = false := by simpa using List.filter_eq_nil_iff.mp hknown t ht
    exact .missing ((hts t ht).blank_of_unknown hunknown)
  | cons t rest =>
    refine .within (h.unite_within hc (.inr (List.cons_ne_nil t rest)) fun t' ht' => ?_)
    obtain ⟨hmem, hisKnown⟩ := List.mem_filter.mp (hknown ▸ ht')
    exact (hts t' hmem).within_of_isKnown hisKnown

end Hierarchy

/-! ## The language's declarations -/

namespace Builtins

/-- The declarations without parameters from which types are built. -/
def simple (b : Builtins) : List DeclId :=
  [b.void, b.object, b.identifiableObject, b.nothing, b.bottom, b.boolean, b.comparison, b.string,
    b.integer, b.float, b.character, b.quoted]

/-- The declarations with parameters from which types are built, and how many parameters they have. -/
def generic (b : Builtins) : List (DeclId × Nat) :=
  [(b.sequence, 1), (b.range, 1), (b.entry, 2)]

/-- The language's declarations are in sight, with the parameters that they should have. -/
structure Suits (b : Builtins) (z : Horizon) : Prop where
  simple : ∀ d ∈ b.simple, z.sees d ∧ z.arity d = 0
  generic : ∀ p ∈ b.generic, z.sees p.1 ∧ z.arity p.1 = p.2

variable {b : Builtins} {h : Hierarchy}

/-- Language types suit a horizon that shows more. -/
theorem Suits.mono {z z' : Horizon} (hz : z.Le z') (hb : b.Suits z) : b.Suits z' where
  simple d hd := ⟨hz.sees d (hb.simple d hd).1, (hz.arity d (hb.simple d hd).1).trans (hb.simple d hd).2⟩
  generic p hp := ⟨hz.sees _ (hb.generic p hp).1, (hz.arity _ (hb.generic p hp).1).trans (hb.generic p hp).2⟩

/-- A language type without parameters is in sight. -/
theorem Suits.plain {z : Horizon} (hb : b.Suits z) {d : DeclId} (hd : d ∈ b.simple) :
    (plain d).Within z :=
  .applied (.mk (hb.simple d hd).1 (hb.simple d hd).2.symm (List.forall_mem_nil _))

/-- A sequence of a type in sight is in sight. -/
theorem Suits.sequenceOf {z : Horizon} (hb : b.Suits z) {t : Ty} (ht : t.Within z) :
    (b.sequenceOf t).Within z := by
  have hsequence := hb.generic (b.sequence, 1) (by simp [Builtins.generic])
  exact .applied (.mk hsequence.1 hsequence.2.symm (List.forall_mem_singleton.mpr ht))

/-- A range of a type in sight is in sight. -/
theorem Suits.range {z : Horizon} (hb : b.Suits z) {t : Ty} (ht : t.Within z) :
    (Ty.applied ⟨b.range, [t]⟩).Within z := by
  have hrange := hb.generic (b.range, 1) (by simp [Builtins.generic])
  exact .applied (.mk hrange.1 hrange.2.symm (List.forall_mem_singleton.mpr ht))

/-- An entry of types in sight is in sight. -/
theorem Suits.entry {z : Horizon} (hb : b.Suits z) {k v : Ty} (hk : k.Within z) (hv : v.Within z) :
    (Ty.applied ⟨b.entry, [k, v]⟩).Within z := by
  have hentry := hb.generic (b.entry, 2) (by simp [Builtins.generic])
  refine .applied (.mk hentry.1 hentry.2.symm ?_)
  exact List.forall_mem_cons.mpr ⟨hk, List.forall_mem_singleton.mpr hv⟩

variable {z : Outlook}

/-- The definite form of a type that may be missing. -/
theorem definite_fits (hc : h.Closed z.toHorizon) (hb : b.Suits z.toHorizon) {t : Ty} (ht : t.Fits z) :
    (b.definite h t).Fits z := by
  cases ht with
  | missing hblank => exact .missing hblank
  | within hwithin => exact .within (definite_within hc (hb.plain (by simp [simple])) hwithin)

/-- An argument of a supertype, if there is one in that place. -/
theorem typeArg_within (hc : h.Closed z.toHorizon) {t : Ty} (ht : t.Fits z) {d : DeclId} {i : Nat}
    (hknown : (typeArg h t d i).isKnown = true) : (typeArg h t d i).Within z.toHorizon := by
  cases hst : h.supertype? t d with
  | none =>
    rw [typeArg, hst] at hknown
    cases hknown
  | some st =>
    obtain ⟨-, hwithin⟩ := h.supertype?_within hc ht d st hst
    simp only [typeArg, hst, List.getD_eq_getElem?_getD] at hknown ⊢
    cases harg : st.args[i]? with
    | none => simp [harg] at hknown
    | some a => exact hwithin.args a (List.mem_of_getElem? harg)

/-- An argument of a supertype; it may be missing where the supertype has none in that place. -/
theorem typeArg_fits (hc : h.Closed z.toHorizon) {t : Ty} (ht : t.Fits z) {d : DeclId} {i : Nat}
    (hi : z.blank ∨ (h.supertype? t d).isSome ∧ i < z.arity d) : (typeArg h t d i).Fits z := by
  refine .of_isKnown (typeArg_within hc ht) fun hunknown => hi.elim id fun hi => ?_
  obtain ⟨st, hst⟩ := Option.isSome_iff_exists.mp hi.1
  obtain ⟨rfl, hwithin⟩ := h.supertype?_within hc ht d st hst
  have hlt : i < st.args.length := hwithin.arity.symm ▸ hi.2
  simp only [typeArg, hst, List.getD_eq_getElem?_getD, List.getElem?_eq_getElem hlt,
    Option.getD_some] at hunknown
  exact z.blank_of_lax ((hwithin.args _ (List.getElem_mem hlt)).lax_of_unknown hunknown)

end Builtins

end Model

namespace Analysis

open Model Syntax

/-! ## The contract of rules -/

/-- What a rule may ask: the types of values, methods and parameters in sight. -/
def Question.Proper (f : State) (z : Outlook) : Question → Prop
  | .typeOf d => z.sees d ∧ (f.graph.decl d).shape.isTyped = true
  | .problem .. => True

/-- A right answer.  Once a problem has been reported, types may be missing. -/
def Question.Right (z : Outlook) : (q : Question) → q.Answer → Prop
  | .typeOf _, r => ∀ t, r = some t → t.Fits z
  | .problem .., _ => z.blank

section

variable {α : Type} {r : Rule α} {P : α → Prop}

/-- Whether a rule reports problems is watched without further questions. -/
theorem watched_ensures {may : Question → Prop} {right : (q : Question) → q.Answer → Prop}
    (h : r.Ensures may right P) : (watched r).Ensures may right fun p => P p.1 := by
  induction r with
  | done a => exact h
  | ask q next ih =>
    cases q with
    | typeOf d => exact ⟨h.1, fun r hr => ih r (h.2 r hr)⟩
    | problem n message => exact ⟨h.1, fun r hr => (ih r (h.2 r hr)).bind fun _ hp => hp⟩

/-- A check that applies a rule asks the questions of the rule. -/
theorem applyRule_ensures {may : Act → Prop} {right : (act : Act) → act.Answer → Prop}
    (h : r.Ensures (fun q => may (.ask q)) (fun q => right (.ask q)) P) : (applyRule r).Ensures may right P := by
  induction r with
  | done a => exact h
  | ask q next ih => exact ⟨h.1, fun r hr => ih r (h.2 r hr)⟩

end

/-- A rule asks for what is in sight, and its result has the property. -/
abbrev Rule.Keeps (f : State) (z : Outlook) {α : Type} (r : Rule α) (P : α → Prop) : Prop :=
  r.Ensures (Question.Proper f z) (Question.Right z) P

/-- What the resolved state shows to the checks of an outlook. -/
structure State.Shows (f : State) (z : Outlook) : Prop where
  closed : f.graph.hierarchy.Closed z.toHorizon
  builtins : f.builtins.Suits z.toHorizon
  members : ∀ d, z.sees d → ∀ m ∈ f.graph.membersOf (.decl d), z.sees m
  around : ∀ d, z.sees d → ∀ e, f.graph.enclosingType? (f.graph.decl d).scope = some e → z.sees e

namespace Rule

variable {f : State} {z : Outlook} {α : Type}

/-- Returning a value keeps to what is true of it. -/
theorem pure_keeps {a : α} {P : α → Prop} (h : P a) : Rule.Keeps f z (pure a) P :=
  h

/-- A report excuses what is missing. -/
theorem reportAt_keeps (n : Node) (message : String) :
    (reportAt n message).Keeps f z fun _ => z.blank :=
  ⟨trivial, fun _ hblank => hblank⟩

/-- What only reports under a condition. -/
theorem reportIf_keeps (c : Bool) (n : Node) (message : String) :
    Rule.Keeps f z (if c then reportAt n message else pure ()) fun _ => c = true → z.blank := by
  cases c with
  | true => exact (reportAt_keeps n message).mono fun _ hblank _ => hblank
  | false => exact pure_keeps nofun

/-- Whether it reports or not, a rule goes on in the same way. -/
theorem reportThen_keeps (c : Bool) (n : Node) (message : String) {next : Unit → Rule α} {P : α → Prop}
    (h : (next ()).Keeps f z P) :
    Rule.Keeps f z (if c = true then reportAt n message >>= next else next ()) P := by
  split
  · exact .bind (reportAt_keeps n message) fun _ _ => h
  · exact h

/-- Throwing away a result keeps to nothing more. -/
theorem discard_keeps {r : Rule α} {P : α → Prop} (h : r.Keeps f z P) :
    Rule.Keeps f z (Functor.discard r) fun _ => True :=
  Dialogue.Ensures.bind h fun _ _ => trivial

/-- The type of a declaration in sight fits, if the declaration is one that has a type. -/
theorem typeOfDecl_keeps {d : DeclId} (hd : z.sees d) (htyped : (f.graph.decl d).shape.isTyped = true)
    (place : Node) : (typeOfDecl f d place).Keeps f z (·.Fits z) := by
  refine ⟨⟨hd, htyped⟩, fun r hr => ?_⟩
  cases r with
  | none => exact .bind (reportAt_keeps _ _) fun _ hblank => pure_keeps (.missing hblank)
  | some t => exact hr t rfl

/-- Watching a rule for reports keeps to what the rule keeps to. -/
theorem watched_keeps {r : Rule α} {P : α → Prop} (h : r.Keeps f z P) :
    (watched r).Keeps f z fun p => P p.1 :=
  watched_ensures h

/-- Going through a list keeps to the contract if each turn does. -/
theorem forM_keeps {as : List α} {g : α → Rule Unit} (h : ∀ a ∈ as, (g a).Keeps f z fun _ => True) :
    Rule.Keeps f z (as.forM g) fun _ => True := by
  induction as with
  | nil => exact pure_keeps trivial
  | cons a as ih =>
    exact .bind (h a List.mem_cons_self) fun _ _ => ih fun a' ha' => h a' (List.mem_cons_of_mem a ha')

/-- Asking for a type that can be assigned keeps to the contract. -/
theorem assignable_keeps (t expected : Ty) (n : Node) (message : String) :
    (assignable f t expected n message).Keeps f z fun _ => True :=
  (reportIf_keeps _ n _).mono fun _ _ => trivial

end Rule

end Analysis

end Ceylon
