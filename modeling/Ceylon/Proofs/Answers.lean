import Ceylon.Model.Subtyping
import Ceylon.Proofs.Dialogue

/-!
# Answers of the type algebra

A question of the type algebra is answered if its rule comes to an end at some depth (`Hierarchy.Answers`).
More depth never changes an answer, so a question has at most one; and a question is answered exactly if its
rule comes to an end with answers to the questions that it asks (`answers_iff_reaches`).
-/

namespace Ceylon.Model

namespace Hierarchy

/-- A type parameter that is looked up is bound. -/
theorem mem_of_lookup {b : Bindings} {d : DeclId} {t : Ty} (hb : b.lookup d = some t) :
    (d, t) ∈ b := by
  obtain ⟨l₁, l₂, rfl, -⟩ := List.lookup_eq_some_iff.mp hb
  simp

/-- The question is answered at some depth. -/
def Answers (h : Hierarchy) (q : Query) (a : q.Answer) : Prop :=
  ∃ depth, h.answerWithin depth q = some a

/-- The question has an answer. -/
def Finishes (h : Hierarchy) (q : Query) : Prop :=
  ∃ a, h.Answers q a

/-- A partner with more answers leads a dialogue at least as far. -/
theorem run_some_of_extends {α : Type} {p p' : (q : Query) → Option q.Answer}
    (ext : ∀ q r, p q = some r → p' q = some r) {d : Algebra α} {a : α}
    (hrun : d.run p = some a) : d.run p' = some a := by
  induction d with
  | done b => exact hrun
  | ask q next ih =>
    simp only [Dialogue.run, Option.bind_eq_bind, Option.bind_eq_some_iff] at hrun ⊢
    obtain ⟨r, hr, hnext⟩ := hrun
    exact ⟨r, ext q r hr, ih r hnext⟩

/-- An answer stays the answer at every greater depth. -/
theorem answerWithin_mono (h : Hierarchy) {n m : Nat} (hnm : n ≤ m) {q : Query} {a : q.Answer}
    (ha : h.answerWithin n q = some a) : h.answerWithin m q = some a := by
  induction n generalizing m q with
  | zero => cases ha
  | succ n ih =>
    obtain ⟨m, rfl⟩ : ∃ k, m = k + 1 := ⟨m - 1, by omega⟩
    exact run_some_of_extends (fun q r hr => ih (by omega) hr) ha

/-- A question has only one answer. -/
theorem Answers.unique {h : Hierarchy} {q : Query} {a b : q.Answer} (ha : h.Answers q a)
    (hb : h.Answers q b) : a = b := by
  obtain ⟨n, hn⟩ := ha
  obtain ⟨m, hm⟩ := hb
  have hn' := h.answerWithin_mono (Nat.le_max_left n m) hn
  have hm' := h.answerWithin_mono (Nat.le_max_right n m) hm
  rw [hn'] at hm'
  exact Option.some.inj hm'

/-- A rule that comes to an end does so at some depth. -/
theorem exists_run_of_reaches {h : Hierarchy} {α : Type} {d : Algebra α} {P : α → Prop}
    (hd : d.Reaches h.Answers P) : ∃ n a, d.run (h.answerWithin n) = some a ∧ P a := by
  induction d with
  | done a => exact ⟨0, a, rfl, hd⟩
  | ask q next ih =>
    obtain ⟨r, ⟨n, hn⟩, hnext⟩ := hd
    obtain ⟨m, a, hrun, ha⟩ := ih r hnext
    refine ⟨max n m, a, ?_, ha⟩
    simp only [Dialogue.run, Option.bind_eq_bind, Option.bind_eq_some_iff]
    refine ⟨r, h.answerWithin_mono (Nat.le_max_left n m) hn, ?_⟩
    exact run_some_of_extends (fun _ _ => h.answerWithin_mono (Nat.le_max_right n m)) hrun

/-- A question whose rule comes to an end is answered by its result. -/
theorem answers_of_reaches {h : Hierarchy} {q : Query} {P : q.Answer → Prop}
    (hq : (h.step q).Reaches h.Answers P) : ∃ a, h.Answers q a ∧ P a := by
  obtain ⟨n, a, hrun, ha⟩ := exists_run_of_reaches hq
  exact ⟨a, ⟨n + 1, hrun⟩, ha⟩

/-- A question whose rule comes to an end is answered. -/
theorem finishes_of_reaches {h : Hierarchy} {q : Query} {P : q.Answer → Prop}
    (hq : (h.step q).Reaches h.Answers P) : h.Finishes q := by
  obtain ⟨a, ha, -⟩ := answers_of_reaches hq
  exact ⟨a, ha⟩

/-- A rule that is run to its end at some depth follows the answers. -/
theorem reaches_of_run {h : Hierarchy} {n : Nat} {α : Type} {d : Algebra α} {a : α}
    (hrun : d.run (h.answerWithin n) = some a) : d.Reaches h.Answers (· = a) :=
  (Dialogue.Reaches.iff_run.mpr hrun).of_ok fun _ _ hr => ⟨n, hr⟩

/-- A question is answered exactly if its rule comes to an end with that answer. -/
theorem answers_iff_reaches {h : Hierarchy} {q : Query} {a : q.Answer} :
    h.Answers q a ↔ (h.step q).Reaches h.Answers (· = a) := by
  constructor
  · rintro ⟨n, hn⟩
    cases n with
    | zero => cases hn
    | succ n => exact reaches_of_run hn
  · intro hq
    obtain ⟨b, hb, rfl⟩ := answers_of_reaches hq
    exact hb

/-- An answer has what the rule ensures as long as the questions on its way are answered. -/
theorem Answers.of_ensures {h : Hierarchy} {q : Query} {a : q.Answer} {P : q.Answer → Prop}
    (ha : h.Answers q a) (hq : (h.step q).Ensures (fun _ => True) h.Answers P) : P a := by
  obtain ⟨n, hn⟩ := ha
  cases n with
  | zero => cases hn
  | succ n => exact hq.of_run (fun q r _ hr => ⟨n, hr⟩) hn

/-- The question is answered at the depth. -/
abbrev AnswersWithin (h : Hierarchy) (n : Nat) (q : Query) (a : q.Answer) : Prop :=
  h.answerWithin n q = some a

/-- A question is answered at a depth exactly if its rule comes to an end with answers at the depth below. -/
theorem answersWithin_succ_iff {h : Hierarchy} {n : Nat} {q : Query} {a : q.Answer} :
    h.AnswersWithin (n + 1) q a ↔ (h.step q).Reaches (h.AnswersWithin n) (· = a) :=
  Dialogue.Reaches.iff_run.symm

/-- A question whose rule comes to an end with answers at a depth is answered by its result at the next one. -/
theorem answersWithin_of_reaches {h : Hierarchy} {n : Nat} {q : Query} {P : q.Answer → Prop}
    (hq : (h.step q).Reaches (h.AnswersWithin n) P) : ∃ a, h.AnswersWithin (n + 1) q a ∧ P a := by
  obtain ⟨a, ha, hP⟩ := hq.result
  exact ⟨a, answersWithin_succ_iff.mpr ha, hP⟩

/-! ## The operations with their usual bound -/

section

variable {h : Hierarchy} {n : Nat} (hn : n ≤ depth)
include hn

theorem subtype_eq {s o : Ty} {r : Bool} (hr : h.AnswersWithin n (.subtype s o) r) : h.subtype s o = r := by
  rw [subtype, answer?, h.answerWithin_mono hn hr]
  rfl

theorem unite_eq {ts : List Ty} {t : Ty} (ht : h.AnswersWithin n (.unite ts) t) : h.unite ts = t := by
  rw [unite, answer?, h.answerWithin_mono hn ht]
  rfl

theorem substitute_eq {b : Bindings} {t t' : Ty} (ht : h.AnswersWithin n (.substitute b t) t') :
    h.substitute b t = t' := by
  rw [substitute, answer?, h.answerWithin_mono hn ht]
  rfl

theorem supertype?_eq {t : Applied} {d : DeclId} {found : Option Applied}
    (hfound : h.AnswersWithin n (.search t d []) found) : h.supertype? (.applied t) d = found := by
  rw [supertype?, answer?, h.answerWithin_mono hn hfound]
  rfl

end

/-- What is found to be a subtype is one. -/
theorem answers_of_subtype {h : Hierarchy} {s o : Ty} (hso : h.subtype s o = true) :
    h.Answers (.subtype s o) true := by
  refine ⟨depth, ?_⟩
  rw [subtype, answer?] at hso
  cases hanswer : h.answerWithin depth (.subtype s o) with
  | none =>
    rw [hanswer] at hso
    cases hso
  | some r =>
    rw [hanswer] at hso
    exact congrArg some hso

/-- A union is what uniting gives, or uniting is not answered and it is the first known type. -/
theorem unite_eq_or (h : Hierarchy) (ts : List Ty) :
    h.Answers (.unite ts) (h.unite ts) ∨ h.unite ts = (ts.find? Ty.isKnown).getD .unknown := by
  cases hanswer : h.answer? (.unite ts) with
  | none => exact .inr (by rw [unite, hanswer]; rfl)
  | some u => exact .inl ⟨depth, by rw [unite, hanswer]; exact hanswer⟩

end Hierarchy

end Ceylon.Model
