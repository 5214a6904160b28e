import Mathlib.Algebra.Order.Group.Multiset
import Ceylon.Dialogue

/-!
# Reasoning about dialogues

Ways to follow a dialogue.  `Ensures` follows all answers that keep to a contract and says what the result is
like; `Upholds` does so for a contract whose terms change on the way, and `Spends` for one that lets each
question be asked only so often.  `Suits` follows the answers of one partner, and says of each question that the
state in which it comes up is one for it.  `Reaches` follows the one path on which
every question has the answer that `ok` gives it, and says that this path comes to an end.  `Poses` says which
questions come up on that path.
-/

namespace Ceylon.Dialogue

variable {Q : Type} {A : Q → Type} {α β : Type}

@[simp] theorem pure_eq_done (a : α) : (pure a : Dialogue A α) = .done a := rfl

@[simp] theorem done_bind (a : α) (f : α → Dialogue A β) : (Dialogue.done a >>= f) = f a := rfl

@[simp] theorem ask_bind (q : Q) (next : A q → Dialogue A α) (f : α → Dialogue A β) :
    (Dialogue.ask q next >>= f) = .ask q fun r => next r >>= f := rfl

instance : LawfulMonad (Dialogue A) :=
  LawfulMonad.mk' _
    (fun d => by
      induction d with
      | done a => rfl
      | ask q next ih => exact congrArg (Dialogue.ask q) (funext ih))
    (fun _ _ => rfl)
    (fun d f g => by
      induction d with
      | done a => rfl
      | ask q next ih => exact congrArg (Dialogue.ask q) (funext ih))

/-- Leading a dialogue with a partner that has a state. -/
theorem run_ask {σ : Type} (partner : (q : Q) → StateM σ (A q)) (q : Q)
    (next : A q → Dialogue A α) (s : σ) :
    (Dialogue.ask q next).run partner s = (next (partner q s).1).run partner (partner q s).2 := rfl

/-- The questions that come up when the dialogue is led with a partner that has a state. -/
def asked {σ : Type} (partner : (q : Q) → StateM σ (A q)) : Dialogue A α → σ → List Q
  | .done _, _ => []
  | .ask q next, s => q :: (next (partner q s).1).asked partner (partner q s).2

/-- Led with a partner that has a state, the dialogue asks each of its questions in a state that is one for it. -/
def Suits {σ : Type} (partner : (q : Q) → StateM σ (A q)) (fits : σ → Q → Prop) : Dialogue A α → σ → Prop
  | .done _, _ => True
  | .ask q next, s => fits s q ∧ (next (partner q s).1).Suits partner fits (partner q s).2

/-- Leading two dialogues one after the other is leading them with one partner. -/
theorem run_bind {m : Type → Type} [Monad m] [LawfulMonad m] (partner : (q : Q) → m (A q))
    (d : Dialogue A α) (f : α → Dialogue A β) :
    (d >>= f).run partner = d.run partner >>= fun a => (f a).run partner := by
  induction d with
  | done a => simp [run]
  | ask q next ih => simp [run, ih]

/-- Where the first of two dialogues leads to, the second begins. -/
theorem run_bind_apply {σ : Type} (partner : (q : Q) → StateM σ (A q)) (d : Dialogue A α) (f : α → Dialogue A β)
    (s : σ) : (d >>= f).run partner s = (f (d.run partner s).1).run partner (d.run partner s).2 := by
  rw [run_bind]
  rfl

/-- The questions of the second of two dialogues come up in the states that the first leads to. -/
theorem suits_bind {σ : Type} {partner : (q : Q) → StateM σ (A q)} {fits : σ → Q → Prop} {d : Dialogue A α}
    {f : α → Dialogue A β} {s : σ} : (d >>= f).Suits partner fits s ↔ d.Suits partner fits s ∧
      (f (d.run partner s).1).Suits partner fits (d.run partner s).2 := by
  induction d generalizing s with
  | done a => exact (iff_of_eq (true_and _)).symm
  | ask q next ih => exact (and_congr_right fun _ => ih _).trans and_assoc.symm

/-! ## Contracts -/

/-- Every question is one that may be asked, and as long as the answers are right the result has the
property. -/
def Ensures (may : Q → Prop) (right : (q : Q) → A q → Prop) :
    Dialogue A α → (α → Prop) → Prop
  | .done a, P => P a
  | .ask q next, P => may q ∧ ∀ r, right q r → (next r).Ensures may right P

namespace Ensures

variable {may : Q → Prop} {right : (q : Q) → A q → Prop}

/-- What a dialogue ensures may be weakened. -/
theorem mono {d : Dialogue A α} {P P' : α → Prop} (h : d.Ensures may right P)
    (imp : ∀ a, P a → P' a) : d.Ensures may right P' := by
  induction d with
  | done a => exact imp a h
  | ask q next ih => exact ⟨h.1, fun r hr => ih r (h.2 r hr)⟩

/-- One dialogue after another ensures what the second one does wherever the first one leads. -/
theorem bind {d : Dialogue A α} {f : α → Dialogue A β} {P : α → Prop} {P' : β → Prop}
    (h : d.Ensures may right P) (hf : ∀ a, P a → (f a).Ensures may right P') :
    (d >>= f).Ensures may right P' := by
  induction d with
  | done a => exact hf a h
  | ask q next ih => exact ⟨h.1, fun r hr => ih r (h.2 r hr)⟩

/-- What may be asked may be asked in a weaker sense. -/
theorem of_may {d : Dialogue A α} {P : α → Prop} (h : d.Ensures may right P) {may' : Q → Prop}
    (imp : ∀ q, may q → may' q) : d.Ensures may' right P := by
  induction d with
  | done a => exact h
  | ask q next ih => exact ⟨imp q h.1, fun r hr => ih r (h.2 r hr)⟩

/-- Where all may be asked and nothing is promised, nothing has to be ensured. -/
theorem trivial (d : Dialogue A α) : d.Ensures (fun _ => True) right fun _ => True := by
  induction d with
  | done a => exact .intro
  | ask q next ih => exact ⟨.intro, fun r _ => ih r⟩

/-- What holds as long as answers are right holds as long as they are right in a stronger sense. -/
theorem of_right {d : Dialogue A α} {P : α → Prop} (h : d.Ensures may right P)
    {right' : (q : Q) → A q → Prop} (imp : ∀ q r, right' q r → right q r) :
    d.Ensures may right' P := by
  induction d with
  | done a => exact h
  | ask q next ih => exact ⟨h.1, fun r hr => ih r (h.2 r (imp q r hr))⟩

/-- What a dialogue ensures can be ensured together. -/
theorem and {d : Dialogue A α} {P P' : α → Prop} (h : d.Ensures may right P)
    (h' : d.Ensures may right P') : d.Ensures may right fun a => P a ∧ P' a := by
  induction d with
  | done a => exact ⟨h, h'⟩
  | ask q next ih => exact ⟨h.1, fun r hr => ih r (h.2 r hr) (h'.2 r hr)⟩

/-- The result of leading the dialogue with a partner that may have no answer, but only right ones. -/
theorem of_run {d : Dialogue A α} {P : α → Prop} (h : d.Ensures may right P)
    {partner : (q : Q) → Option (A q)} (correct : ∀ q r, may q → partner q = some r → right q r)
    {a : α} (hrun : d.run partner = some a) : P a := by
  induction d with
  | done b =>
    obtain rfl : b = a := by simpa [run] using hrun
    exact h
  | ask q next ih =>
    simp only [run, Option.bind_eq_bind, Option.bind_eq_some_iff] at hrun
    obtain ⟨r, hr, hnext⟩ := hrun
    exact ih r (h.2 r (correct q r h.1 hr)) hnext

end Ensures

/-! ## Contracts in changing circumstances -/

/-- A contract whose terms depend on circumstances that change while the dialogue is led: which questions
may be asked in them, and which answers are right when they have come to be so. -/
structure Contract (W : Type) (A : Q → Type) where
  /-- How circumstances may change. -/
  Leads : W → W → Prop
  May : W → Q → Prop
  Right : W → (q : Q) → A q → Prop
  refl : ∀ w, Leads w w
  trans : ∀ {w w' w''}, Leads w w' → Leads w' w'' → Leads w w''

/-- Begun in the given circumstances, the dialogue asks only what it may, and as long as the answers are
right its result has the property in the circumstances at the end. -/
def Upholds {W : Type} (c : Contract W A) : W → Dialogue A α → (W → α → Prop) → Prop
  | w, .done a, P => P w a
  | w, .ask q next, P =>
    c.May w q ∧ ∀ w', c.Leads w w' → ∀ r, c.Right w' q r → Upholds c w' (next r) P

namespace Upholds

variable {W : Type} {c : Contract W A} {w : W}

/-- Returning a value upholds what is true of it. -/
theorem pure {a : α} {P : W → α → Prop} (h : P w a) : Upholds c w (Pure.pure a) P :=
  h

/-- A question upholds what is right about its answer. -/
theorem ask {q : Q} {P : W → A q → Prop} (may : c.May w q)
    (h : ∀ w', c.Leads w w' → ∀ r, c.Right w' q r → P w' r) : Upholds c w (.ask q .done) P :=
  ⟨may, h⟩

/-- What a dialogue upholds may be weakened. -/
theorem mono {d : Dialogue A α} {P P' : W → α → Prop} (h : Upholds c w d P)
    (imp : ∀ w', c.Leads w w' → ∀ a, P w' a → P' w' a) : Upholds c w d P' := by
  induction d generalizing w with
  | done a => exact imp w (c.refl w) a h
  | ask q next ih =>
    refine ⟨h.1, fun w' hw r hr => ih r (h.2 w' hw r hr) fun w'' hw' => imp w'' (c.trans hw hw')⟩

/-- One dialogue after another upholds what the second one does wherever the first one leads. -/
theorem bind {d : Dialogue A α} {f : α → Dialogue A β} {P : W → α → Prop} {P' : W → β → Prop}
    (h : Upholds c w d P) (hf : ∀ w', c.Leads w w' → ∀ a, P w' a → Upholds c w' (f a) P') :
    Upholds c w (d >>= f) P' := by
  induction d generalizing w with
  | done a => exact hf w (c.refl w) a h
  | ask q next ih =>
    refine ⟨h.1, fun w' hw r hr => ih r (h.2 w' hw r hr) fun w'' hw' => hf w'' (c.trans hw hw')⟩

/-- Leading a dialogue with a partner that has a state.  The partner answers rightly and keeps an invariant,
or else leaves it once and for all. -/
theorem run {σ : Type} (view : σ → W) (Inv Lost : σ → Prop) {partner : (q : Q) → StateM σ (A q)}
    (hstep : ∀ s q, Inv s → c.May (view s) q → Lost (partner q s).2 ∨ Inv (partner q s).2 ∧
      c.Leads (view s) (view (partner q s).2) ∧ c.Right (view (partner q s).2) q (partner q s).1)
    (hlost : ∀ s q, Lost s → Lost (partner q s).2) {d : Dialogue A α} {P : W → α → Prop} {s : σ}
    (h : Upholds c (view s) d P) (hs : Inv s) :
    Lost (d.run partner s).2 ∨ Inv (d.run partner s).2 ∧
      c.Leads (view s) (view (d.run partner s).2) ∧ P (view (d.run partner s).2) (d.run partner s).1 := by
  -- What is lost stays lost, whatever is asked afterwards.
  have lost : ∀ {β : Type} (d : Dialogue A β) s, Lost s → Lost (d.run partner s).2 := by
    intro β d
    induction d with
    | done a => exact fun s hs => hs
    | ask q next ih => exact fun s hs => ih _ _ (hlost s q hs)
  induction d generalizing s with
  | done a => exact .inr ⟨hs, c.refl _, h⟩
  | ask q next ih =>
    rw [run_ask]
    rcases hstep s q hs h.1 with hl | ⟨hinv, hleads, hright⟩
    · exact .inl (lost _ _ hl)
    · rcases ih _ (h.2 _ hleads _ hright) hinv with hl | ⟨hinv', hleads', hP⟩
      · exact .inl hl
      · exact .inr ⟨hinv', c.trans hleads hleads', hP⟩

end Upholds

/-! ## Budgets -/

/-- Every question is one that may be asked, and whatever the answers are, what the questions cost together
stays within a budget. -/
def Spends {ι : Type} (may : Q → Prop) (cost : Q → Multiset ι) : Dialogue A α → Multiset ι → Prop
  | .done _, _ => True
  | .ask q next, budget => may q ∧ ∃ rest, cost q + rest ≤ budget ∧ ∀ r, (next r).Spends may cost rest

namespace Spends

variable {ι : Type} {may : Q → Prop} {cost : Q → Multiset ι} {b b' b'' : Multiset ι}

/-- Returning a value spends nothing. -/
theorem pure (a : α) : (Pure.pure a : Dialogue A α).Spends may cost b :=
  trivial

/-- A question spends what it costs. -/
theorem ask {q : Q} (h : may q) (hcost : cost q ≤ b) : (Dialogue.ask q .done : Dialogue A (A q)).Spends may cost b :=
  ⟨h, 0, by rwa [add_zero], fun _ => trivial⟩

/-- A budget may be raised. -/
theorem mono {d : Dialogue A α} (h : d.Spends may cost b) (hb : b ≤ b') : d.Spends may cost b' := by
  cases d with
  | done a => trivial
  | ask q next =>
    obtain ⟨hq, rest, hrest, hnext⟩ := h
    exact ⟨hq, rest, hrest.trans hb, hnext⟩

/-- One dialogue after another spends what both spend. -/
theorem bind {d : Dialogue A α} {f : α → Dialogue A β} (h : d.Spends may cost b)
    (hf : ∀ a, (f a).Spends may cost b') : (d >>= f).Spends may cost (b + b') := by
  induction d generalizing b with
  | done a => exact (hf a).mono (Multiset.le_add_left b' b)
  | ask q next ih =>
    obtain ⟨hq, rest, hrest, hnext⟩ := h
    refine ⟨hq, rest + b', ?_, fun r => ih r (hnext r)⟩
    rw [← add_assoc]
    exact add_le_add_left hrest b'

/-- One dialogue after another stays within a budget that covers both. -/
theorem bind_le {d : Dialogue A α} {f : α → Dialogue A β} (h : d.Spends may cost b)
    (hf : ∀ a, (f a).Spends may cost b') (hb : b + b' ≤ b'') : (d >>= f).Spends may cost b'' :=
  (h.bind hf).mono hb

/-- What comes after a dialogue may cost nothing. -/
theorem bind_free {d : Dialogue A α} {f : α → Dialogue A β} (h : d.Spends may cost b)
    (hf : ∀ a, (f a).Spends may cost 0) : (d >>= f).Spends may cost b :=
  h.bind_le hf (add_zero b).le

/-- What comes before a dialogue may cost nothing. -/
theorem free_bind {d : Dialogue A α} {f : α → Dialogue A β} (h : d.Spends may cost 0)
    (hf : ∀ a, (f a).Spends may cost b) : (d >>= f).Spends may cost b :=
  h.bind_le hf (zero_add b).le

/-- Throwing away a result spends nothing more. -/
theorem discard {d : Dialogue A α} (h : d.Spends may cost b) :
    Spends may cost (Functor.discard d) b :=
  h.bind_free fun _ => pure _

/-- What stays within a budget asks only what it may. -/
theorem ensures {right : (q : Q) → A q → Prop} {d : Dialogue A α} (h : d.Spends may cost b) :
    d.Ensures may right fun _ => True := by
  induction d generalizing b with
  | done a => trivial
  | ask q next ih =>
    obtain ⟨hq, rest, -, hnext⟩ := h
    exact ⟨hq, fun r _ => ih r (hnext r)⟩

end Spends

/-! ## The path of the given answers -/

/-- With the answers that `ok` gives, the dialogue comes to an end, and its result has the property. -/
def Reaches (ok : (q : Q) → A q → Prop) : Dialogue A α → (α → Prop) → Prop
  | .done a, P => P a
  | .ask q next, P => ∃ r, ok q r ∧ (next r).Reaches ok P

namespace Reaches

variable {ok : (q : Q) → A q → Prop}

/-- What a dialogue reaches may be weakened. -/
theorem mono {d : Dialogue A α} {P P' : α → Prop} (h : d.Reaches ok P)
    (imp : ∀ a, P a → P' a) : d.Reaches ok P' := by
  induction d with
  | done a => exact imp a h
  | ask q next ih =>
    obtain ⟨r, hr, hnext⟩ := h
    exact ⟨r, hr, ih r hnext⟩

/-- One dialogue after another reaches what the second one does from where the first one leads. -/
theorem bind {d : Dialogue A α} {f : α → Dialogue A β} {P : α → Prop} {P' : β → Prop}
    (h : d.Reaches ok P) (hf : ∀ a, P a → (f a).Reaches ok P') :
    (d >>= f).Reaches ok P' := by
  induction d with
  | done a => exact hf a h
  | ask q next ih =>
    obtain ⟨r, hr, hnext⟩ := h
    exact ⟨r, hr, ih r hnext⟩

/-- The path of two dialogues one after the other is in two parts. -/
theorem of_bind {d : Dialogue A α} {f : α → Dialogue A β} {P : β → Prop}
    (h : (d >>= f).Reaches ok P) : d.Reaches ok fun a => (f a).Reaches ok P := by
  induction d with
  | done a => exact h
  | ask q next ih =>
    obtain ⟨r, hr, hnext⟩ := h
    exact ⟨r, hr, ih r hnext⟩

/-- The path is there for a partner that gives more answers. -/
theorem of_ok {d : Dialogue A α} {P : α → Prop} {ok' : (q : Q) → A q → Prop} (h : d.Reaches ok P)
    (imp : ∀ q r, ok q r → ok' q r) : d.Reaches ok' P := by
  induction d with
  | done a => exact h
  | ask q next ih =>
    obtain ⟨r, hr, hnext⟩ := h
    exact ⟨r, imp q r hr, ih r hnext⟩

/-- At the end of the path, the result also has what is ensured on all paths. -/
theorem ensures {d : Dialogue A α} {P P' : α → Prop} {may : Q → Prop} (h : d.Reaches ok P)
    (h' : d.Ensures may ok P') : d.Reaches ok fun a => P a ∧ P' a := by
  induction d with
  | done a => exact ⟨h, h'⟩
  | ask q next ih =>
    obtain ⟨r, hr, hnext⟩ := h
    exact ⟨r, hr, ih r hnext (h'.2 r hr)⟩

/-- There is a result at the end of the path. -/
theorem result {d : Dialogue A α} {P : α → Prop} (h : d.Reaches ok P) :
    ∃ a, d.Reaches ok (· = a) ∧ P a := by
  induction d with
  | done a => exact ⟨a, rfl, h⟩
  | ask q next ih =>
    obtain ⟨r, hr, hnext⟩ := h
    obtain ⟨a, ha, hP⟩ := ih r hnext
    exact ⟨a, ⟨r, hr, ha⟩, hP⟩

/-- The path that a partner leads along which may have no answer. -/
theorem iff_run {d : Dialogue A α} {partner : (q : Q) → Option (A q)} {a : α} :
    d.Reaches (fun q r => partner q = some r) (· = a) ↔ d.run partner = some a := by
  induction d with
  | done b => exact Option.some_inj.symm
  | ask q next ih => simp only [Reaches, run, Option.bind_eq_bind, Option.bind_eq_some_iff, ih]

end Reaches

/-- The question comes up when the questions before it have the answers that `ok` gives. -/
def Poses (ok : (q : Q) → A q → Prop) : Dialogue A α → Q → Prop
  | .done _, _ => False
  | .ask q next, q' => q' = q ∨ ∃ r, ok q r ∧ (next r).Poses ok q'

/-- A dialogue whose questions all have answers comes to an end. -/
theorem Reaches.of_poses {ok : (q : Q) → A q → Prop} {d : Dialogue A α}
    (h : ∀ q, d.Poses ok q → ∃ r, ok q r) : d.Reaches ok fun _ => True := by
  induction d with
  | done a => trivial
  | ask q next ih =>
    obtain ⟨r, hr⟩ := h q (.inl rfl)
    exact ⟨r, hr, ih r fun q' hq' => h q' (.inr ⟨r, hr, hq'⟩)⟩

end Ceylon.Dialogue
