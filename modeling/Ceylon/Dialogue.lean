/-!
# Dialogues

A `Dialogue` is a computation that asks questions on its way and goes on with the answers.  What it asks
depends on nothing but the answers so far, so that one dialogue can be led with different partners: with
one that looks the answers up in a state and changes it, or with one that only knows some of them.  The
passes of the analysis and the rules of the type algebra are written as dialogues, and run by the parts
that answer their questions.
-/

namespace Ceylon

/-- A computation of an `α` that asks questions `q : Q`, each answered by an `A q`. -/
inductive Dialogue {Q : Type} (A : Q → Type) (α : Type) where
  /-- The result is known. -/
  | done (a : α)
  /-- A question, and how to go on with the answer. -/
  | ask (q : Q) (next : A q → Dialogue A α)

namespace Dialogue

variable {Q : Type} {A : Q → Type} {α β : Type}

/-- One dialogue after another. -/
def bind : Dialogue A α → (α → Dialogue A β) → Dialogue A β
  | .done a, f => f a
  | .ask q next, f => .ask q fun r => (next r).bind f

instance : Monad (Dialogue A) where
  pure := .done
  bind := bind

/-- Leads the dialogue with a partner that answers in a monad. -/
def run {m : Type → Type} [Monad m] (partner : (q : Q) → m (A q)) : Dialogue A α → m α
  | .done a => pure a
  | .ask q next => do (next (← partner q)).run partner

/-- Asks other questions in place of each question. -/
def translate {Q' : Type} {A' : Q' → Type} (f : (q : Q) → Dialogue A' (A q)) :
    Dialogue A α → Dialogue A' α
  | .done a => .done a
  | .ask q next => (f q).bind fun r => (next r).translate f

end Dialogue

end Ceylon
