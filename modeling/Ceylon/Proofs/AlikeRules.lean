import Ceylon.Analysis.Checker.Run
import Ceylon.Proofs.Dialogue
import Ceylon.Proofs.State

/-!
# Rules that differ only in what they report

Two rules are alike (`Alike`) if they ask for the same types and report problems at the same points, though at
other nodes and in other words, and come to the same result.  Nothing that is done for a check depends on the
problems found so far (`Concur`).  So in every state alike rules have the same result, and one of them reports
a problem exactly if the other does (`Alike.applied`).
-/

namespace Ceylon.Analysis

open Model
open Syntax

/-- The rules ask for the same types, report problems at the same points and come to the same result. -/
inductive Alike {α : Type} : Rule α → Rule α → Prop
  | done (a : α) : Alike (.done a) (.done a)
  | typeOf (d : DeclId) {next next' : Option Ty → Rule α} (h : ∀ t, Alike (next t) (next' t)) :
    Alike (.ask (.typeOf d) next) (.ask (.typeOf d) next')
  | problem (n n' : Node) (message message' : String) {next next' : Unit → Rule α}
    (h : Alike (next ()) (next' ())) :
    Alike (.ask (.problem n message) next) (.ask (.problem n' message') next')

namespace Alike

variable {α β : Type}

theorem refl (r : Rule α) : Alike r r := by
  induction r with
  | done a => exact .done a
  | ask q next ih =>
    cases q with
    | typeOf d => exact .typeOf d ih
    | problem n message => exact .problem n n message message (ih ())

theorem bind {r r' : Rule α} {k k' : α → Rule β} (hr : Alike r r') (hk : ∀ a, Alike (k a) (k' a)) :
    Alike (r >>= k) (r' >>= k') := by
  induction hr with
  | done a => exact hk a
  | typeOf d _ ih => exact .typeOf d ih
  | problem n n' message message' _ ih => exact .problem n n' message message' ih

theorem reportAt (n n' : Node) (message message' : String) :
    Alike (reportAt n message) (reportAt n' message') :=
  .problem n n' message message' (.done ())

theorem forM {γ : Type} {as : List γ} {r r' : γ → Rule Unit} (h : ∀ a ∈ as, Alike (r a) (r' a)) :
    Alike (forM as r) (forM as r') := by
  induction as with
  | nil => exact .done ()
  | cons a as ih =>
    obtain ⟨ha, has⟩ := List.forall_mem_cons.mp h
    rw [List.forM_cons, List.forM_cons]
    exact bind ha fun _ => ih has

/-- Whether a problem is reported is part of what alike rules have in common. -/
theorem watched {r r' : Rule α} (h : Alike r r') : Alike (watched r) (watched r') := by
  induction h with
  | done a => exact .done _
  | typeOf d _ ih => exact .typeOf d ih
  | problem n n' message message' _ ih =>
    exact .problem n n' message message' (bind ih fun _ => .done _)

end Alike

/-! ## Problems found before -/

/-- The state without the problems found so far. -/
def State.unreported (s : State) : State :=
  { s with units := s.units.map fun unit => { unit with diagnostics := #[] } }

/-- In states that differ only in the problems found, the actions have the same result, and lead to such
states again. -/
def Concur {α : Type} (m m' : Analyze α) : Prop :=
  ∀ s t, s.unreported = t.unreported →
    (m s).1 = (m' t).1 ∧ (m s).2.unreported = (m' t).2.unreported

theorem report_unreported (u : UnitId) (n : Node) (message : String) (s : State) :
    (report u n message s).2.unreported = s.unreported := by
  let g (unit : UnitState) : UnitState :=
    let d : Diagnostic := ⟨.error, message, some n, some (s.location u n.mark)⟩
    { unit with diagnostics := d.addTo unit.diagnostics }
  have hunits : (s.units.modify u.index g).map (fun unit => { unit with diagnostics := #[] }) =
      s.units.map fun unit => { unit with diagnostics := #[] } :=
    map_modify_of_view_eq s.units u.index fun _ => rfl
  exact congrArg (fun units => { s with units }) hunits

namespace Concur

variable {α β : Type}

theorem pure (a : α) : Concur (Pure.pure a) (Pure.pure a) :=
  fun _ _ h => ⟨rfl, h⟩

theorem bind {m m' : Analyze α} {k k' : α → Analyze β} (hm : Concur m m') (hk : ∀ a, Concur (k a) (k' a)) :
    Concur (m >>= k) (m' >>= k') := by
  intro s t h
  obtain ⟨hresult, hstates⟩ := hm s t h
  change (k (m s).1 (m s).2).1 = (k' (m' t).1 (m' t).2).1 ∧
    (k (m s).1 (m s).2).2.unreported = (k' (m' t).1 (m' t).2).2.unreported
  rw [← hresult]
  exact hk _ _ _ hstates

/-- Reading the state, but for the problems. -/
theorem get_bind {k : State → Analyze β} (hread : ∀ s t, s.unreported = t.unreported → k s = k t)
    (hk : ∀ s, Concur (k s) (k s)) : Concur (get >>= k) (get >>= k) := by
  intro s t h
  change (k s s).1 = (k t t).1 ∧ (k s s).2.unreported = (k t t).2.unreported
  rw [hread s t h]
  exact hk t s t h

/-- Changing the state apart from the problems. -/
theorem modify {g : State → State} (hg : ∀ s, (g s).unreported = g s.unreported) :
    Concur (modify g : Analyze Unit) (modify g) :=
  fun s t h => ⟨rfl, (hg s).trans ((congrArg g h).trans (hg t).symm)⟩

theorem report (u : UnitId) (n n' : Node) (message message' : String) :
    Concur (report u n message) (report u n' message') :=
  fun s t h => ⟨rfl, by rw [report_unreported, report_unreported, h]⟩

theorem run {Q : Type} {A : Q → Type} {partner : (q : Q) → Analyze (A q)}
    (hp : ∀ q, Concur (partner q) (partner q)) (d : Dialogue A α) : Concur (d.run partner) (d.run partner) := by
  induction d with
  | done a => exact pure a
  | ask q next ih => exact bind (hp q) ih

theorem recordInferred (k : NodeId) (t : Ty) :
    Concur (Checking.recordInferred k t) (Checking.recordInferred k t) :=
  modify fun _ => rfl

theorem demandType (f : State) {demand : UnitId → Task → Analyze Unit}
    (hd : ∀ u task, Concur (demand u task) (demand u task)) (d : DeclId) :
    Concur (Checking.demandType f demand d) (Checking.demandType f demand d) := by
  refine get_bind (fun s t h => ?_) fun s => ?_
  · -- The demand looks at these three fields only, and two states that are alike agree on them.
    have hgraph : s.graph = t.graph := congrArg (·.graph) h
    have hinferring : s.inferring = t.inferring := congrArg (·.inferring) h
    have hchecked : s.checked = t.checked := congrArg (·.checked) h
    simp only [hgraph, hinferring, hchecked]
  · simp only
    split
    · exact pure _
    · split
      · exact pure _
      · next u task _ =>
        split
        · exact bind (modify fun _ => rfl) fun _ => pure _
        · split
          · exact pure _
          · refine bind (hd u task) fun _ => get_bind (fun s t h => ?_) fun _ => pure _
            rw [show s.graph = t.graph from congrArg (·.graph) h]

theorem perform (f : State) {demand : UnitId → Task → Analyze Unit}
    (hd : ∀ u task, Concur (demand u task) (demand u task)) (u : UnitId) (act : Act) :
    Concur (Checking.perform f demand u act) (Checking.perform f demand u act) := by
  cases act with
  | ask q =>
    cases q with
    | typeOf d => exact demandType f hd d
    | problem n message => exact report u n n message message
  | settle m t target => exact modify fun _ => rfl
  | infer m t => exact recordInferred _ t
  | visit task => exact hd u task

theorem performTask (f : State) (depth : Nat) (u : UnitId) (task : Task) :
    Concur (Checking.performTask f depth u task) (Checking.performTask f depth u task) := by
  induction depth generalizing u task with
  | zero => exact pure ()
  | succ depth ih =>
    refine get_bind (fun s t h => ?_) fun s => ?_
    · rw [show s.checked = t.checked from congrArg (·.checked) h]
    · split
      · exact pure ()
      · refine bind (modify fun _ => rfl) fun _ => bind (run (perform f ih u) _) fun t =>
          bind (modify fun _ => rfl) fun _ => ?_
        split
        · exact recordInferred _ t
        · exact pure ()

end Concur

/-- Alike rules have the same result in states that differ only in the problems found. -/
theorem Alike.applied {α : Type} {r r' : Rule α} (h : Alike r r') (f : State) (depth : Nat) (u : UnitId) :
    Concur ((applyRule r).run (Checking.perform f (Checking.performTask f depth) u))
      ((applyRule r').run (Checking.perform f (Checking.performTask f depth) u)) := by
  induction h with
  | done a => exact .pure a
  | typeOf d _ ih => exact .bind (.demandType f (.performTask f depth) d) ih
  | problem n n' message message' _ ih => exact .bind (.report u n n' message message') fun _ => ih

end Ceylon.Analysis
