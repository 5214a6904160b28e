import Ceylon.Proofs.Phases

/-!
# The states on the way

A pass of the analysis goes through many states before it ends.  A walk is a pass that keeps them
(`Walk`): it takes the same steps, and before each of them it adds the state to those passed so far.
Forgetting them leaves the pass (`Walk.Traces`), so what is proved of the states of a walk is true of all states
that the pass comes through (`Job.walk_traces`).

An analysis is a list of jobs, done one after the other from the start on (`State.passed`): all states of an
analysis are those that such jobs lead to (`State.Reached.arises`).
-/

namespace Ceylon.Analysis

open Model Syntax

/-- An action that keeps the states it has passed, the last one first. -/
abbrev Walk := StateT (List State) Analyze

namespace Walk

variable {α β : Type}

/-- The state at hand. -/
def look : Walk State :=
  fun past s => ((s, past), s)

/-- Takes a step and adds the state before it to those passed. -/
def step (m : Analyze α) : Walk α :=
  fun past s => (((m s).1, s :: past), (m s).2)

/-! ## Forgetting the states passed -/

/-- Without the states that it keeps, the walk is the action.  It adds the states from the one it begins in to
those passed before. -/
structure Traces (w : Walk α) (m : Analyze α) : Prop where
  result : ∀ past s, ((w past s).1.1, (w past s).2) = m s
  keeps : ∀ past s, ∃ new, (w past s).2 :: (w past s).1.2 = new ++ s :: past

namespace Traces

/-- Returning a value takes no step. -/
theorem pure (a : α) : Traces (Pure.pure a) (Pure.pure a) where
  result _ _ := rfl
  keeps _ _ := ⟨[], rfl⟩

/-- A step is traced as itself. -/
theorem step (m : Analyze α) : Traces (Walk.step m) m where
  result _ _ := rfl
  keeps _ s := ⟨[(m s).2], rfl⟩

/-- One walk after another traces one action after another. -/
theorem bind {w : Walk α} {m : Analyze α} {f : α → Walk β} {g : α → Analyze β} (h : Traces w m)
    (hf : ∀ a, Traces (f a) (g a)) : Traces (w >>= f) (m >>= g) where
  result past s := by
    rw [bind_apply, ← h.result past s]
    exact (hf _).result _ _
  keeps past s := by
    obtain ⟨new, hnew⟩ := h.keeps past s
    obtain ⟨new', hnew'⟩ := (hf (w past s).1.1).keeps (w past s).1.2 (w past s).2
    refine ⟨new' ++ new, ?_⟩
    rw [List.append_assoc, ← hnew]
    exact hnew'

/-- Looking at the state traces reading it. -/
theorem look_bind {f : State → Walk β} {g : State → Analyze β} (hf : ∀ s, Traces (f s) (g s)) :
    Traces (look >>= f) (get >>= g) where
  result past s := (hf s).result past s
  keeps past s := (hf s).keeps past s

/-- A choice is traced by the same choice. -/
theorem ite {c : Prop} [Decidable c] {w w' : Walk α} {m m' : Analyze α} (h : Traces w m) (h' : Traces w' m') :
    Traces (if c then w else w') (if c then m else m') := by
  split
  · exact h
  · exact h'

/-- Throwing away a result is traced the same. -/
theorem discard {w : Walk α} {m : Analyze α} (h : Traces w m) :
    Traces (Functor.discard w) (Functor.discard m) :=
  h.bind fun _ => pure _

/-- Running a dialogue is traced if its answers are. -/
theorem run {Q : Type} {A : Q → Type} {partner : (q : Q) → Walk (A q)} {partner' : (q : Q) → Analyze (A q)}
    (h : ∀ q, Traces (partner q) (partner' q)) (d : Dialogue A α) :
    Traces (d.run partner) (d.run partner') := by
  induction d with
  | done a => exact pure a
  | ask q next ih => exact (h q).bind ih

end Traces

end Walk

open Walk

/-! ## The walks of the passes -/

/-- The walk of making the declarations of a unit. -/
def bindWalk (u : UnitId) : Walk Unit := do
  let unit := (← look).unit u
  if unit.failure.isSome || unit.phase.atLeast .bound then return
  step (logStep u .bound "binding declarations")
  step (modifyUnit u fun unit => { unit with isBound := true })
  (Binding.bindUnit [.package unit.package] unit.tree).run fun q => step (Binding.perform u q)
  step (setPhase u .bound)

/-- The walk of binding traces binding. -/
theorem bindWalk_traces (u : UnitId) : (bindWalk u).Traces (bindDeclarations u) := by
  refine .look_bind fun s => .ite (.pure _) ?_
  exact .bind (.step _) fun _ => .bind (.step _) fun _ => .bind (.run (fun _ => .step _) _) fun _ => .step _

/-- The walk of resolving the names of a unit. -/
def namesWalk (u : UnitId) : Walk (Option Failure) := do
  let s ← look
  let unit := s.unit u
  if unit.failure.isSome then return unit.failure
  if unit.phase.atLeast .namesResolved then return none
  step (logStep u .namesResolved "resolving names")
  match ← (Resolution.resolveUnit s.bound u unit.tree).run.run fun q => step (Resolution.perform u q) with
  | .ok () =>
    step (setPhase u .namesResolved)
    return none
  | .error e =>
    step (fail u (.fatal e))
    return some (.fatal e)

/-- The walk of resolving names traces resolving names. -/
theorem namesWalk_traces (u : UnitId) : (namesWalk u).Traces (resolveNames u) := by
  refine .look_bind fun s => .ite (.pure _) (.ite (.pure _) ?_)
  refine .bind (.step _) fun _ => .bind (.run (fun _ => .step _) _) fun r => ?_
  cases r with
  | ok _ => exact .bind (.step _) fun _ => .pure _
  | error e => exact .bind (.step _) fun _ => .pure _

namespace Checking

/-- The walk of finding the type of a declaration. -/
def demandWalk (f : State) (demand : UnitId → Task → Walk Unit) (d : DeclId) : Walk (Option Ty) := do
  let s ← look
  let d := f.graph.principal d
  let t := s.graph.typeOf d
  if t.isKnown then return some t
  match f.inference? d with
  | none => return some .unknown
  | some (u, task) =>
    let k : NodeId := ⟨u, task.mark.id⟩
    if s.inferring.contains k then
      step (modify fun s => { s with circular := d :: s.circular })
      return none
    if s.checked.contains k then return some .unknown
    demand u task
    return some ((← look).graph.typeOf d)

/-- The walk of demanding a type traces demanding it. -/
theorem demandWalk_traces (f : State) {demand : UnitId → Task → Walk Unit}
    {demand' : UnitId → Task → Analyze Unit} (h : ∀ u task, (demand u task).Traces (demand' u task)) (d : DeclId) :
    (demandWalk f demand d).Traces (demandType f demand' d) := by
  refine .look_bind fun s => .ite (.pure _) ?_
  cases f.inference? (f.graph.principal d) with
  | none => exact .pure _
  | some p =>
    refine .ite (.bind (.step _) fun _ => .pure _) (.ite (.pure _) ?_)
    exact .bind (h _ _) fun _ => .look_bind fun _ => .pure _

/-- The walk of a step of a check. -/
def actWalk (f : State) (demand : UnitId → Task → Walk Unit) (u : UnitId) : (act : Act) → Walk act.Answer
  | .ask (.typeOf d) => demandWalk f demand d
  | .ask (.problem n message) => step (report u n message)
  | .settle m t target => step (recordExpr ⟨u, m.id⟩ t target)
  | .infer m t => step (recordInferred ⟨u, m.id⟩ t)
  | .visit task => demand u task

/-- The walk of an act traces the act. -/
theorem actWalk_traces (f : State) {demand : UnitId → Task → Walk Unit}
    {demand' : UnitId → Task → Analyze Unit} (h : ∀ u task, (demand u task).Traces (demand' u task)) (u : UnitId)
    (act : Act) : (actWalk f demand u act).Traces (perform f demand' u act) := by
  cases act with
  | ask q =>
    cases q with
    | typeOf d => exact demandWalk_traces f h d
    | problem n message => exact .step _
  | settle m t target => exact .step _
  | infer m t => exact .step _
  | visit task => exact h u task

/-- The walk of a task. -/
def taskWalk (f : State) : (depth : Nat) → UnitId → Task → Walk Unit
  | 0, _, _ => return
  | depth + 1, u, task => do
    let k : NodeId := ⟨u, task.mark.id⟩
    if (← look).checked.contains k then return
    step (modify fun s =>
      { s with
        checked := s.checked.insert k
        inferring := if task.isInference then k :: s.inferring else s.inferring })
    let t ← (task.check f u).run (actWalk f (taskWalk f depth) u)
    step (modify fun s => { s with inferring := s.inferring.erase k })
    if task.givesType then step (recordInferred k t)

/-- The walk of a task traces checking it. -/
theorem taskWalk_traces (f : State) (depth : Nat) (u : UnitId) (task : Task) :
    (taskWalk f depth u task).Traces (performTask f depth u task) := by
  induction depth generalizing u task with
  | zero => exact .pure _
  | succ depth ih =>
    refine .look_bind fun s => .ite (.pure _) ?_
    refine .bind (.step _) fun _ => .bind (.run (actWalk_traces f ih u) _) fun t => .bind (.step _) fun _ => ?_
    exact .ite (.step _) (.pure _)

end Checking

/-- The walk of checking the expressions of a unit. -/
def checkWalk (u : UnitId) : Walk Unit := do
  let s ← look
  let unit := s.unit u
  if unit.failure.isSome || unit.phase ≠ .namesResolved then return
  step (logStep u .checked "checking expressions")
  Checking.taskWalk s.facts (s.decls.size + 2) u (.unit unit.tree)
  step (setPhase u .checked)

/-- The walk of checking a unit traces checking it. -/
theorem checkWalk_traces (u : UnitId) : (checkWalk u).Traces (checkExpressions u) := by
  refine .look_bind fun s => .ite (.pure _) ?_
  exact .bind (.step _) fun _ => .bind (Checking.taskWalk_traces _ _ _ _) fun _ => .step _

/-! ## Jobs -/

/-- What an analysis can be asked to do. -/
inductive Job where
  /-- Making a package with the given name, if there is none. -/
  | package (name : List String)
  /-- Making a package one of a module. -/
  | own (m : ModuleId) (p : PackageId)
  /-- Making a module depend on another one. -/
  | dependency (m dep : ModuleId)
  /-- Adding a unit to a package. -/
  | unit (path : String) (source : Source) (glyphs : List Text.Glyph) (p : PackageId)
  /-- Adding the bottom type and finding the declarations of the language package. -/
  | builtins (p : PackageId)
  /-- Stopping the analysis of a unit. -/
  | fail (u : UnitId) (failure : Failure)
  /-- A pass on a unit. -/
  | pass (call : Call)
  /-- Resolving the dependencies of all modules. -/
  | dependencies
  /-- Keeping the log, the trace and the way through the source tree. -/
  | journal (stack : Option (PathStack ModuleId)) (log : Array LogEntry) (trace : Array TraceEvent)

namespace Job

/-- The action of a job. -/
def run : Job → Analyze Unit
  | .package name => discard (packageNamed name)
  | .own m p => modifyGraph (·.addPackage m p)
  | .dependency m dep => modifyGraph (·.addDependency m dep)
  | .unit path source glyphs p => discard (addUnit path (readUnit source glyphs).unit p)
  | .builtins p => modify fun s =>
    { s with builtins := (Builtins.load s.graph p).1, graph := (Builtins.load s.graph p).2 }
  | .fail u failure => Analysis.fail u failure
  | .pass c => c.pass.run c.unit
  | .dependencies => resolveDependencies
  | .journal stack log trace => modify fun s => { s with stack, log, trace }

/-- The walk of a job.  What concerns no node is taken in one step. -/
def walk : Job → Walk Unit
  | .pass ⟨.bind, u⟩ => bindWalk u
  | .pass ⟨.names, u⟩ => discard (namesWalk u)
  | .pass ⟨.check, u⟩ => checkWalk u
  | j => step j.run

/-- The walk of a job traces the job. -/
theorem walk_traces (j : Job) : j.walk.Traces j.run := by
  cases j with
  | pass c =>
    obtain ⟨p, u⟩ := c
    cases p with
    | bind => exact bindWalk_traces u
    | module => exact .step _
    | names => exact (namesWalk_traces u).discard
    | check => exact checkWalk_traces u
  | _ => exact .step _

/-- Only a unit that is there is bound. -/
def Fits (s : State) : Job → Prop
  | .pass ⟨.bind, u⟩ => u.index < s.units.size
  | _ => True

/-- The action of jobs one after the other. -/
def runAll (jobs : List Job) : Analyze Unit :=
  jobs.forM run

/-- The walk of jobs one after the other. -/
def walkAll (jobs : List Job) : Walk Unit :=
  jobs.forM walk

/-- The walk of jobs traces them all. -/
theorem walkAll_traces (jobs : List Job) : (walkAll jobs).Traces (runAll jobs) := by
  induction jobs with
  | nil => exact .pure _
  | cons j jobs ih => exact .bind j.walk_traces fun _ => ih

end Job

namespace State

/-- Each of several jobs can be done when its turn comes. -/
def Admits (s : State) : List Job → Prop
  | [] => True
  | j :: jobs => j.Fits s ∧ (j.run s).2.Admits jobs

/-- The state of an analysis of which nothing has been done, not even for the language module. -/
def start : State :=
  { graph := startingGraph }

end State

/-- The states that jobs come through, from the state before them to the one that they lead to. -/
def State.passed (s : State) (jobs : List Job) : List State :=
  ((Job.walkAll jobs [] s).2 :: (Job.walkAll jobs [] s).1.2).reverse

/-- The first state that jobs pass is where they begin. -/
theorem State.head?_passed (s : State) (jobs : List Job) : (s.passed jobs).head? = some s := by
  obtain ⟨new, hnew⟩ := (Job.walkAll_traces jobs).keeps [] s
  rw [passed, List.head?_reverse, hnew, List.getLast?_concat]

/-- The last state that jobs pass is where they end. -/
theorem State.getLast?_passed (s : State) (jobs : List Job) :
    (s.passed jobs).getLast? = some (Job.runAll jobs s).2 := by
  rw [passed, List.getLast?_reverse, List.head?_cons, ← (Job.walkAll_traces jobs).result [] s]

/-! ## The states that jobs lead to -/

/-- One more job may follow if it fits the state that the others lead to. -/
theorem State.Admits.concat {s : State} {jobs : List Job} {j : Job} (h : s.Admits jobs)
    (hj : j.Fits (Job.runAll jobs s).2) : s.Admits (jobs ++ [j]) := by
  induction jobs generalizing s with
  | nil => exact ⟨hj, trivial⟩
  | cons j' jobs ih => exact ⟨h.1, ih h.2 hj⟩

/-- The last of several jobs is run in the state that the others lead to. -/
theorem Job.runAll_concat (jobs : List Job) (j : Job) (s : State) :
    (runAll (jobs ++ [j]) s).2 = (j.run (runAll jobs s).2).2 := by
  induction jobs generalizing s with
  | nil => rfl
  | cons j' jobs ih => exact ih (j'.run s).2

/-- Jobs lead to the state, from the start of an analysis on. -/
def State.Arises (s : State) : Prop :=
  ∃ jobs, start.Admits jobs ∧ (Job.runAll jobs start).2 = s

/-- A job leads from a state that arises to one that does. -/
theorem State.Arises.next {s : State} {j : Job} (hj : j.Fits s) (h : s.Arises) : (j.run s).2.Arises := by
  obtain ⟨jobs, hjobs, rfl⟩ := h
  exact ⟨jobs ++ [j], hjobs.concat hj, Job.runAll_concat ..⟩

/-- The first state arises. -/
theorem State.initial_arises : State.initial.Arises := by
  have hstart : State.start.Arises := ⟨[], trivial, rfl⟩
  change (analyzeLanguage languageTree State.start).2.Arises
  rw [analyzeLanguage, bind_apply, bind_apply, bind_apply, bind_apply, bind_apply, bind_apply, bind_apply, bind_apply]
  refine .next (j := .dependency _ _) trivial (.next (j := .pass ⟨.check, _⟩) trivial ?_)
  refine .next (j := .pass ⟨.names, _⟩) trivial (.next (j := .pass ⟨.module, _⟩) trivial ?_)
  refine .next (j := .builtins _) trivial (.next (j := .pass ⟨.bind, _⟩) ?_ ?_)
  · exact (Nat.lt_succ_self _).trans_eq (Array.size_push _).symm
  · exact .next (j := .unit _ ⟨languageFile, ""⟩ _ _) trivial (.next (j := .own _ _) trivial
      (.next (j := .package _) trivial hstart))

/-- Jobs lead to all states of an analysis. -/
theorem State.Reached.arises {s : State} (h : s.Reached) : s.Arises := by
  induction h with
  | initial => exact State.initial_arises
  | package name _ ih => exact ih.next (j := .package name) trivial
  | own m p _ ih => exact ih.next (j := .own m p) trivial
  | unit path source glyphs p _ ih => exact ih.next (j := .unit path source glyphs p) trivial
  | fail u failure _ ih => exact ih.next (j := .fail u failure) trivial
  | bind hu _ ih => exact ih.next (j := .pass ⟨.bind, _⟩) hu
  | module u _ ih => exact ih.next (j := .pass ⟨.module, u⟩) trivial
  | dependencies _ ih => exact ih.next (j := .dependencies) trivial
  | names u _ ih => exact ih.next (j := .pass ⟨.names, u⟩) trivial
  | check u _ ih => exact ih.next (j := .pass ⟨.check, u⟩) trivial
  | walk stack log trace _ ih => exact ih.next (j := .journal stack log trace) trivial

end Ceylon.Analysis
