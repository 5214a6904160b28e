import Ceylon.Analysis.PathStack

/-!
# Marked paths

The plain picture of the way through a source tree is a path whose directories carry marks: a directory is
entered without a mark, is marked when it is claimed, and takes its mark with it when it is left (`MarkedPath`).
A `PathStack` keeps a single claim with its depth instead.  It is a view of the marked path (`MarkedPath.stack`):
whatever is done, both do the same, with the same faults (`PathStack.run?_stack`).  So there is a claim exactly if
a directory on the path is marked, and its name is the path down to that directory (`PathStack.run?_refines`).
-/

namespace Ceylon.Analysis

/-- A directory on a path, with what it has been claimed for since it was entered. -/
structure MarkedPath.Directory (α : Type) where
  segment : String
  mark : Option α := none
deriving DecidableEq, Repr

/-- A path of directories from the current one outward to the root. -/
abbrev MarkedPath (α : Type) := List (MarkedPath.Directory α)

/-- What is done on the way through a source tree. -/
inductive PathStack.Action (α : Type) where
  | push (segment : String)
  | pop
  | define (value : α)
deriving DecidableEq, Repr

variable {α : Type}

/-! ## Acting on marked paths -/

namespace MarkedPath

/-- The names of the directories from the root to the current one. -/
def names (p : MarkedPath α) : List String :=
  (p.map (·.segment)).reverse

/-- The innermost marked directory, with those around it. -/
def marked? : MarkedPath α → Option (α × MarkedPath α)
  | [] => none
  | d :: outer =>
    match d.mark with
    | some value => some (value, d :: outer)
    | none => marked? outer

/-- No two directories are marked. -/
def Sole (p : MarkedPath α) : Prop :=
  p.Pairwise fun d d' => d.mark = none ∨ d'.mark = none

/-- Acts on a path.  The answer is what is wrong with a claim; the root cannot be left. -/
def act? (p : MarkedPath α) : PathStack.Action α → Option (MarkedPath α × Option ClaimFault)
  | .push segment => some (⟨segment, none⟩ :: p, none)
  | .pop =>
    match p with
    | [] => none
    | _ :: outer => some (outer, none)
  | .define value =>
    match p.marked? with
    | some (_, claimed) => some (p, some (.nested (".".intercalate claimed.names) (".".intercalate p.names)))
    | none =>
      match p with
      | [] => some ([], some .topLevel)
      | d :: outer => some ({ d with mark := some value } :: outer, none)

/-- What a `PathStack` keeps of a marked path. -/
def stack (p : MarkedPath α) : PathStack α where
  segments := p.names
  claim := p.marked?.map fun (value, claimed) => ⟨claimed.names, claimed.length, value⟩

@[simp] theorem names_cons (d : Directory α) (p : MarkedPath α) : names (d :: p) = p.names ++ [d.segment] := by
  simp [names]

@[simp] theorem length_names (p : MarkedPath α) : p.names.length = p.length := by
  simp [names]

theorem marked?_eq_none_iff {p : MarkedPath α} : p.marked? = none ↔ ∀ d ∈ p, d.mark = none := by
  induction p with
  | nil => simp [marked?]
  | cons d outer ih =>
    cases h : d.mark with
    | none => simpa [marked?, h] using ih
    | some value => simp [marked?, h]

/-- What is found is a marked directory on the path. -/
theorem exists_of_marked? {p claimed : MarkedPath α} {value : α} (h : p.marked? = some (value, claimed)) :
    ∃ inner d outer, p = inner ++ d :: outer ∧ claimed = d :: outer ∧ d.mark = some value := by
  induction p with
  | nil => cases h
  | cons d outer ih =>
    rw [marked?] at h
    split at h
    · next hmark =>
      cases h
      exact ⟨[], d, outer, rfl, rfl, hmark⟩
    · obtain ⟨inner, d', outer', rfl, rfl, hmark⟩ := ih h
      exact ⟨d :: inner, d', outer', rfl, rfl, hmark⟩

/-- Where no two directories are marked, the one that is marked is found. -/
theorem marked?_of_mark {inner outer : MarkedPath α} {d : Directory α} {value : α}
    (hsole : Sole (inner ++ d :: outer)) (hmark : d.mark = some value) :
    marked? (inner ++ d :: outer) = some (value, d :: outer) := by
  induction inner with
  | nil => simp [marked?, hmark]
  | cons d' inner ih =>
    rw [List.cons_append, Sole, List.pairwise_cons] at hsole
    have hd' : d'.mark = none := by
      have := hsole.1 d (by simp)
      simpa [hmark] using this
    simpa [marked?, hd'] using ih hsole.2

/-- Acting keeps that no two directories are marked: only an unmarked path gets a mark. -/
theorem Sole.act {p p' : MarkedPath α} {a : PathStack.Action α} {fault : Option ClaimFault}
    (hp : p.Sole) (h : p.act? a = some (p', fault)) : p'.Sole := by
  cases a with
  | push segment =>
    cases h
    exact List.pairwise_cons.mpr ⟨fun _ _ => .inl rfl, hp⟩
  | pop =>
    cases p with
    | nil => cases h
    | cons d outer =>
      cases h
      exact (List.pairwise_cons.mp hp).2
  | define value =>
    simp only [act?] at h
    split at h
    · cases h
      exact hp
    next hunmarked =>
    cases p with
    | nil =>
      cases h
      exact .nil
    | cons d outer =>
      cases h
      -- A mark is set only if there is none on the path, so it is the only one.
      have hnone := marked?_eq_none_iff.mp hunmarked
      refine List.pairwise_cons.mpr ⟨fun d' hd' => .inr (hnone d' (List.mem_cons_of_mem d hd')), ?_⟩
      exact (List.pairwise_cons.mp hp).2

end MarkedPath

/-! ## Acting on stacks -/

namespace PathStack

/-- Acts on a stack.  The answer is what is wrong with a claim, which then changes nothing. -/
def act? (s : PathStack α) : Action α → Option (PathStack α × Option ClaimFault)
  | .push segment => some (s.push segment, none)
  | .pop => s.pop?.map (·, none)
  | .define value =>
    match s.define value with
    | .ok s => some (s, none)
    | .error fault => some (s, some fault)

/-- Leaving the current directory gives up its mark, and no other. -/
theorem pop?_stack {d : MarkedPath.Directory α} {outer : MarkedPath α} (hp : MarkedPath.Sole (d :: outer)) :
    (MarkedPath.stack (d :: outer)).pop? = some (MarkedPath.stack outer) := by
  have hpop : (MarkedPath.stack (d :: outer)).pop? =
      some ⟨outer.names, (MarkedPath.stack (d :: outer)).claim.filter fun c => c.depth ≤ outer.length⟩ := by
    simp [pop?, MarkedPath.stack]
  rw [hpop, MarkedPath.stack]
  congr 2
  cases hmark : d.mark with
  | some value =>
    -- The mark belongs to the current directory, so none of those around it has one.
    have houter : outer.marked? = none := MarkedPath.marked?_eq_none_iff.mpr fun d' hd' => by
      simpa [hmark] using (List.pairwise_cons.mp hp).1 d' hd'
    simp [MarkedPath.marked?, hmark, houter]
  | none =>
    cases houter : outer.marked? with
    | none => simp [MarkedPath.marked?, hmark, houter]
    | some found =>
      obtain ⟨value, claimed⟩ := found
      obtain ⟨inner, d', outer', rfl, rfl, -⟩ := MarkedPath.exists_of_marked? houter
      simp [MarkedPath.marked?, hmark, houter]

/-- A stack shows what is done to the marked path: it changes to the view of the changed path, with the same
fault. -/
theorem act?_stack {p : MarkedPath α} (hp : p.Sole) (a : Action α) :
    act? (MarkedPath.stack p) a = (p.act? a).map fun (p, fault) => (MarkedPath.stack p, fault) := by
  cases a with
  | push segment => simp [act?, push, MarkedPath.act?, MarkedPath.stack, MarkedPath.marked?]
  | pop =>
    cases p with
    | nil => rfl
    | cons d outer => simp [act?, MarkedPath.act?, pop?_stack hp]
  | define value =>
    cases hmarked : p.marked? with
    | some found => simp [act?, define, MarkedPath.act?, MarkedPath.stack, hmarked, name]
    | none =>
      -- Without a mark there is no claim, and a new one names the whole path.
      have hstack : MarkedPath.stack p = ⟨p.names, none⟩ := by rw [MarkedPath.stack, hmarked, Option.map_none]
      cases p with
      | nil => rfl
      | cons d outer =>
        have hact : MarkedPath.act? (d :: outer) (.define value) =
            some ({ d with mark := some value } :: outer, none) := by
          simp only [MarkedPath.act?, hmarked]
        rw [hstack, hact]
        simp [act?, define, MarkedPath.stack, MarkedPath.marked?]

/-! ## Runs -/

/-- Acts on a stack several times.  The answer has what was wrong each time. -/
def run? (s : PathStack α) : List (Action α) → Option (PathStack α × List (Option ClaimFault))
  | [] => some (s, [])
  | a :: as => do
    let (s, fault) ← s.act? a
    let (s, faults) ← s.run? as
    return (s, fault :: faults)

end PathStack

/-- Acts on a marked path several times. -/
def MarkedPath.run? (p : MarkedPath α) :
    List (PathStack.Action α) → Option (MarkedPath α × List (Option ClaimFault))
  | [] => some (p, [])
  | a :: as => do
    let (p, fault) ← p.act? a
    let (p, faults) ← MarkedPath.run? p as
    return (p, fault :: faults)

/-- Acting keeps that no two directories are marked. -/
theorem MarkedPath.Sole.run {p p' : MarkedPath α} {as : List (PathStack.Action α)}
    {faults : List (Option ClaimFault)} (hp : p.Sole) (h : p.run? as = some (p', faults)) : p'.Sole := by
  induction as generalizing p faults with
  | nil =>
    cases h
    exact hp
  | cons a as ih =>
    obtain ⟨⟨p₁, fault⟩, hact, h⟩ := Option.bind_eq_some_iff.mp h
    obtain ⟨⟨p₂, faults'⟩, hrun, h⟩ := Option.bind_eq_some_iff.mp h
    cases h
    exact ih (hp.act hact) hrun

namespace PathStack

/-- A stack shows all that is done to the marked path. -/
theorem run?_stack {p : MarkedPath α} (hp : p.Sole) (as : List (Action α)) :
    run? (MarkedPath.stack p) as = (p.run? as).map fun (p, faults) => (MarkedPath.stack p, faults) := by
  induction as generalizing p with
  | nil => rfl
  | cons a as ih =>
    rw [run?, act?_stack hp, MarkedPath.run?]
    cases hact : p.act? a with
    | none => rfl
    | some next =>
      obtain ⟨p', fault⟩ := next
      have hrest := ih (hp.act hact)
      simp only [Option.map_some, Option.bind_eq_bind, Option.bind_some, hrest]
      cases p'.run? as <;> rfl

/-- The current directory can be claimed exactly if it is not the root and there is no claim. -/
theorem define_succeeds_iff (s : PathStack α) (value : α) :
    (∃ s', s.define value = .ok s') ↔ s.segments ≠ [] ∧ s.claim = none := by
  obtain ⟨segments, claim⟩ := s
  cases claim with
  | some c => simp [define]
  | none => cases segments <;> simp [define]

/-- A stack refines a path with marks.  From the root on, whatever is done, the stack does the same as the
marked path, with the same faults.  There is a claim exactly if a directory on the path has been claimed since
it was entered; no two directories have been, and the claim is named by the path to that directory.  The
current directory can be claimed exactly if it is not the root and there is no claim, and otherwise nothing
changes. -/
theorem run?_refines {as : List (Action α)} {s : PathStack α} {faults : List (Option ClaimFault)}
    (h : run? {} as = some (s, faults)) :
    ∃ p : MarkedPath α, MarkedPath.run? [] as = some (p, faults) ∧ s.segments = p.names ∧ p.Sole ∧
      (s.claim.isSome = true ↔ ∃ d ∈ p, d.mark.isSome = true) ∧
      (∀ inner d outer value, p = inner ++ d :: outer → d.mark = some value →
        s.claim = some ⟨MarkedPath.names (d :: outer), (d :: outer).length, value⟩ ∧
          MarkedPath.names (d :: outer) <+: s.segments) ∧
      ∀ value, ((∃ s', s.define value = .ok s') ↔ s.segments ≠ [] ∧ s.claim = none) ∧
        ∀ fault, s.define value = .error fault → s.act? (.define value) = some (s, some fault) := by
  have hstart : ({} : PathStack α) = MarkedPath.stack [] := rfl
  have hnone : MarkedPath.Sole ([] : MarkedPath α) := .nil
  rw [hstart, run?_stack hnone] at h
  obtain ⟨⟨p, faults'⟩, hrun, h⟩ := Option.map_eq_some_iff.mp h
  cases h
  have hsole := hnone.run hrun
  refine ⟨p, hrun, rfl, hsole, ?_, ?_, fun value => ⟨define_succeeds_iff _ value, fun fault hfault => ?_⟩⟩
  · simp [MarkedPath.stack, Option.isSome_iff_ne_none, MarkedPath.marked?_eq_none_iff]
  · -- A marked directory is the one that the claim names, because there is no other.
    rintro inner d outer value rfl hmark
    refine ⟨by simp [MarkedPath.stack, MarkedPath.marked?_of_mark hsole hmark], ?_⟩
    exact ⟨MarkedPath.names inner, by simp [MarkedPath.stack, MarkedPath.names]⟩
  · simp only [act?, hfault]

/-- The directory `a` is claimed, left, and entered anew; then its folder `b` can be claimed. -/
theorem run?_refines_again :
    run? {} [.push "a", .define 1, .pop, .push "a", .push "b", .define 2, .define 3] =
        some (⟨["a", "b"], some ⟨["a", "b"], 2, 2⟩⟩,
          [none, none, none, none, none, none, some (.nested "a.b" "a.b")]) ∧
      ∃ p : MarkedPath Nat, p.names = ["a", "b"] ∧ p.Sole ∧ ∃ d ∈ p, d.mark.isSome = true := by
  have hrun : run? {} [.push "a", .define 1, .pop, .push "a", .push "b", .define 2, .define 3] =
      some (⟨["a", "b"], some ⟨["a", "b"], 2, 2⟩⟩,
        [none, none, none, none, none, none, some (.nested "a.b" "a.b")]) := by
    decide
  obtain ⟨p, -, hnames, hsole, hclaim, -⟩ := run?_refines hrun
  exact ⟨hrun, p, hnames.symm, hsole, hclaim.mp rfl⟩

end PathStack

end Ceylon.Analysis
