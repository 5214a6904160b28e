/-!
# The way through a source tree

While the directories of a source tree are walked, a `PathStack` keeps the names of the directories from
the root to the current one, and the module that one of them has been claimed for.  At most one directory
on the way may be claimed, and the root never; leaving the claimed directory gives the claim up.
-/

namespace Ceylon.Analysis

/-- A directory claimed for a module. -/
structure Claim (α : Type) where
  /-- The path of the directory, which is the name of the module. -/
  name : List String
  /-- The number of directories from the root to the claimed one. -/
  depth : Nat
  /-- What the claim stands for. -/
  value : α
deriving DecidableEq, Repr

/-- The directories from the root to the current one. -/
structure PathStack (α : Type) where
  segments : List String := []
  claim : Option (Claim α) := none
deriving DecidableEq, Repr

/-- Why a directory cannot be claimed. -/
inductive ClaimFault where
  /-- A directory around it is claimed already. -/
  | nested (outer inner : String)
  /-- It is the root. -/
  | topLevel
deriving DecidableEq, Repr

/-- The wording of a fault. -/
def ClaimFault.message : ClaimFault → String
  | .nested outer inner =>
    "Found two modules within the same hierarchy: '" ++ outer ++ "' and '" ++ inner ++ "'"
  | .topLevel => "Module cannot be top level"

namespace PathStack

variable {α : Type}

/-- The dotted name of the current directory. -/
def name (s : PathStack α) : String :=
  ".".intercalate s.segments

/-- Enters a directory. -/
def push (s : PathStack α) (segment : String) : PathStack α :=
  { s with segments := s.segments ++ [segment] }

/-- What is wrong with leaving the root. -/
def popFault : String :=
  "analysis: pop of empty scope stack"

/-- Leaves the current directory; the root cannot be left. -/
def pop? (s : PathStack α) : Option (PathStack α) :=
  match s.segments with
  | [] => none
  | segments =>
    let segments := segments.dropLast
    some { segments, claim := s.claim.filter fun c => c.depth ≤ segments.length }

/-- Claims the current directory. -/
def define (s : PathStack α) (value : α) : Except ClaimFault (PathStack α) :=
  match s.claim with
  | some c => .error (.nested (".".intercalate c.name) s.name)
  | none =>
    if s.segments.isEmpty then .error .topLevel
    else .ok { s with claim := some ⟨s.segments, s.segments.length, value⟩ }

end PathStack

end Ceylon.Analysis
