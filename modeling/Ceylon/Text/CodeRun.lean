/-!
# Runs of code points

Sets of characters are given as runs of code points.  Alternating scripts have their upper-case letters at
every second place, so a run may leave out code points at equal distances.
-/

namespace Ceylon.Text

/-- Code points from a first to a last one at equal distances. -/
structure CodeRun where
  first : Nat
  last : Nat
  step : Nat := 1
deriving DecidableEq, Repr, Inhabited

/-- Whether a code point belongs to the run. -/
def CodeRun.has (r : CodeRun) (n : Nat) : Bool :=
  r.first ≤ n && n ≤ r.last && (n - r.first) % r.step == 0

/-- Whether a code point belongs to some run of a table. -/
def inRuns (table : Array CodeRun) (n : Nat) : Bool :=
  table.any (·.has n)

/-- Whether some range of a table holds a code point. -/
def inRanges (table : Array (Nat × Nat)) (n : Nat) : Bool :=
  table.any fun (lo, hi) => lo ≤ n && n ≤ hi

end Ceylon.Text
