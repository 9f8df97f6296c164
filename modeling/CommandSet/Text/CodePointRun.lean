/-!
# Runs of code points

Character properties are stored as runs of equally spaced code points, and
one-to-one character maps as runs that move by a fixed distance.

Main definitions:

- {lit}`CodePointRun.contains`: membership of a code point in a run.
- {lit}`ShiftedRun.image?`: the image of a code point under a shifted run.
- {lit}`anyContains`, {lit}`firstImage?`: the same for a table of runs.
-/

namespace CommandSet
namespace Text

/-- The code points {lit}`first, first + step, …, last`. -/
structure CodePointRun where
  first : Nat
  last : Nat
  step : Nat
deriving Repr, DecidableEq

/-- A code point belongs to a run when it lies on the run's grid. -/
def CodePointRun.contains (run : CodePointRun) (n : Nat) : Bool :=
  decide (run.first ≤ n) && decide (n ≤ run.last) && (n - run.first) % run.step == 0

/-- A run together with the image of its first code point. -/
structure ShiftedRun where
  first : Nat
  last : Nat
  step : Nat
  target : Nat
deriving Repr, DecidableEq

/-- Every code point of a shifted run moves by the same distance. -/
def ShiftedRun.image? (run : ShiftedRun) (n : Nat) : Option Nat :=
  if (CodePointRun.mk run.first run.last run.step).contains n then
    some (run.target + (n - run.first))
  else
    none

/-- Whether some run of the table holds the code point. -/
def anyContains (table : List CodePointRun) (n : Nat) : Bool :=
  table.any (·.contains n)

/-- The image of a code point under the first run of the table that holds it. -/
def firstImage? (table : List ShiftedRun) (n : Nat) : Option Nat :=
  table.findSome? (·.image? n)

end Text
end CommandSet
