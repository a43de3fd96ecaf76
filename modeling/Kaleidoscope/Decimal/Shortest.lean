import Kaleidoscope.Decimal

/-!
# The shortest decimal that reads back

A number is written with the fewest digits that still read back as that number. Fewest digits is the
same as the coarsest grid: of all powers of ten whose multiples include a decimal that reads back,
take the greatest.

## Searching the grids

One unit, `2 ^ -1074`, is `5 ^ 1074` steps of `10 ^ -1074`, so on that grid every finite number is
exact. Coarser grids are tried from the top. Reading is monotone, so
if any multiple of `10 ^ k` reads back, one of the two neighbours of the number on that grid does,
and only those two are tested, the nearer one first and the upper one of two equally near.

That the result reads back is not a matter of having searched well: every candidate is tested by
reading it, and the last resort is the exact decimal.

## Main definitions

* `Binary64.abs` — the number without its sign
* `Binary64.exactDecimal` — the magnitude, exactly
* `Binary64.neighbours`, `Binary64.onGrid` — the two candidates on one grid, and the best that reads
  back
* `Binary64.shortest` — the shortest decimal that reads back
-/

namespace Kaleidoscope

namespace Binary64

/-- The number with its sign bit clear. -/
def abs (x : Binary64) : Binary64 := ⟨x.bits % 0x8000000000000000⟩

/-- How many steps of `10 ^ -1074` make one unit of `2 ^ -1074`. -/
def decimalStepsPerUnit : Nat := Nat.pow 5 1074

/-- The magnitude of a finite number in steps of `10 ^ -1074`. -/
def decimalSteps (x : Binary64) : Nat := x.units * decimalStepsPerUnit

/-- The magnitude of a finite number as a decimal, exactly. -/
def exactDecimal (x : Binary64) : Decimal := ⟨x.decimalSteps, -1074⟩

/-- The multiples of `10 ^ k` steps next below the number and next above it, the nearer one first, and
the upper one first if they are equally near. -/
def neighbours (x : Binary64) (k : Nat) : List Decimal :=
  let step := Nat.pow 10 k
  let below : Decimal := ⟨x.decimalSteps / step, k - 1074⟩
  let above : Decimal := ⟨x.decimalSteps / step + 1, k - 1074⟩
  if 2 * (x.decimalSteps % step) < step then [below, above] else [above, below]

/-- The nearest decimal on the grid of `10 ^ k` steps that reads back, if one does. -/
def onGrid (x : Binary64) (k : Nat) : Option Decimal :=
  (x.neighbours k).find? fun d => d.nearest = x.abs

/-- The decimal on the coarsest grid, from `10 ^ k` steps down, that holds one that reads back. -/
def onCoarsestGrid (x : Binary64) : Nat → Decimal
  | 0 => x.exactDecimal
  | k + 1 => (x.onGrid (k + 1)).getD (onCoarsestGrid x k)

/-- A grid at least as coarse as the leading digit of `n`, as `log₁₀ 2` is below `0.30103`. -/
def topGrid (n : Nat) : Nat := n.log2 * 30103 / 100000 + 2

/-- The shortest decimal that reads back as the magnitude of a finite number. -/
def shortest (x : Binary64) : Decimal :=
  if x.isZero then ⟨0, 0⟩ else x.onCoarsestGrid (topGrid x.decimalSteps)

/-- What a grid offers reads back. -/
theorem nearest_of_onGrid_eq_some {x : Binary64} {k : Nat} {d : Decimal}
    (h : x.onGrid k = some d) : d.nearest = x.abs := by
  simpa using List.find?_some h

end Binary64

end Kaleidoscope
