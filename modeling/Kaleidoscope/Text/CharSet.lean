/-!
# Sets of characters

A class of characters that a standard defines is data: a list of ranges of code points. Keeping it
as a value, rather than as a chain of tests, lets a table be read beside the standard it comes from
and lets every class share one membership test.

## Main definitions

* `CharSet` — a set of characters, given by its ranges
* `CharSet.contains` — membership

## Main results

* `CharSet.contains_iff` — a character is in the set exactly when one of the ranges covers it
-/

namespace Kaleidoscope

/-- A set of characters, given by ranges of code points whose ends are included. -/
structure CharSet where
  ranges : List (Nat × Nat)

namespace CharSet

/-- Whether one of the ranges covers the character. -/
def contains (s : CharSet) (c : Char) : Bool :=
  s.ranges.any fun r => r.1 ≤ c.toNat && c.toNat ≤ r.2

theorem contains_iff {s : CharSet} {c : Char} :
    s.contains c = true ↔ ∃ r ∈ s.ranges, r.1 ≤ c.toNat ∧ c.toNat ≤ r.2 := by
  simp [contains]

end CharSet

end Kaleidoscope
