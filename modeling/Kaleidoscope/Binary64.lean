/-!
# Binary floating-point numbers

The number type of the language is IEEE 754 binary64. A number is kept as its bit pattern, and its
value is read off the pattern as a natural number on a fixed grid.

## One grid for all finite numbers

Every finite binary64 number is a whole multiple of `2 ^ -1074`, the least positive one. So the
magnitude of a finite number is the natural number `units`, counted in that least step, and nothing
here needs rational arithmetic: comparing two numbers, rounding to one and writing one down are all
questions about natural numbers.

## Main definitions

* `Binary64` — a bit pattern, with `isNegative`, `biased` and `fraction` for its three fields
* `Binary64.isNaN`, `isInfinite`, `isZero` — the special patterns
* `Binary64.units` — the magnitude of a finite number, in least steps
* `Binary64.unitsPerOne` — how many of those make one
* `Binary64.same` — equality of numbers, under which the two zeros agree and no NaN equals anything

## Main results

* `Binary64.bits_decomposition` — the three fields determine the pattern
* `Binary64.eq_of_fields`
-/

namespace Kaleidoscope

/-- An IEEE 754 binary64 number, as its bit pattern. -/
structure Binary64 where
  bits : UInt64
  deriving DecidableEq, Repr

namespace Binary64

/-! ### The fields of a pattern -/

/-- The weight of the sign bit, `2 ^ 63`. -/
def signBit : Nat := 0x8000000000000000

/-- The weight of the lowest bit of the biased exponent, `2 ^ 52`. As a normal number's significand
has one bit more than is written, it is the weight of that bit, too. -/
def hiddenBit : Nat := 0x10000000000000

/-- The biased exponent of infinities and NaNs, all ones. -/
def topExponent : Nat := 2047

/-- Whether the sign bit is set. -/
def isNegative (x : Binary64) : Bool := signBit ≤ x.bits.toNat

/-- The eleven bits of the biased exponent. -/
def biased (x : Binary64) : Nat := x.bits.toNat / hiddenBit % 2048

/-- The fifty-two bits of the fraction. -/
def fraction (x : Binary64) : Nat := x.bits.toNat % hiddenBit

theorem fraction_lt (x : Binary64) : x.fraction < hiddenBit := Nat.mod_lt _ (by decide)

theorem biased_le (x : Binary64) : x.biased ≤ topExponent :=
  Nat.le_of_lt_succ (Nat.mod_lt _ (by decide))

theorem bits_decomposition (x : Binary64) :
    x.bits.toNat = (if x.isNegative then signBit else 0) + x.biased * hiddenBit + x.fraction := by
  have bound := x.bits.toNat_lt
  unfold isNegative biased fraction
  by_cases h : signBit ≤ x.bits.toNat
  · rw [decide_eq_true h, if_pos rfl]
    simp only [signBit, hiddenBit] at *
    omega
  · rw [decide_eq_false h, if_neg Bool.false_ne_true]
    simp only [signBit, hiddenBit] at *
    omega

theorem eq_of_fields {x y : Binary64} (hs : x.isNegative = y.isNegative) (hb : x.biased = y.biased)
    (hf : x.fraction = y.fraction) : x = y := by
  have h : x.bits.toNat = y.bits.toNat := by
    rw [bits_decomposition x, bits_decomposition y, hs, hb, hf]
  cases x; cases y; simpa [UInt64.toNat_inj] using h

/-! ### Special patterns -/

/-- The biased exponent is all ones and the fraction is not zero. -/
def isNaN (x : Binary64) : Bool := x.biased = topExponent && x.fraction ≠ 0

/-- The biased exponent is all ones and the fraction is zero. -/
def isInfinite (x : Binary64) : Bool := x.biased = topExponent && x.fraction = 0

/-- One of the two zeros. -/
def isZero (x : Binary64) : Bool := x.biased = 0 && x.fraction = 0

/-- A number that is neither an infinity nor a NaN. -/
def isFinite (x : Binary64) : Bool := x.biased ≠ topExponent

/-- Positive zero. -/
def zero : Binary64 := ⟨0⟩

/-- Positive infinity. -/
def infinity : Binary64 := ⟨0x7FF0000000000000⟩

/-! ### Magnitude -/

/-- How many least steps make one. -/
def unitsPerOne : Nat := Nat.pow 2 1074

theorem unitsPerOne_pos : 0 < unitsPerOne := by
  unfold unitsPerOne
  generalize 1074 = n
  exact Nat.pow_pos (by decide)

/-- The significand as a whole number. A biased exponent of zero marks a subnormal number, which has
no hidden bit. -/
def significand (x : Binary64) : Nat :=
  if x.biased = 0 then x.fraction else hiddenBit + x.fraction

/-- The magnitude of a finite number, as a multiple of `2 ^ -1074`. Subnormal numbers share their
step with the first normal binade. -/
def units (x : Binary64) : Nat := x.significand * Nat.pow 2 (x.biased - 1)

/-! ### Equality of numbers -/

/-- Equality as numbers: the zeros are equal, a NaN equals nothing, and otherwise equal numbers have
equal patterns. -/
def same (x y : Binary64) : Bool :=
  !x.isNaN && !y.isNaN && (x = y || (x.isZero && y.isZero))

end Binary64

end Kaleidoscope
