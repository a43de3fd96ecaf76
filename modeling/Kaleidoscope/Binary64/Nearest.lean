import Kaleidoscope.Binary64

/-!
# Rounding a quotient to binary64

`Binary64.nearest num den` is the binary64 number nearest to `num / den`, a tie going to the even
significand, and infinity from half a step beyond the greatest finite number on.

## Why rounding is one division

On the grid of `Binary64.units` the quotient is `num * unitsPerOne / den`. Its bit length says which
binade it lies in, hence the step `2 ^ e` between the neighbours there, and one rounded division by
that step gives the significand. A bit pattern is that significand added to `e * 2 ^ 52`: the hidden
bit of a normal number is what raises the biased exponent from `e` to `e + 1`, and a significand
that rounds up to the next power of two carries into the next binade by itself. Subnormal numbers,
the first normal binade and overflow are therefore no cases of their own.

## Main definitions

* `divNearest` — division rounded to nearest, ties to even
* `Binary64.nearest` — the nearest number to a quotient
-/

namespace Kaleidoscope

/-- The whole number nearest to `num / den`; of two equally near ones, the even one. -/
def divNearest (num den : Nat) : Nat :=
  if 2 * (num % den) < den ∨ 2 * (num % den) = den ∧ num / den % 2 = 0 then num / den
  else num / den + 1

theorem divNearest_mul_self (n : Nat) {den : Nat} (h : 0 < den) :
    divNearest (n * den) den = n := by
  simp [divNearest, Nat.mul_div_cancel _ h, h]

theorem divNearest_zero (den : Nat) : divNearest 0 den = 0 := by
  rcases Nat.eq_zero_or_pos den with rfl | h
  · rfl
  · simp [divNearest, h]

namespace Binary64

/-- The exponent of the step between neighbours around a magnitude of `q` units. Below `2 ^ 53` units
the step is the unit itself. -/
def stepExponent (q : Nat) : Nat := q.log2 - 52

/-- The number nearest to `num / den`, as the natural number that its pattern spells. -/
def nearestBits (num den : Nat) : Nat :=
  let e := stepExponent (num * unitsPerOne / den)
  let n := e * hiddenBit + divNearest (num * unitsPerOne) (den * Nat.pow 2 e)
  if n < topExponent * hiddenBit then n else topExponent * hiddenBit

/-- The number nearest to `num / den`, ties to even. -/
def nearest (num den : Nat) : Binary64 := ⟨UInt64.ofNat (nearestBits num den)⟩

theorem nearestBits_le (num den : Nat) : nearestBits num den ≤ topExponent * hiddenBit := by
  unfold nearestBits
  dsimp only
  split <;> omega

theorem toNat_bits_nearest (num den : Nat) : (nearest num den).bits.toNat = nearestBits num den := by
  have h := nearestBits_le num den
  simp only [topExponent, hiddenBit] at h
  simp only [nearest, UInt64.toNat_ofNat']
  exact Nat.mod_eq_of_lt (by omega)

/-- A rounded quotient has a clear sign bit. -/
theorem isNegative_nearest (num den : Nat) : (nearest num den).isNegative = false := by
  have h := nearestBits_le num den
  simp only [topExponent, hiddenBit] at h
  simp only [isNegative, toNat_bits_nearest, signBit, decide_eq_false_iff_not]
  omega

/-- A rounded quotient is a number. -/
theorem isNaN_nearest (num den : Nat) : (nearest num den).isNaN = false := by
  have h := nearestBits_le num den
  simp only [topExponent, hiddenBit] at h
  simp only [isNaN, biased, fraction, toNat_bits_nearest, topExponent, hiddenBit,
    Bool.and_eq_false_iff, decide_eq_false_iff_not]
  omega

theorem nearest_zero (den : Nat) : nearest 0 den = zero := by
  simp [nearest, nearestBits, stepExponent, zero, divNearest_zero, topExponent, hiddenBit]

end Binary64

end Kaleidoscope
