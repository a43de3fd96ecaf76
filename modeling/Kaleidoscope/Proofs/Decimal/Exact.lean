import Kaleidoscope.Decimal.Shortest

/-!
# What need not be rounded

A quotient that is a whole number of units, and of units that a number can have, is that number. This is
the one case of rounding that is needed to know that a number reads back: on the finest grid of decimals
every number is such a quotient, and what the coarser grids offer has been tested by reading it.

## Main results

* `Binary64.nearest_units` — the number that has exactly these units is found
* `Binary64.nearest_shortest` — the shortest decimal reads back
-/

namespace Kaleidoscope

/-- Rounding depends on the quotient alone. -/
theorem divNearest_mul_mul (num den : Nat) {k : Nat} (hk : 0 < k) :
    divNearest (num * k) (den * k) = divNearest num den := by
  have hlt : 2 * (num % den * k) < den * k ↔ 2 * (num % den) < den := by
    rw [← Nat.mul_assoc]
    exact Nat.mul_lt_mul_right hk
  have heq : 2 * (num % den * k) = den * k ↔ 2 * (num % den) = den := by
    rw [← Nat.mul_assoc]
    exact Nat.mul_left_inj (Nat.ne_of_gt hk)
  simp only [divNearest, Nat.mul_mod_mul_right, Nat.mul_div_mul_right _ _ hk, hlt, heq]

namespace Binary64

variable {x : Binary64}

/-! ### The units of a number -/

theorem significand_lt (x : Binary64) : x.significand < 2 * hiddenBit := by
  have hfraction := x.fraction_lt
  unfold significand
  split <;> omega

/-- The biased exponent is where a number has its leading bit, and subnormal numbers share the step of
the first normal ones. -/
theorem stepExponent_units (x : Binary64) : stepExponent x.units = x.biased - 1 := by
  have hlt := x.significand_lt
  by_cases hb : x.biased = 0
  · have hfraction := x.fraction_lt
    have hunits : x.units = x.fraction := by
      rw [units, significand, if_pos hb, hb]
      exact Nat.mul_one _
    have hlog : x.fraction.log2 ≤ 52 := by
      by_cases hzero : x.fraction = 0
      · rw [hzero]
        decide
      · exact Nat.le_of_lt ((Nat.log2_lt hzero).2 hfraction)
    rw [hunits, stepExponent]
    omega
  · have hsignificand : x.significand = hiddenBit + x.fraction := if_neg hb
    have hlow : 2 ^ (52 + (x.biased - 1)) ≤ x.units := by
      rw [Nat.pow_add]
      exact Nat.mul_le_mul_right _ (hsignificand ▸ Nat.le_add_right ..)
    have hhigh : x.units < 2 ^ (52 + (x.biased - 1) + 1) := by
      rw [Nat.add_right_comm, Nat.pow_add]
      exact Nat.mul_lt_mul_of_pos_right hlt (Nat.two_pow_pos _)
    have hpos : x.units ≠ 0 := Nat.ne_of_gt (Nat.lt_of_lt_of_le (Nat.two_pow_pos _) hlow)
    have hlog : x.units.log2 = 52 + (x.biased - 1) := (Nat.log2_eq_iff hpos).2 ⟨hlow, hhigh⟩
    rw [stepExponent, hlog]
    omega

theorem pattern_eq (x : Binary64) :
    (x.biased - 1) * hiddenBit + x.significand = x.biased * hiddenBit + x.fraction := by
  unfold significand
  split
  · rename_i hb
    rw [hb, Nat.zero_sub]
  · rename_i hb
    obtain ⟨b, hb⟩ := Nat.exists_eq_succ_of_ne_zero hb
    rw [hb, Nat.succ_sub_one, Nat.succ_mul, Nat.add_assoc]

theorem toNat_bits_abs (x : Binary64) : x.abs.bits.toNat = x.biased * hiddenBit + x.fraction := by
  have hbits := x.bits_decomposition
  have hfraction := x.fraction_lt
  have hbiased := x.biased_le
  have habs : x.abs.bits.toNat = x.bits.toNat % signBit := UInt64.toNat_mod _ _
  rw [habs]
  simp only [signBit, hiddenBit, topExponent] at *
  split at hbits <;> omega

theorem abs_eq_self (h : x.isNegative = false) : x.abs = x := by
  have hbits := x.bits_decomposition
  rw [h, if_neg Bool.false_ne_true, Nat.zero_add, ← toNat_bits_abs] at hbits
  obtain ⟨bits⟩ := x
  exact congrArg mk (UInt64.toNat_inj.1 hbits).symm

/-! ### Reading it back -/

/-- The number that has exactly these units is found, whatever fraction they are given as. -/
theorem nearest_units (h : x.isFinite = true) {k : Nat} (hk : 0 < k) :
    nearest (x.units * k) (unitsPerOne * k) = x.abs := by
  have hquotient : x.units * k * unitsPerOne / (unitsPerOne * k) = x.units := by
    rw [Nat.mul_assoc, Nat.mul_comm k]
    exact Nat.mul_div_cancel _ (Nat.mul_pos unitsPerOne_pos hk)
  have hround : divNearest (x.units * k * unitsPerOne)
      (unitsPerOne * k * Nat.pow 2 (x.biased - 1)) = x.significand := by
    rw [Nat.mul_assoc, Nat.mul_comm k, Nat.mul_comm (unitsPerOne * k),
      divNearest_mul_mul _ _ (Nat.mul_pos unitsPerOne_pos hk)]
    exact divNearest_mul_self _ (Nat.pow_pos (by decide))
  have hlt : x.biased * hiddenBit + x.fraction < topExponent * hiddenBit := by
    have hne : x.biased ≠ topExponent := of_decide_eq_true h
    have hle := x.biased_le
    have hfraction := x.fraction_lt
    simp only [topExponent, hiddenBit] at *
    omega
  have hbits : nearestBits (x.units * k) (unitsPerOne * k) = x.biased * hiddenBit + x.fraction := by
    rw [nearestBits, hquotient, stepExponent_units, hround, pattern_eq, if_pos hlt]
  rw [nearest, hbits, ← toNat_bits_abs, UInt64.ofNat_toNat]

/-- One is a power of two in units, a unit is a power of five in steps of the finest grid, and the
exponent of both is the number of places of that grid. -/
theorem exists_places :
    ∃ n : Nat, unitsPerOne = Nat.pow 2 n ∧ decimalStepsPerUnit = Nat.pow 5 n ∧ (-1074 : Int) = -n := by
  have hplaces : (-1074 : Int) = -(1074 : Nat) := rfl
  unfold unitsPerOne decimalStepsPerUnit
  rw [hplaces]
  -- Nobody wants to see these powers evaluated.
  generalize 1074 = n
  exact ⟨n, rfl, rfl, rfl⟩

/-- On the finest grid every finite number is exact. -/
theorem nearest_exactDecimal (h : x.isFinite = true) : x.exactDecimal.nearest = x.abs := by
  obtain ⟨n, hunits, hsteps, hexponent⟩ := exists_places
  have hpow : Nat.pow 10 n = unitsPerOne * decimalStepsPerUnit := by
    rw [hunits, hsteps]
    exact Nat.mul_pow 2 5 n
  have hpos : 0 < decimalStepsPerUnit := by
    rw [hsteps]
    exact Nat.pow_pos (by decide)
  have hzeros : (-n : Int).toNat = 0 := by omega
  have hplaces : (-(-n : Int)).toNat = n := by omega
  have hdigits : x.decimalSteps * Nat.pow 10 0 = x.units * decimalStepsPerUnit := Nat.mul_one _
  rw [exactDecimal, hexponent, Decimal.nearest, hzeros, hplaces, hpow, hdigits, nearest_units h hpos]

theorem nearest_onCoarsestGrid (h : x.isFinite = true) (k : Nat) :
    (x.onCoarsestGrid k).nearest = x.abs := by
  induction k with
  | zero => exact nearest_exactDecimal h
  | succ k ih =>
    rw [onCoarsestGrid]
    cases hgrid : x.onGrid (k + 1) with
    | some d => exact nearest_of_onGrid_eq_some hgrid
    | none => exact ih

/-- The shortest decimal of a finite number reads back as the number without its sign. -/
theorem nearest_shortest (h : x.isFinite = true) : x.shortest.nearest = x.abs := by
  unfold shortest
  split
  · rename_i hzero
    obtain ⟨hb, hf⟩ := Bool.and_eq_true_iff.1 hzero
    have habs := x.toNat_bits_abs
    rw [of_decide_eq_true hb, of_decide_eq_true hf] at habs
    have hbits : x.abs.bits = 0 := UInt64.toNat_inj.1 habs
    calc (⟨0, 0⟩ : Decimal).nearest = nearest 0 1 := rfl
      _ = ⟨0⟩ := nearest_zero 1
      _ = x.abs := congrArg mk hbits.symm
  · exact nearest_onCoarsestGrid h _

end Binary64

end Kaleidoscope
