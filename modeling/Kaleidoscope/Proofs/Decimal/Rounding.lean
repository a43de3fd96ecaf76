import Kaleidoscope.Proofs.Decimal.Exact
import Kaleidoscope.Proofs.Decimal.Grid
import Mathlib.Tactic.FieldSimp
import Mathlib.Tactic.Positivity
import Mathlib.Tactic.Ring

/-!
# Rounding is correct

`Binary64.nearest` divides natural numbers. Here it is compared with what rounding should be, said of
exact values: of all finite numbers the one nearest to a quotient, a tie going to the even fraction, and
infinity from half a step beyond the greatest finite number on.

## Patterns as places in a grid

The patterns with a clear sign bit spell an increasing sequence of magnitudes, and it does not stop at
the pattern of infinity: `patternUnits` gives every natural number the magnitude that it would have if
exponents had no bound. A quotient is rounded to that unbounded grid first, and the bound is applied
afterwards, which is also how infinity is to be understood: as the place where the next number would be.

Within a binade the places are a significand added to a multiple of `hiddenBit`, and the least place of
the next binade still fits the scheme (`patternUnits_add`). So the two neighbours of a quotient are in
the scheme of one binade, and rounding the significand decides between them.

## Main definitions

* `Binary64.value` — the exact value of a finite number
* `Binary64.IsNearest` — what a non-negative value is to be rounded to
* `Binary64.patternValue` — the grid of all patterns

## Main results

* `Binary64.roundsTo_unboundedBits` — division rounds to the grid
* `Binary64.isNearest_iff` — a quotient is rounded to the nearest number, and to no other
-/

namespace Kaleidoscope

/-- The rest of a division says which way it is rounded. -/
theorem divNearest_cases (num den : Nat) :
    (divNearest num den = num / den ∧ 2 * (num % den) ≤ den ∧
        (2 * (num % den) = den → num / den % 2 = 0)) ∨
      (divNearest num den = num / den + 1 ∧ den ≤ 2 * (num % den) ∧
        (2 * (num % den) = den → (num / den + 1) % 2 = 0)) := by
  unfold divNearest
  split
  · exact .inl ⟨rfl, by omega, by omega⟩
  · exact .inr ⟨rfl, by omega, by omega⟩

namespace Binary64

variable {x y : Binary64} {e m n : Nat} {q : ℚ}

/-! ### The grid of patterns -/

/-- The magnitude that a pattern with a clear sign bit spells, in units, if exponents have no bound. -/
def patternUnits (n : Nat) : Nat :=
  (if n / hiddenBit = 0 then n % hiddenBit else hiddenBit + n % hiddenBit) * 2 ^ (n / hiddenBit - 1)

theorem hiddenBit_pos : 0 < hiddenBit := by decide

theorem eq_of_toNat_bits (h : x.bits.toNat = y.bits.toNat) : x = y := by
  obtain ⟨bits⟩ := x
  obtain ⟨bits'⟩ := y
  exact congrArg mk (UInt64.toNat_inj.1 h)

theorem units_eq_patternUnits (h : x.isNegative = false) : x.units = patternUnits x.bits.toNat := by
  have hbits := x.toNat_bits_abs
  rw [abs_eq_self h] at hbits
  have hbiased : x.bits.toNat / hiddenBit = x.biased := by
    rw [hbits, Nat.mul_comm, Nat.mul_add_div hiddenBit_pos, Nat.div_eq_of_lt x.fraction_lt, Nat.add_zero]
  have hfraction : x.bits.toNat % hiddenBit = x.fraction := rfl
  rw [patternUnits, hbiased, hfraction]
  rfl

/-- In a binade, and at the first place behind it, a pattern is a significand added to the exponent. -/
theorem patternUnits_add (hm : e = 0 ∨ hiddenBit ≤ m) (hle : m ≤ 2 * hiddenBit) :
    patternUnits (e * hiddenBit + m) = m * 2 ^ e := by
  rw [patternUnits, Nat.mul_comm e, Nat.mul_add_div hiddenBit_pos, Nat.mul_add_mod]
  rcases Nat.lt_or_ge m hiddenBit with hsubnormal | hge
  · have he : e = 0 := by omega
    rw [Nat.div_eq_of_lt hsubnormal, Nat.mod_eq_of_lt hsubnormal, he, if_pos (Nat.add_zero 0)]
  · rcases Nat.lt_or_ge m (2 * hiddenBit) with hnormal | htop
    · have hdiv : m / hiddenBit = 1 := by
        rw [Nat.div_eq_iff hiddenBit_pos]
        omega
      have hmod : m % hiddenBit = m - hiddenBit := by
        rw [Nat.mod_eq_sub_mod hge, Nat.mod_eq_of_lt (by omega)]
      rw [hdiv, hmod, if_neg (Nat.succ_ne_zero e), Nat.add_sub_cancel, Nat.add_sub_cancel' hge]
    · -- The significand has carried into the next binade.
      obtain rfl : m = 2 * hiddenBit := by omega
      have hexponent : e + 2 - 1 = e + 1 := rfl
      rw [Nat.mul_div_cancel _ hiddenBit_pos, Nat.mul_mod_left, if_neg (by omega), hexponent]
      ring

theorem exists_binade (n : Nat) :
    ∃ e m, n = e * hiddenBit + m ∧ (e = 0 ∨ hiddenBit ≤ m) ∧ m < 2 * hiddenBit := by
  have hmod := Nat.mod_lt n hiddenBit_pos
  have hsplit := Nat.div_add_mod n hiddenBit
  cases hdiv : n / hiddenBit with
  | zero =>
    rw [hdiv] at hsplit
    exact ⟨0, n, by omega, .inl rfl, by omega⟩
  | succ e =>
    rw [hdiv, Nat.mul_comm, Nat.succ_mul] at hsplit
    exact ⟨e, hiddenBit + n % hiddenBit, by omega, .inr (by omega), by omega⟩

theorem patternUnits_strictMono : StrictMono patternUnits := by
  refine strictMono_nat_of_lt_succ fun n => ?_
  obtain ⟨e, m, rfl, hm, hlt⟩ := exists_binade n
  rw [Nat.add_assoc, patternUnits_add hm hlt.le, patternUnits_add (by omega) hlt]
  exact Nat.mul_lt_mul_of_pos_right (Nat.lt_succ_self m) (Nat.two_pow_pos e)

/-- The magnitude that a pattern with a clear sign bit spells, if exponents have no bound. -/
def patternValue (n : Nat) : ℚ := patternUnits n / unitsPerOne

theorem cast_unitsPerOne_pos : (0 : ℚ) < unitsPerOne := Nat.cast_pos.2 unitsPerOne_pos

theorem patternValue_strictMono : StrictMono patternValue := fun _ _ h =>
  div_lt_div_of_pos_right (Nat.cast_lt.2 (patternUnits_strictMono h)) cast_unitsPerOne_pos

theorem patternValue_zero : patternValue 0 = 0 := by
  have h : patternUnits 0 = 0 := by decide
  rw [patternValue, h, Nat.cast_zero, zero_div]

/-- A value of a binade as a number of parts of which `unitsPerOne * den` make one. -/
theorem patternValue_add {den : Nat} (hden : 0 < den) (hm : e = 0 ∨ hiddenBit ≤ m)
    (hle : m ≤ 2 * hiddenBit) :
    patternValue (e * hiddenBit + m) = m * (den * 2 ^ e : Nat) * (1 / (den * unitsPerOne : Nat)) := by
  have hdenq : (den : ℚ) ≠ 0 := Nat.cast_ne_zero.2 hden.ne'
  have hunits := cast_unitsPerOne_pos.ne'
  rw [patternValue, patternUnits_add hm hle]
  push_cast
  field_simp

/-! ### Rounding to the grid -/

/-- What a quotient of units comes to in steps of its binade is a significand of that binade. -/
theorem significand_of_quotient (num den : Nat) :
    (stepExponent (num / den) = 0 ∨ hiddenBit ≤ num / (den * 2 ^ stepExponent (num / den))) ∧
      num / (den * 2 ^ stepExponent (num / den)) < 2 * hiddenBit := by
  rw [← Nat.div_div_eq_div_mul]
  generalize num / den = units
  have hpow : 0 < 2 ^ stepExponent units := Nat.two_pow_pos _
  rcases Nat.eq_zero_or_pos units with rfl | hpos
  · rw [Nat.zero_div]
    exact ⟨.inl (by decide), by decide⟩
  · have hlow : 2 ^ units.log2 ≤ units := Nat.log2_self_le hpos.ne'
    have hhigh : units < 2 ^ (units.log2 + 1) := Nat.lt_log2_self
    constructor
    · by_cases hzero : stepExponent units = 0
      · exact .inl hzero
      · have hlog : units.log2 = 52 + stepExponent units := by
          unfold stepExponent at hzero ⊢
          omega
        refine .inr ((Nat.le_div_iff_mul_le hpow).2 (Nat.le_trans (Nat.le_of_eq ?_) hlow))
        rw [hlog, Nat.pow_add]
        rfl
    · have hlog : units.log2 + 1 ≤ 53 + stepExponent units := by
        unfold stepExponent
        omega
      have hbits : 2 * hiddenBit = 2 ^ 53 := rfl
      refine (Nat.div_lt_iff_lt_mul hpow).2 (Nat.lt_of_lt_of_le hhigh ?_)
      rw [hbits, ← Nat.pow_add]
      exact Nat.pow_le_pow_right (by decide) hlog

/-- The place to which a quotient is rounded if exponents have no bound. -/
def unboundedBits (num den : Nat) : Nat :=
  let e := stepExponent (num * unitsPerOne / den)
  e * hiddenBit + divNearest (num * unitsPerOne) (den * 2 ^ e)

theorem nearestBits_eq (num den : Nat) : nearestBits num den =
    if unboundedBits num den < topExponent * hiddenBit then unboundedBits num den
    else topExponent * hiddenBit := rfl

/-- Division rounds to the grid of patterns. -/
theorem roundsTo_unboundedBits (num : Nat) {den : Nat} (hden : 0 < den) :
    RoundsTo patternValue (num / den) (unboundedBits num den) := by
  unfold unboundedBits
  dsimp only
  obtain ⟨hm, hlt⟩ := significand_of_quotient (num * unitsPerOne) den
  generalize stepExponent (num * unitsPerOne / den) = e at hm hlt
  have hlower := patternValue_add hden hm hlt.le
  have hupper := patternValue_add (e := e) (m := num * unitsPerOne / (den * 2 ^ e) + 1) hden
    (hm.imp_right Nat.le_succ_of_le) hlt
  have hvalue : (num / den : ℚ) = (num * unitsPerOne : Nat) * (1 / (den * unitsPerOne : Nat)) := by
    push_cast
    rw [mul_one_div, mul_div_mul_right _ _ cast_unitsPerOne_pos.ne']
  have hpart : (0 : ℚ) < 1 / (den * unitsPerOne : Nat) :=
    one_div_pos.2 (Nat.cast_pos.2 (Nat.mul_pos hden unitsPerOne_pos))
  have hrest := Nat.mod_lt (num * unitsPerOne) (Nat.mul_pos hden (Nat.two_pow_pos e))
  have hcases := divNearest_cases (num * unitsPerOne) (den * 2 ^ e)
  have hsplit : ((num * unitsPerOne : Nat) : ℚ) = (den * 2 ^ e : Nat) *
      (num * unitsPerOne / (den * 2 ^ e) : Nat) + (num * unitsPerOne % (den * 2 ^ e) : Nat) := by
    exact_mod_cast (Nat.div_add_mod (num * unitsPerOne) (den * 2 ^ e)).symm
  have heven : e * hiddenBit % 2 = 0 := Nat.mod_eq_zero_of_dvd (Dvd.dvd.mul_left (by decide) e)
  refine .of_rest patternValue_strictMono (n := e * hiddenBit + num * unitsPerOne / (den * 2 ^ e))
    hpart hrest ?_ ?_ (by omega)
  · rw [hvalue, hlower, hsplit]
    ring
  · rw [Nat.add_assoc, hvalue, hupper, hsplit]
    push_cast
    ring

/-! ### Numbers -/

/-- The value of a finite number, exactly. -/
def value (x : Binary64) : ℚ := (if x.isNegative then -1 else 1) * (x.units / unitsPerOne)

/-- Half a step beyond the greatest finite number. -/
def overflow : ℚ := 2 ^ 1024 - 2 ^ 970

/-- What a value that is not negative is rounded to: infinity from `overflow` on, and otherwise a finite
number such that no other is nearer, with an even fraction if another one is equally near. The sign bit
is clear, for zero as well. -/
structure IsNearest (x : Binary64) (q : ℚ) : Prop where
  isNegative_eq : x.isNegative = false
  eq_infinity : overflow ≤ q → x = infinity
  isFinite : q < overflow → x.isFinite = true
  nearest : q < overflow → ∀ y : Binary64, y.isFinite = true → |x.value - q| ≤ |y.value - q|
  even : q < overflow → ∀ y : Binary64, y.isFinite = true → y.value ≠ x.value →
    |y.value - q| = |x.value - q| → x.fraction % 2 = 0

theorem value_eq_patternValue (h : x.isNegative = false) : x.value = patternValue x.bits.toNat := by
  rw [value, h, if_neg Bool.false_ne_true, one_mul, units_eq_patternUnits h]
  rfl

theorem value_nonpos (h : x.isNegative = true) : x.value ≤ 0 := by
  rw [value, h, if_pos rfl, neg_one_mul, neg_nonpos]
  positivity

theorem isFinite_iff (h : x.isNegative = false) :
    x.isFinite = true ↔ x.bits.toNat < topExponent * hiddenBit := by
  have hbits := x.toNat_bits_abs
  have hfraction := x.fraction_lt
  have hbiased := x.biased_le
  rw [abs_eq_self h] at hbits
  rw [isFinite, decide_eq_true_iff, hbits]
  simp only [topExponent, hiddenBit] at *
  omega

/-- The fraction of a number is even if its pattern is. -/
theorem fraction_mod_two (x : Binary64) : x.fraction % 2 = x.bits.toNat % 2 :=
  Nat.mod_mod_of_dvd _ (by decide)

/-- Where a unit is `2 ^ -n`, a significand in the binade `k + n` counts `2 ^ k`. -/
theorem patternValue_of_units {k : Nat} (hunits : unitsPerOne = 2 ^ n) (hm : hiddenBit ≤ m)
    (hle : m ≤ 2 * hiddenBit) : patternValue ((k + n) * hiddenBit + m) = m * 2 ^ k := by
  have hpow : (2 : ℚ) ^ n ≠ 0 := pow_ne_zero n two_ne_zero
  rw [patternValue, patternUnits_add (.inr hm) hle, hunits]
  push_cast
  rw [pow_add, ← mul_assoc, mul_div_cancel_right₀ _ hpow]

/-- Overflow starts halfway between the greatest finite number and where the next one would be. -/
theorem overflow_eq : (patternValue (topExponent * hiddenBit - 1) +
    patternValue (topExponent * hiddenBit - 1 + 1)) / 2 = overflow := by
  obtain ⟨n, hunits, -, hplaces⟩ := exists_places
  have hn : 2045 = 971 + n := by omega
  have hlower : topExponent * hiddenBit - 1 = 2045 * hiddenBit + (2 * hiddenBit - 1) := by decide
  have hupper : topExponent * hiddenBit - 1 + 1 = 2045 * hiddenBit + 2 * hiddenBit := by decide
  have hcast : ((2 * hiddenBit - 1 : Nat) : ℚ) = 2 ^ 53 - 1 := by norm_num [hiddenBit]
  have hcast' : ((2 * hiddenBit : Nat) : ℚ) = 2 ^ 53 := by norm_num [hiddenBit]
  have hhalf : (2 : ℚ) ^ 971 = 2 * 2 ^ 970 := pow_succ' 2 970
  have htop : (2 : ℚ) ^ 1024 = 2 ^ 54 * 2 ^ 970 := pow_add 2 54 970
  rw [hupper, hlower, hn, patternValue_of_units hunits (by decide) (by decide),
    patternValue_of_units hunits (by decide) le_rfl, hcast, hcast', overflow, hhalf, htop]
  generalize (2 : ℚ) ^ 970 = step
  ring

/-- Below the bound, what a value is rounded to in the grid of patterns is the number to round to. -/
theorem isNearest_of_roundsTo (hx : x.isNegative = false) (h : RoundsTo patternValue q x.bits.toNat)
    (hq : 0 ≤ q) (hlt : q < overflow) (hfinite : x.isFinite = true) : x.IsNearest q := by
  have hzero := h.nearest 0
  rw [patternValue_zero, ← value_eq_patternValue hx] at hzero
  have hnegative : ∀ y : Binary64, y.isNegative = true → |(0 : ℚ) - q| ≤ |y.value - q| := by
    intro y hy
    have := value_nonpos hy
    rw [abs_of_nonpos (by linarith), abs_of_nonpos (by linarith)]
    linarith
  refine ⟨hx, fun hle => absurd hlt (not_lt.2 hle), fun _ => hfinite, fun _ y _ => ?_,
    fun _ y _ hne heq => ?_⟩
  · cases hy : y.isNegative with
    | true => exact le_trans hzero (hnegative y hy)
    | false =>
      rw [value_eq_patternValue hx, value_eq_patternValue hy]
      exact h.nearest _
  · rw [fraction_mod_two]
    cases hy : y.isNegative with
    | true =>
      -- A negative number that is as near as zero is zero.
      have hvalue : y.value = 0 := by
        have hnonpos := value_nonpos hy
        have hdistance : |y.value - q| = |0 - q| := le_antisymm (heq ▸ hzero) (hnegative y hy)
        rw [abs_of_nonpos (by linarith), abs_of_nonpos (by linarith)] at hdistance
        linarith
      rw [hvalue, ← patternValue_zero, value_eq_patternValue hx] at heq hne
      exact h.even 0 (fun hz => hne (congrArg patternValue hz)) heq
    | false =>
      rw [value_eq_patternValue hx, value_eq_patternValue hy] at heq hne
      exact h.even _ (fun hz => hne (congrArg patternValue hz)) heq

/-- The number to round to is what the value is rounded to in the grid of patterns. -/
theorem IsNearest.bits_eq (h : y.IsNearest q) (hlt : q < overflow)
    (hn : RoundsTo patternValue q x.bits.toNat) (hx : x.isNegative = false) (hfinite : x.isFinite = true) :
    y = x := by
  have hynear := h.nearest hlt x hfinite
  have hyeven := h.even hlt x hfinite
  rw [value_eq_patternValue hx, value_eq_patternValue h.isNegative_eq] at hynear hyeven
  have heq : |patternValue x.bits.toNat - q| = |patternValue y.bits.toNat - q| :=
    le_antisymm (hn.nearest _) hynear
  by_contra hne
  have hbits : x.bits.toNat ≠ y.bits.toNat := fun hb => hne (eq_of_toNat_bits hb.symm)
  have hy : RoundsTo patternValue q y.bits.toNat := by
    refine ⟨fun k => heq ▸ hn.nearest k, fun _ _ _ => ?_⟩
    rw [← fraction_mod_two]
    exact hyeven (fun hv => hbits (patternValue_strictMono.injective hv)) heq
  exact hbits (hn.unique patternValue_strictMono hy)

/-- A quotient is rounded to the number nearest to it, and that is one number. -/
theorem isNearest_iff (num : Nat) {den : Nat} (hden : 0 < den) :
    y.IsNearest (num / den) ↔ y = nearest num den := by
  have hrounds := roundsTo_unboundedBits num hden
  have hnegative := isNegative_nearest num den
  have hbits := toNat_bits_nearest num den
  have hbound := hrounds.succ_le_iff patternValue_strictMono (k := topExponent * hiddenBit - 1) (by decide)
  rw [overflow_eq, Nat.sub_add_cancel (by decide)] at hbound
  rw [nearestBits_eq] at hbits
  rcases le_or_gt overflow (num / den : ℚ) with hq | hq
  · rw [if_neg (Nat.not_lt.2 (hbound.2 hq))] at hbits
    have hinfinity : nearest num den = infinity := eq_of_toNat_bits hbits
    rw [hinfinity]
    refine ⟨fun h => h.eq_infinity hq, ?_⟩
    rintro rfl
    exact ⟨by decide, fun _ => rfl, fun hlt => absurd hlt (not_lt.2 hq),
      fun hlt => absurd hlt (not_lt.2 hq), fun hlt => absurd hlt (not_lt.2 hq)⟩
  · rw [if_pos (Nat.lt_of_not_le (mt hbound.1 (not_le.2 hq)))] at hbits
    rw [← hbits] at hrounds
    have hfinite : (nearest num den).isFinite = true := by
      rw [isFinite_iff hnegative, hbits]
      exact Nat.lt_of_not_le (mt hbound.1 (not_le.2 hq))
    refine ⟨fun h => h.bits_eq hq hrounds hnegative hfinite, ?_⟩
    rintro rfl
    exact isNearest_of_roundsTo hnegative hrounds (by positivity) hq hfinite

end Binary64

end Kaleidoscope
