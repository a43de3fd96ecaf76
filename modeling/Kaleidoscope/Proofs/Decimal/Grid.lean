import Mathlib.Algebra.Order.Field.Rat
import Mathlib.Order.Monotone.Basic
import Mathlib.Tactic.Linarith

/-!
# Rounding to a grid

A format for numbers is a strictly increasing sequence of values, and rounding to it finds the nearest
one. Where two are equally near, the one at an even place is taken. For numbers whose patterns count
upwards with their values the place is the pattern, so an even place is an even significand.

What is said here does not depend on how the values are spaced. That the steps of a format double from
time to time is therefore of no account when it comes to ties, to overflow and to uniqueness.

## Main definitions

* `RoundsTo` — the place in a grid that a number rounds to

## Main results

* `RoundsTo.of_rest` — how far it is to the two neighbours decides
* `RoundsTo.unique` — a number rounds to one place
* `RoundsTo.succ_le_iff` — from where on a number rounds to an even place or beyond
-/

namespace Kaleidoscope

/-- The number `q` rounds to the value at the place `n`: no value is nearer, and if another one is
equally near, the place is even. -/
structure RoundsTo (grid : Nat → ℚ) (q : ℚ) (n : Nat) : Prop where
  nearest : ∀ k, |grid n - q| ≤ |grid k - q|
  even : ∀ k, k ≠ n → |grid k - q| = |grid n - q| → n % 2 = 0

namespace RoundsTo

variable {grid : Nat → ℚ} {q : ℚ} {k n m : Nat}

/-! ### Distances -/

theorem distance_of_le (h : grid k ≤ q) : |grid k - q| = q - grid k := by
  rw [abs_sub_comm]
  exact abs_of_nonneg (sub_nonneg.2 h)

theorem distance_of_ge (h : q ≤ grid k) : |grid k - q| = grid k - q := abs_of_nonneg (sub_nonneg.2 h)

/-- Every value is on one side of a number, with the neighbour on that side in between. -/
theorem distance_cases (hgrid : StrictMono grid) (hle : grid n ≤ q) (hlt : q < grid (n + 1)) (k : Nat) :
    (k ≤ n ∧ |grid k - q| = q - grid k) ∨ (n + 1 ≤ k ∧ |grid k - q| = grid k - q) := by
  rcases Nat.lt_or_ge n k with h | h
  · exact .inr ⟨h, distance_of_ge (le_trans hlt.le (hgrid.monotone h))⟩
  · exact .inl ⟨h, distance_of_le (le_trans (hgrid.monotone h) hle)⟩

/-! ### The two neighbours -/

theorem of_lower (hgrid : StrictMono grid) (hle : grid n ≤ q) (hlt : q < grid (n + 1))
    (hnear : q - grid n ≤ grid (n + 1) - q) (heven : q - grid n = grid (n + 1) - q → n % 2 = 0) :
    RoundsTo grid q n := by
  refine ⟨fun k => ?_, fun k hk heq => ?_⟩
  · rw [distance_of_le hle]
    rcases distance_cases hgrid hle hlt k with ⟨h, hd⟩ | ⟨h, hd⟩
    · linarith [hgrid.monotone h]
    · linarith [hgrid.monotone h]
  · rw [distance_of_le hle] at heq
    rcases distance_cases hgrid hle hlt k with ⟨h, hd⟩ | ⟨h, hd⟩
    · linarith [hgrid (lt_of_le_of_ne h hk)]
    · exact heven (by linarith [hgrid.monotone h])

theorem of_upper (hgrid : StrictMono grid) (hle : grid n ≤ q) (hlt : q < grid (n + 1))
    (hnear : grid (n + 1) - q ≤ q - grid n) (heven : grid (n + 1) - q = q - grid n → (n + 1) % 2 = 0) :
    RoundsTo grid q (n + 1) := by
  refine ⟨fun k => ?_, fun k hk heq => ?_⟩
  · rw [distance_of_ge hlt.le]
    rcases distance_cases hgrid hle hlt k with ⟨h, hd⟩ | ⟨h, hd⟩
    · linarith [hgrid.monotone h]
    · linarith [hgrid.monotone h]
  · rw [distance_of_ge hlt.le] at heq
    rcases distance_cases hgrid hle hlt k with ⟨h, hd⟩ | ⟨h, hd⟩
    · exact heven (by linarith [hgrid.monotone h])
    · linarith [hgrid (lt_of_le_of_ne h (Ne.symm hk))]

/-- A number that lies `rest` parts of `step` above the value at `n`, and the other parts below the next
one, rounds down or up as those parts say. -/
theorem of_rest (hgrid : StrictMono grid) {part : ℚ} (hpart : 0 < part) {rest step : Nat}
    (hrest : rest < step) (hbelow : q - grid n = rest * part)
    (habove : grid (n + 1) - q = (step - rest) * part)
    (hm : m = n ∧ 2 * rest ≤ step ∧ (2 * rest = step → n % 2 = 0) ∨
      m = n + 1 ∧ step ≤ 2 * rest ∧ (2 * rest = step → (n + 1) % 2 = 0)) : RoundsTo grid q m := by
  have hstep : (0 : ℚ) < step - rest := sub_pos.2 (Nat.cast_lt.2 hrest)
  have hle : grid n ≤ q := sub_nonneg.1 (hbelow ▸ mul_nonneg (Nat.cast_nonneg rest) hpart.le)
  have hlt : q < grid (n + 1) := sub_pos.1 (habove ▸ mul_pos hstep hpart)
  have htie : q - grid n = grid (n + 1) - q → 2 * rest = step := by
    intro heq
    rw [hbelow, habove, mul_left_inj' hpart.ne'] at heq
    have htwice : 2 * (rest : ℚ) = step := by linarith
    exact_mod_cast htwice
  rcases hm with ⟨rfl, hnear, heven⟩ | ⟨rfl, hnear, heven⟩
  · have htwice : 2 * (rest : ℚ) ≤ step := by exact_mod_cast hnear
    refine of_lower hgrid hle hlt ?_ fun heq => heven (htie heq)
    rw [hbelow, habove]
    exact mul_le_mul_of_nonneg_right (by linarith) hpart.le
  · have htwice : (step : ℚ) ≤ 2 * rest := by exact_mod_cast hnear
    refine of_upper hgrid hle hlt ?_ fun heq => heven (htie heq.symm)
    rw [hbelow, habove]
    exact mul_le_mul_of_nonneg_right (by linarith) hpart.le

/-! ### One place -/

/-- Two places that a number rounds to would both be even, and what is between them would be nearer. -/
theorem not_lt (hgrid : StrictMono grid) (h : RoundsTo grid q n) (h' : RoundsTo grid q m) : ¬ n < m := by
  intro hlt
  have heq : |grid n - q| = |grid m - q| := le_antisymm (h.nearest m) (h'.nearest n)
  have hn := h.even m hlt.ne' heq.symm
  have hm := h'.even n hlt.ne heq
  have hlower : grid n < grid (n + 1) := hgrid (Nat.lt_succ_self n)
  have hupper : grid (n + 1) < grid m := hgrid (by omega)
  have hnear := h.nearest (n + 1)
  rcases le_total (grid (n + 1)) q with hq | hq
  · rw [distance_of_le hq] at hnear
    linarith [neg_le_abs (grid n - q)]
  · rw [distance_of_ge hq] at hnear
    linarith [le_abs_self (grid m - q)]

/-- A number rounds to one place. -/
theorem unique (hgrid : StrictMono grid) (h : RoundsTo grid q n) (h' : RoundsTo grid q m) : n = m :=
  le_antisymm (Nat.not_lt.1 (h'.not_lt hgrid h)) (Nat.not_lt.1 (h.not_lt hgrid h'))

/-- From halfway to the value at an even place on, a number rounds to that place or beyond. -/
theorem succ_le_iff (hgrid : StrictMono grid) (h : RoundsTo grid q n) (hk : k % 2 = 1) :
    k + 1 ≤ n ↔ (grid k + grid (k + 1)) / 2 ≤ q := by
  have hstep : grid k < grid (k + 1) := hgrid (Nat.lt_succ_self k)
  constructor
  · intro hn
    by_contra hq
    have hge := hgrid.monotone hn
    have hnear := h.nearest k
    rw [distance_of_ge (by linarith)] at hnear
    rcases le_total (grid k) q with hle | hle
    · rw [distance_of_le hle] at hnear
      linarith
    · rw [distance_of_ge hle] at hnear
      linarith
  · intro hq
    by_contra hn
    have hle := hgrid.monotone (Nat.le_of_lt_succ (Nat.lt_of_not_le hn))
    have hnear := h.nearest (k + 1)
    rw [distance_of_le (by linarith)] at hnear
    rcases le_total (grid (k + 1)) q with habove | hbelow
    · rw [distance_of_le habove] at hnear
      linarith
    · rw [distance_of_ge hbelow] at hnear
      -- Only the value at `k` itself is as near, and `k` is odd.
      obtain rfl : n = k := hgrid.injective (by linarith)
      have htie : |grid (n + 1) - q| = |grid n - q| := by
        rw [distance_of_ge hbelow, distance_of_le (by linarith)]
        linarith
      have heven := h.even (n + 1) (Nat.succ_ne_self n) htie
      omega

end RoundsTo

end Kaleidoscope
