import Kaleidoscope.Proofs.Decimal.Positional
import Kaleidoscope.Proofs.Decimal.Rounding
import Mathlib.Algebra.Order.Field.Power
import Mathlib.Data.List.TakeWhile

/-!
# Lenient numerals

A numeral is any run of digits and points, and it stands for the longest part in front that has the form
of a number. `Decimal.ofNumeral` gets there without looking for that part: it takes the two runs of
digits around the first point. Another way is to cut the run at its second point and to read what is left
as strictly as numbers are usually read. Here the three are the same.

## The strict form

`StrictNumeral` says what has the form of a number, and with which exact value: digits, with or without a
point behind them and more digits behind the point, or a point with digits behind it. A part with two
points never has it, so what stands before the second point is as long as it can be. Without a digit in
it, no part in front has the form of a number.

## Main definitions

* `Decimal.value` — the exact value of a decimal
* `StrictNumeral`, `LongestStrictNumeral` — the strict form, and the longest part in front that has it
* `ReadsStrictNumerals` — a strict way to read, which `cutAndRead` uses

## Main results

* `Decimal.isNearest_iff` — decimals are read as the nearest number
* `StrictNumeral.value_eq` — leniently read, the strict form has the same value
* `longestStrictNumeral_or_none` — what stands before the second point
* `cutAndRead_eq` — cutting is right, and what is cut can be read
* `Decimal.strictNumeral_positional` — decimals are written in the strict form
-/

namespace Kaleidoscope

/-! ### Exact values -/

/-- The value of a decimal, exactly. -/
def Decimal.value (d : Decimal) : ℚ := d.digits * 10 ^ d.exponent

/-- Written with a whole power of ten above and below. -/
theorem Decimal.value_eq_div (d : Decimal) : d.value =
    (d.digits * Nat.pow 10 d.exponent.toNat : Nat) / (Nat.pow 10 (-d.exponent).toNat : Nat) := by
  have hten : (10 : ℚ) ≠ 0 := by norm_num
  rw [value, Nat.pow_eq, Nat.pow_eq]
  push_cast
  rw [mul_div_assoc, ← zpow_natCast, ← zpow_natCast, ← zpow_sub₀ hten, Int.toNat_sub_toNat_neg]

/-- A decimal is read as the number nearest to its value. -/
theorem Decimal.isNearest_iff (d : Decimal) {x : Binary64} : x.IsNearest d.value ↔ x = d.nearest := by
  rw [d.value_eq_div, nearest]
  exact Binary64.isNearest_iff _ (Nat.pow_pos (by decide))

/-- The whole number that digits spell. -/
def digitsValue (digits : List Char) : Nat := Nat.ofDigitChars 10 digits 0

/-- The digits of a fraction count as many places as there are. -/
theorem value_of_digits (whole fraction : List Char) :
    (⟨digitsValue (whole ++ fraction), -fraction.length⟩ : Decimal).value =
      digitsValue whole + digitsValue fraction / 10 ^ fraction.length := by
  have hten : (10 : ℚ) ^ fraction.length ≠ 0 := pow_ne_zero _ (by norm_num)
  rw [Decimal.value, digitsValue, Nat.ofDigitChars_append, Nat.ofDigitChars_eq_ofDigitChars_zero,
    zpow_neg, zpow_natCast, ← div_eq_mul_inv]
  push_cast
  rw [add_div, mul_div_cancel_left₀ _ hten]
  rfl

/-! ### The strict form -/

/-- A text that has the form of a number, with its exact value. -/
inductive StrictNumeral : List Char → ℚ → Prop where
  | whole {digits : List Char} (hne : digits ≠ []) (h : ∀ c ∈ digits, c.isDigit = true) :
    StrictNumeral digits (digitsValue digits)
  | point {whole fraction : List Char} (hne : whole ≠ []) (hw : ∀ c ∈ whole, c.isDigit = true)
    (hf : ∀ c ∈ fraction, c.isDigit = true) :
    StrictNumeral (whole ++ '.' :: fraction)
      (digitsValue whole + digitsValue fraction / 10 ^ fraction.length)
  | fraction {digits : List Char} (hne : digits ≠ []) (h : ∀ c ∈ digits, c.isDigit = true) :
    StrictNumeral ('.' :: digits) (digitsValue digits / 10 ^ digits.length)

/-- The longest part in front of a run that has the form of a number, with its exact value. -/
structure LongestStrictNumeral (run part : List Char) (v : ℚ) : Prop where
  isPrefix : part <+: run
  strict : StrictNumeral part v
  length_le : ∀ part' v', part' <+: run → StrictNumeral part' v' → part'.length ≤ part.length

/-! ### Cutting -/

/-- A way to read that accepts the strict form, whatever else it accepts, and rounds it correctly. -/
def ReadsStrictNumerals (strict : List Char → Option Binary64) : Prop :=
  ∀ text v, StrictNumeral text v → ∃ x, strict text = some x ∧ x.IsNearest v

section

variable {digits fraction run part : List Char} {n : Nat} {v : ℚ}

theorem beforePoint_cons {c : Char} (h : c ≠ '.') (n : Nat) (run : List Char) :
    beforePoint n (c :: run) = c :: beforePoint n run := by
  rw [beforePoint.eq_def]
  exact if_neg h

theorem beforePoint_zero (run : List Char) : beforePoint 0 ('.' :: run) = [] := rfl

theorem beforePoint_succ (n : Nat) (run : List Char) :
    beforePoint (n + 1) ('.' :: run) = '.' :: beforePoint n run := rfl

theorem beforePoint_append (h : ∀ c ∈ digits, c.isDigit = true) (n : Nat) (run : List Char) :
    beforePoint n (digits ++ run) = digits ++ beforePoint n run := by
  induction digits with
  | nil => rfl
  | cons c digits ih =>
    obtain ⟨hc, hdigits⟩ := List.forall_mem_cons.1 h
    have hne : c ≠ '.' := fun he => absurd (he ▸ hc) (by decide)
    rw [List.cons_append, beforePoint_cons hne, ih hdigits, List.cons_append]

/-- Parts with no more points are parts of it. -/
theorem isPrefix_beforePoint (h : part <+: run) (hn : part.count '.' ≤ n) : part <+: beforePoint n run := by
  induction run generalizing part n with
  | nil => exact h
  | cons c run ih =>
    cases part with
    | nil => exact List.nil_prefix
    | cons d part =>
      obtain ⟨rfl, htail⟩ := List.cons_prefix_cons.1 h
      by_cases hd : d = '.'
      · subst hd
        rw [List.count_cons_self] at hn
        cases n with
        | zero => exact absurd hn (Nat.not_succ_le_zero _)
        | succ n => exact List.cons_prefix_cons.2 ⟨rfl, ih htail (Nat.le_of_succ_le_succ hn)⟩
      · rw [List.count_cons_of_ne hd] at hn
        rw [beforePoint_cons hd]
        exact List.cons_prefix_cons.2 ⟨rfl, ih htail hn⟩

theorem beforePoint_isPrefix (n : Nat) (run : List Char) : beforePoint n run <+: run := by
  induction run generalizing n with
  | nil => exact List.prefix_rfl
  | cons c run ih =>
    by_cases hc : c = '.'
    · subst hc
      cases n with
      | zero => exact List.nil_prefix
      | succ n => exact List.cons_prefix_cons.2 ⟨rfl, ih n⟩
    · rw [beforePoint_cons hc]
      exact List.cons_prefix_cons.2 ⟨rfl, ih n⟩

/-! ### What a numeral stands for -/

theorem eq_point_of_isNumeral {c : Char} (h : isNumeral c = true) (hc : c.isDigit = false) : c = '.' := by
  rw [isNumeral, hc, Bool.false_or] at h
  exact of_decide_eq_true h

/-- What is left of a run behind some digits is nothing, or it starts with a point. -/
theorem dropWhile_isDigit_cases (h : ∀ c ∈ run, isNumeral c = true) :
    run.dropWhile Char.isDigit = [] ∨ ∃ later, run.dropWhile Char.isDigit = '.' :: later := by
  cases hrest : run.dropWhile Char.isDigit with
  | nil => exact .inl rfl
  | cons c later =>
    have hnot : c.isDigit = false := by
      have hhead := List.head?_dropWhile_not Char.isDigit run
      rw [hrest] at hhead
      simpa using hhead
    have hmem : c ∈ run := (List.dropWhile_sublist _).subset (hrest ▸ List.mem_cons_self ..)
    exact .inr ⟨later, by rw [eq_point_of_isNumeral (h c hmem) hnot]⟩

theorem isDigit_of_mem_takeWhile (run : List Char) : ∀ c ∈ run.takeWhile Char.isDigit, c.isDigit = true :=
  fun c hc => List.all_eq_true.1 List.all_takeWhile c hc

/-- Before the second point there are the digits that count, with the first point if there is one. -/
theorem beforePoint_cases (h : ∀ c ∈ run, isNumeral c = true) :
    (beforePoint 1 run = Decimal.wholePart run ∧ Decimal.fractionPart run = []) ∨
      beforePoint 1 run = Decimal.wholePart run ++ '.' :: Decimal.fractionPart run := by
  have hcut := beforePoint_append (isDigit_of_mem_takeWhile run) 1 (run.dropWhile Char.isDigit)
  rw [List.takeWhile_append_dropWhile] at hcut
  rw [hcut, Decimal.fractionPart, Decimal.wholePart]
  rcases dropWhile_isDigit_cases h with hrest | ⟨later, hrest⟩
  · rw [hrest]
    exact .inl ⟨List.append_nil _, rfl⟩
  · have hlater : ∀ c ∈ later, isNumeral c = true := fun c hc =>
      h c ((List.dropWhile_sublist _).subset (hrest ▸ List.mem_cons_of_mem _ hc))
    have hstop : beforePoint 0 (later.dropWhile Char.isDigit) = [] := by
      rcases dropWhile_isDigit_cases hlater with hend | ⟨_, hend⟩
      · rw [hend, beforePoint]
      · rw [hend, beforePoint_zero]
    have hfraction := beforePoint_append (isDigit_of_mem_takeWhile later) 0 (later.dropWhile Char.isDigit)
    rw [List.takeWhile_append_dropWhile, hstop, List.append_nil] at hfraction
    rw [hrest, beforePoint_succ, hfraction]
    exact .inr rfl

theorem value_ofNumeral (run : List Char) : (Decimal.ofNumeral run).value =
    digitsValue (Decimal.wholePart run) +
      digitsValue (Decimal.fractionPart run) / 10 ^ (Decimal.fractionPart run).length :=
  value_of_digits _ _

/-- What stands before the second point has the strict form, with the value of the run, or no digit. -/
theorem strictNumeral_beforePoint (h : ∀ c ∈ run, isNumeral c = true) :
    StrictNumeral (beforePoint 1 run) (Decimal.ofNumeral run).value ∨
      ((beforePoint 1 run).any Char.isDigit = false ∧ (Decimal.ofNumeral run).nearest = .zero) := by
  have hwhole : ∀ c ∈ Decimal.wholePart run, c.isDigit = true := isDigit_of_mem_takeWhile _
  have hfraction : ∀ c ∈ Decimal.fractionPart run, c.isDigit = true := isDigit_of_mem_takeWhile _
  have hcases := beforePoint_cases h
  have hvalue := value_ofNumeral run
  have hzero : Decimal.wholePart run = [] → Decimal.fractionPart run = [] →
      (Decimal.ofNumeral run).nearest = .zero := by
    intro hw hf
    rw [Decimal.ofNumeral, hw, hf, Decimal.nearest]
    exact (congrArg (Binary64.nearest · _) (Nat.zero_mul _)).trans (Binary64.nearest_zero _)
  rw [hvalue]
  generalize Decimal.wholePart run = whole at *
  generalize Decimal.fractionPart run = fraction at *
  rcases hcases with ⟨hcut, rfl⟩ | hcut
  · rw [hcut]
    by_cases hne : whole = []
    · rw [hne]
      exact .inr ⟨rfl, hzero hne rfl⟩
    · have hnone : digitsValue ([] : List Char) = 0 := rfl
      rw [hnone, Nat.cast_zero, zero_div, add_zero]
      exact .inl (.whole hne hwhole)
  · rw [hcut]
    by_cases hne : whole = []
    · by_cases hne' : fraction = []
      · rw [hne, hne']
        exact .inr ⟨rfl, hzero hne hne'⟩
      · have hnone : digitsValue ([] : List Char) = 0 := rfl
        rw [hne, hnone, Nat.cast_zero, zero_add]
        exact .inl (.fraction hne' hfraction)
    · exact .inl (.point hne hwhole hfraction)

theorem parts_of_point {whole fraction : List Char} (hw : ∀ c ∈ whole, c.isDigit = true)
    (hf : ∀ c ∈ fraction, c.isDigit = true) :
    Decimal.wholePart (whole ++ '.' :: fraction) = whole ∧
      Decimal.fractionPart (whole ++ '.' :: fraction) = fraction := by
  unfold Decimal.wholePart Decimal.fractionPart
  rw [List.takeWhile_append_of_pos hw, List.dropWhile_append_of_pos hw]
  exact ⟨List.append_nil _, List.takeWhile_eq_self_iff.2 hf⟩

namespace StrictNumeral

theorem count_point_le (h : StrictNumeral part v) : part.count '.' ≤ 1 := by
  have hnone : ∀ {cs : List Char}, (∀ c ∈ cs, c.isDigit = true) → cs.count '.' = 0 := fun hcs =>
    List.count_eq_zero.2 (IsPositional.point_not_mem hcs)
  cases h with
  | whole _ h => rw [hnone h]; exact Nat.zero_le _
  | point _ hw hf => rw [List.count_append, List.count_cons_self, hnone hw, hnone hf]
  | fraction _ h => rw [List.count_cons_self, hnone h]

theorem any_isDigit (h : StrictNumeral part v) : part.any Char.isDigit = true := by
  have hsome : ∀ {cs : List Char}, cs ≠ [] → (∀ c ∈ cs, c.isDigit = true) →
      cs.any Char.isDigit = true := by
    intro cs hne hcs
    obtain ⟨c, hc⟩ := List.exists_mem_of_ne_nil cs hne
    exact List.any_eq_true.2 ⟨c, hc, hcs c hc⟩
  cases h with
  | whole hne h => exact hsome hne h
  | point hne hw _ => rw [List.any_append, hsome hne hw, Bool.true_or]
  | fraction hne h => rw [List.any_cons, hsome hne h, Bool.or_true]

/-- Leniently read, the strict form has the same value. -/
theorem value_eq (h : StrictNumeral part v) : v = (Decimal.ofNumeral part).value := by
  have hnone : (digitsValue [] : ℚ) = 0 := Nat.cast_zero
  rw [value_ofNumeral]
  cases h with
  | whole _ h =>
    rw [Decimal.wholePart, Decimal.fractionPart, List.takeWhile_eq_self_iff.2 h,
      List.dropWhile_eq_nil_iff.2 h]
    show _ = _ + (digitsValue [] : ℚ) / _
    rw [hnone, zero_div, add_zero]
  | point _ hw hf =>
    obtain ⟨hwhole, hfraction⟩ := parts_of_point hw hf
    rw [hwhole, hfraction]
  | @fraction digits _ h =>
    obtain ⟨hwhole, hfraction⟩ := parts_of_point (List.forall_mem_nil _) h
    rw [List.nil_append] at hwhole hfraction
    rw [hwhole, hfraction, hnone, zero_add]

end StrictNumeral

/-! ### Three ways to read a numeral -/

/-- What stands before the second point is the longest part in front that has the strict form, with the
value that the numeral stands for, or no part in front has it and the numeral stands for zero. -/
theorem longestStrictNumeral_or_none (h : ∀ c ∈ run, isNumeral c = true) :
    LongestStrictNumeral run (beforePoint 1 run) (Decimal.ofNumeral run).value ∨
      (∀ part v, part <+: run → ¬ StrictNumeral part v) ∧ (beforePoint 1 run).any Char.isDigit = false ∧
        (Decimal.ofNumeral run).nearest = .zero := by
  have hpart : ∀ part v, part <+: run → StrictNumeral part v → part <+: beforePoint 1 run :=
    fun _ _ hprefix hstrict => isPrefix_beforePoint hprefix hstrict.count_point_le
  rcases strictNumeral_beforePoint h with hstrict | ⟨hdigit, hzero⟩
  · exact .inl ⟨beforePoint_isPrefix 1 run, hstrict, fun part' v' hprefix hstrict' =>
      (hpart part' v' hprefix hstrict').length_le⟩
  · refine .inr ⟨fun part v hprefix hstrict => ?_, hdigit, hzero⟩
    obtain ⟨c, hc, hisDigit⟩ := List.any_eq_true.1 hstrict.any_isDigit
    have hmem : c ∈ beforePoint 1 run := (hpart part v hprefix hstrict).subset hc
    exact List.any_eq_false.1 hdigit c hmem hisDigit

/-- Cutting a numeral and reading it in a strict way gives the number that it stands for. If the part has
a digit it can be read, so nothing has to stand in for a result. -/
theorem cutAndRead_eq {strict : List Char → Option Binary64} (hs : ReadsStrictNumerals strict)
    (h : ∀ c ∈ run, isNumeral c = true) :
    cutAndRead strict run = (Decimal.ofNumeral run).nearest ∧
      ((beforePoint 1 run).any Char.isDigit = true → (strict (beforePoint 1 run)).isSome = true) := by
  rw [cutAndRead]
  rcases longestStrictNumeral_or_none h with hlongest | ⟨-, hdigit, hzero⟩
  · obtain ⟨x, hx, hnearest⟩ := hs _ _ hlongest.strict
    rw [if_pos hlongest.strict.any_isDigit, hx]
    exact ⟨(Decimal.isNearest_iff _).1 hnearest, fun _ => rfl⟩
  · rw [hdigit, hzero]
    exact ⟨rfl, nofun⟩

/-- A decimal with all its places written out has the strict form. -/
theorem Decimal.strictNumeral_positional (d : Decimal) : StrictNumeral d.positional d.value := by
  obtain ⟨whole, fraction, h, hdigits, hplaces⟩ := d.exists_isPositional
  have hvalue : (ofNumeral d.positional).value = d.value := by
    have hfraction : (⟨digitsValue (whole ++ fraction), -fraction.length⟩ : Decimal).value =
        digitsValue (whole ++ fraction) / (Nat.pow 10 fraction.length : Nat) := by
      rw [value, zpow_neg, zpow_natCast, ← div_eq_mul_inv, Nat.pow_eq, Nat.cast_pow, Nat.cast_ofNat]
    rw [h.ofNumeral_eq, d.value_eq_div, ← hplaces, ← hdigits]
    exact hfraction
  rw [← hvalue]
  rcases h.run_eq with ⟨hrun, -⟩ | hrun
  · have hform := StrictNumeral.whole h.whole_ne_nil h.whole_isDigit
    rw [hrun, ← hform.value_eq]
    exact hform
  · have hform := StrictNumeral.point h.whole_ne_nil h.whole_isDigit h.fraction_isDigit
    rw [hrun, ← hform.value_eq]
    exact hform

/-- The lenient way to read accepts the strict form. -/
theorem readsStrictNumerals_ofNumeral :
    ReadsStrictNumerals fun text => some (Decimal.ofNumeral text).nearest := fun _ _ h =>
  ⟨_, rfl, h.value_eq ▸ (Decimal.isNearest_iff _).2 rfl⟩

end

end Kaleidoscope
