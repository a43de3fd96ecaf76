import Kaleidoscope.Proofs.Decimal.Exact
import Kaleidoscope.Scanner

/-!
# Numbers that are written read back

A numeral is read as the digits around its first point, whatever else it is made of, and a decimal is
written in one of three ways: with zeros behind its digits, with a point among them, or with zeros and a
point in front. In all three, what is written is a whole part and a fraction. `IsPositional` says that
much, reading it is one lemma, and the three ways are looked at once, in `exists_isPositional`.

## Main definitions

* `IsPositional` — a whole part, and a fraction behind a point unless it is empty

## Main results

* `Decimal.nearest_ofNumeral_positional` — a decimal that is written reads back
* `Binary64.isPositional_text`, `Token.ofNumeral_text` — so does a number, and it is written as a numeral
* `IsPositional.count_point_le` — with one point at most
-/

namespace Kaleidoscope

/-- Digits, and a point with further digits behind it unless there are none. -/
structure IsPositional (whole fraction run : List Char) : Prop where
  whole_ne_nil : whole ≠ []
  whole_isDigit : ∀ c ∈ whole, c.isDigit = true
  fraction_isDigit : ∀ c ∈ fraction, c.isDigit = true
  run_eq : run = whole ∧ fraction = [] ∨ run = whole ++ '.' :: fraction

theorem isNumeral_of_isDigit {c : Char} (h : c.isDigit = true) : isNumeral c = true := by
  rw [isNumeral, h, Bool.true_or]

namespace IsPositional

variable {whole fraction run : List Char}

theorem ne_nil (h : IsPositional whole fraction run) : run ≠ [] := by
  rcases h.run_eq with ⟨rfl, -⟩ | rfl
  · exact h.whole_ne_nil
  · exact List.append_ne_nil_of_right_ne_nil _ (List.cons_ne_nil _ _)

/-- Digits and a point are a numeral. -/
theorem isNumeral (h : IsPositional whole fraction run) : ∀ c ∈ run, isNumeral c = true := by
  intro c hc
  rcases h.run_eq with ⟨rfl, -⟩ | rfl
  · exact isNumeral_of_isDigit (h.whole_isDigit c hc)
  · rcases List.mem_append.1 hc with hwhole | hrest
    · exact isNumeral_of_isDigit (h.whole_isDigit c hwhole)
    · rcases List.mem_cons.1 hrest with rfl | hfraction
      · rfl
      · exact isNumeral_of_isDigit (h.fraction_isDigit c hfraction)

theorem point_not_mem {cs : List Char} (h : ∀ c ∈ cs, c.isDigit = true) : '.' ∉ cs := fun hmem =>
  absurd (h _ hmem) (by decide)

/-- There is one point at most. -/
theorem count_point_le (h : IsPositional whole fraction run) : run.count '.' ≤ 1 := by
  have hwhole := List.count_eq_zero.2 (point_not_mem h.whole_isDigit)
  have hfraction := List.count_eq_zero.2 (point_not_mem h.fraction_isDigit)
  rcases h.run_eq with ⟨rfl, -⟩ | rfl
  · omega
  · rw [List.count_append, List.count_cons_self]
    omega

/-- What is read is the number that all the digits give, with the fraction as its places. -/
theorem ofNumeral_eq (h : IsPositional whole fraction run) :
    Decimal.ofNumeral run = ⟨Nat.ofDigitChars 10 (whole ++ fraction) 0, -fraction.length⟩ := by
  obtain ⟨hwhole, hfraction⟩ :
      Decimal.wholePart run = whole ∧ Decimal.fractionPart run = fraction := by
    unfold Decimal.wholePart Decimal.fractionPart
    rcases h.run_eq with ⟨rfl, rfl⟩ | rfl
    · rw [← List.append_nil run, List.takeWhile_append_of_pos h.whole_isDigit,
        List.dropWhile_append_of_pos h.whole_isDigit]
      exact ⟨rfl, rfl⟩
    · rw [List.takeWhile_append_of_pos h.whole_isDigit, List.dropWhile_append_of_pos h.whole_isDigit]
      refine ⟨List.append_nil _, ?_⟩
      show fraction.takeWhile Char.isDigit = fraction
      rw [← List.append_nil fraction, List.takeWhile_append_of_pos h.fraction_isDigit]
      rfl
  rw [Decimal.ofNumeral, hwhole, hfraction]

end IsPositional

namespace Decimal

variable {d : Decimal}

theorem isDigit_of_mem_numerals (d : Decimal) : ∀ c ∈ d.numerals, c.isDigit = true := fun _ =>
  Nat.isDigit_of_mem_toDigits (by decide) (by decide)

theorem isDigit_of_mem_replicate (n : Nat) : ∀ c ∈ List.replicate n '0', c.isDigit = true := by
  intro c hc
  rw [List.eq_of_mem_replicate hc]
  rfl

/-- In each of the three ways to write a decimal, its digits are a whole part and a fraction. -/
theorem exists_isPositional (d : Decimal) :
    ∃ whole fraction, IsPositional whole fraction d.positional ∧
      Nat.ofDigitChars 10 (whole ++ fraction) 0 = d.digits * Nat.pow 10 d.exponent.toNat ∧
        fraction.length = (-d.exponent).toNat := by
  have hnumerals : Nat.ofDigitChars 10 d.numerals 0 = d.digits := Nat.ofDigitChars_ten_toDigits
  have hdigit := d.isDigit_of_mem_numerals
  unfold positional
  dsimp only
  split
  · refine ⟨_, [], ⟨?_, ?_, nofun, .inl ⟨rfl, rfl⟩⟩, ?_, ?_⟩
    · exact List.append_ne_nil_of_left_ne_nil Nat.toDigits_ne_nil _
    · exact fun c hc => (List.mem_append.1 hc).elim (hdigit c) (isDigit_of_mem_replicate _ c)
    · rw [List.append_nil, Nat.ofDigitChars_append, hnumerals, Nat.ofDigitChars_replicate_zero]
      exact Nat.mul_comm _ _
    · exact (Int.toNat_eq_zero.2 (by omega)).symm
  · have hzero : d.exponent.toNat = 0 := by omega
    have hone : d.digits * Nat.pow 10 0 = d.digits := Nat.mul_one _
    rw [hzero, hone]
    split
    · refine ⟨_, _, ⟨?_, ?_, ?_, .inr rfl⟩, ?_, ?_⟩
      · rw [← List.length_pos_iff, List.length_take]
        omega
      · exact fun c hc => hdigit c (List.mem_of_mem_take hc)
      · exact fun c hc => hdigit c (List.mem_of_mem_drop hc)
      · rw [List.take_append_drop, hnumerals]
      · rw [List.length_drop]
        omega
    · refine ⟨['0'], _, ⟨List.cons_ne_nil _ _, List.forall_mem_singleton.2 rfl, ?_, .inr rfl⟩, ?_, ?_⟩
      · exact fun c hc => (List.mem_append.1 hc).elim (isDigit_of_mem_replicate _ c) (hdigit c)
      · rw [Nat.ofDigitChars_append, Nat.ofDigitChars_append, Nat.ofDigitChars_replicate_zero]
        exact hnumerals
      · rw [List.length_append, List.length_replicate]
        omega

/-- What is written reads back. -/
theorem nearest_ofNumeral_positional (d : Decimal) : (ofNumeral d.positional).nearest = d.nearest := by
  obtain ⟨whole, fraction, h, hdigits, hlength⟩ := exists_isPositional d
  rw [h.ofNumeral_eq, hdigits, hlength, nearest, nearest]
  have hzeros : (-((-d.exponent).toNat : Int)).toNat = 0 := by omega
  have hplaces : (-(-((-d.exponent).toNat : Int))).toNat = (-d.exponent).toNat := by omega
  dsimp only
  rw [hzeros, hplaces]
  exact congrArg (Binary64.nearest · _) (Nat.mul_one _)

end Decimal

namespace Binary64

variable {x : Binary64}

/-- Without a sign, a finite number is written as its shortest decimal, with all its places. -/
theorem toList_text (h : x.isFinite = true) (hs : x.isNegative = false) :
    x.text.toList = x.shortest.positional := by
  have hne : x.biased ≠ topExponent := of_decide_eq_true h
  have hnan : x.isNaN = false := by rw [isNaN, decide_eq_false hne, Bool.false_and]
  have hinfinite : x.isInfinite = false := by rw [isInfinite, decide_eq_false hne, Bool.false_and]
  rw [text, String.toList_ofList, write, hs, hnan, hinfinite]
  exact List.append_nil _

theorem isPositional_text (h : x.isFinite = true) (hs : x.isNegative = false) :
    ∃ whole fraction, IsPositional whole fraction x.text.toList := by
  obtain ⟨whole, fraction, hpositional, -⟩ := x.shortest.exists_isPositional
  exact ⟨whole, fraction, toList_text h hs ▸ hpositional⟩

end Binary64

/-- A finite number without a sign is written as a numeral that stands for it. -/
theorem Token.ofNumeral_text {x : Binary64} (h : x.isFinite = true) (hs : x.isNegative = false) :
    Token.ofNumeral x.text.toList = .number x := by
  rw [Token.ofNumeral, Binary64.toList_text h hs, Decimal.nearest_ofNumeral_positional,
    Binary64.nearest_shortest h, Binary64.abs_eq_self hs]

end Kaleidoscope
