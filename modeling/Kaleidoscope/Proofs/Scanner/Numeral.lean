import Kaleidoscope.Proofs.Decimal.Lenient
import Kaleidoscope.Proofs.Scanner.Lookahead
import Mathlib.Tactic.NormNum

/-!
# Numbers in a text

Where a run of digits and points begins, the scanner takes all of it, and it becomes one token whatever it
looks like. What number the token holds is said by the strict form: it is the nearest one to the value of
the longest part in front that has this form, and zero if there is no such part.

A number that is written has the strict form itself, so all of its text counts. Its exact value need not
be that of the number, as only so many digits are written as are needed, but no other number is as near.

## Main results

* `Scanner.scan_of_numeral` — a run of digits and points is one token
* `Scanner.reads_numerals_leniently` — which number it holds
* `Binary64.strictNumeral_text` — what is written has the strict form
* `Scanner.reads_printed_numbers` — and is read as the number, bit for bit
-/

namespace Kaleidoscope

namespace Scanner

variable {σ : Type} [CharSource σ] {s : Scanner σ} {run rest : List Char}

/-- A run of digits and points is one token, after one question for each of its characters. -/
theorem scan_of_numeral (hrun : ∀ c ∈ run, isNumeral c = true) (hne : run ≠ [])
    (htext : s.text = run ++ rest) (hrest : Follows isNumeral rest) :
    s.scan.token = .ofNumeral run ∧ s.scan.rest.text = rest ∧
      s.scan.rest.pulls = s.pulls + run.length := by
  obtain ⟨c, cs, rfl⟩ := List.exists_cons_of_ne_nil hne
  obtain ⟨hahead, -⟩ := ahead_of_text htext
  obtain ⟨hspan, hleft, hpulls⟩ := span_of_text htext hrun hrest
  have hc : isNumeral c = true := hrun c (List.mem_cons_self ..)
  have hskip : s.skipTrivia = s := skipTrivia_of_startsLexeme fun d hd =>
    Answer.char.inj (hahead.symm.trans hd) ▸ startsLexeme_of_isNumeral hc
  have hscan : s.skipTrivia.lexeme = (.ofNumeral (c :: cs), (s.span isNumeral).2) := by
    rw [hskip, lexeme_of_numeral hahead hc, hspan]
  refine ⟨congrArg Prod.fst hscan, ?_, ?_⟩
  · rw [← hleft]
    exact congrArg (·.2.text) hscan
  · rw [← hpulls]
    exact congrArg (·.2.pulls) hscan

/-- Where a run of digits and points begins, up to a character that is neither, the scanner makes one
token of all of it. The number of the token is the nearest one to the value of the longest part in front
that has the form of a number, or zero if no part has. In any strict way to read that accepts this form
and rounds correctly, what stands before the second point can be read if it has a digit, and gives the
same number. -/
theorem reads_numerals_leniently (hrun : ∀ c ∈ run, isNumeral c = true) (hne : run ≠ [])
    (htext : s.text = run ++ rest) (hrest : Follows isNumeral rest) :
    ∃ x, TokenSource.tokens s = .number x :: TokenSource.tokens (TokenSource.scan s).rest ∧
      (TokenSource.scan s).rest.text = rest ∧
      (TokenSource.scan s).rest.pulls = s.pulls + run.length ∧
      ((∃ v, LongestStrictNumeral run (beforePoint 1 run) v ∧ ∀ y, y.IsNearest v ↔ y = x) ∨
        (∀ part v, part <+: run → ¬ StrictNumeral part v) ∧ x = .zero) ∧
      ∀ strict, ReadsStrictNumerals strict → cutAndRead strict run = x ∧
        ((beforePoint 1 run).any Char.isDigit = true → (strict (beforePoint 1 run)).isSome = true) := by
  obtain ⟨htoken, hleft, hpulls⟩ := scan_of_numeral hrun hne htext hrest
  refine ⟨(Decimal.ofNumeral run).nearest, ?_, hleft, hpulls, ?_, fun strict hs => cutAndRead_eq hs hrun⟩
  · have hscan : (TokenSource.scan s).token = .number (Decimal.ofNumeral run).nearest := htoken
    rw [TokenSource.tokens, hscan, dif_neg Token.noConfusion]
  · rcases longestStrictNumeral_or_none hrun with hlongest | ⟨hnone, -, hzero⟩
    · exact .inl ⟨_, hlongest, fun _ => Decimal.isNearest_iff _⟩
    · exact .inr ⟨hnone, hzero⟩

/-- Of `1.2.3` the first three characters count, and all five are taken. -/
theorem reads_numerals_leniently_with_two_points :
    let s := (ofSource (Script.ofList "1.2.3;".toList)).bump
    ∃ x, TokenSource.tokens s = .number x :: TokenSource.tokens (TokenSource.scan s).rest ∧
      (TokenSource.scan s).rest.text = [';'] ∧ (∀ y : Binary64, y.IsNearest (6 / 5) ↔ y = x) ∧
      cutAndRead (fun text => some (Decimal.ofNumeral text).nearest) "1.2.3".toList = x := by
  intro s
  have htext : s.text = "1.2.3".toList ++ [';'] := (text_bump _).trans (Script.text_ofList _)
  have hrun : ∀ c ∈ "1.2.3".toList, isNumeral c = true := List.all_eq_true.1 (by decide)
  obtain ⟨x, htokens, hleft, -, hvalue, hstrict⟩ :=
    reads_numerals_leniently hrun (by decide) htext (by decide)
  refine ⟨x, htokens, hleft, ?_, (hstrict _ readsStrictNumerals_ofNumeral).1⟩
  have hcut : beforePoint 1 "1.2.3".toList = ['1', '.', '2'] := by decide
  have hform : StrictNumeral ['1', '.', '2'] (digitsValue ['1'] + digitsValue ['2'] / 10 ^ 1) :=
    show StrictNumeral (['1'] ++ '.' :: ['2']) _ from
      .point (by decide) (List.all_eq_true.1 (by decide)) (List.all_eq_true.1 (by decide))
  have hdigits : digitsValue ['1'] = 1 ∧ digitsValue ['2'] = 2 := by decide
  rw [hdigits.1, hdigits.2] at hform
  rcases hvalue with ⟨v, hlongest, hnearest⟩ | ⟨hnone, -⟩
  · rw [hcut] at hlongest
    have hv : v = 6 / 5 := by
      rw [hlongest.strict.value_eq, ← hform.value_eq]
      norm_num
    exact hv ▸ hnearest
  · exact absurd hform (hnone _ _ (hcut ▸ beforePoint_isPrefix 1 _))

end Scanner

/-! ### Printed numbers -/

section

variable {x : Binary64}

/-- A finite number without a sign is written in the strict form, with a value to which it is the nearest
number. -/
theorem Binary64.strictNumeral_text (h : x.isFinite = true) (hs : x.isNegative = false) :
    ∃ v, StrictNumeral x.text.toList v ∧ ∀ y, y.IsNearest v ↔ y = x := by
  refine ⟨x.shortest.value, ?_, fun y => ?_⟩
  · rw [toList_text h hs]
    exact x.shortest.strictNumeral_positional
  · rw [Decimal.isNearest_iff, nearest_shortest h, abs_eq_self hs]

/-- A finite number without a sign is written as digits with at most one point, and so without a power of
ten. From any source that has this text, and nothing behind it, the number is scanned, with the same
pattern, and then the end of the input for good. The exact value of the text has this number, and no
other, for the nearest one. -/
theorem Scanner.reads_printed_numbers (h : x.isFinite = true) (hs : x.isNegative = false) :
    (∀ c ∈ (Expr.number x).text.toList, c.isDigit = true ∨ c = '.') ∧
      (Expr.number x).text.toList.count '.' ≤ 1 ∧
      (∃ v, StrictNumeral (Expr.number x).text.toList v ∧ ∀ y, y.IsNearest v ↔ y = x) ∧
      ∀ {σ : Type} [CharSource σ] (source : σ),
        CharSource.text source = (Expr.number x).text.toList →
          (TokenSource.nthScan (ofSource source) 0).token = .number x ∧
            ∀ k, (TokenSource.nthScan (ofSource source) (k + 1)).token = .endOfInput := by
  rw [Expr.text]
  obtain ⟨whole, fraction, hwritten⟩ := Binary64.isPositional_text h hs
  refine ⟨fun c hc => ?_, hwritten.count_point_le, Binary64.strictNumeral_text h hs, ?_⟩
  · cases hdigit : c.isDigit with
    | true => exact .inl rfl
    | false => exact .inr (eq_point_of_isNumeral (hwritten.isNumeral c hc) hdigit)
  · intro σ _ source htext
    obtain ⟨c, cs, hcons⟩ := List.exists_cons_of_ne_nil hwritten.ne_nil
    have hnumeral := hwritten.isNumeral
    rw [hcons] at hnumeral
    obtain ⟨hc, hcs⟩ := List.forall_mem_cons.1 hnumeral
    have hcuts : Cuts [.numeral c cs] (CharSource.text source) := by
      rw [htext, hcons]
      exact ⟨⟨⟨hc, hcs, nofun⟩, trivial⟩, List.append_nil _⟩
    have htoken : Token.ofNumeral (c :: cs) = .number x := hcons ▸ Token.ofNumeral_text h hs
    exact ⟨(hasRead_nthScan hcuts 0).token_eq.trans htoken,
      fun k => (hasRead_nthScan hcuts (k + 1)).token_eq⟩

/-- The least positive number and the greatest finite one. -/
theorem Scanner.reads_printed_numbers_at_bounds :
    let least : Binary64 := ⟨1⟩
    let greatest : Binary64 := ⟨0x7FEFFFFFFFFFFFFF⟩
    (TokenSource.nthScan (ofSource (Script.ofString (Expr.number least).text)) 0).token = .number least ∧
      (TokenSource.nthScan (ofSource (Script.ofString (Expr.number greatest).text)) 0).token =
        .number greatest := by
  intro least greatest
  exact ⟨((reads_printed_numbers (x := least) (by decide) (by decide)).2.2.2 _
      (Script.text_ofList _)).1,
    ((reads_printed_numbers (x := greatest) (by decide) (by decide)).2.2.2 _
      (Script.text_ofList _)).1⟩

end

end Kaleidoscope
