import Kaleidoscope.Binary64.Nearest

/-!
# Decimal numbers

Digits and a power of ten. A decimal is what a numeral in a program says and what a number is written
as; `Decimal.nearest` takes it to the number the language computes with.

## Lenient numerals

A numeral in a program is any run of digits and points. Only what stands before the second point
counts, a missing whole part or fraction is empty, and a run without digits is zero. So reading never
fails, and it needs no case distinction: the digits that count are the two runs of digits around the
first point, and an empty run of digits adds nothing.

A reader that knows numbers with at most one point can be put to the same use: it is given what stands
before the second point, if there is a digit in it.

## Main definitions

* `Decimal` — digits and an exponent
* `Decimal.nearest` — the nearest binary64 number
* `Decimal.ofNumeral` — the decimal that a run of digits and points stands for
* `beforePoint` — a run up to one of its points
* `cutAndRead` — the strict way to read, put to use on what stands before the second point
-/

namespace Kaleidoscope

/-- The number `digits * 10 ^ exponent`. -/
structure Decimal where
  digits : Nat
  exponent : Int
  deriving DecidableEq, Repr

namespace Decimal

/-- The nearest binary64 number, ties to even. -/
def nearest (d : Decimal) : Binary64 :=
  Binary64.nearest (d.digits * Nat.pow 10 d.exponent.toNat) (Nat.pow 10 (-d.exponent).toNat)

/-- The digits before the first point of a run. -/
def wholePart (run : List Char) : List Char := run.takeWhile Char.isDigit

/-- The digits between the first point of a run and the second. -/
def fractionPart (run : List Char) : List Char :=
  ((run.dropWhile Char.isDigit).drop 1).takeWhile Char.isDigit

/-- What a run of digits and points stands for: the digits up to the second point, of which those
after the first are decimal places. -/
def ofNumeral (run : List Char) : Decimal where
  digits := Nat.ofDigitChars 10 (wholePart run ++ fractionPart run) 0
  exponent := -(fractionPart run).length

end Decimal

/-! ### Cutting at the second point -/

/-- A run up to one of its points, of which there are `n` before it. -/
def beforePoint : Nat → List Char → List Char
  | _, [] => []
  | n, c :: run =>
    if c = '.' then
      match n with
      | 0 => []
      | n + 1 => c :: beforePoint n run
    else c :: beforePoint n run

/-- Reads what stands before the second point in a strict way, if it has a digit. A run without one is
zero, and so is what cannot be read. -/
def cutAndRead (strict : List Char → Option Binary64) (run : List Char) : Binary64 :=
  if (beforePoint 1 run).any Char.isDigit then (strict (beforePoint 1 run)).getD .zero else .zero

end Kaleidoscope
