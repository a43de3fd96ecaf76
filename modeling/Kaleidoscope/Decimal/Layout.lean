import Kaleidoscope.Decimal.Shortest

/-!
# Numbers as text

The digits come from `Binary64.shortest`; what is left to decide is where the point goes. A
`NumberLayout` holds those decisions, and the two layouts of the language are two values of it.

## Main definitions

* `Decimal.positional`, `Decimal.scientific` — a decimal without and with a power of ten
* `NumberLayout` — when to use which, and whether to mark whole numbers
* `Binary64.text` — how a program's text and messages write a number
* `Binary64.explicitText` — how a dump of a tree writes one
-/

namespace Kaleidoscope

namespace Decimal

/-- The digits, without leading zeros. -/
def numerals (d : Decimal) : List Char := Nat.toDigits 10 d.digits

/-- The power of ten that the leading digit counts. -/
def leadingExponent (d : Decimal) : Int := d.exponent + d.numerals.length - 1

/-- All places written out, with a point only before a fraction. -/
def positional (d : Decimal) : List Char :=
  let places := (-d.exponent).toNat
  let whole := d.numerals.length - places
  if 0 ≤ d.exponent then d.numerals ++ List.replicate d.exponent.toNat '0'
  else if places < d.numerals.length then d.numerals.take whole ++ '.' :: d.numerals.drop whole
  else '0' :: '.' :: (List.replicate (places - d.numerals.length) '0' ++ d.numerals)

/-- One digit before the point, and the power of ten it counts. -/
def scientific (d : Decimal) : List Char :=
  let mantissa := match d.numerals with
    | [] => []
    | [c] => [c]
    | c :: cs => c :: '.' :: cs
  let sign := if d.leadingExponent < 0 then ['-'] else []
  mantissa ++ 'e' :: sign ++ Nat.toDigits 10 d.leadingExponent.natAbs

end Decimal

/-- The decisions that a written number leaves open. -/
structure NumberLayout where
  /-- The least and the greatest power of ten of a leading digit at which all places are written out;
  without bounds they always are. -/
  positionalRange : Option (Int × Int)
  /-- Whether a whole number with all places written out gets a zero after a point. -/
  marksWhole : Bool

namespace NumberLayout

/-- Never a power of ten, and a point only before a fraction: the only way in which the language
itself can spell a number. -/
def plain : NumberLayout := ⟨none, false⟩

/-- Powers of ten below `10 ^ -4` and from `10 ^ 16` on, and a mark on whole numbers, so that a number
cannot be taken for anything else. -/
def explicit : NumberLayout := ⟨some (-4, 15), true⟩

/-- Whether a decimal has all its places written out. -/
def isPositional (layout : NumberLayout) (d : Decimal) : Bool :=
  match layout.positionalRange with
  | none => true
  | some (least, greatest) => least ≤ d.leadingExponent && d.leadingExponent ≤ greatest

/-- A decimal in this layout. -/
def write (layout : NumberLayout) (d : Decimal) : List Char :=
  if layout.isPositional d then
    d.positional ++ if layout.marksWhole && 0 ≤ d.exponent then ['.', '0'] else []
  else d.scientific

end NumberLayout

namespace Binary64

/-- A number in a layout. The sign of a NaN is not written. -/
def write (layout : NumberLayout) (x : Binary64) : List Char :=
  let sign := if x.isNegative then ['-'] else []
  if x.isNaN then "NaN".toList
  else if x.isInfinite then sign ++ "inf".toList
  else sign ++ layout.write x.shortest

/-- A number as programs and messages write it. -/
def text (x : Binary64) : String := String.ofList (x.write .plain)

/-- A number as dumps of trees write it. -/
def explicitText (x : Binary64) : String := String.ofList (x.write .explicit)

end Binary64

end Kaleidoscope
