import Kaleidoscope.Text.GraphemeExtend
import Kaleidoscope.Text.Unprintable

/-!
# Escapes

Two ways to write a character inside quotation marks.

## Two readers, two alphabets

A diagnostic has to survive any terminal, so `asciiEscape` leaves nothing but printable ASCII. A
dump of a tree is read by people, so `quotedString` and `quotedChar` keep every character that has a
visible form and spell out only the rest.

## Main definitions

* `hexEscape` — a code point in hexadecimal, between braces
* `asciiEscape` — a character in printable ASCII
* `quotedString`, `quotedChar` — a string or a character as a quoted literal
-/

namespace Kaleidoscope

/-- A code point in lower-case hexadecimal without leading zeros, between braces. -/
def hexEscape (c : Char) : String :=
  "\\u\x7b" ++ String.ofList (Nat.toDigits 16 c.toNat) ++ "\x7d"

/-- A character in printable ASCII: quotation marks of both kinds, the backslash, the tab and the two
line ends after a backslash, other printable ASCII as it is, all else by its code point. -/
def asciiEscape (c : Char) : String :=
  match c with
  | '\t' => "\\t"
  | '\r' => "\\r"
  | '\n' => "\\n"
  | '\'' => "\\'"
  | '"' => "\\\""
  | '\\' => "\\\\"
  | c => if 0x20 ≤ c.toNat ∧ c.toNat ≤ 0x7E then c.toString else hexEscape c

/-! ### Quoted literals -/

/-- A character inside a literal that ends at `quote`. With `afterQuote` it stands next to the
quotation mark, and one that would be drawn onto the mark is spelt out. -/
def literalChar (quote : Char) (afterQuote : Bool) (c : Char) : String :=
  match c with
  | '\x00' => "\\0"
  | '\t' => "\\t"
  | '\r' => "\\r"
  | '\n' => "\\n"
  | c =>
    if c = quote ∨ c = '\\' then "\\" ++ c.toString
    else if (afterQuote && isJoining c) || !isPrintable c then hexEscape c
    else c.toString

/-- A character as a literal. -/
def quotedChar (c : Char) : String :=
  "'" ++ literalChar '\'' true c ++ "'"

/-- A string as a literal. Only its first character stands next to the quotation mark, so only there
is a combining mark spelt out. -/
def quotedString (s : String) : String :=
  match s.toList with
  | [] => "\"\""
  | c :: cs =>
    "\"" ++ literalChar '"' true c ++ String.join (cs.map (literalChar '"' false)) ++ "\""

end Kaleidoscope
