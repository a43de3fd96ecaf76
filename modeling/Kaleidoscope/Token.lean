import Kaleidoscope.Decimal.Layout
import Kaleidoscope.Text.Dump
import Kaleidoscope.Text.Escape

/-!
# Tokens

What a program's text is read as. The end of the input is a token too, so a parser always has one in
front of it.

## Main definitions

* `Token` — the tokens
* `Token.ofWord`, `Token.ofNumeral` — the token that a word or a numeral stands for
* `Token.text` — how messages name a token
* `Token.dump` — how a token is built
* `Token.same` — equality, with numbers compared as numbers
* `Token.weight` — one, except for the end of the input

## Main results

* `Token.weight_eq_zero_iff` — only the end of the input weighs nothing
-/

namespace Kaleidoscope

/-- A token of the language. -/
inductive Token where
  | endOfInput
  | defKeyword
  | externKeyword
  | identifier (name : String)
  | number (value : Binary64)
  /-- Any other character: operators, brackets, separators and all that has no meaning. -/
  | char (c : Char)
  deriving DecidableEq, Repr

namespace Token

/-! ### Reading -/

/-- A word is a keyword, in lower case, or an identifier. -/
def ofWord (word : String) : Token :=
  if word = "def" then defKeyword
  else if word = "extern" then externKeyword
  else identifier word

/-- A run of digits and points is a number, however it is formed. -/
def ofNumeral (run : List Char) : Token := number (Decimal.ofNumeral run).nearest

theorem ofWord_ne_endOfInput (word : String) : ofWord word ≠ endOfInput := by
  unfold ofWord
  split
  · simp
  · split <;> simp

/-! ### Writing -/

/-- How a message names the token: in printable ASCII and on one line. -/
def text : Token → String
  | endOfInput => "end of input"
  | defKeyword => "'def'"
  | externKeyword => "'extern'"
  | identifier name => "identifier '" ++ name ++ "'"
  | number value => "number " ++ value.text
  | char c => "'" ++ asciiEscape c ++ "'"

/-- How the token is built. -/
def dump : Token → Dump
  | endOfInput => .atom "EndOfInput"
  | defKeyword => .atom "FuncDef"
  | externKeyword => .atom "Extern"
  | identifier name => .constructor "Identifier" [.atom (quotedString name)]
  | number value => .constructor "Number" [.atom value.explicitText]
  | char c => .constructor "Char" [.atom (quotedChar c)]

/-! ### Comparing -/

/-- Equality of tokens, with numbers compared as numbers. -/
def same : Token → Token → Bool
  | number x, number y => x.same y
  | s, t => s = t

/-! ### Progress -/

/-- What a token adds to the work of reading it. The end of the input comes again and again, so it
adds nothing. -/
def weight : Token → Nat
  | endOfInput => 0
  | _ => 1

theorem weight_eq_zero_iff {t : Token} : t.weight = 0 ↔ t = endOfInput := by
  cases t <;> simp [weight]

theorem weight_le_one (t : Token) : t.weight ≤ 1 := by
  cases t <;> simp [weight]

theorem weight_pos {t : Token} (h : t ≠ endOfInput) : 0 < t.weight :=
  Nat.pos_of_ne_zero fun hw => h (weight_eq_zero_iff.1 hw)

end Token

end Kaleidoscope
