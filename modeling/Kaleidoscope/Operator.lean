import Kaleidoscope.Token

/-!
# Binary operators

Four operators, all of which associate to the left. Any other character may stand in a tree, but none
is an operator to the parser.
-/

namespace Kaleidoscope

/-- How tightly a binary operator binds. -/
def operatorPrecedence : Char → Option Nat
  | '<' => some 10
  | '+' => some 20
  | '-' => some 20
  | '*' => some 40
  | _ => none

namespace Token

/-- The binary operator that a token is, and how tightly it binds. -/
def operator? : Token → Option (Char × Nat)
  | char c => (operatorPrecedence c).map fun precedence => (c, precedence)
  | _ => none

/-- How tightly a token binds as a binary operator. What is none binds less tightly than any. -/
def precedence (t : Token) : Int :=
  match t.operator? with
  | some (_, precedence) => precedence
  | none => -1

theorem ne_endOfInput_of_operator? {t : Token} {op : Char × Nat} (h : t.operator? = some op) :
    t ≠ endOfInput := by
  rintro rfl
  cases h

end Token

end Kaleidoscope
