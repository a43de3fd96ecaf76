import Kaleidoscope.Parser.Expression
import Kaleidoscope.Tree.Chain

/-!
# Reading operators in two phases

The plain way to read operators: first all of them with their operands, in a row, then the tree. It
needs the whole row before it can build anything, but it is plain to see what it does.

## Main definitions

* `Parser.chain` — the operators that bind at least as tightly as a bound, with their operands
* `Parser.chainedOperators` — the tree of those after a left operand
-/

namespace Kaleidoscope

namespace Parser

variable {τ : Type} [TokenSource τ]

/-- The operators in front that bind at least as tightly as `least`, each with its operand. -/
def chain (least : Int) (p : Parser τ) : Outcome p Chain :=
  match h : p.current.operator? with
  | some (op, precedence) =>
    if least ≤ precedence then
      ((primary p.advance).andThen fun operand q _ =>
        (chain least q).map ((op, operand) :: ·)).after
          (reaches_advance (Token.ne_endOfInput_of_operator? h))
    else .ok [] p (.refl p)
  | none => .ok [] p (.refl p)
termination_by p.size
decreasing_by
  exact Reaches.lt_of_lt (.refl p) (Nat.lt_of_le_of_lt (Reaches.size_le ‹p.advance.Reaches q›)
    (size_advance_lt (Token.ne_endOfInput_of_operator? h)))

/-- The tree of a left operand that has been read and the operators in front that bind at least as
tightly as `least`. -/
def chainedOperators (least : Int) (left : Expr) (p : Parser τ) : Outcome p Expr :=
  (chain least p).map (Chain.tree left)

end Parser

end Kaleidoscope
