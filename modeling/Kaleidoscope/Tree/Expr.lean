import Kaleidoscope.Decimal.Layout
import Kaleidoscope.Text.Dump
import Kaleidoscope.Text.Escape

/-!
# Expressions

The tree of an expression. Grouping parentheses leave no node: the shape of the tree is the grouping,
and the compact text writes it back with one pair of parentheses for each binary operation.

## Lists inside trees

The arguments of a call are a list of expressions, so every function on expressions comes with its
twin on lists. The twin is always a `map` or a pointwise comparison, as a lemma beside it says.

## Main definitions

* `Expr` — expressions
* `Expr.text` — the compact text
* `Expr.dump` — how the tree is built
* `Expr.same` — equality, with numbers compared as numbers
-/

namespace Kaleidoscope

/-- An expression. -/
inductive Expr where
  | number (value : Binary64)
  | var (name : String)
  | binary (op : Char) (left right : Expr)
  | call (callee : String) (args : List Expr)
  deriving Repr

namespace Expr

/-! ### Compact text -/

mutual

/-- An expression on one line, with every binary operation in parentheses. -/
def text : Expr → String
  | number value => value.text
  | var name => name
  | binary op left right => "(" ++ text left ++ " " ++ op.toString ++ " " ++ text right ++ ")"
  | call callee args => callee ++ "(" ++ String.intercalate ", " (texts args) ++ ")"

/-- Each of several expressions on one line. -/
def texts : List Expr → List String
  | [] => []
  | e :: es => text e :: texts es

end

theorem texts_eq_map (es : List Expr) : texts es = es.map text := by
  induction es with
  | nil => rfl
  | cons e es ih => simp [texts, ih]

/-! ### Dump -/

mutual

/-- How the tree is built. -/
def dump : Expr → Dump
  | number value => .constructor "NumberExpr" [.atom value.explicitText]
  | var name => .constructor "VariableExpr" [.atom (quotedString name)]
  | binary op left right =>
    .record "BinaryExpr"
      [.labelled "op" (.atom (quotedChar op)), .labelled "left" (dump left),
        .labelled "right" (dump right)]
  | call callee args =>
    .record "CallExpr"
      [.labelled "callee" (.atom (quotedString callee)), .labelled "args" (.list (dumps args))]

/-- How each of several trees is built. -/
def dumps : List Expr → List Dump
  | [] => []
  | e :: es => dump e :: dumps es

end

/-! ### Equality -/

mutual

/-- Equality of trees, with numbers compared as numbers. -/
def same : Expr → Expr → Bool
  | number x, number y => x.same y
  | var a, var b => a = b
  | binary op left right, binary op' left' right' =>
    op = op' && same left left' && same right right'
  | call callee args, call callee' args' => callee = callee' && sameAll args args'
  | _, _ => false

/-- Equality of lists of trees. -/
def sameAll : List Expr → List Expr → Bool
  | [], [] => true
  | e :: es, e' :: es' => same e e' && sameAll es es'
  | _, _ => false

end

end Expr

end Kaleidoscope
