import Kaleidoscope.Token
import Kaleidoscope.Tree.Item

/-!
# The grammar of expressions

Which tokens are an expression, and what tree they stand for, said without a parser:

```
comparison ::= sum | comparison '<' sum
sum        ::= product | sum '+' product | sum '-' product
product    ::= primary | product '*' primary
primary    ::= number | name | name '(' arguments ')' | '(' comparison ')'
arguments  ::= [comparison (',' comparison)*]
```

One level for each precedence, and recursion on the left, so the tree is determined: an operator's
left operand may be of its own level, its right operand may not. Each rule is a relation between the
tokens it covers and the tree they stand for; parentheses leave nothing in the tree.

## Main definitions

* `Grammar.Comparison`, `Grammar.Sum`, `Grammar.Product`, `Grammar.Primary` — the levels
* `Grammar.Arguments`, `Grammar.SomeArguments` — the arguments of a call
* `Prototype.tokens` — the tokens of a function's head, which its tree determines
* `Grammar.Definition`, `Grammar.External` — what starts with a keyword

## Main results

* `Grammar.Comparison.ne_nil` — an expression has a token
-/

namespace Kaleidoscope

namespace Grammar

mutual

/-- Expressions. -/
inductive Comparison : List Token → Expr → Prop where
  | sum {u : List Token} {e : Expr} (h : Sum u e) : Comparison u e
  | less {u v : List Token} {l r : Expr} (hl : Comparison u l) (hr : Sum v r) :
    Comparison (u ++ .char '<' :: v) (.binary '<' l r)

/-- Expressions without a comparison outside parentheses. -/
inductive Sum : List Token → Expr → Prop where
  | product {u : List Token} {e : Expr} (h : Product u e) : Sum u e
  | plus {u v : List Token} {l r : Expr} (hl : Sum u l) (hr : Product v r) :
    Sum (u ++ .char '+' :: v) (.binary '+' l r)
  | minus {u v : List Token} {l r : Expr} (hl : Sum u l) (hr : Product v r) :
    Sum (u ++ .char '-' :: v) (.binary '-' l r)

/-- Expressions with no operator but multiplication outside parentheses. -/
inductive Product : List Token → Expr → Prop where
  | primary {u : List Token} {e : Expr} (h : Primary u e) : Product u e
  | times {u v : List Token} {l r : Expr} (hl : Product u l) (hr : Primary v r) :
    Product (u ++ .char '*' :: v) (.binary '*' l r)

/-- Operands. -/
inductive Primary : List Token → Expr → Prop where
  | number (value : Binary64) : Primary [.number value] (.number value)
  | name (name : String) : Primary [.identifier name] (.var name)
  | call {u : List Token} {es : List Expr} (callee : String) (h : Arguments u es) :
    Primary (.identifier callee :: .char '(' :: (u ++ [.char ')'])) (.call callee es)
  | group {u : List Token} {e : Expr} (h : Comparison u e) :
    Primary (.char '(' :: (u ++ [.char ')'])) e

/-- The arguments of a call. -/
inductive Arguments : List Token → List Expr → Prop where
  | none : Arguments [] []
  | some {u : List Token} {es : List Expr} (h : SomeArguments u es) : Arguments u es

/-- At least one argument. -/
inductive SomeArguments : List Token → List Expr → Prop where
  | one {u : List Token} {e : Expr} (h : Comparison u e) : SomeArguments u [e]
  | more {u v : List Token} {e : Expr} {es : List Expr} (h : Comparison u e)
    (hs : SomeArguments v es) : SomeArguments (u ++ .char ',' :: v) (e :: es)

end

/-! ### No rule of expressions is empty -/

theorem Primary.ne_nil {u : List Token} {e : Expr} (h : Primary u e) : u ≠ [] := by
  cases h <;> simp

theorem Product.ne_nil {u : List Token} {e : Expr} (h : Product u e) : u ≠ [] := by
  cases h with
  | primary h => exact h.ne_nil
  | times => simp

theorem Sum.ne_nil {u : List Token} {e : Expr} (h : Sum u e) : u ≠ [] := by
  cases h with
  | product h => exact h.ne_nil
  | plus => simp
  | minus => simp

theorem Comparison.ne_nil {u : List Token} {e : Expr} (h : Comparison u e) : u ≠ [] := by
  cases h with
  | sum h => exact h.ne_nil
  | less => simp

end Grammar

/-! ### Functions -/

/-- The tokens of a function's head. -/
def Prototype.tokens (p : Prototype) : List Token :=
  .identifier p.name :: .char '(' :: (p.parameters.map .identifier ++ [.char ')'])

namespace Grammar

/-- A function with its keyword. -/
inductive Definition : List Token → Function → Prop where
  | intro {v : List Token} {body : Expr} (head : Prototype) (h : Comparison v body) :
    Definition (.defKeyword :: (head.tokens ++ v)) ⟨head, body⟩

/-- An external declaration with its keyword. -/
inductive External : List Token → Prototype → Prop where
  | intro (head : Prototype) : External (.externKeyword :: head.tokens) head

end Grammar

end Kaleidoscope
