import Kaleidoscope.Token
import Kaleidoscope.Tree.Item

/-!
# The language of programs

Which sequences of tokens are programs. Here only membership counts, and no tree, so precedence plays
no part and an expression is a chain of operands:

```
program    ::= unit*
unit       ::= ';' | 'def' prototype expression | 'extern' prototype | expression
expression ::= primary (operator primary)*
```

Nothing has to stand between two units, so the grammar is ambiguous: `x (y)` is a call, or two units.

## Main definitions

* `Language.IsExpression`, `Language.IsPrimary`, `Language.IsArguments` — expressions as chains
* `Language.IsPrototype` — heads of functions
* `Language.IsUnit`, `Language.IsProgram` — units and programs

## Main results

* `Language.IsProgram.append` — two programs, one after the other, are a program
-/

namespace Kaleidoscope

namespace Language

/-- The tokens that are binary operators. -/
def IsOperator (t : Token) : Prop := t ∈ [.char '<', .char '+', .char '-', .char '*']

mutual

/-- A chain of operands. -/
inductive IsExpression : List Token → Prop where
  | primary {u : List Token} (h : IsPrimary u) : IsExpression u
  | chain {u v : List Token} {op : Token} (hu : IsPrimary u) (ho : IsOperator op)
    (hv : IsExpression v) : IsExpression (u ++ op :: v)

/-- An operand. -/
inductive IsPrimary : List Token → Prop where
  | number (value : Binary64) : IsPrimary [.number value]
  | name (name : String) : IsPrimary [.identifier name]
  | emptyCall (callee : String) : IsPrimary [.identifier callee, .char '(', .char ')']
  | call {u : List Token} (callee : String) (h : IsArguments u) :
    IsPrimary (.identifier callee :: .char '(' :: (u ++ [.char ')']))
  | group {u : List Token} (h : IsExpression u) : IsPrimary (.char '(' :: (u ++ [.char ')']))

/-- Arguments, at least one. -/
inductive IsArguments : List Token → Prop where
  | one {u : List Token} (h : IsExpression u) : IsArguments u
  | more {u v : List Token} (h : IsExpression u) (hs : IsArguments v) :
    IsArguments (u ++ .char ',' :: v)

end

/-- The head of a function. -/
inductive IsPrototype : List Token → Prop where
  | intro (name : String) (parameters : List String) :
    IsPrototype (.identifier name :: .char '(' :: (parameters.map .identifier ++ [.char ')']))

/-- One unit. -/
inductive IsUnit : List Token → Prop where
  | separator : IsUnit [.char ';']
  | definition {u v : List Token} (hu : IsPrototype u) (hv : IsExpression v) :
    IsUnit (.defKeyword :: (u ++ v))
  | external {u : List Token} (h : IsPrototype u) : IsUnit (.externKeyword :: u)
  | expression {u : List Token} (h : IsExpression u) : IsUnit u

/-- Any number of units. -/
inductive IsProgram : List Token → Prop where
  | nil : IsProgram []
  | cons {u v : List Token} (hu : IsUnit u) (hv : IsProgram v) : IsProgram (u ++ v)

/-- Two programs, one after the other, are a program. -/
theorem IsProgram.append {u v : List Token} (hu : IsProgram u) (hv : IsProgram v) :
    IsProgram (u ++ v) := by
  induction hu with
  | nil => exact hv
  | cons h _ ih => rw [List.append_assoc]; exact .cons h ih

end Language

end Kaleidoscope
