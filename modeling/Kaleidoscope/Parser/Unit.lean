import Kaleidoscope.Parser.Expression
import Kaleidoscope.Tree.Item

/-!
# Parsing what stands at the top level

```
prototype  ::= name '(' name* ')'
definition ::= 'def' prototype expression
external   ::= 'extern' prototype
```

A definition and an external declaration begin by dropping the token in front: they are entered when
it is their keyword, and look at it no more.

## Main definitions

* `Parser.prototype`, `Parser.definition`, `Parser.external` — the productions
* `Parser.bareExpression` — an expression, wrapped in a function
-/

namespace Kaleidoscope

namespace Parser

variable {τ : Type} [TokenSource τ]

/-- Names up to the first token that is none. -/
def names (p : Parser τ) : Outcome p (List String) :=
  match h : p.current with
  | .identifier name =>
    ((names p.advance).map (name :: ·)).after (reaches_advance (by simp [h]))
  | _ => .ok [] p (.refl p)
termination_by p.size
decreasing_by exact size_advance_lt (by simp [h])

/-- The head of a function. -/
def prototype (p : Parser τ) : Outcome p Prototype :=
  match h : p.current with
  | .identifier name =>
    ((p.advance.expect '(' .parametersOpen).andThen fun _ q _ =>
      (names q).andThen fun parameters r _ =>
        (r.expect ')' .parametersClose).map fun _ => ⟨name, parameters⟩).after
      (reaches_advance (by simp [h]))
  | _ => .fail .functionName p (.refl p)

/-- A function defined elsewhere, after the token in front. -/
def external (p : Parser τ) : Reply τ Prototype := (prototype p.advance).toReply

/-- A function, after the token in front. -/
def definition (p : Parser τ) : Reply τ Function :=
  ((prototype p.advance).andThen fun head q _ =>
    (expression q).map (Function.mk head)).toReply.note
      fun f => .parsedDefinition f.prototype.name

/-- An expression, wrapped in a function. -/
def bareExpression (p : Parser τ) : Reply τ Function :=
  ((expression p).map Function.ofExpr).toReply.note fun f => .parsedExpression f.body

/-! ### Progress -/

theorem size_external_le (p : Parser τ) : p.external.parser.size ≤ p.advance.size :=
  Reaches.size_le (prototype p.advance).reaches

theorem size_definition_le (p : Parser τ) : p.definition.parser.size ≤ p.advance.size := by
  rw [definition, Reply.size_note]
  exact Reaches.size_le (Outcome.reaches _)

/-- An expression at the top level is never read off no tokens. -/
theorem size_bareExpression_lt {p : Parser τ} {f : Function} (h : p.bareExpression.result = .ok f) :
    p.bareExpression.parser.size < p.size := by
  rw [bareExpression, Reply.size_note]
  rw [bareExpression, Reply.result_note] at h
  cases he : (expression p).result with
  | ok e => exact size_expression_lt he
  | error e => simp [he, Except.map] at h

/-- Where an expression fails, nothing but the parser's own progress has happened. -/
theorem reaches_bareExpression {p : Parser τ} {e : ParseError}
    (h : p.bareExpression.result = .error e) : p.Reaches p.bareExpression.parser := by
  rw [bareExpression, Reply.result_note] at h
  rw [bareExpression, Reply.note, h]
  exact Outcome.reaches _

end Parser

end Kaleidoscope
