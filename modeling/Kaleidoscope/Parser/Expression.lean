import Kaleidoscope.Operator
import Kaleidoscope.Parser.State

/-!
# Parsing expressions

```
expression ::= primary (operator primary)*
primary    ::= number | name | name '(' arguments ')' | '(' expression ')'
arguments  ::= [expression (',' expression)*]
```

## Operators

A chain of operands is turned into a tree while it is read. `operators least left` has a left operand
and takes in operators that bind at least as tightly as `least`. After each right operand it looks at
the operator that follows: one that binds more tightly takes that operand as its own left operand
first. Raising `least` by one for it leaves operators of equal precedence to the outer loop, so they
associate to the left.

## Taking before looking

A production for one token may take it first and look at what it took, with a second failure in case it
is not what the caller saw. `primaryByTaking` is an operand read that way.

## Termination

Every call of a production on a parser of the same size goes down from arguments to an expression to
a primary; every other call has read a token since.

## Main definitions

* `Parser.primary`, `Parser.expression`, `Parser.operators` — the productions
* `Parser.arguments` — the arguments of a call, after the opening parenthesis
* `Parser.primaryByTaking` — operands, taking a token before looking at it

## Main results

* `Parser.size_primary_lt`, `size_expression_lt` — a tree is never read off no tokens
-/

namespace Kaleidoscope

namespace Parser

variable {τ : Type} [TokenSource τ]

/-- Reads one character, or fails if it is not in front. -/
def expect (c : Char) (expected : Expectation) (p : Parser τ) : Outcome p Unit :=
  if h : p.current = .char c then .ok () p.advance (reaches_advance (by simp [h]))
  else .fail expected p (.refl p)

/-- Whether the operator in front binds more tightly than `precedence`. -/
def bindsTighter (p : Parser τ) (precedence : Nat) : Bool :=
  match p.current.operator? with
  | some (_, next) => precedence < next
  | none => false

mutual

/-- An operand: a number, a variable, a call, or an expression in parentheses. -/
def primary (p : Parser τ) : Outcome p Expr :=
  match h : p.current with
  | .number value => .ok (.number value) p.advance (reaches_advance (by simp [h]))
  | .identifier name =>
    if hc : p.advance.current = .char '(' then
      ((arguments p.advance.advance).map (.call name)).after
        ((reaches_advance (by simp [h])).trans (reaches_advance (by simp [hc])))
    else .ok (.var name) p.advance (reaches_advance (by simp [h]))
  | .char '(' =>
    ((expression p.advance).andThen fun e q _ =>
      (q.expect ')' .closingParen).map fun _ => e).after (reaches_advance (by simp [h]))
  | _ => .fail .expression p (.refl p)
termination_by (p.size, 0)
decreasing_by
  · refine .left _ _ (Nat.lt_trans (size_advance_lt ?_) (size_advance_lt ?_))
    · simp [hc]
    · simp [h]
  · exact .left _ _ (size_advance_lt (by simp [h]))

/-- The arguments of a call and the parenthesis that closes them. -/
def arguments (p : Parser τ) : Outcome p (List Expr) :=
  if h : p.current = .char ')' then .ok [] p.advance (reaches_advance (by simp [h]))
  else someArguments p
termination_by (p.size, 3)

/-- At least one argument, and the parenthesis that closes them. -/
def someArguments (p : Parser τ) : Outcome p (List Expr) :=
  (expression p).andThen fun e q _ =>
    match h : q.current with
    | .char ')' => .ok [e] q.advance (reaches_advance (by simp [h]))
    | .char ',' =>
      ((someArguments q.advance).map (e :: ·)).after (reaches_advance (by simp [h]))
    | _ => .fail .argumentEnd q (.refl q)
termination_by (p.size, 2)
decreasing_by
  · exact .right _ (by decide)
  · exact .left _ _ (Reaches.lt_of_lt ‹_› (size_advance_lt (by simp [h])))

/-- An operand and the operators that follow it. -/
def expression (p : Parser τ) : Outcome p Expr :=
  (primary p).andThen fun left q _ => operators 0 left q
termination_by (p.size, 1)
decreasing_by
  · exact .right _ (by decide)
  · rcases ‹p.Reaches q› with rfl | hq
    · exact .right _ (by decide)
    · exact .left _ _ hq

/-- The operators that bind at least as tightly as `least`, with a left operand that has been read. -/
def operators (least : Int) (left : Expr) (p : Parser τ) : Outcome p Expr :=
  match h : p.current.operator? with
  | some (op, precedence) =>
    if least ≤ precedence then
      ((primary p.advance).andThen fun right q _ =>
        if q.bindsTighter precedence then
          (operators (precedence + 1) right q).andThen fun right r _ =>
            operators least (.binary op left right) r
        else operators least (.binary op left right) q).after
          (reaches_advance (Token.ne_endOfInput_of_operator? h))
    else .ok left p (.refl p)
  | none => .ok left p (.refl p)
termination_by (p.size, 0)
decreasing_by
  all_goals have hp := size_advance_lt (Token.ne_endOfInput_of_operator? h)
  · exact .left _ _ hp
  · exact .left _ _ (Nat.lt_of_le_of_lt (Reaches.size_le ‹p.advance.Reaches q›) hp)
  · exact .left _ _ (Nat.lt_of_le_of_lt
      (Nat.le_trans (Reaches.size_le ‹q.Reaches r›) (Reaches.size_le ‹p.advance.Reaches q›)) hp)
  · exact .left _ _ (Nat.lt_of_le_of_lt (Reaches.size_le ‹p.advance.Reaches q›) hp)

end

/-! ### Taking before looking -/

/-- The token in front, and the parser after it. -/
def take (p : Parser τ) : Token × Parser τ := (p.current, p.advance)

/-- A number, if that is what is taken. -/
def takenNumber (p : Parser τ) : Reply τ Expr :=
  match p.take with
  | (.number value, q) => ⟨.ok (.number value), q⟩
  | (unexpected, q) => ⟨.error ⟨.expression, unexpected⟩, q⟩

/-- A variable or a call, if what is taken is a name. -/
def takenName (p : Parser τ) : Reply τ Expr :=
  match p.take with
  | (.identifier name, q) =>
    if q.current = .char '(' then ((arguments q.advance).map (.call name)).toReply
    else ⟨.ok (.var name), q⟩
  | (unexpected, q) => ⟨.error ⟨.expression, unexpected⟩, q⟩

/-- An operand. Which of the productions is called depends on the token in front, which a number and a
name are then taken from before it is looked at again. -/
def primaryByTaking (p : Parser τ) : Reply τ Expr :=
  match p.current with
  | .identifier _ => takenName p
  | .number _ => takenNumber p
  | .char '(' =>
    ((expression p.advance).andThen fun e q _ =>
      (q.expect ')' .closingParen).map fun _ => e).toReply
  | unexpected => ⟨.error ⟨.expression, unexpected⟩, p⟩

/-! ### Progress -/

/-- A primary is never read off no tokens. -/
theorem size_primary_lt {p : Parser τ} {e : Expr} (h : (primary p).result = .ok e) :
    (primary p).parser.size < p.size := by
  generalize ho : primary p = o at h ⊢
  rw [primary] at ho
  split at ho
  · rename_i value hp
    subst ho
    exact size_advance_lt (by simp [hp])
  · rename_i name hp
    have first : p.advance.size < p.size := size_advance_lt (by simp [hp])
    split at ho
    · rename_i hc
      subst ho
      have second : p.advance.advance.size < p.advance.size := size_advance_lt (by simp [hc])
      exact Nat.lt_of_le_of_lt (Reaches.size_le (arguments _).reaches) (Nat.lt_trans second first)
    · subst ho
      exact first
  · rename_i hp
    subst ho
    exact Nat.lt_of_le_of_lt (Reaches.size_le (Outcome.reaches (Outcome.andThen _ _)))
      (size_advance_lt (by simp [hp]))
  · subst ho
    simp at h

/-- An expression is never read off no tokens. -/
theorem size_expression_lt {p : Parser τ} {e : Expr} (h : (expression p).result = .ok e) :
    (expression p).parser.size < p.size := by
  rw [expression] at h ⊢
  cases hp : (primary p).result with
  | ok left =>
    rw [Outcome.andThen_of_ok hp]
    exact Nat.lt_of_le_of_lt (Reaches.size_le (operators _ _ _).reaches) (size_primary_lt hp)
  | error _ => simp [Outcome.andThen_of_error hp] at h

end Parser

end Kaleidoscope
