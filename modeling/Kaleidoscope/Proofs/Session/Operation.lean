import Kaleidoscope.Proofs.Parser.Operators
import Kaleidoscope.Proofs.Parser.Soundness
import Kaleidoscope.Session.Run

/-!
# Whatever is asked of a parser

A parser can be asked for one production, for one step of a session or for a whole run, in any order and
from wherever the last request has left it. All that any of this does to the source is to read on, token
by token. So what is kept by reading one token is kept by everything, and `Operation` says so once, for
whoever has to know what a source looks like in the midst of a session.

## The token and the source

The property to be kept may speak of the token in front and of the source behind it. It may not speak of
the journal, to which productions add records of their own.

## Main definitions

* `Operation` — what can be asked of a parser
* `Parser.afterAll` — a parser after several requests

## Main results

* `Parser.exists_reads_primary`, `exists_reads_expression`, … — a production reads on, if anything
* `Parser.afterAll_invariant` — what reading on keeps is kept
-/

namespace Kaleidoscope

/-- What can be asked of a parser. -/
inductive Operation where
  | advance
  | primary
  | expression
  | operators (least : Int) (left : Expr)
  | prototype
  | external
  | definition
  | bareExpression
  | step
  | run

variable {τ : Type} [TokenSource τ]

/-- A parser after one request. -/
def Operation.after (p : Parser τ) : Operation → Parser τ
  | advance => p.advance
  | primary => p.primary.parser
  | expression => p.expression.parser
  | operators least left => (Parser.operators least left p).parser
  | prototype => p.prototype.parser
  | external => p.external.parser
  | definition => p.definition.parser
  | bareExpression => p.bareExpression.parser
  | step => p.step.2
  | run => p.run.parser

/-- A parser after several requests. -/
def Parser.afterAll (p : Parser τ) (ops : List Operation) : Parser τ := ops.foldl Operation.after p

/-! ### Productions read on -/

theorem Reply.Meets.exists_reads {α : Type} {o : Reply τ α} {p : Parser τ}
    {rule : List Token → α → Token → Prop} {broken : List Token → Expectation → Token → Prop}
    (h : o.Meets p rule broken) : ∃ u, p.Reads u o.parser := by
  cases h with
  | succeeds h _ => exact ⟨_, h.reads⟩
  | breaks h _ => exact ⟨_, h.reads⟩

theorem Reply.exists_reads_note {α : Type} {o : Reply τ α} {p : Parser τ}
    (h : ∃ u, p.Reads u o.parser) (f : α → Record) : ∃ u, p.Reads u (o.note f).parser := by
  obtain ⟨u, hu⟩ := h
  refine ⟨u, ?_⟩
  unfold note
  split
  · exact hu.record _
  · exact hu

theorem Outcome.exists_reads_andThen {α β : Type} {p : Parser τ} {o : Outcome p α}
    {f : α → (q : Parser τ) → p.Reaches q → Outcome q β} (h : ∃ u, p.Reads u o.parser)
    (hf : ∀ a, ∃ v, o.parser.Reads v (f a o.parser o.reaches).parser) :
    ∃ w, p.Reads w (o.andThen f).parser := by
  obtain ⟨u, hu⟩ := h
  cases hr : o.result with
  | ok a =>
    obtain ⟨v, hv⟩ := hf a
    rw [andThen_of_ok hr]
    exact ⟨u ++ v, hu.trans hv⟩
  | error e =>
    rw [andThen_of_error hr]
    exact ⟨u, hu⟩

namespace Parser

theorem exists_reads_primary (p : Parser τ) : ∃ u, p.Reads u (primary p).parser :=
  (primary_meets p).exists_reads

theorem exists_reads_expression (p : Parser τ) : ∃ u, p.Reads u (expression p).parser :=
  (expression_meets p).exists_reads

theorem exists_reads_prototype (p : Parser τ) : ∃ u, p.Reads u (prototype p).parser :=
  (prototype_meets p).exists_reads

theorem exists_reads_chain (least : Int) (p : Parser τ) : ∃ u, p.Reads u (chain least p).parser := by
  induction hn : p.size using Nat.strongRecOn generalizing p with
  | ind n ih =>
    rcases operator_or_stopsAt least p.current with ⟨op, precedence, ho, hle⟩ | hstop
    · obtain ⟨w, hw⟩ := Outcome.exists_reads_andThen (exists_reads_primary p.advance)
        (f := fun operand q _ => (chain least q).map ((op, operand) :: ·))
        fun _ => ih _ (hn ▸ size_primary_advance_lt ho) _ rfl
      rw [chain_of_operator ho hle]
      exact ⟨_, .cons rfl (Token.ne_endOfInput_of_operator? ho) hw⟩
    · rw [chain_of_stopsAt hstop]
      exact ⟨[], .refl p⟩

theorem exists_reads_operators (least : Int) (left : Expr) (p : Parser τ) :
    ∃ u, p.Reads u (operators least left p).parser := by
  rw [operators_eq_chainedOperators]
  exact exists_reads_chain least p

theorem exists_reads_bareExpression (p : Parser τ) : ∃ u, p.Reads u p.bareExpression.parser :=
  (bareExpression_meets p).exists_reads

/-- Behind the token that it drops, whatever that is, a definition reads on. -/
theorem exists_reads_definition (p : Parser τ) : ∃ u, p.advance.Reads u p.definition.parser :=
  Reply.exists_reads_note (Outcome.exists_reads_andThen (exists_reads_prototype p.advance)
    (f := fun head q _ => (expression q).map (Function.mk head))
    fun _ => exists_reads_expression _) _

/-! ### What reading on keeps -/

section

variable {p q : Parser τ} {u : List Token} {P : Token → τ → Prop}
  (hadvance : ∀ t rest, P t rest → P (TokenSource.scan rest).token (TokenSource.scan rest).rest)

include hadvance

theorem advance_invariant (h : P p.current p.rest) : P p.advance.current p.advance.rest :=
  hadvance p.current p.rest h

theorem Reads.invariant (hu : p.Reads u q) (h : P p.current p.rest) : P q.current q.rest := by
  induction hu with
  | stay hc hr => rwa [hc, hr]
  | read _ _ ih => exact ih (advance_invariant hadvance h)

theorem settle_invariant {α : Type} {o : Reply τ α} (h : P o.parser.current o.parser.rest)
    (item : α → Item) : P (o.settle item).2.current (o.settle item).2.rest := by
  unfold Reply.settle
  split
  · exact h
  · exact advance_invariant hadvance (p := o.parser.record _) h

theorem definition_invariant (h : P p.current p.rest) :
    P p.definition.parser.current p.definition.parser.rest := by
  obtain ⟨u, hu⟩ := exists_reads_definition p
  exact hu.invariant hadvance (advance_invariant hadvance h)

theorem external_invariant (h : P p.current p.rest) :
    P p.external.parser.current p.external.parser.rest := by
  obtain ⟨u, hu⟩ := exists_reads_prototype p.advance
  exact hu.invariant hadvance (advance_invariant hadvance h)

theorem bareExpression_invariant (h : P p.current p.rest) :
    P p.bareExpression.parser.current p.bareExpression.parser.rest := by
  obtain ⟨u, hu⟩ := exists_reads_bareExpression p
  exact hu.invariant hadvance h

theorem step_invariant (h : P p.current p.rest) : P p.step.2.current p.step.2.rest := by
  unfold step
  split
  · exact h
  · exact advance_invariant hadvance h
  · exact settle_invariant hadvance (definition_invariant hadvance h) _
  · exact settle_invariant hadvance (external_invariant hadvance h) _
  · exact settle_invariant hadvance (bareExpression_invariant hadvance h) _

theorem run_invariant (h : P p.current p.rest) : P p.run.parser.current p.run.parser.rest := by
  show P p.unfinishedRun.parser.current p.unfinishedRun.parser.rest
  fun_induction unfinishedRun p with
  | case1 p hc => exact h
  | case2 p hc s later ih => exact ih (step_invariant hadvance h)

theorem after_invariant (op : Operation) (h : P p.current p.rest) :
    P (op.after p).current (op.after p).rest := by
  cases op with
  | advance => exact advance_invariant hadvance h
  | primary =>
    obtain ⟨u, hu⟩ := exists_reads_primary p
    exact hu.invariant hadvance h
  | expression =>
    obtain ⟨u, hu⟩ := exists_reads_expression p
    exact hu.invariant hadvance h
  | operators least left =>
    obtain ⟨u, hu⟩ := exists_reads_operators least left p
    exact hu.invariant hadvance h
  | prototype =>
    obtain ⟨u, hu⟩ := exists_reads_prototype p
    exact hu.invariant hadvance h
  | external => exact external_invariant hadvance h
  | definition => exact definition_invariant hadvance h
  | bareExpression => exact bareExpression_invariant hadvance h
  | step => exact step_invariant hadvance h
  | run => exact run_invariant hadvance h

/-- What holds of the token in front and the source behind it, and goes on to hold when the next token is
read, holds after any requests. -/
theorem afterAll_invariant (ops : List Operation) (h : P p.current p.rest) :
    P (p.afterAll ops).current (p.afterAll ops).rest := by
  induction ops generalizing p with
  | nil => exact h
  | cons op ops ih => exact ih (after_invariant hadvance op h)

end

/-! ### At the end -/

theorem current_run_eq (p : Parser τ) : p.run.parser.current = .endOfInput := by
  show p.unfinishedRun.parser.current = .endOfInput
  fun_induction unfinishedRun p with
  | case1 p hc => exact hc
  | case2 p hc s later ih => exact ih

/-- At the end of the input a parser stays there, whatever is asked of it. -/
theorem current_afterAll_of_end {p : Parser τ} (h : p.current = .endOfInput) (ops : List Operation) :
    (p.afterAll ops).current = .endOfInput := by
  refine (afterAll_invariant (P := fun t rest => t = .endOfInput ∧ rest = p.rest) ?_ ops ⟨h, rfl⟩).1
  rintro - - ⟨-, rfl⟩
  rw [p.isFinal h]
  exact ⟨rfl, rfl⟩

end Parser

end Kaleidoscope
