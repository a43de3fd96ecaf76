import Kaleidoscope.Parser.Unit

/-!
# One unit at a time

A session reads a program unit by unit. The token in front decides what a unit is: a semicolon that
separates units and means nothing, a definition, an external declaration, or else an expression.

## After an error

What could not be parsed ends at the offending token, and that token is dropped. A new unit starts
behind it, so one mistake costs at most the tokens up to there, and a session always goes on.

## Main definitions

* `Step` — what became of a unit
* `Parser.step` — handles one unit
* `Step.report?` — the line that tells the user

## Main results

* `Parser.step_of_end` — at the end of the input nothing happens any more
* `Parser.size_step_lt` — everywhere else a step makes the parser smaller
-/

namespace Kaleidoscope

/-- What became of a unit. -/
inductive Step where
  | parsed (item : Item)
  /-- A separator. -/
  | skipped
  | failed (error : ParseError)
  /-- There is no unit left. -/
  | finished
  deriving Repr

namespace Step

/-- The item, if the unit was one. -/
def item? : Step → Option Item
  | parsed item => some item
  | _ => none

/-- The error, if the unit was none. -/
def error? : Step → Option ParseError
  | failed error => some error
  | _ => none

/-- The line that tells the user about the step. Separators and the end go without saying. -/
def report? : Step → Option String
  | parsed (.definition _) => some "Parsed a function definition."
  | parsed (.external _) => some "Parsed an extern."
  | parsed (.expression _) => some "Parsed a top-level expression."
  | failed error => some ("LogError: " ++ error.message)
  | skipped => none
  | finished => none

end Step

/-- The step that a production's reply amounts to, and the parser after it. An error drops the token
at which it arose. -/
def Reply.settle {τ α : Type} [TokenSource τ] (r : Reply τ α) (item : α → Item) : Step × Parser τ :=
  match r.result with
  | .ok a => (.parsed (item a), r.parser)
  | .error e => (.failed e, (r.parser.record (.skipping r.parser.current)).advance)

namespace Parser

variable {τ : Type} [TokenSource τ]

/-- Handles one unit. -/
def step (p : Parser τ) : Step × Parser τ :=
  match p.current with
  | .endOfInput => (.finished, p)
  | .char ';' => (.skipped, p.advance)
  | .defKeyword => p.definition.settle .definition
  | .externKeyword => p.external.settle .external
  | _ => p.bareExpression.settle .expression

/-- At the end of the input nothing happens any more. -/
theorem step_of_end {p : Parser τ} (h : p.current = .endOfInput) : p.step = (.finished, p) := by
  simp [step, h]

/-! ### Progress -/

theorem size_settle_le {α : Type} (r : Reply τ α) (item : α → Item) :
    (r.settle item).2.size ≤ r.parser.size := by
  unfold Reply.settle
  split
  · exact Nat.le_refl _
  · exact size_advance_le _

theorem size_settle_bareExpression_lt {p : Parser τ} (h : p.current ≠ .endOfInput) :
    (p.bareExpression.settle .expression).2.size < p.size := by
  unfold Reply.settle
  split
  · exact size_bareExpression_lt ‹_›
  · rename_i e he
    rcases reaches_bareExpression he with stays | smaller
    · rw [stays]
      exact size_advance_lt (p := p.record _) h
    · exact Nat.lt_of_le_of_lt (size_advance_le _) smaller

/-- Before the end of the input a step makes the parser smaller. -/
theorem size_step_lt {p : Parser τ} (h : p.current ≠ .endOfInput) : p.step.2.size < p.size := by
  have first := size_advance_lt h
  unfold step
  split
  · rename_i he; exact absurd he h
  · exact first
  · exact Nat.lt_of_le_of_lt (Nat.le_trans (size_settle_le _ _) (size_definition_le p)) first
  · exact Nat.lt_of_le_of_lt (Nat.le_trans (size_settle_le _ _) (size_external_le p)) first
  · exact size_settle_bareExpression_lt h

end Parser

end Kaleidoscope
