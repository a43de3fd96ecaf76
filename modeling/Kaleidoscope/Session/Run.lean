import Kaleidoscope.Session.Step

/-!
# A whole session

A run takes steps until no unit is left. What the user sees of it, and what it amounts to, are read
off the steps.

## Main definitions

* `Parser.run` — all steps to the end of the input
* `Run.items`, `Run.summary` — what a run amounts to
* `Notice`, `Run.notices` — what the user is told
-/

namespace Kaleidoscope

/-- How many units were items, and how many were errors. -/
structure Summary where
  items : Nat
  errors : Nat
  deriving DecidableEq, Repr

/-- What the user of a session is told. -/
inductive Notice where
  /-- A line. -/
  | report (line : String)
  /-- An invitation to go on, without an end of line. -/
  | prompt (text : String)
  deriving DecidableEq, Repr

namespace Notice

/-- The words of the notice. -/
def content : Notice → String
  | report line => line
  | prompt text => text

/-- The notice as a terminal shows it. -/
def display : Notice → String
  | report line => line ++ "\n"
  | prompt text => text

end Notice

namespace Step

/-- What the user is told about a step alone. -/
def reports (s : Step) : List Notice := (s.report?.map .report).toList

/-- What the user is told about a step in the course of a run: the report, then the prompt if there
is one. -/
def notices (prompt : Option String) (s : Step) : List Notice :=
  s.reports ++ (prompt.map .prompt).toList

end Step

/-- Some steps and the parser after them. -/
structure Run (τ : Type) [TokenSource τ] where
  steps : List Step
  parser : Parser τ

namespace Run

variable {τ : Type} [TokenSource τ]

/-- The items, in order. -/
def items (r : Run τ) : List Item := r.steps.filterMap Step.item?

/-- The errors, in order. -/
def errors (r : Run τ) : List ParseError := r.steps.filterMap Step.error?

/-- How many items and how many errors there were. -/
def summary (r : Run τ) : Summary := ⟨r.items.length, r.errors.length⟩

/-- What the user is told. -/
def notices (prompt : Option String) (r : Run τ) : List Notice :=
  r.steps.flatMap (Step.notices prompt)

end Run

namespace Parser

variable {τ : Type} [TokenSource τ]

/-- All steps before the one that finishes. -/
def unfinishedRun (p : Parser τ) : Run τ :=
  if _ : p.current = .endOfInput then ⟨[], p⟩
  else
    let s := p.step
    let later := unfinishedRun s.2
    ⟨s.1 :: later.steps, later.parser⟩
termination_by p.size
decreasing_by exact size_step_lt ‹_›

/-- All steps to the end of the input. -/
def run (p : Parser τ) : Run τ :=
  let r := p.unfinishedRun
  { r with parser := r.parser.record (.reachedEnd r.summary.items r.summary.errors) }

end Parser

end Kaleidoscope
