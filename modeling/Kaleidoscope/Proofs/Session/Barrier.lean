import Kaleidoscope.Proofs.Scanner.Lexing
import Kaleidoscope.Proofs.Session.Units

/-!
# A semicolon is a barrier

A run over two texts with a semicolon on a line of its own between them is the run over the first one
and the run over the second one. Nothing that is wrong in the first text reaches into the second.

## The semicolon is skipped once

A production stops at a semicolon where it would stop at the end of the input, so up to there the two
runs agree. If the first text ends between units, the semicolon separates them and is skipped. If it
ends within one, what failed at the end now fails at the semicolon, which is dropped for that reason and
is not there to be skipped any more. Either way it is gone, and the second text begins a unit.

So the only trace of the barrier is the name of the token in that one error; `Step.fenced` renames it.

## Main definitions

* `ParseError.fenced`, `Step.fenced` — with a semicolon where the input had ended

## Main results

* `Session.Takes.fenced` — what one step makes of a barrier
* `Session.Runs.fenced` — what all steps make of it
* `Program.run_barrier` — two texts around a barrier
-/

namespace Kaleidoscope

open Kaleidoscope.Language Session

/-- The error with a semicolon in the place of the end of the input. -/
def ParseError.fenced (e : ParseError) : ParseError :=
  if e.found = .endOfInput then { e with found := .char ';' } else e

/-- The step with a semicolon in the place of the end of the input. -/
def Step.fenced : Step → Step
  | failed e => failed e.fenced
  | s => s

namespace Step

theorem item?_fenced (s : Step) : s.fenced.item? = s.item? := by
  cases s <;> rfl

theorem error?_fenced (s : Step) : s.fenced.error? = s.error?.map ParseError.fenced := by
  cases s <;> rfl

/-- A step that does not name the end of the input is not touched. -/
theorem fenced_eq_self {s : Step} (h : ∀ e ∈ s.error?, e.found ≠ .endOfInput) : s.fenced = s := by
  cases s with
  | failed e => exact congrArg failed (if_neg (h e rfl))
  | _ => rfl

end Step

namespace Session

variable {a b u v rest : List Token} {s : Step} {sa sb : List Step} {expected : Expectation}

/-! ### One step -/

theorem endsBefore_barrier (h : EndsBefore u (v.headD .endOfInput)) (b : List Token) :
    EndsBefore u ((v ++ .char ';' :: b).headD .endOfInput) := by
  cases v with
  | nil => exact .of_not_starts nofun (by simp [IsOperator])
  | cons t v => exact h

/-- What breaks off at the end breaks off at a semicolon. -/
theorem BrokenUnit.semicolon (h : BrokenUnit u expected .endOfInput) :
    BrokenUnit u expected (.char ';') := by
  have hbars := expected.bars_semicolon
  cases h with
  | definition h => exact .definition (h.of_bars hbars)
  | external h => exact .external (h.of_bars hbars)
  | expression h hl =>
    refine .expression (h.of_bars hbars) ?_
    cases u with
    | nil => exact absurd (hl _ rfl) id
    | cons t u => exact hl

/-- A step before a barrier is the step that it was, or it had named the end of the input, which it now
does of the semicolon, and takes the barrier away. -/
theorem Takes.fenced (h : Takes a s rest) (ha : .endOfInput ∉ a) (b : List Token) :
    (∀ e ∈ s.error?, e.found ≠ .endOfInput) ∧
        Takes (a ++ .char ';' :: b) s (rest ++ .char ';' :: b) ∨
      rest = [] ∧ Takes (a ++ .char ';' :: b) s.fenced b := by
  cases h with
  | separator => exact .inl ⟨nofun, .separator⟩
  | definition hf he =>
    rw [List.append_assoc]
    exact .inl ⟨nofun, .definition hf (endsBefore_barrier he b)⟩
  | external hf =>
    rw [List.append_assoc]
    exact .inl ⟨nofun, .external hf⟩
  | expression hf he =>
    rw [List.append_assoc]
    exact .inl ⟨nofun, .expression hf (endsBefore_barrier he b)⟩
  | @broken u v _ h =>
    rw [List.append_assoc]
    cases v with
    | nil => exact .inr ⟨rfl, .broken (v := .char ';' :: b) h.semicolon⟩
    | cons t v =>
      refine .inl ⟨?_, .broken (v := t :: (v ++ .char ';' :: b)) h⟩
      rintro _ ⟨⟩ rfl
      exact ha (List.mem_append_right _ (List.mem_cons_self ..))

/-! ### All steps -/

/-- A run over tokens, a barrier, and more tokens: the first run, fenced, a skipped semicolon unless the
last step of the first run has taken it away, and the second run. Only that last step could have named
the end of the input. -/
theorem Runs.fenced (h : Runs a sa) (ha : .endOfInput ∉ a) (hb : Runs b sb) :
    (∀ s ∈ sa.dropLast, ∀ e ∈ s.error?, e.found ≠ .endOfInput) ∧
      ∃ gap, (gap = [] ∨ gap = [.skipped]) ∧
        Runs (a ++ .char ';' :: b) (sa.map Step.fenced ++ (gap ++ sb)) := by
  induction h with
  | finished => exact ⟨nofun, [.skipped], .inr rfl, .step .separator hb⟩
  | @step ts rest s steps h hr ih =>
    rcases h.fenced ha b with ⟨hs, hstep⟩ | ⟨rfl, hstep⟩
    · obtain ⟨hsteps, gap, hgap, hrun⟩ := ih (h.not_mem ha)
      refine ⟨?_, gap, hgap, ?_⟩
      · cases steps with
        | nil => exact nofun
        | cons s' steps => exact List.forall_mem_cons.2 ⟨hs, hsteps⟩
      · rw [List.map_cons, Step.fenced_eq_self hs]
        exact .step hstep hrun
    · cases hr with
      | finished => exact ⟨nofun, [], .inl rfl, .step hstep hb⟩
      | step h' _ => exact absurd rfl h'.ne_nil

end Session

/-! ### Texts -/

namespace Program

/-- The tokens of two texts with a semicolon on a line of its own between them. -/
theorem tokens_textSession_barrier (A B : List Char) :
    (textSession (A ++ ['\n', ';', '\n'] ++ B)).tokens =
      (textSession A).tokens ++ .char ';' :: (textSession B).tokens := by
  obtain ⟨ta, ha⟩ := exists_lexes 0 A
  obtain ⟨tb, hb⟩ := exists_lexes (0 + A.length + 1 + 1 + 1) B
  have hlast : Lexes (0 + A.length + 1) (';' :: '\n' :: B) ((.char ';', 0 + A.length + 1 + 1) :: tb) :=
    .solitary (by decide) (.blank (by decide) hb)
  have h := ha.append_lineEnd (c := '\n') rfl rfl hlast
  rw [List.append_assoc, tokens_textSession ha, tokens_textSession hb]
  exact (tokens_textSession h).trans (List.map_append ..)

/-- A run over two texts with a semicolon on a line of its own between them hands out the items of the
first and those of the second, counts the items and the errors of both, and tells what either tells. The
error that named the end of the first text, if there was one, names the semicolon; it came last. -/
theorem run_barrier (A B : List Char) :
    (textSession (A ++ ['\n', ';', '\n'] ++ B)).run.items =
        (textSession A).run.items ++ (textSession B).run.items ∧
      (textSession (A ++ ['\n', ';', '\n'] ++ B)).run.summary.items =
        (textSession A).run.summary.items + (textSession B).run.summary.items ∧
      (textSession (A ++ ['\n', ';', '\n'] ++ B)).run.summary.errors =
        (textSession A).run.summary.errors + (textSession B).run.summary.errors ∧
      (textSession (A ++ ['\n', ';', '\n'] ++ B)).run.notices none =
        ((textSession A).run.steps.map Step.fenced).flatMap (Step.notices none) ++
          (textSession B).run.notices none ∧
      ∀ s ∈ (textSession A).run.steps.dropLast, ∀ e ∈ s.error?, e.found ≠ .endOfInput := by
  set a := (textSession A).run
  set b := (textSession B).run
  set ab := (textSession (A ++ ['\n', ';', '\n'] ++ B)).run
  obtain ⟨hlast, gap, hgap, hruns⟩ := (Parser.runs_run (textSession A)).fenced
    (Parser.endOfInput_not_mem_tokens _) (Parser.runs_run (textSession B))
  have hsteps : ab.steps = a.steps.map Step.fenced ++ (gap ++ b.steps) :=
    Parser.steps_of_runs hruns (tokens_textSession_barrier A B)
  have hitems : ab.items = a.items ++ b.items := by
    have hnone : gap.filterMap Step.item? = [] := by rcases hgap with rfl | rfl <;> rfl
    have hfenced : Step.item? ∘ Step.fenced = Step.item? := funext Step.item?_fenced
    rw [Run.items, hsteps, List.filterMap_append, List.filterMap_append, hnone, List.filterMap_map,
      hfenced]
    rfl
  have herrors : ab.errors = a.errors.map ParseError.fenced ++ b.errors := by
    have hnone : gap.filterMap Step.error? = [] := by rcases hgap with rfl | rfl <;> rfl
    have hfenced : Step.error? ∘ Step.fenced = fun s => s.error?.map ParseError.fenced :=
      funext Step.error?_fenced
    rw [Run.errors, hsteps, List.filterMap_append, List.filterMap_append, hnone, List.filterMap_map,
      hfenced, ← List.map_filterMap]
    rfl
  have hnotices : ab.notices none =
      (a.steps.map Step.fenced).flatMap (Step.notices none) ++ b.notices none := by
    have hnone : gap.flatMap (Step.notices none) = [] := by rcases hgap with rfl | rfl <;> rfl
    rw [Run.notices, hsteps, List.flatMap_append, List.flatMap_append, hnone]
    rfl
  refine ⟨hitems, ?_, ?_, hnotices, hlast⟩
  · rw [Run.summary, hitems, List.length_append]
    rfl
  · rw [Run.summary, herrors, List.length_append, List.length_map]
    rfl

end Program

end Kaleidoscope
