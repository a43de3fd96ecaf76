import Kaleidoscope.Proofs.Scanner.Lookahead
import Kaleidoscope.Proofs.Session.Ledger
import Mathlib.Logic.Function.Iterate

/-!
# Progress

Whatever succeeds or is got over takes a token away, and the end of the input is none. So there are no
more steps in a run than there are tokens. At the end itself nothing changes any more: the step that
finishes leaves the parser as it is and has nothing to report, and so does every step that is taken
behind it.

## Main definitions

* `Parser.Consumes` — a parser further on, by one token at least
* `Parser.MakesProgress` — all of this, for one parser

## Main results

* `Scanner.exists_pulls_scan_of_ne` — a token takes a character away
* `Parser.makesProgress` — every parser makes progress
-/

namespace Kaleidoscope

/-- A token takes at least one character off the text. -/
theorem Scanner.exists_pulls_scan_of_ne {σ : Type} [CharSource σ] {s : Scanner σ}
    (h : s.scan.token ≠ .endOfInput) : ∃ c u, s.Pulls (c :: u) s.scan.rest := by
  obtain ⟨u, hu⟩ := exists_pulls_scan s
  cases u with
  | cons c u => exact ⟨c, u, hu⟩
  | nil =>
    have hsize : s.scan.token.weight + s.scan.rest.size ≤ s.size := TokenSource.size_scan s
    have hweight := Token.weight_pos h
    generalize s.scan.rest = rest at hu hsize
    cases hu
    omega

/-- A separator is a step without a result. -/
def Step.isSkipped : Step → Bool
  | skipped => true
  | _ => false

/-- Every step that does not finish is an item, an error or a separator. -/
theorem Step.length_eq {steps : List Step} (h : ∀ s ∈ steps, s ≠ .finished) :
    steps.length = (steps.filterMap item?).length + (steps.filterMap error?).length +
      steps.countP isSkipped := by
  induction steps with
  | nil => rfl
  | cons s steps ih =>
    obtain ⟨hs, hsteps⟩ := List.forall_mem_cons.1 h
    cases s with
    | parsed item =>
      rw [List.filterMap_cons_some (f := item?) rfl, List.filterMap_cons_none (f := error?) rfl,
        List.countP_cons_of_neg Bool.false_ne_true, List.length_cons, List.length_cons, ih hsteps]
      omega
    | skipped =>
      rw [List.filterMap_cons_none (f := item?) rfl, List.filterMap_cons_none (f := error?) rfl,
        List.countP_cons_of_pos rfl, List.length_cons, ih hsteps]
      omega
    | failed error =>
      rw [List.filterMap_cons_none (f := item?) rfl, List.filterMap_cons_some (f := error?) rfl,
        List.countP_cons_of_neg Bool.false_ne_true, List.length_cons, List.length_cons, ih hsteps]
      omega
    | finished => exact absurd rfl hs

namespace Parser

variable {τ : Type} [TokenSource τ]

/-- `q` has some tokens less in front of it than `p`, one at least, and none of them is the end. -/
def Consumes (p q : Parser τ) : Prop :=
  ∃ t u, t ≠ Token.endOfInput ∧ .endOfInput ∉ u ∧ p.tokens = t :: u ++ q.tokens

/-- What it is to make progress. -/
structure MakesProgress (p : Parser τ) : Prop where
  primary : ∀ e, (primary p).result = .ok e → p.Consumes (primary p).parser
  expression : ∀ e, (expression p).result = .ok e → p.Consumes (expression p).parser
  step : p.step.1 ≠ .finished → p.Consumes p.step.2
  finishes_iff : p.step.1 = .finished ↔ p.current = .endOfInput
  /-- Behind the end, step after step leaves the parser as it is. -/
  stays : p.current = .endOfInput →
    (∀ k, ((fun q : Parser τ => q.step.2)^[k] p).step = (.finished, p)) ∧
      Step.finished.report? = none ∧ ∀ prompt, p.run.notices prompt = []
  length_steps : p.run.steps.length =
    p.run.summary.items + p.run.summary.errors + p.run.steps.countP Step.isSkipped
  length_steps_le : p.run.steps.length ≤ p.tokens.length

variable {p q : Parser τ}

theorem consumes_of_append {u : List Token} (hne : u ≠ []) (h : p.tokens = u ++ q.tokens) :
    p.Consumes q := by
  have hend := p.endOfInput_not_mem_tokens
  cases u with
  | nil => exact absurd rfl hne
  | cons t u =>
    rw [h, List.cons_append, List.mem_cons, List.mem_append] at hend
    exact ⟨t, u, fun ht => hend (.inl ht.symm), fun hu => hend (.inr (.inl hu)), h⟩

theorem consumes_primary {e : Expr} (h : (primary p).result = .ok e) : p.Consumes (primary p).parser := by
  obtain ⟨u, hread, hu, -⟩ := (primary_meets p).of_ok h
  exact consumes_of_append hu.ne_nil hread.reads.tokens_eq

theorem consumes_expression {e : Expr} (h : (expression p).result = .ok e) :
    p.Consumes (expression p).parser := by
  obtain ⟨u, hread, hu, -⟩ := (expression_meets p).of_ok h
  exact consumes_of_append hu.ne_nil hread.reads.tokens_eq

theorem step_finished_iff : p.step.1 = .finished ↔ p.current = .endOfInput := by
  constructor
  · intro h
    by_cases hend : p.current = .endOfInput
    · exact hend
    · obtain ⟨u, hcovers⟩ := exists_covers_step hend
      exact absurd h hcovers.ne_finished
  · intro h
    rw [step_of_end h]

theorem consumes_step (h : p.step.1 ≠ .finished) : p.Consumes p.step.2 := by
  obtain ⟨u, hcovers⟩ := exists_covers_step (mt step_finished_iff.2 h)
  exact consumes_of_append hcovers.ne_nil hcovers.tokens_eq

theorem Ledger.length_le {entries : List Entry} (h : p.Ledger entries q) :
    entries.length ≤ p.tokens.length := by
  rw [h.tokens_eq]
  have hne := h.forall_mem Covers.ne_nil
  clear h
  induction entries with
  | nil => exact Nat.le_refl _
  | cons e entries ih =>
    obtain ⟨he, hentries⟩ := List.forall_mem_cons.1 hne
    have htokens := List.length_pos_of_ne_nil he
    have hlater := ih hentries
    rw [List.flatMap_cons, List.length_append, List.length_cons]
    omega

/-- Every parser makes progress, wherever it stands. -/
theorem makesProgress (p : Parser τ) : p.MakesProgress := by
  obtain ⟨entries, hledger, hsteps⟩ := exists_ledger p
  have hrun : p.run.steps = entries.map Entry.step := hsteps
  have hlength : p.run.steps.length = entries.length := by rw [hrun, List.length_map]
  refine ⟨fun _ => consumes_primary, fun _ => consumes_expression, consumes_step, step_finished_iff,
    fun h => ⟨fun k => ?_, rfl, fun prompt => ?_⟩, Step.length_eq ?_, hlength ▸ hledger.length_le⟩
  · have hstep : (fun q : Parser τ => q.step.2) p = p := congrArg Prod.snd (step_of_end h)
    rw [Function.iterate_fixed hstep, step_of_end h]
  · have hnone : p.tokens = [] := tokens_of_end h
    have hempty := hlength ▸ hledger.length_le
    rw [hnone, List.length_nil, Nat.le_zero, List.length_eq_zero_iff] at hempty
    rw [Run.notices, hempty, List.flatMap_nil]
  · rw [hrun]
    exact List.forall_mem_map.2 (hledger.forall_mem Covers.ne_finished)

end Parser

end Kaleidoscope
