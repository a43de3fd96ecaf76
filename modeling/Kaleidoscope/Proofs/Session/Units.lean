import Kaleidoscope.Proofs.Parser.Completeness
import Kaleidoscope.Proofs.Parser.Soundness
import Kaleidoscope.Session.Run

/-!
# Sessions over tokens

What a session does depends on nothing but the tokens in front of it. Said over lists of tokens, a step
is one of a few rules: a unit is cut off the front, or something breaks off and takes with it the token
that stopped it.

Here the parser disappears. `Session.Takes` and `Session.Runs` mention neither parsers nor sources, and
what a run amounts to can be argued from the rules alone, for two runs at once where that is called for.

## Main definitions

* `Token.LeadsExpression` — the tokens at which a unit is taken for an expression
* `Session.BrokenUnit` — a unit that breaks off
* `Session.Takes`, `Session.Runs` — one step and all steps, over lists of tokens

## Main results

* `Session.Takes.exists_segment` — a step takes at least one token
* `Session.Runs.forall_mem` — what each step keeps to, all of them do
* `Parser.takes_step`, `Parser.step_of_takes` — a parser's step is the one that the rules derive
* `Parser.runs_run`, `Parser.steps_of_runs` — and so are its steps to the end
* `Parser.forall_steps` — what each step keeps to, a parser's steps do
-/

namespace Kaleidoscope

open Kaleidoscope.Language

/-- The tokens at which a session takes what follows for an expression. -/
def Token.LeadsExpression : Token → Prop
  | .endOfInput | .defKeyword | .externKeyword => False
  | .char c => c ≠ ';'
  | .identifier _ | .number _ => True

theorem Token.unit_cases (t : Token) : t = .endOfInput ∨ t = .char ';' ∨ t = .defKeyword ∨
    t = .externKeyword ∨ t.LeadsExpression := by
  cases t with
  | char c => simpa [LeadsExpression] using Classical.em (c = ';')
  | _ => simp [LeadsExpression]

theorem Token.leadsExpression_of_starts {t : Token} (h : t.StartsExpression) :
    t.LeadsExpression := by
  cases t with
  | char c =>
    obtain rfl : c = '(' := h
    simp [LeadsExpression]
  | identifier | number => trivial
  | _ => exact h

namespace Session

/-- A unit that breaks off at `t`. -/
inductive BrokenUnit (u : List Token) (expected : Expectation) (t : Token) : Prop where
  | definition (h : BrokenDefinition u expected t)
  | external (h : BrokenExternal u expected t)
  | expression (h : BrokenExpression u expected t) (hl : ∀ s ∈ (u ++ [t]).head?, s.LeadsExpression)

/-- `Takes ts s rest`: with the tokens `ts` in front, a session takes the step `s` and goes on with
`rest`. -/
inductive Takes : List Token → Step → List Token → Prop where
  | separator {v : List Token} : Takes (.char ';' :: v) .skipped v
  | definition {u v : List Token} {f : Function} (h : Grammar.Definition u f)
    (he : EndsBefore u (v.headD .endOfInput)) : Takes (u ++ v) (.parsed (.definition f)) v
  | external {u v : List Token} {head : Prototype} (h : Grammar.External u head) :
    Takes (u ++ v) (.parsed (.external head)) v
  | expression {u v : List Token} {e : Expr} (h : Grammar.Comparison u e)
    (he : EndsBefore u (v.headD .endOfInput)) :
    Takes (u ++ v) (.parsed (.expression (.ofExpr e))) v
  | broken {u v : List Token} {expected : Expectation}
    (h : BrokenUnit u expected (v.headD .endOfInput)) :
    Takes (u ++ v) (.failed ⟨expected, v.headD .endOfInput⟩) v.tail

/-- All steps of a session over the given tokens. -/
inductive Runs : List Token → List Step → Prop where
  | finished : Runs [] []
  | step {ts rest : List Token} {s : Step} {steps : List Step} (h : Takes ts s rest)
    (hr : Runs rest steps) : Runs ts (s :: steps)

/-! ### What a step takes -/

/-- A unit that breaks off at the end has a token before it. -/
theorem BrokenUnit.ne_nil_of_end {u : List Token} {expected : Expectation}
    (h : BrokenUnit u expected .endOfInput) : u ≠ [] := by
  cases h with
  | definition h => cases h <;> exact List.cons_ne_nil _ _
  | external h => cases h; exact List.cons_ne_nil _ _
  | expression _ hl =>
    rintro rfl
    exact hl _ rfl

section

variable {ts rest : List Token} {s : Step}

/-- A step takes at least one token off the front and leaves the others. -/
theorem Takes.exists_segment (h : Takes ts s rest) : ∃ u, u ≠ [] ∧ ts = u ++ rest := by
  cases h with
  | separator => exact ⟨[.char ';'], List.cons_ne_nil _ _, rfl⟩
  | @definition u _ _ hf _ => exact ⟨u, by cases hf; exact List.cons_ne_nil _ _, rfl⟩
  | @external u _ _ hf => exact ⟨u, by cases hf; exact List.cons_ne_nil _ _, rfl⟩
  | @expression u _ _ he _ => exact ⟨u, he.ne_nil, rfl⟩
  | @broken u v _ h =>
    cases v with
    | nil => exact ⟨u, h.ne_nil_of_end, rfl⟩
    | cons t v => exact ⟨u ++ [t], by simp, by simp⟩

theorem Takes.ne_nil (h : Takes ts s rest) : ts ≠ [] := by
  obtain ⟨u, hu, rfl⟩ := h.exists_segment
  exact List.append_ne_nil_of_left_ne_nil hu rest

theorem Takes.length_lt (h : Takes ts s rest) : rest.length < ts.length := by
  obtain ⟨u, hu, rfl⟩ := h.exists_segment
  have := List.length_pos_iff.2 hu
  rw [List.length_append]
  omega

theorem Takes.not_mem {t : Token} (h : Takes ts s rest) (ht : t ∉ ts) : t ∉ rest := by
  obtain ⟨u, -, rfl⟩ := h.exists_segment
  exact fun hr => ht (List.mem_append_right u hr)

end

/-- What holds of each step over tokens that `P` holds of is true of all steps of a session over such
tokens. -/
theorem Runs.forall_mem {P : Token → Prop} {R : Step → Prop} {ts : List Token} {steps : List Step}
    (h : Runs ts steps) (hts : ∀ t ∈ ts, P t)
    (hR : ∀ {ts s rest}, Takes ts s rest → (∀ t ∈ ts, P t) → R s) : ∀ s ∈ steps, R s := by
  induction h with
  | finished => exact nofun
  | step h _ ih =>
    have hfirst := hR h hts
    obtain ⟨u, -, rfl⟩ := h.exists_segment
    exact List.forall_mem_cons.2 ⟨hfirst, ih (List.forall_mem_append.1 hts).2⟩

end Session

open Session

/-! ### Settling a reply -/

namespace Reply

variable {τ α : Type} [TokenSource τ] {o : Reply τ α} {p : Parser τ} {u v : List Token}
  {expected : Expectation}

theorem Succeeds.settle {a : α} (h : o.Succeeds p u a) (item : α → Item) (ht : p.tokens = u ++ v) :
    (o.settle item).1 = .parsed (item a) ∧ (o.settle item).2.tokens = v := by
  rw [Reply.settle, h.result]
  exact ⟨rfl, h.tokens_right ht⟩

theorem Breaks.settle (h : o.Breaks p u expected) (item : α → Item) (ht : p.tokens = u ++ v) :
    (o.settle item).1 = .failed ⟨expected, v.headD .endOfInput⟩ ∧
      (o.settle item).2.tokens = v.tail := by
  rw [Reply.settle, h.result]
  refine ⟨by rw [h.current_eq ht], ?_⟩
  rw [Parser.tokens_advance, Parser.tokens_record, h.reads.tokens_right ht]

/-- What is derived of a production is a step when its reply is settled. -/
theorem Meets.takes {item : α → Item} {rule : List Token → α → Token → Prop}
    {broken : List Token → Expectation → Token → Prop} (h : o.Meets p rule broken)
    (hr : ∀ {u v a}, rule u a (v.headD .endOfInput) → Takes (u ++ v) (.parsed (item a)) v)
    (hb : ∀ {u k t}, broken u k t → (u ++ [t]).head? = some p.current → BrokenUnit u k t) :
    Takes p.tokens (o.settle item).1 (o.settle item).2.tokens := by
  cases h with
  | succeeds h k =>
    have ht := h.reads.tokens_eq
    obtain ⟨hstep, hrest⟩ := h.settle item ht
    rw [Parser.current_eq_headD] at k
    rw [hstep, hrest, ht]
    exact hr k
  | breaks h k =>
    have ht := h.reads.tokens_eq
    obtain ⟨hstep, hrest⟩ := h.settle item ht
    have hbroken := hb k h.reads.head?_concat
    rw [Parser.current_eq_headD] at hbroken
    rw [hstep, hrest, ht]
    exact .broken hbroken

end Reply

namespace Parser

variable {τ : Type} [TokenSource τ] {p : Parser τ}

/-! ### One step -/

theorem step_of_separator (h : p.current = .char ';') : p.step = (.skipped, p.advance) := by
  rw [step, h]
  rfl

theorem step_of_definition (h : p.current = .defKeyword) : p.step = p.definition.settle .definition := by
  rw [step, h]

theorem step_of_external (h : p.current = .externKeyword) : p.step = p.external.settle .external := by
  rw [step, h]

theorem step_of_leads (h : p.current.LeadsExpression) :
    p.step = p.bareExpression.settle .expression := by
  have hend : p.current ≠ .endOfInput := fun hc => by rw [hc] at h; exact h
  have hseparator : p.current ≠ .char ';' := fun hc => by rw [hc] at h; exact h rfl
  have hdef : p.current ≠ .defKeyword := fun hc => by rw [hc] at h; exact h
  have hextern : p.current ≠ .externKeyword := fun hc => by rw [hc] at h; exact h
  rw [step]
  split <;> first | contradiction | rfl

/-- A step is derived from the tokens in front. -/
theorem takes_step (h : p.current ≠ .endOfInput) : Takes p.tokens p.step.1 p.step.2.tokens := by
  rcases p.current.unit_cases with hc | hc | hc | hc | hc
  · exact absurd hc h
  · rw [step_of_separator hc, tokens_of_ne h, hc]
    exact .separator
  · rw [step_of_definition hc]
    exact (definition_meets hc).takes (fun ⟨hf, he⟩ => .definition hf he) fun hb _ => .definition hb
  · rw [step_of_external hc]
    exact (external_meets hc).takes .external fun hb _ => .external hb
  · rw [step_of_leads hc]
    refine (bareExpression_meets p).takes ?_ fun hb hu => .expression hb ?_
    · rintro u v _ ⟨e, rfl, he, hend⟩
      exact .expression he hend
    · intro s hs
      obtain rfl := Option.some.inj (hu.symm.trans hs)
      exact hc

/-- What is derived from the tokens in front is the step. -/
theorem step_of_takes {ts rest : List Token} {s : Step} (h : Takes ts s rest) (ht : p.tokens = ts) :
    p.step.1 = s ∧ p.step.2.tokens = rest := by
  cases h with
  | separator =>
    rw [step_of_separator (current_of_tokens ht)]
    exact ⟨rfl, tokens_advance_of_tokens ht⟩
  | definition hf hend =>
    have hc : p.current = .defKeyword := by cases hf; exact current_of_tokens ht
    rw [step_of_definition hc]
    exact (definition_succeeds hf hend ht).settle _ ht
  | external hf =>
    have hc : p.current = .externKeyword := by cases hf; exact current_of_tokens ht
    rw [step_of_external hc]
    exact (external_succeeds hf ht).settle _ ht
  | expression he hend =>
    obtain ⟨t, w, rfl, hstarts⟩ := he.starts
    have hc : p.current.LeadsExpression := by
      rw [current_of_tokens ht]
      exact Token.leadsExpression_of_starts hstarts
    rw [step_of_leads hc]
    exact (bareExpression_succeeds he hend ht).settle _ ht
  | @broken u v _ hb =>
    cases hb with
    | definition hb =>
      have hc : p.current = .defKeyword := by cases hb <;> exact current_of_tokens ht
      rw [step_of_definition hc]
      exact (definition_breaks hb rfl ht).settle _ ht
    | external hb =>
      have hc : p.current = .externKeyword := by cases hb; exact current_of_tokens ht
      rw [step_of_external hc]
      exact (external_breaks hb rfl ht).settle _ ht
    | expression hb hl =>
      have hbreaks := bareExpression_breaks hb rfl ht
      have hc : p.current.LeadsExpression := by
        refine hl _ ?_
        rw [← hbreaks.current_eq ht]
        exact hbreaks.reads.head?_concat
      rw [step_of_leads hc]
      exact hbreaks.settle _ ht

/-! ### All steps -/

/-- The steps of a run are derived from the tokens in front. -/
theorem runs_run (p : Parser τ) : Runs p.tokens p.run.steps := by
  show Runs p.tokens p.unfinishedRun.steps
  fun_induction unfinishedRun p with
  | case1 p h =>
    rw [tokens_of_end h]
    exact .finished
  | case2 p h s later ih => exact .step (takes_step h) ih

/-- What holds of each step over tokens that `P` holds of is true of the next step of a parser in front of
such tokens, and of all steps of its run. -/
theorem forall_steps {P : Token → Prop} {R : Step → Prop} (hp : ∀ t ∈ p.tokens, P t) (hend : R .finished)
    (hR : ∀ {ts s rest}, Takes ts s rest → (∀ t ∈ ts, P t) → R s) :
    R p.step.1 ∧ ∀ s ∈ p.run.steps, R s := by
  refine ⟨?_, (runs_run p).forall_mem hp hR⟩
  by_cases hc : p.current = .endOfInput
  · rwa [step_of_end hc]
  · exact hR (takes_step hc) hp

/-- What is derived from the tokens in front are the steps of the run. -/
theorem steps_of_runs {ts : List Token} {steps : List Step} (h : Runs ts steps)
    (ht : p.tokens = ts) : p.run.steps = steps := by
  show p.unfinishedRun.steps = steps
  induction h generalizing p with
  | finished =>
    rw [unfinishedRun, dif_pos (tokens_eq_nil_iff.1 ht)]
  | step h _ ih =>
    have hc : p.current ≠ .endOfInput := fun hc => h.ne_nil (ht.symm.trans (tokens_of_end hc))
    obtain ⟨hstep, hrest⟩ := step_of_takes h ht
    rw [unfinishedRun, dif_neg hc]
    exact congr (congrArg List.cons hstep) (ih hrest)

end Parser

end Kaleidoscope
