import Kaleidoscope.Parser.State

/-!
# Reading tokens off a parser

What a production has done to its parser is said by the tokens that it has read. `p.Reads u q` says
that `q` is what `p` becomes after one advance for each token of `u`, and that none of them was the
end of the input.

## Why not a difference of token lists

`p.tokens = u ++ q.tokens` follows from `p.Reads u q` and says less. At the end of the input a parser
can be advanced without any change to its tokens, so an equation between lists would not notice a
production that drops the token at which it fails when that token is the end. `Reads` does.

## Two endings

A production succeeds after some tokens, or it breaks off after some tokens and leaves the one that
stopped it in front. `Reply.Meets` says that one of the two happened and what is known in either case;
the lemmas on `Outcome.andThen`, `map` and `after` carry it through a production, so that what is
proved of a production follows its text.

## Main definitions

* `Parser.Reads` — reading tokens
* `Reply.Succeeds`, `Reply.Breaks` — the two endings
* `Reply.Meets` — one of the two, with what holds of it

## Main results

* `Parser.Reads.tokens_eq`, `Parser.Reads.trans`
* `Reply.Succeeds.andThen`, `Reply.Meets.andThen`, `map`, `after` — productions in sequence
-/

namespace Kaleidoscope

namespace Parser

variable {τ : Type} [TokenSource τ] {p q r : Parser τ} {t : Token} {u v : List Token}

/-! ### The token in front -/

theorem tokens_of_ne (h : p.current ≠ .endOfInput) : p.tokens = p.current :: p.advance.tokens := by
  rw [tokens_advance, tokens, if_neg h, List.tail_cons]

theorem current_eq_headD (p : Parser τ) : p.current = p.tokens.headD .endOfInput := by
  by_cases h : p.current = .endOfInput
  · rw [tokens_of_end h, h]
    rfl
  · rw [tokens_of_ne h]
    rfl

theorem current_of_tokens (h : p.tokens = t :: v) : p.current = t := by
  rw [current_eq_headD, h]
  rfl

theorem tokens_advance_of_tokens (h : p.tokens = t :: v) : p.advance.tokens = v := by
  rw [tokens_advance, h, List.tail_cons]

theorem tokens_eq_nil_iff : p.tokens = [] ↔ p.current = .endOfInput := by
  refine ⟨fun h => ?_, tokens_of_end⟩
  rw [current_eq_headD, h]
  rfl

/-! ### Reading -/

/-- Reading the tokens `u`, one after the other, leads from `p` to `q`. What is noted down on the way
does not count. -/
inductive Reads : Parser τ → List Token → Parser τ → Prop where
  | stay {p q : Parser τ} (hc : q.current = p.current) (hr : q.rest = p.rest) : Reads p [] q
  | read {p q : Parser τ} {u : List Token} (h : p.current ≠ .endOfInput) (hu : Reads p.advance u q) :
    Reads p (p.current :: u) q

namespace Reads

theorem refl (p : Parser τ) : p.Reads [] p := .stay rfl rfl

theorem single (h : p.current = t) (ht : t ≠ .endOfInput) : p.Reads [t] p.advance := by
  subst h
  exact .read ht (refl _)

/-- Where reading leads to depends on the token in front and the source alone. -/
theorem congr_left (hc : q.current = p.current) (hr : q.rest = p.rest) (h : q.Reads u r) :
    p.Reads u r := by
  induction h generalizing p with
  | stay hc' hr' => exact .stay (hc'.trans hc) (hr'.trans hr)
  | @read q r u hq _ ih =>
    have hadvance : q.advance.current = p.advance.current ∧ q.advance.rest = p.advance.rest := by
      simp [advance, Parser.read, hr]
    rw [hc]
    exact .read (hc ▸ hq) (ih hadvance.1 hadvance.2)

theorem trans (h : p.Reads u q) (k : q.Reads v r) : p.Reads (u ++ v) r := by
  induction h with
  | stay hc hr => exact k.congr_left hc hr
  | read hp _ ih => exact .read hp (ih k)

theorem cons (h : p.current = t) (ht : t ≠ .endOfInput) (hu : p.advance.Reads u q) :
    p.Reads (t :: u) q := (single h ht).trans hu

theorem record (h : p.Reads u q) (note : Record) : p.Reads u (q.record note) := by
  rw [← List.append_nil u]
  exact h.trans (.stay rfl rfl)

theorem tokens_eq (h : p.Reads u q) : p.tokens = u ++ q.tokens := by
  induction h with
  | stay hc hr => rw [tokens, tokens, hc, hr, List.nil_append]
  | read hp _ ih => rw [tokens_of_ne hp, ih, List.cons_append]

theorem current_eq (h : p.Reads [] q) : q.current = p.current := by
  cases h with
  | stay hc _ => exact hc

/-- The token in front at first is the first of those read, or still in front. -/
theorem head?_concat (h : p.Reads u q) : (u ++ [q.current]).head? = some p.current := by
  cases h with
  | stay hc _ => exact congrArg some hc
  | read _ _ => rfl

theorem tail (h : p.Reads (t :: u) q) : p.advance.Reads u q := by
  cases h with
  | read _ hu => exact hu

/-- The tokens that come after those read. -/
theorem tokens_right (h : p.Reads u q) (ht : p.tokens = u ++ v) : q.tokens = v :=
  List.append_cancel_left (h.tokens_eq.symm.trans ht)

end Reads

/-! ### From the start -/

theorem tokens_start (source : τ) : (start source).tokens = TokenSource.tokens source :=
  tokens_read [] source

theorem endOfInput_not_mem_tokens (p : Parser τ) : .endOfInput ∉ p.tokens := by
  have hsource : ∀ source : τ, .endOfInput ∉ TokenSource.tokens source := fun source => by
    fun_induction TokenSource.tokens source with
    | case1 => exact List.not_mem_nil
    | case2 source h ih => simpa using ⟨Ne.symm h, ih⟩
  by_cases h : p.current = .endOfInput
  · rw [tokens_of_end h]
    exact List.not_mem_nil
  · rw [tokens, if_neg h]
    simpa using ⟨Ne.symm h, hsource p.rest⟩

/-- A list of tokens without the end of the input among them is there to be read in full. -/
theorem tokens_start_tokenList {ts : List Token} (h : .endOfInput ∉ ts) :
    (start (⟨ts⟩ : TokenList)).tokens = ts := by
  rw [tokens_start]
  induction ts with
  | nil =>
    rw [TokenSource.tokens]
    exact dif_pos rfl
  | cons t ts ih =>
    obtain ⟨ht, hts⟩ := not_or.1 (mt List.mem_cons.2 h)
    have hscan : TokenSource.scan (⟨t :: ts⟩ : TokenList) = { token := t, rest := ⟨ts⟩ } := by
      cases t <;> first | rfl | exact absurd rfl ht
    rw [TokenSource.tokens, hscan, dif_neg (Ne.symm ht), ih hts]

end Parser

/-! ### The two endings -/

namespace Reply

variable {τ α β : Type} [TokenSource τ]

/-- A production started at `p` has read `u` and made `a` of it. -/
structure Succeeds (o : Reply τ α) (p : Parser τ) (u : List Token) (a : α) : Prop where
  result : o.result = .ok a
  reads : p.Reads u o.parser

/-- A production started at `p` has read `u` and breaks off there: the token in front is the one
reported, and it stays. -/
structure Breaks (o : Reply τ α) (p : Parser τ) (u : List Token) (expected : Expectation) : Prop where
  result : o.result = .error ⟨expected, o.parser.current⟩
  reads : p.Reads u o.parser

/-- A production started at `p` has read tokens that fit `rule`, or it breaks off after tokens that
fit `broken`. Either may depend on the token then in front. -/
inductive Meets (o : Reply τ α) (p : Parser τ) (rule : List Token → α → Token → Prop)
    (broken : List Token → Expectation → Token → Prop) : Prop where
  | succeeds {u : List Token} {a : α} (h : o.Succeeds p u a) (hr : rule u a o.parser.current)
  | breaks {u : List Token} {expected : Expectation} (h : o.Breaks p u expected)
    (hb : broken u expected o.parser.current)

section

variable {p q : Parser τ} {u v w : List Token} {a : α} {b : β} {expected : Expectation}

theorem Succeeds.tokens_right {o : Reply τ α} (h : o.Succeeds p u a) (ht : p.tokens = u ++ v) :
    o.parser.tokens = v := h.reads.tokens_right ht

theorem Succeeds.current_eq {o : Reply τ α} (h : o.Succeeds p u a) (ht : p.tokens = u ++ v) :
    o.parser.current = v.headD .endOfInput := by
  rw [Parser.current_eq_headD, h.tokens_right ht]

theorem Breaks.current_eq {o : Reply τ α} (h : o.Breaks p u expected) (ht : p.tokens = u ++ v) :
    o.parser.current = v.headD .endOfInput := by
  rw [Parser.current_eq_headD, h.reads.tokens_right ht]

/-! ### Productions in sequence -/

theorem Succeeds.map {o : Outcome p α} (h : o.Succeeds p u a) (f : α → β) :
    (o.map f).Succeeds p u (f a) :=
  ⟨by rw [Outcome.result_map, h.result]; rfl, h.reads⟩

theorem Breaks.map {o : Outcome p α} (h : o.Breaks p u expected) (f : α → β) :
    (o.map f).Breaks p u expected :=
  ⟨by rw [Outcome.result_map, h.result]; rfl, h.reads⟩

/-- A production started at `q` as part of one started at `p`. -/
theorem Succeeds.of_reads {o : Reply τ α} (h : o.Succeeds q u a) (hw : p.Reads w q) :
    o.Succeeds p (w ++ u) a := ⟨h.result, hw.trans h.reads⟩

theorem Breaks.of_reads {o : Reply τ α} (h : o.Breaks q u expected) (hw : p.Reads w q) :
    o.Breaks p (w ++ u) expected := ⟨h.result, hw.trans h.reads⟩

theorem Succeeds.after {o : Outcome q α} (h : o.Succeeds q u a) (hw : p.Reads w q)
    (hr : p.Reaches q) : (o.after hr).Succeeds p (w ++ u) a := h.of_reads hw

theorem Breaks.after {o : Outcome q α} (h : o.Breaks q u expected) (hw : p.Reads w q)
    (hr : p.Reaches q) : (o.after hr).Breaks p (w ++ u) expected := h.of_reads hw

theorem Succeeds.note {o : Reply τ α} (h : o.Succeeds p u a) (f : α → Record) :
    (o.note f).Succeeds p u a := by
  rw [Reply.note, h.result]
  exact ⟨rfl, h.reads.record _⟩

theorem Breaks.note {o : Reply τ α} (h : o.Breaks p u expected) (f : α → Record) :
    (o.note f).Breaks p u expected := by
  rw [Reply.note, h.result]
  exact h

variable {f : α → (q : Parser τ) → p.Reaches q → Outcome q β}

theorem Succeeds.andThen {o : Outcome p α} (h : o.Succeeds p u a)
    (hf : (f a o.parser o.reaches).Succeeds o.parser v b) : (o.andThen f).Succeeds p (u ++ v) b := by
  rw [Outcome.andThen_of_ok h.result]
  exact hf.after h.reads _

theorem Succeeds.andThen_breaks {o : Outcome p α} (h : o.Succeeds p u a)
    (hf : (f a o.parser o.reaches).Breaks o.parser v expected) :
    (o.andThen f).Breaks p (u ++ v) expected := by
  rw [Outcome.andThen_of_ok h.result]
  exact hf.after h.reads _

theorem Breaks.andThen {o : Outcome p α} (h : o.Breaks p u expected) :
    (o.andThen f).Breaks p u expected := by
  rw [Outcome.andThen_of_error h.result]
  exact ⟨rfl, h.reads⟩

end

/-! ### What is known of a sequence -/

namespace Meets

variable {p q : Parser τ} {w : List Token} {rule : List Token → α → Token → Prop}
  {rule' : List Token → β → Token → Prop} {broken broken' : List Token → Expectation → Token → Prop}

/-- A production that answers at once answers with the parser that it was given. -/
theorem succeeds_here {o : Reply τ α} {a : α} (h : o.Succeeds p [] a) (hr : rule [] a p.current) :
    o.Meets p rule broken := .succeeds h (by rwa [h.reads.current_eq])

theorem breaks_here {o : Reply τ α} {expected : Expectation} (h : o.Breaks p [] expected)
    (hb : broken [] expected p.current) : o.Meets p rule broken :=
  .breaks h (by rwa [h.reads.current_eq])

theorem imp {o : Reply τ α} {rule' : List Token → α → Token → Prop} (h : o.Meets p rule broken)
    (hr : ∀ {u a t}, rule u a t → rule' u a t) (hb : ∀ {u k t}, broken u k t → broken' u k t) :
    o.Meets p rule' broken' := by
  cases h with
  | succeeds h k => exact .succeeds h (hr k)
  | breaks h k => exact .breaks h (hb k)

theorem map {o : Outcome p α} {f : α → β} (h : o.Meets p rule broken)
    (hr : ∀ {u a t}, rule u a t → rule' u (f a) t) : (o.map f).Meets p rule' broken := by
  cases h with
  | succeeds h k => exact .succeeds (h.map f) (hr k)
  | breaks h k => exact .breaks (h.map f) k

theorem of_reads {o : Reply τ α} (hw : p.Reads w q)
    (h : o.Meets q (fun u => rule (w ++ u)) (fun u => broken (w ++ u))) : o.Meets p rule broken := by
  cases h with
  | succeeds h k => exact .succeeds (h.of_reads hw) k
  | breaks h k => exact .breaks (h.of_reads hw) k

theorem after {o : Outcome q α} (hw : p.Reads w q) (hr : p.Reaches q)
    (h : o.Meets q (fun u => rule (w ++ u)) (fun u => broken (w ++ u))) :
    (o.after hr).Meets p rule broken := of_reads hw h

theorem note {o : Reply τ α} (h : o.Meets p rule broken) (f : α → Record) :
    (o.note f).Meets p rule broken := by
  cases h with
  | succeeds h k =>
    refine .succeeds (h.note f) ?_
    rwa [Reply.note, h.result]
  | breaks h k =>
    refine .breaks (h.note f) ?_
    rwa [Reply.note, h.result]

theorem andThen {o : Outcome p α} {f : α → (q : Parser τ) → p.Reaches q → Outcome q β}
    (h : o.Meets p rule broken) (hb : ∀ {u k t}, broken u k t → broken' u k t)
    (hs : ∀ {u a}, o.Succeeds p u a → rule u a o.parser.current →
      (f a o.parser o.reaches).Meets o.parser (fun v => rule' (u ++ v)) (fun v => broken' (u ++ v))) :
    (o.andThen f).Meets p rule' broken' := by
  cases h with
  | succeeds h k =>
    rw [Outcome.andThen_of_ok h.result]
    exact after h.reads _ (hs h k)
  | breaks h k =>
    refine .breaks h.andThen ?_
    rw [Outcome.andThen_of_error h.result]
    exact hb k

/-- What a success says. -/
theorem of_ok {o : Reply τ α} (h : o.Meets p rule broken) {a : α} (ho : o.result = .ok a) :
    ∃ u, o.Succeeds p u a ∧ rule u a o.parser.current := by
  cases h with
  | succeeds h k =>
    obtain rfl := Except.ok.inj (h.result.symm.trans ho)
    exact ⟨_, h, k⟩
  | breaks h _ => exact absurd (h.result.symm.trans ho) nofun

/-- What a failure says. -/
theorem of_error {o : Reply τ α} (h : o.Meets p rule broken) {e : ParseError}
    (ho : o.result = .error e) :
    ∃ u, o.Breaks p u e.expected ∧ e.found = o.parser.current ∧
      broken u e.expected o.parser.current := by
  cases h with
  | succeeds h _ => exact absurd (h.result.symm.trans ho) nofun
  | breaks h k =>
    obtain rfl := Except.error.inj (h.result.symm.trans ho)
    exact ⟨_, h, rfl, k⟩

end Meets

end Reply

end Kaleidoscope
