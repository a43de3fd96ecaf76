import Kaleidoscope.Proofs.Parser.Cases

/-!
# Productions read on and do nothing else

The parser that a production leaves is the one that it was given, advanced some times. That is more than
is said by the tokens that were read, as it includes the journal: all that a production writes there is
what scanning writes there. Only the session adds to it, when a unit is complete and when a token is
dropped.

The proof goes along the text of the productions and asks of each nothing but what it calls. It is about
no token in particular, so it does not need the cases that a production distinguishes.

## Main definitions

* `Parser.Advances` — a parser and itself further on
* `Parser.skips` — the tokens of which the journal says that they were skipped

## Main results

* `Parser.advances_expression`, `advances_prototype` — productions advance the parser
* `Parser.Advances.skips_eq` — and skip no token
-/

namespace Kaleidoscope

/-- The token of which a record says that it was skipped. -/
def Record.skipped? : Record → Option Token
  | skipping token => some token
  | _ => none

theorem Scan.filterMap_skipped?_records {τ : Type} (s : Scan τ) :
    s.records.filterMap Record.skipped? = [] := by
  rw [Scan.records]
  cases s.fault? <;> rfl

variable {τ : Type} [TokenSource τ]

namespace Parser

/-- `q` is `p`, advanced some times. -/
inductive Advances : Parser τ → Parser τ → Prop where
  | refl (p : Parser τ) : Advances p p
  | read {p q : Parser τ} (h : Advances p.advance q) : Advances p q

namespace Advances

variable {p q r : Parser τ}

theorem single (p : Parser τ) : p.Advances p.advance := .read (.refl _)

theorem trans (h : p.Advances q) (k : q.Advances r) : p.Advances r := by
  induction h with
  | refl => exact k
  | read _ ih => exact .read (ih k)

/-- A production and what goes on after its success. -/
theorem andThen {α β : Type} {o : Outcome p α} {f : α → (q : Parser τ) → p.Reaches q → Outcome q β}
    (h : p.Advances o.parser) (hf : ∀ a, o.parser.Advances (f a o.parser o.reaches).parser) :
    p.Advances (o.andThen f).parser := by
  cases hr : o.result with
  | ok a =>
    rw [Outcome.andThen_of_ok hr]
    exact h.trans (hf a)
  | error e =>
    rw [Outcome.andThen_of_error hr]
    exact h

end Advances

/-! ### Expressions -/

theorem advances_expect (c : Char) (expected : Expectation) (p : Parser τ) :
    p.Advances (p.expect c expected).parser := by
  rw [expect]
  split
  · exact .single p
  · exact .refl p

mutual

theorem advances_primary (p : Parser τ) : p.Advances (primary p).parser := by
  generalize ho : primary p = o
  rw [primary] at ho
  split at ho
  · subst ho
    exact .single p
  · split at ho
    · subst ho
      exact .read (.read (advances_arguments p.advance.advance))
    · subst ho
      exact .single p
  · subst ho
    exact .read (.andThen (advances_expression p.advance) fun _ => advances_expect ..)
  · subst ho
    exact .refl p
termination_by (p.size, 0)
decreasing_by
  · rename_i h hc
    exact .left _ _ (Nat.lt_trans (size_advance_lt (by simp [hc])) (size_advance_lt (by simp [h])))
  · rename_i h
    exact .left _ _ (size_advance_lt (by simp [h]))

theorem advances_arguments (p : Parser τ) : p.Advances (arguments p).parser := by
  rw [arguments]
  split
  · exact .single p
  · exact advances_someArguments p
termination_by (p.size, 3)

theorem advances_someArguments (p : Parser τ) : p.Advances (someArguments p).parser := by
  rw [someArguments]
  refine .andThen (advances_expression p) fun e => ?_
  split
  · exact .single _
  · exact .read (advances_someArguments (expression p).parser.advance)
  · exact .refl _
termination_by (p.size, 2)
decreasing_by
  · exact .right _ (by decide)
  · rename_i h
    exact .left _ _ (Reaches.lt_of_lt (expression p).reaches (size_advance_lt (by simp [h])))

theorem advances_expression (p : Parser τ) : p.Advances (expression p).parser := by
  rw [expression]
  exact .andThen (advances_primary p) fun left => advances_operators 0 left (primary p).parser
termination_by (p.size, 1)
decreasing_by
  · exact .right _ (by decide)
  · rcases (primary p).reaches with hstays | hsmaller
    · rw [hstays]
      exact .right _ (by decide)
    · exact .left _ _ hsmaller

theorem advances_operators (least : Int) (left : Expr) (p : Parser τ) :
    p.Advances (operators least left p).parser := by
  rcases operator_or_stopsAt least p.current with ⟨op, precedence, ho, hle⟩ | hstop
  · rw [operators_of_operator left ho hle]
    exact .read (.andThen (advances_primary p.advance) fun right =>
      .andThen (advances_operators _ right (primary p.advance).parser) fun right' =>
        advances_operators least (.binary op left right') _)
  · rw [operators_of_stopsAt left hstop]
    exact .refl p
termination_by (p.size, 0)
decreasing_by
  · exact .left _ _ (size_advance_lt (Token.ne_endOfInput_of_operator? ho))
  · exact .left _ _ (size_primary_advance_lt ho)
  · exact .left _ _ (Nat.lt_of_le_of_lt (Reaches.size_le (Outcome.reaches _))
      (size_primary_advance_lt ho))

end

/-! ### Functions -/

theorem advances_names (p : Parser τ) : p.Advances (names p).parser := by
  fun_induction names p with
  | case1 p name h ih => exact .read ih
  | case2 p h => exact .refl p

theorem advances_prototype (p : Parser τ) : p.Advances (prototype p).parser := by
  rw [prototype]
  split
  · exact .read (.andThen (advances_expect ..) fun _ => .andThen (advances_names _) fun _ =>
      advances_expect ..)
  · exact .refl p

/-! ### What is skipped -/

/-- The tokens of which the journal says that they were skipped, in order. -/
def skips (p : Parser τ) : List Token := p.records.filterMap Record.skipped?

theorem skips_record (p : Parser τ) (r : Record) :
    (p.record r).skips = p.skips ++ r.skipped?.toList := by
  rw [skips, skips, records, records, record, List.reverse_cons, List.filterMap_append,
    List.filterMap_eq_flatMap_toList _ [r], List.flatMap_singleton]

/-- Scanning skips nothing. -/
theorem skips_advance (p : Parser τ) : p.advance.skips = p.skips := by
  rw [skips, skips, records, records, advance, read, List.reverse_append, List.reverse_reverse,
    List.filterMap_append, Scan.filterMap_skipped?_records, List.append_nil]

theorem Advances.skips_eq {p q : Parser τ} (h : p.Advances q) : q.skips = p.skips := by
  induction h with
  | refl => rfl
  | read _ ih => rw [ih, skips_advance]

end Parser

theorem Reply.skips_note {α : Type} {f : α → Record} (h : ∀ a, (f a).skipped? = none) (o : Reply τ α) :
    (o.note f).parser.skips = o.parser.skips := by
  rw [note]
  split
  · rename_i a _
    rw [Parser.skips_record, h a, Option.toList_none, List.append_nil]
  · rfl

end Kaleidoscope
