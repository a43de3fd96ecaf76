import Kaleidoscope.Parser.Unit
import Kaleidoscope.Proofs.Grammar.Broken
import Kaleidoscope.Proofs.Parser.Operators
import Kaleidoscope.Proofs.Parser.Reading

/-!
# Productions by the token in front

What each production does is decided by the token in front of it, and by the one behind a name. This
module says once what it does for which token; nothing after it opens a production again.

Each case is an equation between outcomes, or says how the production ends where it ends at once.

## Main results

* `Parser.primary_of_number`, `primary_of_name`, `primary_of_call`, `primary_of_group`,
  `primary_of_not_starts`, with `Parser.starts_cases` for which of them applies
* `Parser.someArguments_eq`, `Parser.afterArgument_of_close`, `afterArgument_of_comma`,
  `afterArgument_of_ne` — arguments, one at a time
* `Parser.prototype_of_name`, `Parser.names_of_name` — heads of functions
-/

namespace Kaleidoscope

namespace Parser

variable {τ : Type} [TokenSource τ] {p : Parser τ} {name : String}

/-! ### Operands -/

theorem primary_of_number {value : Binary64} (h : p.current = .number value) :
    (primary p).Succeeds p [.number value] (.number value) := by
  rw [primary]
  split
  · rename_i value' hv
    cases h.symm.trans hv
    exact ⟨rfl, .single h nofun⟩
  all_goals simp_all

theorem primary_of_name (h : p.current = .identifier name) (hc : p.advance.current ≠ .char '(') :
    (primary p).Succeeds p [.identifier name] (.var name) := by
  rw [primary]
  split
  · simp_all
  · rename_i name' hn
    cases h.symm.trans hn
    rw [dif_neg hc]
    exact ⟨rfl, .single h nofun⟩
  all_goals simp_all

theorem primary_of_call (h : p.current = .identifier name) (hc : p.advance.current = .char '(') :
    primary p = ((arguments p.advance.advance).map (.call name)).after
      ((reaches_advance (by rw [h]; nofun)).trans (reaches_advance (by rw [hc]; nofun))) := by
  rw [primary]
  split
  · rename_i hv
    cases h.symm.trans hv
  · rename_i name' hn
    cases h.symm.trans hn
    exact dif_pos hc
  · rename_i hg
    cases h.symm.trans hg
  · rename_i hn _
    exact absurd h (hn name)

theorem primary_of_group (h : p.current = .char '(') :
    primary p = ((expression p.advance).andThen fun e q _ =>
      (q.expect ')' .closingParen).map fun _ => e).after (reaches_advance (by rw [h]; nofun)) := by
  rw [primary]
  split
  · rename_i hv
    cases h.symm.trans hv
  · rename_i hn
    cases h.symm.trans hn
  · rfl
  · rename_i hg
    exact absurd h hg

theorem primary_of_not_starts (h : ¬ p.current.StartsExpression) :
    (primary p).Breaks p [] .expression := by
  rw [primary]
  split
  · rename_i hv
    exact absurd (by rw [hv]; trivial) h
  · rename_i hn
    exact absurd (by rw [hn]; trivial) h
  · rename_i hg
    exact absurd (by rw [hg]; rfl) h
  · exact ⟨rfl, .refl p⟩

/-- The token in front decides between the kinds of operands. -/
theorem starts_cases (t : Token) :
    (∃ value, t = .number value) ∨ (∃ name, t = .identifier name) ∨ t = .char '(' ∨
      ¬ t.StartsExpression := by
  cases t with
  | number value => exact .inl ⟨value, rfl⟩
  | identifier name => exact .inr (.inl ⟨name, rfl⟩)
  | char c =>
    by_cases hc : c = '('
    · exact .inr (.inr (.inl (by rw [hc])))
    · exact .inr (.inr (.inr hc))
  | _ => exact .inr (.inr (.inr id))

/-! ### Single characters -/

theorem expect_of_eq {c : Char} (expected : Expectation) (h : p.current = .char c) :
    (p.expect c expected).Succeeds p [.char c] () := by
  rw [expect, dif_pos h]
  exact ⟨rfl, .single h nofun⟩

theorem expect_of_ne {c : Char} (expected : Expectation) (h : p.current ≠ .char c) :
    (p.expect c expected).Breaks p [] expected := by
  rw [expect, dif_neg h]
  exact ⟨rfl, .refl p⟩

/-! ### Arguments -/

theorem arguments_of_close (h : p.current = .char ')') :
    (arguments p).Succeeds p [.char ')'] [] := by
  rw [arguments, dif_pos h]
  exact ⟨rfl, .single h nofun⟩

theorem arguments_of_ne (h : p.current ≠ .char ')') : arguments p = someArguments p := by
  rw [arguments, dif_neg h]

theorem reaches_advance_of_close (h : p.current = .char ')') : p.Reaches p.advance :=
  reaches_advance (by simp [h])

theorem reaches_advance_of_comma (h : p.current = .char ',') : p.Reaches p.advance :=
  reaches_advance (by simp [h])

/-- What happens behind an argument. -/
def afterArgument (e : Expr) (q : Parser τ) : Outcome q (List Expr) :=
  if h : q.current = .char ')' then .ok [e] q.advance (reaches_advance_of_close h)
  else if h : q.current = .char ',' then
    ((someArguments q.advance).map (e :: ·)).after (reaches_advance_of_comma h)
  else .fail .argumentEnd q (.refl q)

theorem afterArgument_of_close (e : Expr) (h : p.current = .char ')') :
    (afterArgument e p).Succeeds p [.char ')'] [e] := by
  rw [afterArgument, dif_pos h]
  exact ⟨rfl, .single h (by simp)⟩

theorem afterArgument_of_comma (e : Expr) (h : p.current = .char ',') :
    afterArgument e p = ((someArguments p.advance).map (e :: ·)).after
      (reaches_advance_of_comma h) := by
  have hc : p.current ≠ .char ')' := by simp [h]
  rw [afterArgument, dif_neg hc, dif_pos h]

theorem afterArgument_eq_fail (e : Expr) (hc : p.current ≠ .char ')') (hs : p.current ≠ .char ',') :
    afterArgument e p = .fail .argumentEnd p (.refl p) := by
  rw [afterArgument, dif_neg hc, dif_neg hs]

theorem afterArgument_of_ne (e : Expr) (hc : p.current ≠ .char ')') (hs : p.current ≠ .char ',') :
    (afterArgument e p).Breaks p [] .argumentEnd := by
  rw [afterArgument_eq_fail e hc hs]
  exact ⟨rfl, .refl p⟩

theorem someArguments_eq (p : Parser τ) :
    someArguments p = (expression p).andThen fun e q _ => afterArgument e q := by
  rw [someArguments]
  refine congrArg (expression p).andThen ?_
  funext e q _
  split
  · rename_i hc
    rw [afterArgument, dif_pos hc]
  · rename_i hs
    rw [afterArgument_of_comma e hs]
  · rename_i hc hs
    rw [afterArgument_eq_fail e hc hs]

/-! ### Chains of all operators -/

theorem stopsAt_zero_iff {t : Token} : StopsAt 0 t ↔ ¬ Language.IsOperator t := by
  constructor
  · intro h ho
    obtain ⟨op, precedence, ht⟩ := Language.isOperator_iff.1 ho
    exact absurd (h op precedence (Token.operator?_eq_some_iff.2 ht)) (by omega)
  · intro h op precedence ht
    exact absurd (Language.isOperator_iff.2 ⟨op, precedence, Token.operator?_eq_some_iff.1 ht⟩) h

theorem chain_of_not_isOperator (h : ¬ Language.IsOperator p.current) :
    (chain 0 p).Succeeds p [] [] := by
  rw [chain_of_stopsAt (stopsAt_zero_iff.2 h)]
  exact ⟨rfl, .refl p⟩

/-! ### Heads of functions -/

theorem names_of_name (h : p.current = .identifier name) :
    names p = ((names p.advance).map (name :: ·)).after (reaches_advance (by rw [h]; nofun)) := by
  rw [names]
  split
  · rename_i name' hn
    cases h.symm.trans hn
    rfl
  · simp_all

theorem names_of_ne (h : ∀ name, p.current ≠ .identifier name) : (names p).Succeeds p [] [] := by
  rw [names]
  split
  · exact absurd ‹_› (h _)
  · exact ⟨rfl, .refl p⟩

theorem prototype_of_name (h : p.current = .identifier name) :
    prototype p = ((p.advance.expect '(' .parametersOpen).andThen fun _ q _ =>
      (names q).andThen fun parameters r _ =>
        (r.expect ')' .parametersClose).map fun _ => ⟨name, parameters⟩).after
      (reaches_advance (by rw [h]; nofun)) := by
  rw [prototype]
  split
  · rename_i name' hn
    cases h.symm.trans hn
    rfl
  · simp_all

theorem prototype_of_ne (h : ∀ name, p.current ≠ .identifier name) :
    (prototype p).Breaks p [] .functionName := by
  rw [prototype]
  split
  · exact absurd ‹_› (h _)
  · exact ⟨rfl, .refl p⟩

end Parser

end Kaleidoscope
