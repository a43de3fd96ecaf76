import Kaleidoscope.Proofs.Grammar.Longest
import Kaleidoscope.Proofs.Parser.Failure
import Kaleidoscope.Proofs.Session.Units

/-!
# Complete units

A session takes as much as it can for a unit. What that means can be said by the token behind, which must
not go on with an expression, or without looking at the end of a unit at all: the tokens are those of an
item, and with the token behind them they are not the beginning of any. The two are the same.

One direction is a matter of grammar, as an operator or a parenthesis that goes on with an expression can
always be followed up. For the other, suppose that a longer unit begins with the tokens and the one behind
them. A session over that unit would have to stop within it and to take all of it.

## Main definitions

* `Grammar.TopLevel` — the tokens of an item
* `Session.Complete` — an item that is complete before a token

## Main results

* `Session.Takes.unique` — tokens determine the step
* `Session.Complete.takes` — what is complete is taken
* `Session.complete_iff` — complete is what nothing goes on with
-/

namespace Kaleidoscope

open Kaleidoscope.Language

namespace Grammar

/-- The tokens of an item. -/
inductive TopLevel : List Token → Item → Prop where
  | definition {u : List Token} {f : Function} (h : Definition u f) : TopLevel u (.definition f)
  | external {u : List Token} {head : Prototype} (h : External u head) : TopLevel u (.external head)
  | expression {u : List Token} {e : Expr} (h : Comparison u e) : TopLevel u (.expression (.ofExpr e))

theorem TopLevel.endOfInput_not_mem {u : List Token} {i : Item} (h : TopLevel u i) :
    .endOfInput ∉ u := by
  cases h with
  | definition h => exact decides_definition.endOfInput_not_mem h
  | external h => exact decides_external.endOfInput_not_mem h
  | expression h => exact decides_expression.endOfInput_not_mem h

theorem TopLevel.ne_nil {u : List Token} {i : Item} (h : TopLevel u i) : u ≠ [] := by
  cases h with
  | definition h =>
    cases h
    exact List.cons_ne_nil _ _
  | external h =>
    cases h
    exact List.cons_ne_nil _ _
  | expression h => exact h.ne_nil

end Grammar

/-- What goes on with an expression can be followed up. -/
theorem Language.IsExpression.exists_append {u : List Token} {t : Token} (h : IsExpression u)
    (he : ¬ EndsBefore u t) : ∃ w, IsExpression (u ++ t :: w) := by
  have hzero : IsExpression [.number .zero] := .primary (.number .zero)
  by_cases ho : IsOperator t
  · exact ⟨_, .append ho hzero h⟩
  · obtain ⟨rfl, name, hname⟩ := call_of_not_endsBefore he ho
    exact ⟨_, .append_group (.primary (.group hzero)) h hname⟩

namespace Session

variable {ts rest rest' u v : List Token} {s s' : Step} {i : Item} {t : Token}

/-- An item made of `u` that is complete before `t`. Behind an external declaration anything may
stand. -/
inductive Complete (u : List Token) : Item → Token → Prop where
  | definition {f : Function} {t : Token} (h : Grammar.Definition u f) (he : EndsBefore u t) :
    Complete u (.definition f) t
  | external {head : Prototype} {t : Token} (h : Grammar.External u head) :
    Complete u (.external head) t
  | expression {e : Expr} {t : Token} (h : Grammar.Comparison u e) (he : EndsBefore u t) :
    Complete u (.expression (.ofExpr e)) t

/-- What is complete is taken. -/
theorem Complete.takes (h : Complete u i (v.headD .endOfInput)) : Takes (u ++ v) (.parsed i) v := by
  cases h with
  | definition h he => exact .definition h he
  | external h => exact .external h
  | expression h he => exact .expression h he

/-- Tokens determine the step and what is left. -/
theorem Takes.unique (h : Takes ts s rest) (h' : Takes ts s' rest') (hts : .endOfInput ∉ ts) :
    s = s' ∧ rest = rest' := by
  have ht := Parser.tokens_start_tokenList hts
  obtain ⟨hstep, hrest⟩ := Parser.step_of_takes h ht
  obtain ⟨hstep', hrest'⟩ := Parser.step_of_takes h' ht
  exact ⟨hstep.symm.trans hstep', hrest.symm.trans hrest'⟩

theorem Complete.topLevel (h : Complete u i t) : Grammar.TopLevel u i := by
  cases h with
  | definition h _ => exact .definition h
  | external h => exact .external h
  | expression h _ => exact .expression h

/-- An item is complete where an expression may end, and so in particular before a semicolon and at the
end of the input. -/
theorem complete_of_endsBefore (h : Grammar.TopLevel u i) (he : EndsBefore u t) : Complete u i t := by
  cases h with
  | definition h => exact .definition h he
  | external h => exact .external h
  | expression h => exact .expression h he

/-- No item begins with a complete one and the token behind it. -/
theorem Complete.not_viable (h : Complete u i t) : ¬ Viable Grammar.TopLevel (u ++ [t]) := by
  rintro ⟨w, i', hlonger⟩
  rw [List.append_assoc, List.singleton_append] at hlonger
  have hpart : Takes (u ++ t :: w) (.parsed i) (t :: w) := Complete.takes (v := t :: w) h
  have hwhole : Takes ((u ++ t :: w) ++ []) (.parsed i') [] :=
    Complete.takes (v := []) (complete_of_endsBefore hlonger endsBefore_endOfInput)
  rw [List.append_nil] at hwhole
  exact absurd (hpart.unique hwhole hlonger.endOfInput_not_mem).2 (List.cons_ne_nil t w)

/-- The tokens of an item with a token behind them that nothing begins with are complete. -/
theorem complete_of_not_viable (h : Grammar.TopLevel u i)
    (hv : ¬ Viable Grammar.TopLevel (u ++ [t])) : Complete u i t := by
  cases h with
  | @definition f h =>
    refine .definition h (Classical.byContradiction fun he => hv ?_)
    obtain ⟨head, hbody⟩ := h
    rw [endsBefore_definition head hbody.ne_nil] at he
    obtain ⟨w, hw⟩ := hbody.isExpression.exists_append he
    obtain ⟨e, he⟩ := Grammar.isExpression_iff.1 hw
    exact ⟨w, _, .definition (by simpa using Grammar.Definition.intro head he)⟩
  | external h => exact .external h
  | @expression e h =>
    refine .expression h (Classical.byContradiction fun he => hv ?_)
    obtain ⟨w, hw⟩ := h.isExpression.exists_append he
    obtain ⟨e, he⟩ := Grammar.isExpression_iff.1 hw
    exact ⟨w, _, .expression (by simpa using he)⟩

/-- An item is complete if and only if nothing goes on with it. -/
theorem complete_iff :
    Complete u i t ↔ Grammar.TopLevel u i ∧ ¬ Viable Grammar.TopLevel (u ++ [t]) :=
  ⟨fun h => ⟨h.topLevel, h.not_viable⟩, fun ⟨h, hv⟩ => complete_of_not_viable h hv⟩

end Session

end Kaleidoscope
