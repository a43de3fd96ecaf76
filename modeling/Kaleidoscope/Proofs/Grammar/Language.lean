import Kaleidoscope.Proofs.Grammar.Row

/-!
# Two grammars of expressions

The grammar with levels gives an expression its tree; the language of programs reads it as a chain of
operands and gives it none. They have the same expressions. So membership can be argued in whichever
of the two makes it easier, and most often that is the chain: it has no levels, and it can be
continued at its right end.

What may stand first in an expression is the same for both, too, and decides more than it seems: no
operator, no closing parenthesis and no separator of units is among it.

## Main results

* `Grammar.isExpression_iff` — what is an expression has a tree, and the other way around
* `Language.IsExpression.append` — two expressions around an operator
* `Grammar.Comparison.starts`, `Grammar.SomeArguments.starts` — what an expression starts with
-/

namespace Kaleidoscope

/-- The tokens that an expression may start with. -/
def Token.StartsExpression : Token → Prop
  | .identifier _ | .number _ => True
  | .char c => c = '('
  | _ => False

namespace Language

variable {u v : List Token} {op : Token}

theorem isOperator_iff {t : Token} :
    IsOperator t ↔ ∃ op precedence, t = .char op ∧ operatorPrecedence op = some precedence := by
  constructor
  · intro h
    simp only [IsOperator, List.mem_cons, List.not_mem_nil, or_false] at h
    rcases h with rfl | rfl | rfl | rfl
    · exact ⟨_, _, rfl, rfl⟩
    · exact ⟨_, _, rfl, rfl⟩
    · exact ⟨_, _, rfl, rfl⟩
    · exact ⟨_, _, rfl, rfl⟩
  · rintro ⟨op, precedence, rfl, h⟩
    unfold operatorPrecedence at h
    split at h
    · simp [IsOperator]
    · simp [IsOperator]
    · simp [IsOperator]
    · simp [IsOperator]
    · cases h

theorem not_isOperator_of_starts {t : Token} (h : t.StartsExpression) : ¬ IsOperator t := by
  intro ho
  obtain ⟨op, precedence, rfl, hop⟩ := isOperator_iff.1 ho
  obtain rfl : op = '(' := h
  cases hop

theorem IsExpression.append (ho : IsOperator op) (hv : IsExpression v) :
    ∀ {u : List Token}, IsExpression u → IsExpression (u ++ op :: v)
  | _, .primary h => .chain h ho hv
  | _, .chain h ho' h' => by
    rw [List.append_assoc, List.cons_append]
    exact .chain h ho' (append ho hv h')

/-! ### No expression contains the end of the input -/

mutual

theorem IsExpression.endOfInput_not_mem :
    ∀ {u : List Token}, IsExpression u → .endOfInput ∉ u
  | _, .primary h => h.endOfInput_not_mem
  | _, .chain hu ho hv => by
    rw [List.mem_append, List.mem_cons]
    rintro (h | rfl | h)
    · exact hu.endOfInput_not_mem h
    · exact absurd ho (by simp [IsOperator])
    · exact hv.endOfInput_not_mem h

theorem IsPrimary.endOfInput_not_mem : ∀ {u : List Token}, IsPrimary u → .endOfInput ∉ u
  | _, .number _ => by simp
  | _, .name _ => by simp
  | _, .emptyCall _ => by simp
  | _, .call _ h => by simpa using h.endOfInput_not_mem
  | _, .group h => by simpa using h.endOfInput_not_mem

theorem IsArguments.endOfInput_not_mem : ∀ {u : List Token}, IsArguments u → .endOfInput ∉ u
  | _, .one h => h.endOfInput_not_mem
  | _, .more h hs => by simpa using ⟨h.endOfInput_not_mem, hs.endOfInput_not_mem⟩

end

end Language

open Kaleidoscope.Language

namespace Grammar

variable {u : List Token}

/-! ### Trees are for expressions -/

mutual

theorem Comparison.isExpression : ∀ {u : List Token} {e : Expr}, Comparison u e → IsExpression u
  | _, _, .sum h => h.isExpression
  | _, _, .less hl hr => .append (by simp [IsOperator]) hr.isExpression hl.isExpression

theorem Sum.isExpression : ∀ {u : List Token} {e : Expr}, Sum u e → IsExpression u
  | _, _, .product h => h.isExpression
  | _, _, .plus hl hr => .append (by simp [IsOperator]) hr.isExpression hl.isExpression
  | _, _, .minus hl hr => .append (by simp [IsOperator]) hr.isExpression hl.isExpression

theorem Product.isExpression : ∀ {u : List Token} {e : Expr}, Product u e → IsExpression u
  | _, _, .primary h => .primary h.isPrimary
  | _, _, .times hl hr => .append (by simp [IsOperator]) (.primary hr.isPrimary) hl.isExpression

theorem Primary.isPrimary : ∀ {u : List Token} {e : Expr}, Primary u e → IsPrimary u
  | _, _, .number value => .number value
  | _, _, .name name => .name name
  | _, _, .call callee .none => .emptyCall callee
  | _, _, .call callee (.some h) => .call callee h.isArguments
  | _, _, .group h => .group h.isExpression

theorem SomeArguments.isArguments :
    ∀ {u : List Token} {es : List Expr}, SomeArguments u es → IsArguments u
  | _, _, .one h => .one h.isExpression
  | _, _, .more h hs => .more h.isExpression hs.isArguments

end

/-! ### Expressions have trees -/

/-- An operand and a chain, whatever binds how tightly. -/
theorem comparison_of_links {v : List Token} {first : Expr} {links : Chain} (hu : Primary u first)
    (hv : Links v links) : Comparison (u ++ v) (Chain.tree first links) :=
  comparison_iff_row.2 (.intro hu hv fun _ _ => Nat.zero_le _)

mutual

theorem exists_links_of_isExpression : ∀ {u : List Token}, IsExpression u →
    ∃ w v first links, u = w ++ v ∧ Primary w first ∧ Links v links
  | u, .primary h => by
    obtain ⟨first, hfirst⟩ := exists_primary_of_isPrimary h
    exact ⟨u, [], first, [], (List.append_nil u).symm, hfirst, .nil⟩
  | _, .chain h ho h' => by
    obtain ⟨first, hfirst⟩ := exists_primary_of_isPrimary h
    obtain ⟨w, v, operand, links, rfl, hoperand, hlinks⟩ := exists_links_of_isExpression h'
    obtain ⟨op, precedence, rfl, hop⟩ := isOperator_iff.1 ho
    exact ⟨_, _, first, _, rfl, hfirst, .cons hop hoperand hlinks⟩

theorem exists_primary_of_isPrimary : ∀ {u : List Token}, IsPrimary u → ∃ e, Primary u e
  | _, .number value => ⟨_, .number value⟩
  | _, .name name => ⟨_, .name name⟩
  | _, .emptyCall callee => ⟨_, .call callee .none⟩
  | _, .call callee h => by
    obtain ⟨es, hes⟩ := exists_someArguments_of_isArguments h
    exact ⟨_, .call callee (.some hes)⟩
  | _, .group h => by
    obtain ⟨w, v, first, links, rfl, hfirst, hlinks⟩ := exists_links_of_isExpression h
    exact ⟨_, .group (comparison_of_links hfirst hlinks)⟩

theorem exists_someArguments_of_isArguments : ∀ {u : List Token}, IsArguments u →
    ∃ es, SomeArguments u es
  | _, .one h => by
    obtain ⟨w, v, first, links, rfl, hfirst, hlinks⟩ := exists_links_of_isExpression h
    exact ⟨_, .one (comparison_of_links hfirst hlinks)⟩
  | _, .more h hs => by
    obtain ⟨w, v, first, links, rfl, hfirst, hlinks⟩ := exists_links_of_isExpression h
    obtain ⟨es, hes⟩ := exists_someArguments_of_isArguments hs
    exact ⟨_, .more (comparison_of_links hfirst hlinks) hes⟩

end

theorem isExpression_iff : IsExpression u ↔ ∃ e, Comparison u e := by
  constructor
  · intro h
    obtain ⟨w, v, first, links, rfl, hfirst, hlinks⟩ := exists_links_of_isExpression h
    exact ⟨_, comparison_of_links hfirst hlinks⟩
  · rintro ⟨e, h⟩
    exact h.isExpression

theorem isPrimary_iff : IsPrimary u ↔ ∃ e, Primary u e :=
  ⟨exists_primary_of_isPrimary, fun ⟨_, h⟩ => h.isPrimary⟩

/-! ### The first token -/

theorem Primary.starts {e : Expr} (h : Primary u e) : ∃ t v, u = t :: v ∧ t.StartsExpression := by
  cases h with
  | number value => exact ⟨_, _, rfl, trivial⟩
  | name name => exact ⟨_, _, rfl, trivial⟩
  | call callee _ => exact ⟨_, _, rfl, trivial⟩
  | group _ => exact ⟨_, _, rfl, rfl⟩

theorem Comparison.starts {e : Expr} (h : Comparison u e) :
    ∃ t v, u = t :: v ∧ t.StartsExpression := by
  cases comparison_iff_row.1 h with
  | intro hu _ _ =>
    obtain ⟨t, v, rfl, ht⟩ := hu.starts
    exact ⟨t, _, rfl, ht⟩

theorem SomeArguments.starts {es : List Expr} (h : SomeArguments u es) :
    ∃ t v, u = t :: v ∧ t.StartsExpression := by
  cases h with
  | one h => exact h.starts
  | more h _ =>
    obtain ⟨t, v, rfl, ht⟩ := h.starts
    exact ⟨t, _, rfl, ht⟩

end Grammar

end Kaleidoscope
