import Kaleidoscope.Grammar.Expression
import Kaleidoscope.Grammar.Program
import Kaleidoscope.Proofs.Tree.Chain

/-!
# Expressions as rows of operands

The grammar of expressions has a level for each precedence and recursion on the left. A parser reads
an operand, then operators and operands as they come. This module says that the two are one language
with one tree for each derivation: an expression is an operand and a chain, and its tree is
`Chain.tree` of both.

## One statement for all levels

A level is the least precedence that an operator outside parentheses may have. `Level` names the rule
of the grammar for each such number and `Row` the chains that keep to it, so that what has to be said
of an operator is said once (`Level.binary`, `Row.binary`): its left operand is of its own level, its
right operand of the next.

## Main definitions

* `Grammar.Links` — the tokens of a chain
* `Grammar.Row`, `Grammar.Level` — chains and rules by least precedence

## Main results

* `Grammar.Row.binary`, `Grammar.Level.binary` — two operands around an operator
* `Grammar.comparison_iff_row` — the expressions of the grammar are the rows
-/

namespace Kaleidoscope

namespace Grammar

variable {u v w : List Token} {e l r : Expr} {op : Char} {precedence m n : Nat}

/-! ### Chains -/

/-- The tokens of a chain: each operator, then those of its operand. -/
inductive Links : List Token → Chain → Prop where
  | nil : Links [] []
  | cons {u v : List Token} {op : Char} {precedence : Nat} {operand : Expr} {links : Chain}
    (ho : operatorPrecedence op = some precedence) (hu : Primary u operand) (hv : Links v links) :
    Links (.char op :: (u ++ v)) ((op, operand) :: links)

theorem Links.append {xs ys : Chain} (hu : Links u xs) (hv : Links v ys) : Links (u ++ v) (xs ++ ys) := by
  induction hu with
  | nil => exact hv
  | cons ho hu _ ih =>
    rw [List.cons_append, List.append_assoc]
    exact .cons ho hu ih

theorem Links.of_append {xs ys : Chain} (h : Links w (xs ++ ys)) :
    ∃ u v, w = u ++ v ∧ Links u xs ∧ Links v ys := by
  induction xs generalizing w with
  | nil => exact ⟨[], w, rfl, .nil, h⟩
  | cons link xs ih =>
    cases h with
    | @cons u _ op _ _ _ ho hu hv =>
      obtain ⟨v, v', rfl, hv, hv'⟩ := ih hv
      refine ⟨.char op :: (u ++ v), v', ?_, .cons ho hu hv, hv'⟩
      rw [List.cons_append, List.append_assoc]

/-! ### Rows -/

/-- An operand and a chain whose operators bind at least as tightly as `least`. -/
inductive Row (least : Nat) : List Token → Expr → Prop where
  | intro {u v : List Token} {first : Expr} {links : Chain} (hu : Primary u first)
    (hv : Links v links) (hb : ∀ link ∈ links, least ≤ Chain.precedence link) :
    Row least (u ++ v) (Chain.tree first links)

theorem Row.of_primary (h : Primary u e) : Row n u e := by
  have hrow : Row n (u ++ []) (Chain.tree e []) := .intro h .nil (List.forall_mem_nil _)
  rwa [List.append_nil, Chain.tree_nil] at hrow

theorem Row.mono (hmn : m ≤ n) (h : Row n u e) : Row m u e := by
  cases h with
  | intro hu hv hb => exact .intro hu hv fun link hlink => Nat.le_trans hmn (hb link hlink)

/-- Two rows around an operator. It is the root, as the left row holds nothing looser and the right
one nothing as loose. -/
theorem Row.binary (ho : operatorPrecedence op = some precedence) (hl : Row precedence u l)
    (hr : Row (precedence + 1) v r) : Row precedence (u ++ .char op :: v) (.binary op l r) := by
  cases hl with
  | @intro u₁ v₁ first links hu₁ hv₁ hb₁ =>
    cases hr with
    | @intro u₂ v₂ operand links' hu₂ hv₂ hb₂ =>
      have hprecedence := Chain.precedence_of_operator operand ho
      rw [← Chain.tree_append_cons first (fun link hlink => hprecedence ▸ hb₁ link hlink)
        (fun link hlink => hprecedence ▸ hb₂ link hlink), List.append_assoc]
      refine .intro hu₁ (hv₁.append (.cons ho hu₂ hv₂)) fun link hlink => ?_
      rcases List.mem_append.1 hlink with hlink | hlink
      · exact hb₁ link hlink
      · rcases List.mem_cons.1 hlink with rfl | hlink
        · exact Nat.le_of_eq hprecedence.symm
        · exact Nat.le_of_succ_le (hb₂ link hlink)

theorem Product.row : ∀ {u : List Token} {e : Expr}, Product u e → Row 40 u e
  | _, _, .primary h => .of_primary h
  | _, _, .times hl hr => .binary rfl hl.row (.of_primary hr)

theorem Sum.row : ∀ {u : List Token} {e : Expr}, Sum u e → Row 20 u e
  | _, _, .product h => h.row.mono (by decide)
  | _, _, .plus hl hr => .binary rfl hl.row (hr.row.mono (by decide))
  | _, _, .minus hl hr => .binary rfl hl.row (hr.row.mono (by decide))

theorem Comparison.row : ∀ {u : List Token} {e : Expr}, Comparison u e → Row 10 u e
  | _, _, .sum h => h.row.mono (by decide)
  | _, _, .less hl hr => .binary rfl hl.row (hr.row.mono (by decide))

/-! ### Levels -/

/-- The rule of the expressions whose operators outside parentheses bind at least as tightly as
`least`. -/
def Level (least : Nat) : List Token → Expr → Prop :=
  if least ≤ 10 then Comparison
  else if least ≤ 20 then Sum
  else if least ≤ 40 then Product
  else Primary

theorem Level.of_primary (h : Primary u e) : Level n u e := by
  unfold Level
  split
  · exact .sum (.product (.primary h))
  · split
    · exact .product (.primary h)
    · split
      · exact .primary h
      · exact h

theorem Level.mono (hmn : m ≤ n) (h : Level n u e) : Level m u e := by
  by_cases h₁ : n ≤ 10
  · simpa [Level, h₁, Nat.le_trans hmn h₁] using h
  · by_cases h₂ : n ≤ 20
    · have hsum : Sum u e := by simpa [Level, h₁, h₂] using h
      by_cases k₁ : m ≤ 10
      · simpa [Level, k₁] using Comparison.sum hsum
      · simpa [Level, k₁, Nat.le_trans hmn h₂] using hsum
    · by_cases h₃ : n ≤ 40
      · have hproduct : Product u e := by simpa [Level, h₁, h₂, h₃] using h
        by_cases k₁ : m ≤ 10
        · simpa [Level, k₁] using Comparison.sum (.product hproduct)
        · by_cases k₂ : m ≤ 20
          · simpa [Level, k₁, k₂] using Sum.product hproduct
          · simpa [Level, k₁, k₂, Nat.le_trans hmn h₃] using hproduct
      · exact .of_primary (by simpa [Level, h₁, h₂, h₃] using h)

/-- The rules for operators, all in one. -/
theorem Level.binary (ho : operatorPrecedence op = some precedence) (hl : Level precedence u l)
    (hr : Level (precedence + 1) v r) : Level precedence (u ++ .char op :: v) (.binary op l r) := by
  unfold operatorPrecedence at ho
  split at ho
  · cases ho
    exact Comparison.less hl hr
  · cases ho
    exact Sum.plus hl hr
  · cases ho
    exact Sum.minus hl hr
  · cases ho
    exact Product.times hl hr
  · cases ho

theorem Row.level (h : Row n w e) : Level n w e := by
  cases h with
  | @intro u v first links hu hv hb =>
    induction hlen : links.length using Nat.strongRecOn generalizing n u v first links with
    | ind k ih =>
      cases hs : Chain.split? links with
      | none =>
        obtain rfl := Chain.split?_eq_none_iff.1 hs
        cases hv
        rw [List.append_nil, Chain.tree_nil]
        exact .of_primary hu
      | some parts =>
        obtain ⟨before, ⟨op, operand⟩, after⟩ := parts
        obtain ⟨hbefore, hafter⟩ := Chain.bounds_of_split? hs
        rw [Chain.tree_of_split? first hs]
        obtain rfl := Chain.eq_of_split? hs
        obtain ⟨v₁, v₂, rfl, hv₁, hv₂⟩ := hv.of_append
        cases hv₂ with
        | @cons u₂ v₂ _ precedence _ _ ho hu₂ hv₂ =>
          have hprecedence := Chain.precedence_of_operator operand ho
          rw [hprecedence] at hbefore hafter
          rw [List.length_append, List.length_cons] at hlen
          have hn : n ≤ precedence := by
            rw [← hprecedence]
            exact hb _ (by simp)
          have hleft := ih before.length (by omega) hu hv₁ hbefore rfl
          have hright := ih after.length (by omega) hu₂ hv₂ hafter rfl
          rw [← List.append_assoc]
          exact (Level.binary ho hleft hright).mono hn

theorem comparison_iff_row : Comparison u e ↔ Row 0 u e :=
  ⟨fun h => h.row.mono (by decide), Row.level⟩

end Grammar

end Kaleidoscope
