import Kaleidoscope.Operator
import Kaleidoscope.Tree.Expr

/-!
# Chains of operands

An operand followed by operators and operands, without a tree. Which tree it stands for can be said
without reading it from left to right: the operator that binds least tightly is the root, and of
several the rightmost one, as all operators associate to the left. What stands before it is the left
operand and what stands after it is the right one, each a shorter chain.

## Main definitions

* `Chain` — the operators and operands after a first one
* `Chain.split?` — the chain at its rightmost operator of least precedence
* `Chain.tree` — the tree of a chain after an operand
-/

namespace Kaleidoscope

/-- Operators, each with the operand to its right. -/
abbrev Chain := List (Char × Expr)

namespace Chain

/-- How tightly an operator of a chain binds. -/
def precedence (link : Char × Expr) : Nat := (operatorPrecedence link.1).getD 0

/-- What stands before the rightmost operator of least precedence, that operator with its operand,
and what stands after them. -/
def split? : Chain → Option (Chain × (Char × Expr) × Chain)
  | [] => none
  | link :: links =>
    match split? links with
    | none => some ([], link, [])
    | some (before, least, after) =>
      if precedence least ≤ precedence link then some (link :: before, least, after)
      else some ([], link, links)

/-- Splitting loses nothing. -/
theorem eq_of_split? {links before after : Chain} {least : Char × Expr}
    (h : split? links = some (before, least, after)) : links = before ++ least :: after := by
  induction links generalizing before least after with
  | nil => simp [split?] at h
  | cons link links ih =>
    rw [split?] at h
    split at h
    · rename_i hs
      simp only [Option.some.injEq, Prod.mk.injEq] at h
      obtain ⟨rfl, rfl, rfl⟩ := h
      cases links with
      | nil => rfl
      | cons next links =>
        rw [split?] at hs
        split at hs
        · simp at hs
        · split at hs <;> simp at hs
    · rename_i hs
      split at h
      · simp only [Option.some.injEq, Prod.mk.injEq] at h
        obtain ⟨rfl, rfl, rfl⟩ := h
        rw [ih hs]
        rfl
      · simp only [Option.some.injEq, Prod.mk.injEq] at h
        obtain ⟨rfl, rfl, rfl⟩ := h
        rfl

/-- The tree of an operand and a chain after it. -/
def tree (first : Expr) (links : Chain) : Expr :=
  match _ : split? links with
  | none => first
  | some (before, (op, operand), after) => .binary op (tree first before) (tree operand after)
termination_by links.length
decreasing_by
  all_goals
    have parts := congrArg List.length (eq_of_split? ‹_›)
    simp only [List.length_append, List.length_cons] at parts
    omega

end Chain

end Kaleidoscope
