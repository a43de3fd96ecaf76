import Kaleidoscope.Proofs.Grammar.Broken

/-!
# The longest expression will do

Nothing has to stand between the units of a program, so `x (y)` is a call or two units. Reading as much
as possible is always safe: if an expression is followed by a program, then some expression that is at
least as long ends where none goes on, and a program still follows.

The argument is by induction on the program behind the expression. If its first unit goes on with the
expression, which only an opening parenthesis after a name can do, the unit is an expression itself, and
the two are one expression: what was a name is called with what was in parentheses. That expression has
one unit less behind it.

## Main results

* `Language.IsExpression.append_group` — a name and a group become a call
* `Language.IsProgram.exists_longest` — the longest expression in front of a program
-/

namespace Kaleidoscope

namespace Language

variable {u v : List Token} {t : Token} {name : String}

/-! ### A name and a group -/

theorem IsExpression.ne_nil (h : IsExpression u) : u ≠ [] := by
  obtain ⟨e, he⟩ := Grammar.isExpression_iff.1 h
  exact he.ne_nil

theorem IsExpression.starts (h : IsExpression u) : ∃ t v, u = t :: v ∧ t.StartsExpression := by
  obtain ⟨e, he⟩ := Grammar.isExpression_iff.1 h
  exact he.starts

/-- A group after a name is the argument of a call. -/
theorem IsPrimary.call_of_group (h : IsPrimary (.char '(' :: v)) (name : String) :
    IsPrimary (.identifier name :: .char '(' :: v) := by
  cases h with
  | group h => exact .call name (.one h)

theorem IsExpression.call_of_group (h : IsExpression (.char '(' :: v)) (name : String) :
    IsExpression (.identifier name :: .char '(' :: v) := by
  generalize hw : Token.char '(' :: v = w at h
  cases h with
  | primary h =>
    subst hw
    exact .primary (h.call_of_group name)
  | @chain u w op hu ho hv =>
    cases u with
    | nil => exact nomatch hu
    | cons t u =>
      obtain ⟨rfl, rfl⟩ := List.cons.inj hw
      exact .chain (hu.call_of_group name) ho hv

/-- An operand that ends in a name is that name. -/
theorem IsPrimary.eq_of_getLast? (h : IsPrimary u) (hu : u.getLast? = some (.identifier name)) :
    u = [.identifier name] := by
  cases h with
  | number => cases hu
  | name =>
    cases hu
    rfl
  | emptyCall => cases hu
  | @call u callee _ =>
    rw [← List.cons_append, ← List.cons_append, List.getLast?_concat] at hu
    cases hu
  | @group u _ =>
    rw [← List.cons_append, List.getLast?_concat] at hu
    cases hu

/-- An expression that ends in a name and one that starts with a group are one expression, in which the
name is called. -/
theorem IsExpression.append_group (hv : IsExpression (.char '(' :: v)) :
    ∀ {u : List Token}, IsExpression u → u.getLast? = some (.identifier name) →
      IsExpression (u ++ .char '(' :: v)
  | _, .primary h, hu => by
    rw [h.eq_of_getLast? hu]
    exact hv.call_of_group name
  | _, .chain (v := w) h ho hw, hu => by
    rw [List.getLast?_append_of_ne_nil _ (List.cons_ne_nil _ _), ← List.singleton_append,
      List.getLast?_append_of_ne_nil _ hw.ne_nil] at hu
    rw [List.append_assoc, List.cons_append]
    exact .chain h ho (append_group hv hw hu)

/-! ### The longest expression -/

/-- What goes on with an expression and is no operator makes a call of a name. -/
theorem call_of_not_endsBefore (h : ¬ EndsBefore u t) (ht : ¬ IsOperator t) :
    t = .char '(' ∧ ∃ name, u.getLast? = some (.identifier name) := by
  have hcall : ¬ Separates u t := fun hs => h ⟨ht, hs⟩
  simpa [Separates] using hcall

/-- What a unit starts with is no operator. -/
theorem IsUnit.starts (h : IsUnit u) : ∃ t v, u = t :: v ∧ ¬ IsOperator t := by
  cases h with
  | separator => exact ⟨_, _, rfl, by simp [IsOperator]⟩
  | definition _ _ => exact ⟨_, _, rfl, by simp [IsOperator]⟩
  | external _ => exact ⟨_, _, rfl, by simp [IsOperator]⟩
  | expression h =>
    obtain ⟨t, v, rfl, ht⟩ := h.starts
    exact ⟨t, v, rfl, not_isOperator_of_starts ht⟩

/-- A unit that starts with an opening parenthesis is an expression. -/
theorem IsUnit.isExpression (h : IsUnit (.char '(' :: v)) : IsExpression (.char '(' :: v) := by
  generalize hw : Token.char '(' :: v = w at h
  cases h with
  | expression h => exact h
  | _ => cases hw

/-- In front of a program, an expression can be made so long that nothing goes on with it, and a program
still follows. -/
theorem IsProgram.exists_longest (hv : IsProgram v) : ∀ {u : List Token}, IsExpression u →
    ∃ w rest, u ++ v = w ++ rest ∧ IsExpression w ∧ EndsBefore w (rest.headD .endOfInput) ∧
      IsProgram rest := by
  induction hv with
  | nil => exact fun {u} hu => ⟨u, [], rfl, hu, endsBefore_endOfInput, .nil⟩
  | @cons u' v hu' hv ih =>
    intro u hu
    by_cases he : EndsBefore u ((u' ++ v).headD .endOfInput)
    · exact ⟨u, u' ++ v, rfl, hu, he, .cons hu' hv⟩
    · obtain ⟨t, w, rfl, ht⟩ := hu'.starts
      obtain ⟨rfl, name, hname⟩ := call_of_not_endsBefore he ht
      rw [← List.append_assoc]
      exact ih (hu'.isExpression.append_group hu hname)

end Language

end Kaleidoscope
