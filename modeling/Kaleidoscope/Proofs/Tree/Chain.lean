import Kaleidoscope.Tree.Chain

/-!
# The tree of a chain

`Chain.tree` finds its root by a search. Proofs want to name the root instead, so the search is
characterised once: it finds an operator exactly if no operator before it binds less tightly and every
operator after it binds more tightly.

From this follows the law that a left-to-right reading of operators lives on. An operator takes in the
operators behind it that bind more tightly, together with the operand before them; what comes of it is
the left operand of the operators after those.

## Main results

* `Chain.split?_append_cons`, `Chain.bounds_of_split?` — what the search finds
* `Chain.tree_append_cons` — the tree at a named root
* `Chain.tree_cons_append` — the tree read from left to right
-/

namespace Kaleidoscope

namespace Chain

variable {links before after : Chain} {least : Char × Expr}

theorem precedence_of_operator {op : Char} {precedence : Nat} (operand : Expr)
    (h : operatorPrecedence op = some precedence) : Chain.precedence (op, operand) = precedence := by
  rw [Chain.precedence, h, Option.getD_some]

/-! ### The operator of least precedence -/

theorem split?_eq_none_iff : split? links = none ↔ links = [] := by
  constructor
  · intro h
    cases links with
    | nil => rfl
    | cons link links =>
      rw [split?] at h
      split at h
      · cases h
      · split at h <;> cases h
  · rintro rfl
    rfl

/-- No operator before the one found binds less tightly, and none after it as loosely. -/
theorem bounds_of_split? (h : split? links = some (before, least, after)) :
    (∀ link ∈ before, precedence least ≤ precedence link) ∧
      ∀ link ∈ after, precedence least < precedence link := by
  induction links generalizing before least after with
  | nil => cases h
  | cons link links ih =>
    rw [split?] at h
    split at h
    · rename_i hs
      obtain rfl := split?_eq_none_iff.1 hs
      obtain ⟨rfl, rfl, rfl⟩ : [] = before ∧ link = least ∧ [] = after := by simpa using h
      simp
    · rename_i b l a hs
      obtain ⟨hbefore, hafter⟩ := ih hs
      split at h
      · rename_i hle
        obtain ⟨rfl, rfl, rfl⟩ : link :: b = before ∧ l = least ∧ a = after := by simpa using h
        refine ⟨fun k hk => ?_, hafter⟩
        rcases List.mem_cons.1 hk with rfl | hk
        · exact hle
        · exact hbefore k hk
      · rename_i hlt
        obtain ⟨rfl, rfl, rfl⟩ : [] = before ∧ link = least ∧ links = after := by simpa using h
        refine ⟨by simp, fun k hk => ?_⟩
        rw [eq_of_split? hs] at hk
        rcases List.mem_append.1 hk with hk | hk
        · exact Nat.lt_of_lt_of_le (Nat.not_le.1 hlt) (hbefore k hk)
        · rcases List.mem_cons.1 hk with rfl | hk
          · exact Nat.not_le.1 hlt
          · exact Nat.lt_trans (Nat.not_le.1 hlt) (hafter k hk)

/-- The search finds any operator with these bounds. -/
theorem split?_append_cons (hb : ∀ link ∈ before, precedence least ≤ precedence link)
    (ha : ∀ link ∈ after, precedence least < precedence link) :
    split? (before ++ least :: after) = some (before, least, after) := by
  induction before with
  | nil =>
    rw [List.nil_append, split?]
    split
    · rename_i hs
      rw [split?_eq_none_iff.1 hs]
    · rename_i b l a hs
      have hl : precedence least < precedence l := ha l (by rw [eq_of_split? hs]; simp)
      rw [if_neg (Nat.not_le.2 hl)]
  | cons link before ih =>
    rw [List.cons_append, split?, ih fun k hk => hb k (List.mem_cons_of_mem _ hk)]
    exact if_pos (hb link List.mem_cons_self)

/-! ### The tree -/

@[simp] theorem tree_nil (first : Expr) : tree first [] = first := by
  rw [tree]
  rfl

theorem tree_of_split? {op : Char} {operand : Expr} (first : Expr)
    (h : split? links = some (before, (op, operand), after)) :
    tree first links = .binary op (tree first before) (tree operand after) := by
  rw [tree]
  split
  · rename_i hs
    rw [h] at hs
    cases hs
  · rename_i hs
    rw [h] at hs
    cases hs
    rfl

/-- The tree at a named root. -/
theorem tree_append_cons {op : Char} {operand : Expr} (first : Expr)
    (hb : ∀ link ∈ before, precedence (op, operand) ≤ precedence link)
    (ha : ∀ link ∈ after, precedence (op, operand) < precedence link) :
    tree first (before ++ (op, operand) :: after)
      = .binary op (tree first before) (tree operand after) :=
  tree_of_split? first (split?_append_cons hb ha)

/-- The first operator takes in those behind it that bind more tightly, and what comes of it is the
left operand of the rest. -/
theorem tree_cons_append {op : Char} {left operand : Expr} {tighter looser : Chain}
    (ht : ∀ link ∈ tighter, precedence (op, operand) < precedence link)
    (hl : ∀ link ∈ looser.head?, precedence link ≤ precedence (op, operand)) :
    tree left ((op, operand) :: (tighter ++ looser))
      = tree (.binary op left (tree operand tighter)) looser := by
  induction hn : looser.length using Nat.strongRecOn generalizing looser with
  | ind n ih =>
    cases hs : split? looser with
    | none =>
      obtain rfl := split?_eq_none_iff.1 hs
      rw [List.append_nil, tree_nil]
      have hroot := tree_append_cons left (List.forall_mem_nil _) ht
      rwa [List.nil_append, tree_nil] at hroot
    | some parts =>
      obtain ⟨before, ⟨op', operand'⟩, after⟩ := parts
      obtain ⟨hb, ha⟩ := bounds_of_split? hs
      obtain rfl := eq_of_split? hs
      -- The root of `looser` binds no more tightly than the first operator, so it is the root of all.
      have hroot : precedence (op', operand') ≤ precedence (op, operand) := by
        cases before with
        | nil => exact hl _ rfl
        | cons link before => exact Nat.le_trans (hb link List.mem_cons_self) (hl link rfl)
      have hall : ∀ link ∈ (op, operand) :: (tighter ++ before),
          precedence (op', operand') ≤ precedence link := by
        intro link hlink
        rcases List.mem_cons.1 hlink with rfl | hlink
        · exact hroot
        · rcases List.mem_append.1 hlink with hlink | hlink
          · exact Nat.le_of_lt (Nat.lt_of_le_of_lt hroot (ht link hlink))
          · exact hb link hlink
      have hbefore : ∀ link ∈ before.head?, precedence link ≤ precedence (op, operand) := by
        intro link hlink
        refine hl link ?_
        cases before with
        | nil => cases hlink
        | cons link' before => exact hlink
      have hshort : before.length < n := by
        rw [← hn, List.length_append, List.length_cons]
        omega
      calc tree left ((op, operand) :: (tighter ++ (before ++ (op', operand') :: after)))
          = tree left (((op, operand) :: (tighter ++ before)) ++ (op', operand') :: after) := by
            simp
        _ = .binary op' (tree left ((op, operand) :: (tighter ++ before))) (tree operand' after) :=
            tree_append_cons left hall ha
        _ = .binary op' (tree (.binary op left (tree operand tighter)) before)
              (tree operand' after) := by rw [ih _ hshort hbefore rfl]
        _ = tree (.binary op left (tree operand tighter)) (before ++ (op', operand') :: after) :=
            (tree_append_cons _ hb ha).symm

end Chain

end Kaleidoscope
