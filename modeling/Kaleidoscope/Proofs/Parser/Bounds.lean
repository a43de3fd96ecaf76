import Kaleidoscope.Proofs.Parser.Completeness

/-!
# Least precedences

A least precedence is any whole number, but there are only three precedences, and all that a chain asks
of its bound is which of them are within it. So two bounds with the same operators within them are the
same bound. Zero does for everything below zero, ten does for everything below ten, and above forty there
is no operator left.

## No room is needed above

Behind an operator the bound is raised to one more than the operator's precedence. As the precedences
are what they are, that number and the one for tokens that are no operators fit into any machine word,
with nothing to check while parsing.

## Main results

* `Parser.operators_congr` — bounds with the same operators within them
* `Token.toInt_precedence_add_one` — a raised bound in 32 bits
* `Parser.operators_in_two_phases` — operators for every bound, against reading in two phases
-/

namespace Kaleidoscope

theorem precedence_cases {op : Char} {precedence : Nat}
    (h : operatorPrecedence op = some precedence) :
    precedence = 10 ∨ precedence = 20 ∨ precedence = 40 := by
  rw [operatorPrecedence.eq_def] at h
  split at h <;> simp_all

namespace Token

variable {t : Token}

theorem precedence_of_operator? {op : Char} {precedence : Nat}
    (h : t.operator? = some (op, precedence)) : t.precedence = precedence := by
  rw [Token.precedence, h]

theorem precedence_of_not_operator? (h : t.operator? = none) : t.precedence = -1 := by
  rw [Token.precedence, h]

theorem precedence_bounds (t : Token) : -1 ≤ t.precedence ∧ t.precedence ≤ 40 := by
  cases ht : t.operator? with
  | none =>
    rw [precedence_of_not_operator? ht]
    decide
  | some link =>
    have hcases := precedence_cases (operator?_eq_some_iff.1 ht).2
    rw [precedence_of_operator? ht]
    omega

/-- One more than the precedence of a token is the same number in 32 bits. -/
theorem toInt_precedence_add_one (t : Token) :
    (Int32.ofInt t.precedence + 1).toInt = t.precedence + 1 := by
  obtain ⟨hlow, hhigh⟩ := t.precedence_bounds
  rw [show (1 : Int32) = Int32.ofInt 1 from rfl, ← Int32.ofInt_add]
  exact Int32.toInt_ofInt_of_le (by omega) (by omega)

end Token

namespace Parser

variable {τ : Type} [TokenSource τ] {low high least : Int}

/-! ### Bounds that come to the same -/

/-- All that counts of a bound are the precedences within it. -/
theorem chain_congr (h : ∀ op precedence, operatorPrecedence op = some precedence →
    (low ≤ (precedence : Int) ↔ high ≤ (precedence : Int))) (p : Parser τ) :
    chain low p = chain high p := by
  induction hn : p.size using Nat.strongRecOn generalizing p with
  | ind n ih =>
    rcases operator_or_stopsAt low p.current with ⟨op, precedence, ho, hlow⟩ | hstop
    · have hhigh := (h op precedence (Token.operator?_eq_some_iff.1 ho).2).1 hlow
      rw [chain_of_operator ho hlow, chain_of_operator ho hhigh]
      refine congrArg (Outcome.after · _) (Outcome.andThen_congr fun operand _ => ?_)
      rw [ih _ (hn ▸ size_primary_advance_lt ho) _ rfl]
    · have hstop' : StopsAt high p.current := by
        intro op precedence ho
        have hiff := h op precedence (Token.operator?_eq_some_iff.1 ho).2
        have hlt := hstop op precedence ho
        omega
      rw [chain_of_stopsAt hstop, chain_of_stopsAt hstop']

theorem operators_congr (h : ∀ op precedence, operatorPrecedence op = some precedence →
    (low ≤ (precedence : Int) ↔ high ≤ (precedence : Int))) (left : Expr) (p : Parser τ) :
    operators low left p = operators high left p := by
  rw [operators_eq_chainedOperators, operators_eq_chainedOperators, chainedOperators, chainedOperators,
    chain_congr h]

/-- A bound below zero excludes no operator more than zero does. -/
theorem chain_max_zero (least : Int) (p : Parser τ) : chain (max least 0) p = chain least p := by
  refine chain_congr ?_ p
  intro op precedence _
  omega

theorem stopsAt_of_forty_lt (h : 40 < least) (t : Token) : StopsAt least t := by
  intro op precedence ho
  have hcases := precedence_cases (Token.operator?_eq_some_iff.1 ho).2
  omega

/-! ### Every bound -/

/-- Reading operators while building their tree is reading all those within the bound, each with its
operand, and then building the tree from its root. The two have the same result, which may be an error,
and leave the same parser. All bounds up to ten come to the same; beyond forty the left operand is
returned and nothing is read. The bound that an operator raises is the same in 32 bits. -/
theorem operators_in_two_phases (least : Int) (left : Expr) (p : Parser τ) :
    operators least left p = chainedOperators (max least 0) left p ∧
      (least ≤ 10 → operators least left p = operators 10 left p) ∧
      (40 < least → operators least left p = .ok left p (.refl p)) ∧
      ∀ t : Token, (Int32.ofInt t.precedence + 1).toInt = t.precedence + 1 := by
  refine ⟨?_, fun hle => operators_congr ?_ left p, fun hlt => ?_, Token.toInt_precedence_add_one⟩
  · rw [operators_eq_chainedOperators, chainedOperators, chainedOperators, chain_max_zero]
  · intro op precedence h
    have hcases := precedence_cases h
    omega
  · exact operators_of_stopsAt left (stopsAt_of_forty_lt hlt _)

/-- In front of `+ x * y;` a bound of minus five and one of ten both read up to the semicolon; a bound of
forty-one reads nothing. -/
theorem operators_in_two_phases_around_bounds :
    let p := start (⟨[.char '+', .identifier "x", .char '*', .identifier "y", .char ';']⟩ : TokenList)
    let a : Expr := .var "a"
    let sum : Expr := .binary '+' a (.binary '*' (.var "x") (.var "y"))
    ((operators (-5) a p).result = .ok sum ∧ (operators (-5) a p).parser.tokens = [.char ';']) ∧
      (operators 10 a p).result = .ok sum ∧ operators 41 a p = .ok a p (.refl p) := by
  intro p a sum
  have ht : p.tokens = [.char '+', .identifier "x", .char '*', .identifier "y"] ++ [.char ';'] :=
    tokens_start_tokenList (by decide)
  have hlinks : Grammar.Links [.char '+', .identifier "x", .char '*', .identifier "y"]
      [('+', .var "x"), ('*', .var "y")] :=
    .cons (u := [.identifier "x"]) rfl (.name "x")
      (.cons (u := [.identifier "y"]) (v := []) rfl (.name "y") .nil)
  have hchain := chain_succeeds (v := [.char ';']) hlinks
    (.of_not_starts nofun (by simp [Language.IsOperator])) ht
  have hproduct : Chain.tree (.var "x") [('*', .var "y")] = .binary '*' (.var "x") (.var "y") := by
    rw [Chain.tree_of_split? (.var "x") (show Chain.split? _ = some ([], ('*', .var "y"), []) from rfl),
      Chain.tree_nil, Chain.tree_nil]
  have htree : Chain.tree a [('+', .var "x"), ('*', .var "y")] = sum := by
    rw [Chain.tree_of_split? a
      (show Chain.split? _ = some ([], ('+', .var "x"), [('*', .var "y")]) from rfl), Chain.tree_nil,
      hproduct]
  have hbelow : operators (-5) a p = (chain 0 p).map (Chain.tree a) :=
    (operators_in_two_phases (-5) a p).1
  have hten := (operators_in_two_phases (-5) a p).2.1 (by decide)
  have hsum := hchain.map (Chain.tree a)
  rw [← hbelow, htree] at hsum
  refine ⟨⟨hsum.result, hsum.tokens_right ht⟩, hten ▸ hsum.result, ?_⟩
  exact (operators_in_two_phases 41 a p).2.2.1 (by decide)

end Parser

end Kaleidoscope
