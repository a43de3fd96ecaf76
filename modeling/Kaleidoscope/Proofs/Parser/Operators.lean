import Kaleidoscope.Parser.Chain
import Kaleidoscope.Proofs.Parser.Outcome
import Kaleidoscope.Proofs.Tree.Chain

/-!
# Climbing is chaining

`Parser.operators` builds its tree while it reads, with a pending operator for each level that it is
inside of. `Parser.chainedOperators` reads first and builds afterwards. They answer the same, down to
the parser that they leave, for every least precedence and every left operand.

The proof never looks at pending operators. A chain at a low bound is a chain at a high bound followed
by a chain at the low one (`chain_eq_andThen`), whatever the two bounds are; that splits the row of
operators behind the first one into those that bind more tightly and the rest, and on the side of trees
`Chain.tree_cons_append` says that the first operator takes in just the former.

## Main results

* `Parser.operators_of_operator` — one turn of the loop, without the test for a tighter operator
* `Parser.chain_eq_andThen` — a chain at two bounds
* `Parser.operators_eq_chainedOperators`
* `Parser.expression_eq` — an expression is an operand, a chain, and the tree of both
-/

namespace Kaleidoscope

theorem Token.operator?_eq_some_iff {t : Token} {op : Char} {precedence : Nat} :
    t.operator? = some (op, precedence) ↔
      t = .char op ∧ operatorPrecedence op = some precedence := by
  constructor
  · intro h
    cases t with
    | char c =>
      obtain ⟨n, hn, hpair⟩ := Option.map_eq_some_iff.1 h
      cases hpair
      exact ⟨rfl, hn⟩
    | _ => cases h
  · rintro ⟨rfl, h⟩
    exact Option.map_eq_some_iff.2 ⟨precedence, h, rfl⟩

namespace Parser

variable {τ : Type} [TokenSource τ] {p : Parser τ} {op : Char} {precedence : Nat} {least : Int}

/-! ### One operator at a time -/

/-- No operator that binds at least as tightly as `least` is in front. -/
def StopsAt (least : Int) (t : Token) : Prop :=
  ∀ op precedence, t.operator? = some (op, precedence) → (precedence : Int) < least

/-- Whether or not a chain goes on with the token in front. -/
theorem operator_or_stopsAt (least : Int) (t : Token) :
    (∃ op precedence, t.operator? = some (op, precedence) ∧ least ≤ (precedence : Int)) ∨
      StopsAt least t := by
  cases ht : t.operator? with
  | none => exact .inr fun op precedence h => by rw [ht] at h; cases h
  | some link =>
    by_cases hle : least ≤ (link.2 : Int)
    · exact .inl ⟨link.1, link.2, rfl, hle⟩
    · refine .inr fun op precedence h => ?_
      rw [ht] at h
      cases h
      exact Int.not_le.1 hle

theorem chain_of_stopsAt (h : StopsAt least p.current) : chain least p = .ok [] p (.refl p) := by
  rw [chain]
  split
  · rename_i op precedence ho
    exact if_neg (Int.not_le.2 (h op precedence ho))
  · rfl

theorem chain_of_operator (h : p.current.operator? = some (op, precedence))
    (hle : least ≤ (precedence : Int)) :
    chain least p = ((primary p.advance).andThen fun operand q _ =>
      (chain least q).map ((op, operand) :: ·)).after
        (reaches_advance (Token.ne_endOfInput_of_operator? h)) := by
  rw [chain]
  split
  · rename_i ho
    cases h.symm.trans ho
    exact if_pos hle
  · rename_i ho
    cases h.symm.trans ho

theorem operators_of_stopsAt (left : Expr) (h : StopsAt least p.current) :
    operators least left p = .ok left p (.refl p) := by
  rw [operators]
  split
  · rename_i op precedence ho
    exact if_neg (Int.not_le.2 (h op precedence ho))
  · rfl

theorem stopsAt_of_not_bindsTighter (h : p.bindsTighter precedence = false) :
    StopsAt (precedence + 1 : Nat) p.current := by
  intro op next ho
  rw [bindsTighter, ho] at h
  exact Int.ofNat_lt.2 (Nat.lt_succ_of_le (Nat.not_lt.1 (of_decide_eq_false h)))

/-- One turn of the loop. Where no operator binds more tightly, the inner loop has nothing to do, so
it may as well be entered. -/
theorem operators_of_operator (left : Expr) (h : p.current.operator? = some (op, precedence))
    (hle : least ≤ (precedence : Int)) :
    operators least left p = ((primary p.advance).andThen fun right q _ =>
      (operators (precedence + 1 : Nat) right q).andThen fun right r _ =>
        operators least (.binary op left right) r).after
          (reaches_advance (Token.ne_endOfInput_of_operator? h)) := by
  rw [operators]
  split
  · rename_i ho
    cases h.symm.trans ho
    rw [if_pos hle]
    refine congrArg (Outcome.after · _) (Outcome.andThen_congr fun right _ => ?_)
    split
    · rfl
    · rename_i hb
      have hstop := stopsAt_of_not_bindsTighter (Bool.not_eq_true _ ▸ hb)
      rw [operators_of_stopsAt right hstop, Outcome.ok_andThen]
  · rename_i ho
    cases h.symm.trans ho

/-! ### What a chain holds -/

/-- The parser an operand leaves is smaller than the one before its operator. -/
theorem size_primary_advance_lt (h : p.current.operator? = some (op, precedence)) :
    (primary p.advance).parser.size < p.size :=
  Nat.lt_of_le_of_lt (Reaches.size_le (primary p.advance).reaches)
    (size_advance_lt (Token.ne_endOfInput_of_operator? h))

/-- How a chain came about: it stopped at once, or there was a link and a chain behind it. -/
theorem cases_of_chain_eq_ok {links : Chain} (h : (chain least p).result = .ok links) :
    (links = [] ∧ StopsAt least p.current ∧ (chain least p).parser = p) ∨
      ∃ op precedence operand later,
        p.current.operator? = some (op, precedence) ∧ least ≤ (precedence : Int) ∧
        (primary p.advance).result = .ok operand ∧
        (chain least (primary p.advance).parser).result = .ok later ∧
        links = (op, operand) :: later ∧
        (chain least p).parser = (chain least (primary p.advance).parser).parser := by
  rcases operator_or_stopsAt least p.current with ⟨op, precedence, ho, hle⟩ | hstop
  · rw [chain_of_operator ho hle] at h ⊢
    rw [Outcome.result_after] at h
    cases hp : (primary p.advance).result with
    | error e =>
      rw [Outcome.andThen_of_error hp] at h
      cases h
    | ok operand =>
      rw [Outcome.andThen_of_ok hp] at h ⊢
      rw [Outcome.result_after, Outcome.result_map] at h
      cases hq : (chain least (primary p.advance).parser).result with
      | error e =>
        rw [hq] at h
        cases h
      | ok later =>
        rw [hq] at h
        exact .inr ⟨op, precedence, operand, later, ho, hle, rfl, rfl, (Except.ok.inj h).symm, rfl⟩
  · rw [chain_of_stopsAt hstop] at h ⊢
    exact .inl ⟨(Except.ok.inj h).symm, hstop, rfl⟩

/-- Every operator of a chain binds at least as tightly as the bound. -/
theorem le_precedence_of_mem_chain {links : Chain} (h : (chain least p).result = .ok links) :
    ∀ link ∈ links, least ≤ (Chain.precedence link : Int) := by
  induction hn : p.size using Nat.strongRecOn generalizing p links with
  | ind n ih =>
    obtain ⟨rfl, -, -⟩ | ⟨op, precedence, operand, later, ho, hle, -, hq, rfl, -⟩ :=
      cases_of_chain_eq_ok h
    · exact nofun
    · intro link hlink
      rcases List.mem_cons.1 hlink with rfl | hlink
      · rw [Chain.precedence_of_operator operand (Token.operator?_eq_some_iff.1 ho).2]
        exact hle
      · exact ih _ (hn ▸ size_primary_advance_lt ho) hq rfl link hlink

/-- A chain stops only where no operator of its bound is in front. -/
theorem stopsAt_parser_chain {links : Chain} (h : (chain least p).result = .ok links) :
    StopsAt least (chain least p).parser.current := by
  induction hn : p.size using Nat.strongRecOn generalizing p links with
  | ind n ih =>
    obtain ⟨-, hstop, hparser⟩ | ⟨op, precedence, operand, later, ho, -, -, hq, -, hparser⟩ :=
      cases_of_chain_eq_ok h
    · rw [hparser]
      exact hstop
    · rw [hparser]
      exact ih _ (hn ▸ size_primary_advance_lt ho) hq rfl

/-- The first operator of a chain is the one in front. -/
theorem precedence_head?_chain_lt {links : Chain} {high : Int}
    (h : (chain least p).result = .ok links) (hstop : StopsAt high p.current) :
    ∀ link ∈ links.head?, (Chain.precedence link : Int) < high := by
  obtain ⟨rfl, -, -⟩ | ⟨op, precedence, operand, later, ho, -, -, -, rfl, -⟩ :=
    cases_of_chain_eq_ok h
  · exact nofun
  · rintro link hlink
    cases hlink
    rw [Chain.precedence_of_operator operand (Token.operator?_eq_some_iff.1 ho).2]
    exact hstop op precedence ho

/-! ### Two bounds -/

/-- A chain at a low bound is a chain at a high one and then a chain at the low one. -/
theorem chain_eq_andThen (low high : Int) (hle : low ≤ high) (p : Parser τ) :
    chain low p = (chain high p).andThen fun tighter q _ => (chain low q).map (tighter ++ ·) := by
  induction hn : p.size using Nat.strongRecOn generalizing p with
  | ind n ih =>
    rcases operator_or_stopsAt high p.current with ⟨op, precedence, ho, hhigh⟩ | hstop
    · rw [chain_of_operator ho (Int.le_trans hle hhigh), chain_of_operator ho hhigh,
        Outcome.after_andThen, Outcome.andThen_assoc]
      refine congrArg (Outcome.after · _) (Outcome.andThen_congr fun operand _ => ?_)
      rw [ih _ (hn ▸ size_primary_advance_lt ho) _ rfl, Outcome.map_andThen, Outcome.andThen_map]
      exact Outcome.andThen_congr fun tighter _ => Outcome.map_map ..
    · rw [chain_of_stopsAt hstop, Outcome.ok_andThen]
      exact (Outcome.ext_parts (by rw [Outcome.result_map]; cases (chain low p).result <;> rfl) rfl)

/-! ### One phase and two -/

/-- Reading and building at once comes to the same as first reading and then building. -/
theorem operators_eq_chainedOperators (least : Int) (left : Expr) (p : Parser τ) :
    operators least left p = chainedOperators least left p := by
  induction hn : p.size using Nat.strongRecOn generalizing least left p with
  | ind n ih =>
    rcases operator_or_stopsAt least p.current with ⟨op, precedence, ho, hle⟩ | hstop
    · have hprecedence : ∀ operand, Chain.precedence (op, operand) = precedence := fun operand =>
        Chain.precedence_of_operator operand (Token.operator?_eq_some_iff.1 ho).2
      rw [operators_of_operator left ho hle, chainedOperators, chain_of_operator ho hle,
        Outcome.map_after, Outcome.andThen_map]
      refine congrArg (Outcome.after · _) (Outcome.andThen_congr fun right _ => ?_)
      -- Both sides now start behind the first operand, with the operators behind it split in two.
      have hsmall : (primary p.advance).parser.size < n := hn ▸ size_primary_advance_lt ho
      rw [ih _ hsmall _ _ _ rfl, chainedOperators, Outcome.map_andThen, Outcome.map_map,
        chain_eq_andThen least (precedence + 1 : Nat) (by omega), Outcome.andThen_map]
      refine Outcome.andThen_congr fun tighter htighter => ?_
      have hsmaller := Nat.lt_of_le_of_lt
        (Reaches.size_le (chain (precedence + 1 : Nat) (primary p.advance).parser).reaches) hsmall
      rw [ih _ hsmaller _ _ _ rfl, chainedOperators, Outcome.map_map]
      refine Outcome.map_congr fun looser hlooser => (Chain.tree_cons_append ?_ ?_).symm
      · intro link hlink
        have := le_precedence_of_mem_chain htighter link hlink
        rw [hprecedence]
        omega
      · intro link hlink
        have := precedence_head?_chain_lt hlooser (stopsAt_parser_chain htighter) link hlink
        rw [hprecedence]
        omega
    · rw [operators_of_stopsAt left hstop, chainedOperators, chain_of_stopsAt hstop]
      exact Outcome.ext_parts (congrArg Except.ok (Chain.tree_nil left).symm) rfl

/-- An expression is an operand, a chain of all operators behind it, and the tree of both. -/
theorem expression_eq (p : Parser τ) :
    expression p = (primary p).andThen fun first q _ => (chain 0 q).map (Chain.tree first) := by
  rw [expression]
  exact Outcome.andThen_congr fun first _ => operators_eq_chainedOperators ..

end Parser

end Kaleidoscope
