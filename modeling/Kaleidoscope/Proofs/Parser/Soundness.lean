import Kaleidoscope.Proofs.Parser.Cases

/-!
# Every outcome is derived

Whatever a production answers, the tokens that it has read derive the answer: a tree by the grammar, or
a failure by the rules for what breaks off. One theorem for each production says both, by recursion
along the productions themselves.

## What a production promises about the token behind it

A production stops where nothing goes on, and its caller depends on that: an operand that is a name is
not followed by an opening parenthesis, and an expression not by an operator either. The promise is
part of each statement. For a chain it involves the operand before it, as a chain of no operators ends
where that operand ends, so `chain_meets` is told what stands before.

## Main results

* `Parser.primary_meets`, `chain_meets`, `expression_meets`, `arguments_meets`
* `Parser.prototype_meets`, `definition_meets`, `external_meets`, `bareExpression_meets`
-/

namespace Kaleidoscope

open Grammar Kaleidoscope.Language

namespace Parser

variable {τ : Type} [TokenSource τ]

/-! ### Expressions -/

theorem expect_meets (c : Char) (expected : Expectation) (p : Parser τ) :
    (p.expect c expected).Meets p (fun u _ _ => u = [.char c])
      (fun u k t => u = [] ∧ k = expected ∧ t = p.current ∧ p.current ≠ .char c) := by
  by_cases h : p.current = .char c
  · exact .succeeds (expect_of_eq expected h) rfl
  · exact .breaks_here (expect_of_ne expected h) ⟨rfl, rfl, rfl, h⟩

mutual

theorem primary_meets (p : Parser τ) :
    (primary p).Meets p (fun u e t => Primary u e ∧ Separates u t) BrokenPrimary := by
  rcases starts_cases p.current with ⟨value, h⟩ | ⟨name, h⟩ | h | h
  · exact .succeeds (primary_of_number h) ⟨.number value, fun _ _ he => nomatch he⟩
  · have hp : p.current ≠ .endOfInput := by rw [h]; nofun
    by_cases hc : p.advance.current = .char '('
    · have hp' : p.advance.current ≠ .endOfInput := by rw [hc]; nofun
      have hreads : p.Reads [.identifier name, .char '('] p.advance.advance :=
        .cons h nofun (.single hc nofun)
      rw [primary_of_call h hc]
      refine .after hreads _ (.map ((arguments_meets p.advance.advance).imp id ?_) ?_)
      · rintro u k t ⟨hu, hbroken⟩
        exact .call name hu hbroken
      · rintro u es t ⟨v, rfl, hv⟩
        exact ⟨.call name hv, separates_concat (u := .identifier name :: .char '(' :: v) nofun⟩
    · have hs := primary_of_name h hc
      refine .succeeds hs ⟨.name name, .of_ne ?_⟩
      rwa [hs.reads.tail.current_eq]
  · have hp : p.current ≠ .endOfInput := by rw [h]; nofun
    rw [primary_of_group h]
    refine .after (.single h nofun) _ (.andThen (expression_meets p.advance) .group ?_)
    rintro u e hu ⟨he, hend⟩
    refine .map ((expect_meets ')' .closingParen _).imp id ?_) ?_
    · rintro v k t ⟨rfl, rfl, rfl, ht⟩
      rw [List.append_nil]
      exact .unclosed he.isExpression hend ht
    · rintro v - t rfl
      exact ⟨.group he, separates_concat (u := .char '(' :: u) nofun⟩
  · exact .breaks_here (primary_of_not_starts h) (.start h)
termination_by (p.size, 0)
decreasing_by
  · exact .left _ _ (Nat.lt_trans (size_advance_lt hp') (size_advance_lt hp))
  · exact .left _ _ (size_advance_lt hp)

theorem arguments_meets (p : Parser τ) :
    (arguments p).Meets p (fun u es _ => ∃ v, u = v ++ [.char ')'] ∧ Arguments v es)
      (fun u k t => (u ++ [t]).head? ≠ some (.char ')') ∧ BrokenArguments u k t) := by
  by_cases hc : p.current = .char ')'
  · exact .succeeds (arguments_of_close hc) ⟨[], rfl, .none⟩
  · rw [arguments_of_ne hc]
    cases someArguments_meets p with
    | succeeds h hr =>
      obtain ⟨v, rfl, hv⟩ := hr
      exact .succeeds h ⟨v, rfl, .some hv⟩
    | @breaks u k h hb =>
      refine .breaks h ⟨fun he => hc ?_, hb⟩
      exact Option.some.inj (h.reads.head?_concat.symm.trans he)
termination_by (p.size, 3)

theorem someArguments_meets (p : Parser τ) :
    (someArguments p).Meets p (fun u es _ => ∃ v, u = v ++ [.char ')'] ∧ SomeArguments v es)
      BrokenArguments := by
  rw [someArguments_eq]
  refine .andThen (expression_meets p) .argument ?_
  rintro u e hu ⟨he, hend⟩
  by_cases hc : (expression p).parser.current = .char ')'
  · exact .succeeds (afterArgument_of_close e hc) ⟨u, rfl, .one he⟩
  by_cases hs : (expression p).parser.current = .char ','
  · have hq : (expression p).parser.current ≠ .endOfInput := by rw [hs]; nofun
    rw [afterArgument_of_comma e hs]
    refine .after (.single hs nofun) _ (.map ((someArguments_meets _).imp id ?_) ?_)
    · exact .more he.isExpression
    · rintro v es t ⟨v, rfl, hv⟩
      exact ⟨_, by simp, .more he hv⟩
  · refine .breaks_here (afterArgument_of_ne e hc hs) ?_
    rw [List.append_nil]
    exact .unclosed he.isExpression hend hc hs
termination_by (p.size, 2)
decreasing_by
  · exact .right _ (by decide)
  · exact .left _ _ (Reaches.lt_of_lt (expression p).reaches (size_advance_lt hq))

theorem expression_meets (p : Parser τ) :
    (expression p).Meets p (fun u e t => Comparison u e ∧ EndsBefore u t) BrokenExpression := by
  rw [expression_eq]
  refine .andThen (primary_meets p) .operand ?_
  rintro u first hu ⟨hfirst, hsep⟩
  refine .map ((chain_meets (primary p).parser u hsep).imp id ?_) ?_
  · rintro v k t ⟨op, v, rfl, ho, hv⟩
    exact .chain hfirst.isPrimary ho hv
  · rintro v links t ⟨hlinks, hend⟩
    exact ⟨comparison_of_links hfirst hlinks, hend⟩
termination_by (p.size, 1)
decreasing_by
  · exact .right _ (by decide)
  · rcases Nat.lt_or_eq_of_le (Reaches.size_le (primary p).reaches) with hlt | heq
    · exact .left _ _ hlt
    · rw [heq]
      exact .right _ (by decide)

theorem chain_meets (p : Parser τ) (w : List Token) (hw : Separates w p.current) :
    (chain 0 p).Meets p (fun u links t => Links u links ∧ EndsBefore (w ++ u) t)
      (fun u k t => ∃ op v, u = op :: v ∧ IsOperator op ∧ BrokenExpression v k t) := by
  by_cases ho : IsOperator p.current
  · obtain ⟨op, precedence, hop, hprecedence⟩ := isOperator_iff.1 ho
    have hsome := Token.operator?_eq_some_iff.2 ⟨hop, hprecedence⟩
    rw [chain_of_operator hsome (Int.natCast_nonneg _)]
    refine .after (.single hop nofun) _ (.andThen (primary_meets p.advance) ?_ ?_)
    · intro u k t hu
      exact ⟨_, u, rfl, hop ▸ ho, .operand hu⟩
    · rintro u operand hu ⟨hoperand, hsep⟩
      have hne : u ≠ [] := hoperand.ne_nil
      refine .map ((chain_meets (primary p.advance).parser (w ++ .char op :: u) ?_).imp id ?_) ?_
      · rwa [← List.singleton_append, ← List.append_assoc, separates_append hne]
      · rintro v k t ⟨op', v, rfl, ho', hv⟩
        exact ⟨_, u ++ op' :: v, by simp, hop ▸ ho, .chain hoperand.isPrimary ho' hv⟩
      · rintro v links t ⟨hlinks, hend⟩
        have hcons : Links (.char op :: (u ++ v)) ((op, operand) :: links) :=
          .cons hprecedence hoperand hlinks
        exact ⟨hcons, by simpa using hend⟩
  · refine .succeeds_here (chain_of_not_isOperator ho) ⟨.nil, ?_⟩
    rw [List.append_nil]
    exact ⟨ho, hw⟩
termination_by (p.size, 0)
decreasing_by
  · exact .left _ _ (size_advance_lt (Token.ne_endOfInput_of_operator? hsome))
  · exact .left _ _ (size_primary_advance_lt hsome)

end

/-! ### Functions -/

theorem names_meets (p : Parser τ) :
    (names p).Meets p (fun u parameters t => u = parameters.map .identifier ∧
      ∀ name, t ≠ .identifier name) (fun _ _ _ => False) := by
  cases h : p.current with
  | identifier name =>
    have hp : p.current ≠ .endOfInput := by rw [h]; nofun
    rw [names_of_name h]
    refine .after (.single h nofun) _ (.map ((names_meets p.advance).imp id id) ?_)
    rintro u parameters t ⟨rfl, ht⟩
    exact ⟨rfl, ht⟩
  | _ => exact .succeeds_here (names_of_ne (by rw [h]; nofun)) ⟨rfl, by rw [h]; nofun⟩
termination_by p.size
decreasing_by exact size_advance_lt hp

theorem prototype_meets (p : Parser τ) :
    (prototype p).Meets p (fun u head _ => u = head.tokens) BrokenPrototype := by
  cases h : p.current with
  | identifier name =>
    rw [prototype_of_name h]
    refine .after (.single h nofun) _ (.andThen (expect_meets '(' .parametersOpen _) ?_ ?_)
    · rintro u k t ⟨rfl, rfl, rfl, ht⟩
      exact .parameters name ht
    rintro u - - rfl
    refine .andThen (names_meets _) False.elim ?_
    rintro u parameters - ⟨rfl, hname⟩
    refine .map ((expect_meets ')' .parametersClose _).imp id ?_) ?_
    · rintro u k t ⟨rfl, rfl, rfl, ht⟩
      rw [List.append_nil]
      exact .unclosed name parameters hname ht
    · rintro u - t rfl
      rfl
  | _ => exact .breaks_here (prototype_of_ne (by rw [h]; nofun)) (.name (by rw [h]; nofun))

theorem external_meets {p : Parser τ} (h : p.current = .externKeyword) :
    (external p).Meets p (fun u head _ => External u head) BrokenExternal := by
  refine .of_reads (.single h nofun) ((prototype_meets p.advance).imp ?_ .head)
  rintro u head - rfl
  exact .intro head

theorem definition_meets {p : Parser τ} (h : p.current = .defKeyword) :
    (definition p).Meets p (fun u f t => Definition u f ∧ EndsBefore u t) BrokenDefinition := by
  refine .of_reads (.single h nofun) (.note (.andThen (prototype_meets p.advance) .head ?_) _)
  rintro u head - rfl
  refine .map ((expression_meets _).imp id (.body head)) ?_
  rintro v body t ⟨hbody, hend⟩
  exact ⟨.intro head hbody, (endsBefore_definition head hbody.ne_nil).2 hend⟩

theorem bareExpression_meets (p : Parser τ) :
    (bareExpression p).Meets p (fun u f t => ∃ e, f = .ofExpr e ∧ Comparison u e ∧ EndsBefore u t)
      BrokenExpression :=
  .note (.map (expression_meets p) fun ⟨he, hend⟩ => ⟨_, rfl, he, hend⟩) _

end Parser

end Kaleidoscope
