import Kaleidoscope.Proofs.Parser.Cases

/-!
# Every derivation is an outcome

The other direction of `Soundness`. If the tokens in front of a parser begin with tokens that derive a
tree, and what follows does not go on with them, the production reads just those tokens and makes that
tree of them. If they begin with tokens that derive a failure, with the token behind them, the
production breaks off there.

Failures are derived from successes, so they come second. Both recursions are on derivations. For
successes that is by the number of tokens, since a row of operands is not a part of the derivation that
it stands for, only of the same length.

## Main results

* `Parser.primary_succeeds`, `chain_succeeds`, `expression_succeeds`, `arguments_succeeds`
* `Parser.primary_breaks`, `expression_breaks`, `someArguments_breaks`
* `Parser.prototype_succeeds`, `prototype_breaks`, and the same for what starts with a keyword
-/

namespace Kaleidoscope

open Grammar Kaleidoscope.Language

namespace Parser

variable {τ : Type} [TokenSource τ]

/-! ### Successes -/

/-- An operand ends before a chain, and a chain ends where both together do. -/
theorem separates_of_links {u v w : List Token} {links : Chain} (hw : Links w links)
    (hs : Separates (u ++ w) (v.headD .endOfInput)) :
    Separates u ((w ++ v).headD .endOfInput) ∧ Separates w (v.headD .endOfInput) := by
  cases hw with
  | nil =>
    rw [List.append_nil] at hs
    exact ⟨hs, fun _ _ => nofun⟩
  | cons ho _ _ =>
    exact ⟨.of_isOperator (isOperator_iff.2 ⟨_, _, rfl, ho⟩),
      (separates_append (List.cons_ne_nil _ _)).1 hs⟩

theorem endsBefore_closingParen (u : List Token) : EndsBefore u (.char ')') :=
  .of_not_starts nofun (by simp [IsOperator])

theorem endsBefore_comma (u : List Token) : EndsBefore u (.char ',') :=
  .of_not_starts nofun (by simp [IsOperator])

mutual

theorem primary_succeeds {p : Parser τ} {u v : List Token} {e : Expr} (h : Primary u e)
    (hs : Separates u (v.headD .endOfInput)) (ht : p.tokens = u ++ v) : (primary p).Succeeds p u e := by
  cases h with
  | number value => exact primary_of_number (current_of_tokens ht)
  | name name =>
    refine primary_of_name (current_of_tokens ht) fun hc => ?_
    rw [current_eq_headD, tokens_advance_of_tokens ht] at hc
    exact hs hc name rfl
  | @call u es callee h =>
    rw [List.cons_append, List.cons_append, List.append_assoc] at ht
    have hadvance := tokens_advance_of_tokens ht
    have harguments := arguments_succeeds h (tokens_advance_of_tokens hadvance)
    rw [primary_of_call (current_of_tokens ht) (current_of_tokens hadvance)]
    exact (harguments.map _).after
      (.cons (current_of_tokens ht) nofun (.single (current_of_tokens hadvance) nofun)) _
  | @group u e h =>
    rw [List.cons_append, List.append_assoc] at ht
    have hadvance := tokens_advance_of_tokens ht
    have he := expression_succeeds (v := .char ')' :: v) h (endsBefore_closingParen u) hadvance
    rw [primary_of_group (current_of_tokens ht)]
    refine (he.andThen ?_).after (.single (current_of_tokens ht) nofun) _
    exact (expect_of_eq _ (he.current_eq hadvance)).map _
termination_by (u.length, 0)
decreasing_by
  all_goals
    subst_vars
    exact .left _ _ (by simp only [List.length_append, List.length_cons]; omega)

theorem arguments_succeeds {p : Parser τ} {u v : List Token} {es : List Expr} (h : Arguments u es)
    (ht : p.tokens = u ++ .char ')' :: v) : (arguments p).Succeeds p (u ++ [.char ')']) es := by
  cases h with
  | none => exact arguments_of_close (current_of_tokens ht)
  | some h =>
    rw [arguments_of_ne]
    · exact someArguments_succeeds h ht
    · obtain ⟨t, w, rfl, hstarts⟩ := h.starts
      rw [current_of_tokens ht]
      rintro rfl
      cases hstarts
termination_by (u.length, 3)

theorem someArguments_succeeds {p : Parser τ} {u v : List Token} {es : List Expr}
    (h : SomeArguments u es) (ht : p.tokens = u ++ .char ')' :: v) :
    (someArguments p).Succeeds p (u ++ [.char ')']) es := by
  rw [someArguments_eq]
  cases h with
  | one h =>
    have he := expression_succeeds (v := .char ')' :: v) h (endsBefore_closingParen u) ht
    exact he.andThen (afterArgument_of_close _ (he.current_eq ht))
  | @more u w e es h hs =>
    rw [List.append_assoc, List.cons_append] at ht
    have he := expression_succeeds (v := .char ',' :: (w ++ .char ')' :: v)) h (endsBefore_comma u) ht
    have hlater := tokens_advance_of_tokens (he.tokens_right ht)
    rw [List.append_assoc]
    refine he.andThen ?_
    rw [afterArgument_of_comma e (he.current_eq ht)]
    exact ((someArguments_succeeds hs hlater).map _).after (.single (he.current_eq ht) nofun) _
termination_by (u.length, 2)
decreasing_by
  · exact .right _ (by decide)
  all_goals
    subst_vars
    exact .left _ _ (by simp only [List.length_append, List.length_cons]; omega)

theorem expression_succeeds {p : Parser τ} {u v : List Token} {e : Expr} (h : Comparison u e)
    (hend : EndsBefore u (v.headD .endOfInput)) (ht : p.tokens = u ++ v) :
    (expression p).Succeeds p u e := by
  rw [expression_eq]
  cases comparison_iff_row.1 h with
  | @intro u w first links hu hw _ =>
    have hlength := List.length_pos_iff.2 hu.ne_nil
    rw [List.append_assoc] at ht
    obtain ⟨hs, hs'⟩ := separates_of_links hw hend.call
    have hfirst := primary_succeeds hu hs ht
    exact hfirst.andThen
      ((chain_succeeds hw ⟨hend.operator, hs'⟩ (hfirst.tokens_right ht)).map _)
termination_by (u.length, 1)
decreasing_by
  all_goals subst_vars
  · rw [List.length_append]
    rcases Nat.eq_zero_or_pos w.length with hzero | hpos
    · rw [hzero]
      exact .right _ (by decide)
    · exact .left _ _ (by omega)
  · exact .left _ _ (by rw [List.length_append]; omega)

theorem chain_succeeds {p : Parser τ} {u v : List Token} {links : Chain} (h : Links u links)
    (hend : EndsBefore u (v.headD .endOfInput)) (ht : p.tokens = u ++ v) :
    (chain 0 p).Succeeds p u links := by
  cases h with
  | nil =>
    refine chain_of_not_isOperator ?_
    rw [current_eq_headD, ht]
    exact hend.operator
  | @cons u w op precedence operand links hop hu hw =>
    rw [List.cons_append, List.append_assoc] at ht
    have hadvance := tokens_advance_of_tokens ht
    have hne : u ++ w ≠ [] := by simp [hu.ne_nil]
    obtain ⟨hs, hs'⟩ := separates_of_links hw ((separates_append (u := [.char op]) hne).1 hend.call)
    have hoperand := primary_succeeds hu hs hadvance
    have hlinks := chain_succeeds hw ⟨hend.operator, hs'⟩ (hoperand.tokens_right hadvance)
    rw [chain_of_operator (Token.operator?_eq_some_iff.2 ⟨current_of_tokens ht, hop⟩)
      (Int.natCast_nonneg _)]
    exact (hoperand.andThen (hlinks.map _)).after (.single (current_of_tokens ht) nofun) _
termination_by (u.length, 0)
decreasing_by
  all_goals
    subst_vars
    exact .left _ _ (by simp only [List.length_append, List.length_cons]; omega)

end

/-! ### Failures -/

theorem exists_primary_succeeds {p : Parser τ} {u v : List Token} {op : Token} (h : IsPrimary u)
    (ho : IsOperator op) (ht : p.tokens = u ++ op :: v) : ∃ e, (primary p).Succeeds p u e := by
  obtain ⟨e, he⟩ := isPrimary_iff.1 h
  exact ⟨e, primary_succeeds (v := op :: v) he (.of_isOperator ho) ht⟩

theorem exists_expression_succeeds {p : Parser τ} {u v : List Token} (h : IsExpression u)
    (hend : EndsBefore u (v.headD .endOfInput)) (ht : p.tokens = u ++ v) :
    ∃ e, (expression p).Succeeds p u e := by
  obtain ⟨e, he⟩ := isExpression_iff.1 h
  exact ⟨e, expression_succeeds he hend ht⟩

mutual

theorem expression_breaks {p : Parser τ} {u v : List Token} {expected : Expectation} {t : Token}
    (h : BrokenExpression u expected t) (hv : v.headD .endOfInput = t) (ht : p.tokens = u ++ v) :
    (expression p).Breaks p u expected := by
  rw [expression_eq]
  cases h with
  | operand h => exact (primary_breaks h hv ht).andThen
  | @chain u w op _ _ hu ho hw =>
    rw [List.append_assoc] at ht
    obtain ⟨first, hfirst⟩ := exists_primary_succeeds hu ho ht
    exact hfirst.andThen_breaks ((chain_breaks hw ho hv (hfirst.tokens_right ht)).map _)
termination_by (u.length, 1)
decreasing_by
  all_goals subst_vars
  · exact .right _ (by decide)
  · exact .left _ _ (by simp only [List.length_append, List.length_cons]; omega)

/-- A chain breaks off where the expression behind its first operator does. -/
theorem chain_breaks {p : Parser τ} {u v : List Token} {op : Token} {expected : Expectation}
    {t : Token} (h : BrokenExpression u expected t) (ho : IsOperator op)
    (hv : v.headD .endOfInput = t) (ht : p.tokens = op :: (u ++ v)) :
    (chain 0 p).Breaks p (op :: u) expected := by
  obtain ⟨c, precedence, rfl, hop⟩ := isOperator_iff.1 ho
  have hadvance := tokens_advance_of_tokens ht
  rw [chain_of_operator (Token.operator?_eq_some_iff.2 ⟨current_of_tokens ht, hop⟩)
    (Int.natCast_nonneg _)]
  refine Reply.Breaks.after ?_ (.single (current_of_tokens ht) nofun) _
  cases h with
  | operand h => exact (primary_breaks h hv hadvance).andThen
  | @chain u w op _ _ hu ho hw =>
    rw [List.append_assoc] at hadvance
    obtain ⟨operand, hoperand⟩ := exists_primary_succeeds hu ho hadvance
    exact hoperand.andThen_breaks ((chain_breaks hw ho hv (hoperand.tokens_right hadvance)).map _)
termination_by (u.length, 1)
decreasing_by
  all_goals subst_vars
  · exact .right _ (by decide)
  · exact .left _ _ (by simp only [List.length_append, List.length_cons]; omega)

theorem primary_breaks {p : Parser τ} {u v : List Token} {expected : Expectation} {t : Token}
    (h : BrokenPrimary u expected t) (hv : v.headD .endOfInput = t) (ht : p.tokens = u ++ v) :
    (primary p).Breaks p u expected := by
  cases h with
  | start hstarts =>
    refine primary_of_not_starts ?_
    rw [current_eq_headD, ht]
    exact hv ▸ hstarts
  | @group u _ _ h =>
    have hadvance := tokens_advance_of_tokens ht
    rw [primary_of_group (current_of_tokens ht)]
    exact (expression_breaks h hv hadvance).andThen.after (.single (current_of_tokens ht) nofun) _
  | @unclosed u _ h hend hc =>
    have hadvance := tokens_advance_of_tokens ht
    obtain ⟨e, he⟩ := exists_expression_succeeds h (hv ▸ hend) hadvance
    have hclose := expect_of_ne (c := ')') .closingParen (by rw [he.current_eq hadvance, hv]; exact hc)
    rw [primary_of_group (current_of_tokens ht), ← List.append_nil (_ :: u)]
    exact (he.andThen_breaks (hclose.map _)).after (.single (current_of_tokens ht) nofun) _
  | @call u _ _ callee hc h =>
    have hadvance := tokens_advance_of_tokens ht
    have harguments := tokens_advance_of_tokens hadvance
    rw [primary_of_call (current_of_tokens ht) (current_of_tokens hadvance)]
    have hne : p.advance.advance.current ≠ .char ')' := by
      rw [current_eq_headD, harguments]
      cases u with
      | nil => exact fun he => hc (congrArg some (hv ▸ he))
      | cons => exact fun he => hc (congrArg some he)
    rw [arguments_of_ne hne]
    exact ((someArguments_breaks h hv harguments).map _).after
      (.cons (current_of_tokens ht) nofun (.single (current_of_tokens hadvance) nofun)) _
termination_by (u.length, 0)
decreasing_by
  all_goals
    subst_vars
    exact .left _ _ (by simp only [List.length_cons]; omega)

theorem someArguments_breaks {p : Parser τ} {u v : List Token} {expected : Expectation} {t : Token}
    (h : BrokenArguments u expected t) (hv : v.headD .endOfInput = t) (ht : p.tokens = u ++ v) :
    (someArguments p).Breaks p u expected := by
  rw [someArguments_eq]
  cases h with
  | argument h => exact (expression_breaks h hv ht).andThen
  | unclosed h hend hc hs =>
    obtain ⟨e, he⟩ := exists_expression_succeeds h (hv ▸ hend) ht
    have hcurrent := he.current_eq ht
    rw [← List.append_nil u]
    exact he.andThen_breaks (afterArgument_of_ne e (by rwa [hcurrent, hv]) (by rwa [hcurrent, hv]))
  | @more u w _ _ h hs =>
    rw [List.append_assoc, List.cons_append] at ht
    obtain ⟨e, he⟩ := exists_expression_succeeds (v := .char ',' :: (w ++ v)) h (endsBefore_comma u) ht
    have hcurrent := he.current_eq ht
    have hlater := tokens_advance_of_tokens (he.tokens_right ht)
    refine he.andThen_breaks ?_
    rw [afterArgument_of_comma e hcurrent]
    exact ((someArguments_breaks hs hv hlater).map _).after (.single hcurrent nofun) _
termination_by (u.length, 2)
decreasing_by
  all_goals subst_vars
  · exact .right _ (by decide)
  · exact .left _ _ (by simp only [List.length_append, List.length_cons]; omega)

end

/-! ### Functions -/

variable {p : Parser τ} {u v : List Token} {expected : Expectation} {t : Token}

theorem names_succeeds {p : Parser τ} {parameters : List String}
    (hv : ∀ name, v.headD .endOfInput ≠ .identifier name)
    (ht : p.tokens = parameters.map .identifier ++ v) :
    (names p).Succeeds p (parameters.map .identifier) parameters := by
  induction parameters generalizing p with
  | nil =>
    refine names_of_ne ?_
    rw [current_eq_headD, ht]
    exact hv
  | cons name parameters ih =>
    have hcurrent := current_of_tokens ht
    rw [names_of_name hcurrent]
    exact ((ih (tokens_advance_of_tokens ht)).map _).after (.single hcurrent nofun) _

theorem prototype_succeeds {head : Prototype} (ht : p.tokens = head.tokens ++ v) :
    (prototype p).Succeeds p head.tokens head := by
  obtain ⟨name, parameters⟩ := head
  rw [Prototype.tokens, List.cons_append, List.cons_append, List.append_assoc] at ht
  have hcurrent := current_of_tokens ht
  have hadvance := tokens_advance_of_tokens ht
  have hopen := expect_of_eq .parametersOpen (current_of_tokens hadvance)
  have hnames := hopen.tokens_right hadvance
  have hparameters := names_succeeds (v := .char ')' :: v) nofun hnames
  have hclose := expect_of_eq .parametersClose (hparameters.current_eq hnames)
  rw [prototype_of_name hcurrent]
  exact (hopen.andThen (hparameters.andThen (hclose.map _))).after (.single hcurrent nofun) _

theorem prototype_breaks (h : BrokenPrototype u expected t) (hv : v.headD .endOfInput = t)
    (ht : p.tokens = u ++ v) : (prototype p).Breaks p u expected := by
  cases h with
  | name hname =>
    refine prototype_of_ne ?_
    rw [current_eq_headD, ht]
    exact hv ▸ hname
  | parameters name hopen =>
    have hcurrent := current_of_tokens ht
    have hne : p.advance.current ≠ .char '(' := by
      rw [current_eq_headD, tokens_advance_of_tokens ht]
      exact hv ▸ hopen
    rw [prototype_of_name hcurrent]
    exact (expect_of_ne .parametersOpen hne).andThen.after (.single hcurrent nofun) _
  | unclosed name parameters hname hclose =>
    have hcurrent := current_of_tokens ht
    have hadvance := tokens_advance_of_tokens ht
    have hopen := expect_of_eq .parametersOpen (current_of_tokens hadvance)
    have hnames := hopen.tokens_right hadvance
    have hparameters := names_succeeds (hv ▸ hname) hnames
    have hne := expect_of_ne (c := ')') .parametersClose
      (by rw [hparameters.current_eq hnames, hv]; exact hclose)
    rw [prototype_of_name hcurrent, ← List.append_nil (_ :: _)]
    exact (hopen.andThen_breaks (hparameters.andThen_breaks (hne.map _))).after
      (.single hcurrent nofun) _

theorem external_succeeds {head : Prototype} (h : External u head) (ht : p.tokens = u ++ v) :
    (external p).Succeeds p u head := by
  cases h
  exact (prototype_succeeds (tokens_advance_of_tokens ht)).of_reads
    (.single (current_of_tokens ht) nofun)

theorem external_breaks (h : BrokenExternal u expected t) (hv : v.headD .endOfInput = t)
    (ht : p.tokens = u ++ v) : (external p).Breaks p u expected := by
  cases h with
  | head h =>
    exact (prototype_breaks h hv (tokens_advance_of_tokens ht)).of_reads
      (.single (current_of_tokens ht) nofun)

theorem definition_succeeds {f : Function} (h : Definition u f)
    (hend : EndsBefore u (v.headD .endOfInput)) (ht : p.tokens = u ++ v) :
    (definition p).Succeeds p u f := by
  cases h with
  | @intro w body head h =>
    rw [List.cons_append, List.append_assoc] at ht
    have hadvance := tokens_advance_of_tokens ht
    have hhead := prototype_succeeds hadvance
    have hend' := (endsBefore_definition head h.ne_nil).1 hend
    have hbody := expression_succeeds h hend' (hhead.tokens_right hadvance)
    exact ((hhead.andThen (hbody.map _)).of_reads (.single (current_of_tokens ht) nofun)).note _

theorem definition_breaks (h : BrokenDefinition u expected t) (hv : v.headD .endOfInput = t)
    (ht : p.tokens = u ++ v) : (definition p).Breaks p u expected := by
  refine Reply.Breaks.note ?_ _
  cases h with
  | head h =>
    have hhead := prototype_breaks h hv (tokens_advance_of_tokens ht)
    exact hhead.andThen.of_reads (.single (current_of_tokens ht) nofun)
  | body head h =>
    rw [List.cons_append, List.append_assoc] at ht
    have hadvance := tokens_advance_of_tokens ht
    have hhead := prototype_succeeds hadvance
    have hbody := expression_breaks h hv (hhead.tokens_right hadvance)
    exact (hhead.andThen_breaks (hbody.map _)).of_reads (.single (current_of_tokens ht) nofun)

theorem bareExpression_succeeds {e : Expr} (h : Comparison u e)
    (hend : EndsBefore u (v.headD .endOfInput)) (ht : p.tokens = u ++ v) :
    (bareExpression p).Succeeds p u (.ofExpr e) :=
  ((expression_succeeds h hend ht).map _).note _

theorem bareExpression_breaks (h : BrokenExpression u expected t) (hv : v.headD .endOfInput = t)
    (ht : p.tokens = u ++ v) : (bareExpression p).Breaks p u expected :=
  ((expression_breaks h hv ht).map _).note _

end Parser

end Kaleidoscope
