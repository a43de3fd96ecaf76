import Kaleidoscope.Proofs.Parser.Completeness
import Kaleidoscope.Proofs.Parser.Soundness

/-!
# Failures are early and true

An error is raised at the first token that cannot be right, names that token, leaves it in front, and
what it says was expected could have stood there.

## Why a failure proves that nothing goes on

A failure at `t` after `u` is a derivation by the rules for what breaks off, and these look at nothing
behind `t`. So the same failure happens whatever comes next, and no sentence starts with `u` and `t`: a
parser in front of such a sentence would both return its tree and fail. `Decides` collects what a
production and its two sets of rules need for that argument, which is then made once.

## Taking before looking

`Parser.primaryByTaking` takes the token of a number or a name before it looks at it, and it can fail once
more if that is not what it saw. Such a failure would report a token that is no longer in front. But
`primaryByTaking` is `primary`, so neither of its two extra failures ever happens.

## Main definitions

* `Viable` — the tokens that a sentence may start with
* `ParseError.Accurate` — an error that is early and true, with `Reply.FailsAccurately`
* `Decides` — a production that either follows its rule or breaks off

## Main results

* `Parser.fails_accurately` — the failures of each production
* `Parser.primaryByTaking_eq` — taking a token before looking at it makes no difference
-/

namespace Kaleidoscope

open Kaleidoscope.Language

/-- Some sentence starts with these tokens. -/
def Viable {α : Type} (rule : List Token → α → Prop) (u : List Token) : Prop :=
  ∃ w a, rule (u ++ w) a

/-- An error after the tokens `u`, as early and as true as an error can be. -/
structure ParseError.Accurate {α : Type} (rule : List Token → α → Prop) (u : List Token)
    (e : ParseError) : Prop where
  viable : Viable rule u
  incomplete : ∀ a, ¬ rule u a
  not_viable : ¬ Viable rule (u ++ [e.found])
  advertised : ∀ t, e.expected.Advertises t → Viable rule (u ++ [t])
  /-- Where a group is to be closed, nothing else separates. -/
  comma : e.expected = .closingParen → ¬ Viable rule (u ++ [.char ','])

/-- A production started at `p` fails, if it does, with an accurate error, after the tokens that it has
read and at the token in front. -/
def Reply.FailsAccurately {τ α : Type} [TokenSource τ] (o : Reply τ α) (p : Parser τ)
    (rule : List Token → α → Prop) : Prop :=
  ∀ e, o.result = .error e → ∃ u, p.Reads u o.parser ∧ p.tokens = u ++ o.parser.tokens ∧
    e.found = o.parser.current ∧ e.Accurate rule u

/-! ### The argument -/

/-- A production over lists of tokens returns what `rule` derives and fails at what `broken` derives,
and the two sets of rules fit: what breaks off can be mended, and breaks off at any barrier. -/
structure Decides {α : Type} (parse : Parser TokenList → Reply TokenList α)
    (rule : List Token → α → Prop) (broken : List Token → Expectation → Token → Prop) : Prop where
  endOfInput_not_mem {u : List Token} {a : α} : rule u a → .endOfInput ∉ u
  succeeds {p : Parser TokenList} {u : List Token} {a : α} :
    rule u a → p.tokens = u ++ [] → (parse p).Succeeds p u a
  breaks {p : Parser TokenList} {u v : List Token} {expected : Expectation} {t : Token} :
    broken u expected t → v.headD .endOfInput = t → p.tokens = u ++ v → (parse p).Breaks p u expected
  continuation {u : List Token} {expected : Expectation} {s t : Token} :
    broken u expected t → expected.Advertises s → ∃ w a, rule (u ++ s :: w) a
  of_bars {u : List Token} {expected : Expectation} {s t : Token} :
    broken u expected t → expected.Bars s → broken u expected s

namespace Decides

variable {α : Type} {parse : Parser TokenList → Reply TokenList α} {rule : List Token → α → Prop}
  {broken : List Token → Expectation → Token → Prop} {u : List Token} {expected : Expectation}
  {t : Token}

/-- No sentence has its beginning break off before what follows in it. -/
theorem false_of_rule (d : Decides parse rule broken) {v : List Token} {a : α}
    (hb : broken u expected (v.headD .endOfInput)) (hr : rule (u ++ v) a) : False := by
  have ht := Parser.tokens_start_tokenList (d.endOfInput_not_mem hr)
  have hs := d.succeeds hr (by rw [ht, List.append_nil])
  have hf := d.breaks hb rfl ht
  exact absurd (hs.result.symm.trans hf.result) nofun

theorem not_viable (d : Decides parse rule broken) (h : broken u expected t) :
    ¬ Viable rule (u ++ [t]) := by
  rintro ⟨w, a, hr⟩
  rw [List.append_assoc, List.singleton_append] at hr
  exact d.false_of_rule h hr

theorem viable_advertised (d : Decides parse rule broken) (h : broken u expected t) {s : Token}
    (hs : expected.Advertises s) : Viable rule (u ++ [s]) := by
  obtain ⟨w, a, hr⟩ := d.continuation h hs
  exact ⟨w, a, by rwa [List.append_assoc, List.singleton_append]⟩

theorem accurate (d : Decides parse rule broken) (h : broken u expected t) :
    ParseError.Accurate rule u ⟨expected, t⟩ where
  viable := by
    obtain ⟨s, hs⟩ := expected.exists_advertises
    obtain ⟨w, a, hr⟩ := d.continuation h hs
    exact ⟨s :: w, a, hr⟩
  incomplete a hr := by
    have hend := d.of_bars h expected.bars_endOfInput
    exact d.false_of_rule (v := []) hend (by rwa [List.append_nil])
  not_viable := d.not_viable h
  advertised _ hs := d.viable_advertised h hs
  comma he := by
    have hne : expected ≠ .argumentEnd := fun ha => nomatch he.symm.trans ha
    exact d.not_viable (d.of_bars h (Expectation.bars_comma hne))

end Decides

/-- Where a failure is derived and the rules fit, it is accurate. -/
theorem Reply.Meets.failsAccurately {τ α : Type} [TokenSource τ] {o : Reply τ α} {p : Parser τ}
    {rule : List Token → α → Prop} {rule' : List Token → α → Token → Prop}
    {broken : List Token → Expectation → Token → Prop}
    {parse : Parser TokenList → Reply TokenList α} (h : o.Meets p rule' broken)
    (d : Decides parse rule broken) : o.FailsAccurately p rule := by
  rintro ⟨expected, found⟩ he
  obtain ⟨u, hu, rfl, hb⟩ := h.of_error he
  exact ⟨u, hu.reads, hu.reads.tokens_eq, rfl, d.accurate hb⟩

/-! ### The productions -/

theorem Prototype.endOfInput_not_mem_tokens (head : Prototype) : .endOfInput ∉ head.tokens := by
  simp [Prototype.tokens]

theorem decides_expression :
    Decides (fun p => (Parser.expression p).toReply) Grammar.Comparison BrokenExpression where
  endOfInput_not_mem h := h.isExpression.endOfInput_not_mem
  succeeds h := Parser.expression_succeeds h endsBefore_endOfInput
  breaks := Parser.expression_breaks
  continuation h hs := by
    obtain ⟨w, hw⟩ := h.exists_continuation hs
    exact ⟨w, Grammar.isExpression_iff.1 hw⟩
  of_bars := BrokenExpression.of_bars

theorem decides_bareExpression :
    Decides Parser.bareExpression (fun u f => ∃ e, f = .ofExpr e ∧ Grammar.Comparison u e)
      BrokenExpression where
  endOfInput_not_mem := fun ⟨_, _, h⟩ => h.isExpression.endOfInput_not_mem
  succeeds := fun ⟨_, hf, h⟩ => hf ▸ Parser.bareExpression_succeeds h endsBefore_endOfInput
  breaks := Parser.bareExpression_breaks
  continuation h hs := by
    obtain ⟨w, hw⟩ := h.exists_continuation hs
    obtain ⟨e, he⟩ := Grammar.isExpression_iff.1 hw
    exact ⟨w, .ofExpr e, e, rfl, he⟩
  of_bars := BrokenExpression.of_bars

theorem decides_prototype :
    Decides (fun p => (Parser.prototype p).toReply) (fun u head => u = head.tokens)
      BrokenPrototype where
  endOfInput_not_mem := fun {_ head} h => h ▸ head.endOfInput_not_mem_tokens
  succeeds := by
    rintro p u head rfl ht
    exact Parser.prototype_succeeds ht
  breaks := Parser.prototype_breaks
  continuation := BrokenPrototype.exists_continuation
  of_bars := BrokenPrototype.of_bars

theorem decides_definition : Decides Parser.definition Grammar.Definition BrokenDefinition where
  endOfInput_not_mem := by
    rintro _ _ ⟨head, h⟩
    simpa using ⟨head.endOfInput_not_mem_tokens, h.isExpression.endOfInput_not_mem⟩
  succeeds h := Parser.definition_succeeds h endsBefore_endOfInput
  breaks := Parser.definition_breaks
  continuation := BrokenDefinition.exists_continuation
  of_bars := BrokenDefinition.of_bars

theorem decides_external : Decides Parser.external Grammar.External BrokenExternal where
  endOfInput_not_mem := by
    rintro _ head ⟨⟩
    simpa using head.endOfInput_not_mem_tokens
  succeeds := Parser.external_succeeds
  breaks := Parser.external_breaks
  continuation := BrokenExternal.exists_continuation
  of_bars := BrokenExternal.of_bars

namespace Parser

variable {τ : Type} [TokenSource τ]

/-! ### Taking before looking -/

/-- An operand is the same whether it is taken before it is looked at or not, so what is taken is always
what was seen: there is no failure at a token that has been read. -/
theorem primaryByTaking_eq (p : Parser τ) : primaryByTaking p = (primary p).toReply := by
  rw [primary]
  split
  · rename_i value h
    simp only [primaryByTaking, takenNumber, take, h]
    rfl
  · rename_i name h
    simp only [primaryByTaking, takenName, take, h]
    split
    · rfl
    · rfl
  · rename_i h
    simp only [primaryByTaking, h]
    rfl
  · rename_i hvalue hname hopen
    have h : primaryByTaking p = ⟨.error ⟨.expression, p.current⟩, p⟩ := by
      rw [primaryByTaking]
      split
      · rename_i name h
        exact absurd h (hname name)
      · rename_i value h
        exact absurd h (hvalue value)
      · rename_i h
        exact absurd h hopen
      · rfl
    rw [h]
    rfl

/-! ### Failures -/

/-- Every production fails accurately, a definition and an external declaration where they are entered
at their keyword; and an operand never fails at a token that has been taken. -/
theorem fails_accurately (p : Parser τ) :
    (expression p).FailsAccurately p Grammar.Comparison ∧
      (bareExpression p).FailsAccurately p
        (fun u f => ∃ e, f = .ofExpr e ∧ Grammar.Comparison u e) ∧
      (prototype p).FailsAccurately p (fun u head => u = head.tokens) ∧
      (p.current = .defKeyword → (definition p).FailsAccurately p Grammar.Definition) ∧
      (p.current = .externKeyword → (external p).FailsAccurately p Grammar.External) ∧
      primaryByTaking p = (primary p).toReply := by
  refine ⟨?_, ?_, ?_, fun h => ?_, fun h => ?_, primaryByTaking_eq p⟩
  · exact (expression_meets p).failsAccurately decides_expression
  · exact (bareExpression_meets p).failsAccurately decides_bareExpression
  · exact (prototype_meets p).failsAccurately decides_prototype
  · exact (definition_meets h).failsAccurately decides_definition
  · exact (external_meets h).failsAccurately decides_external

/-- In `def f(x;` a parenthesis is missing, and the semicolon is named and left in front. -/
theorem fails_accurately_in_definition :
    let u : List Token := [.defKeyword, .identifier "f", .char '(', .identifier "x"]
    let e : ParseError := ⟨.parametersClose, .char ';'⟩
    let p := start (⟨u ++ [.char ';']⟩ : TokenList)
    p.definition.result = .error e ∧ p.definition.parser.tokens = [.char ';'] ∧
      e.Accurate Grammar.Definition u := by
  intro u e p
  have ht : p.tokens = u ++ [.char ';'] := tokens_start_tokenList (by decide)
  have hbroken : BrokenDefinition u .parametersClose (.char ';') :=
    .head (.unclosed "f" ["x"] nofun (by decide))
  have hbreaks := definition_breaks hbroken rfl ht
  have hrest := hbreaks.reads.tokens_right ht
  have hresult : p.definition.result = .error e := by
    rw [hbreaks.result, hbreaks.current_eq ht]
    rfl
  obtain ⟨w, -, hw, -, haccurate⟩ := (fails_accurately p).2.2.2.1 rfl e hresult
  obtain rfl : u = w := List.append_cancel_right ((hrest ▸ ht.symm.trans hw))
  exact ⟨hresult, hrest, haccurate⟩

end Parser

end Kaleidoscope
