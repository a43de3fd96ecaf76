import Kaleidoscope.Proofs.Parser.Completeness
import Kaleidoscope.Proofs.Parser.Soundness

/-!
# The parser recognises its grammar

What a production accepts is what the grammar derives, and the tree that it builds is the one that the
grammar gives. Both directions are about any parser over any source: soundness about whatever was read,
completeness about whatever stands in front.

## Completeness needs a place to stop

A sentence in front of a parser need not be what the parser reads, as the tokens behind it may go on
with it. `Reply.Recognises` has a parameter for that: `ends u t` says that a sentence `u` ends before a
token `t`. For expressions, and for definitions, which end in one, this is `Language.EndsBefore`; what
ends in a parenthesis of its own ends anywhere.

## Main definitions

* `Reply.Recognises` — a production answers what a grammar says

## Main results

* `Parser.recognises_grammar` — each production, for its own rule
* `Grammar.Comparison.unique` — an expression has one tree
-/

namespace Kaleidoscope

open Kaleidoscope.Language

/-- A production started at `p` answers what the grammar says: the trees that it returns are those of
the tokens that it has read, and a sentence in front that may end where it ends is read, up to there. -/
structure Reply.Recognises {τ α : Type} [TokenSource τ] (o : Reply τ α) (p : Parser τ)
    (rule : List Token → α → Prop) (ends : List Token → Token → Prop) : Prop where
  sound {a : α} : o.result = .ok a → ∃ u, rule u a ∧ p.Reads u o.parser ∧
    p.tokens = u ++ o.parser.tokens ∧ o.parser.current = o.parser.tokens.headD .endOfInput
  complete {u v : List Token} {a : α} : rule u a → ends u (v.headD .endOfInput) →
    p.tokens = u ++ v → o.result = .ok a ∧ p.Reads u o.parser ∧
      o.parser.tokens = v ∧ o.parser.current = v.headD .endOfInput

namespace Reply

variable {τ α : Type} [TokenSource τ] {o : Reply τ α} {p : Parser τ}
  {rule : List Token → α → Prop} {ends : List Token → Token → Prop}

/-- What is derived by the productions, in either direction, is recognition. -/
theorem Recognises.of_meets {rule' : List Token → α → Token → Prop}
    {broken : List Token → Expectation → Token → Prop} (hm : o.Meets p rule' broken)
    (hr : ∀ {u a t}, rule' u a t → rule u a)
    (hs : ∀ {u v a}, rule u a → ends u (v.headD .endOfInput) → p.tokens = u ++ v →
      o.Succeeds p u a) : o.Recognises p rule ends where
  sound ha := by
    obtain ⟨u, h, hu⟩ := hm.of_ok ha
    exact ⟨u, hr hu, h.reads, h.reads.tokens_eq, Parser.current_eq_headD _⟩
  complete hu hend ht := by
    have h := hs hu hend ht
    exact ⟨h.result, h.reads, h.tokens_right ht, h.current_eq ht⟩

end Reply

namespace Parser

variable {τ : Type} [TokenSource τ]

/-- Every production recognises its rule. A definition and an external declaration do so where they are
entered, which is at their keyword. -/
theorem recognises_grammar (p : Parser τ) :
    (expression p).Recognises p Grammar.Comparison EndsBefore ∧
      (prototype p).Recognises p (fun u head => u = head.tokens) (fun _ _ => True) ∧
      (p.current = .defKeyword → (definition p).Recognises p Grammar.Definition EndsBefore) ∧
      (p.current = .externKeyword →
        (external p).Recognises p Grammar.External (fun _ _ => True)) := by
  refine ⟨.of_meets (expression_meets p) And.left expression_succeeds, ?_, fun h => ?_, fun h => ?_⟩
  · refine .of_meets (prototype_meets p) id ?_
    rintro u v head rfl - ht
    exact prototype_succeeds ht
  · exact .of_meets (definition_meets h) And.left definition_succeeds
  · exact .of_meets (external_meets h) id fun hu _ ht => external_succeeds hu ht

/-- The definition in `def f(x) x + y; …` and the declaration in `extern f(x) ( …` are read, each up to
where it ends. -/
theorem recognises_grammar_at_keywords :
    let f : Prototype := ⟨"f", ["x"]⟩
    let p := start (⟨.defKeyword :: (f.tokens ++
      [.identifier "x", .char '+', .identifier "y", .char ';'])⟩ : TokenList)
    let q := start (⟨.externKeyword :: (f.tokens ++ [.char '('])⟩ : TokenList)
    (p.definition.result = .ok ⟨f, .binary '+' (.var "x") (.var "y")⟩ ∧
      p.definition.parser.tokens = [.char ';']) ∧
      q.external.result = .ok f ∧ q.external.parser.tokens = [.char '('] := by
  intro f p q
  have hp : p.tokens = .defKeyword :: (f.tokens ++
      [.identifier "x", .char '+', .identifier "y", .char ';']) := tokens_start_tokenList (by decide)
  have hq : q.tokens = .externKeyword :: (f.tokens ++ [.char '(']) :=
    tokens_start_tokenList (by decide)
  have hbody : Grammar.Comparison [.identifier "x", .char '+', .identifier "y"]
      (.binary '+' (.var "x") (.var "y")) :=
    .sum (.plus (u := [.identifier "x"]) (.product (.primary (.name "x"))) (.primary (.name "y")))
  have hend : EndsBefore (.defKeyword :: (f.tokens ++
      [.identifier "x", .char '+', .identifier "y"])) (.char ';') :=
    .of_not_starts nofun (by simp [IsOperator])
  obtain ⟨hresult, -, hrest, -⟩ :=
    ((recognises_grammar p).2.2.1 rfl).complete (v := [.char ';']) (.intro f hbody) hend hp
  obtain ⟨hresult', -, hrest', -⟩ :=
    ((recognises_grammar q).2.2.2 rfl).complete (v := [.char '(']) (.intro f) trivial hq
  exact ⟨⟨hresult, hrest⟩, hresult', hrest'⟩

end Parser

/-- An expression has one tree: a parser in front of it returns any tree that it has. -/
theorem Grammar.Comparison.unique {u : List Token} {d e : Expr} (hd : Comparison u d)
    (he : Comparison u e) : d = e := by
  have ht : (Parser.start (⟨u⟩ : TokenList)).tokens = u ++ [] := by
    rw [List.append_nil, Parser.tokens_start_tokenList hd.isExpression.endOfInput_not_mem]
  have hd' := (Parser.expression_succeeds (v := []) hd endsBefore_endOfInput ht).result
  have he' := (Parser.expression_succeeds (v := []) he endsBefore_endOfInput ht).result
  exact Except.ok.inj (hd'.symm.trans he')

end Kaleidoscope
