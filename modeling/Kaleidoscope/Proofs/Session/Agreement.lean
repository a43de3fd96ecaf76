import Kaleidoscope.Proofs.Scanner.Lexing
import Kaleidoscope.Proofs.Session.Units
import Kaleidoscope.Proofs.Token.Piece

/-!
# Runs that agree

Two runs agree if they hand out the same items, count the same, and tell the user the same, with any
prompt. They may be runs over different kinds of sources. All of that is read off the steps, and the
steps depend on nothing but the tokens, so sources with the same tokens have runs that agree, and
whoever compares two sessions compares tokens.

## Main definitions

* `Run.Agrees` — the same items, counts and notices
* `Program.textTokens` — the tokens of a text

## Main results

* `Parser.run_agrees` — the same tokens are run alike
* `Program.textTokens_of_cuts` — the tokens of a text are those of its pieces
-/

namespace Kaleidoscope

variable {τ τ' : Type} [TokenSource τ] [TokenSource τ']

/-- Two runs that hand out the same items, count the same, and tell the user the same. -/
structure Run.Agrees (r : Run τ) (r' : Run τ') : Prop where
  items : r.items = r'.items
  summary : r.summary = r'.summary
  notices : ∀ prompt, r.notices prompt = r'.notices prompt

theorem Run.agrees_of_steps {r : Run τ} {r' : Run τ'} (h : r.steps = r'.steps) : r.Agrees r' := by
  have hitems : r.items = r'.items := by rw [items, items, h]
  have herrors : r.errors = r'.errors := by rw [errors, errors, h]
  refine ⟨hitems, ?_, fun prompt => ?_⟩
  · rw [summary, summary, hitems, herrors]
  · rw [Run.notices, Run.notices, h]

theorem Parser.steps_run_eq {p : Parser τ} {q : Parser τ'} (h : p.tokens = q.tokens) :
    p.run.steps = q.run.steps := steps_of_runs (runs_run q) h

/-- The same tokens are run alike. -/
theorem Parser.run_agrees {p : Parser τ} {q : Parser τ'} (h : p.tokens = q.tokens) :
    p.run.Agrees q.run := Run.agrees_of_steps (steps_run_eq h)

namespace Program

/-- The tokens of a text. -/
def textTokens (text : List Char) : List Token :=
  TokenSource.tokens (Scanner.ofSource (Script.ofList text))

theorem tokens_textSession_eq (text : List Char) : (textSession text).tokens = textTokens text :=
  Parser.tokens_start _

theorem textTokens_of_lexes {n : Nat} {text : List Char} {ts : List (Token × Nat)}
    (h : Lexes n text ts) : textTokens text = ts.map Prod.fst := by
  rw [← tokens_textSession_eq, tokens_textSession h]

theorem textTokens_of_cuts {ps : List Piece} {text : List Char} (h : Cuts ps text) :
    textTokens text = tokensOf ps := by
  have hlexes : Lexes 0 text (lexemesFrom 0 ps) := lexes_iff_cuts.2 ⟨ps, h, rfl⟩
  rw [textTokens_of_lexes hlexes, map_fst_lexemesFrom]

/-- Of a source of characters, a scanner sees the text up to the first answer without one. -/
theorem tokens_ofSource_eq_textTokens {σ : Type} [CharSource σ] (source : σ) :
    TokenSource.tokens (Scanner.ofSource source) = textTokens (CharSource.text source) := by
  obtain ⟨ts, hts⟩ := exists_lexes 0 (CharSource.text source)
  rw [textTokens_of_lexes hts, Scanner.tokens_ofSource]
  exact Scanner.tokens_of_lexes (n := 0) (by rwa [Scanner.text_bump])

/-- Texts with the same tokens are run alike. -/
theorem textSession_run_agrees {S T : List Char} (h : textTokens S = textTokens T) :
    (textSession S).run.Agrees (textSession T).run := by
  refine Parser.run_agrees ?_
  rw [tokens_textSession_eq, tokens_textSession_eq, h]

end Program

end Kaleidoscope
