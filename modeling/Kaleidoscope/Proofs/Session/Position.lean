import Kaleidoscope.Proofs.Scanner.Lookahead

/-!
# Where a session stands

A parser reads on and never goes back, so after any requests the tokens in front of it are those of its
source without the first few, and how few these are says all about where it stands. The same number says
what its source has been asked for, so the two belong in one statement: what is in front of a session and
what it has cost to get there.

## Main results

* `Parser.tokens_of_nthScan` — the tokens from the scan with a given number on
* `Parser.exists_tokens_afterAll` — after any requests a parser has dropped tokens from the front
* `Scanner.exists_position_afterAll` — how many, and what has been asked for
-/

namespace Kaleidoscope

namespace Parser

variable {τ : Type} [TokenSource τ]

theorem tokens_scan_rest (source : τ) :
    TokenSource.tokens (TokenSource.scan source).rest = (TokenSource.tokens source).tail := by
  rw [← tokens_start source, ← tokens_advance]
  exact (tokens_read (start source).journal (start source).rest).symm

/-- A parser with the token and the rest of one of the scans made in succession has the tokens from there
on in front. -/
theorem tokens_of_nthScan {source : τ} {k : Nat} {p : Parser τ}
    (hc : p.current = (TokenSource.nthScan source k).token)
    (hr : p.rest = (TokenSource.nthScan source k).rest) :
    p.tokens = (TokenSource.tokens source).drop k := by
  rw [tokens, hc, hr]
  clear hc hr
  induction k generalizing source with
  | zero => exact (TokenSource.tokens.eq_def source).symm
  | succ k ih =>
    rw [← List.drop_tail, ← tokens_scan_rest]
    exact ih

/-- After any requests a parser has dropped tokens from the front. -/
theorem exists_tokens_afterAll (source : τ) (ops : List Operation) :
    ∃ k, ((start source).afterAll ops).tokens = (TokenSource.tokens source).drop k := by
  obtain ⟨k, hcurrent, hrest⟩ := Scanner.exists_nthScan_afterAll source ops
  exact ⟨k, tokens_of_nthScan hcurrent hrest⟩

end Parser

namespace Scanner

variable {σ : Type} [CharSource σ]

/-- After any requests to a parser over a source of characters, the lexeme in front is the one behind
those that have been dropped, and it has cost one character behind it. -/
theorem exists_position_afterAll {source : σ} {ps : List Piece} (h : Cuts ps (CharSource.text source))
    (ops : List Operation) :
    ∃ k, ((Parser.start (ofSource source)).afterAll ops).tokens = (tokensOf ps).drop k ∧
      HasRead source ps k ((Parser.start (ofSource source)).afterAll ops).current
        ((Parser.start (ofSource source)).afterAll ops).rest := by
  obtain ⟨k, hcurrent, hrest⟩ := exists_nthScan_afterAll (ofSource source) ops
  have hlexes : Lexes 0 (CharSource.text source) (lexemesFrom 0 ps) := lexes_iff_cuts.2 ⟨ps, h, rfl⟩
  have htokens : TokenSource.tokens (ofSource source) = tokensOf ps := by
    rw [tokens_ofSource, tokens_of_lexes (n := 0) (by rwa [text_bump]), map_fst_lexemesFrom]
  refine ⟨k, ?_, ?_⟩
  · rw [Parser.tokens_of_nthScan hcurrent hrest, htokens]
  · rw [hcurrent, hrest]
    exact hasRead_nthScan h k

end Scanner

end Kaleidoscope
