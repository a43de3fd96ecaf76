import Kaleidoscope.Proofs.Scanner.Lexing
import Kaleidoscope.Proofs.Session.Operation
import Kaleidoscope.Proofs.Token.Piece

/-!
# One character ahead

A scanner is asked for tokens one by one, and the question is what it has to ask of its source for each.
The answer is the end of the token and one character more, always: the token with the number `k` is out
when the source has been asked for as many characters as there are up to its end, and for the one behind
it. After the last token the source has been asked until it had nothing to give, and never again.

## Counting what was asked

`Scanner.Pulls` says which characters lie between two states of a scanner. It gives the number of
questions, the text that is left and the source that is left in one statement, so that the counter that
a scanner keeps is tied to what has become of its source.

## Main definitions

* `CharSource.skip` — a source that has been asked several times
* `TokenSource.nthScan` — one of the tokens asked for in succession
* `Scanner.Pulls` — the characters asked for between two states
* `lexemeAt` — the lexeme with a given number, and the end of the input for all numbers beyond
* `Scanner.HasRead` — a lexeme that has been read, at the price of one character behind it

## Main results

* `Scanner.exists_pulls_scan` — a scan takes characters off the text, one question for each
* `Scanner.Stands.scan_token`, `Scanner.Stands.scan_end` — what one scan does
* `Scanner.scans_lexemes` — what all scans do, and all operations of parsers and sessions
-/

namespace Kaleidoscope

/-- The source after it has been asked `k` times. -/
def CharSource.skip {σ : Type} [CharSource σ] : Nat → σ → σ
  | 0, s => s
  | k + 1, s => skip k (next s).2

theorem CharSource.skip_add {σ : Type} [CharSource σ] (j k : Nat) (s : σ) :
    skip (j + k) s = skip k (skip j s) := by
  induction j generalizing s with
  | zero => rw [Nat.zero_add]; rfl
  | succ j ih => rw [Nat.add_right_comm]; exact ih (next s).2

/-- The scan with the number `k`, from zero on, of all those made in succession. -/
def TokenSource.nthScan {τ : Type} [TokenSource τ] (s : τ) : Nat → Scan τ
  | 0 => scan s
  | k + 1 => nthScan (scan s).rest k

theorem TokenSource.nthScan_succ {τ : Type} [TokenSource τ] (s : τ) (k : Nat) :
    nthScan s (k + 1) = scan (nthScan s k).rest := by
  induction k generalizing s with
  | zero => rfl
  | succ k ih => exact ih (scan s).rest

/-- The lexeme with the number `k`, from zero on, and the offset of its end. Behind all lexemes there is
the end of the input, where the text ends. -/
def lexemeAt (ps : List Piece) (k : Nat) : Token × Nat :=
  (lexemesFrom 0 ps).getD k (.endOfInput, (joined ps).length)

namespace Scanner

variable {σ : Type} [CharSource σ] {s q r : Scanner σ} {u v : List Char}

/-! ### What was asked for -/

/-- Asking for the characters after the one ahead, as often as `u` has characters, takes `u` off the
text and leads from `s` to `q`. -/
inductive Pulls : Scanner σ → List Char → Scanner σ → Prop where
  | stay (s : Scanner σ) : Pulls s [] s
  | bump {s q : Scanner σ} {c : Char} {u : List Char} (h : s.ahead = .char c) (hu : Pulls s.bump u q) :
    Pulls s (c :: u) q

namespace Pulls

theorem single {c : Char} (h : s.ahead = .char c) : s.Pulls [c] s.bump := .bump h (.stay _)

theorem trans (h : s.Pulls u q) (k : q.Pulls v r) : s.Pulls (u ++ v) r := by
  induction h with
  | stay s => exact k
  | bump hc _ ih => exact .bump hc (ih k)

theorem text_eq (h : s.Pulls u q) : s.text = u ++ q.text := by
  induction h with
  | stay s => rfl
  | bump hc _ ih => rw [text_of_char hc, ih, List.cons_append]

theorem pulls_eq (h : s.Pulls u q) : q.pulls = s.pulls + u.length := by
  induction h with
  | stay s => rfl
  | @bump s q c u _ _ ih =>
    have hbump : s.bump.pulls = s.pulls + 1 := rfl
    rw [ih, hbump, List.length_cons]
    omega

theorem source_eq (h : s.Pulls u q) : q.source = CharSource.skip u.length s.source := by
  induction h with
  | stay s => rfl
  | bump _ _ ih => exact ih

end Pulls

theorem pulls_span (keep : Char → Bool) (s : Scanner σ) :
    s.Pulls (s.span keep).1 (s.span keep).2 := by
  refine span_induction keep (fun s c hc hk ih => ?_) (fun s hs => ?_) s
  · rw [span_of_char hc hk]
    exact .bump hc ih
  · rw [span_of_forall_ne hs]
    exact .stay s

theorem exists_pulls_skipTrivia (s : Scanner σ) : ∃ u, s.Pulls u s.skipTrivia := by
  fun_induction skipTrivia s with
  | case1 s t h ih =>
    obtain ⟨u, hu⟩ := ih
    exact ⟨_, ((pulls_span isBlank s).trans (pulls_span _ t)).trans hu⟩
  | case2 s t h => exact ⟨_, pulls_span isBlank s⟩

theorem exists_pulls_lexeme (s : Scanner σ) : ∃ u, s.Pulls u s.lexeme.2 := by
  unfold lexeme
  split
  · rename_i c hc
    split
    · exact ⟨_, pulls_span Char.isAlphanum s⟩
    · split
      · exact ⟨_, pulls_span isNumeral s⟩
      · exact ⟨[c], .single hc⟩
  · exact ⟨[], .stay s⟩

/-- A scan takes characters off the text, one question for each. -/
theorem exists_pulls_scan (s : Scanner σ) : ∃ u, s.Pulls u s.scan.rest := by
  obtain ⟨u, hu⟩ := exists_pulls_skipTrivia s
  obtain ⟨v, hv⟩ := exists_pulls_lexeme s.skipTrivia
  exact ⟨u ++ v, hu.trans hv⟩

/-! ### One scan -/

/-- A scanner over `source` that stands at the offset `n` of a text of `total` characters, with the
tokens `ts` in front of it. One character is ahead, so it has asked for one more than it has passed. -/
structure Stands (source : σ) (total n : Nat) (ts : List (Token × Nat)) (s : Scanner σ) : Prop where
  lexes : Lexes n s.text ts
  total_eq : n + s.text.length = total
  pulls_eq : s.pulls = n + 1
  source_eq : s.source = CharSource.skip s.pulls source

namespace Stands

variable {source : σ} {total n m : Nat} {t : Token} {ts : List (Token × Nat)}

/-- Where a scanner stands after it has pulled `u`. -/
theorem of_pulls {ts' : List (Token × Nat)} (h : Stands source total n ts s) (hu : s.Pulls u q)
    (hn : m = n + u.length) (hts : Lexes m q.text ts') : Stands source total m ts' q where
  lexes := hts
  total_eq := by
    rw [hn, ← h.total_eq, hu.text_eq, List.length_append, Nat.add_assoc]
  pulls_eq := by
    rw [hu.pulls_eq, h.pulls_eq, hn]
    omega
  source_eq := by
    rw [hu.source_eq, h.source_eq, ← CharSource.skip_add, hu.pulls_eq]

/-- In front of a token, a scan gives the token and goes on to where it ends. -/
theorem scan_token (h : Stands source total n ((t, m) :: ts) s) :
    s.scan.token = t ∧ Stands source total m ts s.scan.rest := by
  obtain ⟨u, hu⟩ := exists_pulls_scan s
  cases delivers_of_lexes h.lexes with
  | token ht hne hp hr =>
    have hpulls : s.scan.rest.pulls + n = s.pulls + m := hp
    rw [hu.pulls_eq] at hpulls
    exact ⟨ht, h.of_pulls hu (by omega) hr⟩

/-- In front of no token, a scan gives the end of the input and goes on to the end of the text. -/
theorem scan_end (h : Stands source total n [] s) :
    s.scan.token = .endOfInput ∧ Stands source total total [] s.scan.rest := by
  obtain ⟨u, hu⟩ := exists_pulls_scan s
  cases delivers_of_lexes h.lexes with
  | nothing ht hp =>
    have hpulls : s.scan.rest.pulls = s.pulls + s.text.length := hp
    rw [hu.pulls_eq] at hpulls
    have htext : s.scan.rest.text = [] := by
      have hlength := congrArg List.length hu.text_eq
      rw [List.length_append] at hlength
      exact List.eq_nil_of_length_eq_zero (by omega)
    refine ⟨ht, h.of_pulls hu ?_ (by rw [htext]; exact .done total)⟩
    have := h.total_eq
    omega

/-- All scans from where a scanner stands. -/
theorem nthScan_eq (h : Stands source total n ts s) (k : Nat) :
    (TokenSource.nthScan s k).token = (ts.getD k (.endOfInput, total)).1 ∧
      (TokenSource.nthScan s k).rest.pulls = (ts.getD k (.endOfInput, total)).2 + 1 ∧
      (TokenSource.nthScan s k).rest.source =
        CharSource.skip (TokenSource.nthScan s k).rest.pulls source := by
  induction k generalizing n ts s with
  | zero =>
    cases ts with
    | nil =>
      obtain ⟨htoken, hrest⟩ := h.scan_end
      exact ⟨htoken, hrest.pulls_eq, hrest.source_eq⟩
    | cons entry ts =>
      obtain ⟨htoken, hrest⟩ := h.scan_token
      exact ⟨htoken, hrest.pulls_eq, hrest.source_eq⟩
  | succ k ih =>
    cases ts with
    | nil => exact ih h.scan_end.2
    | cons entry ts => exact ih h.scan_token.2

end Stands

/-! ### All scans -/

/-- The first character ahead, and none passed. -/
theorem stands_bump_ofSource {source : σ} {ts : List (Token × Nat)}
    (h : Lexes 0 (CharSource.text source) ts) :
    Stands source (CharSource.text source).length 0 ts (ofSource source).bump := by
  have htext : (ofSource source).bump.text = CharSource.text source := text_bump _
  exact ⟨by rwa [htext], by rw [htext, Nat.zero_add], rfl, rfl⟩

/-- The blank that a scanner starts with costs nothing. -/
theorem nthScan_ofSource (source : σ) (k : Nat) :
    (TokenSource.nthScan (ofSource source) k).token =
        (TokenSource.nthScan (ofSource source).bump k).token ∧
      (TokenSource.nthScan (ofSource source) k).rest =
        (TokenSource.nthScan (ofSource source).bump k).rest := by
  have hscan := scan_ofSource source
  cases k with
  | zero => exact hscan
  | succ k =>
    rw [TokenSource.nthScan, TokenSource.nthScan, hscan.2]
    exact ⟨rfl, rfl⟩

/-- A scanner over `source`, whose text is cut into `ps`, has read the lexeme with the number `k`, which
is the token `t`: it has asked its source for every character up to the end of that lexeme and for one
more, and for nothing else. -/
structure HasRead (source : σ) (ps : List Piece) (k : Nat) (t : Token) (s : Scanner σ) : Prop where
  token_eq : t = (lexemeAt ps k).1
  pulls_eq : s.pulls = (lexemeAt ps k).2 + 1
  source_eq : s.source = CharSource.skip s.pulls source

/-- Behind the lexemes there is the end of the input. -/
theorem lexemeAt_cases (ps : List Piece) (k : Nat) :
    lexemeAt ps k ∈ lexemesFrom 0 ps ∨ lexemeAt ps k = (.endOfInput, (joined ps).length) := by
  rw [lexemeAt, List.getD_eq_getElem?_getD]
  cases h : (lexemesFrom 0 ps)[k]? with
  | some entry => exact .inl (List.mem_of_getElem? h)
  | none => exact .inr rfl

namespace HasRead

variable {source : σ} {ps : List Piece} {k : Nat} {t : Token}

/-- Nothing behind the text is asked for but the answer that ends it. -/
theorem pulls_le (h : HasRead source ps k t s) (hps : Cuts ps (CharSource.text source)) :
    s.pulls ≤ (CharSource.text source).length + 1 := by
  rw [h.pulls_eq, ← hps.joined_eq]
  refine Nat.succ_le_succ ?_
  rcases lexemeAt_cases ps k with hmem | hend
  · have hle := le_of_mem_lexemesFrom hmem
    rwa [Nat.zero_add] at hle
  · exact Nat.le_of_eq (congrArg Prod.snd hend)

/-- When the end of the input has been read, that answer has been asked for. -/
theorem source_eq_of_end (h : HasRead source ps k .endOfInput s)
    (hps : Cuts ps (CharSource.text source)) :
    s.source = CharSource.skip ((CharSource.text source).length + 1) source := by
  rcases lexemeAt_cases ps k with hmem | hend
  · exact absurd h.token_eq.symm (ne_endOfInput_of_mem_lexemesFrom hmem)
  · rw [h.source_eq, h.pulls_eq, hend, hps.joined_eq]

end HasRead

theorem hasRead_nthScan {source : σ} {ps : List Piece} (h : Cuts ps (CharSource.text source)) (k : Nat) :
    HasRead source ps k (TokenSource.nthScan (ofSource source) k).token
      (TokenSource.nthScan (ofSource source) k).rest := by
  have hlexes : Lexes 0 (CharSource.text source) (lexemesFrom 0 ps) :=
    lexes_iff_cuts.2 ⟨ps, h, rfl⟩
  obtain ⟨htoken, hpulls, hsource⟩ := (stands_bump_ofSource hlexes).nthScan_eq k
  rw [← h.joined_eq] at htoken hpulls
  obtain ⟨htoken', hrest'⟩ := nthScan_ofSource source k
  rw [htoken', hrest']
  exact ⟨htoken, hpulls, hsource⟩

/-- After any requests to a parser, the token in front and the source behind it are those of one of the
scans made in succession. -/
theorem exists_nthScan_afterAll {τ : Type} [TokenSource τ] (source : τ) (ops : List Operation) :
    ∃ k, ((Parser.start source).afterAll ops).current = (TokenSource.nthScan source k).token ∧
      ((Parser.start source).afterAll ops).rest = (TokenSource.nthScan source k).rest := by
  refine Parser.afterAll_invariant (P := fun t rest => ∃ k,
    t = (TokenSource.nthScan source k).token ∧ rest = (TokenSource.nthScan source k).rest) ?_ ops
    ⟨0, rfl, rfl⟩
  rintro - - ⟨k, -, rfl⟩
  refine ⟨k + 1, ?_, ?_⟩
  · rw [TokenSource.nthScan_succ]
  · rw [TokenSource.nthScan_succ]

theorem exists_hasRead_afterAll {source : σ} {ps : List Piece} (h : Cuts ps (CharSource.text source))
    (ops : List Operation) :
    ∃ k, HasRead source ps k ((Parser.start (ofSource source)).afterAll ops).current
      ((Parser.start (ofSource source)).afterAll ops).rest := by
  obtain ⟨k, hcurrent, hrest⟩ := exists_nthScan_afterAll (ofSource source) ops
  rw [hcurrent, hrest]
  exact ⟨k, hasRead_nthScan h k⟩

/-- The text of a source, up to its first answer without a character, is cut in one way. The scan with
the number `k` reads the lexeme with that number, and every scan beyond the last lexeme reads the end of
the input, without any further question. After any requests to a parser or a session over the source,
the token in front is one of those lexemes, and nothing has been asked for that was not needed to read
it. -/
theorem scans_lexemes (source : σ) :
    ∃ ps, Cuts ps (CharSource.text source) ∧ (∀ qs, Cuts qs (CharSource.text source) → qs = ps) ∧
      (∀ k, HasRead source ps k (TokenSource.nthScan (ofSource source) k).token
        (TokenSource.nthScan (ofSource source) k).rest) ∧
      ∀ ops, ∃ k, HasRead source ps k ((Parser.start (ofSource source)).afterAll ops).current
        ((Parser.start (ofSource source)).afterAll ops).rest := by
  obtain ⟨ps, hps⟩ := exists_cuts (CharSource.text source)
  exact ⟨ps, hps, fun qs hqs => hqs.unique hps, hasRead_nthScan hps, exists_hasRead_afterAll hps⟩

end Scanner

end Kaleidoscope
