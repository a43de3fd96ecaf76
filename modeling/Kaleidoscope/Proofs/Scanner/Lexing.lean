import Kaleidoscope.Program
import Kaleidoscope.Proofs.Token.Lexical

/-!
# The scanner cuts its text

A scanner at work has a text in front of it: the character ahead and those that its source gives up to
the first answer without one. What it makes of them is what `Lexes` says, and it gets there with as many
questions to its source as the tokens have characters.

## One token at a time

`Scanner.Delivers` says what a single scan makes of a text that is cut into given tokens, and what is
left is cut into the remaining ones. `Scanner.delivers_of_lexes` follows the cutting, rule by rule, so
it is the only place where trivia and the classes of characters appear.

## Main definitions

* `Scanner.text` — the characters to come
* `Scanner.Delivers` — a scan against the tokens of a text

## Main results

* `Scanner.delivers_of_lexes` — a scan delivers the first of them
* `Scanner.tokens_of_lexes` — the scanner has the tokens of its text
* `Program.tokens_textSession` — so has a session over a text
-/

namespace Kaleidoscope

/-- A text at hand is all that comes of it. -/
@[simp] theorem Script.text_ofList (cs : List Char) : CharSource.text (Script.ofList cs) = cs := by
  induction cs with
  | nil => rw [CharSource.text]; rfl
  | cons c cs ih => rw [CharSource.text]; exact congrArg (c :: ·) ih

namespace Scanner

variable {σ : Type} [CharSource σ] {s : Scanner σ} {c : Char} {keep : Char → Bool}
  {run rest : List Char}

/-! ### The text in front -/

/-- The characters to come, the one ahead included. -/
def text (s : Scanner σ) : List Char :=
  match s.ahead with
  | .char c => c :: CharSource.text s.source
  | _ => []

theorem text_bump (s : Scanner σ) : s.bump.text = CharSource.text s.source := by
  rw [CharSource.text, text, bump]
  rcases CharSource.next s.source with ⟨_ | _ | _, _⟩ <;> rfl

theorem text_of_char (h : s.ahead = .char c) : s.text = c :: s.bump.text := by
  rw [text_bump, text, h]

theorem ahead_of_text (h : s.text = c :: rest) : s.ahead = .char c ∧ s.bump.text = rest := by
  cases ha : s.ahead with
  | char d =>
    obtain ⟨hc, hr⟩ := List.cons.inj ((text_of_char ha).symm.trans h)
    exact ⟨congrArg _ hc, hr⟩
  | _ => simp [text, ha] at h

theorem ne_char_of_text (h : s.text = []) (c : Char) : s.ahead ≠ .char c := fun ha => by
  rw [text_of_char ha] at h
  cases h

/-! ### Runs -/

/-- A run takes the characters of its class off the text, one question for each. -/
theorem span_of_text (h : s.text = run ++ rest) (hrun : ∀ d ∈ run, keep d = true)
    (hrest : Follows keep rest) :
    (s.span keep).1 = run ∧ (s.span keep).2.text = rest ∧
      (s.span keep).2.pulls = s.pulls + run.length := by
  induction run generalizing s with
  | nil =>
    have hstop : ∀ c, s.ahead = .char c → keep c = false := fun c hc => by
      refine hrest c ?_
      rw [← List.nil_append rest, ← h, text_of_char hc]
      rfl
    rw [span_of_forall_ne hstop]
    exact ⟨rfl, h, rfl⟩
  | cons d run ih =>
    obtain ⟨hahead, htext⟩ := ahead_of_text h
    obtain ⟨hd, hrun⟩ := List.forall_mem_cons.1 hrun
    obtain ⟨hfst, hsnd, hpulls⟩ := ih htext hrun
    rw [span_of_char hahead hd]
    refine ⟨congrArg (d :: ·) hfst, hsnd, ?_⟩
    show (s.bump.span keep).2.pulls = s.pulls + (run.length + 1)
    rw [hpulls]
    exact Nat.add_right_comm s.pulls 1 run.length

/-! ### Trivia -/

theorem skipTrivia_of_blank (h : s.ahead = .char c) (hc : isBlank c = true) :
    s.skipTrivia = s.bump.skipTrivia := by
  rw [skipTrivia, span_of_char h hc]
  exact (skipTrivia.eq_def s.bump).symm

theorem skipTrivia_of_comment (h : s.ahead = .char '#') :
    s.skipTrivia = (s.span fun c => !isLineEnd c).2.skipTrivia := by
  have hstop : ∀ c, s.ahead = .char c → isBlank c = false := fun c hc => by
    obtain rfl := Answer.char.inj (h.symm.trans hc)
    decide
  rw [skipTrivia]
  simp only [span_of_forall_ne hstop]
  split
  · rfl
  · rename_i hne
    rw [span_of_forall_ne hstop] at hne
    exact absurd h hne

theorem skipTrivia_of_startsLexeme (h : ∀ c, s.ahead = .char c → StartsLexeme c) :
    s.skipTrivia = s := by
  rw [skipTrivia]
  simp only [span_of_forall_ne fun c hc => (h c hc).1]
  split
  · rename_i hc
    rw [span_of_forall_ne fun c hc => (h c hc).1] at hc
    exact absurd rfl (h _ hc).2
  · rfl

/-! ### One token -/

/-- What a scanner at offset `n` makes of a text with the given tokens: it delivers the first of them,
after one question for each character up to where that token ends; what it leaves has the others. If
there is none, it asks for all that is left. -/
inductive Delivers (n : Nat) (s : Scanner σ) : List (Token × Nat) → Prop where
  | nothing (ht : s.skipTrivia.lexeme.1 = .endOfInput)
    (hp : s.skipTrivia.lexeme.2.pulls = s.pulls + s.text.length) : Delivers n s []
  | token {t : Token} {m : Nat} {ts : List (Token × Nat)} (ht : s.skipTrivia.lexeme.1 = t)
    (hne : t ≠ .endOfInput) (hp : s.skipTrivia.lexeme.2.pulls + n = s.pulls + m)
    (hr : Lexes m s.skipTrivia.lexeme.2.text ts) : Delivers n s ((t, m) :: ts)

/-- Trivia are asked for and leave nothing. -/
theorem Delivers.of_trivia {n k : Nat} {q : Scanner σ} {ts : List (Token × Nat)}
    (h : Delivers (n + k) q ts) (hs : s.skipTrivia = q.skipTrivia) (hp : q.pulls = s.pulls + k)
    (ht : s.text.length = q.text.length + k) : Delivers n s ts := by
  cases h with
  | nothing he hq => exact .nothing (hs ▸ he) (by rw [hs, hq]; omega)
  | token he hne hq hr => exact .token (hs ▸ he) hne (by rw [hs]; omega) (hs ▸ hr)

/-- A lexeme is asked for, character by character. -/
theorem Delivers.of_lexeme {n k : Nat} {t : Token} {q : Scanner σ} {ts : List (Token × Nat)}
    (ha : s.ahead = .char c) (hc : StartsLexeme c) (hl : s.lexeme = (t, q)) (hne : t ≠ .endOfInput)
    (hp : q.pulls = s.pulls + k) (hr : Lexes (n + k) q.text ts) :
    Delivers n s ((t, n + k) :: ts) := by
  have hstop : ∀ d, s.ahead = .char d → StartsLexeme d := fun d hd =>
    Answer.char.inj (ha.symm.trans hd) ▸ hc
  have h : s.skipTrivia.lexeme = (t, q) := by rw [skipTrivia_of_startsLexeme hstop, hl]
  refine .token ?_ hne ?_ ?_
  · rw [h]
  · rw [h]
    dsimp only
    omega
  · rwa [h]

theorem lexeme_of_word (h : s.ahead = .char c) (hc : c.isAlpha = true) :
    s.lexeme = (.ofWord (String.ofList (s.span Char.isAlphanum).1), (s.span Char.isAlphanum).2) := by
  rw [lexeme, h]
  exact if_pos hc

theorem lexeme_of_numeral (h : s.ahead = .char c) (hc : isNumeral c = true) :
    s.lexeme = (.ofNumeral (s.span isNumeral).1, (s.span isNumeral).2) := by
  rw [lexeme, h]
  exact (if_neg (by simp [not_isAlpha_of_isNumeral hc])).trans (if_pos hc)

theorem lexeme_of_solitary (h : s.ahead = .char c) (hc : isSolitary c = true) :
    s.lexeme = (.char c, s.bump) := by
  obtain ⟨-, ha, hn⟩ := isSolitary_iff.1 hc
  rw [lexeme, h]
  exact (if_neg (by simp [ha])).trans (if_neg (by simp [hn]))

/-- A scan delivers the first token of the text in front. -/
theorem delivers_of_lexes {n : Nat} {ts : List (Token × Nat)} (h : Lexes n s.text ts) :
    Delivers n s ts := by
  generalize hs : s.text = text at h
  induction h generalizing s with
  | done n =>
    have hskip : s.skipTrivia = s :=
      skipTrivia_of_startsLexeme fun c hc => absurd hc (ne_char_of_text hs c)
    have hlexeme : s.lexeme = (.endOfInput, s) := by
      rw [lexeme]
      split
      · rename_i c hc
        exact absurd hc (ne_char_of_text hs c)
      · rfl
    refine .nothing ?_ ?_
    · rw [hskip, hlexeme]
    · rw [hskip, hlexeme, hs]
      rfl
  | blank hc _ ih =>
    obtain ⟨hahead, htext⟩ := ahead_of_text hs
    exact (ih htext).of_trivia (skipTrivia_of_blank hahead hc) rfl (by rw [hs, htext]; rfl)
  | @comment n body text ts hb hf _ ih =>
    obtain ⟨hahead, -⟩ := ahead_of_text hs
    have hkeep : ∀ d ∈ '#' :: body, (!isLineEnd d) = true :=
      List.forall_mem_cons.2 ⟨rfl, fun d hd => by rw [hb d hd]; rfl⟩
    obtain ⟨-, htext, hpulls⟩ := span_of_text hs hkeep hf
    refine (ih htext).of_trivia (skipTrivia_of_comment hahead) hpulls ?_
    rw [hs, htext, List.length_cons, List.length_append]
    omega
  | @word n c run text ts hc hr hf h _ =>
    obtain ⟨hahead, -⟩ := ahead_of_text hs
    have hkeep : c.isAlphanum = true := by rw [Char.isAlphanum, hc]; rfl
    obtain ⟨hrun, htext, hpulls⟩ := span_of_text hs (List.forall_mem_cons.2 ⟨hkeep, hr⟩) hf
    have hlexeme := lexeme_of_word hahead hc
    rw [hrun] at hlexeme
    exact .of_lexeme hahead (startsLexeme_of_isAlpha hc) hlexeme (Token.ofWord_ne_endOfInput _) hpulls
      (by rwa [htext])
  | @numeral n c run text ts hc hr hf h _ =>
    obtain ⟨hahead, -⟩ := ahead_of_text hs
    obtain ⟨hrun, htext, hpulls⟩ := span_of_text hs (List.forall_mem_cons.2 ⟨hc, hr⟩) hf
    have hlexeme := lexeme_of_numeral hahead hc
    rw [hrun] at hlexeme
    exact .of_lexeme hahead (startsLexeme_of_isNumeral hc) hlexeme (by simp [Token.ofNumeral]) hpulls
      (by rwa [htext])
  | @solitary n c text ts hc h _ =>
    obtain ⟨hahead, htext⟩ := ahead_of_text hs
    exact .of_lexeme hahead (isSolitary_iff.1 hc).1 (lexeme_of_solitary hahead hc) (by simp) rfl
      (by rwa [htext])

/-! ### All tokens -/

/-- The scanner has the tokens of its text. -/
theorem tokens_of_lexes {n : Nat} {ts : List (Token × Nat)} (h : Lexes n s.text ts) :
    TokenSource.tokens s = ts.map Prod.fst := by
  induction ts generalizing n s with
  | nil =>
    cases delivers_of_lexes h with
    | nothing ht _ =>
      rw [TokenSource.tokens]
      exact dif_pos ht
  | cons entry ts ih =>
    cases delivers_of_lexes h with
    | token ht hne _ hr =>
      have hscan : (TokenSource.scan s).token ≠ .endOfInput := fun he => hne (ht.symm.trans he)
      rw [TokenSource.tokens, dif_neg hscan, List.map_cons]
      exact congr (congrArg List.cons ht) (ih hr)

/-- The blank that a scanner starts with makes no difference to its first token. -/
theorem scan_ofSource (source : σ) :
    (TokenSource.scan (ofSource source)).token = (TokenSource.scan (ofSource source).bump).token ∧
      (TokenSource.scan (ofSource source)).rest = (TokenSource.scan (ofSource source).bump).rest := by
  have hskip : (ofSource source).skipTrivia = (ofSource source).bump.skipTrivia :=
    skipTrivia_of_blank rfl (by decide)
  exact ⟨congrArg (·.lexeme.1) hskip, congrArg (·.lexeme.2) hskip⟩

theorem tokens_ofSource (source : σ) :
    TokenSource.tokens (ofSource source) = TokenSource.tokens (ofSource source).bump := by
  obtain ⟨htoken, hrest⟩ := scan_ofSource source
  rw [TokenSource.tokens, htoken, hrest]
  exact (TokenSource.tokens.eq_def _).symm

end Scanner

/-- A session over a text has the tokens of the text in front of it. -/
theorem Program.tokens_textSession {n : Nat} {text : List Char} {ts : List (Token × Nat)}
    (h : Lexes n text ts) : (textSession text).tokens = ts.map Prod.fst := by
  have htext : (Scanner.ofSource (Script.ofList text)).bump.text = text := by
    rw [Scanner.text_bump]
    exact Script.text_ofList text
  rw [textSession, Parser.start, Parser.tokens_read, Scanner.tokens_ofSource]
  exact Scanner.tokens_of_lexes (n := n) (by rwa [htext])

end Kaleidoscope
