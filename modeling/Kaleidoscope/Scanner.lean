import Kaleidoscope.Text.Blank
import Kaleidoscope.Token.Source

/-!
# The scanner

Turns characters into tokens. A word, a numeral and a comment each go as far as they can, so the
scanner has to see the character after them; that one character is all it ever reads ahead, and all
it keeps from one token to the next.

## Before the first character

A scanner that has read nothing yet must not ask for a character just to have one ahead: at a
terminal that would wait for input that nobody has been prompted for. It starts with a blank ahead
instead, which no source has given and which the first token skips.

## After the last

An answer without a character stays ahead for good. The source is not asked again, though it might
have more to give, so the end of the input is final.

## Main definitions

* `Scanner` — a source, the character ahead of it, and how often the source has been asked
* `Scanner.span` — the longest run of characters of a class
* `Scanner.skipTrivia` — white space and comments
* `Scanner.lexeme` — one token where there is no trivia
* `Scanner.scan` — one token

## Main results

* `Scanner.span_of_char`, `span_of_forall_ne` — what a run is, one character at a time
* `Scanner.scan_of_char?_eq_none` — the end is final
-/

namespace Kaleidoscope

/-- Reads tokens off a source of characters. -/
structure Scanner (σ : Type) where
  source : σ
  /-- The source's last answer, which the next token starts from. -/
  ahead : Answer := .char ' '
  /-- How often the source has been asked. -/
  pulls : Nat := 0

/-! ### Classes of characters -/

/-- The characters of numerals. -/
def isNumeral (c : Char) : Bool := c.isDigit || c = '.'

/-- The characters that end a comment. -/
def isLineEnd (c : Char) : Bool := c = '\n' || c = '\r'

namespace Scanner

variable {σ : Type} [CharSource σ]

/-- Asks the source for the next character. -/
def bump (s : Scanner σ) : Scanner σ :=
  let (answer, rest) := CharSource.next s.source
  { source := rest, ahead := answer, pulls := s.pulls + 1 }

/-- No fewer than the characters to come, the one ahead included. -/
def size (s : Scanner σ) : Nat := s.ahead.weight + CharSource.size s.source

theorem size_bump_le (s : Scanner σ) : s.bump.size ≤ CharSource.size s.source :=
  CharSource.size_next s.source

theorem size_bump_lt {s : Scanner σ} {c : Char} (h : s.ahead = .char c) : s.bump.size < s.size := by
  have := size_bump_le s
  have : s.size = 1 + CharSource.size s.source := by simp only [size, h, Answer.weight]
  omega

/-! ### Runs -/

/-- Adds the characters ahead that `keep` holds of to those gathered, which are in reverse. -/
def gather (keep : Char → Bool) (gathered : List Char) (s : Scanner σ) : List Char × Scanner σ :=
  match _ : s.ahead with
  | .char c => if keep c then gather keep (c :: gathered) s.bump else (gathered.reverse, s)
  | _ => (gathered.reverse, s)
termination_by s.size
decreasing_by exact size_bump_lt ‹_›

/-- The longest run of characters that `keep` holds of, and the scanner after it. -/
def span (keep : Char → Bool) (s : Scanner σ) : List Char × Scanner σ := gather keep [] s

theorem gather_of_char {keep : Char → Bool} {s : Scanner σ} {c : Char} (gathered : List Char)
    (h : s.ahead = .char c) (hc : keep c = true) :
    gather keep gathered s = gather keep (c :: gathered) s.bump := by
  rw [gather.eq_def]
  split
  · rename_i d hd
    obtain rfl : c = d := by simpa [h] using hd
    rw [if_pos hc]
  · rename_i hd
    exact absurd h (hd c)

theorem gather_of_forall_ne {keep : Char → Bool} {s : Scanner σ} (gathered : List Char)
    (h : ∀ c, s.ahead = .char c → keep c = false) :
    gather keep gathered s = (gathered.reverse, s) := by
  rw [gather.eq_def]
  split
  · rename_i d hd
    rw [if_neg (by simp [h d hd])]
  · rfl

omit [CharSource σ] in
/-- Whether or not a run goes on with the character ahead. -/
theorem runs_or_stops (keep : Char → Bool) (s : Scanner σ) :
    (∃ c, s.ahead = .char c ∧ keep c = true) ∨ ∀ c, s.ahead = .char c → keep c = false := by
  cases h : s.ahead with
  | char c => cases hc : keep c <;> simp [hc]
  | nothing => simp
  | failed fault => simp

theorem gather_eq (keep : Char → Bool) (gathered : List Char) (s : Scanner σ) :
    gather keep gathered s = (gathered.reverse ++ (span keep s).1, (span keep s).2) := by
  unfold span
  induction hn : s.size using Nat.strongRecOn generalizing gathered s with
  | ind n ih =>
    rcases runs_or_stops keep s with ⟨c, hc, hk⟩ | stop
    · have smaller : s.bump.size < n := hn ▸ size_bump_lt hc
      rw [gather_of_char gathered hc hk, gather_of_char [] hc hk,
        ih _ smaller (c :: gathered) s.bump rfl, ih _ smaller [c] s.bump rfl]
      simp
    · rw [gather_of_forall_ne gathered stop, gather_of_forall_ne [] stop]
      simp

/-- A run takes in a character of its class. -/
theorem span_of_char {keep : Char → Bool} {s : Scanner σ} {c : Char}
    (h : s.ahead = .char c) (hc : keep c = true) :
    span keep s = (c :: (span keep s.bump).1, (span keep s.bump).2) := by
  rw [span, gather_of_char [] h hc, gather_eq]
  rfl

/-- A run stops before anything else. -/
theorem span_of_forall_ne {keep : Char → Bool} {s : Scanner σ}
    (h : ∀ c, s.ahead = .char c → keep c = false) : span keep s = ([], s) :=
  gather_of_forall_ne [] h

/-- Induction along a run. -/
@[elab_as_elim]
theorem span_induction {motive : Scanner σ → Prop} (keep : Char → Bool)
    (run : ∀ s c, s.ahead = .char c → keep c = true → motive s.bump → motive s)
    (stop : ∀ s, (∀ c, s.ahead = .char c → keep c = false) → motive s) (s : Scanner σ) :
    motive s := by
  induction hn : s.size using Nat.strongRecOn generalizing s with
  | ind n ih =>
    rcases runs_or_stops keep s with ⟨c, hc, hk⟩ | hs
    · exact run s c hc hk (ih _ (hn ▸ size_bump_lt hc) s.bump rfl)
    · exact stop s hs

theorem size_span_le (keep : Char → Bool) (s : Scanner σ) : (span keep s).2.size ≤ s.size := by
  refine span_induction keep (fun s c hc hk ih => ?_) (fun s hs => ?_) s
  · rw [span_of_char hc hk]
    exact Nat.le_trans ih (Nat.le_of_lt (size_bump_lt hc))
  · simp [span_of_forall_ne hs]

theorem size_span_lt {keep : Char → Bool} {s : Scanner σ} {c : Char} (h : s.ahead = .char c)
    (hc : keep c = true) : (span keep s).2.size < s.size := by
  rw [span_of_char h hc]
  exact Nat.lt_of_le_of_lt (size_span_le keep s.bump) (size_bump_lt h)

/-! ### Trivia -/

/-- Skips white space and comments. A comment goes up to the end of its line. -/
def skipTrivia (s : Scanner σ) : Scanner σ :=
  let t := (s.span isBlank).2
  match _ : t.ahead with
  | .char '#' => skipTrivia (t.span fun c => !isLineEnd c).2
  | _ => t
termination_by s.size
decreasing_by
  exact Nat.lt_of_lt_of_le (size_span_lt ‹_› (by decide)) (size_span_le isBlank s)

theorem size_skipTrivia_le (s : Scanner σ) : s.skipTrivia.size ≤ s.size := by
  fun_induction skipTrivia s with
  | case1 s t h ih =>
    exact Nat.le_trans ih (Nat.le_trans (size_span_le _ t) (size_span_le isBlank s))
  | case2 s t h => exact size_span_le isBlank s

/-! ### Tokens -/

/-- The token that starts at the character ahead, and the scanner after it. -/
def lexeme (s : Scanner σ) : Token × Scanner σ :=
  match s.ahead with
  | .char c =>
    if c.isAlpha then
      let (word, rest) := s.span Char.isAlphanum
      (.ofWord (String.ofList word), rest)
    else if isNumeral c then
      let (run, rest) := s.span isNumeral
      (.ofNumeral run, rest)
    else (.char c, s.bump)
  | _ => (.endOfInput, s)

theorem size_lexeme (s : Scanner σ) : s.lexeme.1.weight + s.lexeme.2.size ≤ s.size := by
  unfold lexeme
  split
  · rename_i c hc
    split
    · rename_i ha
      have : (s.span Char.isAlphanum).2.size < s.size :=
        size_span_lt hc (by simp [Char.isAlphanum, ha])
      have := (Token.ofWord (String.ofList (s.span Char.isAlphanum).1)).weight_le_one
      dsimp only
      omega
    · split
      · rename_i hn
        have : (s.span isNumeral).2.size < s.size := size_span_lt hc hn
        dsimp only [Token.ofNumeral, Token.weight]
        omega
      · have := size_bump_lt hc
        dsimp only [Token.weight]
        omega
  · simp [Token.weight]

/-- The next token. If the source failed for its sake, so that the input ends here, the scan says
why. -/
def scan (s : Scanner σ) : Scan (Scanner σ) :=
  let (token, rest) := s.skipTrivia.lexeme
  { token, rest, fault? := if s.ahead.char?.isSome then rest.ahead.fault? else none }

/-- Where no character is ahead, there is only the end. -/
theorem scan_of_char?_eq_none {s : Scanner σ} (h : s.ahead.char? = none) :
    s.scan = { token := .endOfInput, rest := s } := by
  have stop : ∀ keep : Char → Bool, ∀ c, s.ahead = .char c → keep c = false := fun _ c hc => by
    simp [hc, Answer.char?] at h
  have skip : s.skipTrivia = s := by
    rw [skipTrivia]
    simp only [span_of_forall_ne (stop isBlank)]
    split
    · rename_i hc
      rw [span_of_forall_ne (stop isBlank)] at hc
      exact absurd (stop (fun _ => true) '#' hc) (by simp)
    · rfl
  have lex : s.lexeme = (.endOfInput, s) := by
    unfold lexeme
    split
    · rename_i c hc; simp [hc, Answer.char?] at h
    · rfl
  simp [scan, skip, lex, h]

theorem char?_ahead_of_lexeme_eq_end {s : Scanner σ} (h : s.lexeme.1 = .endOfInput) :
    s.lexeme.2.ahead.char? = none := by
  unfold lexeme at h ⊢
  split at h
  · split at h
    · exact absurd h (Token.ofWord_ne_endOfInput _)
    · split at h <;> cases h
  · rename_i hs
    unfold Answer.char?
    split
    · rename_i c hc; exact absurd hc (hs c)
    · rfl

instance : TokenSource (Scanner σ) where
  scan := scan
  size := size
  size_scan s := Nat.le_trans (size_lexeme s.skipTrivia) (size_skipTrivia_le s)
  scan_of_end s h := scan_of_char?_eq_none (char?_ahead_of_lexeme_eq_end (s := s.skipTrivia) h)

/-- A scanner that has read nothing yet. -/
def ofSource (source : σ) : Scanner σ := { source }

end Scanner

end Kaleidoscope
