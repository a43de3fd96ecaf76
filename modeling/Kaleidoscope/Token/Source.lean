import Kaleidoscope.Source
import Kaleidoscope.Token

/-!
# Sources of tokens

What a parser reads. It asks for one token at a time, and the source it asks may be a scanner at work
on a terminal or a list of tokens that is already there. The parser cannot tell, so what is proved of
it over one kind of source holds over the other.

## The end is final

Unlike a source of characters, a source of tokens that has given the end of the input gives nothing
else from then on, and does not change. A parser may run into the end as often as it likes.

## Main definitions

* `Scan` — a token, the source after it, and what went wrong while reading it
* `TokenSource` — what it takes to be a source of tokens
* `TokenSource.tokens` — all tokens up to the end
-/

namespace Kaleidoscope

/-- What a source of tokens gives when asked. -/
structure Scan (τ : Type) where
  token : Token
  /-- The source after the token. -/
  rest : τ
  /-- Why the input ended, if reading failed for the sake of this token. -/
  fault? : Option Fault := none

/-- A source of tokens: a way to ask for the next one, and a bound on those to come. -/
class TokenSource (τ : Type) where
  /-- Asks for a token. -/
  scan : τ → Scan τ
  /-- No fewer than the tokens to come. -/
  size : τ → Nat
  size_scan : ∀ s, (scan s).token.weight + size (scan s).rest ≤ size s
  /-- After the end of the input there is nothing but the end. -/
  scan_of_end : ∀ s, (scan s).token = .endOfInput →
    scan (scan s).rest = { token := .endOfInput, rest := (scan s).rest }

namespace TokenSource

/-- All tokens up to the end of the input. -/
def tokens {τ : Type} [TokenSource τ] (s : τ) : List Token :=
  if _ : (scan s).token = .endOfInput then []
  else (scan s).token :: tokens (scan s).rest
termination_by size s
decreasing_by
  have := size_scan s
  have := Token.weight_pos ‹_›
  omega

end TokenSource

/-! ### Lists of tokens -/

/-- Tokens that are at hand. The end of the input follows them, or stands among them and hides what
comes after. -/
structure TokenList where
  toList : List Token
  deriving DecidableEq, Repr

namespace TokenList

/-- The next token. -/
def scan (s : TokenList) : Scan TokenList :=
  match s.toList with
  | [] => { token := .endOfInput, rest := s }
  | .endOfInput :: _ => { token := .endOfInput, rest := s }
  | t :: ts => { token := t, rest := ⟨ts⟩ }

theorem size_scan (s : TokenList) :
    s.scan.token.weight + s.scan.rest.toList.length ≤ s.toList.length := by
  obtain ⟨ts⟩ := s
  unfold scan
  split
  · simp [Token.weight]
  · simp [Token.weight]
  · rename_i t ts _ h
    have := t.weight_le_one
    dsimp only at h ⊢
    rw [h, List.length_cons]
    omega

theorem scan_of_end {s : TokenList} (h : s.scan.token = .endOfInput) :
    s.scan.rest.scan = { token := .endOfInput, rest := s.scan.rest } := by
  obtain ⟨ts⟩ := s
  cases ts with
  | nil => rfl
  | cons t ts => cases t <;> first | rfl | cases h

instance : TokenSource TokenList where
  scan := scan
  size s := s.toList.length
  size_scan := size_scan
  scan_of_end _ h := scan_of_end h

end TokenList

end Kaleidoscope
