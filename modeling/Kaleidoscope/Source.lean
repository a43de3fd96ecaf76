/-!
# Sources of characters

A program's text is not at hand all at once: at a terminal it arrives line by line, and the next line
must not be asked for before it is needed. So a source is something that is asked for one character
at a time, and how often it has been asked is part of what a scanner shows.

## An answer is not the end

A source may say that it has no more characters and go on when asked again: reading can fail in one
line and succeed in the next. That a scanner stops at the first such answer is a property of the
scanner, not of its sources.

## Why sources have a size

`CharSource.size` bounds the characters that are still to come, and a source that gives one gets
smaller. Everything that reads a source to its end terminates for this reason. A source without a size is
`Unbounded.Chars`.

## Main definitions

* `Fault` — why reading failed
* `Answer` — what a source gives when asked
* `CharSource` — what it takes to be a source
* `CharSource.text` — the characters up to the first answer without one
-/

namespace Kaleidoscope

/-- Why a line could not be read. -/
inductive Fault where
  /-- The device failed. -/
  | device (message : String)
  /-- The bytes of the line are not text. -/
  | notUtf8
  deriving DecidableEq, Repr

namespace Fault

/-- What went wrong, in words. -/
def message : Fault → String
  | device message => message
  | notUtf8 => "stream did not contain valid UTF-8"

end Fault

/-- What a source gives when asked for a character. -/
inductive Answer where
  | char (c : Char)
  /-- No character. -/
  | nothing
  /-- No character, as reading failed. -/
  | failed (fault : Fault)
  deriving DecidableEq, Repr

namespace Answer

/-- The character given, if any. -/
def char? : Answer → Option Char
  | char c => some c
  | _ => none

/-- The reason if reading failed. -/
def fault? : Answer → Option Fault
  | failed fault => some fault
  | _ => none

/-- One for a character. -/
def weight : Answer → Nat
  | char _ => 1
  | _ => 0

end Answer

/-- A source of characters: a way to ask for the next one, and a bound on those to come. -/
class CharSource (σ : Type) where
  /-- Asks for a character. -/
  next : σ → Answer × σ
  /-- No fewer than the characters to come. -/
  size : σ → Nat
  size_next : ∀ s, (next s).1.weight + size (next s).2 ≤ size s

namespace CharSource

variable {σ : Type} [CharSource σ]

theorem size_lt_of_next {s rest : σ} {c : Char} (h : next s = (.char c, rest)) :
    size rest < size s := by
  have bound := size_next s
  rw [h] at bound
  simp only [Answer.weight] at bound
  omega

/-- The characters of a source up to its first answer without one. -/
def text (s : σ) : List Char :=
  match _ : next s with
  | (.char c, rest) => c :: text rest
  | _ => []
termination_by size s
decreasing_by exact size_lt_of_next ‹_›

/-- A source has no more characters than its size allows. -/
theorem length_text_le (s : σ) : (text s).length ≤ size s := by
  fun_induction text s with
  | case1 s c rest h ih => exact Nat.le_trans (Nat.succ_le_succ ih) (size_lt_of_next h)
  | case2 s h => exact Nat.zero_le _

end CharSource

end Kaleidoscope
