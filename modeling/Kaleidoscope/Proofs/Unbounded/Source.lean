import Kaleidoscope.Unbounded.Scanner

/-!
# Sources that stop

A source need not have a size. It may go on for ever, and then whoever reads it to the end never gets
there. What is needed is less: that at some time it gives an answer without a character. It may go on
behind that, even for ever, as nobody asks again.

A source that stops is as good as one with a size, as long as it is asked no more than it takes to find
that out. `UpToStop` is the source with a size; what is read from it is read from the other one.

## Main definitions

* `StopsAfter` — the number of characters that a source gives before it stops
* `UpToStop` — a source with a size for one that stops
* `AnswersAs` — a source with a size that answers for another one

## Main results

* `UpToStop.answersAs` — the source with a size answers for the one that stops
-/

namespace Kaleidoscope

namespace Unbounded

variable {σ : Type}

/-- A source that gives `n` characters and then an answer without one. -/
def StopsAfter (w : Chars σ) : Nat → σ → Prop
  | 0, s => ∀ c, (w.next s).1 ≠ .char c
  | n + 1, s => (∃ c, (w.next s).1 = .char c) ∧ StopsAfter w n (w.next s).2

/-- A source that stops, up to where it does. When it has been asked for more than its characters, it is
spent. -/
inductive UpToStop (w : Chars σ) where
  | running (n : Nat) (s : σ) (h : StopsAfter w n s)
  | spent (s : σ)

namespace UpToStop

variable {w : Chars σ}

/-- The source itself. -/
def source : UpToStop w → σ
  | running _ s _ => s
  | spent s => s

/-- Whether there is more to be asked for. -/
def IsRunning : UpToStop w → Prop
  | running .. => True
  | spent _ => False

/-- Asks for the next character, unless the source is spent. -/
def ask : UpToStop w → Answer × UpToStop w
  | running 0 s _ => ((w.next s).1, spent (w.next s).2)
  | running (n + 1) s h => ((w.next s).1, running n (w.next s).2 h.2)
  | spent s => (.nothing, spent s)

/-- The number of characters to come. -/
def size : UpToStop w → Nat
  | running n _ _ => n
  | spent _ => 0

theorem size_ask (s : UpToStop w) : s.ask.1.weight + s.ask.2.size ≤ s.size := by
  cases s with
  | running n s h =>
    cases n with
    | zero =>
      cases hs : (w.next s).1 with
      | char c => exact absurd hs (h c)
      | nothing => simp [ask, hs, size, Answer.weight]
      | failed fault => simp [ask, hs, size, Answer.weight]
    | succ n =>
      obtain ⟨c, hc⟩ := h.1
      simp [ask, hc, size, Answer.weight, Nat.add_comm]
  | spent s => exact Nat.le_refl 0

instance : CharSource (UpToStop w) where
  next := ask
  size := size
  size_next := size_ask

end UpToStop

/-- A source with a size that answers for another one, which is at `place s` when this one is at `s`. It
does so as long as it is ready, and it is ready after every character. -/
structure AnswersAs {ρ : Type} [CharSource ρ] (w : Chars σ) (place : ρ → σ) (ready : ρ → Prop) :
    Prop where
  next_eq : ∀ s, ready s → w.next (place s) = ((CharSource.next s).1, place (CharSource.next s).2)
  ready_next : ∀ s c, ready s → (CharSource.next s).1 = .char c → ready (CharSource.next s).2

/-- A source that stops has a source with a size to answer for it. -/
theorem UpToStop.answersAs (w : Chars σ) : AnswersAs w (source : UpToStop w → σ) IsRunning := by
  refine ⟨fun s hs => ?_, fun s c hs hc => ?_⟩
  · match s with
    | running 0 s h => rfl
    | running (n + 1) s h => rfl
  · match s with
    | running 0 s h => exact absurd hc (h c)
    | running (n + 1) s h => exact trivial

/-- A source with a size answers for itself. -/
theorem answersAs_self (ρ : Type) [CharSource ρ] :
    AnswersAs (⟨CharSource.next⟩ : Chars ρ) id fun _ => True :=
  ⟨fun _ _ => rfl, fun _ _ _ _ => trivial⟩

end Unbounded

end Kaleidoscope
