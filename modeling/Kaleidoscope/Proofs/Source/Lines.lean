import Kaleidoscope.Proofs.Scanner.Lookahead
import Kaleidoscope.Source.LineReader

/-!
# Lines of a reader

A reader at a terminal is never finished: an attempt that finds no bytes, fails, or finds bytes that are
no text gives no line, and the next attempt may give one again. A scanner over it, however, stops for
good at the first answer without a character. So of all that a reader would give, the lines before the
first attempt without one are what counts, and the reader after that attempt is where it stays.

## Main definitions

* `Reader.lines` — the lines before the first attempt that gives none
* `Reader.stopped` — the reader after that attempt

## Main results

* `LineReader.text_eq` — the text of a reader is made of these lines
* `LineReader.skip_text` — when it has been asked for more than that, the reader has stopped
* `LineReader.consumed_skip_le` — until then it has consumed no more
-/

namespace Kaleidoscope

namespace Reader

theorem size_readLine_lt {r : Reader} {c : Char} {cs : List Char} (h : r.readLine.1 = .ok (c :: cs)) :
    r.readLine.2.size < r.size := by
  have := size_readLine h
  rw [List.length_cons] at this
  omega

/-- The lines before the first attempt that gives none. -/
def lines (r : Reader) : List (List Char) :=
  match _ : r.readLine.1 with
  | .ok (c :: cs) => (c :: cs) :: lines r.readLine.2
  | _ => []
termination_by r.size
decreasing_by exact size_readLine_lt ‹_›

/-- The reader after the first attempt that gives no line. -/
def stopped (r : Reader) : Reader :=
  match _ : r.readLine.1 with
  | .ok (_ :: _) => stopped r.readLine.2
  | _ => r.readLine.2
termination_by r.size
decreasing_by exact size_readLine_lt ‹_›

variable {r : Reader} {c : Char} {cs : List Char}

theorem lines_of_line (h : r.readLine.1 = .ok (c :: cs)) :
    r.lines = (c :: cs) :: r.readLine.2.lines := by
  rw [lines]
  split
  · rename_i d ds hd
    obtain ⟨rfl, rfl⟩ := List.cons.inj (Except.ok.inj (h.symm.trans hd))
    rfl
  · rename_i hne
    exact absurd h (hne c cs)

theorem lines_of_none (h : ∀ c cs, r.readLine.1 ≠ .ok (c :: cs)) : r.lines = [] := by
  rw [lines]
  split
  · rename_i c cs hc
    exact absurd hc (h c cs)
  · rfl

theorem stopped_of_line (h : r.readLine.1 = .ok (c :: cs)) : r.stopped = r.readLine.2.stopped := by
  rw [stopped]
  split
  · rfl
  · rename_i hne
    exact absurd h (hne c cs)

theorem stopped_of_none (h : ∀ c cs, r.readLine.1 ≠ .ok (c :: cs)) : r.stopped = r.readLine.2 := by
  rw [stopped]
  split
  · rename_i c cs hc
    exact absurd hc (h c cs)
  · rfl

/-- An attempt gives a line or none. -/
theorem line_or_none (r : Reader) :
    (∃ c cs, r.readLine.1 = .ok (c :: cs)) ∨ ∀ c cs, r.readLine.1 ≠ .ok (c :: cs) := by
  by_cases h : ∃ c cs, r.readLine.1 = .ok (c :: cs)
  · exact .inl h
  · exact .inr fun c cs hc => h ⟨c, cs, hc⟩

/-- Induction along the lines. -/
@[elab_as_elim]
theorem lines_induction {motive : Reader → Prop}
    (line : ∀ r c cs, r.readLine.1 = .ok (c :: cs) → motive r.readLine.2 → motive r)
    (stop : ∀ r, (∀ c cs, r.readLine.1 ≠ .ok (c :: cs)) → motive r) (r : Reader) : motive r := by
  induction hn : r.size using Nat.strongRecOn generalizing r with
  | ind n ih =>
    rcases line_or_none r with ⟨c, cs, h⟩ | h
    · exact line r c cs h (ih _ (hn ▸ size_readLine_lt h) _ rfl)
    · exact stop r h

end Reader

namespace LineReader

variable {r : Reader} {c : Char} {cs : List Char}

theorem next_of_line (h : r.readLine.1 = .ok (c :: cs)) :
    CharSource.next (⟨[], r⟩ : LineReader) = (.char c, ⟨cs, r.readLine.2⟩) := by
  rcases hr : r.readLine with ⟨result, rest⟩
  rw [hr] at h
  obtain rfl : result = .ok (c :: cs) := h
  show next ⟨[], r⟩ = _
  simp only [next, hr]

/-- Where an attempt gives no line, there is no character, and the attempt has been made. -/
theorem next_of_none (h : ∀ c cs, r.readLine.1 ≠ .ok (c :: cs)) :
    (∀ c, (CharSource.next (⟨[], r⟩ : LineReader)).1 ≠ .char c) ∧
      (CharSource.next (⟨[], r⟩ : LineReader)).2 = ⟨[], r.readLine.2⟩ := by
  rcases hr : r.readLine with ⟨result, rest⟩
  rw [hr] at h
  show (∀ c, (next ⟨[], r⟩).1 ≠ .char c) ∧ (next ⟨[], r⟩).2 = ⟨[], rest⟩
  match result with
  | .ok (c :: cs) => exact absurd rfl (h c cs)
  | .ok [] => simp [next, hr]
  | .error fault => simp [next, hr]

/-! ### The text of a reader -/

theorem text_append (line : List Char) (r : Reader) :
    CharSource.text (⟨line, r⟩ : LineReader) = line ++ CharSource.text (⟨[], r⟩ : LineReader) := by
  induction line with
  | nil => rfl
  | cons c line ih =>
    rw [CharSource.text]
    exact congrArg (c :: ·) ih

/-- The text of a reader is made of the lines before the first attempt that gives none. -/
theorem text_eq (r : Reader) : CharSource.text (⟨[], r⟩ : LineReader) = r.lines.flatten := by
  induction r using Reader.lines_induction with
  | line r c cs h ih =>
    rw [CharSource.text, Reader.lines_of_line h]
    split
    · rename_i d rest hd
      obtain ⟨hc, rfl⟩ := Prod.mk.inj ((next_of_line h).symm.trans hd)
      obtain rfl := Answer.char.inj hc
      rw [text_append, ih]
      rfl
    · rename_i hd
      exact absurd (next_of_line h) (hd c _)
  | stop r h =>
    rw [CharSource.text, Reader.lines_of_none h]
    split
    · rename_i d rest hd
      exact absurd (congrArg Prod.fst hd) ((next_of_none h).1 d)
    · rfl

/-! ### What has been consumed -/

theorem skip_line (line : List Char) (r : Reader) :
    CharSource.skip line.length (⟨line, r⟩ : LineReader) = ⟨[], r⟩ := by
  induction line with
  | nil => rfl
  | cons c line ih => exact ih

/-- When it has been asked for its text and for one character more, a reader has stopped. -/
theorem skip_text (r : Reader) :
    CharSource.skip ((CharSource.text (⟨[], r⟩ : LineReader)).length + 1) (⟨[], r⟩ : LineReader) =
      ⟨[], r.stopped⟩ := by
  rw [text_eq]
  induction r using Reader.lines_induction with
  | line r c cs h ih =>
    rw [Reader.lines_of_line h, Reader.stopped_of_line h, ← ih, List.flatten_cons, List.length_append,
      List.length_cons, Nat.add_right_comm cs.length, Nat.add_right_comm (cs.length + _),
      CharSource.skip, next_of_line h, Nat.add_assoc, CharSource.skip_add, skip_line]
  | stop r h =>
    rw [Reader.lines_of_none h, Reader.stopped_of_none h]
    exact (next_of_none h).2

theorem consumed_le_consumed_next (s : LineReader) : s.consumed ≤ (CharSource.next s).2.consumed := by
  obtain ⟨line, r⟩ := s
  cases line with
  | cons c line => exact Nat.le_refl _
  | nil =>
    have hreader : r.consumed ≤ r.readLine.2.consumed := Nat.le_add_right ..
    rcases r.line_or_none with ⟨c, cs, h⟩ | h
    · rw [next_of_line h]
      exact hreader
    · rw [(next_of_none h).2]
      exact hreader

theorem consumed_le_consumed_skip (s : LineReader) (k : Nat) :
    s.consumed ≤ (CharSource.skip k s).consumed := by
  induction k generalizing s with
  | zero => exact Nat.le_refl _
  | succ k ih => exact Nat.le_trans (consumed_le_consumed_next s) (ih _)

/-- As long as a reader has been asked for no more than its text and one character, it has consumed no
more than it has when it stops. -/
theorem consumed_skip_le {r : Reader} {k : Nat}
    (hk : k ≤ (CharSource.text (⟨[], r⟩ : LineReader)).length + 1) :
    (CharSource.skip k (⟨[], r⟩ : LineReader)).consumed ≤ r.stopped.consumed := by
  obtain ⟨j, hj⟩ := Nat.exists_eq_add_of_le hk
  have hskip := skip_text r
  rw [hj, CharSource.skip_add] at hskip
  have hle := consumed_le_consumed_skip (CharSource.skip k (⟨[], r⟩ : LineReader)) j
  rwa [hskip] at hle

end LineReader

end Kaleidoscope
