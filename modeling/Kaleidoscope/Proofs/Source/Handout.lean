import Kaleidoscope.Proofs.Source.Lines
import Kaleidoscope.Proofs.Source.Signals
import Kaleidoscope.Source.LineCursor

/-!
# Handing out lines

Whoever asks for characters gets those of the lines, one attempt to read a line after the other. An
attempt that gives no line is worth one answer, and the next one may give a line again. Nothing is lost
over that, or given twice.

The invariant is about the place in the line. It lies in the line or at its end. What has been given so
far, together with what stands from the place on, is all that the attempts so far are worth. At the end
of the line nothing is left of them, so another attempt is made there, and nowhere else. If it gives a
line, the line has a character to start with.

## Main definitions

* `CharSource.answers` — the first answers of a source
* `LineRead.answers` — what an attempt is worth
* `Reader.reads`, `Reader.after` — several attempts, and the reader after them
* `LineCursor.StandsAfter` — the invariant

## Main results

* `LineCursor.StandsAfter.next` — one call
* `LineCursor.StandsAfter.calls` — several calls
* `LineReader.Alike.answers` — readers with the same signals give the same characters
* `LineCursor.hands_out_lines` — all calls, over all devices
-/

namespace Kaleidoscope

/-- The first `n` answers of a source. -/
def CharSource.answers {σ : Type} [CharSource σ] : Nat → σ → List Answer
  | 0, _ => []
  | n + 1, s => (next s).1 :: answers n (next s).2

theorem CharSource.length_answers {σ : Type} [CharSource σ] (n : Nat) (s : σ) :
    (answers n s).length = n := by
  induction n generalizing s with
  | zero => rfl
  | succ n ih => rw [answers, List.length_cons, ih]

/-- What an attempt is worth: the characters of its line, or a single answer without a character if it
failed, read nothing, or read what is no text. -/
def LineRead.answers (a : LineRead) : List Answer :=
  match a.failure? with
  | some message => [.failed (.device message)]
  | none =>
    if a.gathered = [] then [.nothing]
    else
      match decodeUtf8 a.gathered with
      | some line => line.map .char
      | none => [.failed .notUtf8]

namespace Reader

/-- The reader after `k` attempts. -/
def after : Nat → Reader → Reader
  | 0, r => r
  | k + 1, r => after k r.readLine.2

/-- The first `k` attempts. -/
def reads : Nat → Reader → List LineRead
  | 0, _ => []
  | k + 1, r => r.attempt :: reads k r.readLine.2

theorem after_succ (k : Nat) (r : Reader) : r.after (k + 1) = (r.after k).readLine.2 := by
  induction k generalizing r with
  | zero => rfl
  | succ k ih => exact ih r.readLine.2

theorem reads_add (j k : Nat) (r : Reader) : r.reads (j + k) = r.reads j ++ (r.after j).reads k := by
  induction j generalizing r with
  | zero => rw [Nat.zero_add]; rfl
  | succ j ih =>
    rw [Nat.add_right_comm]
    exact congrArg (r.attempt :: ·) (ih r.readLine.2)

theorem reads_succ (k : Nat) (r : Reader) : r.reads (k + 1) = r.reads k ++ [(r.after k).attempt] :=
  reads_add k 1 r

/-- An attempt gives a line, no bytes, or a fault, and is worth as much. -/
theorem readLine_cases (r : Reader) :
    (∃ c cs, r.readLine.1 = .ok (c :: cs) ∧ r.attempt.answers = (c :: cs).map .char) ∨
      (r.readLine.1 = .ok [] ∧ r.attempt.answers = [.nothing]) ∨
      ∃ fault, r.readLine.1 = .error fault ∧ r.attempt.answers = [.failed fault] := by
  show (∃ c cs, r.attempt.text = .ok (c :: cs) ∧ _) ∨ (r.attempt.text = .ok [] ∧ _) ∨
    ∃ fault, r.attempt.text = .error fault ∧ _
  rw [LineRead.text, LineRead.answers]
  cases r.attempt.failure? with
  | some message => exact .inr (.inr ⟨_, rfl, rfl⟩)
  | none =>
    by_cases hbytes : r.attempt.gathered = []
    · have hnone : decodeUtf8 [] = some [] := decodeUtf8_encodeUtf8 []
      rw [if_pos hbytes, hbytes, hnone]
      exact .inr (.inl ⟨rfl, rfl⟩)
    · simp only [if_neg hbytes]
      cases hline : decodeUtf8 r.attempt.gathered with
      | none => exact .inr (.inr ⟨_, rfl, rfl⟩)
      | some line =>
        cases line with
        | nil => exact absurd (decodeUtf8_eq_some_iff.1 hline) hbytes
        | cons c cs => exact .inl ⟨c, cs, rfl, rfl⟩

end Reader

/-! ### The place in the line -/

namespace LineCursor

/-- What is left of the line, and the reader. -/
def unread (s : LineCursor) : LineReader := ⟨s.line.drop s.pos, s.reader⟩

/-- The invariant of a reader that was `r` and has given some answers since. -/
structure StandsAfter (r : Reader) (given : List Answer) (s : LineCursor) : Prop where
  pos_le : s.pos ≤ s.line.length
  reader_eq : s.reader = r.after s.attempts
  /-- What has been given and what is left of the line is what the attempts are worth. -/
  given_append : given ++ (s.line.drop s.pos).map .char = (r.reads s.attempts).flatMap LineRead.answers

variable {r : Reader} {given : List Answer} {s : LineCursor}

theorem handOut_of_lt (h : s.pos < s.line.length) :
    s.handOut = some (.char s.line[s.pos], { s with pos := s.pos + 1 }) := by
  rw [handOut, List.getElem?_eq_getElem h]
  rfl

/-- In the line, its next character is given and no attempt is made. -/
theorem StandsAfter.handOut (h : StandsAfter r given s) (hlt : s.pos < s.line.length) :
    ∃ a s', s.handOut = some (a, s') ∧ s.unread.next = (a, s'.unread) ∧
      StandsAfter r (given ++ [a]) s' ∧ s'.attempts = s.attempts := by
  have hdrop : s.line.drop s.pos = s.line[s.pos] :: s.line.drop (s.pos + 1) :=
    List.drop_eq_getElem_cons hlt
  have hgiven := h.given_append
  rw [hdrop, List.map_cons, List.append_cons] at hgiven
  refine ⟨_, _, handOut_of_lt hlt, ?_, ⟨hlt, h.reader_eq, hgiven⟩, rfl⟩
  rw [unread, hdrop]
  rfl

/-- At the end of the line an attempt is made, and what it is worth comes next. -/
theorem StandsAfter.attempt (h : StandsAfter r given s) (hend : s.pos = s.line.length) :
    ∃ a s', s.next = some (a, s') ∧ s.unread.next = (a, s'.unread) ∧
      StandsAfter r (given ++ [a]) s' ∧ s'.attempts = s.attempts + 1 := by
  have hdrop : s.line.drop s.pos = [] := List.drop_eq_nil_of_le (Nat.le_of_eq hend.symm)
  have hunread : s.unread = ⟨[], s.reader⟩ := by rw [unread, hdrop]
  have hgiven : (r.reads (s.attempts + 1)).flatMap LineRead.answers =
      given ++ s.reader.attempt.answers := by
    have hsofar := h.given_append
    rw [hdrop, List.map_nil, List.append_nil] at hsofar
    rw [Reader.reads_succ, List.flatMap_append, ← hsofar, h.reader_eq, List.flatMap_singleton]
  have hreader : s.reader.readLine.2 = r.after (s.attempts + 1) := by
    rw [Reader.after_succ, h.reader_eq]
  have hcases := s.reader.readLine_cases
  rw [hunread, LineReader.next, next, if_pos hend]
  generalize s.reader.readLine = read at hcases hreader
  obtain ⟨result, rest⟩ := read
  obtain rfl : rest = r.after (s.attempts + 1) := hreader
  rcases hcases with ⟨c, cs, hline, hworth⟩ | ⟨hline, hworth⟩ | ⟨fault, hline, hworth⟩
  · obtain rfl : result = .ok (c :: cs) := hline
    rw [hworth] at hgiven
    exact ⟨_, ⟨c :: cs, 1, _, _⟩, rfl, rfl, ⟨Nat.le_add_left .., rfl, by rw [hgiven]; simp⟩, rfl⟩
  · obtain rfl : result = .ok [] := hline
    rw [hworth] at hgiven
    exact ⟨_, { s with reader := _, attempts := _ }, rfl, by rw [unread, hdrop],
      ⟨h.pos_le, rfl, by rw [hgiven, hdrop]; simp⟩, rfl⟩
  · obtain rfl : result = .error fault := hline
    rw [hworth] at hgiven
    exact ⟨_, { s with reader := _, attempts := _ }, rfl, by rw [unread, hdrop],
      ⟨h.pos_le, rfl, by rw [hgiven, hdrop]; simp⟩, rfl⟩

/-- One call. The place is in the line if it has to be, and an attempt is made only at the end of the
line. -/
theorem StandsAfter.next (h : StandsAfter r given s) :
    ∃ a s', s.next = some (a, s') ∧ s.unread.next = (a, s'.unread) ∧ StandsAfter r (given ++ [a]) s' ∧
      s'.attempts = if s.pos = s.line.length then s.attempts + 1 else s.attempts := by
  by_cases hend : s.pos = s.line.length
  · rw [if_pos hend]
    exact h.attempt hend
  · rw [if_neg hend, LineCursor.next, if_neg hend]
    exact h.handOut (Nat.lt_of_le_of_ne h.pos_le hend)

/-- Several calls. -/
theorem StandsAfter.calls (h : StandsAfter r given s) (n : Nat) :
    ∃ s', s.calls n = some (CharSource.answers n s.unread, s') ∧
      s'.unread = CharSource.skip n s.unread ∧
      StandsAfter r (given ++ CharSource.answers n s.unread) s' ∧ s'.attempts ≤ s.attempts + n := by
  induction n generalizing given s with
  | zero => exact ⟨s, rfl, rfl, by rwa [CharSource.answers, List.append_nil], Nat.le_refl _⟩
  | succ n ih =>
    obtain ⟨a, t, hnext, hunread, ht, hattempts⟩ := h.next
    obtain ⟨s', hcalls, hskip, hs', hle⟩ := ih ht
    have hsource : CharSource.next s.unread = (a, t.unread) := hunread
    rw [CharSource.answers, CharSource.skip, hsource, LineCursor.calls, hnext]
    refine ⟨s', ?_, hskip, ?_, ?_⟩
    · show (LineCursor.calls n t).map _ = _
      rw [hcalls]
      rfl
    · rwa [List.append_cons]
    · split at hattempts <;> omega

theorem standsAfter_start (r : Reader) : StandsAfter r [] ⟨[], 0, r, 0⟩ := ⟨Nat.le_refl _, rfl, rfl⟩

end LineCursor

/-- The answers of a reader are what the attempts are worth, one after the other. Every attempt is worth
at least one, so `n` attempts are enough. -/
theorem LineReader.answers_eq (n : Nat) (r : Reader) :
    CharSource.answers n (⟨[], r⟩ : LineReader) = ((r.reads n).flatMap LineRead.answers).take n := by
  obtain ⟨s, -, -, hs, hle⟩ := (LineCursor.standsAfter_start r).calls n
  rw [Nat.zero_add] at hle
  obtain ⟨later, hlater⟩ := Nat.exists_eq_add_of_le hle
  have hgiven : CharSource.answers n (⟨[], r⟩ : LineReader) ++ (s.line.drop s.pos).map .char =
      (r.reads s.attempts).flatMap LineRead.answers := hs.given_append
  have hprefix : CharSource.answers n (⟨[], r⟩ : LineReader) <+:
      (r.reads n).flatMap LineRead.answers := by
    rw [hlater, Reader.reads_add, List.flatMap_append, ← hgiven, List.append_assoc, ← hlater]
    exact List.prefix_append ..
  have htake := List.prefix_iff_eq_take.1 hprefix
  rwa [CharSource.length_answers] at htake

/-! ### Readers with the same signals -/

namespace LineReader

/-- As much of the same line is left, and the readers are alike. -/
structure Alike (s s' : LineReader) : Prop where
  line_eq : s.line = s'.line
  reader : s.reader.Alike s'.reader

variable {s s' : LineReader}

theorem Alike.next (h : s.Alike s') : s.next.1 = s'.next.1 ∧ s.next.2.Alike s'.next.2 := by
  obtain ⟨line, r⟩ := s
  obtain ⟨line', r'⟩ := s'
  obtain rfl : line = line' := h.line_eq
  cases line with
  | cons c line => exact ⟨rfl, rfl, h.reader⟩
  | nil =>
    obtain ⟨hline, hrest⟩ := h.reader.readLine
    rw [LineReader.next, LineReader.next]
    generalize r.readLine = read at hline hrest
    generalize r'.readLine = read' at hline hrest
    obtain ⟨result, rest⟩ := read
    obtain ⟨result', rest'⟩ := read'
    obtain rfl : result = result' := hline
    rcases result with fault | _ | ⟨c, cs⟩ <;> exact ⟨rfl, rfl, hrest⟩

/-- Readers with the same signals give the same characters, and have consumed as much after each of
them. -/
theorem Alike.answers (h : s.Alike s') (n : Nat) :
    CharSource.answers n s = CharSource.answers n s' ∧
      (CharSource.skip n s).Alike (CharSource.skip n s') := by
  induction n generalizing s s' with
  | zero => exact ⟨rfl, h⟩
  | succ n ih =>
    obtain ⟨hanswer, hrest⟩ := h.next
    obtain ⟨hanswers, hskip⟩ := ih hrest
    refine ⟨?_, hskip⟩
    have hhead : (CharSource.next s).1 = (CharSource.next s').1 := hanswer
    rw [CharSource.answers, CharSource.answers, hhead]
    exact congrArg ((CharSource.next s').1 :: ·) hanswers

end LineReader

/-! ### All calls -/

/-- However many characters are asked for, the place is always in the line where a character is taken
from it. The answers are those of the source that keeps only what is left of the line. Together with what
is left of the line they are what the attempts so far are worth, and the next call makes another attempt
if nothing is left, and only then. Another device that delivers the same bytes in other chunks, or is
interrupted elsewhere, leads to the same answers, for as many bytes. -/
theorem LineCursor.hands_out_lines (device : List Chunk) (n : Nat) :
    (∃ s, (LineCursor.ofDevice device).calls n =
          some (CharSource.answers n (LineReader.ofDevice device), s) ∧
        s.unread = CharSource.skip n (LineReader.ofDevice device) ∧
        s.StandsAfter (Reader.ofDevice device) (CharSource.answers n (LineReader.ofDevice device)) ∧
        ∃ a s', s.next = some (a, s') ∧
          s'.attempts = if s.pos = s.line.length then s.attempts + 1 else s.attempts) ∧
      CharSource.answers n (LineReader.ofDevice device) =
        (((Reader.ofDevice device).reads n).flatMap LineRead.answers).take n ∧
      ∀ device', Rechunked device device' →
        CharSource.answers n (LineReader.ofDevice device) =
            CharSource.answers n (LineReader.ofDevice device') ∧
          (CharSource.skip n (LineReader.ofDevice device)).consumed =
            (CharSource.skip n (LineReader.ofDevice device')).consumed := by
  refine ⟨?_, LineReader.answers_eq n _, fun device' h => ?_⟩
  · obtain ⟨s, hcalls, hskip, hs, -⟩ := (standsAfter_start (.ofDevice device)).calls n
    obtain ⟨a, s', hnext, -, -, hattempts⟩ := hs.next
    exact ⟨s, hcalls, hskip, hs, a, s', hnext, hattempts⟩
  · have halike : (LineReader.ofDevice device).Alike (LineReader.ofDevice device') := ⟨rfl, h.alike⟩
    obtain ⟨hanswers, hskip⟩ := halike.answers n
    exact ⟨hanswers, hskip.reader.consumed_eq⟩

/-- A character is cut in two, a line is lost to a failure, the end comes twice, and one line is no text. -/
theorem LineCursor.hands_out_lines_in_other_chunks :
    let device : List Chunk := [.bytes [0x61, 0xC3], .interrupted, .bytes [0xA9, 0x0A, 0x62], .failed "cut",
      .bytes [], .bytes [0xFF, 0x0A, 0x63]]
    let device' : List Chunk := [.bytes [0x61], .bytes [0xC3, 0xA9, 0x0A], .bytes [0x62], .failed "cut",
      .bytes [], .bytes [0xFF], .interrupted, .bytes [0x0A, 0x63]]
    Rechunked device device' ∧
      CharSource.answers 8 (LineReader.ofDevice device') =
        [.char 'a', .char 'é', .char '\n', .failed (.device "cut"), .nothing, .failed .notUtf8, .char 'c',
          .nothing] ∧
      (CharSource.skip 8 (LineReader.ofDevice device')).consumed = 8 := by
  intro device device'
  have hrechunked : Rechunked device device' := rechunked_iff.2 (by decide)
  obtain ⟨hanswers, hconsumed⟩ := (hands_out_lines device 8).2.2 device' hrechunked
  rw [← hanswers, ← hconsumed]
  exact ⟨hrechunked, by decide⟩

end Kaleidoscope
