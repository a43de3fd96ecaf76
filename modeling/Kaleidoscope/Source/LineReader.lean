import Kaleidoscope.Source.Reader

/-!
# Characters from a reader, line by line

The characters of the lines of a reader. A line is read only when a character is asked for and the
line before is used up, so whoever asks for one character at a time waits for input exactly when one
more character is needed.

A line that cannot be read is one answer without a character, and so is the end of the bytes. Asking
again reads on.
-/

namespace Kaleidoscope

/-- What is left of the line being handed out, and the reader. -/
structure LineReader where
  line : List Char
  reader : Reader
  deriving DecidableEq, Repr

namespace LineReader

/-- The characters of a device. -/
def ofDevice (device : List Chunk) : LineReader := ⟨[], .ofDevice device⟩

/-- How many bytes have been read. -/
def consumed (s : LineReader) : Nat := s.reader.consumed

/-- The next character. -/
def next (s : LineReader) : Answer × LineReader :=
  match s.line with
  | c :: cs => (.char c, ⟨cs, s.reader⟩)
  | [] =>
    match s.reader.readLine with
    | (.ok (c :: cs), rest) => (.char c, ⟨cs, rest⟩)
    | (.ok [], rest) => (.nothing, ⟨[], rest⟩)
    | (.error fault, rest) => (.failed fault, ⟨[], rest⟩)

/-- The characters at hand and the bytes to come. -/
def size (s : LineReader) : Nat := s.line.length + s.reader.size

theorem size_next (s : LineReader) : s.next.1.weight + s.next.2.size ≤ s.size := by
  obtain ⟨line, reader⟩ := s
  unfold next
  cases line with
  | cons c cs => simp [Answer.weight, size]; omega
  | nil =>
    have bound := reader.size_readLine_le
    dsimp only
    split
    · rename_i c cs rest h
      have : (c :: cs).length + reader.readLine.2.size ≤ reader.size :=
        Reader.size_readLine (by rw [h])
      rw [h] at this
      simp [Answer.weight, size] at this ⊢
      omega
    · rename_i rest h
      rw [h] at bound
      simpa [Answer.weight, size] using bound
    · rename_i fault rest h
      rw [h] at bound
      simpa [Answer.weight, size] using bound

instance : CharSource LineReader where
  next := next
  size := size
  size_next := size_next

end LineReader

end Kaleidoscope
