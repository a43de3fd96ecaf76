import Kaleidoscope.Source
import Kaleidoscope.Text.Utf8

/-!
# Reading lines of bytes

Bytes arrive in chunks, whatever the device finds convenient; a chunk may end in the middle of a line
and even in the middle of a character. A reader keeps the rest of the last chunk and asks for another
only when that is used up.

## What ends a line

A line feed, or the device saying that it has no more: an empty chunk, or no chunk at all. Neither
closes the reader. A line that the device cuts off this way is a line all the same, and the next one
starts with the next chunk.

An interruption is no failure: the reader asks again. Any other failure loses the bytes gathered for
the line, which are gone from the device.

## Main definitions

* `Chunk`, `Reader` — what the device does, and where reading it has come to
* `LineRead` — one attempt to read a line, and `LineRead.text` for what it amounts to
* `Reader.attempt`, `Reader.readLine` — an attempt, and the reader after it

## Main results

* `Reader.size_attempt` — every byte is gathered once or still to come
* `Reader.size_readLine` — a line has no more characters than were bytes read for it
-/

namespace Kaleidoscope

/-- What a device does when asked for bytes. -/
inductive Chunk where
  /-- It delivers them; delivering none says that there are no more. -/
  | bytes (content : List UInt8)
  /-- It was interrupted and can be asked again. -/
  | interrupted
  /-- It fails. -/
  | failed (message : String)
  deriving DecidableEq, Repr

namespace Chunk

/-- The number of bytes delivered. -/
def size : Chunk → Nat
  | bytes content => content.length
  | _ => 0

/-- The number of bytes that several chunks deliver. -/
def totalSize : List Chunk → Nat
  | [] => 0
  | chunk :: later => chunk.size + totalSize later

end Chunk

/-- A reader over a device. -/
structure Reader where
  /-- The bytes delivered and not yet read. -/
  buffer : List UInt8
  /-- What the device will do. -/
  device : List Chunk
  /-- How many bytes have been read. -/
  consumed : Nat
  deriving DecidableEq, Repr

/-- An attempt to read a line. -/
structure LineRead where
  /-- The bytes read, with the line feed if there was one. -/
  gathered : List UInt8
  /-- The device's message if it failed. -/
  failure? : Option String
  /-- The bytes delivered and not read. -/
  buffer : List UInt8
  /-- What the device will do next. -/
  device : List Chunk
  deriving DecidableEq, Repr

namespace LineRead

/-- The line as text. If the device failed, that is the reason reported, whatever the bytes. -/
def text (a : LineRead) : Except Fault (List Char) :=
  match a.failure? with
  | some message => .error (.device message)
  | none =>
    match decodeUtf8 a.gathered with
    | some cs => .ok cs
    | none => .error .notUtf8

theorem length_le_of_text_eq_ok {a : LineRead} {cs : List Char} (h : a.text = .ok cs) :
    cs.length ≤ a.gathered.length := by
  unfold text at h
  split at h
  · simp at h
  · split at h
    · rename_i decoded
      rw [decodeUtf8_eq_some_iff] at decoded
      simp only [Except.ok.injEq] at h
      subst h
      rw [decoded]
      exact length_le_length_encodeUtf8 _
    · simp at h

end LineRead

namespace Reader

/-- A reader over a device that has not been asked yet. -/
def ofDevice (device : List Chunk) : Reader := ⟨[], device, 0⟩

/-- The byte that ends a line. -/
def lineFeed : UInt8 := 0x0A

/-- Reads to the end of the line, given what has been gathered of it and what is in the buffer. -/
def gather (gathered buffer : List UInt8) (device : List Chunk) : LineRead :=
  match buffer.dropWhile (· != lineFeed) with
  | feed :: rest => ⟨gathered ++ buffer.takeWhile (· != lineFeed) ++ [feed], none, rest, device⟩
  | [] =>
    match device with
    | [] => ⟨gathered ++ buffer, none, [], []⟩
    | .bytes [] :: later => ⟨gathered ++ buffer, none, [], later⟩
    | .bytes (b :: content) :: later => gather (gathered ++ buffer) (b :: content) later
    | .interrupted :: later => gather (gathered ++ buffer) [] later
    | .failed message :: later => ⟨gathered ++ buffer, some message, [], later⟩

/-- Attempts to read a line. -/
def attempt (r : Reader) : LineRead := gather [] r.buffer r.device

/-- The next line, empty if there are no more bytes, and the reader after it. -/
def readLine (r : Reader) : Except Fault (List Char) × Reader :=
  let a := r.attempt
  (a.text, ⟨a.buffer, a.device, r.consumed + a.gathered.length⟩)

/-! ### Every byte counts once -/

/-- The number of bytes to come. -/
def size (r : Reader) : Nat := r.buffer.length + Chunk.totalSize r.device

theorem size_gather (gathered buffer : List UInt8) (device : List Chunk) :
    (gather gathered buffer device).gathered.length +
        ((gather gathered buffer device).buffer.length +
          Chunk.totalSize (gather gathered buffer device).device) =
      gathered.length + (buffer.length + Chunk.totalSize device) := by
  induction device generalizing gathered buffer with
  | nil =>
    have parts := congrArg List.length (buffer.takeWhile_append_dropWhile (p := (· != lineFeed)))
    rw [gather.eq_def]
    split
    · rename_i feed rest h
      rw [h] at parts
      simp only [List.length_append, List.length_cons, List.length_nil] at parts ⊢
      omega
    · simp [Nat.add_assoc]
  | cons chunk later ih =>
    have parts := congrArg List.length (buffer.takeWhile_append_dropWhile (p := (· != lineFeed)))
    rw [gather.eq_def]
    split
    · rename_i feed rest h
      rw [h] at parts
      simp only [List.length_append, List.length_cons, List.length_nil] at parts ⊢
      omega
    · cases chunk with
      | bytes content =>
        cases content with
        | nil => simp [Chunk.size, Chunk.totalSize]; omega
        | cons b content => simp only [ih]; simp [Chunk.size, Chunk.totalSize]; omega
      | interrupted => simp only [ih]; simp [Chunk.size, Chunk.totalSize]; omega
      | failed message => simp [Chunk.size, Chunk.totalSize]; omega

/-- Every byte is gathered by the attempt or still to come. -/
theorem size_attempt (r : Reader) : r.attempt.gathered.length + r.readLine.2.size = r.size := by
  have h := size_gather [] r.buffer r.device
  simp only [List.length_nil, Nat.zero_add] at h
  exact h

/-- A line has no more characters than were bytes read for it. -/
theorem size_readLine {r : Reader} {cs : List Char} (h : r.readLine.1 = .ok cs) :
    cs.length + r.readLine.2.size ≤ r.size := by
  have := LineRead.length_le_of_text_eq_ok h
  have := size_attempt r
  omega

theorem size_readLine_le (r : Reader) : r.readLine.2.size ≤ r.size := by
  have := size_attempt r
  omega

end Reader

end Kaleidoscope
