import Kaleidoscope.Proofs.Source.Lines

/-!
# Text that is delivered in pieces

A device may cut a text anywhere, in the middle of a line or of a character, and it may be interrupted
in between. What a reader makes of it is the text, line by line. Two things are needed for that. The
reader puts the chunks together until it finds a line feed, so an attempt gathers the first line of all
bytes that are still to come. And the line feed is a byte that no other character has in its encoding,
so the first line of the bytes is the encoding of the first line of the text.

## Main definitions

* `Delivers` — a device that delivers the given bytes
* `firstLine`, `afterFirstLine` — a list up to its first line feed, and from there on
* `LineRead.GathersLine` — what an attempt should do with the bytes in front of it

## Main results

* `Reader.gathersLine_of_delivers` — an attempt gathers the first line
* `firstLine_encodeUtf8` — lines are the same of bytes and of characters
* `Reader.lines_of_delivers` — the lines of a reader make the text that is delivered
-/

namespace Kaleidoscope

/-- A device that delivers the given bytes, in chunks that are not empty, with interruptions but without
failures. -/
inductive Delivers : List Chunk → List UInt8 → Prop where
  | nil : Delivers [] []
  | bytes {later : List Chunk} {rest : List UInt8} (b : UInt8) (content : List UInt8)
    (h : Delivers later rest) : Delivers (.bytes (b :: content) :: later) (b :: content ++ rest)
  | interrupted {later : List Chunk} {bytes : List UInt8} (h : Delivers later bytes) :
    Delivers (.interrupted :: later) bytes

/-! ### The first line -/

section

variable {α : Type} [BEq α] [LawfulBEq α] {feed x : α} {xs ys rest : List α}

/-- A list up to and including the first line feed, if it has one. -/
def firstLine (feed : α) (xs : List α) : List α :=
  xs.takeWhile (· != feed) ++ (xs.dropWhile (· != feed)).take 1

/-- What stands behind the first line feed. -/
def afterFirstLine (feed : α) (xs : List α) : List α := (xs.dropWhile (· != feed)).drop 1

omit [LawfulBEq α] in
theorem firstLine_append_afterFirstLine (feed : α) (xs : List α) :
    firstLine feed xs ++ afterFirstLine feed xs = xs := by
  rw [firstLine, afterFirstLine, List.append_assoc, List.take_append_drop,
    List.takeWhile_append_dropWhile]

theorem firstLine_cons_self (feed : α) (xs : List α) : firstLine feed (feed :: xs) = [feed] := by
  simp [firstLine]

theorem afterFirstLine_cons_self (feed : α) (xs : List α) : afterFirstLine feed (feed :: xs) = xs := by
  simp [afterFirstLine]

theorem bne_of_not_mem (h : feed ∉ xs) : ∀ x ∈ xs, (x != feed) = true := fun _ hx =>
  bne_iff_ne.2 fun he => h (he ▸ hx)

theorem firstLine_append_of_not_mem (h : feed ∉ xs) (ys : List α) :
    firstLine feed (xs ++ ys) = xs ++ firstLine feed ys := by
  rw [firstLine, firstLine, List.takeWhile_append_of_pos (bne_of_not_mem h),
    List.dropWhile_append_of_pos (bne_of_not_mem h), List.append_assoc]

theorem afterFirstLine_append_of_not_mem (h : feed ∉ xs) (ys : List α) :
    afterFirstLine feed (xs ++ ys) = afterFirstLine feed ys := by
  rw [afterFirstLine, afterFirstLine, List.dropWhile_append_of_pos (bne_of_not_mem h)]

theorem not_mem_takeWhile (feed : α) (xs : List α) : feed ∉ xs.takeWhile (· != feed) := fun hmem =>
  absurd (List.all_eq_true.1 List.all_takeWhile feed hmem) (by simp)

theorem eq_of_dropWhile (h : xs.dropWhile (· != feed) = x :: rest) : x = feed := by
  have hx := List.head?_dropWhile_not (· != feed) xs
  rw [h] at hx
  simpa using hx

/-- Where a list stops at a line feed, a longer one does. -/
theorem firstLine_append_of_dropWhile (h : xs.dropWhile (· != feed) = x :: rest) (ys : List α) :
    firstLine feed (xs ++ ys) = xs.takeWhile (· != feed) ++ [x] ∧
      afterFirstLine feed (xs ++ ys) = rest ++ ys := by
  have hsplit := List.takeWhile_append_dropWhile (p := (· != feed)) (l := xs)
  rw [h] at hsplit
  have hfeed := eq_of_dropWhile h
  have hbefore := not_mem_takeWhile feed xs
  generalize xs.takeWhile (· != feed) = before at hsplit hbefore
  rw [← hsplit, hfeed, List.append_assoc, List.cons_append, firstLine_append_of_not_mem hbefore,
    afterFirstLine_append_of_not_mem hbefore, firstLine_cons_self, afterFirstLine_cons_self]
  exact ⟨rfl, rfl⟩

theorem dropWhile_eq_nil_iff : xs.dropWhile (· != feed) = [] ↔ feed ∉ xs := by
  constructor
  · intro h hmem
    have hsplit := List.takeWhile_append_dropWhile (p := (· != feed)) (l := xs)
    rw [h, List.append_nil] at hsplit
    rw [← hsplit] at hmem
    exact not_mem_takeWhile feed xs hmem
  · intro h
    rw [← List.append_nil xs, List.dropWhile_append_of_pos (bne_of_not_mem h)]
    rfl

end

/-! ### An attempt -/

/-- An attempt that has added the first line of `pending` to what was gathered before, and has left the
rest, in the buffer or on the device. -/
structure LineRead.GathersLine (gathered pending : List UInt8) (a : LineRead) : Prop where
  gathered_eq : a.gathered = gathered ++ firstLine Reader.lineFeed pending
  failure_eq : a.failure? = none
  exists_later : ∃ later, Delivers a.device later ∧
    a.buffer ++ later = afterFirstLine Reader.lineFeed pending

namespace Reader

variable {device : List Chunk} {bytes gathered buffer : List UInt8}

/-- Where the buffer holds a line feed, the device is not asked. -/
theorem gathersLine_of_mem (h : Delivers device bytes) (hmem : lineFeed ∈ buffer)
    (gathered : List UInt8) :
    (gather gathered buffer device).GathersLine gathered (buffer ++ bytes) := by
  cases hfeed : buffer.dropWhile (· != lineFeed) with
  | nil => exact absurd hmem (dropWhile_eq_nil_iff.1 hfeed)
  | cons feed rest =>
    obtain ⟨hline, hafter⟩ := firstLine_append_of_dropWhile hfeed bytes
    have hgather : gather gathered buffer device =
        ⟨gathered ++ buffer.takeWhile (· != lineFeed) ++ [feed], none, rest, device⟩ := by
      rw [gather.eq_def, hfeed]
    rw [hgather]
    exact ⟨by rw [hline, List.append_assoc], rfl, bytes, h, hafter.symm⟩

/-- Where it holds none, all of it is gathered first. -/
theorem gather_of_not_mem (h : lineFeed ∉ buffer) (gathered : List UInt8) (device : List Chunk) :
    gather gathered buffer device = gather (gathered ++ buffer) [] device := by
  rw [gather.eq_def, gather.eq_def (gathered ++ buffer), dropWhile_eq_nil_iff.2 h]
  cases device with
  | nil => simp
  | cons chunk later =>
    cases chunk with
    | bytes content => cases content <;> simp
    | interrupted => simp
    | failed message => simp

/-- An attempt does what it should if it does so with nothing in the buffer. -/
theorem gathersLine_of_nil (h : Delivers device bytes)
    (hnil : ∀ g, (gather g [] device).GathersLine g bytes) (gathered buffer : List UInt8) :
    (gather gathered buffer device).GathersLine gathered (buffer ++ bytes) := by
  by_cases hmem : lineFeed ∈ buffer
  · exact gathersLine_of_mem h hmem gathered
  · obtain ⟨hgathered, hfailure, hlater⟩ := hnil (gathered ++ buffer)
    rw [gather_of_not_mem hmem]
    rw [← afterFirstLine_append_of_not_mem hmem] at hlater
    refine ⟨?_, hfailure, hlater⟩
    rw [hgathered, firstLine_append_of_not_mem hmem, List.append_assoc]

/-- An attempt gathers the first line of all bytes to come, wherever they are cut, and leaves the
others. -/
theorem gathersLine_of_delivers (h : Delivers device bytes) (gathered buffer : List UInt8) :
    (gather gathered buffer device).GathersLine gathered (buffer ++ bytes) := by
  induction h generalizing gathered buffer with
  | nil => exact gathersLine_of_nil .nil (fun g => ⟨rfl, rfl, [], .nil, rfl⟩) gathered buffer
  | @bytes later rest b content h ih =>
    refine gathersLine_of_nil (.bytes b content h) (fun g => ?_) gathered buffer
    show (gather (g ++ []) (b :: content) later).GathersLine g (b :: content ++ rest)
    rw [List.append_nil]
    exact ih g (b :: content)
  | @interrupted later bytes h ih =>
    refine gathersLine_of_nil (.interrupted h) (fun g => ?_) gathered buffer
    show (gather (g ++ []) [] later).GathersLine g bytes
    rw [List.append_nil]
    exact ih g []

end Reader

/-! ### Lines of bytes and lines of characters -/

theorem utf8EncodeChar_lineFeed : String.utf8EncodeChar '\n' = [Reader.lineFeed] := by decide

/-- Only the line feed has the byte of the line feed in its encoding. -/
theorem lineFeed_not_mem_utf8EncodeChar {c : Char} (hc : c ≠ '\n') :
    Reader.lineFeed ∉ String.utf8EncodeChar c := by
  have hval : c.val.toNat ≠ 10 := fun h => hc (Char.ext (UInt32.toNat_inj.1 h))
  have hbyte : ∀ n, n < 256 → n ≠ 10 → Reader.lineFeed ≠ UInt8.ofNat n := by
    intro n hn h10 heq
    have htoNat := congrArg UInt8.toNat heq
    rw [UInt8.toNat_ofNat_of_lt' hn] at htoNat
    exact h10 htoNat.symm
  intro hmem
  rw [String.utf8EncodeChar] at hmem
  split at hmem
  · rw [List.mem_singleton] at hmem
    exact hbyte _ (by omega) hval hmem
  · split at hmem
    · simp only [List.mem_cons, List.not_mem_nil, or_false] at hmem
      rcases hmem with hmem | hmem <;> exact hbyte _ (by omega) (by omega) hmem
    · split at hmem
      · simp only [List.mem_cons, List.not_mem_nil, or_false] at hmem
        rcases hmem with hmem | hmem | hmem <;> exact hbyte _ (by omega) (by omega) hmem
      · simp only [List.mem_cons, List.not_mem_nil, or_false] at hmem
        rcases hmem with hmem | hmem | hmem | hmem <;> exact hbyte _ (by omega) (by omega) hmem

/-- The first line of the bytes of a text is that of the text, and so is the rest. -/
theorem firstLine_encodeUtf8 (text : List Char) :
    firstLine Reader.lineFeed (encodeUtf8 text) = encodeUtf8 (firstLine '\n' text) ∧
      afterFirstLine Reader.lineFeed (encodeUtf8 text) = encodeUtf8 (afterFirstLine '\n' text) := by
  induction text with
  | nil => exact ⟨rfl, rfl⟩
  | cons c text ih =>
    by_cases hc : c = '\n'
    · subst hc
      rw [encodeUtf8_cons, utf8EncodeChar_lineFeed, List.singleton_append, firstLine_cons_self,
        afterFirstLine_cons_self, firstLine_cons_self, afterFirstLine_cons_self]
      exact ⟨rfl, rfl⟩
    · have hbytes := lineFeed_not_mem_utf8EncodeChar hc
      have hchar : '\n' ∉ [c] := by simpa using Ne.symm hc
      rw [encodeUtf8_cons, firstLine_append_of_not_mem hbytes, afterFirstLine_append_of_not_mem hbytes,
        ← List.singleton_append, firstLine_append_of_not_mem hchar,
        afterFirstLine_append_of_not_mem hchar, ih.1, ih.2, List.singleton_append, encodeUtf8_cons]
      exact ⟨rfl, rfl⟩

namespace Reader

/-- A reader that has a text in front of it, some of it delivered and the rest still to come. -/
def Offers (r : Reader) (text : List Char) : Prop :=
  ∃ bytes, Delivers r.device bytes ∧ r.buffer ++ bytes = encodeUtf8 text

variable {r : Reader} {text : List Char}

/-- An attempt reads the first line of the text in front and leaves the rest of it. -/
theorem Offers.readLine (h : r.Offers text) :
    r.readLine.1 = .ok (firstLine '\n' text) ∧ r.readLine.2.Offers (afterFirstLine '\n' text) := by
  obtain ⟨bytes, hdevice, hbytes⟩ := h
  obtain ⟨hgathered, hfailure, later, hlater, hrest⟩ := gathersLine_of_delivers hdevice [] r.buffer
  obtain ⟨hline, hafter⟩ := firstLine_encodeUtf8 text
  rw [hbytes] at hgathered hrest
  refine ⟨?_, later, hlater, hrest.trans hafter⟩
  show r.attempt.text = _
  rw [LineRead.text, attempt, hfailure, hgathered, List.nil_append, hline, decodeUtf8_encodeUtf8]

/-- The lines of a reader make the text in front of it. -/
theorem Offers.flatten_lines (h : r.Offers text) : r.lines.flatten = text := by
  induction r using lines_induction generalizing text with
  | line r c cs hr ih =>
    obtain ⟨hline, hrest⟩ := h.readLine
    rw [lines_of_line hr, List.flatten_cons, ih hrest, Except.ok.inj (hr.symm.trans hline),
      firstLine_append_afterFirstLine]
  | stop r hr =>
    rw [lines_of_none hr]
    obtain ⟨hline, -⟩ := h.readLine
    cases text with
    | nil => rfl
    | cons c text =>
      by_cases hc : c = '\n'
      · rw [hc, firstLine_cons_self] at hline
        exact absurd hline (hr _ _)
      · have hchar : '\n' ∉ [c] := by simpa using Ne.symm hc
        rw [← List.singleton_append, firstLine_append_of_not_mem hchar] at hline
        exact absurd hline (hr _ _)

/-- The lines of a reader make the text that its device delivers. -/
theorem lines_of_delivers {device : List Chunk} (h : Delivers device (encodeUtf8 text)) :
    (ofDevice device).lines.flatten = text :=
  Offers.flatten_lines ⟨encodeUtf8 text, h, rfl⟩

end Reader

end Kaleidoscope
