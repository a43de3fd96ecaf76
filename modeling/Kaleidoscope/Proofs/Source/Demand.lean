import Kaleidoscope.Proofs.Source.Delivery

/-!
# What a character costs

A reader consumes whole lines. So what it takes to hand out the character with a given number is the text
up to the end of the line in which that character stands, and a reader that has been asked for it has
consumed that and nothing else, whatever the chunks that the text has come in. At the end of the text all
of it has been consumed, and the attempt that finds no more costs nothing.

The proof is along the lines. Either the character stands in the first one, which is then the only one to
be read, or it stands in what is left behind it.

## Main definitions

* `throughLine` — a text up to the end of the line in which a given character stands

## Main results

* `throughLine_of_line` — that is where the next line feed stands
* `Reader.Offers.skip` — what a reader has consumed that has been asked for a given character
-/

namespace Kaleidoscope

/-- The text up to the end of the line in which the character with the number `n` stands, from zero on.
If there is no such character, that is all of the text. -/
def throughLine (text : List Char) (n : Nat) : List Char := text.take n ++ firstLine '\n' (text.drop n)

section

variable {text before line after : List Char} {n : Nat}

/-- Without a line feed between the character and `after`, the line goes on there. -/
theorem throughLine_append (hn : n ≤ before.length) (hfeed : '\n' ∉ before.drop n) (after : List Char) :
    throughLine (before ++ after) n = before ++ firstLine '\n' after := by
  rw [throughLine, List.take_append_of_le_length hn, List.drop_append_of_le_length hn,
    firstLine_append_of_not_mem hfeed, ← List.append_assoc, List.take_append_drop]

theorem throughLine_of_line (hfeed : '\n' ∉ line) (hbefore : before.length ≤ n)
    (hline : n ≤ (before ++ line).length) (after : List Char) :
    throughLine (before ++ line ++ '\n' :: after) n = before ++ line ++ ['\n'] := by
  rw [throughLine_append hline ?_, firstLine_cons_self]
  rw [List.drop_append, List.drop_eq_nil_of_le hbefore, List.nil_append]
  exact fun hmem => hfeed (List.mem_of_mem_drop hmem)

/-- In the first line. -/
theorem throughLine_of_lt (h : n < (firstLine '\n' text).length) :
    throughLine text n = firstLine '\n' text := by
  have hsplit := List.takeWhile_append_dropWhile (p := (· != '\n')) (l := text)
  have hfeed := not_mem_takeWhile '\n' text
  rw [firstLine, List.length_append, List.length_take] at h
  generalize text.takeWhile (· != '\n') = before at hsplit hfeed h
  generalize text.dropWhile (· != '\n') = after at hsplit h
  have hn : n ≤ before.length := by omega
  rw [← hsplit, throughLine_append hn fun hmem => hfeed (List.mem_of_mem_drop hmem),
    firstLine_append_of_not_mem hfeed]

/-- Behind the first line. -/
theorem throughLine_add (text : List Char) (n : Nat) :
    throughLine text ((firstLine '\n' text).length + n) =
      firstLine '\n' text ++ throughLine (afterFirstLine '\n' text) n := by
  have hsplit := firstLine_append_afterFirstLine '\n' text
  generalize firstLine '\n' text = line at hsplit
  generalize afterFirstLine '\n' text = after at hsplit
  rw [← hsplit, throughLine, List.take_length_add_append, List.drop_length_add_append,
    List.append_assoc]
  rfl

theorem drop_length_firstLine (text : List Char) :
    text.drop (firstLine '\n' text).length = afterFirstLine '\n' text := by
  have hdrop : (firstLine '\n' text ++ afterFirstLine '\n' text).drop (firstLine '\n' text).length =
      afterFirstLine '\n' text := List.drop_left
  rwa [firstLine_append_afterFirstLine] at hdrop

end

/-! ### Readers -/

/-- Within a line nothing is consumed. -/
theorem LineReader.skip_of_le {line : List Char} {k : Nat} (h : k ≤ line.length) (r : Reader) :
    CharSource.skip k (⟨line, r⟩ : LineReader) = ⟨line.drop k, r⟩ := by
  induction k generalizing line with
  | zero => rfl
  | succ k ih =>
    cases line with
    | nil => exact absurd h (Nat.not_succ_le_zero k)
    | cons c line => exact ih (Nat.le_of_succ_le_succ h)

namespace Reader

variable {r : Reader} {text : List Char}

/-- The bytes of a line are consumed with it. -/
theorem Offers.consumed_readLine (h : r.Offers text) :
    r.readLine.2.consumed = r.consumed + (encodeUtf8 (firstLine '\n' text)).length := by
  obtain ⟨bytes, hdevice, hbytes⟩ := h
  have hgathered := (gathersLine_of_delivers hdevice [] r.buffer).gathered_eq
  rw [hbytes, (firstLine_encodeUtf8 text).1, List.nil_append] at hgathered
  rw [← hgathered]
  rfl

/-- What a reader that had `text` in front of it has consumed when it has been asked for the character
with the number `n`, and what it has in front of it then. -/
structure Gives (r : Reader) (text : List Char) (n : Nat) (r' : Reader) : Prop where
  consumed_eq : r'.consumed = r.consumed + (encodeUtf8 (throughLine text n)).length
  offers : r'.Offers (text.drop (throughLine text n).length)

/-- One attempt is enough for the first line. -/
theorem Offers.gives_firstLine (h : r.Offers text) {n : Nat}
    (hn : throughLine text n = firstLine '\n' text) : r.Gives text n r.readLine.2 := by
  refine ⟨by rw [hn, h.consumed_readLine], ?_⟩
  rw [hn, drop_length_firstLine]
  exact h.readLine.2

/-- What comes behind the first line is asked for after it. -/
theorem Offers.gives_behind (h : r.Offers text) {n : Nat} {r' : Reader}
    (hr : r.readLine.2.Gives (afterFirstLine '\n' text) n r') :
    r.Gives text ((firstLine '\n' text).length + n) r' := by
  obtain ⟨hconsumed, hoffers⟩ := hr
  refine ⟨?_, ?_⟩
  · rw [hconsumed, h.consumed_readLine, throughLine_add, encodeUtf8_append, List.length_append,
      Nat.add_assoc]
  · rwa [throughLine_add, List.length_append, ← List.drop_drop, drop_length_firstLine]

/-- A reader that has been asked for a character has consumed the line in which it stands, and those
before it. -/
theorem Offers.skip (h : r.Offers text) {n : Nat} (hn : n ≤ text.length) :
    r.Gives text n (CharSource.skip (n + 1) (⟨[], r⟩ : LineReader)).reader := by
  induction r using lines_induction generalizing text n with
  | line r c cs hr ih =>
    obtain ⟨hline, hrest⟩ := h.readLine
    have hfirst : firstLine '\n' text = c :: cs := Except.ok.inj (hline.symm.trans hr)
    rw [CharSource.skip, LineReader.next_of_line hr]
    by_cases hlt : n < (firstLine '\n' text).length
    · have hcs : n ≤ cs.length := by
        rw [hfirst, List.length_cons] at hlt
        omega
      rw [LineReader.skip_of_le hcs]
      exact h.gives_firstLine (throughLine_of_lt hlt)
    · obtain ⟨m, rfl⟩ := Nat.exists_eq_add_of_le (Nat.not_lt.1 hlt)
      have hm : m ≤ (afterFirstLine '\n' text).length := by
        rw [← drop_length_firstLine, List.length_drop]
        omega
      have hskip : CharSource.skip ((firstLine '\n' text).length + m) (⟨cs, r.readLine.2⟩ : LineReader) =
          CharSource.skip (m + 1) ⟨[], r.readLine.2⟩ := by
        rw [hfirst, List.length_cons, Nat.add_assoc, Nat.add_comm 1, CharSource.skip_add,
          LineReader.skip_line]
      rw [hskip]
      exact h.gives_behind (ih hrest hm)
  | stop r hr =>
    obtain rfl : text = [] := by rw [← h.flatten_lines, lines_of_none hr, List.flatten_nil]
    obtain rfl : n = 0 := Nat.le_zero.1 hn
    rw [CharSource.skip, (LineReader.next_of_none hr).2]
    exact h.gives_firstLine rfl

end Reader

end Kaleidoscope
