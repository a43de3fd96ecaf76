import Kaleidoscope.Text.Escape

/-!
# Escapes can be undone

A message names a character in printable ASCII, whatever the character is. That would be of little use if
two characters could have the same name, so here is what an escape can look like: the character itself, a
backslash with one character behind it, or a backslash and a number between braces. The three forms have
different lengths, and each of them gives the character back.

The character itself is one of the forms for quotation marks and the backslash, too. Nothing depends on
these being escaped but that a reader is not confused, so it is not part of the notion.

## Plain texts

`IsPlain` is what a message promises to every terminal. It is a property of lists of characters, so that it
can be put together from parts as a message is.

## Main definitions

* `IsPlain` — printable ASCII throughout
* `ofHexDigits` — the number that hexadecimal digits stand for
* `Escapes` — the three forms of an escape

## Main results

* `ofHexDigits_toDigits` — the digits of a number stand for it
* `Escapes.isPlain`, `Escapes.unique` — an escape is plain and determines its character
* `asciiEscape_injective`, `asciiEscape_ne_word` — different characters have different escapes, and none of
  them is a word
-/

namespace Kaleidoscope

/-! ### Plain texts -/

/-- Printable ASCII throughout. -/
def IsPlain (text : List Char) : Prop := ∀ c ∈ text, 0x20 ≤ c.toNat ∧ c.toNat ≤ 0x7E

instance (text : List Char) : Decidable (IsPlain text) :=
  decidable_of_iff (text.all fun c => 0x20 ≤ c.toNat ∧ c.toNat ≤ 0x7E) (by simp [IsPlain])

namespace IsPlain

variable {c : Char} {text text' : List Char}

theorem cons (hc : 0x20 ≤ c.toNat ∧ c.toNat ≤ 0x7E) (h : IsPlain text) : IsPlain (c :: text) :=
  List.forall_mem_cons.2 ⟨hc, h⟩

theorem append (h : IsPlain text) (h' : IsPlain text') : IsPlain (text ++ text') :=
  List.forall_mem_append.2 ⟨h, h'⟩

end IsPlain

/-! ### Hexadecimal digits -/

/-- What a hexadecimal digit counts. -/
def hexDigitValue (c : Char) : Nat := if c.isDigit then c.toNat - 48 else c.toNat - 87

/-- The number that hexadecimal digits stand for. -/
def ofHexDigits (cs : List Char) : Nat := cs.foldl (fun n c => 16 * n + hexDigitValue c) 0

theorem hexDigitValue_digitChar {n : Nat} (h : n < 16) : hexDigitValue n.digitChar = n :=
  have hall : ∀ a : Fin 16, hexDigitValue a.val.digitChar = a.val := by decide
  hall ⟨n, h⟩

/-- The digits of a number stand for it. -/
theorem ofHexDigits_toDigits (n : Nat) : ofHexDigits (Nat.toDigits 16 n) = n := by
  induction n using Nat.strongRecOn with
  | ind n ih =>
    rw [Nat.toDigits_eq_if (by decide)]
    split
    · rename_i h
      exact (Nat.zero_add _).trans (hexDigitValue_digitChar h)
    · have hfront : ofHexDigits (Nat.toDigits 16 (n / 16)) = n / 16 := ih _ (by omega)
      have hlast := hexDigitValue_digitChar (Nat.mod_lt n (by decide : 0 < 16))
      rw [ofHexDigits, List.foldl_append, ← ofHexDigits, hfront, List.foldl_cons, List.foldl_nil, hlast]
      exact Nat.div_add_mod n 16

theorem isPlain_toDigits (n : Nat) : IsPlain (Nat.toDigits 16 n) := by
  have hdigit : ∀ a : Fin 16, IsPlain [a.val.digitChar] := by decide
  induction n using Nat.strongRecOn with
  | ind n ih =>
    rw [Nat.toDigits_eq_if (by decide)]
    split
    · rename_i h
      exact hdigit ⟨n, h⟩
    · exact (ih _ (by omega)).append (hdigit ⟨n % 16, Nat.mod_lt n (by decide)⟩)

/-! ### Escapes -/

/-- The characters that are written as a backslash and one character behind it, each with that one. -/
def escapeMarks : List (Char × Char) :=
  [('\t', 't'), ('\r', 'r'), ('\n', 'n'), ('\'', '\''), ('"', '"'), ('\\', '\\')]

/-- The forms of an escape. -/
inductive Escapes (c : Char) : List Char → Prop where
  /-- The character itself. -/
  | plain (hc : 0x20 ≤ c.toNat ∧ c.toNat ≤ 0x7E) : Escapes c [c]
  | marked {mark : Char} (h : (c, mark) ∈ escapeMarks) : Escapes c ['\\', mark]
  /-- The code point in hexadecimal, between braces. -/
  | coded : Escapes c ('\\' :: 'u' :: '\x7b' :: (Nat.toDigits 16 c.toNat ++ ['\x7d']))

namespace Escapes

variable {c d : Char} {text : List Char}

theorem isPlain (h : Escapes c text) : IsPlain text := by
  cases h with
  | plain hc => exact IsPlain.cons hc nofun
  | marked h =>
    have hall : ∀ entry ∈ escapeMarks, IsPlain ['\\', entry.2] := by decide
    exact hall _ h
  | coded =>
    have hopen : IsPlain ['\\', 'u', '\x7b'] := by decide
    exact hopen.append ((isPlain_toDigits c.toNat).append (by decide))

/-- An escape is the character itself, or it starts with a backslash. -/
theorem eq_singleton_or_cons (h : Escapes c text) : text = [c] ∨ ∃ rest, text = '\\' :: rest := by
  cases h with
  | plain => exact .inl rfl
  | marked => exact .inr ⟨_, rfl⟩
  | coded => exact .inr ⟨_, rfl⟩

/-- An escape determines its character. -/
theorem unique (h : Escapes c text) (h' : Escapes d text) : c = d := by
  have hmarks : ∀ e ∈ escapeMarks, ∀ e' ∈ escapeMarks, e.2 = e'.2 → e.1 = e'.1 := by decide
  generalize htext : text = text' at h'
  -- Different forms have different lengths, so what is left are two escapes of one form.
  cases h with
  | plain =>
    cases h' with
    | plain => exact List.singleton_inj.1 htext
    | marked => exact absurd htext (by simp)
    | coded => exact absurd htext (by simp)
  | marked h =>
    cases h' with
    | plain => exact absurd htext (by simp)
    | marked h' =>
      obtain ⟨-, hmark⟩ := List.cons.inj htext
      exact hmarks _ h _ h' (List.singleton_inj.1 hmark)
    | coded => exact absurd htext (by simp)
  | coded =>
    cases h' with
    | plain => exact absurd htext (by simp)
    | marked => exact absurd htext (by simp)
    | coded =>
      simp only [List.cons.injEq, true_and] at htext
      have hdigits := congrArg ofHexDigits (List.append_cancel_right htext)
      rw [ofHexDigits_toDigits, ofHexDigits_toDigits] at hdigits
      exact Char.toNat_inj.1 hdigits

end Escapes

theorem escapes_asciiEscape (c : Char) : Escapes c (asciiEscape c).toList := by
  unfold asciiEscape
  split
  · exact .marked (by decide)
  · exact .marked (by decide)
  · exact .marked (by decide)
  · exact .marked (by decide)
  · exact .marked (by decide)
  · exact .marked (by decide)
  · split
    · rename_i hc
      rw [Char.toString_eq_singleton, String.toList_singleton]
      exact .plain hc
    · have hcoded : (hexEscape c).toList =
          '\\' :: 'u' :: '\x7b' :: (Nat.toDigits 16 c.toNat ++ ['\x7d']) := by
        simp [hexEscape]
      rw [hcoded]
      exact .coded

/-- An escape is no word: if it is more than one character, it starts with a backslash. -/
theorem asciiEscape_ne_word {c : Char} {word : String} (hlength : 2 ≤ word.toList.length)
    (hhead : word.toList.head? ≠ some '\\') : asciiEscape c ≠ word := by
  rintro rfl
  rcases (escapes_asciiEscape c).eq_singleton_or_cons with hone | ⟨rest, hmore⟩
  · rw [hone, List.length_singleton] at hlength
    omega
  · exact hhead (by rw [hmore, List.head?_cons])

/-- Different characters have different escapes. -/
theorem asciiEscape_injective : Function.Injective asciiEscape := fun c d h =>
  (escapes_asciiEscape c).unique (h ▸ escapes_asciiEscape d)

end Kaleidoscope
