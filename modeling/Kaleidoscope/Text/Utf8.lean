/-!
# UTF-8

Bytes as characters and back. The core library knows UTF-8 for byte arrays; here the two directions
are stated on lists, where a reader gathers its bytes.

## Main definitions

* `encodeUtf8` — the bytes of a text
* `decodeUtf8` — the text of some bytes, if they are well formed

## Main results

* `decodeUtf8_eq_some_iff` — decoding accepts exactly what encoding produces
* `length_le_length_encodeUtf8` — a character takes at least one byte
-/

namespace Kaleidoscope

/-- The bytes of a text. -/
def encodeUtf8 (cs : List Char) : List UInt8 := cs.flatMap String.utf8EncodeChar

/-- The text that some bytes encode, if they are well-formed UTF-8. -/
def decodeUtf8 (bytes : List UInt8) : Option (List Char) :=
  (String.fromUTF8? bytes.toByteArray).map String.toList

@[simp] theorem encodeUtf8_nil : encodeUtf8 [] = [] := rfl

theorem encodeUtf8_cons (c : Char) (cs : List Char) :
    encodeUtf8 (c :: cs) = String.utf8EncodeChar c ++ encodeUtf8 cs := List.flatMap_cons

theorem encodeUtf8_append (cs ds : List Char) :
    encodeUtf8 (cs ++ ds) = encodeUtf8 cs ++ encodeUtf8 ds := List.flatMap_append

theorem toByteArray_encodeUtf8 (cs : List Char) :
    (encodeUtf8 cs).toByteArray = (String.ofList cs).toByteArray := by
  rw [String.toByteArray_ofList]; rfl

/-- Decoding accepts exactly what encoding produces. -/
theorem decodeUtf8_eq_some_iff {bytes : List UInt8} {cs : List Char} :
    decodeUtf8 bytes = some cs ↔ bytes = encodeUtf8 cs := by
  rw [← List.toByteArray_inj, toByteArray_encodeUtf8]
  unfold decodeUtf8 String.fromUTF8?
  constructor
  · intro h
    split at h
    · rename_i valid
      simp only [Option.map_some, Option.some.injEq] at h
      rw [← h, String.ofList_toList]
      rfl
    · simp at h
  · intro h
    have valid : bytes.toByteArray.IsValidUTF8 := h ▸ (String.ofList cs).isValidUTF8
    have text : String.fromUTF8 bytes.toByteArray valid = String.ofList cs :=
      String.toByteArray_inj.1 h
    rw [dif_pos valid, text]
    simp

theorem decodeUtf8_encodeUtf8 (cs : List Char) : decodeUtf8 (encodeUtf8 cs) = some cs :=
  decodeUtf8_eq_some_iff.2 rfl

/-- A character takes at least one byte. -/
theorem length_le_length_encodeUtf8 (cs : List Char) : cs.length ≤ (encodeUtf8 cs).length := by
  induction cs with
  | nil => simp
  | cons c cs ih =>
    have := c.utf8Size_pos
    simp only [encodeUtf8_cons, List.length_append, List.length_cons, String.length_utf8EncodeChar]
    omega

end Kaleidoscope
