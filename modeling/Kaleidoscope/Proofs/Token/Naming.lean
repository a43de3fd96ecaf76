import Kaleidoscope.Proofs.Text.Escape
import Kaleidoscope.Proofs.Tree.Proper

/-!
# Names of tokens

A message says at which token parsing has stopped, and it has only text to say it with. This text is plain,
and it belongs to no other token that a scanner can make. Neither holds of tokens at large: a name could
have a line end in it, and all that is not a number has one text.

## Which tokens can be mistaken

The first character says whether a token is the end of the input, a name, a number, or something between
quotation marks. Names are written as they are. What is between quotation marks is a keyword or an escape,
and an escape of more than one character starts with a backslash. That leaves numbers, of which the finite
ones are read back from their text, and infinity is no text that a number could be read from.

## Main results

* `Binary64.isPlain_text`, `Binary64.text_injOn` — numbers without a sign
* `Token.isPlain_text`, `Token.text_injOn` — tokens that a scanner can make
-/

namespace Kaleidoscope

/-! ### Numbers -/

namespace Binary64

variable {x y : Binary64}

/-- Of the numbers without a sign, only infinity is not finite. -/
theorem fields_of_infinite (h : x.IsUnsigned) (hf : x.isFinite = false) :
    x.biased = topExponent ∧ x.fraction = 0 := by
  have hb : x.biased = topExponent := by simpa [isFinite] using hf
  have hnan := h.isNaN
  rw [isNaN, decide_eq_true hb, Bool.true_and] at hnan
  exact ⟨hb, Classical.not_not.1 (of_decide_eq_false hnan)⟩

theorem toList_text_infinite (h : x.IsUnsigned) (hf : x.isFinite = false) :
    x.text.toList = ['i', 'n', 'f'] := by
  obtain ⟨hb, hfraction⟩ := fields_of_infinite h hf
  have hinfinite : x.isInfinite = true := by simp [isInfinite, hb, hfraction]
  rw [text, String.toList_ofList, write, h.isNaN, hinfinite, h.isNegative]
  rfl

/-- A finite number is written as a numeral, and infinity is not. -/
theorem all_isNumeral_text (h : x.IsUnsigned) : x.text.toList.all isNumeral = x.isFinite := by
  cases hf : x.isFinite with
  | true =>
    obtain ⟨whole, fraction, hpositional⟩ := isPositional_text hf h.isNegative
    exact List.all_eq_true.2 hpositional.isNumeral
  | false =>
    rw [toList_text_infinite h hf]
    decide

theorem isPlain_text (h : x.IsUnsigned) : IsPlain x.text.toList := by
  cases hf : x.isFinite with
  | true =>
    intro c hc
    have hall := (all_isNumeral_text h).trans hf
    have := toNat_of_isNumeral (List.all_eq_true.1 hall c hc)
    omega
  | false =>
    rw [toList_text_infinite h hf]
    decide

/-- Different numbers without a sign have different texts. -/
theorem text_injOn (hx : x.IsUnsigned) (hy : y.IsUnsigned) (h : x.text = y.text) : x = y := by
  have hfinite : x.isFinite = y.isFinite := by
    rw [← all_isNumeral_text hx, ← all_isNumeral_text hy, h]
  cases hf : x.isFinite with
  | true =>
    have hread := Token.ofNumeral_text hf hx.isNegative
    rw [h, Token.ofNumeral_text (hfinite.symm.trans hf) hy.isNegative] at hread
    exact (Token.number.inj hread).symm
  | false =>
    obtain ⟨hb, hfraction⟩ := fields_of_infinite hx hf
    obtain ⟨hb', hfraction'⟩ := fields_of_infinite hy (hfinite.symm.trans hf)
    exact eq_of_fields (hx.isNegative.trans hy.isNegative.symm) (hb.trans hb'.symm)
      (hfraction.trans hfraction'.symm)

end Binary64

/-! ### Tokens -/

namespace Token

variable {s t : Token}

theorem isPlain_text (h : t.IsProper Binary64.IsUnsigned) : IsPlain t.text.toList := by
  cases t with
  | endOfInput => decide
  | defKeyword => decide
  | externKeyword => decide
  | identifier name =>
    have hname : IsPlain name.toList := fun c hc => printable_of_isAlphanum (IsName.isAlphanum h c hc)
    have hopen : IsPlain "identifier '".toList := by decide
    rw [text, String.toList_append, String.toList_append]
    exact (hopen.append hname).append (by decide)
  | number value =>
    have hopen : IsPlain "number ".toList := by decide
    rw [text, String.toList_append]
    exact hopen.append (Binary64.isPlain_text h)
  | char c =>
    have hquote : IsPlain "'".toList := by decide
    rw [text, String.toList_append, String.toList_append]
    exact (hquote.append (escapes_asciiEscape c).isPlain).append hquote

/-- The first character of a token's text. -/
def initial : Token → Char
  | endOfInput => 'e'
  | identifier _ => 'i'
  | number _ => 'n'
  | defKeyword | externKeyword | char _ => '\''

theorem head?_text (t : Token) : t.text.toList.head? = some t.initial := by
  cases t <;> simp [text, initial]

/-- What is between quotation marks can be told apart. -/
theorem quoted_inj {a b : String} : "'" ++ a ++ "'" = "'" ++ b ++ "'" ↔ a = b := by
  rw [String.append_left_inj, String.append_right_inj]

/-- Characters are between quotation marks as the keywords are, but an escape is no word. -/
theorem text_char_ne_keyword (c : Char) :
    (char c).text ≠ defKeyword.text ∧ (char c).text ≠ externKeyword.text := by
  have hdef : defKeyword.text = "'" ++ "def" ++ "'" := by decide
  have hextern : externKeyword.text = "'" ++ "extern" ++ "'" := by decide
  rw [hdef, hextern, text, ne_eq, ne_eq, quoted_inj, quoted_inj]
  exact ⟨asciiEscape_ne_word (by decide) (by decide), asciiEscape_ne_word (by decide) (by decide)⟩

/-- Different tokens have different texts. -/
theorem text_injOn (hs : s.IsProper Binary64.IsUnsigned) (ht : t.IsProper Binary64.IsUnsigned)
    (h : s.text = t.text) : s = t := by
  have hinitial : s.initial = t.initial := by
    apply Option.some.inj
    rw [← head?_text, ← head?_text, h]
  cases s with
  | endOfInput =>
    cases t with
    | endOfInput => rfl
    | _ => simp [initial] at hinitial
  | defKeyword =>
    cases t with
    | defKeyword => rfl
    | externKeyword => exact absurd h (by decide)
    | char c => exact absurd h.symm (text_char_ne_keyword c).1
    | _ => simp [initial] at hinitial
  | externKeyword =>
    cases t with
    | defKeyword => exact absurd h (by decide)
    | externKeyword => rfl
    | char c => exact absurd h.symm (text_char_ne_keyword c).2
    | _ => simp [initial] at hinitial
  | identifier name =>
    cases t with
    | identifier name' =>
      rw [text, text, String.append_left_inj, String.append_right_inj] at h
      rw [h]
    | _ => simp [initial] at hinitial
  | number value =>
    cases t with
    | number value' =>
      rw [text, text, String.append_right_inj] at h
      rw [Binary64.text_injOn hs ht h]
    | _ => simp [initial] at hinitial
  | char c =>
    cases t with
    | defKeyword => exact absurd h (text_char_ne_keyword c).1
    | externKeyword => exact absurd h (text_char_ne_keyword c).2
    | char d =>
      rw [text, text, quoted_inj] at h
      rw [asciiEscape_injective h]
    | _ => simp [initial] at hinitial

end Token

end Kaleidoscope
