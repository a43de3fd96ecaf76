import Kaleidoscope.Scanner

/-!
# The tokens of a text

Which tokens a text has and where each of them ends, said without a scanner. A text is cut from left
to right into trivia, which is white space and comments, and lexemes. Words and numerals are as long
as they can be: what follows one does not start with a character that could go on with it.

## Main definitions

* `Follows` — a text does not go on with a class of characters
* `Lexes` — the tokens of a text, each with the offset of its end
-/

namespace Kaleidoscope

/-- A text that does not start with a character that `keep` holds of. -/
def Follows (keep : Char → Bool) (text : List Char) : Prop :=
  ∀ c ∈ text.head?, keep c = false

/-- The characters that are tokens of their own. -/
def isSolitary (c : Char) : Bool := !isBlank c && c != '#' && !c.isAlpha && !isNumeral c

/-- `Lexes n text ts`: a text at offset `n` has the tokens `ts`, each with the offset of its end. -/
inductive Lexes : Nat → List Char → List (Token × Nat) → Prop where
  | done (n : Nat) : Lexes n [] []
  | blank {n : Nat} {c : Char} {text : List Char} {ts : List (Token × Nat)}
    (hc : isBlank c = true) (h : Lexes (n + 1) text ts) : Lexes n (c :: text) ts
  | comment {n : Nat} {body text : List Char} {ts : List (Token × Nat)}
    (hb : ∀ c ∈ body, isLineEnd c = false) (hf : Follows (fun c => !isLineEnd c) text)
    (h : Lexes (n + (body.length + 1)) text ts) : Lexes n ('#' :: (body ++ text)) ts
  | word {n : Nat} {c : Char} {run text : List Char} {ts : List (Token × Nat)}
    (hc : c.isAlpha = true) (hr : ∀ d ∈ run, d.isAlphanum = true)
    (hf : Follows Char.isAlphanum text) (h : Lexes (n + (run.length + 1)) text ts) :
    Lexes n (c :: (run ++ text))
      ((.ofWord (String.ofList (c :: run)), n + (run.length + 1)) :: ts)
  | numeral {n : Nat} {c : Char} {run text : List Char} {ts : List (Token × Nat)}
    (hc : isNumeral c = true) (hr : ∀ d ∈ run, isNumeral d = true)
    (hf : Follows isNumeral text) (h : Lexes (n + (run.length + 1)) text ts) :
    Lexes n (c :: (run ++ text)) ((.ofNumeral (c :: run), n + (run.length + 1)) :: ts)
  | solitary {n : Nat} {c : Char} {text : List Char} {ts : List (Token × Nat)}
    (hc : isSolitary c = true) (h : Lexes (n + 1) text ts) :
    Lexes n (c :: text) ((.char c, n + 1) :: ts)

end Kaleidoscope
