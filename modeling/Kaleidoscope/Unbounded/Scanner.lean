import Kaleidoscope.Scanner

/-!
# Scanning without a bound

A scanner asks its source until it has seen what ends a run, and it goes round as long as there are
comments. That this comes to an end is due to the source, which has a size. Here are the same loops for
any way to answer, with a size or without. Whether they come to an end is a question then, and where they
do not, the result is `none`.

## Main definitions

* `Unbounded.Chars` — a way to get characters
* `Unbounded.Chars.span`, `Unbounded.Chars.skipTrivia` — the loops
* `Unbounded.Chars.scan` — one token
-/

namespace Kaleidoscope

namespace Unbounded

/-- A way to get characters, of which there may be no end. -/
structure Chars (σ : Type) where
  next : σ → Answer × σ

namespace Chars

variable {σ : Type}

/-- Asks for the next character. -/
def bump (w : Chars σ) (s : Scanner σ) : Scanner σ :=
  let (answer, rest) := w.next s.source
  { source := rest, ahead := answer, pulls := s.pulls + 1 }

/-- Takes characters as long as `keep` holds of them. -/
def span (w : Chars σ) (keep : Char → Bool) (s : Scanner σ) : Option (List Char × Scanner σ) :=
  match s.ahead with
  | .char c =>
    if keep c then do
      let (run, rest) ← w |>.span keep (w.bump s)
      return (c :: run, rest)
    else some ([], s)
  | _ => some ([], s)
partial_fixpoint

/-- Skips white space and comments. -/
def skipTrivia (w : Chars σ) (s : Scanner σ) : Option (Scanner σ) := do
  let (_, t) ← w.span isBlank s
  match t.ahead with
  | .char '#' => do
    let (_, u) ← w.span (fun c => !isLineEnd c) t
    w |>.skipTrivia u
  | _ => return t
partial_fixpoint

/-- The token that starts at the character ahead. -/
def lexeme (w : Chars σ) (s : Scanner σ) : Option (Token × Scanner σ) :=
  match s.ahead with
  | .char c =>
    if c.isAlpha then do
      let (word, rest) ← w.span Char.isAlphanum s
      return (.ofWord (String.ofList word), rest)
    else if isNumeral c then do
      let (run, rest) ← w.span isNumeral s
      return (.ofNumeral run, rest)
    else some (.char c, w.bump s)
  | _ => some (.endOfInput, s)

/-- The next token. -/
def scan (w : Chars σ) (s : Scanner σ) : Option (Scan (Scanner σ)) := do
  let t ← w.skipTrivia s
  let (token, rest) ← w.lexeme t
  return { token, rest, fault? := if s.ahead.char?.isSome then rest.ahead.fault? else none }

end Chars

end Unbounded

end Kaleidoscope
