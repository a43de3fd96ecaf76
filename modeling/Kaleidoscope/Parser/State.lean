import Kaleidoscope.Journal
import Kaleidoscope.Parser.Error
import Kaleidoscope.Token.Source

/-!
# The parser's state

A parser has one token in front of it and the source of those to come. Every production looks at that
token alone.

## Progress is part of the answer

A production either leaves the parser where it was or takes it further on, and which of the two
decides whether anything built from productions comes to an end. So the reply of a production, an
`Outcome`, carries that fact, and a production that calls others can be shown to terminate by looking
at nothing but the calls.

## What a parser sees

All that a parser can find out about its source is `Parser.tokens`, the tokens up to the end. A parser
whose front token is the end has a source with nothing left in it; that this is part of the type lets
`Parser.tokens_advance` hold without conditions.

## Main definitions

* `Parser` — the token in front, the source of the others, and the journal
* `Parser.start`, `Parser.advance` — reading the first token and the next one
* `Parser.tokens` — the tokens to come
* `Parser.size` — a bound on the tokens to come, the one in front included
* `Parser.Reaches` — standing still or going on
* `Reply`, `Outcome` — what a production answers, without and with the progress it made
* `Outcome.andThen`, `Outcome.after` — productions in sequence

## Main results

* `Parser.tokens_advance` — reading on drops one token
* `Parser.size_advance_lt` — reading on from any token but the end makes the parser smaller
-/

namespace Kaleidoscope

/-- What a scan is worth noting down, in order: what went wrong, then the token that came of it. -/
def Scan.records {τ : Type} (s : Scan τ) : List Record :=
  (s.fault?.map .readFailed).toList ++ [.scanned s.token]

/-- A parser over a source of tokens. -/
structure Parser (τ : Type) [TokenSource τ] where
  /-- The token in front. -/
  current : Token
  /-- The source of the tokens after it. -/
  rest : τ
  /-- What has happened so far, the latest first. -/
  journal : List Record
  /-- Behind the end of the input there is only the end. -/
  isFinal : current = .endOfInput → TokenSource.scan rest = { token := .endOfInput, rest }

namespace Parser

variable {τ : Type} [TokenSource τ]

/-- Notes down what happened. -/
def record (p : Parser τ) (r : Record) : Parser τ := { p with journal := r :: p.journal }

/-- What has happened so far, in order. -/
def records (p : Parser τ) : List Record := p.journal.reverse

/-- The parser that has read the next token of `rest`. -/
def read (journal : List Record) (rest : τ) : Parser τ :=
  let s := TokenSource.scan rest
  { current := s.token
    rest := s.rest
    journal := s.records.reverse ++ journal
    isFinal := TokenSource.scan_of_end rest }

/-- A parser that has read the first token. -/
def start (source : τ) : Parser τ := read [] source

/-- Reads the next token. -/
def advance (p : Parser τ) : Parser τ := read p.journal p.rest

/-! ### The tokens to come -/

/-- The tokens up to the end of the input, from the one in front on. -/
def tokens (p : Parser τ) : List Token :=
  if p.current = .endOfInput then [] else p.current :: TokenSource.tokens p.rest

theorem tokens_of_end {p : Parser τ} (h : p.current = .endOfInput) : p.tokens = [] := if_pos h

theorem tokens_read (journal : List Record) (rest : τ) :
    (read journal rest).tokens = TokenSource.tokens rest := by
  rw [TokenSource.tokens]
  rfl

/-- Reading on drops the token in front; at the end there is none to drop. -/
theorem tokens_advance (p : Parser τ) : p.advance.tokens = p.tokens.tail := by
  rw [advance, tokens_read, tokens]
  split
  · rename_i h
    rw [TokenSource.tokens, p.isFinal h]
    simp
  · rfl

@[simp] theorem tokens_record (p : Parser τ) (r : Record) : (p.record r).tokens = p.tokens := rfl

/-! ### Progress -/

/-- No fewer than the tokens to come, the one in front included. -/
def size (p : Parser τ) : Nat := p.current.weight + TokenSource.size p.rest

@[simp] theorem size_record (p : Parser τ) (r : Record) : (p.record r).size = p.size := rfl

theorem size_read_le (journal : List Record) (rest : τ) :
    (read journal rest).size ≤ TokenSource.size rest := TokenSource.size_scan rest

theorem size_advance_le (p : Parser τ) : p.advance.size ≤ p.size :=
  Nat.le_trans (size_read_le p.journal p.rest) (Nat.le_add_left ..)

/-- Reading on from any token but the end makes the parser smaller. -/
theorem size_advance_lt {p : Parser τ} (h : p.current ≠ .endOfInput) : p.advance.size < p.size := by
  have := size_read_le p.journal p.rest
  have := Token.weight_pos h
  simp only [advance, size] at *
  omega

/-- `q` is `p`, or `p` further on. -/
def Reaches (p q : Parser τ) : Prop := q = p ∨ q.size < p.size

namespace Reaches

variable {p q r : Parser τ}

theorem refl (p : Parser τ) : p.Reaches p := .inl rfl

theorem of_lt (h : q.size < p.size) : p.Reaches q := .inr h

theorem size_le (h : p.Reaches q) : q.size ≤ p.size := by
  rcases h with rfl | h
  · exact Nat.le_refl _
  · exact Nat.le_of_lt h

theorem trans (h : p.Reaches q) (k : q.Reaches r) : p.Reaches r := by
  rcases h with rfl | h
  · exact k
  · exact .inr (Nat.lt_of_le_of_lt k.size_le h)

theorem lt_of_lt (h : p.Reaches q) (k : r.size < q.size) : r.size < p.size :=
  Nat.lt_of_lt_of_le k h.size_le

end Reaches

theorem reaches_advance {p : Parser τ} (h : p.current ≠ .endOfInput) : p.Reaches p.advance :=
  .of_lt (size_advance_lt h)

end Parser

/-- What a production answers: a tree or an error, and the parser after it. -/
structure Reply (τ α : Type) [TokenSource τ] where
  result : Except ParseError α
  parser : Parser τ

/-- Notes down what success means. -/
def Reply.note {τ α : Type} [TokenSource τ] (r : Reply τ α) (f : α → Record) : Reply τ α :=
  match r.result with
  | .ok a => { r with parser := r.parser.record (f a) }
  | .error _ => r

@[simp] theorem Reply.result_note {τ α : Type} [TokenSource τ] (r : Reply τ α) (f : α → Record) :
    (r.note f).result = r.result := by
  unfold note
  split <;> simp_all

@[simp] theorem Reply.size_note {τ α : Type} [TokenSource τ] (r : Reply τ α) (f : α → Record) :
    (r.note f).parser.size = r.parser.size := by
  unfold note
  split <;> simp

/-- The reply of a production that starts at `p`. -/
structure Outcome {τ : Type} [TokenSource τ] (p : Parser τ) (α : Type) extends Reply τ α where
  reaches : p.Reaches parser

namespace Outcome

variable {τ : Type} [TokenSource τ] {p : Parser τ} {α β : Type}

/-- Success, with the parser after the last token of the tree. -/
def ok (a : α) (q : Parser τ) (h : p.Reaches q) : Outcome p α := ⟨⟨.ok a, q⟩, h⟩

/-- Failure at the token in front, which stays there. -/
def fail (expected : Expectation) (q : Parser τ) (h : p.Reaches q) : Outcome p α :=
  ⟨⟨.error ⟨expected, q.current⟩, q⟩, h⟩

/-- The outcome of a production that started further on. -/
def after {q : Parser τ} (o : Outcome q α) (h : p.Reaches q) : Outcome p α :=
  ⟨o.toReply, h.trans o.reaches⟩

/-- If a production succeeds, the outcome of what goes on from there. -/
def andThen (o : Outcome p α) (f : α → (q : Parser τ) → p.Reaches q → Outcome q β) : Outcome p β :=
  match o.result with
  | .ok a => (f a o.parser o.reaches).after o.reaches
  | .error e => ⟨⟨.error e, o.parser⟩, o.reaches⟩

/-- If a production succeeds, a tree made of its tree. -/
def map (f : α → β) (o : Outcome p α) : Outcome p β := ⟨⟨o.result.map f, o.parser⟩, o.reaches⟩

/-! ### What the combinators answer -/

@[simp] theorem result_ok (a : α) (q : Parser τ) (h : p.Reaches q) : (ok a q h).result = .ok a := rfl

@[simp] theorem parser_ok (a : α) (q : Parser τ) (h : p.Reaches q) : (ok a q h).parser = q := rfl

@[simp] theorem result_fail (expected : Expectation) (q : Parser τ) (h : p.Reaches q) :
    (fail expected q h : Outcome p α).result = .error ⟨expected, q.current⟩ := rfl

@[simp] theorem parser_fail (expected : Expectation) (q : Parser τ) (h : p.Reaches q) :
    (fail expected q h : Outcome p α).parser = q := rfl

@[simp] theorem result_after {q : Parser τ} (o : Outcome q α) (h : p.Reaches q) :
    (o.after h).result = o.result := rfl

@[simp] theorem parser_after {q : Parser τ} (o : Outcome q α) (h : p.Reaches q) :
    (o.after h).parser = o.parser := rfl

@[simp] theorem result_map (f : α → β) (o : Outcome p α) : (o.map f).result = o.result.map f := rfl

@[simp] theorem parser_map (f : α → β) (o : Outcome p α) : (o.map f).parser = o.parser := rfl

theorem andThen_of_ok {o : Outcome p α} {a : α} (h : o.result = .ok a)
    (f : α → (q : Parser τ) → p.Reaches q → Outcome q β) :
    o.andThen f = (f a o.parser o.reaches).after o.reaches := by
  unfold andThen
  rw [h]

theorem andThen_of_error {o : Outcome p α} {e : ParseError} (h : o.result = .error e)
    (f : α → (q : Parser τ) → p.Reaches q → Outcome q β) :
    o.andThen f = ⟨⟨.error e, o.parser⟩, o.reaches⟩ := by
  unfold andThen
  rw [h]

end Outcome

end Kaleidoscope
