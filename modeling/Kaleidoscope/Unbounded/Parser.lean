import Kaleidoscope.Session.Run
import Kaleidoscope.Unbounded.Scanner

/-!
# Parsing without a bound

The productions, the steps of a session and its run, with nothing in them that would say why they come to
an end. They call each other as the grammar has it, and go round where it repeats something. Tokens come
from a scan that may itself never return, and nothing is known of the size of what is to come.

A production is an action on the front of the input. It gives a tree or an error and leaves the front
where it has got to, or it never returns, and then there is no result at all.

## Main definitions

* `Unbounded.Tokens` — a way to get tokens
* `Unbounded.Front` — the token in front, the source of the others, and the journal
* `Unbounded.Action` — what a production does
* `Unbounded.Tokens.primary`, `expression`, `operators`, … — the productions
* `Unbounded.Tokens.step`, `Unbounded.Tokens.run` — a session
-/

namespace Kaleidoscope

namespace Unbounded

/-- A way to get tokens, of which there may be no end. -/
structure Tokens (τ : Type) where
  scan : τ → Option (Scan τ)

/-- The tokens of a text. -/
def Chars.tokens {σ : Type} (w : Chars σ) : Tokens (Scanner σ) := ⟨w.scan⟩

/-- The token in front, the source of those after it, and what has happened so far, the latest first. -/
structure Front (τ : Type) where
  current : Token
  rest : τ
  journal : List Record

/-- What a production does: it gives a tree or an error, and leaves a front, or it never returns. -/
abbrev Action (τ : Type) := ExceptT ParseError (StateT (Front τ) Option)

variable {τ : Type}

/-- Notes down what happened. -/
def Front.record (p : Front τ) (r : Record) : Front τ := { p with journal := r :: p.journal }

/-- The token in front. -/
def current : Action τ Token := fun p => some (.ok p.current, p)

/-- Notes down what happened. -/
def note (r : Record) : Action τ Unit := fun p => some (.ok (), p.record r)

/-- Fails at the token in front. -/
def fail {α : Type} (expected : Expectation) : Action τ α := fun p =>
  some (.error ⟨expected, p.current⟩, p)

namespace Tokens

/-- The scan with the number `k`, from zero on, of all those made in succession. -/
def nthScan (w : Tokens τ) (s : τ) : Nat → Option (Scan τ)
  | 0 => w.scan s
  | k + 1 => do
    let t ← w.scan s
    w.nthScan t.rest k

/-- The front that has read the next token. -/
def read (w : Tokens τ) (journal : List Record) (rest : τ) : Option (Front τ) := do
  let s ← w.scan rest
  return ⟨s.token, s.rest, s.records.reverse ++ journal⟩

/-- The front that has read the first token. -/
def start (w : Tokens τ) (source : τ) : Option (Front τ) := w.read [] source

/-- Reads the next token. -/
def advance (w : Tokens τ) : Action τ Unit := fun p => do
  let q ← w.read p.journal p.rest
  return (.ok (), q)

/-- Reads one character, or fails if it is not in front. -/
def expect (w : Tokens τ) (c : Char) (expected : Expectation) : Action τ Unit := do
  if (← current) = .char c then w.advance else fail expected

/-! ### Expressions -/

mutual

/-- An operand. -/
def primary (w : Tokens τ) : Action τ Expr := do
  match ← current with
  | .number value =>
    w.advance
    return .number value
  | .identifier name =>
    w.advance
    if (← current) = .char '(' then
      w.advance
      return .call name (← w |>.arguments)
    else return .var name
  | .char '(' =>
    w.advance
    let e ← w |>.expression
    w.expect ')' .closingParen
    return e
  | _ => fail .expression
partial_fixpoint

/-- The arguments of a call and the parenthesis that closes them. -/
def arguments (w : Tokens τ) : Action τ (List Expr) := do
  if (← current) = .char ')' then
    w.advance
    return []
  else w |>.someArguments
partial_fixpoint

/-- At least one argument, and the parenthesis that closes them. -/
def someArguments (w : Tokens τ) : Action τ (List Expr) := do
  let e ← w |>.expression
  match ← current with
  | .char ')' =>
    w.advance
    return [e]
  | .char ',' =>
    w.advance
    return e :: (← w |>.someArguments)
  | _ => fail .argumentEnd
partial_fixpoint

/-- An operand and the operators that follow it. -/
def expression (w : Tokens τ) : Action τ Expr := do
  let left ← w |>.primary
  w |>.operators 0 left
partial_fixpoint

/-- The operators that bind at least as tightly as `least`. -/
def operators (w : Tokens τ) (least : Int) (left : Expr) : Action τ Expr := do
  match (← current).operator? with
  | some (op, precedence) =>
    if least ≤ precedence then
      w.advance
      let right ← w |>.primary
      let right ← match (← current).operator? with
        | some (_, next) =>
          if precedence < next then w |>.operators (precedence + 1) right else pure right
        | none => pure right
      w |>.operators least (.binary op left right)
    else return left
  | none => return left
partial_fixpoint

end

/-! ### What stands at the top level -/

/-- Names up to the first token that is none. -/
def names (w : Tokens τ) : Action τ (List String) := do
  match ← current with
  | .identifier name =>
    w.advance
    return name :: (← w |>.names)
  | _ => return []
partial_fixpoint

/-- The head of a function. -/
def prototype (w : Tokens τ) : Action τ Prototype := do
  match ← current with
  | .identifier name =>
    w.advance
    w.expect '(' .parametersOpen
    let parameters ← w.names
    w.expect ')' .parametersClose
    return ⟨name, parameters⟩
  | _ => fail .functionName

/-- A function defined elsewhere, after the token in front. -/
def external (w : Tokens τ) : Action τ Prototype := do
  w.advance
  w.prototype

/-- A function, after the token in front. -/
def definition (w : Tokens τ) : Action τ Function := do
  w.advance
  let head ← w.prototype
  let body ← w.expression
  note (.parsedDefinition head.name)
  return ⟨head, body⟩

/-- An expression, wrapped in a function. -/
def bareExpression (w : Tokens τ) : Action τ Function := do
  let body ← w.expression
  note (.parsedExpression body)
  return .ofExpr body

/-! ### A session -/

/-- The step that a production amounts to. An error drops the token at which it arose. -/
def settle {α : Type} (w : Tokens τ) (a : Action τ α) (item : α → Item) (p : Front τ) :
    Option (Step × Front τ) := do
  match ← a p with
  | (.ok x, q) => return (.parsed (item x), q)
  | (.error e, q) =>
    let q := q.record (.skipping q.current)
    return (.failed e, ← w.read q.journal q.rest)

/-- Handles one unit. -/
def step (w : Tokens τ) (p : Front τ) : Option (Step × Front τ) :=
  match p.current with
  | .endOfInput => some (.finished, p)
  | .char ';' => do return (.skipped, ← w.read p.journal p.rest)
  | .defKeyword => w.settle w.definition .definition p
  | .externKeyword => w.settle w.external .external p
  | _ => w.settle w.bareExpression .expression p

/-- Takes steps until one finishes. -/
def steps (w : Tokens τ) (p : Front τ) : Option (List Step × Front τ) := do
  match ← w.step p with
  | (.finished, q) => return ([], q)
  | (s, q) => do
    let (later, r) ← w |>.steps q
    return (s :: later, r)
partial_fixpoint

/-- All steps to the end of the input. -/
def run (w : Tokens τ) (p : Front τ) : Option (List Step × Front τ) := do
  let (all, q) ← w.steps p
  return (all, q.record (.reachedEnd (all.filterMap Step.item?).length (all.filterMap Step.error?).length))

end Tokens

end Unbounded

end Kaleidoscope
