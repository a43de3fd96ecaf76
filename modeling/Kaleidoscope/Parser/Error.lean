import Kaleidoscope.Token

/-!
# Parse errors

An error is the token at which parsing had to stop and what could have stood there instead.
-/

namespace Kaleidoscope

/-- What could have gone on where parsing stopped. -/
inductive Expectation where
  | expression
  /-- The end of a group. -/
  | closingParen
  /-- The end of an argument, or of all of them. -/
  | argumentEnd
  | functionName
  | parametersOpen
  /-- The end of the parameters. -/
  | parametersClose
  deriving DecidableEq, Repr

namespace Expectation

/-- What was expected, in words. -/
def text : Expectation → String
  | expression => "expression"
  | closingParen => "')'"
  | argumentEnd => "')' or ',' in argument list"
  | functionName => "function name in prototype"
  | parametersOpen => "'(' in prototype"
  | parametersClose => "')' in prototype"

/-- The name of the kind of error. -/
def name : Expectation → String
  | expression => "ExpectedExpression"
  | closingParen => "ExpectedClosedParen"
  | argumentEnd => "ExpectedArgDelimiter"
  | functionName => "ExpectedFunctionName"
  | parametersOpen => "ExpectedProtoOpenParen"
  | parametersClose => "ExpectedProtoClosedParen"

/-- Every expectation. -/
def all : List Expectation :=
  [expression, closingParen, argumentEnd, functionName, parametersOpen, parametersClose]

theorem mem_all (e : Expectation) : e ∈ all := by cases e <;> decide

end Expectation

/-- Why parsing stopped. -/
structure ParseError where
  expected : Expectation
  /-- The token at which it stopped. -/
  found : Token
  deriving DecidableEq, Repr

namespace ParseError

/-- The error in words. -/
def message (e : ParseError) : String :=
  "expected " ++ e.expected.text ++ ", found " ++ e.found.text

/-- How the error is built. -/
def dump (e : ParseError) : Dump := .constructor e.expected.name [e.found.dump]

/-- Equality of errors, with numbers compared as numbers. -/
def same (d e : ParseError) : Bool := d.expected = e.expected && d.found.same e.found

end ParseError

end Kaleidoscope
