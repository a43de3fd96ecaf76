import Kaleidoscope.Source
import Kaleidoscope.Tree.Expr
import Kaleidoscope.Token

/-!
# The journal

What the scanner, the parser and the session note down about their work, for whoever looks for the
cause of a surprise. A record is kept as what happened; its wording is made when somebody reads it.

## Main definitions

* `Level` — how much a record matters
* `Record` — what happened, with `Record.level` and `Record.text`
-/

namespace Kaleidoscope

/-- How much a record matters, from most to least. -/
inductive Level where
  | error
  | warn
  | info
  | debug
  | trace
  deriving DecidableEq, Repr

namespace Level

/-- The place of a level, the most severe one first. -/
def rank : Level → Nat
  | error => 0
  | warn => 1
  | info => 2
  | debug => 3
  | trace => 4

/-- The name of a level. -/
def name : Level → String
  | error => "ERROR"
  | warn => "WARN"
  | info => "INFO"
  | debug => "DEBUG"
  | trace => "TRACE"

end Level

/-- Something that happened. -/
inductive Record where
  /-- The input ended because reading it failed. -/
  | readFailed (fault : Fault)
  /-- A token was read. -/
  | scanned (token : Token)
  /-- A definition of that name was complete. -/
  | parsedDefinition (name : String)
  /-- An expression at the top level was complete. -/
  | parsedExpression (body : Expr)
  /-- A token at which parsing failed is being dropped. -/
  | skipping (token : Token)
  /-- A run came to the end of the input. -/
  | reachedEnd (items errors : Nat)
  deriving Repr

namespace Record

/-- How much the record matters. -/
def level : Record → Level
  | readFailed _ => .error
  | scanned _ => .trace
  | parsedDefinition _ | parsedExpression _ | skipping _ | reachedEnd _ _ => .debug

/-- What happened, in words. -/
def message : Record → String
  | readFailed fault => "failed to read input: " ++ fault.message
  | scanned token => "scanned " ++ token.dump.inline
  | parsedDefinition name => "parsed definition of " ++ name
  | parsedExpression body => "parsed top-level expression " ++ body.text
  | skipping token => "skipping " ++ token.text ++ " to resynchronize"
  | reachedEnd items errors =>
    "reached end of input, " ++ items.repr ++ " items parsed, " ++ errors.repr ++ " errors"

/-- The record with its level. -/
def text (r : Record) : String := r.level.name ++ " " ++ r.message

/-- The records among `rs` that matter at least as much as `level`. -/
def upTo (level : Level) (rs : List Record) : List Record :=
  rs.filter fun r => r.level.rank ≤ level.rank

end Record

end Kaleidoscope
