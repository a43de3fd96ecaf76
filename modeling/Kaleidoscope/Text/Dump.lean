/-!
# Dumps

A dump shows how a value is built: constructors, fields and lists. It comes in two forms, all on one
line or indented, so a value is first turned into a `Dump` and the form is chosen when that is
written.

## Main definitions

* `Dump` — a value's structure
* `Dump.inline` — on one line
* `Dump.indented` — one field or element per line
-/

namespace Kaleidoscope

/-- The brackets around the parts of a dump. -/
inductive Bracket where
  /-- Unnamed fields. -/
  | round
  /-- Named fields. -/
  | curly
  /-- Elements of a list. -/
  | square
  deriving DecidableEq, Repr

namespace Bracket

/-- The opening bracket. Before named fields it is set off from the constructor. -/
def opening : Bracket → String
  | round => "("
  | curly => " \x7b"
  | square => "["

/-- The closing bracket. -/
def closing : Bracket → String
  | round => ")"
  | curly => "\x7d"
  | square => "]"

/-- What separates the brackets from their contents on one line. -/
def padding : Bracket → String
  | curly => " "
  | _ => ""

end Bracket

/-- The structure of a value. -/
inductive Dump where
  /-- A literal, or a constructor without fields. -/
  | atom (text : String)
  /-- A named field. -/
  | labelled (label : String) (value : Dump)
  /-- A constructor with fields, or a list. -/
  | group (head : String) (bracket : Bracket) (parts : List Dump)

namespace Dump

/-- A constructor with unnamed fields. -/
def constructor (name : String) (fields : List Dump) : Dump := group name .round fields

/-- A constructor with named fields. -/
def record (name : String) (fields : List Dump) : Dump := group name .curly fields

/-- A list. -/
def list (elements : List Dump) : Dump := group "" .square elements

mutual

/-- A dump on one line. -/
def inline : Dump → String
  | atom text => text
  | labelled label value => label ++ ": " ++ inline value
  | group head bracket parts =>
    head ++ bracket.opening ++ bracket.padding ++ String.intercalate ", " (inlineAll parts) ++
      bracket.padding ++ bracket.closing

/-- Each of several dumps on one line. -/
def inlineAll : List Dump → List String
  | [] => []
  | part :: parts => inline part :: inlineAll parts

end

/-- The start of a line at a depth: four spaces for each level. -/
def indent (depth : Nat) : String := String.ofList (List.replicate (4 * depth) ' ')

mutual

/-- A dump with each part on a line of its own, one level deeper and followed by a comma. The first
line is not indented: it goes on where the text before it ended. -/
def indentedAt (depth : Nat) : Dump → String
  | atom text => text
  | labelled label value => label ++ ": " ++ indentedAt depth value
  | group head bracket [] => head ++ bracket.opening ++ bracket.closing
  | group head bracket (part :: parts) =>
    head ++ bracket.opening ++ "\n" ++ linesAt (depth + 1) (part :: parts) ++ indent depth ++
      bracket.closing

/-- The lines of the parts at a depth. -/
def linesAt (depth : Nat) : List Dump → String
  | [] => ""
  | part :: parts =>
    indent depth ++ indentedAt depth part ++ ",\n" ++ linesAt depth parts

end

/-- A dump with each part on a line of its own. -/
def indented (d : Dump) : String := d.indentedAt 0

end Dump

end Kaleidoscope
