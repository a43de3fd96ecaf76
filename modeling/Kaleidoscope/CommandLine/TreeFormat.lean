/-!
# Formats for trees

The two ways in which the program can print what it has parsed.
-/

namespace Kaleidoscope

/-- How to print a tree. -/
inductive TreeFormat where
  /-- Every constructor, with one field or element per line. -/
  | debug
  /-- The compact text. -/
  | compact
  deriving DecidableEq, Repr

namespace TreeFormat

/-- Every format, in the order in which help lists them. -/
def all : List TreeFormat := [debug, compact]

theorem mem_all (f : TreeFormat) : f ∈ all := by cases f <;> decide

/-- The name that selects the format. -/
def name : TreeFormat → String
  | debug => "debug"
  | compact => "compact"

/-- What help says about the format. -/
def help : TreeFormat → String
  | debug => "Rust debug representation of the nodes"
  | compact => "One line, fully parenthesised"

/-- Whether a text names the format, with or without regard to the case of ASCII letters. -/
def isNamed (f : TreeFormat) (ignoreCase : Bool) (text : String) : Bool :=
  if ignoreCase then f.name.toList.map Char.toLower = text.toList.map Char.toLower
  else f.name = text

/-- The format of that name. -/
def ofName? (ignoreCase : Bool) (text : String) : Option TreeFormat :=
  all.find? fun f => f.isNamed ignoreCase text

/-- What to say if there is no format of that name. -/
def unknownMessage (text : String) : String := "invalid variant: " ++ text

theorem ofName?_name (f : TreeFormat) (ignoreCase : Bool) :
    ofName? ignoreCase f.name = some f := by
  cases f <;> cases ignoreCase <;> decide

end TreeFormat

end Kaleidoscope
