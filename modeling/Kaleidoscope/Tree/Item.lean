import Kaleidoscope.Tree.Expr

/-!
# Items

What a program consists of: definitions, external declarations, and expressions to evaluate. An
expression at the top level is wrapped in a function without parameters, so a later stage has only
functions to deal with. The name of that function has an underscore in it, which no word of a program
can have, so it never meets a name that a program defines.

## Main definitions

* `Prototype`, `Function` — the head of a function, and a function
* `Prototype.anonymous` — the head of the function around a bare expression
* `Item` — one unit of a program
* `Item.text` — the compact text
* `Item.dump` — how the item is built
-/

namespace Kaleidoscope

/-- The name and the parameters of a function. -/
structure Prototype where
  name : String
  parameters : List String
  deriving DecidableEq, Repr

namespace Prototype

/-- The name of the function around a bare expression. -/
def anonymousName : String := "__anon_expr"

/-- The head of the function around a bare expression. -/
def anonymous : Prototype := ⟨anonymousName, []⟩

/-- The prototype as programs write it. -/
def text (p : Prototype) : String :=
  p.name ++ "(" ++ String.intercalate " " p.parameters ++ ")"

/-- How the prototype is built. -/
def dump (p : Prototype) : Dump :=
  .record "Prototype"
    [.labelled "name" (.atom (quotedString p.name)),
      .labelled "args" (.list (p.parameters.map fun a => .atom (quotedString a)))]

end Prototype

/-- A function: its head and the expression that it computes. -/
structure Function where
  prototype : Prototype
  body : Expr
  deriving Repr

namespace Function

/-- The function around a bare expression. -/
def ofExpr (body : Expr) : Function := ⟨.anonymous, body⟩

/-- Whether the function has the name reserved for bare expressions. -/
def isAnonymous (f : Function) : Bool := f.prototype.name = Prototype.anonymousName

/-- The function as programs write it. -/
def text (f : Function) : String := "def " ++ f.prototype.text ++ " " ++ f.body.text

/-- How the function is built. -/
def dump (f : Function) : Dump :=
  .record "Function" [.labelled "proto" f.prototype.dump, .labelled "body" f.body.dump]

/-- Equality of functions, with numbers compared as numbers. -/
def same (f g : Function) : Bool := f.prototype = g.prototype && f.body.same g.body

theorem isAnonymous_ofExpr (body : Expr) : (ofExpr body).isAnonymous = true := by
  simp [ofExpr, isAnonymous, Prototype.anonymous]

end Function

/-- One unit of a program. -/
inductive Item where
  /-- A function that the program defines. -/
  | definition (function : Function)
  /-- A function that is defined elsewhere. -/
  | external (prototype : Prototype)
  /-- An expression to evaluate. -/
  | expression (function : Function)
  deriving Repr

namespace Item

/-- The item on one line, as programs write it. -/
def text : Item → String
  | definition f => f.text
  | external p => "extern " ++ p.text
  | expression f => f.body.text

/-- How the item is built. -/
def dump : Item → Dump
  | definition f => .constructor "Definition" [f.dump]
  | external p => .constructor "Extern" [p.dump]
  | expression f => .constructor "TopLevelExpr" [f.dump]

end Item

end Kaleidoscope
