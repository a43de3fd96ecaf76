import Kaleidoscope.CommandLine.TreeFormat

/-!
# The command line

A file to parse, a format to print trees in, and a prompt; all may be left out.

## When a value is judged

The value of an option may be its own argument, and then nothing is known of it yet when the option
is met: the next argument may be another option, or there may be none. So a value given that way
stays *pending* and is judged when something follows that settles it: an option that is known, a
positional argument, or the end. A value after an equals sign is judged at once.

The order matters when two things are wrong. An argument that cannot be understood at all is reported
before a pending value has been judged, any other after. Of a value itself it is first asked whether
it is there, then whether the option has been given before, and last whether it is a good value.

## Main definitions

* `Options` — what the arguments say
* `Stop` — why the program does not start
* `Argument` — the shapes of arguments
* `Reading` — the arguments read so far
* `Options.ofArguments` — all arguments
-/

namespace Kaleidoscope

/-- What the arguments say. -/
structure Options where
  /-- The file to parse; without one the program is interactive. -/
  file : Option String
  /-- How to print what has been parsed, if at all. -/
  treeFormat : Option TreeFormat
  prompt : String
  deriving DecidableEq, Repr

/-- What can be wrong with arguments. -/
inductive UsageError where
  | unknownArgument
  | invalidValue
  | argumentConflict
  | tooManyValues
  deriving DecidableEq, Repr

/-- Why the program does not start. -/
inductive Stop where
  /-- Help was asked for, in short or in full. -/
  | help (full : Bool)
  | version
  | misuse (error : UsageError)
  deriving DecidableEq, Repr

namespace Stop

/-- The exit code: asking for help is no mistake. -/
def exitCode : Stop → Nat
  | help _ => 0
  | version => 0
  | misuse _ => 2

end Stop

/-! ### The shapes of arguments -/

/-- An argument by its shape. -/
inductive Argument where
  /-- Two dashes alone, after which nothing is an option. -/
  | dashes
  /-- Two dashes and a name, with what follows an equals sign. -/
  | long (name : String) (value? : Option String)
  /-- One dash and a letter. What comes after the letter does not matter. -/
  | short (letter : Char)
  /-- Anything else, a lone dash included. -/
  | plain (text : String)
  deriving DecidableEq, Repr

namespace Argument

/-- The shape of an argument. -/
def ofString (text : String) : Argument :=
  match text.toList with
  | ['-', '-'] => dashes
  | '-' :: '-' :: cs =>
    long (String.ofList (cs.takeWhile (· != '='))) <|
      match cs.dropWhile (· != '=') with
      | [] => none
      | _ :: value => some (String.ofList value)
  | '-' :: c :: _ => short c
  | _ => plain text

end Argument

/-- What takes a value. -/
inductive Slot where
  | file
  | treeFormat
  | prompt
  deriving DecidableEq, Repr

/-- The options that have a long name. -/
inductive LongOption where
  | help
  | version
  | valued (slot : Slot)
  deriving DecidableEq, Repr

/-- The option of that name. Names are given in full. -/
def LongOption.ofName? (name : String) : Option LongOption :=
  if name = "help" then some help
  else if name = "version" then some version
  else if name = "inspect-tree" then some (valued .treeFormat)
  else if name = "prompt" then some (valued .prompt)
  else none

/-! ### Reading arguments in order -/

/-- The arguments read so far. -/
structure Reading where
  file : Option String := none
  treeFormat : Option TreeFormat := none
  prompt : Option String := none
  /-- What has been given and not been judged: the place of a value, and the value if there is one
  yet. -/
  pending : Option (Slot × Option String) := none
  /-- Whether two dashes have been met. -/
  afterDashes : Bool := false
  deriving DecidableEq, Repr

namespace Reading

/-- Fails for a mistake in the arguments. -/
def misuse {α : Type} (e : UsageError) : Except Stop α := .error (.misuse e)

/-- Judges a value and takes it in. -/
def assign (slot : Slot) (value : String) (r : Reading) : Except Stop Reading :=
  match slot with
  | .file => if value = "" then misuse .invalidValue else .ok { r with file := some value }
  | .treeFormat =>
    if r.treeFormat.isSome then misuse .argumentConflict
    else
      match TreeFormat.ofName? false value with
      | some format => .ok { r with treeFormat := some format }
      | none => misuse .invalidValue
  | .prompt =>
    if r.prompt.isSome then misuse .argumentConflict else .ok { r with prompt := some value }

/-- Judges what is pending. -/
def settle (r : Reading) : Except Stop Reading :=
  match r.pending with
  | none => .ok r
  | some (_, none) => misuse .invalidValue
  | some (slot, some value) => { r with pending := none }.assign slot value

/-- Takes in an argument that is no option. There is one place for such an argument. -/
def positional (text : String) (r : Reading) : Except Stop Reading :=
  if r.file.isSome || r.pending.any (fun p => p.1 = .file) then misuse .unknownArgument
  else do
    let settled ← r.settle
    return { settled with pending := some (.file, some text) }

/-- Takes in an option with a long name. -/
def longOption (name : String) (value? : Option String) (r : Reading) : Except Stop Reading :=
  match LongOption.ofName? name, value? with
  | none, _ => misuse .unknownArgument
  | some .help, some _ | some .version, some _ => misuse .tooManyValues
  | some .help, none => do
    let _ ← r.settle
    .error (.help true)
  | some .version, none => do
    let _ ← r.settle
    .error .version
  | some (.valued slot), none => do
    let settled ← r.settle
    return { settled with pending := some (slot, none) }
  | some (.valued slot), some value => do
    let settled ← r.settle
    settled.assign slot value

/-- Takes in an option of one letter. -/
def shortOption (letter : Char) (r : Reading) : Except Stop Reading :=
  if letter = 'h' then do
    let _ ← r.settle
    .error (.help false)
  else if letter = 'V' then do
    let _ ← r.settle
    .error .version
  else misuse .unknownArgument

/-- Takes in an argument. -/
def read (r : Reading) (text : String) : Except Stop Reading :=
  if r.afterDashes then r.positional text
  else
    match Argument.ofString text with
    | .dashes => .ok { r with afterDashes := true }
    | .long name value? => r.longOption name value?
    | .short letter => r.shortOption letter
    | .plain text =>
      match r.pending with
      | some (slot, none) => .ok { r with pending := some (slot, some text) }
      | _ => r.positional text

end Reading

namespace Options

/-- The prompt if none is given. -/
def defaultPrompt : String := "ready> "

/-- What all arguments say. -/
def ofArguments (args : List String) : Except Stop Options := do
  let read ← args.foldlM Reading.read {}
  let settled ← read.settle
  return ⟨settled.file, settled.treeFormat, settled.prompt.getD defaultPrompt⟩

end Options

end Kaleidoscope
