import Kaleidoscope.CommandLine.Help
import Kaleidoscope.Scanner
import Kaleidoscope.Session.Run
import Kaleidoscope.Source.LineReader
import Kaleidoscope.Source.Script

/-!
# The program

What the whole program does, as a function from its arguments and inputs to its outputs. With a file
it parses all of it, shows no prompt, and its exit code says whether every unit was in order. Without
one it is interactive: it reads its standard input line by line and prompts for every unit.

Reports and prompts go to the standard error stream, printed trees to the standard output.

## Main definitions

* `FileError` — why a file could not be parsed at all
* `Output` — what the program leaves behind
* `Program.parseFile`, `Program.interact` — the two modes
* `Program.run` — the program
-/

namespace Kaleidoscope

/-! ### Printing trees -/

/-- An item in a format, with an end of line. -/
def TreeFormat.print (format : TreeFormat) (item : Item) : String :=
  match format with
  | debug => item.dump.indented ++ "\n"
  | compact => item.text ++ "\n"

/-- What a step prints, if printing is asked for. -/
def Step.printed (format? : Option TreeFormat) (s : Step) : String :=
  match format?, s.item? with
  | some format, some item => format.print item
  | _, _ => ""

/-! ### Files -/

/-- Why a file could not be parsed at all. -/
inductive FileError where
  /-- The system refused it. -/
  | system (code : Nat) (kind : String) (message : String)
  /-- Its bytes are not text. -/
  | notUtf8
  deriving DecidableEq, Repr

namespace FileError

/-- There is no such file. -/
def missing : FileError := system 2 "NotFound" "No such file or directory"

/-- The path leads to a directory. -/
def directory : FileError := system 21 "IsADirectory" "Is a directory"

/-- How the error is built. -/
def dump : FileError → Dump
  | system code kind message =>
    .record "Os"
      [.labelled "code" (.atom code.repr), .labelled "kind" (.atom kind),
        .labelled "message" (.atom (quotedString message))]
  | notUtf8 =>
    .record "Error"
      [.labelled "kind" (.atom "InvalidData"),
        .labelled "message" (.atom (quotedString Fault.notUtf8.message))]

/-- The error as the last line of the program. -/
def line (e : FileError) : String := "Error: " ++ e.dump.inline ++ "\n"

end FileError

/-! ### The program -/

/-- What the program leaves behind. -/
structure Output where
  code : Nat
  stdout : String
  stderr : String
  deriving DecidableEq, Repr

namespace Program

/-- What the steps of a run leave behind. -/
def output {τ : Type} [TokenSource τ] (format? : Option TreeFormat) (prompt? : Option String) (r : Run τ)
    (code : Nat) : Output where
  code := code
  stdout := String.join (r.steps.map (Step.printed format?))
  stderr := String.join ((r.notices prompt?).map Notice.display)

/-- The session over a text. -/
def textSession (text : List Char) : Parser (Scanner Script) :=
  .start (.ofSource (.ofList text))

/-- The session over a device. -/
def deviceSession (device : List Chunk) : Parser (Scanner LineReader) :=
  .start (.ofSource (.ofDevice device))

/-- The exit code of a run over a file. -/
def exitCode {τ : Type} [TokenSource τ] (r : Run τ) : Nat := if r.summary.errors = 0 then 0 else 1

/-- Parses the bytes of a file. -/
def parseFile (format? : Option TreeFormat) (content : Except FileError (List UInt8)) : Output :=
  match content with
  | .error e => ⟨1, "", e.line⟩
  | .ok bytes =>
    match decodeUtf8 bytes with
    | none => ⟨1, "", FileError.notUtf8.line⟩
    | some text =>
      let r := (textSession text).run
      output format? none r (exitCode r)

/-- Parses what a device delivers, prompting for every unit. Errors do not count against it: whoever
made them has been told. -/
def interact (format? : Option TreeFormat) (prompt : String) (device : List Chunk) : Output :=
  let o := output format? (some prompt) (deviceSession device).run 0
  { o with stderr := prompt ++ o.stderr }

/-- The program, given its arguments, the files it may read, and its standard input. -/
def run (args : List String) (files : String → Except FileError (List UInt8))
    (stdin : List Chunk) : Output :=
  match Options.ofArguments args with
  | .error (.misuse e) => ⟨(Stop.misuse e).exitCode, "", (Stop.misuse e).text⟩
  | .error stop => ⟨stop.exitCode, stop.text, ""⟩
  | .ok options =>
    match options.file with
    | some path => parseFile options.treeFormat (files path)
    | none => interact options.treeFormat options.prompt stdin

end Program

end Kaleidoscope
