import Kaleidoscope.Program

/-!
# The command

The outermost layer: it finds out what the arguments and the inputs are, hands them to `Program`, and
prints what comes back. All decisions are made there.

## Waiting for input

Interactive input has to be asked for at the last moment, and a step is a function that cannot wait.
So a step is tried on what has been typed. If it ran into the end of that, it is tried again from the
same place with one more line; what the user sees is only ever the step that had enough.
-/

namespace Kaleidoscope

/-- A step that stopped for want of more input. -/
def Parser.isStarved (p : Parser (Scanner LineReader)) : Bool := p.rest.ahead = .nothing

/-- The parser over a device that has more to deliver. At the end of the input that changes nothing. -/
def Parser.supply (chunk : Chunk) (p : Parser (Scanner LineReader)) : Parser (Scanner LineReader) :=
  if h : p.current = .endOfInput then p
  else
    let source := p.rest.source
    let reader := { source.reader with device := source.reader.device ++ [chunk] }
    { p with
      rest := { p.rest with source := { source with reader } }
      isFinal := fun he => absurd he h }

/-- Shows what a step says and prints. -/
def Step.announce (options : Options) (prompt? : Option String) (s : Step) : IO Unit := do
  let err ← IO.getStderr
  for notice in s.notices prompt? do
    err.putStr notice.display
  err.flush
  let out ← IO.getStdout
  out.putStr (s.printed options.treeFormat)
  out.flush

/-- One line of the standard input; nothing at its end. -/
partial def readLine (stdin : IO.FS.Stream) (gathered : Array UInt8) : IO Chunk := do
  let next ← (some <$> stdin.read 1) <|> pure none
  match next with
  | none => return .failed "the standard input cannot be read"
  | some bytes =>
    match bytes[0]? with
    | none => return .bytes gathered.toList
    | some b =>
      if b = Reader.lineFeed then return .bytes (gathered.push b).toList
      else readLine stdin (gathered.push b)

/-- Takes steps, asking for lines as they are needed, until none is left. -/
partial def converse (options : Options) (stdin : IO.FS.Stream) (closed : Bool)
    (p : Parser (Scanner LineReader)) : IO Unit := do
  let (s, q) := p.step
  if q.isStarved && !closed then
    let chunk ← readLine stdin #[]
    converse options stdin (chunk = .bytes []) (p.supply chunk)
  else
    s.announce options (if p.current = .endOfInput then none else some options.prompt)
    if p.current ≠ .endOfInput then converse options stdin closed { q with journal := [] }

/-- Waits for the first token. -/
partial def listen (stdin : IO.FS.Stream) (device : List Chunk) :
    IO (Bool × Parser (Scanner LineReader)) := do
  let p := Program.deviceSession device
  let closed := device.getLast? = some (.bytes [])
  if p.isStarved && !closed then listen stdin (device ++ [← readLine stdin #[]])
  else return (closed, p)

/-- The content of a file, or why it cannot be had. -/
def readFile (path : String) : IO (Except FileError (List UInt8)) := do
  try
    return .ok (← IO.FS.readBinFile path).toList
  catch
    | .noFileOrDirectory .. => return .error .missing
    | .inappropriateType .. => return .error .directory
    | e => return .error (.system 5 "Other" (toString e))

end Kaleidoscope

open Kaleidoscope in
/-- The command. -/
def main (args : List String) : IO UInt32 := do
  let out ← IO.getStdout
  let err ← IO.getStderr
  let conclude (o : Output) : IO UInt32 := do
    out.putStr o.stdout
    err.putStr o.stderr
    return o.code.toUInt32
  match Options.ofArguments args with
  | .ok options =>
    match options.file with
    | some path => conclude (Program.parseFile options.treeFormat (← readFile path))
    | none =>
      err.putStr options.prompt
      err.flush
      let stdin ← IO.getStdin
      let (closed, p) ← listen stdin []
      converse options stdin closed p
      return 0
  | .error _ => conclude (Program.run args (fun _ => .error .missing) [])
