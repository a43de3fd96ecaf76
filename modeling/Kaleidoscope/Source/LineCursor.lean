import Kaleidoscope.Source.LineReader

/-!
# A line and a place in it

Another way to hand out the characters of lines: the whole line is kept, with the place of the next
character. A line that cannot be read leaves both as they are, so the place stays at the end of a line
that has been handed out.

The place is an index into the line, and nothing in this representation keeps it from lying outside. An
index that does is a failure of its own, for which there is no answer.

## Main definitions

* `LineCursor` — a line, a place in it, the reader, and the number of attempts that it has made
* `LineCursor.next` — the next character, if the place is in the line
* `LineCursor.calls` — several characters in succession
-/

namespace Kaleidoscope

/-- A line, the place of the next character in it, and the reader. -/
structure LineCursor where
  line : List Char
  pos : Nat
  reader : Reader
  /-- How often it has been attempted to read a line. -/
  attempts : Nat
  deriving DecidableEq, Repr

namespace LineCursor

/-- The characters of a device. -/
def ofDevice (device : List Chunk) : LineCursor := ⟨[], 0, .ofDevice device, 0⟩

/-- The character at the place, if it is in the line. -/
def handOut (s : LineCursor) : Option (Answer × LineCursor) :=
  s.line[s.pos]?.map fun c => (.char c, { s with pos := s.pos + 1 })

/-- The next character. There is no answer if the place is not in the line. -/
def next (s : LineCursor) : Option (Answer × LineCursor) :=
  if s.pos = s.line.length then
    match s.reader.readLine with
    | (.ok [], rest) => some (.nothing, { s with reader := rest, attempts := s.attempts + 1 })
    | (.ok (c :: cs), rest) => handOut ⟨c :: cs, 0, rest, s.attempts + 1⟩
    | (.error fault, rest) => some (.failed fault, { s with reader := rest, attempts := s.attempts + 1 })
  else s.handOut

/-- The answers to `n` calls, and what is left after them. -/
def calls : Nat → LineCursor → Option (List Answer × LineCursor)
  | 0, s => some ([], s)
  | n + 1, s => s.next.bind fun (a, rest) => (calls n rest).map fun (as, t) => (a :: as, t)

end LineCursor

end Kaleidoscope
