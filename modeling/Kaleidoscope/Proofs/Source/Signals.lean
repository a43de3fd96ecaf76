import Kaleidoscope.Proofs.Source.Delivery

/-!
# What a device says

A reader does not see where one chunk ends and the next begins, and an interruption only makes it ask
again. What it can tell apart is one byte after the other, the end of the bytes wherever the device
announces it, and failures. These are the signals of a device, and they are all that an attempt to read a
line depends on.

Two devices have the same signals exactly if one becomes the other by cutting chunks in two, putting them
together again, and adding or leaving out interruptions. So nothing that is read from one of them differs
from what is read from the other.

## Main definitions

* `Signal`, `Chunk.signals` — what a reader can tell apart
* `Rechunked` — devices that differ in their cuts and interruptions only
* `Signal.attempt` — an attempt to read a line of signals

## Main results

* `rechunked_iff` — these are the devices with the same signals
* `Reader.makes_gather` — an attempt depends on the signals alone
* `Reader.Alike.readLine` — readers with the same signals read the same lines
-/

namespace Kaleidoscope

/-- What a reader can tell apart. -/
inductive Signal where
  | byte (b : UInt8)
  /-- The device says that there are no more bytes, for now. -/
  | endOfFile
  | failed (message : String)
  deriving DecidableEq, Repr

/-- What a device says in one chunk. -/
def Chunk.said : Chunk → List Signal
  | bytes [] => [.endOfFile]
  | bytes content => content.map .byte
  | interrupted => []
  | failed message => [.failed message]

/-- What a device says, chunk after chunk. -/
def Chunk.signals (device : List Chunk) : List Signal := device.flatMap said

/-- Devices that differ in where chunks that are not empty are cut, and in interruptions, but in nothing
else. -/
inductive Rechunked : List Chunk → List Chunk → Prop where
  | refl (device : List Chunk) : Rechunked device device
  | symm {d d' : List Chunk} (h : Rechunked d d') : Rechunked d' d
  | trans {d d' d'' : List Chunk} (h : Rechunked d d') (h' : Rechunked d' d'') : Rechunked d d''
  | cut (before : List Chunk) (b c : UInt8) (bs cs : List UInt8) (later : List Chunk) :
    Rechunked (before ++ .bytes (b :: bs ++ c :: cs) :: later)
      (before ++ .bytes (b :: bs) :: .bytes (c :: cs) :: later)
  | interrupt (before later : List Chunk) :
    Rechunked (before ++ later) (before ++ .interrupted :: later)

/-! ### Cuts and interruptions -/

section

variable {d d' : List Chunk}

theorem Chunk.signals_cons (chunk : Chunk) (later : List Chunk) :
    signals (chunk :: later) = chunk.said ++ signals later := List.flatMap_cons

theorem Chunk.signals_append (d d' : List Chunk) : signals (d ++ d') = signals d ++ signals d' :=
  List.flatMap_append

theorem Rechunked.signals_eq (h : Rechunked d d') : Chunk.signals d = Chunk.signals d' := by
  induction h with
  | refl => rfl
  | symm _ ih => exact ih.symm
  | trans _ _ ih ih' => exact ih.trans ih'
  | cut before b c bs cs later =>
    have hcut : (Chunk.bytes (b :: bs ++ c :: cs)).said =
        (Chunk.bytes (b :: bs)).said ++ (Chunk.bytes (c :: cs)).said := List.map_append
    rw [Chunk.signals_append, Chunk.signals_append, Chunk.signals_cons, Chunk.signals_cons,
      Chunk.signals_cons, hcut, List.append_assoc]
  | interrupt before later => rw [Chunk.signals_append, Chunk.signals_append]; rfl

theorem Rechunked.append_left (front : List Chunk) (h : Rechunked d d') :
    Rechunked (front ++ d) (front ++ d') := by
  induction h with
  | refl d => exact .refl _
  | symm _ ih => exact ih.symm
  | trans _ _ ih ih' => exact ih.trans ih'
  | cut before b c bs cs later =>
    rw [← List.append_assoc, ← List.append_assoc]
    exact .cut (front ++ before) b c bs cs later
  | interrupt before later =>
    rw [← List.append_assoc, ← List.append_assoc]
    exact .interrupt (front ++ before) later

/-- A device that gives one signal at a time. -/
def Signal.chunk : Signal → Chunk
  | byte b => .bytes [b]
  | endOfFile => .bytes []
  | failed message => .failed message

/-- Any chunk can be cut into single bytes. -/
theorem rechunked_said (chunk : Chunk) (later : List Chunk) :
    Rechunked (chunk :: later) (chunk.said.map Signal.chunk ++ later) := by
  cases chunk with
  | bytes content =>
    cases content with
    | nil => exact .refl _
    | cons b bs =>
      induction bs generalizing b with
      | nil => exact .refl _
      | cons c cs ih => exact (Rechunked.cut [] b c [] cs later).trans ((ih c).append_left [.bytes [b]])
  | interrupted => exact (Rechunked.interrupt [] later).symm
  | failed message => exact .refl _

theorem rechunked_signals (device : List Chunk) :
    Rechunked device ((Chunk.signals device).map Signal.chunk) := by
  induction device with
  | nil => exact .refl _
  | cons chunk later ih =>
    rw [Chunk.signals_cons, List.map_append]
    exact (rechunked_said chunk later).trans (ih.append_left _)

/-- The devices with the same signals are those that differ in cuts and interruptions only. -/
theorem rechunked_iff : Rechunked d d' ↔ Chunk.signals d = Chunk.signals d' := by
  constructor
  · exact Rechunked.signals_eq
  · intro h
    exact (rechunked_signals d).trans (h ▸ (rechunked_signals d').symm)

end

/-! ### An attempt -/

/-- What an attempt to read a line makes of signals. -/
structure SignalRead where
  gathered : List UInt8
  failure? : Option String
  later : List Signal
  deriving DecidableEq, Repr

/-- Reads bytes up to a line feed, the end of the bytes, or a failure. -/
def Signal.attempt : List Signal → SignalRead
  | [] => ⟨[], none, []⟩
  | .byte b :: later =>
    if b = Reader.lineFeed then ⟨[b], none, later⟩
    else { attempt later with gathered := b :: (attempt later).gathered }
  | .endOfFile :: later => ⟨[], none, later⟩
  | .failed message :: later => ⟨[], some message, later⟩

section

variable {gathered buffer bytes : List UInt8} {device : List Chunk} {pending : List Signal}

theorem Signal.attempt_lineFeed (h : Reader.lineFeed ∉ bytes) (pending : List Signal) :
    attempt (bytes.map .byte ++ .byte Reader.lineFeed :: pending) =
      ⟨bytes ++ [Reader.lineFeed], none, pending⟩ := by
  induction bytes with
  | nil => exact if_pos rfl
  | cons b bytes ih =>
    obtain ⟨hb, hbytes⟩ := not_or.1 (mt List.mem_cons.2 h)
    rw [List.map_cons, List.cons_append, attempt, if_neg (Ne.symm hb), ih hbytes]
    rfl

theorem Signal.attempt_append (h : Reader.lineFeed ∉ bytes) (pending : List Signal) :
    attempt (bytes.map .byte ++ pending) =
      { attempt pending with gathered := bytes ++ (attempt pending).gathered } := by
  induction bytes with
  | nil => rfl
  | cons b bytes ih =>
    obtain ⟨hb, hbytes⟩ := not_or.1 (mt List.mem_cons.2 h)
    rw [List.map_cons, List.cons_append, attempt, if_neg (Ne.symm hb), ih hbytes]
    rfl

/-- An attempt that makes of `pending`, after what was gathered before, what it should. -/
structure LineRead.Makes (gathered : List UInt8) (pending : List Signal) (a : LineRead) : Prop where
  gathered_eq : a.gathered = gathered ++ (Signal.attempt pending).gathered
  failure_eq : a.failure? = (Signal.attempt pending).failure?
  later_eq : a.buffer.map Signal.byte ++ Chunk.signals a.device = (Signal.attempt pending).later

namespace Reader

/-- Where the buffer holds a line feed, the device is not asked. -/
theorem makes_of_mem (h : lineFeed ∈ buffer) (gathered : List UInt8) (device : List Chunk) :
    (gather gathered buffer device).Makes gathered (buffer.map .byte ++ Chunk.signals device) := by
  cases hfeed : buffer.dropWhile (· != lineFeed) with
  | nil => exact absurd h (dropWhile_eq_nil_iff.1 hfeed)
  | cons feed rest =>
    have hgather : gather gathered buffer device =
        ⟨gathered ++ buffer.takeWhile (· != lineFeed) ++ [feed], none, rest, device⟩ := by
      rw [gather.eq_def, hfeed]
    have hsplit := List.takeWhile_append_dropWhile (p := (· != lineFeed)) (l := buffer)
    have hbefore := not_mem_takeWhile lineFeed buffer
    rw [hgather]
    generalize buffer.takeWhile (· != lineFeed) = before at hsplit hbefore
    rw [← hsplit, hfeed, eq_of_dropWhile hfeed, List.map_append, List.map_cons, List.append_assoc,
      List.cons_append]
    have hattempt := Signal.attempt_lineFeed hbefore (rest.map .byte ++ Chunk.signals device)
    exact ⟨by rw [hattempt, List.append_assoc], by rw [hattempt], by rw [hattempt]⟩

/-- An attempt does what it should if it does so with nothing in the buffer. -/
theorem makes_of_nil (hnil : ∀ g, (gather g [] device).Makes g (Chunk.signals device))
    (gathered buffer : List UInt8) :
    (gather gathered buffer device).Makes gathered (buffer.map .byte ++ Chunk.signals device) := by
  by_cases hmem : lineFeed ∈ buffer
  · exact makes_of_mem hmem gathered device
  · obtain ⟨hgathered, hfailure, hlater⟩ := hnil (gathered ++ buffer)
    have hattempt := Signal.attempt_append hmem (Chunk.signals device)
    rw [gather_of_not_mem hmem]
    exact ⟨by rw [hgathered, hattempt, List.append_assoc], by rw [hfailure, hattempt],
      by rw [hlater, hattempt]⟩

/-- What an attempt gathers, and what it leaves, depends on the signals alone. -/
theorem makes_gather (gathered buffer : List UInt8) (device : List Chunk) :
    (gather gathered buffer device).Makes gathered (buffer.map .byte ++ Chunk.signals device) := by
  induction device generalizing gathered buffer with
  | nil => exact makes_of_nil (fun g => ⟨rfl, rfl, rfl⟩) gathered buffer
  | cons chunk later ih =>
    refine makes_of_nil (fun g => ?_) gathered buffer
    cases chunk with
    | bytes content =>
      cases content with
      | nil => exact ⟨rfl, rfl, rfl⟩
      | cons b content =>
        show (gather (g ++ []) (b :: content) later).Makes g _
        rw [List.append_nil]
        exact ih g (b :: content)
    | interrupted =>
      show (gather (g ++ []) [] later).Makes g _
      rw [List.append_nil]
      exact ih g []
    | failed message => exact ⟨rfl, rfl, rfl⟩

/-! ### Readers -/

/-- What a reader has in front of it, delivered or still to come. -/
def signals (r : Reader) : List Signal := r.buffer.map .byte ++ Chunk.signals r.device

/-- Readers that have consumed as much and have the same in front of them. -/
structure Alike (r r' : Reader) : Prop where
  signals_eq : r.signals = r'.signals
  consumed_eq : r.consumed = r'.consumed

variable {r r' : Reader}

theorem makes_attempt (r : Reader) : r.attempt.Makes [] r.signals := makes_gather [] r.buffer r.device

theorem signals_readLine (r : Reader) : r.readLine.2.signals = (Signal.attempt r.signals).later :=
  r.makes_attempt.later_eq

theorem Alike.gathered_eq (h : r.Alike r') : r.attempt.gathered = r'.attempt.gathered := by
  rw [r.makes_attempt.gathered_eq, r'.makes_attempt.gathered_eq, h.signals_eq]

/-- Readers with the same signals read the same lines. -/
theorem Alike.readLine (h : r.Alike r') :
    r.readLine.1 = r'.readLine.1 ∧ r.readLine.2.Alike r'.readLine.2 := by
  have hfailure : r.attempt.failure? = r'.attempt.failure? := by
    rw [r.makes_attempt.failure_eq, r'.makes_attempt.failure_eq, h.signals_eq]
  refine ⟨?_, ?_, ?_⟩
  · show r.attempt.text = r'.attempt.text
    rw [LineRead.text, LineRead.text, hfailure, h.gathered_eq]
  · rw [signals_readLine, signals_readLine, h.signals_eq]
  · show r.consumed + r.attempt.gathered.length = r'.consumed + r'.attempt.gathered.length
    rw [h.consumed_eq, h.gathered_eq]

end Reader

theorem Rechunked.alike {d d' : List Chunk} (h : Rechunked d d') :
    (Reader.ofDevice d).Alike (Reader.ofDevice d') := ⟨h.signals_eq, rfl⟩

end

end Kaleidoscope
