import Kaleidoscope.Proofs.Session.Agreement
import Kaleidoscope.Proofs.Source.Delivery

/-!
# Interactive sessions

A session over a device is a session over a text, namely over the lines before the first attempt that
gives none. Nothing behind that attempt is of any account, and nothing behind it is consumed: when the
session is over, the reader stands right after that attempt, although it would read on if it were asked.

What the text is depends on the device, and a device that never fails delivers the text that its bytes
encode, however they are cut into chunks. Then an interactive session does what a session over a file
with those bytes does.

## Main results

* `Program.tokens_deviceSession` — the text that an interactive session sees
* `Program.consumed_afterAll_le` — what it consumes at most
* `Program.source_afterAll_run` — where it leaves the reader
* `Program.device_agrees_with_text` — both together, and for devices that deliver a text
-/

namespace Kaleidoscope

namespace Program

/-- A session over a device has the tokens of the lines before the first attempt that gives none. -/
theorem tokens_deviceSession (device : List Chunk) :
    (deviceSession device).tokens = textTokens (Reader.ofDevice device).lines.flatten := by
  rw [deviceSession, Parser.start, Parser.tokens_read, tokens_ofSource_eq_textTokens,
    LineReader.ofDevice, LineReader.text_eq]

theorem steps_run_deviceSession (device : List Chunk) :
    (deviceSession device).run.steps =
      (textSession (Reader.ofDevice device).lines.flatten).run.steps := by
  refine Parser.steps_run_eq ?_
  rw [tokens_deviceSession, tokens_textSession_eq]

/-- Whatever is asked of a session, it consumes no more than the first attempt without a line and those
before it. -/
theorem consumed_afterAll_le (device : List Chunk) (ops : List Operation) :
    ((deviceSession device).afterAll ops).rest.source.consumed ≤
      (Reader.ofDevice device).stopped.consumed := by
  obtain ⟨ps, hps⟩ := exists_cuts (CharSource.text (LineReader.ofDevice device))
  obtain ⟨k, hk⟩ := Scanner.exists_hasRead_afterAll hps ops
  have hsource := hk.source_eq
  have hpulls := hk.pulls_le hps
  rw [deviceSession, hsource]
  exact LineReader.consumed_skip_le hpulls

/-- When a session is over, the reader stands after the first attempt without a line, and stays there. -/
theorem source_afterAll_run (device : List Chunk) (ops : List Operation) :
    ((deviceSession device).run.parser.afterAll ops).rest.source =
      ⟨[], (Reader.ofDevice device).stopped⟩ := by
  obtain ⟨ps, hps⟩ := exists_cuts (CharSource.text (LineReader.ofDevice device))
  obtain ⟨k, hk⟩ := Scanner.exists_hasRead_afterAll hps (.run :: ops)
  have hend : ((deviceSession device).run.parser.afterAll ops).current = .endOfInput :=
    Parser.current_afterAll_of_end (Parser.current_run_eq _) ops
  have hafter : (Parser.start (Scanner.ofSource (LineReader.ofDevice device))).afterAll (.run :: ops) =
    (deviceSession device).run.parser.afterAll ops := rfl
  rw [hafter, hend] at hk
  exact (hk.source_eq_of_end hps).trans (LineReader.skip_text _)

theorem output_congr {τ τ' : Type} [TokenSource τ] [TokenSource τ'] {r : Run τ} {r' : Run τ'}
    (h : r.steps = r'.steps) (format? : Option TreeFormat) (prompt? : Option String) (code : Nat) :
    output format? prompt? r code = output format? prompt? r' code := by
  rw [output, output, h, (Run.agrees_of_steps h).notices]

theorem exitCode_congr {τ τ' : Type} [TokenSource τ] [TokenSource τ'] {r : Run τ} {r' : Run τ'}
    (h : r.steps = r'.steps) : exitCode r = exitCode r' := by
  rw [exitCode, exitCode, (Run.agrees_of_steps h).summary]

/-- A file is parsed as its text is. -/
theorem parseFile_encodeUtf8 (format? : Option TreeFormat) (text : List Char) :
    parseFile format? (.ok (encodeUtf8 text)) =
      output format? none (textSession text).run (exitCode (textSession text).run) := by
  simp only [parseFile, decodeUtf8_encodeUtf8]

/-- A session over a device hands out the same items, counts the same and tells the same as one over the
lines before the first attempt that gives none. No byte behind that attempt is consumed, whatever is
asked of the session, and when it has run the reader stands there. If the device delivers a text, in
whatever pieces, the session does what parsing a file with that text does. -/
theorem device_agrees_with_text (device : List Chunk) :
    (deviceSession device).run.Agrees (textSession (Reader.ofDevice device).lines.flatten).run ∧
      (∀ ops, ((deviceSession device).afterAll ops).rest.source.consumed ≤
        (Reader.ofDevice device).stopped.consumed) ∧
      (∀ ops, ((deviceSession device).run.parser.afterAll ops).rest.source =
        ⟨[], (Reader.ofDevice device).stopped⟩) ∧
      ∀ text, Delivers device (encodeUtf8 text) →
        (deviceSession device).run.Agrees (textSession text).run ∧
          ∀ format?, parseFile format? (.ok (encodeUtf8 text)) =
            output format? none (deviceSession device).run (exitCode (deviceSession device).run) := by
  have hsteps := steps_run_deviceSession device
  refine ⟨Run.agrees_of_steps hsteps, consumed_afterAll_le device, source_afterAll_run device, ?_⟩
  intro text hdelivers
  rw [Reader.lines_of_delivers hdelivers] at hsteps
  refine ⟨Run.agrees_of_steps hsteps, fun format? => ?_⟩
  rw [parseFile_encodeUtf8, output_congr hsteps, exitCode_congr hsteps]

/-- A letter whose two bytes come apart, with an interruption between them; and a device that delivers a
digit only after it has said that there is nothing, so that the session has no unit and the reader, if it
were asked, would read on. -/
theorem device_agrees_with_text_in_pieces :
    (deviceSession [.bytes [0xCE], .interrupted, .bytes [0xBB, 0x3B]]).run.Agrees
        (textSession "λ;".toList).run ∧
      ((deviceSession [.bytes [], .bytes [0x31]]).run.Agrees (textSession []).run ∧
        (CharSource.next (deviceSession [.bytes [], .bytes [0x31]]).run.parser.rest.source).1 =
          .char '1') := by
  have hpieces : Delivers [.bytes [0xCE], .interrupted, .bytes [0xBB, 0x3B]]
      (encodeUtf8 "λ;".toList) := .bytes _ _ (.interrupted (.bytes _ _ .nil))
  have hempty : decodeUtf8 [] = some [] := decodeUtf8_encodeUtf8 []
  have hdigit : decodeUtf8 [0x31] = some ['1'] := decodeUtf8_encodeUtf8 ['1']
  have hnone : (Reader.ofDevice [.bytes [], .bytes [0x31]]).readLine =
      (.ok [], ⟨[], [.bytes [0x31]], 0⟩) := by
    simp [Reader.readLine, Reader.attempt, Reader.gather, Reader.ofDevice, LineRead.text, hempty]
  have hstop : ∀ c cs,
      (Reader.ofDevice [.bytes [], .bytes [0x31]]).readLine.1 ≠ .ok (c :: cs) := by
    intro c cs h
    rw [hnone] at h
    cases Except.ok.inj h
  refine ⟨((device_agrees_with_text _).2.2.2 _ hpieces).1, ?_, ?_⟩
  · have hagrees := (device_agrees_with_text [.bytes [], .bytes [0x31]]).1
    rwa [Reader.lines_of_none hstop] at hagrees
  · have hsource : (deviceSession [.bytes [], .bytes [0x31]]).run.parser.rest.source =
        ⟨[], ⟨[], [.bytes [0x31]], 0⟩⟩ := by
      have hstopped := (device_agrees_with_text [.bytes [], .bytes [0x31]]).2.2.1 []
      rwa [Reader.stopped_of_none hstop, hnone] at hstopped
    rw [hsource]
    simp [CharSource.next, LineReader.next, Reader.readLine, Reader.attempt, Reader.gather,
      LineRead.text, Reader.lineFeed, hdigit]

end Program

end Kaleidoscope
