import Kaleidoscope.Proofs.Session.Agreement
import Kaleidoscope.Proofs.Session.Position
import Kaleidoscope.Proofs.Token.Naming

/-!
# What the user is told

For every unit a session tells its user one line at most. The line goes to a terminal together with
whatever else is printed there, so it must not be able to move the cursor, to end early or to look like
two lines, whatever stands in the program. And where it says that a unit could not be parsed, nothing else
is left of the error, so it must say all there is to say.

## Six messages, one grammar

An error's message is a phrase for what was expected and then the name of a token. Three of the phrases
start alike, with a closing parenthesis, and each of them could be followed by any name. What tells them
apart is that no phrase, with the comma behind it, is the beginning of another one. So the phrase can be
taken off the front of a message, and the name of the token is left.

## Which tokens

Names of tokens can be told apart as long as a scanner has made the tokens, and all tokens that a session
comes across have been made by one. `Token.IsScanned` says so of a token, and it is what carries over from
the source to the errors of a run.

## Sources without an end

The sources here have a size. Over one that has none, but stops, a session tells plain lines as well, and
breaks off at scanned tokens only: `Unbounded.StopsAfter.tells_plainly`. Over one that never stops, each scan
that returns makes a scanned token all the same: `Unbounded.Chars.isScanned_of_nthScan`.

## Main definitions

* `IsPlainLine` — a line for any terminal
* `Token.IsScanned` — the tokens that a scanner makes
* `Expectation.opening` — how the message of an error begins
* `Parser.TellsPlainly` — a session that tells plain lines, and breaks off at scanned tokens only

## Main results

* `ParseError.isPlain_message`, `ParseError.message_injOn` — a message is plain and determines the error
* `Session.Takes.found` — units break off at tokens in front of the session
* `Parser.TellsPlainly.of_isScanned` — a session over scanned tokens tells plain lines
* `Parser.reports_faithfully` — all sessions do, and their lines determine the errors
-/

namespace Kaleidoscope

open Session

/-! ### Plain lines -/

/-- The characters at which a line is broken: line feed, line and page tabulation, carriage return, next
line, and the separators of lines and of paragraphs. -/
def lineBreaks : List Char := ['\n', '\x0b', '\x0c', '\r', '\u0085', '\u2028', '\u2029']

/-- A line that every terminal shows as one line: printable ASCII, and nothing in it breaks it. -/
structure IsPlainLine (line : String) : Prop where
  isPlain : IsPlain line.toList
  unbroken : ∀ c ∈ lineBreaks, c ∉ line.toList

theorem IsPlain.isPlainLine {line : String} (h : IsPlain line.toList) : IsPlainLine line := by
  refine ⟨h, fun c hc hmem => ?_⟩
  have hall : lineBreaks.all (fun c => ¬ IsPlain [c]) = true := by decide
  have hbreak : ¬ IsPlain [c] := of_decide_eq_true (List.all_eq_true.1 hall c hc)
  exact hbreak (List.forall_mem_singleton.2 (h c hmem))

/-! ### Messages -/

namespace Expectation

/-- How the message begins, up to the name of the token. -/
def opening (e : Expectation) : List Char := ("expected " ++ e.text ++ ", found ").toList

theorem isPlain_opening (e : Expectation) : IsPlain e.opening := by
  have hall : ∀ e ∈ all, IsPlain e.opening := by decide +kernel
  exact hall e (mem_all e)

/-- No message begins as another one does. -/
theorem eq_of_opening_isPrefix {d e : Expectation} (h : d.opening <+: e.opening) : d = e := by
  have hall : ∀ d ∈ all, ∀ e ∈ all, d.opening <+: e.opening → d = e := by decide +kernel
  exact hall d (mem_all d) e (mem_all e) h

end Expectation

namespace ParseError

variable {d e : ParseError}

theorem toList_message (e : ParseError) :
    e.message.toList = e.expected.opening ++ e.found.text.toList := String.toList_append

theorem isPlain_message (h : e.found.IsProper Binary64.IsUnsigned) : IsPlain e.message.toList := by
  rw [toList_message]
  exact e.expected.isPlain_opening.append (Token.isPlain_text h)

/-- Different errors at tokens that a scanner can make have different messages. -/
theorem message_injOn (hd : d.found.IsProper Binary64.IsUnsigned)
    (he : e.found.IsProper Binary64.IsUnsigned) (h : d.message = e.message) : d = e := by
  have hlist : d.expected.opening ++ d.found.text.toList = e.expected.opening ++ e.found.text.toList := by
    rw [← toList_message, ← toList_message, h]
  have hexpected : d.expected = e.expected := by
    have hfront : d.expected.opening <+: e.expected.opening ++ e.found.text.toList :=
      hlist ▸ List.prefix_append _ _
    rcases List.prefix_or_prefix_of_prefix hfront (List.prefix_append _ _) with hle | hge
    · exact Expectation.eq_of_opening_isPrefix hle
    · exact (Expectation.eq_of_opening_isPrefix hge).symm
  have hfound : d.found = e.found := by
    rw [hexpected] at hlist
    exact Token.text_injOn hd he (String.toList_injective (List.append_cancel_left hlist))
  cases d
  cases e
  exact congr (congrArg mk hexpected) hfound

end ParseError

/-! ### Scanned tokens -/

/-- A token that the scanner makes of some characters, in one of the scans that follow each other. -/
def Token.IsScanned (t : Token) : Prop :=
  ∃ (σ : Type) (_ : CharSource σ) (source : σ) (k : Nat),
    (TokenSource.nthScan (Scanner.ofSource source) k).token = t

theorem Token.IsScanned.isProper {t : Token} (h : t.IsScanned) : t.IsProper Binary64.IsUnsigned := by
  obtain ⟨σ, _, source, k, rfl⟩ := h
  obtain ⟨ps, hps⟩ := exists_cuts (CharSource.text source)
  rw [(Scanner.hasRead_nthScan hps k).token_eq]
  rcases Scanner.lexemeAt_cases ps k with hmem | hend
  · exact (hps.isCut.lexes 0).isProper _ (List.mem_map_of_mem hmem)
  · rw [hend]
    trivial

namespace TokenSource

variable {τ : Type} [TokenSource τ]

/-- Every token of a source is what one of the scans gives. -/
theorem exists_nthScan_of_mem {s : τ} {t : Token} (h : t ∈ tokens s) :
    ∃ k, (nthScan s k).token = t := by
  fun_induction tokens s with
  | case1 s hend => cases h
  | case2 s hne ih =>
    rcases List.mem_cons.1 h with rfl | hlater
    · exact ⟨0, rfl⟩
    · obtain ⟨k, hk⟩ := ih hlater
      exact ⟨k + 1, hk⟩

end TokenSource

/-- Where there are no characters, there is the end of the input. -/
theorem Token.isScanned_endOfInput : IsScanned .endOfInput := by
  have hcuts : Cuts [] (CharSource.text (Script.ofList [])) := ⟨trivial, (Script.text_ofList []).symm⟩
  exact ⟨Script, _, .ofList [], 0, (Scanner.hasRead_nthScan hcuts 0).token_eq⟩

/-! ### Errors of a session -/

namespace Session

variable {P : Token → Prop} {ts rest : List Token} {s : Step}

/-- A unit breaks off at a token in front of the session, or at the end of the input. -/
theorem Takes.found (h : Takes ts s rest) (hts : ∀ t ∈ ts, P t) (hend : P .endOfInput) :
    ∀ e ∈ s.error?, P e.found := by
  intro e he
  cases h with
  | separator => cases he
  | definition => cases he
  | external => cases he
  | expression => cases he
  | @broken u v expected h =>
    obtain rfl := Option.some.inj he
    cases v with
    | nil => exact hend
    | cons t v => exact hts t (List.mem_append_right u (List.mem_cons_self ..))

end Session

/-- The line of a step is plain, if there is one: of errors only the tokens are not fixed in advance. -/
theorem Step.isPlainLine_of_report {s : Step} (h : ∀ e ∈ s.error?, e.found.IsScanned) :
    ∀ line ∈ s.report?, IsPlainLine line := by
  intro line hline
  cases s with
  | parsed i =>
    cases i with
    | definition =>
      obtain rfl := Option.some.inj hline
      exact IsPlain.isPlainLine (by decide)
    | external =>
      obtain rfl := Option.some.inj hline
      exact IsPlain.isPlainLine (by decide)
    | expression =>
      obtain rfl := Option.some.inj hline
      exact IsPlain.isPlainLine (by decide)
  | skipped => cases hline
  | failed e =>
    obtain rfl := Option.some.inj hline
    have hlabel : IsPlain "LogError: ".toList := by decide
    refine IsPlain.isPlainLine ?_
    rw [String.toList_append]
    exact hlabel.append (ParseError.isPlain_message (h e rfl).isProper)
  | finished => cases hline

namespace Parser

/-- What the user of a session at `p` is told, of the next step or of a run with any prompt, is told in
plain lines, and all units that break off there do so at scanned tokens. -/
structure TellsPlainly {τ : Type} [TokenSource τ] (p : Parser τ) : Prop where
  step : ∀ line ∈ p.step.1.report?, IsPlainLine line
  run : ∀ prompt line, .report line ∈ p.run.notices prompt → IsPlainLine line
  found_step : ∀ e ∈ p.step.1.error?, e.found.IsScanned
  found_run : ∀ e ∈ p.run.errors, e.found.IsScanned

/-- Where the tokens in front come from is all that counts. -/
theorem TellsPlainly.of_isScanned {τ : Type} [TokenSource τ] {p : Parser τ}
    (h : ∀ t ∈ p.tokens, t.IsScanned) : p.TellsPlainly := by
  obtain ⟨hstep, hrun⟩ := forall_steps h (R := fun s => ∀ e ∈ s.error?, e.found.IsScanned) nofun
    fun h hts => h.found hts Token.isScanned_endOfInput
  refine ⟨Step.isPlainLine_of_report hstep, fun prompt line hline => ?_, hstep, fun e he => ?_⟩
  · obtain ⟨s, hs, hnotice⟩ := List.mem_flatMap.1 hline
    refine Step.isPlainLine_of_report (hrun s hs) line ?_
    rcases List.mem_append.1 hnotice with hreport | hprompt
    · obtain ⟨line', hline', heq⟩ := Option.map_eq_some_iff.1 (Option.mem_toList.1 hreport)
      exact Notice.report.inj heq ▸ hline'
    · obtain ⟨text, -, heq⟩ := Option.map_eq_some_iff.1 (Option.mem_toList.1 hprompt)
      cases heq
  · obtain ⟨s, hs, herror⟩ := List.mem_filterMap.1 he
    exact hrun s hs e herror

/-- In front of a session over a source of characters, after any requests, are tokens that the scanner has
made of it. -/
theorem isScanned_of_mem_afterAll {σ : Type} [CharSource σ] (source : σ) (ops : List Operation) :
    ∀ t ∈ ((start (Scanner.ofSource source)).afterAll ops).tokens, t.IsScanned := by
  intro t ht
  obtain ⟨k, hk⟩ := exists_tokens_afterAll (Scanner.ofSource source) ops
  rw [hk] at ht
  obtain ⟨j, hj⟩ := TokenSource.exists_nthScan_of_mem (List.mem_of_mem_drop ht)
  exact ⟨σ, _, source, j, hj⟩

/-- Whatever characters a session reads and whatever has been asked of it, each line that it tells its
user, of a step or in a run, is printable ASCII without any break in it, and each error is at a token that
the scanner has made. Of two errors at such tokens the lines are the same only if the errors are: the same
was expected, and the tokens are equal, numbers bit for bit. -/
theorem reports_faithfully :
    (∀ {σ : Type} [CharSource σ] (source : σ) (ops : List Operation),
      ((start (Scanner.ofSource source)).afterAll ops).TellsPlainly) ∧
    ∀ d e : ParseError, d.found.IsScanned → e.found.IsScanned →
      (Step.failed d).report? = (Step.failed e).report? → d = e := by
  refine ⟨fun source ops => .of_isScanned (isScanned_of_mem_afterAll source ops),
    fun d e hd he h => ?_⟩
  have hline : "LogError: " ++ d.message = "LogError: " ++ e.message := Option.some.inj h
  exact ParseError.message_injOn hd.isProper he.isProper ((String.append_right_inj _).1 hline)

/-- In `(1` and an escape character, the line spells that character out, and it is the line of no error
at the same character elsewhere but of the same one. -/
theorem reports_faithfully_at_escape_character :
    let line := "LogError: expected ')', found '\\u\x7b1b\x7d'"
    let d : ParseError := ⟨.closingParen, .char '\x1b'⟩
    let e : ParseError :=
      ⟨.closingParen, (TokenSource.nthScan (Scanner.ofSource (Script.ofList ['\x1b'])) 0).token⟩
    (Program.textSession ['(', '1', '\x1b']).run.notices none = [.report line] ∧ IsPlainLine line ∧
      (Step.failed d).report? = (Step.failed e).report? ∧ d = e := by
  intro line d e
  have hcuts : Cuts [.solitary '(', .numeral '1' [], .solitary '\x1b'] ['(', '1', '\x1b'] :=
    ⟨by decide, by decide⟩
  have htokens : (Program.textSession ['(', '1', '\x1b']).tokens =
      [.char '(', .ofNumeral ['1'], .char '\x1b'] := by
    rw [Program.tokens_textSession_eq, Program.textTokens_of_cuts hcuts]
    rfl
  have hbroken : BrokenUnit [.char '(', .ofNumeral ['1']] .closingParen (.char '\x1b') :=
    .expression (.operand (.unclosed (.primary (.number _)) (.of_not_starts nofun nofun) nofun))
      fun s hs => Option.some.inj hs ▸ nofun
  have hruns : Runs (Program.textSession ['(', '1', '\x1b']).tokens [.failed d] := by
    rw [htokens]
    exact .step (.broken (v := [.char '\x1b']) hbroken) .finished
  have hnotices : (Program.textSession ['(', '1', '\x1b']).run.notices none = [.report line] := by
    rw [Run.notices, steps_of_runs hruns rfl]
    decide
  have hd : d.found.IsScanned :=
    isScanned_of_mem_afterAll (Script.ofList ['(', '1', '\x1b']) [] d.found
      (show _ ∈ (Program.textSession ['(', '1', '\x1b']).tokens by rw [htokens]; simp [d])
  have hcuts' : Cuts [.solitary '\x1b'] (CharSource.text (Script.ofList ['\x1b'])) := by
    rw [Script.text_ofList]
    exact ⟨by decide, by decide⟩
  have he : e.found = .char '\x1b' := (Scanner.hasRead_nthScan hcuts' 0).token_eq
  have hlines : (Step.failed d).report? = (Step.failed e).report? := by
    rw [Step.report?, Step.report?, ParseError.message, ParseError.message, he]
  exact ⟨hnotices, (reports_faithfully.1 (Script.ofList ['(', '1', '\x1b']) []).run none line
      (hnotices ▸ List.mem_cons_self ..), hlines,
    reports_faithfully.2 d e hd ⟨Script, _, .ofList ['\x1b'], 0, rfl⟩ hlines⟩

end Parser

end Kaleidoscope
