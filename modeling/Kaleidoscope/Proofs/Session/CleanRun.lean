import Kaleidoscope.Proofs.Grammar.Longest
import Kaleidoscope.Proofs.Scanner.Lexing
import Kaleidoscope.Proofs.Session.Units

/-!
# Clean runs

A run without errors is a program, and a program is run without errors, however its units are told
apart. The exit code over a file says which of the two the file is.

## Units that are told apart differently

The grammar of programs does not say where a unit ends, and a session decides as soon as it sees one
token more. It reads `x (y)` as a call where the grammar also allows two units. What is left behind a
unit that has been read that way is a program all the same, by `Language.IsProgram.exists_longest`, so a
session that follows a program never leaves programs.

## Main results

* `Session.Runs.isProgram` — what is run without errors is a program
* `Session.exists_clean_runs` — a program is run without errors
* `Parser.errors_eq_zero_iff` — both, for the run of a parser over any source
* `Program.clean_iff_isProgram` — texts and files
-/

namespace Kaleidoscope

open Kaleidoscope.Language Session

/-- A step that is no error. -/
def Step.IsClean (s : Step) : Prop := s.error? = none

namespace Session

variable {ts rest : List Token} {s : Step} {steps : List Step}

/-! ### Clean runs are programs -/

theorem isPrototype_tokens (head : Prototype) : IsPrototype head.tokens :=
  .intro head.name head.parameters

/-- A clean step takes a unit off the front. -/
theorem Takes.exists_isUnit (h : Takes ts s rest) (hs : s.IsClean) :
    ∃ u, ts = u ++ rest ∧ IsUnit u := by
  cases h with
  | separator => exact ⟨[.char ';'], rfl, .separator⟩
  | @definition u _ _ hf _ =>
    cases hf with
    | intro head h => exact ⟨_, rfl, .definition (isPrototype_tokens head) h.isExpression⟩
  | @external u _ head hf =>
    cases hf
    exact ⟨_, rfl, .external (isPrototype_tokens head)⟩
  | @expression u _ _ he _ => exact ⟨u, rfl, .expression he.isExpression⟩
  | broken _ => cases hs

theorem Runs.isProgram (h : Runs ts steps) (hs : ∀ s ∈ steps, s.IsClean) : IsProgram ts := by
  induction h with
  | finished => exact .nil
  | step h _ ih =>
    obtain ⟨hclean, hlater⟩ := List.forall_mem_cons.1 hs
    obtain ⟨u, rfl, hu⟩ := h.exists_isUnit hclean
    exact .cons hu (ih hlater)

/-! ### Programs are run clean -/

/-- In front of a program a clean step is possible, and leaves a program. -/
theorem exists_clean_takes (h : IsProgram ts) (hts : ts ≠ []) :
    ∃ s rest, Takes ts s rest ∧ s.IsClean ∧ IsProgram rest := by
  cases h with
  | nil => exact absurd rfl hts
  | @cons u v hu hv =>
    cases hu with
    | separator => exact ⟨_, v, .separator, rfl, hv⟩
    | @definition u b hhead hbody =>
      obtain ⟨w, rest, hw, hexpression, hend, hrest⟩ := hv.exists_longest hbody
      obtain ⟨e, he⟩ := Grammar.isExpression_iff.1 hexpression
      cases hhead with
      | intro name parameters =>
        let head : Prototype := ⟨name, parameters⟩
        refine ⟨.parsed (.definition ⟨head, e⟩), rest, ?_, rfl, hrest⟩
        rw [List.cons_append, List.append_assoc, hw, ← List.append_assoc, ← List.cons_append]
        exact .definition (.intro head he) ((endsBefore_definition head he.ne_nil).2 hend)
    | external hhead =>
      cases hhead with
      | intro name parameters => exact ⟨_, v, .external (.intro ⟨name, parameters⟩), rfl, hv⟩
    | expression hu =>
      obtain ⟨w, rest, hw, hexpression, hend, hrest⟩ := hv.exists_longest hu
      obtain ⟨e, he⟩ := Grammar.isExpression_iff.1 hexpression
      rw [hw]
      exact ⟨_, rest, .expression he hend, rfl, hrest⟩

theorem exists_clean_runs (h : IsProgram ts) : ∃ steps, Runs ts steps ∧ ∀ s ∈ steps, s.IsClean := by
  induction hn : ts.length using Nat.strongRecOn generalizing ts with
  | ind n ih =>
    by_cases hts : ts = []
    · rw [hts]
      exact ⟨[], .finished, nofun⟩
    · obtain ⟨s, rest, hstep, hs, hrest⟩ := exists_clean_takes h hts
      obtain ⟨steps, hsteps, hclean⟩ := ih rest.length (hn ▸ hstep.length_lt) hrest rfl
      exact ⟨s :: steps, .step hstep hsteps, List.forall_mem_cons.2 ⟨hs, hclean⟩⟩

end Session

/-! ### Parsers -/

theorem Run.errors_eq_zero_iff {τ : Type} [TokenSource τ] (r : Run τ) :
    r.summary.errors = 0 ↔ ∀ s ∈ r.steps, s.IsClean := by
  show (r.steps.filterMap Step.error?).length = 0 ↔ _
  rw [List.length_eq_zero_iff, List.filterMap_eq_nil_iff]
  rfl

/-- A run has no errors if and only if the tokens in front of the parser are a program. -/
theorem Parser.errors_eq_zero_iff {τ : Type} [TokenSource τ] (p : Parser τ) :
    p.run.summary.errors = 0 ↔ IsProgram p.tokens := by
  rw [Run.errors_eq_zero_iff]
  constructor
  · exact fun h => (runs_run p).isProgram h
  · intro h
    obtain ⟨steps, hsteps, hclean⟩ := exists_clean_runs h
    rwa [steps_of_runs hsteps rfl]

/-! ### Texts and files -/

namespace Program

theorem exitCode_eq_zero_iff {τ : Type} [TokenSource τ] (r : Run τ) :
    exitCode r = 0 ↔ r.summary.errors = 0 := by
  unfold exitCode
  split <;> simp_all

/-- A file is parsed with success if and only if it can be read, is text, and is a program. -/
theorem code_parseFile_eq_zero_iff (format? : Option TreeFormat)
    (content : Except FileError (List UInt8)) :
    (parseFile format? content).code = 0 ↔
      ∃ text, content = .ok (encodeUtf8 text) ∧ IsProgram (textSession text).tokens := by
  constructor
  · intro h
    cases content with
    | error e => cases h
    | ok bytes =>
      rw [parseFile] at h
      cases hd : decodeUtf8 bytes with
      | none => rw [hd] at h; cases h
      | some text =>
        rw [hd] at h
        refine ⟨text, by rw [decodeUtf8_eq_some_iff.1 hd], ?_⟩
        exact (Parser.errors_eq_zero_iff _).1 ((exitCode_eq_zero_iff _).1 h)
  · rintro ⟨text, rfl, h⟩
    rw [parseFile, decodeUtf8_encodeUtf8]
    exact (exitCode_eq_zero_iff _).2 ((Parser.errors_eq_zero_iff _).2 h)

theorem isProgram_tokens_iff (text : List Char) :
    IsProgram (textSession text).tokens ↔ ∃ ts, Lexes 0 text ts ∧ IsProgram (ts.map Prod.fst) := by
  constructor
  · intro h
    obtain ⟨ts, hts⟩ := exists_lexes 0 text
    exact ⟨ts, hts, tokens_textSession hts ▸ h⟩
  · rintro ⟨ts, hts, h⟩
    rwa [tokens_textSession hts]

/-- A run over a text has no errors if and only if the tokens of the text are a program, whatever the
units of that program are. With a file the exit code says success if and only if the file can be read,
is text, and its tokens are a program. -/
theorem clean_iff_isProgram :
    (∀ text : List Char, (textSession text).run.summary.errors = 0 ↔
      ∃ ts, Lexes 0 text ts ∧ IsProgram (ts.map Prod.fst)) ∧
    ∀ (args : List String) (options : Options) (path : String)
      (files : String → Except FileError (List UInt8)) (stdin : List Chunk),
      Options.ofArguments args = .ok options → options.file = some path →
        ((run args files stdin).code = 0 ↔ ∃ text ts, files path = .ok (encodeUtf8 text) ∧
          Lexes 0 text ts ∧ IsProgram (ts.map Prod.fst)) := by
  refine ⟨fun text => ?_, fun args options path files stdin hargs hfile => ?_⟩
  · rw [Parser.errors_eq_zero_iff, isProgram_tokens_iff]
  · simp only [run, hargs, hfile, code_parseFile_eq_zero_iff, isProgram_tokens_iff, exists_and_left]

/-- A file with a name and a group is parsed with success, as it could be two units. -/
theorem clean_iff_isProgram_of_two_units :
    (run ["path"] (fun _ => .ok (encodeUtf8 ['x', '(', 'y', ')'])) []).code = 0 := by
  have hargs : Options.ofArguments ["path"] = .ok ⟨some "path", none, "ready> "⟩ := by rfl
  have hlexes : Lexes 0 ['x', '(', 'y', ')']
      [(.ofWord "x", 1), (.char '(', 2), (.ofWord "y", 3), (.char ')', 4)] :=
    @Lexes.word 0 'x' [] _ _ rfl nofun (follows_cons rfl _) (.solitary (by decide)
      (@Lexes.word 2 'y' [] _ _ rfl nofun (follows_cons rfl _) (.solitary (by decide) (.done 4))))
  have hgroup : IsExpression [.char '(', .ofWord "y", .char ')'] :=
    .primary (.group (u := [.identifier "y"]) (.primary (.name "y")))
  have hprogram : IsProgram [.ofWord "x", .char '(', .ofWord "y", .char ')'] :=
    .cons (u := [.identifier "x"]) (.expression (.primary (.name "x")))
      (.cons (v := []) (.expression hgroup) .nil)
  exact (clean_iff_isProgram.2 _ _ _ _ [] hargs rfl).2 ⟨_, _, rfl, hlexes, hprogram⟩

end Program

end Kaleidoscope
