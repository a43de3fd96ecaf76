import Kaleidoscope.Proofs.Session.Progress
import Kaleidoscope.Proofs.Unbounded.Parser

/-!
# A session comes to an end

Every operation of a parser returns over a source that stops, wherever the operations before it have
left the parser. That goes for the run as well, although it only stops when a step says that it has
finished: a step that does not say so takes a token away, and there are only so many.

A source may go on for ever behind the first answer without a character. Then its scanner never asks for
what comes there, and so nothing that is built on it has to.

## Main definitions

* `Tokens.perform`, `Tokens.performAll` — one operation, and several, on the front of the input
* `AllReturn` — all operations return at a parser, and each with the reply of this parser

## Main results

* `ScansAs.performAll_eq` — several operations return
* `ScansAs.allReturn` — and so does every operation behind them
* `terminates_with_progress` — over every source that stops
-/

namespace Kaleidoscope

namespace Unbounded

/-- The front after one operation, if it returns. -/
def Tokens.perform {υ : Type} (w : Tokens υ) (p : Front υ) : Operation → Option (Front υ)
  | .advance => (w.advance p).map Prod.snd
  | .primary => (w.primary p).map Prod.snd
  | .expression => (w.expression p).map Prod.snd
  | .operators least left => (w.operators least left p).map Prod.snd
  | .prototype => (w.prototype p).map Prod.snd
  | .external => (w.external p).map Prod.snd
  | .definition => (w.definition p).map Prod.snd
  | .bareExpression => (w.bareExpression p).map Prod.snd
  | .step => (w.step p).map Prod.snd
  | .run => (w.run p).map Prod.snd

/-- The front after several operations, if all of them return. -/
def Tokens.performAll {υ : Type} (w : Tokens υ) : List Operation → Front υ → Option (Front υ)
  | [], p => some p
  | op :: ops, p => (w.perform p op).bind (performAll w ops)

variable {τ υ : Type} [TokenSource τ] {w : Tokens υ} {place : τ → υ} {ready : τ → Prop} {p : Parser τ}

/-- All operations return at the front of `p`, and each with the reply of `p`. -/
structure AllReturn (w : Tokens υ) (place : τ → υ) (p : Parser τ) : Prop where
  advance : w.advance (front place p) = some (.ok (), front place p.advance)
  primary : w.primary (front place p) = some (p.primary.result, front place p.primary.parser)
  expression : w.expression (front place p) = some (p.expression.result, front place p.expression.parser)
  operators : ∀ least left, w.operators least left (front place p) =
    some ((Parser.operators least left p).result, front place (Parser.operators least left p).parser)
  prototype : w.prototype (front place p) = some (p.prototype.result, front place p.prototype.parser)
  external : w.external (front place p) = some (p.external.result, front place p.external.parser)
  definition : w.definition (front place p) = some (p.definition.result, front place p.definition.parser)
  bareExpression : w.bareExpression (front place p) =
    some (p.bareExpression.result, front place p.bareExpression.parser)
  step : w.step (front place p) = some (p.step.1, front place p.step.2)
  run : w.run (front place p) = some (p.run.steps, front place p.run.parser)

/-! ### Steps -/

theorem Tokens.steps_of_finished {q q' : Front υ} (h : w.step q = some (.finished, q')) :
    w.steps q = some ([], q') := by
  rw [steps, h]
  rfl

theorem Tokens.steps_of_ne {q q' : Front υ} {s : Step} (h : w.step q = some (s, q'))
    (hs : s ≠ .finished) : w.steps q = (w.steps q').map fun r => (s :: r.1, r.2) := by
  rw [steps, h]
  cases s with
  | finished => exact absurd rfl hs
  | parsed item => show (w.steps q').bind _ = _; cases w.steps q' <;> rfl
  | skipped => show (w.steps q').bind _ = _; cases w.steps q' <;> rfl
  | failed error => show (w.steps q').bind _ = _; cases w.steps q' <;> rfl

namespace ScansAs

theorem settle_eq (h : ScansAs w place ready) {α : Type} {a : Action υ α} {r : Reply τ α}
    (ha : Returns place ready a p r) (item : α → Item) :
    w.settle a item (front place p) = some ((r.settle item).1, front place (r.settle item).2) := by
  obtain ⟨result, q⟩ := r
  rw [Tokens.settle, ha.eq]
  cases result with
  | ok x => rfl
  | error e =>
    have hread : w.read (.skipping q.current :: q.journal) (place q.rest) = _ := h.read_eq _ ha.ready
    show (w.read (.skipping q.current :: q.journal) (place q.rest)).bind _ = _
    rw [hread]
    rfl

theorem step_eq (h : ScansAs w place ready) (hp : ready p.rest) :
    w.step (front place p) = some (p.step.1, front place p.step.2) := by
  rw [Tokens.step]
  split
  · rename_i hc
    rw [Parser.step_of_end hc]
  · rename_i hc
    rw [Parser.step_of_separator hc]
    show (w.read p.journal (place p.rest)).bind _ = _
    rw [h.read_eq p.journal hp]
    rfl
  · rename_i hc
    rw [Parser.step_of_definition hc]
    exact h.settle_eq (h.returns_definition p hp) .definition
  · rename_i hc
    rw [Parser.step_of_external hc]
    exact h.settle_eq (h.returns_external p hp) .external
  · rename_i hend hseparator hdef hextern
    have hc : p.current.LeadsExpression := by
      rcases p.current.unit_cases with hc | hc | hc | hc | hc
      · exact absurd hc hend
      · exact absurd hc hseparator
      · exact absurd hc hdef
      · exact absurd hc hextern
      · exact hc
    rw [Parser.step_of_leads hc]
    exact h.settle_eq (h.returns_bareExpression p hp) .expression

theorem ready_step (h : ScansAs w place ready) (hp : ready p.rest) : ready p.step.2.rest :=
  Parser.step_invariant (P := fun _ rest => ready rest) (fun _ rest => h.ready_scan rest) hp

/-- The steps up to the one that finishes. All others take tokens away. -/
theorem steps_eq (h : ScansAs w place ready) (p : Parser τ) (hp : ready p.rest) :
    w.steps (front place p) = some (p.unfinishedRun.steps, front place p.unfinishedRun.parser) := by
  fun_induction Parser.unfinishedRun p with
  | case1 p hend =>
    have hstep := h.step_eq hp
    rw [Parser.step_of_end hend] at hstep
    exact Tokens.steps_of_finished hstep
  | case2 p hend s later ih =>
    rw [Tokens.steps_of_ne (h.step_eq hp) (mt Parser.step_finished_iff.1 hend), ih (h.ready_step hp)]
    rfl

theorem run_eq (h : ScansAs w place ready) (hp : ready p.rest) :
    w.run (front place p) = some (p.run.steps, front place p.run.parser) := by
  rw [Tokens.run, h.steps_eq p hp]
  rfl

/-! ### All operations -/

theorem allReturn (h : ScansAs w place ready) (hp : ready p.rest) : AllReturn w place p where
  advance := h.advance_eq hp
  primary := (h.returns_primary p hp).eq
  expression := (h.returns_expression p hp).eq
  operators least left := (h.returns_operators least left p hp).eq
  prototype := (h.returns_prototype p hp).eq
  external := (h.returns_external p hp).eq
  definition := (h.returns_definition p hp).eq
  bareExpression := (h.returns_bareExpression p hp).eq
  step := h.step_eq hp
  run := h.run_eq hp

theorem perform_eq (h : ScansAs w place ready) (hp : ready p.rest) (op : Operation) :
    w.perform (front place p) op = some (front place (op.after p)) := by
  have hall := h.allReturn hp
  cases op with
  | advance => rw [Tokens.perform, hall.advance]; rfl
  | primary => rw [Tokens.perform, hall.primary]; rfl
  | expression => rw [Tokens.perform, hall.expression]; rfl
  | operators least left => rw [Tokens.perform, hall.operators]; rfl
  | prototype => rw [Tokens.perform, hall.prototype]; rfl
  | external => rw [Tokens.perform, hall.external]; rfl
  | definition => rw [Tokens.perform, hall.definition]; rfl
  | bareExpression => rw [Tokens.perform, hall.bareExpression]; rfl
  | step => rw [Tokens.perform, hall.step]; rfl
  | run => rw [Tokens.perform, hall.run]; rfl

theorem ready_afterAll (h : ScansAs w place ready) (hp : ready p.rest) (ops : List Operation) :
    ready (p.afterAll ops).rest :=
  Parser.afterAll_invariant (P := fun _ rest => ready rest) (fun _ rest => h.ready_scan rest) ops hp

theorem performAll_eq (h : ScansAs w place ready) (hp : ready p.rest) (ops : List Operation) :
    w.performAll ops (front place p) = some (front place (p.afterAll ops)) := by
  induction ops generalizing p with
  | nil => rfl
  | cons op ops ih =>
    have hready : ready (op.after p).rest := h.ready_afterAll hp [op]
    rw [Tokens.performAll, h.perform_eq hp op]
    exact ih hready

/-- The first token is read, and then several operations are performed. -/
theorem performAll_start (h : ScansAs w place ready) {source : τ} (hs : ready source)
    (ops : List Operation) :
    (w.start (place source)).bind (w.performAll ops) =
        some (front place ((Parser.start source).afterAll ops)) ∧
      AllReturn w place ((Parser.start source).afterAll ops) := by
  have hstart : ready (Parser.start source).rest := h.ready_scan source hs
  rw [Tokens.start, h.read_eq [] hs]
  exact ⟨h.performAll_eq hstart ops, h.allReturn (h.ready_afterAll hstart ops)⟩

end ScansAs

/-! ### From the first character on -/

/-- Over characters that begin at `s` everything returns, and with the same replies as over `source`. -/
structure ReturnsAs {σ ρ : Type} [CharSource ρ] (w : Chars σ) (s : σ) (place : ρ → σ) (source : ρ) :
    Prop where
  scans : ∀ k, w.tokens.nthScan (Scanner.ofSource s) k =
    some (Scan.placed (placed place) (TokenSource.nthScan (Scanner.ofSource source) k))
  operations : ∀ ops, (w.tokens.start (Scanner.ofSource s)).bind (w.tokens.performAll ops) =
    some (front (placed place) ((Parser.start (Scanner.ofSource source)).afterAll ops))
  /-- Behind any operations every other one returns. -/
  behind : ∀ ops, AllReturn w.tokens (placed place) ((Parser.start (Scanner.ofSource source)).afterAll ops)

theorem AnswersAs.returnsAs {σ ρ : Type} [CharSource ρ] {w : Chars σ} {place : ρ → σ} {ready : ρ → Prop}
    (h : AnswersAs w place ready) (source : ρ) (hs : ready source) :
    ReturnsAs w (place source) place source := by
  have hlive : Live ready (Scanner.ofSource source) := fun _ _ => hs
  exact ⟨h.scansAs.nthScan hlive, fun ops => (h.scansAs.performAll_start hlive ops).1,
    fun ops => (h.scansAs.performAll_start hlive ops).2⟩

/-- Over a source that stops after finitely many characters, whatever it would give behind that, every scan
returns, and every operation of a parser does, behind any others, with the replies of the same operation
over a source with a size. Over a source that has a size itself, these are its own. A token takes a
character away, a success or a step takes a token away, and at the end of the input nothing changes. -/
theorem terminates_with_progress :
    (∀ {σ : Type} (w : Chars σ) (n : Nat) (s : σ) (h : StopsAfter w n s),
      ReturnsAs w s UpToStop.source (UpToStop.running n s h)) ∧
    (∀ {σ : Type} [CharSource σ] (s : σ), ReturnsAs ⟨CharSource.next⟩ s id s) ∧
    (∀ {σ : Type} [CharSource σ] (s : Scanner σ), s.scan.token ≠ .endOfInput →
      ∃ c u, s.Pulls (c :: u) s.scan.rest) ∧
    ∀ {τ : Type} [TokenSource τ] (p : Parser τ), p.MakesProgress :=
  ⟨fun w n s h => (UpToStop.answersAs w).returnsAs (.running n s h) trivial,
    fun s => (answersAs_self _).returnsAs s trivial,
    fun _ => Scanner.exists_pulls_scan_of_ne, Parser.makesProgress⟩

/-- A name, then once nothing, and then characters for ever. -/
theorem terminates_with_progress_before_endless_characters :
    let w : Chars Nat :=
      ⟨fun n => if n = 0 then (.char 'x', 1) else if n = 1 then (.nothing, 2) else (.char 'y', n)⟩
    StopsAfter w 1 0 ∧ (∀ n, 2 ≤ n → w.next n = (.char 'y', n)) ∧
      ((w.tokens.start (Scanner.ofSource 0)).bind (w.tokens.performAll [.run, .step])).map Front.current =
        some .endOfInput := by
  intro w
  have hstops : StopsAfter w 1 0 := ⟨⟨'x', rfl⟩, fun c hc => Answer.noConfusion hc⟩
  have hreturns := terminates_with_progress.1 w 1 0 hstops
  refine ⟨hstops, fun n hn => ?_, ?_⟩
  · exact (if_neg (by omega)).trans (if_neg (by omega))
  · rw [hreturns.operations]
    exact congrArg some (Parser.current_afterAll_of_end (Parser.current_run_eq _) [.step])

end Unbounded

end Kaleidoscope
