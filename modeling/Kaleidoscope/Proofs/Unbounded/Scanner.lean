import Kaleidoscope.Proofs.Scanner.Lookahead
import Kaleidoscope.Proofs.Unbounded.Source
import Kaleidoscope.Unbounded.Parser

/-!
# Scanning comes to an end

The loops of the scanner come to an end over a source that stops, and with the same result as over a
source with a size that answers for it. A scanner asks its source only behind a character, and never
again behind an answer without one. So it is enough that the source is ready as long as a character is
ahead, and this is kept by everything that a scanner does.

## Main definitions

* `placed` — a scanner over the source that is answered for
* `Live` — the source is ready if there is a character ahead
* `ScansAs` — a source of tokens that answers for another one

## Main results

* `Chars.scan_eq_none` — over a source that does not stop, a scan may never return
* `AnswersAs.span`, `AnswersAs.skipTrivia` — the loops return
* `AnswersAs.scansAs` — so every scan returns
* `ScansAs.nthScan` — and the scans in succession do
-/

namespace Kaleidoscope

namespace Unbounded

/-! ### The loops, one round at a time -/

namespace Chars

variable {σ : Type} {w : Chars σ} {s t u : Scanner σ} {keep : Char → Bool} {run : List Char}

theorem span_of_char {c : Char} (h : s.ahead = .char c) (hc : keep c = true) :
    w.span keep s = (w.span keep (w.bump s)).map fun t => (c :: t.1, t.2) := by
  rw [span, h]
  refine (if_pos hc).trans ?_
  cases w.span keep (w.bump s) <;> rfl

theorem span_of_forall_ne (h : ∀ c, s.ahead = .char c → keep c = false) :
    w.span keep s = some ([], s) := by
  rw [span]
  cases hc : s.ahead with
  | char c => exact if_neg (h c hc ▸ Bool.false_ne_true)
  | nothing => rfl
  | failed fault => rfl

theorem skipTrivia_of_comment (hs : w.span isBlank s = some (run, t)) (hc : t.ahead = .char '#')
    (ht : (w.span (fun c => !isLineEnd c) t).map Prod.snd = some u) :
    w.skipTrivia s = w.skipTrivia u := by
  obtain ⟨⟨comment, u'⟩, hu, rfl⟩ := Option.map_eq_some_iff.1 ht
  rw [skipTrivia, hs]
  simp only [Option.bind_eq_bind, Option.bind_some, hc, hu]

theorem skipTrivia_of_ne (hs : w.span isBlank s = some (run, t)) (hc : t.ahead ≠ .char '#') :
    w.skipTrivia s = some t := by
  rw [skipTrivia, hs]
  simp only [Option.bind_eq_bind, Option.bind_some]
  rfl

/-- Where one character after the other belongs to a run, it never ends. -/
theorem span_eq_none {P : Scanner σ → Prop}
    (h : ∀ s, P s → ∃ c, s.ahead = .char c ∧ keep c = true ∧ P (w.bump s)) (hs : P s) :
    w.span keep s = none := by
  have hnever : ∀ s r, w.span keep s = some r → ¬ P s := by
    refine span.partial_correctness w keep (fun s _ => ¬ P s) fun loop ih s r hr hs => ?_
    obtain ⟨c, hc, hk, hnext⟩ := h s hs
    simp only [hc, if_pos hk] at hr
    obtain ⟨t, ht, -⟩ := Option.bind_eq_some_iff.1 hr
    exact ih _ t ht hnext
  cases hr : w.span keep s with
  | none => rfl
  | some r => exact absurd hs (hnever s r hr)

/-- Over white space without an end, there is no token. -/
theorem scan_eq_none {P : Scanner σ → Prop}
    (h : ∀ s, P s → ∃ c, s.ahead = .char c ∧ isBlank c = true ∧ P (w.bump s)) (hs : P s) :
    w.scan s = none := by
  rw [scan, skipTrivia, span_eq_none h hs]
  rfl

end Chars

/-! ### Over a source that stops -/

section

variable {σ ρ : Type} [CharSource ρ] {w : Chars σ} {place : ρ → σ} {ready : ρ → Prop} {s : Scanner ρ}

/-- The scanner over the source that is answered for. -/
def placed (place : ρ → σ) (s : Scanner ρ) : Scanner σ := ⟨place s.source, s.ahead, s.pulls⟩

/-- The source is ready if there is a character ahead. -/
def Live (ready : ρ → Prop) (s : Scanner ρ) : Prop := ∀ c, s.ahead = .char c → ready s.source

namespace AnswersAs

theorem bump (h : AnswersAs w place ready) (hs : Live ready s) {c : Char} (hc : s.ahead = .char c) :
    w.bump (placed place s) = placed place s.bump ∧ Live ready s.bump := by
  have hready : ready s.source := hs c hc
  refine ⟨?_, fun d hd => h.ready_next s.source d hready hd⟩
  rw [Chars.bump]
  show Scanner.mk (w.next (place s.source)).2 (w.next (place s.source)).1 (s.pulls + 1) = _
  rw [h.next_eq s.source hready]
  rfl

/-- A run comes to an end. -/
theorem span (h : AnswersAs w place ready) (keep : Char → Bool) (hs : Live ready s) :
    w.span keep (placed place s) = some ((s.span keep).1, placed place (s.span keep).2) ∧
      Live ready (s.span keep).2 := by
  revert hs
  refine Scanner.span_induction keep (fun s c hc hk ih hs => ?_) (fun s hstop hs => ?_) s
  · obtain ⟨hbump, hlive⟩ := h.bump hs hc
    obtain ⟨hspan, hend⟩ := ih hlive
    rw [Scanner.span_of_char hc hk, Chars.span_of_char (s := placed place s) hc hk, hbump, hspan]
    exact ⟨rfl, hend⟩
  · rw [Scanner.span_of_forall_ne hstop, Chars.span_of_forall_ne (s := placed place s) hstop]
    exact ⟨rfl, hs⟩

/-- White space and comments come to an end. -/
theorem skipTrivia (h : AnswersAs w place ready) (hs : Live ready s) :
    w.skipTrivia (placed place s) = some (placed place s.skipTrivia) ∧ Live ready s.skipTrivia := by
  fun_induction Scanner.skipTrivia s with
  | case1 s t hc ih =>
    obtain ⟨hblank, ht⟩ := h.span isBlank hs
    obtain ⟨hcomment, hu⟩ := h.span (fun c => !isLineEnd c) ht
    obtain ⟨hskip, hlive⟩ := ih hu
    rw [Chars.skipTrivia_of_comment hblank hc (by rw [hcomment]; rfl)]
    exact ⟨hskip, hlive⟩
  | case2 s t hc =>
    obtain ⟨hblank, ht⟩ := h.span isBlank hs
    exact ⟨Chars.skipTrivia_of_ne hblank hc, ht⟩

/-- So does a token. -/
theorem lexeme (h : AnswersAs w place ready) (hs : Live ready s) :
    w.lexeme (placed place s) = some (s.lexeme.1, placed place s.lexeme.2) ∧ Live ready s.lexeme.2 := by
  have hahead : (placed place s).ahead = s.ahead := rfl
  rw [Chars.lexeme, Scanner.lexeme, hahead]
  cases hc : s.ahead with
  | char c =>
    obtain ⟨hword, hafterWord⟩ := h.span Char.isAlphanum hs
    obtain ⟨hrun, hafterRun⟩ := h.span isNumeral hs
    obtain ⟨hbump, hafterBump⟩ := h.bump hs hc
    by_cases halpha : c.isAlpha = true
    · simp only [if_pos halpha, hword]
      exact ⟨rfl, hafterWord⟩
    · by_cases hnumeral : isNumeral c = true
      · simp only [if_neg halpha, if_pos hnumeral, hrun]
        exact ⟨rfl, hafterRun⟩
      · simp only [if_neg halpha, if_neg hnumeral]
        exact ⟨congrArg (fun t => some (Token.char c, t)) hbump, hafterBump⟩
  | nothing => exact ⟨rfl, hs⟩
  | failed fault => exact ⟨rfl, hs⟩

end AnswersAs

end

/-! ### Sources of tokens -/

/-- The scan of a source that is answered for. -/
def Scan.placed {τ υ : Type} (place : τ → υ) (s : Scan τ) : Scan υ := ⟨s.token, place s.rest, s.fault?⟩

/-- A source of tokens that answers for another one, which is at `place s` when this one is at `s`. It does
so as long as it is ready, and it stays ready. -/
structure ScansAs {τ υ : Type} [TokenSource τ] (w : Tokens υ) (place : τ → υ) (ready : τ → Prop) :
    Prop where
  scan_eq : ∀ s, ready s → w.scan (place s) = some (Scan.placed place (TokenSource.scan s))
  ready_scan : ∀ s, ready s → ready (TokenSource.scan s).rest

/-- A scanner answers for the one over the source that is answered for. -/
theorem AnswersAs.scansAs {σ ρ : Type} [CharSource ρ] {w : Chars σ} {place : ρ → σ} {ready : ρ → Prop}
    (h : AnswersAs w place ready) : ScansAs w.tokens (placed place) (Live ready) := by
  refine ⟨fun s hs => ?_, fun s hs => ?_⟩
  · obtain ⟨hskip, hlive⟩ := h.skipTrivia hs
    obtain ⟨hlexeme, -⟩ := h.lexeme hlive
    show w.scan (placed place s) = _
    rw [Chars.scan, hskip]
    show (w.lexeme (placed place s.skipTrivia)).bind _ = _
    rw [hlexeme]
    rfl
  · obtain ⟨-, hlive⟩ := h.skipTrivia hs
    exact (h.lexeme hlive).2

/-- The scans in succession are answered for. -/
theorem ScansAs.nthScan {τ υ : Type} [TokenSource τ] {w : Tokens υ} {place : τ → υ} {ready : τ → Prop}
    (h : ScansAs w place ready) {s : τ} (hs : ready s) (k : Nat) :
    w.nthScan (place s) k = some (Scan.placed place (TokenSource.nthScan s k)) := by
  induction k generalizing s with
  | zero => exact h.scan_eq s hs
  | succ k ih =>
    show (w.scan (place s)).bind _ = _
    rw [h.scan_eq s hs]
    exact ih (h.ready_scan s hs)

end Unbounded

end Kaleidoscope
