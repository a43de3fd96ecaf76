import Kaleidoscope.Proofs.Session.Diagnostics
import Kaleidoscope.Proofs.Session.ProperItems
import Kaleidoscope.Proofs.Unbounded.Lexemes

/-!
# A session over a source without a size

What a session hands out, and what it tells its user, is settled unit by unit, by the tokens that are in
front of it. Over a source that stops, all steps return, and the tokens are those of a source with a size.
So whatever each step over scanned tokens keeps to, a session keeps to over such a source as well.

Of a source that never stops it is only said what its scans make. As far as they return, their tokens are
scanned tokens like all others.

## Main definitions

* `Tokens.StepsMeet` — the next step and all steps of a run return and have a property

## Main results

* `Chars.isScanned_of_nthScan` — a token that a scan returns, over any source, is a scanned token
* `StopsAfter.exists_stepsMeet` — what each step over scanned tokens keeps to, all steps do
* `StopsAfter.hands_out_proper_items`, `StopsAfter.tells_plainly` — so items are proper, and lines plain
-/

namespace Kaleidoscope

namespace Unbounded

open Session

variable {σ : Type} {w : Chars σ} {s : σ} {n : Nat}

/-- A token that a scan returns, whether or not the source ever stops, is made of finitely many
characters. -/
theorem Chars.isScanned_of_nthScan {k : Nat} {t : Scan (Scanner σ)}
    (h : w.tokens.nthScan (Scanner.ofSource s) k = some t) : t.token.IsScanned :=
  ⟨FirstAnswers w, _, ⟨t.rest.pulls, s⟩, k,
    congrArg Scan.token ((uses_nthScan h).of_le t.rest.pulls (Nat.le_refl _))⟩

/-- With `q` in front, the next step returns and so does a run, and `R` holds of the one and of all steps
of the other. -/
structure Tokens.StepsMeet {υ : Type} (w : Tokens υ) (R : Step → Prop) (q : Front υ) : Prop where
  step : ∃ s r, w.step q = some (s, r) ∧ R s
  run : ∃ steps r, w.run q = some (steps, r) ∧ ∀ s ∈ steps, R s

/-- What each step over scanned tokens keeps to, the steps of a session do over a source that stops, after
any operations. -/
theorem StopsAfter.exists_stepsMeet {R : Step → Prop} (h : StopsAfter w n s) (hend : R .finished)
    (hR : ∀ {ts s rest}, Takes ts s rest → (∀ t ∈ ts, t.IsScanned) → R s) (ops : List Operation) :
    ∃ q, (w.tokens.start (Scanner.ofSource s)).bind (w.tokens.performAll ops) = some q ∧
      w.tokens.StepsMeet R q := by
  have hreturns := (UpToStop.answersAs w).returnsAs (.running n s h) trivial
  have hall := hreturns.behind ops
  obtain ⟨hstep, hrun⟩ :=
    Parser.forall_steps (Parser.isScanned_of_mem_afterAll (UpToStop.running n s h) ops) hend hR
  exact ⟨_, hreturns.operations ops, ⟨_, _, hall.step, hstep⟩, ⟨_, _, hall.run, hrun⟩⟩

/-- Every item that a session hands out over a source that stops is proper, and of the functions in items
those around bare expressions, and no others, are anonymous. -/
theorem StopsAfter.hands_out_proper_items (h : StopsAfter w n s) (ops : List Operation) :
    ∃ q, (w.tokens.start (Scanner.ofSource s)).bind (w.tokens.performAll ops) = some q ∧
      w.tokens.StepsMeet (fun s => ∀ i ∈ s.item?, i.IsProper Binary64.IsUnsigned ∧
        (∀ f, i = .definition f → f.isAnonymous = false) ∧
        ∀ f, i = .expression f → f.isAnonymous = true ∧ f.prototype.parameters = []) q := by
  refine h.exists_stepsMeet nofun (fun hs hts i hi => ?_) ops
  have hproper := hs.isProper (fun t ht => (hts t ht).isProper) i hi
  exact ⟨hproper, hproper.reserved⟩

/-- Every line that a session tells its user over a source that stops is printable ASCII without any break
in it, and each error is at a token that a scanner has made. -/
theorem StopsAfter.tells_plainly (h : StopsAfter w n s) (ops : List Operation) :
    ∃ q, (w.tokens.start (Scanner.ofSource s)).bind (w.tokens.performAll ops) = some q ∧
      w.tokens.StepsMeet (fun s => (∀ line ∈ s.report?, IsPlainLine line) ∧
        ∀ e ∈ s.error?, e.found.IsScanned) q := by
  refine h.exists_stepsMeet ⟨nofun, nofun⟩ (fun hs hts => ?_) ops
  have hfound := hs.found hts Token.isScanned_endOfInput
  exact ⟨Step.isPlainLine_of_report hfound, hfound⟩

end Unbounded

end Kaleidoscope
