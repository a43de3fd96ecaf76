import Kaleidoscope.Proofs.Session.Agreement
import Kaleidoscope.Proofs.Session.Position
import Kaleidoscope.Proofs.Tree.Proper

/-!
# Proper items

Whatever stands in a text, the items that a session hands out are proper: their names are words of the
language, their operators are operators, their numbers have no sign. In particular no definition has the
name of the function around a bare expression, so a later stage can rely on that name.

An item is made of the tokens of its step, these are tokens of the source, and the tokens of a source are
proper. Errors in between change nothing, as what is in front of a session is always what is left of the
same tokens.

## Main results

* `Session.Takes.isProper` — steps over proper tokens hand out proper items
* `Parser.isProper_tokens_afterAll` — the tokens in front of a session are proper
* `Parser.items_proper` — so are the items, of single steps and of runs
-/

namespace Kaleidoscope

open Session

namespace Session

variable {P : Binary64 → Prop} {ts rest : List Token} {s : Step}

theorem Takes.isProper (h : Takes ts s rest) (hts : ∀ t ∈ ts, t.IsProper P) :
    ∀ i ∈ s.item?, i.IsProper P := by
  intro i hi
  cases h with
  | separator => cases hi
  | definition hf _ =>
    cases hi
    exact hf.isProper (List.forall_mem_append.1 hts).1
  | external hf =>
    cases hi
    exact hf.isProper (List.forall_mem_append.1 hts).1
  | expression he _ =>
    cases hi
    exact .expression rfl (he.isProper (List.forall_mem_append.1 hts).1)
  | broken _ => cases hi

end Session

namespace Parser

variable {σ : Type} [CharSource σ]

/-- After any requests the tokens in front of a parser over a source of characters are proper. -/
theorem isProper_tokens_afterAll (source : σ) (ops : List Operation) :
    ∀ t ∈ ((start (Scanner.ofSource source)).afterAll ops).tokens,
      t.IsProper Binary64.IsUnsigned := by
  obtain ⟨k, hk⟩ := exists_tokens_afterAll (Scanner.ofSource source) ops
  obtain ⟨ts, hts⟩ := exists_lexes 0 (CharSource.text source)
  intro t ht
  rw [hk, Program.tokens_ofSource_eq_textTokens, Program.textTokens_of_lexes hts] at ht
  exact hts.isProper t (List.mem_of_mem_drop ht)

/-- Every item that a session hands out, in a step or in a run after whatever requests, is proper: names
are words in letters and digits with a letter in front and are no keywords, operators are operators, and
numbers have no sign. Of the functions in it, those around bare expressions are anonymous and have no
parameters, and those of definitions are not anonymous. -/
theorem items_proper (source : σ) (ops : List Operation) (i : Item)
    (h : i ∈ ((start (Scanner.ofSource source)).afterAll ops).step.1.item? ∨
      i ∈ ((start (Scanner.ofSource source)).afterAll ops).run.items) :
    i.IsProper Binary64.IsUnsigned ∧ (∀ f, i = .definition f → f.isAnonymous = false) ∧
      ∀ f, i = .expression f → f.isAnonymous = true ∧ f.prototype.parameters = [] := by
  obtain ⟨hstep, hrun⟩ := forall_steps (isProper_tokens_afterAll source ops)
    (R := fun s => ∀ i ∈ s.item?, i.IsProper Binary64.IsUnsigned) nofun Takes.isProper
  have hproper : i.IsProper Binary64.IsUnsigned := by
    rcases h with hi | hi
    · exact hstep i hi
    · obtain ⟨s, hs, hitem⟩ := List.mem_filterMap.1 hi
      exact hrun s hs i hitem
  exact ⟨hproper, hproper.reserved⟩

/-- In `def f(x) 1.2.3<x y` a numeral has one point too many, and `y` is a unit of its own. -/
theorem items_proper_with_two_points :
    let f : Function :=
      ⟨⟨"f", ["x"]⟩, .binary '<' (.number (Decimal.ofNumeral "1.2.3".toList).nearest) (.var "x")⟩
    (Program.textSession "def f(x) 1.2.3<x y".toList).run.items =
        [.definition f, .expression (.ofExpr (.var "y"))] ∧
      (Item.definition f).IsProper Binary64.IsUnsigned ∧ f.isAnonymous = false := by
  intro f
  have hcuts : Cuts [.word 'd' ['e', 'f'], .blank ' ', .word 'f' [], .solitary '(', .word 'x' [],
      .solitary ')', .blank ' ', .numeral '1' ".2.3".toList, .solitary '<', .word 'x' [], .blank ' ',
      .word 'y' []] "def f(x) 1.2.3<x y".toList := ⟨by decide, by decide⟩
  have htokens : (Program.textSession "def f(x) 1.2.3<x y".toList).tokens =
      [.defKeyword, .identifier "f", .char '(', .identifier "x", .char ')',
        .ofNumeral "1.2.3".toList, .char '<', .identifier "x", .identifier "y"] := by
    rw [Program.tokens_textSession_eq, Program.textTokens_of_cuts hcuts]
    rfl
  have hbody : Grammar.Comparison [.ofNumeral "1.2.3".toList, .char '<', .identifier "x"] f.body :=
    .less (u := [_]) (.of_primary (.number _)) (.product (.primary (.name "x")))
  have hname : Grammar.Comparison [.identifier "y"] (.var "y") := .of_primary (.name "y")
  have hends : Language.EndsBefore (.defKeyword :: (f.prototype.tokens ++
      [.ofNumeral "1.2.3".toList, .char '<', .identifier "x"])) (.identifier "y") :=
    ⟨by simp [Language.IsOperator], .of_ne nofun⟩
  have hruns : Runs (Program.textSession "def f(x) 1.2.3<x y".toList).tokens
      [.parsed (.definition f), .parsed (.expression (.ofExpr (.var "y")))] := by
    rw [htokens]
    exact .step (.definition (v := [.identifier "y"]) (.intro f.prototype hbody) hends)
      (.step (.expression (v := []) hname Language.endsBefore_endOfInput) .finished)
  have hitems : (Program.textSession "def f(x) 1.2.3<x y".toList).run.items =
      [.definition f, .expression (.ofExpr (.var "y"))] := by
    rw [Run.items, steps_of_runs hruns rfl]
    rfl
  have hproper := items_proper (Script.ofList "def f(x) 1.2.3<x y".toList) [] (.definition f)
    (.inr (hitems ▸ List.mem_cons_self ..))
  exact ⟨hitems, hproper.1, hproper.2.1 f rfl⟩

end Parser

end Kaleidoscope
