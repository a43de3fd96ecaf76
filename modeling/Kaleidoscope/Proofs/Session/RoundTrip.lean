import Kaleidoscope.Proofs.Session.LineEnds
import Kaleidoscope.Proofs.Tree.Compact

/-!
# What is printed reads back

A session prints items in their compact form. Written one below the other, with a semicolon behind each,
they are a program again, and a session over it hands out the same items.

The line end behind a semicolon separates the tokens of one item from those of the next, so each item can
be read by itself. What a session makes of it depends on the semicolon: a call would go on with a
parenthesis and an operation with an operator, and a semicolon is neither, so an item ends where its
compact form does.

## Main definitions

* `listing` — items one below the other

## Main results

* `Item.IsProper.exists_takes` — an item is read off its compact form in a single step
* `Program.listing_reads_back` — a listing is run without errors and gives the items back
-/

namespace Kaleidoscope

open Session

/-- Items one below the other, each in its compact form and with a semicolon behind it. -/
def listing (items : List Item) : List Char := items.flatMap fun i => i.text.toList ++ [';', '\n']

theorem spells_def : Spells ['d', 'e', 'f'] [.defKeyword] := Spells.word rfl (List.all_eq_true.1 rfl)

theorem spells_extern : Spells ['e', 'x', 't', 'e', 'r', 'n'] [.externKeyword] :=
  Spells.word rfl (List.all_eq_true.1 rfl)

theorem endsBefore_semicolon (u : List Token) : Language.EndsBefore u (.char ';') :=
  .of_not_starts nofun (by simp [Language.IsOperator])

namespace Item

theorem toList_text_definition (f : Function) : (definition f).text.toList =
    ['d', 'e', 'f'] ++ ' ' :: (f.prototype.text.toList ++ ' ' :: f.body.text.toList) := by
  simp [text, Function.text]

theorem toList_text_external (p : Prototype) : (external p).text.toList =
    ['e', 'x', 't', 'e', 'r', 'n'] ++ ' ' :: p.text.toList := by
  simp [text]

/-- The compact form of a proper item spells tokens that a session takes for the item, as far as the next
semicolon. -/
theorem IsProper.exists_takes {i : Item} (h : i.IsProper Binary64.IsLiteral) :
    ∃ u, Spells i.text.toList u ∧ ∀ v, Takes (u ++ .char ';' :: v) (.parsed i) (.char ';' :: v) := by
  cases h with
  | @definition f hp hb =>
    obtain ⟨u, hu, hbody⟩ := hb.exists_spells
    have hfunction := hp.spells.append hbody.blank (follows_cons rfl _)
    refine ⟨_, ?_, fun v => .definition (.intro f.prototype (.of_primary hu)) (endsBefore_semicolon _)⟩
    rw [toList_text_definition]
    exact spells_def.append hfunction.blank (follows_cons rfl _)
  | @external p h =>
    refine ⟨_, ?_, fun v => .external (.intro p)⟩
    rw [toList_text_external]
    exact spells_extern.append h.spells.blank (follows_cons rfl _)
  | @expression f hp hb =>
    obtain ⟨u, hu, hbody⟩ := hb.exists_spells
    obtain ⟨head, body⟩ := f
    obtain rfl : head = .anonymous := hp
    exact ⟨u, hbody, fun v => .expression (.of_primary hu) (endsBefore_semicolon _)⟩

end Item

namespace Program

theorem textTokens_of_spells {text : List Char} {us : List Token} (h : Spells text us) :
    textTokens text = us := by
  obtain ⟨ps, hps, rfl⟩ := h.exists_cuts
  exact textTokens_of_cuts hps

/-- The steps over a listing: each item, and the semicolon behind it. -/
theorem runs_listing {items : List Item} (h : ∀ i ∈ items, i.IsProper Binary64.IsLiteral) :
    Runs (textTokens (listing items)) (items.flatMap fun i => [.parsed i, .skipped]) := by
  induction items with
  | nil =>
    have hnil : textTokens (listing []) = [] := textTokens_of_spells .nil
    rw [hnil]
    exact .finished
  | cons i items ih =>
    obtain ⟨hi, hlater⟩ := List.forall_mem_cons.1 h
    obtain ⟨u, hspells, htakes⟩ := hi.exists_takes
    have hsemicolon : Spells [';'] [.char ';'] := Spells.nil.mark (by decide) (by decide)
    have hmark := hspells.append hsemicolon (follows_cons rfl _)
    have hline : listing (i :: items) = (i.text.toList ++ [';']) ++ ([] ++ '\n' :: listing items) := by
      simp [listing]
    rw [hline, textTokens_append_remark _ _ isRemark_nil rfl, textTokens_of_spells hmark,
      List.append_assoc]
    exact .step (htakes _) (.step .separator (ih hlater))

theorem steps_run_listing {items : List Item} (h : ∀ i ∈ items, i.IsProper Binary64.IsLiteral) :
    (textSession (listing items)).run.steps = items.flatMap fun i => [.parsed i, .skipped] :=
  Parser.steps_of_runs (runs_listing h) (tokens_textSession_eq _)

theorem filterMap_item?_listing (items : List Item) :
    (items.flatMap fun i => [Step.parsed i, .skipped]).filterMap Step.item? = items := by
  induction items with
  | nil => rfl
  | cons i items ih => exact congrArg (i :: ·) ih

theorem filterMap_error?_listing (items : List Item) :
    (items.flatMap fun i => [Step.parsed i, .skipped]).filterMap Step.error? = [] := by
  induction items with
  | nil => rfl
  | cons i items ih => exact ih

/-- The compact forms of proper items are printable ASCII, so there is no line break in them, and their
listing is run without errors and gives the same items in the same order. -/
theorem listing_reads_back (items : List Item) (h : ∀ i ∈ items, i.IsProper Binary64.IsLiteral) :
    (∀ i ∈ items, ∀ c ∈ i.text.toList,
      isLineEnd c = false ∧ 0x20 ≤ c.toNat ∧ c.toNat ≤ 0x7E) ∧
      (textSession (listing items)).run.items = items ∧
        (textSession (listing items)).run.summary = ⟨items.length, 0⟩ := by
  have hitems : (textSession (listing items)).run.items = items := by
    rw [Run.items, steps_run_listing h, filterMap_item?_listing]
  have herrors : (textSession (listing items)).run.errors = [] := by
    rw [Run.errors, steps_run_listing h, filterMap_error?_listing]
  refine ⟨fun i hi c hc => ?_, hitems, ?_⟩
  · obtain ⟨u, hspells, -⟩ := (h i hi).exists_takes
    have hprintable := hspells.printable c hc
    refine ⟨?_, hprintable⟩
    rw [Bool.eq_false_iff]
    intro hend
    rcases lineEnd_cases hend with rfl | rfl
    · exact absurd hprintable (by decide)
    · exact absurd hprintable (by decide)
  · rw [Run.summary, hitems, herrors]
    rfl

/-- A declaration, a definition with an operation in another one and a call with two arguments, and a
call with none. -/
def threeUnits : List Item :=
  [.external ⟨"sin", ["a"]⟩,
    .definition ⟨⟨"f", ["x", "y"]⟩,
      .binary '*' (.binary '+' (.var "x") (.number ⟨0x3FE0000000000000⟩))
        (.call "g" [.var "y", .number .zero])⟩,
    .expression (.ofExpr (.call "f" []))]

theorem listing_threeUnits_reads_back :
    (textSession "extern sin(a);\ndef f(x y) ((x + 0.5) * g(y, 0));\nf();\n".toList).run.items =
      threeUnits := by
  have hx : IsName "x" := by decide
  have hy : IsName "y" := by decide
  have hf : IsName "f" := by decide
  have hsum : Expr.IsProper Binary64.IsLiteral (.binary '+' (.var "x") (.number ⟨0x3FE0000000000000⟩)) :=
    .binary (by decide) (.var hx) (.number ⟨by decide, by decide⟩)
  have hargs : ∀ e ∈ [.var "y", .number .zero], Expr.IsProper Binary64.IsLiteral e :=
    List.forall_mem_cons.2 ⟨.var hy, List.forall_mem_singleton.2 (.number ⟨by decide, by decide⟩)⟩
  have hparameters : ∀ a ∈ ["x", "y"], IsName a :=
    List.forall_mem_cons.2 ⟨hx, List.forall_mem_singleton.2 hy⟩
  have hproper : ∀ i ∈ threeUnits, i.IsProper Binary64.IsLiteral :=
    List.forall_mem_cons.2 ⟨.external ⟨by decide, List.forall_mem_singleton.2 (by decide)⟩,
      List.forall_mem_cons.2 ⟨.definition ⟨hf, hparameters⟩
        (.binary (by decide) hsum (.call (by decide) hargs)),
        List.forall_mem_singleton.2 (.expression rfl (.call hf nofun))⟩⟩
  have htext : listing threeUnits =
      "extern sin(a);\ndef f(x y) ((x + 0.5) * g(y, 0));\nf();\n".toList := by decide +kernel
  have hitems := (listing_reads_back threeUnits hproper).2.1
  rwa [htext] at hitems

end Program

end Kaleidoscope
