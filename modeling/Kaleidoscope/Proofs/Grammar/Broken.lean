import Kaleidoscope.Parser.Error
import Kaleidoscope.Proofs.Grammar.Language
import Mathlib.Data.List.Basic

/-!
# Where expressions break off

The counterpart of the grammar for what is not in it. `BrokenExpression u expected t` derives a failure
as the grammar derives a tree: after the tokens `u`, all of which were in order, stands `t`, which
cannot go on from there, and `expected` is what the innermost construct then open waits for.

## Where an expression ends

Whether a token goes on with an expression is a matter of one token and of the one before it: an
operator always does, and an opening parenthesis does after a name, which it makes a call. `EndsBefore`
says that neither is the case. It stands where the grammar has nothing to say, behind a complete
expression, and it is all that an expression asks of its surroundings.

## Main definitions

* `Language.Separates`, `Language.EndsBefore` — where an expression may end
* `Language.BrokenExpression`, `BrokenPrimary`, `BrokenArguments` — derivations of a failure
* `Language.BrokenPrototype`, `BrokenDefinition`, `BrokenExternal`
* `Expectation.Advertises` — the tokens that an expectation names
* `Expectation.Bars` — the tokens that stop everything that an expectation may stand for

## Main results

* `Language.BrokenExpression.exists_continuation` — what is advertised would have gone on
* `Language.BrokenExpression.of_bars` — a barrier breaks off what is broken at some other token
-/

namespace Kaleidoscope

namespace Language

/-! ### The end of an expression -/

/-- The token `t` does not make a call of a name at the end of `u`. -/
def Separates (u : List Token) (t : Token) : Prop :=
  t = .char '(' → ∀ name, u.getLast? ≠ some (.identifier name)

/-- The token `t` does not go on with an expression `u`. -/
structure EndsBefore (u : List Token) (t : Token) : Prop where
  operator : ¬ IsOperator t
  call : Separates u t

section

variable {u v : List Token} {s t : Token}

theorem Separates.of_ne (h : t ≠ .char '(') : Separates u t := fun ht => absurd ht h

theorem Separates.of_isOperator (h : IsOperator t) : Separates u t :=
  .of_ne fun ht => not_isOperator_of_starts (t := t) (ht ▸ rfl) h

theorem separates_append (hv : v ≠ []) : Separates (u ++ v) t ↔ Separates v t := by
  unfold Separates
  rw [List.getLast?_append_of_ne_nil u hv]

theorem separates_concat (hs : ∀ name, s ≠ .identifier name) : Separates (u ++ [s]) t := by
  intro _ name h
  rw [List.getLast?_concat] at h
  exact hs name (Option.some.inj h)

theorem endsBefore_append (hv : v ≠ []) : EndsBefore (u ++ v) t ↔ EndsBefore v t :=
  ⟨fun h => ⟨h.operator, (separates_append hv).1 h.call⟩,
    fun h => ⟨h.operator, (separates_append hv).2 h.call⟩⟩

/-- A function ends where its body does. -/
theorem endsBefore_definition (head : Prototype) (hv : v ≠ []) :
    EndsBefore (.defKeyword :: (head.tokens ++ v)) t ↔ EndsBefore v t :=
  endsBefore_append (u := .defKeyword :: head.tokens) hv

/-- Where no expression starts, one may end, unless an operator goes on with it. -/
theorem EndsBefore.of_not_starts (ht : ¬ t.StartsExpression) (ho : ¬ IsOperator t) :
    EndsBefore u t := ⟨ho, .of_ne fun h => ht (h ▸ rfl)⟩

theorem endsBefore_endOfInput : EndsBefore u .endOfInput :=
  .of_not_starts id (by simp [IsOperator])

end

/-! ### Failures -/

mutual

/-- An expression that breaks off. -/
inductive BrokenExpression : List Token → Expectation → Token → Prop where
  | operand {u : List Token} {expected : Expectation} {t : Token} (h : BrokenPrimary u expected t) :
    BrokenExpression u expected t
  | chain {u v : List Token} {op : Token} {expected : Expectation} {t : Token} (hu : IsPrimary u)
    (ho : IsOperator op) (hv : BrokenExpression v expected t) :
    BrokenExpression (u ++ op :: v) expected t

/-- An operand that breaks off. -/
inductive BrokenPrimary : List Token → Expectation → Token → Prop where
  | start {t : Token} (ht : ¬ t.StartsExpression) : BrokenPrimary [] .expression t
  | group {u : List Token} {expected : Expectation} {t : Token} (h : BrokenExpression u expected t) :
    BrokenPrimary (.char '(' :: u) expected t
  | unclosed {u : List Token} {t : Token} (h : IsExpression u) (he : EndsBefore u t)
    (hc : t ≠ .char ')') : BrokenPrimary (.char '(' :: u) .closingParen t
  | call {u : List Token} {expected : Expectation} {t : Token} (callee : String)
    (hc : (u ++ [t]).head? ≠ some (.char ')')) (h : BrokenArguments u expected t) :
    BrokenPrimary (.identifier callee :: .char '(' :: u) expected t

/-- Arguments, at least one, that break off. -/
inductive BrokenArguments : List Token → Expectation → Token → Prop where
  | argument {u : List Token} {expected : Expectation} {t : Token}
    (h : BrokenExpression u expected t) : BrokenArguments u expected t
  | unclosed {u : List Token} {t : Token} (h : IsExpression u) (he : EndsBefore u t)
    (hc : t ≠ .char ')') (hs : t ≠ .char ',') : BrokenArguments u .argumentEnd t
  | more {u v : List Token} {expected : Expectation} {t : Token} (h : IsExpression u)
    (hs : BrokenArguments v expected t) : BrokenArguments (u ++ .char ',' :: v) expected t

end

/-- The head of a function that breaks off. -/
inductive BrokenPrototype : List Token → Expectation → Token → Prop where
  | name {t : Token} (ht : ∀ name, t ≠ .identifier name) : BrokenPrototype [] .functionName t
  | parameters {t : Token} (name : String) (ht : t ≠ .char '(') :
    BrokenPrototype [.identifier name] .parametersOpen t
  | unclosed {t : Token} (name : String) (parameters : List String) (hn : ∀ name, t ≠ .identifier name)
    (hc : t ≠ .char ')') :
    BrokenPrototype (.identifier name :: .char '(' :: parameters.map .identifier) .parametersClose t

/-- A function that breaks off, with its keyword. -/
inductive BrokenDefinition : List Token → Expectation → Token → Prop where
  | head {u : List Token} {expected : Expectation} {t : Token} (h : BrokenPrototype u expected t) :
    BrokenDefinition (.defKeyword :: u) expected t
  | body {u : List Token} {expected : Expectation} {t : Token} (head : Prototype)
    (h : BrokenExpression u expected t) :
    BrokenDefinition (.defKeyword :: (head.tokens ++ u)) expected t

/-- An external declaration that breaks off, with its keyword. -/
inductive BrokenExternal : List Token → Expectation → Token → Prop where
  | head {u : List Token} {expected : Expectation} {t : Token} (h : BrokenPrototype u expected t) :
    BrokenExternal (.externKeyword :: u) expected t

end Language

/-! ### What is advertised -/

/-- The tokens that an expectation names. -/
def Expectation.Advertises : Expectation → Token → Prop
  | expression, t => t.StartsExpression
  | closingParen, t => t = .char ')'
  | argumentEnd, t => t = .char ')' ∨ t = .char ','
  | functionName, t => ∃ name, t = .identifier name
  | parametersOpen, t => t = .char '('
  | parametersClose, t => t = .char ')'

/-- Every expectation names some token. -/
theorem Expectation.exists_advertises : ∀ expected : Expectation, ∃ t, expected.Advertises t
  | expression => ⟨.char '(', rfl⟩
  | closingParen => ⟨_, rfl⟩
  | argumentEnd => ⟨_, .inl rfl⟩
  | functionName => ⟨_, "", rfl⟩
  | parametersOpen => ⟨_, rfl⟩
  | parametersClose => ⟨_, rfl⟩

namespace Language

variable {u : List Token} {expected : Expectation} {s t : Token}

/-- A shortest expression that starts with a given token. -/
theorem exists_isPrimary_of_starts (ht : t.StartsExpression) : ∃ w, IsPrimary (t :: w) := by
  cases t with
  | identifier name => exact ⟨[], .name name⟩
  | number value => exact ⟨[], .number value⟩
  | char c =>
    obtain rfl : c = '(' := ht
    exact ⟨[.number .zero, .char ')'], .group (.primary (.number .zero))⟩
  | _ => exact absurd ht id

mutual

/-- Where an expression breaks off, a token that is advertised would have gone on with it. -/
theorem BrokenExpression.exists_continuation :
    ∀ {u : List Token} {expected : Expectation} {s t : Token}, BrokenExpression u expected t →
      expected.Advertises s → ∃ w, IsExpression (u ++ s :: w)
  | _, _, _, _, .operand h, hs => by
    obtain ⟨w, hw⟩ := h.exists_continuation hs
    exact ⟨w, .primary hw⟩
  | _, _, _, _, .chain hu ho hv, hs => by
    obtain ⟨w, hw⟩ := hv.exists_continuation hs
    refine ⟨w, ?_⟩
    rw [List.append_assoc, List.cons_append]
    exact .chain hu ho hw

theorem BrokenPrimary.exists_continuation :
    ∀ {u : List Token} {expected : Expectation} {s t : Token}, BrokenPrimary u expected t →
      expected.Advertises s → ∃ w, IsPrimary (u ++ s :: w)
  | _, _, _, _, .start _, hs => exists_isPrimary_of_starts hs
  | _, _, _, _, .group h, hs => by
    obtain ⟨w, hw⟩ := h.exists_continuation hs
    exact ⟨w ++ [.char ')'], by simpa using IsPrimary.group hw⟩
  | _, _, _, _, .unclosed h _ _, hs => by
    cases hs
    exact ⟨[], .group h⟩
  | _, _, _, _, .call callee _ h, hs => by
    obtain ⟨w, v, hv, hw⟩ := h.exists_continuation hs
    refine ⟨w, ?_⟩
    rw [List.cons_append, List.cons_append, hw]
    exact .call callee hv

theorem BrokenArguments.exists_continuation :
    ∀ {u : List Token} {expected : Expectation} {s t : Token}, BrokenArguments u expected t →
      expected.Advertises s → ∃ w v, IsArguments v ∧ u ++ s :: w = v ++ [.char ')']
  | _, _, _, _, .argument h, hs => by
    obtain ⟨w, hw⟩ := h.exists_continuation hs
    exact ⟨w ++ [.char ')'], _, .one hw, by simp⟩
  | _, _, _, _, .unclosed h _ _ _, hs => by
    rcases hs with rfl | rfl
    · exact ⟨[], _, .one h, rfl⟩
    · exact ⟨[.number .zero, .char ')'], _, .more h (.one (.primary (.number .zero))), by simp⟩
  | _, _, _, _, .more h hs, hs' => by
    obtain ⟨w, v, hv, hw⟩ := hs.exists_continuation hs'
    refine ⟨w, _, .more h hv, ?_⟩
    rw [List.append_assoc, List.cons_append, hw, List.append_assoc, List.cons_append]

end

/-- Where the head of a function breaks off, a token that is advertised would have gone on with it,
and any name will do for what is missing. -/
theorem BrokenPrototype.exists_continuation (h : BrokenPrototype u expected t)
    (hs : expected.Advertises s) : ∃ (w : List Token) (head : Prototype), u ++ s :: w = head.tokens := by
  cases h with
  | name _ =>
    obtain ⟨name, rfl⟩ := hs
    exact ⟨[.char '(', .char ')'], ⟨name, []⟩, rfl⟩
  | parameters name _ =>
    cases hs
    exact ⟨[.char ')'], ⟨name, []⟩, rfl⟩
  | unclosed name parameters _ _ =>
    cases hs
    exact ⟨[], ⟨name, parameters⟩, rfl⟩

theorem BrokenDefinition.exists_continuation (h : BrokenDefinition u expected t)
    (hs : expected.Advertises s) : ∃ w f, Grammar.Definition (u ++ s :: w) f := by
  cases h with
  | @head u _ _ h =>
    obtain ⟨w, head, hw⟩ := h.exists_continuation hs
    refine ⟨w ++ [.number .zero], ⟨head, .number .zero⟩, ?_⟩
    have hu : u ++ s :: (w ++ [.number .zero]) = head.tokens ++ [.number .zero] := by
      rw [← hw, List.append_assoc, List.cons_append]
    rw [List.cons_append, hu]
    exact .intro head (.sum (.product (.primary (.number .zero))))
  | body head h =>
    obtain ⟨w, hw⟩ := h.exists_continuation hs
    obtain ⟨body, hbody⟩ := Grammar.isExpression_iff.1 hw
    refine ⟨w, ⟨head, body⟩, ?_⟩
    rw [List.cons_append, List.append_assoc]
    exact .intro head hbody

theorem BrokenExternal.exists_continuation (h : BrokenExternal u expected t)
    (hs : expected.Advertises s) : ∃ w head, Grammar.External (u ++ s :: w) head := by
  cases h with
  | head h =>
    obtain ⟨w, head, hw⟩ := h.exists_continuation hs
    refine ⟨w, head, ?_⟩
    rw [List.cons_append, hw]
    exact .intro head

end Language

/-! ### Barriers -/

/-- The tokens that nothing can go on with where `expected` is reported: they start no expression and
no group, they are no operator, they close nothing, and a comma is among them only where no argument
has just ended. The end of the input and a semicolon are such tokens everywhere. -/
structure Expectation.Bars (expected : Expectation) (t : Token) : Prop where
  starts : ¬ t.StartsExpression
  operator : ¬ Language.IsOperator t
  close : t ≠ .char ')'
  comma : expected = .argumentEnd → t ≠ .char ','

theorem Expectation.bars_semicolon (expected : Expectation) : expected.Bars (.char ';') :=
  ⟨nofun, by simp [Language.IsOperator], by simp, by simp⟩

theorem Expectation.bars_endOfInput (expected : Expectation) : expected.Bars .endOfInput :=
  ⟨nofun, by simp [Language.IsOperator], by simp, by simp⟩

theorem Expectation.bars_comma {expected : Expectation} (h : expected ≠ .argumentEnd) :
    expected.Bars (.char ',') :=
  ⟨nofun, by simp [Language.IsOperator], by simp, fun he => absurd he h⟩

namespace Language

/-- What comes first is the same with another token at the end, unless it is that token. -/
theorem head?_concat_ne {u : List Token} {s t c : Token} (h : (u ++ [t]).head? ≠ some c) (hs : s ≠ c) :
    (u ++ [s]).head? ≠ some c := by
  cases u with
  | nil => exact fun he => hs (Option.some.inj he)
  | cons => exact h

mutual

/-- What breaks off at some token breaks off at a barrier in its place. -/
theorem BrokenExpression.of_bars : ∀ {u : List Token} {expected : Expectation} {s t : Token},
    BrokenExpression u expected t → expected.Bars s → BrokenExpression u expected s
  | _, _, _, _, .operand h, hs => .operand (h.of_bars hs)
  | _, _, _, _, .chain hu ho hv, hs => .chain hu ho (hv.of_bars hs)

theorem BrokenPrimary.of_bars : ∀ {u : List Token} {expected : Expectation} {s t : Token},
    BrokenPrimary u expected t → expected.Bars s → BrokenPrimary u expected s
  | _, _, _, _, .start _, hs => .start hs.starts
  | _, _, _, _, .group h, hs => .group (h.of_bars hs)
  | _, _, _, _, .unclosed h _ _, hs => .unclosed h (.of_not_starts hs.starts hs.operator) hs.close
  | _, _, _, _, .call callee hc h, hs => .call callee (head?_concat_ne hc hs.close) (h.of_bars hs)

theorem BrokenArguments.of_bars : ∀ {u : List Token} {expected : Expectation} {s t : Token},
    BrokenArguments u expected t → expected.Bars s → BrokenArguments u expected s
  | _, _, _, _, .argument h, hs => .argument (h.of_bars hs)
  | _, _, _, _, .unclosed h _ _ _, hs =>
    .unclosed h (.of_not_starts hs.starts hs.operator) hs.close (hs.comma rfl)
  | _, _, _, _, .more h hs', hs => .more h (hs'.of_bars hs)

end

variable {u : List Token} {expected : Expectation} {s t : Token}

theorem BrokenPrototype.of_bars (h : BrokenPrototype u expected t) (hs : expected.Bars s) :
    BrokenPrototype u expected s := by
  have hname : ∀ name, s ≠ .identifier name := fun _ he => hs.starts (he ▸ trivial)
  cases h with
  | name _ => exact .name hname
  | parameters name _ => exact .parameters name fun he => hs.starts (he ▸ rfl)
  | unclosed name parameters _ _ => exact .unclosed name parameters hname hs.close

theorem BrokenDefinition.of_bars (h : BrokenDefinition u expected t) (hs : expected.Bars s) :
    BrokenDefinition u expected s := by
  cases h with
  | head h => exact .head (h.of_bars hs)
  | body head h => exact .body head (h.of_bars hs)

theorem BrokenExternal.of_bars (h : BrokenExternal u expected t) (hs : expected.Bars s) :
    BrokenExternal u expected s := by
  cases h with
  | head h => exact .head (h.of_bars hs)

end Language

end Kaleidoscope
