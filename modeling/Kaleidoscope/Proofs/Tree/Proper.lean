import Kaleidoscope.Proofs.Tree.Compact

/-!
# Proper tokens make proper trees

A tree has no name, no operator and no number that was not among its tokens, so it is as proper as they
are. That is one induction over the grammar. Of the tokens, only names and numbers matter: an operator
gets into a tree by a rule of the grammar, which says which one it is.

What a scanner makes of a text is proper whatever the text. A word that is no keyword is a name, and a
numeral, however long or malformed, is a number without a sign.

## Main definitions

* `Token.IsProper` — tokens without what no program can say
* `Binary64.IsUnsigned` — the numbers that a numeral can stand for

## Main results

* `Grammar.Comparison.isProper`, `Grammar.Definition.isProper`, `Grammar.External.isProper` — trees are as
  proper as their tokens
* `Lexes.isProper` — the tokens of a text are proper
* `Item.IsProper.reserved` — the name of the function around a bare expression is its alone
-/

namespace Kaleidoscope

/-- A token with a proper name, if it is one, or with a number that `P` holds of. -/
def Token.IsProper (P : Binary64 → Prop) : Token → Prop
  | .identifier name => IsName name
  | .number value => P value
  | _ => True

/-- A number without a sign; it may be infinity. -/
structure Binary64.IsUnsigned (x : Binary64) : Prop where
  isNaN : x.isNaN = false
  isNegative : x.isNegative = false

/-! ### Trees -/

section

variable {P : Binary64 → Prop}

/-- Two operands around an operator are as proper as the tokens before and behind it. -/
theorem Expr.IsProper.operation {u v : List Token} {l r : Expr} {op : Char} {t : Token}
    (ho : op ∈ ['<', '+', '-', '*']) (hl : (∀ t ∈ u, t.IsProper P) → l.IsProper P)
    (hr : (∀ t ∈ v, t.IsProper P) → r.IsProper P) (h : ∀ t' ∈ u ++ t :: v, t'.IsProper P) :
    (Expr.binary op l r).IsProper P := by
  obtain ⟨hleft, hright⟩ := List.forall_mem_append.1 h
  exact .binary ho (hl hleft) (hr (List.forall_mem_cons.1 hright).2)

end

namespace Grammar

variable {P : Binary64 → Prop}

mutual

theorem Comparison.isProper : ∀ {u : List Token} {e : Expr}, Comparison u e →
    (∀ t ∈ u, t.IsProper P) → e.IsProper P
  | _, _, .sum h, hu => h.isProper hu
  | _, _, .less hl hr, hu => .operation (by decide) hl.isProper hr.isProper hu

theorem Sum.isProper : ∀ {u : List Token} {e : Expr}, Sum u e →
    (∀ t ∈ u, t.IsProper P) → e.IsProper P
  | _, _, .product h, hu => h.isProper hu
  | _, _, .plus hl hr, hu => .operation (by decide) hl.isProper hr.isProper hu
  | _, _, .minus hl hr, hu => .operation (by decide) hl.isProper hr.isProper hu

theorem Product.isProper : ∀ {u : List Token} {e : Expr}, Product u e →
    (∀ t ∈ u, t.IsProper P) → e.IsProper P
  | _, _, .primary h, hu => h.isProper hu
  | _, _, .times hl hr, hu => .operation (by decide) hl.isProper hr.isProper hu

theorem Primary.isProper : ∀ {u : List Token} {e : Expr}, Primary u e →
    (∀ t ∈ u, t.IsProper P) → e.IsProper P
  | _, _, .number _, hu => .number (hu _ (List.mem_cons_self ..))
  | _, _, .name _, hu => .var (hu _ (List.mem_cons_self ..))
  | _, _, .call _ h, hu => by
    obtain ⟨hcallee, hrest⟩ := List.forall_mem_cons.1 hu
    have hargs := (List.forall_mem_append.1 (List.forall_mem_cons.1 hrest).2).1
    exact .call hcallee (h.isProper hargs)
  | _, _, .group h, hu =>
    h.isProper (List.forall_mem_append.1 (List.forall_mem_cons.1 hu).2).1

theorem Arguments.isProper : ∀ {u : List Token} {es : List Expr}, Arguments u es →
    (∀ t ∈ u, t.IsProper P) → ∀ e ∈ es, e.IsProper P
  | _, _, .none, _ => List.forall_mem_nil _
  | _, _, .some h, hu => h.isProper hu

theorem SomeArguments.isProper : ∀ {u : List Token} {es : List Expr}, SomeArguments u es →
    (∀ t ∈ u, t.IsProper P) → ∀ e ∈ es, e.IsProper P
  | _, _, .one h, hu => List.forall_mem_singleton.2 (h.isProper hu)
  | _, _, .more h hs, hu => by
    obtain ⟨hfirst, hlater⟩ := List.forall_mem_append.1 hu
    exact List.forall_mem_cons.2
      ⟨h.isProper hfirst, hs.isProper (List.forall_mem_cons.1 hlater).2⟩

end

theorem isProper_of_tokens {head : Prototype} (h : ∀ t ∈ head.tokens, t.IsProper P) :
    head.IsProper := by
  obtain ⟨hname, hrest⟩ := List.forall_mem_cons.1 h
  have hparameters := (List.forall_mem_append.1 (List.forall_mem_cons.1 hrest).2).1
  exact ⟨hname, fun a ha => hparameters (.identifier a) (List.mem_map_of_mem ha)⟩

theorem Definition.isProper {u : List Token} {f : Function} (h : Definition u f)
    (hu : ∀ t ∈ u, t.IsProper P) : (Item.definition f).IsProper P := by
  obtain ⟨head, hbody⟩ := h
  obtain ⟨hhead, hrest⟩ := List.forall_mem_append.1 (List.forall_mem_cons.1 hu).2
  exact .definition (isProper_of_tokens hhead) (hbody.isProper hrest)

theorem External.isProper {u : List Token} {head : Prototype} (h : External u head)
    (hu : ∀ t ∈ u, t.IsProper P) : (Item.external head).IsProper P := by
  obtain ⟨⟩ := h
  exact .external (isProper_of_tokens (List.forall_mem_cons.1 hu).2)

end Grammar

/-! ### Tokens -/

variable {P : Binary64 → Prop} {c : Char} {run : List Char}

/-- A word is a keyword or a name. -/
theorem Token.isProper_ofWord (hc : c.isAlpha = true) (hrun : ∀ d ∈ run, d.isAlphanum = true) :
    (ofWord (String.ofList (c :: run))).IsProper P := by
  have hall : ∀ d ∈ c :: run, d.isAlphanum = true :=
    List.forall_mem_cons.2 ⟨by rw [Char.isAlphanum, hc, Bool.true_or], hrun⟩
  rw [ofWord]
  split
  · trivial
  · rename_i hdef
    split
    · trivial
    · rename_i hextern
      exact ⟨⟨c, by rw [String.toList_ofList]; rfl, hc⟩, by rwa [String.toList_ofList], hdef, hextern⟩

/-- Whatever a numeral is, it stands for a number without a sign. -/
theorem Token.isProper_ofNumeral (run : List Char) : (ofNumeral run).IsProper Binary64.IsUnsigned :=
  ⟨Binary64.isNaN_nearest _ _, Binary64.isNegative_nearest _ _⟩

/-- The tokens of a text are proper. -/
theorem Lexes.isProper {n : Nat} {text : List Char} {ts : List (Token × Nat)} (h : Lexes n text ts) :
    ∀ t ∈ ts.map Prod.fst, t.IsProper Binary64.IsUnsigned := by
  induction h with
  | done => exact List.forall_mem_nil _
  | blank _ _ ih => exact ih
  | comment _ _ _ ih => exact ih
  | word hc hr _ _ ih => exact List.forall_mem_cons.2 ⟨Token.isProper_ofWord hc hr, ih⟩
  | numeral _ _ _ _ ih => exact List.forall_mem_cons.2 ⟨Token.isProper_ofNumeral _, ih⟩
  | solitary _ _ ih => exact List.forall_mem_cons.2 ⟨trivial, ih⟩

/-! ### The reserved name -/

/-- No program can use the name of the function around a bare expression, as it starts with an
underscore. -/
theorem IsName.ne_anonymousName {name : String} (h : IsName name) : name ≠ Prototype.anonymousName := by
  rintro rfl
  exact absurd h (by decide)

/-- Of proper items, no definition is anonymous, and all bare expressions are, without parameters. -/
theorem Item.IsProper.reserved {i : Item} (h : i.IsProper P) :
    (∀ f, i = .definition f → f.isAnonymous = false) ∧
      ∀ f, i = .expression f → f.isAnonymous = true ∧ f.prototype.parameters = [] := by
  cases h with
  | @definition g hp _ =>
    refine ⟨fun f hf => ?_, nofun⟩
    obtain rfl := Item.definition.inj hf
    exact decide_eq_false hp.name.ne_anonymousName
  | external _ => exact ⟨nofun, nofun⟩
  | @expression g hp _ =>
    refine ⟨nofun, fun f hf => ?_⟩
    obtain rfl := Item.expression.inj hf
    exact ⟨by rw [Function.isAnonymous, hp]; rfl, by rw [hp]; rfl⟩

end Kaleidoscope
