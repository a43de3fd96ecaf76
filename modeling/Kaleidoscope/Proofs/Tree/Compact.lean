import Kaleidoscope.Grammar.Expression
import Kaleidoscope.Proofs.Decimal.Positional
import Kaleidoscope.Proofs.Token.Spelling

/-!
# Compact texts

A tree can hold more than a program can say: any string for a name, any character for an operator, a
negative number. `IsProper` is what is left when that is excluded, and the compact text of a proper tree
spells it. Which numbers are proper depends on who asks, so it is a parameter.

The compact text of an operation is in parentheses, so the text of every expression is an operand. This
is what makes the proof short: precedence plays no part in what is printed, and no operand's text can run
into the next.

## Main definitions

* `IsName` — the words that a program can use as names
* `Expr.IsProper`, `Prototype.IsProper`, `Item.IsProper` — trees without what no program can say
* `Binary64.IsLiteral` — the numbers that a program can write down

## Main results

* `Expr.IsProper.exists_spells` — the compact text of an expression is an operand that stands for it
* `Prototype.IsProper.spells` — the compact text of a function's head has the tokens of the head
-/

namespace Kaleidoscope

/-! ### Proper trees -/

/-- A word that a program can use as a name: letters and digits of ASCII, a letter in front, and no
keyword. -/
structure IsName (name : String) : Prop where
  exists_letter : ∃ c ∈ name.toList.head?, c.isAlpha = true
  isAlphanum : ∀ c ∈ name.toList, c.isAlphanum = true
  ne_def : name ≠ "def"
  ne_extern : name ≠ "extern"

instance (name : String) : Decidable (IsName name) :=
  decidable_of_iff
    (name.toList.head?.any Char.isAlpha = true ∧ name.toList.all Char.isAlphanum = true ∧
      name ≠ "def" ∧ name ≠ "extern")
    ⟨fun ⟨h, ha, hd, he⟩ => ⟨(Option.any_eq_true ..).1 h, List.all_eq_true.1 ha, hd, he⟩,
      fun h => ⟨(Option.any_eq_true ..).2 h.1, List.all_eq_true.2 h.2, h.3, h.4⟩⟩

/-- A number that a program can write down: finite, and without a sign. -/
structure Binary64.IsLiteral (x : Binary64) : Prop where
  isFinite : x.isFinite = true
  isNegative : x.isNegative = false

/-- An expression with proper names and operators, and with numbers that `P` holds of. -/
inductive Expr.IsProper (P : Binary64 → Prop) : Expr → Prop where
  | number {value : Binary64} (h : P value) : IsProper P (.number value)
  | var {name : String} (h : IsName name) : IsProper P (.var name)
  | binary {op : Char} {left right : Expr} (ho : op ∈ ['<', '+', '-', '*']) (hl : IsProper P left)
    (hr : IsProper P right) : IsProper P (.binary op left right)
  | call {callee : String} {args : List Expr} (hc : IsName callee) (hargs : ∀ e ∈ args, IsProper P e) :
    IsProper P (.call callee args)

/-- A function's head with proper names. -/
structure Prototype.IsProper (p : Prototype) : Prop where
  name : IsName p.name
  parameters : ∀ a ∈ p.parameters, IsName a

/-- A unit with proper names, operators and numbers. The function around a bare expression has the name
that no program can use. -/
inductive Item.IsProper (P : Binary64 → Prop) : Item → Prop where
  | definition {f : Function} (hp : f.prototype.IsProper) (hb : f.body.IsProper P) :
    IsProper P (.definition f)
  | external {p : Prototype} (h : p.IsProper) : IsProper P (.external p)
  | expression {f : Function} (hp : f.prototype = .anonymous) (hb : f.body.IsProper P) :
    IsProper P (.expression f)

/-! ### Names and numbers -/

theorem IsName.spells {name : String} (h : IsName name) : Spells name.toList [.identifier name] := by
  obtain ⟨c, hc, halpha⟩ := h.exists_letter
  obtain ⟨run, hname⟩ := List.head?_eq_some_iff.1 hc
  have hrun : ∀ d ∈ run, d.isAlphanum = true := fun d hd =>
    h.isAlphanum d (hname ▸ List.mem_cons_of_mem c hd)
  have htoken : Token.ofWord (String.ofList (c :: run)) = .identifier name := by
    rw [← hname, String.ofList_toList, Token.ofWord, if_neg h.ne_def, if_neg h.ne_extern]
  have hword := Spells.word halpha hrun
  rwa [htoken, ← hname] at hword

theorem Binary64.IsLiteral.spells {x : Binary64} (h : x.IsLiteral) :
    Spells x.text.toList [.number x] := by
  obtain ⟨whole, fraction, hpositional⟩ := isPositional_text h.isFinite h.isNegative
  have hnumeral := Spells.numeral hpositional.isNumeral hpositional.ne_nil
  rwa [Token.ofNumeral_text h.isFinite h.isNegative] at hnumeral

/-! ### Expressions -/

namespace Grammar

variable {u v : List Token} {l r : Expr} {op : Char}

/-- Two operands around an operator. -/
theorem Comparison.of_primaries (ho : op ∈ ['<', '+', '-', '*']) (hl : Primary u l)
    (hr : Primary v r) : Comparison (u ++ .char op :: v) (.binary op l r) := by
  have hproduct : Product u l := .primary hl
  have hsum : Sum u l := .product hproduct
  simp only [List.mem_cons, List.not_mem_nil, or_false] at ho
  rcases ho with rfl | rfl | rfl | rfl
  · exact .less (.sum hsum) (.product (.primary hr))
  · exact .sum (.plus hsum (.primary hr))
  · exact .sum (.minus hsum (.primary hr))
  · exact .sum (.product (.times hproduct hr))

theorem Comparison.of_primary (h : Primary u l) : Comparison u l := .sum (.product (.primary h))

end Grammar

theorem isSolitary_operator {op : Char} (h : op ∈ ['<', '+', '-', '*']) :
    isSolitary op = true ∧ 0x20 ≤ op.toNat ∧ op.toNat ≤ 0x7E := by
  simp only [List.mem_cons, List.not_mem_nil, or_false] at h
  rcases h with rfl | rfl | rfl | rfl <;> decide

namespace Expr

theorem toList_text_binary (op : Char) (left right : Expr) :
    (binary op left right).text.toList =
      '(' :: ((left.text.toList ++ ' ' :: op :: ' ' :: right.text.toList) ++ [')']) := by
  simp [text]

theorem toList_text_call (callee : String) (args : List Expr) :
    (call callee args).text.toList =
      callee.toList ++ '(' :: ([',', ' '].intercalate (args.map fun e => e.text.toList) ++ [')']) := by
  simp [text, texts_eq_map, String.toList_intercalate, Function.comp_def]

/-- The texts of operands with commas between them are arguments. -/
theorem exists_spells_someArguments {e : Expr} {args : List Expr}
    (h : ∀ d ∈ e :: args, ∃ u, Grammar.Primary u d ∧ Spells d.text.toList u) :
    ∃ u, Grammar.SomeArguments u (e :: args) ∧
      Spells ([',', ' '].intercalate ((e :: args).map fun d => d.text.toList)) u := by
  induction args generalizing e with
  | nil =>
    obtain ⟨u, hu, hspells⟩ := h e (List.mem_cons_self ..)
    refine ⟨u, .one (.of_primary hu), ?_⟩
    rwa [List.map_singleton, List.intercalate_singleton]
  | cons e' args ih =>
    obtain ⟨u, hu, hspells⟩ := h e (List.mem_cons_self ..)
    obtain ⟨v, hv, hrest⟩ := ih fun d hd => h d (List.mem_cons_of_mem e hd)
    refine ⟨u ++ .char ',' :: v, .more (.of_primary hu) hv, ?_⟩
    rw [List.map_cons, List.map_cons, List.intercalate_cons_cons, List.append_assoc]
    exact hspells.append (hrest.blank.mark (by decide) (by decide)) (follows_cons rfl _)

theorem exists_spells_arguments {args : List Expr}
    (h : ∀ d ∈ args, ∃ u, Grammar.Primary u d ∧ Spells d.text.toList u) :
    ∃ u, Grammar.Arguments u args ∧
      Spells ([',', ' '].intercalate (args.map fun d => d.text.toList)) u := by
  cases args with
  | nil => exact ⟨[], .none, .nil⟩
  | cons e args =>
    obtain ⟨u, hu, hspells⟩ := exists_spells_someArguments h
    exact ⟨u, .some hu, hspells⟩

/-- The compact text of a proper expression is an operand that stands for it. -/
theorem IsProper.exists_spells {e : Expr} (h : e.IsProper Binary64.IsLiteral) :
    ∃ u, Grammar.Primary u e ∧ Spells e.text.toList u := by
  induction h with
  | @number value h => exact ⟨_, .number value, h.spells⟩
  | @var name h => exact ⟨_, .name name, h.spells⟩
  | @binary op left right ho _ _ ihl ihr =>
    obtain ⟨u, hu, hleft⟩ := ihl
    obtain ⟨v, hv, hright⟩ := ihr
    obtain ⟨hsolitary, hprintable⟩ := isSolitary_operator ho
    refine ⟨_, .group (.of_primaries ho hu hv), ?_⟩
    have hoperator := (hright.blank.mark hsolitary hprintable).blank
    rw [toList_text_binary]
    exact (hleft.append hoperator (follows_cons rfl _)).group
  | @call callee args hc _ ih =>
    obtain ⟨u, hu, hargs⟩ := exists_spells_arguments ih
    refine ⟨_, .call callee hu, ?_⟩
    rw [toList_text_call]
    exact hc.spells.append hargs.group (follows_cons rfl _)

end Expr

/-! ### Heads of functions -/

namespace Prototype

theorem toList_text (p : Prototype) :
    p.text.toList =
      p.name.toList ++ '(' :: ([' '].intercalate (p.parameters.map String.toList) ++ [')']) := by
  simp [text, String.toList_intercalate]

theorem spells_parameters {parameters : List String} (h : ∀ a ∈ parameters, IsName a) :
    Spells ([' '].intercalate (parameters.map String.toList)) (parameters.map .identifier) := by
  induction parameters with
  | nil => exact .nil
  | cons a parameters ih =>
    obtain ⟨ha, hlater⟩ := List.forall_mem_cons.1 h
    cases parameters with
    | nil =>
      rw [List.map_singleton, List.intercalate_singleton]
      exact ha.spells
    | cons b parameters =>
      rw [List.map_cons, List.map_cons, List.intercalate_cons_cons, List.append_assoc]
      exact ha.spells.append (ih hlater).blank (follows_cons rfl _)

/-- The compact text of a proper head has the tokens of the head. -/
theorem IsProper.spells {p : Prototype} (h : p.IsProper) : Spells p.text.toList p.tokens := by
  rw [toList_text]
  exact h.name.spells.append (spells_parameters h.parameters).group (follows_cons rfl _)

end Prototype

end Kaleidoscope
