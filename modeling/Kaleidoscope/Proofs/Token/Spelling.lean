import Kaleidoscope.Proofs.Token.Piece

/-!
# Spelling tokens

What a printer writes is put together from words, numerals, marks and blanks, and whether the tokens of
the whole are those of the parts depends on what meets where: `x` and `1` side by side are one word.
So a text spells tokens if it is cut into them whatever comes next, as long as that goes on neither with
a word nor with a numeral. Such texts can be put next to each other whenever the second one starts
with a mark or a blank, and a printer can be followed one piece of text at a time.

Nothing but printable ASCII is ever written, and that is the same induction, so it is part of the notion.

## Main definitions

* `continues` — the characters that go on with a word or a numeral
* `Spells` — a text in printable ASCII that spells tokens

## Main results

* `Spells.append` — two texts, one after the other
* `Spells.mark`, `Spells.blank`, `Spells.group`, `Spells.word`, `Spells.numeral` — what texts are put
  together from
-/

namespace Kaleidoscope

/-- The characters that go on with a word or a numeral. -/
def continues (c : Char) : Bool := c.isAlphanum || isNumeral c

/-- A text in printable ASCII that is cut into the given tokens if nothing behind it goes on with the
last of them. -/
structure Spells (text : List Char) (us : List Token) : Prop where
  printable : ∀ c ∈ text, 0x20 ≤ c.toNat ∧ c.toNat ≤ 0x7E
  exists_cut : ∃ ps, joined ps = text ∧ tokensOf ps = us ∧ ∀ rest, Follows continues rest → IsCut rest ps

section

variable {keep : Char → Bool} {text rest : List Char}

theorem Follows.append_text (h : Follows keep text) (hr : Follows keep rest) :
    Follows keep (text ++ rest) := by
  cases text with
  | nil => exact hr
  | cons c text => exact follows_cons (h c rfl) _

theorem Follows.isAlphanum (h : Follows continues text) : Follows Char.isAlphanum text := fun c hc =>
  (Bool.or_eq_false_iff.1 (h c hc)).1

theorem Follows.isNumeral (h : Follows continues text) : Follows isNumeral text := fun c hc =>
  (Bool.or_eq_false_iff.1 (h c hc)).2

end

theorem printable_of_isAlphanum {c : Char} (h : c.isAlphanum = true) :
    0x20 ≤ c.toNat ∧ c.toNat ≤ 0x7E := by
  rcases Bool.or_eq_true_iff.1 h with ha | hd
  · have := toNat_of_isAlpha ha
    omega
  · have := toNat_of_isNumeral (c := c) (by rw [Kaleidoscope.isNumeral, hd, Bool.true_or])
    omega

namespace Spells

variable {text text' : List Char} {us us' : List Token} {c : Char} {run : List Char}

theorem nil : Spells [] [] := ⟨nofun, [], rfl, rfl, fun _ _ => trivial⟩

/-- Two texts, one after the other, if the second does not go on with the last token of the first. -/
theorem append (h : Spells text us) (h' : Spells text' us') (hends : Follows continues text') :
    Spells (text ++ text') (us ++ us') := by
  obtain ⟨hprintable, ps, rfl, rfl, hps⟩ := h
  obtain ⟨hprintable', qs, rfl, rfl, hqs⟩ := h'
  refine ⟨fun c hc => (List.mem_append.1 hc).elim (hprintable c) (hprintable' c), ps ++ qs,
    joined_append ps qs, tokensOf_append ps qs, fun rest hrest => ?_⟩
  exact isCut_append.2 ⟨hps _ (hends.append_text hrest), hqs rest hrest⟩

/-- A piece that fits in front of a text. -/
theorem cons {p : Piece} (h : Spells text us) (hp : ∀ c ∈ p.text, 0x20 ≤ c.toNat ∧ c.toNat ≤ 0x7E)
    (hfits : ∀ rest, Follows continues rest → p.Fits (text ++ rest)) :
    Spells (p.text ++ text) (p.token?.toList ++ us) := by
  obtain ⟨hprintable, ps, rfl, rfl, hps⟩ := h
  refine ⟨fun c hc => (List.mem_append.1 hc).elim (hp c) (hprintable c), p :: ps, rfl, ?_,
    fun rest hrest => ⟨hfits rest hrest, hps rest hrest⟩⟩
  cases ht : p.token? with
  | none => exact List.filterMap_cons_none ht
  | some t => exact List.filterMap_cons_some ht

/-- A blank in front. -/
theorem blank (h : Spells text us) : Spells (' ' :: text) us :=
  have hblank : isBlank ' ' = true := by decide
  h.cons (p := .blank ' ') (List.forall_mem_singleton.2 (by decide)) fun _ _ => hblank

/-- A character in front that is a token of its own. -/
theorem mark (h : Spells text us) (hc : isSolitary c = true)
    (hp : 0x20 ≤ c.toNat ∧ c.toNat ≤ 0x7E) : Spells (c :: text) (.char c :: us) :=
  h.cons (p := .solitary c) (List.forall_mem_singleton.2 hp) fun _ _ => hc

/-- Parentheses around a text. -/
theorem group (h : Spells text us) :
    Spells ('(' :: (text ++ [')'])) (.char '(' :: (us ++ [.char ')'])) := by
  have hclose : Spells [')'] [.char ')'] := nil.mark (by decide) (by decide)
  exact (h.append hclose (follows_cons rfl _)).mark (by decide) (by decide)

/-- A word. -/
theorem word (hc : c.isAlpha = true) (hrun : ∀ d ∈ run, d.isAlphanum = true) :
    Spells (c :: run) [.ofWord (String.ofList (c :: run))] := by
  have hword := nil.cons (p := .word c run)
    (fun d hd => printable_of_isAlphanum (by
      rcases List.mem_cons.1 hd with rfl | hd
      · rw [Char.isAlphanum, hc, Bool.true_or]
      · exact hrun d hd))
    fun rest hrest => ⟨hc, hrun, hrest.isAlphanum⟩
  rwa [List.append_nil] at hword

/-- A numeral. -/
theorem numeral (hrun : ∀ d ∈ run, isNumeral d = true) (hne : run ≠ []) :
    Spells run [.ofNumeral run] := by
  obtain ⟨c, run, rfl⟩ := List.exists_cons_of_ne_nil hne
  have hnumeral := nil.cons (p := .numeral c run)
    (fun d hd => by
      have := toNat_of_isNumeral (hrun d hd)
      omega)
    fun rest hrest => ⟨hrun c (List.mem_cons_self ..), fun d hd => hrun d (List.mem_cons_of_mem c hd),
      hrest.isNumeral⟩
  rwa [List.append_nil] at hnumeral

/-- The text of pieces that are cut whatever comes next is cut into them if nothing comes next. -/
theorem exists_cuts (h : Spells text us) : ∃ ps, Cuts ps text ∧ tokensOf ps = us := by
  obtain ⟨-, ps, hjoined, htokens, hps⟩ := h
  exact ⟨ps, ⟨hps [] nofun, hjoined⟩, htokens⟩

end Spells

end Kaleidoscope
