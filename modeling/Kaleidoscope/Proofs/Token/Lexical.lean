import Kaleidoscope.Token.Lexical

/-!
# Cutting texts

Every text is cut into trivia and lexemes in some way, and a line end is always a place to cut: no word
and no numeral goes across one, and a comment ends there. So the tokens of a text that continues behind
a line end are those of either part, which is what makes lines independent of one another.

## Main results

* `exists_lexes` — every text has tokens
* `Lexes.append_remark`, `Lexes.append_lineEnd` — two texts with a line end between them, and with a
  comment before it
-/

namespace Kaleidoscope

variable {c : Char} {keep : Char → Bool} {n : Nat} {text : List Char} {ts : List (Token × Nat)}

/-! ### Classes of characters -/

theorem toNat_of_isAlpha (h : c.isAlpha = true) : 65 ≤ c.toNat ∧ c.toNat ≤ 122 := by
  rcases Bool.or_eq_true_iff.1 h with h | h
  · have hupper : 65 ≤ c.toNat ∧ c.toNat ≤ 90 := of_decide_eq_true h
    omega
  · have hlower := Bool.and_eq_true_iff.1 h
    have hge : 97 ≤ c.toNat := of_decide_eq_true hlower.1
    have hle : c.toNat ≤ 122 := of_decide_eq_true hlower.2
    omega

theorem toNat_of_isNumeral (h : isNumeral c = true) : 46 ≤ c.toNat ∧ c.toNat ≤ 57 := by
  rcases Bool.or_eq_true_iff.1 h with h | h
  · have hdigit := Bool.and_eq_true_iff.1 h
    have hge : 48 ≤ c.toNat := of_decide_eq_true hdigit.1
    have hle : c.toNat ≤ 57 := of_decide_eq_true hdigit.2
    omega
  · obtain rfl : c = '.' := of_decide_eq_true h
    decide

/-- A character that starts neither white space nor a comment. -/
def StartsLexeme (c : Char) : Prop := isBlank c = false ∧ c ≠ '#'

theorem startsLexeme_of_toNat (h : 36 ≤ c.toNat) (h' : c.toNat ≤ 126) : StartsLexeme c := by
  constructor
  · rw [Bool.eq_false_iff]
    intro hb
    obtain ⟨r, hr, hle, hge⟩ := CharSet.contains_iff.1 hb
    simp only [blanks, List.mem_cons, List.not_mem_nil, or_false] at hr
    rcases hr with rfl | rfl | rfl | rfl | rfl | rfl | rfl | rfl | rfl | rfl <;>
      simp only at hle hge <;> omega
  · rintro rfl
    exact absurd h (by decide)

theorem startsLexeme_of_isAlpha (h : c.isAlpha = true) : StartsLexeme c := by
  have := toNat_of_isAlpha h
  exact startsLexeme_of_toNat (by omega) (by omega)

theorem startsLexeme_of_isNumeral (h : isNumeral c = true) : StartsLexeme c := by
  have := toNat_of_isNumeral h
  exact startsLexeme_of_toNat (by omega) (by omega)

theorem not_isAlpha_of_isNumeral (h : isNumeral c = true) : c.isAlpha = false := by
  rw [Bool.eq_false_iff]
  intro ha
  have := toNat_of_isNumeral h
  have := toNat_of_isAlpha ha
  omega

theorem isSolitary_iff :
    isSolitary c = true ↔ StartsLexeme c ∧ c.isAlpha = false ∧ isNumeral c = false := by
  simp [isSolitary, StartsLexeme, and_assoc]

/-- What a character that is no trivia starts: a word, a numeral, or a token of its own. -/
theorem lexeme_cases (h : StartsLexeme c) :
    c.isAlpha = true ∨ isNumeral c = true ∨ isSolitary c = true := by
  cases ha : c.isAlpha with
  | true => exact .inl rfl
  | false =>
    cases hn : isNumeral c with
    | true => exact .inr (.inl rfl)
    | false => exact .inr (.inr (isSolitary_iff.2 ⟨h, ha, hn⟩))

theorem lineEnd_cases (h : isLineEnd c = true) : c = '\n' ∨ c = '\r' := by
  simpa [isLineEnd] using h

theorem isBlank_of_isLineEnd (h : isLineEnd c = true) : isBlank c = true := by
  rcases lineEnd_cases h with rfl | rfl <;> decide

theorem not_isAlphanum_of_isLineEnd (h : isLineEnd c = true) : c.isAlphanum = false := by
  rcases lineEnd_cases h with rfl | rfl <;> decide

theorem not_isNumeral_of_isLineEnd (h : isLineEnd c = true) : isNumeral c = false := by
  rcases lineEnd_cases h with rfl | rfl <;> decide

/-! ### Runs -/

theorem follows_cons (hc : keep c = false) (text : List Char) : Follows keep (c :: text) := by
  simpa [Follows] using hc

theorem Follows.append (h : Follows keep text) (hc : keep c = false) (rest : List Char) :
    Follows keep (text ++ c :: rest) := by
  cases text with
  | nil => exact follows_cons hc rest
  | cons d text => simpa [Follows] using h

/-- The longest run at the start of a text. -/
theorem exists_run (keep : Char → Bool) (text : List Char) :
    ∃ run rest, text = run ++ rest ∧ (∀ d ∈ run, keep d = true) ∧ Follows keep rest := by
  refine ⟨text.takeWhile keep, text.dropWhile keep, List.takeWhile_append_dropWhile.symm, ?_, ?_⟩
  · exact List.all_eq_true.1 List.all_takeWhile
  · intro c hc
    have h := List.head?_dropWhile_not keep text
    rw [Option.mem_def.1 hc] at h
    exact h

/-! ### Cutting -/

/-- Every text has tokens. -/
theorem exists_lexes (n : Nat) (text : List Char) : ∃ ts, Lexes n text ts := by
  induction hl : text.length using Nat.strongRecOn generalizing n text with
  | ind l ih =>
    have shorter : ∀ (run : List Char) {c : Char} {rest : List Char}, text = c :: (run ++ rest) →
        ∀ m, ∃ ts, Lexes m rest ts := by
      rintro run c rest rfl m
      refine ih rest.length ?_ m rest rfl
      rw [← hl, List.length_cons, List.length_append]
      omega
    cases text with
    | nil => exact ⟨[], .done n⟩
    | cons c text =>
      cases hb : isBlank c with
      | true =>
        obtain ⟨ts, h⟩ := shorter [] rfl (n + 1)
        exact ⟨ts, .blank hb h⟩
      | false =>
        by_cases hc : c = '#'
        · subst hc
          obtain ⟨body, rest, rfl, hbody, hrest⟩ := exists_run (fun c => !isLineEnd c) text
          obtain ⟨ts, h⟩ := shorter _ rfl (n + (body.length + 1))
          exact ⟨ts, .comment (fun d hd => by simpa using hbody d hd) hrest h⟩
        rcases lexeme_cases ⟨hb, hc⟩ with ha | hn | hs
        · obtain ⟨run, rest, rfl, hrun, hrest⟩ := exists_run Char.isAlphanum text
          obtain ⟨ts, h⟩ := shorter _ rfl (n + (run.length + 1))
          exact ⟨_, .word ha hrun hrest h⟩
        · obtain ⟨run, rest, rfl, hrun, hrest⟩ := exists_run isNumeral text
          obtain ⟨ts, h⟩ := shorter _ rfl (n + (run.length + 1))
          exact ⟨_, .numeral hn hrun hrest h⟩
        · obtain ⟨ts, h⟩ := shorter [] rfl (n + 1)
          exact ⟨_, .solitary hs h⟩

theorem eq_nil_of_lexes_nil (h : Lexes n [] ts) : ts = [] := by
  cases h
  rfl

/-- What may stand between a text and a line end without being read: nothing, or a comment. -/
structure IsRemark (gap : List Char) : Prop where
  starts : ∀ d ∈ gap.head?, d = '#'
  noLineEnd : ∀ d ∈ gap, isLineEnd d = false

theorem isRemark_nil : IsRemark [] := ⟨nofun, nofun⟩

/-- A class without `#` and without the line end does not go on across a remark. -/
theorem IsRemark.follows_append {gap : List Char} (hgap : IsRemark gap) (h : Follows keep text)
    (hhash : keep '#' = false) (hc : keep c = false) (rest : List Char) :
    Follows keep (text ++ (gap ++ c :: rest)) := by
  cases gap with
  | nil => exact h.append hc rest
  | cons d gap =>
    obtain rfl := hgap.starts d rfl
    exact h.append hhash (gap ++ c :: rest)

/-- A remark and a line end separate the tokens before them from those behind, and give none. -/
theorem Lexes.append_remark {gap rest : List Char} {us : List (Token × Nat)} {m : Nat}
    (h : Lexes n text ts) (hgap : IsRemark gap) (hc : isLineEnd c = true)
    (hm : m = n + text.length + gap.length + 1) (hr : Lexes m rest us) :
    Lexes n (text ++ (gap ++ c :: rest)) (ts ++ us) := by
  induction h generalizing m with
  | done n =>
    cases gap with
    | nil =>
      subst hm
      exact .blank (isBlank_of_isLineEnd hc) hr
    | cons d gap =>
      obtain rfl := hgap.starts d rfl
      have hbody := (List.forall_mem_cons.1 hgap.noLineEnd).2
      refine .comment hbody (follows_cons (by rw [hc]; rfl) _)
        (.blank (isBlank_of_isLineEnd hc) ?_)
      rwa [hm] at hr
  | blank hb _ ih =>
    exact .blank hb (ih (by rw [hm, List.length_cons]; omega) hr)
  | @comment n body text ts hb hf h ih =>
    rw [List.cons_append, List.append_assoc]
    cases text with
    | nil =>
      -- The text ends within a comment, and the remark makes that comment longer.
      obtain rfl := eq_nil_of_lexes_nil h
      rw [List.nil_append, ← List.append_assoc]
      have hbody : ∀ d ∈ body ++ gap, isLineEnd d = false := fun d hd =>
        (List.mem_append.1 hd).elim (hb d) (hgap.noLineEnd d)
      refine .comment hbody (follows_cons (by rw [hc]; rfl) _)
        (.blank (isBlank_of_isLineEnd hc) ?_)
      have hend : m = n + ((body ++ gap).length + 1) + 1 := by
        rw [hm, List.append_nil, List.length_cons, List.length_append]
        omega
      rwa [hend] at hr
    | cons d text =>
      refine .comment hb hf (ih ?_ hr)
      rw [hm, List.length_cons, List.length_append]
      omega
  | @word n d run text ts hd hr' hf _ ih =>
    rw [List.cons_append, List.append_assoc]
    refine .word hd hr' (hgap.follows_append hf rfl (not_isAlphanum_of_isLineEnd hc) _) (ih ?_ hr)
    rw [hm, List.length_cons, List.length_append]
    omega
  | @numeral n d run text ts hd hr' hf _ ih =>
    rw [List.cons_append, List.append_assoc]
    refine .numeral hd hr' (hgap.follows_append hf rfl (not_isNumeral_of_isLineEnd hc) _) (ih ?_ hr)
    rw [hm, List.length_cons, List.length_append]
    omega
  | solitary hs _ ih =>
    exact .solitary hs (ih (by rw [hm, List.length_cons]; omega) hr)

/-- A line end separates the tokens before it from those behind, and is none itself. -/
theorem Lexes.append_lineEnd {rest : List Char} {us : List (Token × Nat)} {m : Nat}
    (h : Lexes n text ts) (hc : isLineEnd c = true) (hm : m = n + text.length + 1)
    (hr : Lexes m rest us) : Lexes n (text ++ c :: rest) (ts ++ us) :=
  h.append_remark isRemark_nil hc hm hr

end Kaleidoscope
