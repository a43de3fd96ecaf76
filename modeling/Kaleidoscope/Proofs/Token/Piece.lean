import Kaleidoscope.Proofs.Token.Lexical

/-!
# Pieces of a text

`Lexes` says which tokens a text has and where they end. Here the cutting itself is an object: a list of
pieces, each of them white space, a comment or a lexeme, that give the text when they are joined.

## A cut with something behind it

Whether a piece is as long as it can be depends on the character behind it, and that is part of another
piece, or of a text that nobody has cut yet. So `IsCut` has the rest of the text as a parameter. A list
of pieces is then cut well in front of a rest if and only if each half of it is, the first half in front
of what the second half gives (`isCut_append`), and a printer can be dealt with piece by piece.

## One cut for each text

The first character of a text decides what its first piece is, and the class of that piece decides how
long it is. `Piece.first?` computes it, and everything that is unique about cutting follows from the one
statement that it finds the piece that is there.

## Main definitions

* `Piece` — white space, comments and lexemes
* `Piece.Fits`, `IsCut` — pieces that are cut as they must be, in front of a rest
* `Cuts` — pieces that a whole text is cut into
* `lexemesFrom` — their tokens, each with the offset of its end

## Main results

* `Cuts.unique`, `exists_cuts` — a text is cut in one way
* `lexes_iff_cuts` — the tokens of a text are those of its pieces
-/

namespace Kaleidoscope

/-- A piece of a text. -/
inductive Piece where
  /-- A character of white space. -/
  | blank (c : Char)
  /-- A comment, given by what stands behind its first character. -/
  | comment (body : List Char)
  /-- A word, given by its letter in front and the letters and digits behind. -/
  | word (c : Char) (run : List Char)
  /-- A run of digits and points. -/
  | numeral (c : Char) (run : List Char)
  /-- A character that is a token of its own. -/
  | solitary (c : Char)
  deriving DecidableEq, Repr

namespace Piece

/-- The characters of a piece. -/
def text : Piece → List Char
  | blank c => [c]
  | comment body => '#' :: body
  | word c run => c :: run
  | numeral c run => c :: run
  | solitary c => [c]

/-- The token that a piece stands for, if it is a lexeme. -/
def token? : Piece → Option Token
  | blank _ => none
  | comment _ => none
  | word c run => some (.ofWord (String.ofList (c :: run)))
  | numeral c run => some (.ofNumeral (c :: run))
  | solitary c => some (.char c)

/-- A piece of its class that does not go on into the rest of the text. -/
def Fits (rest : List Char) : Piece → Prop
  | blank c => isBlank c = true
  | comment body => (∀ c ∈ body, isLineEnd c = false) ∧ Follows (fun c => !isLineEnd c) rest
  | word c run => c.isAlpha = true ∧ (∀ d ∈ run, d.isAlphanum = true) ∧ Follows Char.isAlphanum rest
  | numeral c run => isNumeral c = true ∧ (∀ d ∈ run, isNumeral d = true) ∧ Follows isNumeral rest
  | solitary c => isSolitary c = true

end Piece

/-- The text that pieces give. -/
def joined (ps : List Piece) : List Char := ps.flatMap Piece.text

/-- The tokens of pieces. -/
def tokensOf (ps : List Piece) : List Token := ps.filterMap Piece.token?

/-- The tokens of pieces from the offset `n` on, each with the offset of its end. -/
def lexemesFrom (n : Nat) : List Piece → List (Token × Nat)
  | [] => []
  | p :: ps =>
    (p.token?.map fun t => (t, n + p.text.length)).toList ++ lexemesFrom (n + p.text.length) ps

/-- Pieces that are cut as they must be if the text goes on with `rest`. -/
def IsCut (rest : List Char) : List Piece → Prop
  | [] => True
  | p :: ps => p.Fits (joined ps ++ rest) ∧ IsCut rest ps

-- Instances for statements about all characters would search all of Unicode, so these two are spelt out.

instance (keep : Char → Bool) (text : List Char) : Decidable (Follows keep text) :=
  decidable_of_iff (text.head?.all (!keep ·) = true) (by simp [Follows, Option.all_eq_true])

instance Piece.decidableFits (rest : List Char) : (p : Piece) → Decidable (p.Fits rest)
  | blank c => inferInstanceAs (Decidable (isBlank c = true))
  | comment body =>
    decidable_of_iff (body.all (!isLineEnd ·) = true ∧ Follows (fun c => !isLineEnd c) rest)
      (by simp [Fits])
  | word c run =>
    decidable_of_iff (c.isAlpha = true ∧ run.all Char.isAlphanum = true ∧ Follows Char.isAlphanum rest)
      (by simp [Fits])
  | numeral c run =>
    decidable_of_iff (isNumeral c = true ∧ run.all isNumeral = true ∧ Follows isNumeral rest)
      (by simp [Fits])
  | solitary c => inferInstanceAs (Decidable (isSolitary c = true))

instance decidableIsCut (rest : List Char) : (ps : List Piece) → Decidable (IsCut rest ps)
  | [] => isTrue trivial
  | p :: ps =>
    have := decidableIsCut rest ps
    inferInstanceAs (Decidable (p.Fits (joined ps ++ rest) ∧ IsCut rest ps))

/-- The pieces that a text is cut into. -/
structure Cuts (ps : List Piece) (text : List Char) : Prop where
  isCut : IsCut [] ps
  joined_eq : joined ps = text

variable {p q : Piece} {ps qs : List Piece} {c : Char} {keep : Char → Bool} {n : Nat}
  {run rest text : List Char}

/-! ### Lists of pieces -/

@[simp] theorem joined_nil : joined [] = [] := rfl

@[simp] theorem joined_cons (p : Piece) (ps : List Piece) : joined (p :: ps) = p.text ++ joined ps :=
  List.flatMap_cons

@[simp] theorem joined_append (ps qs : List Piece) : joined (ps ++ qs) = joined ps ++ joined qs :=
  List.flatMap_append

@[simp] theorem tokensOf_append (ps qs : List Piece) :
    tokensOf (ps ++ qs) = tokensOf ps ++ tokensOf qs := List.filterMap_append

theorem map_fst_lexemesFrom (n : Nat) (ps : List Piece) :
    (lexemesFrom n ps).map Prod.fst = tokensOf ps := by
  induction ps generalizing n with
  | nil => rfl
  | cons p ps ih =>
    rw [lexemesFrom, List.map_append, ih]
    cases h : p.token? with
    | none => exact (List.filterMap_cons_none h).symm
    | some t => exact (List.filterMap_cons_some h).symm

theorem le_of_mem_lexemesFrom {entry : Token × Nat} (h : entry ∈ lexemesFrom n ps) :
    entry.2 ≤ n + (joined ps).length := by
  induction ps generalizing n with
  | nil => cases h
  | cons p ps ih =>
    rw [joined_cons, List.length_append]
    rcases List.mem_append.1 h with hfirst | hlater
    · obtain ⟨t, -, rfl⟩ := Option.map_eq_some_iff.1 (Option.mem_toList.1 hfirst)
      show n + p.text.length ≤ _
      omega
    · have := ih hlater
      omega

theorem Piece.ne_endOfInput_of_token? {t : Token} (h : p.token? = some t) : t ≠ .endOfInput := by
  cases p with
  | blank c => cases h
  | comment body => cases h
  | word c run => exact Option.some.inj h ▸ Token.ofWord_ne_endOfInput _
  | numeral c run => exact Option.some.inj h ▸ by simp [Token.ofNumeral]
  | solitary c => exact Option.some.inj h ▸ by simp

theorem ne_endOfInput_of_mem_lexemesFrom {entry : Token × Nat} (h : entry ∈ lexemesFrom n ps) :
    entry.1 ≠ .endOfInput := by
  have hmem := List.mem_map_of_mem (f := Prod.fst) h
  rw [map_fst_lexemesFrom] at hmem
  obtain ⟨p, -, hp⟩ := List.mem_filterMap.1 hmem
  exact Piece.ne_endOfInput_of_token? hp

theorem isCut_append : IsCut rest (ps ++ qs) ↔ IsCut (joined qs ++ rest) ps ∧ IsCut rest qs := by
  induction ps with
  | nil => exact (and_iff_right trivial).symm
  | cons p ps ih =>
    rw [List.cons_append, IsCut, IsCut, ih, joined_append, List.append_assoc, and_assoc]

/-! ### The piece in front of a text -/

/-- The piece that a text starts with. -/
def Piece.first? : List Char → Option Piece
  | [] => none
  | c :: text =>
    if isBlank c then some (blank c)
    else if c = '#' then some (comment (text.takeWhile fun c => !isLineEnd c))
    else if c.isAlpha then some (word c (text.takeWhile Char.isAlphanum))
    else if isNumeral c then some (numeral c (text.takeWhile isNumeral))
    else some (solitary c)

theorem takeWhile_run (hrun : ∀ d ∈ run, keep d = true) (hrest : Follows keep rest) :
    (run ++ rest).takeWhile keep = run := by
  have hstop : rest.takeWhile keep = [] := by
    cases rest with
    | nil => rfl
    | cons c rest => exact List.takeWhile_cons_of_neg (by simp [hrest c rfl])
  rw [List.takeWhile_append_of_pos hrun, hstop, List.append_nil]

namespace Piece

/-- The piece that a text starts with is found. -/
theorem Fits.first?_eq (h : p.Fits rest) : first? (p.text ++ rest) = some p := by
  have lexeme : ∀ {c : Char} {text : List Char}, StartsLexeme c → first? (c :: text) =
      if c.isAlpha then some (word c (text.takeWhile Char.isAlphanum))
      else if isNumeral c then some (numeral c (text.takeWhile isNumeral)) else some (solitary c) := by
    intro c text hc
    rw [first?, if_neg (by simp [hc.1]), if_neg hc.2]
  cases p with
  | blank c => exact if_pos h
  | comment body =>
    have hkeep : ∀ c ∈ body, (!isLineEnd c) = true := fun c hc => by rw [h.1 c hc]; rfl
    have hbody := takeWhile_run hkeep h.2
    show first? ('#' :: (body ++ rest)) = _
    rw [first?, if_neg (by decide), if_pos rfl, hbody]
  | word c run =>
    obtain ⟨hc, hrun, hrest⟩ := h
    show first? (c :: (run ++ rest)) = _
    rw [lexeme (startsLexeme_of_isAlpha hc), if_pos hc, takeWhile_run hrun hrest]
  | numeral c run =>
    obtain ⟨hc, hrun, hrest⟩ := h
    show first? (c :: (run ++ rest)) = _
    rw [lexeme (startsLexeme_of_isNumeral hc), if_neg (by simp [not_isAlpha_of_isNumeral hc]),
      if_pos hc, takeWhile_run hrun hrest]
  | solitary c =>
    obtain ⟨hstarts, ha, hn⟩ := isSolitary_iff.1 h
    show first? (c :: rest) = _
    rw [lexeme hstarts, if_neg (by simp [ha]), if_neg (by simp [hn])]

theorem text_ne_nil (p : Piece) : p.text ≠ [] := by
  cases p <;> exact List.cons_ne_nil _ _

end Piece

/-! ### One cut for each text -/

/-- Pieces that are cut well are determined by the text that they give. -/
theorem IsCut.unique (hp : IsCut [] ps) (hq : IsCut [] qs) (h : joined ps = joined qs) : ps = qs := by
  induction ps generalizing qs with
  | nil =>
    cases qs with
    | nil => rfl
    | cons q qs =>
      rw [joined_cons] at h
      exact absurd (List.append_eq_nil_iff.1 h.symm).1 q.text_ne_nil
  | cons p ps ih =>
    cases qs with
    | nil =>
      rw [joined_cons] at h
      exact absurd (List.append_eq_nil_iff.1 h).1 p.text_ne_nil
    | cons q qs =>
      rw [joined_cons, joined_cons] at h
      obtain ⟨hpfits, hpcut⟩ := hp
      obtain ⟨hqfits, hqcut⟩ := hq
      have hfirst : p = q := by
        have hpfirst := hpfits.first?_eq
        rw [List.append_nil, h] at hpfirst
        have hqfirst := hqfits.first?_eq
        rw [List.append_nil] at hqfirst
        exact Option.some.inj (hpfirst.symm.trans hqfirst)
      subst hfirst
      rw [ih hpcut hqcut (List.append_cancel_left h)]

theorem Cuts.unique (hp : Cuts ps text) (hq : Cuts qs text) : ps = qs :=
  hp.isCut.unique hq.isCut (hp.joined_eq.trans hq.joined_eq.symm)

theorem Cuts.cons (hp : p.Fits text) (h : Cuts ps text) : Cuts (p :: ps) (p.text ++ text) := by
  obtain ⟨hcut, rfl⟩ := h
  rw [← List.append_nil (joined ps)] at hp
  exact ⟨⟨hp, hcut⟩, rfl⟩

/-- The tokens of pieces are those of the text that they give. -/
theorem IsCut.lexes (h : IsCut [] ps) (n : Nat) : Lexes n (joined ps) (lexemesFrom n ps) := by
  induction ps generalizing n with
  | nil => exact .done n
  | cons p ps ih =>
    obtain ⟨hfits, hcut⟩ := h
    rw [List.append_nil] at hfits
    have hlater := ih hcut (n + p.text.length)
    rw [joined_cons]
    cases p with
    | blank c => exact .blank hfits hlater
    | comment body => exact .comment hfits.1 hfits.2 hlater
    | word c run => exact .word hfits.1 hfits.2.1 hfits.2.2 hlater
    | numeral c run => exact .numeral hfits.1 hfits.2.1 hfits.2.2 hlater
    | solitary c => exact .solitary hfits hlater

/-- Whatever tokens a text has, pieces of it have them. -/
theorem Lexes.exists_cuts {ts : List (Token × Nat)} (h : Lexes n text ts) :
    ∃ ps, Cuts ps text ∧ lexemesFrom n ps = ts := by
  induction h with
  | done n => exact ⟨[], ⟨trivial, rfl⟩, rfl⟩
  | @blank n c text ts hc _ ih =>
    obtain ⟨ps, hps, rfl⟩ := ih
    exact ⟨.blank c :: ps, hps.cons (p := .blank c) hc, rfl⟩
  | @comment n body text ts hb hf _ ih =>
    obtain ⟨ps, hps, rfl⟩ := ih
    exact ⟨.comment body :: ps, hps.cons (p := .comment body) ⟨hb, hf⟩, rfl⟩
  | @word n c run text ts hc hr hf _ ih =>
    obtain ⟨ps, hps, rfl⟩ := ih
    exact ⟨.word c run :: ps, hps.cons (p := .word c run) ⟨hc, hr, hf⟩, rfl⟩
  | @numeral n c run text ts hc hr hf _ ih =>
    obtain ⟨ps, hps, rfl⟩ := ih
    exact ⟨.numeral c run :: ps, hps.cons (p := .numeral c run) ⟨hc, hr, hf⟩, rfl⟩
  | @solitary n c text ts hc _ ih =>
    obtain ⟨ps, hps, rfl⟩ := ih
    exact ⟨.solitary c :: ps, hps.cons (p := .solitary c) hc, rfl⟩

/-- Every text is cut into pieces. -/
theorem exists_cuts (text : List Char) : ∃ ps, Cuts ps text := by
  obtain ⟨ts, hts⟩ := exists_lexes 0 text
  obtain ⟨ps, hps, -⟩ := hts.exists_cuts
  exact ⟨ps, hps⟩

theorem lexes_iff_cuts {ts : List (Token × Nat)} :
    Lexes n text ts ↔ ∃ ps, Cuts ps text ∧ lexemesFrom n ps = ts := by
  constructor
  · exact Lexes.exists_cuts
  · rintro ⟨ps, hps, rfl⟩
    rw [← hps.joined_eq]
    exact hps.isCut.lexes n

end Kaleidoscope
