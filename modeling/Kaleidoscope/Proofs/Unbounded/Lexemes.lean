import Kaleidoscope.Proofs.Unbounded.Session

/-!
# Scanning a source without a size

A scan that returns has asked its source for so many answers, and of those behind them it knows nothing.
So it is a scan of another source as well, one that gives these answers and then no more, and that one has
a size. For this reason what is proved over sources with a size holds of every scan that returns, whether
or not its source ever stops. The text that it is about is what the source has given so far.

Over a source that stops, all scans return, and all operations of a parser do.

## Main definitions

* `FirstAnswers` — the first answers of a source, as a source with a size
* `Chars.text` — the characters that they give
* `upTo` — a scanner that is left with the first answers
* `Chars.HasRead` — a lexeme that has been read, at the price of one character behind it

## Main results

* `uses_nthScan` — a scan that returns depends on no answer that it has not asked for
* `Chars.hasRead_of_nthScan` — so it reads the lexeme with its number
* `StopsAfter.reads_lexemes` — over a source that stops, all scans do, and so does every operation
-/

namespace Kaleidoscope

namespace Unbounded

variable {σ : Type}

/-! ### The first answers -/

/-- A source that gives the next `left` answers of another one, and behind them nothing. -/
structure FirstAnswers (w : Chars σ) where
  left : Nat
  source : σ

namespace FirstAnswers

variable {w : Chars σ}

/-- Asks for the next character, unless no answer is left. -/
def ask : FirstAnswers w → Answer × FirstAnswers w
  | ⟨0, s⟩ => (.nothing, ⟨0, s⟩)
  | ⟨n + 1, s⟩ => ((w.next s).1, ⟨n, (w.next s).2⟩)

theorem size_ask (s : FirstAnswers w) : s.ask.1.weight + s.ask.2.left ≤ s.left := by
  obtain ⟨n, s⟩ := s
  cases n with
  | zero => exact Nat.le_refl 0
  | succ n =>
    have hweight : (w.next s).1.weight ≤ 1 := by cases (w.next s).1 <;> simp [Answer.weight]
    show (w.next s).1.weight + n ≤ n + 1
    omega

instance : CharSource (FirstAnswers w) where
  next := ask
  size := left
  size_next := size_ask

end FirstAnswers

/-- The source after it has been asked `k` times. -/
def Chars.skip (w : Chars σ) : Nat → σ → σ
  | 0, s => s
  | k + 1, s => w.skip k (w.next s).2

/-- The characters among the first `n` answers, up to the first one without a character. -/
def Chars.text (w : Chars σ) (n : Nat) (s : σ) : List Char := CharSource.text (⟨n, s⟩ : FirstAnswers w)

variable {w : Chars σ} {s : σ} {n k : Nat}

theorem FirstAnswers.source_skip (h : k ≤ n) :
    (CharSource.skip k (⟨n, s⟩ : FirstAnswers w)).source = w.skip k s := by
  induction k generalizing n s with
  | zero => rfl
  | succ k ih =>
    cases n with
    | zero => exact absurd h (Nat.not_succ_le_zero k)
    | succ n => exact ih (Nat.le_of_succ_le_succ h)

/-- A source that stops gives so many characters, and the answer that ends them. -/
theorem StopsAfter.length_text (h : StopsAfter w n s) : (w.text (n + 1) s).length = n := by
  induction n generalizing s with
  | zero =>
    rw [Chars.text, CharSource.text]
    split
    · rename_i c rest hc
      exact absurd (congrArg Prod.fst hc) (h c)
    · rfl
  | succ n ih =>
    obtain ⟨⟨c, hc⟩, hrest⟩ := h
    have hnext : CharSource.next (⟨n + 2, s⟩ : FirstAnswers w) = (.char c, ⟨n + 1, (w.next s).2⟩) :=
      congrArg (·, _) hc
    rw [Chars.text, CharSource.text]
    split
    · rename_i d rest hd
      obtain ⟨-, rfl⟩ := Prod.mk.inj (hnext.symm.trans hd)
      exact congrArg Nat.succ (ih hrest)
    · rename_i hne
      exact absurd hnext (hne c _)

/-! ### Scans that return -/

section

variable {s t u : Scanner σ} {keep : Char → Bool} {run : List Char} {P Q R : Nat → Prop}

/-- The scanner over the same source, if that gives `m` answers in all and then nothing. -/
def upTo (w : Chars σ) (m : Nat) (s : Scanner σ) : Scanner (FirstAnswers w) :=
  ⟨⟨m - s.pulls, s.source⟩, s.ahead, s.pulls⟩

@[simp] theorem ahead_upTo (m : Nat) : (upTo w m s).ahead = s.ahead := rfl

/-- A scanner goes on from `s` to `t`, and `P m` holds whenever a source of `m` answers is enough for that. -/
structure Uses (s t : Scanner σ) (P : Nat → Prop) : Prop where
  pulls_le : s.pulls ≤ t.pulls
  of_le : ∀ m, t.pulls ≤ m → P m

namespace Uses

theorem refl (h : ∀ m, P m) : Uses s s P := ⟨Nat.le_refl _, fun m _ => h m⟩

theorem trans (h : Uses s t P) (k : Uses t u Q) (hR : ∀ m, P m → Q m → R m) : Uses s u R :=
  ⟨Nat.le_trans h.pulls_le k.pulls_le,
    fun m hm => hR m (h.of_le m (Nat.le_trans k.pulls_le hm)) (k.of_le m hm)⟩

theorem imp (h : Uses s t P) (hQ : ∀ m, P m → Q m) : Uses s t Q :=
  ⟨h.pulls_le, fun m hm => hQ m (h.of_le m hm)⟩

end Uses

theorem uses_bump (w : Chars σ) (s : Scanner σ) :
    Uses s (w.bump s) fun m => (upTo w m s).bump = upTo w m (w.bump s) := by
  refine ⟨Nat.le_succ s.pulls, fun m hm => ?_⟩
  obtain ⟨j, rfl⟩ : ∃ j, m = s.pulls + 1 + j := Nat.exists_eq_add_of_le hm
  have hleft : s.pulls + 1 + j - s.pulls = j + 1 := by omega
  have hlater : s.pulls + 1 + j - (w.bump s).pulls = j := Nat.add_sub_cancel_left ..
  rw [upTo, upTo, hleft, hlater]
  rfl

/-- A run that comes to an end depends on no answer that it has not asked for. -/
theorem uses_span (h : w.span keep s = some (run, t)) :
    Uses s t fun m => (upTo w m s).span keep = (run, upTo w m t) := by
  refine Chars.span.partial_correctness w keep
    (fun s r => Uses s r.2 fun m => (upTo w m s).span keep = (r.1, upTo w m r.2))
    (fun loop ih s r hr => ?_) s (run, t) h
  rcases Scanner.runs_or_stops keep s with ⟨c, hc, hk⟩ | hstop
  · simp only [hc, if_pos hk] at hr
    obtain ⟨later, hlater, hcons⟩ := Option.bind_eq_some_iff.1 hr
    obtain rfl := Option.some.inj hcons
    refine (uses_bump w s).trans (ih _ later hlater) fun m hbump hspan => ?_
    rw [Scanner.span_of_char (s := upTo w m s) hc hk, hbump, hspan]
  · have hnone : some r = some ([], s) := by
      rw [← hr]
      cases hc : s.ahead with
      | char c => exact if_neg (hstop c hc ▸ Bool.false_ne_true)
      | nothing => rfl
      | failed fault => rfl
    obtain rfl := Option.some.inj hnone
    exact .refl fun m => Scanner.span_of_forall_ne (s := upTo w m s) hstop

theorem uses_skipTrivia (h : w.skipTrivia s = some t) :
    Uses s t fun m => (upTo w m s).skipTrivia = upTo w m t := by
  refine Chars.skipTrivia.partial_correctness w
    (fun s t => Uses s t fun m => (upTo w m s).skipTrivia = upTo w m t) (fun loop ih s t ht => ?_) s t h
  obtain ⟨⟨blanks, q⟩, hblank, ht⟩ := Option.bind_eq_some_iff.1 ht
  dsimp only at ht
  split at ht
  · rename_i hc
    obtain ⟨⟨comment, r⟩, hcomment, ht⟩ := Option.bind_eq_some_iff.1 ht
    have hlater := (uses_span hcomment).trans (ih r t ht) fun m hr ht => And.intro hr ht
    refine (uses_span hblank).trans hlater fun m hq hafter => ?_
    rw [← hafter.2, Scanner.skipTrivia]
    simp only [hq, hafter.1]
    split
    · rfl
    · rename_i hne
      exact absurd hc (by simpa [hq] using hne)
  · rename_i hne
    obtain rfl := Option.some.inj ht
    refine (uses_span hblank).imp fun m hq => ?_
    rw [Scanner.skipTrivia]
    simp only [hq]
    split
    · rename_i hc
      exact absurd (by simpa [hq] using hc) hne
    · rfl

theorem uses_lexeme {token : Token} (h : w.lexeme s = some (token, t)) :
    Uses s t fun m => (upTo w m s).lexeme = (token, upTo w m t) := by
  simp only [Scanner.lexeme, ahead_upTo]
  rw [Chars.lexeme] at h
  cases hc : s.ahead with
  | char c =>
    simp only [hc] at h
    by_cases halpha : c.isAlpha = true
    · simp only [if_pos halpha] at h ⊢
      obtain ⟨⟨word, q⟩, hword, hq⟩ := Option.bind_eq_some_iff.1 h
      obtain ⟨rfl, rfl⟩ := Prod.mk.inj (Option.some.inj hq)
      exact (uses_span hword).imp fun m hspan => by rw [hspan]
    · by_cases hnumeral : isNumeral c = true
      · simp only [if_neg halpha, if_pos hnumeral] at h ⊢
        obtain ⟨⟨run, q⟩, hrun, hq⟩ := Option.bind_eq_some_iff.1 h
        obtain ⟨rfl, rfl⟩ := Prod.mk.inj (Option.some.inj hq)
        exact (uses_span hrun).imp fun m hspan => by rw [hspan]
      · simp only [if_neg halpha, if_neg hnumeral] at h ⊢
        obtain ⟨rfl, rfl⟩ := Prod.mk.inj (Option.some.inj h)
        exact (uses_bump w s).imp fun m hbump => by rw [hbump]
  | nothing =>
    simp only [hc] at h
    obtain ⟨rfl, rfl⟩ := Prod.mk.inj (Option.some.inj h)
    exact .refl fun m => rfl
  | failed fault =>
    simp only [hc] at h
    obtain ⟨rfl, rfl⟩ := Prod.mk.inj (Option.some.inj h)
    exact .refl fun m => rfl

end

section

variable {s : Scanner σ} {t : Scan (Scanner σ)}

/-- A scan that returns depends on no answer that it has not asked for. -/
theorem uses_scan (h : w.scan s = some t) :
    Uses s t.rest fun m => (upTo w m s).scan = Scan.placed (upTo w m) t := by
  obtain ⟨q, hskip, h⟩ := Option.bind_eq_some_iff.1 h
  obtain ⟨⟨token, rest⟩, hlexeme, ht⟩ := Option.bind_eq_some_iff.1 h
  obtain rfl := Option.some.inj ht
  refine (uses_skipTrivia hskip).trans (uses_lexeme hlexeme) fun m hskip hlexeme => ?_
  rw [Scanner.scan, hskip, hlexeme]
  rfl

/-- Of scans in succession, each that returns is the same over the first answers alone. -/
theorem uses_nthScan (h : w.tokens.nthScan s k = some t) :
    Uses s t.rest fun m => TokenSource.nthScan (upTo w m s) k = Scan.placed (upTo w m) t := by
  induction k generalizing s with
  | zero => exact uses_scan h
  | succ k ih =>
    obtain ⟨first, hfirst, hlater⟩ := Option.bind_eq_some_iff.1 h
    refine (uses_scan hfirst).trans (ih hlater) fun m hscan hnth => ?_
    show TokenSource.nthScan (upTo w m s).scan.rest k = _
    rw [hscan]
    exact hnth

end

/-! ### Lexemes -/

/-- A scanner over `s`, of which a text has been cut into `ps`, has read the lexeme with the number `k`,
which is the token `t`: it has asked the source for every character up to the end of that lexeme and for
one more, and for nothing else. -/
structure Chars.HasRead (w : Chars σ) (s : σ) (ps : List Piece) (k : Nat) (t : Token) (q : Scanner σ) :
    Prop where
  token_eq : t = (lexemeAt ps k).1
  pulls_eq : q.pulls = (lexemeAt ps k).2 + 1
  source_eq : q.source = w.skip q.pulls s

variable {ps : List Piece}

/-- Every scan that returns, whether or not the source ever stops, has read the lexeme with its number.
The text may be cut off anywhere behind the answers that the scan has asked for. -/
theorem Chars.hasRead_of_nthScan {t : Scan (Scanner σ)}
    (h : w.tokens.nthScan (Scanner.ofSource s) k = some t) (hn : t.rest.pulls ≤ n)
    (hps : Cuts ps (w.text n s)) : w.HasRead s ps k t.token t.rest := by
  have hscan : TokenSource.nthScan (Scanner.ofSource (⟨n, s⟩ : FirstAnswers w)) k =
      Scan.placed (upTo w n) t := (uses_nthScan h).of_le n hn
  have hread := Scanner.hasRead_nthScan hps k
  rw [hscan] at hread
  refine ⟨hread.token_eq, hread.pulls_eq, ?_⟩
  exact (congrArg FirstAnswers.source hread.source_eq).trans (FirstAnswers.source_skip hn)

/-- Over a source that stops, whatever it would give behind that, all scans return, and each has read the
lexeme with its number, of the only ones that the text can be cut into. After any operations of a parser or
a session over the source, the token in front is one of those lexemes, and nothing has been asked for that
was not needed to read it. -/
theorem StopsAfter.reads_lexemes (h : StopsAfter w n s) :
    (w.text (n + 1) s).length = n ∧ ∃ ps, Cuts ps (w.text (n + 1) s) ∧
      (∀ qs, Cuts qs (w.text (n + 1) s) → qs = ps) ∧
      (∀ k, ∃ t, w.tokens.nthScan (Scanner.ofSource s) k = some t ∧ w.HasRead s ps k t.token t.rest) ∧
      ∀ ops, ∃ q k, (w.tokens.start (Scanner.ofSource s)).bind (w.tokens.performAll ops) = some q ∧
        w.HasRead s ps k q.current q.rest := by
  obtain ⟨ps, hps⟩ := exists_cuts (w.text (n + 1) s)
  have hreturns := (UpToStop.answersAs w).returnsAs (.running n s h) trivial
  have hscans (k : Nat) : let t := TokenSource.nthScan (Scanner.ofSource (UpToStop.running n s h)) k
      w.HasRead s ps k t.token (placed UpToStop.source t.rest) := by
    obtain ⟨qs, hqs⟩ := exists_cuts (CharSource.text (UpToStop.running n s h))
    have hpulls := (Scanner.hasRead_nthScan hqs k).pulls_le hqs
    have htext := CharSource.length_text_le (UpToStop.running n s h)
    exact Chars.hasRead_of_nthScan (hreturns.scans k) (Nat.le_trans hpulls (Nat.succ_le_succ htext)) hps
  refine ⟨h.length_text, ps, hps, fun qs hqs => hqs.unique hps, fun k => ⟨_, hreturns.scans k, hscans k⟩,
    fun ops => ?_⟩
  obtain ⟨k, hcurrent, hrest⟩ :=
    Scanner.exists_nthScan_afterAll (Scanner.ofSource (UpToStop.running n s h)) ops
  refine ⟨_, k, hreturns.operations ops, ?_⟩
  rw [front, hcurrent, hrest]
  exact hscans k

end Unbounded

end Kaleidoscope
