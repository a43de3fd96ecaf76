import Kaleidoscope.Proofs.Session.Agreement

/-!
# Line ends and comments

A line end is the one place where a text can be taken apart without looking at it. Whatever the first
part ends in, a word, a numeral or a comment that was never closed, ends there at the latest, so the
tokens of the whole are the tokens of the parts. A comment in front of the line end changes nothing: it
ends what was being read just as the line end would, and if that was a comment, it becomes part of it.

What a session does depends on the tokens alone, so a comment may be put in or taken out, together with
its line end, wherever the text falls into tokens without it.

## Main results

* `Program.textTokens_append_remark` — a line end, and a remark in front of it, between two texts
* `Program.line_ends_separate` — what that means for tokens and for runs
-/

namespace Kaleidoscope

theorem isRemark_comment {C : List Char} (hC : '\n' ∉ C ∧ '\r' ∉ C) : IsRemark ('#' :: C) := by
  refine ⟨fun d hd => (Option.some.inj hd).symm, List.forall_mem_cons.2 ⟨rfl, fun d hd => ?_⟩⟩
  rw [Bool.eq_false_iff]
  intro hend
  rcases lineEnd_cases hend with rfl | rfl
  · exact hC.1 hd
  · exact hC.2 hd

namespace Program

/-- A remark and a line end separate the tokens of two texts and add none. -/
theorem textTokens_append_remark {gap : List Char} {e : Char} (A B : List Char) (hgap : IsRemark gap)
    (he : isLineEnd e = true) :
    textTokens (A ++ (gap ++ e :: B)) = textTokens A ++ textTokens B := by
  obtain ⟨ts, ha⟩ := exists_lexes 0 A
  obtain ⟨us, hb⟩ := exists_lexes (0 + A.length + gap.length + 1) B
  rw [textTokens_of_lexes (ha.append_remark hgap he rfl hb), List.map_append, textTokens_of_lexes ha,
    textTokens_of_lexes hb]

/-- The tokens of two texts with a line end between them are those of the one and those of the other,
with a comment in front of the line end or without. Texts with the same tokens are run alike. So a
comment may stand, with its line end, wherever the tokens of a text fall apart. -/
theorem line_ends_separate (A B C : List Char) (e : Char) (he : e = '\n' ∨ e = '\r')
    (hC : '\n' ∉ C ∧ '\r' ∉ C) :
    textTokens (A ++ e :: B) = textTokens A ++ textTokens B ∧
      textTokens (A ++ '#' :: (C ++ e :: B)) = textTokens A ++ textTokens B ∧
      (∀ S T, textTokens S = textTokens T → (textSession S).run.Agrees (textSession T).run) ∧
      (textTokens (A ++ B) = textTokens A ++ textTokens B →
        (textSession (A ++ '#' :: (C ++ e :: B))).run.Agrees (textSession (A ++ B)).run) := by
  have hend : isLineEnd e = true := by rcases he with rfl | rfl <;> rfl
  have hcomment := textTokens_append_remark A B (isRemark_comment hC) hend
  refine ⟨textTokens_append_remark A B isRemark_nil hend, hcomment,
    fun S T h => textSession_run_agrees h, fun h => textSession_run_agrees ?_⟩
  exact hcomment.trans h.symm

/-- A comment that holds a line separator, which does not end it, between `x` and `1`, which stand apart
without it, and one that is no comment of its own, as the line has begun one before. -/
theorem line_ends_separate_around_comments :
    (textTokens "x1\r.5".toList = [.identifier "x1", .ofNumeral ".5".toList] ∧
      (textSession "x #\u2028 y\n1".toList).run.Agrees (textSession "x 1".toList).run) ∧
      textTokens "x # y # z\r1".toList = [.identifier "x", .ofNumeral ['1']] := by
  have hx1 : Cuts [.word 'x' ['1']] "x1".toList := ⟨by decide, by decide⟩
  have hpoint : Cuts [.numeral '.' ['5']] ".5".toList := ⟨by decide, by decide⟩
  have hx : Cuts [.word 'x' [], .blank ' '] "x ".toList := ⟨by decide, by decide⟩
  have hone : Cuts [.numeral '1' []] "1".toList := ⟨by decide, by decide⟩
  have hboth : Cuts [.word 'x' [], .blank ' ', .numeral '1' []] "x 1".toList :=
    ⟨by decide, by decide⟩
  have hopen : Cuts [.word 'x' [], .blank ' ', .comment " y ".toList] "x # y ".toList :=
    ⟨by decide, by decide⟩
  refine ⟨⟨?_, ?_⟩, ?_⟩
  · have h := (line_ends_separate "x1".toList ".5".toList [] '\r' (by decide) (by decide)).1
    rw [textTokens_of_cuts hx1, textTokens_of_cuts hpoint] at h
    exact h
  · refine (line_ends_separate "x ".toList "1".toList "\u2028 y".toList '\n' (by decide)
      (by decide)).2.2.2 ?_
    rw [textTokens_of_cuts hx, textTokens_of_cuts hone]
    exact textTokens_of_cuts hboth
  · have h := (line_ends_separate "x # y ".toList "1".toList " z".toList '\r' (by decide)
      (by decide)).2.1
    rw [textTokens_of_cuts hopen, textTokens_of_cuts hone] at h
    exact h

end Program

end Kaleidoscope
