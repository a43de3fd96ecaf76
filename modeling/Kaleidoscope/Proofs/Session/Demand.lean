import Kaleidoscope.Proofs.Session.Complete
import Kaleidoscope.Proofs.Session.Interaction
import Kaleidoscope.Proofs.Session.Position
import Kaleidoscope.Proofs.Source.Demand

/-!
# What a session waits for

Nobody types a line before the session has answered to the one before, if it can answer to it. What a
session consumes depends on three things that each look ahead: the parser has a token in front, the
scanner a character behind that token, and the reader the line of that character. Nothing else is ever
asked for. So at any time a session has consumed the text up to the end of the line in which the character
behind its front lexeme stands, and a unit that is complete on its line is answered to before the next
line is there.

## Main definitions

* `Program.Awaits` — where a session over a device stands, and what it has consumed

## Main results

* `Program.exists_awaits_afterAll` — after any requests
* `Program.consumes_through_lookahead` — and in particular after a complete unit
-/

namespace Kaleidoscope

open Session

namespace Program

variable {device : List Chunk} {text : List Char} {ts ahead : List (Token × Nat)}

/-- A session over a device that delivers `text`, of whose lexemes `ts` it has `ahead` in front. It has
consumed the text up to the end of the line in which the character behind the first of these stands. If
there is no such lexeme, or no character behind it, it has consumed all of the text. -/
structure Awaits (text : List Char) (ts ahead : List (Token × Nat)) (q : Parser (Scanner LineReader)) :
    Prop where
  suffix : ahead <:+ ts
  tokens_eq : q.tokens = ahead.map Prod.fst
  consumed_eq : q.rest.source.consumed =
    (encodeUtf8 (throughLine text (ahead.headD (.endOfInput, text.length)).2)).length
  /-- What has not been consumed can still be had. -/
  offers : q.rest.source.reader.Offers
    (text.drop (throughLine text (ahead.headD (.endOfInput, text.length)).2).length)

/-- Of the lexemes of a text the tokens say which are in front. -/
theorem eq_of_suffix {later : List (Token × Nat)} (h : ahead <:+ ts) (h' : later <:+ ts)
    (heq : ahead.map Prod.fst = later.map Prod.fst) : ahead = later := by
  have hlength : ahead.length = later.length := by simpa using congrArg List.length heq
  exact (List.suffix_of_suffix_length_le h h' (Nat.le_of_eq hlength)).eq_of_length hlength

/-- After any requests a session has consumed what it takes to see the token in front. -/
theorem exists_awaits_afterAll (h : Delivers device (encodeUtf8 text)) (hts : Lexes 0 text ts)
    (ops : List Operation) : ∃ ahead, Awaits text ts ahead ((deviceSession device).afterAll ops) := by
  obtain ⟨ps, hps, rfl⟩ := hts.exists_cuts
  have htext : CharSource.text (LineReader.ofDevice device) = text := by
    rw [LineReader.ofDevice, LineReader.text_eq, Reader.lines_of_delivers h]
  have hcuts : Cuts ps (CharSource.text (LineReader.ofDevice device)) := htext.symm ▸ hps
  obtain ⟨k, htokens, hread⟩ := Scanner.exists_position_afterAll hcuts ops
  have hfront : lexemeAt ps k = ((lexemesFrom 0 ps).drop k).headD (.endOfInput, text.length) := by
    rw [lexemeAt, hps.joined_eq, List.headD_eq_head?_getD, List.head?_drop,
      List.getD_eq_getElem?_getD]
  have hle := hread.pulls_le hcuts
  rw [hread.pulls_eq, htext] at hle
  have hoffers : (Reader.ofDevice device).Offers text := ⟨encodeUtf8 text, h, rfl⟩
  have hgives := hoffers.skip (Nat.le_of_succ_le_succ hle)
  have hsource := hread.source_eq
  rw [hread.pulls_eq] at hsource
  rw [hfront] at hgives hsource
  refine ⟨(lexemesFrom 0 ps).drop k, List.drop_suffix k _, ?_, ?_, ?_⟩
  · rw [List.map_drop, map_fst_lexemesFrom]
    exact htokens
  · rw [deviceSession, hsource]
    exact hgives.consumed_eq.trans (Nat.zero_add _)
  · rw [deviceSession, hsource]
    exact hgives.offers

/-- A session over a device that delivers a text, in whatever pieces, has consumed the text up to the end
of the line in which the character behind its front lexeme stands, whatever has been asked of it. In
particular, when the tokens in front are those of an item and the token behind them goes on with none, the
next step hands out the item, and if that token stands on a line with an end, no byte behind that end is
consumed. -/
theorem consumes_through_lookahead (h : Delivers device (encodeUtf8 text)) (hts : Lexes 0 text ts)
    (ops : List Operation) :
    ∃ ahead, Awaits text ts ahead ((deviceSession device).afterAll ops) ∧
      ∀ unit t m later i, ahead = unit ++ (t, m) :: later →
        Grammar.TopLevel (unit.map Prod.fst) i →
        ¬ Viable Grammar.TopLevel (unit.map Prod.fst ++ [t]) →
          ((deviceSession device).afterAll ops).step.1 = .parsed i ∧
          Awaits text ts ((t, m) :: later) ((deviceSession device).afterAll ops).step.2 ∧
          ∀ before line after, text = before ++ line ++ '\n' :: after → '\n' ∉ line →
            before.length ≤ m → m ≤ (before ++ line).length →
              ((deviceSession device).afterAll ops).step.2.rest.source.consumed =
                (encodeUtf8 (before ++ line ++ ['\n'])).length := by
  obtain ⟨ahead, hawaits⟩ := exists_awaits_afterAll h hts ops
  refine ⟨ahead, hawaits, ?_⟩
  rintro unit t m later i rfl hunit hend
  have hcomplete : Complete (unit.map Prod.fst) i t := complete_iff.2 ⟨hunit, hend⟩
  have htakes : Takes ((unit ++ (t, m) :: later).map Prod.fst) (.parsed i)
      (((t, m) :: later).map Prod.fst) := by
    rw [List.map_append]
    exact Complete.takes (v := t :: later.map Prod.fst) hcomplete
  obtain ⟨hstep, hrest⟩ := Parser.step_of_takes htakes hawaits.tokens_eq
  -- The state after the step is one after more requests, so it stands somewhere; its tokens say where.
  obtain ⟨ahead', hafter⟩ := exists_awaits_afterAll h hts (ops ++ [.step])
  have hstate : (deviceSession device).afterAll (ops ++ [.step]) =
      ((deviceSession device).afterAll ops).step.2 := List.foldl_append ..
  rw [hstate] at hafter
  obtain rfl : ahead' = (t, m) :: later :=
    eq_of_suffix hafter.suffix ((List.suffix_append _ _).trans hawaits.suffix)
      (hafter.tokens_eq.symm.trans hrest)
  refine ⟨hstep, hafter, ?_⟩
  rintro before line after rfl hline hbefore hm
  have hconsumed := hafter.consumed_eq
  rwa [List.headD_cons, throughLine_of_line hline hbefore hm] at hconsumed

/-- A call over two lines, delivered in pieces, with a semicolon behind it. It is handed out when eight
bytes have been consumed, the last of which ends the line of the semicolon. -/
theorem consumes_through_lookahead_of_call :
    let q := deviceSession
      [.bytes [0x66, 0x28], .bytes [0x31, 0x0A, 0x29, 0x3B, 0x32], .interrupted, .bytes [0x0A, 0x33]]
    q.step.1 = .parsed (.expression (.ofExpr (.call "f" [.number (Decimal.ofNumeral ['1']).nearest]))) ∧
      q.step.2.rest.source.consumed = 8 := by
  intro q
  have hdelivers : Delivers [.bytes [0x66, 0x28], .bytes [0x31, 0x0A, 0x29, 0x3B, 0x32], .interrupted,
      .bytes [0x0A, 0x33]] (encodeUtf8 "f(1\n);2\n3".toList) :=
    .bytes _ _ (.bytes _ _ (.interrupted (.bytes _ _ .nil)))
  have hcuts : Cuts [.word 'f' [], .solitary '(', .numeral '1' [], .blank '\n', .solitary ')',
      .solitary ';', .numeral '2' [], .blank '\n', .numeral '3' []] "f(1\n);2\n3".toList :=
    ⟨by decide, by decide⟩
  have hcall : Grammar.Comparison [.identifier "f", .char '(', .ofNumeral ['1'], .char ')']
      (.call "f" [.number (Decimal.ofNumeral ['1']).nearest]) :=
    .sum (.product (.primary (.call "f" (.some (.one (.sum (.product (.primary (.number _)))))))))
  have hcomplete : Complete _ _ (.char ';') := complete_of_endsBefore (.expression hcall)
    (.of_not_starts nofun (by simp [Language.IsOperator]))
  obtain ⟨ahead, hawaits, hunit⟩ :=
    consumes_through_lookahead hdelivers (lexes_iff_cuts.2 ⟨_, hcuts, rfl⟩) []
  have htokens : q.tokens = tokensOf _ := (tokens_deviceSession _).trans
    ((congrArg textTokens (Reader.lines_of_delivers hdelivers)).trans (textTokens_of_cuts hcuts))
  have hahead := eq_of_suffix hawaits.suffix List.suffix_rfl
    (hawaits.tokens_eq.symm.trans (htokens.trans (map_fst_lexemesFrom 0 _).symm))
  obtain ⟨hstep, -, hconsumed⟩ := hunit
    [(.ofWord "f", 1), (.char '(', 2), (.ofNumeral ['1'], 3), (.char ')', 5)] (.char ';') 6
    [(.ofNumeral ['2'], 7), (.ofNumeral ['3'], 9)] _ hahead hcomplete.topLevel hcomplete.not_viable
  exact ⟨hstep, hconsumed "f(1\n".toList ");2".toList ['3'] rfl (by decide) (by decide) (by decide)⟩

end Program

end Kaleidoscope
