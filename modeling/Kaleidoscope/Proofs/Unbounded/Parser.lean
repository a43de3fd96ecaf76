import Kaleidoscope.Proofs.Parser.Advancing
import Kaleidoscope.Proofs.Unbounded.Scanner

/-!
# Parsing comes to an end

Over tokens that a source with a size answers for, every production returns, with the reply that it has
over that source. The proof goes along the text of the productions, like the proof that they come to an
end over a source with a size, and for the same reason.

## Main definitions

* `front` — the front of the input at a parser
* `Returns` — an action that returns, with a given reply

## Main results

* `ScansAs.returns_primary`, `returns_expression`, `returns_operators`, … — productions return
-/

namespace Kaleidoscope

namespace Unbounded

open Kaleidoscope.Parser (size_advance_lt size_primary_advance_lt operators_of_operator
  operators_of_stopsAt)

variable {τ υ : Type} [TokenSource τ] {w : Tokens υ} {place : τ → υ} {ready : τ → Prop} {p : Parser τ}

/-- The front of the input at a parser, over the source that is answered for. -/
def front (place : τ → υ) (p : Parser τ) : Front υ := ⟨p.current, place p.rest, p.journal⟩

/-- At the front of `p` an action returns, with the result of a reply and the front of its parser. -/
structure Returns (place : τ → υ) (ready : τ → Prop) {α : Type} (a : Action υ α) (p : Parser τ)
    (r : Reply τ α) : Prop where
  eq : a (front place p) = some (r.result, front place r.parser)
  ready : ready r.parser.rest

/-! ### Actions in sequence -/

section

variable {α β : Type} {a : Action υ α}

theorem Action.bind_of_ok {q q' : Front υ} {x : α} (h : a q = some (.ok x, q')) (f : α → Action υ β) :
    (a >>= f) q = f x q' := by
  show (a q).bind _ = _
  rw [h]
  rfl

theorem Action.bind_of_error {q q' : Front υ} {e : ParseError} (h : a q = some (.error e, q'))
    (f : α → Action υ β) : (a >>= f) q = some (.error e, q') := by
  show (a q).bind _ = _
  rw [h]
  rfl

namespace Returns

theorem ok (hp : ready p.rest) {q : Parser τ} (h : q.Reaches p) (x : α) :
    Returns place ready (pure x) p (Outcome.ok x p h).toReply := ⟨rfl, hp⟩

theorem fail (hp : ready p.rest) {q : Parser τ} (h : q.Reaches p) (expected : Expectation) :
    Returns place ready (Unbounded.fail expected) p (Outcome.fail expected p h : Outcome q α).toReply :=
  ⟨rfl, hp⟩

/-- The token in front decides how to go on. -/
theorem current {r : Reply τ β} {f : Token → Action υ β} {t : Token} (ht : p.current = t)
    (h : Returns place ready (f t) p r) : Returns place ready (Unbounded.current >>= f) p r := by
  subst ht
  exact ⟨h.eq, h.ready⟩

/-- If an action succeeds, another one goes on. -/
theorem bind {o : Outcome p α} {f : α → Action υ β}
    {g : α → (q : Parser τ) → p.Reaches q → Outcome q β} (h : Returns place ready a p o.toReply)
    (hf : ∀ x, Returns place ready (f x) o.parser (g x o.parser o.reaches).toReply) :
    Returns place ready (a >>= f) p (o.andThen g).toReply := by
  obtain ⟨⟨result, q⟩, hreaches⟩ := o
  cases result with
  | ok x => exact ⟨(Action.bind_of_ok h.eq f).trans (hf x).eq, (hf x).ready⟩
  | error e => exact ⟨Action.bind_of_error h.eq f, h.ready⟩

/-- A tree is made of the tree that an action gives. -/
theorem map {o : Outcome p α} (h : Returns place ready a p o.toReply) (f : α → β) :
    Returns place ready (a >>= fun x => pure (f x)) p (o.map f).toReply := by
  obtain ⟨⟨result, q⟩, hreaches⟩ := o
  cases result with
  | ok x => exact ⟨Action.bind_of_ok h.eq _, h.ready⟩
  | error e => exact ⟨Action.bind_of_error h.eq _, h.ready⟩

/-- A success is noted down. -/
theorem note {r : Reply τ α} (h : Returns place ready a p r) (f : α → Record) :
    Returns place ready (a >>= fun x => Unbounded.note (f x) >>= fun _ => pure x) p (r.note f) := by
  obtain ⟨result, q⟩ := r
  cases result with
  | ok x => exact ⟨Action.bind_of_ok h.eq _, h.ready⟩
  | error e => exact ⟨Action.bind_of_error h.eq _, h.ready⟩

end Returns

end

namespace ScansAs

theorem read_eq (h : ScansAs w place ready) (journal : List Record) {rest : τ} (hr : ready rest) :
    w.read journal (place rest) = some (front place (Parser.read journal rest)) := by
  rw [Tokens.read, h.scan_eq rest hr]
  rfl

theorem ready_advance (h : ScansAs w place ready) (hp : ready p.rest) : ready p.advance.rest :=
  h.ready_scan p.rest hp

theorem advance_eq (h : ScansAs w place ready) (hp : ready p.rest) :
    w.advance (front place p) = some (.ok (), front place p.advance) := by
  rw [Tokens.advance]
  show (w.read p.journal (place p.rest)).bind _ = _
  rw [h.read_eq p.journal hp]
  rfl

/-- The next token is read first. -/
theorem returns_advance (h : ScansAs w place ready) (hp : ready p.rest) {β : Type}
    {f : Unit → Action υ β} {r : Reply τ β} (hf : Returns place ready (f ()) p.advance r) :
    Returns place ready (w.advance >>= f) p r :=
  ⟨(Action.bind_of_ok (h.advance_eq hp) f).trans hf.eq, hf.ready⟩

theorem returns_expect (h : ScansAs w place ready) (hp : ready p.rest) (c : Char)
    (expected : Expectation) :
    Returns place ready (w.expect c expected) p (p.expect c expected).toReply := by
  rw [Tokens.expect, Parser.expect]
  refine .current rfl ?_
  by_cases hc : p.current = .char c
  · rw [if_pos hc, dif_pos hc]
    exact ⟨h.advance_eq hp, h.ready_advance hp⟩
  · rw [if_neg hc, dif_neg hc]
    exact .fail hp _ expected

/-! ### Expressions -/

mutual

theorem returns_primary (h : ScansAs w place ready) (p : Parser τ) (hp : ready p.rest) :
    Returns place ready w.primary p (Parser.primary p).toReply := by
  have hadvance := h.ready_advance hp
  rw [Tokens.primary]
  generalize ho : Parser.primary p = o
  rw [Parser.primary] at ho
  split at ho
  · rename_i value hc
    subst ho
    exact .current hc (h.returns_advance hp (.ok hadvance _ _))
  · rename_i name hc
    refine .current hc (h.returns_advance hp (.current rfl ?_))
    split at ho
    · rename_i hopen
      subst ho
      have hsecond := h.ready_advance hadvance
      rw [if_pos hopen]
      exact h.returns_advance hadvance ((h.returns_arguments p.advance.advance hsecond).map _)
    · rename_i hopen
      subst ho
      rw [if_neg hopen]
      exact .ok hadvance _ _
  · rename_i hc
    subst ho
    refine .current hc (h.returns_advance hp ?_)
    have hexpression := h.returns_expression p.advance hadvance
    exact .bind hexpression fun e => (h.returns_expect hexpression.ready _ _).map _
  · rename_i hnumber hname hopen
    subst ho
    refine .current rfl ?_
    split
    · exact absurd ‹_› (hnumber _)
    · exact absurd ‹_› (hname _)
    · exact absurd ‹_› hopen
    · exact .fail hp _ _
termination_by (p.size, 0)
decreasing_by
  · rename_i hc hopen
    exact .left _ _ (Nat.lt_trans (size_advance_lt (by simp [hopen])) (size_advance_lt (by simp [hc])))
  · rename_i hc
    exact .left _ _ (size_advance_lt (by simp [hc]))

theorem returns_arguments (h : ScansAs w place ready) (p : Parser τ) (hp : ready p.rest) :
    Returns place ready w.arguments p (Parser.arguments p).toReply := by
  rw [Tokens.arguments, Parser.arguments]
  refine .current rfl ?_
  split
  · exact h.returns_advance hp (.ok (h.ready_advance hp) _ _)
  · exact h.returns_someArguments p hp
termination_by (p.size, 3)

theorem returns_someArguments (h : ScansAs w place ready) (p : Parser τ) (hp : ready p.rest) :
    Returns place ready w.someArguments p (Parser.someArguments p).toReply := by
  rw [Tokens.someArguments, Parser.someArguments]
  have hexpression := h.returns_expression p hp
  have hq := hexpression.ready
  refine .bind hexpression fun e => ?_
  split
  · rename_i hclose
    exact .current hclose (h.returns_advance hq (.ok (h.ready_advance hq) _ _))
  · rename_i hcomma
    have hmore := h.returns_someArguments (Parser.expression p).parser.advance (h.ready_advance hq)
    exact .current hcomma (h.returns_advance hq (hmore.map _))
  · rename_i hclose hcomma
    refine .current rfl ?_
    split
    · exact absurd ‹_› hclose
    · exact absurd ‹_› hcomma
    · exact .fail hq _ _
termination_by (p.size, 2)
decreasing_by
  · exact .right _ (by decide)
  · rename_i hcomma
    exact .left _ _ (Parser.Reaches.lt_of_lt (Parser.expression p).reaches
      (size_advance_lt (by simp [hcomma])))

theorem returns_expression (h : ScansAs w place ready) (p : Parser τ) (hp : ready p.rest) :
    Returns place ready w.expression p (Parser.expression p).toReply := by
  rw [Tokens.expression, Parser.expression]
  have hprimary := h.returns_primary p hp
  exact .bind hprimary fun left => h.returns_operators 0 left (Parser.primary p).parser hprimary.ready
termination_by (p.size, 1)
decreasing_by
  · exact .right _ (by decide)
  · rcases (Parser.primary p).reaches with hstays | hsmaller
    · rw [hstays]
      exact .right _ (by decide)
    · exact .left _ _ hsmaller

theorem returns_operators (h : ScansAs w place ready) (least : Int) (left : Expr) (p : Parser τ)
    (hp : ready p.rest) :
    Returns place ready (w.operators least left) p (Parser.operators least left p).toReply := by
  rw [Tokens.operators]
  refine .current rfl ?_
  rcases Parser.operator_or_stopsAt least p.current with ⟨op, precedence, ho, hle⟩ | hstop
  · rw [operators_of_operator left ho hle, ho]
    simp only [if_pos hle]
    have hprimary := h.returns_primary p.advance (h.ready_advance hp)
    have hq := hprimary.ready
    refine h.returns_advance hp (.bind hprimary fun right => .current rfl ?_)
    have hloose (hb : (Parser.primary p.advance).parser.bindsTighter precedence = false) :
        Returns place ready (w.operators least (.binary op left right)) (Parser.primary p.advance).parser
          ((Parser.operators (precedence + 1 : Nat) right (Parser.primary p.advance).parser).andThen
            fun right r _ => Parser.operators least (.binary op left right) r).toReply := by
      rw [operators_of_stopsAt right (Parser.stopsAt_of_not_bindsTighter hb), Outcome.ok_andThen]
      exact h.returns_operators least (.binary op left right) (Parser.primary p.advance).parser hq
    split
    · rename_i next hnext
      split
      · have hinner := h.returns_operators (precedence + 1 : Nat) right (Parser.primary p.advance).parser hq
        exact .bind hinner fun right' => h.returns_operators least (.binary op left right') _ hinner.ready
      · rename_i hle'
        exact hloose (by rw [Parser.bindsTighter, hnext]; exact decide_eq_false hle')
    · rename_i hnone
      exact hloose (by rw [Parser.bindsTighter, hnone])
  · rw [operators_of_stopsAt left hstop]
    split
    · rename_i op precedence ho
      rw [if_neg (Int.not_le.2 (hstop op precedence ho))]
      exact .ok hp _ left
    · exact .ok hp _ left
termination_by (p.size, 0)
decreasing_by
  · exact .left _ _ (size_advance_lt (Token.ne_endOfInput_of_operator? ho))
  · exact .left _ _ (size_primary_advance_lt ho)
  · exact .left _ _ (size_primary_advance_lt ho)
  · exact .left _ _ (Nat.lt_of_le_of_lt (Parser.Reaches.size_le (Parser.operators _ _ _).reaches)
      (size_primary_advance_lt ho))

end

/-! ### What stands at the top level -/

theorem returns_names (h : ScansAs w place ready) (p : Parser τ) (hp : ready p.rest) :
    Returns place ready w.names p (Parser.names p).toReply := by
  fun_induction Parser.names p with
  | case1 p name hc ih =>
    rw [Tokens.names]
    exact .current hc (h.returns_advance hp ((ih (h.ready_advance hp)).map _))
  | case2 p hc =>
    rw [Tokens.names]
    refine .current rfl ?_
    split
    · exact absurd ‹_› (hc _)
    · exact .ok hp _ []

theorem returns_prototype (h : ScansAs w place ready) (p : Parser τ) (hp : ready p.rest) :
    Returns place ready w.prototype p (Parser.prototype p).toReply := by
  have hadvance := h.ready_advance hp
  rw [Tokens.prototype, Parser.prototype]
  split
  · rename_i name hc
    refine .current hc (h.returns_advance hp ?_)
    have hopen := h.returns_expect hadvance '(' .parametersOpen
    refine .bind hopen fun _ => ?_
    have hnames := h.returns_names _ hopen.ready
    exact .bind hnames fun _ => (h.returns_expect hnames.ready ')' .parametersClose).map _
  · rename_i hc
    refine .current rfl ?_
    split
    · exact absurd ‹_› (hc _)
    · exact .fail hp _ _

theorem returns_external (h : ScansAs w place ready) (p : Parser τ) (hp : ready p.rest) :
    Returns place ready w.external p p.external :=
  h.returns_advance hp (h.returns_prototype p.advance (h.ready_advance hp))

theorem returns_definition (h : ScansAs w place ready) (p : Parser τ) (hp : ready p.rest) :
    Returns place ready w.definition p p.definition := by
  have hprototype := h.returns_prototype p.advance (h.ready_advance hp)
  have hunit : w.definition = w.advance >>= fun _ =>
      (w.prototype >>= fun head => w.expression >>= fun body => pure (Function.mk head body)) >>=
        fun f => Unbounded.note (.parsedDefinition f.prototype.name) >>= fun _ => pure f := by
    simp only [Tokens.definition, bind_assoc, pure_bind]
  rw [hunit]
  exact h.returns_advance hp (.note (.bind hprototype fun _ =>
    (h.returns_expression _ hprototype.ready).map _)
    fun f : Function => .parsedDefinition f.prototype.name)

theorem returns_bareExpression (h : ScansAs w place ready) (p : Parser τ) (hp : ready p.rest) :
    Returns place ready w.bareExpression p p.bareExpression := by
  have hunit : w.bareExpression = (w.expression >>= fun body => pure (Function.ofExpr body)) >>=
      fun f => Unbounded.note (.parsedExpression f.body) >>= fun _ => pure f := by
    simp only [Tokens.bareExpression, bind_assoc, pure_bind, Function.ofExpr]
  rw [hunit]
  exact .note ((h.returns_expression p hp).map _) fun f : Function => .parsedExpression f.body

end ScansAs

end Unbounded

end Kaleidoscope
