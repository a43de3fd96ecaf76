import Kaleidoscope.Source

/-!
# Texts as sources

A text that is at hand gives its characters and then nothing. A script is a little more: it can say
that it has nothing and go on afterwards, as a source may.
-/

namespace Kaleidoscope

/-- The answers of a source, in order; after them it has nothing. `none` is an answer without a
character. -/
structure Script where
  answers : List (Option Char)

namespace Script

/-- The characters of a text. -/
def ofList (cs : List Char) : Script := ⟨cs.map some⟩

/-- The characters of a text. -/
def ofString (s : String) : Script := ofList s.toList

/-- The next answer. -/
def next (s : Script) : Answer × Script :=
  match s.answers with
  | [] => (.nothing, s)
  | none :: rest => (.nothing, ⟨rest⟩)
  | some c :: rest => (.char c, ⟨rest⟩)

theorem size_next (s : Script) : s.next.1.weight + s.next.2.answers.length ≤ s.answers.length := by
  obtain ⟨answers⟩ := s
  match answers with
  | [] => simp [next, Answer.weight]
  | none :: rest => simp [next, Answer.weight]
  | some c :: rest => simp [next, Answer.weight]; omega

instance : CharSource Script where
  next := next
  size s := s.answers.length
  size_next := size_next

@[simp] theorem next_ofList_nil : CharSource.next (ofList []) = (.nothing, ofList []) := rfl

@[simp] theorem next_ofList_cons (c : Char) (cs : List Char) :
    CharSource.next (ofList (c :: cs)) = (.char c, ofList cs) := rfl

end Script

end Kaleidoscope
