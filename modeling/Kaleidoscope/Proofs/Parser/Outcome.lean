import Kaleidoscope.Parser.State

/-!
# Laws of sequencing

`Outcome` is a monad in all but name: `ok` answers at once, `andThen` goes on after a success. It is
not one in name because an outcome carries where it started and the proof that it got somewhere, so
the laws hold between outcomes that start at the same parser, with `after` to move the start.

What an outcome says is its result and its parser; the proof it carries is determined by them. So two
outcomes are equal when those two are, and every law here is a case distinction on the first result.

## Main results

* `Outcome.ext_parts` — result and parser are all that counts
* `Outcome.andThen_congr`, `Outcome.map_congr` — rewriting what comes after a success, given what the
  success was
* `Outcome.andThen_assoc`, `ok_andThen`, `map_andThen`, `andThen_map`, `after_andThen`
-/

namespace Kaleidoscope

namespace Outcome

variable {τ : Type} [TokenSource τ] {p q : Parser τ} {α β γ : Type}

theorem ext_parts {o o' : Outcome p α} (hr : o.result = o'.result) (hp : o.parser = o'.parser) :
    o = o' := by
  obtain ⟨⟨result, parser⟩, reaches⟩ := o
  obtain ⟨⟨result', parser'⟩, reaches'⟩ := o'
  cases hr
  cases hp
  rfl

@[simp] theorem after_refl (o : Outcome p α) : o.after (.refl p) = o := ext_parts rfl rfl

theorem andThen_congr {o : Outcome p α} {f g : α → (q : Parser τ) → p.Reaches q → Outcome q β}
    (h : ∀ a, o.result = .ok a → f a o.parser o.reaches = g a o.parser o.reaches) :
    o.andThen f = o.andThen g := by
  cases hr : o.result with
  | ok a => rw [andThen_of_ok hr, andThen_of_ok hr, h a hr]
  | error e => rw [andThen_of_error hr, andThen_of_error hr]

theorem map_congr {o : Outcome p α} {f g : α → β} (h : ∀ a, o.result = .ok a → f a = g a) :
    o.map f = o.map g := by
  refine ext_parts ?_ rfl
  rw [result_map, result_map]
  cases hr : o.result with
  | ok a => exact congrArg Except.ok (h a hr)
  | error e => rfl

theorem map_map (o : Outcome p α) (f : α → β) (g : β → γ) : (o.map f).map g = o.map (g ∘ f) := by
  refine ext_parts ?_ rfl
  rw [result_map, result_map, result_map]
  cases o.result <;> rfl

theorem map_after {o : Outcome q α} (h : p.Reaches q) (f : α → β) :
    (o.after h).map f = (o.map f).after h := rfl

theorem ok_andThen (a : α) (f : α → (q : Parser τ) → p.Reaches q → Outcome q β) :
    (ok a p (.refl p)).andThen f = f a p (.refl p) := after_refl _

theorem map_andThen (o : Outcome p α) (f : α → β)
    (g : β → (q : Parser τ) → p.Reaches q → Outcome q γ) :
    (o.map f).andThen g = o.andThen fun a q h => g (f a) q h := by
  cases hr : o.result with
  | ok a =>
    have hf : (o.map f).result = .ok (f a) := by rw [result_map, hr]; rfl
    rw [andThen_of_ok hr, andThen_of_ok hf]
    rfl
  | error e =>
    have hf : (o.map f).result = .error e := by rw [result_map, hr]; rfl
    rw [andThen_of_error hr, andThen_of_error hf]
    rfl

theorem andThen_map (o : Outcome p α) (f : α → (q : Parser τ) → p.Reaches q → Outcome q β)
    (g : β → γ) : (o.andThen f).map g = o.andThen fun a q h => (f a q h).map g := by
  cases hr : o.result with
  | ok a => rw [andThen_of_ok hr, andThen_of_ok hr, map_after]
  | error e =>
    rw [andThen_of_error hr, andThen_of_error hr]
    rfl

theorem after_andThen (o : Outcome q α) (h : p.Reaches q)
    (f : α → (r : Parser τ) → p.Reaches r → Outcome r β) :
    (o.after h).andThen f = (o.andThen fun a r k => f a r (h.trans k)).after h := by
  cases hr : o.result with
  | ok a =>
    have hafter : (o.after h).result = .ok a := hr
    rw [andThen_of_ok hr, andThen_of_ok hafter]
    rfl
  | error e =>
    have hafter : (o.after h).result = .error e := hr
    rw [andThen_of_error hr, andThen_of_error hafter]
    rfl

theorem andThen_assoc (o : Outcome p α) (f : α → (q : Parser τ) → p.Reaches q → Outcome q β)
    (g : β → (q : Parser τ) → p.Reaches q → Outcome q γ) :
    (o.andThen f).andThen g
      = o.andThen fun a q h => (f a q h).andThen fun b r k => g b r (h.trans k) := by
  cases hr : o.result with
  | ok a => rw [andThen_of_ok hr, andThen_of_ok hr, after_andThen]
  | error e =>
    rw [andThen_of_error hr, andThen_of_error hr, andThen_of_error rfl]

end Outcome

end Kaleidoscope
