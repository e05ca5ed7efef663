import Mathlib.Tactic.Lemma

/-!
# Results that may be errors

When a sequence of steps, each of which may fail, succeeds or fails.

## Main definitions

* `Abacus.Result.Satisfies` — what holds of the value of a result, or of its error.

## Main results

* `Abacus.Result.bind_eq_ok_iff`, `Abacus.Result.bind_eq_error_iff` — what a sequence of two steps
  leads to.
* `Abacus.Result.map_eq_ok_iff`, `Abacus.Result.map_eq_error_iff` — what a step with a changed value
  leads to.
-/

namespace Abacus.Result

variable {ε ε' α β : Type}

/-- Two steps succeed if the first does and then the second. -/
lemma bind_eq_ok_iff {x : Except ε α} {f : α → Except ε β} {b : β} :
    x >>= f = .ok b ↔ ∃ a, x = .ok a ∧ f a = .ok b := by
  cases x <;> simp [bind, Except.bind]

/-- Two steps fail if the first does, or the second after it. -/
lemma bind_eq_error_iff {x : Except ε α} {f : α → Except ε β} {e : ε} :
    x >>= f = .error e ↔ x = .error e ∨ ∃ a, x = .ok a ∧ f a = .error e := by
  cases x <;> simp [bind, Except.bind]

/-- Only what the second step does with a value of the first one matters. -/
lemma bind_congr_of_ok {x : Except ε α} {f g : α → Except ε β} (h : ∀ a, x = .ok a → f a = g a) :
    x >>= f = x >>= g := by
  cases x with
  | error e => rfl
  | ok a => exact h a rfl

/-- A step that only returns its value succeeds with it. -/
lemma pure_eq_ok_iff {a b : α} : (pure a : Except ε α) = .ok b ↔ a = b := by
  simp [pure, Except.pure]

/-- A step that only returns a value does not fail. -/
lemma pure_ne_error {a : α} {e : ε} : (pure a : Except ε α) ≠ .error e := by
  simp [pure, Except.pure]

/-- A step that only passes a result on has that result. -/
lemma ofExcept_eq (x : Except ε α) : (MonadExcept.ofExcept x : Except ε α) = x := by
  cases x <;> rfl

/-- A changed value comes from a value. -/
lemma map_eq_ok_iff {x : Except ε α} {f : α → β} {b : β} :
    x.map f = .ok b ↔ ∃ a, x = .ok a ∧ f a = b := by
  cases x <;> simp [Except.map]

/-- A change of the value keeps the errors. -/
lemma map_eq_error_iff {x : Except ε α} {f : α → β} {e : ε} :
    x.map f = .error e ↔ x = .error e := by
  cases x <;> simp [Except.map]

/-- A change of the error keeps the values. -/
lemma mapError_eq_ok_iff {x : Except ε α} {f : ε → ε'} {a : α} :
    x.mapError f = .ok a ↔ x = .ok a := by
  cases x with
  | ok b =>
    show Except.ok b = .ok a ↔ _
    simp
  | error e =>
    show Except.error (f e) = .ok a ↔ _
    simp

/-- A changed error comes from an error. -/
lemma mapError_eq_error_iff {x : Except ε α} {f : ε → ε'} {e : ε'} :
    x.mapError f = .error e ↔ ∃ e', x = .error e' ∧ f e' = e := by
  cases x with
  | ok a =>
    show Except.ok a = .error e ↔ _
    simp
  | error e' =>
    show Except.error (f e') = .error e ↔ _
    simp

/-- A result that is no error is a value. -/
lemma exists_of_isOk {x : Except ε α} (h : x.isOk = true) : ∃ a, x = .ok a := by
  cases x with
  | ok a => exact ⟨a, rfl⟩
  | error e => cases h

/-- A result that is no value is an error. -/
lemma exists_of_isOk_eq_false {x : Except ε α} (h : x.isOk = false) : ∃ e, x = .error e := by
  cases x with
  | ok a => cases h
  | error e => exact ⟨e, rfl⟩

/-! ## What holds of a result -/

/-- What holds of a result: one property of its value, or another one of its error. -/
inductive Satisfies (p : α → Prop) (q : ε → Prop) : Except ε α → Prop where
  | ok {a : α} (h : p a) : Satisfies p q (.ok a)
  | error {e : ε} (h : q e) : Satisfies p q (.error e)

/-- What holds of two steps, if it holds of the first and then of the second. -/
lemma Satisfies.bind {p : α → Prop} {q : ε → Prop} {r : β → Prop} {x : Except ε α}
    {f : α → Except ε β} (h : Satisfies p q x) (hf : ∀ {a}, p a → Satisfies r q (f a)) :
    Satisfies r q (x >>= f) := by
  cases h with
  | ok h => exact hf h
  | error h => exact .error h

/-- What holds of a changed value, and of the error as before. -/
lemma Satisfies.map {p : α → Prop} {q : ε → Prop} {r : β → Prop} {x : Except ε α} {f : α → β}
    (h : Satisfies p q x) (hf : ∀ {a}, p a → r (f a)) : Satisfies r q (x.map f) := by
  cases h with
  | ok h => exact .ok (hf h)
  | error h => exact .error h

end Abacus.Result
