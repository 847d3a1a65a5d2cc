import Mathlib.Tactic.Use

/-!
# Results that may be errors

When a computation in steps gives a value, each of its steps does; when it fails, it fails as one
of its steps.
-/

namespace Except

variable {ε α β : Type}

/-- Two steps give a value exactly when the first gives one from which the second gives it. -/
theorem bind_eq_ok_iff
    {x : Except ε α} {f : α → Except ε β} {b : β} :
  x >>= f = .ok b ↔ ∃ a, x = .ok a ∧ f a = .ok b
  := by
  cases x with
  | error e =>
    constructor
    · rintro ⟨⟩
    · rintro ⟨a, ⟨⟩, -⟩
  | ok a =>
    constructor
    · intro h
      use a, rfl, h
    · rintro ⟨a', ⟨⟩, h⟩
      apply h

/-- Two steps fail exactly when the first fails, or gives one for which the second fails. -/
theorem bind_eq_error_iff
    {x : Except ε α} {f : α → Except ε β} {e : ε} :
  x >>= f = .error e ↔ x = .error e ∨ ∃ a, x = .ok a ∧ f a = .error e
  := by
  cases x with
  | error e' =>
    constructor
    · rintro ⟨⟩
      exact .inl rfl
    · rintro (h | ⟨a, h, -⟩)
      · cases h
        rfl
      · cases h
  | ok a =>
    constructor
    · intro h
      exact .inr ⟨a, rfl, h⟩
    · rintro (h | ⟨a', ha, h⟩)
      · cases h
      · cases ha
        apply h

/-- A changed result is a value exactly when the result is one. -/
theorem map_eq_ok_iff
    {x : Except ε α} {f : α → β} {b : β} :
  x.map f = .ok b ↔ ∃ a, x = .ok a ∧ f a = b
  := by
  cases x with
  | error e =>
    constructor
    · rintro ⟨⟩
    · rintro ⟨a, ⟨⟩, -⟩
  | ok a =>
    constructor
    · rintro ⟨⟩
      use a, rfl
    · rintro ⟨a', ⟨⟩, rfl⟩
      rfl

/-- A changed result is an error exactly when the result is that error. -/
theorem map_eq_error_iff
    {x : Except ε α} {f : α → β} {e : ε} :
  x.map f = .error e ↔ x = .error e
  := by
  cases x with
  | error e' =>
    constructor
    · rintro ⟨⟩
      rfl
    · rintro ⟨⟩
      rfl
  | ok a =>
    constructor
    · rintro ⟨⟩
    · rintro ⟨⟩

/-- A result whose error is changed is a value exactly when the result is. -/
theorem mapError_eq_ok_iff
    {ε' : Type} {x : Except ε α} {f : ε → ε'} {a : α} :
  x.mapError f = .ok a ↔ x = .ok a
  := by
  cases x with
  | error e =>
    constructor
    · rintro ⟨⟩
    · rintro ⟨⟩
  | ok a' =>
    constructor
    · rintro ⟨⟩
      rfl
    · rintro ⟨⟩
      rfl

/-- What is known of the value of a result is known of a value that the result is. -/
theorem exists_of_toOption_map
    {x : Except ε α} {f : α → β} {b : β} (h : x.toOption.map f = some b) :
  ∃ a, x = .ok a ∧ f a = b
  := by
  cases x with
  | error e => cases h
  | ok a => use a, rfl, Option.some.inj h

/-- Whether a result can be an error only of a kind. -/
def FailsWith (P : ε → Prop) (x : Except ε α) : Prop :=
  ∀ e, x = .error e → P e

namespace FailsWith

variable {P Q : ε → Prop} {x y : Except ε α} {f : α → Except ε β}

theorem pure
    (a : α) :
  FailsWith P (.ok a)
  := by
  rintro _ ⟨⟩

theorem throw {e : ε} (h : P e) :
  FailsWith P (.error e : Except ε α)
  := by
  rintro _ ⟨⟩
  apply h

theorem bind (hx : x.FailsWith P) (hf : ∀ a, (f a).FailsWith P) :
  (x >>= f).FailsWith P
  := by
  cases x with
  | error e =>
    rintro _ ⟨⟩
    apply hx e rfl
  | ok a => apply hf

theorem ite {c : Prop} [Decidable c] (hx : x.FailsWith P) (hy : y.FailsWith P) :
  (if c then x else y).FailsWith P
  := by
  split
  · apply hx
  · apply hy

theorem mono (hx : x.FailsWith P) (h : ∀ e, P e → Q e) :
  x.FailsWith Q
  := fun e he => h e (hx e he)

end FailsWith

end Except
