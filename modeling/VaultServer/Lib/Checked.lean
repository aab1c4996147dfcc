import Mathlib

/-!
# Computations that may fail

How a computation made of several that may fail comes to its end.
-/

namespace Lib

variable {ε α β : Type} {x : Except ε α} {f : α → Except ε β}

/-- A result comes from a result of the first part. -/
theorem bind_eq_ok (h : x >>= f = .ok b) : ∃ a, x = .ok a ∧ f a = .ok b := by
  cases x with
  | error => cases h
  | ok a => exact ⟨a, rfl, h⟩

theorem bind_eq_ok_iff : x >>= f = .ok b ↔ ∃ a, x = .ok a ∧ f a = .ok b := by
  refine ⟨bind_eq_ok, ?_⟩
  rintro ⟨a, rfl, h⟩
  exact h

theorem ite_eq_ok {p : Prop} [Decidable p] {a b : α} {e : ε} :
    (if p then .ok a else .error e) = Except.ok b ↔ p ∧ a = b := by
  split <;> simp [*]

theorem pure_eq_ok {a b : α} : (pure a : Except ε α) = .ok b ↔ a = b := ⟨Except.ok.inj, congrArg _⟩

end Lib
