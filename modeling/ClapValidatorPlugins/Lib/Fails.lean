/-
  The other half of `Yields`: what a computation that may fail can fail with. `Fails x P` says
  nothing about results. A failure of a `do` block is one of its first step or one behind it, so
  where the rest never fails with `e`, the block does exactly if its first step does
  (`bind_eq_error_iff`).
-/
import ClapValidatorPlugins.Lib.Yields

/-- Whatever `x` fails with has `P`; nothing is said about results. -/
def Fails {ε α : Type} (x : Except ε α) (P : ε → Prop) : Prop := ∀ e, x = .error e → P e

namespace Fails

variable {ε α β : Type} {P : ε → Prop}

theorem of_ok (a : α) : Fails (.ok a : Except ε α) P := by
  intro e he
  cases he

theorem of_error {e : ε} (h : P e) : Fails (.error e : Except ε α) P := by
  intro e' he
  cases he
  exact h

theorem bind {x : Except ε α} {f : α → Except ε β} (hx : Fails x P)
    (hf : ∀ a, x = .ok a → Fails (f a) P) : Fails (x >>= f) P := by
  cases h : x with
  | error e => exact of_error (hx e h)
  | ok a => exact hf a h

theorem map {x : Except ε α} (f : α → β) (hx : Fails x P) : Fails (f <$> x) P := by
  cases h : x with
  | error e => exact of_error (hx e h)
  | ok a => exact of_ok _

theorem eq_error_of_map {x : Except ε α} {e : ε} (f : α → β) (h : x.map f = .error e) :
    x = .error e := by
  cases x with
  | error e' => exact congrArg Except.error (Except.error.inj h)
  | ok a => cases h

theorem bind_eq_error_iff {x : Except ε α} {f : α → Except ε β} {e : ε}
    (hf : ∀ a, x = .ok a → Fails (f a) (· ≠ e)) : x >>= f = .error e ↔ x = .error e := by
  cases x with
  | error e' => exact ⟨fun h => congrArg Except.error (Except.error.inj h),
      fun h => congrArg Except.error (Except.error.inj h)⟩
  | ok a => exact ⟨fun h => absurd rfl (hf a rfl e h), nofun⟩

/-- Both steps fail with `e` only, and the second always does. -/
theorem bind_eq_error {x : Except ε α} {f : α → Except ε β} {e : ε} (hx : Fails x (· = e))
    (hf : ∀ a, f a = .error e) : x >>= f = .error e := by
  cases h : x with
  | error e' => exact congrArg Except.error (hx e' h)
  | ok a => exact hf a

end Fails
