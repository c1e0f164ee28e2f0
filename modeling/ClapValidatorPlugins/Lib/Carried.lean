/-
  Two computations that may fail and go the same way, the second on data that `φ` has been applied
  to: `Carried φ x y` says that `y` does what `x` does and returns what `φ` makes of its result. The
  rules follow the shape of a `do` block.
-/
import Mathlib.Logic.Basic

/-- `y` fails where `x` does, and else returns the image of what `x` returns. -/
def Carried {ε α β : Type} (φ : α → β) (x : Except ε α) (y : Except ε β) : Prop := y = φ <$> x

namespace Carried

variable {ε α β γ δ : Type} {φ : α → β} {ψ : γ → δ}

theorem ok (a : α) : Carried φ (.ok a : Except ε α) (.ok (φ a)) := rfl

theorem error (e : ε) : Carried φ (.error e) (.error e) := rfl

theorem bind {x : Except ε α} {y : Except ε β} {f : α → Except ε γ} {g : β → Except ε δ}
    (hx : Carried φ x y) (hf : ∀ a, Carried ψ (f a) (g (φ a))) :
    Carried ψ (x >>= f) (y >>= g) := by
  cases hx
  cases x with
  | error e => rfl
  | ok a => exact hf a

/-- A first step that the two have in common. -/
theorem andThen {x : Except ε α} {f : α → Except ε γ} {g : α → Except ε δ}
    (hf : ∀ a, Carried ψ (f a) (g a)) : Carried ψ (x >>= f) (x >>= g) := by
  cases x with
  | error e => rfl
  | ok a => exact hf a

theorem branch {c : Prop} [Decidable c] {x x' : Except ε α} {y y' : Except ε β}
    (h : Carried φ x y) (h' : Carried φ x' y') :
    Carried φ (if c then x else x') (if c then y else y') := by
  split
  · exact h
  · exact h'

end Carried
