/-
  Partial correctness of computations that may fail: whatever `x` returns has `P`. The rules
  follow the shape of a `do` block, so a proof walks down the program it is about.
-/
import Mathlib.Logic.Basic

/-- Whatever `x` returns has `P`; nothing is said about failures. -/
def Yields {ε α : Type} (x : Except ε α) (P : α → Prop) : Prop := ∀ a, x = .ok a → P a

namespace Yields

variable {ε α β : Type} {P Q : α → Prop}

theorem of_ok {a : α} (h : P a) : Yields (.ok a : Except ε α) P := by
  intro b hb
  cases hb
  exact h

theorem of_error (e : ε) : Yields (.error e : Except ε α) P := by
  intro b hb
  cases hb

theorem mono {x : Except ε α} (h : Yields x Q) (hQP : ∀ a, Q a → P a) : Yields x P :=
  fun a ha => hQP a (h a ha)

theorem bind {x : Except ε α} {f : α → Except ε β} {R : β → Prop} (hx : Yields x P)
    (hf : ∀ a, P a → Yields (f a) R) : Yields (x >>= f) R := by
  intro b hb
  match x, hx, hb with
  | .ok a, hx, hb => exact hf a (hx a rfl) b hb

/-- A first step of which nothing has to be known. -/
theorem andThen {x : Except ε α} {f : α → Except ε β} {R : β → Prop}
    (hf : ∀ a, Yields (f a) R) : Yields (x >>= f) R :=
  bind (P := fun _ => True) (fun _ _ => trivial) fun a _ => hf a

/-- Two ways to a value, and one way on. -/
theorem bindBranch {c : Prop} [Decidable c] {x y : Except ε α} {f : α → Except ε β} {R : β → Prop}
    (hx : Yields x P) (hy : Yields y P) (hf : ∀ a, P a → Yields (f a) R) :
    Yields (if c then x >>= f else y >>= f) R := by
  split
  · exact bind hx hf
  · exact bind hy hf

theorem branch {c : Prop} [Decidable c] {x y : Except ε α} {f : α → Except ε β} {R : β → Prop}
    (hf : ∀ a, Yields (f a) R) : Yields (if c then x >>= f else y >>= f) R :=
  bindBranch (P := fun _ => True) (fun _ _ => trivial) (fun _ _ => trivial) fun a _ => hf a

end Yields

/-- A `do` block that returns: its first step did, and so did the rest. -/
theorem Except.bind_eq_ok {ε α β : Type} {x : Except ε α} {f : α → Except ε β} {b : β}
    (h : x >>= f = .ok b) : ∃ a, x = .ok a ∧ f a = .ok b := by
  match x, h with
  | .ok a, h => exact ⟨a, rfl, h⟩
