/-
  Two computations side by side: they fail alike or return what a relation holds of. The rules
  follow the ways the computations are put together, up to whole runs of a machine.
-/
import ClapValidatorPlugins.Lib.Machine

variable {ε α β γ δ : Type}

/-- `x` and `y` fail with the same error or return what `R` relates. -/
def Alongside (R : α → β → Prop) (x : Except ε α) (y : Except ε β) : Prop :=
  match x, y with
  | .ok a, .ok b => R a b
  | .error e, .error e' => e = e'
  | _, _ => False

namespace Alongside

variable {R : α → β → Prop} {Q : γ → δ → Prop} {x : Except ε α} {y : Except ε β}

theorem ok {a : α} {b : β} (h : R a b) : Alongside R (.ok a : Except ε α) (.ok b) := h

theorem error (e : ε) : Alongside R (.error e) (.error e) := rfl

theorem split (h : Alongside R x y) :
    (∃ e, x = .error e ∧ y = .error e) ∨ ∃ a b, x = .ok a ∧ y = .ok b ∧ R a b := by
  cases x with
  | error e => cases y with
    | error e' => exact .inl ⟨e, rfl, congrArg Except.error (Eq.symm h)⟩
    | ok b => exact h.elim
  | ok a => cases y with
    | error e' => exact h.elim
    | ok b => exact .inr ⟨a, b, rfl, rfl, h⟩

theorem bind {f : α → Except ε γ} {g : β → Except ε δ} (h : Alongside R x y)
    (hf : ∀ a b, x = .ok a → R a b → Alongside Q (f a) (g b)) :
    Alongside Q (x >>= f) (y >>= g) := by
  rcases h.split with ⟨e, rfl, rfl⟩ | ⟨a, b, rfl, rfl, hR⟩
  · exact error e
  · exact hf a b rfl hR

theorem mono {R' : α → β → Prop} (h : Alongside R x y) (hR : ∀ a b, R a b → R' a b) :
    Alongside R' x y := by
  rcases h.split with ⟨e, rfl, rfl⟩ | ⟨a, b, rfl, rfl, h⟩
  · exact error e
  · exact hR a b h

theorem refl {R : α → α → Prop} (hR : ∀ a, R a a) (x : Except ε α) : Alongside R x x := by
  cases x with
  | error e => exact error e
  | ok a => exact hR a

theorem eq {x y : Except ε α} (h : Alongside Eq x y) : x = y := by
  rcases h.split with ⟨e, rfl, rfl⟩ | ⟨a, b, rfl, rfl, rfl⟩ <;> rfl

/-- A first step that the two have in common. -/
theorem andThen {f : α → Except ε γ} {g : α → Except ε δ}
    (hf : ∀ a, x = .ok a → Alongside Q (f a) (g a)) : Alongside Q (x >>= f) (x >>= g) :=
  (refl (R := Eq) (fun _ => rfl) x).bind fun a _ ha hab => hab ▸ hf a ha

end Alongside

namespace Machine

variable {σ ℓ ω : Type} {step : Step σ ℓ ω ε}

theorem run_eq_bind (s : σ) (l : ℓ) (ls : List ℓ) :
    run step s (l :: ls) =
      step s l >>= fun r => run step r.1 ls >>= fun r' => .ok (r'.1, r.2 :: r'.2) := by
  rw [run]
  cases step s l with
  | error e => rfl
  | ok r =>
    obtain ⟨s', o⟩ := r
    show _ = run step s' ls >>= _
    dsimp only
    cases run step s' ls <;> rfl

/-- `P` holds of every step that the run of the labels from `s` comes to, the one that fails
    included. -/
def AllTried (step : Step σ ℓ ω ε) (P : σ → ℓ → Prop) : σ → List ℓ → Prop
  | _, [] => True
  | s, l :: ls => P s l ∧ ∀ s' o, step s l = .ok (s', o) → AllTried step P s' ls

/-- A condition that every state meets. -/
theorem allTried_of_labels {P : σ → ℓ → Prop} {ls : List ℓ} :
    ∀ {s : σ}, (∀ l ∈ ls, ∀ s, P s l) → AllTried step P s ls := by
  induction ls with
  | nil => exact fun _ => trivial
  | cons l ls ih =>
    intro s h
    obtain ⟨hl, hls⟩ := List.forall_mem_cons.mp h
    exact ⟨hl s, fun _ _ _ => ih hls⟩

/-- Labels that a step answers alike, going to the same state, are answered alike by a run. -/
theorem run_alongside {A : ℓ → ℓ → Prop} {B : ω → ω → Prop} {P : σ → ℓ → Prop}
    (hstep : ∀ s l l', A l l' → P s l →
      Alongside (fun r r' => r.1 = r'.1 ∧ B r.2 r'.2) (step s l) (step s l'))
    {ls ls' : List ℓ} (h : List.Forall₂ A ls ls') :
    ∀ {s : σ}, AllTried step P s ls →
      Alongside (fun r r' => r.1 = r'.1 ∧ List.Forall₂ B r.2 r'.2) (run step s ls)
        (run step s ls') := by
  induction h with
  | nil => exact fun _ => ⟨rfl, .nil⟩
  | @cons l l' ls ls' hl _ ih =>
    intro s htried
    rw [run_eq_bind, run_eq_bind]
    refine (hstep s l l' hl htried.1).bind fun r r' hr hboth => ?_
    obtain ⟨s', o⟩ := r
    obtain ⟨s'', o'⟩ := r'
    obtain ⟨rfl, ho⟩ := hboth
    exact (ih (htried.2 s' o hr)).bind fun back back' _ hback => ⟨hback.1, .cons ho hback.2⟩

end Machine
