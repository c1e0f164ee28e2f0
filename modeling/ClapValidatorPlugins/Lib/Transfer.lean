/-
  Peers that move a few elements at a time. A `Reader` is asked for `n` elements and answers
  with some of them or refuses; a `Writer` is offered a list and says how many it took. A
  peer may use everything it has been asked so far, so its answers are a function of the
  requests, latest first.

  `Delivers r xs`: however the elements are asked for, `r` hands out `xs` in order, at least
  one and at most the requested number per answer. `Holds r xs`: and then it has no more.
  `Accepts w`: `w` takes at least one and at most all of what it is offered. `serve` is a peer
  that delivers a list in chunks of any sizes (`delivers_serve`, `holds_serve`).
-/
import Mathlib.Data.List.Basic

namespace Transfer

variable {α : Type}

/-- What a reader did with one request. -/
inductive Answer (α : Type) where
  /-- nothing moved; the code is zero (end of data) or negative (error) -/
  | refuse (code : Int)
  | give (xs : List α)

/-- The number of elements an answer reports as moved. -/
def Answer.result : Answer α → Int
  | .refuse code => min code 0
  | .give xs => xs.length

structure Reader (α : Type) where
  answer : List Nat → Answer α
  seen : List Nat := []

/-- Ask for `n` elements. -/
def Reader.read (r : Reader α) (n : Nat) : Answer α × Reader α :=
  (r.answer (n :: r.seen), { r with seen := n :: r.seen })

structure Writer (α : Type) where
  answer : List Nat → Int
  seen : List Nat := []
  taken : List α := []

/-- Offer `xs`. -/
def Writer.write (w : Writer α) (xs : List α) : Int × Writer α :=
  let k := w.answer (xs.length :: w.seen)
  (k, { w with seen := xs.length :: w.seen, taken := w.taken ++ xs.take k.toNat })

/-- `r` hands out `xs` in order, however it is asked. -/
inductive Delivers : Reader α → List α → Prop where
  | intro {r : Reader α} {xs : List α} (k : Nat → Nat)
      (size : ∀ n, 0 < n → xs ≠ [] → 1 ≤ k n ∧ k n ≤ n ∧ k n ≤ xs.length)
      (now : ∀ n, 0 < n → xs ≠ [] → (r.read n).1 = .give (xs.take (k n)))
      (later : ∀ n, 0 < n → xs ≠ [] → Delivers (r.read n).2 (xs.drop (k n))) :
      Delivers r xs

/-- `r` hands out `xs` in order, however it is asked, and then refuses. -/
inductive Holds : Reader α → List α → Prop where
  | intro {r : Reader α} {xs : List α} (k : Nat → Nat)
      (size : ∀ n, 0 < n → xs ≠ [] → 1 ≤ k n ∧ k n ≤ n ∧ k n ≤ xs.length)
      (now : ∀ n, 0 < n → xs ≠ [] → (r.read n).1 = .give (xs.take (k n)))
      (ended : ∀ n, 0 < n → xs = [] → ∃ code, (r.read n).1 = .refuse code)
      (later : ∀ n, 0 < n → xs ≠ [] → Holds (r.read n).2 (xs.drop (k n))) :
      Holds r xs

/-- `w` takes at least one and at most all of what it is offered. -/
def Accepts (w : Writer α) : Prop :=
  ∀ n older, 0 < n → 1 ≤ w.answer (n :: older) ∧ w.answer (n :: older) ≤ n

/-- One request to a delivering reader. -/
theorem Delivers.step {r : Reader α} {xs : List α} (h : Delivers r xs) {n : Nat} (hn : 0 < n)
    (hx : xs ≠ []) :
    ∃ k, 1 ≤ k ∧ k ≤ n ∧ k ≤ xs.length ∧ (r.read n).1 = .give (xs.take k) ∧
      Delivers (r.read n).2 (xs.drop k) := by
  obtain ⟨k, size, now, later⟩ := h
  obtain ⟨h1, h2, h3⟩ := size n hn hx
  exact ⟨k n, h1, h2, h3, now n hn hx, later n hn hx⟩

/-- One request to a reader that has something left. -/
theorem Holds.step {r : Reader α} {xs : List α} (h : Holds r xs) {n : Nat} (hn : 0 < n)
    (hx : xs ≠ []) :
    ∃ k, 1 ≤ k ∧ k ≤ n ∧ k ≤ xs.length ∧ (r.read n).1 = .give (xs.take k) ∧
      Holds (r.read n).2 (xs.drop k) := by
  obtain ⟨k, size, now, -, later⟩ := h
  obtain ⟨h1, h2, h3⟩ := size n hn hx
  exact ⟨k n, h1, h2, h3, now n hn hx, later n hn hx⟩

theorem Holds.refuses {r : Reader α} (h : Holds r []) {n : Nat} (hn : 0 < n) :
    ∃ code, (r.read n).1 = .refuse code := by
  obtain ⟨k, -, -, ended, -⟩ := h
  exact ended n hn rfl

theorem Holds.delivers {r : Reader α} {xs : List α} (h : Holds r xs) : Delivers r xs := by
  induction h with
  | intro k size now ended later ih => exact .intro k size now ih

/-- One offer to an accepting writer. -/
theorem Accepts.step {w : Writer α} (h : Accepts w) {xs : List α} (hx : xs ≠ []) :
    ∃ k, 1 ≤ k ∧ k ≤ xs.length ∧ (w.write xs).1 = (k : Int) ∧
      (w.write xs).2.taken = w.taken ++ xs.take k ∧ Accepts (w.write xs).2 := by
  have hn : 0 < xs.length := List.length_pos_of_ne_nil hx
  obtain ⟨h1, h2⟩ := h xs.length w.seen hn
  refine ⟨(w.answer (xs.length :: w.seen)).toNat, ?_, ?_, ?_, rfl, h⟩
  · omega
  · omega
  · show w.answer (xs.length :: w.seen) = _
    omega

/-! ## A reader that serves a list in chunks -/

/-- Between one and `n` elements, `want` where that is allowed. -/
def clampChunk (want n : Nat) : Nat := max 1 (min want n)

/-- How many elements were handed out by the earlier requests. -/
def served (total : Nat) (chunk : Nat → Nat) : List Nat → Nat
  | [] => 0
  | n :: older =>
    let done := served total chunk older
    done + min (clampChunk (chunk older.length) n) (total - done)

/-- Serve `xs`, moving `chunk i` elements at the `i`-th request where that is allowed. -/
def serve (xs : List α) (chunk : Nat → Nat) : Reader α where
  answer
    | [] => .refuse 0
    | n :: older =>
      let rest := xs.drop (served xs.length chunk older)
      if rest.isEmpty then .refuse 0
      else .give (rest.take (clampChunk (chunk older.length) n))

theorem holds_serve_from (xs : List α) (chunk : Nat → Nat) (m : Nat) :
    ∀ seen, xs.length - served xs.length chunk seen ≤ m →
      Holds { serve xs chunk with seen := seen } (xs.drop (served xs.length chunk seen)) := by
  have hend : ∀ seen n, xs.drop (served xs.length chunk seen) = [] →
      ∃ code, ({ serve xs chunk with seen := seen }.read n).1 = .refuse code := by
    intro seen n hnil
    exact ⟨0, by simp [Reader.read, serve, List.drop_eq_nil_iff.mp hnil]⟩
  induction m with
  | zero =>
    intro seen hm
    have hnil : xs.drop (served xs.length chunk seen) = [] :=
      List.drop_eq_nil_of_le (by omega)
    exact ⟨fun _ => 0, fun _ _ hne => absurd hnil hne, fun _ _ hne => absurd hnil hne,
      fun n _ => hend seen n, fun _ _ hne => absurd hnil hne⟩
  | succ m ih =>
    intro seen hm
    have hlen : (xs.drop (served xs.length chunk seen)).length =
        xs.length - served xs.length chunk seen := List.length_drop
    refine ⟨fun n => min (clampChunk (chunk seen.length) n)
      (xs.length - served xs.length chunk seen), ?_, ?_, fun n _ => hend seen n, ?_⟩
    · intro n hn hne
      have hpos := List.length_pos_of_ne_nil hne
      rw [hlen] at hpos ⊢
      simp only [clampChunk]
      omega
    · intro n hn hne
      have hne' : (xs.drop (served xs.length chunk seen)).isEmpty = false := by
        simpa using hne
      simp only [Reader.read, serve, hne', Bool.false_eq_true, if_false]
      rw [← hlen, List.take_eq_take_min]
    · intro n hn hne
      have hpos := List.length_pos_of_ne_nil hne
      rw [hlen] at hpos
      have hk : 1 ≤ clampChunk (chunk seen.length) n := Nat.le_max_left _ _
      rw [List.drop_drop]
      have hs : served xs.length chunk (n :: seen) = served xs.length chunk seen +
          min (clampChunk (chunk seen.length) n) (xs.length - served xs.length chunk seen) := rfl
      rw [← hs]
      refine ih (n :: seen) ?_
      rw [hs]
      omega

theorem holds_serve (xs : List α) (chunk : Nat → Nat) : Holds (serve xs chunk) xs :=
  holds_serve_from xs chunk xs.length [] (by simp [served])

theorem delivers_serve (xs : List α) (chunk : Nat → Nat) : Delivers (serve xs chunk) xs :=
  (holds_serve xs chunk).delivers

end Transfer
