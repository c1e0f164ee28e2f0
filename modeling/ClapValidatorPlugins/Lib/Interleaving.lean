/-
  Calls that run at the same time on one shared memory. A call takes one atomic step after the
  other; a scheduler picks whose turn it is, any number of calls may be under way, and each keeps
  its place in the list of calls for good. Runs are those of `Machine`; here are the rules for
  what they keep: what the calls weigh and count together, and a property of pairs of calls.
-/
import ClapValidatorPlugins.Lib.Machine
import Mathlib.Algebra.BigOperators.Group.List.Basic
import Mathlib.Tactic.Abel

namespace Interleaving

variable {σ ρ κ ω : Type}

/-- The code of the calls. -/
structure Program (σ ρ κ ω : Type) where
  /-- where a call on a request stands before its first step -/
  start : ρ → κ
  /-- one atomic step, and what can be seen of it; `none` behind the return -/
  step : σ → κ → Option (σ × κ × ω)
  /-- whether the thread that is to make the call is free -/
  admits : List κ → ρ → Bool := fun _ _ => true

/-- The shared memory, and every call made so far with the place where it stands. -/
structure Pool (σ κ : Type) where
  shared : σ
  calls : List κ := []

/-- What the scheduler can choose. -/
inductive Move (ρ : Type) where
  | enter (request : ρ)
  | advance (i : Nat)

def Program.next (prog : Program σ ρ κ ω) : Machine.Step (Pool σ κ) (Move ρ) (Option ω) Unit
  | pool, .enter request =>
    if prog.admits pool.calls request then
      .ok ({ pool with calls := pool.calls ++ [prog.start request] }, none)
    else .error ()
  | pool, .advance i =>
    match pool.calls[i]? with
    | none => .error ()
    | some c =>
      match prog.step pool.shared c with
      | none => .error ()
      | some (s, c', seen) => .ok ({ shared := s, calls := pool.calls.set i c' }, some seen)

section Rules

variable {prog : Program σ ρ κ ω} {pool pool' : Pool σ κ}

/-- Everything a step can do. -/
theorem next_cases {move : Move ρ} {seen : Option ω} (h : prog.next pool move = .ok (pool', seen)) :
    (∃ request, move = .enter request ∧ prog.admits pool.calls request ∧ seen = none ∧
      pool' = { pool with calls := pool.calls ++ [prog.start request] }) ∨
    ∃ i c s c' w, move = .advance i ∧ pool.calls[i]? = some c ∧
      prog.step pool.shared c = some (s, c', w) ∧ seen = some w ∧
      pool' = { shared := s, calls := pool.calls.set i c' } := by
  cases move with
  | enter request =>
    rw [Program.next] at h
    split at h
    · rename_i hadmits
      cases h
      exact .inl ⟨request, rfl, hadmits, rfl, rfl⟩
    · cases h
  | advance i =>
    rw [Program.next] at h
    split at h
    · cases h
    · rename_i c hc
      split at h
      · cases h
      · rename_i s c' w hs
        cases h
        exact .inr ⟨i, c, s, c', w, rfl, hc, hs, rfl, rfl⟩

theorem next_advance {i : Nat} {c c' : κ} {s : σ} {w : ω} (hc : pool.calls[i]? = some c)
    (hs : prog.step pool.shared c = some (s, c', w)) :
    prog.next pool (.advance i) =
      .ok ({ shared := s, calls := pool.calls.set i c' }, some w) := by
  rw [Program.next, hc]
  dsimp only
  rw [hs]

/-- A call that is not the one to move stays where it is. -/
theorem next_frame {move : Move ρ} {seen : Option ω} {i : Nat} {c : κ}
    (h : prog.next pool move = .ok (pool', seen)) (hi : move ≠ .advance i)
    (hc : pool.calls[i]? = some c) : pool'.calls[i]? = some c := by
  rcases next_cases h with ⟨request, -, -, -, rfl⟩ | ⟨j, d, s, d', w, rfl, hd, -, -, rfl⟩
  · exact (List.getElem?_append_left (List.getElem?_eq_some_iff.mp hc).1).trans hc
  · have hij : j ≠ i := fun hij => hi (hij ▸ rfl)
    exact (List.getElem?_set_ne hij).trans hc

/-- Until its own next step a call stays where it is. -/
theorem run_frame {moves : List (Move ρ)} {i : Nat} {c : κ} :
    ∀ {pool pool' : Pool σ κ} {seen : List (Option ω)}, (∀ move ∈ moves, move ≠ .advance i) →
      pool.calls[i]? = some c → Machine.run prog.next pool moves = .ok (pool', seen) →
      pool'.calls[i]? = some c := by
  induction moves with
  | nil =>
    intro pool pool' seen _ hc h
    cases h
    exact hc
  | cons move moves ih =>
    intro pool pool' seen hi hc h
    obtain ⟨pool₁, o, os, hstep, hrun, -⟩ := Machine.run_cons_ok h
    obtain ⟨hmove, hmoves⟩ := List.forall_mem_cons.mp hi
    exact ih hmoves (next_frame hstep hmove hc) hrun

/-! ## What the calls add up to -/

section Sums

variable {M : Type} [AddCommGroup M] {weight : κ → M}

theorem sum_map_set {calls : List κ} {i : Nat} {c : κ} (hc : calls[i]? = some c) (c' : κ) :
    ((calls.set i c').map weight).sum = (calls.map weight).sum + (weight c' - weight c) := by
  obtain ⟨hi, rfl⟩ := List.getElem?_eq_some_iff.mp hc
  rw [List.map_set, List.sum_set', dif_pos (by rwa [List.length_map]), List.getElem_map]
  abel

theorem countP_set {p : κ → Bool} {calls : List κ} {i : Nat} {c : κ} (hc : calls[i]? = some c)
    (c' : κ) : ((calls.set i c').countP p : Int) =
      calls.countP p + ((p c').toInt - (p c).toInt) := by
  obtain ⟨hi, rfl⟩ := List.getElem?_eq_some_iff.mp hc
  have hpos : p calls[i] = true → 0 < calls.countP p :=
    fun hp => List.countP_pos_iff.mpr ⟨_, List.getElem_mem hi, hp⟩
  rw [List.countP_set hi]
  cases hp : p calls[i] with
  | false => cases p c' <;> simp
  | true =>
    have hone := hpos hp
    cases p c' <;> simp <;> omega

/-- The level counts the calls that have `p`, if each step changes both alike. -/
theorem count_from {p : κ → Bool} (level : σ → Int) (base : Int)
    (hstart : ∀ request, p (prog.start request) = false)
    (hstep : ∀ s c s' c' w, (p c = true → base < level s) → prog.step s c = some (s', c', w) →
      level s' - level s = (p c').toInt - (p c).toInt)
    (hbase : level pool.shared = base + pool.calls.countP p)
    (h : Machine.Reachable prog.next pool pool') :
    level pool'.shared = base + pool'.calls.countP p := by
  refine h.invariant (P := fun q => level q.shared = base + q.calls.countP p) hbase ?_
  intro q move q' o hq hnext
  rcases next_cases hnext with ⟨request, -, -, -, rfl⟩ | ⟨i, c, s, c', w, -, hc, hs, -, rfl⟩
  · have hnone : [prog.start request].countP p = 0 :=
      List.countP_eq_zero.mpr fun c hc => by
        rw [List.mem_singleton.mp hc, hstart]
        exact Bool.false_ne_true
    rw [List.countP_append, hnone, Nat.add_zero]
    exact hq
  · have hpos : p c = true → 0 < q.calls.countP p :=
      fun hp => List.countP_pos_iff.mpr ⟨c, List.mem_of_getElem? hc, hp⟩
    have hchange := hstep _ _ _ _ _ (fun hp => by have := hpos hp; omega) hs
    show level s = base + ((q.calls.set i c').countP p : Int)
    rw [countP_set hc]
    omega

end Sums

/-! ## Pairs of calls -/

/-- A call that differs from the one at `i` stands elsewhere. -/
theorem exists_other {calls : List κ} {i : Nat} {c d : κ} (hc : calls[i]? = some c)
    (hd : d ∈ calls) (hne : d ≠ c) : ∃ j, i ≠ j ∧ calls[j]? = some d := by
  obtain ⟨j, hj⟩ := List.mem_iff_getElem?.mp hd
  refine ⟨j, fun hij => hne ?_, hj⟩
  rw [← hij, hc] at hj
  exact (Option.some.inj hj).symm

/-- `P` holds of any two different calls, in both orders. -/
def AllPairs (P : κ → κ → Prop) (calls : List κ) : Prop :=
  ∀ (i j : Nat) (c d : κ), i ≠ j → calls[i]? = some c → calls[j]? = some d → P c d

theorem allPairs_nil {P : κ → κ → Prop} : AllPairs P [] := by
  intro i j c d _ h
  rw [List.getElem?_nil] at h
  cases h

theorem AllPairs.append {P : κ → κ → Prop} {calls : List κ} {c : κ} (h : AllPairs P calls)
    (hc : ∀ d ∈ calls, P c d ∧ P d c) : AllPairs P (calls ++ [c]) := by
  have hlast : ∀ i d, (calls ++ [c])[i]? = some d →
      calls[i]? = some d ∨ i = calls.length ∧ d = c := by
    intro i d hd
    rcases Nat.lt_or_ge i calls.length with hi | hi
    · exact .inl (by rwa [List.getElem?_append_left hi] at hd)
    · rw [List.getElem?_append_right hi] at hd
      rcases Nat.eq_zero_or_pos (i - calls.length) with h0 | h0
      · rw [h0] at hd
        exact .inr ⟨by omega, (Option.some.inj hd).symm⟩
      · rw [List.getElem?_eq_none (show [c].length ≤ _ from h0)] at hd
        cases hd
  intro i j d e hij hd he
  rcases hlast i d hd with hd' | ⟨hi, rfl⟩
  · rcases hlast j e he with he' | ⟨-, rfl⟩
    · exact h i j d e hij hd' he'
    · exact (hc d (List.mem_of_getElem? hd')).2
  · rcases hlast j e he with he' | ⟨hj, -⟩
    · exact (hc e (List.mem_of_getElem? he')).1
    · exact absurd (hi.trans hj.symm) hij

theorem AllPairs.set {P : κ → κ → Prop} {calls : List κ} {i : Nat} {c' : κ} (h : AllPairs P calls)
    (hc' : ∀ j d, i ≠ j → calls[j]? = some d → P c' d ∧ P d c') :
    AllPairs P (calls.set i c') := by
  have hset : ∀ j d, (calls.set i c')[j]? = some d →
      (i = j ∧ d = c') ∨ i ≠ j ∧ calls[j]? = some d := by
    intro j d hd
    by_cases hij : i = j
    · subst hij
      have hlt := (List.getElem?_eq_some_iff.mp hd).1
      rw [List.length_set] at hlt
      rw [List.getElem?_set_self hlt] at hd
      exact .inl ⟨rfl, (Option.some.inj hd).symm⟩
    · exact .inr ⟨hij, by rwa [List.getElem?_set_ne hij] at hd⟩
  intro j k d e hjk hd he
  rcases hset j d hd with ⟨hj, rfl⟩ | ⟨hj, hd'⟩
  · rcases hset k e he with ⟨hk, -⟩ | ⟨hk, he'⟩
    · exact absurd (hj.symm.trans hk) hjk
    · exact (hc' k e hk he').1
  · rcases hset k e he with ⟨-, rfl⟩ | ⟨hk, he'⟩
    · exact (hc' j d hj hd').2
    · exact h j k d e hjk hd' he'

/-! ## What the calls hold together -/

section Held

variable {α : Type} {held : κ → List α} {calls : List κ} {i : Nat} {c c' : κ}

theorem flatMap_set_same (hc : calls[i]? = some c) (h : held c' = held c) :
    (calls.set i c').flatMap held = calls.flatMap held := by
  obtain ⟨hi, rfl⟩ := List.getElem?_eq_some_iff.mp hc
  have hi' : i < (calls.map held).length := by rwa [List.length_map]
  have hself : held calls[i] = (calls.map held)[i] := (List.getElem_map held).symm
  rw [List.flatMap_def, List.flatMap_def, List.map_set, h, hself, List.set_getElem_self]

/-- Where the others hold nothing. -/
theorem flatMap_alone (hc : calls[i]? = some c)
    (h : ∀ (j : Nat) (d : κ), i ≠ j → calls[j]? = some d → held d = []) :
    calls.flatMap held = held c := by
  induction calls generalizing i with
  | nil => cases hc
  | cons a calls ih =>
    rw [List.flatMap_cons]
    cases i with
    | zero =>
      cases hc
      have hrest : calls.flatMap held = [] := List.flatMap_eq_nil_iff.mpr fun d hd => by
        obtain ⟨j, hj, hjd⟩ := List.getElem_of_mem hd
        exact h (j + 1) d (Nat.succ_ne_zero j).symm
          ((List.getElem?_cons_succ).trans (by rw [List.getElem?_eq_getElem hj, hjd]))
      rw [hrest, List.append_nil]
    | succ i =>
      rw [h 0 a (Nat.succ_ne_zero i) rfl, List.nil_append]
      exact ih hc fun j d hij hd => h (j + 1) d (fun heq => hij (Nat.succ.inj heq)) hd

theorem flatMap_set_alone (hc : calls[i]? = some c)
    (h : ∀ (j : Nat) (d : κ), i ≠ j → calls[j]? = some d → held d = []) :
    (calls.set i c').flatMap held = held c' := by
  have hi : i < calls.length := (List.getElem?_eq_some_iff.mp hc).1
  exact flatMap_alone (List.getElem?_set_self hi) fun j d hij hd =>
    h j d hij (by rwa [List.getElem?_set_ne hij] at hd)

end Held

end Rules

end Interleaving
