/-
  Channel memory column by column. Every sample loop of the flavors rewrites the samples at one
  index from the samples at that index (`frameLoop_rewrites`), so what a pass over the channels
  does is said once for a column: assignments in turn (`mapChannels_rewrites`,
  `copyChannels_rewrites`).
-/
import ClapValidatorPlugins.Lib.InPlace
import ClapValidatorPlugins.Plugins.Common

namespace Cvp

open Assignments InPlace

/-! ## Loops -/

theorem frameLoop_rewrites {M K V : Type} {column : M → Nat → K → V} {body : Nat → M → M}
    {g : (K → V) → K → V} (hbody : ∀ i m, RewritesAt column i g m (body i m)) (frames : Nat)
    (m : M) : Rewrites column frames g m (frameLoop body 0 frames m) := by
  have hloop : ∀ count start (m : M) i,
      column (frameLoop body start count m) i =
        if start ≤ i ∧ i < start + count then g (column m i) else column m i := by
    intro count
    induction count with
    | zero =>
      intro start m i
      rw [if_neg (by omega)]
      rfl
    | succ count ih =>
      intro start m i
      rw [frameLoop, ih]
      by_cases hi : i = start
      · subst hi
        rw [if_neg (by omega), if_pos (by omega)]
        exact (hbody i m).1
      · rw [(hbody start m).2 i hi]
        by_cases hin : start + 1 ≤ i ∧ i < start + 1 + count
        · rw [if_pos hin, if_pos (by omega)]
        · rw [if_neg hin, if_neg (by omega)]
  intro i
  rw [hloop]
  by_cases h : i < frames
  · rw [if_pos h, if_pos (by omega)]
  · rw [if_neg h, if_neg (by omega)]

/-- The channels from `ch` on, as a loop looks them up. -/
def LooksUp {K : Type} (lookup : Nat → Exec K) (ch : Nat) (ks : List K) : Prop :=
  ∀ n (h : n < ks.length), lookup (ch + n) = .ok ks[n]

theorem LooksUp.cons {K : Type} {lookup : Nat → Exec K} {ch : Nat} {k : K} {ks : List K}
    (h : LooksUp lookup ch (k :: ks)) : lookup ch = .ok k ∧ LooksUp lookup (ch + 1) ks := by
  refine ⟨h 0 (Nat.succ_pos _), fun n hn => ?_⟩
  rw [Nat.add_right_comm]
  exact h (n + 1) (Nat.succ_lt_succ hn)

theorem LooksUp.cons_of {K : Type} {lookup : Nat → Exec K} {ch : Nat} {k : K} {ks : List K}
    (h : LooksUp lookup (ch + 1) ks) (hk : lookup ch = .ok k) : LooksUp lookup ch (k :: ks) := by
  intro n hn
  cases n with
  | zero => exact hk
  | succ n =>
    rw [← Nat.add_assoc, Nat.add_right_comm]
    exact h n (Nat.lt_of_succ_lt_succ hn)

theorem looksUp_channelAt (ps : List Ptr) : LooksUp (channelAt (some ps)) 0 ps := by
  intro n hn
  unfold channelAt
  rw [Nat.zero_add]
  dsimp only
  rw [List.getElem?_eq_getElem hn]

/-! ## One plane -/

section Planes

variable {T : Type}

/-- The samples at index `i`. -/
def Plane.column (m : Plane T) (i : Nat) : Ptr → T := fun p => m p i

theorem rewritesAt_write (m : Plane T) (p : Ptr) (i : Nat) (x : T) :
    RewritesAt Plane.column i (fun c => Function.update c p x) m (m.write p i x) := by
  refine ⟨funext fun q => ?_, fun j hj => funext fun q => if_neg fun h => hj h.2⟩
  show (if q = p ∧ i = i then x else m q i) = Function.update (m.column i) p x q
  by_cases hq : q = p
  · rw [if_pos ⟨hq, rfl⟩, hq, Function.update_self]
  · rw [if_neg fun h => hq h.1, Function.update_of_ne hq]
    rfl

theorem mapSamples_rewrites (f : T → T) (src dst : Ptr) (frames : Nat) (m : Plane T) :
    Rewrites Plane.column frames (fun c => Function.update c dst (f (c src))) m
      (mapSamples f src dst frames m) :=
  frameLoop_rewrites (fun i m => rewritesAt_write m dst i (f (m src i))) frames m

/-- Copying a channel onto itself and not copying it is the same. -/
theorem copySamples_rewrites (src dst : Ptr) (frames : Nat) (m : Plane T) :
    Rewrites Plane.column frames (fun c => Function.update c dst (c src)) m
      (if dst = src then m else mapSamples id src dst frames m) := by
  by_cases h : dst = src
  · subst h
    have hsame : (fun c : Ptr → T => Function.update c dst (c dst)) = id :=
      funext fun c => Function.update_eq_self dst c
    rw [if_pos rfl, hsame]
    exact Rewrites.refl frames m
  · rw [if_neg h]
    exact mapSamples_rewrites id src dst frames m

theorem mapChannels_rewrites (f : Nat → T → T) {input output : AudioBuffer} (frames : Nat)
    {pairs : List (Ptr × Ptr)} :
    ∀ {ch : Nat} (_ : LooksUp (channelAt input.data32) ch (pairs.map Prod.fst))
      (_ : LooksUp (channelAt output.data32) ch (pairs.map Prod.snd)) (m : Plane T),
      ∃ m', mapChannels f input output frames ch pairs.length m = .ok m' ∧
        Rewrites Plane.column frames (fun c => assignInTurn c (pairSteps f ch pairs)) m m' := by
  induction pairs with
  | nil => exact fun _ _ m => ⟨m, rfl, Rewrites.refl frames m⟩
  | cons pair pairs ih =>
    intro ch hin hout m
    obtain ⟨hsrc, hin'⟩ := LooksUp.cons hin
    obtain ⟨hdst, hout'⟩ := LooksUp.cons hout
    obtain ⟨m', hpass, hrewrites⟩ := ih hin' hout' (mapSamples (f ch) pair.1 pair.2 frames m)
    refine ⟨m', ?_, (mapSamples_rewrites (f ch) pair.1 pair.2 frames m).trans hrewrites⟩
    rw [List.length_cons, mapChannels, hsrc, hdst]
    exact hpass

/-- The passthrough loop. -/
theorem copyChannels_rewrites {input output : AudioBuffer} (frames : Nat)
    {pairs : List (Ptr × Ptr)} :
    ∀ {ch : Nat} (_ : LooksUp (channelAt input.data32) ch (pairs.map Prod.fst))
      (_ : LooksUp (channelAt output.data32) ch (pairs.map Prod.snd)) (m : Plane T),
      ∃ m', copyChannels input output frames ch pairs.length m = .ok m' ∧
        Rewrites Plane.column frames
          (fun c => assignInTurn c (pairSteps (fun _ x => x) ch pairs)) m m' := by
  induction pairs with
  | nil => exact fun _ _ m => ⟨m, rfl, Rewrites.refl frames m⟩
  | cons pair pairs ih =>
    intro ch hin hout m
    obtain ⟨hsrc, hin'⟩ := LooksUp.cons hin
    obtain ⟨hdst, hout'⟩ := LooksUp.cons hout
    obtain ⟨m', hpass, hrewrites⟩ := ih hin' hout'
      (if pair.2 = pair.1 then m else mapSamples id pair.1 pair.2 frames m)
    refine ⟨m', ?_, (copySamples_rewrites pair.1 pair.2 frames m).trans hrewrites⟩
    rw [List.length_cons, copyChannels, hsrc, hdst]
    exact hpass

end Planes

end Cvp
