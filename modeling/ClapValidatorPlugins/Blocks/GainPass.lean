/-
  Effect's gain pass. It reads 32- and 64-bit channels and writes either, and it is also the
  silence scan: as long as no channel is written before it is read, the scan answers for the
  samples the block came with (`gainChannels_eq`).
-/
import ClapValidatorPlugins.Blocks.Columns
import ClapValidatorPlugins.Lib.Yields
import ClapValidatorPlugins.Plugins.Effects

namespace Cvp

open Assignments InPlace

variable {D S : Type}

/-- `float` or `double`. -/
inductive SampleSize where
  | f32
  | f64
  deriving DecidableEq, Repr

/-- The sample of a channel of either size. -/
def AudioMemory.sample (memory : AudioMemory D S) (size : SampleSize) (p : Ptr) (i : Nat) :
    S ⊕ D :=
  match size with
  | .f32 => .inl (memory.f32 p i)
  | .f64 => .inr (memory.f64 p i)

namespace EffectPlugin

deriving instance DecidableEq for Channel

variable [FloatCast D S]

/-- The samples at index `i`. -/
def column (memory : AudioMemory D S) (i : Nat) : Channel → S ⊕ D
  | .f32 p => memory.sample .f32 p i
  | .f64 p => memory.sample .f64 p i

/-- A sample promoted to `double`. -/
def promoted : S ⊕ D → D := Sum.elim FloatCast.toDouble id

/-- What a channel holds after `dst[i] = static_cast<...>(x)`. -/
def Channel.stored (x : D) : Channel → S ⊕ D
  | .f32 _ => .inl (FloatCast.toFloat x)
  | .f64 _ => .inr x

theorem Channel.read_eq (memory : AudioMemory D S) (i : Nat) (src : Channel) :
    src.read memory i = promoted (column memory i src) := by
  cases src <;> rfl

theorem column_write (memory : AudioMemory D S) (dst : Channel) (i j : Nat) (x : D)
    (q : Channel) : column (dst.write memory i x) j q =
      if q = dst ∧ j = i then dst.stored x else column memory j q := by
  cases dst with
  | f32 p =>
    cases q with
    | f32 q =>
      refine (apply_ite Sum.inl (q = p ∧ j = i) _ _).trans ?_
      exact if_congr (and_congr_left' (iff_of_eq (Channel.f32.injEq q p).symm)) rfl rfl
    | f64 q => rw [if_neg nofun]; rfl
  | f64 p =>
    cases q with
    | f32 q => rw [if_neg nofun]; rfl
    | f64 q =>
      refine (apply_ite Sum.inr (q = p ∧ j = i) _ _).trans ?_
      exact if_congr (and_congr_left' (iff_of_eq (Channel.f64.injEq q p).symm)) rfl rfl

theorem rewritesAt_write (memory : AudioMemory D S) (dst : Channel) (i : Nat) (x : D) :
    RewritesAt column i (fun c => Function.update c dst (dst.stored x)) memory
      (dst.write memory i x) := by
  refine ⟨funext fun q => ?_, fun j hj => funext fun q => ?_⟩
  · rw [column_write]
    show _ = Function.update (column memory i) dst (dst.stored x) q
    by_cases hq : q = dst
    · rw [if_pos ⟨hq, rfl⟩, hq, Function.update_self]
    · rw [if_neg fun h => hq h.1, Function.update_of_ne hq]
  · rw [column_write, if_neg fun h => hj h.2]

variable [DoubleOps D] [FloatOps S]

/-- `x != 0`. -/
def nonZero : S ⊕ D → Bool :=
  Sum.elim (fun x => FloatOps.ne x (FloatOps.lit 0)) fun x => DoubleOps.ne x (DoubleOps.lit 0)

omit [FloatCast D S] in
theorem Channel.isLive_eq (memory : AudioMemory D S) (i : Nat) (src : Channel) :
    src.isLive memory i = nonZero (column memory i src) := by
  cases src <;> rfl

/-! ## One channel -/

theorem applyGain_rewrites (gain : D) (src dst : Channel) (frames : Nat) (silent : Bool)
    (memory : AudioMemory D S) :
    Rewrites column frames
      (fun c => Function.update c dst (dst.stored (promoted (c src) * gain))) memory
      (applyGain gain src dst frames silent memory).2 := by
  have hloop : Rewrites (fun st : Bool × AudioMemory D S => column st.2) frames
      (fun c => Function.update c dst (dst.stored (promoted (c src) * gain))) (silent, memory)
      (applyGain gain src dst frames silent memory) := by
    refine frameLoop_rewrites (fun i st => ?_) frames (silent, memory)
    obtain ⟨hhere, hothers⟩ := rewritesAt_write st.2 dst i (src.read st.2 i * gain)
    exact ⟨hhere.trans (by rw [Channel.read_eq]), hothers⟩
  exact hloop

/-- The scan reads every sample before the pass writes over it. -/
theorem applyGain_silent (gain : D) (src dst : Channel) (frames : Nat) (silent : Bool)
    (memory : AudioMemory D S) :
    (applyGain gain src dst frames silent memory).1 = true ↔
      silent = true ∧ ∀ i < frames, src.isLive memory i = false := by
  have hloop : ∀ count start silent (memory : AudioMemory D S),
      (frameLoop (fun i st =>
        (st.1 && !src.isLive st.2 i, dst.write st.2 i (src.read st.2 i * gain)))
        start count (silent, memory)).1 = true ↔
        silent = true ∧ ∀ i, start ≤ i → i < start + count → src.isLive memory i = false := by
    intro count
    induction count with
    | zero => exact fun start silent memory =>
        ⟨fun h => ⟨h, fun i hle hlt => by omega⟩, fun h => h.1⟩
    | succ count ih =>
      intro start silent memory
      have hlater : ∀ i, start + 1 ≤ i →
          src.isLive (dst.write memory start (src.read memory start * gain)) i =
            src.isLive memory i := by
        intro i hi
        rw [Channel.isLive_eq, Channel.isLive_eq,
          (rewritesAt_write memory dst start _).2 i (by omega)]
      rw [frameLoop, ih, Bool.and_eq_true, Bool.not_eq_true', and_assoc]
      refine and_congr_right fun _ => ⟨fun h i hle hlt => ?_, fun h => ⟨?_, fun i hle hlt => ?_⟩⟩
      · rcases Nat.eq_or_lt_of_le hle with rfl | hlt'
        · exact h.1
        · rw [← hlater i hlt']
          exact h.2 i hlt' (by omega)
      · exact h start (Nat.le_refl _) (by omega)
      · rw [hlater i hle]
        exact h i (by omega) (by omega)
  refine (hloop frames 0 silent memory).trans (and_congr_right fun _ => ?_)
  exact ⟨fun h i hi => h i (Nat.zero_le i) (by omega), fun h i _ hi => h i (by omega)⟩

/-! ## All channels -/

/-- The assignments of the pass. -/
def gainSteps (gain : D) (pairs : List (Channel × Channel)) :
    List (Channel × ((Channel → S ⊕ D) → S ⊕ D)) :=
  pairs.map fun p => (p.2, fun c => p.2.stored (promoted (c p.1) * gain))

/-- No channel is written before it is read. -/
def ReadFirst (pairs : List (Channel × Channel)) : Prop := pairs.Pairwise fun a b => a.2 ≠ b.1

theorem gainChannels_eq (gain : D) {input output : AudioBuffer} (frames : Nat)
    {pairs : List (Channel × Channel)} :
    ∀ {ch : Nat} (_ : LooksUp (channel input) ch (pairs.map Prod.fst))
      (_ : LooksUp (channel output) ch (pairs.map Prod.snd)) (silent : Bool)
      (memory : AudioMemory D S), ∃ silent' memory',
        gainChannels gain input output frames ch pairs.length (silent, memory) =
          .ok (silent', memory') ∧
        Rewrites column frames (fun c => assignInTurn c (gainSteps gain pairs)) memory memory' ∧
        (ReadFirst pairs → (silent' = true ↔
          silent = true ∧ ∀ p ∈ pairs, ∀ i < frames, p.1.isLive memory i = false)) := by
  induction pairs with
  | nil =>
    exact fun _ _ silent memory => ⟨silent, memory, rfl, Rewrites.refl frames memory,
      fun _ => ⟨fun h => ⟨h, nofun⟩, fun h => h.1⟩⟩
  | cons pair pairs ih =>
    intro ch hin hout silent memory
    obtain ⟨hsrc, hin'⟩ := LooksUp.cons hin
    obtain ⟨hdst, hout'⟩ := LooksUp.cons hout
    have hfirst := applyGain_rewrites gain pair.1 pair.2 frames silent memory
    obtain ⟨silent', memory', hpass, hrewrites, hsilent⟩ := ih hin' hout'
      (applyGain gain pair.1 pair.2 frames silent memory).1
      (applyGain gain pair.1 pair.2 frames silent memory).2
    refine ⟨silent', memory', ?_, hfirst.trans hrewrites, fun hread => ?_⟩
    · rw [List.length_cons, gainChannels, hsrc, hdst]
      exact hpass
    · obtain ⟨hne, hread⟩ := List.pairwise_cons.mp hread
      -- the first channel's output is no input that is still to be scanned
      have hkept : ∀ p ∈ pairs, ∀ i,
          p.1.isLive (applyGain gain pair.1 pair.2 frames silent memory).2 i =
            p.1.isLive memory i := by
        intro p hp i
        rw [Channel.isLive_eq, Channel.isLive_eq, hfirst i]
        split
        · dsimp only
          rw [Function.update_of_ne (Ne.symm (hne p hp))]
        · rfl
      rw [hsilent hread, applyGain_silent, and_assoc, List.forall_mem_cons]
      refine and_congr_right fun _ => and_congr_right fun _ => ?_
      exact ⟨fun h p hp i hi => (hkept p hp i).symm.trans (h p hp i hi),
        fun h p hp i hi => (hkept p hp i).trans (h p hp i hi)⟩

/-- A pass that ends has found its channels. -/
theorem gainChannels_ok {gain : D} {input output : AudioBuffer} {frames : Nat} {count : Nat} :
    ∀ {ch : Nat} {acc r : Bool × AudioMemory D S},
      gainChannels gain input output frames ch count acc = .ok r →
        ∃ pairs : List (Channel × Channel), pairs.length = count ∧
          LooksUp (channel input) ch (pairs.map Prod.fst) ∧
          LooksUp (channel output) ch (pairs.map Prod.snd) := by
  induction count with
  | zero => exact fun _ => ⟨[], rfl, nofun, nofun⟩
  | succ count ih =>
    intro ch acc r h
    obtain ⟨src, hsrc, h⟩ := Except.bind_eq_ok h
    obtain ⟨dst, hdst, h⟩ := Except.bind_eq_ok h
    obtain ⟨pairs, hlen, hin, hout⟩ := ih h
    exact ⟨(src, dst) :: pairs, congrArg Nat.succ hlen, hin.cons_of hsrc, hout.cons_of hdst⟩

end EffectPlugin

end Cvp
