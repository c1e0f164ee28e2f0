/-
  `SineEngine::renderImpl` taken apart: a voice yields samples that do not depend on the channel
  memory (`voiceChunk`), and the memory takes them up column by column (`mixAll`). Writes to
  different columns commute, so rendering a range in two parts is rendering it at once
  (`renderImpl_split`), although the parts interleave voices and frames differently.
-/
import ClapValidatorPlugins.Plugins.SineEngine

namespace Cvp

variable {D S T : Type}

/-! ## Columns -/

section Columns

variable [SampleOps D T] (left : Ptr) (right : Option Ptr)

open SineEngine (mix)

theorem mix_of_ne {i k : Nat} (h : k ≠ i) (x : D) (m : Plane T) (q : Ptr) :
    mix left right i x m q k = m q k := by
  cases right with
  | none => exact if_neg fun hqk => h hqk.2
  | some r => exact (if_neg fun hqk => h hqk.2).trans (if_neg fun hqk => h hqk.2)

/-- What `mix` puts into a column depends on that column only. -/
theorem mix_congr {i : Nat} {m m' : Plane T} (h : ∀ q, m q i = m' q i) (x : D) (q : Ptr) :
    mix left right i x m q i = mix left right i x m' q i := by
  have hleft : ∀ q, (m.write left i (SampleOps.add D (m left i) (SampleOps.ofDouble x))) q i =
      (m'.write left i (SampleOps.add D (m' left i) (SampleOps.ofDouble x))) q i := by
    intro q
    unfold Plane.write
    rw [h left, h q]
  cases right with
  | none => exact hleft q
  | some r =>
    unfold mix
    dsimp only
    rw [hleft r]
    show (if q = r ∧ i = i then _ else _) = if q = r ∧ i = i then _ else _
    rw [hleft q]

theorem mix_comm {i j : Nat} (h : i ≠ j) (x y : D) (m : Plane T) :
    mix left right i x (mix left right j y m) = mix left right j y (mix left right i x m) := by
  funext q k
  by_cases hi : k = i
  · subst hi
    rw [mix_of_ne left right h]
    exact mix_congr left right (fun q => mix_of_ne left right h y m q) x q
  · rw [mix_of_ne left right hi]
    by_cases hj : k = j
    · subst hj
      exact mix_congr left right (fun q => (mix_of_ne left right hi x m q).symm) y q
    · rw [mix_of_ne left right hj, mix_of_ne left right hj, mix_of_ne left right hi]

/-- Samples mixed into the columns from `i` on. -/
def mixAll : Nat → List D → Plane T → Plane T
  | _, [], m => m
  | i, x :: xs, m => mixAll (i + 1) xs (mix left right i x m)

theorem mixAll_append (xs ys : List D) :
    ∀ (i : Nat) (m : Plane T), mixAll left right i (xs ++ ys) m =
      mixAll left right (i + xs.length) ys (mixAll left right i xs m) := by
  induction xs with
  | nil => exact fun i m => rfl
  | cons x xs ih =>
    intro i m
    have hi : i + 1 + xs.length = i + (x :: xs).length := by
      rw [List.length_cons]
      omega
    rw [List.cons_append, mixAll, ih, hi, mixAll]

theorem mix_mixAll_comm (x : D) (ys : List D) :
    ∀ {i j : Nat} (_ : i < j) (m : Plane T), mix left right i x (mixAll left right j ys m) =
      mixAll left right j ys (mix left right i x m) := by
  induction ys with
  | nil => exact fun _ _ => rfl
  | cons y ys ih =>
    intro i j h m
    rw [mixAll, ih (by omega), mix_comm left right (by omega), mixAll]

/-- Columns below `j` and columns from `j` on. -/
theorem mixAll_comm (xs ys : List D) :
    ∀ {i j : Nat} (_ : i + xs.length ≤ j) (m : Plane T),
      mixAll left right i xs (mixAll left right j ys m) =
        mixAll left right j ys (mixAll left right i xs m) := by
  induction xs with
  | nil => exact fun _ _ => rfl
  | cons x xs ih =>
    intro i j h m
    rw [List.length_cons] at h
    rw [mixAll, mix_mixAll_comm left right x ys (by omega), ih (by omega), mixAll]

end Columns

/-! ## One voice -/

section Voices

variable [DoubleOps D] [FloatOps S] [FloatCast D S]

open SineEngine (voiceFrame level)

/-- The samples a voice yields in `count` frames; they end where its release ends. -/
def voiceSamples (level : S) : Nat → Voice D S → Voice D S × List D
  | 0, v => (v, [])
  | count + 1, v =>
    match voiceFrame level v with
    | (v, none) => (v, [])
    | (v, some x) => ((voiceSamples level count v).1, x :: (voiceSamples level count v).2)

/-- An inactive voice is passed over. -/
def voiceChunk (gain globalMod : S) (count : Nat) (v : Voice D S) : Voice D S × List D :=
  if v.active then voiceSamples (level gain globalMod v) count v else (v, [])

theorem voiceFrame_modGain (level : S) (v : Voice D S) :
    (voiceFrame level v).1.modGain = v.modGain := by
  unfold voiceFrame
  dsimp only
  split_ifs <;> rfl

/-- A frame without a sample is the end of the voice. -/
theorem voiceFrame_active (level : S) (v : Voice D S) (h : v.active = true) :
    (voiceFrame level v).1.active = (voiceFrame level v).2.isSome := by
  unfold voiceFrame
  dsimp only
  split_ifs
  · rfl
  · exact h
  · exact h

theorem voiceSamples_modGain (level : S) (count : Nat) :
    ∀ v : Voice D S, (voiceSamples level count v).1.modGain = v.modGain := by
  induction count with
  | zero => exact fun v => rfl
  | succ count ih =>
    intro v
    have hframe := voiceFrame_modGain level v
    rw [voiceSamples]
    revert hframe
    rcases voiceFrame level v with ⟨w, _ | x⟩
    · exact id
    · exact fun h => (ih w).trans h

theorem voiceSamples_length_le (level : S) (count : Nat) :
    ∀ v : Voice D S, (voiceSamples level count v).2.length ≤ count := by
  induction count with
  | zero => exact fun v => Nat.le_refl 0
  | succ count ih =>
    intro v
    rw [voiceSamples]
    rcases voiceFrame level v with ⟨w, _ | x⟩
    · exact Nat.zero_le _
    · exact Nat.succ_le_succ (ih w)

/-- A voice that is still active has yielded a sample for every frame. -/
theorem voiceSamples_length (level : S) (count : Nat) :
    ∀ v : Voice D S, v.active = true → (voiceSamples level count v).1.active = true →
      (voiceSamples level count v).2.length = count := by
  induction count with
  | zero => exact fun v _ _ => rfl
  | succ count ih =>
    intro v hv
    have hframe := voiceFrame_active level v hv
    rw [voiceSamples]
    revert hframe
    rcases voiceFrame level v with ⟨w, _ | x⟩
    · intro hend hw
      rw [hend] at hw
      cases hw
    · intro hgo hw
      exact congrArg (· + 1) (ih w hgo hw)

theorem voiceSamples_add (level : S) (a b : Nat) :
    ∀ v : Voice D S, v.active = true →
      voiceSamples level (a + b) v =
        if (voiceSamples level a v).1.active then
          ((voiceSamples level b (voiceSamples level a v).1).1,
            (voiceSamples level a v).2 ++ (voiceSamples level b (voiceSamples level a v).1).2)
        else voiceSamples level a v := by
  induction a with
  | zero =>
    intro v hv
    rw [Nat.zero_add, show voiceSamples level 0 v = (v, []) from rfl, if_pos hv]
    rfl
  | succ a ih =>
    intro v hv
    have hframe := voiceFrame_active level v hv
    rw [Nat.succ_add, voiceSamples, voiceSamples]
    revert hframe
    rcases voiceFrame level v with ⟨w, _ | x⟩
    · intro hend
      exact (if_neg (by rw [hend]; exact Bool.false_ne_true)).symm
    · intro hgo
      dsimp only
      rw [ih w hgo]
      split
      · rfl
      · rfl

/-- Two chunks of a voice in a row. -/
theorem voiceChunk_add (gain globalMod : S) (a b : Nat) (v : Voice D S) :
    voiceChunk gain globalMod (a + b) v =
      ((voiceChunk gain globalMod b (voiceChunk gain globalMod a v).1).1,
        (voiceChunk gain globalMod a v).2 ++
          (voiceChunk gain globalMod b (voiceChunk gain globalMod a v).1).2) := by
  by_cases hv : v.active = true
  · have hchunk : ∀ n, voiceChunk gain globalMod n v =
        voiceSamples (level gain globalMod v) n v := fun n => if_pos hv
    have hlevel : level gain globalMod (voiceSamples (level gain globalMod v) a v).1 =
        level gain globalMod v := by
      unfold level
      rw [voiceSamples_modGain]
    rw [hchunk, hchunk, voiceSamples_add _ a b v hv]
    by_cases hw : (voiceSamples (level gain globalMod v) a v).1.active = true
    · rw [if_pos hw, voiceChunk, if_pos hw, hlevel]
    · rw [if_neg hw, voiceChunk, if_neg hw, List.append_nil]
  · have hchunk : ∀ n, voiceChunk gain globalMod n v = (v, []) := fun n => if_neg hv
    rw [hchunk, hchunk, hchunk]
    rfl

theorem voiceChunk_length_le (gain globalMod : S) (count : Nat) (v : Voice D S) :
    (voiceChunk gain globalMod count v).2.length ≤ count := by
  unfold voiceChunk
  split
  · exact voiceSamples_length_le _ count v
  · exact Nat.zero_le count

/-- A voice that yields anything in a second chunk has filled the first one. -/
theorem voiceChunk_length (gain globalMod : S) (a b : Nat) (v : Voice D S)
    (h : (voiceChunk gain globalMod b (voiceChunk gain globalMod a v).1).2 ≠ []) :
    (voiceChunk gain globalMod a v).2.length = a := by
  by_cases hv : v.active = true
  · have hchunk : voiceChunk gain globalMod a v = voiceSamples (level gain globalMod v) a v :=
      if_pos hv
    rw [hchunk] at h ⊢
    by_cases hw : (voiceSamples (level gain globalMod v) a v).1.active = true
    · exact voiceSamples_length _ a v hv hw
    · rw [voiceChunk, if_neg hw] at h
      exact absurd rfl h
  · have hchunk : ∀ n, voiceChunk gain globalMod n v = (v, []) := fun n => if_neg hv
    rw [hchunk, hchunk] at h
    exact absurd rfl h

/-! ## All voices -/

variable [SampleOps D T] (left : Ptr) (right : Option Ptr)

open SineEngine (renderVoice renderVoices renderImpl passes)

theorem renderVoice_eq (level : S) (count : Nat) :
    ∀ (i : Nat) (v : Voice D S) (m : Plane T),
      renderVoice left right level i count v m =
        ((voiceSamples level count v).1, mixAll left right i (voiceSamples level count v).2 m) := by
  induction count with
  | zero => exact fun i v m => rfl
  | succ count ih =>
    intro i v m
    rw [renderVoice, voiceSamples]
    rcases voiceFrame level v with ⟨w, _ | x⟩
    · rfl
    · exact ih (i + 1) w _

theorem renderVoices_cons (gain globalMod : S) (o count : Nat) (v : Voice D S)
    (vs : List (Voice D S)) (m : Plane T) :
    renderVoices left right gain globalMod o count (v :: vs) m =
      ((voiceChunk gain globalMod count v).1 ::
          (renderVoices left right gain globalMod o count vs
            (mixAll left right o (voiceChunk gain globalMod count v).2 m)).1,
        (renderVoices left right gain globalMod o count vs
          (mixAll left right o (voiceChunk gain globalMod count v).2 m)).2) := by
  rw [renderVoices, voiceChunk]
  split
  · rw [renderVoice_eq]
  · rfl

/-- Rendering leaves the columns behind its range to others. -/
theorem renderVoices_mixAll (gain globalMod : S) {o count j : Nat} (h : o + count ≤ j)
    (ys : List D) (vs : List (Voice D S)) :
    ∀ m : Plane T, renderVoices left right gain globalMod o count vs (mixAll left right j ys m) =
      ((renderVoices left right gain globalMod o count vs m).1,
        mixAll left right j ys (renderVoices left right gain globalMod o count vs m).2) := by
  induction vs with
  | nil => exact fun m => rfl
  | cons v vs ih =>
    intro m
    have hlen := voiceChunk_length_le gain globalMod count v
    rw [renderVoices_cons, renderVoices_cons, mixAll_comm left right _ ys (by omega), ih]

/-- The chunk of a voice in two parts, each in its columns. -/
theorem mixAll_voiceChunk_add (gain globalMod : S) (o a b : Nat) (v : Voice D S) (m : Plane T) :
    mixAll left right o (voiceChunk gain globalMod (a + b) v).2 m =
      mixAll left right (o + a) (voiceChunk gain globalMod b (voiceChunk gain globalMod a v).1).2
        (mixAll left right o (voiceChunk gain globalMod a v).2 m) := by
  rw [voiceChunk_add, mixAll_append]
  by_cases hnil : (voiceChunk gain globalMod b (voiceChunk gain globalMod a v).1).2 = []
  · rw [hnil]
    rfl
  · rw [voiceChunk_length gain globalMod a b v hnil]

theorem renderVoices_add (gain globalMod : S) (o a b : Nat) (vs : List (Voice D S)) :
    ∀ m : Plane T, renderVoices left right gain globalMod o (a + b) vs m =
      renderVoices left right gain globalMod (o + a) b
        (renderVoices left right gain globalMod o a vs m).1
        (renderVoices left right gain globalMod o a vs m).2 := by
  induction vs with
  | nil => exact fun m => rfl
  | cons v vs ih =>
    intro m
    -- the second chunk of `v` moves past the first chunk of the voices behind it
    rw [renderVoices_cons, ih, mixAll_voiceChunk_add,
      renderVoices_mixAll left right gain globalMod (Nat.le_refl (o + a)),
      renderVoices_cons left right gain globalMod o a, renderVoices_cons, voiceChunk_add]

theorem renderVoices_fst (gain globalMod : S) (o count : Nat) (vs : List (Voice D S)) :
    ∀ m : Plane T, (renderVoices left right gain globalMod o count vs m).1 =
      vs.map fun v => (voiceChunk gain globalMod count v).1 := by
  induction vs with
  | nil => exact fun m => rfl
  | cons v vs ih =>
    intro m
    rw [renderVoices_cons, List.map_cons, ih]

theorem passes_of_lt {o count : Nat} (h : o + count < 2 ^ 32) : passes o count = count := by
  rw [passes, Nat.mod_eq_of_lt h]
  omega

omit [DoubleOps D] [FloatOps S] [FloatCast D S] in
/-- Two engines with the same fields. -/
theorem SineEngine.eq_of_voices {e : SineEngine D S} {vs ws : List (Voice D S)} (h : vs = ws)
    (hv : vs.length = kMaxVoices) (hw : ws.length = kMaxVoices) :
    ({ e with voices := vs, slots := hv } : SineEngine D S) =
      { e with voices := ws, slots := hw } := by
  subst h
  rfl

/-- Rendering `[o, o + a + b)` is rendering `[o, o + a)` and then `[o + a, o + a + b)`. -/
theorem renderImpl_split (e : SineEngine D S) {o a b : Nat} (h : o + a + b < 2 ^ 32) (gain : S)
    (m : Plane T) :
    e.renderImpl left right o (a + b) gain m =
      (e.renderImpl left right o a gain m).1.renderImpl left right (o + a) b gain
        (e.renderImpl left right o a gain m).2 := by
  have hsplit := renderVoices_add left right gain e.globalMod o a b e.voices m
  have hwhole : passes o (a + b) = a + b := passes_of_lt (by omega)
  have hfirst : passes o a = a := passes_of_lt (by omega)
  have hsecond : passes (o + a) b = b := passes_of_lt h
  have hvoices : renderVoices left right gain e.globalMod o (passes o (a + b)) e.voices m =
      renderVoices left right gain e.globalMod (o + a) (passes (o + a) b)
        (renderVoices left right gain e.globalMod o (passes o a) e.voices m).1
        (renderVoices left right gain e.globalMod o (passes o a) e.voices m).2 := by
    rw [hwhole, hfirst, hsecond, hsplit]
  have hplane := congrArg Prod.snd hvoices
  exact Prod.ext (SineEngine.eq_of_voices (congrArg Prod.fst hvoices) _ _) hplane

theorem renderVoices_zero (gain globalMod : S) (o : Nat) (vs : List (Voice D S)) (m : Plane T) :
    renderVoices left right gain globalMod o 0 vs m = (vs, m) := by
  induction vs with
  | nil => rfl
  | cons v vs ih =>
    have hchunk : voiceChunk gain globalMod 0 v = (v, []) := by
      unfold voiceChunk
      split <;> rfl
    rw [renderVoices_cons, hchunk]
    show (v :: (renderVoices left right gain globalMod o 0 vs m).1,
      (renderVoices left right gain globalMod o 0 vs m).2) = (v :: vs, m)
    rw [ih]

/-- Nothing to render. -/
theorem renderImpl_zero (e : SineEngine D S) {o : Nat} (h : o < 2 ^ 32) (gain : S) (m : Plane T) :
    e.renderImpl left right o 0 gain m = (e, m) := by
  have hpasses : passes o 0 = 0 := passes_of_lt h
  have hzero : renderVoices left right gain e.globalMod o (passes o 0) e.voices m =
      (e.voices, m) := by
    rw [hpasses]
    exact renderVoices_zero left right gain e.globalMod o e.voices m
  have hplane := congrArg Prod.snd hzero
  exact Prod.ext (SineEngine.eq_of_voices (congrArg Prod.fst hzero) _ e.slots) hplane

end Voices

end Cvp
