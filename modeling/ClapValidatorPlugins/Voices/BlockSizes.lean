/-
  The Synth flavor and the size of the blocks. A host may cut the time line into blocks as it
  likes: with the events handed to the block they fall into, counted from its start, the frames
  that come out are the same, and so is the plugin behind them (`blocks_make_no_difference`), as
  long as the volume stays: it is read at the start of a block, for all of it. The flags of ended
  voices are cleared with each block, so on the way the two differ by these.
-/
import ClapValidatorPlugins.Voices.Cutting

namespace Cvp

/-! ## The engine up to the flags of ended voices -/

section Engine

variable {D S T : Type}

/-- The voice without `justEnded`. -/
def Voice.unflagged (v : Voice D S) : Voice D S := { v with justEnded := false }

def SineEngine.unflagged (e : SineEngine D S) : SineEngine D S := e.mapVoices Voice.unflagged

theorem SineEngine.eq_iff {e e' : SineEngine D S} : e = e' ↔ e.voices = e'.voices ∧
    e.sampleRate = e'.sampleRate ∧ e.clock = e'.clock ∧ e.globalMod = e'.globalMod := by
  cases e
  cases e'
  simp

/-- What a loop body makes of a voice does not depend on the flag. -/
def Voice.Blind (f : Voice D S → Voice D S) : Prop :=
  ∀ v, (f v.unflagged).unflagged = (f v).unflagged

/-- What a call makes of the engine does not depend on the flags. -/
def SineEngine.Blind (f : SineEngine D S → SineEngine D S) : Prop :=
  ∀ e, (f e.unflagged).unflagged = (f e).unflagged

theorem SineEngine.Blind.alike {f : SineEngine D S → SineEngine D S} (h : SineEngine.Blind f)
    {e e' : SineEngine D S} (hee : e.unflagged = e'.unflagged) :
    (f e).unflagged = (f e').unflagged := by
  rw [← h e, hee, h e']

theorem SineEngine.mapVoices_blind {f : Voice D S → Voice D S} (hf : Voice.Blind f) :
    SineEngine.Blind (fun e => e.mapVoices f) := by
  intro e
  refine eq_iff.mpr ⟨?_, rfl, rfl, rfl⟩
  show ((e.voices.map Voice.unflagged).map f).map Voice.unflagged =
    (e.voices.map f).map Voice.unflagged
  rw [List.map_map, List.map_map, List.map_map]
  exact List.map_congr_left fun v _ => hf v

theorem SineEngine.unflagged_unflagged (e : SineEngine D S) :
    e.unflagged.unflagged = e.unflagged := by
  refine eq_iff.mpr ⟨?_, rfl, rfl, rfl⟩
  show (e.voices.map Voice.unflagged).map Voice.unflagged = e.voices.map Voice.unflagged
  rw [List.map_map]
  rfl

theorem oldestFrom_unflagged (voices : List (Voice D S)) : ∀ (best : Nat) (age : UInt32) (i : Nat),
    SineEngine.oldestFrom best age i (voices.map Voice.unflagged) =
      SineEngine.oldestFrom best age i voices := by
  induction voices with
  | nil => exact fun _ _ _ => rfl
  | cons v vs ih =>
    intro best age i
    rw [List.map_cons, SineEngine.oldestFrom, SineEngine.oldestFrom, ih, ih]
    rfl

theorem targetSlot_unflagged (voices : List (Voice D S)) :
    SineEngine.targetSlot (voices.map Voice.unflagged) = SineEngine.targetSlot voices := by
  have holdest : SineEngine.oldest (voices.map Voice.unflagged) = SineEngine.oldest voices := by
    cases voices with
    | nil => rfl
    | cons v vs => exact oldestFrom_unflagged (v :: vs) 0 v.age 0
  unfold SineEngine.targetSlot
  rw [List.findIdx?_map, holdest]
  rfl

theorem Voice.releaseVoice_blind (key channel noteId : Int) (choke : Bool) :
    Voice.Blind (SineEngine.releaseVoice (D := D) (S := S) key channel noteId choke) := by
  intro v
  unfold SineEngine.releaseVoice
  rw [show v.unflagged.active = v.active from rfl,
    show v.unflagged.matchesAddress key channel noteId = v.matchesAddress key channel noteId from
      rfl]
  split_ifs <;> rfl

variable [FloatCast D S]

theorem Voice.modulateVoice_blind (key channel noteId : Int) (amount : D) :
    Voice.Blind (SineEngine.modulateVoice (D := D) (S := S) key channel noteId amount) := by
  intro v
  unfold SineEngine.modulateVoice
  rw [show v.unflagged.active = v.active from rfl,
    show v.unflagged.matchesAddress key channel noteId = v.matchesAddress key channel noteId from
      rfl]
  split_ifs <;> rfl

variable [DoubleOps D] [FloatOps S]

theorem SineEngine.noteOn_blind (key channel noteId : Int) (velocity : D) :
    SineEngine.Blind (fun e : SineEngine D S => e.noteOn key channel noteId velocity) := by
  intro e
  refine eq_iff.mpr ⟨?_, rfl, rfl, rfl⟩
  show ((e.voices.map Voice.unflagged).set (targetSlot (e.voices.map Voice.unflagged)) _).map
    Voice.unflagged = (e.voices.set (targetSlot e.voices) _).map Voice.unflagged
  rw [List.map_set, List.map_set, targetSlot_unflagged, List.map_map]
  rfl

theorem SineEngine.handleEvent_blind (header : Event D) :
    SineEngine.Blind (fun e : SineEngine D S => e.handleEvent header) := by
  intro e
  dsimp only
  unfold SineEngine.handleEvent
  split
  · exact unflagged_unflagged e
  · split
    · exact noteOn_blind _ _ _ _ e
    · exact mapVoices_blind (Voice.releaseVoice_blind _ _ _ _) e
    · exact mapVoices_blind (Voice.releaseVoice_blind _ _ _ _) e
    · unfold handleMidi
      dsimp only
      split_ifs
      · exact noteOn_blind _ _ _ _ e
      · exact mapVoices_blind (Voice.releaseVoice_blind _ _ _ _) e
      · exact unflagged_unflagged e
    · exact unflagged_unflagged e

omit [DoubleOps D] [FloatOps S] in
theorem SineEngine.modulate_blind (key channel noteId : Int) (amount : D) :
    SineEngine.Blind (fun e : SineEngine D S => e.modulate key channel noteId amount) := by
  intro e
  dsimp only
  unfold SineEngine.modulate
  split_ifs
  · exact congrArg (fun e : SineEngine D S => { e with globalMod := FloatCast.toFloat amount })
      (unflagged_unflagged e)
  · exact mapVoices_blind (Voice.modulateVoice_blind _ _ _ _) e

/-! ## Rendering -/

theorem voiceFrame_unflagged (level : S) (v : Voice D S) :
    (SineEngine.voiceFrame level v.unflagged).1.unflagged =
        (SineEngine.voiceFrame level v).1.unflagged ∧
      (SineEngine.voiceFrame level v.unflagged).2 = (SineEngine.voiceFrame level v).2 := by
  unfold SineEngine.voiceFrame
  by_cases hr : v.releasing = true
  · have hr' : v.unflagged.releasing = true := hr
    dsimp only
    rw [if_pos hr, if_pos hr']
    by_cases hle : FloatOps.le (v.releaseGain - v.releaseStep) (FloatOps.lit 0) = true
    · have hle' : FloatOps.le (v.unflagged.releaseGain - v.unflagged.releaseStep)
          (FloatOps.lit 0) = true := hle
      rw [if_pos hle, if_pos hle']
      exact ⟨rfl, rfl⟩
    · have hle' : ¬ FloatOps.le (v.unflagged.releaseGain - v.unflagged.releaseStep)
          (FloatOps.lit 0) = true := hle
      rw [if_neg hle, if_neg hle']
      exact ⟨rfl, rfl⟩
  · have hr' : ¬ v.unflagged.releasing = true := hr
    dsimp only
    rw [if_neg hr, if_neg hr']
    exact ⟨rfl, rfl⟩

theorem voiceSamples_unflagged (level : S) (count : Nat) : ∀ v w : Voice D S,
    v.unflagged = w.unflagged →
      (voiceSamples level count v).1.unflagged = (voiceSamples level count w).1.unflagged ∧
        (voiceSamples level count v).2 = (voiceSamples level count w).2 := by
  induction count with
  | zero => exact fun v w h => ⟨h, rfl⟩
  | succ count ih =>
    intro v w h
    obtain ⟨hv, hv'⟩ := voiceFrame_unflagged level v
    obtain ⟨hw, hw'⟩ := voiceFrame_unflagged level w
    rw [h] at hv hv'
    have hframe := hv.symm.trans hw
    have hsample := hv'.symm.trans hw'
    unfold voiceSamples
    cases hfv : SineEngine.voiceFrame level v with
    | mk v₁ sample =>
      cases hfw : SineEngine.voiceFrame level w with
      | mk w₁ sample' =>
        rw [hfv, hfw] at hframe hsample
        obtain rfl : sample = sample' := hsample
        cases sample with
        | none => exact ⟨hframe, rfl⟩
        | some sample =>
          obtain ⟨hrest, hsamples⟩ := ih v₁ w₁ hframe
          exact ⟨hrest, congrArg (sample :: ·) hsamples⟩

theorem voiceChunk_unflagged (gain globalMod : S) (count : Nat) (v : Voice D S) :
    (voiceChunk gain globalMod count v.unflagged).1.unflagged =
        (voiceChunk gain globalMod count v).1.unflagged ∧
      (voiceChunk gain globalMod count v.unflagged).2 = (voiceChunk gain globalMod count v).2 := by
  unfold voiceChunk
  rw [show v.unflagged.active = v.active from rfl]
  split
  · exact voiceSamples_unflagged _ count _ _ rfl
  · exact ⟨rfl, rfl⟩

variable [SampleOps D T] {left : Ptr} {right : Option Ptr}

/-- The channels of a block. -/
def channelsOf (left : Ptr) (right : Option Ptr) : List Ptr := left :: right.toList

omit [DoubleOps D] in
theorem mix_window {k n i : Nat} (hi : i < n) (x : D) {m m' : Plane T}
    (h : Window (channelsOf left right) k n m m') :
    Window (channelsOf left right) k n (SineEngine.mix left right (k + i) x m)
      (SineEngine.mix left right i x m') := by
  intro p hp j hj
  by_cases hji : j = i
  · subst hji
    have hleft := h left List.mem_cons_self j hj
    cases right with
    | none =>
      obtain rfl := List.mem_singleton.mp hp
      simp [SineEngine.mix, Plane.write, hleft]
    | some r =>
      have hright := h r (by simp [channelsOf]) j hj
      unfold SineEngine.mix
      simp only [Plane.write, and_true, hleft, hright, h p hp j hj]
  · rw [mix_of_ne left right hji, mix_of_ne left right (by omega)]
    exact h p hp j hj

omit [DoubleOps D] in
theorem mixAll_window {k n : Nat} (xs : List D) : ∀ {i : Nat} (_ : i + xs.length ≤ n)
    {m m' : Plane T}, Window (channelsOf left right) k n m m' →
      Window (channelsOf left right) k n (mixAll left right (k + i) xs m)
        (mixAll left right i xs m') := by
  induction xs with
  | nil => exact fun _ _ _ h => h
  | cons x xs ih =>
    intro i hi m m' h
    rw [List.length_cons] at hi
    exact ih (by omega) (mix_window (by omega) x h)

omit [DoubleOps D] in
theorem mixAll_column (xs : List D) (p : Ptr) {j : Nat} : ∀ {i : Nat}
    (_ : j < i ∨ i + xs.length ≤ j) (m : Plane T),
      mixAll left right i xs m p j = m p j := by
  induction xs with
  | nil => exact fun _ _ => rfl
  | cons x xs ih =>
    intro i hi m
    rw [List.length_cons] at hi
    rw [mixAll, ih (by omega), mix_of_ne left right (by omega)]

theorem renderVoices_window (gain globalMod : S) {k n o count : Nat} (h : o + count ≤ n)
    (vs : List (Voice D S)) : ∀ (ws : List (Voice D S)) {m m' : Plane T},
      vs.map Voice.unflagged = ws.map Voice.unflagged →
      Window (channelsOf left right) k n m m' →
      Window (channelsOf left right) k n
        (SineEngine.renderVoices left right gain globalMod (k + o) count vs m).2
        (SineEngine.renderVoices left right gain globalMod o count ws m').2 := by
  induction vs with
  | nil =>
    intro ws m m' hvs hm
    obtain rfl : ws = [] := List.map_eq_nil_iff.mp hvs.symm
    exact hm
  | cons v vs ih =>
    intro ws m m' hvs hm
    cases ws with
    | nil => cases hvs
    | cons w ws =>
      obtain ⟨hv, hrest⟩ := List.cons.inj hvs
      have hsamples : (voiceChunk gain globalMod count v).2 =
          (voiceChunk gain globalMod count w).2 := by
        rw [← (voiceChunk_unflagged gain globalMod count v).2, hv,
          (voiceChunk_unflagged gain globalMod count w).2]
      have hlen := voiceChunk_length_le gain globalMod count w
      rw [renderVoices_cons, renderVoices_cons, hsamples]
      exact ih ws hrest (mixAll_window _ (by omega) hm)

theorem renderVoices_column (gain globalMod : S) {o count : Nat} (p : Ptr) {i : Nat}
    (h : i < o ∨ o + count ≤ i) (vs : List (Voice D S)) : ∀ m : Plane T,
      (SineEngine.renderVoices left right gain globalMod o count vs m).2 p i = m p i := by
  induction vs with
  | nil => exact fun m => rfl
  | cons v vs ih =>
    intro m
    have hlen := voiceChunk_length_le gain globalMod count v
    rw [renderVoices_cons, ih, mixAll_column _ p (by omega)]

theorem renderImpl_voices (e : SineEngine D S) {o a : Nat} (h : o + a < 2 ^ 32) (gain : S)
    (m : Plane T) : (e.renderImpl left right o a gain m).1.voices =
      e.voices.map fun v => (voiceChunk gain e.globalMod a v).1 := by
  show (SineEngine.renderVoices left right gain e.globalMod o (SineEngine.passes o a) e.voices
    m).1 = _
  rw [passes_of_lt h, renderVoices_fst]

theorem renderImpl_memory (e : SineEngine D S) {o a : Nat} (h : o + a < 2 ^ 32) (gain : S)
    (m : Plane T) : (e.renderImpl left right o a gain m).2 =
      (SineEngine.renderVoices left right gain e.globalMod o a e.voices m).2 := by
  show (SineEngine.renderVoices left right gain e.globalMod o (SineEngine.passes o a) e.voices
    m).2 = _
  rw [passes_of_lt h]

/-- A range of a long block and one of a short block, by engines that differ in flags only. -/
theorem renderImpl_window {e e' : SineEngine D S} (he : e.unflagged = e'.unflagged) {k n o a : Nat}
    (h : o + a ≤ n) (hk : k + n < 2 ^ 32) (gain : S) {m m' : Plane T}
    (hm : Window (channelsOf left right) k n m m') :
    (e.renderImpl left right (k + o) a gain m).1.unflagged =
        (e'.renderImpl left right o a gain m').1.unflagged ∧
      Window (channelsOf left right) k n (e.renderImpl left right (k + o) a gain m).2
        (e'.renderImpl left right o a gain m').2 := by
  obtain ⟨hvoices, hrate, hclock, hmod⟩ := SineEngine.eq_iff.mp he
  have hmod' : e.globalMod = e'.globalMod := hmod
  have hchunk (vs : List (Voice D S)) :
      (vs.map fun v => (voiceChunk gain e'.globalMod a v).1).map Voice.unflagged =
        (vs.map Voice.unflagged).map fun v => (voiceChunk gain e'.globalMod a v).1.unflagged := by
    rw [List.map_map, List.map_map]
    exact List.map_congr_left fun v _ => (voiceChunk_unflagged gain e'.globalMod a v).1.symm
  constructor
  · refine SineEngine.eq_iff.mpr ⟨?_, hrate, hclock, hmod⟩
    show (e.renderImpl left right (k + o) a gain m).1.voices.map Voice.unflagged =
      (e'.renderImpl left right o a gain m').1.voices.map Voice.unflagged
    rw [renderImpl_voices e (by omega), renderImpl_voices e' (by omega), hmod', hchunk, hchunk]
    exact congrArg (List.map _) hvoices
  · rw [renderImpl_memory e (by omega), renderImpl_memory e' (by omega), hmod']
    exact renderVoices_window gain e'.globalMod h _ _ hvoices hm

theorem renderImpl_column (e : SineEngine D S) {o a : Nat} (h : o + a < 2 ^ 32) (gain : S)
    (m : Plane T) (p : Ptr) {i : Nat} (hi : i < o ∨ o + a ≤ i) :
    (e.renderImpl left right o a gain m).2 p i = m p i := by
  rw [renderImpl_memory e h]
  exact renderVoices_column gain e.globalMod p hi e.voices m

end Engine

/-! ## Cleared memory -/

section Cleared

variable {T : Type}

theorem clearSamples_apply (zero : T) (dst : Ptr) (frames : Nat) (m : Plane T) (p : Ptr) (i : Nat) :
    clearSamples zero dst frames m p i = if p = dst ∧ i < frames then zero else m p i := by
  have hloop : ∀ (count start : Nat) (m : Plane T),
      frameLoop (fun i (m : Plane T) => m.write dst i zero) start count m p i =
        if p = dst ∧ start ≤ i ∧ i < start + count then zero else m p i := by
    intro count
    induction count with
    | zero =>
      intro start m
      rw [if_neg (by omega)]
      rfl
    | succ count ih =>
      intro start m
      refine (ih (start + 1) _).trans ?_
      unfold Plane.write
      grind
  refine (hloop frames 0 m).trans ?_
  simp

/-- The two `memset`s at the head of a block. -/
def cleared (zero : T) (left : Ptr) (right : Option Ptr) (frames : Nat) (m : Plane T) : Plane T :=
  match right with
  | some right => clearSamples zero right frames (clearSamples zero left frames m)
  | none => clearSamples zero left frames m

theorem cleared_apply (zero : T) {left p : Ptr} {right : Option Ptr} {frames i : Nat}
    (hp : p ∈ channelsOf left right) (m : Plane T) (hi : i < frames) :
    cleared zero left right frames m p i = zero := by
  unfold cleared
  cases right with
  | none =>
    obtain rfl := List.mem_singleton.mp hp
    dsimp only
    rw [clearSamples_apply, if_pos ⟨rfl, hi⟩]
  | some r =>
    dsimp only
    rw [clearSamples_apply, clearSamples_apply]
    simp only [channelsOf, Option.toList_some, List.mem_cons, List.not_mem_nil, or_false] at hp
    rcases hp with rfl | rfl
    · simp [hi]
    · simp [hi]

end Cleared

/-! ## The Synth flavor -/

namespace SynthPlugin

section Blocks

variable {D S T : Type} [DoubleOps D] [FloatOps S] [FloatCast D S] [SampleOps D T]

/-- The plugin up to the flags of ended voices. -/
def Alike (s s' : State D S) : Prop :=
  s.params = s'.params ∧ s.engine.unflagged = s'.engine.unflagged

omit [DoubleOps D] [FloatOps S] [FloatCast D S] [SampleOps D T] in
theorem Alike.trans {s t u : State D S} (h : Alike s t) (h' : Alike t u) : Alike s u :=
  ⟨h.1.trans h'.1, h.2.trans h'.2⟩

theorem handleEvent_alike (k : Nat) (s s' : State D S) (e : Event D) (h : Alike s s') :
    Alike (handleEvent s e) (handleEvent s' (e.earlier k)) := by
  show Alike (handleEvent s e) (handleEvent s' e)
  obtain ⟨hparams, hengine⟩ := h
  unfold handleEvent
  split
  · split
    · exact ⟨congrArg (fun params => storeParam paramIds params _ _) hparams, hengine⟩
    · split
      · exact ⟨hparams, (SineEngine.modulate_blind _ _ _ _).alike hengine⟩
      · exact ⟨hparams, hengine⟩
    · exact ⟨hparams, (SineEngine.handleEvent_blind e).alike hengine⟩
  · exact ⟨hparams, (SineEngine.handleEvent_blind e).alike hengine⟩

theorem render_inRange (left : Ptr) (right : Option Ptr) (gain : S) {frames : Nat}
    (hframes : frames < 2 ^ 32) :
    InRange (render (D := D) (T := T) left right gain) frames :=
  fun s _ _ m p _ ho hi =>
    renderImpl_column s.engine (Nat.lt_of_le_of_lt ho hframes) gain m p hi

theorem render_splits_of_lt (left : Ptr) (right : Option Ptr) (gain : S) {frames : Nat}
    (hframes : frames < 2 ^ 32) : Splits (render (D := D) (T := T) left right gain) frames := by
  have hsplits := render_splits (D := D) (T := T) left right gain (UInt32.ofNat frames)
  rwa [UInt32.toNat_ofNat_of_lt' hframes] at hsplits

theorem render_translates (left : Ptr) (right : Option Ptr) (gain : S) {frames : Nat}
    (hframes : frames < 2 ^ 32) :
    Translates (render (D := D) (T := T) left right gain) Alike (channelsOf left right) frames := by
  intro s s' k n o a m m' h hm ho hk
  obtain ⟨hengine, hwindow⟩ := renderImpl_window h.2 ho (Nat.lt_of_le_of_lt hk hframes) gain hm
  exact ⟨⟨h.1, hengine⟩, hwindow⟩

/-- `process` reads the volume once, at the start. -/
def SetsVolume (e : Event D) : Prop :=
  e.isCore = true ∧ ∃ target x, e.body = .paramValue target x ∧ target.paramId = kParamVolume

omit [SampleOps D T] in
theorem handleEvent_volume {e : Event D} (h : ¬ SetsVolume e) (s : State D S) :
    (handleEvent s e).params kParamVolume = s.params kParamVolume := by
  unfold handleEvent
  split
  · rename_i hcore
    split
    · rename_i target x hbody
      exact storeParam_of_ne paramIds (fun heq => h ⟨hcore, target, x, hbody, heq.symm⟩) s.params x
    · split <;> rfl
    · rfl
  · rfl

theorem chunkLoop_volume (left : Ptr) (right : Option Ptr) (gain : S) (frames : Nat)
    {events : List (Event D)} (h : ∀ e ∈ events, ¬ SetsVolume e) (s : State D S) (m : Plane T) :
    (chunkLoop (render left right gain) handleEvent frames events s m).self.params kParamVolume =
      s.params kParamVolume := by
  have hfold : ∀ c : ChunkState (State D S) T,
      (events.foldl (chunkEvent (render left right gain) handleEvent frames) c).self.params
        kParamVolume = c.self.params kParamVolume := by
    induction events with
    | nil => exact fun c => rfl
    | cons e es ih =>
      obtain ⟨he, hes⟩ := List.forall_mem_cons.mp h
      intro c
      rw [List.foldl_cons, ih hes]
      unfold chunkEvent
      dsimp only
      rw [handleEvent_volume he]
      split <;> rfl
  unfold chunkLoop
  dsimp only
  split
  · exact hfold ⟨s, m, 0⟩
  · exact hfold ⟨s, m, 0⟩

omit [DoubleOps D] in
/-- What is left of a block's memory before the loop. -/
theorem cleared_window (zero : T) (left : Ptr) (right : Option Ptr) {frames frames' k n : Nat}
    (h : k + n ≤ frames) (h' : n ≤ frames') (m m' : Plane T) :
    Window (channelsOf left right) k n (cleared zero left right frames m)
      (cleared zero left right frames' m') := by
  intro p hp i hi
  rw [cleared_apply zero hp m (by omega), cleared_apply zero hp m' (by omega)]

/-! ## Blocks -/

/-- The loop of `processTyped` over its block. -/
def typedLoop (s : State D S) (frames : Nat) (events : List (Event D)) (left : Ptr)
    (right : Option Ptr) (m : Plane T) : ChunkState (State D S) T :=
  chunkLoop (render left right (FloatCast.toFloat (s.params kParamVolume))) handleEvent frames
    events s (cleared (SampleOps.zero D) left right frames m)

theorem processTyped_state (s : State D S) (frames : UInt32) (events : List (Event D)) (left : Ptr)
    (right : Option Ptr) (m : Plane T) :
    (processTyped s frames events left right m).1 =
      { (typedLoop s frames.toNat events left right m).self with
        engine := (typedLoop s frames.toNat events left right m).self.engine.unflagged } := by
  cases right with
  | none => rfl
  | some right => rfl

theorem processTyped_memory (s : State D S) (frames : UInt32) (events : List (Event D)) (left : Ptr)
    (right : Option Ptr) (m : Plane T) :
    (processTyped s frames events left right m).2.1 =
      (typedLoop s frames.toNat events left right m).memory := by
  cases right with
  | none => rfl
  | some right => rfl

/-- The same block twice. -/
theorem typedLoop_alike {s s' : State D S} (h : Alike s s') {frames : Nat}
    (hframes : frames < 2 ^ 32) {events : List (Event D)} (hevents : ∀ e ∈ events, e.time ≤ frames)
    (left : Ptr) (right : Option Ptr) (m m' : Plane T) :
    Alike (typedLoop s frames events left right m).self
        (typedLoop s' frames events left right m').self ∧
      Window (channelsOf left right) 0 frames (typedLoop s frames events left right m).memory
        (typedLoop s' frames events left right m').memory := by
  unfold typedLoop
  rw [h.1]
  exact chunkLoop_alike (render_splits_of_lt left right _ hframes)
    (render_translates left right _ hframes) handleEvent_alike hevents h
    (cleared_window _ left right (by omega) (Nat.le_refl _) m m')

/-- A block, or its front and its back as a block each. -/
theorem typedLoop_cut {s s₁ s₂ : State D S} {k n : Nat} (hframes : k + n < 2 ^ 32)
    {front back : List (Event D)} (hfront : ∀ e ∈ front, e.time ≤ k)
    (hback : ∀ e ∈ back, k ≤ e.time ∧ e.time ≤ k + n)
    (hsorted : back.Pairwise (fun e e' => e.time ≤ e'.time)) (hvolume : ∀ e ∈ front, ¬ SetsVolume e)
    (hs₁ : Alike s s₁) (left : Ptr) (right : Option Ptr) (m m₁ m₂ : Plane T)
    (hs₂ : Alike (typedLoop s₁ k front left right m₁).self s₂) :
    Alike (typedLoop s (k + n) (front ++ back) left right m).self
        (typedLoop s₂ n (back.map (Event.earlier k)) left right m₂).self ∧
      Window (channelsOf left right) 0 k
        (typedLoop s (k + n) (front ++ back) left right m).memory
        (typedLoop s₁ k front left right m₁).memory ∧
      Window (channelsOf left right) k n
        (typedLoop s (k + n) (front ++ back) left right m).memory
        (typedLoop s₂ n (back.map (Event.earlier k)) left right m₂).memory := by
  have hgain : s₂.params kParamVolume = s₁.params kParamVolume := by
    rw [← hs₂.1]
    exact chunkLoop_volume left right _ k hvolume s₁ _
  unfold typedLoop at hs₂ ⊢
  rw [hgain, hs₁.1]
  exact chunkLoop_cut (render_splits_of_lt left right _ hframes)
    (render_inRange left right _ hframes) (render_translates left right _ hframes)
    (fun _ _ _ => Alike.trans) handleEvent_alike hfront hback hsorted hs₁
    (cleared_window _ left right (by omega) (Nat.le_refl _) m m₁)
    (cleared_window _ left right (Nat.le_refl _) (Nat.le_refl _) m m₂) hs₂

/-- The time line in blocks, each in a memory of its own, with the events that fall into it,
    counted from its start: the plugin behind the last block, and what is heard in a channel. -/
def play (left : Ptr) (right : Option Ptr) :
    List (UInt32 × Plane T) → List (Event D) → State D S → State D S × (Ptr → List T)
  | [], _, s => (s, fun _ => [])
  | (frames, m) :: blocks, events, s =>
    let block := processTyped s frames (events.filter fun e => e.time < frames.toNat) left right m
    let rest := play left right blocks
      ((events.filter fun e => frames.toNat ≤ e.time).map (Event.earlier frames.toNat)) block.1
    (rest.1, fun p => (List.range frames.toNat).map (block.2.1 p) ++ rest.2 p)

theorem play_cons (left : Ptr) (right : Option Ptr) (frames : UInt32) (m : Plane T)
    (blocks : List (UInt32 × Plane T)) (events : List (Event D)) (s : State D S) :
    play left right ((frames, m) :: blocks) events s =
      let block := processTyped s frames (events.filter fun e => e.time < frames.toNat) left right m
      let rest := play left right blocks
        ((events.filter fun e => frames.toNat ≤ e.time).map (Event.earlier frames.toNat)) block.1
      (rest.1, fun p => (List.range frames.toNat).map (block.2.1 p) ++ rest.2 p) := rfl

/-- The frames of all blocks. -/
def duration (blocks : List (UInt32 × Plane T)) : Nat := (blocks.map fun b => b.1.toNat).sum

omit [DoubleOps D] [FloatOps S] [FloatCast D S] [SampleOps D T] in
/-- What differs in flags only is the same once they are cleared. -/
theorem Alike.cleared {s s' : State D S} (h : Alike s s') :
    ({ s with engine := s.engine.unflagged } : State D S) =
      { s' with engine := s'.engine.unflagged } := by
  obtain ⟨engine, params⟩ := s
  obtain ⟨engine', params'⟩ := s'
  obtain ⟨rfl, hengine⟩ := h
  exact congrArg (fun e => ({ engine := e, params := params } : State D S)) hengine

omit [DoubleOps D] in
/-- Two parts of a window. -/
theorem map_range_window {k n : Nat} {channels : List Ptr} {m m₁ m₂ : Plane T}
    (h₁ : Window channels 0 k m m₁) (h₂ : Window channels k n m m₂) {p : Ptr} (hp : p ∈ channels) :
    (List.range (k + n)).map (m p) = (List.range k).map (m₁ p) ++ (List.range n).map (m₂ p) := by
  rw [List.range_add, List.map_append, List.map_map]
  congr 1
  · refine List.map_congr_left fun i hi => ?_
    rw [h₁ p hp i (List.mem_range.mp hi), Nat.zero_add]
  · exact List.map_congr_left fun i hi => (h₂ p hp i (List.mem_range.mp hi)).symm

omit [DoubleOps D] in
theorem filter_append_filter (k : Nat) {events : List (Event D)}
    (hsorted : events.Pairwise (fun e e' => e.time ≤ e'.time)) :
    events.filter (fun e => e.time < k) ++ events.filter (fun e => k ≤ e.time) = events := by
  induction events with
  | nil => rfl
  | cons e es ih =>
    obtain ⟨hfirst, hrest⟩ := List.pairwise_cons.mp hsorted
    by_cases he : e.time < k
    · rw [List.filter_cons_of_pos (by simpa using he), List.filter_cons_of_neg (by simpa using he),
        List.cons_append, ih hrest]
    · -- nothing behind it lies before it
      have hnone : es.filter (fun e => e.time < k) = [] :=
        List.filter_eq_nil_iff.mpr fun x hx => by
          have hle := hfirst x hx
          simp only [decide_eq_true_eq]
          omega
      have hall : es.filter (fun e => k ≤ e.time) = es :=
        List.filter_eq_self.mpr fun x hx => by
          have hle := hfirst x hx
          simp only [decide_eq_true_eq]
          omega
      rw [List.filter_cons_of_neg (by simpa using he),
        List.filter_cons_of_pos (by simpa using he), hnone, hall]
      rfl

/-- The blocks of a time line are as good as one. -/
theorem play_eq_loop (left : Ptr) (right : Option Ptr) (blocks : List (UInt32 × Plane T)) :
    ∀ (first : UInt32 × Plane T) {events : List (Event D)} {s s' : State D S} (m : Plane T),
      duration (first :: blocks) < 2 ^ 32 →
      events.Pairwise (fun e e' => e.time ≤ e'.time) → (∀ e ∈ events, ¬ SetsVolume e) →
      (∀ e ∈ events, e.time < duration (first :: blocks)) → Alike s' s →
      let c := typedLoop s' (duration (first :: blocks)) events left right m
      (play left right (first :: blocks) events s).1 =
          { c.self with engine := c.self.engine.unflagged } ∧
        ∀ p ∈ channelsOf left right, (play left right (first :: blocks) events s).2 p =
          (List.range (duration (first :: blocks))).map (c.memory p) := by
  induction blocks with
  | nil =>
    intro first events s s' m hfits _ _ htimes halike
    obtain ⟨frames, m₁⟩ := first
    rw [show duration [(frames, m₁)] = frames.toNat from Nat.add_zero _] at hfits htimes ⊢
    have hall : events.filter (fun e => e.time < frames.toNat) = events :=
      List.filter_eq_self.mpr fun e he => decide_eq_true (htimes e he)
    obtain ⟨hself, hwindow⟩ := typedLoop_alike halike hfits
      (fun e he => Nat.le_of_lt (htimes e he)) left right m m₁
    dsimp only [play]
    rw [hall, processTyped_state, processTyped_memory]
    refine ⟨hself.cleared.symm, fun p hp => ?_⟩
    rw [List.append_nil]
    refine List.map_congr_left fun i hi => ?_
    rw [hwindow p hp i (List.mem_range.mp hi), Nat.zero_add]
  | cons second blocks ih =>
    intro first events s s' m hfits hsorted hvolume htimes halike
    obtain ⟨frames, m₁⟩ := first
    obtain ⟨n, hn⟩ : ∃ n, n = duration (second :: blocks) := ⟨_, rfl⟩
    have hduration : duration ((frames, m₁) :: second :: blocks) = frames.toNat + n := by
      rw [hn]
      rfl
    rw [hduration] at hfits htimes ⊢
    obtain ⟨front, hfrontDef⟩ : ∃ front, front = events.filter fun e => e.time < frames.toNat :=
      ⟨_, rfl⟩
    obtain ⟨back, hbackDef⟩ : ∃ back, back = events.filter fun e => frames.toNat ≤ e.time :=
      ⟨_, rfl⟩
    have hfront : ∀ e ∈ front, e ∈ events ∧ e.time < frames.toNat := fun e he => by
      simpa [hfrontDef] using he
    have hback : ∀ e ∈ back, e ∈ events ∧ frames.toNat ≤ e.time := fun e he => by
      simpa [hbackDef] using he
    have hbackSorted : back.Pairwise (fun e e' => e.time ≤ e'.time) := hbackDef ▸ hsorted.filter _
    have hevents : front ++ back = events := by
      rw [hfrontDef, hbackDef, filter_append_filter _ hsorted]
    -- the first block, and the others as one
    obtain ⟨block, hblockDef⟩ : ∃ block, block = processTyped s frames front left right m₁ :=
      ⟨_, rfl⟩
    have hblock : Alike (typedLoop s frames.toNat front left right m₁).self block.1 := by
      rw [hblockDef, processTyped_state]
      exact ⟨rfl, (SineEngine.unflagged_unflagged _).symm⟩
    have hlaterSorted : (back.map (Event.earlier frames.toNat)).Pairwise
        fun e e' => e.time ≤ e'.time :=
      List.pairwise_map.mpr (hbackSorted.imp fun h => Nat.sub_le_sub_right h _)
    have hlater : ∀ x ∈ back.map (Event.earlier frames.toNat), ¬ SetsVolume x ∧
        x.time < duration (second :: blocks) := by
      intro x hx
      obtain ⟨e, he, rfl⟩ := List.mem_map.mp hx
      have hlt := htimes e (hback e he).1
      have hle := (hback e he).2
      refine ⟨hvolume e (hback e he).1, ?_⟩
      show e.time - frames.toNat < _
      omega
    have hrefl : Alike block.1 block.1 := ⟨rfl, rfl⟩
    have hrest := ih second m (by omega) hlaterSorted (fun x hx => (hlater x hx).1)
      (fun x hx => (hlater x hx).2) hrefl
    rw [← hn] at hrest
    obtain ⟨hself, hwindow₁, hwindow₂⟩ := typedLoop_cut hfits
      (fun e he => Nat.le_of_lt (hfront e he).2)
      (fun e he => ⟨(hback e he).2, Nat.le_of_lt (htimes e (hback e he).1)⟩) hbackSorted
      (fun e he => hvolume e (hfront e he).1) halike left right m m₁ m hblock
    rw [hevents] at hself hwindow₁ hwindow₂
    rw [play_cons, ← hfrontDef, ← hbackDef, ← hblockDef]
    refine ⟨hrest.1.trans hself.cleared.symm, fun p hp => ?_⟩
    dsimp only
    rw [map_range_window hwindow₁ hwindow₂ hp, hrest.2 p hp, hblockDef, processTyped_memory]

/-- However a time line is cut into blocks: the same is heard, and the plugin is the same behind
    it. -/
theorem blocks_make_no_difference (left : Ptr) (right : Option Ptr)
    (first first' : UInt32 × Plane T) (blocks blocks' : List (UInt32 × Plane T))
    (hsame : duration (first :: blocks) = duration (first' :: blocks'))
    (hfits : duration (first :: blocks) < 2 ^ 32) {events : List (Event D)}
    (hsorted : events.Pairwise (fun e e' => e.time ≤ e'.time))
    (htimes : ∀ e ∈ events, e.time < duration (first :: blocks))
    (hvolume : ∀ e ∈ events, ¬ SetsVolume e) (s : State D S) :
    (play left right (first :: blocks) events s).1 =
        (play left right (first' :: blocks') events s).1 ∧
      ∀ p ∈ channelsOf left right, (play left right (first :: blocks) events s).2 p =
        (play left right (first' :: blocks') events s).2 p := by
  have hrefl : Alike s s := ⟨rfl, rfl⟩
  obtain ⟨hstate, hheard⟩ := play_eq_loop left right blocks first first.2 hfits hsorted hvolume
    htimes hrefl
  obtain ⟨hstate', hheard'⟩ := play_eq_loop left right blocks' first' first.2 (hsame ▸ hfits)
    hsorted hvolume (hsame ▸ htimes) hrefl
  rw [← hsame] at hstate' hheard'
  exact ⟨hstate.trans hstate'.symm, fun p hp => (hheard p hp).trans (hheard' p hp).symm⟩

/-- The held note, released at sample 1: three frames at once, or one and then two. -/
theorem blocks_make_no_difference_noteOff :
    (play 0 none [(1, silence), (2, silence)] [noteOffAt 1] heldNote).1 =
        (play 0 none [(3, silence)] [noteOffAt 1] heldNote).1 ∧
      (play 0 none [(1, silence), (2, silence)] [noteOffAt 1] heldNote).2 0 =
        (play 0 none [(3, silence)] [noteOffAt 1] heldNote).2 0 := by
  have hvolume : ¬ SetsVolume (noteOffAt 1) := fun ⟨_, _, _, hbody, _⟩ => by cases hbody
  have hplay := blocks_make_no_difference 0 none (1, silence) (3, silence) [(2, silence)] [] rfl
    (by decide) (List.pairwise_singleton _ (noteOffAt 1))
    (fun e he => by
      rw [List.mem_singleton.mp he]
      decide)
    (fun e he => List.mem_singleton.mp he ▸ hvolume) heldNote
  exact ⟨hplay.1, hplay.2 0 List.mem_cons_self⟩

end Blocks

end SynthPlugin

end Cvp
