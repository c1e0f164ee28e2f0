/-
  The samples a `process` call touches. What lies in a channel buffer at or behind `frames_count`
  is neither read nor written: whatever is put there, the call goes the same way and leaves it
  there (`process_patch`). One equation says both, and it holds of every loop by itself.
-/
import ClapValidatorPlugins.Lib.Carried
import ClapValidatorPlugins.Plugins.Registry

namespace Cvp

variable {D S T : Type}

/-! ## Patched memory -/

/-- `m` below `frames`, `beyond` from there on. -/
def Plane.patch (frames : Nat) (beyond m : Plane T) : Plane T :=
  fun p i => if i < frames then m p i else beyond p i

theorem Plane.patch_read {frames : Nat} (beyond m : Plane T) (p : Ptr) {i : Nat}
    (h : i < frames) : Plane.patch frames beyond m p i = m p i := if_pos h

theorem Plane.patch_write {frames : Nat} (beyond m : Plane T) (p : Ptr) {i : Nat}
    (h : i < frames) (x : T) :
    (Plane.patch frames beyond m).write p i x = Plane.patch frames beyond (m.write p i x) := by
  funext q j
  unfold Plane.write Plane.patch
  by_cases hj : j < frames
  · rw [if_pos hj, if_pos hj]
  · have hne : ¬ (q = p ∧ j = i) := fun heq => hj (heq.2 ▸ h)
    rw [if_neg hj, if_neg hj, if_neg hne]

/-- Both planes. -/
def AudioMemory.patch (frames : Nat) (beyond m : AudioMemory D S) : AudioMemory D S where
  f32 := Plane.patch frames beyond.f32 m.f32
  f64 := Plane.patch frames beyond.f64 m.f64

/-- The output of the event loop. -/
def ChunkState.patch {σ : Type} (frames : Nat) (beyond : Plane T) (c : ChunkState σ T) :
    ChunkState σ T :=
  { c with memory := Plane.patch frames beyond c.memory }

/-- A loop over samples below `frames`, whose body goes along with `φ`. -/
theorem frameLoop_carried {α β : Type} (φ : α → β) {body : Nat → α → α} {body' : Nat → β → β}
    (count : Nat) : ∀ (start : Nat) (a : α),
      (∀ i, i < start + count → ∀ a, body' i (φ a) = φ (body i a)) →
      frameLoop body' start count (φ a) = φ (frameLoop body start count a) := by
  induction count with
  | zero => exact fun start a _ => rfl
  | succ count ih =>
    intro start a h
    rw [frameLoop, frameLoop, h start (by omega)]
    exact ih _ _ fun i hi => h i (by omega)

/-! ## The loops -/

section Loops

variable {frames : Nat} {beyond : Plane T}

theorem mapSamples_patch (f : T → T) (src dst : Ptr) (m : Plane T) :
    mapSamples f src dst frames (Plane.patch frames beyond m) =
      Plane.patch frames beyond (mapSamples f src dst frames m) := by
  refine frameLoop_carried (Plane.patch frames beyond) frames 0 m fun i hi a => ?_
  rw [Nat.zero_add] at hi
  rw [Plane.patch_read _ _ _ hi, Plane.patch_write _ _ _ hi]

theorem clearSamples_patch (zero : T) (dst : Ptr) (m : Plane T) :
    clearSamples zero dst frames (Plane.patch frames beyond m) =
      Plane.patch frames beyond (clearSamples zero dst frames m) := by
  refine frameLoop_carried (Plane.patch frames beyond) frames 0 m fun i hi a => ?_
  exact Plane.patch_write _ _ _ (by omega) _

theorem mapChannels_patch (f : Nat → T → T) (input output : AudioBuffer) (count : Nat) :
    ∀ (ch : Nat) (m : Plane T), Carried (Plane.patch frames beyond)
      (mapChannels f input output frames ch count m)
      (mapChannels f input output frames ch count (Plane.patch frames beyond m)) := by
  induction count with
  | zero => exact fun ch m => .ok m
  | succ count ih =>
    intro ch m
    refine .andThen fun src => .andThen fun dst => ?_
    rw [mapSamples_patch]
    exact ih _ _

theorem copyChannels_patch (input output : AudioBuffer) (count : Nat) :
    ∀ (ch : Nat) (m : Plane T), Carried (Plane.patch frames beyond)
      (copyChannels input output frames ch count m)
      (copyChannels input output frames ch count (Plane.patch frames beyond m)) := by
  induction count with
  | zero => exact fun ch m => .ok m
  | succ count ih =>
    intro ch m
    refine .andThen fun dst => .andThen fun src => ?_
    rw [mapSamples_patch, ← apply_ite (Plane.patch frames beyond)]
    exact ih _ _

/-- The chunk loop of a renderer that stays in the block. -/
theorem chunkLoop_patch {σ : Type} {render : σ → Nat → Nat → Plane T → σ × Plane T}
    (hrender : ∀ s offset count m, offset + count ≤ frames →
      render s offset count (Plane.patch frames beyond m) =
        Prod.map id (Plane.patch frames beyond) (render s offset count m))
    (handle : σ → Event D → σ) (headers : List (Event D)) (s : σ) (m : Plane T) :
    chunkLoop render handle frames headers s (Plane.patch frames beyond m) =
      ChunkState.patch frames beyond (chunkLoop render handle frames headers s m) := by
  have hrenderTo : ∀ (target : Nat) (c : ChunkState σ T), c.cursor ≤ target → target ≤ frames →
      renderTo render target (c.patch frames beyond) =
        (renderTo render target c).patch frames beyond := by
    intro target c hcursor htarget
    unfold renderTo ChunkState.patch
    dsimp only
    rw [hrender c.self c.cursor (target - c.cursor) c.memory (by omega)]
    rfl
  have hevent : ∀ (c : ChunkState σ T) (header : Event D),
      chunkEvent render handle frames (c.patch frames beyond) header =
        (chunkEvent render handle frames c header).patch frames beyond := by
    intro c header
    unfold chunkEvent
    rw [show (c.patch frames beyond).cursor = c.cursor from rfl]
    by_cases hahead : c.cursor < header.time ∧ header.time ≤ frames
    · rw [if_pos hahead, if_pos hahead, hrenderTo _ c (Nat.le_of_lt hahead.1) hahead.2]
      rfl
    · rw [if_neg hahead, if_neg hahead]
      rfl
  have hloop : ∀ (headers : List (Event D)) (c : ChunkState σ T),
      headers.foldl (chunkEvent render handle frames) (c.patch frames beyond) =
        (headers.foldl (chunkEvent render handle frames) c).patch frames beyond := by
    intro headers
    induction headers with
    | nil => exact fun c => rfl
    | cons header headers ih =>
      intro c
      rw [List.foldl_cons, List.foldl_cons, hevent, ih]
  have hevents := hloop headers { self := s, memory := m, cursor := 0 }
  unfold chunkLoop
  dsimp only [ChunkState.patch] at hevents ⊢
  rw [hevents]
  by_cases hrest : (headers.foldl (chunkEvent render handle frames)
      { self := s, memory := m, cursor := 0 }).cursor < frames
  · rw [if_pos hrest, if_pos hrest]
    exact hrenderTo _ _ (Nat.le_of_lt hrest) (Nat.le_refl _)
  · rw [if_neg hrest, if_neg hrest]

end Loops

/-! ## The synths -/

section Synths

variable [DoubleOps D] [FloatOps S] [FloatCast D S] [SampleOps D T] {frames : Nat}
  {beyond : Plane T}

namespace SineEngine

omit [DoubleOps D] in
theorem mix_patch (left : Ptr) (right : Option Ptr) {i : Nat} (hi : i < frames) (sample : D)
    (m : Plane T) :
    mix left right i sample (Plane.patch frames beyond m) =
      Plane.patch frames beyond (mix left right i sample m) := by
  unfold mix
  dsimp only
  rw [Plane.patch_read _ _ _ hi, Plane.patch_write _ _ _ hi]
  cases right with
  | none => rfl
  | some right =>
    dsimp only
    rw [Plane.patch_read _ _ _ hi, Plane.patch_write _ _ _ hi]

theorem renderVoice_patch (left : Ptr) (right : Option Ptr) (level : S) (count : Nat) :
    ∀ (i : Nat) (v : Voice D S) (m : Plane T), i + count ≤ frames →
      renderVoice left right level i count v (Plane.patch frames beyond m) =
        Prod.map id (Plane.patch frames beyond) (renderVoice left right level i count v m) := by
  induction count with
  | zero => exact fun i v m _ => rfl
  | succ count ih =>
    intro i v m h
    rw [renderVoice, renderVoice]
    rcases voiceFrame level v with ⟨v', _ | sample⟩
    · rfl
    · dsimp only
      rw [mix_patch left right (by omega)]
      exact ih _ _ _ (by omega)

theorem renderVoices_patch (left : Ptr) (right : Option Ptr) (gain globalMod : S)
    {offset count : Nat} (h : offset + count ≤ frames) (vs : List (Voice D S)) :
    ∀ m : Plane T, renderVoices left right gain globalMod offset count vs
        (Plane.patch frames beyond m) =
      Prod.map id (Plane.patch frames beyond)
        (renderVoices left right gain globalMod offset count vs m) := by
  induction vs with
  | nil => exact fun m => rfl
  | cons v vs ih =>
    intro m
    rw [renderVoices, renderVoices]
    split
    · rw [renderVoice_patch left right _ count offset v m h]
      dsimp only [Prod.map]
      rw [ih]
      rfl
    · rw [ih]
      rfl

theorem renderImpl_patch (e : SineEngine D S) (left : Ptr) (right : Option Ptr)
    {offset count : Nat} (h : offset + count ≤ frames) (gain : S) (m : Plane T) :
    e.renderImpl left right offset count gain (Plane.patch frames beyond m) =
      Prod.map id (Plane.patch frames beyond)
        (e.renderImpl left right offset count gain m) := by
  have hpasses : passes offset count ≤ count := by
    have hmod := Nat.mod_le (offset + count) (2 ^ 32)
    unfold passes
    omega
  unfold renderImpl
  simp only [renderVoices_patch left right gain e.globalMod
    (Nat.le_trans (Nat.add_le_add_left hpasses offset) h)]
  rfl

end SineEngine

end Synths

/-! ## The flavors -/

section Flavors

variable [DoubleOps D] [FloatOps S] [FloatCast D S] {frames : Nat}

namespace EffectPlugin

variable {beyond : AudioMemory D S}

omit [DoubleOps D] [FloatOps S] in
theorem Channel.read_patch (memory : AudioMemory D S) {i : Nat} (h : i < frames)
    (channel : Channel) :
    channel.read (AudioMemory.patch frames beyond memory) i = channel.read memory i := by
  cases channel with
  | f32 p => exact congrArg FloatCast.toDouble (Plane.patch_read beyond.f32 memory.f32 p h)
  | f64 p => exact Plane.patch_read beyond.f64 memory.f64 p h

omit [FloatCast D S] in
theorem Channel.isLive_patch (memory : AudioMemory D S) {i : Nat} (h : i < frames)
    (channel : Channel) :
    channel.isLive (AudioMemory.patch frames beyond memory) i = channel.isLive memory i := by
  cases channel with
  | f32 p => exact congrArg (FloatOps.ne · _) (Plane.patch_read beyond.f32 memory.f32 p h)
  | f64 p => exact congrArg (DoubleOps.ne · _) (Plane.patch_read beyond.f64 memory.f64 p h)

omit [DoubleOps D] [FloatOps S] in
theorem Channel.write_patch (memory : AudioMemory D S) {i : Nat} (h : i < frames) (x : D)
    (channel : Channel) :
    channel.write (AudioMemory.patch frames beyond memory) i x =
      AudioMemory.patch frames beyond (channel.write memory i x) := by
  cases channel with
  | f32 p =>
    exact congrArg (AudioMemory.mk · _) (Plane.patch_write beyond.f32 memory.f32 p h _)
  | f64 p =>
    exact congrArg (AudioMemory.mk _ ·) (Plane.patch_write beyond.f64 memory.f64 p h _)

theorem applyGain_patch (gain : D) (src dst : Channel) (silent : Bool)
    (memory : AudioMemory D S) :
    applyGain gain src dst frames silent (AudioMemory.patch frames beyond memory) =
      Prod.map id (AudioMemory.patch frames beyond)
        (applyGain gain src dst frames silent memory) := by
  refine frameLoop_carried (Prod.map id (AudioMemory.patch frames beyond)) frames 0
    (silent, memory) fun i hi acc => ?_
  have hi : i < frames := by omega
  dsimp only [Prod.map, id]
  rw [Channel.isLive_patch _ hi, Channel.read_patch _ hi, Channel.write_patch _ hi]

theorem gainChannels_patch (gain : D) (input output : AudioBuffer) (count : Nat) :
    ∀ (ch : Nat) (silent : Bool) (memory : AudioMemory D S),
      Carried (Prod.map id (AudioMemory.patch frames beyond))
        (gainChannels gain input output frames ch count (silent, memory))
        (gainChannels gain input output frames ch count
          (silent, AudioMemory.patch frames beyond memory)) := by
  induction count with
  | zero => exact fun ch silent memory => .ok (silent, memory)
  | succ count ih =>
    intro ch silent memory
    refine .andThen fun src => .andThen fun dst => ?_
    rw [applyGain_patch]
    exact ih _ _ _

end EffectPlugin

section Planes

variable {beyond : Plane S}

namespace MultiOutGenPlugin

theorem toneChannel_patch (phaseInc : D) (level : S) (dst : Ptr) (phase : D) (m : Plane S) :
    toneChannel phaseInc level dst frames phase (Plane.patch frames beyond m) =
      Prod.map id (Plane.patch frames beyond) (toneChannel phaseInc level dst frames phase m) := by
  refine frameLoop_carried (Prod.map id (Plane.patch frames beyond)) frames 0 (phase, m)
    fun i hi acc => ?_
  have hi : i < frames := by omega
  dsimp only [Prod.map, id]
  rw [Plane.patch_write _ _ _ hi]

theorem toneChannels_patch (start phaseInc : D) (level : S) (out : AudioBuffer) (count : Nat) :
    ∀ (ch : Nat) (phase : D) (m : Plane S), Carried (Prod.map id (Plane.patch frames beyond))
      (toneChannels start phaseInc level out frames ch count (phase, m))
      (toneChannels start phaseInc level out frames ch count
        (phase, Plane.patch frames beyond m)) := by
  induction count with
  | zero => exact fun ch phase m => .ok (phase, m)
  | succ count ih =>
    intro ch phase m
    refine .andThen fun dst => ?_
    rw [toneChannel_patch]
    exact ih _ _ _

theorem tonePorts_patch (base : Base D) (level : S) (outs : List AudioBuffer) :
    ∀ (port : Nat) (phases : Nat → D) (m : Plane S),
      Carried (Prod.map id (Plane.patch frames beyond))
        (tonePorts base level frames port outs (phases, m))
        (tonePorts base level frames port outs (phases, Plane.patch frames beyond m)) := by
  induction outs with
  | nil => exact fun port phases m => .ok (phases, m)
  | cons out outs ih =>
    intro port phases m
    exact (toneChannels_patch _ _ _ _ _ _ _ _).bind fun r => ih _ _ _

end MultiOutGenPlugin

theorem MultiOutFxPlugin.fanOut_patch (auxLevel : S) (input : AudioBuffer)
    (outs : List AudioBuffer) : ∀ (port : Nat) (m : Plane S),
      Carried (Plane.patch frames beyond) (fanOut auxLevel input frames port outs m)
        (fanOut auxLevel input frames port outs (Plane.patch frames beyond m)) := by
  induction outs with
  | nil => exact fun port m => .ok m
  | cons out outs ih =>
    intro port m
    exact (mapChannels_patch _ _ _ _ _ _).bind fun r => ih _ _

namespace ParamsZooPlugin

theorem measurePeak_patch (peak : D) (srcL srcR : Ptr) (m : Plane S) :
    measurePeak peak srcL srcR frames (Plane.patch frames beyond m) =
      measurePeak peak srcL srcR frames m := by
  refine frameLoop_carried id frames 0 _ fun i hi peak => ?_
  have hi : i < frames := by omega
  dsimp only [id]
  rw [Plane.patch_read _ _ _ hi, Plane.patch_read _ _ _ hi]

omit [DoubleOps D] [FloatOps S] [FloatCast D S] in
theorem writeRight_patch (dstR : Option Ptr) {i : Nat} (h : i < frames) (x : S) (m : Plane S) :
    writeRight (Plane.patch frames beyond m) dstR i x =
      Plane.patch frames beyond (writeRight m dstR i x) := by
  cases dstR with
  | none => rfl
  | some dstR => exact Plane.patch_write _ _ _ h _

omit [DoubleOps D] [FloatOps S] [FloatCast D S] in
theorem bypassLoop_patch (srcL srcR dstL : Ptr) (dstR : Option Ptr) (m : Plane S) :
    bypassLoop srcL srcR dstL dstR frames (Plane.patch frames beyond m) =
      Plane.patch frames beyond (bypassLoop srcL srcR dstL dstR frames m) := by
  refine frameLoop_carried (Plane.patch frames beyond) frames 0 m fun i hi m => ?_
  have hi : i < frames := by omega
  dsimp only
  rw [Plane.patch_read _ _ srcL hi, Plane.patch_write _ _ _ hi, Plane.patch_read _ _ srcR hi,
    writeRight_patch _ hi]

omit [FloatOps S] in
theorem shapeLoop_patch (s : State D) (srcL srcR dstL : Ptr) (dstR : Option Ptr) (m : Plane S) :
    shapeLoop s srcL srcR dstL dstR frames (Plane.patch frames beyond m) =
      Plane.patch frames beyond (shapeLoop s srcL srcR dstL dstR frames m) := by
  refine frameLoop_carried (Plane.patch frames beyond) frames 0 m fun i hi m => ?_
  have hi : i < frames := by omega
  dsimp only
  rw [Plane.patch_read _ _ srcL hi, Plane.patch_read _ _ srcR hi, Plane.patch_write _ _ _ hi,
    writeRight_patch _ hi]

end ParamsZooPlugin

end Planes

namespace SynthPlugin

variable {T : Type} [SampleOps D T] {beyond : Plane T}

theorem processTyped_patch (s : State D S) (count : UInt32) (headers : List (Event D))
    (left : Ptr) (right : Option Ptr) (m : Plane T) :
    processTyped s count headers left right (Plane.patch count.toNat beyond m) =
      Prod.map id (Prod.map (Plane.patch count.toNat beyond) id)
        (processTyped s count headers left right m) := by
  have hrender : ∀ (s' : State D S) (offset n : Nat) (m : Plane T), offset + n ≤ count.toNat →
      render left right (FloatCast.toFloat (s.params kParamVolume)) s' offset n
          (Plane.patch count.toNat beyond m) =
        Prod.map id (Plane.patch count.toNat beyond)
          (render left right (FloatCast.toFloat (s.params kParamVolume)) s' offset n m) := by
    intro s' offset n m h
    unfold render
    rw [SineEngine.renderImpl_patch _ left right h]
    rfl
  unfold processTyped
  cases right with
  | none =>
    dsimp only
    rw [clearSamples_patch, chunkLoop_patch hrender]
    rfl
  | some right =>
    dsimp only
    rw [clearSamples_patch, clearSamples_patch, chunkLoop_patch hrender]
    rfl

theorem processPlane_patch (s : State D S) (block : ProcessBlock D) (out : AudioBuffer)
    (data : Option (List Ptr)) (m : Plane T) :
    Carried (Prod.map id (Plane.patch block.framesCount.toNat beyond))
      (processPlane s block out data m)
      (processPlane s block out data (Plane.patch block.framesCount.toNat beyond m)) := by
  refine .andThen fun left => .branch (.andThen fun right => ?_) (.andThen fun right => ?_)
  all_goals
    refine .andThen fun headers => ?_
    rw [processTyped_patch]
    exact .andThen fun pushed => .ok _

end SynthPlugin

namespace SidechainSynthPlugin

theorem gate_patch {beyond : Plane S} (amount : S) (scLeft scRight left : Ptr)
    (right : Option Ptr) (envelope : S) (m : Plane S) :
    gate amount scLeft scRight left right frames envelope (Plane.patch frames beyond m) =
      Prod.map id (Plane.patch frames beyond)
        (gate amount scLeft scRight left right frames envelope m) := by
  refine frameLoop_carried (Prod.map id (Plane.patch frames beyond)) frames 0 (envelope, m)
    fun i hi acc => ?_
  have hi : i < frames := by omega
  dsimp only [Prod.map, id]
  rw [Plane.patch_read _ _ scLeft hi, Plane.patch_read _ _ scRight hi,
    Plane.patch_read _ _ left hi, Plane.patch_write _ _ _ hi]
  cases right with
  | none => rfl
  | some right =>
    dsimp only
    rw [Plane.patch_read _ _ right hi, Plane.patch_write _ _ _ hi]

omit [DoubleOps D] in
theorem applySidechain_patch {beyond : Plane S} (s : State D S) (block : ProcessBlock D)
    (left : Ptr) (right : Option Ptr) (m : Plane S) :
    Carried (Prod.map id (Plane.patch block.framesCount.toNat beyond))
      (applySidechain s block left right m)
      (applySidechain s block left right (Plane.patch block.framesCount.toNat beyond m)) := by
  unfold applySidechain
  cases block.audioInputs with
  | nil => exact .ok (s, m)
  | cons sidechain inputs =>
    refine .branch (.andThen fun scLeft => ?_) (.ok (s, m))
    refine .branch (.andThen fun scRight => ?_) (.andThen fun scRight => ?_)
    all_goals
      dsimp only
      rw [gate_patch]
      exact .ok _

end SidechainSynthPlugin

/-! ## The calls -/

section Process

variable (base : Base D) (block : ProcessBlock D) (beyond memory : AudioMemory D S)

theorem SynthPlugin.process_patch (s : SynthPlugin.State D S) :
    Carried (Prod.map id (AudioMemory.patch block.framesCount.toNat beyond))
      (SynthPlugin.process base s block memory)
      (SynthPlugin.process base s block
        (AudioMemory.patch block.framesCount.toNat beyond memory)) := by
  unfold SynthPlugin.process
  cases block.audioOutputs with
  | nil => exact .ok _
  | cons out outs =>
    refine .branch (.ok _) (.branch ?_ (.branch ?_ (.ok _)))
    · exact (processPlane_patch s block out out.data64 memory.f64).bind fun r => .ok _
    · exact (processPlane_patch s block out out.data32 memory.f32).bind fun r => .ok _

theorem SidechainSynthPlugin.process_patch (s : SidechainSynthPlugin.State D S) :
    Carried (Prod.map id (AudioMemory.patch block.framesCount.toNat beyond))
      (SidechainSynthPlugin.process base s block memory)
      (SidechainSynthPlugin.process base s block
        (AudioMemory.patch block.framesCount.toNat beyond memory)) := by
  have hrender : ∀ (left : Ptr) (right : Option Ptr) (gain : S) (s : State D S)
      (offset n : Nat) (m : Plane S), offset + n ≤ block.framesCount.toNat →
      render left right gain s offset n (Plane.patch block.framesCount.toNat beyond.f32 m) =
        Prod.map id (Plane.patch block.framesCount.toNat beyond.f32)
          (render left right gain s offset n m) := by
    intro left right gain s offset n m h
    unfold render
    rw [SineEngine.renderImpl_patch _ left right h]
    rfl
  unfold SidechainSynthPlugin.process
  cases block.audioOutputs with
  | nil => exact .ok _
  | cons out outs =>
    refine .branch (.ok _) (.andThen fun left => ?_)
    refine .branch (.andThen fun right => ?_) (.andThen fun right => ?_)
    all_goals
      refine .andThen fun headers => ?_
      cases right with
      | none =>
        dsimp only [AudioMemory.patch]
        rw [clearSamples_patch, chunkLoop_patch (hrender left none _)]
        exact (applySidechain_patch _ _ _ _ _).bind fun r => .andThen fun pushed => .ok _
      | some right =>
        dsimp only [AudioMemory.patch]
        rw [clearSamples_patch, clearSamples_patch, chunkLoop_patch (hrender left (some right) _)]
        exact (applySidechain_patch _ _ _ _ _).bind fun r => .andThen fun pushed => .ok _

theorem EffectPlugin.process_patch (s : EffectPlugin.State D) :
    Carried (Prod.map id (AudioMemory.patch block.framesCount.toNat beyond))
      (EffectPlugin.process base s block memory)
      (EffectPlugin.process base s block
        (AudioMemory.patch block.framesCount.toNat beyond memory)) := by
  unfold EffectPlugin.process
  split
  · refine .andThen fun headers => .branch (.ok _) ?_
    exact (gainChannels_patch _ _ _ _ _ _ _).bind fun r => .ok _
  · exact .ok _

theorem ParamsZooPlugin.process_patch (s : ParamsZooPlugin.State D) :
    Carried (Prod.map id (AudioMemory.patch block.framesCount.toNat beyond))
      (ParamsZooPlugin.process base s block memory)
      (ParamsZooPlugin.process base s block
        (AudioMemory.patch block.framesCount.toNat beyond memory)) := by
  unfold ParamsZooPlugin.process
  split
  · refine .andThen fun headers => .branch (.ok _) (.andThen fun srcL => ?_)
    refine .branch (.andThen fun srcR => ?_) (.andThen fun srcR => ?_)
    all_goals
      refine .andThen fun dstL => ?_
      refine .branch (.andThen fun dstR => ?_) (.andThen fun dstR => ?_)
    all_goals
      dsimp only [AudioMemory.patch]
      rw [measurePeak_patch, bypassLoop_patch, shapeLoop_patch,
        ← apply_ite (Plane.patch block.framesCount.toNat beyond.f32)]
      exact .ok _
  · exact .ok _

variable [DoubleBits D]

/-- What a call does, and every sample it leaves below `frames_count`, does not depend on the
    samples from there on; those it leaves as they are. -/
theorem flavor_process_patch (flavor : Flavor) (s : flavor.State D S) :
    (flavor.impl : PluginImpl D S _).process base s block
        (AudioMemory.patch block.framesCount.toNat beyond memory) =
      Prod.map id (AudioMemory.patch block.framesCount.toNat beyond) <$>
        (flavor.impl : PluginImpl D S _).process base s block memory := by
  show Carried _ _ _
  cases flavor with
  | synth => exact SynthPlugin.process_patch base block beyond memory s
  | sidechainSynth => exact SidechainSynthPlugin.process_patch base block beyond memory s
  | effect => exact EffectPlugin.process_patch base block beyond memory s
  | multiOutGen =>
    exact .andThen fun headers =>
      (MultiOutGenPlugin.tonePorts_patch _ _ _ _ _ _).bind fun r => .ok _
  | multiOutFx =>
    dsimp only [Flavor.impl, MultiOutFxPlugin.impl, MultiOutFxPlugin.process]
    split
    · exact .andThen fun headers =>
        (MultiOutFxPlugin.fanOut_patch _ _ _ _ _).bind fun m => .ok _
    · exact .ok _
  | audioPortsZero => exact .andThen fun flushed => .ok _
  | slow =>
    dsimp only [Flavor.impl, SlowPlugin.impl, SlowPlugin.process]
    split
    · exact .andThen fun flushed => (copyChannels_patch _ _ _ _ _).bind fun m => .ok _
    · exact .ok _
  | hostCheck =>
    dsimp only [Flavor.impl, HostCheckPlugin.impl, HostCheckPlugin.process]
    split
    · exact (copyChannels_patch _ _ _ _ _).bind fun m => .ok _
    · exact .ok _
  | noteFx =>
    dsimp only [Flavor.impl, NoteFxPlugin.impl, NoteFxPlugin.process]
    split
    · exact .error _
    · exact .branch (.andThen fun out => .ok _) (.error _)
  | paramsZoo => exact ParamsZooPlugin.process_patch base block beyond memory s
  | preset =>
    dsimp only [Flavor.impl, PresetPlugin.impl, PresetPlugin.process]
    split
    · exact .andThen fun headers => (mapChannels_patch _ _ _ _ _ _).bind fun m => .ok _
    · exact .ok _
  | surround =>
    dsimp only [Flavor.impl, SurroundPlugin.impl, SurroundPlugin.process]
    split
    · exact .andThen fun headers => (mapChannels_patch _ _ _ _ _ _).bind fun m => .ok _
    · exact .ok _
  | gui =>
    dsimp only [Flavor.impl, GuiPlugin.impl, GuiPlugin.process]
    split
    · exact .andThen fun headers => (mapChannels_patch _ _ _ _ _ _).bind fun m => .ok _
    · exact .ok _

end Process

end Flavors

end Cvp
