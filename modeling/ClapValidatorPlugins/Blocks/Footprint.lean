/-
  The samples a `process` call may write. Whatever the block, and however its buffers match the
  declared ports or overlap, the call changes nothing but the first `frames_count` samples of its
  output channels (`sProcess_keeps`).
-/
import ClapValidatorPlugins.Blocks.GainPass
import ClapValidatorPlugins.Lib.Yields
import ClapValidatorPlugins.Plugins.Registry
import ClapValidatorPlugins.Wrapper.Plugin

namespace Cvp

variable {D S T : Type}

/-! ## Memories that agree -/

/-- The same samples, except perhaps at `K`. -/
def Plane.Agree (K : Ptr → Nat → Prop) (m m' : Plane T) : Prop := ∀ p i, ¬ K p i → m p i = m' p i

namespace Plane.Agree

variable {K : Ptr → Nat → Prop} {m m' : Plane T}

theorem refl (m : Plane T) : Plane.Agree K m m := fun _ _ _ => rfl

/-- One of the two is written where they may differ. -/
theorem writeOne (h : Plane.Agree K m m') {p : Ptr} {i : Nat} (hp : K p i) (x : T) :
    Plane.Agree K m (m'.write p i x) := by
  intro q j hne
  rw [h q j hne]
  exact (if_neg fun heq => hne (by rw [heq.1, heq.2]; exact hp)).symm

end Plane.Agree

/-- Both planes. -/
structure AudioMemory.Agree (K : SampleSize → Ptr → Nat → Prop) (m m' : AudioMemory D S) :
    Prop where
  f32 : Plane.Agree (K .f32) m.f32 m'.f32
  f64 : Plane.Agree (K .f64) m.f64 m'.f64

/-- The channels of a buffer. -/
def AudioBuffer.pointers (buffer : AudioBuffer) : SampleSize → List Ptr
  | .f32 => buffer.data32.getD []
  | .f64 => buffer.data64.getD []

/-- The samples a block asks for. -/
def ProcessBlock.Fills (block : ProcessBlock D) (size : SampleSize) (p : Ptr) (i : Nat) : Prop :=
  (∃ buffer ∈ block.audioOutputs, p ∈ buffer.pointers size) ∧ i < block.framesCount.toNat

/-! ## What is written -/

/-- A loop whose body keeps `P` below `frames`. -/
theorem frameLoop_keeps {α : Type} {P : α → Prop} {body : Nat → α → α} (count : Nat) :
    ∀ (start : Nat) {a : α}, (∀ i, i < start + count → ∀ a, P a → P (body i a)) → P a →
      P (frameLoop body start count a) := by
  induction count with
  | zero => exact fun _ _ _ ha => ha
  | succ count ih =>
    intro start a hbody ha
    refine ih (start + 1) (fun i hi => hbody i (by omega)) (hbody start (by omega) a ha)

theorem channelAt_mem (data : Option (List Ptr)) (ch : Nat) :
    Yields (channelAt data ch) fun p => p ∈ data.getD [] := by
  unfold channelAt
  cases data with
  | none => exact .of_error _
  | some ps =>
    dsimp only
    split
    · rename_i hp
      exact .of_ok (List.mem_of_getElem? hp)
    · exact .of_error _

section Written

variable {W : Ptr → Nat → Prop} {m₀ m : Plane T} {frames : Nat}

theorem mapSamples_keeps (f : T → T) (src : Ptr) {dst : Ptr} (hdst : ∀ i < frames, W dst i)
    (h : Plane.Agree W m₀ m) : Plane.Agree W m₀ (mapSamples f src dst frames m) :=
  frameLoop_keeps frames 0 (fun i hi _ h => h.writeOne (hdst i (by omega)) _) h

theorem clearSamples_keeps (zero : T) {dst : Ptr} (hdst : ∀ i < frames, W dst i)
    (h : Plane.Agree W m₀ m) : Plane.Agree W m₀ (clearSamples zero dst frames m) :=
  frameLoop_keeps frames 0 (fun i hi _ h => h.writeOne (hdst i (by omega)) _) h

theorem mapChannels_keeps (f : Nat → T → T) (input : AudioBuffer) {output : AudioBuffer}
    (hout : ∀ p ∈ output.pointers .f32, ∀ i < frames, W p i) (count : Nat) :
    ∀ (ch : Nat) {m : Plane T}, Plane.Agree W m₀ m →
      Yields (mapChannels f input output frames ch count m) (Plane.Agree W m₀) := by
  induction count with
  | zero => exact fun ch m h => .of_ok h
  | succ count ih =>
    intro ch m h
    refine .andThen fun src => .bind (channelAt_mem output.data32 ch) fun dst hdst => ?_
    exact ih _ (mapSamples_keeps (f ch) src (hout dst hdst) h)

theorem copyChannels_keeps (input : AudioBuffer) {output : AudioBuffer}
    (hout : ∀ p ∈ output.pointers .f32, ∀ i < frames, W p i) (count : Nat) :
    ∀ (ch : Nat) {m : Plane T}, Plane.Agree W m₀ m →
      Yields (copyChannels input output frames ch count m) (Plane.Agree W m₀) := by
  induction count with
  | zero => exact fun ch m h => .of_ok h
  | succ count ih =>
    intro ch m h
    refine .bind (channelAt_mem output.data32 ch) fun dst hdst => .andThen fun src => ih _ ?_
    split
    · exact h
    · exact mapSamples_keeps id src (hout dst hdst) h

/-- The chunk loop of a renderer that writes only at `W`. -/
theorem chunkLoop_keeps {σ : Type} {render : σ → Nat → Nat → Plane T → σ × Plane T}
    (hrender : ∀ s offset count m, offset + count ≤ frames → Plane.Agree W m₀ m →
      Plane.Agree W m₀ (render s offset count m).2)
    (handle : σ → Event D → σ) (headers : List (Event D)) (s : σ) (h : Plane.Agree W m₀ m) :
    Plane.Agree W m₀ (chunkLoop render handle frames headers s m).memory := by
  have hevents : ∀ (headers : List (Event D)) (c : ChunkState σ T), Plane.Agree W m₀ c.memory →
      Plane.Agree W m₀ (headers.foldl (chunkEvent render handle frames) c).memory := by
    intro headers
    induction headers with
    | nil => exact fun _ h => h
    | cons header headers ih =>
      intro c h
      refine ih _ ?_
      unfold chunkEvent
      dsimp only
      split
      · rename_i hahead
        exact hrender _ _ _ _ (by omega) h
      · exact h
  have hloop := hevents headers { self := s, memory := m, cursor := 0 } h
  unfold chunkLoop
  dsimp only
  split
  · rename_i hrest
    exact hrender _ _ _ _ (by omega) hloop
  · exact hloop

end Written

section Renderers

variable {S : Type} [DoubleOps D] [FloatOps S] [FloatCast D S] {W : Ptr → Nat → Prop}
  {frames : Nat} {left : Ptr} {right : Option Ptr}

namespace SineEngine

variable [SampleOps D T] {m₀ : Plane T} (hleft : ∀ i < frames, W left i)
  (hright : ∀ p ∈ right, ∀ i < frames, W p i)
include hleft hright

omit [DoubleOps D] in
theorem mix_keeps {i : Nat} (hi : i < frames) (sample : D) {m : Plane T}
    (h : Plane.Agree W m₀ m) : Plane.Agree W m₀ (mix left right i sample m) := by
  have hl := h.writeOne (hleft i hi) (SampleOps.add D (m left i) (SampleOps.ofDouble sample))
  cases right with
  | none => exact hl
  | some right => exact hl.writeOne (hright right rfl i hi) _

theorem renderVoice_keeps (level : S) (count : Nat) :
    ∀ (i : Nat) (v : Voice D S) {m : Plane T}, i + count ≤ frames → Plane.Agree W m₀ m →
      Plane.Agree W m₀ (renderVoice left right level i count v m).2 := by
  induction count with
  | zero => exact fun i v m _ h => h
  | succ count ih =>
    intro i v m hi h
    rw [renderVoice]
    rcases voiceFrame level v with ⟨v', _ | sample⟩
    · exact h
    · exact ih _ _ (by omega) (mix_keeps hleft hright (by omega) sample h)

theorem renderVoices_keeps (gain globalMod : S) {offset count : Nat}
    (hfits : offset + count ≤ frames) (vs : List (Voice D S)) :
    ∀ {m : Plane T}, Plane.Agree W m₀ m →
      Plane.Agree W m₀ (renderVoices left right gain globalMod offset count vs m).2 := by
  induction vs with
  | nil => exact fun h => h
  | cons v vs ih =>
    intro m h
    rw [renderVoices]
    split
    · exact ih (renderVoice_keeps hleft hright _ count offset v hfits h)
    · exact ih h

theorem renderImpl_keeps (e : SineEngine D S) {offset count : Nat}
    (hfits : offset + count ≤ frames) (gain : S) {m : Plane T} (h : Plane.Agree W m₀ m) :
    Plane.Agree W m₀ (e.renderImpl left right offset count gain m).2 := by
  have hpasses : passes offset count ≤ count := by
    have hmod := Nat.mod_le (offset + count) (2 ^ 32)
    unfold passes
    omega
  exact renderVoices_keeps hleft hright gain e.globalMod (by omega) e.voices h

end SineEngine

variable {m₀ m : Plane S} (hleft : ∀ i < frames, W left i)
  (hright : ∀ p ∈ right, ∀ i < frames, W p i)
include hleft hright

omit [DoubleOps D] [FloatCast D S] in
theorem SidechainSynthPlugin.gate_keeps (amount : S) (scLeft scRight : Ptr) (envelope : S)
    (h : Plane.Agree W m₀ m) :
    Plane.Agree W m₀ (gate amount scLeft scRight left right frames envelope m).2 := by
  refine frameLoop_keeps (P := fun acc : S × Plane S => Plane.Agree W m₀ acc.2) frames 0
    (fun i hi acc h => ?_) h
  dsimp only
  have hl := h.writeOne (hleft i (by omega))
  cases right with
  | none => exact hl _
  | some right => exact (hl _).writeOne (hright right rfl i (by omega)) _

namespace ParamsZooPlugin

omit [DoubleOps D] [FloatOps S] [FloatCast D S] hleft in
theorem writeRight_keeps {i : Nat} (hi : i < frames) (x : S) (h : Plane.Agree W m₀ m) :
    Plane.Agree W m₀ (writeRight m right i x) := by
  cases right with
  | none => exact h
  | some right => exact h.writeOne (hright right rfl i hi) x

omit [DoubleOps D] [FloatOps S] [FloatCast D S] in
theorem bypassLoop_keeps (srcL srcR : Ptr) (h : Plane.Agree W m₀ m) :
    Plane.Agree W m₀ (bypassLoop srcL srcR left right frames m) :=
  frameLoop_keeps frames 0 (fun i hi _ h =>
    writeRight_keeps hright (by omega) _ (h.writeOne (hleft i (by omega)) _)) h

omit [FloatOps S] in
theorem shapeLoop_keeps (s : State D) (srcL srcR : Ptr) (h : Plane.Agree W m₀ m) :
    Plane.Agree W m₀ (shapeLoop s srcL srcR left right frames m) :=
  frameLoop_keeps frames 0 (fun i hi _ h =>
    writeRight_keeps hright (by omega) _ (h.writeOne (hleft i (by omega)) _)) h

end ParamsZooPlugin

end Renderers

section Ports

variable {S : Type} [DoubleOps D] [FloatOps S] [FloatCast D S] {W : Ptr → Nat → Prop}
  {frames : Nat} {m₀ : Plane S}

namespace MultiOutGenPlugin

theorem toneChannels_keeps (start phaseInc : D) (level : S) {out : AudioBuffer}
    (hout : ∀ p ∈ out.pointers .f32, ∀ i < frames, W p i) (count : Nat) :
    ∀ (ch : Nat) (phase : D) {m : Plane S}, Plane.Agree W m₀ m →
      Yields (toneChannels start phaseInc level out frames ch count (phase, m)) fun acc =>
        Plane.Agree W m₀ acc.2 := by
  induction count with
  | zero => exact fun ch phase m h => .of_ok h
  | succ count ih =>
    intro ch phase m h
    refine .bind (channelAt_mem out.data32 ch) fun dst hdst => ?_
    refine ih _ _ (frameLoop_keeps (P := fun acc : D × Plane S => Plane.Agree W m₀ acc.2) frames 0
      (fun i hi acc h => ?_) h)
    exact h.writeOne (hout dst hdst i (by omega)) _

theorem tonePorts_keeps (base : Base D) (level : S) (outs : List AudioBuffer)
    (hout : ∀ out ∈ outs, ∀ p ∈ out.pointers .f32, ∀ i < frames, W p i) :
    ∀ (port : Nat) (phases : Nat → D) {m : Plane S}, Plane.Agree W m₀ m →
      Yields (tonePorts base level frames port outs (phases, m)) fun acc =>
        Plane.Agree W m₀ acc.2 := by
  induction outs with
  | nil => exact fun port phases m h => .of_ok h
  | cons out outs ih =>
    intro port phases m h
    obtain ⟨hthis, hrest⟩ := List.forall_mem_cons.mp hout
    exact .bind (toneChannels_keeps _ _ level hthis _ 0 _ h) fun acc h => ih hrest _ _ h

end MultiOutGenPlugin

theorem MultiOutFxPlugin.fanOut_keeps (auxLevel : S) (input : AudioBuffer)
    (outs : List AudioBuffer)
    (hout : ∀ out ∈ outs, ∀ p ∈ out.pointers .f32, ∀ i < frames, W p i) :
    ∀ (port : Nat) {m : Plane S}, Plane.Agree W m₀ m →
      Yields (fanOut auxLevel input frames port outs m) (Plane.Agree W m₀) := by
  induction outs with
  | nil => exact fun port m h => .of_ok h
  | cons out outs ih =>
    intro port m h
    obtain ⟨hthis, hrest⟩ := List.forall_mem_cons.mp hout
    exact .bind (mapChannels_keeps _ input hthis _ 0 h) fun m h => ih hrest _ h

namespace EffectPlugin

variable {K : SampleSize → Ptr → Nat → Prop} {memory₀ memory : AudioMemory D S}

/-- The channels that may be written. -/
def Channel.At (K : SampleSize → Ptr → Nat → Prop) : Channel → Nat → Prop
  | .f32 p => K .f32 p
  | .f64 p => K .f64 p

omit [DoubleOps D] [FloatOps S] in
theorem Channel.write_keeps {dst : Channel} {i : Nat} (hdst : dst.At K i) (x : D)
    (h : memory₀.Agree K memory) : memory₀.Agree K (dst.write memory i x) := by
  cases dst with
  | f32 p => exact ⟨h.f32.writeOne hdst _, h.f64⟩
  | f64 p => exact ⟨h.f32, h.f64.writeOne hdst x⟩

theorem channel_at {out : AudioBuffer}
    (hout : ∀ size, ∀ p ∈ out.pointers size, ∀ i < frames, K size p i) (ch : Nat) :
    Yields (channel out ch) fun dst => ∀ i < frames, dst.At K i := by
  have hmap : ∀ (size : SampleSize) (data : Option (List Ptr)) (make : Ptr → Channel),
      (∀ p ∈ data.getD [], ∀ i < frames, (make p).At K i) →
      Yields (make <$> channelAt data ch) fun dst => ∀ i < frames, dst.At K i := by
    intro size data make hmake
    cases hch : channelAt data ch with
    | error fault => exact .of_error fault
    | ok p => exact .of_ok (hmake p (channelAt_mem data ch p hch))
  unfold channel
  split
  · exact hmap .f64 _ _ (hout .f64)
  · exact hmap .f32 _ _ (hout .f32)

theorem gainChannels_keeps (gain : D) (input : AudioBuffer) {out : AudioBuffer}
    (hout : ∀ size, ∀ p ∈ out.pointers size, ∀ i < frames, K size p i) (count : Nat) :
    ∀ (ch : Nat) (silent : Bool) {memory : AudioMemory D S}, memory₀.Agree K memory →
      Yields (gainChannels gain input out frames ch count (silent, memory)) fun acc =>
        memory₀.Agree K acc.2 := by
  induction count with
  | zero => exact fun ch silent memory h => .of_ok h
  | succ count ih =>
    intro ch silent memory h
    refine .andThen fun src => .bind (channel_at hout ch) fun dst hdst => ?_
    refine ih _ _ (frameLoop_keeps (P := fun acc : Bool × AudioMemory D S => memory₀.Agree K acc.2)
      frames 0 (fun i hi acc h => ?_) h)
    exact Channel.write_keeps (hdst i (by omega)) _ h

end EffectPlugin

end Ports

section Flavors

variable {S : Type} {block : ProcessBlock D} {memory : AudioMemory D S}

theorem fills_of_mem {buffer : AudioBuffer} (h : buffer ∈ block.audioOutputs) (size : SampleSize) :
    ∀ p ∈ buffer.pointers size, ∀ i < block.framesCount.toNat, block.Fills size p i :=
  fun _ hp _ hi => ⟨⟨buffer, h, hp⟩, hi⟩

theorem agree_f32 {K : SampleSize → Ptr → Nat → Prop} {m : Plane S}
    (h : Plane.Agree (K .f32) memory.f32 m) : memory.Agree K { memory with f32 := m } :=
  ⟨h, .refl _⟩

theorem agree_self {K : SampleSize → Ptr → Nat → Prop} : memory.Agree K memory :=
  ⟨.refl _, .refl _⟩

/-- The second channel of a buffer that has one. -/
theorem someChannel_mem (data : Option (List Ptr)) :
    Yields (some <$> channelAt data 1) fun right => ∀ p ∈ right, p ∈ data.getD [] := by
  cases hch : channelAt data 1 with
  | error fault => exact .of_error fault
  | ok p =>
    refine .of_ok fun q hq => ?_
    cases hq
    exact channelAt_mem data 1 p hch

variable [DoubleOps D] [FloatOps S] [FloatCast D S]

theorem SynthPlugin.processPlane_keeps [SampleOps D T] (s : State D S) (out : AudioBuffer)
    {data : Option (List Ptr)} {W : Ptr → Nat → Prop}
    (hout : ∀ p ∈ data.getD [], ∀ i < block.framesCount.toNat, W p i) (m : Plane T) :
    Yields (processPlane s block out data m) fun r => Plane.Agree W m r.2 := by
  refine .bind (channelAt_mem data 0) fun left hleft => ?_
  refine .bindBranch (someChannel_mem data) (.of_ok nofun) fun right hright => ?_
  refine .andThen fun headers => .andThen fun pushed => .of_ok ?_
  have hl := hout left hleft
  have hr : ∀ p ∈ right, ∀ i < block.framesCount.toNat, W p i := fun p hp => hout p (hright p hp)
  have hfirst := clearSamples_keeps (SampleOps.zero D) hl (.refl m)
  have hrender : ∀ (s' : State D S) (offset count : Nat) (m' : Plane T),
      offset + count ≤ block.framesCount.toNat → Plane.Agree W m m' →
      Plane.Agree W m (render left right (FloatCast.toFloat (s.params kParamVolume)) s' offset
        count m').2 :=
    fun s' _ _ _ hfits h => SineEngine.renderImpl_keeps hl hr s'.engine hfits _ h
  refine chunkLoop_keeps hrender handleEvent headers s ?_
  cases right with
  | none => exact hfirst
  | some right => exact clearSamples_keeps _ (hr right rfl) hfirst

theorem SynthPlugin.process_writes (base : Base D) (s : State D S) :
    Yields (process base s block memory) fun r => memory.Agree block.Fills r.2 := by
  unfold process
  split
  · exact .of_ok agree_self
  · rename_i out _ houts
    have hmem : out ∈ block.audioOutputs := houts ▸ List.mem_cons_self
    split
    · exact .of_ok agree_self
    · split
      · exact .bind (processPlane_keeps s out (fills_of_mem hmem .f64) memory.f64)
          fun r h => .of_ok ⟨.refl _, h⟩
      · split
        · exact .bind (processPlane_keeps s out (fills_of_mem hmem .f32) memory.f32)
            fun r h => .of_ok ⟨h, .refl _⟩
        · exact .of_ok agree_self

omit [DoubleOps D] in
theorem SidechainSynthPlugin.applySidechain_writes (s : State D S) {left : Ptr}
    {right : Option Ptr} {W : Ptr → Nat → Prop} {m₀ m : Plane S}
    (hleft : ∀ i < block.framesCount.toNat, W left i)
    (hright : ∀ p ∈ right, ∀ i < block.framesCount.toNat, W p i) (h : Plane.Agree W m₀ m) :
    Yields (applySidechain s block left right m) fun r => Plane.Agree W m₀ r.2 := by
  unfold applySidechain
  dsimp only
  split
  · exact .of_ok h
  · split
    · refine .andThen fun scLeft => .branch fun scRight => .of_ok ?_
      exact gate_keeps hleft hright _ scLeft scRight s.envelope h
    · exact .of_ok h

theorem SidechainSynthPlugin.process_writes (base : Base D) (s : State D S) :
    Yields (process base s block memory) fun r => memory.Agree block.Fills r.2 := by
  unfold process
  split
  · exact .of_ok agree_self
  · rename_i out _ houts
    have hmem : out ∈ block.audioOutputs := houts ▸ List.mem_cons_self
    split
    · exact .of_ok agree_self
    · refine .bind (channelAt_mem out.data32 0) fun left hleft => ?_
      refine .bindBranch (someChannel_mem out.data32) (.of_ok nofun) fun right hright => ?_
      have hl := fills_of_mem hmem .f32 left hleft
      have hr := fun p hp => fills_of_mem hmem .f32 p (hright p hp)
      refine .andThen fun headers => ?_
      have hrender : ∀ (s' : State D S) (offset count : Nat) (m' : Plane S),
          offset + count ≤ block.framesCount.toNat →
          Plane.Agree (block.Fills .f32) memory.f32 m' →
          Plane.Agree (block.Fills .f32) memory.f32 (render left right
            (FloatCast.toFloat (s.params kParamVolume)) s' offset count m').2 :=
        fun s' _ _ _ hfits h => SineEngine.renderImpl_keeps hl hr s'.engine hfits _ h
      have hfirst := clearSamples_keeps (FloatOps.lit 0) hl (.refl memory.f32)
      refine .bind (applySidechain_writes _ hl hr
        (chunkLoop_keeps hrender handleEvent headers s ?_)) fun r h => ?_
      · cases right with
        | none => exact hfirst
        | some right => exact clearSamples_keeps _ (hr right rfl) hfirst
      · exact .andThen fun pushed => .of_ok (agree_f32 h)

theorem ParamsZooPlugin.process_writes (base : Base D) (s : State D) :
    Yields (process base s block memory) fun r => memory.Agree block.Fills r.2 := by
  unfold process
  split
  · rename_i input _ output _ _ houts
    have hmem : output ∈ block.audioOutputs := houts ▸ List.mem_cons_self
    refine .andThen fun headers => ?_
    split
    · exact .of_ok agree_self
    · refine .andThen fun srcL => .branch fun srcR => ?_
      refine .bind (channelAt_mem output.data32 0) fun dstL hdstL => ?_
      refine .bindBranch (someChannel_mem output.data32) (.of_ok nofun) fun dstR hdstR => ?_
      have hl := fills_of_mem hmem .f32 dstL hdstL
      have hr := fun p hp => fills_of_mem hmem .f32 p (hdstR p hp)
      refine .of_ok (agree_f32 ?_)
      split
      · exact bypassLoop_keeps hl hr srcL srcR (.refl _)
      · exact shapeLoop_keeps hl hr _ srcL srcR (.refl _)
  · exact .of_ok agree_self

theorem process_writes [DoubleBits D] (flavor : Flavor) (base : Base D) (s : flavor.State D S) :
    Yields ((flavor.impl : PluginImpl D S _).process base s block memory) fun r =>
      memory.Agree block.Fills r.2 := by
  cases flavor with
  | synth => exact SynthPlugin.process_writes base s
  | sidechainSynth => exact SidechainSynthPlugin.process_writes base s
  | effect =>
    dsimp only [Flavor.impl, EffectPlugin.impl, EffectPlugin.process]
    split
    · rename_i input _ output _ _ houts
      have hmem : output ∈ block.audioOutputs := houts ▸ List.mem_cons_self
      refine .andThen fun headers => ?_
      split
      · exact .of_ok agree_self
      · exact .bind (EffectPlugin.gainChannels_keeps _ input
          (fun size => fills_of_mem hmem size) _ 0 true agree_self) fun r h => .of_ok h
    · exact .of_ok agree_self
  | multiOutGen =>
    refine .andThen fun headers => .bind (MultiOutGenPlugin.tonePorts_keeps base _ _
      (fun out hout => fills_of_mem (List.mem_of_mem_take hout) .f32) 0 _ (.refl _)) fun r h => ?_
    exact .of_ok (agree_f32 h)
  | multiOutFx =>
    dsimp only [Flavor.impl, MultiOutFxPlugin.impl, MultiOutFxPlugin.process]
    split
    · exact .andThen fun headers => .bind (MultiOutFxPlugin.fanOut_keeps _ _ _
        (fun out hout => fills_of_mem hout .f32) 0 (.refl _)) fun m h => .of_ok (agree_f32 h)
    · exact .of_ok agree_self
  | audioPortsZero => exact .andThen fun flushed => .of_ok agree_self
  | slow =>
    dsimp only [Flavor.impl, SlowPlugin.impl, SlowPlugin.process]
    split
    · rename_i houts
      exact .andThen fun flushed => .bind (copyChannels_keeps _
        (fills_of_mem (houts ▸ List.mem_cons_self) .f32) _ 0 (.refl _)) fun m h =>
          .of_ok (agree_f32 h)
    · exact .of_ok agree_self
  | hostCheck =>
    dsimp only [Flavor.impl, HostCheckPlugin.impl, HostCheckPlugin.process]
    split
    · rename_i houts
      exact .bind (copyChannels_keeps _ (fills_of_mem (houts ▸ List.mem_cons_self) .f32) _ 0
        (.refl _)) fun m h => .of_ok (agree_f32 h)
    · exact .of_ok agree_self
  | noteFx =>
    dsimp only [Flavor.impl, NoteFxPlugin.impl, NoteFxPlugin.process]
    split
    · exact .of_error _
    · split
      · exact .andThen fun out => .of_ok agree_self
      · exact .of_error _
  | paramsZoo => exact ParamsZooPlugin.process_writes base s
  | preset =>
    dsimp only [Flavor.impl, PresetPlugin.impl, PresetPlugin.process]
    split
    · rename_i houts
      exact .andThen fun headers => .bind (mapChannels_keeps _ _
        (fills_of_mem (houts ▸ List.mem_cons_self) .f32) _ 0 (.refl _)) fun m h =>
          .of_ok (agree_f32 h)
    · exact .of_ok agree_self
  | surround =>
    dsimp only [Flavor.impl, SurroundPlugin.impl, SurroundPlugin.process]
    split
    · rename_i houts
      exact .andThen fun headers => .bind (mapChannels_keeps _ _
        (fills_of_mem (houts ▸ List.mem_cons_self) .f32) _ 0 (.refl _)) fun m h =>
          .of_ok (agree_f32 h)
    · exact .of_ok agree_self
  | gui =>
    dsimp only [Flavor.impl, GuiPlugin.impl, GuiPlugin.process]
    split
    · rename_i houts
      exact .andThen fun headers => .bind (mapChannels_keeps _ _
        (fills_of_mem (houts ▸ List.mem_cons_self) .f32) _ 0 (.refl _)) fun m h =>
          .of_ok (agree_f32 h)
    · exact .of_ok agree_self

/-- What the host gets back from `process()`, whatever it has passed. -/
theorem sProcess_keeps [DoubleBits D] (flavor : Flavor) (p : Plugin D (flavor.State D S))
    (thread : ThreadId) (block : ProcessBlock D) (memory : AudioMemory D S) :
    Yields (p.sProcess (flavor.impl : PluginImpl D S _) thread block memory) fun r =>
      memory.Agree block.Fills r.2.memory := by
  unfold Plugin.sProcess
  split
  · exact .of_ok agree_self
  · rename_i p' _
    have hkeeps : Yields ((flavor.impl : PluginImpl D S _).process p'.base p'.self block memory)
        fun r => memory.Agree block.Fills r.2 := process_writes flavor p'.base p'.self
    split
    · exact .of_error _
    · rename_i out memory' hprocess
      exact .of_ok (hkeeps _ hprocess)

end Flavors

end Cvp
