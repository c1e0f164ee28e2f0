/-
  What the host leaves in its output buffers. A block that fits the ports has every sample of its
  outputs written before it is read, in every flavor (`process_overwrites`), so two sessions that
  differ only there go through the same states and are answered alike (`session_alongside`).
-/
import Mathlib.Data.Set.List
import ClapValidatorPlugins.Blocks.Refilling
import ClapValidatorPlugins.Contract.LegalHost
import ClapValidatorPlugins.Events.Calls

namespace Cvp

variable {D : Type}

/-! ## Blocks -/

/-- All buffers have samples of the size, a pointer for each channel. -/
def ProcessBlock.Uniform (block : ProcessBlock D) (size : SampleSize) : Prop :=
  ∀ isInput, ∀ buffer ∈ block.buffers isInput, ∃ ps, buffer = size.buffer ps

/-- The samples a block asks for, but for those in channels it also reads. -/
def ProcessBlock.Fresh (block : ProcessBlock D) (size : SampleSize) (p : Ptr) (i : Nat) : Prop :=
  block.Fills size p i ∧ ∀ buffer ∈ block.audioInputs, p ∉ buffer.pointers size

section OnePort

variable {S σ : Type} {impl : PluginImpl D S σ} {s : σ} {size : SampleSize}
  {block : ProcessBlock D} {memory memory' : AudioMemory D S}

theorem pointers_buffer (size : SampleSize) (ps : List Ptr) :
    (size.buffer ps).pointers size = ps := by
  cases size <;> rfl

/-- What may differ is of the one size, in outputs that are no inputs. -/
theorem fresh_inPlane {ins outs : List (List Ptr)}
    (hins : block.audioInputs = ins.map size.buffer)
    (houts : block.audioOutputs = outs.map size.buffer) (h : memory.Agree block.Fresh memory') :
    memory.Agree (InPlane size fun p i =>
      (p ∈ outs.flatten ∧ p ∉ ins.flatten) ∧ i < block.framesCount.toNat) memory' := by
  have hfresh : ∀ size' p i, block.Fresh size' p i →
      InPlane size (fun p i =>
        (p ∈ outs.flatten ∧ p ∉ ins.flatten) ∧ i < block.framesCount.toNat) size' p i := by
    rintro size' p i ⟨⟨⟨buffer, hbuffer, hp⟩, hi⟩, hread⟩
    rw [houts] at hbuffer
    obtain ⟨qs, hqs, rfl⟩ := List.mem_map.mp hbuffer
    have hsize : size' = size := by
      cases size <;> cases size'
      · rfl
      · exact absurd hp List.not_mem_nil
      · exact absurd hp List.not_mem_nil
      · rfl
    subst hsize
    rw [pointers_buffer] at hp
    refine ⟨rfl, ⟨List.mem_flatten.mpr ⟨qs, hqs, hp⟩, fun hmem => ?_⟩, hi⟩
    obtain ⟨ps, hps, hp'⟩ := List.mem_flatten.mp hmem
    refine hread (size'.buffer ps) (hins ▸ List.mem_map_of_mem hps) ?_
    rwa [pointers_buffer]
  exact ⟨h.f32.mono (hfresh .f32), h.f64.mono (hfresh .f64)⟩

theorem ProcessBlock.Uniform.lists (hall : block.Uniform size) (isInput : Bool) :
    ∃ ports : List (List Ptr), ports.map size.buffer = block.buffers isInput := by
  have hrange : block.buffers isInput ∈ Set.range (List.map size.buffer) := by
    rw [Set.range_list_map]
    exact fun buffer hbuffer => (hall isInput buffer hbuffer).imp fun _ h => h.symm
  exact hrange

/-- A block with one input port is the one put in place there. -/
theorem ProcessBlock.placed_eq {ps : List Ptr} {outs : List (List Ptr)}
    (hins : block.audioInputs = [size.buffer ps])
    (houts : block.audioOutputs = outs.map size.buffer) :
    block.placed size ⟨ps, outs⟩ = block := by
  unfold ProcessBlock.placed
  dsimp only
  rw [← hins, ← houts]

/-- The channels of the declared ports, and what may differ there. -/
theorem FitsPorts.channels (hfits : FitsPorts impl s block) (hall : block.Uniform size)
    (h : memory.Agree block.Fresh memory') :
    ∃ ins outs : List (List Ptr), block.audioInputs = ins.map size.buffer ∧
      block.audioOutputs = outs.map size.buffer ∧
      List.Forall₂ LegalBuffer (Plugin.declaredPorts impl s true) (ins.map size.buffer) ∧
      List.Forall₂ LegalBuffer (Plugin.declaredPorts impl s false) (outs.map size.buffer) ∧
      memory.Agree (InPlane size fun p i =>
        (p ∈ outs.flatten ∧ p ∉ ins.flatten) ∧ i < block.framesCount.toNat) memory' := by
  obtain ⟨ins, hins⟩ := hall.lists true
  obtain ⟨outs, houts⟩ := hall.lists false
  exact ⟨ins, outs, hins.symm, houts.symm, hins ▸ hfits true, houts ▸ hfits false,
    fresh_inPlane hins.symm houts.symm h⟩

theorem legal_none {ports : List (List Ptr)}
    (h : List.Forall₂ LegalBuffer [] (ports.map size.buffer)) : ports = [] :=
  List.map_eq_nil_iff.mp (List.forall₂_nil_left_iff.mp h)

theorem legal_single {l : PortLayout} {ports : List (List Ptr)}
    (h : List.Forall₂ LegalBuffer [l] (ports.map size.buffer)) :
    ∃ ps, ports = [ps] ∧ LegalBuffer l (size.buffer ps) := by
  have hlen := h.length_eq
  rw [List.length_map] at hlen
  obtain ⟨ps, rfl⟩ := List.length_eq_one_iff.mp hlen.symm
  exact ⟨ps, rfl, (List.forall₂_cons.mp h).1⟩

/-- A flavor without output ports: the memories are the same. -/
theorem noOutputs_eq (hfits : FitsPorts impl s block) (hall : block.Uniform size)
    (h : memory.Agree block.Fresh memory') (hports : Plugin.declaredPorts impl s false = []) :
    memory = memory' := by
  obtain ⟨ins, outs, -, -, -, hout, hagree⟩ := hfits.channels hall h
  rw [hports] at hout
  obtain rfl := legal_none hout
  exact hagree.eq_of_inPlane fun p i hp => List.not_mem_nil hp.1.1

/-- A flavor with one port each way. -/
theorem onePort_unfilled {n : Nat} {layout : Bool → PortLayout}
    (hfits : FitsPorts impl s block) (hall : block.Uniform size)
    (h : memory.Agree block.Fresh memory')
    (hports : ∀ isInput, Plugin.declaredPorts impl s isInput = [layout isInput])
    (hn : ∀ isInput, (layout isInput).channels = n) :
    ∃ ps qs, block = block.placed size ⟨ps, [qs]⟩ ∧ (ps.length = n ∧ qs.length = n) ∧
      LegalBuffer (layout true) (size.buffer ps) ∧
      memory.Agree (InPlane size fun p i =>
        (p ∈ qs ∧ p ∉ ps) ∧ i < block.framesCount.toNat) memory' := by
  obtain ⟨ins, outs, hins, houts, hin, hout, hagree⟩ := hfits.channels hall h
  rw [hports] at hin hout
  obtain ⟨ps, rfl, hps⟩ := legal_single hin
  obtain ⟨qs, rfl, hqs⟩ := legal_single hout
  rw [List.flatten_singleton, List.flatten_singleton] at hagree
  exact ⟨ps, qs, (ProcessBlock.placed_eq hins houts).symm,
    ⟨hps.length.trans (hn true), hqs.length.trans (hn false)⟩, hps, hagree⟩

end OnePort

/-! ### The passes of the flavors with one port each way -/

/-- Two memories that differ only where the channels `qs` are to be filled, and are not read. -/
structure Unfilled {D S : Type} (n frames : Nat) (ps qs : List Ptr)
    (memory memory' : AudioMemory D S) : Prop where
  lengths : ps.length = n ∧ qs.length = n
  f32 : Plane.AgreeBut (fun p => p ∈ qs ∧ p ∉ ps) frames memory.f32 memory'.f32
  f64 : memory.f64 = memory'.f64

namespace Unfilled

variable {D S σ : Type} {n frames : Nat} {ps qs : List Ptr} {memory memory' : AudioMemory D S}
  (h : Unfilled n frames ps qs memory memory')
include h

theorem eq_of_beyond {m m' : Plane S}
    (hm : Plane.AgreeBut (Beyond (fun p => p ∈ qs ∧ p ∉ ps) qs (0 + n)) frames m m') : m = m' := by
  refine hm.eq fun p hp => ?_
  rw [Nat.zero_add, ← h.lengths.2, Beyond, List.take_length] at hp
  exact hp.2 hp.1.1

theorem mapped (f : Nat → S → S) (out : Outcome D σ ProcessStatus) :
    (mapChannels f (SampleSize.f32.buffer ps) (SampleSize.f32.buffer qs) frames 0 n
        memory.f32 >>= fun m => .ok (out, { memory with f32 := m })) =
      (mapChannels f (SampleSize.f32.buffer ps) (SampleSize.f32.buffer qs) frames 0 n
        memory'.f32 >>= fun m => .ok (out, { memory' with f32 := m }) :
        Exec (Outcome D σ ProcessStatus × AudioMemory D S)) := by
  have hrun := mapChannels_agree (K := fun p => p ∈ qs ∧ p ∉ ps) (data32_buffer ps)
    (data32_buffer qs) (fun p hp hK => hK.2 hp) f n 0
    (h.f32.congr fun p hp => ⟨hp, List.not_mem_nil⟩)
  rw [(hrun.mono fun m m' => h.eq_of_beyond).eq, h.f64]

theorem copied (out : Outcome D σ ProcessStatus) :
    (copyChannels (SampleSize.f32.buffer ps) (SampleSize.f32.buffer qs) frames 0 n
        memory.f32 >>= fun m => .ok (out, { memory with f32 := m })) =
      (copyChannels (SampleSize.f32.buffer ps) (SampleSize.f32.buffer qs) frames 0 n
        memory'.f32 >>= fun m => .ok (out, { memory' with f32 := m }) :
        Exec (Outcome D σ ProcessStatus × AudioMemory D S)) := by
  have hrun := copyChannels_agree (K := fun p => p ∈ qs ∧ p ∉ ps) (data32_buffer ps)
    (data32_buffer qs) (fun p hp hK => hK.2 hp) n 0 (h.f32.congr fun p hp => ⟨hp, List.not_mem_nil⟩)
  rw [(hrun.mono fun m m' => h.eq_of_beyond).eq, h.f64]

end Unfilled

section OnePortFlavors

variable {D S : Type} [DoubleOps D] [FloatOps S] [FloatCast D S] {n : Nat} {ps qs : List Ptr}
  {memory memory' : AudioMemory D S} {block : ProcessBlock D}
  (h : Unfilled n block.framesCount.toNat ps qs memory memory')
include h

omit [DoubleOps D] [FloatOps S] [FloatCast D S] in
theorem SlowPlugin.overwrites (base : Base D) (s : State D) :
    process base s (block.placed .f32 ⟨ps, [qs]⟩) memory =
      process base s (block.placed .f32 ⟨ps, [qs]⟩) memory' := by
  refine bind_congr fun flushed => ?_
  rw [commonChannels_buffers h.lengths]
  exact h.copied _

omit [DoubleOps D] [FloatOps S] [FloatCast D S] in
theorem HostCheckPlugin.overwrites (base : Base D) (s : State) :
    process base s (block.placed .f32 ⟨ps, [qs]⟩) memory =
      process base s (block.placed .f32 ⟨ps, [qs]⟩) memory' := by
  show (copyChannels _ _ _ 0 (commonChannels _ _) _ >>= _) =
    (copyChannels _ _ _ 0 (commonChannels _ _) _ >>= _)
  rw [commonChannels_buffers h.lengths]
  exact h.copied _

theorem PresetPlugin.overwrites (base : Base D) (s : State D) :
    process base s (block.placed .f32 ⟨ps, [qs]⟩) memory =
      process base s (block.placed .f32 ⟨ps, [qs]⟩) memory' := by
  refine bind_congr fun headers => ?_
  dsimp only
  rw [commonChannels_buffers h.lengths]
  exact h.mapped _ _

theorem GuiPlugin.overwrites (base : Base D) (s : State D) :
    process base s (block.placed .f32 ⟨ps, [qs]⟩) memory =
      process base s (block.placed .f32 ⟨ps, [qs]⟩) memory' := by
  refine bind_congr fun headers => ?_
  dsimp only
  rw [commonChannels_buffers h.lengths]
  exact h.mapped _ _

theorem SurroundPlugin.overwrites (base : Base D) (s : State D)
    (hn : n = (layout s).channelCount) :
    process base s (block.placed .f32 ⟨ps, [qs]⟩) memory =
      process base s (block.placed .f32 ⟨ps, [qs]⟩) memory' := by
  refine bind_congr fun headers => ?_
  have hlayout : (layout (consume (fun s e => .done (applyParamEvent s e)) s headers).self) =
      layout s := by
    rw [consume_done]
    exact congrArg layoutAt (foldl_layoutIndex headers s)
  dsimp only
  rw [commonChannels_buffers h.lengths, hlayout, ← hn, Nat.min_self]
  exact h.mapped _ _

end OnePortFlavors

theorem ParamsZooPlugin.overwrites {D S : Type} [DoubleOps D] [FloatOps S] [FloatCast D S]
    {ps qs : List Ptr} {memory memory' : AudioMemory D S} {block : ProcessBlock D}
    (h : Unfilled 2 block.framesCount.toNat ps qs memory memory') (base : Base D) (s : State D) :
    process base s (block.placed .f32 ⟨ps, [qs]⟩) memory =
      process base s (block.placed .f32 ⟨ps, [qs]⟩) memory' := by
  obtain ⟨⟨hps, hqs⟩, h32, h64⟩ := h
  obtain ⟨srcL, srcR, rfl⟩ := List.length_eq_two.mp hps
  obtain ⟨dstL, dstR, rfl⟩ := List.length_eq_two.mp hqs
  have hdst : ∀ p, p ∈ [dstL, dstR] ∧ p ∉ [srcL, srcR] → p = dstL ∨ p = dstR :=
    fun p hp => List.mem_pair.mp hp.1
  have hsrcL : ¬ (srcL ∈ [dstL, dstR] ∧ srcL ∉ [srcL, srcR]) := fun hp => hp.2 List.mem_cons_self
  have hsrcR : ¬ (srcR ∈ [dstL, dstR] ∧ srcR ∉ [srcL, srcR]) := fun hp =>
    hp.2 (List.mem_cons_of_mem _ List.mem_cons_self)
  refine bind_congr fun headers => ?_
  generalize (consume (fun s e => .done (applyParamEvent s e)) s headers).self = s
  let s₁ (memory : AudioMemory D S) : State D := { s with
    params := Function.update s.params kParamPeak (minDouble
      (measurePeak (s.params kParamPeak) srcL srcR block.framesCount.toNat memory.f32)
      (DoubleOps.lit 1)) }
  have hstate : s₁ memory = s₁ memory' := by
    unfold s₁
    rw [measurePeak_agree hsrcL hsrcR _ h32]
  show Except.ok (Outcome.just ProcessStatus.continue (s₁ memory), { memory with
      f32 := if DoubleOps.le (DoubleOps.lit (1 / 2)) ((s₁ memory).params kParamBypass) then
          bypassLoop srcL srcR dstL (some dstR) block.framesCount.toNat memory.f32
        else shapeLoop (s₁ memory) srcL srcR dstL (some dstR) block.framesCount.toNat
          memory.f32 }) =
    .ok (Outcome.just ProcessStatus.continue (s₁ memory'), { memory' with
      f32 := if DoubleOps.le (DoubleOps.lit (1 / 2)) ((s₁ memory').params kParamBypass) then
          bypassLoop srcL srcR dstL (some dstR) block.framesCount.toNat memory'.f32
        else shapeLoop (s₁ memory') srcL srcR dstL (some dstR) block.framesCount.toNat
          memory'.f32 })
  rw [hstate, bypassLoop_agree hdst hsrcL hsrcR h32, shapeLoop_agree hdst hsrcL hsrcR _ h32, h64]

theorem EffectPlugin.overwrites {D S : Type} [DoubleOps D] [FloatOps S] [FloatCast D S]
    {size : SampleSize} {n : Nat} {ps qs : List Ptr} {memory memory' : AudioMemory D S}
    {block : ProcessBlock D} (hlen : ps.length = n ∧ qs.length = n)
    (h : memory.Agree (InPlane size fun p i => (p ∈ qs ∧ p ∉ ps) ∧ i < block.framesCount.toNat)
      memory') (base : Base D) (s : State D) :
    process base s (block.placed size ⟨ps, [qs]⟩) memory =
      process base s (block.placed size ⟨ps, [qs]⟩) memory' := by
  have hdata : ∀ ps, noData (size.buffer ps) = false := fun ps => by cases size <;> rfl
  have hsame : ∀ gain : D, gainChannels gain (size.buffer ps) (size.buffer qs)
      block.framesCount.toNat 0 n (true, memory) = gainChannels gain (size.buffer ps)
      (size.buffer qs) block.framesCount.toNat 0 n (true, memory') := by
    intro gain
    have hrun := gainChannels_agree (K := fun p => p ∈ qs ∧ p ∉ ps) gain qs
      (fun p hp hK => hK.2 hp) n 0 true
      (h.inPlane_mono fun p i hp => ⟨⟨hp.1, List.not_mem_nil⟩, hp.2⟩)
    refine (hrun.mono fun acc acc' hacc => Prod.ext hacc.1 ?_).eq
    refine hacc.2.eq_of_inPlane fun p i hp => ?_
    rw [Nat.zero_add, ← hlen.2, Beyond, List.take_length] at hp
    exact hp.1.2 hp.1.1.1
  refine bind_congr fun headers => ?_
  dsimp only
  rw [hdata, hdata, commonChannels_buffers hlen]
  show (gainChannels _ (size.buffer ps) (size.buffer qs) block.framesCount.toNat 0 n
      (true, memory) >>= _) = (gainChannels _ (size.buffer ps) (size.buffer qs)
      block.framesCount.toNat 0 n (true, memory') >>= _)
  rw [hsame]

section Results

variable {D S : Type} [DoubleOps D] [FloatOps S] [FloatCast D S] [DoubleBits D]
  {size : SampleSize} {block : ProcessBlock D} {memory memory' : AudioMemory D S}

omit [DoubleOps D] [FloatOps S] [FloatCast D S] [DoubleBits D] in
/-- The passes over 32-bit channels, with one port each way. -/
theorem overwrites_onePort {σ : Type} {impl : PluginImpl D S σ} {s : σ} {n : Nat}
    {layout : Bool → PortLayout} (hfits : FitsPorts impl s block) (hall : block.Uniform size)
    (h : memory.Agree block.Fresh memory')
    (hports : ∀ isInput, Plugin.declaredPorts impl s isInput = [layout isInput])
    (hn : ∀ isInput, (layout isInput).channels = n)
    (h32 : (layout true).flags.supports64Bits = false)
    {process : ProcessBlock D → AudioMemory D S →
      Exec (Outcome D σ ProcessStatus × AudioMemory D S)}
    (hprocess : ∀ {ps qs}, Unfilled n block.framesCount.toNat ps qs memory memory' →
      process (block.placed .f32 ⟨ps, [qs]⟩) memory =
        process (block.placed .f32 ⟨ps, [qs]⟩) memory') :
    process block memory = process block memory' := by
  obtain ⟨ps, qs, hblock, hlen, hps, hagree⟩ := onePort_unfilled hfits hall h hports hn
  obtain rfl := hps.f32 h32
  obtain ⟨hplane, h64⟩ := hagree.inPlane_f32
  have hrun := hprocess ⟨hlen, hplane, h64⟩
  rwa [← hblock] at hrun

theorem MultiOutFxPlugin.overwrites (base : Base D) (s : State D)
    (hfits : FitsPorts (impl : PluginImpl D S _) s block) (hall : block.Uniform size)
    (h : memory.Agree block.Fresh memory') :
    process base s block memory = process base s block memory' := by
  obtain ⟨ins, outs, hins, houts, hin, -, hagree⟩ := hfits.channels hall h
  obtain ⟨ps, rfl, hps⟩ := legal_single hin
  obtain rfl := hps.f32 rfl
  have hblock := ProcessBlock.placed_eq hins houts
  rw [← hblock] at hfits
  obtain ⟨-, hlens⟩ := hfits.outputs rfl (declaredPorts_channels s)
  have hlen := hps.length
  rw [List.flatten_singleton] at hagree
  obtain ⟨hplane, h64⟩ := hagree.inPlane_f32
  have hsame := fun auxLevel : S => fanOut_agree auxLevel
    (fun qs hqs => hlen.trans (hlens qs hqs).symm) 0 hplane
  unfold process
  rw [hins, houts]
  cases outs with
  | nil => rw [hagree.eq_of_inPlane fun p i hp => List.not_mem_nil hp.1.1]
  | cons qs outs =>
    refine bind_congr fun headers => ?_
    dsimp only at hsame ⊢
    rw [hsame, h64]

theorem MultiOutGenPlugin.declaredPorts_f32 (s : State D) :
    ∀ l ∈ Plugin.declaredPorts (impl : PluginImpl D S _) s false,
      l.flags.supports64Bits = false := by
  intro l hl
  obtain ⟨i, hi, rfl⟩ := List.mem_map.mp hl
  have hi : i < currentPortCount s := List.mem_range.mp hi
  have hinfo : audioPortInfo s i false = some (multiOutPort i none) := by
    unfold audioPortInfo
    rw [Bool.false_or, if_neg (by simpa using hi)]
  dsimp only [impl]
  rw [hinfo]
  unfold multiOutPort
  dsimp only
  split <;> rfl

theorem MultiOutGenPlugin.declaredPorts_le (s : State D) :
    (Plugin.declaredPorts (impl : PluginImpl D S _) s false).length ≤ kMaxPorts := by
  show (List.map _ (List.range (currentPortCount s))).length ≤ kMaxPorts
  rw [List.length_map, List.length_range]
  unfold currentPortCount
  split <;> decide

theorem MultiOutGenPlugin.overwrites (base : Base D) (s : State D)
    (hfits : FitsPorts (impl : PluginImpl D S _) s block) (hall : block.Uniform size)
    (h : memory.Agree block.Fresh memory') :
    process base s block memory = process base s block memory' := by
  obtain ⟨ins, outs, -, houts, -, hout, hagree⟩ := hfits.channels hall h
  have hcount : (outs.map size.buffer).length ≤ kMaxPorts := hout.length_eq ▸ declaredPorts_le s
  cases outs with
  | nil =>
    rw [hagree.eq_of_inPlane fun p i hp => List.not_mem_nil hp.1.1]
  | cons qs outs =>
    obtain ⟨l, ls, hqs, -, hls⟩ := List.forall₂_cons_right_iff.mp hout
    obtain rfl := hqs.f32 (declaredPorts_f32 s l (hls ▸ List.mem_cons_self))
    obtain ⟨hplane, h64⟩ := hagree.inPlane_f32
    have hsame := fun (level : S) (phases : Nat → D) => tonePorts_agree base level 0 phases
      (hplane.mono fun p i hp => ⟨hp.1.1, hp.2⟩)
    unfold process
    rw [houts, List.take_of_length_le hcount]
    refine bind_congr fun headers => ?_
    dsimp only
    rw [hsame, h64]

theorem SynthPlugin.overwrites (base : Base D) (s : State D S)
    (hfits : FitsPorts (impl : PluginImpl D S _) s block) (hall : block.Uniform size)
    (h : memory.Agree block.Fresh memory') :
    process base s block memory = process base s block memory' := by
  obtain ⟨ins, outs, -, houts, -, hout, hagree⟩ := hfits.channels hall h
  obtain ⟨qs, rfl, hqs⟩ := legal_single hout
  obtain ⟨left, right, rfl⟩ := List.length_eq_two.mp hqs.length
  exact process_agree base s houts (hagree.inPlane_mono fun p i hp =>
    ⟨List.flatten_singleton (l := [left, right]) ▸ hp.1.1, hp.2⟩)

theorem SidechainSynthPlugin.overwrites (base : Base D) (s : State D S)
    (hfits : FitsPorts (impl : PluginImpl D S _) s block) (hall : block.Uniform size)
    (h : memory.Agree block.Fresh memory') :
    process base s block memory = process base s block memory' := by
  obtain ⟨ins, outs, -, houts, -, hout, hagree⟩ := hfits.channels hall h
  obtain ⟨qs, rfl, hqs⟩ := legal_single hout
  obtain rfl := hqs.f32 rfl
  obtain ⟨left, right, rfl⟩ := List.length_eq_two.mp hqs.length
  exact process_agree base s houts (hagree.inPlane_mono fun p i hp =>
    ⟨List.flatten_singleton (l := [left, right]) ▸ hp.1.1, hp.2⟩)

namespace Flavor

/-- What the host has left in its output buffers makes no difference to a `process` whose block
    fits the ports. -/
theorem process_overwrites (flavor : Flavor) (base : Base D) (s : flavor.State D S)
    (hfits : FitsPorts (flavor.impl : PluginImpl D S _) s block) (hall : block.Uniform size)
    (h : memory.Agree block.Fresh memory') :
    (flavor.impl : PluginImpl D S _).process base s block memory =
      (flavor.impl : PluginImpl D S _).process base s block memory' := by
  cases flavor with
  | synth => exact SynthPlugin.overwrites base s hfits hall h
  | sidechainSynth => exact SidechainSynthPlugin.overwrites base s hfits hall h
  | effect =>
    obtain ⟨ps, qs, hblock, hlen, -, hagree⟩ :=
      onePort_unfilled hfits hall h (n := 2) (fun _ => rfl) fun _ => rfl
    have hrun := EffectPlugin.overwrites hlen hagree base s
    rwa [← hblock] at hrun
  | multiOutGen => exact MultiOutGenPlugin.overwrites base s hfits hall h
  | multiOutFx => exact MultiOutFxPlugin.overwrites base s hfits hall h
  | audioPortsZero => rw [noOutputs_eq hfits hall h rfl]
  | slow =>
    exact overwrites_onePort hfits hall h (fun _ => rfl) (fun _ => rfl) rfl
      fun h => SlowPlugin.overwrites h base s
  | hostCheck =>
    exact overwrites_onePort hfits hall h (fun _ => rfl) (fun _ => rfl) rfl
      fun h => HostCheckPlugin.overwrites h base s
  | noteFx => rw [noOutputs_eq hfits hall h rfl]
  | paramsZoo =>
    exact overwrites_onePort hfits hall h (fun _ => rfl) (fun _ => rfl) rfl
      fun h => ParamsZooPlugin.overwrites h base s
  | preset =>
    exact overwrites_onePort hfits hall h (fun _ => rfl) (fun _ => rfl) rfl
      fun h => PresetPlugin.overwrites h base s
  | surround =>
    exact overwrites_onePort hfits hall h (fun _ => rfl) (fun _ => rfl) rfl
      fun h => SurroundPlugin.overwrites h base s rfl
  | gui =>
    exact overwrites_onePort hfits hall h (fun _ => rfl) (fun _ => rfl) rfl
      fun h => GuiPlugin.overwrites h base s

end Flavor

end Results

/-! ## Sessions -/

section Sessions

variable {D S : Type}

/-- The same call, except that the host may have left other samples where a block is filled. -/
inductive SameCall : ThreadId × Call D S → ThreadId × Call D S → Prop
  | same (l : ThreadId × Call D S) : SameCall l l
  | process (thread : ThreadId) (block : ProcessBlock D) {memory memory' : AudioMemory D S}
      (h : memory.Agree block.Fresh memory') :
      SameCall (thread, .process block memory) (thread, .process block memory')

/-- The same answer to a block. A block the wrapper turns away leaves the memory as it was. -/
structure SameAnswer (r r' : Plugin.ProcessReply D S) : Prop where
  status : r.status = r'.status
  pushed : r.pushed = r'.pushed
  memory : r.status ≠ .error → r.memory = r'.memory

structure AlikeReply (o o' : Reply D S) : Prop where
  hostCalls : o.hostCalls = o'.hostCalls
  result : o.result = o'.result ∨
    ∃ r r', o.result = .process r ∧ o'.result = .process r' ∧ SameAnswer r r'

/-- A block that comes through to the flavor fits its ports and has samples of one size. -/
def FitsInstance {σ : Type} (impl : PluginImpl D S σ) (i : Instance D σ)
    (l : ThreadId × Call D S) : Prop :=
  ∀ p block memory, i = .alive p → l.2 = .process block memory →
    (Plugin.processGate { p with hostCalls := [] } l.1 block).1 = .forward →
      FitsPorts impl p.self block ∧ ∃ size, block.Uniform size

namespace Flavor

variable [DoubleOps D] [FloatOps S] [FloatCast D S] [DoubleBits D]

theorem sProcess_alongside (flavor : Flavor) (p : Plugin D (flavor.State D S))
    (thread : ThreadId) {block : ProcessBlock D} {memory memory' : AudioMemory D S}
    (hfits : (p.processGate thread block).1 = .forward →
      FitsPorts (flavor.impl : PluginImpl D S _) p.self block ∧ ∃ size, block.Uniform size)
    (h : memory.Agree block.Fresh memory') :
    Alongside (fun r r' => r.1 = r'.1 ∧ SameAnswer r.2 r'.2)
      (p.sProcess (flavor.impl : PluginImpl D S _) thread block memory)
      (p.sProcess (flavor.impl : PluginImpl D S _) thread block memory') := by
  obtain ⟨-, hself⟩ := p.processGate_keeps thread block
  unfold Plugin.sProcess
  generalize p.processGate thread block = gated at hfits hself
  obtain ⟨gate, q⟩ := gated
  cases gate with
  | reject => exact ⟨rfl, rfl, rfl, fun hne => absurd rfl hne⟩
  | forward =>
    obtain ⟨hports, size, huniform⟩ := hfits rfl
    dsimp only at hself ⊢
    rw [← hself] at hports
    rw [flavor.process_overwrites q.base q.self hports huniform h]
    exact .refl (fun r => ⟨rfl, rfl, rfl, fun _ => rfl⟩) _

theorem hostStep_alongside (flavor : Flavor) (i : Instance D (flavor.State D S))
    (l l' : ThreadId × Call D S) (h : SameCall l l')
    (hfits : FitsInstance (flavor.impl : PluginImpl D S _) i l) :
    Alongside (fun r r' => r.1 = r'.1 ∧ AlikeReply r.2 r'.2)
      (hostStep (flavor.impl : PluginImpl D S _) i l)
      (hostStep (flavor.impl : PluginImpl D S _) i l') := by
  cases h with
  | same => exact .refl (fun r => ⟨rfl, rfl, .inl rfl⟩) _
  | @process thread block memory memory' h =>
    cases i with
    | deleted contract => exact .error _
    | alive p =>
      have hanswer := flavor.sProcess_alongside { p with hostCalls := [] } thread
        (hfits p block memory rfl rfl) h
      unfold hostStep Plugin.call
      dsimp only
      rcases hanswer.split with ⟨e, hx, hy⟩ | ⟨⟨q, r⟩, ⟨q', r'⟩, hx, hy, hsame, hr⟩
      · rw [hx, hy]
        exact .error e
      · obtain rfl : q = q' := hsame
        rw [hx, hy]
        exact ⟨rfl, rfl, .inr ⟨r, r', rfl, rfl, hr⟩⟩

/-- Whatever the host has left in its output buffers, in any of the blocks of a session, the
    instance goes through the same states and gives the same answers. -/
theorem session_alongside (flavor : Flavor) (i : Instance D (flavor.State D S))
    {ls ls' : List (ThreadId × Call D S)} (h : List.Forall₂ SameCall ls ls')
    (hfits : Machine.AllTried (hostStep (flavor.impl : PluginImpl D S _))
      (FitsInstance flavor.impl) i ls) :
    Alongside (fun r r' => r.1 = r'.1 ∧ List.Forall₂ AlikeReply r.2 r'.2)
      (Machine.run (hostStep (flavor.impl : PluginImpl D S _)) i ls)
      (Machine.run (hostStep (flavor.impl : PluginImpl D S _)) i ls') :=
  Machine.run_alongside (flavor.hostStep_alongside) h hfits

end Flavor

end Sessions

/-- The output channels of `gainBlock` hold something else, as far as it is to fill them. -/
def leftOver : AudioMemory ExactFloat ExactFloat :=
  { f32 := fun p i => if (p = 2 ∨ p = 3) ∧ i < 4 then 9 else 0, f64 := fun _ _ => 0 }

def gainCallsLeftOver : List (ThreadId × Call ExactFloat ExactFloat) :=
  [(0, .init []), (0, .activate 48000 1 64), (0, .startProcessing),
    (0, .process gainBlock leftOver)]

theorem session_alongside_leftOver :
    Alongside (fun r r' => r.1 = r'.1 ∧ List.Forall₂ AlikeReply r.2 r'.2)
      (Machine.run (hostStep Flavor.effect.impl)
        (.alive (Flavor.effect.instantiate ExactFloat none)) gainCalls)
      (Machine.run (hostStep Flavor.effect.impl)
        (.alive (Flavor.effect.instantiate ExactFloat none)) gainCallsLeftOver) := by
  have hsame : List.Forall₂ SameCall gainCalls gainCallsLeftOver := by
    refine .cons (.same _) (.cons (.same _) (.cons (.same _)
      (.cons (.process 0 gainBlock ?_) .nil)))
    refine ⟨fun p i hp => ?_, fun _ _ _ => rfl⟩
    refine (if_neg fun hat => hp ?_).symm
    refine ⟨⟨⟨_, List.mem_cons_self, ?_⟩, hat.2⟩, fun buffer hbuffer hread => ?_⟩
    · exact hat.1.elim (fun h => h ▸ List.mem_cons_self)
        fun h => h ▸ List.mem_cons_of_mem _ List.mem_cons_self
    · rw [List.mem_singleton.mp hbuffer] at hread
      rcases List.mem_pair.mp hread with rfl | rfl
      · exact absurd hat.1 (by decide)
      · exact absurd hat.1 (by decide)
  have huniform : gainBlock.Uniform .f32 := by
    intro isInput buffer hbuffer
    cases isInput
    · exact ⟨[2, 3], List.mem_singleton.mp hbuffer⟩
    · exact ⟨[0, 1], List.mem_singleton.mp hbuffer⟩
  have hfits : ∀ {i l}, l ∈ gainCalls →
      FitsInstance (Flavor.effect.impl : PluginImpl ExactFloat ExactFloat _) i l := by
    intro i l hl p block memory _ hblock _
    obtain rfl : block = gainBlock := by
      rcases List.mem_cons.mp hl with rfl | hl
      · cases hblock
      · rcases List.mem_cons.mp hl with rfl | hl
        · cases hblock
        · rcases List.mem_pair.mp hl with rfl | rfl
          · cases hblock
          · cases hblock
            rfl
    exact ⟨(gainBlock_legal p.self).buffers, .f32, huniform⟩
  exact Flavor.session_alongside .effect _ hsame (Machine.allTried_of_labels fun l hl i => hfits hl)

end Cvp
