/-
  In-place processing. A flavor whose main ports declare `in_place_pair` 0 gives the same samples,
  the same answer and the same state whether the main output has buffers of its own or the main
  input's, channel by channel (`inPlace_eq_apart`). The two runs go through the same events, so
  what remains is that their passes over the channels leave the same samples.
-/
import ClapValidatorPlugins.Blocks.GainPass
import ClapValidatorPlugins.Blocks.SampleBounds
import ClapValidatorPlugins.Contract.LegalBlock
import ClapValidatorPlugins.Plugins.Registry

namespace Cvp

open Assignments InPlace

/-! ## Placements -/

/-- The buffer over the channels at `ps`. -/
def SampleSize.buffer (size : SampleSize) (ps : List Ptr) : AudioBuffer :=
  match size with
  | .f32 => { channelCount := ps.length, data32 := some ps }
  | .f64 => { channelCount := ps.length, data64 := some ps }

/-- Where the channels of the one input port and of the output ports are. -/
structure Placement where
  input : List Ptr
  outputs : List (List Ptr)

namespace Placement

/-- Every output channel has a buffer of its own. -/
structure Apart (place : Placement) : Prop where
  distinct : place.outputs.flatten.Nodup
  disjoint : ∀ p ∈ place.input, p ∉ place.outputs.flatten

/-- The main output is the main input; the other output channels have buffers of their own. -/
structure Shared (place : Placement) : Prop where
  main : place.outputs.head? = some place.input
  distinct : place.outputs.flatten.Nodup

end Placement

section

variable {D S σ : Type}

/-- The block with its buffers put in place. -/
def ProcessBlock.placed (block : ProcessBlock D) (size : SampleSize) (place : Placement) :
    ProcessBlock D :=
  { block with
    audioInputs := [size.buffer place.input]
    audioOutputs := place.outputs.map size.buffer }

/-- The samples of a port at index `i`. -/
def AudioMemory.samples (memory : AudioMemory D S) (size : SampleSize) (i : Nat) (ps : List Ptr) :
    List (S ⊕ D) :=
  ps.map fun p => memory.sample size p i

/-- Two runs of `process()` that did the same and left the same samples on every output port, or
    ended in the same fault. -/
def SameResult (size : SampleSize) (frames : Nat) (outputs outputs' : List (List Ptr))
    (x y : Exec (Outcome D σ ProcessStatus × AudioMemory D S)) : Prop :=
  match x, y with
  | .ok (out, memory), .ok (out', memory') => out = out' ∧
    ∀ i < frames, outputs.map (memory.samples size i) = outputs'.map (memory'.samples size i)
  | .error fault, .error fault' => fault = fault'
  | _, _ => False

/-- What is read before the channels is read alike. -/
theorem SameResult.bind {α : Type} {size : SampleSize} {frames : Nat}
    {outputs outputs' : List (List Ptr)} (x : Exec α)
    {f g : α → Exec (Outcome D σ ProcessStatus × AudioMemory D S)}
    (h : ∀ a, SameResult size frames outputs outputs' (f a) (g a)) :
    SameResult size frames outputs outputs' (x >>= f) (x >>= g) := by
  cases x with
  | error fault => rfl
  | ok a => exact h a

theorem samples_f32 (memory : AudioMemory D S) (i : Nat) (ps : List Ptr) :
    memory.samples .f32 i ps = (ps.map (memory.f32.column i)).map .inl := by
  rw [List.map_map]
  rfl

end

/-! ## Two placements of one port -/

/-- Two placements of `n` input and `n` output channels with the same input, each of which lets a
    pass read what it has not written. -/
structure Twins {S : Type} (n frames : Nat) (srcs dsts srcs' dsts' : List Ptr)
    (m m' : Plane S) : Prop where
  lengths : srcs.length = n ∧ dsts.length = n
  lengths' : srcs'.length = n ∧ dsts'.length = n
  spared : Spared (srcs.zip dsts)
  spared' : Spared (srcs'.zip dsts')
  same : ∀ i < frames, srcs.map (m.column i) = srcs'.map (m'.column i)

section Passes

variable {S : Type}

theorem commonChannels_buffers {size : SampleSize} {srcs dsts : List Ptr} {n : Nat}
    (h : srcs.length = n ∧ dsts.length = n) :
    commonChannels (size.buffer srcs) (size.buffer dsts) = n := by
  have hcount : ∀ ps, (size.buffer ps).channelCount = ps.length := fun ps => by cases size <;> rfl
  unfold commonChannels
  rw [hcount, hcount, h.1, h.2, ite_self]

variable {srcs dsts : List Ptr} {n : Nat} (hlen : srcs.length = n ∧ dsts.length = n)
  (h : Spared (srcs.zip dsts))

include hlen

theorem looksUp_zip : (srcs.zip dsts).length = n ∧
    LooksUp (channelAt (SampleSize.f32.buffer srcs).data32) 0 ((srcs.zip dsts).map Prod.fst) ∧
    LooksUp (channelAt (SampleSize.f32.buffer dsts).data32) 0 ((srcs.zip dsts).map Prod.snd) := by
  obtain ⟨rfl, hl⟩ := hlen
  rw [List.length_zip, List.map_fst_zip (Nat.le_of_eq hl.symm), List.map_snd_zip (Nat.le_of_eq hl)]
  exact ⟨by omega, looksUp_channelAt srcs, looksUp_channelAt dsts⟩

include h

theorem mapChannels_passed (f : Nat → S → S) (frames : Nat) (m : Plane S) :
    ∃ m', mapChannels f (SampleSize.f32.buffer srcs) (SampleSize.f32.buffer dsts) frames 0 n m =
        .ok m' ∧ Passed Plane.column f frames srcs dsts m m' := by
  obtain ⟨hpairs, hin, hout⟩ := looksUp_zip hlen
  obtain ⟨m', hpass, hrewrites⟩ := mapChannels_rewrites f frames hin hout m
  exact ⟨m', hpairs ▸ hpass, hrewrites.passed (hlen.1.trans hlen.2.symm) h⟩

theorem copyChannels_passed (frames : Nat) (m : Plane S) :
    ∃ m', copyChannels (SampleSize.f32.buffer srcs) (SampleSize.f32.buffer dsts) frames 0 n m =
        .ok m' ∧ Passed Plane.column (fun _ x => x) frames srcs dsts m m' := by
  obtain ⟨hpairs, hin, hout⟩ := looksUp_zip hlen
  obtain ⟨m', hpass, hrewrites⟩ := copyChannels_rewrites frames hin hout m
  exact ⟨m', hpairs ▸ hpass, hrewrites.passed (hlen.1.trans hlen.2.symm) h⟩

end Passes

section Runs

variable {D S σ : Type} {n frames : Nat} {srcs dsts srcs' dsts' : List Ptr}
  {memory memory' : AudioMemory D S}

theorem sameResult_planes {m m' : Plane S} {out : Outcome D σ ProcessStatus}
    (h : ∀ i < frames, dsts.map (m.column i) = dsts'.map (m'.column i)) :
    SameResult .f32 frames [dsts] [dsts'] (.ok (out, { memory with f32 := m }))
      (.ok (out, { memory' with f32 := m' })) := by
  refine ⟨rfl, fun i hi => ?_⟩
  rw [List.map_singleton, List.map_singleton, samples_f32, samples_f32]
  exact congrArg (fun xs => [List.map Sum.inl xs]) (h i hi)

variable (h : Twins n frames srcs dsts srcs' dsts' memory.f32 memory'.f32)
include h

/-- A pass with one function for each channel, the last thing a flavor does. -/
theorem sameResult_mapChannels (f : Nat → S → S) (out : Outcome D σ ProcessStatus) :
    SameResult .f32 frames [dsts] [dsts']
      (mapChannels f (SampleSize.f32.buffer srcs) (SampleSize.f32.buffer dsts) frames 0 n
        memory.f32 >>= fun m => .ok (out, { memory with f32 := m }))
      (mapChannels f (SampleSize.f32.buffer srcs') (SampleSize.f32.buffer dsts') frames 0 n
        memory'.f32 >>= fun m => .ok (out, { memory' with f32 := m })) := by
  obtain ⟨m, hpass, hpassed⟩ := mapChannels_passed h.lengths h.spared f frames memory.f32
  obtain ⟨m', hpass', hpassed'⟩ := mapChannels_passed h.lengths' h.spared' f frames memory'.f32
  rw [hpass, hpass']
  exact sameResult_planes (hpassed.same hpassed' h.same)

theorem sameResult_copyChannels (out : Outcome D σ ProcessStatus) :
    SameResult .f32 frames [dsts] [dsts']
      (copyChannels (SampleSize.f32.buffer srcs) (SampleSize.f32.buffer dsts) frames 0 n
        memory.f32 >>= fun m => .ok (out, { memory with f32 := m }))
      (copyChannels (SampleSize.f32.buffer srcs') (SampleSize.f32.buffer dsts') frames 0 n
        memory'.f32 >>= fun m => .ok (out, { memory' with f32 := m })) := by
  obtain ⟨m, hpass, hpassed⟩ := copyChannels_passed h.lengths h.spared frames memory.f32
  obtain ⟨m', hpass', hpassed'⟩ := copyChannels_passed h.lengths' h.spared' frames memory'.f32
  rw [hpass, hpass']
  exact sameResult_planes (hpassed.same hpassed' h.same)

end Runs

/-! ## The flavors with one output port -/

section Flavors

variable {D S : Type} [DoubleOps D] [FloatOps S] [FloatCast D S] {n : Nat}
  {srcs dsts srcs' dsts' : List Ptr} {memory memory' : AudioMemory D S} {block : ProcessBlock D}

/-- `process` gives the same result for both placements. -/
def SamePort {σ : Type} (size : SampleSize) (block : ProcessBlock D)
    (srcs dsts srcs' dsts' : List Ptr) (memory memory' : AudioMemory D S)
    (process : ProcessBlock D → AudioMemory D S →
      Exec (Outcome D σ ProcessStatus × AudioMemory D S)) : Prop :=
  SameResult size block.framesCount.toNat [dsts] [dsts']
    (process (block.placed size ⟨srcs, [dsts]⟩) memory)
    (process (block.placed size ⟨srcs', [dsts']⟩) memory')

variable (h : Twins n block.framesCount.toNat srcs dsts srcs' dsts' memory.f32 memory'.f32)
include h

omit [DoubleOps D] [FloatOps S] [FloatCast D S] in
theorem SlowPlugin.samePort (base : Base D) (s : State D) :
    SamePort .f32 block srcs dsts srcs' dsts' memory memory' (process base s) := by
  refine SameResult.bind _ fun flushed => ?_
  rw [commonChannels_buffers h.lengths, commonChannels_buffers h.lengths']
  exact sameResult_copyChannels h _

omit [DoubleOps D] [FloatOps S] [FloatCast D S] in
theorem HostCheckPlugin.samePort (base : Base D) (s : State) :
    SamePort .f32 block srcs dsts srcs' dsts' memory memory' (process base s) := by
  show SameResult _ _ _ _ (copyChannels _ _ _ 0 (commonChannels _ _) _ >>= _)
    (copyChannels _ _ _ 0 (commonChannels _ _) _ >>= _)
  rw [commonChannels_buffers h.lengths, commonChannels_buffers h.lengths']
  exact sameResult_copyChannels h _

theorem PresetPlugin.samePort (base : Base D) (s : State D) :
    SamePort .f32 block srcs dsts srcs' dsts' memory memory' (process base s) := by
  refine SameResult.bind _ fun headers => ?_
  dsimp only
  rw [commonChannels_buffers h.lengths, commonChannels_buffers h.lengths']
  exact sameResult_mapChannels h _ _

theorem GuiPlugin.samePort (base : Base D) (s : State D) :
    SamePort .f32 block srcs dsts srcs' dsts' memory memory' (process base s) := by
  refine SameResult.bind _ fun headers => ?_
  dsimp only
  rw [commonChannels_buffers h.lengths, commonChannels_buffers h.lengths']
  exact sameResult_mapChannels h _ _

theorem SurroundPlugin.samePort (base : Base D) (s : State D)
    (hn : n = (layout s).channelCount) :
    SamePort .f32 block srcs dsts srcs' dsts' memory memory' (process base s) := by
  refine SameResult.bind _ fun headers => ?_
  have hlayout : (layout (consume (fun s e => .done (applyParamEvent s e)) s headers).self) =
      layout s := by
    rw [consume_done]
    exact congrArg layoutAt (foldl_layoutIndex headers s)
  dsimp only
  rw [commonChannels_buffers h.lengths, commonChannels_buffers h.lengths', hlayout, ← hn,
    Nat.min_self]
  exact sameResult_mapChannels h _ _

end Flavors

namespace ParamsZooPlugin

variable {D S : Type} [DoubleOps D] [FloatOps S] [FloatCast D S]

/-! ## ParamsZoo

The rotation mixes the two channels, so both samples are read before either is written; the
bypass copies one channel after the other. -/

/-- Both samples are computed from both. -/
def stereoLoop (f g : S → S → S) (srcL srcR dstL dstR : Ptr) (frames : Nat) (m : Plane S) :
    Plane S :=
  frameLoop (fun i m =>
    (m.write dstL i (f (m srcL i) (m srcR i))).write dstR i (g (m srcL i) (m srcR i))) 0 frames m

omit [FloatOps S] in
theorem stereoLoop_column (f g : S → S → S) {srcL srcR dstL dstR : Ptr} (hne : dstL ≠ dstR)
    {frames : Nat} (m : Plane S) {i : Nat} (hi : i < frames) :
    [dstL, dstR].map ((stereoLoop f g srcL srcR dstL dstR frames m).column i) =
      [f (m srcL i) (m srcR i), g (m srcL i) (m srcR i)] := by
  have hloop : Rewrites Plane.column frames (fun c => Function.update
      (Function.update c dstL (f (c srcL) (c srcR))) dstR (g (c srcL) (c srcR))) m
      (stereoLoop f g srcL srcR dstL dstR frames m) := by
    refine frameLoop_rewrites (fun i m => ?_) frames m
    have hboth := (rewritesAt_write m dstL i (f (m srcL i) (m srcR i))).trans
      (rewritesAt_write _ dstR i (g (m srcL i) (m srcR i)))
    exact ⟨hboth.1, hboth.2⟩
  rw [hloop.at hi, List.map_cons, List.map_singleton, Function.update_self,
    Function.update_of_ne hne, Function.update_self]
  rfl

omit [FloatOps S] in
theorem bypassLoop_eq {srcL srcR dstL dstR : Ptr} (hread : dstL ≠ srcR) (frames : Nat)
    (m : Plane S) : bypassLoop srcL srcR dstL (some dstR) frames m =
      stereoLoop (fun x _ => x) (fun _ y => y) srcL srcR dstL dstR frames m := by
  refine frameLoop_carried id frames 0 m fun i _ m => ?_
  show (m.write dstL i (m srcL i)).write dstR i ((m.write dstL i (m srcL i)) srcR i) = _
  rw [show (m.write dstL i (m srcL i)) srcR i = m srcR i from
    if_neg fun h => hread h.1.symm]
  rfl

/-- One frame of `shapeLoop`. -/
def shapeFrame (s : State D) (x y : S) : S × S :=
  let gain := DoubleOps.pow (DoubleOps.lit 10)
    ((s.params kParamGain + s.gainModDb) / DoubleOps.lit 20)
  let trim := s.params kParamSecret
  let curve := min (max (DoubleOps.toInt (s.params kParamCurve)) 0) 2
  let shaped (x : S) : D :=
    shape (FloatCast.toDouble x * gain * trim) (s.params kParamDrive) curve +
      s.params kParamDcOffset
  let angle := s.params kParamRotation * kPi / DoubleOps.lit 180
  (FloatCast.toFloat (shaped x * DoubleOps.cos angle - shaped y * DoubleOps.sin angle),
    FloatCast.toFloat (shaped x * DoubleOps.sin angle + shaped y * DoubleOps.cos angle))

omit [FloatOps S] in
theorem shapeLoop_eq (s : State D) (srcL srcR dstL dstR : Ptr) (frames : Nat) (m : Plane S) :
    shapeLoop s srcL srcR dstL (some dstR) frames m =
      stereoLoop (fun x y => (shapeFrame s x y).1) (fun x y => (shapeFrame s x y).2) srcL srcR dstL
        dstR frames m := rfl

omit [FloatOps S] in
theorem stereo_inj {l r l' r' : Ptr} {m m' : Plane S} {i : Nat}
    (h : [l, r].map (m.column i) = [l', r'].map (m'.column i)) :
    m l i = m' l' i ∧ m r i = m' r' i :=
  ⟨(List.cons.inj h).1, (List.cons.inj (List.cons.inj h).2).1⟩

theorem measurePeak_same {srcL srcR srcL' srcR' : Ptr} {frames : Nat} {m m' : Plane S}
    (hsame : ∀ i < frames, [srcL, srcR].map (m.column i) = [srcL', srcR'].map (m'.column i))
    (peak : D) : measurePeak peak srcL srcR frames m = measurePeak peak srcL' srcR' frames m' := by
  refine frameLoop_carried id frames 0 _ fun i hi peak => ?_
  obtain ⟨hl, hr⟩ := stereo_inj (hsame i (by omega))
  dsimp only [id]
  rw [hl, hr]

theorem samePort {srcs dsts srcs' dsts' : List Ptr} {memory memory' : AudioMemory D S}
    {block : ProcessBlock D}
    (h : Twins 2 block.framesCount.toNat srcs dsts srcs' dsts' memory.f32 memory'.f32)
    (base : Base D) (s : State D) :
    SamePort .f32 block srcs dsts srcs' dsts' memory memory' (process base s) := by
  obtain ⟨⟨hsrcs, hdsts⟩, ⟨hsrcs', hdsts'⟩, hspared, hspared', hsame⟩ := h
  obtain ⟨srcL, srcR, rfl⟩ := List.length_eq_two.mp hsrcs
  obtain ⟨dstL, dstR, rfl⟩ := List.length_eq_two.mp hdsts
  obtain ⟨srcL', srcR', rfl⟩ := List.length_eq_two.mp hsrcs'
  obtain ⟨dstL', dstR', rfl⟩ := List.length_eq_two.mp hdsts'
  have hne : dstL ≠ dstR := fun heq => by
    have hwrites := hspared.writes
    simp [heq] at hwrites
  have hne' : dstL' ≠ dstR' := fun heq => by
    have hwrites := hspared'.writes
    simp [heq] at hwrites
  have hread : dstL ≠ srcR :=
    (List.pairwise_cons.mp hspared.reads).1 (srcR, dstR) List.mem_cons_self
  have hread' : dstL' ≠ srcR' :=
    (List.pairwise_cons.mp hspared'.reads).1 (srcR', dstR') List.mem_cons_self
  refine SameResult.bind _ fun headers => ?_
  generalize (consume (fun s e => .done (applyParamEvent s e)) s headers).self = s
  have hpeak := measurePeak_same hsame (s.params kParamPeak)
  -- the input is still whole when the peak is measured
  let s₁ : State D := { s with
    params := Function.update s.params kParamPeak (minDouble
      (measurePeak (s.params kParamPeak) srcL srcR block.framesCount.toNat memory.f32)
      (DoubleOps.lit 1)) }
  let s₂ : State D := { s with
    params := Function.update s.params kParamPeak (minDouble
      (measurePeak (s.params kParamPeak) srcL' srcR' block.framesCount.toNat memory'.f32)
      (DoubleOps.lit 1)) }
  have hstate : s₁ = s₂ := by
    unfold s₁ s₂
    rw [hpeak]
  show SameResult _ _ _ _
    (.ok (.just .continue s₁, { memory with
      f32 := if DoubleOps.le (DoubleOps.lit (1 / 2)) (s₁.params kParamBypass) then
          bypassLoop srcL srcR dstL (some dstR) block.framesCount.toNat memory.f32
        else shapeLoop s₁ srcL srcR dstL (some dstR) block.framesCount.toNat memory.f32 }))
    (.ok (.just .continue s₂, { memory' with
      f32 := if DoubleOps.le (DoubleOps.lit (1 / 2)) (s₂.params kParamBypass) then
          bypassLoop srcL' srcR' dstL' (some dstR') block.framesCount.toNat memory'.f32
        else shapeLoop s₂ srcL' srcR' dstL' (some dstR') block.framesCount.toNat memory'.f32 }))
  rw [← hstate]
  refine sameResult_planes fun i hi => ?_
  have hboth : ∀ f g : S → S → S,
      [dstL, dstR].map ((stereoLoop f g srcL srcR dstL dstR block.framesCount.toNat
        memory.f32).column i) = [dstL', dstR'].map ((stereoLoop f g srcL' srcR' dstL' dstR'
        block.framesCount.toNat memory'.f32).column i) := by
    intro f g
    obtain ⟨hl, hr⟩ := stereo_inj (hsame i hi)
    rw [stereoLoop_column f g hne _ hi, stereoLoop_column f g hne' _ hi, hl, hr]
  split
  · rw [bypassLoop_eq hread, bypassLoop_eq hread']
    exact hboth _ _
  · rw [shapeLoop_eq, shapeLoop_eq]
    exact hboth _ _

end ParamsZooPlugin

namespace EffectPlugin

variable {D S : Type} [DoubleOps D] [FloatOps S] [FloatCast D S]

/-! ## Effect -/

/-- The channel at `p`. -/
def channelOf (size : SampleSize) (p : Ptr) : Channel :=
  match size with
  | .f32 => .f32 p
  | .f64 => .f64 p

/-- The gain pass on a sample of the given size. -/
def gained (size : SampleSize) (gain : D) (x : S ⊕ D) : S ⊕ D :=
  match size with
  | .f32 => .inl (FloatCast.toFloat (promoted x * gain))
  | .f64 => .inr (promoted x * gain)

theorem channelOf_injective (size : SampleSize) : Function.Injective (channelOf size) := by
  cases size with
  | f32 => exact fun _ _ h => Channel.f32.inj h
  | f64 => exact fun _ _ h => Channel.f64.inj h

theorem looksUp_channel (size : SampleSize) (ps : List Ptr) :
    LooksUp (channel (size.buffer ps)) 0 (ps.map (channelOf size)) := by
  intro n hn
  have hp := looksUp_channelAt ps n (by rwa [List.length_map] at hn)
  rw [List.getElem_map]
  cases size with
  | f32 =>
    show Channel.f32 <$> channelAt (some ps) (0 + n) = _
    rw [hp]
    rfl
  | f64 =>
    show Channel.f64 <$> channelAt (some ps) (0 + n) = _
    rw [hp]
    rfl

omit [DoubleOps D] [FloatOps S] [FloatCast D S] in
theorem samples_eq (memory : AudioMemory D S) (size : SampleSize) (i : Nat) (ps : List Ptr) :
    memory.samples size i ps = (ps.map (channelOf size)).map (column memory i) := by
  rw [List.map_map]
  exact List.map_congr_left fun p _ => by cases size <;> rfl

omit [FloatOps S] in
theorem gainSteps_eq (size : SampleSize) (gain : D) (srcs dsts : List Ptr) :
    gainSteps (S := S) gain ((srcs.map (channelOf size)).zip (dsts.map (channelOf size))) =
      pairSteps (fun _ => gained size gain) 0
        ((srcs.map (channelOf size)).zip (dsts.map (channelOf size))) := by
  rw [pairSteps_const]
  refine List.map_congr_left fun pair hpair => ?_
  obtain ⟨dst, -, hdst⟩ := List.mem_map.mp (List.of_mem_zip hpair).2
  rw [← hdst]
  cases size <;> rfl

/-- The pass and what the scan found. -/
theorem gainChannels_passed (size : SampleSize) {srcs dsts : List Ptr} {n : Nat}
    (hlen : srcs.length = n ∧ dsts.length = n) (h : Spared (srcs.zip dsts)) (gain : D)
    (frames : Nat) (memory : AudioMemory D S) :
    ∃ silent memory', gainChannels gain (size.buffer srcs) (size.buffer dsts) frames 0 n
        (true, memory) = .ok (silent, memory') ∧
      Passed column (fun _ => gained size gain) frames (srcs.map (channelOf size))
        (dsts.map (channelOf size)) memory memory' ∧
      (silent = true ↔ ∀ i < frames, ∀ x ∈ memory.samples size i srcs, nonZero x = false) := by
  have hspared := h.map (channelOf_injective size)
  have hl : (srcs.map (channelOf size)).length = (dsts.map (channelOf size)).length := by
    rw [List.length_map, List.length_map, hlen.1, hlen.2]
  have hin : LooksUp (channel (size.buffer srcs)) 0
      (((srcs.map (channelOf size)).zip (dsts.map (channelOf size))).map Prod.fst) := by
    rw [List.map_fst_zip (Nat.le_of_eq hl)]
    exact looksUp_channel size srcs
  have hout : LooksUp (channel (size.buffer dsts)) 0
      (((srcs.map (channelOf size)).zip (dsts.map (channelOf size))).map Prod.snd) := by
    rw [List.map_snd_zip (Nat.le_of_eq hl.symm)]
    exact looksUp_channel size dsts
  obtain ⟨silent, memory', hpass, hrewrites, hsilent⟩ :=
    gainChannels_eq gain frames hin hout true memory
  rw [gainSteps_eq] at hrewrites
  refine ⟨silent, memory', ?_, hrewrites.passed hl hspared, ?_⟩
  · rw [← hpass, List.length_zip, ← hl, List.length_map, Nat.min_self, hlen.1]
  · rw [hsilent hspared.reads]
    constructor
    · rintro ⟨-, hquiet⟩ i hi x hx
      rw [samples_eq] at hx
      obtain ⟨src, hsrc, rfl⟩ := List.mem_map.mp hx
      rw [← List.map_fst_zip (Nat.le_of_eq hl)] at hsrc
      obtain ⟨pair, hpair, rfl⟩ := List.mem_map.mp hsrc
      rw [← Channel.isLive_eq]
      exact hquiet pair hpair i hi
    · intro hquiet
      refine ⟨rfl, fun pair hpair i hi => ?_⟩
      rw [Channel.isLive_eq]
      refine hquiet i hi _ ?_
      rw [samples_eq]
      exact List.mem_map_of_mem (List.of_mem_zip hpair).1

theorem samePort {size : SampleSize} {n : Nat} {srcs dsts srcs' dsts' : List Ptr}
    {memory memory' : AudioMemory D S} {block : ProcessBlock D}
    (hlen : srcs.length = n ∧ dsts.length = n) (hlen' : srcs'.length = n ∧ dsts'.length = n)
    (h : Spared (srcs.zip dsts)) (h' : Spared (srcs'.zip dsts'))
    (hsame : ∀ i < block.framesCount.toNat,
      memory.samples size i srcs = memory'.samples size i srcs')
    (base : Base D) (s : State D) :
    SamePort size block srcs dsts srcs' dsts' memory memory' (process base s) := by
  have hdata : ∀ ps, noData (size.buffer ps) = false := fun ps => by cases size <;> rfl
  refine SameResult.bind _ fun headers => ?_
  let gain : D := DoubleOps.pow (DoubleOps.lit 10)
    ((consume (applyParamEvent base) s headers).self.params kParamGain / DoubleOps.lit 20)
  obtain ⟨silent, m, hpass, hpassed, hsilent⟩ :=
    gainChannels_passed size hlen h gain block.framesCount.toNat memory
  obtain ⟨silent', m', hpass', hpassed', hsilent'⟩ :=
    gainChannels_passed size hlen' h' gain block.framesCount.toNat memory'
  -- the scans of the two runs find the same
  have hscan : silent = silent' := by
    rw [Bool.eq_iff_iff, hsilent, hsilent']
    exact forall_congr' fun i => imp_congr_right fun hi => by rw [hsame i hi]
  dsimp only
  rw [hdata, hdata, hdata, hdata, commonChannels_buffers hlen, commonChannels_buffers hlen']
  show SameResult _ _ _ _ (gainChannels gain (size.buffer srcs) (size.buffer dsts)
      block.framesCount.toNat 0 n (true, memory) >>= _)
    (gainChannels gain (size.buffer srcs') (size.buffer dsts') block.framesCount.toNat 0 n
      (true, memory') >>= _)
  rw [hpass, hpass', ← hscan]
  refine ⟨rfl, fun i hi => ?_⟩
  rw [List.map_singleton, List.map_singleton, samples_eq, samples_eq]
  refine congrArg (fun xs => [xs]) (hpassed.same hpassed' (fun i hi => ?_) i hi)
  rw [← samples_eq, ← samples_eq]
  exact hsame i hi

end EffectPlugin

namespace MultiOutFxPlugin

variable {D S : Type} [DoubleOps D] [FloatOps S] [FloatCast D S]

/-! ## MultiOut FX

The main output is filled first. In place that rewrites the input which the other ports are still
to be filled from, but at unity gain. -/

theorem mapIdx_const {α β : Type} (f : α → β) (xs : List α) :
    xs.mapIdx (fun _ x => f x) = xs.map f :=
  List.ext_getElem (by rw [List.length_mapIdx, List.length_map]) fun i _ _ => by
    rw [List.getElem_mapIdx, List.getElem_map]

theorem fanOut_aux (auxLevel : S) {ins : List Ptr} {n : Nat} (hins : ins.length = n) (frames : Nat)
    {auxs : List (List Ptr)} : ∀ {port : Nat} (_ : 0 < port) (_ : ∀ ps ∈ auxs, ps.length = n)
      (_ : auxs.flatten.Nodup) (_ : ∀ p ∈ ins, p ∉ auxs.flatten) (m : Plane S),
      ∃ m', fanOut auxLevel (SampleSize.f32.buffer ins) frames port
          (auxs.map SampleSize.f32.buffer) m = .ok m' ∧
        (∀ i < frames, ∀ ps ∈ auxs,
          ps.map (m'.column i) = (ins.map (m.column i)).map (· * auxLevel)) ∧
        ∀ p, p ∉ auxs.flatten → ∀ i, m'.column i p = m.column i p := by
  induction auxs with
  | nil => exact fun _ _ _ _ m => ⟨m, rfl, nofun, fun _ _ _ => rfl⟩
  | cons ps auxs ih =>
    intro port hport hlens hdistinct hdisjoint m
    rw [List.flatten_cons, List.nodup_append] at hdistinct
    obtain ⟨hps, hauxs, hsplit⟩ := hdistinct
    have hpsDisjoint : ∀ p ∈ ins, p ∉ ps := fun p hp hmem =>
      hdisjoint p hp (List.mem_append_left _ hmem)
    have hauxsDisjoint : ∀ p ∈ ins, p ∉ auxs.flatten := fun p hp hmem =>
      hdisjoint p hp (List.mem_append_right _ hmem)
    have hlen : ins.length = n ∧ ps.length = n := ⟨hins, hlens ps List.mem_cons_self⟩
    obtain ⟨m₁, hpass, hpassed⟩ := mapChannels_passed hlen
      (spared_apart hps (hlen.1.trans hlen.2.symm) hpsDisjoint) (fun _ x => x * auxLevel) frames m
    obtain ⟨m', hrest, hfilled, hkept⟩ := ih (Nat.succ_pos port)
      (fun qs hqs => hlens qs (List.mem_cons_of_mem _ hqs)) hauxs hauxsDisjoint m₁
    refine ⟨m', ?_, fun i hi qs hqs => ?_, fun p hp i => ?_⟩
    · rw [List.map_cons, fanOut, if_neg (Nat.ne_of_gt hport), commonChannels_buffers hlen,
        hpass]
      exact hrest
    · rcases List.mem_cons.mp hqs with rfl | hqs
      · rw [← (hpassed.written i hi).trans (mapIdx_const _ _)]
        exact List.map_congr_left fun p hp => hkept p (fun hmem => hsplit p hp p hmem rfl) i
      · rw [hfilled i hi qs hqs]
        refine congrArg _ (List.map_congr_left fun p hp => ?_)
        exact hpassed.kept p (hpsDisjoint p hp) i
    · rw [List.flatten_cons, List.mem_append, not_or] at hp
      exact (hkept p hp.2 i).trans (hpassed.kept p hp.1 i)

theorem fanOut_filled (hone : ∀ x : S, x * FloatOps.lit 1 = x) (auxLevel : S)
    {ins main : List Ptr} {auxs : List (List Ptr)} {n : Nat}
    (hlen : ins.length = n ∧ main.length = n) (hlens : ∀ ps ∈ auxs, ps.length = n)
    (hdistinct : (main ++ auxs.flatten).Nodup) (hdisjoint : ∀ p ∈ ins, p ∉ auxs.flatten)
    (hmain : main = ins ∨ ∀ p ∈ ins, p ∉ main) (frames : Nat) (m : Plane S) :
    ∃ m', fanOut auxLevel (SampleSize.f32.buffer ins) frames 0
        ((main :: auxs).map SampleSize.f32.buffer) m = .ok m' ∧
      ∀ i < frames, (main :: auxs).map (List.map (m'.column i)) =
        ins.map (m.column i) ::
          List.replicate auxs.length ((ins.map (m.column i)).map (· * auxLevel)) := by
  obtain ⟨hps, hauxs, hsplit⟩ := List.nodup_append.mp hdistinct
  have hspared : Spared (ins.zip main) := by
    rcases hmain with rfl | hmain
    · exact spared_inPlace hps
    · exact spared_apart hps (hlen.1.trans hlen.2.symm) hmain
  obtain ⟨m₁, hpass, hpassed⟩ :=
    mapChannels_passed hlen hspared (fun _ x => x * FloatOps.lit 1) frames m
  have hwritten : ∀ i < frames, main.map (m₁.column i) = ins.map (m.column i) := by
    intro i hi
    rw [hpassed.written i hi, mapIdx_const]
    simp only [hone, List.map_id']
  -- the input is what it was, written over or not
  have hinput : ∀ i < frames, ins.map (m₁.column i) = ins.map (m.column i) := by
    intro i hi
    rcases hmain with rfl | hmain
    · exact hwritten i hi
    · exact List.map_congr_left fun p hp => hpassed.kept p (hmain p hp) i
  obtain ⟨m', hrest, hfilled, hkept⟩ :=
    fanOut_aux auxLevel hlen.1 frames Nat.one_pos hlens hauxs hdisjoint m₁
  refine ⟨m', ?_, fun i hi => ?_⟩
  · rw [List.map_cons, fanOut, if_pos rfl, commonChannels_buffers hlen, hpass]
    exact hrest
  · rw [List.map_cons]
    refine congrArg₂ List.cons ?_ ?_
    · rw [← hwritten i hi]
      exact List.map_congr_left fun p hp => hkept p (fun hmem => hsplit p hp p hmem rfl) i
    · refine List.eq_replicate_iff.mpr ⟨List.length_map _, fun xs hxs => ?_⟩
      obtain ⟨ps, hps, rfl⟩ := List.mem_map.mp hxs
      rw [hfilled i hi ps hps, hinput i hi]

end MultiOutFxPlugin

/-! ## Every flavor -/

/-- There is a buffer for each declared port, with its channel count and of a size it supports. -/
def FitsPorts {D S σ : Type} (impl : PluginImpl D S σ) (s : σ) (block : ProcessBlock D) : Prop :=
  ∀ isInput, List.Forall₂ LegalBuffer (Plugin.declaredPorts impl s isInput) (block.buffers isInput)

section Ports

variable {D S σ : Type} {size : SampleSize} {impl : PluginImpl D S σ} {s : σ}
  {block : ProcessBlock D}

theorem LegalBuffer.length {l : PortLayout} {ps : List Ptr} (h : LegalBuffer l (size.buffer ps)) :
    ps.length = l.channels := by
  rw [← h.channels]
  cases size <;> rfl

theorem LegalBuffer.f32 {l : PortLayout} {ps : List Ptr} (h : LegalBuffer l (size.buffer ps))
    (hl : l.flags.supports64Bits = false) : size = .f32 := by
  cases size with
  | f32 => rfl
  | f64 => exact absurd (h.supported rfl) (by rw [hl]; nofun)

theorem FitsPorts.input {l : PortLayout} {place : Placement}
    (h : FitsPorts impl s (block.placed size place))
    (hports : Plugin.declaredPorts impl s true = [l]) :
    LegalBuffer l (size.buffer place.input) := by
  have hin := h true
  rw [hports] at hin
  exact (List.forall₂_cons.mp hin).1

/-- The output ports of the placement, one for each declared one. -/
theorem FitsPorts.outputs {ls : List PortLayout} {n : Nat} {place : Placement}
    (h : FitsPorts impl s (block.placed size place))
    (hports : Plugin.declaredPorts impl s false = ls) (hn : ∀ l ∈ ls, l.channels = n) :
    place.outputs.length = ls.length ∧ ∀ ps ∈ place.outputs, ps.length = n := by
  have hout : List.Forall₂ LegalBuffer ls (place.outputs.map size.buffer) := hports ▸ h false
  refine ⟨?_, fun ps hps => ?_⟩
  · rw [hout.length_eq, List.length_map]
  · obtain ⟨i, hi, rfl⟩ := List.mem_iff_getElem.mp hps
    have hl : i < ls.length := by
      rw [hout.length_eq, List.length_map]
      exact hi
    have hbuffer : LegalBuffer ls[i] (size.buffer place.outputs[i]) := by
      have := hout.get hl (by rwa [List.length_map])
      simpa using this
    rw [hbuffer.length]
    exact hn _ (List.getElem_mem hl)

variable {apart shared : Placement} {memory memory' : AudioMemory D S}
  (hapart : apart.Apart) (hshared : shared.Shared)
  (hfits : FitsPorts impl s (block.placed size apart))
  (hfits' : FitsPorts impl s (block.placed size shared))
  (hsame : ∀ i < block.framesCount.toNat,
    memory.samples size i apart.input = memory'.samples size i shared.input)
include hapart hshared hfits hfits'

/-- A flavor with one port each way: both placements have one output port. -/
theorem onePort_placements {n : Nat} {layout : Bool → PortLayout}
    (hports : ∀ isInput, Plugin.declaredPorts impl s isInput = [layout isInput])
    (hn : ∀ isInput, (layout isInput).channels = n) :
    ∃ srcs dsts ks, apart = ⟨srcs, [dsts]⟩ ∧ shared = ⟨ks, [ks]⟩ ∧
      (srcs.length = n ∧ dsts.length = n) ∧ (ks.length = n ∧ ks.length = n) ∧
      Spared (srcs.zip dsts) ∧ Spared (ks.zip ks) := by
  have hall : ∀ l ∈ [layout false], l.channels = n := by
    intro l hl
    rw [List.mem_singleton.mp hl]
    exact hn false
  obtain ⟨hlen, hlens⟩ := hfits.outputs (hports false) hall
  obtain ⟨hlen', -⟩ := hfits'.outputs (hports false) hall
  have hin := (hfits.input (hports true)).length.trans (hn true)
  have hin' := (hfits'.input (hports true)).length.trans (hn true)
  obtain ⟨srcs, outputs⟩ := apart
  obtain ⟨ks, outputs'⟩ := shared
  obtain ⟨dsts, rfl⟩ := List.length_eq_one_iff.mp hlen
  obtain ⟨ks', rfl⟩ := List.length_eq_one_iff.mp hlen'
  obtain rfl : ks' = ks := Option.some.inj hshared.main
  have hdsts := hlens dsts List.mem_cons_self
  have hdistinct := hapart.distinct
  have hdisjoint := hapart.disjoint
  have hdistinct' := hshared.distinct
  rw [List.flatten_singleton] at hdistinct hdistinct'
  rw [List.flatten_singleton] at hdisjoint
  exact ⟨srcs, dsts, ks', rfl, rfl, ⟨hin, hdsts⟩, ⟨hin', hin'⟩,
    spared_apart hdistinct (hin.trans hdsts.symm) hdisjoint, spared_inPlace hdistinct'⟩

include hsame

theorem sameResult_onePort {n : Nat} {layout : Bool → PortLayout}
    (hports : ∀ isInput, Plugin.declaredPorts impl s isInput = [layout isInput])
    (hn : ∀ isInput, (layout isInput).channels = n)
    (h32 : (layout true).flags.supports64Bits = false)
    {process : ProcessBlock D → AudioMemory D S →
      Exec (Outcome D σ ProcessStatus × AudioMemory D S)}
    (hprocess : ∀ {srcs dsts srcs' dsts'},
      Twins n block.framesCount.toNat srcs dsts srcs' dsts' memory.f32 memory'.f32 →
        SamePort .f32 block srcs dsts srcs' dsts' memory memory' process) :
    SameResult size block.framesCount.toNat apart.outputs shared.outputs
      (process (block.placed size apart) memory) (process (block.placed size shared) memory') := by
  obtain rfl := (hfits.input (hports true)).f32 h32
  obtain ⟨srcs, dsts, ks, rfl, rfl, hlen, hlen', hspared, hspared'⟩ :=
    onePort_placements hapart hshared hfits hfits' hports hn
  refine hprocess ⟨hlen, hlen', hspared, hspared', fun i hi => ?_⟩
  have hboth := hsame i hi
  rw [samples_f32, samples_f32] at hboth
  exact List.map_injective_iff.mpr Sum.inl_injective hboth

end Ports

section Results

variable {D S : Type} [DoubleOps D] [FloatOps S] [FloatCast D S] [DoubleBits D]
  {size : SampleSize} {block : ProcessBlock D} {apart shared : Placement}
  {memory memory' : AudioMemory D S}

theorem MultiOutFxPlugin.declaredPorts_pos (s : State D) :
    0 < (Plugin.declaredPorts (impl : PluginImpl D S _) s false).length := by
  show 0 < (List.map _ (List.range (currentOutPortCount s))).length
  rw [List.length_map, List.length_range]
  unfold currentOutPortCount
  split <;> decide

theorem MultiOutFxPlugin.declaredPorts_channels (s : State D) :
    ∀ l ∈ Plugin.declaredPorts (impl : PluginImpl D S _) s false, l.channels = 2 := by
  intro l hl
  obtain ⟨i, hi, rfl⟩ := List.mem_map.mp hl
  have hi : i < currentOutPortCount s := List.mem_range.mp hi
  have hinfo : audioPortInfo s i false = some (multiOutPort i (some 0)) := by
    unfold audioPortInfo
    rw [if_neg Bool.false_ne_true, if_neg (Nat.not_le.mpr hi)]
  dsimp only [impl]
  rw [hinfo]
  rfl

theorem MultiOutFxPlugin.sameResult (hone : ∀ x : S, x * FloatOps.lit 1 = x) (base : Base D)
    (s : State D) (hapart : apart.Apart) (hshared : shared.Shared)
    (hfits : FitsPorts (impl : PluginImpl D S _) s (block.placed size apart))
    (hfits' : FitsPorts (impl : PluginImpl D S _) s (block.placed size shared))
    (hsame : ∀ i < block.framesCount.toNat,
      memory.samples size i apart.input = memory'.samples size i shared.input) :
    SameResult size block.framesCount.toNat apart.outputs shared.outputs
      (process base s (block.placed size apart) memory)
      (process base s (block.placed size shared) memory') := by
  obtain rfl := (hfits.input rfl).f32 rfl
  obtain ⟨hlen, hlens⟩ := hfits.outputs rfl (declaredPorts_channels s)
  obtain ⟨hlen', hlens'⟩ := hfits'.outputs rfl (declaredPorts_channels s)
  have hin := (hfits.input rfl).length
  have hin' := (hfits'.input rfl).length
  obtain ⟨srcs, outputs⟩ := apart
  obtain ⟨ks, outputs'⟩ := shared
  dsimp only at *
  obtain ⟨main, auxs, rfl⟩ : ∃ main auxs, outputs = main :: auxs :=
    List.exists_cons_of_ne_nil (List.ne_nil_of_length_pos (hlen ▸ declaredPorts_pos s))
  obtain ⟨main', auxs', rfl⟩ : ∃ main auxs, outputs' = main :: auxs :=
    List.exists_cons_of_ne_nil (List.ne_nil_of_length_pos (hlen' ▸ declaredPorts_pos s))
  obtain rfl : main' = ks := Option.some.inj hshared.main
  refine SameResult.bind _ fun headers => ?_
  let auxLevel : S := FloatCast.toFloat
    ((consume (fun s e => .done (applyParamEvent s e)) s headers).self.params kParamAuxLevel)
  have hlen₁ : srcs.length = 2 ∧ main.length = 2 := ⟨hin, hlens main List.mem_cons_self⟩
  obtain ⟨m, hpass, hfilled⟩ := fanOut_filled hone auxLevel hlen₁
    (fun ps hps => hlens ps (List.mem_cons_of_mem _ hps)) hapart.distinct
    (fun p hp hmem => hapart.disjoint p hp (List.mem_append_right _ hmem))
    (.inr fun p hp hmem => hapart.disjoint p hp (List.mem_append_left _ hmem))
    block.framesCount.toNat memory.f32
  obtain ⟨m', hpass', hfilled'⟩ := fanOut_filled hone auxLevel ⟨hin', hin'⟩
    (fun ps hps => hlens' ps (List.mem_cons_of_mem _ hps)) hshared.distinct
    (fun p hp hmem => (List.nodup_append.mp hshared.distinct).2.2 p hp p hmem rfl) (.inl rfl)
    block.framesCount.toNat memory'.f32
  show SameResult _ _ _ _
    (fanOut auxLevel (SampleSize.f32.buffer srcs) block.framesCount.toNat 0
      ((main :: auxs).map SampleSize.f32.buffer) memory.f32 >>= _)
    (fanOut auxLevel (SampleSize.f32.buffer main') block.framesCount.toNat 0
      ((main' :: auxs').map SampleSize.f32.buffer) memory'.f32 >>= _)
  rw [hpass, hpass']
  refine ⟨rfl, fun i hi => ?_⟩
  have hports : ∀ (memory : AudioMemory D S) (m : Plane S) (outputs : List (List Ptr)),
      outputs.map (AudioMemory.samples { memory with f32 := m } .f32 i) =
        (outputs.map (List.map (m.column i))).map (List.map Sum.inl) := by
    intro memory m outputs
    rw [List.map_map]
    exact List.map_congr_left fun ps _ => samples_f32 _ i ps
  have hinput : srcs.map (memory.f32.column i) = main'.map (memory'.f32.column i) := by
    have hboth := hsame i hi
    rw [samples_f32, samples_f32] at hboth
    exact List.map_injective_iff.mpr Sum.inl_injective hboth
  have hcount : auxs.length = auxs'.length := Nat.succ.inj (hlen.trans hlen'.symm)
  rw [hports, hports, hfilled i hi, hfilled' i hi, hinput, hcount]

namespace Flavor

/-- Port 0 of either direction declares `in_place_pair` 0. -/
def PairsMainPorts (flavor : Flavor) (s : flavor.State D S) : Prop :=
  ∀ isInput, ∃ ports ∈ (flavor.impl : PluginImpl D S _).audioPorts,
    ∃ info ∈ ports.audioPortInfo s 0 isInput, info.inPlacePair = some 0

/-- With the main output in the buffers of the main input a flavor that pairs them leaves the same
    samples on every output port as with buffers apart, answers the same and is left in the same
    state. -/
theorem inPlace_eq_apart (flavor : Flavor) (hone : ∀ x : S, x * FloatOps.lit 1 = x)
    (base : Base D) (s : flavor.State D S) (hpair : flavor.PairsMainPorts s)
    (hapart : apart.Apart) (hshared : shared.Shared)
    (hfits : FitsPorts (flavor.impl : PluginImpl D S _) s (block.placed size apart))
    (hfits' : FitsPorts (flavor.impl : PluginImpl D S _) s (block.placed size shared))
    (hsame : ∀ i < block.framesCount.toNat,
      memory.samples size i apart.input = memory'.samples size i shared.input) :
    SameResult size block.framesCount.toNat apart.outputs shared.outputs
      ((flavor.impl : PluginImpl D S _).process base s (block.placed size apart) memory)
      ((flavor.impl : PluginImpl D S _).process base s (block.placed size shared) memory') := by
  cases flavor with
  | effect =>
    obtain ⟨srcs, dsts, ks, rfl, rfl, hlen, hlen', hspared, hspared'⟩ :=
      onePort_placements hapart hshared hfits hfits' (n := 2) (fun _ => rfl) fun _ => rfl
    exact EffectPlugin.samePort hlen hlen' hspared hspared' hsame base s
  | multiOutFx => exact MultiOutFxPlugin.sameResult hone base s hapart hshared hfits hfits' hsame
  | slow =>
    exact sameResult_onePort hapart hshared hfits hfits' hsame (fun _ => rfl) (fun _ => rfl) rfl
      fun h => SlowPlugin.samePort h base s
  | hostCheck =>
    exact sameResult_onePort hapart hshared hfits hfits' hsame (fun _ => rfl) (fun _ => rfl) rfl
      fun h => HostCheckPlugin.samePort h base s
  | paramsZoo =>
    exact sameResult_onePort hapart hshared hfits hfits' hsame (fun _ => rfl) (fun _ => rfl) rfl
      fun h => ParamsZooPlugin.samePort h base s
  | preset =>
    exact sameResult_onePort hapart hshared hfits hfits' hsame (fun _ => rfl) (fun _ => rfl) rfl
      fun h => PresetPlugin.samePort h base s
  | surround =>
    exact sameResult_onePort hapart hshared hfits hfits' hsame (fun _ => rfl) (fun _ => rfl) rfl
      fun h => SurroundPlugin.samePort h base s rfl
  | gui =>
    exact sameResult_onePort hapart hshared hfits hfits' hsame (fun _ => rfl) (fun _ => rfl) rfl
      fun h => GuiPlugin.samePort h base s
  | _ =>
    obtain ⟨ports, hports, info, hinfo, hinPlace⟩ := hpair true
    cases hports <;> cases hinfo <;> cases hinPlace

/-- The input at 0 and 1, three output ports of their own. -/
def apartPlacement : Placement := { input := [0, 1], outputs := [[2, 3], [4, 5], [6, 7]] }

/-- The main output is the input. -/
def sharedPlacement : Placement := { input := [0, 1], outputs := [[0, 1], [4, 5], [6, 7]] }

def multiOutFxState : MultiOutFxPlugin.State ExactFloat :=
  { params := fun _ => 1 / 2, config := kConfigMultiOut }

def oneFrame : ProcessBlock ExactFloat :=
  { steadyTime := -1, framesCount := 1, inEvents := none }

/-- Every buffer holds its own address. -/
def addressed : AudioMemory ExactFloat ExactFloat :=
  { f32 := fun p _ => (p : ℚ), f64 := fun _ _ => 0 }

def multiOutFxBase : Base ExactFloat := (Flavor.multiOutFx.instantiate ExactFloat none).base

theorem inPlace_eq_apart_multiOutFx :
    SameResult .f32 1 apartPlacement.outputs sharedPlacement.outputs
      (MultiOutFxPlugin.process multiOutFxBase multiOutFxState
        (oneFrame.placed .f32 apartPlacement) addressed)
      (MultiOutFxPlugin.process multiOutFxBase multiOutFxState
        (oneFrame.placed .f32 sharedPlacement) addressed) := by
  have hbuffer : ∀ {flags : AudioPortFlags} (p q : Ptr),
      LegalBuffer { channels := 2, flags := flags } (SampleSize.f32.buffer [p, q]) :=
    fun p q => ⟨rfl, .inl rfl, nofun⟩
  have hfits : ∀ p q, FitsPorts (MultiOutFxPlugin.impl : PluginImpl ExactFloat ExactFloat _)
      multiOutFxState (oneFrame.placed .f32
        { input := [0, 1], outputs := [[p, q], [4, 5], [6, 7]] }) := by
    intro p q isInput
    cases isInput with
    | true => exact .cons (hbuffer 0 1) .nil
    | false => exact .cons (hbuffer p q) (.cons (hbuffer 4 5) (.cons (hbuffer 6 7) .nil))
  have hapart : apartPlacement.Apart := ⟨by decide, by decide⟩
  have hshared : sharedPlacement.Shared := ⟨rfl, by decide⟩
  exact inPlace_eq_apart .multiOutFx mul_one multiOutFxBase multiOutFxState
    (fun isInput => by cases isInput <;> exact ⟨_, rfl, _, rfl, rfl⟩) hapart hshared (hfits 2 3)
    (hfits 0 1) fun _ _ => rfl

end Flavor

end Results

end Cvp
