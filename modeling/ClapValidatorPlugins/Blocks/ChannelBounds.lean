/-
  The channels and samples a `process` call touches. A buffer whose `channel_count` differs from
  the declared layout is P05 and forwarded all the same, so the counts of inputs and outputs are
  the host's to choose. The loops stop at the smaller one and the synths ask for a first channel;
  only ParamsZoo takes `data32[0]` of its first buffers for granted (`channelBounds_iff`).
-/
import ClapValidatorPlugins.Blocks.Faults
import ClapValidatorPlugins.Blocks.SampleBounds
import ClapValidatorPlugins.Events.Probes

namespace Cvp

variable {D S : Type}

/-! ## Buffers -/

/-- The pointer arrays have the length the ABI gives them, so `data[i]` lies inside exactly for
    `i` below `channel_count`. -/
@[mk_iff]
structure AudioBuffer.IsSized (buffer : AudioBuffer) : Prop where
  data32 : ∀ channels ∈ buffer.data32, channels.length = buffer.channelCount
  data64 : ∀ channels ∈ buffer.data64, channels.length = buffer.channelCount

structure ProcessBlock.IsSized (block : ProcessBlock D) : Prop where
  inputs : ∀ buffer ∈ block.audioInputs, buffer.IsSized
  outputs : ∀ buffer ∈ block.audioOutputs, buffer.IsSized

theorem channelAt_eq_outOfRange_iff (data : Option (List Ptr)) (i : Nat) :
    channelAt data i = .error .channelOutOfRange ↔ ∃ channels ∈ data, channels.length ≤ i := by
  unfold channelAt
  cases data with
  | none => simp
  | some channels =>
    simp only [Option.mem_some_iff, exists_eq_left']
    cases hi : channels[i]? with
    | none => exact iff_of_true rfl (List.getElem?_eq_none_iff.mp hi)
    | some p =>
      obtain ⟨hlt, -⟩ := List.getElem?_eq_some_iff.mp hi
      exact iff_of_false nofun (Nat.not_le.mpr hlt)

/-- An array that is there fails in no other way. -/
theorem channelAt_fails_some {data : Option (List Ptr)} (h : data.isSome = true) (i : Nat) :
    Fails (channelAt data i) (· = .channelOutOfRange) := by
  obtain ⟨channels, rfl⟩ := Option.isSome_iff_exists.mp h
  unfold channelAt
  dsimp only
  split
  · exact .of_ok _
  · exact .of_error rfl

theorem channelAt_inRange {data : Option (List Ptr)} {channelCount i : Nat}
    (hsized : ∀ channels ∈ data, channels.length = channelCount) (hi : i < channelCount) :
    Fails (channelAt data i) (· ≠ .channelOutOfRange) := by
  rintro fault hfault rfl
  obtain ⟨channels, hmem, hle⟩ := (channelAt_eq_outOfRange_iff data i).mp hfault
  have := hsized channels hmem
  omega

theorem AudioBuffer.IsSized.channelsFail {buffer : AudioBuffer} (h : buffer.IsSized) :
    buffer.ChannelsFail (· ≠ .channelOutOfRange) := fun _ hi =>
  ⟨channelAt_inRange h.data32 hi, channelAt_inRange h.data64 hi⟩

theorem ProcessBlock.IsSized.blockFails {block : ProcessBlock D} (h : block.IsSized) :
    BlockFails (· ≠ .channelOutOfRange) block where
  nullDeref := nofun
  inputs buffer hmem := (h.inputs buffer hmem).channelsFail
  outputs buffer hmem := (h.outputs buffer hmem).channelsFail

theorem headers_inRange (list : InputEvents D) :
    Fails list.headers (· ≠ .channelOutOfRange) := by
  obtain ⟨hasSize, hasGet, events⟩ := list
  cases hasSize with
  | false => exact .of_error nofun
  | true =>
    cases hasGet with
    | true =>
      rcases headers_cases events with ⟨headers, -, hok⟩ | ⟨-, herror⟩
      · rw [hok]
        exact .of_ok _
      · rw [herror]
        exact .of_error nofun
    | false =>
      cases events with
      | nil => exact .of_ok _
      | cons header events => exact .of_error nofun

theorem Flavor.fetchHeaders_inRange (flavor : Flavor) (block : ProcessBlock D) :
    Fails (flavor.fetchHeaders block) (· ≠ .channelOutOfRange) := by
  unfold fetchHeaders
  cases block.inEvents with
  | none => cases flavor.guardsList <;> first | exact .of_ok _ | exact .of_error nofun
  | some list => cases flavor.guardsList <;> exact headers_inRange list

/-! ## NoteFx -/

theorem NoteFxPlugin.transformEvents_inRange [DoubleOps D] (hasOutEvents : Bool)
    (events : List (Option (Event D))) : ∀ s : NoteFxPlugin.State D,
      Fails (transformEvents hasOutEvents s events) (· ≠ .channelOutOfRange) := by
  induction events with
  | nil => exact fun s => .of_ok _
  | cons entry events ih =>
    intro s
    cases entry with
    | none => exact .of_error (by decide)
    | some header =>
      rw [transformEvents]
      split
      · exact (ih _).bind fun rest _ => .of_ok _
      · exact .of_error (by decide)

theorem NoteFxPlugin.process_inRange [DoubleOps D] (base : Base D) (s : NoteFxPlugin.State D)
    (block : ProcessBlock D) (memory : AudioMemory D S) :
    Fails (NoteFxPlugin.process base s block memory) (· ≠ .channelOutOfRange) := by
  unfold NoteFxPlugin.process
  split
  · exact .of_error nofun
  · split
    · exact (transformEvents_inRange _ _ s).bind fun out _ => .of_ok _
    · exact .of_error nofun

/-! ## ParamsZoo -/

/-- The block gets to `in.data32[0]` and `out.data32[0]`, and one of the two buffers has no
    channel. -/
def ProcessBlock.lacksFirstChannel (block : ProcessBlock D) : Bool :=
  match guardedHeaders block.inEvents, block.audioInputs, block.audioOutputs with
  | .ok _, input :: _, output :: _ =>
    input.data32.isSome && output.data32.isSome &&
      (input.channelCount == 0 || output.channelCount == 0)
  | _, _, _ => false

section ParamsZoo

variable [DoubleOps D] [FloatOps S] [FloatCast D S] {block : ProcessBlock D}
  {memory : AudioMemory D S} (base : Base D)

omit [DoubleOps D] [FloatOps S] [FloatCast D S] in
theorem ParamsZooPlugin.firstChannels_inRange (h : block.IsSized)
    {headers : List (Event D)} (hheaders : guardedHeaders block.inEvents = .ok headers)
    (hfirst : block.lacksFirstChannel = false) :
    ParamsZooPlugin.FirstChannelsFail (· ≠ .channelOutOfRange) block := by
  unfold ParamsZooPlugin.FirstChannelsFail
  split
  · rename_i input inputs output outputs hin hout
    intro hsrc hdst
    unfold ProcessBlock.lacksFirstChannel at hfirst
    rw [hheaders, hin, hout] at hfirst
    simp only [hsrc, hdst, Bool.and_self, Bool.true_and, Bool.or_eq_false_iff,
      beq_eq_false_iff_ne] at hfirst
    have hinput := h.inputs input (by rw [hin]; exact List.mem_cons_self)
    have houtput := h.outputs output (by rw [hout]; exact List.mem_cons_self)
    exact ⟨channelAt_inRange hinput.data32 (Nat.pos_of_ne_zero hfirst.1),
      channelAt_inRange houtput.data32 (Nat.pos_of_ne_zero hfirst.2)⟩
  · trivial

/-- `data32[0]` of an empty array. -/
theorem channelAt_empty {buffer : AudioBuffer} (h : buffer.IsSized)
    (hdata : buffer.data32.isSome = true) (hcount : buffer.channelCount = 0) :
    channelAt buffer.data32 0 = .error .channelOutOfRange := by
  obtain ⟨channels, hchannels⟩ := Option.isSome_iff_exists.mp hdata
  refine (channelAt_eq_outOfRange_iff _ _).mpr ⟨channels, hchannels, ?_⟩
  rw [h.data32 channels hchannels, hcount]

theorem ParamsZooPlugin.process_outOfRange (h : block.IsSized)
    (hlacks : block.lacksFirstChannel = true) (s : ParamsZooPlugin.State D) :
    ParamsZooPlugin.process base s block memory = .error .channelOutOfRange := by
  unfold ProcessBlock.lacksFirstChannel at hlacks
  split at hlacks
  · rename_i headers input inputs output outputs hheaders hin hout
    have hinput := h.inputs input (by rw [hin]; exact List.mem_cons_self)
    have houtput := h.outputs output (by rw [hout]; exact List.mem_cons_self)
    simp only [Bool.and_eq_true, Bool.or_eq_true, beq_iff_eq] at hlacks
    obtain ⟨⟨hsrc, hdst⟩, hcount⟩ := hlacks
    unfold ParamsZooPlugin.process
    rw [hin, hout, hheaders]
    show (if _ then _ else _) = _
    rw [if_neg (by simp [hsrc, hdst])]
    rcases hcount with hcount | hcount
    · rw [channelAt_empty hinput hsrc hcount]
      rfl
    · -- whatever the input has, the output fails
      refine Fails.bind_eq_error (channelAt_fails_some hsrc 0) fun srcL => ?_
      dsimp only
      by_cases hsecond : 1 < input.channelCount
      · rw [if_pos hsecond]
        refine Fails.bind_eq_error (channelAt_fails_some hsrc 1) fun srcR => ?_
        rw [channelAt_empty houtput hdst hcount]
        rfl
      · rw [if_neg hsecond]
        refine Fails.bind_eq_error (channelAt_fails_some hsrc 0) fun srcR => ?_
        rw [channelAt_empty houtput hdst hcount]
        rfl
  · cases hlacks

variable [DoubleBits D]

theorem ParamsZooPlugin.process_eq_outOfRange_iff (h : block.IsSized)
    (s : ParamsZooPlugin.State D) :
    ParamsZooPlugin.process base s block memory = .error .channelOutOfRange ↔
      block.lacksFirstChannel = true := by
  constructor
  · -- by contraposition: behind the event loop the fixed indices are then as good as the others
    intro hfault
    by_contra hfirst
    rw [Bool.not_eq_true] at hfirst
    cases hheaders : guardedHeaders block.inEvents with
    | ok headers =>
      have hreads : ReadsThen (· ≠ .channelOutOfRange) _ _ (process base s block memory) :=
        process_readsThen base h.blockFails (firstChannels_inRange h hheaders hfirst) s
      exact hreads.fails (Flavor.paramsZoo.fetchHeaders_inRange block) _ hfault rfl
    | error fault =>
      have hheadersFault := Flavor.paramsZoo.fetchHeaders_inRange block fault hheaders
      unfold process at hfault
      rw [hheaders] at hfault
      split at hfault
      · exact hheadersFault (Except.error.inj hfault)
      · cases hfault
  · exact fun hlacks => process_outOfRange base h hlacks s

end ParamsZoo

/-! ## The flavors -/

/-- The reply with the samples behind the block replaced. -/
def Plugin.ProcessReply.patch (frames : Nat) (beyond : AudioMemory D S)
    (reply : Plugin.ProcessReply D S) : Plugin.ProcessReply D S :=
  { reply with memory := AudioMemory.patch frames beyond reply.memory }

/-- `process()` fetches no channel pointer at or behind its buffer's `channel_count`, and reads and
    writes no sample at or behind `frames_count`: whatever lies there, the call goes the same way
    and leaves it. -/
def Plugin.StaysInside {σ : Type} (impl : PluginImpl D S σ) (p : Plugin D σ) (thread : ThreadId)
    (block : ProcessBlock D) (memory : AudioMemory D S) : Prop :=
  p.sProcess impl thread block memory ≠ .error .channelOutOfRange ∧
    ∀ beyond, p.sProcess impl thread block
        (AudioMemory.patch block.framesCount.toNat beyond memory) =
      Prod.map id (Plugin.ProcessReply.patch block.framesCount.toNat beyond) <$>
        p.sProcess impl thread block memory

section Flavors

variable [DoubleOps D] [FloatOps S] [FloatCast D S] [DoubleBits D]

theorem Flavor.process_eq_outOfRange_iff (flavor : Flavor) (base : Base D) (s : flavor.State D S)
    {block : ProcessBlock D} (h : block.IsSized) (memory : AudioMemory D S) :
    (flavor.impl : PluginImpl D S _).process base s block memory = .error .channelOutOfRange ↔
      flavor = .paramsZoo ∧ block.lacksFirstChannel = true := by
  by_cases hzoo : flavor = .paramsZoo
  · subst hzoo
    rw [and_iff_right rfl]
    exact ParamsZooPlugin.process_eq_outOfRange_iff base h s
  · refine iff_of_false (fun hfault => ?_) fun hboth => hzoo hboth.1
    by_cases hloop : flavor = .noteFx
    · subst hloop
      exact NoteFxPlugin.process_inRange base s block memory _ hfault rfl
    · have hreads : ReadsThen (· ≠ .channelOutOfRange) _ _
          ((flavor.impl : PluginImpl D S _).process base s block memory) :=
        Flavor.process_readsThen base h.blockFails flavor hloop (fun heq => absurd heq hzoo) s
      exact hreads.fails (flavor.fetchHeaders_inRange block) _ hfault rfl

theorem Plugin.sProcess_patch (flavor : Flavor) (p : Plugin D (flavor.State D S))
    (thread : ThreadId) (block : ProcessBlock D) (memory beyond : AudioMemory D S) :
    p.sProcess (flavor.impl : PluginImpl D S _) thread block
        (AudioMemory.patch block.framesCount.toNat beyond memory) =
      Prod.map id (Plugin.ProcessReply.patch block.framesCount.toNat beyond) <$>
        p.sProcess (flavor.impl : PluginImpl D S _) thread block memory := by
  unfold Plugin.sProcess
  rcases p.processGate thread block with ⟨gate, q⟩
  cases gate with
  | reject => rfl
  | forward =>
    dsimp only
    rw [flavor_process_patch]
    cases (flavor.impl : PluginImpl D S _).process q.base q.self block memory <;> rfl

/-- On a block whose arrays are as long as its channel counts say, and for every state of the
    instance, `process()` stays inside the buffers exactly if it is not a call that reaches
    ParamsZoo with a first input or output of no channels. The samples are never the trouble. -/
theorem channelBounds_iff (flavor : Flavor) (p : Plugin D (flavor.State D S)) (thread : ThreadId)
    (block : ProcessBlock D) (memory : AudioMemory D S) (h : block.IsSized) :
    p.StaysInside (flavor.impl : PluginImpl D S _) thread block memory ↔
      ¬ ((p.processGate thread block).1 = .forward ∧ flavor = .paramsZoo ∧
        block.lacksFirstChannel = true) := by
  unfold Plugin.StaysInside
  rw [and_iff_left fun beyond => Plugin.sProcess_patch flavor p thread block memory beyond]
  refine not_congr ?_
  unfold Plugin.sProcess
  rcases p.processGate thread block with ⟨gate, q⟩
  cases gate with
  | reject => exact iff_of_false nofun nofun
  | forward =>
    dsimp only
    rw [and_iff_right rfl, ← flavor.process_eq_outOfRange_iff q.base q.self h memory]
    cases (flavor.impl : PluginImpl D S _).process q.base q.self block memory with
    | ok r => exact iff_of_false nofun nofun
    | error fault => exact ⟨fun h => congrArg _ (Except.error.inj h),
        fun h => congrArg _ (Except.error.inj h)⟩

end Flavors

/-- A gain block of two channels each, on a running Effect. -/
theorem channelBounds_iff_stereo :
    let block : ProcessBlock ExactFloat :=
      { framesCount := 4
        audioInputs := [{ channelCount := 2, data32 := some [0, 1] }]
        audioOutputs := [{ channelCount := 2, data32 := some [2, 3] }]
        inEvents := some { events := [] } }
    (Flavor.effect.running ExactFloat (48000 : ExactFloat)).StaysInside
      (Flavor.effect.impl : PluginImpl ExactFloat ExactFloat _) 0 block
      { f32 := fun _ _ => 0, f64 := fun _ _ => 0 } := by
  intro block
  refine (channelBounds_iff .effect _ 0 block _ ⟨?_, ?_⟩).mpr fun h => nomatch h.2.1
  · simp [block, AudioBuffer.isSized_iff]
  · simp [block, AudioBuffer.isSized_iff]

/-- A running ParamsZoo gets a block with an input and an output port, as declared, but without
    channels: it is forwarded, and `data32[0]` is read. -/
theorem emptyPorts_read_outside :
    let block : ProcessBlock ExactFloat :=
      { framesCount := 1
        audioInputs := [{ channelCount := 0, data32 := some [] }]
        audioOutputs := [{ channelCount := 0, data32 := some [] }]
        inEvents := some { events := [] } }
    let silence : AudioMemory ExactFloat ExactFloat := { f32 := fun _ _ => 0, f64 := fun _ _ => 0 }
    let zoo := Flavor.paramsZoo.running ExactFloat (48000 : ExactFloat)
    (zoo.processGate 0 block).1 = .forward ∧
      ¬ zoo.StaysInside (Flavor.paramsZoo.impl : PluginImpl ExactFloat ExactFloat _) 0 block
        silence := by
  refine ⟨by decide +kernel, fun hinside => hinside.1 ?_⟩
  exact Fails.eq_error_of_map (fun r => r.2.status) (by decide +kernel)

end Cvp
