/-
  What the `process` of a flavor can fault at. Ahead of its event loop a flavor looks at its ports
  and at most fetches its channels (`readsEvents`); behind it, it fetches channels in loops and
  pushes events. So a fault is one of the event list, one of a channel it has a right to by
  `channel_count`, or a null `out_events` (`process_readsThen`). ParamsZoo alone takes a first
  channel for granted.
-/
import ClapValidatorPlugins.Events.Handlers
import ClapValidatorPlugins.Lib.Fails

namespace Cvp

variable {D S : Type} {P : Fault → Prop}

/-! ## Channels -/

/-- The faults of the channels below `channel_count`. -/
def AudioBuffer.ChannelsFail (P : Fault → Prop) (buffer : AudioBuffer) : Prop :=
  ∀ i < buffer.channelCount,
    Fails (channelAt buffer.data32 i) P ∧ Fails (channelAt buffer.data64 i) P

/-- `data[0]`, and `data[1]` of a buffer with a second channel, can be fetched. -/
def channelsThere (data : Option (List Ptr)) (channelCount : Nat) : Bool :=
  match data with
  | none => false
  | some channels => decide (0 < channels.length) &&
      (decide (channelCount ≤ 1) || decide (1 < channels.length))

theorem mapChannels_fails {f : Nat → S → S} {input output : AudioBuffer} {frames : Nat}
    (count : Nat) : ∀ (ch : Nat) (m : Plane S),
      (∀ i, i < ch + count → Fails (channelAt input.data32 i) P ∧
        Fails (channelAt output.data32 i) P) →
      Fails (mapChannels f input output frames ch count m) P := by
  induction count with
  | zero => exact fun ch m _ => .of_ok _
  | succ count ih =>
    intro ch m h
    obtain ⟨hin, hout⟩ := h ch (by omega)
    exact hin.bind fun src _ => hout.bind fun dst _ => ih _ _ fun i hi => h i (by omega)

theorem copyChannels_fails {input output : AudioBuffer} {frames : Nat} (count : Nat) :
    ∀ (ch : Nat) (m : Plane S),
      (∀ i, i < ch + count → Fails (channelAt input.data32 i) P ∧
        Fails (channelAt output.data32 i) P) →
      Fails (copyChannels input output frames ch count m) P := by
  induction count with
  | zero => exact fun ch m _ => .of_ok _
  | succ count ih =>
    intro ch m h
    obtain ⟨hin, hout⟩ := h ch (by omega)
    exact hout.bind fun dst _ => hin.bind fun src _ => ih _ _ fun i hi => h i (by omega)

/-- The loops over the channels both buffers have. -/
theorem common_fails {input output : AudioBuffer} (hin : input.ChannelsFail P)
    (hout : output.ChannelsFail P) {i : Nat} (hi : i < commonChannels input output) :
    Fails (channelAt input.data32 i) P ∧ Fails (channelAt output.data32 i) P := by
  unfold commonChannels at hi
  refine ⟨(hin i ?_).1, (hout i ?_).1⟩ <;> split at hi <;> omega

section Loops

variable [DoubleOps D] [FloatOps S] [FloatCast D S]

theorem EffectPlugin.channel_fails {buffer : AudioBuffer} (h : buffer.ChannelsFail P) {i : Nat}
    (hi : i < buffer.channelCount) : Fails (EffectPlugin.channel buffer i) P := by
  unfold EffectPlugin.channel
  split
  · exact (h i hi).2.map _
  · exact (h i hi).1.map _

theorem EffectPlugin.gainChannels_fails {gain : D} {input output : AudioBuffer} {frames : Nat}
    (count : Nat) : ∀ (ch : Nat) (acc : Bool × AudioMemory D S),
      (∀ i, i < ch + count → Fails (EffectPlugin.channel input i) P ∧
        Fails (EffectPlugin.channel output i) P) →
      Fails (EffectPlugin.gainChannels gain input output frames ch count acc) P := by
  induction count with
  | zero => exact fun ch acc _ => .of_ok _
  | succ count ih =>
    intro ch acc h
    obtain ⟨hin, hout⟩ := h ch (by omega)
    exact hin.bind fun src _ => hout.bind fun dst _ => ih _ _ fun i hi => h i (by omega)

theorem MultiOutGenPlugin.toneChannels_fails {start phaseInc : D} {level : S} {out : AudioBuffer}
    {frames : Nat} (count : Nat) : ∀ (ch : Nat) (acc : D × Plane S),
      (∀ i, i < ch + count → Fails (channelAt out.data32 i) P) →
      Fails (MultiOutGenPlugin.toneChannels start phaseInc level out frames ch count acc) P := by
  induction count with
  | zero => exact fun ch acc _ => .of_ok _
  | succ count ih =>
    intro ch acc h
    exact (h ch (by omega)).bind fun dst _ => ih _ _ fun i hi => h i (by omega)

theorem MultiOutGenPlugin.tonePorts_fails {base : Base D} {level : S} {frames : Nat}
    (outs : List AudioBuffer) : ∀ (port : Nat) (acc : (Nat → D) × Plane S),
      (∀ out ∈ outs, out.ChannelsFail P) →
      Fails (MultiOutGenPlugin.tonePorts base level frames port outs acc) P := by
  induction outs with
  | nil => exact fun port acc _ => .of_ok _
  | cons out outs ih =>
    intro port acc h
    have hout := h out List.mem_cons_self
    refine (MultiOutGenPlugin.toneChannels_fails _ _ _ fun i hi => ?_).bind fun r _ => ?_
    · exact (hout i (by omega)).1
    · exact ih _ _ fun x hx => h x (List.mem_cons_of_mem _ hx)

theorem MultiOutFxPlugin.fanOut_fails {auxLevel : S} {input : AudioBuffer} {frames : Nat}
    (hin : input.ChannelsFail P) (outs : List AudioBuffer) : ∀ (port : Nat) (m : Plane S),
      (∀ out ∈ outs, out.ChannelsFail P) →
      Fails (MultiOutFxPlugin.fanOut auxLevel input frames port outs m) P := by
  induction outs with
  | nil => exact fun port m _ => .of_ok _
  | cons out outs ih =>
    intro port m h
    refine (mapChannels_fails _ _ _ fun i hi => ?_).bind fun r _ => ?_
    · exact common_fails hin (h out List.mem_cons_self) (by omega)
    · exact ih _ _ fun x hx => h x (List.mem_cons_of_mem _ hx)

end Loops

/-! ## The flavors -/

/-- A first output with a channel, and with the channels the synths render to. -/
def outputThere (data : AudioBuffer → Option (List Ptr)) : List AudioBuffer → Bool
  | [] => false
  | out :: _ => decide (1 ≤ out.channelCount) && channelsThere (data out) out.channelCount

namespace Flavor

/-- The flavors with `if (process->in_events)` ahead of their loop. -/
def guardsList : Flavor → Bool
  | synth | sidechainSynth | audioPortsZero | slow | noteFx => false
  | _ => true

/-- The headers the loop of `process` fetches. -/
def fetchHeaders (flavor : Flavor) (block : ProcessBlock D) : Exec (List (Event D)) :=
  if flavor.guardsList then guardedHeaders block.inEvents else unguardedHeaders block.inEvents

/-- Whether `process` gets to its event loop: what it returns or faults at before that. -/
def readsEvents : Flavor → ProcessBlock D → Bool
  | synth, block =>
    outputThere (fun out => if out.data64.isSome then out.data64 else out.data32)
      block.audioOutputs
  | sidechainSynth, block => outputThere AudioBuffer.data32 block.audioOutputs
  | multiOutGen, _ | audioPortsZero, _ | noteFx, _ => true
  | hostCheck, _ => false
  | _, block => !block.audioInputs.isEmpty && !block.audioOutputs.isEmpty

/-- The flavors that return an error unless there is a first port in each direction. -/
def needsPorts : Flavor → Bool
  | effect | multiOutFx | slow | hostCheck | paramsZoo | preset | surround | gui => true
  | _ => false

end Flavor

/-- The computation turns to the events with `headers` if `reads` holds, and apart from that fails
    with `P` only. -/
def ReadsThen {β : Type} (P : Fault → Prop) (reads : Bool) (headers : Exec (List (Event D)))
    (x : Exec β) : Prop :=
  if reads then ∃ rest : List (Event D) → Exec β, x = headers >>= rest ∧ ∀ hs, Fails (rest hs) P
  else Fails x P

namespace ReadsThen

variable {β : Type} {headers : Exec (List (Event D))} {reads : Bool} {x : Exec β}

theorem intro {rest : List (Event D) → Exec β} (h : ∀ hs, Fails (rest hs) P) :
    ReadsThen P true headers (headers >>= rest) := by
  rw [ReadsThen, if_pos rfl]
  exact ⟨rest, rfl, h⟩

theorem of_not (h : Fails x P) : ReadsThen P false headers x := by
  rw [ReadsThen, if_neg Bool.false_ne_true]
  exact h

theorem fails (h : ReadsThen P reads headers x) (hheaders : Fails headers P) : Fails x P := by
  unfold ReadsThen at h
  split at h
  · obtain ⟨rest, rfl, hrest⟩ := h
    exact hheaders.bind fun hs _ => hrest hs
  · exact h

theorem eq_error_iff {e : Fault} (h : ReadsThen (· ≠ e) reads headers x) :
    x = .error e ↔ reads = true ∧ headers = .error e := by
  unfold ReadsThen at h
  split at h
  · rename_i hreads
    obtain ⟨rest, rfl, hrest⟩ := h
    rw [Fails.bind_eq_error_iff fun hs _ => hrest hs]
    exact (and_iff_right hreads).symm
  · rename_i hreads
    exact ⟨fun heq => absurd rfl (h e heq), fun heq => absurd heq.1 hreads⟩

/-- More of the computation behind it. -/
theorem andThen {γ : Type} {f : β → Exec γ} (h : ReadsThen P reads headers x)
    (hf : ∀ a, Fails (f a) P) : ReadsThen P reads headers (x >>= f) := by
  cases reads with
  | true =>
    rw [ReadsThen, if_pos rfl] at h
    obtain ⟨rest, rfl, hrest⟩ := h
    rw [ReadsThen, if_pos rfl]
    refine ⟨fun hs => rest hs >>= f, ?_, fun hs => (hrest hs).bind fun a _ => hf a⟩
    cases headers <;> rfl
  | false =>
    rw [ReadsThen, if_neg Bool.false_ne_true] at h
    exact of_not (h.bind fun a _ => hf a)

end ReadsThen

/-- What a block may fault at besides its event list. -/
structure BlockFails (P : Fault → Prop) (block : ProcessBlock D) : Prop where
  nullDeref : P .nullDeref
  inputs : ∀ buffer ∈ block.audioInputs, buffer.ChannelsFail P
  outputs : ∀ buffer ∈ block.audioOutputs, buffer.ChannelsFail P

theorem pushAll_fails (h : P .nullDeref) (hasOutEvents : Bool) (events : List (Event D)) :
    Fails (pushAll hasOutEvents events) P := by
  unfold pushAll
  split
  · exact .of_ok _
  · exact .of_error h

theorem channelsThere_iff (data : Option (List Ptr)) (channelCount : Nat) :
    channelsThere data channelCount = true ↔
      (∃ left, channelAt data 0 = .ok left) ∧
        (1 < channelCount → ∃ right, channelAt data 1 = .ok right) := by
  unfold channelsThere channelAt
  match data with
  | none => simp
  | some [] => simp
  | some [left] => simp
  | some (left :: right :: channels) => simp

/-- The two fetches of the synths. -/
theorem fetch_readsThen {β : Type} {headers : Exec (List (Event D))} {data : Option (List Ptr)}
    {channelCount : Nat} (hfail : ∀ i < channelCount, Fails (channelAt data i) P)
    (hcount : 1 ≤ channelCount) {f : Ptr → Option Ptr → Exec β}
    (hf : ∀ left right, ReadsThen P true headers (f left right)) :
    ReadsThen P (channelsThere data channelCount) headers (channelAt data 0 >>= fun left =>
      if 1 < channelCount then (some <$> channelAt data 1) >>= f left
      else Except.ok none >>= f left) := by
  by_cases hthere : channelsThere data channelCount = true
  · obtain ⟨⟨left, hleft⟩, hright⟩ := (channelsThere_iff data channelCount).mp hthere
    rw [hthere, hleft]
    show ReadsThen P true headers (if 1 < channelCount then _ else _)
    split
    · rename_i hsecond
      obtain ⟨right, hright⟩ := hright hsecond
      rw [hright]
      exact hf left (some right)
    · exact hf left none
  · rw [Bool.not_eq_true] at hthere
    rw [hthere]
    refine .of_not ((hfail 0 hcount).bind fun left hleft => ?_)
    have hmissing : ¬ (1 < channelCount → ∃ right, channelAt data 1 = .ok right) := fun h =>
      Bool.false_ne_true (hthere.symm.trans ((channelsThere_iff data channelCount).mpr
        ⟨⟨left, hleft⟩, h⟩))
    obtain ⟨hsecond, hnone⟩ := Classical.not_imp.mp hmissing
    rw [if_pos hsecond]
    exact ((hfail 1 hsecond).map some).bind fun right hright => by
      cases hchannel : channelAt data 1 with
      | ok right => exact absurd ⟨right, hchannel⟩ hnone
      | error fault =>
        rw [hchannel] at hright
        cases hright

variable [DoubleOps D] [FloatOps S] [FloatCast D S] {block : ProcessBlock D}
  {memory : AudioMemory D S} (base : Base D)

theorem SynthPlugin.processPlane_readsThen {T : Type} [SampleOps D T] (hnull : P .nullDeref)
    {s : SynthPlugin.State D S} {out : AudioBuffer} {data : Option (List Ptr)} {m : Plane T}
    (hfail : ∀ i < out.channelCount, Fails (channelAt data i) P) (hcount : 1 ≤ out.channelCount) :
    ReadsThen P (channelsThere data out.channelCount) (unguardedHeaders block.inEvents)
      (SynthPlugin.processPlane s block out data m) :=
  fetch_readsThen hfail hcount fun _ _ =>
    .intro fun _ => (pushAll_fails hnull _ _).bind fun _ _ => .of_ok _

theorem SynthPlugin.process_readsThen (h : BlockFails P block) (s : SynthPlugin.State D S) :
    ReadsThen P (Flavor.synth.readsEvents block) (Flavor.synth.fetchHeaders block)
      (SynthPlugin.process base s block memory) := by
  unfold SynthPlugin.process
  show ReadsThen P (outputThere _ block.audioOutputs) _ _
  cases hout : block.audioOutputs with
  | nil => exact .of_not (.of_ok _)
  | cons out outs =>
    have hbuffer := h.outputs out (by rw [hout]; exact List.mem_cons_self)
    dsimp only [outputThere]
    by_cases hcount : out.channelCount < 1
    · rw [if_pos hcount, decide_eq_false (by omega)]
      exact .of_not (.of_ok _)
    · have hone : 1 ≤ out.channelCount := by omega
      rw [if_neg hcount, decide_eq_true hone, Bool.true_and]
      by_cases h64 : out.data64.isSome = true
      · rw [if_pos h64, if_pos h64]
        exact (processPlane_readsThen h.nullDeref (fun i hi => (hbuffer i hi).2) hone).andThen
          fun r => .of_ok _
      · rw [if_neg h64, if_neg h64]
        by_cases h32 : out.data32.isSome = true
        · rw [if_pos h32]
          exact (processPlane_readsThen h.nullDeref (fun i hi => (hbuffer i hi).1) hone).andThen
            fun r => .of_ok _
        · rw [if_neg h32, Option.not_isSome_iff_eq_none.mp h32]
          exact .of_not (.of_ok _)

omit [DoubleOps D] in
theorem SidechainSynthPlugin.applySidechain_fails (h : BlockFails P block)
    {s : SidechainSynthPlugin.State D S} {left : Ptr} {right : Option Ptr} {m : Plane S} :
    Fails (SidechainSynthPlugin.applySidechain s block left right m) P := by
  unfold SidechainSynthPlugin.applySidechain
  cases hin : block.audioInputs with
  | nil => exact .of_ok _
  | cons sidechain inputs =>
    have hbuffer := h.inputs sidechain (by rw [hin]; exact List.mem_cons_self)
    dsimp only
    split
    · rename_i hused
      refine (hbuffer 0 hused.1).1.bind fun scLeft _ => ?_
      split
      · rename_i hsecond
        exact (hbuffer 1 hsecond).1.bind fun scRight _ => .of_ok _
      · exact (hbuffer 0 hused.1).1.bind fun scRight _ => .of_ok _
    · exact .of_ok _

theorem SidechainSynthPlugin.process_readsThen (h : BlockFails P block)
    (s : SidechainSynthPlugin.State D S) :
    ReadsThen P (Flavor.sidechainSynth.readsEvents block)
      (Flavor.sidechainSynth.fetchHeaders block)
      (SidechainSynthPlugin.process base s block memory) := by
  unfold SidechainSynthPlugin.process
  show ReadsThen P (outputThere _ block.audioOutputs) _ _
  cases hout : block.audioOutputs with
  | nil => exact .of_not (.of_ok _)
  | cons out outs =>
    have hbuffer := h.outputs out (by rw [hout]; exact List.mem_cons_self)
    dsimp only [outputThere]
    by_cases hcount : out.channelCount < 1
    · rw [if_pos hcount, decide_eq_false (by omega)]
      exact .of_not (.of_ok _)
    · have hone : 1 ≤ out.channelCount := by omega
      rw [if_neg hcount, decide_eq_true hone, Bool.true_and]
      refine fetch_readsThen (fun i hi => (hbuffer i hi).1) hone fun left right => ?_
      exact .intro fun hs => (applySidechain_fails h).bind fun r _ =>
        (pushAll_fails h.nullDeref _ _).bind fun _ _ => .of_ok _

omit [DoubleOps D] in
/-- The flavors that return an error unless there is a first port in each direction. -/
theorem ports_readsThen {β : Type} {headers : Exec (List (Event D))} {x : Exec β}
    (h : BlockFails P block)
    (hnone : block.audioInputs = [] ∨ block.audioOutputs = [] → ∃ r, x = .ok r)
    (hsome : ∀ input inputs output outputs, block.audioInputs = input :: inputs →
      block.audioOutputs = output :: outputs → input.ChannelsFail P → output.ChannelsFail P →
      ReadsThen P true headers x) :
    ReadsThen P (!block.audioInputs.isEmpty && !block.audioOutputs.isEmpty) headers x := by
  cases hin : block.audioInputs with
  | nil =>
    obtain ⟨r, rfl⟩ := hnone (.inl hin)
    exact .of_not (.of_ok r)
  | cons input inputs =>
    cases hout : block.audioOutputs with
    | nil =>
      obtain ⟨r, rfl⟩ := hnone (.inr hout)
      exact .of_not (.of_ok r)
    | cons output outputs =>
      exact hsome input inputs output outputs hin hout
        (h.inputs input (by rw [hin]; exact List.mem_cons_self))
        (h.outputs output (by rw [hout]; exact List.mem_cons_self))

section Process

variable [DoubleBits D]

/-- Without a first port in each direction these flavors answer an error. -/
theorem Flavor.process_without_ports (flavor : Flavor) (hports : flavor.needsPorts = true)
    (s : flavor.State D S) (h : block.audioInputs = [] ∨ block.audioOutputs = []) :
    ∃ r, (flavor.impl : PluginImpl D S _).process base s block memory = .ok r := by
  obtain ⟨steady, frames, transport, ins, outs, events, hasOut⟩ := block
  dsimp only at h
  cases flavor with
  | synth | sidechainSynth | multiOutGen | audioPortsZero | noteFx => cases hports
  | _ =>
    rcases h with rfl | rfl
    · exact ⟨_, rfl⟩
    · cases ins <;> exact ⟨_, rfl⟩

theorem EffectPlugin.process_readsThen (h : BlockFails P block) (s : EffectPlugin.State D) :
    ReadsThen P (Flavor.effect.readsEvents block) (Flavor.effect.fetchHeaders block)
      (EffectPlugin.process base s block memory) := by
  refine ports_readsThen h (Flavor.process_without_ports base .effect rfl s)
    fun input inputs output outputs hin hout hinput houtput => ?_
  unfold EffectPlugin.process
  rw [hin, hout]
  refine .intro fun hs => ?_
  dsimp only
  split
  · exact .of_ok _
  · refine (gainChannels_fails _ _ _ fun i hi => ?_).bind fun r _ => .of_ok _
    unfold commonChannels at hi
    constructor
    · exact channel_fails hinput (by split at hi <;> omega)
    · exact channel_fails houtput (by split at hi <;> omega)

theorem MultiOutFxPlugin.process_readsThen (h : BlockFails P block) (s : MultiOutFxPlugin.State D) :
    ReadsThen P (Flavor.multiOutFx.readsEvents block) (Flavor.multiOutFx.fetchHeaders block)
      (MultiOutFxPlugin.process base s block memory) := by
  refine ports_readsThen h (Flavor.process_without_ports base .multiOutFx rfl s)
    fun input inputs output outputs hin hout hinput houtput => ?_
  unfold MultiOutFxPlugin.process
  rw [hin, hout]
  refine .intro fun hs => (fanOut_fails hinput _ _ _ fun out hmem => ?_).bind fun m _ => .of_ok _
  exact h.outputs out (hout ▸ hmem)

theorem SlowPlugin.process_readsThen (h : BlockFails P block) (s : SlowPlugin.State D) :
    ReadsThen P (Flavor.slow.readsEvents block) (Flavor.slow.fetchHeaders block)
      (SlowPlugin.process base s block memory) := by
  refine ports_readsThen h (Flavor.process_without_ports base .slow rfl s)
    fun input inputs output outputs hin hout hinput houtput => ?_
  unfold SlowPlugin.process
  rw [hin, hout]
  refine ((ReadsThen.intro fun hs => ?_).andThen fun flushed => ?_)
  · exact .of_ok _
  · exact (copyChannels_fails _ _ _ fun i hi =>
      common_fails hinput houtput (by omega)).bind fun m _ => .of_ok _

theorem PresetPlugin.process_readsThen (h : BlockFails P block) (s : PresetPlugin.State D) :
    ReadsThen P (Flavor.preset.readsEvents block) (Flavor.preset.fetchHeaders block)
      (PresetPlugin.process base s block memory) := by
  refine ports_readsThen h (Flavor.process_without_ports base .preset rfl s)
    fun input inputs output outputs hin hout hinput houtput => ?_
  unfold PresetPlugin.process
  rw [hin, hout]
  exact .intro fun hs => (mapChannels_fails _ _ _ fun i hi =>
    common_fails hinput houtput (by omega)).bind fun m _ => .of_ok _

theorem SurroundPlugin.process_readsThen (h : BlockFails P block) (s : SurroundPlugin.State D) :
    ReadsThen P (Flavor.surround.readsEvents block) (Flavor.surround.fetchHeaders block)
      (SurroundPlugin.process base s block memory) := by
  refine ports_readsThen h (Flavor.process_without_ports base .surround rfl s)
    fun input inputs output outputs hin hout hinput houtput => ?_
  unfold SurroundPlugin.process
  rw [hin, hout]
  refine .intro fun hs => (mapChannels_fails _ _ _ fun i hi => ?_).bind fun m _ => .of_ok _
  exact common_fails hinput houtput (by omega)

theorem GuiPlugin.process_readsThen (h : BlockFails P block) (s : GuiPlugin.State D) :
    ReadsThen P (Flavor.gui.readsEvents block) (Flavor.gui.fetchHeaders block)
      (GuiPlugin.process base s block memory) := by
  refine ports_readsThen h (Flavor.process_without_ports base .gui rfl s)
    fun input inputs output outputs hin hout hinput houtput => ?_
  unfold GuiPlugin.process
  rw [hin, hout]
  exact .intro fun hs => (mapChannels_fails _ _ _ fun i hi =>
    common_fails hinput houtput (by omega)).bind fun m _ => .of_ok _

/-- The faults of the only fixed channel indices of the bundle: `data32[0]` on both sides. -/
def ParamsZooPlugin.FirstChannelsFail (P : Fault → Prop) (block : ProcessBlock D) : Prop :=
  match block.audioInputs, block.audioOutputs with
  | input :: _, output :: _ => input.data32.isSome = true → output.data32.isSome = true →
      Fails (channelAt input.data32 0) P ∧ Fails (channelAt output.data32 0) P
  | _, _ => True

theorem ParamsZooPlugin.process_readsThen (h : BlockFails P block)
    (hfirst : ParamsZooPlugin.FirstChannelsFail P block) (s : ParamsZooPlugin.State D) :
    ReadsThen P (Flavor.paramsZoo.readsEvents block) (Flavor.paramsZoo.fetchHeaders block)
      (ParamsZooPlugin.process base s block memory) := by
  refine ports_readsThen h (Flavor.process_without_ports base .paramsZoo rfl s)
    fun input inputs output outputs hin hout hinput houtput => ?_
  unfold FirstChannelsFail at hfirst
  rw [hin, hout] at hfirst
  unfold ParamsZooPlugin.process
  rw [hin, hout]
  refine .intro fun hs => ?_
  dsimp only
  split
  · exact .of_ok _
  · rename_i hdata
    rw [Bool.or_eq_true, not_or, Bool.not_eq_true', Bool.not_eq_true', Bool.not_eq_false,
      Bool.not_eq_false] at hdata
    obtain ⟨hsrc, hdst⟩ := hfirst hdata.1 hdata.2
    refine hsrc.bind fun srcL _ => ?_
    have hrest : ∀ {k : Ptr → Option Ptr → Exec (Outcome D (State D) ProcessStatus ×
        AudioMemory D S)}, (∀ dstL dstR, Fails (k dstL dstR) P) →
        Fails (channelAt output.data32 0 >>= fun dstL => if 1 < output.channelCount then
          (some <$> channelAt output.data32 1) >>= k dstL else Except.ok none >>= k dstL) P := by
      refine fun hk => hdst.bind fun dstL _ => ?_
      split
      · rename_i hsecond
        exact ((houtput 1 hsecond).1.map _).bind fun dstR _ => hk dstL dstR
      · exact hk dstL none
    split
    · rename_i hsecond
      exact (hinput 1 hsecond).1.bind fun srcR _ => hrest fun dstL dstR => .of_ok _
    · exact hsrc.bind fun srcR _ => hrest fun dstL dstR => .of_ok _

omit [DoubleOps D] [FloatOps S] [FloatCast D S] [DoubleBits D] in
theorem HostCheckPlugin.process_fails (h : BlockFails P block) (s : HostCheckPlugin.State) :
    Fails (HostCheckPlugin.process base s block memory) P := by
  unfold HostCheckPlugin.process
  split
  · rename_i input inputs output outputs hin hout
    have hinput := h.inputs input (by rw [hin]; exact List.mem_cons_self)
    have houtput := h.outputs output (by rw [hout]; exact List.mem_cons_self)
    exact (copyChannels_fails _ _ _ fun i hi =>
      common_fails hinput houtput (by omega)).bind fun m _ => .of_ok _
  · exact .of_ok _

/-- Every flavor but NoteFx, whose loop pushes events between its reads. -/
theorem Flavor.process_readsThen (h : BlockFails P block) (flavor : Flavor)
    (hloop : flavor ≠ .noteFx)
    (hfirst : flavor = .paramsZoo → ParamsZooPlugin.FirstChannelsFail P block)
    (s : flavor.State D S) :
    ReadsThen P (flavor.readsEvents block) (flavor.fetchHeaders block)
      ((flavor.impl : PluginImpl D S _).process base s block memory) := by
  cases flavor with
  | synth => exact SynthPlugin.process_readsThen base h s
  | sidechainSynth => exact SidechainSynthPlugin.process_readsThen base h s
  | effect => exact EffectPlugin.process_readsThen base h s
  | multiOutGen =>
    refine ReadsThen.intro fun hs => ?_
    exact (MultiOutGenPlugin.tonePorts_fails _ _ _ fun out hmem =>
      h.outputs out (List.mem_of_mem_take hmem)).bind fun r _ => .of_ok _
  | multiOutFx => exact MultiOutFxPlugin.process_readsThen base h s
  | audioPortsZero => exact (ReadsThen.intro fun hs => .of_ok _).andThen fun flushed => .of_ok _
  | slow => exact SlowPlugin.process_readsThen base h s
  | hostCheck => exact .of_not (HostCheckPlugin.process_fails base h s)
  | noteFx => exact absurd rfl hloop
  | paramsZoo => exact ParamsZooPlugin.process_readsThen base h (hfirst rfl) s
  | preset => exact PresetPlugin.process_readsThen base h s
  | surround => exact SurroundPlugin.process_readsThen base h s
  | gui => exact GuiPlugin.process_readsThen base h s

end Process

end Cvp
