/-
  What a synth that answered CLAP_PROCESS_SLEEP misses while it is not called. No voice is active
  and no note end is pending, so a block without events and with silence at its input changes
  nothing in the engine; what it changes is the envelope follower of the Sidechain Synth, which
  goes on falling, and what the monitor notes. Where the follower is at rest, silent blocks can be
  left out of a run or put in (`sleep_inaudible`).
-/
import ClapValidatorPlugins.Contract.Passive
import ClapValidatorPlugins.Contract.Snapshot
import ClapValidatorPlugins.Contract.StateRule

namespace Cvp

/-! ## The engine asleep -/

namespace SineEngine

variable {D S T : Type} [DoubleOps D] [FloatOps S] [FloatCast D S] [SampleOps D T]

/-- No voice sounds and no note end is pending. -/
def Asleep (e : SineEngine D S) : Prop :=
  ∀ v ∈ e.voices, v.active = false ∧ v.justEnded = false

omit [FloatOps S] [FloatCast D S] in
/-- A block that ends with `CLAP_PROCESS_SLEEP` leaves the engine asleep. -/
theorem asleep_of_voiceStatus {e : SineEngine D S} (time : Nat)
    (h : voiceStatus (e.emitNoteEnds time).1 = .sleep) : (e.emitNoteEnds time).1.Asleep := by
  have hsilent : (e.emitNoteEnds time).1.anyVoiceActive = false := by
    unfold voiceStatus at h
    split at h
    · cases h
    · rename_i hany
      exact Bool.eq_false_iff.mpr hany
  intro v hv
  have hactive : v.active = false := by
    have := List.any_eq_false.mp hsilent v hv
    exact Bool.eq_false_iff.mpr this
  obtain ⟨w, -, rfl⟩ := List.mem_map.mp hv
  exact ⟨hactive, rfl⟩

theorem Asleep.render {e : SineEngine D S} (h : e.Asleep) (left : Ptr) (right : Option Ptr)
    (offset frames : Nat) (gain : S) (m : Plane T) :
    e.renderImpl left right offset frames gain m = (e, m) := by
  have hvoices : ∀ (count : Nat) (vs : List (Voice D S)), (∀ v ∈ vs, v.active = false) →
      renderVoices left right gain e.globalMod offset count vs m = (vs, m) := by
    intro count vs hvs
    induction vs with
    | nil => rfl
    | cons v vs ih =>
      obtain ⟨hv, hrest⟩ := List.forall_mem_cons.mp hvs
      unfold renderVoices
      rw [hv, if_neg Bool.false_ne_true, ih hrest]
  unfold renderImpl
  simp only [hvoices _ _ fun v hv => (h v hv).1]

omit [FloatOps S] [FloatCast D S] in
theorem Asleep.emitNoteEnds {e : SineEngine D S} (h : e.Asleep) (time : Nat) :
    e.emitNoteEnds time = (e, []) := by
  have hnone : e.voices.filter (·.justEnded) = [] :=
    List.filter_eq_nil_iff.mpr fun v hv => Bool.eq_false_iff.mp (h v hv).2
  have hsame : e.voices.map (fun v => { v with justEnded := false }) = e.voices := by
    refine (List.map_congr_left fun v hv => ?_).trans (List.map_id _)
    rw [← (h v hv).2]
    rfl
  unfold SineEngine.emitNoteEnds mapVoices
  simp only [hnone, hsame]
  rfl

end SineEngine

/-! ## Silent blocks -/

section Blocks

variable {D S : Type} [DoubleOps D] [FloatOps S] [FloatCast D S]

/-- A block without events, and zeros in every input channel. -/
structure Silent (block : ProcessBlock D) (memory : AudioMemory D S) : Prop where
  events : unguardedHeaders block.inEvents = .ok []
  float : ∀ buffer ∈ block.audioInputs, ∀ channels ∈ buffer.data32, ∀ p ∈ channels,
    ∀ i < block.framesCount.toNat, memory.f32 p i = FloatOps.lit 0
  double : ∀ buffer ∈ block.audioInputs, ∀ channels ∈ buffer.data64, ∀ p ∈ channels,
    ∀ i < block.framesCount.toNat, memory.f64 p i = DoubleOps.lit 0

omit [FloatCast D S] in
theorem Silent.headers {block : ProcessBlock D} {memory : AudioMemory D S}
    (h : Silent block memory) : Yields (unguardedHeaders block.inEvents) (· = []) := by
  rw [h.events]
  exact Yields.of_ok rfl

omit [DoubleOps D] in
/-- Without events there is one chunk. -/
theorem chunkLoop_nil {σ T : Type} {render : σ → Nat → Nat → Plane T → σ × Plane T}
    {handle : σ → Event D → σ} {s : σ} {m : Plane T}
    (hrender : ∀ offset frames, render s offset frames m = (s, m)) (frames : Nat) :
    (chunkLoop render handle frames [] s m).self = s ∧
      (chunkLoop render handle frames [] s m).memory = m := by
  unfold chunkLoop
  dsimp only [List.foldl_nil]
  split
  · unfold renderTo
    dsimp only
    rw [hrender]
    exact ⟨rfl, rfl⟩
  · exact ⟨rfl, rfl⟩

namespace SynthPlugin

theorem process_sleep (base : Base D) (s : State D S) (block : ProcessBlock D)
    (memory : AudioMemory D S) :
    Yields (process base s block memory) fun r =>
      r.1.value = .sleep → r.1.self.engine.Asleep := by
  have hplane : ∀ {T : Type} [SampleOps D T] (out : AudioBuffer) (data : Option (List Ptr))
      (m : Plane T), Yields (processPlane s block out data m) fun r =>
        r.1.value = .sleep → r.1.self.engine.Asleep := by
    intro T _ out data m
    unfold processPlane
    exact Yields.andThen fun left => Yields.branch fun right => Yields.andThen fun headers =>
      Yields.andThen fun pushed => Yields.of_ok fun h =>
        SineEngine.asleep_of_voiceStatus (lastFrame block.framesCount) h
  unfold process
  split
  · exact Yields.of_ok nofun
  · split
    · exact Yields.of_ok nofun
    · split
      · exact Yields.bind (hplane _ _ _) fun r hr => Yields.of_ok hr
      · split
        · exact Yields.bind (hplane _ _ _) fun r hr => Yields.of_ok hr
        · exact Yields.of_ok nofun

/-- A silent block is nothing to a sleeping Synth. -/
theorem process_silent {s : State D S} (hs : s.engine.Asleep) {block : ProcessBlock D}
    {memory : AudioMemory D S} (hsilent : Silent block memory) (base : Base D) :
    Yields (process base s block memory) fun r => r.1.self = s ∧ r.1.effects = [] := by
  have htyped : ∀ {T : Type} [SampleOps D T] (left : Ptr) (right : Option Ptr) (m : Plane T),
      (processTyped s block.framesCount [] left right m).1 = s := by
    intro T _ left right m
    have hloop : ∀ (gain : S) (m : Plane T), (chunkLoop (render left right gain)
        handleEvent block.framesCount.toNat [] s m).self = s := by
      intro gain m
      refine (chunkLoop_nil (fun offset frames => ?_) _).1
      unfold render
      rw [hs.render]
    unfold processTyped
    dsimp only
    rw [hloop, hs.emitNoteEnds]
  have hplane : ∀ {T : Type} [SampleOps D T] (out : AudioBuffer) (data : Option (List Ptr))
      (m : Plane T), Yields (processPlane s block out data m) fun r =>
        r.1.self = s ∧ r.1.effects = [] := by
    intro T _ out data m
    unfold processPlane
    refine Yields.andThen fun left => Yields.branch fun right => Yields.bind hsilent.headers ?_
    rintro _ rfl
    exact Yields.andThen fun pushed => Yields.of_ok ⟨htyped left right m, rfl⟩
  unfold process
  split
  · exact Yields.of_ok ⟨rfl, rfl⟩
  · split
    · exact Yields.of_ok ⟨rfl, rfl⟩
    · split
      · exact Yields.bind (hplane _ _ _) fun r hr => Yields.of_ok hr
      · split
        · exact Yields.bind (hplane _ _ _) fun r hr => Yields.of_ok hr
        · exact Yields.of_ok ⟨rfl, rfl⟩

end SynthPlugin

namespace SidechainSynthPlugin

/-- One frame of the envelope follower. -/
def follow (envelope level : S) : S := envelope + kFollowerCoeff * (level - envelope)

/-- The level of a silent frame. -/
def silentLevel : S :=
  FloatOps.lit (1 / 2) * (FloatOps.abs (FloatOps.lit 0) + FloatOps.abs (FloatOps.lit 0))

/-- The gate is off, or silence leaves the envelope where it is. -/
def AtRest (s : State D S) : Prop :=
  FloatOps.lt (FloatOps.lit 0) (FloatCast.toFloat (s.params kParamSidechainAmount) : S) = false ∨
    follow s.envelope silentLevel = s.envelope

/-- No channel of the sidechain input is connected, or there are no frames. -/
def Unfed (block : ProcessBlock D) : Prop :=
  block.framesCount = 0 ∨ ∀ sidechain ∈ block.audioInputs.head?, sidechain.channelCount = 0

theorem process_sleep (base : Base D) (s : State D S) (block : ProcessBlock D)
    (memory : AudioMemory D S) :
    Yields (process base s block memory) fun r =>
      r.1.value = .sleep → r.1.self.engine.Asleep := by
  unfold process
  split
  · exact Yields.of_ok nofun
  · split
    · exact Yields.of_ok nofun
    · exact Yields.andThen fun left => Yields.branch fun right => Yields.andThen fun headers =>
        Yields.andThen fun gated => Yields.andThen fun pushed => Yields.of_ok fun h =>
          SineEngine.asleep_of_voiceStatus (lastFrame block.framesCount) h

/-- The loop body of the gate. -/
def gateFrame (amount : S) (scLeft scRight left : Ptr) (right : Option Ptr) (i : Nat)
    (acc : S × Plane S) : S × Plane S :=
  let envelope := follow acc.1
    (FloatOps.lit (1 / 2) * (FloatOps.abs (acc.2 scLeft i) + FloatOps.abs (acc.2 scRight i)))
  let mod := (FloatOps.lit 1 - amount) + amount *
    (if FloatOps.lt (FloatOps.lit 1) envelope then FloatOps.lit 1 else envelope)
  let m := acc.2.write left i (acc.2 left i * mod)
  (envelope, match right with
    | some right => m.write right i (m right i * mod)
    | none => m)

theorem gate_eq (amount : S) (scLeft scRight left : Ptr) (right : Option Ptr) (frames : Nat)
    (envelope : S) (m : Plane S) : gate amount scLeft scRight left right frames envelope m =
      frameLoop (gateFrame amount scLeft scRight left right) 0 frames (envelope, m) := rfl

/-- A frame writes its own samples only. -/
theorem gateFrame_ahead {amount : S} {scLeft scRight left : Ptr} {right : Option Ptr} {i j : Nat}
    (h : j ≠ i) (acc : S × Plane S) (p : Ptr) :
    (gateFrame amount scLeft scRight left right i acc).2 p j = acc.2 p j := by
  have hwrite : ∀ (m : Plane S) (q : Ptr) (x : S), m.write q i x p j = m p j :=
    fun m q x => if_neg fun hq => h hq.2
  unfold gateFrame
  cases right with
  | none => exact hwrite _ _ _
  | some right => exact (hwrite _ _ _).trans (hwrite _ _ _)

/-- An envelope at rest stays there as long as the input is silent. -/
theorem gate_silent {amount envelope : S} (hrest : follow envelope silentLevel = envelope)
    {scLeft scRight : Ptr} (left : Ptr) (right : Option Ptr) {frames : Nat} {m : Plane S}
    (hleft : ∀ i < frames, m scLeft i = FloatOps.lit 0)
    (hright : ∀ i < frames, m scRight i = FloatOps.lit 0) :
    (gate amount scLeft scRight left right frames envelope m).1 = envelope := by
  -- a frame writes its own samples only, so those ahead are still silent
  have hloop : ∀ (count start : Nat) (m : Plane S), start + count = frames →
      (∀ i, start ≤ i → i < frames → m scLeft i = FloatOps.lit 0 ∧ m scRight i = FloatOps.lit 0) →
      (frameLoop (gateFrame amount scLeft scRight left right) start count (envelope, m)).1 =
        envelope := by
    intro count
    induction count with
    | zero => exact fun start m _ _ => rfl
    | succ count ih =>
      intro start m hcount hzero
      obtain ⟨hl, hr⟩ := hzero start (Nat.le_refl _) (by omega)
      rw [frameLoop]
      have hframe : (gateFrame amount scLeft scRight left right start (envelope, m)).1 =
          envelope := by
        unfold gateFrame
        dsimp only
        rw [hl, hr]
        exact hrest
      rw [← Prod.mk.eta (p := gateFrame amount scLeft scRight left right start (envelope, m)),
        hframe]
      refine ih (start + 1) _ (by omega) fun i hi hlt => ?_
      have hne : i ≠ start := by omega
      rw [gateFrame_ahead hne, gateFrame_ahead hne]
      exact hzero i (by omega) hlt
  rw [gate_eq]
  exact hloop frames 0 m (Nat.zero_add frames) fun i _ hi => ⟨hleft i hi, hright i hi⟩

omit [FloatOps S] in
theorem clearSamples_of_eq {zero : S} {m : Plane S} {p : Ptr} {i : Nat} (h : m p i = zero)
    (q : Ptr) (frames : Nat) : clearSamples zero q frames m p i = zero := by
  have hloop : ∀ (count start : Nat) (m : Plane S), m p i = zero →
      frameLoop (fun i (m : Plane S) => m.write q i zero) start count m p i = zero := by
    intro count
    induction count with
    | zero => exact fun start m h => h
    | succ count ih =>
      intro start m h
      refine ih (start + 1) _ ?_
      dsimp only [Plane.write]
      split
      · rfl
      · exact h
  exact hloop frames 0 m h

theorem applySidechain_silent {s : State D S} {block : ProcessBlock D}
    {memory : AudioMemory D S} (hsilent : Silent block memory) (hrest : AtRest s ∨ Unfed block)
    (left : Ptr) (right : Option Ptr) {m : Plane S}
    (hm : ∀ p i, memory.f32 p i = FloatOps.lit 0 → m p i = FloatOps.lit 0) :
    Yields (applySidechain s block left right m) fun r => r.1 = s := by
  unfold applySidechain
  dsimp only
  split
  · exact Yields.of_ok rfl
  · rename_i sidechain rest hinputs
    have hchannel : ∀ ch, Yields (channelAt sidechain.data32 ch) fun p =>
        ∀ i < block.framesCount.toNat, m p i = FloatOps.lit 0 := by
      intro ch
      unfold channelAt
      split
      · exact Yields.of_error _
      · rename_i channels hdata
        split
        · rename_i p hp
          refine Yields.of_ok fun i hi => hm p i ?_
          exact hsilent.float sidechain (hinputs ▸ List.mem_cons_self) channels hdata p
            (List.mem_of_getElem? hp) i hi
        · exact Yields.of_error _
    split
    · rename_i hopen
      refine Yields.bind (hchannel 0) fun scLeft hleft =>
        Yields.bindBranch (hchannel 1) (hchannel 0) fun scRight hright => Yields.of_ok ?_
      have henvelope : (gate (FloatCast.toFloat (s.params kParamSidechainAmount)) scLeft scRight
          left right block.framesCount.toNat s.envelope m).1 = s.envelope := by
        rcases hrest with (hoff | hstill) | (hframes | hnone)
        · rw [hoff] at hopen
          exact absurd hopen.2 Bool.false_ne_true
        · exact gate_silent hstill left right hleft hright
        · rw [hframes]
          rfl
        · rw [hinputs] at hnone
          exact absurd (hnone sidechain rfl) (Nat.ne_of_gt hopen.1)
      dsimp only
      rw [henvelope]
    · exact Yields.of_ok rfl

/-- A silent block is nothing to a sleeping Sidechain Synth with its envelope at rest. -/
theorem process_silent {s : State D S} (hs : s.engine.Asleep) {block : ProcessBlock D}
    {memory : AudioMemory D S} (hsilent : Silent block memory) (hrest : AtRest s ∨ Unfed block)
    (base : Base D) : Yields (process base s block memory) fun r =>
      r.1.self = s ∧ r.1.effects = [] := by
  unfold process
  split
  · exact Yields.of_ok ⟨rfl, rfl⟩
  · split
    · exact Yields.of_ok ⟨rfl, rfl⟩
    · refine Yields.andThen fun left => Yields.branch fun right => Yields.bind hsilent.headers ?_
      rintro _ rfl
      have hloop : ∀ (gain : S) (m : Plane S),
          (chunkLoop (render left right gain) handleEvent block.framesCount.toNat [] s m).self = s ∧
          (chunkLoop (render left right gain) handleEvent block.framesCount.toNat [] s m).memory =
            m := by
        refine fun gain m => chunkLoop_nil (fun offset frames => ?_) _
        unfold render
        rw [hs.render]
      dsimp only
      rw [(hloop _ _).1, (hloop _ _).2]
      refine Yields.bind (applySidechain_silent hsilent hrest left right fun p i hzero => ?_) ?_
      · -- the output may share its channels with the input: it is cleared first
        split
        · exact clearSamples_of_eq (clearSamples_of_eq hzero _ _) _ _
        · exact clearSamples_of_eq hzero _ _
      · rintro ⟨_, m⟩ rfl
        refine Yields.andThen fun pushed => Yields.of_ok ⟨?_, rfl⟩
        dsimp only
        rw [hs.emitNoteEnds]

end SidechainSynthPlugin

end Blocks

/-! ## Runs -/

section Runs

variable {D S : Type} [DoubleOps D] [FloatOps S] [FloatCast D S] [DoubleBits D]

namespace Flavor

/-- Silence has nothing left to change in the flavor's members. -/
def Rests : (flavor : Flavor) → flavor.State D S → ProcessBlock D → Prop
  | sidechainSynth, s, block => SidechainSynthPlugin.AtRest s ∨ SidechainSynthPlugin.Unfed block
  | _, _, _ => True

/-- The calls are silent blocks, which leave the flavor at rest. -/
def Idle (flavor : Flavor) (s : flavor.State D S) (calls : List (ThreadId × Call D S)) : Prop :=
  ∀ l ∈ calls, ∃ block memory, l.2 = .process block memory ∧ Silent block memory ∧
    flavor.Rests s block

/-- The flavor's engine, if it has one, is asleep. -/
def Asleep (flavor : Flavor) (s : flavor.State D S) : Prop :=
  ∀ engine ∈ flavor.engine s, engine.Asleep

section Steps

variable {flavor : Flavor} {p q : Plugin D (flavor.State D S)}

/-- A block that is answered with `CLAP_PROCESS_SLEEP` leaves the synth asleep. -/
theorem asleep_of_process (hsynth : flavor.rendersChunks = true) {thread : ThreadId}
    {block : ProcessBlock D} {memory : AudioMemory D S} {reply : Plugin.ProcessReply D S}
    {hostCalls : List HostCall}
    (hstep : hostStep (flavor.impl : PluginImpl D S _) (.alive p) (thread, .process block memory) =
      .ok (.alive q, ⟨.process reply, hostCalls⟩))
    (hsleep : reply.status = .sleep) : flavor.Asleep q.self := by
  have hcall := hostStep_call hstep
  obtain ⟨reply', hr, hret⟩ := Instance.returned_alive hcall
  cases hret
  have hself := Plugin.sProcess_self thread block memory _ hr
  split at hself
  · obtain ⟨base, out, memory', hout, hself, hstatus⟩ := hself
    have hvalue : out.value = .sleep := hstatus.symm.trans hsleep
    intro engine hengine
    rw [hself] at hengine
    cases flavor with
    | synth =>
      cases hengine
      exact SynthPlugin.process_sleep base p.self block memory _ hout hvalue
    | sidechainSynth =>
      cases hengine
      exact SidechainSynthPlugin.process_sleep base p.self block memory _ hout hvalue
    | _ => cases hsynth
  · exact absurd (hself.2.symm.trans hsleep) nofun

/-- To a synth asleep a silent block is nothing, if it finds the synth at rest. -/
theorem alike_of_silent (hsynth : flavor.rendersChunks = true)
    (hi : p.contract.inProcess = false) (hasleep : flavor.Asleep p.self) {thread : ThreadId}
    {block : ProcessBlock D} {memory : AudioMemory D S} (hsilent : Silent block memory)
    (hrests : flavor.Rests p.self block) {i : Instance D (flavor.State D S)} {o : Reply D S}
    (hstep : hostStep (flavor.impl : PluginImpl D S _) (.alive p) (thread, .process block memory) =
      .ok (i, o)) : i.Alike (.alive p) := by
  have hcall := hostStep_call hstep
  obtain ⟨r, hr, hret⟩ := Except.bind_eq_ok hcall
  obtain rfl : .alive r.1 = i := (Prod.mk.inj (Except.ok.inj hret)).1
  have hnothing : ∀ base, Yields ((flavor.impl : PluginImpl D S _).process base p.self block
      memory) fun r => r.1.self = p.self ∧ r.1.effects = [] := by
    intro base
    cases flavor with
    | synth => exact SynthPlugin.process_silent (hasleep _ rfl) hsilent base
    | sidechainSynth =>
      exact SidechainSynthPlugin.process_silent (hasleep _ rfl) hsilent hrests base
    | _ => cases hsynth
  have hnoted : Plugin.Alike r.1 { p with hostCalls := [] } :=
    Plugin.sProcess_noted (p := { p with hostCalls := [] }) hi hnothing thread r hr
  exact congrArg Instance.alive (hnoted.change (fun p => { p with hostCalls := [] }) fun _ => rfl)

/-- So are any number of them. -/
theorem alike_of_idle (hsynth : flavor.rendersChunks = true) (hi : p.contract.inProcess = false)
    (hasleep : flavor.Asleep p.self) {calls : List (ThreadId × Call D S)}
    (hidle : flavor.Idle p.self calls) {i : Instance D (flavor.State D S)} {os : List (Reply D S)}
    (hrun : Machine.run (hostStep (flavor.impl : PluginImpl D S _)) (.alive p) calls =
      .ok (i, os)) : i.Alike (.alive p) := by
  induction calls generalizing p os with
  | nil =>
    cases hrun
    rfl
  | cons l calls ih =>
    obtain ⟨i₁, o, os', hstep, hrest, -⟩ := Machine.run_cons_ok hrun
    obtain ⟨hl, hcalls⟩ := List.forall_mem_cons.mp hidle
    obtain ⟨block, memory, hblock, hsilent, hrests⟩ := hl
    obtain ⟨thread, call⟩ := l
    cases hblock
    have hfirst := alike_of_silent hsynth hi hasleep hsilent hrests hstep
    cases i₁ with
    | deleted contract => cases hfirst
    | alive p₁ =>
      -- the next block finds the synth as this one did
      have hself : p₁.self = p.self := hfirst.of_alive.self
      have hi₁ : p₁.contract.inProcess = false :=
        (hfirst.of_alive.agree (·.contract.inProcess)).trans hi
      have hasleep₁ : flavor.Asleep p₁.self := hself ▸ hasleep
      have hidle₁ : flavor.Idle p₁.self calls := hself ▸ hcalls
      exact (ih hi₁ hasleep₁ hidle₁ hrest).trans hfirst

end Steps

/-- Of two runs that differ in silent blocks behind a block answered with `CLAP_PROCESS_SLEEP`
    one answers every later call as the other does, if the blocks find the synth at rest. -/
theorem sleep_inaudible {flavor : Flavor} (hsynth : flavor.rendersChunks = true)
    {host : Option Host} {front silents : List (ThreadId × Call D S)} {thread : ThreadId}
    {block : ProcessBlock D} {memory : AudioMemory D S} {p : Plugin D (flavor.State D S)}
    {i : Instance D (flavor.State D S)} {before replies : List (Reply D S)}
    {reply : Plugin.ProcessReply D S} {hostCalls : List HostCall}
    (hfront : Machine.run (hostStep (flavor.impl : PluginImpl D S _))
      (.alive (flavor.instantiate S host)) (front ++ [(thread, .process block memory)]) =
        .ok (.alive p, before ++ [⟨.process reply, hostCalls⟩]))
    (hsleep : reply.status = .sleep) (hidle : flavor.Idle p.self silents)
    (hsilents : Machine.run (hostStep (flavor.impl : PluginImpl D S _)) (.alive p) silents =
      .ok (i, replies)) (back : List (ThreadId × Call D S)) (later : List (Reply D S)) :
    (∃ j, Machine.run (hostStep (flavor.impl : PluginImpl D S _))
        (.alive (flavor.instantiate S host))
        (front ++ [(thread, .process block memory)] ++ silents ++ back) =
          .ok (j, before ++ [⟨.process reply, hostCalls⟩] ++ replies ++ later)) ↔
      ∃ j, Machine.run (hostStep (flavor.impl : PluginImpl D S _))
        (.alive (flavor.instantiate S host)) (front ++ [(thread, .process block memory)] ++ back) =
          .ok (j, before ++ [⟨.process reply, hostCalls⟩] ++ later) := by
  obtain ⟨s₁, os₁, os₂, -, hlast, hos⟩ := Machine.run_append_ok hfront
  obtain ⟨s₂, o, os, hstep, hnil, rfl⟩ := Machine.run_cons_ok hlast
  cases hnil
  obtain ⟨-, ho⟩ := List.append_inj' hos rfl
  cases ho
  obtain ⟨p₀, rfl, -⟩ := hostStep_ok hstep
  have hreach : flavor.Reachable p := ⟨host, _, _, hfront⟩
  have hi : p.contract.inProcess = false := (snapshot_of_reachable hreach).inProcess
  have hasleep : flavor.Asleep p.self := asleep_of_process hsynth hstep hsleep
  have hsame : i.Alike (.alive p) := alike_of_idle hsynth hi hasleep hidle hsilents
  exact Machine.run_skip hfront hsilents (fun back later => run_alike hsame back later) back later

end Flavor

end Runs

/-! ## Exact arithmetic -/

section Probe

open SidechainSynthPlugin

/-- Exactly computed, an envelope is at rest at zero only. -/
theorem follow_silentLevel_iff (envelope : ExactFloat) :
    follow envelope silentLevel = envelope ↔ envelope = 0 := by
  have hfollow : follow envelope silentLevel =
      envelope + 1 / 100 * (1 / 2 * (|0| + |0|) - envelope) := rfl
  rw [hfollow, abs_zero]
  constructor
  · intro h
    linarith
  · rintro rfl
    norm_num

/-- A block of the Sidechain Synth with both ports connected. -/
def gatedBlock (frames : UInt32) (events : List (Option (Event ExactFloat))) :
    ProcessBlock ExactFloat :=
  { framesCount := frames
    audioInputs := [{ channelCount := 2, data32 := some [2, 3] }]
    audioOutputs := [{ channelCount := 2, data32 := some [0, 1] }]
    inEvents := some { events := events } }

/-- Memory with a constant in the channels of the sidechain input. -/
def sidechainAt (level : ExactFloat) : AudioMemory ExactFloat ExactFloat :=
  { f32 := fun p _ => if p = 2 ∨ p = 3 then level else 0, f64 := fun _ _ => 0 }

/-- A Sidechain Synth, on a host that offers nothing. -/
def newSidechainSynth : Instance ExactFloat (SidechainSynthPlugin.State ExactFloat ExactFloat) :=
  .alive (Flavor.sidechainSynth.instantiate ExactFloat none)

/-- Up to a frame with the sidechain input at the level; no note has been played. -/
def opening (level : ExactFloat) : List (ThreadId × Call ExactFloat ExactFloat) :=
  [(0, .init []), (0, .activate 48000 1 512), (0, .startProcessing),
    (0, .process (gatedBlock 1 []) (sidechainAt level))]

def silentFrame : ThreadId × Call ExactFloat ExactFloat :=
  (0, .process (gatedBlock 1 []) (sidechainAt 0))

def wakingNote : Event ExactFloat :=
  { size := sizeofNote, time := 0
    body := .noteOn { noteId := -1, portIndex := 0, channel := 0, key := 69, velocity := 1 } }

/-- Two frames of a note, with silence at the sidechain input. -/
def noteFrames : ThreadId × Call ExactFloat ExactFloat :=
  (0, .process (gatedBlock 2 [some wakingNote]) (sidechainAt 0))

/-- Status and second sample of the last block. -/
def lastHeard (calls : List (ThreadId × Call ExactFloat ExactFloat)) :
    Exec (Option (ProcessStatus × ExactFloat)) :=
  (Machine.run (hostStep SidechainSynthPlugin.impl) newSidechainSynth calls).map fun r =>
    r.2.getLast?.bind fun o =>
      match o.result with
      | .process reply => some (reply.status, reply.memory.f32 0 1)
      | _ => none

theorem silent_silentFrame : Silent (gatedBlock 1 []) (sidechainAt 0) := by
  refine ⟨rfl, fun _ _ _ _ p _ i _ => ?_, fun _ _ _ _ _ _ _ _ => rfl⟩
  show (if p = 2 ∨ p = 3 then (0 : ExactFloat) else 0) = 0
  rw [ite_self]

/-- The sidechain input has been silent from the start. -/
theorem sleep_inaudible_silentFrame :
    let step := hostStep (SidechainSynthPlugin.impl : PluginImpl ExactFloat ExactFloat _)
    ∃ before reply hostCalls replies, reply.status = .sleep ∧ ∀ later,
      (∃ j, Machine.run step newSidechainSynth (opening 0 ++ [silentFrame] ++ [noteFrames]) =
          .ok (j, before ++ [⟨.process reply, hostCalls⟩] ++ replies ++ later)) ↔
        ∃ j, Machine.run step newSidechainSynth (opening 0 ++ [noteFrames]) =
          .ok (j, before ++ [⟨.process reply, hostCalls⟩] ++ later) := by
  intro step
  have hrun : ∃ p before reply hostCalls i replies,
      Machine.run step newSidechainSynth (opening 0) =
          .ok (.alive p, before ++ [⟨.process reply, hostCalls⟩]) ∧
        Machine.run step (.alive p) [silentFrame] = .ok (i, replies) ∧ reply.status = .sleep ∧
        p.self.envelope = 0 + 1 / 100 * (1 / 2 * (|0| + |0|) - 0) :=
    ⟨_, [_, _, _], _, _, _, _, rfl, rfl, rfl, rfl⟩
  obtain ⟨p, before, reply, hostCalls, i, replies, hopening, hsilents, hsleep, henvelope⟩ := hrun
  have hzero : p.self.envelope = 0 := by
    rw [henvelope, abs_zero]
    norm_num
  have hidle : Flavor.sidechainSynth.Idle p.self [silentFrame] := by
    refine List.forall_mem_singleton.mpr ⟨_, _, rfl, silent_silentFrame, .inl (.inr ?_)⟩
    exact (follow_silentLevel_iff p.self.envelope).mpr hzero
  exact ⟨before, reply, hostCalls, replies, hsleep, fun later =>
    @Flavor.sleep_inaudible ExactFloat ExactFloat _ _ _ _ .sidechainSynth rfl none
      ((opening 0).take 3) [silentFrame] 0 _ _ p i before replies reply hostCalls hopening hsleep
      hidle hsilents [noteFrames] later⟩

/-- The envelope is open when the Sidechain Synth goes to sleep: the note that wakes it is louder
    if the silent frame before it is left out. -/
theorem sleep_audible : (lastHeard (opening 1)).map (·.map Prod.fst) = .ok (some .sleep) ∧
    Silent (gatedBlock 1 []) (sidechainAt 0) ∧
    lastHeard (opening 1 ++ [silentFrame] ++ [noteFrames]) ≠
      lastHeard (opening 1 ++ [noteFrames]) :=
  ⟨by decide +kernel, silent_silentFrame, by decide +kernel⟩

end Probe

end Cvp
