/-
  Effect's process status, over whole runs of host calls: CLAP_PROCESS_CONTINUE on live input, then
  CLAP_PROCESS_TAIL until the declared tail has elapsed, then CLAP_PROCESS_SLEEP
  (`tailStatus_run`). `silentInputSamples` counts the silent frames modulo 2^64 and no call but
  `process()` touches it. Channel buffers may be shared in place; no output channel may be the
  buffer of a later input channel, which the pass would read behind its own writes.
-/
import ClapValidatorPlugins.Blocks.GainPass
import ClapValidatorPlugins.Contract.StateRule

namespace Cvp

open InPlace

namespace Plugin

variable {D S σ : Type}

theorem perform_base (p : Plugin D σ) (effect : Effect) : (p.perform effect).base = p.base := by
  cases effect <;> rfl

theorem absorb_base {α : Type} (p : Plugin D σ) (out : Outcome D σ α) :
    (p.absorb out).base = p.base := by
  have heffects : ∀ (effects : List Effect) (p : Plugin D σ),
      (effects.foldl perform p).base = p.base := by
    intro effects
    induction effects with
    | nil => exact fun p => rfl
    | cons effect effects ih => exact fun p => (ih _).trans (p.perform_base effect)
  exact heffects out.effects { p with self := out.self }

/-- A block that is not answered CLAP_PROCESS_ERROR has been processed by the flavor, with what it
    can ask of its base before and behind it. -/
theorem sProcess_processed {impl : PluginImpl D S σ} {p : Plugin D σ} {thread : ThreadId}
    {block : ProcessBlock D} {memory : AudioMemory D S} :
    Yields (p.sProcess impl thread block memory) fun r => r.1.base = p.base ∧
      ((r.1.self = p.self ∧ r.2.status = .error) ∨
        ∃ out memory', impl.process p.base p.self block memory = .ok (out, memory') ∧
          r.1.self = out.self ∧ r.2.status = out.value) := by
  obtain ⟨hbase, hself⟩ := p.processGate_keeps thread block
  unfold sProcess
  split
  · rename_i q hq
    rw [hq] at hbase hself
    exact Yields.of_ok ⟨hbase, .inl ⟨hself, rfl⟩⟩
  · rename_i q hq
    rw [hq] at hbase hself
    dsimp only at hbase hself
    rw [hbase, hself]
    split
    · exact Yields.of_error _
    · rename_i out memory' hout
      exact Yields.of_ok ⟨(absorb_base q out).trans hbase,
        .inr ⟨out, memory', hout, absorb_self q out, rfl⟩⟩

end Plugin

namespace EffectPlugin

variable {D S : Type} [DoubleOps D] [FloatOps S] [FloatCast D S]

/-! ## One block -/

/-- A sample other than zero in an input channel below both channel counts. -/
def hasLiveInput (block : ProcessBlock D) (memory : AudioMemory D S) : Bool :=
  match block.audioInputs, block.audioOutputs with
  | input :: _, output :: _ =>
    (List.range (commonChannels input output)).any fun ch =>
      match channel input ch with
      | .ok src => (List.range block.framesCount.toNat).any fun i => src.isLive memory i
      | .error _ => false
  | _, _ => false

/-- No output channel is the buffer of a later input channel. -/
def InputsReadFirst (block : ProcessBlock D) : Prop :=
  ∀ input ∈ block.audioInputs.head?, ∀ output ∈ block.audioOutputs.head?,
    ∀ ch ch' dst src, ch < ch' → ch' < commonChannels input output →
      channel output ch = .ok dst → channel input ch' = .ok src → dst ≠ src

/-- The status for the silent frames in a row so far, this block included. -/
def tailStatus (live : Bool) (silentRun tail : Nat) : ProcessStatus :=
  if live then .continue else if tail < silentRun then .sleep else .tail

omit [FloatOps S] [FloatCast D S] in
theorem consume_silentInputSamples (base : Base D) (headers : List (Event D)) :
    ∀ s : State D, (consume (applyParamEvent base) s headers).self.silentInputSamples =
      s.silentInputSamples := by
  have hone : ∀ (s : State D) (e : Event D),
      (applyParamEvent base s e).self.silentInputSamples = s.silentInputSamples := by
    intro s e
    unfold applyParamEvent
    split
    · rfl
    · split
      · split
        · dsimp only
          split <;> rfl
        · rfl
      · rfl
  induction headers with
  | nil => exact fun s => rfl
  | cons e headers ih => exact fun s => (ih _).trans (hone s e)

/-- The scan of a whole block. -/
theorem gainChannels_live (gain : D) {input output : AudioBuffer} (frames : Nat)
    (memory : AudioMemory D S)
    (hread : ∀ ch ch' dst src, ch < ch' → ch' < commonChannels input output →
      channel output ch = .ok dst → channel input ch' = .ok src → dst ≠ src) :
    Yields (gainChannels gain input output frames 0 (commonChannels input output)
      (true, memory)) fun r =>
        r.1 = !(List.range (commonChannels input output)).any fun ch =>
          match channel input ch with
          | .ok src => (List.range frames).any fun i => src.isLive memory i
          | .error _ => false := by
  intro r h
  obtain ⟨pairs, hlen, hin, hout⟩ := gainChannels_ok h
  obtain ⟨silent, memory', hpass, -, hsilent⟩ := gainChannels_eq gain frames hin hout true memory
  rw [hlen, h] at hpass
  cases hpass
  have hsrc : ∀ n (hn : n < pairs.length), channel input n = .ok pairs[n].1 := by
    intro n hn
    have := hin n (by rwa [List.length_map])
    rwa [Nat.zero_add, List.getElem_map] at this
  have hdst : ∀ n (hn : n < pairs.length), channel output n = .ok pairs[n].2 := by
    intro n hn
    have := hout n (by rwa [List.length_map])
    rwa [Nat.zero_add, List.getElem_map] at this
  have hfirst : ReadFirst pairs := List.pairwise_iff_getElem.mpr fun i j hi hj hij =>
    hread i j _ _ hij (hlen ▸ hj) (hdst i hi) (hsrc j hj)
  rw [Bool.eq_iff_iff, hsilent hfirst, Bool.not_eq_true', List.any_eq_false]
  simp only [true_and]
  constructor
  · intro hquiet ch hch
    have hn : ch < pairs.length := hlen ▸ List.mem_range.mp hch
    rw [hsrc ch hn]
    simp only [List.any_eq_true, List.mem_range, not_exists, not_and, Bool.not_eq_true]
    exact hquiet _ (List.getElem_mem hn)
  · intro hquiet pair hpair i hi
    obtain ⟨n, hn, rfl⟩ := List.mem_iff_getElem.mp hpair
    have hnone := hquiet n (List.mem_range.mpr (hlen ▸ hn))
    rw [hsrc n hn] at hnone
    simp only [List.any_eq_true, List.mem_range, not_exists, not_and, Bool.not_eq_true] at hnone
    exact hnone i hi

/-- A block ends in the silence count, or it is answered CLAP_PROCESS_ERROR and not counted. -/
theorem process_finishes (base : Base D) (s : State D) {block : ProcessBlock D}
    (memory : AudioMemory D S) (hread : InputsReadFirst block) :
    Yields (process base s block memory) fun r =>
      ∃ s₁ : State D, s₁.silentInputSamples = s.silentInputSamples ∧
        ((r.1.value = .error ∧ r.1.self = s₁) ∨
          (r.1.self, r.1.value) =
            finish base s₁ block.framesCount (!hasLiveInput block memory)) := by
  unfold process
  split
  · rename_i input inputs output outputs hin hout
    unfold InputsReadFirst at hread
    rw [hin, hout] at hread
    refine Yields.andThen fun headers => ?_
    have hconsumed := consume_silentInputSamples base headers s
    dsimp only
    split
    · exact Yields.of_ok ⟨_, hconsumed, .inl ⟨rfl, rfl⟩⟩
    · refine Yields.bind (gainChannels_live _ _ memory (hread input rfl output rfl))
        fun r hr => ?_
      have hlive : (!hasLiveInput block memory) = r.1 := by
        unfold hasLiveInput
        rw [hin, hout]
        exact hr.symm
      rw [hlive]
      exact Yields.of_ok ⟨_, hconsumed, .inr rfl⟩
  · exact Yields.of_ok ⟨s, rfl, .inl ⟨rfl, rfl⟩⟩

omit [FloatOps S] [FloatCast D S] in
theorem finish_ne_error (base : Base D) (s : State D) (frames : UInt32) (silent : Bool) :
    (finish base s frames silent).2 ≠ .error := by
  unfold finish
  dsimp only
  split
  · nofun
  · split <;> nofun

/-- The count behind a block, as long as it has not come round. -/
theorem finish_tailStatus (base : Base D) (s : State D) (frames : UInt32) (live : Bool)
    {silentRun : Nat} (hcount : s.silentInputSamples.toNat = silentRun)
    (hlt : silentRun + frames.toNat < 2 ^ 64) :
    let silentRun' := if live then 0 else silentRun + frames.toNat
    (finish base s frames (!live)).1.silentInputSamples.toNat = silentRun' ∧
      (finish base s frames (!live)).2 = tailStatus live silentRun'
        (tail base (finish base s frames (!live)).1).toNat := by
  cases live with
  | true => exact ⟨rfl, rfl⟩
  | false =>
    have hsum : (s.silentInputSamples + frames.toUInt64).toNat = silentRun + frames.toNat := by
      rw [UInt64.toNat_add, UInt32.toNat_toUInt64, hcount, Nat.mod_eq_of_lt hlt]
    refine ⟨hsum, ?_⟩
    show (if s.silentInputSamples + frames.toUInt64 ≤ (tail base s).toUInt64 then
      ProcessStatus.tail else .sleep) = if (tail base s).toNat < silentRun + frames.toNat then
        .sleep else .tail
    have hle : s.silentInputSamples + frames.toUInt64 ≤ (tail base s).toUInt64 ↔
        silentRun + frames.toNat ≤ (tail base s).toNat := by
      rw [UInt64.le_iff_toNat_le, hsum, UInt32.toNat_toUInt64]
    by_cases h : silentRun + frames.toNat ≤ (tail base s).toNat
    · rw [if_pos (hle.mpr h), if_neg (Nat.not_lt.mpr h)]
    · rw [if_neg fun hcode => h (hle.mp hcode), if_pos (Nat.lt_of_not_le h)]

variable [DoubleBits D]

/-! ## Runs -/

/-- Every call but `process()` leaves the silence count alone. -/
def KeepsCount (call : Call D S) (s s' : State D) : Prop :=
  (∀ block memory, call ≠ .process block memory) → s'.silentInputSamples = s.silentInputSamples

theorem keepsCount : StateRule (impl : PluginImpl D S (State D)) KeepsCount where
  unreached _ _ _ := rfl
  init _ _ _ _ := rfl
  activate _ _ _ _ _ _ _ _ _ := rfl
  deactivate _ _ _ := rfl
  stopAndDeactivate _ _ _ _ := rfl
  startProcessing _ _ _ := rfl
  stopProcessing _ _ _ := rfl
  reset _ _ _ := rfl
  onMainThread _ _ _ := rfl
  process _ _ block memory _ _ h := absurd rfl (h block memory)
  paramsFlush := by
    rintro _ ⟨⟩ base s events hasOut
    exact Yields.andThen fun headers => Yields.of_ok fun _ =>
      consume_silentInputSamples base headers s
  stateSave := by
    rintro _ ⟨⟩ s stream
    exact Yields.andThen fun r => Yields.of_ok fun _ => rfl
  stateLoad := by
    rintro _ ⟨⟩ s stream
    exact Yields.andThen fun r => Yields.of_ok fun _ => rfl
  renderSet := by
    rintro _ ⟨⟩ s mode _
    show (renderSet s mode).self.silentInputSamples = _
    unfold renderSet
    split <;> rfl

/-- What the blocks of a run have brought so far, those answered CLAP_PROCESS_ERROR left out. -/
structure Heard where
  /-- the frames since the last block with live input -/
  silentRun : Nat
  total : Nat

def Heard.next (heard : Heard) (_ : Instance D (State D)) (l : ThreadId × Call D S)
    (o : Reply D S) : Heard :=
  match l.2, o.result with
  | .process block memory, .process reply =>
    if reply.status = .error then heard
    else
      { silentRun :=
          if hasLiveInput block memory then 0 else heard.silentRun + block.framesCount.toNat
        total := heard.total + block.framesCount.toNat }
  | _, _ => heard

def heardStep : Machine.Step (Instance D (State D) × Heard) (ThreadId × Call D S) (Reply D S)
    Fault :=
  Machine.remembering (hostStep impl) Heard.next

/-- The status of a block that is not answered CLAP_PROCESS_ERROR, with the tail as it is at that
    block. -/
def TellsTail (_ : Instance D (State D) × Heard) (l : ThreadId × Call D S)
    (s' : Instance D (State D) × Heard) (o : Reply D S) : Prop :=
  ∀ q block memory reply, s'.1 = .alive q → l.2 = .process block memory →
    o.result = .process reply → reply.status ≠ .error → s'.2.total < 2 ^ 64 →
      reply.status = tailStatus (hasLiveInput block memory) s'.2.silentRun
        (tail q.base q.self).toNat

/-- Between two calls. -/
def Counts (s : Instance D (State D) × Heard) : Prop :=
  s.2.silentRun ≤ s.2.total ∧ ∀ p, s.1 = .alive p → s.2.total < 2 ^ 64 →
    p.self.silentInputSamples.toNat = s.2.silentRun

omit [DoubleBits D] [FloatCast D S] in
theorem Heard.next_of_not_process (heard : Heard) (i : Instance D (State D))
    {l : ThreadId × Call D S} (o : Reply D S) (h : ∀ block memory, l.2 ≠ .process block memory) :
    heard.next i l o = heard := by
  unfold Heard.next
  split
  · rename_i block memory _ hl _
    exact absurd hl (h block memory)
  · rfl

theorem heard_step {s s' : Instance D (State D) × Heard} {l : ThreadId × Call D S}
    {o : Reply D S} (hread : ∀ block memory, l.2 = .process block memory → InputsReadFirst block)
    (h : Counts s) (hstep : heardStep s l = .ok (s', o)) : TellsTail s l s' o ∧ Counts s' := by
  obtain ⟨hcall, hnext⟩ := Machine.remembering_ok hstep
  obtain ⟨i, heard⟩ := s
  obtain ⟨i', heard'⟩ := s'
  dsimp only at hcall hnext
  obtain ⟨p, rfl, -⟩ := hostStep_ok hcall
  obtain ⟨hle, hcount⟩ := h
  have hcount := hcount p rfl
  dsimp only at hle hcount
  by_cases hprocess : ∃ block memory, l.2 = .process block memory
  · obtain ⟨thread, call⟩ := l
    obtain ⟨block, memory, rfl⟩ := hprocess
    have hcall := hostStep_call hcall
    obtain ⟨r, hr, hret⟩ := Except.bind_eq_ok hcall
    obtain ⟨hi, hresult⟩ := Prod.mk.inj (Except.ok.inj hret)
    obtain ⟨hbase, hself⟩ := Plugin.sProcess_processed _ hr
    subst hi
    have hnext : heard' = if r.2.status = .error then heard else
        { silentRun :=
            if hasLiveInput block memory then 0 else heard.silentRun + block.framesCount.toNat
          total := heard.total + block.framesCount.toNat } := by
      rw [hnext, Heard.next, ← hresult]
    have hreply : ∀ reply, o.result = .process reply → reply = r.2 := fun reply ho =>
      (Result.process.inj (hresult.trans ho)).symm
    -- what the flavor did, or would have done: a block turned down leaves the state alone
    have hfinish : ∃ s₁ : State D, s₁.silentInputSamples = p.self.silentInputSamples ∧
        ((r.2.status = .error ∧ r.1.self = s₁) ∨ (r.1.self, r.2.status) =
          finish p.base s₁ block.framesCount (!hasLiveInput block memory)) := by
      rcases hself with ⟨hself, hstatus⟩ | ⟨out, memory', hout, hself, hstatus⟩
      · exact ⟨p.self, rfl, .inl ⟨hstatus, hself⟩⟩
      · rw [hself, hstatus]
        exact process_finishes p.base p.self memory (hread block memory rfl) _ hout
    obtain ⟨s₁, hs₁, ⟨herror, hself⟩ | hfinish⟩ := hfinish
    · -- no status to tell, and nothing is counted
      rw [if_pos herror] at hnext
      subst hnext
      refine ⟨fun q block memory reply _ _ ho hne => absurd (hreply reply ho ▸ herror) hne, hle,
        fun q hq hlt => ?_⟩
      cases hq
      rw [hself, hs₁]
      exact hcount hlt
    · have hstatus : r.2.status = (finish p.base s₁ block.framesCount
          (!hasLiveInput block memory)).2 := congrArg Prod.snd hfinish
      have hself : r.1.self = (finish p.base s₁ block.framesCount
          (!hasLiveInput block memory)).1 := congrArg Prod.fst hfinish
      rw [if_neg (hstatus ▸ finish_ne_error _ _ _ _)] at hnext
      have hbehind : heard'.total < 2 ^ 64 →
          r.1.self.silentInputSamples.toNat = heard'.silentRun ∧
            r.2.status = tailStatus (hasLiveInput block memory) heard'.silentRun
              (tail p.base r.1.self).toNat := by
        intro hlt
        subst hnext
        dsimp only at hlt ⊢
        rw [hself, hstatus]
        refine finish_tailStatus p.base s₁ block.framesCount _ ?_ (by omega)
        rw [hs₁]
        exact hcount (by omega)
      refine ⟨fun q _ _ reply hq hl ho _ hlt => ?_, ?_, fun q hq hlt => ?_⟩
      · cases hq
        cases hl
        rw [hreply reply ho, hbase]
        exact (hbehind hlt).2
      · subst hnext
        dsimp only
        split <;> omega
      · cases hq
        exact (hbehind hlt).1
  · have hprocess : ∀ block memory, l.2 ≠ .process block memory :=
      fun block memory hl => hprocess ⟨block, memory, hl⟩
    rw [Heard.next_of_not_process heard _ o hprocess] at hnext
    subst hnext
    refine ⟨fun q block memory reply _ hl => absurd hl (hprocess block memory), hle,
      fun q hq hlt => ?_⟩
    dsimp only at hq
    subst hq
    rw [Plugin.hostStep_self keepsCount hcall hprocess]
    exact hcount hlt

/-- Along every run of host calls on a new instance every block that is not answered
    CLAP_PROCESS_ERROR is answered CLAP_PROCESS_CONTINUE if it brings live input; else
    CLAP_PROCESS_SLEEP if more frames have been silent in a row than the tail is long, and
    CLAP_PROCESS_TAIL otherwise. -/
theorem tailStatus_run (host : Option Host) {calls : List (ThreadId × Call D S)}
    (hread : ∀ l ∈ calls, ∀ block memory, l.2 = .process block memory → InputsReadFirst block) :
    Machine.AllSteps heardStep TellsTail
      (.alive (Flavor.effect.instantiate S host), { silentRun := 0, total := 0 }) calls := by
  have hstart : Counts (.alive (Flavor.effect.instantiate S host : Plugin D (State D)),
      { silentRun := 0, total := 0 }) :=
    ⟨Nat.le_refl 0, fun p hp _ => by cases hp; rfl⟩
  exact (Machine.allSteps_iff (I := Counts)
    (A := fun _ l _ _ => ∀ block memory, l.2 = .process block memory → InputsReadFirst block)
    (fun s l s' o hs hstep hl => ⟨fun _ => trivial, fun _ => (heard_step hl hs hstep).1⟩)
    (fun s l s' o hs hstep hl _ => (heard_step hl hs hstep).2) hstart
    (Machine.allSteps_of_labels hread)).mpr (Machine.allSteps_of_labels fun _ _ => trivial)

/-- Four stereo frames in place. -/
def inPlaceBlock : ProcessBlock ExactFloat :=
  { steadyTime := -1
    framesCount := 4
    audioInputs := [{ channelCount := 2, data32 := some [0, 1] }]
    audioOutputs := [{ channelCount := 2, data32 := some [0, 1] }]
    inEvents := some { events := [] } }

/-- A live block and a silent one. -/
def fallingSilentCalls : List (ThreadId × Call ExactFloat ExactFloat) :=
  [(0, .init []), (0, .activate 48000 1 64), (0, .startProcessing),
    (0, .process inPlaceBlock { f32 := fun _ _ => 1, f64 := fun _ _ => 0 }),
    (0, .process inPlaceBlock { f32 := fun _ _ => 0, f64 := fun _ _ => 0 })]

theorem inPlaceBlock_readFirst : InputsReadFirst inPlaceBlock := by
  rintro input ⟨⟩ output ⟨⟩ ch ch' dst src hlt hch' hdst hsrc
  have hch' : ch' < 2 := hch'
  obtain rfl : ch = 0 := by omega
  obtain rfl : ch' = 1 := by omega
  cases hdst
  cases hsrc
  nofun

theorem tailStatus_run_fallingSilent :
    Machine.AllSteps heardStep TellsTail
      (.alive (Flavor.effect.instantiate ExactFloat none), { silentRun := 0, total := 0 })
      fallingSilentCalls :=
  tailStatus_run none fun l hl block memory hblock => by
    simp only [fallingSilentCalls, List.mem_cons, List.not_mem_nil, or_false] at hl
    rcases hl with rfl | rfl | rfl | rfl | rfl <;> cases hblock <;> exact inPlaceBlock_readFirst

end EffectPlugin

end Cvp
