/-
  P02, the steady time. The monitor keeps the end of the last block, `steady_time + frames_count`,
  as an `int64_t`. What a block is to be judged by is the last checked block since the last
  rebaselining (`LastBlock`), and the sum of that block as an exact integer. The two agree as long
  as the sum is below 2^63; one block later the check misses every step backwards
  (`steadyTime_exact_iff`).
-/
import ClapValidatorPlugins.Contract.CallEffects
import ClapValidatorPlugins.Events.Verdicts

namespace Cvp

variable {D S σ : Type}

/-! ## The documented verdict -/

/-- The last checked block since the last rebaselining: its steady time and frame count. -/
abbrev LastBlock := Option (Int × UInt32)

/-- `process()` reaches `checkProcessContracts`. -/
def Plugin.checksBlocks (p : Plugin D σ) : Bool := p.contract.active && p.contract.processing

/-- The last block behind a call on the instance `i`. -/
def LastBlock.next (last : LastBlock) (i : Instance D σ) (l : ThreadId × Call D S)
    (_ : Reply D S) : LastBlock :=
  match i, l.2 with
  | .alive p, .process block _ =>
    if p.checksBlocks then some (block.steadyTime, block.framesCount) else last
  | .alive _, .reset => none
  | .alive p, .startProcessing =>
    if p.contract.active && !p.contract.processing then none else last
  | _, _ => last

/-- A steady time below the exact end of the last block, both of them available. -/
def LastBlock.goesBack (last : LastBlock) (steadyTime : Int) : Bool :=
  match last with
  | some (time, frames) => decide (0 ≤ steadyTime ∧ 0 ≤ time ∧ steadyTime < time + frames.toNat)
  | none => false

/-- The end of the last block is beyond `int64_t`. -/
def LastBlock.overflows (last : LastBlock) : Bool :=
  match last with
  | some (time, frames) => decide (0 ≤ time ∧ 2 ^ 63 ≤ time + frames.toNat)
  | none => false

/-- Calls with the last block so far. -/
def steadyStep [DoubleOps D] (impl : PluginImpl D S σ) :
    Machine.Step (Instance D σ × LastBlock) (ThreadId × Call D S) (Reply D S) Fault :=
  Machine.remembering (hostStep impl) LastBlock.next

/-- `steady_time` is an `int64_t`. -/
def Call.hasInt64Time : Call D S → Prop
  | .process block _ => -2 ^ 63 ≤ block.steadyTime ∧ block.steadyTime < 2 ^ 63
  | _ => True

/-- `P` of every checked block that an instance answers. -/
def OnChecked (P : LastBlock → ProcessBlock D → Plugin D σ → Plugin D σ → Prop)
    (s : Instance D σ × LastBlock) (l : ThreadId × Call D S) (s' : Instance D σ × LastBlock)
    (_ : Reply D S) : Prop :=
  ∀ p q block memory, s.1 = .alive p → s'.1 = .alive q → l.2 = .process block memory →
    p.checksBlocks = true → P s.2 block p q

/-- The block raises P02 exactly if its steady time goes back. -/
def ExactP02 (last : LastBlock) (block : ProcessBlock D) (p q : Plugin D σ) : Prop :=
  p.raised q .P02 = if last.goesBack block.steadyTime then 1 else 0

/-- The end of the block is within `int64_t`. -/
def EndsInRange (_ : LastBlock) (block : ProcessBlock D) (_ _ : Plugin D σ) : Prop :=
  0 ≤ block.steadyTime → block.steadyTime + block.framesCount.toNat < 2 ^ 63

/-- No available steady time behind a block whose end is not. -/
def NotBehindOverflow (last : LastBlock) (block : ProcessBlock D) (_ _ : Plugin D σ) : Prop :=
  last.overflows = true → block.steadyTime < 0

/-! ## The monitor's baseline -/

/-- The baseline of the monitor is the end of the last block, wrapped. -/
def Baseline (m : ContractMonitor) (last : LastBlock) : Prop :=
  match last with
  | some (time, frames) => m.steadyValid = decide (0 ≤ time) ∧
      (0 ≤ time → m.steadyEnd = ContractMonitor.wrapInt64 (time + frames.toNat))
  | none => m.steadyValid = false

theorem wrapInt64_of_lt {x : Int} (h₀ : 0 ≤ x) (h : x < 2 ^ 63) :
    ContractMonitor.wrapInt64 x = x := by
  unfold ContractMonitor.wrapInt64
  omega

/-- Beyond the range, but by less than a frame count, the sum becomes negative. -/
theorem wrapInt64_neg {x : Int} (h : 2 ^ 63 ≤ x) (hlt : x < 2 ^ 64) :
    ContractMonitor.wrapInt64 x < 0 := by
  unfold ContractMonitor.wrapInt64
  omega

/-- What `checkSteadyTime` says, in terms of the last block: the documented verdict, unless the
    last block ended beyond the range. -/
theorem checkSteadyTime_iff {m : ContractMonitor} {last : LastBlock} (h : Baseline m last)
    (hlast : ∀ time frames, last = some (time, frames) → time < 2 ^ 63) {steadyTime : Int}
    (htime : steadyTime < 2 ^ 63) (framesCount : Nat) :
    (m.checkSteadyTime steadyTime framesCount).1 =
      !(last.goesBack steadyTime && !last.overflows) := by
  unfold ContractMonitor.checkSteadyTime
  by_cases hneg : steadyTime < 0
  · have hback : last.goesBack steadyTime = false := by
      unfold LastBlock.goesBack
      split
      · exact decide_eq_false fun hall => by omega
      · rfl
    rw [if_pos hneg, hback]
    rfl
  · rw [if_neg hneg]
    dsimp only
    cases last with
    | none =>
      have hvalid : m.steadyValid = false := h
      rw [hvalid]
      rfl
    | some block =>
      obtain ⟨time, frames⟩ := block
      obtain ⟨hvalid, hend⟩ := h
      have htime' := hlast time frames rfl
      have hframes := frames.toNat_lt
      unfold LastBlock.goesBack LastBlock.overflows
      dsimp only
      by_cases hpos : 0 ≤ time
      · have hsum := hend hpos
        by_cases hover : 2 ^ 63 ≤ time + (frames.toNat : Int)
        · have hwrap := wrapInt64_neg hover (by omega)
          have hle : m.steadyEnd ≤ steadyTime := by omega
          have hover' : 9223372036854775808 ≤ time + (frames.toNat : Int) := hover
          simp [hpos, hover', hle]
        · have hwrap := wrapInt64_of_lt (x := time + frames.toNat) (by omega) (by omega)
          rw [hwrap] at hsum
          by_cases hlt : steadyTime < time + frames.toNat
          · have hle : ¬ m.steadyEnd ≤ steadyTime := by omega
            simp [hpos, hlt, hle, hvalid]
            omega
          · have hle : m.steadyEnd ≤ steadyTime := by omega
            simp [hlt, hle]
      · simp [hpos, hvalid]

/-- The baseline behind a block is that block. -/
theorem baseline_rebased (m : ContractMonitor) (block : ProcessBlock D) :
    Baseline (Plugin.rebased block m) (some (block.steadyTime, block.framesCount)) := by
  unfold Baseline Plugin.rebased ContractMonitor.checkSteadyTime
  by_cases hneg : block.steadyTime < 0
  · rw [if_pos hneg]
    exact ⟨(decide_eq_false (by omega)).symm, fun h => absurd h (by omega)⟩
  · rw [if_neg hneg]
    exact ⟨(decide_eq_true (by omega)).symm, fun _ => rfl⟩

/-- Every call keeps it so. -/
theorem baseline_step {impl : PluginImpl D S σ} {p q : Plugin D σ} {last : LastBlock}
    {l : ThreadId × Call D S} {o : Reply D S} (h : Baseline p.contract last)
    (he : CallEffects impl l.1 l.2 p q) : Baseline q.contract (last.next (.alive p) l o) := by
  have hkept : (q.contract.steadyValid, q.contract.steadyEnd) =
      (p.contract.steadyValid, p.contract.steadyEnd) → Baseline q.contract last := by
    intro heq
    obtain ⟨hvalid, hend⟩ := Prod.mk.inj heq
    unfold Baseline
    rw [hvalid, hend]
    exact h
  obtain ⟨thread, call⟩ := l
  have hsteady := he.steady
  cases call with
  | process block memory =>
    unfold LastBlock.next Plugin.checksBlocks
    dsimp only [Call.steadyAfter] at hsteady ⊢
    split at hsteady
    · rename_i hready
      obtain ⟨hvalid, hend⟩ := Prod.mk.inj hsteady
      have hreb := baseline_rebased p.contract block
      rw [if_pos hready]
      unfold Baseline at hreb ⊢
      rw [hvalid, hend]
      exact hreb
    · rename_i hready
      rw [if_neg hready]
      exact hkept hsteady
  | reset => exact (Prod.mk.inj hsteady).1
  | startProcessing =>
    unfold LastBlock.next
    dsimp only [Call.steadyAfter] at hsteady ⊢
    split at hsteady
    · rename_i hready
      rw [if_pos hready]
      exact (Prod.mk.inj hsteady).1
    · rename_i hready
      rw [if_neg hready]
      exact hkept hsteady
  | _ => exact hkept hsteady

/-! ## P02 -/

/-- Of all checks of a block only the steady-time check reports P02. -/
theorem blockCodes_steady (m : ContractMonitor) (block : ProcessBlock D) :
    (Plugin.blockCodes m block).count .P02 =
      if (m.checkSteadyTime block.steadyTime block.framesCount.toNat).1 then 0 else 1 := by
  have hframes := count_eq_zero_of_ne
    (framesFindings_codes (P := (· ≠ .P02)) (by decide) m block.framesCount)
  have hports := count_eq_zero_of_ne
    (checkPorts_codes (P := (· ≠ .P02)) (by decide) (by decide) (by decide) m block)
  have hscan := count_eq_zero_of_ne
    (scanEvents_codes (P := (· ≠ .P02)) (by decide) (by decide) (by decide) block.framesCount
      (readableEvents block.inEvents) {} 0 (codes_nil (P := (· ≠ .P02))))
  have hparams := count_eq_zero_of_ne
    (checkParamEvents_codes (P := (· ≠ .P02)) (by decide) (by decide) (by decide) (by decide)
      (by decide) m block.inEvents block.transport)
  have hsteady : ((steadyFindings m block).map (·.violation)).count .P02 =
      if (m.checkSteadyTime block.steadyTime block.framesCount.toNat).1 then 0 else 1 := by
    unfold steadyFindings
    split <;> rfl
  simp only [Plugin.blockCodes, blockFindings, eventFindings, List.map_append, List.count_append,
    hframes, hports, hscan, hparams, hsteady, Nat.zero_add, Nat.add_zero]

theorem raised_steady [DoubleOps D] {impl : PluginImpl D S σ} (ht : Tame impl) {p q : Plugin D σ}
    (hi : p.contract.inProcess = false) (hready : p.checksBlocks = true) {thread : ThreadId}
    {block : ProcessBlock D} {memory : AudioMemory D S} {o : Reply D S}
    (h : hostStep impl (.alive p) (thread, .process block memory) = .ok (.alive q, o)) :
    p.raised q .P02 =
      if (p.contract.checkSteadyTime block.steadyTime block.framesCount.toNat).1 then 0 else 1 := by
  have hcall := hostStep_call h
  obtain ⟨a, hr, -⟩ := Instance.returned_alive hcall
  have hshift := (Plugin.sProcess_ready (p := { p with hostCalls := [] }) ht hi hready thread block
    memory _ hr).toShifts
  have haudio : (Plugin.audioCodes { p with hostCalls := [] } thread).count .P02 = 0 :=
    List.count_eq_zero_of_not_mem fun h => absurd (Plugin.eq_of_mem_audioCodes h) nofun
  have hraised := hshift.raised .P02
  rw [List.count_append, haudio, Nat.zero_add, blockCodes_steady] at hraised
  refine hraised.trans ?_
  split <;> rfl

/-! ## Runs -/

section Runs

variable [DoubleOps D]

/-- What holds between two calls: the snapshot, the wrapped baseline and a last block whose
    steady time is an `int64_t`. -/
structure SteadyState (impl : PluginImpl D S σ) (s : Instance D σ × LastBlock) : Prop where
  snapshot : ∀ p, s.1 = .alive p → Snapshot impl p.contract p.self
  baseline : ∀ p, s.1 = .alive p → Baseline p.contract s.2
  range : ∀ time frames, s.2 = some (time, frames) → time < 2 ^ 63

theorem steadyState_step {impl : PluginImpl D S σ} (ht : Tame impl)
    (s : Instance D σ × LastBlock) (l : ThreadId × Call D S) (s' : Instance D σ × LastBlock)
    (o : Reply D S) (hs : SteadyState impl s) (hstep : steadyStep impl s l = .ok (s', o))
    (hl : l.2.hasInt64Time) : SteadyState impl s' := by
  obtain ⟨hcall, hlast⟩ := Machine.remembering_ok hstep
  obtain ⟨p, hp, -, -⟩ := hostStep_ok hcall
  refine ⟨?_, fun q hq => ?_, ?_⟩
  · exact hostStep_snapshot ht s.1 l s'.1 o hs.snapshot hcall
  · rw [hp, hq] at hcall
    rw [hlast, hp]
    exact baseline_step (hs.baseline p hp)
      (Plugin.hostStep_effects ht (hs.snapshot p hp).inProcess hcall)
  · rw [hlast, hp]
    intro time frames
    have hkept := hs.range time frames
    obtain ⟨thread, call⟩ := l
    cases call with
    | process block memory =>
      unfold LastBlock.next
      dsimp only
      split
      · intro hblock
        obtain ⟨htime, -⟩ := Prod.mk.inj (Option.some.inj hblock)
        exact htime ▸ hl.2
      · exact hkept
    | reset => exact fun hnone => absurd hnone nofun
    | startProcessing =>
      unfold LastBlock.next
      dsimp only
      split
      · exact fun hnone => absurd hnone nofun
      · exact hkept
    | _ => exact hkept

/-- One checked block: the verdict is the documented one unless the last block ended beyond the
    range and this one's steady time is available. -/
theorem exactP02_iff {impl : PluginImpl D S σ} (ht : Tame impl) {p q : Plugin D σ}
    {last : LastBlock} (hs : SteadyState impl (.alive p, last)) (hready : p.checksBlocks = true)
    {thread : ThreadId} {block : ProcessBlock D} {memory : AudioMemory D S} {o : Reply D S}
    (htime : block.steadyTime < 2 ^ 63)
    (h : hostStep impl (.alive p) (thread, .process block memory) = .ok (.alive q, o)) :
    ExactP02 last block p q ↔ NotBehindOverflow last block p q := by
  unfold ExactP02 NotBehindOverflow
  rw [raised_steady ht (hs.snapshot p rfl).inProcess hready h,
    checkSteadyTime_iff (hs.baseline p rfl) hs.range htime]
  have hback : last.overflows = true → (last.goesBack block.steadyTime = true ↔
      0 ≤ block.steadyTime) := by
    unfold LastBlock.overflows LastBlock.goesBack
    split
    · intro hover
      have hover' := of_decide_eq_true hover
      rw [decide_eq_true_iff]
      omega
    · exact nofun
  cases hover : last.overflows with
  | false => cases last.goesBack block.steadyTime <;> simp
  | true =>
    have hiff := hback hover
    cases hgoes : last.goesBack block.steadyTime with
    | false =>
      have hneg : ¬ 0 ≤ block.steadyTime := by
        rw [← hiff, hgoes]
        exact Bool.false_ne_true
      simp
      omega
    | true =>
      have hpos := hiff.mp hgoes
      simp
      omega

/-- The instance is there behind a block. -/
theorem process_alive {impl : PluginImpl D S σ} {p : Plugin D σ} {thread : ThreadId}
    {block : ProcessBlock D} {memory : AudioMemory D S} {i : Instance D σ} {o : Reply D S}
    (h : hostStep impl (.alive p) (thread, .process block memory) = .ok (i, o)) :
    ∃ q, i = .alive q := by
  have hcall := hostStep_call h
  obtain ⟨r, -, hret⟩ := Except.bind_eq_ok hcall
  exact ⟨r.1, ((Prod.mk.inj (Except.ok.inj hret)).1).symm⟩

/-- A block whose end is in range does not overflow, and no other call makes one that does. -/
theorem overflows_next {impl : PluginImpl D S σ} {s s' : Instance D σ × LastBlock}
    {l : ThreadId × Call D S} {o : Reply D S} (hstep : steadyStep impl s l = .ok (s', o))
    (hends : OnChecked EndsInRange s l s' o) (hlast : s.2.overflows = false) :
    s'.2.overflows = false := by
  obtain ⟨hcall, hnext⟩ := Machine.remembering_ok hstep
  obtain ⟨p, hp, -, -⟩ := hostStep_ok hcall
  rw [hp] at hcall hnext
  rw [hnext]
  obtain ⟨thread, call⟩ := l
  cases call with
  | process block memory =>
    obtain ⟨q, hq⟩ := process_alive hcall
    unfold LastBlock.next
    dsimp only
    split
    · rename_i hready
      have hrange := hends p q block memory hp hq rfl hready
      unfold LastBlock.overflows
      refine decide_eq_false fun hover => ?_
      have hlt := hrange hover.1
      omega
    · exact hlast
  | reset => rfl
  | startProcessing =>
    unfold LastBlock.next
    dsimp only
    split
    · rfl
    · exact hlast
  | _ => exact hlast

variable [FloatOps S] [FloatCast D S] [DoubleBits D]

/-- Along every run of host calls on a new instance: every checked block raises P02 exactly if its
    steady time goes back and no end leaves `int64_t`, if and only if every checked block's steady
    time is unavailable or at most 2^63 - 1 - frames_count. The verdicts alone are exact if and
    only if no available steady time comes right behind a block beyond that bound. -/
theorem steadyTime_exact_iff (flavor : Flavor) (host : Option Host)
    {calls : List (ThreadId × Call D S)} (htyped : ∀ l ∈ calls, l.2.hasInt64Time) :
    let impl : PluginImpl D S (flavor.State D S) := flavor.impl
    let start : Instance D (flavor.State D S) × LastBlock :=
      (.alive (flavor.instantiate S host), none)
    (Machine.AllSteps (steadyStep impl) (OnChecked fun last block p q =>
        ExactP02 last block p q ∧ EndsInRange last block p q) start calls ↔
      Machine.AllSteps (steadyStep impl) (OnChecked EndsInRange) start calls) ∧
    (Machine.AllSteps (steadyStep impl) (OnChecked ExactP02) start calls ↔
      Machine.AllSteps (steadyStep impl) (OnChecked NotBehindOverflow) start calls) := by
  intro impl start
  have hstart : SteadyState impl start := by
    refine ⟨fun p hp => ?_, fun p hp => ?_, nofun⟩
    · cases hp
      exact Plugin.snapshot_create host
    · cases hp
      rfl
  have htypes : Machine.AllSteps (steadyStep impl) (fun _ l _ _ => l.2.hasInt64Time) start calls :=
    Machine.allSteps_of_labels htyped
  have hexact : ∀ s l s' o, SteadyState impl s → steadyStep impl s l = .ok (s', o) →
      l.2.hasInt64Time →
      (OnChecked ExactP02 s l s' o ↔ OnChecked NotBehindOverflow s l s' o) := by
    intro s l s' o hs hstep hl
    obtain ⟨hcall, -⟩ := Machine.remembering_ok hstep
    refine forall_congr' fun p => forall_congr' fun q => forall_congr' fun block =>
      forall_congr' fun memory => ?_
    refine imp_congr_right fun hp => imp_congr_right fun hq => imp_congr_right fun hblock =>
      imp_congr_right fun hready => ?_
    obtain ⟨i, last⟩ := s
    obtain ⟨thread, call⟩ := l
    dsimp only at hp hq hblock hcall hl
    rw [hp] at hs hcall
    rw [hblock] at hcall hl
    rw [hq] at hcall
    exact exactP02_iff flavor.tame hs hready hl.2 hcall
  constructor
  · refine Machine.allSteps_iff (I := fun s => SteadyState impl s ∧ s.2.overflows = false)
      (fun s l s' o hs hstep hl => ?_) (fun s l s' o hs hstep hl hends => ?_) ⟨hstart, rfl⟩ htypes
    · have hfree : OnChecked NotBehindOverflow s l s' o := by
        intro p q block memory _ _ _ _ hover
        rw [hs.2] at hover
        cases hover
      have hverdict := (hexact s l s' o hs.1 hstep hl).mpr hfree
      refine ⟨fun h p q block memory hp hq hblock hready =>
        (h p q block memory hp hq hblock hready).2, fun h p q block memory hp hq hblock hready =>
        ⟨hverdict p q block memory hp hq hblock hready, h p q block memory hp hq hblock hready⟩⟩
    · exact ⟨steadyState_step flavor.tame s l s' o hs.1 hstep hl,
        overflows_next hstep hends hs.2⟩
  · exact Machine.allSteps_iff (I := SteadyState impl) hexact
      (fun s l s' o hs hstep hl _ => steadyState_step flavor.tame s l s' o hs hstep hl) hstart
      htypes

end Runs

/-! ## At the end of the range -/

/-- A block of one frame at the steady time `steadyTime`. -/
def instantBlock (steadyTime : Int) : ProcessBlock ExactFloat :=
  { Flavor.probeBlock ExactFloat 1 with
    steadyTime := steadyTime
    inEvents := some { events := [] } }

/-- Up to a block at the last steady time there is. -/
def lastInstantCalls : List (ThreadId × Call ExactFloat ExactFloat) :=
  [(0, .init []), (0, .activate 48000 1 512), (0, .startProcessing),
    (0, .process (instantBlock (2 ^ 63 - 1)) Flavor.quietMemory)]

theorem lastInstantCalls_typed : ∀ l ∈ lastInstantCalls, l.2.hasInt64Time := by
  simp [lastInstantCalls, Call.hasInt64Time, instantBlock]

/-- A single block at the last instant ends out of range; nothing comes behind it. -/
theorem steadyTime_exact_iff_lastInstant :
    let impl : PluginImpl ExactFloat ExactFloat (EffectPlugin.State ExactFloat) :=
      Flavor.effect.impl
    let start : Instance ExactFloat (EffectPlugin.State ExactFloat) × LastBlock :=
      (.alive (Flavor.effect.instantiate ExactFloat none), none)
    (Machine.AllSteps (steadyStep impl) (OnChecked fun last block p q =>
        ExactP02 last block p q ∧ EndsInRange last block p q) start lastInstantCalls ↔
      Machine.AllSteps (steadyStep impl) (OnChecked EndsInRange) start lastInstantCalls) ∧
    (Machine.AllSteps (steadyStep impl) (OnChecked ExactP02) start lastInstantCalls ↔
      Machine.AllSteps (steadyStep impl) (OnChecked NotBehindOverflow) start lastInstantCalls) :=
  steadyTime_exact_iff .effect none lastInstantCalls_typed

/-- Behind the last instant the host goes back to zero, and the block is not reported. -/
theorem steadyTime_goesBack_unreported :
    let impl : PluginImpl ExactFloat ExactFloat (EffectPlugin.State ExactFloat) :=
      Flavor.effect.impl
    let start : Instance ExactFloat (EffectPlugin.State ExactFloat) × LastBlock :=
      (.alive (Flavor.effect.instantiate ExactFloat none), none)
    ∃ p q os o last, Machine.run (steadyStep impl) start lastInstantCalls =
        .ok ((.alive p, some (2 ^ 63 - 1, 1)), os) ∧
      steadyStep impl (.alive p, some (2 ^ 63 - 1, 1))
        (0, .process (instantBlock 0) Flavor.quietMemory) = .ok ((.alive q, last), o) ∧
      p.checksBlocks = true ∧ LastBlock.goesBack (some (2 ^ 63 - 1, 1)) 0 = true ∧
      p.raised q .P02 = 0 :=
  ⟨_, _, _, _, _, rfl, rfl, rfl, by decide, by decide +kernel⟩

end Cvp
