/-
  The trampolines against the L table. The monitor's flags follow the documented automaton in
  every run, and every call is counted as the table has it, one call excepted:
  `stop_processing()` on an inactive plugin, which is counted twice.
-/
import ClapValidatorPlugins.Contract.BlockFindings
import ClapValidatorPlugins.Contract.LifecycleTable
import ClapValidatorPlugins.Contract.Snapshot

namespace Cvp

variable {D S σ : Type}

open Plugin (codeIf badBounds clampBounds blockCodes)

/-! ## One call -/

/-- The thread rules a call can break besides, T01 and T02. -/
def LifecycleCall.threadCodes (call : LifecycleCall D S) (p : Plugin D σ) (thread : ThreadId) :
    List Violation :=
  match call with
  | .init _ | .destroy | .activate _ _ _ | .deactivate => p.mainCodes thread
  | .startProcessing | .stopProcessing | .reset | .process _ _ => p.audioCodes thread

/-- What the trampolines count for a call besides: the table's rules, except that an active
    plugin's bounds are not looked at, that an inactive plugin is reported twice for
    `stop_processing`, and that a block in order goes to the data checks. -/
def LifecycleState.reported (d : LifecycleState) (m : ContractMonitor) :
    LifecycleCall D S → List Violation
  | .activate _ minFrames maxFrames =>
    match d.phase with
    | .inactive => codeIf (badBounds minFrames maxFrames) .L13
    | _ => [.L03]
  | .stopProcessing => codeIf (d.phase == .inactive) .L08 ++ codeIf (d.phase != .processing) .L08
  | .process block _ =>
    match d.phase with
    | .processing => blockCodes m block
    | _ => [.L09]
  | call => d.broken call

/-- A call does what the table says about states, answers and refusals, and counts `reported`. -/
structure Simulates (d : LifecycleState) (call : LifecycleCall D S) (thread : ThreadId)
    (p : Plugin D σ) (i : Instance D σ) (result : Result D S) : Prop where
  follows : ∀ q, i = .alive q → (d.next call).Follows q.contract
  answers : d.Answers call result
  refuses : d.refuses call = true → ∀ q, i = .alive q → q.self = p.self
  counted : Counted p.contract.findings i.contract.findings
    (call.threadCodes p thread ++ d.reported p.contract call)

section Step

variable {impl : PluginImpl D S σ} {p : Plugin D σ} {d : LifecycleState}

theorem follows_tracked {m : ContractMonitor} : d.Follows m.tracked ↔ d.Follows m :=
  ⟨fun h => ⟨h.1, h.2, h.3, h.4⟩, fun h => ⟨h.1, h.2, h.3, h.4⟩⟩

/-- A refused call: nothing but a report. -/
theorem simulates_refused {q : Plugin D σ} {call : LifecycleCall D S} {thread : ThreadId}
    {result : Result D S} {vs : List Violation} (hf : d.Follows p.contract)
    (h : Plugin.Refuses p q (call.threadCodes p thread ++ vs)) (hn : d.next call = d)
    (ha : d.Answers call result) (hv : d.reported p.contract call = vs) :
    Simulates d call thread p (.alive q) result := by
  refine ⟨?_, ha, ?_, ?_⟩
  · rintro _ ⟨⟩
    rw [hn, ← follows_tracked, h.tracked]
    exact follows_tracked.mpr hf
  · rintro - _ ⟨⟩
    exact h.self
  · rw [hv]
    exact h.counts

/-- A call that reaches the flavor. -/
theorem simulates_steps {q : Plugin D σ} {call : LifecycleCall D S} {thread : ThreadId}
    {result : Result D S} {vs : List Violation} {f : ContractMonitor → ContractMonitor}
    (h : Plugin.Steps impl p q (call.threadCodes p thread ++ vs) f)
    (hn : (d.next call).Follows (f p.contract.tracked)) (ha : d.Answers call result)
    (hr : d.refuses call = false) (hv : d.reported p.contract call = vs) :
    Simulates d call thread p (.alive q) result := by
  refine ⟨?_, ha, ?_, ?_⟩
  · rintro _ ⟨⟩
    rw [← follows_tracked, h.tracked]
    exact hn
  · intro hrefuses
    rw [hr] at hrefuses
    cases hrefuses
  · rw [hv]
    exact h.counts

theorem simulates_init (ht : Tame impl) (hf : d.Follows p.contract) (thread : ThreadId)
    (earlyLog : List LogLine) :
    Simulates d (.init earlyLog : LifecycleCall D S) thread p
      (.alive (p.sInit impl thread earlyLog).1) (.bool (p.sInit impl thread earlyLog).2) := by
  cases hi : p.contract.initialized with
  | true =>
    obtain ⟨hrefuse, hv⟩ := Plugin.sInit_again hi thread earlyLog
    have hd : d.initialized = true := hf.initialized.symm.trans hi
    refine simulates_refused hf hrefuse ?_ (congrArg _ hv) ?_
    · show { d with initialized := true } = d
      rw [← hd]
    · show codeIf d.initialized .L02 = _
      rw [hd]
      rfl
  | false =>
    obtain ⟨n, -, hshift, -, -, hv, -⟩ := Plugin.sInit_first ht hi thread earlyLog
    have hd : d.initialized = false := hf.initialized.symm.trans hi
    refine ⟨?_, congrArg _ hv, ?_, ?_⟩
    · rintro _ ⟨⟩
      rw [← follows_tracked, hshift.tracked]
      exact ⟨rfl, hf.active, hf.processing, hf.bounds⟩
    · intro hrefuses
      rw [show d.refuses (.init earlyLog : LifecycleCall D S) = d.initialized from rfl, hd]
        at hrefuses
      cases hrefuses
    · rw [show d.reported p.contract (.init earlyLog : LifecycleCall D S) =
        codeIf d.initialized .L02 from rfl, hd, Plugin.codeIf_false, List.append_nil]
      exact hshift.counts

/-! The phase is split first: everything the table says is then evaluated. -/

theorem simulates_activate [DoubleOps D] (ht : Tame impl) (hf : d.Follows p.contract)
    (thread : ThreadId) (sampleRate : D) (minFrames maxFrames : Nat) :
    Simulates d (.activate sampleRate minFrames maxFrames : LifecycleCall D S) thread p
      (.alive (p.sActivate impl thread sampleRate minFrames maxFrames).1)
      (.bool (p.sActivate impl thread sampleRate minFrames maxFrames).2) := by
  obtain ⟨initialized, phase, bounds⟩ := d
  cases phase with
  | inactive =>
    obtain ⟨hsteps, hv⟩ := Plugin.sActivate_inactive ht hf.active thread sampleRate minFrames
      maxFrames
    exact simulates_steps hsteps ⟨hf.initialized, rfl, hf.processing, fun _ => rfl⟩
      (congrArg _ hv) rfl rfl
  | active =>
    obtain ⟨hrefuse, hv⟩ :=
      Plugin.sActivate_active hf.active thread sampleRate minFrames maxFrames
    exact simulates_refused hf hrefuse rfl (congrArg _ hv) rfl
  | processing =>
    obtain ⟨hrefuse, hv⟩ :=
      Plugin.sActivate_active hf.active thread sampleRate minFrames maxFrames
    exact simulates_refused hf hrefuse rfl (congrArg _ hv) rfl

theorem simulates_deactivate (ht : Tame impl) (hf : d.Follows p.contract) (thread : ThreadId) :
    Simulates d (.deactivate : LifecycleCall D S) thread p (.alive (p.sDeactivate impl thread))
      .void := by
  obtain ⟨initialized, phase, bounds⟩ := d
  cases phase with
  | inactive =>
    exact simulates_refused hf (Plugin.sDeactivate_inactive hf.active thread) rfl
      rfl rfl
  | active =>
    have hsteps := Plugin.sDeactivate_active ht hf.active thread
    rw [hf.processing] at hsteps
    exact simulates_steps hsteps ⟨hf.initialized, rfl, rfl, nofun⟩ rfl rfl rfl
  | processing =>
    have hsteps := Plugin.sDeactivate_active ht hf.active thread
    rw [hf.processing] at hsteps
    exact simulates_steps hsteps ⟨hf.initialized, rfl, rfl, nofun⟩ rfl rfl rfl

theorem simulates_startProcessing (ht : Tame impl) (hf : d.Follows p.contract)
    (thread : ThreadId) :
    Simulates d (.startProcessing : LifecycleCall D S) thread p
      (.alive (p.sStartProcessing impl thread).1) (.bool (p.sStartProcessing impl thread).2) := by
  obtain ⟨initialized, phase, bounds⟩ := d
  cases phase with
  | inactive =>
    obtain ⟨hrefuse, hv⟩ := Plugin.sStartProcessing_inactive hf.active thread
    exact simulates_refused hf hrefuse rfl (congrArg _ hv) rfl
  | active =>
    obtain ⟨hsteps, hv⟩ := Plugin.sStartProcessing_active ht hf.active hf.processing thread
    rw [← List.append_nil (p.audioCodes thread)] at hsteps
    exact simulates_steps hsteps ⟨hf.initialized, hf.active, rfl, hf.bounds⟩ (congrArg _ hv) rfl
      rfl
  | processing =>
    obtain ⟨hrefuse, hv⟩ :=
      Plugin.sStartProcessing_processing hf.active hf.processing thread
    exact simulates_refused hf hrefuse rfl (congrArg _ hv) rfl

theorem simulates_stopProcessing (ht : Tame impl) (hf : d.Follows p.contract)
    (thread : ThreadId) :
    Simulates d (.stopProcessing : LifecycleCall D S) thread p
      (.alive (p.sStopProcessing impl thread)) .void := by
  obtain ⟨initialized, phase, bounds⟩ := d
  cases phase with
  | inactive =>
    have hrefuse : Plugin.Refuses p (p.sStopProcessing impl thread) _ :=
      Plugin.sStopProcessing_idle hf.processing thread
    rw [hf.active, List.append_assoc] at hrefuse
    exact simulates_refused hf hrefuse rfl rfl rfl
  | active =>
    have hrefuse : Plugin.Refuses p (p.sStopProcessing impl thread) _ :=
      Plugin.sStopProcessing_idle hf.processing thread
    rw [hf.active, List.append_assoc] at hrefuse
    exact simulates_refused hf hrefuse rfl rfl rfl
  | processing =>
    have hsteps := Plugin.sStopProcessing_processing ht hf.processing thread
    rw [hf.active] at hsteps
    exact simulates_steps hsteps ⟨hf.initialized, hf.active, rfl, hf.bounds⟩ rfl rfl rfl

theorem simulates_reset (ht : Tame impl) (hf : d.Follows p.contract) (thread : ThreadId) :
    Simulates d (.reset : LifecycleCall D S) thread p (.alive (p.sReset impl thread)) .void := by
  have hsteps := Plugin.sReset_steps (p := p) ht thread
  have hcode : codeIf (!p.contract.active) .L10 = codeIf (d.phase == .inactive) .L10 := by
    rw [hf.active]
    cases d.phase <;> rfl
  rw [hcode] at hsteps
  exact simulates_steps hsteps ⟨hf.initialized, hf.active, hf.processing, hf.bounds⟩ rfl rfl rfl

theorem simulates_destroy (hf : d.Follows p.contract) (thread : ThreadId) :
    Simulates d (.destroy : LifecycleCall D S) thread p
      (.deleted (p.sDestroy thread).contract) .void := by
  refine ⟨fun q hq => absurd hq (Instance.deleted_ne_alive _ q), rfl, nofun, ?_⟩
  show Counted _ _ (p.mainCodes thread ++ codeIf (d.phase != .inactive) .L06)
  rw [← hf.active]
  exact (Plugin.sDestroy_shifts p thread).counts

theorem simulates_process (ht : Tame impl) (hs : Snapshot impl p.contract p.self)
    (hf : d.Follows p.contract) (thread : ThreadId) (block : ProcessBlock D)
    (memory : AudioMemory D S) :
    Yields (p.sProcess impl thread block memory) fun r =>
      Simulates d (.process block memory) thread p (.alive r.1) (.process r.2) := by
  have refused : (p.contract.active && p.contract.processing) = false →
      d.phase ≠ .processing → d.reported p.contract (.process block memory) = [.L09] →
      Yields (p.sProcess impl thread block memory) fun r =>
        Simulates d (.process block memory) thread p (.alive r.1) (.process r.2) := by
    intro hr hd hv
    obtain ⟨q, hq, hrefuse⟩ :=
      Plugin.sProcess_notReady hs.inProcess hr thread block memory
    rw [hq]
    exact Yields.of_ok (simulates_refused hf hrefuse rfl (fun _ => rfl) hv)
  obtain ⟨initialized, phase, bounds⟩ := d
  cases phase with
  | inactive => exact refused (by rw [hf.active]; rfl) Phase.noConfusion rfl
  | active => exact refused (by rw [hf.active, hf.processing]; rfl) Phase.noConfusion rfl
  | processing =>
    have hr : (p.contract.active && p.contract.processing) = true := by
      rw [hf.active, hf.processing]
      rfl
    refine (Plugin.sProcess_ready ht hs.inProcess hr thread block memory).mono fun r hsteps => ?_
    obtain ⟨valid, steadyEnd, hreb⟩ := Plugin.rebased_eq block p.contract.tracked
    refine simulates_steps hsteps ?_ (fun h => absurd rfl h) rfl rfl
    rw [hreb]
    exact ⟨hf.initialized, hf.active, hf.processing, hf.bounds⟩

/-- One call, on a live instance whose flags follow the table. -/
theorem simulates_call [DoubleOps D] (ht : Tame impl) (hs : Snapshot impl p.contract p.self)
    (hf : d.Follows p.contract) (thread : ThreadId) (call : LifecycleCall D S) :
    Yields (Plugin.call impl p thread call.toCall) fun r => Simulates d call thread p r.1 r.2 := by
  cases call with
  | init earlyLog => exact Yields.of_ok (simulates_init ht hf thread earlyLog)
  | destroy => exact Yields.of_ok (simulates_destroy hf thread)
  | activate sampleRate minFrames maxFrames =>
    exact Yields.of_ok (simulates_activate ht hf thread sampleRate minFrames maxFrames)
  | deactivate => exact Yields.of_ok (simulates_deactivate ht hf thread)
  | startProcessing => exact Yields.of_ok (simulates_startProcessing ht hf thread)
  | stopProcessing => exact Yields.of_ok (simulates_stopProcessing ht hf thread)
  | reset => exact Yields.of_ok (simulates_reset ht hf thread)
  | process block memory =>
    exact Yields.bind (simulates_process ht hs hf thread block memory) fun r hr => Yields.of_ok hr

end Step

/-! ## The verdict of one call -/

/-- What the table says about the counters: one broken rule is one report under its code, and a
    call that breaks none leaves every L counter alone. A thread finding (T01, T02) is counted
    besides. -/
structure ExactVerdict (d : LifecycleState) (call : LifecycleCall D S) (thread : ThreadId)
    (p : Plugin D σ) (i : Instance D σ) : Prop where
  one : ∀ v, d.broken call = [v] →
    i.contract.total =
      p.contract.total + 1 + UInt32.ofNat (call.threadCodes p thread).length ∧
    ∀ w : Violation, w.isLifecycle = true →
      i.contract.counter w = p.contract.counter w + if w = v then 1 else 0
  none : d.broken call = [] →
    ∀ w : Violation, w.isLifecycle = true → i.contract.counter w = p.contract.counter w

/-- `stop_processing()` on a plugin that is not active. -/
def LifecycleState.doubleStop (d : LifecycleState) : LifecycleCall D S → Bool
  | .stopProcessing => d.phase == .inactive
  | _ => false

section Verdict

variable {p : Plugin D σ} {d : LifecycleState} {call : LifecycleCall D S} {thread : ThreadId}

theorem threadCodes_data : ∀ v ∈ call.threadCodes p thread, v.isLifecycle = false := by
  have main : ∀ v ∈ p.mainCodes thread, v.isLifecycle = false := by
    intro v hv
    rw [Plugin.eq_of_mem_mainCodes hv]
    rfl
  have audio : ∀ v ∈ p.audioCodes thread, v.isLifecycle = false := by
    intro v hv
    rw [Plugin.eq_of_mem_audioCodes hv]
    rfl
  unfold LifecycleCall.threadCodes
  split
  all_goals first | exact main | exact audio

/-- Apart from the double stop, one broken rule is one report. -/
theorem reported_of_broken {v : Violation} (hd : d.doubleStop call = false)
    (h : d.broken call = [v]) (m : ContractMonitor) : d.reported m call = [v] := by
  obtain ⟨initialized, phase, bounds⟩ := d
  cases call with
  | activate sampleRate minFrames maxFrames =>
    cases phase with
    | inactive => exact h
    | active =>
      cases hb : badBounds minFrames maxFrames with
      | false =>
        rw [LifecycleState.broken, hb] at h
        exact h
      | true =>
        rw [LifecycleState.broken, hb] at h
        cases h
    | processing =>
      cases hb : badBounds minFrames maxFrames with
      | false =>
        rw [LifecycleState.broken, hb] at h
        exact h
      | true =>
        rw [LifecycleState.broken, hb] at h
        cases h
  | stopProcessing =>
    cases phase with
    | inactive => cases hd
    | active => exact h
    | processing => cases h
  | process block memory =>
    cases phase with
    | inactive => exact h
    | active => exact h
    | processing => cases h
  | _ => exact h

/-- A call that breaks no rule is reported for its data at most. -/
theorem reported_data (h : d.broken call = []) (m : ContractMonitor) :
    ∀ v ∈ d.reported m call, v.isLifecycle = false := by
  have hnil : d.reported m call = [] → ∀ v ∈ d.reported m call, v.isLifecycle = false := by
    intro he v hv
    rw [he] at hv
    exact absurd hv List.not_mem_nil
  obtain ⟨initialized, phase, bounds⟩ := d
  cases call with
  | activate sampleRate minFrames maxFrames =>
    cases phase with
    | inactive => exact hnil h
    | active => cases h
    | processing => cases h
  | stopProcessing =>
    cases phase with
    | inactive => cases h
    | active => cases h
    | processing => exact hnil rfl
  | process block memory =>
    cases phase with
    | inactive => cases h
    | active => cases h
    | processing =>
      intro v hv
      obtain ⟨f, hf, rfl⟩ := List.mem_map.mp hv
      exact blockFindings_data m block f hf
  | _ => exact hnil h

theorem counter_of_counted {f g : Findings} {vs : List Violation} (h : Counted f g vs)
    {w : Violation} (hw : w.isLifecycle = true) (hd : ∀ v ∈ vs, v.isLifecycle = false) :
    g.counters w = f.counters w := by
  rw [h.counters]
  refine bump_of_not_mem _ fun hmem => ?_
  rw [hd w hmem] at hw
  cases hw

/-- The counters behind thread findings and one report. -/
theorem counted_one {f g : Findings} {ts : List Violation} {v : Violation}
    (h : Counted f g (ts ++ [v])) (hts : ∀ t ∈ ts, t.isLifecycle = false) :
    g.total = f.total + 1 + UInt32.ofNat ts.length ∧
      ∀ w : Violation, w.isLifecycle = true →
        g.counters w = f.counters w + if w = v then 1 else 0 := by
  constructor
  · rw [h.total, List.length_append, UInt32.ofNat_add, UInt32.add_assoc, UInt32.add_comm 1]
    rfl
  · intro w hw
    have hts0 : ts.count w = 0 := List.count_eq_zero.mpr fun hmem => by
      rw [hts w hmem] at hw
      cases hw
    rw [h.counters, bump, List.count_append, hts0, List.count_singleton]
    by_cases hv : w = v
    · subst hv
      simp
    · rw [if_neg hv, if_neg (by simpa using Ne.symm hv)]
      rfl

/-- The table is met exactly where the call is no `stop_processing()` on an inactive plugin. -/
theorem exactVerdict_iff {i : Instance D σ} {result : Result D S}
    (h : Simulates d call thread p i result) :
    ExactVerdict d call thread p i ↔ d.doubleStop call = false := by
  constructor
  · -- two reports of L08 where the table has one
    intro hexact
    cases hd : d.doubleStop call with
    | false => rfl
    | true =>
      exfalso
      cases call with
      | stopProcessing =>
        have hphase : d.phase = .inactive := beq_iff_eq.mp hd
        have hbroken : d.broken (.stopProcessing : LifecycleCall D S) = [.L08] := by
          rw [LifecycleState.broken, hphase]
          rfl
        have hone := (hexact.one .L08 hbroken).2 .L08 rfl
        have hcounted := h.counted
        rw [LifecycleState.reported, hphase] at hcounted
        have htwo := congrFun hcounted.counters .L08
        have hts : (LifecycleCall.threadCodes (.stopProcessing : LifecycleCall D S) p thread).count
            .L08 = 0 := List.count_eq_zero.mpr fun hmem => by cases threadCodes_data _ hmem
        rw [bump, List.count_append, hts] at htwo
        rw [if_pos rfl] at hone
        have h12 : p.contract.findings.counters .L08 + 1 =
            p.contract.findings.counters .L08 + UInt32.ofNat (0 + 2) := hone.symm.trans htwo
        exact absurd ((UInt32.add_right_inj _).mp h12) (by decide)
      | _ => cases hd
  · intro hd
    constructor
    · intro v hv
      have hcounted := h.counted
      rw [reported_of_broken hd hv] at hcounted
      exact counted_one hcounted threadCodes_data
    · intro hnone w hw
      exact counter_of_counted h.counted hw
        (List.forall_mem_append.mpr ⟨threadCodes_data, reported_data hnone _⟩)

end Verdict

/-! ## Runs -/

/-- A call as the host makes it. -/
def LifecycleCall.label (call : ThreadId × LifecycleCall D S) : ThreadId × Call D S :=
  (call.1, call.2.toCall)

/-- Behind any sequence of calls the flags are where the table says. -/
theorem follows_run [DoubleOps D] {impl : PluginImpl D S σ} (ht : Tame impl)
    (calls : List (ThreadId × LifecycleCall D S)) :
    ∀ {p q : Plugin D σ} {d : LifecycleState} {os : List (Reply D S)},
      Snapshot impl p.contract p.self → d.Follows p.contract →
      Machine.run (hostStep impl) (.alive p) (calls.map LifecycleCall.label) =
        .ok (.alive q, os) →
      (d.afterCalls calls).Follows q.contract ∧ Snapshot impl q.contract q.self := by
  induction calls with
  | nil =>
    intro p q d os hs hf hrun
    cases hrun
    exact ⟨hf, hs⟩
  | cons c cs ih =>
    intro p q d os hs hf hrun
    obtain ⟨i, o, os', hstep, hrest, -⟩ := Machine.run_cons_ok hrun
    have hcall := hostStep_call hstep
    have hsim := simulates_call (p := { p with hostCalls := [] }) ht hs hf c.1 c.2 _ hcall
    have hsnap :=
      Plugin.snapshot_call (p := { p with hostCalls := [] }) ht hs c.1 c.2.toCall _ hcall
    cases i with
    | alive p1 => exact ih (hsnap p1 rfl) (hsim.follows p1 rfl) hrest
    | deleted contract =>
      -- nothing comes behind `destroy()`
      cases cs with
      | nil => cases hrest
      | cons c' cs' =>
        obtain ⟨_, _, _, hstep', -, -⟩ := Machine.run_cons_ok hrest
        cases hstep'

section Flavors

variable [DoubleOps D] [FloatOps S] [FloatCast D S] [DoubleBits D]

/-- Everything the table says about one call on `p` in the documented state `d`. -/
structure TableHolds (d : LifecycleState) (call : LifecycleCall D S) (thread : ThreadId)
    (p : Plugin D σ) (i : Instance D σ) (result : Result D S) : Prop where
  flags : d.Follows p.contract
  follows : ∀ q, i = .alive q → (d.next call).Follows q.contract
  answers : d.Answers call result
  refuses : d.refuses call = true → ∀ q, i = .alive q → q.self = p.self
  verdict : ExactVerdict d call thread p i

/-- The table holds for every call of a sequence made on a new instance. -/
def TableHoldsAlong (S : Type) [FloatOps S] [FloatCast D S] (flavor : Flavor)
    (host : Option Host) (calls : List (ThreadId × LifecycleCall D S)) : Prop :=
  ∀ before thread call after, calls = before ++ (thread, call) :: after →
    ∀ (p : Plugin D (flavor.State D S)) (os : List (Reply D S)) (i : Instance D (flavor.State D S))
      (o : Reply D S),
      Machine.run (hostStep (flavor.impl : PluginImpl D S _)) (.alive (flavor.instantiate S host))
        (before.map LifecycleCall.label) = .ok (.alive p, os) →
      hostStep (flavor.impl : PluginImpl D S _) (.alive p) (thread, call.toCall) = .ok (i, o) →
      TableHolds (LifecycleState.afterCalls {} before) call thread p i o.result

/-- No `stop_processing()` while the documented state is inactive. -/
def NoDoubleStop (calls : List (ThreadId × LifecycleCall D S)) : Prop :=
  ∀ before thread call after, calls = before ++ (thread, call) :: after →
    (LifecycleState.afterCalls {} before).doubleStop call = false

omit [FloatOps S] [FloatCast D S] [DoubleBits D] in
theorem tableHolds_iff {impl : PluginImpl D S σ} (ht : Tame impl) {p : Plugin D σ}
    {d : LifecycleState} {call : LifecycleCall D S} {thread : ThreadId} {i : Instance D σ}
    {o : Reply D S} (hs : Snapshot impl p.contract p.self) (hf : d.Follows p.contract)
    (hstep : hostStep impl (.alive p) (thread, call.toCall) = .ok (i, o)) :
    TableHolds d call thread p i o.result ↔ d.doubleStop call = false := by
  have hcall := hostStep_call hstep
  have hsim := simulates_call (p := { p with hostCalls := [] }) ht hs hf thread call _ hcall
  have hiff := exactVerdict_iff hsim
  exact ⟨fun h => hiff.mp ⟨h.verdict.one, h.verdict.none⟩,
    fun h => ⟨hf, hsim.follows, hsim.answers, hsim.refuses,
      ⟨(hiff.mpr h).one, (hiff.mpr h).none⟩⟩⟩

/-- Along every run of lifecycle calls, flags, answers and counters are the table's exactly if
    the host never calls `stop_processing()` on an inactive plugin. -/
theorem tableHoldsAlong_iff {flavor : Flavor} {host : Option Host}
    {calls : List (ThreadId × LifecycleCall D S)} {i : Instance D (flavor.State D S)}
    {os : List (Reply D S)}
    (hrun : Machine.run (hostStep (flavor.impl : PluginImpl D S _))
      (.alive (flavor.instantiate S host)) (calls.map LifecycleCall.label) = .ok (i, os)) :
    TableHoldsAlong S flavor host calls ↔ NoDoubleStop calls := by
  have hcreate : Snapshot (flavor.impl : PluginImpl D S _) _ _ := Plugin.snapshot_create host
  have hfollow : LifecycleState.Follows {} (flavor.instantiate S host : Plugin D _).contract :=
    ⟨rfl, rfl, rfl, nofun⟩
  constructor
  · rintro halong before thread call after rfl
    rw [List.map_append, List.map_cons] at hrun
    obtain ⟨i', os₁, os₂, hbefore, hrest, -⟩ := Machine.run_append_ok hrun
    obtain ⟨i'', o, os', hstep, -, -⟩ := Machine.run_cons_ok hrest
    obtain ⟨p, rfl, -, -⟩ := hostStep_ok hstep
    obtain ⟨hf, hs⟩ := follows_run flavor.tame before hcreate hfollow hbefore
    exact (tableHolds_iff flavor.tame hs hf hstep).mp
      (halong before thread call after rfl p os₁ i'' o hbefore hstep)
  · intro hno before thread call after hcalls p os' i' o hbefore hstep
    obtain ⟨hf, hs⟩ := follows_run flavor.tame before hcreate hfollow hbefore
    exact (tableHolds_iff flavor.tame hs hf hstep).mpr (hno before thread call after hcalls)

end Flavors

/-- The walk up to processing and one step back. -/
def startAndStop : List (ThreadId × LifecycleCall ExactFloat ExactFloat) :=
  [(0, .init []), (0, .activate 48000 1 512), (0, .startProcessing), (0, .stopProcessing)]

theorem startAndStop_noDoubleStop : NoDoubleStop startAndStop := by
  intro before thread call after h
  rcases before with _ | ⟨c₁, _ | ⟨c₂, _ | ⟨c₃, _ | ⟨c₄, before⟩⟩⟩⟩
  · cases h; rfl
  · cases h; rfl
  · cases h; rfl
  · cases h; rfl
  · have hlen := congrArg List.length h
    simp only [startAndStop, List.length_append, List.length_cons, List.length_nil] at hlen
    omega

theorem tableHoldsAlong_startAndStop : TableHoldsAlong ExactFloat .effect none startAndStop :=
  (tableHoldsAlong_iff rfl).mpr startAndStop_noDoubleStop

/-- `stop_processing()` behind `init()` breaks one rule and is counted twice. -/
theorem tableHoldsAlong_fails :
    ¬ TableHoldsAlong ExactFloat .effect none
      ([(0, .init []), (0, .stopProcessing)] :
        List (ThreadId × LifecycleCall ExactFloat ExactFloat)) := by
  intro h
  have htotal := ((h [(0, .init [])] 0 .stopProcessing [] rfl _ _ _ _ rfl rfl).verdict.one .L08
    rfl).1
  exact absurd htotal (by decide)

end Cvp
