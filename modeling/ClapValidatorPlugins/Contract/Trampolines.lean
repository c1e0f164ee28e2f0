/-
  What each trampoline of the `clap_plugin` vtable does to an instance of a tame flavor: the
  violations it counts, what happens to the flags and caches, and that an active plugin keeps
  its port layout. One lemma per trampoline and outcome; nothing later unfolds a trampoline.
-/
import ClapValidatorPlugins.Contract.Tame
import ClapValidatorPlugins.Host.Run

namespace Cvp.Plugin

variable {D S σ : Type}

/-- `if (b) report(v);` as a list of codes. -/
def codeIf (b : Bool) (v : Violation) : List Violation := if b then [v] else []

@[simp] theorem codeIf_false (v : Violation) : codeIf false v = [] := rfl

@[simp] theorem codeIf_true (v : Violation) : codeIf true v = [v] := rfl

/-- A move in which an active plugin keeps its port layout. -/
structure Steps (impl : PluginImpl D S σ) (p q : Plugin D σ) (vs : List Violation)
    (f : ContractMonitor → ContractMonitor) : Prop extends Moves p q vs f where
  ports : p.contract.active = true → SamePorts impl p.self q.self

/-- A call the wrapper answers itself: the flavor is not reached. -/
structure Refuses (p q : Plugin D σ) (vs : List Violation) : Prop extends Moves p q vs id where
  self : q.self = p.self

section Rules

variable {impl : PluginImpl D S σ} {p q r : Plugin D σ} {vs : List Violation}
  {f g : ContractMonitor → ContractMonitor}

/-- The pieces before and behind the virtual call leave the flavor's state alone. -/
theorem steps_of_moves (h : Moves p q vs f) (hs : q.self = p.self) : Steps impl p q vs f :=
  ⟨h, fun _ isInput => by rw [hs]⟩

theorem Refuses.steps (h : Refuses p q vs) : Steps impl p q vs id := steps_of_moves h.toMoves h.self

theorem steps_of_keeps {α : Type} {out : Outcome D σ α} {q : Plugin D σ} (h : Moves p q vs f)
    (hs : q.self = p.self) (hk : Keeps impl q.self out) :
    Steps impl p (q.absorb out) vs f := by
  refine ⟨h.andThen (moves_absorb q out hk.quiet), fun _ isInput => ?_⟩
  rw [absorb_self, hk.ports isInput, hs]

theorem Shifts.congr (h : Shifts p q vs f) (hf : f p.contract.tracked = g p.contract.tracked) :
    Shifts p q vs g :=
  ⟨h.counts, h.tracked.trans hf, h.threads, h.host⟩

theorem Moves.congr (h : Moves p q vs f) (hf : f p.contract.tracked = g p.contract.tracked) :
    Moves p q vs g :=
  ⟨h.toShifts.congr hf, h.quiet, h.unasked⟩

theorem moves_reportIf (p : Plugin D σ) (b : Bool) (v : Violation) (function detail : String) :
    Moves p (if b then p.report v function detail else p) (codeIf b v) id := by
  cases b
  · exact Moves.refl p
  · exact moves_report p v function detail

theorem reportIf_self (p : Plugin D σ) (b : Bool) (v : Violation) (function detail : String) :
    (if b then p.report v function detail else p).self = p.self := by
  cases b <;> rfl

theorem Shifts.active (h : Shifts p q vs id) : q.contract.active = p.contract.active :=
  h.field ContractMonitor.active fun _ => rfl

theorem Shifts.processing (h : Shifts p q vs id) :
    q.contract.processing = p.contract.processing :=
  h.field ContractMonitor.processing fun _ => rfl

theorem Shifts.initialized (h : Shifts p q vs id) :
    q.contract.initialized = p.contract.initialized :=
  h.field ContractMonitor.initialized fun _ => rfl

theorem Shifts.inProcess (h : Shifts p q vs id) : q.contract.inProcess = p.contract.inProcess :=
  h.field ContractMonitor.inProcess fun _ => rfl

end Rules

/-! ## init, destroy -/

section

variable {impl : PluginImpl D S σ}

theorem sInit_again {p : Plugin D σ} (h : p.contract.initialized = true) (thread : ThreadId)
    (earlyLog : List LogLine) :
    Refuses p (p.sInit impl thread earlyLog).1 (p.mainCodes thread ++ [.L02]) ∧
      (p.sInit impl thread earlyLog).2 = true := by
  have hm := moves_assertMainThread p thread "sInit"
  unfold sInit
  dsimp only
  rw [if_pos (by rw [hm.initialized, h])]
  exact ⟨⟨hm.trans (moves_report _ _ _ _), rfl⟩, rfl⟩

/-- The instance `p` with the checker `sInit` installs. -/
def withThreads (p : Plugin D σ) (thread : ThreadId) : Plugin D σ :=
  { p with threads := p.threads.onInit p.host thread }

/-- What `HostCheckPlugin::init` does to its base class. -/
theorem absorb_request {α : Type} {p : Plugin D σ} (hh : p.host.isSome) {out : Outcome D σ α}
    {text : String} (he : out.effects = [.log .info text, .requestCallback]) :
    Shifts p (p.absorb out) [] (ContractMonitor.addCallbacks 1) ∧
      (p.absorb out).callbackCalls = p.callbackCalls + 1 ∧
      Quiet p.contract.findings (p.absorb out).contract.findings := by
  unfold absorb
  rw [he]
  refine ⟨⟨counted_of_eq rfl rfl, rfl, rfl, rfl⟩, ?_, quiet_emit _ LogSeverity.noConfusion text⟩
  show (if p.host.isSome then p.hostCalls ++ [.requestCallback] else p.hostCalls).count _ = _
  rw [if_pos hh, List.count_append]
  rfl

/-- `sInit` up to the virtual call. -/
def enterInit (p : Plugin D σ) (thread : ThreadId) (earlyLog : List LogLine) : Plugin D σ :=
  let p := (p.assertMainThread thread "sInit").withThreads thread
  let p := p.logLines earlyLog
  let p := { p with contract := { p.contract with initialized := true } }
  p.logHostInfo.logLifecycle "lifecycle: init()"

theorem logLines_callbackCalls (lines : List LogLine) :
    ∀ p : Plugin D σ, (p.logLines lines).callbackCalls = p.callbackCalls := by
  induction lines with
  | nil => exact fun p => rfl
  | cons l ls ih => exact fun p => ih (p.logToHost l.severity l.text)

section Enter

variable (p : Plugin D σ) (thread : ThreadId) (earlyLog : List LogLine)

/-- The pieces of `enterInit` before and behind the copied lines. -/
theorem enterInit_pieces :
    Moves (p.withThreads thread) ((p.assertMainThread thread "sInit").withThreads thread)
      (p.mainCodes thread) id ∧
    ∀ q : Plugin D σ, Moves q ({ q with contract := { q.contract with
      initialized := true } }.logHostInfo.logLifecycle "lifecycle: init()") []
        (fun m => { m with initialized := true }) := by
  have hm := moves_assertMainThread p thread "sInit"
  refine ⟨⟨⟨hm.counts, hm.tracked, rfl, rfl⟩, hm.quiet, rfl⟩, fun q => ?_⟩
  have hset := moves_set q (fun m => { m with initialized := true }) rfl rfl
  exact (hset.trans (moves_logHostInfo _)).trans (moves_logLifecycle _ _)

theorem enterInit_shifts :
    Shifts (p.withThreads thread) (p.enterInit thread earlyLog) (p.mainCodes thread)
      (fun m => { m with initialized := true }) := by
  obtain ⟨hbefore, hbehind⟩ := enterInit_pieces p thread
  exact (hbefore.toShifts.andThen (shifts_logLines earlyLog _)).andThen (hbehind _).toShifts

theorem enterInit_callbackCalls :
    (p.enterInit thread earlyLog).callbackCalls = p.callbackCalls := by
  obtain ⟨hbefore, hbehind⟩ := enterInit_pieces p thread
  have h1 := (hbehind (((p.assertMainThread thread "sInit").withThreads thread).logLines
    earlyLog)).unasked
  rw [logLines_callbackCalls, hbefore.unasked] at h1
  exact h1

theorem enterInit_self : (p.enterInit thread earlyLog).self = p.self := by
  unfold enterInit
  rw [logLifecycle_self, logHostInfo_self]
  exact logLines_self earlyLog _

/-- What is logged on the way is quiet, the early lines apart. -/
theorem enterInit_log (hc : p.mainCodes thread = []) :
    ∀ line ∈ (p.enterInit thread earlyLog).contract.findings.log,
      line ∈ p.contract.findings.log ∨ line.isQuiet ∨ line ∈ earlyLog := by
  intro line hl
  obtain ⟨hbefore, hbehind⟩ := enterInit_pieces p thread
  rcases ((hbehind _).quiet rfl).mem hl with hl | hq
  · have hl' : line ∈ (((p.assertMainThread thread "sInit").withThreads thread).logLines
        earlyLog).contract.findings.log := hl
    rw [logLines_log, List.mem_append] at hl'
    rcases hl' with hl | hearly
    · exact ((hbefore.quiet hc).mem hl).imp_right .inl
    · exact .inr (.inr hearly)
  · exact .inr (.inl hq)

end Enter

/-- The first `init()` may ask for one callback. -/
theorem sInit_first (ht : Tame impl) {p : Plugin D σ} (h : p.contract.initialized = false)
    (thread : ThreadId) (earlyLog : List LogLine) :
    ∃ n ≤ 1,
      Shifts (p.withThreads thread) (p.sInit impl thread earlyLog).1 (p.mainCodes thread)
        (fun m => ContractMonitor.addCallbacks n { m with initialized := true }) ∧
      (p.sInit impl thread earlyLog).1.callbackCalls = p.callbackCalls + n ∧
      SamePorts impl p.self (p.sInit impl thread earlyLog).1.self ∧
      (p.sInit impl thread earlyLog).2 = true ∧
      (p.mainCodes thread = [] → ∀ line ∈ (p.sInit impl thread earlyLog).1.contract.findings.log,
        line ∈ p.contract.findings.log ∨ line.isQuiet ∨ line ∈ earlyLog) := by
  have hm := moves_assertMainThread p thread "sInit"
  let q := p.enterInit thread earlyLog
  let out := impl.init q.base q.self
  have he : p.sInit impl thread earlyLog = (q.absorb out, out.value) := by
    unfold sInit
    dsimp only
    rw [if_neg (by rw [hm.initialized, h]; exact Bool.false_ne_true)]
    rfl
  have hs : q.self = p.self := enterInit_self p thread earlyLog
  have hports : SamePorts impl p.self (q.absorb out).self := by
    intro isInput
    rw [absorb_self, ht.initPorts q.base q.self isInput, hs]
  have hq := enterInit_shifts p thread earlyLog
  have hlog : Quiet q.contract.findings (q.absorb out).contract.findings →
      p.mainCodes thread = [] → ∀ line ∈ (q.absorb out).contract.findings.log,
        line ∈ p.contract.findings.log ∨ line.isQuiet ∨ line ∈ earlyLog := by
    intro hq hc line hl
    rcases hq.mem hl with hl | hl
    · exact enterInit_log p thread earlyLog hc line hl
    · exact .inr (.inl hl)
  rw [he]
  rcases ht.initEffects q.base q.self with hquiet | ⟨hhost, text, -, heff⟩
  · have ha := moves_absorb q out hquiet
    refine ⟨0, by omega, (hq.andThen ha.toShifts).congr ?_, ?_, hports, ht.initSucceeds _ _,
      hlog (ha.quiet rfl)⟩
    · exact (ContractMonitor.addCallbacks_zero _).symm
    · rw [ha.unasked]
      exact enterInit_callbackCalls p thread earlyLog
  · obtain ⟨ha, hcalls, haq⟩ := absorb_request (p := q) hhost heff
    refine ⟨1, le_rfl, hq.andThen ha, ?_, hports, ht.initSucceeds _ _, hlog haq⟩
    rw [hcalls]
    exact congrArg (· + 1) (enterInit_callbackCalls p thread earlyLog)

/-- `sDestroy` up to the summary. -/
theorem sDestroy_checks (p : Plugin D σ) (thread : ThreadId) :
    Moves p
      (if (p.assertMainThread thread "sDestroy").contract.active then
        (p.assertMainThread thread "sDestroy").report .L06 "destroy()"
          "called while the plugin is still active"
      else p.assertMainThread thread "sDestroy")
      (p.mainCodes thread ++ codeIf p.contract.active .L06) id := by
  have hm := moves_assertMainThread p thread "sDestroy"
  rw [← hm.active]
  exact hm.trans (moves_reportIf _ _ _ _ _)

theorem sDestroy_shifts (p : Plugin D σ) (thread : ThreadId) :
    Shifts p (p.sDestroy thread) (p.mainCodes thread ++ codeIf p.contract.active .L06) id := by
  have hsum : ∀ q : Plugin D σ,
      Shifts q { q with contract := q.contract.logSummary } [] id :=
    fun q => ⟨counted_of_eq q.contract.findings.logSummary_counters
      q.contract.findings.logSummary_total, rfl, rfl, rfl⟩
  exact ((sDestroy_checks p thread).toShifts.andThen (hsum _)).andThen
    (moves_logLifecycle _ "lifecycle: destroy()").toShifts

/-- A clean record ends with a quiet summary. -/
theorem sDestroy_quiet {p : Plugin D σ} {thread : ThreadId}
    (hc : p.mainCodes thread ++ codeIf p.contract.active .L06 = [])
    (ht : p.contract.findings.total = 0) :
    Quiet p.contract.findings (p.sDestroy thread).contract.findings := by
  have hchecks := sDestroy_checks p thread
  rw [hc] at hchecks
  have htotal := hchecks.counts.total
  rw [ht] at htotal
  have hsum : ∀ f : Findings, f.total = 0 → Quiet f f.logSummary := by
    intro f hf
    unfold Findings.logSummary
    rw [if_pos hf]
    exact quiet_emit f LogSeverity.noConfusion _
  exact ((hchecks.quiet rfl).trans (hsum _ htotal)).trans
    ((moves_logLifecycle _ "lifecycle: destroy()").quiet rfl)

end

/-! ## activate, deactivate -/

section

variable {impl : PluginImpl D S σ}

/-- The bounds an activation works with: L13 is tolerated by clamping. -/
def clampBounds (minFrames maxFrames : Nat) : Nat × Nat :=
  (max minFrames 1, max maxFrames (max minFrames 1))

def badBounds (minFrames maxFrames : Nat) : Bool :=
  decide (minFrames < 1 ∨ maxFrames < minFrames)

theorem clampBounds_of_good {minFrames maxFrames : Nat}
    (h : badBounds minFrames maxFrames = false) :
    clampBounds minFrames maxFrames = (minFrames, maxFrames) := by
  have hb : ¬ (minFrames < 1 ∨ maxFrames < minFrames) := of_decide_eq_false h
  have h1 : max minFrames 1 = minFrames := by omega
  rw [clampBounds, h1, max_eq_left (by omega)]

/-- The monitor behind a successful activation: bounds, layout and params as declared. -/
def activated (impl : PluginImpl D S σ) (s : σ) (bounds : Nat × Nat) (m : ContractMonitor) :
    ContractMonitor :=
  { m with
    active := true, beingActivated := false
    minFrames := bounds.1, maxFrames := bounds.2
    inputPorts := declaredPorts impl s true, outputPorts := declaredPorts impl s false
    params := declaredParams impl }

theorem activateWith_moves [DoubleOps D] (ht : Tame impl) (p : Plugin D σ) (sampleRate : D)
    (minFrames maxFrames : Nat) :
    Moves p (activateWith impl p sampleRate minFrames maxFrames).1 []
        (activated impl (activateWith impl p sampleRate minFrames maxFrames).1.self
          (minFrames, maxFrames)) ∧
      (activateWith impl p sampleRate minFrames maxFrames).2 = true := by
  let p1 := p.logLifecycle (snprintf 128 ("lifecycle: activate(sr=" ++
    DoubleOps.formatFixed 1 sampleRate ++ s!", min={minFrames}, max={maxFrames})"))
  let p2 : Plugin D σ := { p1 with
    sampleRate := sampleRate
    contract := { p1.contract with beingActivated := true } }
  let out := impl.activate p2.base p2.self sampleRate minFrames maxFrames
  have he : activateWith impl p sampleRate minFrames maxFrames =
      ({ p2.absorb out with
          contract := activated impl (p2.absorb out).self (minFrames, maxFrames)
            (p2.absorb out).contract
          firstProcessLogged := false }, true) := by
    unfold activateWith
    simp only [ht.activateSucceeds, if_true]
    rfl
  have hlog : Moves p p1 [] id := moves_logLifecycle _ _
  have hbegin : Moves p1 p2 [] (fun m => { m with beingActivated := true }) :=
    ⟨⟨counted_of_eq rfl rfl, rfl, rfl, rfl⟩, fun _ => quiet_of_eq rfl, rfl⟩
  have habsorb := moves_absorb p2 out (ht.activateQuiet _ _ _ _ _)
  rw [he]
  refine ⟨⟨⟨?_, ?_, habsorb.threads.trans hlog.threads, habsorb.host.trans hlog.host⟩, ?_, ?_⟩,
    rfl⟩
  all_goals have h := (hlog.trans hbegin).trans habsorb
  · exact h.counts
  · exact congrArg (activated impl (p2.absorb out).self (minFrames, maxFrames)) h.tracked
  · exact h.quiet
  · exact h.unasked

theorem sActivate_active [DoubleOps D] {p : Plugin D σ} (h : p.contract.active = true)
    (thread : ThreadId) (sampleRate : D) (minFrames maxFrames : Nat) :
    Refuses p (p.sActivate impl thread sampleRate minFrames maxFrames).1
        (p.mainCodes thread ++ [.L03]) ∧
      (p.sActivate impl thread sampleRate minFrames maxFrames).2 = false := by
  have hm := moves_assertMainThread p thread "sActivate"
  unfold sActivate
  dsimp only
  rw [if_pos (by rw [hm.active, h])]
  exact ⟨⟨hm.trans (moves_report _ _ _ _), rfl⟩, rfl⟩

theorem sActivate_inactive [DoubleOps D] (ht : Tame impl) {p : Plugin D σ}
    (h : p.contract.active = false) (thread : ThreadId) (sampleRate : D)
    (minFrames maxFrames : Nat) :
    Steps impl p (p.sActivate impl thread sampleRate minFrames maxFrames).1
        (p.mainCodes thread ++ codeIf (badBounds minFrames maxFrames) .L13)
        (activated impl (p.sActivate impl thread sampleRate minFrames maxFrames).1.self
          (clampBounds minFrames maxFrames)) ∧
      (p.sActivate impl thread sampleRate minFrames maxFrames).2 = true := by
  have hm := moves_assertMainThread p thread "sActivate"
  have hvac : p.contract.active = true → SamePorts impl p.self
      (p.sActivate impl thread sampleRate minFrames maxFrames).1.self := by
    intro hactive
    rw [h] at hactive
    cases hactive
  suffices hmoves : Moves p (p.sActivate impl thread sampleRate minFrames maxFrames).1
      (p.mainCodes thread ++ codeIf (badBounds minFrames maxFrames) .L13)
      (activated impl (p.sActivate impl thread sampleRate minFrames maxFrames).1.self
        (clampBounds minFrames maxFrames)) ∧
      (p.sActivate impl thread sampleRate minFrames maxFrames).2 = true from
    ⟨⟨hmoves.1, hvac⟩, hmoves.2⟩
  clear hvac
  unfold sActivate
  dsimp only
  rw [if_neg (by rw [hm.active, h]; exact Bool.false_ne_true)]
  by_cases hb : minFrames < 1 ∨ maxFrames < minFrames
  · rw [if_pos hb, badBounds, decide_eq_true hb]
    obtain ⟨ha, hv⟩ := activateWith_moves ht _ sampleRate (max minFrames 1)
      (max maxFrames (max minFrames 1))
    exact ⟨(hm.trans (moves_report _ _ _ _)).andThen ha, hv⟩
  · rw [if_neg hb, clampBounds_of_good (decide_eq_false hb), badBounds, decide_eq_false hb]
    obtain ⟨ha, hv⟩ := activateWith_moves ht _ sampleRate minFrames maxFrames
    exact ⟨hm.trans ha, hv⟩

theorem sDeactivate_inactive {p : Plugin D σ} (h : p.contract.active = false)
    (thread : ThreadId) :
    Refuses p (p.sDeactivate impl thread) (p.mainCodes thread ++ [.L04]) := by
  have hm := moves_assertMainThread p thread "sDeactivate"
  unfold sDeactivate
  dsimp only
  rw [if_pos (by rw [hm.active, h]; rfl)]
  exact ⟨hm.trans (moves_report _ _ _ _), rfl⟩

/-- `sDeactivate` behind the checks. -/
theorem deactivate_tail (ht : Tame impl) (p : Plugin D σ) :
    let q := p.logLifecycle "lifecycle: deactivate()"
    let r := q.absorb (impl.deactivate q.base q.self)
    Moves p { r with contract := { r.contract with active := false } } []
        (fun m => { m with active := false }) ∧
      SamePorts impl p.self r.self := by
  intro q r
  have hk := ht.deactivate q.base q.self
  have hlog : Moves p q [] id := moves_logLifecycle p _
  have habsorb : Moves q r [] id := moves_absorb q _ hk.quiet
  refine ⟨(hlog.trans habsorb).trans (moves_set r (fun m => { m with active := false }) rfl rfl),
    fun isInput => ?_⟩
  rw [absorb_self, hk.ports isInput, logLifecycle_self]

theorem sDeactivate_active (ht : Tame impl) {p : Plugin D σ} (h : p.contract.active = true)
    (thread : ThreadId) :
    Steps impl p (p.sDeactivate impl thread)
      (p.mainCodes thread ++ codeIf p.contract.processing .L05)
      (fun m => { m with processing := false, active := false }) := by
  have hm := moves_assertMainThread p thread "sDeactivate"
  unfold sDeactivate
  dsimp only
  rw [if_neg (by rw [hm.active, h]; exact Bool.false_ne_true), hm.processing]
  cases hp : p.contract.processing with
  | true =>
    rw [if_pos rfl]
    let p2 := (p.assertMainThread thread "sDeactivate").report .L05 "deactivate()"
      "called while still processing (missing stop_processing())"
    have hk := ht.stopProcessing p2.base p2.self
    let p3 := p2.absorb (impl.stopProcessing p2.base p2.self)
    let p4 := { p3 with contract := { p3.contract with processing := false } }
    have hstop : Moves p p4 (p.mainCodes thread ++ [.L05])
        (fun m => { m with processing := false }) :=
      ((hm.trans (moves_report _ _ _ _)).andThen (moves_absorb p2 _ hk.quiet)).andThen
        (moves_set p3 (fun m => { m with processing := false }) rfl rfl)
    obtain ⟨htail, hports⟩ := deactivate_tail ht p4
    refine ⟨hstop.andThen htail, fun _ isInput => ?_⟩
    refine (hports isInput).trans ?_
    show declaredPorts impl (p2.absorb _).self isInput = _
    rw [absorb_self]
    exact hk.ports isInput
  | false =>
    rw [if_neg Bool.false_ne_true]
    obtain ⟨htail, hports⟩ := deactivate_tail ht (p.assertMainThread thread "sDeactivate")
    refine ⟨?_, fun _ => hports⟩
    have hmoves := hm.andThen htail
    rw [codeIf_false, List.append_nil]
    refine hmoves.congr ?_
    show { p.contract.tracked with active := false } =
      { p.contract.tracked with processing := false, active := false }
    rw [← hp]
    rfl

end

/-! ## start_processing, stop_processing, reset -/

section

variable {impl : PluginImpl D S σ} {p : Plugin D σ}

theorem sStartProcessing_inactive (h : p.contract.active = false) (thread : ThreadId) :
    Refuses p (p.sStartProcessing impl thread).1 (p.audioCodes thread ++ [.L07]) ∧
      (p.sStartProcessing impl thread).2 = false := by
  have hm := moves_assertAudioThread p thread "sStartProcessing"
  unfold sStartProcessing
  dsimp only
  rw [if_pos (by rw [hm.active, h]; rfl)]
  exact ⟨⟨hm.trans (moves_report _ _ _ _), rfl⟩, rfl⟩

theorem sStartProcessing_processing (ha : p.contract.active = true)
    (hp : p.contract.processing = true) (thread : ThreadId) :
    Refuses p (p.sStartProcessing impl thread).1 (p.audioCodes thread ++ [.L07]) ∧
      (p.sStartProcessing impl thread).2 = true := by
  have hm := moves_assertAudioThread p thread "sStartProcessing"
  unfold sStartProcessing
  dsimp only
  rw [if_neg (by rw [hm.active, ha]; exact Bool.false_ne_true), if_pos (by rw [hm.processing, hp])]
  exact ⟨⟨hm.trans (moves_report _ _ _ _), rfl⟩, rfl⟩

theorem sStartProcessing_active (ht : Tame impl) (ha : p.contract.active = true)
    (hp : p.contract.processing = false) (thread : ThreadId) :
    Steps impl p (p.sStartProcessing impl thread).1 (p.audioCodes thread)
        (fun m => { m with processing := true, steadyValid := false }) ∧
      (p.sStartProcessing impl thread).2 = true := by
  have hm := moves_assertAudioThread p thread "sStartProcessing"
  unfold sStartProcessing
  dsimp only
  rw [if_neg (by rw [hm.active, ha]; exact Bool.false_ne_true),
    if_neg (by rw [hm.processing, hp]; exact Bool.false_ne_true), ht.startSucceeds]
  let p2 := (p.assertAudioThread thread "sStartProcessing").logLifecycle
    "lifecycle: start_processing()"
  have hk := ht.startProcessing p2.base p2.self
  have h2 : Moves p p2 (p.audioCodes thread) id := hm.andThen (moves_logLifecycle _ _)
  have h3 := steps_of_keeps h2 (logLifecycle_self _ _) hk
  exact ⟨⟨h3.toMoves.andThen (moves_set _ (fun m => { m with
    processing := true, steadyValid := false }) rfl rfl), h3.ports⟩, rfl⟩

/-- `sStopProcessing` behind its first check. -/
def checkStop (p : Plugin D σ) (thread : ThreadId) : Plugin D σ :=
  let p := p.assertAudioThread thread "sStopProcessing"
  if !p.contract.active then p.report .L08 "stop_processing()" "called while not active" else p

theorem moves_checkStop (p : Plugin D σ) (thread : ThreadId) :
    Moves p (p.checkStop thread) (p.audioCodes thread ++ codeIf (!p.contract.active) .L08) id ∧
      (p.checkStop thread).self = p.self := by
  have hm := moves_assertAudioThread p thread "sStopProcessing"
  rw [← hm.active]
  exact ⟨hm.trans (moves_reportIf _ _ _ _ _), reportIf_self _ _ _ _ _⟩

/-- `sStopProcessing` behind both checks. -/
def stopTail (impl : PluginImpl D S σ) (p : Plugin D σ) : Plugin D σ :=
  let p := p.logLifecycle "lifecycle: stop_processing()"
  let p := p.absorb (impl.stopProcessing p.base p.self)
  { p with contract := { p.contract with processing := false } }

theorem sStopProcessing_eq (thread : ThreadId) :
    p.sStopProcessing impl thread =
      if !(p.checkStop thread).contract.processing then
        (p.checkStop thread).report .L08 "stop_processing()" "called while not processing"
      else (p.checkStop thread).stopTail impl := rfl

/-- An inactive plugin is reported twice: neither check returns for the other. -/
theorem sStopProcessing_idle (hp : p.contract.processing = false) (thread : ThreadId) :
    Refuses p (p.sStopProcessing impl thread)
      (p.audioCodes thread ++ codeIf (!p.contract.active) .L08 ++ [.L08]) := by
  obtain ⟨h, hs⟩ := moves_checkStop p thread
  rw [sStopProcessing_eq, h.processing, hp, Bool.not_false, if_pos rfl]
  exact ⟨h.trans (moves_report _ _ _ _), hs⟩

theorem sStopProcessing_processing (ht : Tame impl) (hp : p.contract.processing = true)
    (thread : ThreadId) :
    Steps impl p (p.sStopProcessing impl thread)
      (p.audioCodes thread ++ codeIf (!p.contract.active) .L08)
      (fun m => { m with processing := false }) := by
  obtain ⟨h, hs⟩ := moves_checkStop p thread
  rw [sStopProcessing_eq, h.processing, hp, Bool.not_true, if_neg Bool.false_ne_true]
  let q := (p.checkStop thread).logLifecycle "lifecycle: stop_processing()"
  have hlog : Moves p q _ id := h.andThen (moves_logLifecycle _ _)
  have hstop := steps_of_keeps hlog ((logLifecycle_self _ _).trans hs)
    (ht.stopProcessing q.base q.self)
  exact ⟨hstop.toMoves.andThen (moves_set _ (fun m => { m with processing := false }) rfl rfl),
    hstop.ports⟩

theorem sReset_steps (ht : Tame impl) (thread : ThreadId) :
    Steps impl p (p.sReset impl thread)
      (p.audioCodes thread ++ codeIf (!p.contract.active) .L10)
      (fun m => { m with steadyValid := false }) := by
  have hm := moves_assertAudioThread p thread "sReset"
  let p2 := if !(p.assertAudioThread thread "sReset").contract.active then
      (p.assertAudioThread thread "sReset").report .L10 "reset()" "called while not active"
    else p.assertAudioThread thread "sReset"
  have h2 : Moves p p2 (p.audioCodes thread ++ codeIf (!p.contract.active) .L10) id := by
    rw [← hm.active]
    exact hm.trans (moves_reportIf _ _ _ _ _)
  have hs2 : p2.self = p.self := reportIf_self _ _ _ _ _
  let p3 := p2.logLifecycle "lifecycle: reset()"
  let p4 : Plugin D σ := { p3 with contract := p3.contract.invalidateSteadyTime }
  have h4 : Moves p p4 _ (fun m => { m with steadyValid := false }) :=
    (h2.andThen (moves_logLifecycle _ _)).andThen
      (moves_set p3 (fun m => { m with steadyValid := false }) rfl rfl)
  exact steps_of_keeps h4 ((logLifecycle_self _ _).trans hs2) (ht.reset p4.base p4.self)

end

/-! ## process -/

section

variable {impl : PluginImpl D S σ} {p : Plugin D σ}

/-- The parameter checks read nothing of the monitor but the param table. -/
theorem checkParamEvents_congr {m m' : ContractMonitor} (h : m'.params = m.params)
    (events : Option (InputEvents D)) (transport : Option (Transport D)) :
    checkParamEvents m' events transport = checkParamEvents m events transport := by
  have hfind : ∀ id, m'.findParam id = m.findParam id := by
    intro id
    rw [ContractMonitor.findParam, ContractMonitor.findParam, h]
  have hone : ∀ (playing : Bool) (i : Nat) (e : Option (Event D)),
      paramEventFindings m' playing i e = paramEventFindings m playing i e := by
    intro playing i e
    unfold paramEventFindings targetFindings
    simp only [hfind]
  have hall : ∀ (es : List (Option (Event D))) (playing : Bool) (i : Nat),
      paramEventsFindings m' playing i es = paramEventsFindings m playing i es := by
    intro es
    induction es with
    | nil => exact fun _ _ => rfl
    | cons e es ih =>
      intro playing i
      rw [paramEventsFindings, paramEventsFindings, ih, hone]
  unfold checkParamEvents ContractMonitor.hasParams
  rw [hall, h]

/-- What is reported about a block depends on the bounds, caches and baseline only. -/
theorem blockFindings_congr (m : ContractMonitor) (f : Findings) (b : Bool)
    (block : ProcessBlock D) :
    blockFindings { m with findings := f, inProcess := b } block = blockFindings m block := by
  have hsteady : steadyFindings { m with findings := f, inProcess := b } block =
      steadyFindings m block := by
    unfold steadyFindings ContractMonitor.checkSteadyTime
    split <;> rfl
  have hparams : checkParamEvents { m with findings := f, inProcess := b } block.inEvents
      block.transport = checkParamEvents m block.inEvents block.transport :=
    checkParamEvents_congr (by rfl) _ _
  unfold blockFindings eventFindings
  rw [hparams, hsteady]
  rfl

/-- The codes one block is reported for. -/
def blockCodes (m : ContractMonitor) (block : ProcessBlock D) : List Violation :=
  (blockFindings m block).map (·.violation)

/-- The steady-time baseline behind a block. -/
def rebased (block : ProcessBlock D) (m : ContractMonitor) : ContractMonitor :=
  (m.checkSteadyTime block.steadyTime block.framesCount.toNat).2

/-- Only the baseline is touched. -/
theorem rebased_eq (block : ProcessBlock D) (m : ContractMonitor) :
    ∃ valid steadyEnd, rebased block m =
      { m with steadyValid := valid, steadyEnd := steadyEnd } := by
  unfold rebased ContractMonitor.checkSteadyTime
  split
  · exact ⟨_, m.steadyEnd, rfl⟩
  · exact ⟨_, _, rfl⟩

theorem rebased_tracked (block : ProcessBlock D) (m : ContractMonitor) :
    (rebased block m).tracked = rebased block m.tracked := by
  unfold rebased ContractMonitor.checkSteadyTime
  split <;> rfl

theorem rebased_inProcess (block : ProcessBlock D) (m : ContractMonitor) (b : Bool) :
    rebased block { m with inProcess := b } = { rebased block m with inProcess := b } := by
  unfold rebased ContractMonitor.checkSteadyTime
  split <;> rfl

theorem moves_checkProcessContracts (p : Plugin D σ) (block : ProcessBlock D) :
    Moves p { p with contract := (checkProcessContracts p.contract block).2 }
      (blockCodes p.contract block) (rebased block) := by
  refine ⟨⟨counted_reportAll _ _, rebased_tracked block p.contract, rfl, rfl⟩, ?_, rfl⟩
  intro h
  show Quiet _ (p.contract.findings.reportAll (blockFindings p.contract block))
  rw [List.map_eq_nil_iff.mp h]
  exact quiet_of_eq rfl

theorem moves_logFirstProcess (p : Plugin D σ) (framesCount : UInt32) :
    Moves p (p.logFirstProcess framesCount) [] id ∧
      (p.logFirstProcess framesCount).self = p.self := by
  unfold logFirstProcess
  split
  · exact ⟨⟨⟨counted_of_eq rfl rfl, rfl, rfl, rfl⟩,
      fun _ => quiet_emit _ LogSeverity.noConfusion _, rfl⟩, rfl⟩
  · exact ⟨Moves.refl p, rfl⟩

theorem processGate_busy (h : p.contract.inProcess = true) (thread : ThreadId)
    (block : ProcessBlock D) :
    (p.processGate thread block).1 = .reject ∧
      Moves p (p.processGate thread block).2 (p.audioCodes thread ++ [.L12]) id ∧
      (p.processGate thread block).2.self = p.self := by
  have hm := moves_assertAudioThread p thread "sProcess"
  unfold processGate
  dsimp only
  rw [if_pos (by rw [hm.inProcess, h])]
  exact ⟨rfl, hm.trans (moves_report _ _ _ _), rfl⟩

theorem processGate_notReady (h : p.contract.inProcess = false)
    (hr : (p.contract.active && p.contract.processing) = false) (thread : ThreadId)
    (block : ProcessBlock D) :
    (p.processGate thread block).1 = .reject ∧
      Moves p (p.processGate thread block).2 (p.audioCodes thread ++ [.L09])
        (fun m => { m with inProcess := false }) ∧
      (p.processGate thread block).2.self = p.self := by
  have hm := moves_assertAudioThread p thread "sProcess"
  have hc : (!(p.assertAudioThread thread "sProcess").contract.active ||
      !(p.assertAudioThread thread "sProcess").contract.processing) = true := by
    rw [hm.active, hm.processing, ← Bool.not_and, hr]
    rfl
  unfold processGate
  dsimp only
  rw [if_neg (by rw [hm.inProcess, h]; exact Bool.false_ne_true), if_pos hc]
  refine ⟨rfl, ?_, rfl⟩
  have henter := moves_set (p.assertAudioThread thread "sProcess")
    (fun m => { m with inProcess := true }) rfl rfl
  exact ((hm.andThen henter).trans (moves_report _ _ _ _)).andThen
    (moves_set _ (fun m => { m with inProcess := false }) rfl rfl)

/-- A block that reaches the data checks: what they report, and who decides. -/
theorem processGate_ready (h : p.contract.inProcess = false)
    (hr : (p.contract.active && p.contract.processing) = true) (thread : ThreadId)
    (block : ProcessBlock D) :
    ∃ q : Plugin D σ,
      Moves p q (p.audioCodes thread ++ blockCodes p.contract block)
        (fun m => { rebased block m with inProcess := true }) ∧
      q.self = p.self ∧
      p.processGate thread block =
        if (checkPorts p.contract block).1 then (.forward, q) else (.reject, q.leaveProcess) := by
  have hm := moves_assertAudioThread p thread "sProcess"
  let p1 := p.assertAudioThread thread "sProcess"
  let p2 : Plugin D σ := { p1 with contract := { p1.contract with inProcess := true } }
  let p3 := p2.logFirstProcess block.framesCount
  obtain ⟨hfirst, hself⟩ := moves_logFirstProcess p2 block.framesCount
  have h3 : Moves p p3 (p.audioCodes thread) (fun m => { m with inProcess := true }) :=
    (hm.andThen (moves_set p1 (fun m => { m with inProcess := true }) rfl rfl)).andThen hfirst
  have hp3 : p3.contract = { p.contract with
      findings := p3.contract.findings, inProcess := true } :=
    congrArg (fun m : ContractMonitor => { m with findings := p3.contract.findings }) h3.tracked
  have hcodes : blockCodes p3.contract block = blockCodes p.contract block := by
    rw [blockCodes, hp3, blockFindings_congr]
    rfl
  have hports : (checkPorts p3.contract block).1 = (checkPorts p.contract block).1 := by
    rw [hp3]
    rfl
  have hc : ¬ (!p1.contract.active || !p1.contract.processing) = true := by
    rw [hm.active, hm.processing, ← Bool.not_and, hr]
    exact Bool.false_ne_true
  refine ⟨{ p3 with contract := (checkProcessContracts p3.contract block).2 }, ?_, ?_, ?_⟩
  · have hcheck := moves_checkProcessContracts p3 block
    rw [hcodes] at hcheck
    exact (h3.trans hcheck).congr (rebased_inProcess block _ true)
  · exact hself
  · unfold processGate
    dsimp only
    rw [if_neg (by rw [hm.inProcess, h]; exact Bool.false_ne_true), if_neg hc, ← hports]
    rfl

theorem moves_leaveProcess (p : Plugin D σ) :
    Moves p p.leaveProcess [] (fun m => { m with inProcess := false }) :=
  moves_set p (fun m => { m with inProcess := false }) rfl rfl

/-- A block is answered, and the process guard is released. -/
theorem sProcess_ready (ht : Tame impl) (h : p.contract.inProcess = false)
    (hr : (p.contract.active && p.contract.processing) = true) (thread : ThreadId)
    (block : ProcessBlock D) (memory : AudioMemory D S) :
    Yields (p.sProcess impl thread block memory) fun r =>
      Steps impl p r.1 (p.audioCodes thread ++ blockCodes p.contract block)
        (fun m => { rebased block m with inProcess := false }) := by
  obtain ⟨q, hq, hs, hgate⟩ := processGate_ready h hr thread block
  unfold sProcess
  rw [hgate]
  by_cases hports : (checkPorts p.contract block).1
  · rw [if_pos hports]
    dsimp only
    cases hproc : impl.process q.base q.self block memory with
    | error fault => exact Yields.of_error fault
    | ok r =>
      have hk := ht.process q.base q.self block memory r hproc
      have hsteps : Steps impl p (q.absorb r.1) _ _ := steps_of_keeps hq hs hk
      exact Yields.of_ok
        ⟨hsteps.toMoves.andThen (moves_leaveProcess _), hsteps.ports⟩
  · rw [if_neg hports]
    exact Yields.of_ok (steps_of_moves (hq.andThen (moves_leaveProcess q)) hs)

theorem sProcess_notReady (h : p.contract.inProcess = false)
    (hr : (p.contract.active && p.contract.processing) = false) (thread : ThreadId)
    (block : ProcessBlock D) (memory : AudioMemory D S) :
    ∃ q, p.sProcess impl thread block memory = .ok (q, { status := .error, memory := memory }) ∧
      Refuses p q (p.audioCodes thread ++ [.L09]) := by
  obtain ⟨hgate, hmoves, hself⟩ := processGate_notReady h hr thread block
  have hidle : { p.contract.tracked with inProcess := false } = p.contract.tracked := by
    rw [← h]
    rfl
  refine ⟨(p.processGate thread block).2, ?_, hmoves.congr hidle, hself⟩
  unfold sProcess
  rw [show p.processGate thread block = (.reject, (p.processGate thread block).2) from
    Prod.ext hgate rfl]

end

/-! ## get_extension, on_main_thread -/

section

variable {impl : PluginImpl D S σ} {p : Plugin D σ}

/-- Only the violations extension may be asked for before `init()`. -/
def asksTooEarly (p : Plugin D σ) (id : Option String) : Bool :=
  !p.contract.initialized && id.isSome && id != some extViolations

theorem sGetExtension_steps (id : Option String) :
    Yields (p.sGetExtension impl id) fun r =>
      Steps impl p r.1 (codeIf (p.asksTooEarly id) .L01) (fun m => m) := by
  unfold sGetExtension
  cases id with
  | none =>
    dsimp only
    split_ifs
    · refine Yields.of_ok ?_
      rw [asksTooEarly, Option.isSome_none, Bool.and_false, Bool.false_and]
      exact steps_of_moves (Moves.refl p) rfl
    · exact Yields.of_error _
  | some id =>
    have hb : p.asksTooEarly (some id) = (!p.contract.initialized && id != extViolations) := by
      rw [asksTooEarly, Option.isSome_some, Bool.and_true]
      rfl
    rw [hb]
    exact Yields.of_ok (steps_of_moves (moves_reportIf _ _ _ _ _) (reportIf_self _ _ _ _ _))

theorem sOnMainThread_steps (ht : Tame impl) (thread : ThreadId) :
    Steps impl p (p.sOnMainThread impl thread)
      (p.mainCodes thread ++ codeIf (!decide (0 < p.contract.pendingCallbacks)) .L11)
      (fun m => { m with pendingCallbacks := 0 }) := by
  have hm := moves_assertMainThread p thread "sOnMainThread"
  let p1 := p.assertMainThread thread "sOnMainThread"
  have hpending : p1.contract.pendingCallbacks = p.contract.pendingCallbacks :=
    hm.field ContractMonitor.pendingCallbacks fun _ => rfl
  let p2 : Plugin D σ := { p1 with contract := p1.contract.consumePendingCallbacks.2 }
  have h2 : Moves p p2 (p.mainCodes thread) (fun m => { m with pendingCallbacks := 0 }) :=
    hm.andThen (moves_set p1 (fun m => { m with pendingCallbacks := 0 }) rfl rfl)
  rw [← hpending]
  have h3 := h2.trans (moves_reportIf p2 (!decide (0 < p1.contract.pendingCallbacks)) .L11
    "on_main_thread()" "called without a pending request_callback()")
  exact steps_of_keeps (h3.andThen (moves_logLifecycle _ "lifecycle: on_main_thread()"))
    ((logLifecycle_self _ _).trans (reportIf_self _ _ _ _ _)) (ht.onMainThread _ _)

end

end Cvp.Plugin
