/-
  A host that keeps the CLAP rules, as an observer of the machine: what it knows of its instance
  (`HostView`), which call it may make next (`Allows`), and what it learns from an answer (`next`).
  `Mirrors` ties the monitor to that knowledge; every allowed call keeps it, so in every such run
  no counter moves (`legalRun_clean`).

  Where the host has no clap.thread-check every thread is taken for the right one. A call into a
  registered extension is allowed in any initialized state its annotation names.
-/
import ClapValidatorPlugins.Contract.LegalBlock

namespace Cvp

variable {D S σ : Type}

/-! ## The host -/

/-- What a host keeps in mind about an instance. -/
structure HostView where
  initialized : Bool := false
  active : Bool := false
  processing : Bool := false
  minFrames : Nat := 0
  maxFrames : Nat := 0
  /-- the earliest steady time the next block may carry -/
  steady : Option Int := none
  /-- `request_callback()` calls it has not answered yet -/
  callbacks : Nat := 0
  /-- whether the gui floats, while there is one -/
  gui : Option Bool := none
  /-- what the entry and the factories had logged before `init()` -/
  early : List LogLine := []

/-- The host's own clap.thread-check does not deny it. -/
def OnMainThread (host : Option Host) (thread : ThreadId) : Prop :=
  ∀ check, host.bind (·.threadCheck) = some check →
    ∀ isMain, check.isMainThread = some isMain → isMain thread = true

def OnAudioThread (host : Option Host) (thread : ThreadId) : Prop :=
  ∀ check, host.bind (·.threadCheck) = some check →
    ∀ isAudio, check.isAudioThread = some isAudio → isAudio thread = true

namespace HostView

/-- The gui a method is for. -/
def AllowsGui (v : HostView) (method : GuiMethod D) : Prop :=
  let (needsGui, window, _) := Plugin.Gui.rule method
  (needsGui = true → v.gui.isSome) ∧
    match window with
    | .any => True
    | .embedded => v.gui = some false
    | .floating => v.gui = some true

/-- The calls that keep the rules, made on `p` from thread `thread`. -/
def Allows (impl : PluginImpl D S σ) (p : Plugin D σ) (v : HostView) (thread : ThreadId) :
    Call D S → Prop
  | .init _ => v.initialized = false ∧ OnMainThread p.host thread
  | .destroy => v.active = false ∧ OnMainThread p.host thread
  | .activate _ minFrames maxFrames =>
    v.initialized = true ∧ v.active = false ∧ (1 ≤ minFrames ∧ minFrames ≤ maxFrames) ∧
      OnMainThread p.host thread
  | .deactivate => v.active = true ∧ v.processing = false ∧ OnMainThread p.host thread
  | .startProcessing => v.active = true ∧ v.processing = false ∧ OnAudioThread p.host thread
  | .stopProcessing => v.processing = true ∧ OnAudioThread p.host thread
  | .reset => v.active = true ∧ OnAudioThread p.host thread
  | .process block _ =>
    v.processing = true ∧ OnAudioThread p.host thread ∧
      LegalBlock (Plugin.declaredPorts impl p.self) (Plugin.declaredParams impl) v.minFrames
        v.maxFrames v.steady block
  | .getExtension id => v.initialized = true ∨ id = some Plugin.extViolations
  | .onMainThread => 0 < v.callbacks ∧ OnMainThread p.host thread
  | .paramsFlush inEvents _ =>
    v.initialized = true ∧ LegalFlush (Plugin.declaredParams impl) inEvents ∧
      if v.active then OnAudioThread p.host thread else OnMainThread p.host thread
  | .audioPortsCount _ | .audioPortsGet _ _ | .notePortsCount _ | .notePortsGet _ _
  | .audioPortsConfigSelect _ | .canApplyConfiguration _ | .applyConfiguration _ =>
    v.initialized = true ∧ v.active = false ∧ OnMainThread p.host thread
  | .latencyGet | .voiceInfoGet => v.active = true ∧ OnMainThread p.host thread
  | .tailGet =>
    v.initialized = true ∧ (OnMainThread p.host thread ∨ OnAudioThread p.host thread)
  | .renderSet mode => v.initialized = true ∧ (mode = 0 ∨ mode = 1) ∧ OnMainThread p.host thread
  | .presetLoad _ kind location _ =>
    v.initialized = true ∧ (kind = Plugin.PresetLoad.locationFile → location.isSome) ∧
      (kind = Plugin.PresetLoad.locationPlugin → location = none) ∧ OnMainThread p.host thread
  | .getChannelMap isInput portIndex capacity =>
    v.initialized = true ∧
      (∀ channels, Plugin.Surround.portChannels impl p.self isInput portIndex = some channels →
        channels ≤ capacity) ∧ OnMainThread p.host thread
  | .guiCreate _ _ _ => v.initialized = true ∧ v.gui = none ∧ OnMainThread p.host thread
  | .guiDestroy => v.gui.isSome ∧ OnMainThread p.host thread
  | .gui method _ => v.initialized = true ∧ v.AllowsGui method ∧ OnMainThread p.host thread
  | .stateSave _ | .stateLoad _ | .isChannelMaskSupported _ | .query _ =>
    v.initialized = true ∧ OnMainThread p.host thread
  | .violationsClear | .uiEdit _ => True

/-- `on_main_thread()` answers every callback; the plugin may ask for another meanwhile. -/
def hear (v : HostView) (call : Call D S) (hostCalls : List HostCall) : HostView :=
  let answered := match call with
    | .onMainThread => 0
    | _ => v.callbacks
  { v with callbacks := answered + hostCalls.count .requestCallback }

/-- What the host makes of a result. -/
def learn (v : HostView) : Call D S → Result D S → HostView
  | .init earlyLog, _ => { v with initialized := true, early := v.early ++ earlyLog }
  | .activate _ minFrames maxFrames, .bool true =>
    { v with active := true, minFrames := minFrames, maxFrames := maxFrames }
  | .deactivate, _ => { v with active := false }
  | .startProcessing, .bool true => { v with processing := true, steady := none }
  | .stopProcessing, _ => { v with processing := false }
  | .reset, _ => { v with steady := none }
  | .process block _, _ =>
    { v with steady :=
        if block.steadyTime < 0 then none
        else some (block.steadyTime + block.framesCount.toNat) }
  | .guiCreate _ isFloating _, .bool true => { v with gui := some isFloating }
  | .guiDestroy, _ => { v with gui := none }
  | _, _ => v

end HostView

/-- The host that keeps the rules. -/
def legalHost (impl : PluginImpl D S σ) :
    Machine.Observer (Instance D σ) HostView (ThreadId × Call D S) (Reply D S) where
  allows i v l := ∃ p, i = .alive p ∧ v.Allows impl p l.1 l.2
  next v l reply := (v.hear l.2 reply.hostCalls).learn l.2 reply.result

/-! ## What the monitor has in common with the host -/

/-- The flags, bounds and counts of `m` are the host's. -/
structure HostView.Describes (v : HostView) (impl : PluginImpl D S σ) (m : ContractMonitor) :
    Prop where
  initialized : m.initialized = v.initialized
  active : m.active = v.active
  processing : m.processing = v.processing
  bounds : m.active = true → m.minFrames = v.minFrames ∧ m.maxFrames = v.maxFrames
  params : m.params = [] ∨ m.params = Plugin.declaredParams impl
  steady : m.steadyValid = true → v.steady = some m.steadyEnd
  callbacks : m.pendingCallbacks = UInt32.ofNat v.callbacks
  fewCallbacks : v.callbacks ≤ if v.initialized then 1 else 0
  gui : v.gui = if m.guiCreated then some m.guiFloating else none

/-- Nothing was counted, and only early lines are of severity HOST_MISBEHAVING. -/
structure Clean (early : List LogLine) (f : Findings) : Prop where
  counters : ∀ w, f.counters w = 0
  total : f.total = 0
  log : ∀ line ∈ f.log, line.isQuiet ∨ line ∈ early

structure Mirrors (impl : PluginImpl D S σ) (p : Plugin D σ) (v : HostView) : Prop where
  snapshot : Snapshot impl p.contract p.self
  describes : v.Describes impl p.contract
  threads : p.threads.hostCheck = none ∨
    p.threads.hostCheck = p.host.bind (·.threadCheck)
  clean : Clean v.early p.contract.findings

/-- `Mirrors`, and behind `destroy()` what is left of it. -/
def Tracks (impl : PluginImpl D S σ) (v : HostView) : Instance D σ → Prop
  | .alive p => Mirrors impl p v
  | .deleted contract => Clean v.early contract.findings

section Clean

variable {early : List LogLine} {f g : Findings}

theorem Clean.of_counted (h : Clean early f) (hc : Counted f g []) (hq : Quiet f g) :
    Clean early g := by
  refine ⟨fun w => ?_, ?_, fun line hl => ?_⟩
  · rw [hc.counters, bump_nil]
    exact h.counters w
  · rw [hc.total, h.total]
    rfl
  · rcases hq.mem hl with hl | hl
    · exact h.log line hl
    · exact .inl hl

end Clean

/-! ## The codes of an allowed call -/

section Codes

variable {impl : PluginImpl D S σ} {p : Plugin D σ} {v : HostView} {thread : ThreadId}

theorem Mirrors.onMain (h : Mirrors impl p v) (hm : OnMainThread p.host thread) :
    p.threads.confirmedNotMainThread thread = false := by
  unfold ThreadChecker.confirmedNotMainThread
  rcases h.threads with hnone | hhost
  · rw [hnone]
    rfl
  · rw [hhost]
    cases hcheck : p.host.bind (·.threadCheck) with
    | none => rfl
    | some check =>
      cases hmain : check.isMainThread with
      | none => rw [Option.bind_some, hmain]
      | some isMain =>
        rw [Option.bind_some, hmain]
        exact congrArg not (hm check hcheck isMain hmain)

theorem Mirrors.onAudio (h : Mirrors impl p v) (hm : OnAudioThread p.host thread) :
    p.threads.confirmedNotAudioThread thread = false := by
  unfold ThreadChecker.confirmedNotAudioThread
  rcases h.threads with hnone | hhost
  · rw [hnone]
    rfl
  · rw [hhost]
    cases hcheck : p.host.bind (·.threadCheck) with
    | none => rfl
    | some check =>
      cases haudio : check.isAudioThread with
      | none => rw [Option.bind_some, haudio]
      | some isAudio =>
        rw [Option.bind_some, haudio]
        exact congrArg not (hm check hcheck isAudio haudio)

theorem Mirrors.mainCodes (h : Mirrors impl p v) (hm : OnMainThread p.host thread) :
    p.mainCodes thread = [] := by
  rw [Plugin.mainCodes, h.onMain hm, if_neg Bool.false_ne_true]

theorem Mirrors.audioCodes (h : Mirrors impl p v) (hm : OnAudioThread p.host thread) :
    p.audioCodes thread = [] := by
  rw [Plugin.audioCodes, h.onAudio hm, if_neg Bool.false_ne_true]

/-- The thread finding and the one finding of a trampoline. -/
theorem mainCode_nil (h : Mirrors impl p v) (hm : OnMainThread p.host thread) {b : Bool}
    (hb : b = false) (w : Violation) : p.mainCodes thread ++ Plugin.codeIf b w = [] := by
  rw [h.mainCodes hm, hb]
  rfl

theorem Mirrors.guiBroken (h : Mirrors impl p v) {method : GuiMethod D}
    (hm : v.AllowsGui method) : Plugin.Gui.broken p method = none := by
  have hgui := h.describes.gui
  unfold HostView.AllowsGui at hm
  unfold Plugin.Gui.broken
  generalize Plugin.Gui.rule method = rule at hm ⊢
  obtain ⟨needsGui, window, function⟩ := rule
  cases needsGui <;> cases window <;> cases hc : p.contract.guiCreated <;>
    cases hf : p.contract.guiFloating <;> simp_all

theorem plainCodes_nil (h : Mirrors impl p v) {call : Call D S} (hplain : call.isPlain = true)
    (ha : v.Allows impl p thread call) : Plugin.plainCodes impl p thread call = [] := by
  have hactive := h.describes.active
  have hidle : (p.contract.active && !p.contract.beingActivated) = p.contract.active := by
    rw [h.snapshot.beingActivated]
    exact Bool.and_true _
  cases call with
  | getExtension id =>
    have hasks : p.asksTooEarly id = false := by
      unfold Plugin.asksTooEarly
      rcases ha with hinit | rfl
      · rw [h.describes.initialized, hinit]
        rfl
      · exact Bool.and_false _
    rw [Plugin.plainCodes, hasks]
    rfl
  | paramsFlush inEvents hasOutEvents =>
    obtain ⟨-, hflush, hthread⟩ := ha
    have hwrong : p.flushOnWrongThread thread = false := by
      unfold Plugin.flushOnWrongThread
      rw [hactive]
      cases hv : v.active with
      | true =>
        rw [hv] at hthread
        exact h.onAudio hthread
      | false =>
        rw [hv] at hthread
        exact h.onMain hthread
    rw [Plugin.plainCodes, h.snapshot.inProcess, hwrong,
      flushFindings_nil h.describes.params hflush]
    rfl
  | audioPortsCount isInput =>
    exact mainCode_nil h ha.2.2 (by rw [hidle, hactive, ha.2.1]) .AP01
  | audioPortsGet index isInput =>
    exact mainCode_nil h ha.2.2 (by rw [hidle, hactive, ha.2.1]) .AP01
  | notePortsCount isInput =>
    exact mainCode_nil h ha.2.2 (by rw [hidle, hactive, ha.2.1]) .NP01
  | notePortsGet index isInput =>
    exact mainCode_nil h ha.2.2 (by rw [hidle, hactive, ha.2.1]) .NP01
  | audioPortsConfigSelect configId =>
    exact mainCode_nil h ha.2.2 (hactive.trans ha.2.1) .AC01
  | canApplyConfiguration requests =>
    exact mainCode_nil h ha.2.2 (hactive.trans ha.2.1) .CA01
  | applyConfiguration requests =>
    exact mainCode_nil h ha.2.2 (hactive.trans ha.2.1) .CA01
  | latencyGet => exact mainCode_nil h ha.2 (by rw [hactive, ha.1]; rfl) .LT01
  | voiceInfoGet => exact mainCode_nil h ha.2 (by rw [hactive, ha.1]; rfl) .VI01
  | tailGet =>
    have hthread : (p.threads.confirmedNotMainThread thread &&
        p.threads.confirmedNotAudioThread thread) = false := by
      rcases ha.2 with hm | hm
      · rw [h.onMain hm]
        rfl
      · rw [h.onAudio hm]
        exact Bool.and_false _
    rw [Plugin.plainCodes, hthread]
    rfl
  | renderSet mode =>
    exact mainCode_nil h ha.2.2 (by rcases ha.2.1 with rfl | rfl <;> rfl) .R01
  | presetLoad files kind location loadKey =>
    obtain ⟨-, hfile, hplugin, hm⟩ := ha
    refine mainCode_nil h hm (decide_eq_false ?_) .PL01
    rintro (⟨hk, hl⟩ | ⟨hk, hl⟩)
    · rw [hl] at hfile
      cases hfile hk
    · rw [hplugin hk] at hl
      cases hl
  | getChannelMap isInput portIndex capacity =>
    obtain ⟨-, hcapacity, hm⟩ := ha
    refine mainCode_nil h hm ?_ .SR01
    unfold Plugin.mapTooSmall
    split
    · exact decide_eq_false (not_lt.mpr (hcapacity _ ‹_›))
    · rfl
  | gui method native =>
    rw [Plugin.plainCodes, h.mainCodes ha.2.2, h.guiBroken ha.2.1]
    rfl
  | uiEdit edit => rfl
  | stateSave stream => exact h.mainCodes ha.2
  | stateLoad stream => exact h.mainCodes ha.2
  | isChannelMaskSupported channelMask => exact h.mainCodes ha.2
  | query function => exact h.mainCodes ha.2
  | _ => cases hplain

end Codes

/-! ## The calls, one by one -/

/-- What is to show of a call: the host hears what it was asked meanwhile, and the result. -/
def Hears (impl : PluginImpl D S σ) (v : HostView) (call : Call D S)
    (r : Instance D σ × Result D S) : Prop :=
  ∀ hostCalls, (∀ q, r.1 = .alive q → hostCalls = q.hostCalls) →
    Tracks impl ((v.hear call hostCalls).learn call r.2) r.1

theorem describes_tracked {impl : PluginImpl D S σ} {v : HostView} {m : ContractMonitor} :
    v.Describes impl m.tracked ↔ v.Describes impl m :=
  ⟨fun h => ⟨h.1, h.2, h.3, h.4, h.5, h.6, h.7, h.8, h.9⟩,
    fun h => ⟨h.1, h.2, h.3, h.4, h.5, h.6, h.7, h.8, h.9⟩⟩

/-- The baseline of the monitor and the host's, behind a block. -/
theorem describes_rebased {steady : Option Int} {block : ProcessBlock D}
    {ports : Bool → List PortLayout} {params : List ParamRecord} {minFrames maxFrames : Nat}
    {m : ContractMonitor}
    (hb : LegalBlock ports params minFrames maxFrames steady block) :
    (Plugin.rebased block m).steadyValid = true →
      (if block.steadyTime < 0 then none
        else some (block.steadyTime + block.framesCount.toNat)) =
      some (Plugin.rebased block m).steadyEnd := by
  unfold Plugin.rebased ContractMonitor.checkSteadyTime
  split
  · exact nofun
  · intro _
    rename_i hpos
    have hfar : block.steadyTime + block.framesCount.toNat < 2 ^ 63 := by
      rcases hb.steadyTime with h | h
      · omega
      · exact h.2.1
    show some _ = some (ContractMonitor.wrapInt64 _)
    rw [ContractMonitor.wrapInt64]
    congr 1
    omega

section Calls

variable [DoubleOps D] {impl : PluginImpl D S σ} {p : Plugin D σ} {v : HostView}
  {thread : ThreadId}

/-- A call whose only trace in the monitor is `f`. -/
theorem hears_of_steps {q : Plugin D σ} {call : Call D S} {result : Result D S}
    {f : ContractMonitor → ContractMonitor} (ht : Tame impl) (h : Mirrors impl p v)
    (hcalls : p.hostCalls = [])
    (hcall : Plugin.call impl p thread call = .ok (.alive q, result))
    (hs : Plugin.Steps impl p q [] f)
    (hlearn : ((v.hear call []).learn call result).Describes impl (f p.contract.tracked))
    (hearly : ((v.hear call []).learn call result).early = v.early) :
    Hears impl v call (.alive q, result) := by
  intro hostCalls hq
  have hunasked : hostCalls.count .requestCallback = 0 := by
    have hcount : q.hostCalls.count .requestCallback = p.hostCalls.count .requestCallback :=
      hs.unasked
    rw [hq q rfl, hcount, hcalls]
    rfl
  have hheard : v.hear call hostCalls = v.hear call [] := by
    unfold HostView.hear
    rw [hunasked]
    rfl
  rw [hheard]
  refine ⟨Plugin.snapshot_call ht h.snapshot thread call _ hcall q rfl, ?_, ?_, ?_⟩
  · rw [← hs.tracked] at hlearn
    exact describes_tracked.mp hlearn
  · rw [hs.threads, hs.host]
    exact h.threads
  · rw [hearly]
    exact h.clean.of_counted hs.counts (hs.quiet rfl)

theorem hears_init (ht : Tame impl) (h : Mirrors impl p v) (hcalls : p.hostCalls = [])
    {earlyLog : List LogLine} (ha : v.Allows impl p thread (.init earlyLog : Call D S)) :
    Hears impl v (.init earlyLog : Call D S)
      (.alive (p.sInit impl thread earlyLog).1, .bool (p.sInit impl thread earlyLog).2) := by
  obtain ⟨hinit, hm⟩ := ha
  have hd := describes_tracked.mpr h.describes
  obtain ⟨n, hn, hshift, hcount, hports, -, hlog⟩ :=
    Plugin.sInit_first ht (h.describes.initialized.trans hinit) thread earlyLog
  have hnone : v.callbacks = 0 := by
    have hfew := h.describes.fewCallbacks
    rw [hinit] at hfew
    exact Nat.le_zero.mp hfew
  have hcodes := hshift.counts
  rw [h.mainCodes hm] at hcodes
  intro hostCalls hq
  have hasked : hostCalls.count .requestCallback = n := by
    rw [hq _ rfl]
    refine hcount.trans ?_
    rw [Plugin.callbackCalls, hcalls]
    exact Nat.zero_add n
  have hcallbacks : (v.hear (.init earlyLog : Call D S) hostCalls).callbacks = n := by
    show v.callbacks + hostCalls.count .requestCallback = n
    rw [hnone, hasked, Nat.zero_add]
  refine ⟨Plugin.snapshot_call ht h.snapshot thread (.init earlyLog) _ rfl _ rfl, ?_, ?_, ?_⟩
  · rw [← describes_tracked, hshift.tracked]
    refine ⟨rfl, hd.active, hd.processing, hd.bounds, hd.params, hd.steady, ?_, ?_, hd.gui⟩
    · show p.contract.pendingCallbacks + UInt32.ofNat n = UInt32.ofNat _
      rw [h.describes.callbacks, hnone]
      exact (UInt32.zero_add _).trans (congrArg UInt32.ofNat hcallbacks.symm)
    · exact (le_of_eq hcallbacks).trans hn
  · rw [hshift.threads, hshift.host]
    unfold Plugin.withThreads ThreadChecker.onInit
    dsimp only
    cases hhost : p.host with
    | none =>
      have hthreads := h.threads
      rw [hhost] at hthreads
      exact .inl (hthreads.elim id id)
    | some host => exact .inr rfl
  · refine ⟨fun w => ?_, ?_, fun line hl => ?_⟩
    · rw [hcodes.counters, bump_nil]
      exact h.clean.counters w
    · rw [hcodes.total]
      exact (UInt32.add_zero _).trans h.clean.total
    · rw [show ((v.hear (.init earlyLog : Call D S) hostCalls).learn (.init earlyLog) _).early =
        v.early ++ earlyLog from rfl, List.mem_append]
      rcases hlog (h.mainCodes hm) line hl with hl | hl | hl
      · exact (h.clean.log line hl).imp_right .inl
      · exact .inl hl
      · exact .inr (.inr hl)

theorem hears_activate (ht : Tame impl) (h : Mirrors impl p v)
    (hcalls : p.hostCalls = []) {sampleRate : D} {minFrames maxFrames : Nat}
    (ha : v.Allows impl p thread (.activate sampleRate minFrames maxFrames : Call D S)) :
    Hears impl v (.activate sampleRate minFrames maxFrames : Call D S)
      (.alive (p.sActivate impl thread sampleRate minFrames maxFrames).1,
        .bool (p.sActivate impl thread sampleRate minFrames maxFrames).2) := by
  obtain ⟨-, hinactive, hbounds, hm⟩ := ha
  have hd := describes_tracked.mpr h.describes
  have hgood : Plugin.badBounds minFrames maxFrames = false :=
    decide_eq_false (by omega : ¬ (minFrames < 1 ∨ maxFrames < minFrames))
  have hoff := h.describes.active.trans hinactive
  obtain ⟨hsteps, hv⟩ :=
    Plugin.sActivate_inactive ht hoff thread sampleRate minFrames maxFrames
  rw [hgood, h.mainCodes hm, Plugin.clampBounds_of_good hgood] at hsteps
  have hcall : Plugin.call impl p thread (.activate sampleRate minFrames maxFrames : Call D S) =
      .ok (.alive (p.sActivate impl thread sampleRate minFrames maxFrames).1, .bool true) := by
    show Except.ok (_, Result.bool _) = _
    rw [hv]
  rw [hv]
  exact hears_of_steps ht h hcalls hcall hsteps
    ⟨hd.initialized, rfl, hd.processing, fun _ => ⟨rfl, rfl⟩, .inr rfl, hd.steady, hd.callbacks,
      hd.fewCallbacks, hd.gui⟩ rfl

theorem hears_deactivate (ht : Tame impl) (h : Mirrors impl p v) (hcalls : p.hostCalls = [])
    (ha : v.Allows impl p thread (.deactivate : Call D S)) :
    Hears impl v (.deactivate : Call D S) (.alive (p.sDeactivate impl thread), .void) := by
  obtain ⟨hactive, hidle, hm⟩ := ha
  have hd := describes_tracked.mpr h.describes
  have hsteps := Plugin.sDeactivate_active ht (h.describes.active.trans hactive) thread
  rw [h.describes.processing, hidle, h.mainCodes hm] at hsteps
  exact hears_of_steps ht h hcalls rfl hsteps
    ⟨hd.initialized, rfl, hidle.symm, nofun, hd.params, hd.steady, hd.callbacks, hd.fewCallbacks,
      hd.gui⟩ rfl

theorem hears_startProcessing (ht : Tame impl) (h : Mirrors impl p v) (hcalls : p.hostCalls = [])
    (ha : v.Allows impl p thread (.startProcessing : Call D S)) :
    Hears impl v (.startProcessing : Call D S)
      (.alive (p.sStartProcessing impl thread).1, .bool (p.sStartProcessing impl thread).2) := by
  obtain ⟨hactive, hidle, hm⟩ := ha
  have hd := describes_tracked.mpr h.describes
  obtain ⟨hsteps, hv⟩ := Plugin.sStartProcessing_active ht (h.describes.active.trans hactive)
    (h.describes.processing.trans hidle) thread
  rw [h.audioCodes hm] at hsteps
  have hcall : Plugin.call impl p thread (.startProcessing : Call D S) =
      .ok (.alive (p.sStartProcessing impl thread).1, .bool true) := by
    show Except.ok (_, Result.bool _) = _
    rw [hv]
  rw [hv]
  exact hears_of_steps ht h hcalls hcall hsteps
    ⟨hd.initialized, hd.active, rfl, hd.bounds, hd.params, nofun, hd.callbacks, hd.fewCallbacks,
      hd.gui⟩ rfl

theorem hears_stopProcessing (ht : Tame impl) (h : Mirrors impl p v) (hcalls : p.hostCalls = [])
    (ha : v.Allows impl p thread (.stopProcessing : Call D S)) :
    Hears impl v (.stopProcessing : Call D S)
      (.alive (p.sStopProcessing impl thread), .void) := by
  obtain ⟨hprocessing, hm⟩ := ha
  have hd := describes_tracked.mpr h.describes
  have hp := h.describes.processing.trans hprocessing
  have hsteps := Plugin.sStopProcessing_processing ht hp thread
  rw [h.snapshot.processing_active hp, h.audioCodes hm] at hsteps
  exact hears_of_steps ht h hcalls rfl hsteps
    ⟨hd.initialized, hd.active, rfl, hd.bounds, hd.params, hd.steady, hd.callbacks,
      hd.fewCallbacks, hd.gui⟩ rfl

theorem hears_reset (ht : Tame impl) (h : Mirrors impl p v) (hcalls : p.hostCalls = [])
    (ha : v.Allows impl p thread (.reset : Call D S)) :
    Hears impl v (.reset : Call D S) (.alive (p.sReset impl thread), .void) := by
  obtain ⟨hactive, hm⟩ := ha
  have hd := describes_tracked.mpr h.describes
  have hsteps := Plugin.sReset_steps (p := p) ht thread
  rw [h.describes.active, hactive, h.audioCodes hm] at hsteps
  exact hears_of_steps ht h hcalls rfl hsteps
    ⟨hd.initialized, hd.active, hd.processing, hd.bounds, hd.params, nofun, hd.callbacks,
      hd.fewCallbacks, hd.gui⟩ rfl

theorem hears_onMainThread (ht : Tame impl) (h : Mirrors impl p v) (hcalls : p.hostCalls = [])
    (ha : v.Allows impl p thread (.onMainThread : Call D S)) :
    Hears impl v (.onMainThread : Call D S) (.alive (p.sOnMainThread impl thread), .void) := by
  obtain ⟨hpending, hm⟩ := ha
  have hd := describes_tracked.mpr h.describes
  have hone : v.callbacks = 1 := by
    have hfew := h.describes.fewCallbacks
    split at hfew <;> omega
  have hsteps := Plugin.sOnMainThread_steps (p := p) ht thread
  rw [h.describes.callbacks, hone, h.mainCodes hm] at hsteps
  exact hears_of_steps ht h hcalls rfl hsteps
    ⟨hd.initialized, hd.active, hd.processing, hd.bounds, hd.params, hd.steady, rfl,
      Nat.zero_le _, hd.gui⟩ rfl

theorem hears_process (ht : Tame impl) (h : Mirrors impl p v) (hcalls : p.hostCalls = [])
    {block : ProcessBlock D} {memory : AudioMemory D S}
    (ha : v.Allows impl p thread (.process block memory)) :
    Yields (Plugin.call impl p thread (.process block memory))
      (Hears impl v (.process block memory)) := by
  obtain ⟨hprocessing, hm, hlegal⟩ := ha
  have hd := describes_tracked.mpr h.describes
  have hs := h.snapshot
  have hp := h.describes.processing.trans hprocessing
  have hactive := hs.processing_active hp
  have hcodes : Plugin.blockCodes p.contract block = [] := by
    obtain ⟨hlo, hhi⟩ := h.describes.bounds hactive
    rw [← hlo, ← hhi] at hlegal
    rw [Plugin.blockCodes, blockFindings_nil hlegal (hs.inputPorts hactive)
      (hs.outputPorts hactive) (hs.params hactive) h.describes.steady]
    rfl
  have hready : (p.contract.active && p.contract.processing) = true := by
    rw [hactive, hp]
    rfl
  intro r hcall
  obtain ⟨r, hr, hret⟩ := Except.bind_eq_ok hcall
  cases hret
  have hsteps := Plugin.sProcess_ready ht hs.inProcess hready thread block memory r hr
  rw [h.audioCodes hm, hcodes] at hsteps
  refine hears_of_steps ht h hcalls hcall hsteps ?_ rfl
  have hsteady := describes_rebased (m := p.contract.tracked) hlegal
  obtain ⟨valid, steadyEnd, hreb⟩ := Plugin.rebased_eq block p.contract.tracked
  rw [hreb] at hsteady ⊢
  exact ⟨hd.initialized, hd.active, hd.processing, hd.bounds, hd.params, hsteady, hd.callbacks,
    hd.fewCallbacks, hd.gui⟩

theorem hears_guiCreate (ht : Tame impl) (h : Mirrors impl p v) (hcalls : p.hostCalls = [])
    {api : Option String} {isFloating : Bool} {native : NativeAnswer}
    (ha : v.Allows impl p thread (.guiCreate api isFloating native : Call D S)) :
    Yields (Plugin.call impl p thread (.guiCreate api isFloating native : Call D S))
      (Hears impl v (.guiCreate api isFloating native)) := by
  obtain ⟨-, hnone, hm⟩ := ha
  have hd := describes_tracked.mpr h.describes
  have hclosed : p.contract.guiCreated = false := by
    have hgui := h.describes.gui
    rw [hnone] at hgui
    cases hc : p.contract.guiCreated with
    | false => rfl
    | true =>
      rw [hc] at hgui
      cases hgui
  intro r hcall
  obtain ⟨⟨q, made⟩, hr, hret⟩ := Except.bind_eq_ok hcall
  cases hret
  have hsteps := Plugin.guiCreate_first ht hclosed thread api isFloating native _ hr
  rw [h.mainCodes hm] at hsteps
  cases made with
  | false => exact hears_of_steps ht h hcalls hcall hsteps hd rfl
  | true =>
    exact hears_of_steps ht h hcalls hcall hsteps
      ⟨hd.initialized, hd.active, hd.processing, hd.bounds, hd.params, hd.steady, hd.callbacks,
        hd.fewCallbacks, rfl⟩ rfl

theorem hears_guiDestroy (ht : Tame impl) (h : Mirrors impl p v) (hcalls : p.hostCalls = [])
    (ha : v.Allows impl p thread (.guiDestroy : Call D S)) :
    Yields (Plugin.call impl p thread (.guiDestroy : Call D S)) (Hears impl v .guiDestroy) := by
  obtain ⟨hsome, hm⟩ := ha
  have hd := describes_tracked.mpr h.describes
  have hopen : p.contract.guiCreated = true := by
    have hgui := h.describes.gui
    cases hc : p.contract.guiCreated with
    | true => rfl
    | false =>
      rw [hc] at hgui
      rw [hgui] at hsome
      cases hsome
  intro r hcall
  obtain ⟨q, hq, hret⟩ := Except.bind_eq_ok hcall
  cases hret
  have hsteps := Plugin.guiDestroy_steps ht thread q hq
  rw [h.mainCodes hm, hopen] at hsteps
  exact hears_of_steps ht h hcalls hcall hsteps
    ⟨hd.initialized, hd.active, hd.processing, hd.bounds, hd.params, hd.steady, hd.callbacks,
      hd.fewCallbacks, rfl⟩ rfl

omit [DoubleOps D] in
theorem hears_destroy (h : Mirrors impl p v)
    (ha : v.Allows impl p thread (.destroy : Call D S)) :
    Hears impl v (.destroy : Call D S) (.deleted (p.sDestroy thread).contract, .void) := by
  obtain ⟨hinactive, hm⟩ := ha
  have hcodes := (Plugin.sDestroy_shifts p thread).counts
  have hnil := mainCode_nil h hm (h.describes.active.trans hinactive) .L06
  rw [hnil] at hcodes
  exact fun hostCalls _ => h.clean.of_counted hcodes (Plugin.sDestroy_quiet hnil h.clean.total)

omit [DoubleOps D] in
theorem hears_violationsClear (h : Mirrors impl p v) (hcalls : p.hostCalls = []) :
    Hears impl v (.violationsClear : Call D S) (.alive p.violationsClear, .void) := by
  intro hostCalls hq
  obtain rfl : hostCalls = [] := (hq _ rfl).trans hcalls
  have hs := h.snapshot
  have hd := h.describes
  exact ⟨⟨hs.1, hs.2, hs.3, hs.4, hs.5, hs.6, hs.7⟩,
    ⟨hd.1, hd.2, hd.3, hd.4, hd.5, hd.6, hd.7, hd.8, hd.9⟩, h.threads,
    ⟨fun _ => rfl, rfl, h.clean.log⟩⟩

/-- A plain call changes nothing of what the two have in common. -/
theorem hears_plain (ht : Tame impl) (h : Mirrors impl p v)
    (hcalls : p.hostCalls = []) {call : Call D S} (hplain : call.isPlain = true)
    (ha : v.Allows impl p thread call) :
    Yields (Plugin.call impl p thread call) (Hears impl v call) := by
  have hd := describes_tracked.mpr h.describes
  intro r hr
  obtain ⟨q, hq, hsteps⟩ := Plugin.call_plain ht thread hplain r hr
  rw [plainCodes_nil h hplain ha] at hsteps
  obtain ⟨i, result⟩ := r
  cases hq
  refine hears_of_steps ht h hcalls hr hsteps ?_ ?_
  · cases call <;> first | exact hd | cases hplain
  · cases call <;> first | rfl | cases hplain

/-- Every allowed call. -/
theorem hears_call (ht : Tame impl) (h : Mirrors impl p v)
    (hcalls : p.hostCalls = []) {call : Call D S} (ha : v.Allows impl p thread call) :
    Yields (Plugin.call impl p thread call) (Hears impl v call) := by
  by_cases hplain : call.isPlain = true
  · exact hears_plain ht h hcalls hplain ha
  · cases call with
    | init earlyLog => exact Yields.of_ok (hears_init ht h hcalls ha)
    | destroy => exact Yields.of_ok (hears_destroy h ha)
    | activate sampleRate minFrames maxFrames =>
      exact Yields.of_ok (hears_activate ht h hcalls ha)
    | deactivate => exact Yields.of_ok (hears_deactivate ht h hcalls ha)
    | startProcessing => exact Yields.of_ok (hears_startProcessing ht h hcalls ha)
    | stopProcessing => exact Yields.of_ok (hears_stopProcessing ht h hcalls ha)
    | reset => exact Yields.of_ok (hears_reset ht h hcalls ha)
    | onMainThread => exact Yields.of_ok (hears_onMainThread ht h hcalls ha)
    | process block memory => exact hears_process ht h hcalls ha
    | guiCreate api isFloating native => exact hears_guiCreate ht h hcalls ha
    | guiDestroy => exact hears_guiDestroy ht h hcalls ha
    | violationsClear => exact Yields.of_ok (hears_violationsClear h hcalls)
    | _ => exact absurd rfl hplain

end Calls

/-! ## Runs -/

section Runs

variable [DoubleOps D]

theorem tracks_step {impl : PluginImpl D S σ} (ht : Tame impl) (i : Instance D σ) (v : HostView)
    (l : ThreadId × Call D S) (i' : Instance D σ) (o : Reply D S) (h : Tracks impl v i)
    (ha : (legalHost impl).allows i v l) (hs : hostStep impl i l = .ok (i', o)) :
    Tracks impl ((legalHost impl).next v l o) i' := by
  obtain ⟨p, rfl, ha⟩ := ha
  obtain ⟨p', hp', hcall, hcalls⟩ := hostStep_ok hs
  cases hp'
  have h0 : Mirrors impl { p with hostCalls := [] } v :=
    ⟨h.snapshot, h.describes, h.threads, h.clean⟩
  have hallows : v.Allows impl { p with hostCalls := [] } l.1 l.2 := by
    cases l with
    | mk thread call => cases call <;> exact ha
  exact hears_call ht h0 rfl hallows _ hcall o.hostCalls hcalls

variable [FloatOps S] [FloatCast D S] [DoubleBits D]

theorem tracks_instantiate (flavor : Flavor) (host : Option Host) :
    Tracks (flavor.impl : PluginImpl D S _) {} (.alive (flavor.instantiate S host)) :=
  ⟨Plugin.snapshot_create host,
    ⟨rfl, rfl, rfl, nofun, .inl rfl, nofun, rfl, Nat.le_refl 0, rfl⟩, .inl rfl,
    ⟨fun _ => rfl, rfl, fun _ hl => absurd hl List.not_mem_nil⟩⟩

/-- Along every run in which the host keeps the rules nothing is counted, in any flavor, and no
    line but those of the early log is of severity HOST_MISBEHAVING. -/
theorem legalRun_clean {flavor : Flavor} {host : Option Host}
    {calls : List (ThreadId × Call D S)} {i : Instance D (flavor.State D S)} {v : HostView}
    (h : Machine.ObservedRun (hostStep flavor.impl) (legalHost flavor.impl)
      (.alive (flavor.instantiate S host)) {} calls i v) :
    i.contract.total = 0 ∧ (∀ w, i.contract.counter w = 0) ∧
      ∀ line ∈ i.contract.findings.log, line.severity = .hostMisbehaving → line ∈ v.early := by
  have htracks : Tracks (flavor.impl : PluginImpl D S _) v i :=
    h.invariant (R := fun i v => Tracks (flavor.impl : PluginImpl D S _) v i)
      (fun i v l i' o => tracks_step flavor.tame i v l i' o) (tracks_instantiate flavor host)
  have hclean : Clean v.early i.contract.findings := by
    cases i with
    | alive p => exact htracks.clean
    | deleted contract => exact htracks
  exact ⟨hclean.total, hclean.counters, fun line hl hs => (hclean.log line hl).resolve_left
    fun hq => hq hs⟩

end Runs

/-- Four stereo frames with a Gain event, at the start of the song. -/
def gainBlock : ProcessBlock ExactFloat :=
  { steadyTime := 0
    framesCount := 4
    audioInputs := [{ channelCount := 2, data32 := some [0, 1] }]
    audioOutputs := [{ channelCount := 2, data32 := some [2, 3] }]
    inEvents := some (InputEvents.ofList
      [{ size := sizeofParamValue, time := 3
         body := .paramValue { paramId := EffectPlugin.kParamGain } 6 }]) }

theorem gainBlock_legal (s : EffectPlugin.State ExactFloat) :
    LegalBlock
      (Plugin.declaredPorts (EffectPlugin.impl : PluginImpl ExactFloat ExactFloat _) s)
      (Plugin.declaredParams (EffectPlugin.impl : PluginImpl ExactFloat ExactFloat _)) 1 64 none
      gainBlock := by
  refine ⟨by decide, .inr ⟨by decide, by decide, nofun⟩, ?_, fun _ => ⟨false, ?_⟩, ?_⟩
  · intro isInput
    cases isInput
    · exact .cons ⟨rfl, .inl rfl, nofun⟩ .nil
    · exact .cons ⟨rfl, .inl rfl, nofun⟩ .nil
  · intro isInput buffer hmem
    cases isInput <;> (rw [List.mem_singleton.mp hmem]; rfl)
  · refine ⟨_, rfl, List.pairwise_singleton _ _, ?_⟩
    intro e he
    rw [List.mem_singleton.mp he]
    refine ⟨⟨by decide, by decide⟩, fun _ => ⟨⟨_, List.mem_cons_self, rfl⟩, ?_⟩⟩
    intro param hparam hid
    rcases List.mem_cons.mp hparam with rfl | hparam
    · exact ⟨.inl rfl, rfl, fun _ => rfl⟩
    · rcases List.mem_cons.mp hparam with rfl | hparam
      · cases hid
      · rw [List.mem_singleton.mp hparam] at hid
        cases hid

/-- `init()`, `activate()`, `start_processing()` and one block. -/
def gainCalls : List (ThreadId × Call ExactFloat ExactFloat) :=
  [(0, .init []), (0, .activate 48000 1 64), (0, .startProcessing),
    (0, .process gainBlock { f32 := fun _ _ => 0, f64 := fun _ _ => 0 })]

theorem legalRun_clean_gainCalls :
    ∃ i v, Machine.ObservedRun (hostStep Flavor.effect.impl) (legalHost Flavor.effect.impl)
        (.alive (Flavor.effect.instantiate ExactFloat none)) {} gainCalls i v ∧
      i.contract.total = 0 := by
  have hrun : ∃ i v, Machine.ObservedRun (hostStep Flavor.effect.impl)
      (legalHost Flavor.effect.impl) (.alive (Flavor.effect.instantiate ExactFloat none)) {}
      gainCalls i v :=
    ⟨_, _, .cons ⟨_, rfl, rfl, nofun⟩ rfl
      (.cons ⟨_, rfl, rfl, rfl, by decide, nofun⟩ rfl
      (.cons ⟨_, rfl, rfl, rfl, nofun⟩ rfl
      (.cons ⟨_, rfl, rfl, nofun, gainBlock_legal _⟩ rfl (.nil _ _))))⟩
  obtain ⟨i, v, hrun⟩ := hrun
  exact ⟨i, v, hrun, (legalRun_clean hrun).1⟩

end Cvp
