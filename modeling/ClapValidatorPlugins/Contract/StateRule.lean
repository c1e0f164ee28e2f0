/-
  What a call does to the flavor's own state. A trampoline reports, logs and forwards; the state is
  changed by the virtual methods alone. So a relation that every method keeps (`StateRule`), every
  call keeps (`call_self`).
-/
import ClapValidatorPlugins.Contract.LogGrowth
import ClapValidatorPlugins.Events.Calls

namespace Cvp

variable {D S σ : Type}

/-- `R call s s'` holds of what each virtual method of the flavor makes of its state, and of calls
    that do not reach the flavor. A provider that the flavor lacks has nothing to show. -/
structure StateRule (impl : PluginImpl D S σ) (R : Call D S → σ → σ → Prop) : Prop where
  unreached : ∀ call s, R call s s
  init : ∀ base s early, R (.init early) s (impl.init base s).self
  activate : ∀ base s rate rate' lo hi lo' hi',
    R (.activate rate lo hi) s (impl.activate base s rate' lo' hi').self
  deactivate : ∀ base s, R .deactivate s (impl.deactivate base s).self
  stopAndDeactivate : ∀ base base' s,
    R .deactivate s (impl.deactivate base' (impl.stopProcessing base s).self).self
  startProcessing : ∀ base s, R .startProcessing s (impl.startProcessing base s).self
  stopProcessing : ∀ base s, R .stopProcessing s (impl.stopProcessing base s).self
  reset : ∀ base s, R .reset s (impl.reset base s).self
  onMainThread : ∀ base s, R .onMainThread s (impl.onMainThread base s).self
  process : ∀ base s block memory,
    Yields (impl.process base s block memory) fun r => R (.process block memory) s r.1.self
  paramsFlush : ∀ params ∈ impl.params, ∀ base s events hasOut,
    Yields (params.paramsFlush base s events hasOut) fun out =>
      R (.paramsFlush events hasOut) s out.self := by rintro _ ⟨⟩
  stateSave : ∀ state ∈ impl.state, ∀ s stream,
    Yields (state.stateSave s stream) fun r => R (.stateSave stream) s r.1.self := by rintro _ ⟨⟩
  stateLoad : ∀ state ∈ impl.state, ∀ s stream,
    Yields (state.stateLoad s stream) fun r => R (.stateLoad stream) s r.1.self := by rintro _ ⟨⟩
  configSelect : ∀ config ∈ impl.audioPortsConfig, ∀ base s id,
    R (.audioPortsConfigSelect id) s (config.audioPortsConfigSelect base s id).self := by
    rintro _ ⟨⟩
  canApply : ∀ config ∈ impl.configurableAudioPorts, ∀ base s requests,
    R (.canApplyConfiguration requests) s (config.canApplyConfiguration base s requests).self := by
    rintro _ ⟨⟩
  apply : ∀ config ∈ impl.configurableAudioPorts, ∀ base s requests,
    R (.applyConfiguration requests) s (config.applyConfiguration base s requests).self := by
    rintro _ ⟨⟩
  renderSet : ∀ render ∈ impl.render, ∀ s mode,
    R (.renderSet mode) s (render.renderSet s mode).self := by rintro _ ⟨⟩
  presetLoad : ∀ preset ∈ impl.presetLoad, ∀ base s files kind location loadKey,
    R (.presetLoad files kind location loadKey) s
      (preset.presetLoadFromLocation base s files kind location loadKey).self := by rintro _ ⟨⟩
  channelMask : ∀ surround ∈ impl.surround, ∀ s mask,
    R (.isChannelMaskSupported mask) s (surround.surroundIsChannelMaskSupported s mask).self := by
    rintro _ ⟨⟩
  channelMap : ∀ surround ∈ impl.surround, ∀ s isInput port capacity,
    R (.getChannelMap isInput port capacity) s
      (surround.surroundChannelMap s isInput port capacity).self := by rintro _ ⟨⟩
  guiCreate : ∀ gui ∈ impl.gui, ∀ s api isFloating native,
    R (.guiCreate api isFloating native) s (gui.guiCreate s api isFloating native).self := by
    rintro _ ⟨⟩
  guiDestroy : ∀ gui ∈ impl.gui, ∀ s, R .guiDestroy s (gui.guiDestroy s).self := by rintro _ ⟨⟩
  guiMethod : ∀ gui ∈ impl.gui, ∀ s method native,
    R (.gui method native) s (gui.guiMethod s method native).self := by rintro _ ⟨⟩
  uiEdit : ∀ base s edit out, impl.uiEdit base s edit = some out → R (.uiEdit edit) s out.self := by
    rintro base s edit _ ⟨⟩

namespace Plugin

variable {impl : PluginImpl D S σ} {R : Call D S → σ → σ → Prop} {p : Plugin D σ}

section Rules

variable (h : StateRule impl R)
include h

omit h in
/-- The first `init()` is the flavor's, a later one does not reach it. -/
theorem sInit_self (thread : ThreadId) (earlyLog : List LogLine) :
    (p.sInit impl thread earlyLog).1.self =
      if p.contract.initialized then p.self
      else (impl.init (p.enterInit thread earlyLog).base p.self).self := by
  let q := p.enterInit thread earlyLog
  have he : p.sInit impl thread earlyLog =
      if (p.assertMainThread thread "sInit").contract.initialized then
        ((p.assertMainThread thread "sInit").report .L02 "init()"
          "called twice on the same instance", true)
      else (q.absorb (impl.init q.base q.self), (impl.init q.base q.self).value) := rfl
  have hinit : (p.assertMainThread thread "sInit").contract.initialized = p.contract.initialized :=
    (moves_assertMainThread p thread "sInit").field ContractMonitor.initialized fun _ => rfl
  rw [he, hinit]
  split
  · rfl
  · rw [absorb_self, ← enterInit_self p thread earlyLog]

theorem rule_sInit (thread : ThreadId) (earlyLog : List LogLine) :
    R (.init earlyLog) p.self (p.sInit impl thread earlyLog).1.self := by
  rw [sInit_self]
  split
  · exact h.unreached _ _
  · exact h.init _ _ _

theorem rule_activateWith [DoubleOps D] (p : Plugin D σ) (rate rate' : D)
    (lo hi minFrames maxFrames : Nat) :
    R (.activate rate lo hi) p.self (activateWith impl p rate' minFrames maxFrames).1.self := by
  let p1 := p.logLifecycle (snprintf 128 ("lifecycle: activate(sr=" ++
    DoubleOps.formatFixed 1 rate' ++ s!", min={minFrames}, max={maxFrames})"))
  let p2 : Plugin D σ := { p1 with
    sampleRate := rate'
    contract := { p1.contract with beingActivated := true } }
  have hself : (activateWith impl p rate' minFrames maxFrames).1.self =
      (impl.activate p2.base p2.self rate' minFrames maxFrames).self := by
    unfold activateWith
    dsimp only
    split
    · exact absorb_self p2 _
    · exact absorb_self p2 _
  have hp : p2.self = p.self := logLifecycle_self p _
  rw [hself, ← hp]
  exact h.activate _ _ _ _ _ _ _ _

theorem rule_sActivate [DoubleOps D] (thread : ThreadId) (rate : D) (lo hi : Nat) :
    R (.activate rate lo hi) p.self (p.sActivate impl thread rate lo hi).1.self := by
  unfold sActivate
  dsimp only
  split_ifs
  · exact h.unreached _ _
  · exact rule_activateWith h ((p.assertMainThread thread "sActivate").report .L13 "activate()"
      (snprintf 96 s!"invalid frame bounds (min={lo}, max={hi})")) rate rate lo hi _ _
  · exact rule_activateWith h (p.assertMainThread thread "sActivate") rate rate lo hi lo hi

theorem rule_sDeactivate (thread : ThreadId) :
    R .deactivate p.self (p.sDeactivate impl thread).self := by
  have htail : ∀ q : Plugin D σ, (q.deactivateTail impl).self =
      (impl.deactivate (q.logLifecycle "lifecycle: deactivate()").base q.self).self := by
    intro q
    show ((q.logLifecycle "lifecycle: deactivate()").absorb _).self = _
    rw [absorb_self, logLifecycle_self]
  let p1 := p.assertMainThread thread "sDeactivate"
  let p2 := p1.report .L05 "deactivate()"
    "called while still processing (missing stop_processing())"
  let p3 := p2.absorb (impl.stopProcessing p2.base p2.self)
  let p4 : Plugin D σ := { p3 with contract := { p3.contract with processing := false } }
  have hp4 : p4.self = (impl.stopProcessing p2.base p.self).self := absorb_self p2 _
  have he : p.sDeactivate impl thread =
      if !p1.contract.active then p1.report .L04 "deactivate()" "called while not active"
      else (if p1.contract.processing then p4 else p1).deactivateTail impl := rfl
  rw [he]
  split_ifs
  · exact h.unreached _ _
  · rw [htail, hp4]
    exact h.stopAndDeactivate _ _ _
  · rw [htail]
    exact h.deactivate _ _

theorem rule_sStartProcessing (thread : ThreadId) :
    R .startProcessing p.self (p.sStartProcessing impl thread).1.self := by
  unfold sStartProcessing
  dsimp only
  split_ifs
  · exact h.unreached _ _
  · exact h.unreached _ _
  · rw [absorb_self, logLifecycle_self]
    exact h.startProcessing _ _

theorem rule_sStopProcessing (thread : ThreadId) :
    R .stopProcessing p.self (p.sStopProcessing impl thread).self := by
  have hcheck := (moves_checkStop p thread).2
  rw [sStopProcessing_eq]
  split
  · show R .stopProcessing p.self (p.checkStop thread).self
    rw [hcheck]
    exact h.unreached _ _
  · show R .stopProcessing p.self (((p.checkStop thread).logLifecycle _).absorb _).self
    rw [absorb_self, logLifecycle_self, hcheck]
    exact h.stopProcessing _ _

theorem rule_sReset (thread : ThreadId) : R .reset p.self (p.sReset impl thread).self := by
  let p1 := p.assertAudioThread thread "sReset"
  let p2 := if !p1.contract.active then p1.report .L10 "reset()" "called while not active" else p1
  let p3 := p2.logLifecycle "lifecycle: reset()"
  let p4 : Plugin D σ := { p3 with contract := p3.contract.invalidateSteadyTime }
  have hp : p4.self = p.self := (logLifecycle_self p2 _).trans (reportIf_self p1 _ _ _ _)
  show R .reset p.self (p4.absorb (impl.reset p4.base p4.self)).self
  rw [absorb_self, hp]
  exact h.reset _ _

omit h in
/-- A block reaches the flavor if the gate forwards it; else it is turned down. -/
theorem sProcess_self (thread : ThreadId) (block : ProcessBlock D) (memory : AudioMemory D S) :
    Yields (p.sProcess impl thread block memory) fun r =>
      if (p.processGate thread block).1 = .forward then
        ∃ base out memory', impl.process base p.self block memory = .ok (out, memory') ∧
          r.1.self = out.self ∧ r.2.status = out.value
      else r.1.self = p.self ∧ r.2.status = .error := by
  have hself := (p.processGate_keeps thread block).2
  unfold sProcess
  split
  · rename_i q hq
    rw [hq] at hself ⊢
    exact Yields.of_ok ⟨hself, rfl⟩
  · rename_i q hq
    rw [hq] at hself ⊢
    split
    · exact Yields.of_error _
    · rename_i out memory' hout
      refine Yields.of_ok ⟨q.base, out, memory', ?_, absorb_self q out, rfl⟩
      rw [← hself]
      exact hout

theorem rule_sProcess (thread : ThreadId) (block : ProcessBlock D) (memory : AudioMemory D S) :
    Yields (p.sProcess impl thread block memory) fun r =>
      R (.process block memory) p.self r.1.self := by
  refine (sProcess_self thread block memory).mono fun r hr => ?_
  split at hr
  · obtain ⟨base, out, memory', hout, hself, -⟩ := hr
    rw [hself]
    exact h.process base p.self block memory _ hout
  · rw [hr.1]
    exact h.unreached _ _

theorem rule_sOnMainThread (thread : ThreadId) :
    R .onMainThread p.self (p.sOnMainThread impl thread).self := by
  let p1 := p.assertMainThread thread "sOnMainThread"
  let p2 : Plugin D σ := { p1 with contract := p1.contract.consumePendingCallbacks.2 }
  let p3 := if !p1.contract.consumePendingCallbacks.1 then
      p2.report .L11 "on_main_thread()" "called without a pending request_callback()"
    else p2
  let p4 := p3.logLifecycle "lifecycle: on_main_thread()"
  have hp : p4.self = p.self := (logLifecycle_self p3 _).trans (reportIf_self p2 _ _ _ _)
  show R .onMainThread p.self (p4.absorb (impl.onMainThread p4.base p4.self)).self
  rw [absorb_self, hp]
  exact h.onMainThread _ _

omit h in
/-- A provider that is there does its part, a missing one is a fault. -/
theorem rule_absorb {α β γ : Type} {o : Option α} {f : α → Outcome D σ β} {g : α → γ}
    {call : Call D S} {q : Plugin D σ} (hf : ∀ a ∈ o, R call p.self (f a).self) :
    Yields (provider o >>= fun a => Except.ok (q.absorb (f a), g a)) fun r =>
      R call p.self r.1.self := by
  refine yields_provider fun a ha => Yields.of_ok ?_
  rw [absorb_self]
  exact hf a ha

theorem rule_ask {α β : Type} {o : Option α} {g : α → β} {call : Call D S} {q : Plugin D σ}
    (hq : q.self = p.self) :
    Yields (provider o >>= fun a => Except.ok (q, g a)) fun r => R call p.self r.1.self := by
  refine yields_provider fun _ _ => Yields.of_ok ?_
  rw [hq]
  exact h.unreached _ _

theorem rule_refusing {α : Type} {o : Option α} {f : α → Outcome D σ Bool} {b : Bool}
    {code : Violation} {function detail : String} {call : Call D S} {q : Plugin D σ}
    (hq : q.self = p.self) (hf : ∀ a ∈ o, R call p.self (f a).self) :
    Yields (if b then .ok (q.report code function detail, false)
      else provider o >>= fun a => Except.ok (q.absorb (f a), (f a).value) :
        Exec (Plugin D σ × Bool)) fun r => R call p.self r.1.self := by
  split
  · refine Yields.of_ok ?_
    show R call p.self q.self
    rw [hq]
    exact h.unreached _ _
  · exact rule_absorb hf

omit h in
/-- A flush always reaches the flavor. -/
theorem sFlush_self (thread : ThreadId) (inEvents : Option (InputEvents D))
    (hasOutEvents : Bool) :
    Yields (Params.sFlush impl p thread inEvents hasOutEvents) fun r =>
      ∃ params ∈ impl.params, ∃ base out,
        params.paramsFlush base p.self inEvents hasOutEvents = .ok out ∧ r.1.self = out.self := by
  obtain ⟨q, -, -, -, he⟩ := sFlush_eq impl p thread inEvents hasOutEvents
  rw [he]
  refine yields_provider fun params hparams => ?_
  refine Yields.bind (P := fun out =>
    params.paramsFlush p.base p.self inEvents hasOutEvents = .ok out) (fun out h => h)
    fun out hout => Yields.of_ok ?_
  exact ⟨params, hparams, p.base, out, hout, absorb_self q out⟩

theorem rule_sFlush (thread : ThreadId) (inEvents : Option (InputEvents D))
    (hasOutEvents : Bool) :
    Yields (Params.sFlush impl p thread inEvents hasOutEvents) fun r =>
      R (.paramsFlush inEvents hasOutEvents) p.self r.1.self := by
  refine (sFlush_self thread inEvents hasOutEvents).mono fun r hr => ?_
  obtain ⟨params, hparams, base, out, hout, hself⟩ := hr
  rw [hself]
  exact h.paramsFlush params hparams base p.self inEvents hasOutEvents out hout

omit h in
/-- So does a load. -/
theorem sLoad_self (thread : ThreadId) (stream : IStream) :
    Yields (State.sLoad impl p thread stream) fun r =>
      ∃ state ∈ impl.state, ∃ out stream',
        state.stateLoad p.self stream = .ok (out, stream') ∧ r.1.self = out.self := by
  refine yields_provider fun state hstate => ?_
  refine Yields.bind (P := fun out => state.stateLoad p.self stream = .ok out) (fun out h => h)
    fun out hout => Yields.of_ok ?_
  exact ⟨state, hstate, out.1, out.2, hout, absorb_self _ _⟩

theorem rule_presetLoad (thread : ThreadId) (files : FileSystem) (kind : Nat)
    (location loadKey : Option String) :
    Yields (PresetLoad.sFromLocation impl p thread files kind location loadKey) fun r =>
      R (.presetLoad files kind location loadKey) p.self r.1.self := by
  unfold PresetLoad.sFromLocation
  dsimp only
  split
  · exact Yields.of_ok (h.unreached _ _)
  · split
    · exact rule_absorb fun preset hpreset => h.presetLoad preset hpreset _ _ _ _ _ _
    · exact rule_absorb fun preset hpreset => h.presetLoad preset hpreset _ _ _ _ _ _

theorem rule_getChannelMap (thread : ThreadId) (isInput : Bool) (portIndex capacity : Nat) :
    Yields (Surround.sGetChannelMap impl p thread isInput portIndex capacity) fun r =>
      R (.getChannelMap isInput portIndex capacity) p.self r.1.self := by
  unfold Surround.sGetChannelMap
  refine rule_absorb fun surround hsurround => ?_
  have hchannels := h.channelMap surround hsurround
  split
  · split
    · exact hchannels _ _ _ _
    · exact hchannels _ _ _ _
  · exact hchannels _ _ _ _

theorem rule_guiCreate (thread : ThreadId) (api : Option String) (isFloating : Bool)
    (native : NativeAnswer) :
    Yields (Gui.sCreate impl p thread api isFloating native) fun r =>
      R (.guiCreate api isFloating native) p.self r.1.self := by
  unfold Gui.sCreate
  dsimp only
  split
  · exact Yields.of_ok (h.unreached _ _)
  · refine yields_provider fun gui hgui => Yields.of_ok ?_
    have hcreate := h.guiCreate gui hgui p.self api isFloating native
    dsimp only
    split
    · show R _ p.self ((p.assertMainThread thread "sCreate").absorb _).self
      rw [absorb_self]
      exact hcreate
    · rw [absorb_self]
      exact hcreate

theorem rule_guiDestroy (thread : ThreadId) :
    Yields (Gui.sDestroy impl p thread) fun q => R .guiDestroy p.self q.self := by
  unfold Gui.sDestroy
  refine yields_provider fun gui hgui => Yields.of_ok ?_
  let p1 := p.assertMainThread thread "sDestroy"
  let p2 := if !p1.contract.guiCreated then
      p1.report .G03 "gui.destroy()" "called without a created gui"
    else p1
  have hp : p2.self = p.self := reportIf_self p1 _ _ _ _
  show R .guiDestroy p.self (p2.absorb (gui.guiDestroy p2.self)).self
  rw [absorb_self, hp]
  exact h.guiDestroy gui hgui _

theorem rule_guiMethod (thread : ThreadId) (method : GuiMethod D) (native : NativeAnswer) :
    Yields (Gui.sMethod impl p thread method native) fun r =>
      R (.gui method native) p.self r.1.self := by
  unfold Gui.sMethod
  dsimp only
  split
  · exact Yields.of_ok (h.unreached _ _)
  · exact rule_absorb fun gui hgui => h.guiMethod gui hgui _ _ _

/-! ## Every call -/

theorem call_self [DoubleOps D] (thread : ThreadId) (call : Call D S) :
    Yields (Plugin.call impl p thread call) fun r =>
      ∀ q, r.1 = .alive q → R call p.self q.self := by
  have alive : ∀ {call : Call D S} {q : Plugin D σ}, R call p.self q.self →
      ∀ q', Instance.alive q = .alive q' → R call p.self q'.self := by
    intro call q hq q' heq
    cases heq
    exact hq
  have wrap : ∀ {call : Call D S} {α : Type} {x : Exec (Plugin D σ × α)}
      {f : Plugin D σ × α → Result D S}, (Yields x fun r => R call p.self r.1.self) →
      Yields (do let r ← x; .ok (Instance.alive r.1, f r)) fun r =>
        ∀ q, r.1 = .alive q → R call p.self q.self :=
    fun hx => Yields.bind hx fun r hr => Yields.of_ok (alive hr)
  cases call with
  | init earlyLog => exact Yields.of_ok (alive (rule_sInit h thread earlyLog))
  | destroy => exact Yields.of_ok fun q hq => absurd hq (Instance.deleted_ne_alive _ q)
  | activate rate lo hi => exact Yields.of_ok (alive (rule_sActivate h thread rate lo hi))
  | deactivate => exact Yields.of_ok (alive (rule_sDeactivate h thread))
  | startProcessing => exact Yields.of_ok (alive (rule_sStartProcessing h thread))
  | stopProcessing => exact Yields.of_ok (alive (rule_sStopProcessing h thread))
  | reset => exact Yields.of_ok (alive (rule_sReset h thread))
  | process block memory => exact wrap (rule_sProcess h thread block memory)
  | getExtension id =>
    refine wrap ?_
    unfold sGetExtension
    split
    · split
      · exact Yields.of_ok (h.unreached _ _)
      · exact Yields.of_error _
    · refine Yields.of_ok ?_
      rw [reportIf_self]
      exact h.unreached _ _
  | onMainThread => exact Yields.of_ok (alive (rule_sOnMainThread h thread))
  | paramsFlush events hasOut => exact wrap (rule_sFlush h thread events hasOut)
  | stateSave stream =>
    refine Yields.bind ?_ fun r (hr : R (.stateSave stream) p.self r.1.self) =>
      Yields.of_ok (alive hr)
    refine yields_provider fun state hstate => ?_
    refine Yields.bind (h.stateSave state hstate _ stream) fun out hout => Yields.of_ok ?_
    rw [absorb_self]
    exact hout
  | stateLoad stream =>
    refine wrap ((sLoad_self thread stream).mono fun r hr => ?_)
    obtain ⟨state, hstate, out, stream', hout, hself⟩ := hr
    rw [hself]
    exact h.stateLoad state hstate p.self stream _ hout
  | audioPortsCount isInput => exact wrap (rule_ask h (reportIf_self _ _ _ _ _))
  | audioPortsGet index isInput => exact wrap (rule_ask h (reportIf_self _ _ _ _ _))
  | notePortsCount isInput => exact wrap (rule_ask h (reportIf_self _ _ _ _ _))
  | notePortsGet index isInput => exact wrap (rule_ask h (reportIf_self _ _ _ _ _))
  | audioPortsConfigSelect configId =>
    exact wrap (rule_refusing h rfl fun config hconfig => h.configSelect config hconfig _ _ _)
  | canApplyConfiguration requests =>
    exact wrap (rule_refusing h rfl fun config hconfig => h.canApply config hconfig _ _ _)
  | applyConfiguration requests =>
    exact wrap (rule_refusing h rfl fun config hconfig => h.apply config hconfig _ _ _)
  | latencyGet => exact wrap (rule_ask h (reportIf_self _ _ _ _ _))
  | tailGet => exact wrap (rule_ask h (reportIf_self _ _ _ _ _))
  | voiceInfoGet => exact wrap (rule_ask h (reportIf_self _ _ _ _ _))
  | renderSet mode =>
    exact wrap (rule_refusing h rfl fun render hrender => h.renderSet render hrender _ _)
  | presetLoad files kind location loadKey =>
    exact wrap (rule_presetLoad h thread files kind location loadKey)
  | isChannelMaskSupported mask =>
    exact wrap (rule_absorb fun surround hsurround => h.channelMask surround hsurround _ _)
  | getChannelMap isInput portIndex capacity =>
    exact wrap (rule_getChannelMap h thread isInput portIndex capacity)
  | guiCreate api isFloating native => exact wrap (rule_guiCreate h thread api isFloating native)
  | guiDestroy =>
    exact Yields.bind (rule_guiDestroy h thread) fun r hr => Yields.of_ok (alive hr)
  | gui method native => exact wrap (rule_guiMethod h thread method native)
  | query function => exact Yields.of_ok (alive (h.unreached _ _))
  | violationsClear => exact Yields.of_ok (alive (h.unreached _ _))
  | uiEdit edit =>
    refine yields_uiEdit fun out hout => alive ?_
    rw [absorb_self]
    exact h.uiEdit _ _ _ _ hout

/-- The same for a step of the host. -/
theorem hostStep_self [DoubleOps D] {q : Plugin D σ} {l : ThreadId × Call D S} {o : Reply D S}
    (hstep : hostStep impl (.alive p) l = .ok (.alive q, o)) : R l.2 p.self q.self := by
  have hcall := hostStep_call hstep
  exact call_self (p := { p with hostCalls := [] }) h l.1 l.2 _ hcall q rfl

end Rules

end Plugin

end Cvp
