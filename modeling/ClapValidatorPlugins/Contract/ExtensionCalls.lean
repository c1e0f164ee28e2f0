/-
  What the calls outside the `clap_plugin` vtable do to an instance of a tame flavor: the
  extensions, the read-only queries and the edits made in the plugin's own window. None of them
  touches a lifecycle flag or a cache; only `gui.create()` and `gui.destroy()` change the gui
  flags.
-/
import ClapValidatorPlugins.Contract.Trampolines

namespace Cvp

/-- The calls that change nothing of the monitor but its findings. -/
def Call.isPlain {D S : Type} : Call D S → Bool
  | .paramsFlush _ _ | .stateSave _ | .stateLoad _ | .audioPortsCount _ | .audioPortsGet _ _
  | .notePortsCount _ | .notePortsGet _ _ | .audioPortsConfigSelect _
  | .canApplyConfiguration _ | .applyConfiguration _ | .latencyGet | .tailGet | .voiceInfoGet
  | .renderSet _ | .presetLoad _ _ _ _ | .isChannelMaskSupported _ | .getChannelMap _ _ _
  | .gui _ _ | .query _ | .uiEdit _ | .getExtension _ => true
  | _ => false

namespace Plugin

variable {D S σ : Type}

/-- FILE without a path, or PLUGIN with one (PL01). -/
def badLocation (kind : Nat) (location : Option String) : Bool :=
  decide (kind = PresetLoad.locationFile ∧ location = none ∨
    kind = PresetLoad.locationPlugin ∧ location.isSome)

/-- A capacity below the channel count of the port (SR01). -/
def mapTooSmall (impl : PluginImpl D S σ) (s : σ) (isInput : Bool) (portIndex capacity : Nat) :
    Bool :=
  match Surround.portChannels impl s isInput portIndex with
  | some channels => decide (capacity < channels)
  | none => false

/-- `flush()` belongs to the audio thread of an active plugin, else to the main thread (T03). -/
def flushOnWrongThread (p : Plugin D σ) (thread : ThreadId) : Bool :=
  if p.contract.active then p.threads.confirmedNotAudioThread thread
  else p.threads.confirmedNotMainThread thread

/-- What a plain call is reported for. -/
def plainCodes (impl : PluginImpl D S σ) (p : Plugin D σ) (thread : ThreadId) :
    Call D S → List Violation
  | .getExtension id => codeIf (p.asksTooEarly id) .L01
  | .paramsFlush inEvents _ =>
    codeIf p.contract.inProcess .P07 ++ codeIf (p.flushOnWrongThread thread) .T03 ++
      (checkParamEvents p.contract inEvents none).map (·.violation)
  | .audioPortsCount _ | .audioPortsGet _ _ =>
    p.mainCodes thread ++ codeIf (p.contract.active && !p.contract.beingActivated) .AP01
  | .notePortsCount _ | .notePortsGet _ _ =>
    p.mainCodes thread ++ codeIf (p.contract.active && !p.contract.beingActivated) .NP01
  | .audioPortsConfigSelect _ => p.mainCodes thread ++ codeIf p.contract.active .AC01
  | .canApplyConfiguration _ | .applyConfiguration _ =>
    p.mainCodes thread ++ codeIf p.contract.active .CA01
  | .latencyGet =>
    p.mainCodes thread ++ codeIf (!p.contract.active && !p.contract.beingActivated) .LT01
  | .tailGet =>
    codeIf (p.threads.confirmedNotMainThread thread && p.threads.confirmedNotAudioThread thread)
      .T04
  | .voiceInfoGet => p.mainCodes thread ++ codeIf (!p.contract.active) .VI01
  | .renderSet mode => p.mainCodes thread ++ codeIf (!Render.isRenderMode mode) .R01
  | .presetLoad _ kind location _ => p.mainCodes thread ++ codeIf (badLocation kind location) .PL01
  | .getChannelMap isInput portIndex capacity =>
    p.mainCodes thread ++ codeIf (mapTooSmall impl p.self isInput portIndex capacity) .SR01
  | .gui method _ => p.mainCodes thread ++ (Gui.broken p method).toList.map (·.violation)
  | .uiEdit _ => []
  | _ => p.mainCodes thread

section

variable {impl : PluginImpl D S σ} {p : Plugin D σ}

/-- A provider is there, or the call faults. -/
theorem yields_provider {α β : Type} {o : Option α} {f : α → Exec β} {P : β → Prop}
    (h : ∀ a ∈ o, Yields (f a) P) : Yields (provider o >>= f) P := by
  cases o with
  | none => exact Yields.of_error _
  | some a => exact h a rfl

/-- An edit of a flavor without an editor faults. -/
theorem yields_uiEdit [DoubleOps D] {thread : ThreadId} {edit : UiEdit D}
    {P : Instance D σ × Result D S → Prop}
    (h : ∀ out, impl.uiEdit p.base p.self edit = some out → P (.alive (p.absorb out), .void)) :
    Yields (Plugin.call impl p thread (.uiEdit edit)) P := by
  unfold Plugin.call
  dsimp only
  split
  · exact Yields.of_error _
  · rename_i out hout
    exact Yields.of_ok (h out hout)

/-- The thread check of `sFlush`. -/
def checkFlushThread (p : Plugin D σ) (thread : ThreadId) : Plugin D σ :=
  if p.contract.active then
    if p.threads.confirmedNotAudioThread thread then
      p.report .T03 "params.flush()" "must be on the audio thread while the plugin is active"
    else p
  else if p.threads.confirmedNotMainThread thread then
    p.report .T03 "params.flush()" "must be on the main thread while the plugin is inactive"
  else p

theorem moves_checkFlushThread (p : Plugin D σ) (thread : ThreadId) :
    Moves p (p.checkFlushThread thread) (codeIf (p.flushOnWrongThread thread) .T03) id ∧
      (p.checkFlushThread thread).self = p.self := by
  unfold checkFlushThread flushOnWrongThread
  cases p.contract.active
  · exact ⟨moves_reportIf _ _ _ _ _, reportIf_self _ _ _ _ _⟩
  · exact ⟨moves_reportIf _ _ _ _ _, reportIf_self _ _ _ _ _⟩

/-- A flush reports and asks the flavor; what the flavor sees and what the host heard is as it
    was. -/
theorem sFlush_eq (impl : PluginImpl D S σ) (p : Plugin D σ) (thread : ThreadId)
    (inEvents : Option (InputEvents D)) (hasOutEvents : Bool) :
    ∃ q : Plugin D σ, q.base = p.base ∧ q.self = p.self ∧ q.hostCalls = p.hostCalls ∧
      Params.sFlush impl p thread inEvents hasOutEvents = (provider impl.params >>= fun params =>
        params.paramsFlush p.base p.self inEvents hasOutEvents >>= fun out =>
          .ok (q.absorb out, out.pushed)) := by
  let p1 := if p.contract.inProcess then
      p.report .P07 "params.flush()" "called concurrently with process()"
    else p
  let p2 := p1.checkFlushThread thread
  let p3 : Plugin D σ := { p2 with contract := { p2.contract with
    findings := p2.contract.findings.reportAll (checkParamEvents p2.contract inEvents none) } }
  have h1 : p1.base = p.base ∧ p1.self = p.self ∧ p1.hostCalls = p.hostCalls := by
    unfold p1
    split <;> exact ⟨rfl, rfl, rfl⟩
  have h2 : p2.base = p1.base ∧ p2.self = p1.self ∧ p2.hostCalls = p1.hostCalls := by
    unfold p2 checkFlushThread
    split <;> split <;> exact ⟨rfl, rfl, rfl⟩
  have hbase : p3.base = p.base := h2.1.trans h1.1
  have hself : p3.self = p.self := h2.2.1.trans h1.2.1
  refine ⟨p3, hbase, hself, h2.2.2.trans h1.2.2, ?_⟩
  rw [← hbase, ← hself]
  rfl

theorem sFlush_steps (ht : Tame impl) (thread : ThreadId) (inEvents : Option (InputEvents D))
    (hasOutEvents : Bool) :
    Yields (Params.sFlush impl p thread inEvents hasOutEvents) fun r =>
      Steps impl p r.1 (codeIf p.contract.inProcess .P07 ++
        codeIf (p.flushOnWrongThread thread) .T03 ++
        (checkParamEvents p.contract inEvents none).map (·.violation)) id := by
  let p1 := if p.contract.inProcess then
      p.report .P07 "params.flush()" "called concurrently with process()"
    else p
  have h1 : Moves p p1 (codeIf p.contract.inProcess .P07) id := moves_reportIf _ _ _ _ _
  let p2 := p1.checkFlushThread thread
  obtain ⟨h2, hs2⟩ := moves_checkFlushThread p1 thread
  have hwrong : p1.flushOnWrongThread thread = p.flushOnWrongThread thread := by
    rw [flushOnWrongThread, h1.active, h1.threads]
    rfl
  rw [hwrong] at h2
  have h12 := h1.trans h2
  let p3 : Plugin D σ := { p2 with contract := { p2.contract with
    findings := p2.contract.findings.reportAll (checkParamEvents p2.contract inEvents none) } }
  have h3 : Moves p p3 _ id :=
    h12.trans (moves_reportAll p2 (checkParamEvents p2.contract inEvents none))
  have htable : p2.contract.params = p.contract.params :=
    h12.field ContractMonitor.params fun _ => rfl
  rw [checkParamEvents_congr htable] at h3
  have hs3 : p3.self = p.self := hs2.trans (reportIf_self _ _ _ _ _)
  have he : Params.sFlush impl p thread inEvents hasOutEvents = (do
      let params ← provider impl.params
      let out ← params.paramsFlush p3.base p3.self inEvents hasOutEvents
      .ok (p3.absorb out, out.pushed)) := rfl
  rw [he]
  refine yields_provider fun params hparams => ?_
  refine Yields.bind (ht.paramsFlush params hparams _ _ inEvents hasOutEvents) fun out hk => ?_
  exact Yields.of_ok (steps_of_keeps h3 hs3 hk)

/-- `CVP_ASSERT_MAIN_THREAD` and a check that reports and goes on. -/
theorem moves_mainCheck (p : Plugin D σ) (thread : ThreadId) (name : String) (b : Bool)
    (v : Violation) (function detail : String) :
    Moves p
      (if b then (p.assertMainThread thread name).report v function detail
        else p.assertMainThread thread name)
      (p.mainCodes thread ++ codeIf b v) id :=
  (moves_assertMainThread p thread name).trans (moves_reportIf _ b v function detail)

theorem sSave_steps (ht : Tame impl) (thread : ThreadId) (stream : OStream) :
    Yields (State.sSave impl p thread stream) fun r =>
      Steps impl p r.1 (p.mainCodes thread) id := by
  have hm := moves_assertMainThread p thread "sSave"
  refine yields_provider fun state hstate => ?_
  refine Yields.bind (ht.stateSave state hstate _ stream) fun r hk => ?_
  exact Yields.of_ok (steps_of_keeps hm rfl hk)

theorem sLoad_steps (ht : Tame impl) (thread : ThreadId) (stream : IStream) :
    Yields (State.sLoad impl p thread stream) fun r =>
      Steps impl p r.1 (p.mainCodes thread) id := by
  have hm := moves_assertMainThread p thread "sLoad"
  refine yields_provider fun state hstate => ?_
  refine Yields.bind (ht.stateLoad state hstate _ stream) fun r hk => ?_
  exact Yields.of_ok (steps_of_keeps hm rfl hk)

/-- The port scans: AP01 and NP01. -/
theorem checkNoScan_steps (thread : ThreadId) (name : String) (code : Violation)
    (function : String) :
    Steps impl p ((p.assertMainThread thread name).checkNoScan code function)
      (p.mainCodes thread ++ codeIf (p.contract.active && !p.contract.beingActivated) code) id := by
  have hm := moves_assertMainThread p thread name
  have hbeing : (p.assertMainThread thread name).contract.beingActivated =
      p.contract.beingActivated := hm.field ContractMonitor.beingActivated fun _ => rfl
  unfold checkNoScan
  rw [hm.active, hbeing]
  exact steps_of_moves (moves_mainCheck p thread name _ code _ _) (reportIf_self _ _ _ _ _)

theorem yields_scan {α : Type} {o : Option α} {β : Type} {q : Plugin D σ} {vs : List Violation}
    (h : Steps impl p q vs id) (f : α → β) :
    Yields (provider o >>= fun a => Except.ok (q, f a)) fun r => Steps impl p r.1 vs id :=
  yields_provider fun _ _ => Yields.of_ok h

/-- The calls that are refused with `false` while the plugin is active: AC01 and CA01. -/
theorem yields_refused (thread : ThreadId) (name : String) (code : Violation)
    (function detail : String) {α : Type} {o : Option α}
    {f : α → Base D → σ → Outcome D σ Bool}
    (hq : ∀ a ∈ o, ∀ base s, base.isActive = false → (f a base s).IsQuiet) :
    Yields
      (if (p.assertMainThread thread name).contract.active then
        .ok ((p.assertMainThread thread name).report code function detail, false)
      else do
        let a ← provider o
        let out := f a (p.assertMainThread thread name).base (p.assertMainThread thread name).self
        .ok ((p.assertMainThread thread name).absorb out, out.value) : Exec (Plugin D σ × Bool))
      fun r => Steps impl p r.1 (p.mainCodes thread ++ codeIf p.contract.active code) id := by
  have hm := moves_assertMainThread p thread name
  cases ha : p.contract.active with
  | true =>
    rw [if_pos (by rw [hm.active, ha])]
    exact Yields.of_ok (steps_of_moves (hm.trans (moves_report _ code function detail)) rfl)
  | false =>
    have hbase : (p.assertMainThread thread name).base.isActive = false := hm.active.trans ha
    rw [if_neg (by rw [hm.active, ha]; exact Bool.false_ne_true)]
    refine yields_provider fun a hmem => Yields.of_ok ?_
    rw [codeIf_false, List.append_nil]
    refine ⟨hm.andThen (moves_absorb _ _ (hq a hmem _ _ hbase)), ?_⟩
    intro hactive
    rw [ha] at hactive
    cases hactive

theorem sSelect_steps (ht : Tame impl) (thread : ThreadId) (configId : ClapId) :
    Yields (AudioPortsConfig.sSelect impl p thread configId) fun r =>
      Steps impl p r.1 (p.mainCodes thread ++ codeIf p.contract.active .AC01) id :=
  yields_refused thread "sSelect" .AC01 _ _ fun config hc base s _ =>
    ht.configSelect config hc base s configId

theorem sCanApply_steps (ht : Tame impl) (thread : ThreadId) (requests : PortConfigRequests) :
    Yields (ConfigurableAudioPorts.sCanApply impl p thread requests) fun r =>
      Steps impl p r.1 (p.mainCodes thread ++ codeIf p.contract.active .CA01) id :=
  yields_refused thread "sCanApply" .CA01 _ _ fun config hc base s h =>
    ht.canApply config hc base s requests h

theorem sApply_steps (ht : Tame impl) (thread : ThreadId) (requests : PortConfigRequests) :
    Yields (ConfigurableAudioPorts.sApply impl p thread requests) fun r =>
      Steps impl p r.1 (p.mainCodes thread ++ codeIf p.contract.active .CA01) id :=
  yields_refused thread "sApply" .CA01 _ _ fun config hc base s h =>
    ht.apply config hc base s requests h

theorem latencyGet_steps (thread : ThreadId) :
    Yields (Latency.sGet impl p thread) fun r =>
      Steps impl p r.1 (p.mainCodes thread ++
        codeIf (!p.contract.active && !p.contract.beingActivated) .LT01) id := by
  have hm := moves_assertMainThread p thread "sGet"
  have hbeing : (p.assertMainThread thread "sGet").contract.beingActivated =
      p.contract.beingActivated := hm.field ContractMonitor.beingActivated fun _ => rfl
  rw [← hm.active, ← hbeing]
  exact yields_scan (steps_of_moves (moves_mainCheck p thread "sGet" _ .LT01 "latency.get()"
    "called while neither active nor being activated") (reportIf_self _ _ _ _ _)) _

theorem tailGet_steps (thread : ThreadId) :
    Yields (Tail.sGet impl p thread) fun r =>
      Steps impl p r.1 (codeIf (p.threads.confirmedNotMainThread thread &&
        p.threads.confirmedNotAudioThread thread) .T04) id :=
  yields_scan (steps_of_moves (moves_reportIf p _ .T04 "tail.get()"
    "called on a thread that is neither main nor audio") (reportIf_self _ _ _ _ _)) _

theorem voiceInfoGet_steps (thread : ThreadId) :
    Yields (VoiceInfo.sGet impl p thread) fun r =>
      Steps impl p r.1 (p.mainCodes thread ++ codeIf (!p.contract.active) .VI01) id := by
  have hm := moves_assertMainThread p thread "sGet"
  rw [← hm.active]
  exact yields_scan (steps_of_moves (moves_mainCheck p thread "sGet" _ .VI01 "voice_info.get()"
    "called while not active") (reportIf_self _ _ _ _ _)) _

theorem renderSet_steps (ht : Tame impl) (thread : ThreadId) (mode : Int) :
    Yields (Render.sSet impl p thread mode) fun r =>
      Steps impl p r.1 (p.mainCodes thread ++ codeIf (!Render.isRenderMode mode) .R01) id := by
  have hm := moves_assertMainThread p thread "sSet"
  unfold Render.sSet
  cases Render.isRenderMode mode with
  | false => exact Yields.of_ok (steps_of_moves (hm.trans (moves_report _ .R01 _ _)) rfl)
  | true =>
    refine yields_provider fun render hrender => Yields.of_ok ?_
    rw [Bool.not_true, codeIf_false, List.append_nil]
    exact steps_of_keeps hm rfl (ht.renderSet render hrender _ mode)

theorem presetLoad_steps (ht : Tame impl) (thread : ThreadId) (files : FileSystem) (kind : Nat)
    (location loadKey : Option String) :
    Yields (PresetLoad.sFromLocation impl p thread files kind location loadKey) fun r =>
      Steps impl p r.1 (p.mainCodes thread ++ codeIf (badLocation kind location) .PL01) id := by
  have hm := moves_assertMainThread p thread "sFromLocation"
  unfold PresetLoad.sFromLocation
  dsimp only
  by_cases hfile : kind = PresetLoad.locationFile ∧ location = none
  · rw [if_pos hfile, badLocation, decide_eq_true (.inl hfile)]
    exact Yields.of_ok (steps_of_moves (hm.trans (moves_report _ .PL01 _ _)) rfl)
  · have hbad : badLocation kind location =
        decide (kind = PresetLoad.locationPlugin ∧ location.isSome) := by
      rw [badLocation, decide_eq_decide]
      exact or_iff_right hfile
    rw [if_neg hfile, hbad]
    have hmoves := moves_mainCheck p thread "sFromLocation"
      (decide (kind = PresetLoad.locationPlugin ∧ location.isSome)) .PL01
      "preset_load.from_location()" "PLUGIN location kind with a non-null location (must be null)"
    simp only [decide_eq_true_eq] at hmoves
    refine yields_provider fun preset hpreset => Yields.of_ok ?_
    refine steps_of_keeps hmoves ?_ (ht.presetLoad preset hpreset _ _ files kind location loadKey)
    split <;> rfl

theorem channelMask_steps (ht : Tame impl) (thread : ThreadId) (channelMask : Nat) :
    Yields (Surround.sIsChannelMaskSupported impl p thread channelMask) fun r =>
      Steps impl p r.1 (p.mainCodes thread) id :=
  yields_provider fun surround hs => Yields.of_ok (steps_of_keeps
    (moves_assertMainThread p thread _) rfl (ht.channelMask surround hs _ channelMask))

theorem moves_checkCapacity (impl : PluginImpl D S σ) (p : Plugin D σ) (isInput : Bool)
    (portIndex capacity : Nat) :
    Moves p
        (match Surround.portChannels impl p.self isInput portIndex with
        | some channels =>
          if capacity < channels then
            p.report .SR01 "surround.get_channel_map()" (snprintf 128
              (s!"channel_map_capacity={capacity} is smaller than the port's channel count " ++
                toString channels))
          else p
        | none => p)
        (codeIf (mapTooSmall impl p.self isInput portIndex capacity) .SR01) id ∧
      (match Surround.portChannels impl p.self isInput portIndex with
        | some channels =>
          if capacity < channels then
            p.report .SR01 "surround.get_channel_map()" (snprintf 128
              (s!"channel_map_capacity={capacity} is smaller than the port's channel count " ++
                toString channels))
          else p
        | none => p).self = p.self := by
  unfold mapTooSmall
  cases Surround.portChannels impl p.self isInput portIndex with
  | none => exact ⟨Moves.refl p, rfl⟩
  | some channels =>
    dsimp only
    by_cases hc : capacity < channels
    · rw [if_pos hc, decide_eq_true hc]
      exact ⟨moves_report _ _ _ _, rfl⟩
    · rw [if_neg hc, decide_eq_false hc]
      exact ⟨Moves.refl p, rfl⟩

/-- The flavor's own complaint is a HOST_MISBEHAVING line, but never without SR01. -/
theorem absorb_channelMap (ht : Tame impl) {surround : SurroundProvider D σ}
    (hs : surround ∈ impl.surround) {q : Plugin D σ} {vs : List Violation} (isInput : Bool)
    (portIndex capacity : Nat)
    (h : Moves p q (vs ++ codeIf (mapTooSmall impl p.self isInput portIndex capacity) .SR01) id)
    (hself : q.self = p.self) :
    Steps impl p (q.absorb (surround.surroundChannelMap q.self isInput portIndex capacity))
      (vs ++ codeIf (mapTooSmall impl p.self isInput portIndex capacity) .SR01) id := by
  have hports := ht.channelMapPorts surround hs q.self isInput portIndex capacity
  refine ⟨?_, fun _ i => by rw [absorb_self, hports i, hself]⟩
  rcases ht.channelMapEffects surround hs q.self isInput portIndex capacity with
    hquiet | ⟨⟨channels, hchannels, hlt⟩, text, -, heff⟩
  · exact h.andThen (moves_absorb q _ hquiet)
  · have hsmall : mapTooSmall impl p.self isInput portIndex capacity = true := by
      rw [mapTooSmall, ← hself, hchannels]
      exact decide_eq_true hlt
    rw [hsmall] at h ⊢
    refine ⟨⟨?_, ?_, ?_, ?_⟩, fun hnil => absurd hnil (by simp), ?_⟩
    all_goals unfold absorb; rw [heff]
    · exact ⟨h.counts.counters, h.counts.total⟩
    · exact h.tracked
    · exact h.threads
    · exact h.host
    · exact h.unasked

theorem getChannelMap_steps (ht : Tame impl) (thread : ThreadId) (isInput : Bool)
    (portIndex capacity : Nat) :
    Yields (Surround.sGetChannelMap impl p thread isInput portIndex capacity) fun r =>
      Steps impl p r.1 (p.mainCodes thread ++
        codeIf (mapTooSmall impl p.self isInput portIndex capacity) .SR01) id := by
  have hm := moves_assertMainThread p thread "sGetChannelMap"
  obtain ⟨hcheck, hself⟩ := moves_checkCapacity impl (p.assertMainThread thread "sGetChannelMap")
    isInput portIndex capacity
  exact yields_provider fun surround hs => Yields.of_ok
    (absorb_channelMap ht hs isInput portIndex capacity (hm.trans hcheck) hself)

/-! ## gui -/

theorem guiMethod_steps (ht : Tame impl) (thread : ThreadId) (method : GuiMethod D)
    (native : NativeAnswer) :
    Yields (Gui.sMethod impl p thread method native) fun r =>
      Steps impl p r.1
        (p.mainCodes thread ++ (Gui.broken p method).toList.map (·.violation)) id := by
  have hm := moves_assertMainThread p thread (Gui.functionName method)
  have hbroken : Gui.broken (p.assertMainThread thread (Gui.functionName method)) method =
      Gui.broken p method := by
    have hcreated : (p.assertMainThread thread (Gui.functionName method)).contract.guiCreated =
        p.contract.guiCreated := hm.field ContractMonitor.guiCreated fun _ => rfl
    have hfloating : (p.assertMainThread thread (Gui.functionName method)).contract.guiFloating =
        p.contract.guiFloating := hm.field ContractMonitor.guiFloating fun _ => rfl
    unfold Gui.broken
    rw [hcreated, hfloating]
  unfold Gui.sMethod
  dsimp only
  rw [hbroken]
  cases Gui.broken p method with
  | some finding => exact Yields.of_ok (steps_of_moves (hm.trans (moves_report _ _ _ _)) rfl)
  | none =>
    refine yields_provider fun gui hgui => Yields.of_ok ?_
    rw [Option.toList_none, List.map_nil, List.append_nil]
    exact steps_of_keeps hm rfl (ht.guiMethod gui hgui _ method native)

theorem guiCreate_again (h : p.contract.guiCreated = true) (thread : ThreadId)
    (api : Option String) (isFloating : Bool) (native : NativeAnswer) :
    ∃ q, Gui.sCreate impl p thread api isFloating native = .ok (q, false) ∧
      Steps impl p q (p.mainCodes thread ++ [.G02]) id := by
  have hm := moves_assertMainThread p thread "sCreate"
  have hcreated : (p.assertMainThread thread "sCreate").contract.guiCreated =
      p.contract.guiCreated := hm.field ContractMonitor.guiCreated fun _ => rfl
  refine ⟨(p.assertMainThread thread "sCreate").report .G02 "gui.create()"
    "called while a gui already exists", ?_,
    steps_of_moves (hm.trans (moves_report _ .G02 _ _)) rfl⟩
  unfold Gui.sCreate
  dsimp only
  rw [if_pos (by rw [hcreated, h])]

theorem guiCreate_first (ht : Tame impl) (h : p.contract.guiCreated = false) (thread : ThreadId)
    (api : Option String) (isFloating : Bool) (native : NativeAnswer) :
    Yields (Gui.sCreate impl p thread api isFloating native) fun r =>
      Steps impl p r.1 (p.mainCodes thread)
        (fun m => if r.2 then m.setGuiCreated true isFloating else m) := by
  have hm := moves_assertMainThread p thread "sCreate"
  have hcreated : (p.assertMainThread thread "sCreate").contract.guiCreated =
      p.contract.guiCreated := hm.field ContractMonitor.guiCreated fun _ => rfl
  unfold Gui.sCreate
  dsimp only
  rw [if_neg (by rw [hcreated, h]; exact Bool.false_ne_true)]
  refine yields_provider fun gui hgui => Yields.of_ok ?_
  have hk := ht.guiCreate gui hgui (p.assertMainThread thread "sCreate").self api isFloating native
  have hsteps := steps_of_keeps hm rfl hk
  dsimp only
  cases (gui.guiCreate (p.assertMainThread thread "sCreate").self api isFloating native).value with
  | false => exact hsteps
  | true =>
    exact ⟨hsteps.toMoves.andThen (moves_set _ (fun m => m.setGuiCreated true isFloating) rfl rfl),
      hsteps.ports⟩

theorem guiDestroy_steps (ht : Tame impl) (thread : ThreadId) :
    Yields (Gui.sDestroy impl p thread) fun q =>
      Steps impl p q (p.mainCodes thread ++ codeIf (!p.contract.guiCreated) .G03)
        (fun m => m.setGuiCreated false false) := by
  have hm := moves_assertMainThread p thread "sDestroy"
  have hcreated : (p.assertMainThread thread "sDestroy").contract.guiCreated =
      p.contract.guiCreated := hm.field ContractMonitor.guiCreated fun _ => rfl
  rw [← hcreated]
  have hcheck := moves_mainCheck p thread "sDestroy"
    (!(p.assertMainThread thread "sDestroy").contract.guiCreated) .G03 "gui.destroy()"
    "called without a created gui"
  refine yields_provider fun gui hgui => Yields.of_ok ?_
  have hsteps := steps_of_keeps hcheck (reportIf_self _ _ _ _ _) (ht.guiDestroy gui hgui _)
  exact ⟨hsteps.toMoves.andThen (moves_set _ (fun m => m.setGuiCreated false false) rfl rfl),
    hsteps.ports⟩

/-- Every plain call: what it counts, and nothing else. -/
theorem call_plain [DoubleOps D] (ht : Tame impl) (thread : ThreadId) {call : Call D S}
    (hcall : call.isPlain = true) :
    Yields (Plugin.call impl p thread call) fun r =>
      ∃ q, r.1 = .alive q ∧ Steps impl p q (plainCodes impl p thread call) id := by
  have wrap : ∀ {α : Type} {x : Exec (Plugin D σ × α)} {f : Plugin D σ × α → Result D S}
      {vs : List Violation}, (Yields x fun r => Steps impl p r.1 vs id) →
      Yields (do let r ← x; .ok (Instance.alive r.1, f r)) fun r =>
        ∃ q, r.1 = Instance.alive q ∧ Steps impl p q vs id :=
    fun h => Yields.bind h fun r hr => Yields.of_ok ⟨r.1, rfl, hr⟩
  cases call with
  | paramsFlush inEvents hasOutEvents => exact wrap (sFlush_steps ht thread inEvents hasOutEvents)
  | stateSave stream => exact wrap (sSave_steps ht thread stream)
  | stateLoad stream => exact wrap (sLoad_steps ht thread stream)
  | getExtension id => exact wrap (sGetExtension_steps id)
  | audioPortsCount isInput => exact wrap (yields_scan (checkNoScan_steps thread _ _ _) _)
  | audioPortsGet index isInput => exact wrap (yields_scan (checkNoScan_steps thread _ _ _) _)
  | notePortsCount isInput => exact wrap (yields_scan (checkNoScan_steps thread _ _ _) _)
  | notePortsGet index isInput => exact wrap (yields_scan (checkNoScan_steps thread _ _ _) _)
  | audioPortsConfigSelect configId => exact wrap (sSelect_steps ht thread configId)
  | canApplyConfiguration requests => exact wrap (sCanApply_steps ht thread requests)
  | applyConfiguration requests => exact wrap (sApply_steps ht thread requests)
  | latencyGet => exact wrap (latencyGet_steps thread)
  | tailGet => exact wrap (tailGet_steps thread)
  | voiceInfoGet => exact wrap (voiceInfoGet_steps thread)
  | renderSet mode => exact wrap (renderSet_steps ht thread mode)
  | presetLoad files kind location loadKey =>
    exact wrap (presetLoad_steps ht thread files kind location loadKey)
  | isChannelMaskSupported channelMask => exact wrap (channelMask_steps ht thread channelMask)
  | getChannelMap isInput portIndex capacity =>
    exact wrap (getChannelMap_steps ht thread isInput portIndex capacity)
  | gui method native => exact wrap (guiMethod_steps ht thread method native)
  | query function =>
    exact Yields.of_ok ⟨_, rfl, steps_of_moves (moves_assertMainThread p thread function) rfl⟩
  | uiEdit edit =>
    refine yields_uiEdit fun out hout => ⟨_, rfl, ?_⟩
    exact steps_of_keeps (Moves.refl p) rfl (ht.uiEdit _ _ edit out hout)
  | _ => cases hcall

end

end Plugin

end Cvp
