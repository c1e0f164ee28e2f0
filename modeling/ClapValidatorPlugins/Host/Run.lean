/-
  A host driving one instance: every vtable call it can make, each from some thread, and the
  edits of the plugin's own editor. Calls come one after the other. A step that the sources give
  no meaning (a null or out-of-range access, any use behind `destroy()`) is a `Fault`.
-/
import ClapValidatorPlugins.Lib.Machine
import ClapValidatorPlugins.Lib.Yields
import ClapValidatorPlugins.Plugins.Registry

namespace Cvp

/-- One call on the instance. -/
inductive Call (D S : Type) where
  | init (earlyLog : List LogLine)
  | destroy
  | activate (sampleRate : D) (minFrames maxFrames : Nat)
  | deactivate
  | startProcessing
  | stopProcessing
  | reset
  | process (block : ProcessBlock D) (memory : AudioMemory D S)
  | getExtension (id : Option String)
  | onMainThread
  | paramsFlush (inEvents : Option (InputEvents D)) (hasOutEvents : Bool)
  | stateSave (stream : OStream)
  | stateLoad (stream : IStream)
  | audioPortsCount (isInput : Bool)
  | audioPortsGet (index : Nat) (isInput : Bool)
  | notePortsCount (isInput : Bool)
  | notePortsGet (index : Nat) (isInput : Bool)
  | audioPortsConfigSelect (configId : ClapId)
  | canApplyConfiguration (requests : PortConfigRequests)
  | applyConfiguration (requests : PortConfigRequests)
  | latencyGet
  | tailGet
  | voiceInfoGet
  | renderSet (mode : Int)
  | presetLoad (files : FileSystem) (kind : Nat) (location loadKey : Option String)
  | isChannelMaskSupported (channelMask : Nat)
  | getChannelMap (isInput : Bool) (portIndex capacity : Nat)
  | guiCreate (api : Option String) (isFloating : Bool) (native : NativeAnswer)
  | guiDestroy
  | gui (method : GuiMethod D) (native : NativeAnswer)
  | query (function : String)
  | violationsClear
  | uiEdit (edit : UiEdit D)

/-- What a call returns. -/
inductive Result (D S : Type) where
  | void
  | bool (value : Bool)
  | number (value : Nat)
  | process (reply : Plugin.ProcessReply D S)
  | flush (pushed : List (Event D))
  | save (ok : Bool) (stream : OStream)
  | audioPort (info : Option AudioPortInfo)
  | notePort (info : Option NotePortInfo)
  | channelMap (entries : List UInt8)
  | voiceInfo (info : VoiceInfo)

/-- The result of a call and the calls made on the host while it ran. -/
structure Reply (D S : Type) where
  result : Result D S
  hostCalls : List HostCall

/-- A plugin instance as the host holds it. -/
inductive Instance (D σ : Type) where
  | alive (p : Plugin D σ)
  /-- behind `destroy()`, with the monitor as it was at the end -/
  | deleted (contract : ContractMonitor)

namespace Instance

variable {D σ : Type}

def contract : Instance D σ → ContractMonitor
  | alive p => p.contract
  | deleted contract => contract

theorem deleted_ne_alive (contract : ContractMonitor) (p : Plugin D σ) :
    (deleted contract : Instance D σ) ≠ alive p := nofun

/-- A call that leaves the instance alive: the trampoline behind it returned that instance and
    what the result is made of. -/
theorem returned_alive {S ρ : Type} {x : Exec (Plugin D σ × ρ)}
    {f : Plugin D σ × ρ → Result D S} {q : Plugin D σ} {result : Result D S}
    (h : (x >>= fun r => .ok (alive r.1, f r)) = .ok (alive q, result)) :
    ∃ a, x = .ok (q, a) ∧ f (q, a) = result := by
  obtain ⟨⟨q', a⟩, hx, hret⟩ := Except.bind_eq_ok h
  cases hret
  exact ⟨a, hx, rfl⟩

end Instance

section

variable {D S σ : Type} [DoubleOps D]

/-- One call on a live instance, from thread `thread`. -/
def Plugin.call (impl : PluginImpl D S σ) (p : Plugin D σ) (thread : ThreadId) :
    Call D S → Exec (Instance D σ × Result D S)
  | .init earlyLog =>
    let r := p.sInit impl thread earlyLog
    .ok (.alive r.1, .bool r.2)
  | .destroy => .ok (.deleted (p.sDestroy thread).contract, .void)
  | .activate sampleRate minFrames maxFrames =>
    let r := p.sActivate impl thread sampleRate minFrames maxFrames
    .ok (.alive r.1, .bool r.2)
  | .deactivate => .ok (.alive (p.sDeactivate impl thread), .void)
  | .startProcessing =>
    let r := p.sStartProcessing impl thread
    .ok (.alive r.1, .bool r.2)
  | .stopProcessing => .ok (.alive (p.sStopProcessing impl thread), .void)
  | .reset => .ok (.alive (p.sReset impl thread), .void)
  | .process block memory => do
    let r ← p.sProcess impl thread block memory
    .ok (.alive r.1, .process r.2)
  | .getExtension id => do
    let r ← p.sGetExtension impl id
    .ok (.alive r.1, .bool r.2)
  | .onMainThread => .ok (.alive (p.sOnMainThread impl thread), .void)
  | .paramsFlush inEvents hasOutEvents => do
    let r ← Plugin.Params.sFlush impl p thread inEvents hasOutEvents
    .ok (.alive r.1, .flush r.2)
  | .stateSave stream => do
    let r ← Plugin.State.sSave impl p thread stream
    .ok (.alive r.1, .save r.2.1 r.2.2)
  | .stateLoad stream => do
    let r ← Plugin.State.sLoad impl p thread stream
    .ok (.alive r.1, .bool r.2)
  | .audioPortsCount isInput => do
    let r ← Plugin.AudioPorts.sCount impl p thread isInput
    .ok (.alive r.1, .number r.2)
  | .audioPortsGet index isInput => do
    let r ← Plugin.AudioPorts.sGet impl p thread index isInput
    .ok (.alive r.1, .audioPort r.2)
  | .notePortsCount isInput => do
    let r ← Plugin.NotePorts.sCount impl p thread isInput
    .ok (.alive r.1, .number r.2)
  | .notePortsGet index isInput => do
    let r ← Plugin.NotePorts.sGet impl p thread index isInput
    .ok (.alive r.1, .notePort r.2)
  | .audioPortsConfigSelect configId => do
    let r ← Plugin.AudioPortsConfig.sSelect impl p thread configId
    .ok (.alive r.1, .bool r.2)
  | .canApplyConfiguration requests => do
    let r ← Plugin.ConfigurableAudioPorts.sCanApply impl p thread requests
    .ok (.alive r.1, .bool r.2)
  | .applyConfiguration requests => do
    let r ← Plugin.ConfigurableAudioPorts.sApply impl p thread requests
    .ok (.alive r.1, .bool r.2)
  | .latencyGet => do
    let r ← Plugin.Latency.sGet impl p thread
    .ok (.alive r.1, .number r.2.toNat)
  | .tailGet => do
    let r ← Plugin.Tail.sGet impl p thread
    .ok (.alive r.1, .number r.2.toNat)
  | .voiceInfoGet => do
    let r ← Plugin.VoiceInfo.sGet impl p thread
    .ok (.alive r.1, .voiceInfo r.2)
  | .renderSet mode => do
    let r ← Plugin.Render.sSet impl p thread mode
    .ok (.alive r.1, .bool r.2)
  | .presetLoad files kind location loadKey => do
    let r ← Plugin.PresetLoad.sFromLocation impl p thread files kind location loadKey
    .ok (.alive r.1, .bool r.2)
  | .isChannelMaskSupported channelMask => do
    let r ← Plugin.Surround.sIsChannelMaskSupported impl p thread channelMask
    .ok (.alive r.1, .bool r.2)
  | .getChannelMap isInput portIndex capacity => do
    let r ← Plugin.Surround.sGetChannelMap impl p thread isInput portIndex capacity
    .ok (.alive r.1, .channelMap r.2)
  | .guiCreate api isFloating native => do
    let r ← Plugin.Gui.sCreate impl p thread api isFloating native
    .ok (.alive r.1, .bool r.2)
  | .guiDestroy => do
    let r ← Plugin.Gui.sDestroy impl p thread
    .ok (.alive r, .void)
  | .gui method native => do
    let r ← Plugin.Gui.sMethod impl p thread method native
    .ok (.alive r.1, .bool r.2)
  | .query function => .ok (.alive (p.sQuery thread function), .void)
  | .violationsClear => .ok (.alive p.violationsClear, .void)
  | .uiEdit edit =>
    match impl.uiEdit p.base p.self edit with
    | none => .error .nullDeref
    | some out => .ok (.alive (p.absorb out), .void)

/-- One step of a host: `hostCalls` collects what the plugin asks of the host meanwhile. -/
def hostStep (impl : PluginImpl D S σ) :
    Machine.Step (Instance D σ) (ThreadId × Call D S) (Reply D S) Fault
  | .deleted _, _ => .error .useAfterFree
  | .alive p, (thread, call) =>
    match Plugin.call impl { p with hostCalls := [] } thread call with
    | .error fault => .error fault
    | .ok (.deleted contract, result) =>
      .ok (.deleted contract, { result := result, hostCalls := [] })
    | .ok (.alive p, result) =>
      .ok (.alive p, { result := result, hostCalls := p.hostCalls })

/-- A step is a call on a live instance. -/
theorem hostStep_ok {impl : PluginImpl D S σ} {i i' : Instance D σ} {l : ThreadId × Call D S}
    {o : Reply D S} (h : hostStep impl i l = .ok (i', o)) :
    ∃ p, i = .alive p ∧
      Plugin.call impl { p with hostCalls := [] } l.1 l.2 = .ok (i', o.result) ∧
      ∀ q, i' = .alive q → o.hostCalls = q.hostCalls := by
  obtain ⟨thread, call⟩ := l
  cases i with
  | deleted contract => cases h
  | alive p =>
    refine ⟨p, rfl, ?_⟩
    rw [hostStep] at h
    split at h
    · cases h
    · rename_i contract result hcall
      cases h
      exact ⟨hcall, fun q hq => absurd hq (Instance.deleted_ne_alive _ q)⟩
    · rename_i p' result hcall
      cases h
      refine ⟨hcall, ?_⟩
      rintro _ ⟨⟩
      rfl

theorem hostStep_call {impl : PluginImpl D S σ} {p : Plugin D σ} {i : Instance D σ}
    {l : ThreadId × Call D S} {o : Reply D S} (h : hostStep impl (.alive p) l = .ok (i, o)) :
    Plugin.call impl { p with hostCalls := [] } l.1 l.2 = .ok (i, o.result) := by
  obtain ⟨_, ⟨⟩, hcall, -⟩ := hostStep_ok h
  exact hcall

end

namespace Flavor

variable {D S : Type} [DoubleOps D] [FloatOps S] [FloatCast D S] [DoubleBits D]

/-- A new instance of a flavor, before `init()`. -/
def instantiate (S : Type) [FloatOps S] [FloatCast D S] (flavor : Flavor) (host : Option Host) :
    Plugin D (flavor.State D S) :=
  Plugin.create (flavor.impl : PluginImpl D S _) host

/-- `p` is an instance some sequence of host calls can produce. -/
def Reachable (flavor : Flavor) (p : Plugin D (flavor.State D S)) : Prop :=
  ∃ host, Machine.Reachable (hostStep (flavor.impl : PluginImpl D S _))
    (.alive (flavor.instantiate S host)) (.alive p)

end Flavor

end Cvp
