/-
  `wrapper/ext/*.cpp`: the vtables of the extensions a flavor can register. A trampoline looks
  its provider up and calls it; the host can only get a vtable that was registered, so a missing
  provider is a null dereference. Methods that check nothing but the calling thread and change
  nothing are one trampoline, `sQuery`.
-/
import ClapValidatorPlugins.Wrapper.Plugin

namespace Cvp.Plugin

variable {D S σ : Type}

/-- `provider(p)->...`. -/
def provider {α : Type} (p : Option α) : Exec α :=
  match p with
  | some provider => .ok provider
  | none => .error .nullDeref

/-- A read-only method behind `CVP_ASSERT_MAIN_THREAD`: port-config, param and preset lists,
    note names, remote controls, `render.has_hard_realtime_requirement`, and the like. -/
def sQuery (p : Plugin D σ) (thread : ThreadId) (function : String) : Plugin D σ :=
  p.assertMainThread thread function

/-! ## params, state -/

namespace Params

/-- `sFlush`. -/
def sFlush (impl : PluginImpl D S σ) (p : Plugin D σ) (thread : ThreadId)
    (inEvents : Option (InputEvents D)) (hasOutEvents : Bool) :
    Exec (Plugin D σ × List (Event D)) := do
  let p := if p.contract.inProcess then
      p.report .P07 "params.flush()" "called concurrently with process()"
    else p
  let p :=
    if p.contract.active then
      if p.threads.confirmedNotAudioThread thread then
        p.report .T03 "params.flush()" "must be on the audio thread while the plugin is active"
      else p
    else if p.threads.confirmedNotMainThread thread then
      p.report .T03 "params.flush()" "must be on the main thread while the plugin is inactive"
    else p
  -- no transport here, so P14 never fires for flush deliveries
  let p := { p with contract := { p.contract with
    findings := p.contract.findings.reportAll (checkParamEvents p.contract inEvents none) } }
  let params ← provider impl.params
  let out ← params.paramsFlush p.base p.self inEvents hasOutEvents
  .ok (p.absorb out, out.pushed)

end Params

namespace State

def sSave (impl : PluginImpl D S σ) (p : Plugin D σ) (thread : ThreadId) (stream : OStream) :
    Exec (Plugin D σ × Bool × OStream) := do
  let p := p.assertMainThread thread "sSave"
  let state ← provider impl.state
  let (out, stream) ← state.stateSave p.self stream
  .ok (p.absorb out, out.value, stream)

def sLoad (impl : PluginImpl D S σ) (p : Plugin D σ) (thread : ThreadId) (stream : IStream) :
    Exec (Plugin D σ × Bool) := do
  let p := p.assertMainThread thread "sLoad"
  let state ← provider impl.state
  let (out, _) ← state.stateLoad p.self stream
  .ok (p.absorb out, out.value)

end State

/-! ## Port extensions -/

/-- `checkNotActive` of audio_ports.cpp and note_ports.cpp: a scan while active is reported. -/
def checkNoScan (p : Plugin D σ) (code : Violation) (function : String) : Plugin D σ :=
  if p.contract.active && !p.contract.beingActivated then
    p.report code function "port scan while active (only legal when deactivated)"
  else p

namespace AudioPorts

def sCount (impl : PluginImpl D S σ) (p : Plugin D σ) (thread : ThreadId) (isInput : Bool) :
    Exec (Plugin D σ × Nat) := do
  let p := (p.assertMainThread thread "sCount").checkNoScan .AP01 "audio_ports.count()"
  let ports ← provider impl.audioPorts
  .ok (p, ports.audioPortCount p.self isInput)

def sGet (impl : PluginImpl D S σ) (p : Plugin D σ) (thread : ThreadId) (index : Nat)
    (isInput : Bool) : Exec (Plugin D σ × Option AudioPortInfo) := do
  let p := (p.assertMainThread thread "sGet").checkNoScan .AP01 "audio_ports.get()"
  let ports ← provider impl.audioPorts
  .ok (p, ports.audioPortInfo p.self index isInput)

end AudioPorts

namespace NotePorts

def sCount (impl : PluginImpl D S σ) (p : Plugin D σ) (thread : ThreadId) (isInput : Bool) :
    Exec (Plugin D σ × Nat) := do
  let p := (p.assertMainThread thread "sCount").checkNoScan .NP01 "note_ports.count()"
  let ports ← provider impl.notePorts
  .ok (p, ports.notePortCount isInput)

def sGet (impl : PluginImpl D S σ) (p : Plugin D σ) (thread : ThreadId) (index : Nat)
    (isInput : Bool) : Exec (Plugin D σ × Option NotePortInfo) := do
  let p := (p.assertMainThread thread "sGet").checkNoScan .NP01 "note_ports.get()"
  let ports ← provider impl.notePorts
  .ok (p, ports.notePortInfo index isInput)

end NotePorts

namespace AudioPortsConfig

def sSelect (impl : PluginImpl D S σ) (p : Plugin D σ) (thread : ThreadId) (configId : ClapId) :
    Exec (Plugin D σ × Bool) := do
  let p := p.assertMainThread thread "sSelect"
  if p.contract.active then
    .ok (p.report .AC01 "audio_ports_config.select()"
      "called while active (only legal when deactivated)", false)
  else
    let config ← provider impl.audioPortsConfig
    let out := config.audioPortsConfigSelect p.base p.self configId
    .ok (p.absorb out, out.value)

end AudioPortsConfig

namespace ConfigurableAudioPorts

def sCanApply (impl : PluginImpl D S σ) (p : Plugin D σ) (thread : ThreadId)
    (requests : PortConfigRequests) : Exec (Plugin D σ × Bool) := do
  let p := p.assertMainThread thread "sCanApply"
  if p.contract.active then
    .ok (p.report .CA01 "configurable_audio_ports.can_apply_configuration()"
      "called while active (only legal when deactivated)", false)
  else
    let config ← provider impl.configurableAudioPorts
    let out := config.canApplyConfiguration p.base p.self requests
    .ok (p.absorb out, out.value)

def sApply (impl : PluginImpl D S σ) (p : Plugin D σ) (thread : ThreadId)
    (requests : PortConfigRequests) : Exec (Plugin D σ × Bool) := do
  let p := p.assertMainThread thread "sApply"
  if p.contract.active then
    .ok (p.report .CA01 "configurable_audio_ports.apply_configuration()"
      "called while active (only legal when deactivated)", false)
  else
    let config ← provider impl.configurableAudioPorts
    let out := config.applyConfiguration p.base p.self requests
    .ok (p.absorb out, out.value)

end ConfigurableAudioPorts

/-! ## latency, tail, voice-info, render -/

namespace Latency

def sGet (impl : PluginImpl D S σ) (p : Plugin D σ) (thread : ThreadId) :
    Exec (Plugin D σ × UInt32) := do
  let p := p.assertMainThread thread "sGet"
  let p := if !p.contract.active && !p.contract.beingActivated then
      p.report .LT01 "latency.get()" "called while neither active nor being activated"
    else p
  let latency ← provider impl.latency
  .ok (p, latency.latency p.base p.self)

end Latency

namespace Tail

def sGet (impl : PluginImpl D S σ) (p : Plugin D σ) (thread : ThreadId) :
    Exec (Plugin D σ × UInt32) := do
  let p :=
    if p.threads.confirmedNotMainThread thread && p.threads.confirmedNotAudioThread thread then
      p.report .T04 "tail.get()" "called on a thread that is neither main nor audio"
    else p
  let tail ← provider impl.tail
  .ok (p, tail.tail p.base p.self)

end Tail

namespace VoiceInfo

def sGet (impl : PluginImpl D S σ) (p : Plugin D σ) (thread : ThreadId) :
    Exec (Plugin D σ × VoiceInfo) := do
  let p := p.assertMainThread thread "sGet"
  let p := if !p.contract.active then
      p.report .VI01 "voice_info.get()" "called while not active"
    else p
  let voices ← provider impl.voiceInfo
  .ok (p, voices.voiceInfo)

end VoiceInfo

namespace Render

/-- `CLAP_RENDER_REALTIME` and `CLAP_RENDER_OFFLINE`. -/
def isRenderMode (mode : Int) : Bool := mode == 0 || mode == 1

def sSet (impl : PluginImpl D S σ) (p : Plugin D σ) (thread : ThreadId) (mode : Int) :
    Exec (Plugin D σ × Bool) := do
  let p := p.assertMainThread thread "sSet"
  if !isRenderMode mode then
    .ok (p.report .R01 "render.set()" (snprintf 64 s!"unknown render mode {mode}"), false)
  else
    let render ← provider impl.render
    let out := render.renderSet p.self mode
    .ok (p.absorb out, out.value)

end Render

/-! ## preset-load, surround -/

namespace PresetLoad

/-- `CLAP_PRESET_DISCOVERY_LOCATION_FILE`. -/
def locationFile : Nat := 0

/-- `CLAP_PRESET_DISCOVERY_LOCATION_PLUGIN`. -/
def locationPlugin : Nat := 1

def sFromLocation (impl : PluginImpl D S σ) (p : Plugin D σ) (thread : ThreadId)
    (files : FileSystem) (kind : Nat) (location loadKey : Option String) :
    Exec (Plugin D σ × Bool) := do
  let p := p.assertMainThread thread "sFromLocation"
  if kind = locationFile ∧ location = none then
    .ok (p.report .PL01 "preset_load.from_location()" "FILE location kind with a null location",
      false)
  else
    let p := if kind = locationPlugin ∧ location.isSome then
        p.report .PL01 "preset_load.from_location()"
          "PLUGIN location kind with a non-null location (must be null)"
      else p
    let preset ← provider impl.presetLoad
    let out := preset.presetLoadFromLocation p.base p.self files kind location loadKey
    .ok (p.absorb out, out.value)

end PresetLoad

namespace Surround

def sIsChannelMaskSupported (impl : PluginImpl D S σ) (p : Plugin D σ) (thread : ThreadId)
    (channelMask : Nat) : Exec (Plugin D σ × Bool) := do
  let p := p.assertMainThread thread "sIsChannelMaskSupported"
  let surround ← provider impl.surround
  let out := surround.surroundIsChannelMaskSupported p.self channelMask
  .ok (p.absorb out, out.value)

/-- The channel count the port declares, where the provider describes the port. -/
def portChannels (impl : PluginImpl D S σ) (s : σ) (isInput : Bool) (portIndex : Nat) :
    Option Nat :=
  impl.audioPorts.bind fun ports => (ports.audioPortInfo s portIndex isInput).map (·.channelCount)

def sGetChannelMap (impl : PluginImpl D S σ) (p : Plugin D σ) (thread : ThreadId)
    (isInput : Bool) (portIndex capacity : Nat) : Exec (Plugin D σ × List UInt8) := do
  let p := p.assertMainThread thread "sGetChannelMap"
  let p :=
    match portChannels impl p.self isInput portIndex with
    | some channels =>
      if capacity < channels then
        p.report .SR01 "surround.get_channel_map()" (snprintf 128
          (s!"channel_map_capacity={capacity} is smaller than the port's channel count " ++
            toString channels))
      else p
    | none => p
  let surround ← provider impl.surround
  let out := surround.surroundChannelMap p.self isInput portIndex capacity
  .ok (p.absorb out, out.value)

end Surround

/-! ## violations -/

/-- `violationsClear` of the `org.clap-validator.violations` vtable. -/
def violationsClear (p : Plugin D σ) : Plugin D σ := { p with contract := p.contract.clear }

/-! ## gui -/

namespace Gui

/-- What a method requires of the gui besides having been created. -/
inductive WindowRule where
  | any | embedded | floating
  deriving DecidableEq, Repr

/-- The rules of the trampolines other than `sCreate` and `sDestroy`: whether the gui must have
    been created, which windows the method is for, the name in the report. -/
def rule : GuiMethod D → Bool × WindowRule × String
  | .isApiSupported _ _ => (false, .any, "gui.is_api_supported()")
  | .getPreferredApi => (false, .any, "gui.get_preferred_api()")
  | .setScale _ => (true, .any, "gui.set_scale()")
  | .getSize => (true, .any, "gui.get_size()")
  | .canResize => (true, .embedded, "gui.can_resize()")
  | .getResizeHints => (true, .embedded, "gui.get_resize_hints()")
  | .adjustSize _ _ => (true, .embedded, "gui.adjust_size()")
  | .setSize _ _ => (true, .embedded, "gui.set_size()")
  | .setParent => (true, .embedded, "gui.set_parent()")
  | .setTransient => (true, .floating, "gui.set_transient()")
  | .suggestTitle _ => (true, .floating, "gui.suggest_title()")
  | .show => (true, .any, "gui.show()")
  | .hide => (true, .any, "gui.hide()")

/-- `requireCreated`, `requireEmbedded`, `requireFloating`: the finding, if any. -/
def broken (p : Plugin D σ) (method : GuiMethod D) : Option Finding :=
  let (needsGui, window, function) := rule method
  if needsGui && !p.contract.guiCreated then
    some ⟨.G01, function, "called before gui create()"⟩
  else match window with
    | .any => none
    | .embedded =>
      if p.contract.guiFloating then
        some ⟨.G04, function, "embedded-only method called on a floating gui"⟩
      else none
    | .floating =>
      if p.contract.guiFloating then none
      else some ⟨.G04, function, "floating-only method called on an embedded gui"⟩

def sCreate (impl : PluginImpl D S σ) (p : Plugin D σ) (thread : ThreadId) (api : Option String)
    (isFloating : Bool) (native : NativeAnswer) : Exec (Plugin D σ × Bool) := do
  let p := p.assertMainThread thread "sCreate"
  if p.contract.guiCreated then
    .ok (p.report .G02 "gui.create()" "called while a gui already exists", false)
  else
    let gui ← provider impl.gui
    let out := gui.guiCreate p.self api isFloating native
    let p := p.absorb out
    .ok (if out.value then { p with contract := p.contract.setGuiCreated true isFloating } else p,
      out.value)

def sDestroy (impl : PluginImpl D S σ) (p : Plugin D σ) (thread : ThreadId) :
    Exec (Plugin D σ) := do
  let p := p.assertMainThread thread "sDestroy"
  let p := if !p.contract.guiCreated then
      p.report .G03 "gui.destroy()" "called without a created gui"
    else p
  let gui ← provider impl.gui
  -- delegated regardless: the provider tears down defensively
  let p := p.absorb (gui.guiDestroy p.self)
  .ok { p with contract := p.contract.setGuiCreated false false }

/-- `__func__` of the trampoline. -/
def functionName : GuiMethod D → String
  | .isApiSupported _ _ => "sIsApiSupported"
  | .getPreferredApi => "sGetPreferredApi"
  | .setScale _ => "sSetScale"
  | .getSize => "sGetSize"
  | .canResize => "sCanResize"
  | .getResizeHints => "sGetResizeHints"
  | .adjustSize _ _ => "sAdjustSize"
  | .setSize _ _ => "sSetSize"
  | .setParent => "sSetParent"
  | .setTransient => "sSetTransient"
  | .suggestTitle _ => "sSuggestTitle"
  | .show => "sShow"
  | .hide => "sHide"

/-- The other trampolines. -/
def sMethod (impl : PluginImpl D S σ) (p : Plugin D σ) (thread : ThreadId)
    (method : GuiMethod D) (native : NativeAnswer) : Exec (Plugin D σ × Bool) := do
  let p := p.assertMainThread thread (functionName method)
  match broken p method with
  | some finding =>
    .ok (p.report finding.violation finding.function finding.detail, false)
  | none =>
    let gui ← provider impl.gui
    let out := gui.guiMethod p.self method native
    .ok (p.absorb out, out.value)

end Gui

end Cvp.Plugin
