/-
  `wrapper/plugin.h`, `plugin.cpp` and `hostinfo.cpp`: one plugin instance and the trampolines
  of the `clap_plugin` vtable. A trampoline checks the call against the contract, reports what
  it finds and forwards to the flavor's virtual method.

  Calls are sequential: a trampoline runs to its end before the next one starts, and host
  callbacks do not call back into the instance. `__func__` in the thread checks is the
  trampoline's own name.
-/
import ClapValidatorPlugins.Wrapper.ProcessChecks
import ClapValidatorPlugins.Wrapper.Virtuals

namespace Cvp

/-- A `Plugin` object together with its subclass part. -/
structure Plugin (D σ : Type) where
  host : Option Host
  contract : ContractMonitor := {}
  threads : ThreadChecker := {}
  logLifecycleEnabled : Bool := false
  firstProcessLogged : Bool := false
  sampleRate : D
  self : σ
  /-- every call made on the host so far, oldest first -/
  hostCalls : List HostCall := []

namespace Plugin

variable {D S σ : Type}

/-- The constructor, as the flavor's `create` factory runs it. -/
def create [DoubleOps D] (impl : PluginImpl D S σ) (host : Option Host) : Plugin D σ :=
  { host := host
    logLifecycleEnabled := impl.logLifecycle
    sampleRate := DoubleOps.lit 0
    self := impl.create }

def base (p : Plugin D σ) : Base D :=
  { isActive := p.contract.active, sampleRate := p.sampleRate, host := p.host }

def isActive (p : Plugin D σ) : Bool := p.contract.active

def isProcessing (p : Plugin D σ) : Bool := p.contract.processing

def report (p : Plugin D σ) (v : Violation) (function detail : String) : Plugin D σ :=
  { p with contract := p.contract.report v function detail }

def logToHost (p : Plugin D σ) (severity : LogSeverity) (text : String) : Plugin D σ :=
  { p with contract := p.contract.emit severity text }

def logLifecycle (p : Plugin D σ) (message : String) : Plugin D σ :=
  if p.logLifecycleEnabled then p.logToHost .info message else p

/-- `requestCallback`; a host's `request_callback` is assumed non-null. -/
def requestCallback (p : Plugin D σ) : Plugin D σ :=
  { p with
    contract := p.contract.noteCallbackRequested
    hostCalls := if p.host.isSome then p.hostCalls ++ [.requestCallback] else p.hostCalls }

def perform (p : Plugin D σ) : Effect → Plugin D σ
  | .log severity text => p.logToHost severity text
  | .requestCallback => p.requestCallback
  | .host call => { p with hostCalls := p.hostCalls ++ [call] }

/-- Take over what a virtual method did. -/
def absorb {α : Type} (p : Plugin D σ) (out : Outcome D σ α) : Plugin D σ :=
  out.effects.foldl perform { p with self := out.self }

def assertMainThread (p : Plugin D σ) (thread : ThreadId) (function : String) : Plugin D σ :=
  { p with contract := p.threads.assertMainThread p.contract thread function }

def assertAudioThread (p : Plugin D σ) (thread : ThreadId) (function : String) : Plugin D σ :=
  { p with contract := p.threads.assertAudioThread p.contract thread function }

/-! ## `captureActivateSnapshot` -/

/-- The layout of one direction as the provider reports it; a port it will not describe has no
    channels and no flags. -/
def declaredPorts (impl : PluginImpl D S σ) (s : σ) (isInput : Bool) : List PortLayout :=
  match impl.audioPorts with
  | none => []
  | some ports =>
    (List.range (ports.audioPortCount s isInput)).map fun i =>
      match ports.audioPortInfo s i isInput with
      | some info => { channels := info.channelCount, flags := info.flags }
      | none => { channels := 0, flags := {} }

/-- The param table as the provider reports it. -/
def declaredParams (impl : PluginImpl D S σ) : List ParamRecord :=
  match impl.params with
  | none => []
  | some params =>
    (List.range params.paramCount).filterMap fun i =>
      (params.paramInfo i).map fun info =>
        { id := info.id, flags := info.flags, cookie := info.cookie }

def captureActivateSnapshot (impl : PluginImpl D S σ) (p : Plugin D σ)
    (minFrames maxFrames : Nat) : Plugin D σ :=
  let contract := p.contract.setFrameBounds minFrames maxFrames
  let contract := contract.setPortLayout (declaredPorts impl p.self true)
    (declaredPorts impl p.self false)
  { p with contract := contract.setParams (declaredParams impl) }

/-! ## `logHostInfo` -/

/-- `kProbedHostExtensions`. -/
def kProbedHostExtensions : List String :=
  ["clap.ambisonic/3", "clap.audio-ports", "clap.audio-ports-config", "clap.context-menu/1",
   "clap.event-registry", "clap.gui", "clap.latency", "clap.log", "clap.note-name",
   "clap.note-ports", "clap.params", "clap.posix-fd-support", "clap.preset-load/2",
   "clap.remote-controls/2", "clap.state", "clap.surround/4", "clap.tail", "clap.thread-check",
   "clap.thread-pool", "clap.timer-support", "clap.track-info/1", "clap.voice-info"]

/-- The lines `logHostInfo` logs. -/
def hostInfoLines (host : Host) : List LogLine :=
  let text (t : Option String) : String := t.getD "?"
  let (major, minor, revision) := host.clapVersion
  let present := kProbedHostExtensions.filter host.hasExtension
  [⟨.info, snprintf 256 ("host: name='" ++ text host.name ++ "' vendor='" ++ text host.vendor ++
      "' version='" ++ text host.version ++ "' url='" ++ text host.url ++ "'")⟩,
   ⟨.info, s!"host: clap version {major}.{minor}.{revision}"⟩] ++
  kProbedHostExtensions.map (fun id => ⟨.debug, "host: extension " ++ padRight 28 id ++ " " ++
    (if host.hasExtension id then "PRESENT" else "absent")⟩) ++
  [⟨.info, s!"host: {present.length} of {kProbedHostExtensions.length} probed host " ++
    "extensions present"⟩]

def logLines (p : Plugin D σ) (lines : List LogLine) : Plugin D σ :=
  lines.foldl (fun p line => p.logToHost line.severity line.text) p

def logHostInfo (p : Plugin D σ) : Plugin D σ :=
  match p.host with
  | none => p
  | some host => p.logLines (hostInfoLines host)

/-! ## Lifecycle trampolines -/

/-- `sInit`; `earlyLog` is what `earlylog::copyInto` finds and copies into the `LogBuffer`, nowhere
    else. -/
def sInit (impl : PluginImpl D S σ) (p : Plugin D σ) (thread : ThreadId)
    (earlyLog : List LogLine) : Plugin D σ × Bool :=
  let p := p.assertMainThread thread "sInit"
  if p.contract.initialized then
    -- already initialized: don't run init logic again
    (p.report .L02 "init()" "called twice on the same instance", true)
  else
    let p := { p with threads := p.threads.onInit p.host thread }
    let p := p.logLines earlyLog
    -- set before the virtual: get_extension() is legal from within init()
    let p := { p with contract := { p.contract with initialized := true } }
    let p := p.logHostInfo
    let p := p.logLifecycle "lifecycle: init()"
    let out := impl.init p.base p.self
    (p.absorb out, out.value)

/-- `sDestroy`, up to the `delete`. -/
def sDestroy (p : Plugin D σ) (thread : ThreadId) : Plugin D σ :=
  let p := p.assertMainThread thread "sDestroy"
  let p := if p.contract.active then
      p.report .L06 "destroy()" "called while the plugin is still active"
    else p
  let p := { p with contract := p.contract.logSummary }
  p.logLifecycle "lifecycle: destroy()"

/-- The rest of `sActivate` behind its checks, with the bounds as clamped. -/
def activateWith [DoubleOps D] (impl : PluginImpl D S σ) (p : Plugin D σ) (sampleRate : D)
    (minFrames maxFrames : Nat) : Plugin D σ × Bool :=
  let p := p.logLifecycle (snprintf 128 ("lifecycle: activate(sr=" ++
    DoubleOps.formatFixed 1 sampleRate ++ s!", min={minFrames}, max={maxFrames})"))
  let p := { p with
    sampleRate := sampleRate
    contract := { p.contract with beingActivated := true } }
  let out := impl.activate p.base p.self sampleRate minFrames maxFrames
  let p := p.absorb out
  let p :=
    if out.value then
      let p := captureActivateSnapshot impl p minFrames maxFrames
      { p with contract := { p.contract with active := true } }
    else p
  ({ p with
      contract := { p.contract with beingActivated := false }
      firstProcessLogged := false }, out.value)

def sActivate [DoubleOps D] (impl : PluginImpl D S σ) (p : Plugin D σ) (thread : ThreadId)
    (sampleRate : D) (minFrames maxFrames : Nat) : Plugin D σ × Bool :=
  let p := p.assertMainThread thread "sActivate"
  if p.contract.active then (p.report .L03 "activate()" "called while already active", false)
  else if minFrames < 1 ∨ maxFrames < minFrames then
    let p := p.report .L13 "activate()"
      (snprintf 96 s!"invalid frame bounds (min={minFrames}, max={maxFrames})")
    let minFrames := max minFrames 1
    activateWith impl p sampleRate minFrames (max maxFrames minFrames)
  else activateWith impl p sampleRate minFrames maxFrames

def sDeactivate (impl : PluginImpl D S σ) (p : Plugin D σ) (thread : ThreadId) : Plugin D σ :=
  let p := p.assertMainThread thread "sDeactivate"
  if !p.contract.active then p.report .L04 "deactivate()" "called while not active"
  else
    let p :=
      if p.contract.processing then
        let p := p.report .L05 "deactivate()"
          "called while still processing (missing stop_processing())"
        let p := p.absorb (impl.stopProcessing p.base p.self)
        { p with contract := { p.contract with processing := false } }
      else p
    let p := p.logLifecycle "lifecycle: deactivate()"
    let p := p.absorb (impl.deactivate p.base p.self)
    { p with contract := { p.contract with active := false } }

def sStartProcessing (impl : PluginImpl D S σ) (p : Plugin D σ) (thread : ThreadId) :
    Plugin D σ × Bool :=
  let p := p.assertAudioThread thread "sStartProcessing"
  if !p.contract.active then
    (p.report .L07 "start_processing()" "called while not active", false)
  else if p.contract.processing then
    (p.report .L07 "start_processing()" "called while already processing", true)
  else
    let p := p.logLifecycle "lifecycle: start_processing()"
    let out := impl.startProcessing p.base p.self
    let p := p.absorb out
    let p := { p with contract := { p.contract with processing := out.value } }
    ({ p with contract := p.contract.invalidateSteadyTime }, out.value)

def sStopProcessing (impl : PluginImpl D S σ) (p : Plugin D σ) (thread : ThreadId) :
    Plugin D σ :=
  let p := p.assertAudioThread thread "sStopProcessing"
  let p := if !p.contract.active then
      p.report .L08 "stop_processing()" "called while not active"
    else p
  if !p.contract.processing then p.report .L08 "stop_processing()" "called while not processing"
  else
    let p := p.logLifecycle "lifecycle: stop_processing()"
    let p := p.absorb (impl.stopProcessing p.base p.self)
    { p with contract := { p.contract with processing := false } }

def sReset (impl : PluginImpl D S σ) (p : Plugin D σ) (thread : ThreadId) : Plugin D σ :=
  let p := p.assertAudioThread thread "sReset"
  let p := if !p.contract.active then p.report .L10 "reset()" "called while not active" else p
  let p := p.logLifecycle "lifecycle: reset()"
  -- a reset may legally jump steady_time backwards: re-baseline
  let p := { p with contract := p.contract.invalidateSteadyTime }
  p.absorb (impl.reset p.base p.self)

/-! ## `sProcess` -/

/-- What `sProcess` decides before it calls the virtual method. -/
inductive Gate where
  /-- `CLAP_PROCESS_ERROR` without reaching the flavor -/
  | reject
  | forward
  deriving DecidableEq, Repr

/-- The `ProcessGuard` destructor. -/
def leaveProcess (p : Plugin D σ) : Plugin D σ :=
  { p with contract := { p.contract with inProcess := false } }

def logFirstProcess (p : Plugin D σ) (framesCount : UInt32) : Plugin D σ :=
  if p.logLifecycleEnabled && !p.firstProcessLogged then
    { p with firstProcessLogged := true }.logToHost .info
      s!"lifecycle: first process() (frames={framesCount.toNat})"
  else p

/-- `sProcess` up to the virtual call; on `forward` the process guard is still held. -/
def processGate (p : Plugin D σ) (thread : ThreadId) (block : ProcessBlock D) :
    Gate × Plugin D σ :=
  let p := p.assertAudioThread thread "sProcess"
  if p.contract.inProcess then
    (.reject, p.report .L12 "process()" "called concurrently with another process() call")
  else
    let p := { p with contract := { p.contract with inProcess := true } }
    if !p.contract.active || !p.contract.processing then
      (.reject, (p.report .L09 "process()" "called while not active/processing").leaveProcess)
    else
      let p := p.logFirstProcess block.framesCount
      let (processable, contract) := checkProcessContracts p.contract block
      let p := { p with contract := contract }
      if processable then (.forward, p) else (.reject, p.leaveProcess)

/-- What `process()` hands back to the host. -/
structure ProcessReply (D S : Type) where
  status : ProcessStatus
  pushed : List (Event D) := []
  memory : AudioMemory D S

def sProcess (impl : PluginImpl D S σ) (p : Plugin D σ) (thread : ThreadId)
    (block : ProcessBlock D) (memory : AudioMemory D S) :
    Exec (Plugin D σ × ProcessReply D S) :=
  match p.processGate thread block with
  | (.reject, p) => .ok (p, { status := .error, memory := memory })
  | (.forward, p) =>
    match impl.process p.base p.self block memory with
    | .error fault => .error fault
    | .ok (out, memory) =>
      .ok ((p.absorb out).leaveProcess,
        { status := out.value, pushed := out.pushed, memory := memory })

/-! ## `sGetExtension`, `sOnMainThread` -/

/-- `CVP_EXT_VIOLATIONS`. -/
def extViolations : String := "org.clap-validator.violations/1"

/-- `sGetExtension`: whether the host gets a vtable. A null id is compared with the table's
    entries by `strcmp`. -/
def sGetExtension (impl : PluginImpl D S σ) (p : Plugin D σ) (id : Option String) :
    Exec (Plugin D σ × Bool) :=
  match id with
  | none => if impl.extensions.isEmpty then .ok (p, false) else .error .nullDeref
  | some id =>
    let p :=
      if !p.contract.initialized && id != extViolations then
        p.report .L01 "get_extension()"
          (snprintf 128 ("get_extension(\"" ++ id ++ "\") called before init()"))
      else p
    .ok (p, id == extViolations || impl.extensions.contains id)

def sOnMainThread (impl : PluginImpl D S σ) (p : Plugin D σ) (thread : ThreadId) : Plugin D σ :=
  let p := p.assertMainThread thread "sOnMainThread"
  let (pending, contract) := p.contract.consumePendingCallbacks
  let p := { p with contract := contract }
  let p := if !pending then
      p.report .L11 "on_main_thread()" "called without a pending request_callback()"
    else p
  let p := p.logLifecycle "lifecycle: on_main_thread()"
  p.absorb (impl.onMainThread p.base p.self)

end Plugin

end Cvp
