/-
  `plugins/effect/effect.cpp`, `plugins/multiout_gen/multiout_gen.cpp` and
  `plugins/multiout_fx/multiout_fx.cpp`: the gain effect with latency, tail and render mode, and
  the two flavors with switchable output configurations.

  Left out: descriptors and remote controls.
-/
import ClapValidatorPlugins.Plugins.Common

namespace Cvp

section

variable {D S : Type} [DoubleOps D] [FloatOps S] [FloatCast D S]

namespace EffectPlugin

def kParamGain : ClapId := 0
def kParamLatency : ClapId := 1
def kParamTail : ClapId := 2

/-- `paramStorage`. -/
def paramIds : List ClapId := [kParamGain, kParamLatency, kParamTail]

structure State (D : Type) where
  params : ParamValues D
  /-- `CLAP_RENDER_REALTIME` is 0 -/
  renderMode : Int
  silentInputSamples : UInt64

def create : State D :=
  { params := fun _ => DoubleOps.lit 0, renderMode := 0, silentInputSamples := 0 }

def audioPortInfo (index : Nat) (isInput : Bool) : Option AudioPortInfo :=
  if index != 0 then none
  else some
    { id := 0, name := if isInput then "Input" else "Output"
      flags := { isMain := true, supports64Bits := true, requiresCommonSampleSize := true }
      channelCount := 2, portType := .stereo, inPlacePair := some 0 }

def paramInfos : List (ParamInfo D) :=
  [{ id := kParamGain, name := "Gain", flags := { isAutomatable := true }
     minValue := DoubleOps.lit (-36), maxValue := DoubleOps.lit 36
     defaultValue := DoubleOps.lit 0 },
   { id := kParamLatency, name := "Latency", flags := { isStepped := true }
     minValue := DoubleOps.lit 0, maxValue := DoubleOps.lit 8192
     defaultValue := DoubleOps.lit 0 },
   { id := kParamTail, name := "Tail", flags := { isAutomatable := true }
     minValue := DoubleOps.lit 0, maxValue := DoubleOps.lit 10
     defaultValue := DoubleOps.lit 0 }]

def paramValueToText (paramId : ClapId) (value : D) (capacity : Nat) : Option String :=
  if paramId = kParamGain then some (fixedText 1 " dB" value capacity)
  else if paramId = kParamLatency then
    some (snprintf capacity (toString (DoubleOps.toInt value) ++ " smp"))
  else if paramId = kParamTail then some (fixedText 2 " s" value capacity)
  else none

def paramTextToValue (paramId : ClapId) (text : String) : Option D :=
  if paramId ∉ paramIds then none else numberValue text

/-- The stores of `applyParamEvent`; a changed Latency asks an active plugin's host to restart. -/
def applyParamEvent (base : Base D) (s : State D) (header : Event D) : Outcome D (State D) Unit :=
  if !header.isCore then .done s
  else match header.body with
    | .paramValue target x =>
      if target.paramId ∈ paramIds then
        let previous := s.params target.paramId
        let s := { s with params := storeParam paramIds s.params target.paramId x }
        if target.paramId = kParamLatency ∧ DoubleOps.ne previous x ∧ base.isActive ∧
            base.host.isSome then
          { value := (), self := s, effects := [.host .requestRestart] }
        else .done s
      else .done s
    | _ => .done s

def paramsFlush (base : Base D) (s : State D) (inEvents : Option (InputEvents D)) (_ : Bool) :
    Exec (Outcome D (State D) Unit) := do
  let headers ← unguardedHeaders inEvents
  .ok (consume (applyParamEvent base) s headers)

def latency (_ : Base D) (s : State D) : UInt32 := DoubleOps.toUInt32 (s.params kParamLatency)

def tail (base : Base D) (s : State D) : UInt32 :=
  DoubleOps.toUInt32 (s.params kParamTail * base.sampleRate)

def renderSet (s : State D) (mode : Int) : Outcome D (State D) Bool :=
  if mode ≠ 0 ∧ mode ≠ 1 then .just false s else .just true { s with renderMode := mode }

/-- A channel of either sample size. -/
inductive Channel where
  | f32 (p : Ptr)
  | f64 (p : Ptr)

/-- `src[i]`, promoted to `double`. -/
def Channel.read (memory : AudioMemory D S) (i : Nat) : Channel → D
  | .f32 p => FloatCast.toDouble (memory.f32 p i)
  | .f64 p => memory.f64 p i

/-- `src[i] != 0`. -/
def Channel.isLive (memory : AudioMemory D S) (i : Nat) : Channel → Bool
  | .f32 p => FloatOps.ne (memory.f32 p i) (FloatOps.lit 0)
  | .f64 p => DoubleOps.ne (memory.f64 p i) (DoubleOps.lit 0)

/-- `dst[i] = static_cast<...>(x)`. -/
def Channel.write (memory : AudioMemory D S) (i : Nat) (x : D) : Channel → AudioMemory D S
  | .f32 p => { memory with f32 := memory.f32.write p i (FloatCast.toFloat x) }
  | .f64 p => { memory with f64 := memory.f64.write p i x }

/-- `applyGain`: the gain pass over one channel, which is also the silence scan. -/
def applyGain (gain : D) (src dst : Channel) (frames : Nat) (inputSilent : Bool)
    (memory : AudioMemory D S) : Bool × AudioMemory D S :=
  frameLoop (fun i (silent, memory) =>
    (silent && !src.isLive memory i, dst.write memory i (src.read memory i * gain)))
    0 frames (inputSilent, memory)

/-- The 64-bit pointers where the buffer has them, else the 32-bit ones. -/
def channel (buffer : AudioBuffer) (ch : Nat) : Exec Channel :=
  if buffer.data64.isSome then .f64 <$> channelAt buffer.data64 ch
  else .f32 <$> channelAt buffer.data32 ch

def gainChannels (gain : D) (input output : AudioBuffer) (frames : Nat) :
    Nat → Nat → Bool × AudioMemory D S → Exec (Bool × AudioMemory D S)
  | _, 0, acc => .ok acc
  | ch, count + 1, (silent, memory) => do
    let src ← channel input ch
    let dst ← channel output ch
    gainChannels gain input output frames (ch + 1) count
      (applyGain gain src dst frames silent memory)

/-- `!buffer.data32 && !buffer.data64`. -/
def noData (buffer : AudioBuffer) : Bool := !buffer.data32.isSome && !buffer.data64.isSome

/-- The silence count and the status at the end of a block. -/
def finish (base : Base D) (s : State D) (frames : UInt32) (inputSilent : Bool) :
    State D × ProcessStatus :=
  if !inputSilent then ({ s with silentInputSamples := 0 }, .continue)
  else
    let s := { s with silentInputSamples := s.silentInputSamples + frames.toUInt64 }
    (s, if s.silentInputSamples ≤ (tail base s).toUInt64 then .tail else .sleep)

def process (base : Base D) (s : State D) (block : ProcessBlock D) (memory : AudioMemory D S) :
    Exec (Outcome D (State D) ProcessStatus × AudioMemory D S) :=
  match block.audioInputs, block.audioOutputs with
  | input :: _, output :: _ => do
    let headers ← guardedHeaders block.inEvents
    let consumed := consume (applyParamEvent base) s headers
    let s := consumed.self
    let gain : D := DoubleOps.pow (DoubleOps.lit 10) (s.params kParamGain / DoubleOps.lit 20)
    if noData input || noData output then
      .ok ({ value := .error, self := s, effects := consumed.effects }, memory)
    else
      let (silent, memory) ← gainChannels gain input output block.framesCount.toNat 0
        (commonChannels input output) (true, memory)
      let (s, status) := finish base s block.framesCount silent
      .ok ({ value := status, self := s, effects := consumed.effects }, memory)
  | _, _ => .ok (.just .error s, memory)

variable [DoubleBits D]

def stateSave (s : State D) (stream : OStream) : Exec (Outcome D (State D) Bool × OStream) := do
  let (ok, stream) ← saveRecords kStateMagic paramIds s.params stream
  .ok (.just ok s, stream)

def stateLoad (s : State D) (stream : IStream) : Exec (Outcome D (State D) Bool × IStream) := do
  let (ok, params, stream) ← loadCounted kStateMagic paramIds s.params stream
  .ok (.just ok { s with params := params }, stream)

def impl : PluginImpl D S (State D) where
  create := create
  extensions := ["clap.audio-ports", "clap.params", "clap.state", "clap.latency", "clap.tail",
    "clap.render", "clap.remote-controls/2", "clap.remote-controls.draft/2"]
  process := process
  audioPorts := some
    { audioPortCount := fun _ _ => 1, audioPortInfo := fun _ => audioPortInfo }
  params := some
    { paramCount := 3, paramInfo := paramTable paramInfos
      paramValue := fun s => loadParam paramIds s.params, paramsFlush := paramsFlush }
  state := some { stateSave := stateSave, stateLoad := stateLoad }
  latency := some { latency := latency }
  tail := some { tail := tail }
  render := some { renderSet := renderSet }

end EffectPlugin

/-! ## Switchable configurations -/

def kConfigStereo : ClapId := 0
def kConfigMultiOut : ClapId := 1

/-- The test of both `audioPortsConfigSelect` methods. -/
def selectsConfig (isActive : Bool) (configId : ClapId) : Bool :=
  !isActive && (configId == kConfigStereo || configId == kConfigMultiOut)

/-- The output port `index` of both flavors: the main port keeps id 0 in both configurations. -/
def multiOutPort (index : Nat) (mainPair : Option ClapId) : AudioPortInfo :=
  { id := UInt32.ofNat index
    name := if index = 0 then "Output" else s!"Aux {index}"
    flags := if index = 0 then { isMain := true } else {}
    channelCount := 2
    portType := .stereo
    inPlacePair := if index = 0 then mainPair else none }

namespace MultiOutGenPlugin

def kParamLevel : ClapId := 0

/-- `paramStorage`. -/
def paramIds : List ClapId := [kParamLevel]

def kMaxPorts : Nat := 5

structure State (D : Type) where
  params : ParamValues D
  config : ClapId
  /-- `_phases[kMaxPorts]`, by port -/
  phases : Nat → D

def create : State D :=
  { params := fun _ => DoubleOps.lit (1 / 2), config := kConfigStereo
    phases := fun _ => DoubleOps.lit 0 }

def reset (_ : Base D) (s : State D) : Outcome D (State D) Unit :=
  .done { s with phases := fun _ => DoubleOps.lit 0 }

def currentPortCount (s : State D) : Nat := if s.config = kConfigMultiOut then kMaxPorts else 1

def audioPortCount (s : State D) (isInput : Bool) : Nat :=
  if isInput then 0 else currentPortCount s

def audioPortInfo (s : State D) (index : Nat) (isInput : Bool) : Option AudioPortInfo :=
  if isInput || decide (currentPortCount s ≤ index) then none else some (multiOutPort index none)

def audioPortsConfigInfo (index : Nat) : Option AudioPortsConfig :=
  match index with
  | 0 => some { id := kConfigStereo, name := "Stereo", inputPortCount := 0, outputPortCount := 1 }
  | 1 => some
    { id := kConfigMultiOut, name := "Multi Out", inputPortCount := 0
      outputPortCount := kMaxPorts }
  | _ => none

def audioPortsConfigSelect (base : Base D) (s : State D) (configId : ClapId) :
    Outcome D (State D) Bool :=
  if selectsConfig base.isActive configId then .just true { s with config := configId }
  else .just false s

def paramInfos : List (ParamInfo D) :=
  [{ id := kParamLevel, name := "Level", flags := { isAutomatable := true }
     minValue := DoubleOps.lit 0, maxValue := DoubleOps.lit 1
     defaultValue := DoubleOps.lit (1 / 2) }]

def paramValueToText (paramId : ClapId) (value : D) (capacity : Nat) : Option String :=
  if paramId ≠ kParamLevel then none else some (percentText value capacity)

def paramTextToValue (paramId : ClapId) (text : String) : Option D :=
  if paramId ≠ kParamLevel then none else percentValue text

def applyParamEvent (s : State D) (header : Event D) : State D :=
  { s with params := applyParamValue paramIds s.params header }

def paramsFlush (_ : Base D) (s : State D) (inEvents : Option (InputEvents D)) (_ : Bool) :
    Exec (Outcome D (State D) Unit) := do
  let headers ← unguardedHeaders inEvents
  .ok (consume (fun s e => .done (applyParamEvent s e)) s headers)

def kTwoPi : D := DoubleOps.lit (6283185307179586 / 1000000000000000)

/-- `kPortFrequencies`. -/
def kPortFrequencies (port : Nat) : D :=
  DoubleOps.lit (match port with
    | 0 => 220
    | 1 => 27718 / 100
    | 2 => 32963 / 100
    | 3 => 392
    | _ => 440)

/-- One channel of a port: the phase behind the block and the samples. -/
def toneChannel (phaseInc : D) (level : S) (dst : Ptr) (frames : Nat) (phase : D) (m : Plane S) :
    D × Plane S :=
  frameLoop (fun i (phase, m) =>
    let m := m.write dst i (FloatCast.toFloat (DoubleOps.sin phase) * level)
    let phase := phase + phaseInc
    (if DoubleOps.le kTwoPi phase then phase - kTwoPi else phase, m)) 0 frames (phase, m)

/-- The channels of a port, each from the port's phase; the last one's end phase stays. -/
def toneChannels (start phaseInc : D) (level : S) (out : AudioBuffer) (frames : Nat) :
    Nat → Nat → D × Plane S → Exec (D × Plane S)
  | _, 0, acc => .ok acc
  | ch, count + 1, (_, m) => do
    let dst ← channelAt out.data32 ch
    toneChannels start phaseInc level out frames (ch + 1) count
      (toneChannel phaseInc level dst frames start m)

def tonePorts (base : Base D) (level : S) (frames : Nat) :
    Nat → List AudioBuffer → (Nat → D) × Plane S → Exec ((Nat → D) × Plane S)
  | _, [], acc => .ok acc
  | port, out :: outs, (phases, m) => do
    let phaseInc := kTwoPi * kPortFrequencies port / base.sampleRate
    let (phase, m) ←
      toneChannels (phases port) phaseInc level out frames 0 out.channelCount (phases port, m)
    tonePorts base level frames (port + 1) outs (Function.update phases port phase, m)

def process (base : Base D) (s : State D) (block : ProcessBlock D) (memory : AudioMemory D S) :
    Exec (Outcome D (State D) ProcessStatus × AudioMemory D S) := do
  let headers ← guardedHeaders block.inEvents
  let s := (consume (fun s e => .done (applyParamEvent s e)) s headers).self
  let level : S := FloatCast.toFloat (s.params kParamLevel)
  let (phases, m) ← tonePorts base level block.framesCount.toNat 0
    (block.audioOutputs.take kMaxPorts) (s.phases, memory.f32)
  let status := if FloatOps.lt (FloatOps.lit 0) level then ProcessStatus.continue
    else .continueIfNotQuiet
  .ok (.just status { s with phases := phases }, { memory with f32 := m })

variable [DoubleBits D]

def stateSave (s : State D) (stream : OStream) : Exec (Outcome D (State D) Bool × OStream) := do
  let (ok, stream) ← saveFixed (paramIds.map s.params) stream
  .ok (.just ok s, stream)

def stateLoad (s : State D) (stream : IStream) : Exec (Outcome D (State D) Bool × IStream) := do
  let (ok, params, stream) ← loadFixed paramIds s.params stream
  .ok (.just ok { s with params := params }, stream)

def impl : PluginImpl D S (State D) where
  create := create
  extensions := ["clap.audio-ports", "clap.audio-ports-config", "clap.params", "clap.state"]
  reset := reset
  process := process
  audioPorts := some { audioPortCount := audioPortCount, audioPortInfo := audioPortInfo }
  audioPortsConfig := some
    { audioPortsConfigCount := 2, audioPortsConfigInfo := audioPortsConfigInfo
      audioPortsConfigSelect := audioPortsConfigSelect }
  params := some
    { paramCount := 1, paramInfo := paramTable paramInfos
      paramValue := fun s => loadParam paramIds s.params, paramsFlush := paramsFlush }
  state := some { stateSave := stateSave, stateLoad := stateLoad }

end MultiOutGenPlugin

namespace MultiOutFxPlugin

def kParamAuxLevel : ClapId := 0

/-- `paramStorage`. -/
def paramIds : List ClapId := [kParamAuxLevel]

def kMaxOutPorts : Nat := 3

structure State (D : Type) where
  params : ParamValues D
  config : ClapId

def create : State D := { params := fun _ => DoubleOps.lit 1, config := kConfigStereo }

def currentOutPortCount (s : State D) : Nat :=
  if s.config = kConfigMultiOut then kMaxOutPorts else 1

def audioPortCount (s : State D) (isInput : Bool) : Nat :=
  if isInput then 1 else currentOutPortCount s

def audioPortInfo (s : State D) (index : Nat) (isInput : Bool) : Option AudioPortInfo :=
  if isInput then
    if index != 0 then none
    else some
      { id := 0, name := "Input", flags := { isMain := true }, channelCount := 2
        portType := .stereo, inPlacePair := some 0 }
  else if currentOutPortCount s ≤ index then none
  else some (multiOutPort index (some 0))

def audioPortsConfigInfo (index : Nat) : Option AudioPortsConfig :=
  match index with
  | 0 => some { id := kConfigStereo, name := "Stereo", inputPortCount := 1, outputPortCount := 1 }
  | 1 => some
    { id := kConfigMultiOut, name := "Multi Out", inputPortCount := 1
      outputPortCount := kMaxOutPorts }
  | _ => none

def audioPortsConfigSelect (base : Base D) (s : State D) (configId : ClapId) :
    Outcome D (State D) Bool :=
  if selectsConfig base.isActive configId then .just true { s with config := configId }
  else .just false s

def paramInfos : List (ParamInfo D) :=
  [{ id := kParamAuxLevel, name := "Aux Level", flags := { isAutomatable := true }
     minValue := DoubleOps.lit 0, maxValue := DoubleOps.lit 1
     defaultValue := DoubleOps.lit 1 }]

def paramValueToText (paramId : ClapId) (value : D) (capacity : Nat) : Option String :=
  if paramId ≠ kParamAuxLevel then none else some (percentText value capacity)

def paramTextToValue (paramId : ClapId) (text : String) : Option D :=
  if paramId ≠ kParamAuxLevel then none else percentValue text

def applyParamEvent (s : State D) (header : Event D) : State D :=
  { s with params := applyParamValue paramIds s.params header }

def paramsFlush (_ : Base D) (s : State D) (inEvents : Option (InputEvents D)) (_ : Bool) :
    Exec (Outcome D (State D) Unit) := do
  let headers ← unguardedHeaders inEvents
  .ok (consume (fun s e => .done (applyParamEvent s e)) s headers)

/-- The output ports: the main one at unity gain, the others at Aux Level. -/
def fanOut (auxLevel : S) (input : AudioBuffer) (frames : Nat) :
    Nat → List AudioBuffer → Plane S → Exec (Plane S)
  | _, [], m => .ok m
  | port, out :: outs, m => do
    let gain : S := if port = 0 then FloatOps.lit 1 else auxLevel
    let m ← mapChannels (fun _ x => x * gain) input out frames 0 (commonChannels input out) m
    fanOut auxLevel input frames (port + 1) outs m

def process (_ : Base D) (s : State D) (block : ProcessBlock D) (memory : AudioMemory D S) :
    Exec (Outcome D (State D) ProcessStatus × AudioMemory D S) :=
  match block.audioInputs, block.audioOutputs with
  | input :: _, _ :: _ => do
    let headers ← guardedHeaders block.inEvents
    let s := (consume (fun s e => .done (applyParamEvent s e)) s headers).self
    let auxLevel : S := FloatCast.toFloat (s.params kParamAuxLevel)
    let m ← fanOut auxLevel input block.framesCount.toNat 0 block.audioOutputs memory.f32
    .ok (.just .continue s, { memory with f32 := m })
  | _, _ => .ok (.just .error s, memory)

variable [DoubleBits D]

def stateSave (s : State D) (stream : OStream) : Exec (Outcome D (State D) Bool × OStream) := do
  let (ok, stream) ← saveFixed (paramIds.map s.params) stream
  .ok (.just ok s, stream)

def stateLoad (s : State D) (stream : IStream) : Exec (Outcome D (State D) Bool × IStream) := do
  let (ok, params, stream) ← loadFixed paramIds s.params stream
  .ok (.just ok { s with params := params }, stream)

def impl : PluginImpl D S (State D) where
  create := create
  extensions := ["clap.audio-ports", "clap.audio-ports-config", "clap.params", "clap.state"]
  process := process
  audioPorts := some { audioPortCount := audioPortCount, audioPortInfo := audioPortInfo }
  audioPortsConfig := some
    { audioPortsConfigCount := 2, audioPortsConfigInfo := audioPortsConfigInfo
      audioPortsConfigSelect := audioPortsConfigSelect }
  params := some
    { paramCount := 1, paramInfo := paramTable paramInfos
      paramValue := fun s => loadParam paramIds s.params, paramsFlush := paramsFlush }
  state := some { stateSave := stateSave, stateLoad := stateLoad }

end MultiOutFxPlugin

end

end Cvp
