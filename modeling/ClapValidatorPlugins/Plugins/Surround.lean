/-
  `plugins/surround/surround.cpp`: the surround passthrough whose layout the host switches
  through configurable-audio-ports.

  Left out: the descriptor and remote controls.
-/
import ClapValidatorPlugins.Plugins.Common

namespace Cvp.SurroundPlugin

variable {D S : Type} [DoubleOps D] [FloatOps S] [FloatCast D S]

/-! ## Layouts -/

structure Layout where
  name : String
  channelMap : List UInt8
  deriving DecidableEq, Repr

/-- `layout.channelCount`. -/
def Layout.channelCount (layout : Layout) : Nat := layout.channelMap.length

-- CLAP_SURROUND_*: FL 0, FR 1, FC 2, LFE 3, BL 4, BR 5, SL 9, SR 10
def quad : Layout := { name := "Quad 4.0", channelMap := [0, 1, 4, 5] }
def surround51 : Layout := { name := "5.1", channelMap := [0, 1, 2, 3, 4, 5] }
def surround71 : Layout := { name := "7.1", channelMap := [0, 1, 2, 3, 4, 5, 9, 10] }

def kLayouts : List Layout := [quad, surround51, surround71]

/-- `kLayouts[index]`. -/
def layoutAt (index : Nat) : Layout := kLayouts.getD index surround51

def layoutMask (layout : Layout) : Nat :=
  layout.channelMap.foldl (fun mask id => mask ||| 1 <<< id.toNat) 0

/-- The identifiers of `kSoloChoices`; 0xFF is "Off". -/
def kSoloChoices : List UInt8 := [0xFF, 0, 1, 2, 3, 4, 5, 9, 10]

def soloIndexFromValue (value : D) : Nat :=
  let index := DoubleOps.toInt (value + DoubleOps.lit (1 / 2))
  if index < 0 then 0
  else if (kSoloChoices.length : Int) ≤ index then kSoloChoices.length - 1
  else index.toNat

/-! ## State -/

def kParamGain : ClapId := 0
def kParamSolo : ClapId := 1

/-- `paramStorage`. -/
def paramIds : List ClapId := [kParamGain, kParamSolo]

structure State (D : Type) where
  params : ParamValues D
  layoutIndex : Nat

def create : State D := { params := fun _ => DoubleOps.lit 0, layoutIndex := 1 }

def layout (s : State D) : Layout := layoutAt s.layoutIndex

def audioPortInfo (s : State D) (index : Nat) (isInput : Bool) : Option AudioPortInfo :=
  if index != 0 then none
  else some
    { id := 0
      name := (if isInput then "Input" else "Output") ++ " (" ++ (layout s).name ++ ")"
      flags := { isMain := true }
      channelCount := (layout s).channelCount, portType := .surround, inPlacePair := some 0 }

/-! ## surround, configurable-audio-ports -/

/-- `%llx`. -/
def toHex (n : Nat) : String := String.ofList (Nat.toDigits 16 n)

def surroundIsChannelMaskSupported (s : State D) (channelMask : Nat) :
    Outcome D (State D) Bool :=
  let supported := kLayouts.any (fun layout => channelMask == layoutMask layout)
  { value := supported, self := s
    effects := [.log .debug (snprintf 96 ("surround: is_channel_mask_supported(0x" ++
      toHex channelMask ++ ") -> " ++ (if supported then "true" else "false")))] }

def surroundChannelMap (s : State D) (_ : Bool) (portIndex capacity : Nat) :
    Outcome D (State D) (List UInt8) :=
  if portIndex ≠ 0 then .just [] s
  else if capacity < (layout s).channelCount then
    { value := [], self := s
      effects := [.log .hostMisbehaving
        "surround: get_channel_map() called with insufficient capacity"] }
  else .just (layout s).channelMap s

/-- The last layout with that many channels. -/
def layoutWithChannels (channelCount : Nat) : Option Nat :=
  (List.range kLayouts.length).foldl
    (fun found l => if (layoutAt l).channelCount = channelCount then some l else found) none

/-- The loop body of `layoutForRequests`: the layout index so far (`none` is -1), or -1 at once. -/
def acceptRequest (layoutIndex : Option Nat) (request : PortConfigRequest) :
    Option (Option Nat) :=
  if request.portIndex ≠ 0 then none
  else if request.portType.isSome ∧ request.portType ≠ some .surround then none
  else match layoutWithChannels request.channelCount with
    | none => none
    | some found =>
      let foreignMap := match request.portDetails with
        | some map => map.take request.channelCount != (layoutAt found).channelMap
        | none => false
      if foreignMap then none
      else match layoutIndex with
        | some index => if index = found then some (some found) else none
        | none => some (some found)

/-- `layoutForRequests`; `none` is -1. -/
def layoutForRequests (requests : PortConfigRequests) : Option Nat :=
  match requests with
  | none => none
  | some requests => (requests.foldlM acceptRequest none).join

def canApplyConfiguration (base : Base D) (s : State D) (requests : PortConfigRequests) :
    Outcome D (State D) Bool :=
  if base.isActive then
    { value := false, self := s
      effects := [.log .hostMisbehaving
        "configurable-audio-ports: can_apply_configuration() called while active"] }
  else
    let found := layoutForRequests requests
    let count := (requests.getD []).length
    let answer := match found with
      | some index => (layoutAt index).name
      | none => "rejected"
    { value := found.isSome, self := s
      effects := [.log .debug (snprintf 128 ("configurable-audio-ports: can_apply(" ++
        toString count ++ " request(s)) -> " ++ answer))] }

def applyConfiguration (base : Base D) (s : State D) (requests : PortConfigRequests) :
    Outcome D (State D) Bool :=
  if base.isActive then
    { value := false, self := s
      effects := [.log .hostMisbehaving
        "configurable-audio-ports: apply_configuration() called while active"] }
  else
    match layoutForRequests requests with
    | none =>
      { value := false, self := s
        effects := [.log .warning
          "configurable-audio-ports: apply_configuration() rejected"] }
    | some index =>
      { value := true, self := { s with layoutIndex := index }
        effects := [.log .info (snprintf 96 ("configurable-audio-ports: applied layout '" ++
          (layoutAt index).name ++ "' (" ++ toString (layoutAt index).channelCount ++
          " channels)"))] }

/-! ## params, processing, state -/

def paramInfos : List (ParamInfo D) :=
  [{ id := kParamGain, name := "Gain", flags := { isAutomatable := true }
     minValue := DoubleOps.lit (-36), maxValue := DoubleOps.lit 36
     defaultValue := DoubleOps.lit 0 },
   { id := kParamSolo, name := "Solo Channel"
     flags := { isAutomatable := true, isStepped := true, isEnum := true }
     minValue := DoubleOps.lit 0, maxValue := DoubleOps.lit (kSoloChoices.length - 1 : ℕ)
     defaultValue := DoubleOps.lit 0 }]

/-- The names of `kSoloChoices`. -/
def kSoloNames : List String := ["Off", "FL", "FR", "FC", "LFE", "BL", "BR", "SL", "SR"]

def paramValueToText (paramId : ClapId) (value : D) (capacity : Nat) : Option String :=
  if paramId = kParamGain then some (fixedText 1 " dB" value capacity)
  else if paramId = kParamSolo then
    some (snprintf capacity (kSoloNames.getD (soloIndexFromValue value) ""))
  else none

def paramTextToValue (paramId : ClapId) (text : String) : Option D :=
  if paramId = kParamGain then numberValue text
  else if paramId = kParamSolo then choiceValue (text == ·) kSoloNames
  else none

def applyParamEvent (s : State D) (header : Event D) : State D :=
  { s with params := applyParamValue paramIds s.params header }

def paramsFlush (_ : Base D) (s : State D) (inEvents : Option (InputEvents D)) (_ : Bool) :
    Exec (Outcome D (State D) Unit) := do
  let headers ← unguardedHeaders inEvents
  .ok (consume (fun s e => .done (applyParamEvent s e)) s headers)

/-- `audible ? gain : 0.0f`: solo selects a channel identifier, not an index. -/
def channelGain (layout : Layout) (soloId : UInt8) (gain : S) (ch : Nat) : S :=
  if soloId = 0xFF ∨ layout.channelMap[ch]? = some soloId then gain else FloatOps.lit 0

def process (_ : Base D) (s : State D) (block : ProcessBlock D) (memory : AudioMemory D S) :
    Exec (Outcome D (State D) ProcessStatus × AudioMemory D S) :=
  match block.audioInputs, block.audioOutputs with
  | input :: _, output :: _ => do
    let headers ← guardedHeaders block.inEvents
    let s := (consume (fun s e => .done (applyParamEvent s e)) s headers).self
    let gain : S := FloatCast.toFloat
      (DoubleOps.pow (DoubleOps.lit 10) (s.params kParamGain / DoubleOps.lit 20) : D)
    let soloId := kSoloChoices.getD (soloIndexFromValue (s.params kParamSolo)) 0xFF
    let channels := min (commonChannels input output) (layout s).channelCount
    let m ← mapChannels (fun ch x => x * channelGain (layout s) soloId gain ch) input output
      block.framesCount.toNat 0 channels memory.f32
    .ok (.just .continue s, { memory with f32 := m })
  | _, _ => .ok (.just .error s, memory)

variable [DoubleBits D]

def stateSave (s : State D) (stream : OStream) : Exec (Outcome D (State D) Bool × OStream) := do
  let (ok, stream) ← saveFixed (paramIds.map s.params) stream
  .ok (.just ok s, stream)

def stateLoad (s : State D) (stream : IStream) : Exec (Outcome D (State D) Bool × IStream) := do
  let (ok, params, stream) ← loadFixed paramIds s.params stream
  .ok (.just ok { s with params := params }, stream)

def impl : PluginImpl D S (State D) where
  create := create
  extensions := ["clap.audio-ports", "clap.surround/4", "clap.surround.draft/4",
    "clap.configurable-audio-ports/1", "clap.configurable-audio-ports.draft1", "clap.params",
    "clap.state", "clap.remote-controls/2", "clap.remote-controls.draft/2"]
  process := process
  audioPorts := some { audioPortCount := fun _ _ => 1, audioPortInfo := audioPortInfo }
  configurableAudioPorts := some
    { canApplyConfiguration := canApplyConfiguration, applyConfiguration := applyConfiguration }
  params := some
    { paramCount := 2, paramInfo := paramTable paramInfos
      paramValue := fun s => loadParam paramIds s.params, paramsFlush := paramsFlush }
  state := some { stateSave := stateSave, stateLoad := stateLoad }
  surround := some
    { surroundIsChannelMaskSupported := surroundIsChannelMaskSupported
      surroundChannelMap := surroundChannelMap }

end Cvp.SurroundPlugin
