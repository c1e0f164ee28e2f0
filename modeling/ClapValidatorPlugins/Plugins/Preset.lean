/-
  `plugins/preset/preset_plugin.cpp` and `preset_shared.cpp`: the gain effect that loads
  presets of both location kinds, and the preset file parser. A file is its content; a path
  that cannot be opened has none. Paths are used as given (the Windows prefix rule is left out).

  Left out: the descriptor and remote controls.
-/
import ClapValidatorPlugins.Plugins.Plain
import ClapValidatorPlugins.Wrapper.Extensions

namespace Cvp

section

variable {D S : Type} [DoubleOps D] [FloatOps S] [FloatCast D S]

namespace Preset

structure PresetData (D : Type) where
  name : String
  gain : D
  color : D

structure InternalPreset (D : Type) where
  loadKey : String
  name : String
  gain : D
  color : D

def kInternalPresets : List (InternalPreset D) :=
  [{ loadKey := "internal:unity", name := "Unity", gain := DoubleOps.lit 0
     color := DoubleOps.lit 0 },
   { loadKey := "internal:quiet", name := "Quiet", gain := DoubleOps.lit (-12)
     color := DoubleOps.lit 1 },
   { loadKey := "internal:loud", name := "Loud", gain := DoubleOps.lit 6
     color := DoubleOps.lit 2 }]

def findInternalPreset (loadKey : Option String) : Option (InternalPreset D) :=
  match loadKey with
  | none => none
  | some key => kInternalPresets.find? (fun preset => preset.loadKey == key)

/-- The lines `std::getline` yields until the end of the file; `acc` is the current one,
    reversed. -/
def getlines (acc : List Char) : List Char → List (List Char)
  | [] => if acc.isEmpty then [] else [acc.reverse]
  | c :: cs => if c = '\n' then acc.reverse :: getlines [] cs else getlines (c :: acc) cs

/-- `if (!line.empty() && line.back() == '\r') line.pop_back();`. -/
def dropCarriageReturn (line : List Char) : List Char :=
  if line.getLast? = some '\r' then line.dropLast else line

/-- `c_str()` as the C functions read it. -/
def cString (text : List Char) : List Char := text.takeWhile (· ≠ Char.ofNat 0)

/-- The loop variables of `parsePresetFile`. -/
structure ParseState (D : Type) where
  data : PresetData D
  haveGain : Bool

/-- The loop body; unknown keys and lines without `=` are skipped. -/
def parseLine (st : ParseState D) (line : List Char) : ParseState D :=
  let line := dropCarriageReturn line
  if !line.contains '=' then st
  else
    let key := line.takeWhile (· ≠ '=')
    let value := (line.dropWhile (· ≠ '=')).tail
    if key = "name".toList then
      { st with data := { st.data with name := snprintf 64 (String.ofList (cString value)) } }
    else if key = "gain".toList then
      { data := { st.data with gain := DoubleOps.strtod (cString value) }, haveGain := true }
    else if key = "color".toList then
      { st with data := { st.data with color := DoubleOps.strtod (cString value) } }
    else st

/-- `parsePresetFile` on the content of the file. -/
def parsePresetFile (content : List Char) : Option (PresetData D) :=
  match getlines [] content with
  | [] => none
  | first :: rest =>
    if dropCarriageReturn first ≠ "CVP-PRESET v1".toList then none
    else
      let start : ParseState D :=
        { data := { name := "Unnamed", gain := DoubleOps.lit 0, color := DoubleOps.lit 0 }
          haveGain := false }
      let st := rest.foldl parseLine start
      if st.haveGain then some st.data else none

end Preset

namespace PresetPlugin

open Preset

def kParamGain : ClapId := 0
def kParamColor : ClapId := 1

/-- `paramStorage`. -/
def paramIds : List ClapId := [kParamGain, kParamColor]

structure State (D : Type) where
  params : ParamValues D
  hostPresetLoad : Option HostPresetLoad
  hostParams : Option HostParams

def create : State D :=
  { params := fun _ => DoubleOps.lit 0, hostPresetLoad := none, hostParams := none }

def init (base : Base D) (s : State D) : Outcome D (State D) Bool :=
  match base.host with
  | none => .just true s
  | some host =>
    .just true { s with hostPresetLoad := host.presetLoad, hostParams := host.params }

def paramInfos : List (ParamInfo D) :=
  [{ id := kParamGain, name := "Gain", flags := { isAutomatable := true }
     minValue := DoubleOps.lit (-36), maxValue := DoubleOps.lit 36
     defaultValue := DoubleOps.lit 0 },
   { id := kParamColor, name := "Color"
     flags := { isAutomatable := true, isStepped := true, isEnum := true }
     minValue := DoubleOps.lit 0, maxValue := DoubleOps.lit 3
     defaultValue := DoubleOps.lit 0 }]

def kColorNames : List String := ["Neutral", "Warm", "Bright", "Dark"]

def paramValueToText (paramId : ClapId) (value : D) (capacity : Nat) : Option String :=
  if paramId = kParamGain then some (fixedText 1 " dB" value capacity)
  else if paramId = kParamColor then
    some (snprintf capacity (kColorNames.getD (choiceIndex value 3) ""))
  else none

def paramTextToValue (paramId : ClapId) (text : String) : Option D :=
  if paramId = kParamGain then numberValue text
  else if paramId = kParamColor then choiceValue (beginsWith text) kColorNames
  else none

def applyParamEvent (s : State D) (header : Event D) : State D :=
  { s with params := applyParamValue paramIds s.params header }

def paramsFlush (_ : Base D) (s : State D) (inEvents : Option (InputEvents D)) (_ : Bool) :
    Exec (Outcome D (State D) Unit) := do
  let headers ← unguardedHeaders inEvents
  .ok (consume (fun s e => .done (applyParamEvent s e)) s headers)

/-- The preset a location names, as `presetLoadFromLocation` finds it. -/
def resolve (files : FileSystem) (kind : Nat) (location loadKey : Option String) :
    Option (PresetData D) :=
  if kind = Plugin.PresetLoad.locationPlugin then
    (findInternalPreset loadKey).map fun preset =>
      { name := snprintf 64 preset.name, gain := preset.gain, color := preset.color }
  else if kind = Plugin.PresetLoad.locationFile then
    location.bind fun path => (files path).bind fun content => parsePresetFile content.toList
  else none

def presetLoadFromLocation (base : Base D) (s : State D) (files : FileSystem) (kind : Nat)
    (location loadKey : Option String) : Outcome D (State D) Bool :=
  let arguments := "(kind=" ++ toString kind ++ ", location=" ++ location.getD "null" ++
    ", key=" ++ loadKey.getD "null" ++ ")"
  let called := Effect.log .info (snprintf 320 ("preset-load: from_location" ++ arguments))
  match resolve files kind location loadKey with
  | none =>
    let answer : List Effect :=
      match s.hostPresetLoad with
      | some host =>
        if host.hasOnError && base.host.isSome then
          [.host (.presetOnError kind location loadKey
            "unknown preset or unreadable preset file")]
        else []
      | none => []
    { value := false, self := s
      effects := [called, .log .warning (snprintf 320 ("preset-load: FAILED " ++ arguments))] ++
        answer }
  | some data =>
    let params := Function.update s.params kParamGain data.gain
    let params := Function.update params kParamColor data.color
    let rescan : List Effect :=
      match s.hostParams with
      | some host =>
        if host.hasRescan && base.host.isSome then [.host .rescanValues] else []
      | none => []
    let loaded : List Effect :=
      match s.hostPresetLoad with
      | some host =>
        if host.hasLoaded && base.host.isSome then
          [.host (.presetLoaded kind location loadKey)]
        else []
      | none => []
    { value := true, self := { s with params := params }
      effects := [called] ++ rescan ++ loaded ++
        [.log .info (snprintf 320 ("preset-load: loaded '" ++ data.name ++ "' (gain=" ++
          DoubleOps.formatFixed 1 data.gain ++ " dB, color=" ++
          toString (DoubleOps.toInt data.color) ++ ")"))] }

def process (_ : Base D) (s : State D) (block : ProcessBlock D) (memory : AudioMemory D S) :
    Exec (Outcome D (State D) ProcessStatus × AudioMemory D S) :=
  match block.audioInputs, block.audioOutputs with
  | input :: _, output :: _ => do
    let headers ← guardedHeaders block.inEvents
    let s := (consume (fun s e => .done (applyParamEvent s e)) s headers).self
    let gain : S := FloatCast.toFloat
      (DoubleOps.pow (DoubleOps.lit 10) (s.params kParamGain / DoubleOps.lit 20) : D)
    let m ← mapChannels (fun _ x => x * gain) input output block.framesCount.toNat 0
      (commonChannels input output) memory.f32
    .ok (.just .continue s, { memory with f32 := m })
  | _, _ => .ok (.just .error s, memory)

variable [DoubleBits D]

def stateSave (s : State D) (stream : OStream) : Exec (Outcome D (State D) Bool × OStream) := do
  let (ok, stream) ← saveFixed (paramIds.map s.params) stream
  .ok (.just ok s, stream)

def stateLoad (s : State D) (stream : IStream) : Exec (Outcome D (State D) Bool × IStream) := do
  let (ok, params, stream) ← loadFixed paramIds s.params stream
  .ok (.just ok { s with params := params }, stream)

def impl : PluginImpl D S (State D) where
  create := create
  extensions := ["clap.audio-ports", "clap.params", "clap.state", "clap.preset-load/2",
    "clap.preset-load.draft/2", "clap.remote-controls/2", "clap.remote-controls.draft/2"]
  init := init
  process := process
  audioPorts := some { audioPortCount := fun _ _ => 1, audioPortInfo := fun _ => stereoPort }
  params := some
    { paramCount := 2, paramInfo := paramTable paramInfos
      paramValue := fun s => loadParam paramIds s.params, paramsFlush := paramsFlush }
  state := some { stateSave := stateSave, stateLoad := stateLoad }
  presetLoad := some { presetLoadFromLocation := presetLoadFromLocation }

end PresetPlugin

end

end Cvp
