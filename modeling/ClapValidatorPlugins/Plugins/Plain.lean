/-
  `plugins/audioports_zero`, `plugins/slow`, `plugins/hostcheck` and `plugins/notefx`: the
  flavors without a signal path of their own. Slow's sleeps take no time here; its log lines
  stay.

  Left out: descriptors.
-/
import ClapValidatorPlugins.Plugins.Common

namespace Cvp

section

variable {D S : Type} [DoubleOps D] [FloatOps S] [FloatCast D S]

/-- The stereo in/out port of the passthrough and gain flavors. -/
def stereoPort (index : Nat) (isInput : Bool) : Option AudioPortInfo :=
  if index != 0 then none
  else some
    { id := 0, name := if isInput then "Input" else "Output", flags := { isMain := true }
      channelCount := 2, portType := .stereo, inPlacePair := some 0 }

namespace AudioPortsZeroPlugin

def kParamDummy : ClapId := 0

/-- `paramStorage`. -/
def paramIds : List ClapId := [kParamDummy]

structure State (D : Type) where
  params : ParamValues D

def create : State D := { params := fun _ => DoubleOps.lit (1 / 2) }

def paramInfos : List (ParamInfo D) :=
  [{ id := kParamDummy, name := "Dummy", flags := { isAutomatable := true }
     minValue := DoubleOps.lit 0, maxValue := DoubleOps.lit 1
     defaultValue := DoubleOps.lit (1 / 2) }]

def paramValueToText (paramId : ClapId) (value : D) (capacity : Nat) : Option String :=
  if paramId ≠ kParamDummy then none else some (fixedText 2 "" value capacity)

def paramTextToValue (paramId : ClapId) (text : String) : Option D :=
  if paramId ≠ kParamDummy then none else numberValue text

/-- The loop body of `paramsFlush`. -/
def flushEvent (s : State D) (header : Event D) : State D :=
  { s with params := applyParamValue paramIds s.params header }

def paramsFlush (_ : Base D) (s : State D) (inEvents : Option (InputEvents D)) (_ : Bool) :
    Exec (Outcome D (State D) Unit) := do
  let headers ← unguardedHeaders inEvents
  .ok (consume (fun s e => .done (flushEvent s e)) s headers)

def process (base : Base D) (s : State D) (block : ProcessBlock D) (memory : AudioMemory D S) :
    Exec (Outcome D (State D) ProcessStatus × AudioMemory D S) := do
  let flushed ← paramsFlush base s block.inEvents block.hasOutEvents
  .ok (.just .sleep flushed.self, memory)

variable [DoubleBits D]

def stateSave (s : State D) (stream : OStream) : Exec (Outcome D (State D) Bool × OStream) := do
  let (ok, stream) ← saveFixed (paramIds.map s.params) stream
  .ok (.just ok s, stream)

def stateLoad (s : State D) (stream : IStream) : Exec (Outcome D (State D) Bool × IStream) := do
  let (ok, params, stream) ← loadFixed paramIds s.params stream
  .ok (.just ok { s with params := params }, stream)

def impl : PluginImpl D S (State D) where
  create := create
  extensions := ["clap.audio-ports", "clap.params", "clap.state"]
  process := process
  audioPorts := some { audioPortCount := fun _ _ => 0, audioPortInfo := fun _ _ _ => none }
  params := some
    { paramCount := 1, paramInfo := paramTable paramInfos
      paramValue := fun s => loadParam paramIds s.params, paramsFlush := paramsFlush }
  state := some { stateSave := stateSave, stateLoad := stateLoad }

end AudioPortsZeroPlugin

namespace SlowPlugin

def kParamSlowness : ClapId := 0

/-- `paramStorage`. -/
def paramIds : List ClapId := [kParamSlowness]

structure State (D : Type) where
  params : ParamValues D

def create : State D := { params := fun _ => DoubleOps.lit 2 }

/-- The line `sleepSlowness` logs before it blocks. -/
def sleepSlowness (s : State D) (what : String) : Effect :=
  .log .info (snprintf 96 ("slow: blocking " ++ what ++ " for " ++
    DoubleOps.formatFixed 1 (s.params kParamSlowness) ++ " s"))

def activate (_ : Base D) (s : State D) (_ : D) (_ _ : Nat) : Outcome D (State D) Bool :=
  { value := true, self := s, effects := [.log .info "slow: blocking activate() for 250 ms"] }

def paramInfos : List (ParamInfo D) :=
  [{ id := kParamSlowness, name := "Slowness", flags := { isAutomatable := true }
     minValue := DoubleOps.lit 0, maxValue := DoubleOps.lit 5
     defaultValue := DoubleOps.lit 2 }]

def paramValueToText (paramId : ClapId) (value : D) (capacity : Nat) : Option String :=
  if paramId ≠ kParamSlowness then none else some (fixedText 1 " s" value capacity)

def paramTextToValue (paramId : ClapId) (text : String) : Option D :=
  if paramId ≠ kParamSlowness then none else numberValue text

/-- The loop body of `paramsFlush`. -/
def flushEvent (s : State D) (header : Event D) : State D :=
  { s with params := applyParamValue paramIds s.params header }

def paramsFlush (_ : Base D) (s : State D) (inEvents : Option (InputEvents D)) (_ : Bool) :
    Exec (Outcome D (State D) Unit) := do
  let headers ← unguardedHeaders inEvents
  .ok (consume (fun s e => .done (flushEvent s e)) s headers)

def latency (base : Base D) (_ : State D) : UInt32 := DoubleOps.toUInt32 base.sampleRate

def process (base : Base D) (s : State D) (block : ProcessBlock D) (memory : AudioMemory D S) :
    Exec (Outcome D (State D) ProcessStatus × AudioMemory D S) :=
  match block.audioInputs, block.audioOutputs with
  | input :: _, output :: _ => do
    let flushed ← paramsFlush base s block.inEvents block.hasOutEvents
    let m ← copyChannels input output block.framesCount.toNat 0 (commonChannels input output)
      memory.f32
    .ok (.just .continue flushed.self, { memory with f32 := m })
  | _, _ => .ok (.just .error s, memory)

variable [DoubleBits D]

def stateSave (s : State D) (stream : OStream) : Exec (Outcome D (State D) Bool × OStream) := do
  let (ok, stream) ← saveFixed (paramIds.map s.params) stream
  .ok ({ value := ok, self := s, effects := [sleepSlowness s "stateSave()"] }, stream)

def stateLoad (s : State D) (stream : IStream) : Exec (Outcome D (State D) Bool × IStream) := do
  let (ok, params, stream) ← loadFixed paramIds s.params stream
  .ok ({ value := ok, self := { s with params := params }
         effects := [sleepSlowness s "stateLoad()"] }, stream)

def impl : PluginImpl D S (State D) where
  create := create
  extensions := ["clap.audio-ports", "clap.params", "clap.state", "clap.latency"]
  activate := activate
  process := process
  audioPorts := some { audioPortCount := fun _ _ => 1, audioPortInfo := fun _ => stereoPort }
  params := some
    { paramCount := 1, paramInfo := paramTable paramInfos
      paramValue := fun s => loadParam paramIds s.params, paramsFlush := paramsFlush }
  state := some { stateSave := stateSave, stateLoad := stateLoad }
  latency := some { latency := latency }

end SlowPlugin

namespace HostCheckPlugin

/-- The flavor has no members of its own. -/
structure State where
  deriving DecidableEq, Repr

def init (base : Base D) (s : State) : Outcome D State Bool :=
  if base.host.isNone then .just true s
  else
    { value := true, self := s
      effects := [.log .info "hostcheck: calling host->request_callback()", .requestCallback] }

def onMainThread (_ : Base D) (s : State) : Outcome D State Unit :=
  { value := (), self := s
    effects := [.log .info
      "hostcheck: on_main_thread() arrived (request_callback works)"] }

def process (_ : Base D) (s : State) (block : ProcessBlock D) (memory : AudioMemory D S) :
    Exec (Outcome D State ProcessStatus × AudioMemory D S) :=
  match block.audioInputs, block.audioOutputs with
  | input :: _, output :: _ => do
    let m ← copyChannels input output block.framesCount.toNat 0 (commonChannels input output)
      memory.f32
    .ok (.just .continue s, { memory with f32 := m })
  | _, _ => .ok (.just .error s, memory)

def impl : PluginImpl D S State where
  create := {}
  logLifecycle := true
  extensions := ["clap.audio-ports"]
  init := init
  onMainThread := onMainThread
  process := process
  audioPorts := some { audioPortCount := fun _ _ => 1, audioPortInfo := fun _ => stereoPort }

end HostCheckPlugin

namespace NoteFxPlugin

def kParamTranspose : ClapId := 0

/-- `paramStorage`. -/
def paramIds : List ClapId := [kParamTranspose]

structure State (D : Type) where
  params : ParamValues D

def create : State D := { params := fun _ => DoubleOps.lit 0 }

def clampKey (key : Int) : Int := if key < 0 then 0 else if 127 < key then 127 else key

def notePortInfo (index : Nat) (isInput : Bool) : Option NotePortInfo :=
  if index != 0 then none else some { id := 0, name := if isInput then "Note In" else "Note Out" }

def paramInfos : List (ParamInfo D) :=
  [{ id := kParamTranspose, name := "Transpose"
     flags := { isAutomatable := true, isStepped := true }
     minValue := DoubleOps.lit (-24), maxValue := DoubleOps.lit 24
     defaultValue := DoubleOps.lit 0 }]

def paramValueToText (paramId : ClapId) (value : D) (capacity : Nat) : Option String :=
  if paramId ≠ kParamTranspose then none
  else some (snprintf capacity (withPlus (toString (DoubleOps.toInt value)) ++ " st"))

def paramTextToValue (paramId : ClapId) (text : String) : Option D :=
  if paramId ≠ kParamTranspose then none else numberValue text

/-- The loop body of `paramsFlush`. -/
def flushEvent (s : State D) (header : Event D) : State D :=
  { s with params := applyParamValue paramIds s.params header }

def paramsFlush (_ : Base D) (s : State D) (inEvents : Option (InputEvents D)) (_ : Bool) :
    Exec (Outcome D (State D) Unit) := do
  let headers ← unguardedHeaders inEvents
  .ok (consume (fun s e => .done (flushEvent s e)) s headers)

/-- A note with the key moved; the wildcard -1 stays. The sum in `int` is this one as long as it
    does not overflow. -/
def transposeNote (transpose : Int) (n : NoteEvent D) : NoteEvent D :=
  if 0 ≤ n.key then { n with key := clampKey (n.key + transpose) } else n

def transposeMidi (transpose : Int) (m : MidiEvent) : MidiEvent :=
  let status := m.data0 &&& 0xF0
  if status = 0x80 ∨ status = 0x90 then
    { m with data1 := UInt8.ofNat (clampKey (m.data1.toNat + transpose)).toNat }
  else m

/-- `transformEvent`: what is pushed, or the parameter change that is consumed. -/
def transformEvent (s : State D) (header : Event D) : Outcome D (State D) Unit :=
  let transpose := DoubleOps.toInt (s.params kParamTranspose)
  let push (e : Event D) : Outcome D (State D) Unit := { value := (), self := s, pushed := [e] }
  if header.isCore then
    match header.body with
    | .paramValue target x =>
      .done { s with params := storeParam paramIds s.params target.paramId x }
    | .noteOn n => push { header with body := .noteOn (transposeNote transpose n) }
    | .noteOff n => push { header with body := .noteOff (transposeNote transpose n) }
    | .noteChoke n => push { header with body := .noteChoke (transposeNote transpose n) }
    | .midi m => push { header with body := .midi (transposeMidi transpose m) }
    | _ => push header
  else push header

/-- The loop of `process`: an event that is passed on is pushed at once, so a null `out_events`
    is dereferenced before the entries behind it. -/
def transformEvents (hasOutEvents : Bool) :
    State D → List (Option (Event D)) → Exec (Outcome D (State D) Unit)
  | s, [] => .ok (.done s)
  | _, none :: _ => .error .nullEvent
  | s, some header :: rest =>
    let first := transformEvent s header
    if first.pushed.isEmpty || hasOutEvents then do
      let rest ← transformEvents hasOutEvents first.self rest
      .ok { value := (), self := rest.self, effects := first.effects ++ rest.effects
            pushed := first.pushed ++ rest.pushed }
    else .error .nullDeref

def process (_ : Base D) (s : State D) (block : ProcessBlock D) (memory : AudioMemory D S) :
    Exec (Outcome D (State D) ProcessStatus × AudioMemory D S) :=
  match block.inEvents with
  | none => .error .nullEvent
  | some list =>
    if list.hasSize && (list.hasGet || list.events.isEmpty) then do
      let out ← transformEvents block.hasOutEvents s list.events
      .ok ({ value := .continue, self := out.self, pushed := out.pushed }, memory)
    else .error .nullDeref

/-- Without null entries, `out_events` is needed if anything is passed on. -/
theorem transformEvents_map (hasOutEvents : Bool) (headers : List (Event D)) :
    ∀ s : State D, transformEvents hasOutEvents s (headers.map some) =
      if (consume transformEvent s headers).pushed.isEmpty || hasOutEvents then
        .ok (consume transformEvent s headers)
      else .error .nullDeref := by
  induction headers with
  | nil => exact fun s => rfl
  | cons header headers ih =>
    intro s
    have happend : ∀ xs ys : List (Event D), (xs ++ ys).isEmpty = (xs.isEmpty && ys.isEmpty) := by
      intro xs ys
      cases xs <;> rfl
    rw [List.map_cons, transformEvents, consume]
    dsimp only
    rw [ih, happend]
    cases (transformEvent s header).pushed.isEmpty <;>
      cases (consume transformEvent (transformEvent s header).self headers).pushed.isEmpty <;>
      cases hasOutEvents <;> rfl

omit [FloatOps S] [FloatCast D S] in
theorem process_ofList (base : Base D) (s : State D) (block : ProcessBlock D)
    (memory : AudioMemory D S) {headers : List (Event D)}
    (h : block.inEvents = some { events := headers.map some }) :
    process base s block memory =
      let out := consume transformEvent s headers
      if out.pushed.isEmpty || block.hasOutEvents then
        .ok ({ value := .continue, self := out.self, pushed := out.pushed }, memory)
      else .error .nullDeref := by
  unfold process
  rw [h]
  show (transformEvents block.hasOutEvents s (headers.map some) >>= _) = _
  rw [transformEvents_map]
  dsimp only
  split <;> rfl

variable [DoubleBits D]

def stateSave (s : State D) (stream : OStream) : Exec (Outcome D (State D) Bool × OStream) := do
  let (ok, stream) ← saveFixed (paramIds.map s.params) stream
  .ok (.just ok s, stream)

def stateLoad (s : State D) (stream : IStream) : Exec (Outcome D (State D) Bool × IStream) := do
  let (ok, params, stream) ← loadFixed paramIds s.params stream
  .ok (.just ok { s with params := params }, stream)

def impl : PluginImpl D S (State D) where
  create := create
  extensions := ["clap.note-ports", "clap.params", "clap.state"]
  process := process
  notePorts := some { notePortCount := fun _ => 1, notePortInfo := notePortInfo }
  params := some
    { paramCount := 1, paramInfo := paramTable paramInfos
      paramValue := fun s => loadParam paramIds s.params, paramsFlush := paramsFlush }
  state := some { stateSave := stateSave, stateLoad := stateLoad }

end NoteFxPlugin

end

end Cvp
