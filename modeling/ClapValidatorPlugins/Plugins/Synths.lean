/-
  `plugins/synth/synth.cpp` and `plugins/sidechain_synth/sidechain_synth.cpp`: the two flavors
  that render the sine engine in chunks between the events of a block.

  Left out: descriptors, note names and remote controls.
-/
import ClapValidatorPlugins.Plugins.SineEngine

namespace Cvp

/-! ## Chunks between events -/

section Chunks

variable {D σ T : Type}

/-- The variables of the event loop: the plugin, the output and `cursor`. -/
structure ChunkState (σ T : Type) where
  self : σ
  memory : Plane T
  cursor : Nat

/-- `_engine.render(left, right, cursor, to - cursor, gain); cursor = to;`. -/
def renderTo (render : σ → Nat → Nat → Plane T → σ × Plane T) (target : Nat)
    (c : ChunkState σ T) : ChunkState σ T :=
  let rendered := render c.self c.cursor (target - c.cursor) c.memory
  { self := rendered.1, memory := rendered.2, cursor := target }

/-- The loop body: render up to the event, then handle it. -/
def chunkEvent (render : σ → Nat → Nat → Plane T → σ × Plane T) (handle : σ → Event D → σ)
    (frames : Nat) (c : ChunkState σ T) (header : Event D) : ChunkState σ T :=
  let c := if c.cursor < header.time ∧ header.time ≤ frames then renderTo render header.time c
    else c
  { c with self := handle c.self header }

/-- The event loop and the chunk behind the last event. -/
def chunkLoop (render : σ → Nat → Nat → Plane T → σ × Plane T) (handle : σ → Event D → σ)
    (frames : Nat) (headers : List (Event D)) (s : σ) (m : Plane T) : ChunkState σ T :=
  let c := headers.foldl (chunkEvent render handle frames) { self := s, memory := m, cursor := 0 }
  if c.cursor < frames then renderTo render frames c else c

end Chunks

section

variable {D S : Type} [DoubleOps D] [FloatOps S] [FloatCast D S]

/-- `frames > 0 ? frames - 1 : 0`. -/
def lastFrame (frames : UInt32) : Nat := if 0 < frames then frames.toNat - 1 else 0

/-- `_engine.anyVoiceActive() ? CLAP_PROCESS_CONTINUE : CLAP_PROCESS_SLEEP`. -/
def voiceStatus (e : SineEngine D S) : ProcessStatus :=
  if e.anyVoiceActive then .continue else .sleep

/-- `out->try_push` on every event; `out` is dereferenced only if there is one. -/
def pushAll (hasOutEvents : Bool) (events : List (Event D)) : Exec (List (Event D)) :=
  if events.isEmpty || hasOutEvents then .ok events else .error .nullDeref

namespace SynthPlugin

def kParamVolume : ClapId := 0

/-- `paramStorage`. -/
def paramIds : List ClapId := [kParamVolume]

structure State (D S : Type) where
  engine : SineEngine D S
  params : ParamValues D

def create : State D S :=
  { engine := SineEngine.create, params := fun _ => DoubleOps.lit (7 / 10) }

def activate (_ : Base D) (s : State D S) (sampleRate : D) (_ _ : Nat) :
    Outcome D (State D S) Bool :=
  .just true { s with engine := (s.engine.setSampleRate sampleRate).reset }

def reset (_ : Base D) (s : State D S) : Outcome D (State D S) Unit :=
  .done { s with engine := s.engine.reset }

def audioPortCount (isInput : Bool) : Nat := if isInput then 0 else 1

def audioPortInfo (index : Nat) (isInput : Bool) : Option AudioPortInfo :=
  if isInput || index != 0 then none
  else some
    { id := 0, name := "Output"
      flags := { isMain := true, supports64Bits := true, prefers64Bits := true }
      channelCount := 2, portType := .stereo, inPlacePair := none }

def notePortCount (isInput : Bool) : Nat := if isInput then 1 else 0

def notePortInfo (index : Nat) (isInput : Bool) : Option NotePortInfo :=
  if !isInput || index != 0 then none else some { id := 0, name := "Note In" }

def paramInfos : List (ParamInfo D) :=
  [{ id := kParamVolume, name := "Volume"
     flags := { isAutomatable := true, isModulatable := true, isModulatablePerNoteId := true
                isModulatablePerKey := true, isModulatablePerChannel := true }
     minValue := DoubleOps.lit 0, maxValue := DoubleOps.lit 1
     defaultValue := DoubleOps.lit (7 / 10) }]

def paramValueToText (paramId : ClapId) (value : D) (capacity : Nat) : Option String :=
  if paramId ≠ kParamVolume then none else some (percentText value capacity)

def paramTextToValue (paramId : ClapId) (text : String) : Option D :=
  if paramId ≠ kParamVolume then none else percentValue text

def handleEvent (s : State D S) (header : Event D) : State D S :=
  if header.isCore then
    match header.body with
    | .paramValue target x => { s with params := storeParam paramIds s.params target.paramId x }
    | .paramMod target amount =>
      if target.paramId = kParamVolume then
        { s with engine := s.engine.modulate target.key target.channel target.noteId amount }
      else s
    | _ => { s with engine := s.engine.handleEvent header }
  else { s with engine := s.engine.handleEvent header }

/-- The loop body of `paramsFlush`. -/
def flushEvent (s : State D S) (header : Event D) : State D S :=
  { s with params := applyParamValue paramIds s.params header }

def paramsFlush (_ : Base D) (s : State D S) (inEvents : Option (InputEvents D)) (_ : Bool) :
    Exec (Outcome D (State D S) Unit) := do
  let headers ← unguardedHeaders inEvents
  .ok (consume (fun s e => .done (flushEvent s e)) s headers)

def voiceInfo : VoiceInfo :=
  { voiceCount := kMaxVoices, voiceCapacity := kMaxVoices, supportsOverlappingNotes := true }

/-- `_engine.render` with the block's gain. -/
def render {T : Type} [SampleOps D T] (left : Ptr) (right : Option Ptr) (gain : S)
    (s : State D S) (offset frames : Nat) (m : Plane T) : State D S × Plane T :=
  let rendered := s.engine.renderImpl left right offset frames gain m
  ({ s with engine := rendered.1 }, rendered.2)

/-- `processTyped`, with the events already fetched. -/
def processTyped {T : Type} [SampleOps D T] (s : State D S) (frames : UInt32)
    (headers : List (Event D)) (left : Ptr) (right : Option Ptr) (m : Plane T) :
    State D S × Plane T × List (Event D) :=
  let zero : T := SampleOps.zero D
  let m := clearSamples zero left frames.toNat m
  let m := match right with
    | some right => clearSamples zero right frames.toNat m
    | none => m
  let gain : S := FloatCast.toFloat (s.params kParamVolume)
  let c := chunkLoop (render left right gain) handleEvent frames.toNat headers s m
  let ended := c.self.engine.emitNoteEnds (lastFrame frames)
  ({ c.self with engine := ended.1 }, c.memory, ended.2)

/-- The tail of `process` behind the choice of sample size. -/
def processPlane {T : Type} [SampleOps D T] (s : State D S) (block : ProcessBlock D)
    (out : AudioBuffer) (data : Option (List Ptr)) (m : Plane T) :
    Exec (Outcome D (State D S) ProcessStatus × Plane T) := do
  let left ← channelAt data 0
  let right ← if 1 < out.channelCount then some <$> channelAt data 1 else .ok none
  let headers ← unguardedHeaders block.inEvents
  let (s, m, ends) := processTyped s block.framesCount headers left right m
  let pushed ← pushAll block.hasOutEvents ends
  .ok ({ value := voiceStatus s.engine, self := s, pushed := pushed }, m)

def process (_ : Base D) (s : State D S) (block : ProcessBlock D) (memory : AudioMemory D S) :
    Exec (Outcome D (State D S) ProcessStatus × AudioMemory D S) :=
  match block.audioOutputs with
  | [] => .ok (.just .error s, memory)
  | out :: _ =>
    if out.channelCount < 1 then .ok (.just .error s, memory)
    else if out.data64.isSome then do
      let (outcome, m) ← processPlane s block out out.data64 memory.f64
      .ok (outcome, { memory with f64 := m })
    else if out.data32.isSome then do
      let (outcome, m) ← processPlane s block out out.data32 memory.f32
      .ok (outcome, { memory with f32 := m })
    else .ok (.just .error s, memory)

variable [DoubleBits D]

def stateSave (s : State D S) (stream : OStream) :
    Exec (Outcome D (State D S) Bool × OStream) := do
  let (ok, stream) ← saveFixed (paramIds.map s.params) stream
  .ok (.just ok s, stream)

def stateLoad (s : State D S) (stream : IStream) :
    Exec (Outcome D (State D S) Bool × IStream) := do
  let (ok, params, stream) ← loadFixed paramIds s.params stream
  .ok (.just ok { s with params := params }, stream)

def impl : PluginImpl D S (State D S) where
  create := create
  extensions := ["clap.audio-ports", "clap.note-ports", "clap.note-name", "clap.params",
    "clap.state", "clap.voice-info"]
  activate := activate
  reset := reset
  process := process
  audioPorts := some
    { audioPortCount := fun _ => audioPortCount, audioPortInfo := fun _ => audioPortInfo }
  notePorts := some { notePortCount := notePortCount, notePortInfo := notePortInfo }
  params := some
    { paramCount := 1, paramInfo := paramTable paramInfos
      paramValue := fun s => loadParam paramIds s.params, paramsFlush := paramsFlush }
  state := some { stateSave := stateSave, stateLoad := stateLoad }
  voiceInfo := some { voiceInfo := voiceInfo }

end SynthPlugin

namespace SidechainSynthPlugin

def kParamVolume : ClapId := 0
def kParamSidechainAmount : ClapId := 1

def kFollowerCoeff : S := FloatOps.lit (1 / 100)

/-- `paramStorage`. -/
def paramIds : List ClapId := [kParamVolume, kParamSidechainAmount]

structure State (D S : Type) where
  engine : SineEngine D S
  params : ParamValues D
  envelope : S

def create : State D S :=
  { engine := SineEngine.create
    params := fun id => if id = kParamVolume then DoubleOps.lit (7 / 10) else DoubleOps.lit 1
    envelope := FloatOps.lit 0 }

def activate (_ : Base D) (s : State D S) (sampleRate : D) (_ _ : Nat) :
    Outcome D (State D S) Bool :=
  .just true { s with
    engine := (s.engine.setSampleRate sampleRate).reset, envelope := FloatOps.lit 0 }

def reset (_ : Base D) (s : State D S) : Outcome D (State D S) Unit :=
  .done { s with engine := s.engine.reset, envelope := FloatOps.lit 0 }

def audioPortInfo (index : Nat) (isInput : Bool) : Option AudioPortInfo :=
  if index != 0 then none
  else if isInput then some
    { id := 1, name := "Sidechain", flags := {}, channelCount := 2, portType := .stereo
      inPlacePair := none }
  else some
    { id := 0, name := "Output", flags := { isMain := true }, channelCount := 2
      portType := .stereo, inPlacePair := none }

def notePortCount (isInput : Bool) : Nat := if isInput then 1 else 0

def notePortInfo (index : Nat) (isInput : Bool) : Option NotePortInfo :=
  if !isInput || index != 0 then none else some { id := 0, name := "Note In" }

def paramInfos : List (ParamInfo D) :=
  [{ id := kParamVolume, name := "Volume", flags := { isAutomatable := true }
     minValue := DoubleOps.lit 0, maxValue := DoubleOps.lit 1
     defaultValue := DoubleOps.lit (7 / 10) },
   { id := kParamSidechainAmount, name := "Sidechain Amount", flags := { isAutomatable := true }
     minValue := DoubleOps.lit 0, maxValue := DoubleOps.lit 1
     defaultValue := DoubleOps.lit 1 }]

def paramValueToText (paramId : ClapId) (value : D) (capacity : Nat) : Option String :=
  if paramId ∉ paramIds then none else some (percentText value capacity)

def paramTextToValue (paramId : ClapId) (text : String) : Option D :=
  if paramId ∉ paramIds then none else percentValue text

def applyParamEvent (s : State D S) (header : Event D) : State D S :=
  { s with params := applyParamValue paramIds s.params header }

def handleEvent (s : State D S) (header : Event D) : State D S :=
  if header.isCore then
    match header.body with
    | .paramValue _ _ => applyParamEvent s header
    | _ => { s with engine := s.engine.handleEvent header }
  else { s with engine := s.engine.handleEvent header }

def paramsFlush (_ : Base D) (s : State D S) (inEvents : Option (InputEvents D)) (_ : Bool) :
    Exec (Outcome D (State D S) Unit) := do
  let headers ← unguardedHeaders inEvents
  .ok (consume (fun s e => .done (applyParamEvent s e)) s headers)

/-- `_engine.render` with the block's gain. -/
def render (left : Ptr) (right : Option Ptr) (gain : S) (s : State D S) (offset frames : Nat)
    (m : Plane S) : State D S × Plane S :=
  let rendered := s.engine.renderImpl left right offset frames gain m
  ({ s with engine := rendered.1 }, rendered.2)

/-- The envelope follower and the gain it puts on the rendered block. -/
def gate (amount : S) (scLeft scRight left : Ptr) (right : Option Ptr) (frames : Nat)
    (envelope : S) (m : Plane S) : S × Plane S :=
  frameLoop (fun i (envelope, m) =>
    let level := FloatOps.lit (1 / 2) *
      (FloatOps.abs (m scLeft i) + FloatOps.abs (m scRight i))
    let envelope := envelope + kFollowerCoeff * (level - envelope)
    let mod := (FloatOps.lit 1 - amount) + amount *
      (if FloatOps.lt (FloatOps.lit 1) envelope then FloatOps.lit 1 else envelope)
    let m := m.write left i (m left i * mod)
    let m := match right with
      | some right => m.write right i (m right i * mod)
      | none => m
    (envelope, m)) 0 frames (envelope, m)

/-- The sidechain stage: it runs with an input of at least one channel and a positive amount. -/
def applySidechain (s : State D S) (block : ProcessBlock D) (left : Ptr) (right : Option Ptr)
    (m : Plane S) : Exec (State D S × Plane S) :=
  let amount : S := FloatCast.toFloat (s.params kParamSidechainAmount)
  match block.audioInputs with
  | [] => .ok (s, m)
  | sidechain :: _ =>
    if 0 < sidechain.channelCount ∧ FloatOps.lt (FloatOps.lit 0) amount then do
      let scLeft ← channelAt sidechain.data32 0
      let scRight ←
        if 1 < sidechain.channelCount then channelAt sidechain.data32 1
        else channelAt sidechain.data32 0
      let gated := gate amount scLeft scRight left right block.framesCount.toNat s.envelope m
      .ok ({ s with envelope := gated.1 }, gated.2)
    else .ok (s, m)

def process (_ : Base D) (s : State D S) (block : ProcessBlock D) (memory : AudioMemory D S) :
    Exec (Outcome D (State D S) ProcessStatus × AudioMemory D S) :=
  match block.audioOutputs with
  | [] => .ok (.just .error s, memory)
  | out :: _ =>
    if out.channelCount < 1 then .ok (.just .error s, memory)
    else do
      let frames := block.framesCount.toNat
      let left ← channelAt out.data32 0
      let right ← if 1 < out.channelCount then some <$> channelAt out.data32 1 else .ok none
      let m := clearSamples (FloatOps.lit 0) left frames memory.f32
      let m := match right with
        | some right => clearSamples (FloatOps.lit 0) right frames m
        | none => m
      let gain : S := FloatCast.toFloat (s.params kParamVolume)
      let headers ← unguardedHeaders block.inEvents
      let c := chunkLoop (render left right gain) handleEvent frames headers s m
      let (s, m) ← applySidechain c.self block left right c.memory
      let ended := s.engine.emitNoteEnds (lastFrame block.framesCount)
      let pushed ← pushAll block.hasOutEvents ended.2
      let s := { s with engine := ended.1 }
      .ok ({ value := voiceStatus s.engine, self := s, pushed := pushed },
        { memory with f32 := m })

variable [DoubleBits D]

def stateSave (s : State D S) (stream : OStream) :
    Exec (Outcome D (State D S) Bool × OStream) := do
  let (ok, stream) ← saveFixed (paramIds.map s.params) stream
  .ok (.just ok s, stream)

def stateLoad (s : State D S) (stream : IStream) :
    Exec (Outcome D (State D S) Bool × IStream) := do
  let (ok, params, stream) ← loadFixed paramIds s.params stream
  .ok (.just ok { s with params := params }, stream)

def impl : PluginImpl D S (State D S) where
  create := create
  extensions := ["clap.audio-ports", "clap.note-name", "clap.note-ports", "clap.params",
    "clap.state", "clap.remote-controls/2", "clap.remote-controls.draft/2"]
  activate := activate
  reset := reset
  process := process
  audioPorts := some
    { audioPortCount := fun _ _ => 1, audioPortInfo := fun _ => audioPortInfo }
  notePorts := some { notePortCount := notePortCount, notePortInfo := notePortInfo }
  params := some
    { paramCount := 2, paramInfo := paramTable paramInfos
      paramValue := fun s => loadParam paramIds s.params, paramsFlush := paramsFlush }
  state := some { stateSave := stateSave, stateLoad := stateLoad }

end SidechainSynthPlugin

end

end Cvp
