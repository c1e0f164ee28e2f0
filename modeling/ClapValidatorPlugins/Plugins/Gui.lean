/-
  `plugins/gui/gui_plugin.cpp` and `wrapper/param_queue.h`: the gain effect with an editor. Edits
  made in the editor go through a queue that `process` and `paramsFlush` drain to the host. Of the
  native view only its existence is kept; what it answers comes with the call (`NativeAnswer`).
  The platform API is X11.

  Left out: the descriptor, remote controls, and the sequence counter of the transport snapshot,
  which only matters to concurrent readers.
-/
import ClapValidatorPlugins.Plugins.Plain

namespace Cvp

/-! ## `ParamEventQueue` -/

namespace ParamEventQueue

/-- `ParamEventQueue::Item`; only a value carries a number that is read. -/
inductive Item (D : Type) where
  | gestureBegin (paramId : ClapId)
  | value (paramId : ClapId) (value : D)
  | gestureEnd (paramId : ClapId)

variable {D : Type}

/-- The event an item is forwarded as. -/
def Item.event : Item D → Event D
  | .gestureBegin id => { size := sizeofParamGesture, time := 0, body := .paramGestureBegin id }
  | .value id x =>
    { size := sizeofParamValue, time := 0, body := .paramValue { paramId := id } x }
  | .gestureEnd id => { size := sizeofParamGesture, time := 0, body := .paramGestureEnd id }

/-- `apply` on a value item. -/
def applyItem (ids : List ClapId) (values : ParamValues D) : Item D → ParamValues D
  | .value id x => storeParam ids values id x
  | _ => values

/-- `drain`: the stored values and what is forwarded to a non-null `out`. -/
def drain (ids : List ClapId) (values : ParamValues D) (items : List (Item D))
    (hasOutEvents : Bool) : ParamValues D × List (Event D) :=
  (items.foldl (applyItem ids) values, if hasOutEvents then items.map Item.event else [])

end ParamEventQueue

namespace GuiPlugin

open ParamEventQueue

variable {D S : Type} [DoubleOps D] [FloatOps S] [FloatCast D S]

def kPlatformApi : String := "x11"

def kParamGain : ClapId := 0
def kParamMode : ClapId := 1
def kParamMute : ClapId := 2

/-- `paramStorage`. -/
def paramIds : List ClapId := [kParamGain, kParamMode, kParamMute]

/-- `GuiModel::TransportInfo`: the last transport seen, in beats and seconds. -/
structure TransportInfo (D : Type) where
  seen : Bool
  provided : Bool
  flags : TransportFlags
  tempo : D
  songPosBeats : D
  songPosSeconds : D
  loopStartBeats : D
  loopEndBeats : D
  barStartBeats : D
  barNumber : Int
  tsigNum : Nat
  tsigDenom : Nat

def TransportInfo.init : TransportInfo D :=
  { seen := false, provided := false, flags := {}, tempo := DoubleOps.lit 0
    songPosBeats := DoubleOps.lit 0, songPosSeconds := DoubleOps.lit 0
    loopStartBeats := DoubleOps.lit 0, loopEndBeats := DoubleOps.lit 0
    barStartBeats := DoubleOps.lit 0, barNumber := 0, tsigNum := 0, tsigDenom := 0 }

structure State (D : Type) where
  params : ParamValues D
  paramQueue : List (Item D)
  hostParams : Option HostParams
  /-- `_view != nullptr` -/
  view : Bool
  scale : D
  transportData : TransportInfo D

def create : State D :=
  { params := fun _ => DoubleOps.lit 0, paramQueue := [], hostParams := none, view := false
    scale := DoubleOps.lit 1, transportData := TransportInfo.init }

def init (base : Base D) (s : State D) : Outcome D (State D) Bool :=
  match base.host with
  | none => .just true s
  | some host => .just true { s with hostParams := host.params }

/-- Stale edits do not leak into the next activation. -/
def deactivate (_ : Base D) (s : State D) : Outcome D (State D) Unit :=
  .done { s with paramQueue := [] }

def paramInfos : List (ParamInfo D) :=
  [{ id := kParamGain, name := "Gain", flags := { isAutomatable := true }
     minValue := DoubleOps.lit (-36), maxValue := DoubleOps.lit 36
     defaultValue := DoubleOps.lit 0 },
   { id := kParamMode, name := "Mode"
     flags := { isAutomatable := true, isStepped := true, isEnum := true }
     minValue := DoubleOps.lit 0, maxValue := DoubleOps.lit 3
     defaultValue := DoubleOps.lit 0 },
   { id := kParamMute, name := "Mute", flags := { isAutomatable := true, isStepped := true }
     minValue := DoubleOps.lit 0, maxValue := DoubleOps.lit 1
     defaultValue := DoubleOps.lit 0 }]

def kModeNames : List String := ["Off", "Slow", "Medium", "Fast"]

def paramValueToText (paramId : ClapId) (value : D) (capacity : Nat) : Option String :=
  if paramId = kParamGain then some (fixedText 1 " dB" value capacity)
  else if paramId = kParamMode then
    some (snprintf capacity (kModeNames.getD (choiceIndex value 3) ""))
  else if paramId = kParamMute then
    some (snprintf capacity
      (if DoubleOps.le (DoubleOps.lit (1 / 2)) value then "On" else "Off"))
  else none

def paramTextToValue (paramId : ClapId) (text : String) : Option D :=
  if paramId = kParamGain then numberValue text
  else if paramId = kParamMode then choiceValue (beginsWith text) kModeNames
  else if paramId = kParamMute then
    if beginsWith text "On" then some (DoubleOps.lit 1)
    else if beginsWith text "Off" then some (DoubleOps.lit 0)
    else none
  else none

def applyParamEvent (s : State D) (header : Event D) : State D :=
  { s with params := applyParamValue paramIds s.params header }

omit [DoubleOps D] in
theorem foldl_applyParamEvent (headers : List (Event D)) :
    ∀ s : State D, headers.foldl applyParamEvent s =
      { s with params := headers.foldl (applyParamValue paramIds) s.params } := by
  induction headers with
  | nil => exact fun s => rfl
  | cons header headers ih => exact fun s => ih (applyParamEvent s header)

/-- `_paramQueue.drain` with the flavor's store. -/
def drainQueue (s : State D) (hasOutEvents : Bool) : State D × List (Event D) :=
  let drained := drain paramIds s.params s.paramQueue hasOutEvents
  ({ s with params := drained.1, paramQueue := [] }, drained.2)

def paramsFlush (_ : Base D) (s : State D) (inEvents : Option (InputEvents D))
    (hasOutEvents : Bool) : Exec (Outcome D (State D) Unit) := do
  let headers ← unguardedHeaders inEvents
  let s := (consume (fun s e => .done (applyParamEvent s e)) s headers).self
  let (s, pushed) := drainQueue s hasOutEvents
  .ok { value := (), self := s, pushed := pushed }

/-! ## gui -/

def sizeText (width height : Nat) : String := toString width ++ "x" ++ toString height

/-- `NativeView::kDefaultWidth`, `kMinWidth` and `minHeightFor(kParamCount)`. -/
def kDefaultWidth : D := DoubleOps.lit 560
def kMinWidth : D := DoubleOps.lit 420
def minHeight : D := DoubleOps.lit 484

/-- `adjustToMinimum`. -/
def adjustToMinimum (s : State D) (width height : Nat) : Nat × Nat :=
  (max width (DoubleOps.toUInt32 (kMinWidth * s.scale)).toNat,
    max height (DoubleOps.toUInt32 (minHeight * s.scale)).toNat)

def flag (b : Bool) : String := if b then "1" else "0"

def guiCreate (s : State D) (api : Option String) (isFloating : Bool) (native : NativeAnswer) :
    Outcome D (State D) Bool :=
  let effects := [Effect.log .info (snprintf 128 ("gui: create(api=" ++ api.getD "null" ++
    ", floating=" ++ flag isFloating ++ ")"))]
  if isFloating || api != some kPlatformApi then { value := false, self := s, effects := effects }
  else if s.view then { value := false, self := s, effects := effects }
  else { value := native.ok, self := { s with view := native.ok }, effects := effects }

def guiDestroy (s : State D) : Outcome D (State D) Unit :=
  { value := (), self := { s with view := false }, effects := [.log .info "gui: destroy()"] }

/-- The other gui methods. -/
def guiMethod (s : State D) (method : GuiMethod D) (native : NativeAnswer) :
    Outcome D (State D) Bool :=
  match method with
  | .isApiSupported api isFloating =>
    let supported := !isFloating && api == some kPlatformApi
    { value := supported, self := s
      effects := [.log .debug (snprintf 128 ("gui: is_api_supported(api=" ++ api.getD "null" ++
        ", floating=" ++ flag isFloating ++ ") -> " ++ (if supported then "true" else "false")))] }
  | .getPreferredApi =>
    { value := true, self := s, effects := [.log .debug "gui: get_preferred_api()"] }
  | .setScale scale =>
    { value := true
      self := { s with
        scale := if DoubleOps.lt (DoubleOps.lit 0) scale then scale else DoubleOps.lit 1 }
      effects := [.log .debug (snprintf 96 ("gui: set_scale(" ++
        DoubleOps.formatFixed 2 scale ++ ")"))] }
  | .getSize =>
    let (width, height) := if s.view then (native.width, native.height)
      else ((DoubleOps.toUInt32 (kDefaultWidth * s.scale)).toNat,
        (DoubleOps.toUInt32 (minHeight * s.scale)).toNat)
    { value := true, self := s
      effects := [.log .debug (snprintf 96 ("gui: get_size() -> " ++ sizeText width height))] }
  | .canResize =>
    { value := true, self := s, effects := [.log .debug "gui: can_resize() -> true"] }
  | .getResizeHints =>
    { value := true, self := s, effects := [.log .debug "gui: get_resize_hints()"] }
  | .adjustSize width height =>
    let adjusted := adjustToMinimum s width height
    { value := true, self := s
      effects := [.log .debug (snprintf 128 ("gui: adjust_size(" ++ sizeText width height ++
        ") -> " ++ sizeText adjusted.1 adjusted.2))] }
  | .setSize width height =>
    { value := s.view && native.ok, self := s
      effects := [.log .debug (snprintf 96 ("gui: set_size(" ++ sizeText width height ++ ")"))] }
  | .setParent =>
    { value := s.view && native.ok, self := s, effects := [.log .info "gui: set_parent()"] }
  | .setTransient =>
    { value := false, self := s, effects := [.log .debug "gui: set_transient()"] }
  | .suggestTitle title =>
    { value := true, self := s
      effects := [.log .debug (snprintf 128 ("gui: suggest_title('" ++ title.getD "null" ++
        "')"))] }
  | .show => { value := s.view, self := s, effects := [.log .info "gui: show()"] }
  | .hide => { value := s.view, self := s, effects := [.log .info "gui: hide()"] }

/-! ## `GuiModel` -/

/-- `if (_hostParams && host()) _hostParams->request_flush(host());`. -/
def requestFlush (base : Base D) (s : State D) : List Effect :=
  if s.hostParams.isSome && base.host.isSome then [.host .requestFlush] else []

/-- `guiBeginGesture`, `guiSetValue` and `guiEndGesture`; a value is stored before it is queued. -/
def uiEdit (base : Base D) (s : State D) (edit : UiEdit D) : Outcome D (State D) Unit :=
  let s := match edit with
    | .beginGesture id => { s with paramQueue := s.paramQueue ++ [.gestureBegin id] }
    | .setValue id x =>
      { s with
        params := storeParam paramIds s.params id x
        paramQueue := s.paramQueue ++ [.value id x] }
    | .endGesture id => { s with paramQueue := s.paramQueue ++ [.gestureEnd id] }
  { value := (), self := s, effects := requestFlush base s }

/-! ## Processing -/

/-- `static_cast<double>(t) / CLAP_BEATTIME_FACTOR`; the factor for seconds is the same. -/
def fixedPoint (t : Int) : D := DoubleOps.ofInt t / DoubleOps.lit (2 ^ 31)

def storeTransport (s : State D) (transport : Option (Transport D)) : State D :=
  let info : TransportInfo D :=
    match transport with
    | none => { TransportInfo.init with seen := true }
    | some t =>
      { seen := true, provided := true, flags := t.flags, tempo := t.tempo
        songPosBeats := fixedPoint t.songPosBeats, songPosSeconds := fixedPoint t.songPosSeconds
        loopStartBeats := fixedPoint t.loopStartBeats, loopEndBeats := fixedPoint t.loopEndBeats
        barStartBeats := fixedPoint t.barStart, barNumber := t.barNumber
        tsigNum := t.tsigNum, tsigDenom := t.tsigDenom }
  { s with transportData := info }

/-- The loop body of `process`: a transport event replaces the block's transport. -/
def processEvent (acc : State D × Option (Transport D)) (header : Event D) :
    State D × Option (Transport D) :=
  match header.isCore, header.body with
  | true, .transport t => (acc.1, some t)
  | _, _ => (applyParamEvent acc.1 header, acc.2)

omit [DoubleOps D] in
/-- A transport event replaces the transport; to the rest of the members it is like any other
    event. -/
theorem processEvent_fst (acc : State D × Option (Transport D)) (header : Event D) :
    (processEvent acc header).1 = applyParamEvent acc.1 header := by
  unfold processEvent
  split
  · rename_i t hcore hbody
    unfold applyParamEvent applyParamValue
    rw [hcore, hbody]
    rfl
  · rfl

omit [DoubleOps D] in
theorem foldl_processEvent (headers : List (Event D)) :
    ∀ acc : State D × Option (Transport D),
      (headers.foldl processEvent acc).1 = headers.foldl applyParamEvent acc.1 := by
  induction headers with
  | nil => exact fun acc => rfl
  | cons header headers ih =>
    intro acc
    rw [List.foldl_cons, List.foldl_cons, ← processEvent_fst acc header]
    exact ih _

def process (_ : Base D) (s : State D) (block : ProcessBlock D) (memory : AudioMemory D S) :
    Exec (Outcome D (State D) ProcessStatus × AudioMemory D S) :=
  match block.audioInputs, block.audioOutputs with
  | input :: _, output :: _ => do
    let headers ← guardedHeaders block.inEvents
    let (s, transport) := headers.foldl processEvent (s, block.transport)
    let s := storeTransport s transport
    let (s, pushed) := drainQueue s block.hasOutEvents
    let mute := DoubleOps.le (DoubleOps.lit (1 / 2)) (s.params kParamMute)
    let gain : S := if mute then FloatOps.lit 0 else FloatCast.toFloat
      (DoubleOps.pow (DoubleOps.lit 10) (s.params kParamGain / DoubleOps.lit 20) : D)
    let m ← mapChannels (fun _ x => x * gain) input output block.framesCount.toNat 0
      (commonChannels input output) memory.f32
    .ok ({ value := .continue, self := s, pushed := pushed }, { memory with f32 := m })
  | _, _ => .ok (.just .error s, memory)

variable [DoubleBits D]

def stateSave (s : State D) (stream : OStream) : Exec (Outcome D (State D) Bool × OStream) := do
  let (ok, stream) ← saveRecords kStateMagic paramIds s.params stream
  .ok (.just ok s, stream)

def stateLoad (s : State D) (stream : IStream) : Exec (Outcome D (State D) Bool × IStream) := do
  let (ok, params, stream) ← loadCounted kStateMagic paramIds s.params stream
  .ok (.just ok { s with params := params }, stream)

def impl : PluginImpl D S (State D) where
  create := create
  logLifecycle := true
  extensions := ["clap.audio-ports", "clap.params", "clap.state", "clap.gui",
    "clap.remote-controls/2", "clap.remote-controls.draft/2"]
  init := init
  deactivate := deactivate
  process := process
  audioPorts := some { audioPortCount := fun _ _ => 1, audioPortInfo := fun _ => stereoPort }
  params := some
    { paramCount := 3, paramInfo := paramTable paramInfos
      paramValue := fun s => loadParam paramIds s.params, paramsFlush := paramsFlush }
  state := some { stateSave := stateSave, stateLoad := stateLoad }
  gui := some { guiCreate := guiCreate, guiDestroy := guiDestroy, guiMethod := guiMethod }
  uiEdit := fun base s edit => some (uiEdit base s edit)

end GuiPlugin

end Cvp
