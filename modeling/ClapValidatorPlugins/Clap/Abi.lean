/-
  The part of the CLAP 1.2.10 ABI the plugins exchange with the host: events, the process
  block, port and parameter descriptions, status codes. Flag words are records of the flags
  the sources use. A pointer is a number, null is `none`; a channel pointer addresses one
  whole channel buffer, and two channel buffers are the same memory or disjoint.

  `uint32_t` fields that only take part in comparisons are `Nat`; ids and `frames_count` are
  `UInt32`.
-/
import ClapValidatorPlugins.Clap.Float

namespace Cvp

abbrev ClapId := UInt32

/-- The address of a channel buffer, or of a parameter cookie. -/
abbrev Ptr := Nat

abbrev ThreadId := Nat

inductive LogSeverity where
  | debug | info | warning | error | fatal | hostMisbehaving | pluginMisbehaving
  deriving DecidableEq, Repr

inductive ProcessStatus where
  | error | continue | continueIfNotQuiet | tail | sleep
  deriving DecidableEq, Repr

/-! ## Undefined behaviour -/

/-- What ends a run for good: the sources have no defined behaviour past it. -/
inductive Fault where
  /-- a null pointer was dereferenced or a null callback called -/
  | nullDeref
  /-- the null pointer was an event list or an event header -/
  | nullEvent
  /-- a channel pointer array was indexed at or past its length -/
  | channelOutOfRange
  /-- a stream callback reported more bytes than it was offered -/
  | streamOverrun
  /-- the instance was used after `destroy()` -/
  | useAfterFree
  deriving DecidableEq, Repr

abbrev Exec := Except Fault

/-! ## Events -/

/-- `CLAP_CORE_EVENT_SPACE_ID`. -/
def coreEventSpaceId : Nat := 0

/-- `sizeof(clap_event_header)`: three `uint32_t` and two `uint16_t`. -/
def sizeofEventHeader : Nat := 16

/-- `sizeof(clap_event_param_gesture)`: the header and a `clap_id`. -/
def sizeofParamGesture : Nat := 20

/-- `sizeof(clap_event_note)`. -/
def sizeofNote : Nat := 40

/-- `sizeof(clap_event_param_value)`. -/
def sizeofParamValue : Nat := 56

/-- `CLAP_EVENT_*` header flags. -/
structure EventFlags where
  isLive : Bool := false
  dontRecord : Bool := false
  deriving DecidableEq, Repr

/-- The fields of `clap_event_note` behind the header. -/
structure NoteEvent (D : Type) where
  noteId : Int
  portIndex : Int := 0
  channel : Int
  key : Int
  velocity : D

/-- The addressing fields `clap_event_param_value` and `clap_event_param_mod` share. -/
structure ParamTarget where
  paramId : ClapId
  cookie : Option Ptr := none
  noteId : Int := -1
  portIndex : Int := -1
  channel : Int := -1
  key : Int := -1
  deriving DecidableEq, Repr

/-- `clap_event_midi`: the three data bytes. -/
structure MidiEvent where
  portIndex : Nat := 0
  data0 : UInt8
  data1 : UInt8
  data2 : UInt8
  deriving DecidableEq, Repr

structure TransportFlags where
  hasTempo : Bool := false
  hasBeatsTimeline : Bool := false
  hasSecondsTimeline : Bool := false
  hasTimeSignature : Bool := false
  isPlaying : Bool := false
  isRecording : Bool := false
  isLoopActive : Bool := false
  isWithinPreRoll : Bool := false
  deriving DecidableEq, Repr

/-- `clap_event_transport` behind the header. -/
structure Transport (D : Type) where
  flags : TransportFlags
  songPosBeats : Int
  songPosSeconds : Int
  tempo : D
  loopStartBeats : Int
  loopEndBeats : Int
  barStart : Int
  barNumber : Int
  tsigNum : Nat
  tsigDenom : Nat

/-- The event type together with what the matching struct holds. The types no plugin reads
    are `other`. -/
inductive EventBody (D : Type) where
  | noteOn (note : NoteEvent D)
  | noteOff (note : NoteEvent D)
  | noteChoke (note : NoteEvent D)
  | noteEnd (note : NoteEvent D)
  | paramValue (target : ParamTarget) (value : D)
  | paramMod (target : ParamTarget) (amount : D)
  | paramGestureBegin (paramId : ClapId)
  | paramGestureEnd (paramId : ClapId)
  | transport (transport : Transport D)
  | midi (midi : MidiEvent)
  | other (type : Nat)

/-- An event in a host or plugin event list: `clap_event_header` and its struct. -/
structure Event (D : Type) where
  size : Nat
  time : Nat
  spaceId : Nat := coreEventSpaceId
  flags : EventFlags := {}
  body : EventBody D

/-- `header->space_id == CLAP_CORE_EVENT_SPACE_ID`. -/
def Event.isCore {D : Type} (e : Event D) : Bool := e.spaceId == coreEventSpaceId

/-- The P06 condition. -/
def Event.isMalformed {D : Type} (e : Event D) : Bool := decide (e.size < sizeofEventHeader)

/-- `clap_input_events`: the two callbacks may be null, `get` may return null. -/
structure InputEvents (D : Type) where
  hasSize : Bool := true
  hasGet : Bool := true
  events : List (Option (Event D))

/-- What a plugin loop over the list reads. A plugin dereferences each header it fetches, so a
    null entry faults the whole call wherever it stands. -/
def InputEvents.headers {D : Type} (ev : InputEvents D) : Except Fault (List (Event D)) :=
  if ev.hasSize && (ev.hasGet || ev.events.isEmpty) then
    ev.events.mapM (fun
      | some header => .ok header
      | none => .error .nullEvent)
  else .error .nullDeref

/-- The list of an event array without null entries. -/
def InputEvents.ofList {D : Type} (es : List (Event D)) : InputEvents D :=
  { events := es.map some }

/-! ## Audio -/

structure AudioPortFlags where
  isMain : Bool := false
  supports64Bits : Bool := false
  prefers64Bits : Bool := false
  requiresCommonSampleSize : Bool := false
  deriving DecidableEq, Repr

inductive PortType where
  | mono | stereo | surround | other (name : String)
  deriving DecidableEq, Repr

/-- `clap_audio_port_info`; `inPlacePair = none` is `CLAP_INVALID_ID`. -/
structure AudioPortInfo where
  id : ClapId
  name : String
  flags : AudioPortFlags
  channelCount : Nat
  portType : PortType
  inPlacePair : Option ClapId
  deriving DecidableEq, Repr

/-- `clap_audio_buffer`: `data32`/`data64` are null or an array of channel pointers. -/
structure AudioBuffer where
  channelCount : Nat
  data32 : Option (List Ptr) := none
  data64 : Option (List Ptr) := none
  deriving DecidableEq, Repr

/-- Channel memory of one sample type: buffer address, then sample index. -/
abbrev Plane (T : Type) := Ptr → Nat → T

def Plane.write {T : Type} (m : Plane T) (p : Ptr) (i : Nat) (x : T) : Plane T :=
  fun q j => if q = p ∧ j = i then x else m q j

/-- All channel memory a block can reach. -/
structure AudioMemory (D S : Type) where
  f32 : Plane S
  f64 : Plane D

/-- `clap_process`. The buffer counts are the lengths of the two lists. -/
structure ProcessBlock (D : Type) where
  steadyTime : Int := -1
  framesCount : UInt32
  transport : Option (Transport D) := none
  audioInputs : List AudioBuffer := []
  audioOutputs : List AudioBuffer := []
  inEvents : Option (InputEvents D)
  /-- whether `out_events` is non-null -/
  hasOutEvents : Bool := true

/-! ## Parameters -/

structure ParamFlags where
  isStepped : Bool := false
  isPeriodic : Bool := false
  isHidden : Bool := false
  isReadonly : Bool := false
  isBypass : Bool := false
  isAutomatable : Bool := false
  isModulatable : Bool := false
  isModulatablePerNoteId : Bool := false
  isModulatablePerKey : Bool := false
  isModulatablePerChannel : Bool := false
  requiresProcess : Bool := false
  isEnum : Bool := false
  deriving DecidableEq, Repr

/-- `clap_param_info`. -/
structure ParamInfo (D : Type) where
  id : ClapId
  flags : ParamFlags := {}
  cookie : Option Ptr := none
  name : String
  minValue : D
  maxValue : D
  defaultValue : D

end Cvp
