/-
  What a plugin flavor supplies to the wrapper: the virtual methods of `wrapper/plugin.h` and
  the provider interfaces of `wrapper/ext/*.h`. A flavor is a `PluginImpl` over its own state
  type; a provider it does not implement is `none`, as an extension it does not register.

  A virtual method returns its value, the new state, the events it pushed to the host's output
  list and the calls it made on its base or host (`Effect`), in order. `try_push` always takes
  the event. The text conversions of parameters touch no state and stand with the flavors alone.
-/
import ClapValidatorPlugins.Wrapper.Stream
import ClapValidatorPlugins.Wrapper.ThreadCheck

namespace Cvp

/-- What a virtual method can ask its base class: `isActive()`, `sampleRate()`, `host()`. -/
structure Base (D : Type) where
  isActive : Bool
  sampleRate : D
  host : Option Host

/-- A call on the host's function tables. -/
inductive HostCall where
  | requestCallback
  | requestRestart
  | requestFlush
  | rescanValues
  | presetLoaded (kind : Nat) (location loadKey : Option String)
  | presetOnError (kind : Nat) (location loadKey : Option String) (message : String)
  deriving DecidableEq, Repr

/-- What a virtual method does besides returning: `logToHost`, `requestCallback`, host calls. -/
inductive Effect where
  | log (severity : LogSeverity) (text : String)
  | requestCallback
  | host (call : HostCall)
  deriving DecidableEq, Repr

/-- The result of a virtual method. -/
structure Outcome (D σ α : Type) where
  value : α
  self : σ
  effects : List Effect := []
  pushed : List (Event D) := []

/-- A method that only changes the state. -/
def Outcome.done {D σ : Type} (self : σ) : Outcome D σ Unit := { value := (), self := self }

/-- A method that only returns. -/
def Outcome.just {D σ α : Type} (value : α) (self : σ) : Outcome D σ α :=
  { value := value, self := self }

/-! ## Provider interfaces -/

structure AudioPortsProvider (σ : Type) where
  audioPortCount : σ → Bool → Nat
  audioPortInfo : σ → Nat → Bool → Option AudioPortInfo

/-- `clap_audio_ports_config`, without the main-port summary nothing reads. -/
structure AudioPortsConfig where
  id : ClapId
  name : String
  inputPortCount : Nat
  outputPortCount : Nat
  deriving DecidableEq, Repr

structure AudioPortsConfigProvider (D σ : Type) where
  audioPortsConfigCount : Nat
  audioPortsConfigInfo : Nat → Option AudioPortsConfig
  audioPortsConfigSelect : Base D → σ → ClapId → Outcome D σ Bool

/-- `clap_audio_port_configuration_request`; `portDetails` is the surround channel map. -/
structure PortConfigRequest where
  isInput : Bool
  portIndex : Nat
  channelCount : Nat
  portType : Option PortType
  portDetails : Option (List UInt8)
  deriving DecidableEq, Repr

/-- A request list: null, or an array. -/
abbrev PortConfigRequests := Option (List PortConfigRequest)

structure ConfigurableAudioPortsProvider (D σ : Type) where
  canApplyConfiguration : Base D → σ → PortConfigRequests → Outcome D σ Bool
  applyConfiguration : Base D → σ → PortConfigRequests → Outcome D σ Bool

structure ParamsProvider (D σ : Type) where
  paramCount : Nat
  paramInfo : Nat → Option (ParamInfo D)
  paramValue : σ → ClapId → Option D
  /-- the last argument is whether `out` is non-null -/
  paramsFlush : Base D → σ → Option (InputEvents D) → Bool → Exec (Outcome D σ Unit)

structure StateProvider (D σ : Type) where
  stateSave : σ → OStream → Exec (Outcome D σ Bool × OStream)
  stateLoad : σ → IStream → Exec (Outcome D σ Bool × IStream)

structure NotePortInfo where
  id : ClapId
  name : String
  deriving DecidableEq, Repr

structure NotePortsProvider where
  notePortCount : Bool → Nat
  notePortInfo : Nat → Bool → Option NotePortInfo

structure LatencyProvider (D σ : Type) where
  latency : Base D → σ → UInt32

structure TailProvider (D σ : Type) where
  tail : Base D → σ → UInt32

structure RenderProvider (D σ : Type) where
  renderSet : σ → Int → Outcome D σ Bool

structure VoiceInfo where
  voiceCount : Nat
  voiceCapacity : Nat
  supportsOverlappingNotes : Bool
  deriving DecidableEq, Repr

structure VoiceInfoProvider where
  voiceInfo : VoiceInfo

structure SurroundProvider (D σ : Type) where
  surroundIsChannelMaskSupported : σ → Nat → Outcome D σ Bool
  /-- the entries written; none where the capacity or the port is wrong -/
  surroundChannelMap : σ → Bool → Nat → Nat → Outcome D σ (List UInt8)

/-- The files a FILE location can name, by path. -/
abbrev FileSystem := String → Option String

structure PresetLoadProvider (D σ : Type) where
  presetLoadFromLocation :
    Base D → σ → FileSystem → Nat → Option String → Option String → Outcome D σ Bool

/-- The gui.h methods other than `create` and `destroy`. -/
inductive GuiMethod (D : Type) where
  | isApiSupported (api : Option String) (isFloating : Bool)
  | getPreferredApi
  | setScale (scale : D)
  | getSize
  | canResize
  | getResizeHints
  | adjustSize (width height : Nat)
  | setSize (width height : Nat)
  | setParent
  | setTransient
  | suggestTitle (title : Option String)
  | show
  | hide

/-- What the platform's native view answers during one call. -/
structure NativeAnswer where
  ok : Bool := true
  width : Nat := 0
  height : Nat := 0
  deriving DecidableEq, Repr

structure GuiProvider (D σ : Type) where
  guiCreate : σ → Option String → Bool → NativeAnswer → Outcome D σ Bool
  guiDestroy : σ → Outcome D σ Unit
  guiMethod : σ → GuiMethod D → NativeAnswer → Outcome D σ Bool

/-- An edit made in the plugin's own editor window (`GuiModel`, UI thread). -/
inductive UiEdit (D : Type) where
  | beginGesture (paramId : ClapId)
  | setValue (paramId : ClapId) (value : D)
  | endGesture (paramId : ClapId)

/-! ## A flavor -/

/-- A subclass of `Plugin`: constructor, virtual methods, registered extensions. -/
structure PluginImpl (D S σ : Type) where
  create : σ
  /-- `setLifecycleLogging(true)` in the constructor -/
  logLifecycle : Bool := false
  /-- the ids given to `provideExtension` -/
  extensions : List String
  init : Base D → σ → Outcome D σ Bool := fun _ s => .just true s
  activate : Base D → σ → D → Nat → Nat → Outcome D σ Bool := fun _ s _ _ _ => .just true s
  deactivate : Base D → σ → Outcome D σ Unit := fun _ s => .done s
  startProcessing : Base D → σ → Outcome D σ Bool := fun _ s => .just true s
  stopProcessing : Base D → σ → Outcome D σ Unit := fun _ s => .done s
  reset : Base D → σ → Outcome D σ Unit := fun _ s => .done s
  onMainThread : Base D → σ → Outcome D σ Unit := fun _ s => .done s
  process : Base D → σ → ProcessBlock D → AudioMemory D S →
    Exec (Outcome D σ ProcessStatus × AudioMemory D S)
  audioPorts : Option (AudioPortsProvider σ) := none
  audioPortsConfig : Option (AudioPortsConfigProvider D σ) := none
  configurableAudioPorts : Option (ConfigurableAudioPortsProvider D σ) := none
  params : Option (ParamsProvider D σ) := none
  state : Option (StateProvider D σ) := none
  notePorts : Option NotePortsProvider := none
  latency : Option (LatencyProvider D σ) := none
  tail : Option (TailProvider D σ) := none
  render : Option (RenderProvider D σ) := none
  voiceInfo : Option VoiceInfoProvider := none
  surround : Option (SurroundProvider D σ) := none
  presetLoad : Option (PresetLoadProvider D σ) := none
  gui : Option (GuiProvider D σ) := none
  uiEdit : Base D → σ → UiEdit D → Option (Outcome D σ Unit) := fun _ _ _ => none

/-! ## Event loops -/

/-- The event loop of a flavor: `handle` on every event of the list, in order. -/
def consume {D σ : Type} (handle : σ → Event D → Outcome D σ Unit) :
    σ → List (Event D) → Outcome D σ Unit
  | s, [] => .done s
  | s, e :: es =>
    let first := handle s e
    let rest := consume handle first.self es
    { value := (), self := rest.self, effects := first.effects ++ rest.effects,
      pushed := first.pushed ++ rest.pushed }

/-- `if (process->in_events)`: the flavors with the guard skip the loop on a null list. -/
def guardedHeaders {D : Type} : Option (InputEvents D) → Exec (List (Event D))
  | none => .ok []
  | some list => list.headers

/-- The other flavors dereference the list. -/
def unguardedHeaders {D : Type} : Option (InputEvents D) → Exec (List (Event D))
  | none => .error .nullEvent
  | some list => list.headers

section Consume

variable {D σ : Type} (handle : σ → Event D → Outcome D σ Unit)

theorem consume_append (s : σ) (as bs : List (Event D)) :
    consume handle s (as ++ bs) =
      { value := (), self := (consume handle (consume handle s as).self bs).self
        effects := (consume handle s as).effects ++
          (consume handle (consume handle s as).self bs).effects
        pushed := (consume handle s as).pushed ++
          (consume handle (consume handle s as).self bs).pushed } := by
  induction as generalizing s with
  | nil => rfl
  | cons a as ih =>
    simp only [List.cons_append, consume, ih, List.append_assoc]

/-- An event that the handler passes over can be taken out of the list. -/
theorem consume_skip (as bs : List (Event D)) (e : Event D)
    (h : ∀ s, handle s e = .done s) (s : σ) :
    consume handle s (as ++ e :: bs) = consume handle s (as ++ bs) := by
  rw [consume_append, consume_append]
  have hstep : ∀ t, consume handle t (e :: bs) = consume handle t bs := by
    intro t
    simp only [consume, h, Outcome.done, List.nil_append]
  rw [hstep]

/-- A handler that only changes the state makes the loop a fold. -/
theorem consume_done (f : σ → Event D → σ) (es : List (Event D)) :
    ∀ s : σ, consume (fun s e => .done (f s e)) s es = .done (es.foldl f s) := by
  induction es with
  | nil => exact fun s => rfl
  | cons e es ih =>
    intro s
    rw [consume, ih]
    rfl

/-- What every event preserves, the loop preserves. -/
theorem consume_self (es : List (Event D)) :
    ∀ s, (consume handle s es).self = es.foldl (fun s e => (handle s e).self) s := by
  induction es with
  | nil => exact fun s => rfl
  | cons e es ih => exact fun s => ih (handle s e).self

end Consume

end Cvp
