/-
  Where the values of parameters come from: PARAM_VALUEs, edits, state streams, presets, and the
  meter that ParamsZoo computes by itself. A call writes nothing else, so what holds of every value
  it brings along, it keeps of every value there is (`Flavor.keeps`).
-/
import ClapValidatorPlugins.Events.Stores
import ClapValidatorPlugins.Gui.Calls
import ClapValidatorPlugins.Presets.Loading
import ClapValidatorPlugins.State.Flavors

namespace Cvp

open Assignments

/-! ## Event loops -/

section Loops

variable {D : Type} {P : ClapId → D → Prop}

/-- Every core PARAM_VALUE of the list carries a value with `P`. -/
def EventsCarry (P : ClapId → D → Prop) (inEvents : Option (InputEvents D)) : Prop :=
  ∀ list ∈ inEvents, ∀ e, some e ∈ list.events → ∀ r ∈ paramValueOf e, P r.1 r.2

theorem EventsCarry.of_reads {inEvents : Option (InputEvents D)} (h : EventsCarry P inEvents)
    {headers : List (Event D)} (hreads : ReadsEvents inEvents headers) :
    ∀ e ∈ headers, ∀ r ∈ paramValueOf e, P r.1 r.2 := by
  cases inEvents with
  | none =>
    have hnil : headers = [] := hreads
    exact fun e he => absurd (hnil ▸ he) List.not_mem_nil
  | some list =>
    intro e he
    have hmem : some e ∈ list.events := by
      rw [show list.events = headers.map some from hreads]
      exact List.mem_map_of_mem he
    exact h list rfl e hmem

theorem foldl_keeps (ids : List ClapId) {values : ParamValues D} {headers : List (Event D)}
    (hvalues : ∀ id, P id (values id))
    (hheaders : ∀ e ∈ headers, ∀ r ∈ paramValueOf e, P r.1 r.2) :
    ∀ id, P id (headers.foldl (applyParamValue ids) values id) := by
  rw [foldl_applyParamValue, forall_assign_iff hvalues]
  intro id x hlast
  have hmem := (List.mem_filter.mp (mem_of_lastOf hlast)).1
  obtain ⟨e, he, hvalue⟩ := List.mem_filterMap.mp hmem
  exact hheaders e he (id, x) hvalue

/-- A block that stores what its events carry. -/
theorem Stores.keeps {ids : List ClapId} {inEvents : Option (InputEvents D)}
    {before after : ParamValues D} {status : ProcessStatus}
    (hstores : Stores ids inEvents before after status) (h : EventsCarry P inEvents)
    (hbefore : ∀ id, P id (before id)) : ∀ id, P id (after id) := by
  rcases hstores with ⟨-, hsame⟩ | ⟨headers, hreads, hafter⟩
  · rw [hsame]
    exact hbefore
  · rw [hafter]
    exact foldl_keeps ids hbefore (h.of_reads hreads)

/-- A flush that does. -/
theorem flush_keeps {σ : Type} (params : σ → ParamValues D) {ids : List ClapId}
    {handle : σ → Event D → Outcome D σ Unit}
    (hstep : ∀ s e, params (handle s e).self = applyParamValue ids (params s) e)
    {inEvents : Option (InputEvents D)} (h : EventsCarry P inEvents) {s : σ}
    (hs : ∀ id, P id (params s id)) :
    Yields (unguardedHeaders inEvents >>= fun headers => Except.ok (consume handle s headers))
      fun out => ∀ id, P id (params out.self id) := by
  refine (flush_stores params hstep inEvents s).mono fun out hout => ?_
  obtain ⟨headers, hreads, hparams⟩ := hout
  rw [hparams]
  exact foldl_keeps ids hs (h.of_reads hreads)

end Loops

section Meter

variable {D S : Type} [DoubleOps D] [FloatOps S] [FloatCast D S] {P : ClapId → D → Prop}

/-- A block of ParamsZoo leaves a meter with `P` behind if it finds one. -/
def MeterKeeps (S : Type) [FloatOps S] [FloatCast D S] (P : ClapId → D → Prop) : Prop :=
  ∀ peak srcL srcR frames (m : Plane S), P ParamsZooPlugin.kParamPeak peak →
    P ParamsZooPlugin.kParamPeak
      (minDouble (ParamsZooPlugin.measurePeak peak srcL srcR frames m) (DoubleOps.lit 1))

theorem ParamsZooPlugin.process_keeps (hmeter : MeterKeeps S P) {block : ProcessBlock D}
    (h : EventsCarry P block.inEvents) (base : Base D) (memory : AudioMemory D S) {s : State D}
    (hs : ∀ id, P id (s.params id)) :
    Yields (process base s block memory) fun r => ∀ id, P id (r.1.self.params id) := by
  have hloop : ∀ headers, ReadsEvents block.inEvents headers →
      ∀ id, P id ((headers.foldl applyParamEvent s).params id) := by
    intro headers hreads
    rw [foldl_params State.params applyParamEvent_params]
    exact foldl_keeps savedIds hs (h.of_reads hreads)
  refine (process_stores base s block memory).mono fun r hr => ?_
  rcases hr with ⟨-, hself⟩ | ⟨headers, hreads, ⟨-, hself⟩ | ⟨srcL, srcR, hself⟩⟩
  · rw [hself]
    exact hs
  · rw [hself]
    exact hloop headers hreads
  · rw [hself]
    refine (Function.forall_update_iff _ P).mpr ⟨?_, fun id _ => hloop headers hreads id⟩
    exact hmeter _ srcL srcR _ _ (hloop headers hreads kParamPeak)

end Meter

/-! ## The editor's queue -/

/-- The parameter and value of a value item. -/
def ParamEventQueue.Item.valueOf {D : Type} : Item D → Option (ClapId × D)
  | .value id x => some (id, x)
  | _ => none

namespace Flavor

variable {D S : Type}

/-- The values of edits that wait to be drained. -/
def queued : (flavor : Flavor) → flavor.State D S → List (ClapId × D)
  | gui, s => (GuiPlugin.State.paramQueue s).filterMap ParamEventQueue.Item.valueOf
  | _, _ => []

/-- Every value of the instance has `P`: those of the parameters, and those that a drain stores
    once more. -/
structure Holds [DoubleOps D] (P : ClapId → D → Prop) (flavor : Flavor) (s : flavor.State D S) :
    Prop where
  params : ∀ id, P id (flavor.params s id)
  queued : ∀ r ∈ flavor.queued s, P r.1 r.2

end Flavor

section Queue

variable {D S : Type} {P : ClapId → D → Prop}

theorem storeParam_keeps (ids : List ClapId) {values : ParamValues D} {id : ClapId} {x : D}
    (hx : P id x) (hvalues : ∀ id, P id (values id)) :
    ∀ id', P id' (storeParam ids values id x id') := by
  unfold storeParam
  split
  · exact (Function.forall_update_iff values P).mpr ⟨hx, fun id' _ => hvalues id'⟩
  · exact hvalues

theorem drain_keeps (ids : List ClapId) (items : List (ParamEventQueue.Item D)) :
    ∀ {values : ParamValues D}, (∀ id, P id (values id)) →
      (∀ r ∈ items.filterMap ParamEventQueue.Item.valueOf, P r.1 r.2) →
      ∀ id, P id (items.foldl (ParamEventQueue.applyItem ids) values id) := by
  induction items with
  | nil => exact fun hvalues _ => hvalues
  | cons item items ih =>
    intro values hvalues hitems
    cases item with
    | value id x =>
      obtain ⟨hx, hrest⟩ := List.forall_mem_cons.mp hitems
      exact ih (storeParam_keeps ids hx hvalues) hrest
    | gestureBegin id => exact ih hvalues hitems
    | gestureEnd id => exact ih hvalues hitems

variable [DoubleOps D] [FloatOps S] [FloatCast D S]

omit [FloatOps S] [FloatCast D S] in
/-- The events are applied before the edits. -/
theorem GuiPlugin.drainQueue_holds {s : State D} (hs : Flavor.gui.Holds (S := S) P s)
    {headers : List (Event D)} (hheaders : ∀ e ∈ headers, ∀ r ∈ paramValueOf e, P r.1 r.2)
    (hasOutEvents : Bool) :
    Flavor.gui.Holds (S := S) P
      (drainQueue (headers.foldl applyParamEvent s) hasOutEvents).1 := by
  refine ⟨?_, fun r hr => absurd hr List.not_mem_nil⟩
  rw [foldl_applyParamEvent]
  exact drain_keeps paramIds s.paramQueue (foldl_keeps paramIds hs.params hheaders) hs.queued

theorem GuiPlugin.process_holds {block : ProcessBlock D} (h : EventsCarry P block.inEvents)
    (base : Base D) (memory : AudioMemory D S) {s : State D}
    (hs : Flavor.gui.Holds (S := S) P s) :
    Yields (process base s block memory) fun r => Flavor.gui.Holds (S := S) P r.1.self := by
  refine (process_stores base s block memory).mono fun r hr => ?_
  rcases hr with ⟨-, hself⟩ | ⟨headers, hreads, hdrained, hparams⟩
  · rw [hself]
    exact hs
  · refine ⟨?_, ?_⟩
    · show ∀ id, P id (r.1.self.params id)
      rw [hparams]
      exact (drainQueue_holds hs (h.of_reads hreads) block.hasOutEvents).params
    · show ∀ item ∈ r.1.self.paramQueue.filterMap ParamEventQueue.Item.valueOf, P item.1 item.2
      rw [hdrained]
      exact fun item hitem => absurd hitem List.not_mem_nil

omit [FloatOps S] [FloatCast D S] in
theorem GuiPlugin.paramsFlush_holds {inEvents : Option (InputEvents D)}
    (h : EventsCarry P inEvents) (base : Base D) (hasOutEvents : Bool) {s : State D}
    (hs : Flavor.gui.Holds (S := S) P s) :
    Yields (paramsFlush base s inEvents hasOutEvents) fun out =>
      Flavor.gui.Holds (S := S) P out.self := by
  refine Yields.bind (unguardedHeaders_reads inEvents) fun headers hreads => Yields.of_ok ?_
  rw [consume_done]
  exact drainQueue_holds hs (h.of_reads hreads) hasOutEvents

omit [FloatOps S] [FloatCast D S] in
/-- A value is stored and queued. -/
theorem GuiPlugin.uiEdit_holds (base : Base D) {edit : UiEdit D}
    (hset : ∀ id x, edit = .setValue id x → P id x) {s : State D}
    (hs : Flavor.gui.Holds (S := S) P s) :
    Flavor.gui.Holds (S := S) P (uiEdit base s edit).self := by
  have hqueued : ∀ item : ParamEventQueue.Item D, (∀ r ∈ item.valueOf, P r.1 r.2) →
      ∀ r ∈ (s.paramQueue ++ [item]).filterMap ParamEventQueue.Item.valueOf, P r.1 r.2 := by
    intro item hitem r hr
    obtain ⟨item', hmem, hvalue⟩ := List.mem_filterMap.mp hr
    rcases List.mem_append.mp hmem with hold | hnew
    · exact hs.queued r (List.mem_filterMap.mpr ⟨item', hold, hvalue⟩)
    · rw [List.mem_singleton.mp hnew] at hvalue
      exact hitem r hvalue
  cases edit with
  | beginGesture id => exact ⟨hs.params, hqueued _ nofun⟩
  | endGesture id => exact ⟨hs.params, hqueued _ nofun⟩
  | setValue id x =>
    have hx := hset id x rfl
    refine ⟨storeParam_keeps paramIds hx hs.params, hqueued _ ?_⟩
    rintro _ ⟨⟩
    exact hx

end Queue

/-! ## Presets -/

section Presets

variable {D S : Type} [DoubleOps D] {P : ClapId → D → Prop}

/-- A load writes the two values of the preset that the location names. -/
theorem PresetPlugin.presetLoad_holds (base : Base D) (files : FileSystem) (kind : Nat)
    (location loadKey : Option String)
    (hnames : ∀ gain color, Names files kind location loadKey gain color →
      P kParamGain gain ∧ P kParamColor color) {s : State D}
    (hs : Flavor.preset.Holds (S := S) P s) :
    Flavor.preset.Holds (S := S) P
      (presetLoadFromLocation base s files kind location loadKey).self := by
  unfold presetLoadFromLocation
  cases hresolve : (resolve files kind location loadKey : Option (Preset.PresetData D)) with
  | none => exact hs
  | some data =>
    obtain ⟨hgain, hcolor⟩ := hnames _ _ (names_of_resolve hresolve)
    refine ⟨?_, hs.queued⟩
    refine (Function.forall_update_iff _ P).mpr ⟨hcolor, fun id _ => ?_⟩
    exact (Function.forall_update_iff _ P).mpr ⟨hgain, fun id _ => hs.params id⟩ id

end Presets

/-! ## Calls -/

section Calls

variable {D S : Type}

/-- The events and edits of the call set parameters to values with `P`. -/
def Call.Sets (P : ClapId → D → Prop) : Call D S → Prop
  | .process block _ => EventsCarry P block.inEvents
  | .paramsFlush inEvents _ => EventsCarry P inEvents
  | .uiEdit edit => ∀ id x, edit = .setValue id x → P id x
  | _ => True

variable [DoubleOps D] [DoubleBits D]

/-- What the call loads has `P`: the value that a stream carries last for a parameter, the two
    values of a preset. -/
def Call.Loads (P : ClapId → D → Prop) (flavor : Flavor) : Call D S → Prop
  | .stateLoad stream =>
    ∀ id x, lastOf (flavor.stateFormat.stores flavor.savedIds stream) id = some x → P id x
  | .presetLoad files kind location loadKey =>
    flavor = .preset → ∀ gain color, PresetPlugin.Names files kind location loadKey gain color →
      P PresetPlugin.kParamGain gain ∧ P PresetPlugin.kParamColor color
  | _ => True

variable [FloatOps S] [FloatCast D S]

/-- What holds of all values of an instance goes on holding through a call that brings along only
    such values. -/
def Flavor.Keeps (P : ClapId → D → Prop) (flavor : Flavor) (call : Call D S)
    (s s' : flavor.State D S) : Prop :=
  call.Sets P → call.Loads P flavor → flavor.Holds P s → flavor.Holds P s'

namespace Flavor

variable {P : ClapId → D → Prop} (flavor : Flavor)

theorem process_holds (hmeter : flavor = .paramsZoo → MeterKeeps S P) (base : Base D)
    {s : flavor.State D S} {block : ProcessBlock D} (memory : AudioMemory D S)
    (h : EventsCarry P block.inEvents) (hs : flavor.Holds P s) :
    Yields ((flavor.impl : PluginImpl D S _).process base s block memory) fun r =>
      flavor.Holds P r.1.self := by
  cases flavor with
  | synth =>
    exact (SynthPlugin.process_stores base s block memory).mono
      fun _ hr => ⟨hr.keeps h hs.params, hs.queued⟩
  | sidechainSynth =>
    exact (SidechainSynthPlugin.process_stores base s block memory).mono
      fun _ hr => ⟨hr.keeps h hs.params, hs.queued⟩
  | effect =>
    exact (EffectPlugin.process_stores base s block memory).mono
      fun _ hr => ⟨hr.keeps h hs.params, hs.queued⟩
  | multiOutGen =>
    exact (MultiOutGenPlugin.process_stores base s block memory).mono
      fun _ hr => ⟨hr.keeps h hs.params, hs.queued⟩
  | multiOutFx =>
    exact (MultiOutFxPlugin.process_stores base s block memory).mono
      fun _ hr => ⟨hr.keeps h hs.params, hs.queued⟩
  | audioPortsZero =>
    exact (AudioPortsZeroPlugin.process_stores base s block memory).mono
      fun _ hr => ⟨hr.keeps h hs.params, hs.queued⟩
  | slow =>
    exact (SlowPlugin.process_stores base s block memory).mono
      fun _ hr => ⟨hr.keeps h hs.params, hs.queued⟩
  | hostCheck =>
    show Yields (HostCheckPlugin.process base s block memory) _
    unfold HostCheckPlugin.process
    split
    · exact Yields.andThen fun m => Yields.of_ok hs
    · exact Yields.of_ok hs
  | noteFx =>
    exact (NoteFxPlugin.process_stores base s block memory).mono
      fun _ hr => ⟨hr.keeps h hs.params, hs.queued⟩
  | paramsZoo =>
    exact (ParamsZooPlugin.process_keeps (hmeter rfl) h base memory hs.params).mono
      fun _ hr => ⟨hr, hs.queued⟩
  | preset =>
    exact (PresetPlugin.process_stores base s block memory).mono
      fun _ hr => ⟨hr.keeps h hs.params, hs.queued⟩
  | surround =>
    exact (SurroundPlugin.process_stores base s block memory).mono
      fun _ hr => ⟨hr.keeps h hs.params, hs.queued⟩
  | gui => exact GuiPlugin.process_holds h base memory hs

theorem paramsFlush_holds {params : ParamsProvider D (flavor.State D S)}
    (hparams : params ∈ (flavor.impl : PluginImpl D S _).params) (base : Base D)
    {s : flavor.State D S} {inEvents : Option (InputEvents D)} (hasOutEvents : Bool)
    (h : EventsCarry P inEvents) (hs : flavor.Holds P s) :
    Yields (params.paramsFlush base s inEvents hasOutEvents) fun out =>
      flavor.Holds P out.self := by
  cases flavor with
  | hostCheck => cases hparams
  | effect =>
    cases hparams
    exact (flush_keeps EffectPlugin.State.params (EffectPlugin.applyParamEvent_params base) h
      hs.params).mono fun _ hout => ⟨hout, hs.queued⟩
  | paramsZoo =>
    cases hparams
    exact (flush_keeps ParamsZooPlugin.State.params ParamsZooPlugin.applyParamEvent_params h
      hs.params).mono fun _ hout => ⟨hout, hs.queued⟩
  | gui =>
    cases hparams
    exact GuiPlugin.paramsFlush_holds h base hasOutEvents hs
  | _ =>
    cases hparams
    exact (flush_keeps (Flavor.params _) (fun _ _ => rfl) h hs.params).mono
      fun _ hout => ⟨hout, hs.queued⟩

/-- A load assigns what the stream carries. -/
theorem stateLoad_params {state : StateProvider D (flavor.State D S)}
    (hstate : state ∈ (flavor.impl : PluginImpl D S _).state) (s : flavor.State D S)
    (stream : IStream) :
    Yields (state.stateLoad s stream) fun r =>
      flavor.params r.1.self =
          assign (flavor.params s) (flavor.stateFormat.stores flavor.savedIds stream) ∧
        flavor.queued r.1.self = flavor.queued s := by
  have hload := load_stores flavor.stateFormat flavor.savedIds (flavor.params s) stream
  cases flavor with
  | hostCheck => cases hstate
  | _ =>
    cases hstate
    exact Yields.bind hload fun r hr => Yields.of_ok ⟨hr, rfl⟩

theorem keeps (hmeter : flavor = .paramsZoo → MeterKeeps S P) :
    StateRule (flavor.impl : PluginImpl D S _) (flavor.Keeps P) where
  unreached _ _ _ _ hs := hs
  init base s early _ _ hs := by
    cases flavor with
    | preset =>
      show Flavor.preset.Holds P (PresetPlugin.init base s).self
      unfold PresetPlugin.init
      split
      · exact hs
      · exact ⟨hs.params, hs.queued⟩
    | gui =>
      show Flavor.gui.Holds P (GuiPlugin.init base s).self
      unfold GuiPlugin.init
      split
      · exact hs
      · exact ⟨hs.params, hs.queued⟩
    | hostCheck =>
      show Flavor.hostCheck.Holds P (HostCheckPlugin.init base s).self
      unfold HostCheckPlugin.init
      split
      · exact hs
      · exact hs
    | _ => exact hs
  activate _ _ _ _ _ _ _ _ _ _ hs := by
    cases flavor <;> exact ⟨hs.params, hs.queued⟩
  deactivate _ _ _ _ hs := by
    cases flavor with
    | gui => exact ⟨hs.params, fun r hr => absurd hr List.not_mem_nil⟩
    | _ => exact hs
  stopAndDeactivate _ _ _ _ _ hs := by
    cases flavor with
    | gui => exact ⟨hs.params, fun r hr => absurd hr List.not_mem_nil⟩
    | _ => exact hs
  startProcessing _ _ _ _ hs := by
    cases flavor <;> exact hs
  stopProcessing _ _ _ _ hs := by
    cases flavor <;> exact hs
  reset _ _ _ _ hs := by
    cases flavor <;> exact ⟨hs.params, hs.queued⟩
  onMainThread _ _ _ _ hs := by
    cases flavor <;> exact hs
  process base s block memory r hr hsets _ hs :=
    flavor.process_holds hmeter base memory hsets hs r hr
  paramsFlush params hparams base s events hasOut out hout hsets _ hs :=
    flavor.paramsFlush_holds hparams base hasOut hsets hs out hout
  stateSave := by
    cases flavor with
    | hostCheck => rintro _ ⟨⟩
    | _ =>
      rintro _ ⟨⟩ s stream
      exact Yields.andThen fun r => Yields.of_ok fun _ _ hs => hs
  stateLoad state hstate s stream r hr _ hloads hs := by
    obtain ⟨hparams, hqueued⟩ := flavor.stateLoad_params hstate s stream r hr
    refine ⟨?_, hqueued ▸ hs.queued⟩
    rw [hparams, forall_assign_iff hs.params]
    exact hloads
  configSelect := by
    cases flavor with
    | multiOutGen =>
      rintro _ ⟨⟩ base s id _ _ hs
      show Flavor.multiOutGen.Holds P (MultiOutGenPlugin.audioPortsConfigSelect base s id).self
      unfold MultiOutGenPlugin.audioPortsConfigSelect
      split
      · exact ⟨hs.params, hs.queued⟩
      · exact hs
    | multiOutFx =>
      rintro _ ⟨⟩ base s id _ _ hs
      show Flavor.multiOutFx.Holds P (MultiOutFxPlugin.audioPortsConfigSelect base s id).self
      unfold MultiOutFxPlugin.audioPortsConfigSelect
      split
      · exact ⟨hs.params, hs.queued⟩
      · exact hs
    | _ => rintro _ ⟨⟩
  canApply := by
    cases flavor with
    | surround =>
      rintro _ ⟨⟩ base s requests _ _ hs
      show Flavor.surround.Holds P (SurroundPlugin.canApplyConfiguration base s requests).self
      unfold SurroundPlugin.canApplyConfiguration
      split
      · exact hs
      · exact hs
    | _ => rintro _ ⟨⟩
  apply := by
    cases flavor with
    | surround =>
      rintro _ ⟨⟩ base s requests _ _ hs
      show Flavor.surround.Holds P (SurroundPlugin.applyConfiguration base s requests).self
      unfold SurroundPlugin.applyConfiguration
      split
      · exact hs
      · split
        · exact hs
        · exact ⟨hs.params, hs.queued⟩
    | _ => rintro _ ⟨⟩
  renderSet := by
    cases flavor with
    | effect =>
      rintro _ ⟨⟩ s mode _ _ hs
      show Flavor.effect.Holds P (EffectPlugin.renderSet s mode).self
      unfold EffectPlugin.renderSet
      split
      · exact hs
      · exact ⟨hs.params, hs.queued⟩
    | _ => rintro _ ⟨⟩
  presetLoad := by
    cases flavor with
    | preset =>
      rintro _ ⟨⟩ base s files kind location loadKey _ hloads hs
      exact PresetPlugin.presetLoad_holds base files kind location loadKey (hloads rfl) hs
    | _ => rintro _ ⟨⟩
  channelMask := by
    cases flavor with
    | surround =>
      rintro _ ⟨⟩ s mask _ _ hs
      exact hs
    | _ => rintro _ ⟨⟩
  channelMap := by
    cases flavor with
    | surround =>
      rintro _ ⟨⟩ s isInput port capacity _ _ hs
      show Flavor.surround.Holds P (SurroundPlugin.surroundChannelMap s isInput port capacity).self
      unfold SurroundPlugin.surroundChannelMap
      split
      · exact hs
      · split
        · exact hs
        · exact hs
    | _ => rintro _ ⟨⟩
  guiCreate := by
    cases flavor with
    | gui =>
      rintro _ ⟨⟩ s api isFloating native _ _ hs
      show Flavor.gui.Holds P (GuiPlugin.guiCreate s api isFloating native).self
      unfold GuiPlugin.guiCreate
      dsimp only
      split_ifs
      · exact hs
      · exact hs
      · exact ⟨hs.params, hs.queued⟩
    | _ => rintro _ ⟨⟩
  guiDestroy := by
    cases flavor with
    | gui =>
      rintro _ ⟨⟩ s _ _ hs
      exact ⟨hs.params, hs.queued⟩
    | _ => rintro _ ⟨⟩
  guiMethod := by
    cases flavor with
    | gui =>
      rintro _ ⟨⟩ s method native _ _ hs
      cases method with
      | setScale scale => exact ⟨hs.params, hs.queued⟩
      | _ => exact hs
    | _ => rintro _ ⟨⟩
  uiEdit base s edit out hout hsets _ hs := by
    cases flavor with
    | gui =>
      cases hout
      exact GuiPlugin.uiEdit_holds base hsets hs
    | _ => cases hout

end Flavor

end Calls

end Cvp
