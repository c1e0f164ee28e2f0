/-
  What the wrapper relies on in a flavor. `Tame impl`: `init`, `activate` and `startProcessing`
  succeed; the methods that can be called while the plugin is active leave the declared port
  layout alone; and what a method logs or asks of the host is no violation, as long as the
  trampoline's own check lets the call through, and never looks like a line of the thread checker.
  All thirteen flavors are tame.
-/
import ClapValidatorPlugins.Contract.Moves
import ClapValidatorPlugins.Lib.Yields
import ClapValidatorPlugins.Plugins.Registry

namespace Cvp

variable {D S σ : Type}

/-- The declared layout of both directions is the same in the two states. -/
def SamePorts (impl : PluginImpl D S σ) (s s' : σ) : Prop :=
  ∀ isInput, Plugin.declaredPorts impl s' isInput = Plugin.declaredPorts impl s isInput

def Outcome.IsQuiet {α : Type} (out : Outcome D σ α) : Prop := ∀ e ∈ out.effects, e.isQuiet

/-- The layout stays and nothing is a violation. -/
structure Keeps (impl : PluginImpl D S σ) {α : Type} (s : σ) (out : Outcome D σ α) : Prop where
  ports : SamePorts impl s out.self
  quiet : out.IsQuiet

section Keeping

variable {impl : PluginImpl D S σ}

theorem SamePorts.refl (s : σ) : SamePorts impl s s := fun _ => rfl

/-- The layout is what the provider answers. -/
theorem samePorts_of_provider {ports : AudioPortsProvider σ} {s s' : σ}
    (hp : impl.audioPorts = some ports) (hc : ports.audioPortCount s' = ports.audioPortCount s)
    (hi : ports.audioPortInfo s' = ports.audioPortInfo s) : SamePorts impl s s' := by
  intro isInput
  unfold Plugin.declaredPorts
  rw [hp]
  dsimp only
  rw [hc, hi]

theorem isQuiet_of_nil {α : Type} {out : Outcome D σ α} (h : out.effects = []) : out.IsQuiet := by
  intro e he
  rw [h] at he
  exact absurd he List.not_mem_nil

theorem isQuiet_of_log {α : Type} {out : Outcome D σ α} {severity : LogSeverity} {text : String}
    (h : out.effects = [.log severity text]) (hs : severity ≠ .hostMisbehaving)
    (ht : Unsigned text) : out.IsQuiet := by
  intro e he
  rw [h] at he
  rw [List.mem_singleton.mp he]
  exact ⟨hs, ht⟩

/-- A method without effects that leaves the layout alone. -/
theorem keeps_of_nil {α : Type} {s : σ} {out : Outcome D σ α} (hp : SamePorts impl s out.self)
    (h : out.effects = []) : Keeps impl s out := ⟨hp, isQuiet_of_nil h⟩

theorem keeps_done (s : σ) : Keeps impl s (.done s) := keeps_of_nil (SamePorts.refl s) rfl

theorem keeps_just {α : Type} (value : α) (s : σ) : Keeps impl s (.just value s) :=
  keeps_of_nil (SamePorts.refl s) rfl

/-- The event loop of a handler that leaves the layout alone and does nothing else. -/
theorem keeps_consume (f : σ → Event D → σ) (hf : ∀ s e, SamePorts impl s (f s e)) (s : σ)
    (es : List (Event D)) : Keeps impl s (consume (fun s e => .done (f s e)) s es) := by
  rw [consume_done]
  refine keeps_of_nil ?_ rfl
  show SamePorts impl s (es.foldl f s)
  induction es generalizing s with
  | nil => exact SamePorts.refl s
  | cons e es ih => exact fun isInput => (ih (f s e) isInput).trans (hf s e isInput)

theorem consume_isQuiet {handle : σ → Event D → Outcome D σ Unit}
    (h : ∀ s e, (handle s e).IsQuiet) (es : List (Event D)) :
    ∀ s, (consume handle s es).IsQuiet := by
  induction es with
  | nil => exact fun s => isQuiet_of_nil rfl
  | cons e es ih =>
    intro s effect he
    rcases List.mem_append.mp he with he | he
    · exact h s e effect he
    · exact ih _ effect he

end Keeping

/-- What a flavor implements itself. -/
structure TameCalls (impl : PluginImpl D S σ) : Prop where
  process : ∀ base s block memory,
    Yields (impl.process base s block memory) fun r => Keeps impl s r.1
  paramsFlush : ∀ params ∈ impl.params, ∀ base s events hasOut,
    Yields (params.paramsFlush base s events hasOut) fun out => Keeps impl s out
  stateSave : ∀ state ∈ impl.state, ∀ s stream,
    Yields (state.stateSave s stream) fun r => Keeps impl s r.1
  stateLoad : ∀ state ∈ impl.state, ∀ s stream,
    Yields (state.stateLoad s stream) fun r => Keeps impl s r.1

/-- And what it may leave to the base class. -/
structure Tame (impl : PluginImpl D S σ) : Prop extends TameCalls impl where
  initSucceeds : ∀ base s, (impl.init base s).value = true := by exact fun _ _ => rfl
  initPorts : ∀ base s, SamePorts impl s (impl.init base s).self := by exact fun _ _ _ => rfl
  /-- only `init` may ask for a callback, once, and only where there is a host -/
  initEffects : ∀ base s, (impl.init base s).IsQuiet ∨
      base.host.isSome ∧ ∃ text, Unsigned text ∧
        (impl.init base s).effects = [.log .info text, .requestCallback] := by
    exact fun _ _ => .inl (isQuiet_of_nil rfl)
  activateSucceeds : ∀ base s rate lo hi, (impl.activate base s rate lo hi).value = true := by
    exact fun _ _ _ _ _ => rfl
  activateQuiet : ∀ base s rate lo hi, (impl.activate base s rate lo hi).IsQuiet := by
    exact fun _ _ _ _ _ => isQuiet_of_nil rfl
  deactivate : ∀ base s, Keeps impl s (impl.deactivate base s) := by exact fun _ => keeps_done
  startSucceeds : ∀ base s, (impl.startProcessing base s).value = true := by
    exact fun _ _ => rfl
  startProcessing : ∀ base s, Keeps impl s (impl.startProcessing base s) := by
    exact fun _ => keeps_just true
  stopProcessing : ∀ base s, Keeps impl s (impl.stopProcessing base s) := by
    exact fun _ => keeps_done
  reset : ∀ base s, Keeps impl s (impl.reset base s) := by exact fun _ => keeps_done
  onMainThread : ∀ base s, Keeps impl s (impl.onMainThread base s) := by exact fun _ => keeps_done
  configSelect : ∀ config ∈ impl.audioPortsConfig, ∀ base s id,
      (config.audioPortsConfigSelect base s id).IsQuiet := by exact fun _ h => nomatch h
  canApply : ∀ config ∈ impl.configurableAudioPorts, ∀ base s requests, base.isActive = false →
      (config.canApplyConfiguration base s requests).IsQuiet := by exact fun _ h => nomatch h
  apply : ∀ config ∈ impl.configurableAudioPorts, ∀ base s requests, base.isActive = false →
      (config.applyConfiguration base s requests).IsQuiet := by exact fun _ h => nomatch h
  renderSet : ∀ render ∈ impl.render, ∀ s mode, Keeps impl s (render.renderSet s mode) := by
    exact fun _ h => nomatch h
  presetLoad : ∀ preset ∈ impl.presetLoad, ∀ base s files kind location loadKey,
      Keeps impl s (preset.presetLoadFromLocation base s files kind location loadKey) := by
    exact fun _ h => nomatch h
  channelMask : ∀ surround ∈ impl.surround, ∀ s mask,
      Keeps impl s (surround.surroundIsChannelMaskSupported s mask) := by
    exact fun _ h => nomatch h
  channelMapPorts : ∀ surround ∈ impl.surround, ∀ s isInput index capacity,
      SamePorts impl s (surround.surroundChannelMap s isInput index capacity).self := by
    exact fun _ h => nomatch h
  /-- the flavor complains about the capacity only where the trampoline does (SR01) -/
  channelMapEffects : ∀ surround ∈ impl.surround, ∀ s isInput index capacity,
      (surround.surroundChannelMap s isInput index capacity).IsQuiet ∨
      (∃ channels ∈ Plugin.Surround.portChannels impl s isInput index, capacity < channels) ∧
        ∃ text, Unsigned text ∧
          (surround.surroundChannelMap s isInput index capacity).effects =
            [.log .hostMisbehaving text] := by
    exact fun _ h => nomatch h
  guiCreate : ∀ gui ∈ impl.gui, ∀ s api isFloating native,
      Keeps impl s (gui.guiCreate s api isFloating native) := by exact fun _ h => nomatch h
  guiDestroy : ∀ gui ∈ impl.gui, ∀ s, Keeps impl s (gui.guiDestroy s) := by
    exact fun _ h => nomatch h
  guiMethod : ∀ gui ∈ impl.gui, ∀ s method native,
      Keeps impl s (gui.guiMethod s method native) := by exact fun _ h => nomatch h
  uiEdit : ∀ base s edit, ∀ out ∈ impl.uiEdit base s edit, Keeps impl s out := by
    exact fun _ _ _ _ h => nomatch h

/-! ## The flavors -/

section Flavors

variable [DoubleOps D] [FloatOps S] [FloatCast D S]

namespace SynthPlugin

theorem processPlane_effects {T : Type} [SampleOps D T] (s : State D S) (block : ProcessBlock D)
    (out : AudioBuffer) (data : Option (List Ptr)) (m : Plane T) :
    Yields (processPlane s block out data m) fun r => r.1.effects = [] := by
  unfold processPlane
  refine Yields.andThen fun left => ?_
  dsimp only
  split_ifs
  all_goals
    refine Yields.andThen fun right => Yields.andThen fun headers => ?_
    exact Yields.andThen fun pushed => Yields.of_ok rfl

theorem calls [DoubleBits D] : TameCalls (impl : PluginImpl D S (State D S)) where
  process base s block memory := by
    show Yields (process base s block memory) _
    unfold process
    split
    · exact Yields.of_ok (keeps_just _ _)
    · rename_i out _ _
      split_ifs
      · exact Yields.of_ok (keeps_just _ _)
      · exact Yields.bind (processPlane_effects s block out _ _) fun r hr =>
          Yields.of_ok (keeps_of_nil (fun _ => rfl) hr)
      · exact Yields.bind (processPlane_effects s block out _ _) fun r hr =>
          Yields.of_ok (keeps_of_nil (fun _ => rfl) hr)
      · exact Yields.of_ok (keeps_just _ _)
  paramsFlush := by
    rintro _ ⟨⟩ base s events hasOut
    exact Yields.andThen fun es => Yields.of_ok (keeps_consume flushEvent (fun _ _ _ => rfl) s es)
  stateSave := by
    rintro _ ⟨⟩ s stream
    exact Yields.andThen fun r => Yields.of_ok (keeps_just _ _)
  stateLoad := by
    rintro _ ⟨⟩ s stream
    exact Yields.andThen fun r => Yields.of_ok (keeps_of_nil (fun _ => rfl) rfl)

end SynthPlugin

namespace SidechainSynthPlugin

theorem calls [DoubleBits D] : TameCalls (impl : PluginImpl D S (State D S)) where
  process base s block memory := by
    show Yields (process base s block memory) _
    unfold process
    split
    · exact Yields.of_ok (keeps_just _ _)
    · split_ifs
      · exact Yields.of_ok (keeps_just _ _)
      all_goals
        refine Yields.andThen fun left => ?_
        dsimp only
        refine Yields.andThen fun right => Yields.andThen fun headers => ?_
        refine Yields.andThen fun gated => Yields.andThen fun pushed => ?_
        exact Yields.of_ok (keeps_of_nil (fun _ => rfl) rfl)
  paramsFlush := by
    rintro _ ⟨⟩ base s events hasOut
    exact Yields.andThen fun es =>
      Yields.of_ok (keeps_consume applyParamEvent (fun _ _ _ => rfl) s es)
  stateSave := by
    rintro _ ⟨⟩ s stream
    exact Yields.andThen fun r => Yields.of_ok (keeps_just _ _)
  stateLoad := by
    rintro _ ⟨⟩ s stream
    exact Yields.andThen fun r => Yields.of_ok (keeps_of_nil (fun _ => rfl) rfl)

end SidechainSynthPlugin

namespace EffectPlugin

theorem applyParamEvent_quiet (base : Base D) (s : State D) (e : Event D) :
    (applyParamEvent base s e).IsQuiet := by
  unfold applyParamEvent
  split
  · exact isQuiet_of_nil rfl
  · split
    · dsimp only
      split_ifs
      · intro effect he
        rw [List.mem_singleton.mp he]
        exact HostCall.noConfusion
      · exact isQuiet_of_nil rfl
      · exact isQuiet_of_nil rfl
    · exact isQuiet_of_nil rfl

theorem calls [DoubleBits D] : TameCalls (impl : PluginImpl D S (State D)) where
  process base s block memory := by
    show Yields (process base s block memory) _
    unfold process
    split
    · refine Yields.andThen fun headers => ?_
      have hq := consume_isQuiet (applyParamEvent_quiet base) headers s
      dsimp only
      split_ifs
      · exact Yields.of_ok ⟨fun _ => rfl, hq⟩
      · exact Yields.andThen fun gained => Yields.of_ok ⟨fun _ => rfl, hq⟩
    · exact Yields.of_ok (keeps_just _ _)
  paramsFlush := by
    rintro _ ⟨⟩ base s events hasOut
    exact Yields.andThen fun es => Yields.of_ok
      ⟨fun _ => rfl, consume_isQuiet (applyParamEvent_quiet base) es s⟩
  stateSave := by
    rintro _ ⟨⟩ s stream
    exact Yields.andThen fun r => Yields.of_ok (keeps_just _ _)
  stateLoad := by
    rintro _ ⟨⟩ s stream
    exact Yields.andThen fun r => Yields.of_ok (keeps_of_nil (fun _ => rfl) rfl)

theorem renderSet_keeps [DoubleBits D] (s : State D) (mode : Int) :
    Keeps (impl : PluginImpl D S (State D)) s (renderSet s mode) := by
  unfold renderSet
  split_ifs
  · exact keeps_just _ _
  · exact keeps_of_nil (fun _ => rfl) rfl

end EffectPlugin

namespace MultiOutGenPlugin

/-- The output layout is a function of the selected configuration. -/
theorem samePorts_of_config [DoubleBits D] {s s' : State D} (h : s'.config = s.config) :
    SamePorts (impl : PluginImpl D S (State D)) s s' := by
  have hn : currentPortCount s' = currentPortCount s := by
    rw [currentPortCount, currentPortCount, h]
  refine samePorts_of_provider rfl ?_ ?_
  · funext isInput
    show audioPortCount s' isInput = audioPortCount s isInput
    rw [audioPortCount, audioPortCount, hn]
  · funext index isInput
    show audioPortInfo s' index isInput = audioPortInfo s index isInput
    rw [audioPortInfo, audioPortInfo, hn]

omit [DoubleOps D] in
theorem foldl_config (es : List (Event D)) :
    ∀ s : State D, (es.foldl applyParamEvent s).config = s.config := by
  induction es with
  | nil => exact fun s => rfl
  | cons e es ih => exact fun s => ih (applyParamEvent s e)

theorem calls [DoubleBits D] : TameCalls (impl : PluginImpl D S (State D)) where
  process base s block memory := by
    refine Yields.andThen fun es => Yields.andThen fun toned => Yields.of_ok ?_
    refine keeps_of_nil (samePorts_of_config ?_) rfl
    show (consume _ s es).self.config = s.config
    rw [consume_done]
    exact foldl_config es s
  paramsFlush := by
    rintro _ ⟨⟩ base s events hasOut
    exact Yields.andThen fun es => Yields.of_ok
      (keeps_consume applyParamEvent (fun _ _ => samePorts_of_config rfl) s es)
  stateSave := by
    rintro _ ⟨⟩ s stream
    exact Yields.andThen fun r => Yields.of_ok (keeps_just _ _)
  stateLoad := by
    rintro _ ⟨⟩ s stream
    exact Yields.andThen fun r => Yields.of_ok (keeps_of_nil (samePorts_of_config rfl) rfl)

omit [DoubleOps D] in
theorem configSelect_quiet (base : Base D) (s : State D) (id : ClapId) :
    (audioPortsConfigSelect base s id).IsQuiet := by
  unfold audioPortsConfigSelect
  split_ifs
  · exact isQuiet_of_nil rfl
  · exact isQuiet_of_nil rfl

end MultiOutGenPlugin

namespace MultiOutFxPlugin

/-- The output layout is a function of the selected configuration. -/
theorem samePorts_of_config [DoubleBits D] {s s' : State D} (h : s'.config = s.config) :
    SamePorts (impl : PluginImpl D S (State D)) s s' := by
  have hn : currentOutPortCount s' = currentOutPortCount s := by
    rw [currentOutPortCount, currentOutPortCount, h]
  refine samePorts_of_provider rfl ?_ ?_
  · funext isInput
    show audioPortCount s' isInput = audioPortCount s isInput
    rw [audioPortCount, audioPortCount, hn]
  · funext index isInput
    show audioPortInfo s' index isInput = audioPortInfo s index isInput
    rw [audioPortInfo, audioPortInfo, hn]

omit [DoubleOps D] in
theorem foldl_config (es : List (Event D)) :
    ∀ s : State D, (es.foldl applyParamEvent s).config = s.config := by
  induction es with
  | nil => exact fun s => rfl
  | cons e es ih => exact fun s => ih (applyParamEvent s e)

theorem calls [DoubleBits D] : TameCalls (impl : PluginImpl D S (State D)) where
  process base s block memory := by
    show Yields (process base s block memory) _
    unfold process
    split
    · refine Yields.andThen fun es => Yields.andThen fun m => Yields.of_ok ?_
      refine keeps_of_nil (samePorts_of_config ?_) rfl
      show (consume _ s es).self.config = s.config
      rw [consume_done]
      exact foldl_config es s
    · exact Yields.of_ok (keeps_just _ _)
  paramsFlush := by
    rintro _ ⟨⟩ base s events hasOut
    exact Yields.andThen fun es => Yields.of_ok
      (keeps_consume applyParamEvent (fun _ _ => samePorts_of_config rfl) s es)
  stateSave := by
    rintro _ ⟨⟩ s stream
    exact Yields.andThen fun r => Yields.of_ok (keeps_just _ _)
  stateLoad := by
    rintro _ ⟨⟩ s stream
    exact Yields.andThen fun r => Yields.of_ok (keeps_of_nil (samePorts_of_config rfl) rfl)

omit [DoubleOps D] in
theorem configSelect_quiet (base : Base D) (s : State D) (id : ClapId) :
    (audioPortsConfigSelect base s id).IsQuiet := by
  unfold audioPortsConfigSelect
  split_ifs
  · exact isQuiet_of_nil rfl
  · exact isQuiet_of_nil rfl

end MultiOutFxPlugin

namespace AudioPortsZeroPlugin

omit [FloatOps S] [FloatCast D S] in
theorem calls [DoubleBits D] : TameCalls (impl : PluginImpl D S (State D)) where
  process base s block memory := by
    exact Yields.andThen fun flushed => Yields.of_ok (keeps_of_nil (fun _ => rfl) rfl)
  paramsFlush := by
    rintro _ ⟨⟩ base s events hasOut
    exact Yields.andThen fun es => Yields.of_ok (keeps_consume flushEvent (fun _ _ _ => rfl) s es)
  stateSave := by
    rintro _ ⟨⟩ s stream
    exact Yields.andThen fun r => Yields.of_ok (keeps_just _ _)
  stateLoad := by
    rintro _ ⟨⟩ s stream
    exact Yields.andThen fun r => Yields.of_ok (keeps_of_nil (fun _ => rfl) rfl)

end AudioPortsZeroPlugin

namespace SlowPlugin

theorem sleepSlowness_unsigned (s : State D) (what : String) :
    Unsigned (snprintf 96 ("slow: blocking " ++ what ++ " for " ++
      DoubleOps.formatFixed 1 (s.params kParamSlowness) ++ " s")) := by
  simp only [String.append_assoc]
  exact unsigned_formatted _ (by decide) (by decide)

omit [FloatOps S] [FloatCast D S] in
theorem calls [DoubleBits D] : TameCalls (impl : PluginImpl D S (State D)) where
  process base s block memory := by
    show Yields (process base s block memory) _
    unfold process
    split
    · exact Yields.andThen fun flushed => Yields.andThen fun m =>
        Yields.of_ok (keeps_of_nil (fun _ => rfl) rfl)
    · exact Yields.of_ok (keeps_just _ _)
  paramsFlush := by
    rintro _ ⟨⟩ base s events hasOut
    exact Yields.andThen fun es => Yields.of_ok (keeps_consume flushEvent (fun _ _ _ => rfl) s es)
  stateSave := by
    rintro _ ⟨⟩ s stream
    exact Yields.andThen fun r => Yields.of_ok
      ⟨fun _ => rfl, isQuiet_of_log rfl LogSeverity.noConfusion (sleepSlowness_unsigned s _)⟩
  stateLoad := by
    rintro _ ⟨⟩ s stream
    exact Yields.andThen fun r => Yields.of_ok
      ⟨fun _ => rfl, isQuiet_of_log rfl LogSeverity.noConfusion (sleepSlowness_unsigned s _)⟩

end SlowPlugin

namespace HostCheckPlugin

omit [DoubleOps D] [FloatOps S] [FloatCast D S] in
theorem calls : TameCalls (impl : PluginImpl D S State) where
  process base s block memory := by
    show Yields (process base s block memory) _
    unfold process
    split
    · exact Yields.andThen fun m => Yields.of_ok (keeps_of_nil (fun _ => rfl) rfl)
    · exact Yields.of_ok (keeps_just _ _)
  paramsFlush := by exact fun _ h => nomatch h
  stateSave := by exact fun _ h => nomatch h
  stateLoad := by exact fun _ h => nomatch h

omit [DoubleOps D] in
theorem init_value (base : Base D) (s : State) : (init base s).value = true := by
  unfold init
  split <;> rfl

omit [DoubleOps D] in
theorem init_effects (base : Base D) (s : State) : (init base s).IsQuiet ∨
    base.host.isSome ∧ ∃ text, Unsigned text ∧
      (init base s).effects = [.log .info text, .requestCallback] := by
  unfold init
  by_cases h : base.host.isNone
  · rw [if_pos h]
    exact .inl (isQuiet_of_nil rfl)
  · rw [if_neg h]
    exact .inr ⟨by simpa [Option.isSome_iff_ne_none] using h, _, by decide, rfl⟩

end HostCheckPlugin

namespace NoteFxPlugin

omit [FloatOps S] [FloatCast D S] in
theorem calls [DoubleBits D] : TameCalls (impl : PluginImpl D S (State D)) where
  process base s block memory := by
    show Yields (process base s block memory) _
    unfold process
    split
    · exact Yields.of_error _
    · split
      · exact Yields.andThen fun out => Yields.of_ok (keeps_of_nil (fun _ => rfl) rfl)
      · exact Yields.of_error _
  paramsFlush := by
    rintro _ ⟨⟩ base s events hasOut
    exact Yields.andThen fun es => Yields.of_ok (keeps_consume flushEvent (fun _ _ _ => rfl) s es)
  stateSave := by
    rintro _ ⟨⟩ s stream
    exact Yields.andThen fun r => Yields.of_ok (keeps_just _ _)
  stateLoad := by
    rintro _ ⟨⟩ s stream
    exact Yields.andThen fun r => Yields.of_ok (keeps_of_nil (fun _ => rfl) rfl)

end NoteFxPlugin

namespace ParamsZooPlugin

theorem calls [DoubleBits D] : TameCalls (impl : PluginImpl D S (State D)) where
  process base s block memory := by
    show Yields (process base s block memory) _
    unfold process
    split
    · refine Yields.andThen fun es => ?_
      dsimp only
      split_ifs
      · exact Yields.of_ok (keeps_of_nil (fun _ => rfl) rfl)
      all_goals
        refine Yields.andThen fun srcL => Yields.andThen fun srcR => ?_
        refine Yields.andThen fun dstL => Yields.andThen fun dstR => ?_
        exact Yields.of_ok (keeps_of_nil (fun _ => rfl) rfl)
    · exact Yields.of_ok (keeps_just _ _)
  paramsFlush := by
    rintro _ ⟨⟩ base s events hasOut
    exact Yields.andThen fun es =>
      Yields.of_ok (keeps_consume applyParamEvent (fun _ _ _ => rfl) s es)
  stateSave := by
    rintro _ ⟨⟩ s stream
    exact Yields.andThen fun r => Yields.of_ok (keeps_just _ _)
  stateLoad := by
    rintro _ ⟨⟩ s stream
    exact Yields.andThen fun r => Yields.of_ok (keeps_of_nil (fun _ => rfl) rfl)

end ParamsZooPlugin

namespace PresetPlugin

/-- The answer to a load: at most one call on the host, and never for a callback. -/
theorem answer_quiet {answer : List Effect}
    (h : answer = [] ∨ ∃ call, call ≠ HostCall.requestCallback ∧ answer = [.host call]) :
    ∀ effect ∈ answer, effect.isQuiet := by
  intro effect he
  rcases h with rfl | ⟨call, hc, rfl⟩
  · exact absurd he List.not_mem_nil
  · rw [List.mem_singleton.mp he]
    exact hc

theorem presetLoad_quiet (base : Base D) (s : State D) (files : FileSystem) (kind : Nat)
    (location loadKey : Option String) :
    (presetLoadFromLocation base s files kind location loadKey).IsQuiet := by
  have hfrom : ∀ arguments, Unsigned (snprintf 320 ("preset-load: from_location" ++ arguments)) :=
    fun arguments => unsigned_formatted arguments (by decide) (by decide)
  unfold presetLoadFromLocation Outcome.IsQuiet
  dsimp only
  simp only [String.append_assoc]
  split
  · refine List.forall_mem_append.mpr ⟨?_, ?_⟩
    · exact List.forall_mem_cons.mpr ⟨⟨LogSeverity.noConfusion, hfrom _⟩,
        List.forall_mem_singleton.mpr
          ⟨LogSeverity.noConfusion, unsigned_formatted _ (by decide) (by decide)⟩⟩
    · refine answer_quiet ?_
      split
      · split_ifs
        · exact .inr ⟨_, by simp, rfl⟩
        · exact .inl rfl
      · exact .inl rfl
  · refine List.forall_mem_append.mpr ⟨List.forall_mem_append.mpr ⟨List.forall_mem_append.mpr
      ⟨List.forall_mem_singleton.mpr ⟨LogSeverity.noConfusion, hfrom _⟩, ?_⟩, ?_⟩,
        List.forall_mem_singleton.mpr
          ⟨LogSeverity.noConfusion, unsigned_formatted _ (by decide) (by decide)⟩⟩
    · refine answer_quiet ?_
      split
      · split_ifs
        · exact .inr ⟨_, by simp, rfl⟩
        · exact .inl rfl
      · exact .inl rfl
    · refine answer_quiet ?_
      split
      · split_ifs
        · exact .inr ⟨_, by simp, rfl⟩
        · exact .inl rfl
      · exact .inl rfl

theorem calls [DoubleBits D] : TameCalls (impl : PluginImpl D S (State D)) where
  process base s block memory := by
    show Yields (process base s block memory) _
    unfold process
    split
    · exact Yields.andThen fun es => Yields.andThen fun m =>
        Yields.of_ok (keeps_of_nil (fun _ => rfl) rfl)
    · exact Yields.of_ok (keeps_just _ _)
  paramsFlush := by
    rintro _ ⟨⟩ base s events hasOut
    exact Yields.andThen fun es =>
      Yields.of_ok (keeps_consume applyParamEvent (fun _ _ _ => rfl) s es)
  stateSave := by
    rintro _ ⟨⟩ s stream
    exact Yields.andThen fun r => Yields.of_ok (keeps_just _ _)
  stateLoad := by
    rintro _ ⟨⟩ s stream
    exact Yields.andThen fun r => Yields.of_ok (keeps_of_nil (fun _ => rfl) rfl)

omit [DoubleOps D] in
theorem init_value (base : Base D) (s : State D) : (init base s).value = true := by
  unfold init
  split <;> rfl

omit [DoubleOps D] in
theorem init_effects (base : Base D) (s : State D) : (init base s).effects = [] := by
  unfold init
  split <;> rfl

end PresetPlugin

namespace SurroundPlugin

/-- The layout of both directions is a function of the applied configuration. -/
theorem samePorts_of_layout [DoubleBits D] {s s' : State D} (h : s'.layoutIndex = s.layoutIndex) :
    SamePorts (impl : PluginImpl D S (State D)) s s' := by
  have hl : layout s' = layout s := by rw [layout, layout, h]
  refine samePorts_of_provider rfl rfl ?_
  funext index isInput
  show audioPortInfo s' index isInput = audioPortInfo s index isInput
  rw [audioPortInfo, audioPortInfo, hl]

omit [DoubleOps D] in
theorem foldl_layoutIndex (es : List (Event D)) :
    ∀ s : State D, (es.foldl applyParamEvent s).layoutIndex = s.layoutIndex := by
  induction es with
  | nil => exact fun s => rfl
  | cons e es ih => exact fun s => ih (applyParamEvent s e)

omit [DoubleOps D] in
theorem canApply_quiet {base : Base D} (h : base.isActive = false) (s : State D)
    (requests : PortConfigRequests) : (canApplyConfiguration base s requests).IsQuiet := by
  unfold canApplyConfiguration
  rw [if_neg (by rw [h]; exact Bool.false_ne_true)]
  refine isQuiet_of_log rfl LogSeverity.noConfusion ?_
  simp only [String.append_assoc]
  exact unsigned_formatted _ (by decide) (by decide)

omit [DoubleOps D] in
theorem apply_quiet {base : Base D} (h : base.isActive = false) (s : State D)
    (requests : PortConfigRequests) : (applyConfiguration base s requests).IsQuiet := by
  unfold applyConfiguration
  rw [if_neg (by rw [h]; exact Bool.false_ne_true)]
  split
  · exact isQuiet_of_log rfl LogSeverity.noConfusion (by decide)
  · refine isQuiet_of_log rfl LogSeverity.noConfusion ?_
    simp only [String.append_assoc]
    exact unsigned_formatted _ (by decide) (by decide)

/-- The port's channel count is the length of the map, so SR01 covers the flavor's own check. -/
theorem channelMap_effects [DoubleBits D] (s : State D) (isInput : Bool) (index capacity : Nat) :
    (surroundChannelMap s isInput index capacity).IsQuiet ∨
    (∃ channels ∈ Plugin.Surround.portChannels (impl : PluginImpl D S (State D)) s isInput index,
      capacity < channels) ∧
      ∃ text, Unsigned text ∧ (surroundChannelMap s isInput index capacity).effects =
        [.log .hostMisbehaving text] := by
  unfold surroundChannelMap
  by_cases h0 : index = 0
  · subst h0
    rw [if_neg (by simp)]
    by_cases hc : capacity < (layout s).channelCount
    · rw [if_pos hc]
      exact .inr ⟨⟨(layout s).channelCount, rfl, hc⟩, _, by decide, rfl⟩
    · rw [if_neg hc]
      exact .inl (isQuiet_of_nil rfl)
  · rw [if_pos h0]
    exact .inl (isQuiet_of_nil rfl)

theorem calls [DoubleBits D] : TameCalls (impl : PluginImpl D S (State D)) where
  process base s block memory := by
    show Yields (process base s block memory) _
    unfold process
    split
    · refine Yields.andThen fun es => Yields.andThen fun m => Yields.of_ok ?_
      refine keeps_of_nil (samePorts_of_layout ?_) rfl
      show (consume _ s es).self.layoutIndex = s.layoutIndex
      rw [consume_done]
      exact foldl_layoutIndex es s
    · exact Yields.of_ok (keeps_just _ _)
  paramsFlush := by
    rintro _ ⟨⟩ base s events hasOut
    exact Yields.andThen fun es => Yields.of_ok
      (keeps_consume applyParamEvent (fun _ _ => samePorts_of_layout rfl) s es)
  stateSave := by
    rintro _ ⟨⟩ s stream
    exact Yields.andThen fun r => Yields.of_ok (keeps_just _ _)
  stateLoad := by
    rintro _ ⟨⟩ s stream
    exact Yields.andThen fun r => Yields.of_ok (keeps_of_nil (samePorts_of_layout rfl) rfl)

omit [DoubleOps D] in
theorem channelMask_quiet (s : State D) (mask : Nat) :
    (surroundIsChannelMaskSupported s mask).IsQuiet := by
  refine isQuiet_of_log rfl LogSeverity.noConfusion ?_
  simp only [String.append_assoc]
  exact unsigned_formatted _ (by decide) (by decide)

theorem channelMap_ports [DoubleBits D] (s : State D) (isInput : Bool) (index capacity : Nat) :
    SamePorts (impl : PluginImpl D S (State D)) s
      (surroundChannelMap s isInput index capacity).self := by
  unfold surroundChannelMap
  split_ifs <;> exact SamePorts.refl s

end SurroundPlugin

namespace GuiPlugin

theorem keeps_log [DoubleBits D] {α : Type} (s : State D)
    {out : Outcome D (State D) α} {severity : LogSeverity} {text : String}
    (h : out.effects = [.log severity text]) (hs : severity ≠ .hostMisbehaving)
    (ht : Unsigned text) : Keeps (impl : PluginImpl D S (State D)) s out :=
  ⟨fun _ => rfl, isQuiet_of_log h hs ht⟩

theorem calls [DoubleBits D] : TameCalls (impl : PluginImpl D S (State D)) where
  process base s block memory := by
    show Yields (process base s block memory) _
    unfold process
    split
    · exact Yields.andThen fun es => Yields.andThen fun m =>
        Yields.of_ok (keeps_of_nil (fun _ => rfl) rfl)
    · exact Yields.of_ok (keeps_just _ _)
  paramsFlush := by
    rintro _ ⟨⟩ base s events hasOut
    exact Yields.andThen fun es => Yields.of_ok (keeps_of_nil (fun _ => rfl) rfl)
  stateSave := by
    rintro _ ⟨⟩ s stream
    exact Yields.andThen fun r => Yields.of_ok (keeps_just _ _)
  stateLoad := by
    rintro _ ⟨⟩ s stream
    exact Yields.andThen fun r => Yields.of_ok (keeps_of_nil (fun _ => rfl) rfl)

omit [DoubleOps D] in
theorem init_value (base : Base D) (s : State D) : (init base s).value = true := by
  unfold init
  split <;> rfl

omit [DoubleOps D] in
theorem init_effects (base : Base D) (s : State D) : (init base s).effects = [] := by
  unfold init
  split <;> rfl

theorem guiCreate_keeps [DoubleBits D] (s : State D) (api : Option String) (isFloating : Bool)
    (native : NativeAnswer) :
    Keeps (impl : PluginImpl D S (State D)) s (guiCreate s api isFloating native) := by
  unfold guiCreate
  dsimp only
  simp only [String.append_assoc]
  split_ifs <;>
    exact keeps_log s rfl LogSeverity.noConfusion (unsigned_formatted _ (by decide) (by decide))

theorem guiMethod_keeps [DoubleBits D] (s : State D) (method : GuiMethod D)
    (native : NativeAnswer) :
    Keeps (impl : PluginImpl D S (State D)) s (guiMethod s method native) := by
  cases method with
  | isApiSupported | setScale | getSize | adjustSize | setSize | suggestTitle =>
    refine keeps_log s rfl LogSeverity.noConfusion ?_
    simp only [String.append_assoc]
    exact unsigned_formatted _ (by decide) (by decide)
  | _ => exact keeps_log s rfl LogSeverity.noConfusion (by decide)

omit [DoubleOps D] in
theorem requestFlush_quiet (base : Base D) (s : State D) :
    ∀ effect ∈ requestFlush base s, effect.isQuiet := by
  intro effect he
  unfold requestFlush at he
  split_ifs at he
  · rw [List.mem_singleton.mp he]
    exact HostCall.noConfusion
  · exact absurd he List.not_mem_nil

end GuiPlugin

theorem Flavor.tame [DoubleBits D] (flavor : Flavor) :
    Tame (flavor.impl : PluginImpl D S (flavor.State D S)) := by
  cases flavor with
  | synth =>
    exact { SynthPlugin.calls with reset := fun _ _ => keeps_of_nil (fun _ => rfl) rfl }
  | sidechainSynth =>
    exact { SidechainSynthPlugin.calls with reset := fun _ _ => keeps_of_nil (fun _ => rfl) rfl }
  | effect =>
    refine { EffectPlugin.calls with renderSet := ?_ }
    rintro _ ⟨⟩ s mode
    exact EffectPlugin.renderSet_keeps s mode
  | multiOutGen =>
    refine { MultiOutGenPlugin.calls with reset := ?_, configSelect := ?_ }
    · exact fun _ _ => keeps_of_nil (MultiOutGenPlugin.samePorts_of_config rfl) rfl
    · rintro _ ⟨⟩ base s id
      exact MultiOutGenPlugin.configSelect_quiet base s id
  | multiOutFx =>
    refine { MultiOutFxPlugin.calls with configSelect := ?_ }
    rintro _ ⟨⟩ base s id
    exact MultiOutFxPlugin.configSelect_quiet base s id
  | audioPortsZero => exact { AudioPortsZeroPlugin.calls with }
  | slow =>
    exact { SlowPlugin.calls with
      activateQuiet := fun _ _ _ _ _ =>
        isQuiet_of_log rfl LogSeverity.noConfusion (by decide) }
  | hostCheck =>
    exact { HostCheckPlugin.calls with
      initSucceeds := HostCheckPlugin.init_value
      initEffects := HostCheckPlugin.init_effects
      onMainThread := fun _ s =>
        ⟨fun _ => rfl, isQuiet_of_log rfl LogSeverity.noConfusion (by decide)⟩ }
  | noteFx => exact { NoteFxPlugin.calls with }
  | paramsZoo => exact { ParamsZooPlugin.calls with }
  | preset =>
    refine { PresetPlugin.calls with
      initSucceeds := PresetPlugin.init_value
      initEffects := fun base s => .inl (isQuiet_of_nil (PresetPlugin.init_effects base s))
      presetLoad := ?_ }
    rintro _ ⟨⟩ base s files kind location loadKey
    exact ⟨fun _ => rfl, PresetPlugin.presetLoad_quiet base s files kind location loadKey⟩
  | surround =>
    refine { SurroundPlugin.calls with
      canApply := ?_, apply := ?_, channelMask := ?_, channelMapPorts := ?_
      channelMapEffects := ?_ }
    · rintro _ ⟨⟩ base s requests hactive
      exact SurroundPlugin.canApply_quiet hactive s requests
    · rintro _ ⟨⟩ base s requests hactive
      exact SurroundPlugin.apply_quiet hactive s requests
    · rintro _ ⟨⟩ s mask
      exact ⟨SamePorts.refl s, SurroundPlugin.channelMask_quiet s mask⟩
    · rintro _ ⟨⟩ s isInput index capacity
      exact SurroundPlugin.channelMap_ports s isInput index capacity
    · rintro _ ⟨⟩ s isInput index capacity
      exact SurroundPlugin.channelMap_effects s isInput index capacity
  | gui =>
    refine { GuiPlugin.calls with
      initSucceeds := GuiPlugin.init_value
      initEffects := fun base s => .inl (isQuiet_of_nil (GuiPlugin.init_effects base s))
      deactivate := fun _ s => keeps_of_nil (fun _ => rfl) rfl
      guiCreate := ?_, guiDestroy := ?_, guiMethod := ?_, uiEdit := ?_ }
    · rintro _ ⟨⟩ s api isFloating native
      exact GuiPlugin.guiCreate_keeps s api isFloating native
    · rintro _ ⟨⟩ s
      exact GuiPlugin.keeps_log s rfl LogSeverity.noConfusion (by decide)
    · rintro _ ⟨⟩ s method native
      exact GuiPlugin.guiMethod_keeps s method native
    · rintro base s edit _ ⟨⟩
      exact ⟨fun _ => rfl, GuiPlugin.requestFlush_quiet base _⟩

end Flavors

end Cvp
