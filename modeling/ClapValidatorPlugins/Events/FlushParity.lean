/-
  Parameter events through `paramsFlush` and through a block that has them all at its start. Both
  loops leave the same parameter values and modulation offsets in every flavor but Synth, whose
  flush passes over PARAM_MODs that `process` applies (`flush_like_process_iff`).
-/
import ClapValidatorPlugins.Events.Flagged
import ClapValidatorPlugins.Events.Probes
import ClapValidatorPlugins.Events.Stores
import ClapValidatorPlugins.Gui.Calls
import ClapValidatorPlugins.Lib.Assignments

namespace Cvp

open Assignments

/-! ## Offsets -/

section Offsets

variable {D S : Type}

/-- The modulation offsets: the engine-wide one, and those of the voices. -/
def SineEngine.offsets (e : SineEngine D S) : S × List S :=
  (e.globalMod, e.voices.map (·.modGain))

/-- What parameter events leave behind: the values, without the meter of ParamsZoo, and the
    offsets. -/
structure ParamView (D S : Type) where
  values : ClapId → Option D
  gainMod : Option D
  offsets : Option (S × List S)

/-- Target and amount of a PARAM_MOD on the Synth's Volume. -/
def SynthPlugin.modulationOf (e : Event D) : Option (ParamTarget × D) :=
  match e.isCore, e.body with
  | true, .paramMod target amount => if target.paramId = kParamVolume then some (target, amount)
    else none
  | _, _ => none

/-- The target names no key, no channel and no note. -/
def ParamTarget.addressesAll (t : ParamTarget) : Prop := t.key < 0 ∧ t.channel < 0 ∧ t.noteId < 0

instance (t : ParamTarget) : Decidable t.addressesAll :=
  inferInstanceAs (Decidable (t.key < 0 ∧ t.channel < 0 ∧ t.noteId < 0))

variable [FloatCast D S]

/-- The offset the event sets for the whole instrument. -/
def SynthPlugin.globalAmount (S : Type) [FloatCast D S] (e : Event D) : Option S :=
  (modulationOf e).bind fun r =>
    if r.1.addressesAll then some (FloatCast.toFloat r.2) else none

/-- The offset the event sets for the voice. -/
def SynthPlugin.voiceAmount (v : Voice D S) (e : Event D) : Option S :=
  (modulationOf e).bind fun r =>
    if r.1.addressesAll then none
    else if v.active && v.matchesAddress r.1.key r.1.channel r.1.noteId then
      some (FloatCast.toFloat r.2)
    else none

/-- The last modulation of the whole instrument and the last one that reaches each voice are for
    the offsets that are set already. -/
structure SynthPlugin.OffsetsSettled (engine : SineEngine D S) (headers : List (Event D)) :
    Prop where
  whole : ∀ x ∈ (headers.filterMap (globalAmount S)).getLast?, x = engine.globalMod
  voices : ∀ v ∈ engine.voices, ∀ x ∈ (headers.filterMap (voiceAmount v)).getLast?, x = v.modGain

namespace Flavor

variable [DoubleOps D] [FloatOps S] [DoubleBits D]

def paramView (flavor : Flavor) (s : flavor.State D S) : ParamView D S :=
  { values := fun id =>
      if flavor = .paramsZoo ∧ id = ParamsZooPlugin.kParamPeak then none
      else flavor.paramValue s id
    gainMod := flavor.gainMod s
    offsets := (flavor.engine s).map SineEngine.offsets }

/-- Synth's modulations change nothing; those of the others do not matter. -/
def OffsetsSettled : (flavor : Flavor) → flavor.State D S → List (Event D) → Prop
  | synth, s, headers => SynthPlugin.OffsetsSettled (SynthPlugin.State.engine s) headers
  | _, _, _ => True

/-- No edit is queued. -/
def NoEdits : (flavor : Flavor) → flavor.State D S → Prop
  | gui, s => GuiPlugin.State.paramQueue s = []
  | _, _ => True

/-- With the same values the offsets decide. -/
theorem paramView_iff {flavor : Flavor} {s t : flavor.State D S}
    (hgain : flavor.gainMod s = flavor.gainMod t)
    (hparams : ∀ id, ¬ (flavor = .paramsZoo ∧ id = ParamsZooPlugin.kParamPeak) →
      flavor.params s id = flavor.params t id) :
    flavor.paramView s = flavor.paramView t ↔
      (flavor.engine s).map SineEngine.offsets = (flavor.engine t).map SineEngine.offsets := by
  have hvalues : ∀ id, ¬ (flavor = .paramsZoo ∧ id = ParamsZooPlugin.kParamPeak) →
      flavor.paramValue s id = flavor.paramValue t id := by
    intro id hid
    cases flavor with
    | hostCheck => rfl
    | _ => exact congrArg (fun x => if id ∈ _ then some x else none) (hparams id hid)
  refine ⟨fun h => congrArg ParamView.offsets h, fun h => ?_⟩
  unfold paramView
  rw [hgain, h]
  congr 1
  funext id
  split
  · rfl
  · rename_i hid
    exact hvalues id hid

/-- The view of a flavor without an engine is one of its parameters. -/
theorem paramView_of_params {flavor : Flavor} (hengine : flavor.rendersChunks = false)
    {s t : flavor.State D S} (hgain : flavor.gainMod s = flavor.gainMod t)
    (hparams : ∀ id, ¬ (flavor = .paramsZoo ∧ id = ParamsZooPlugin.kParamPeak) →
      flavor.params s id = flavor.params t id) : flavor.paramView s = flavor.paramView t := by
  refine (paramView_iff hgain hparams).mpr ?_
  cases flavor with
  | synth => cases hengine
  | sidechainSynth => cases hengine
  | _ => rfl

end Flavor

end Offsets

/-! ## The offsets behind a list of modulations -/

section Modulations

variable {D S : Type} [FloatCast D S]

/-- What a parameter event does to the Synth's engine. -/
def SynthPlugin.modulated (engine : SineEngine D S) (e : Event D) : SineEngine D S :=
  match modulationOf e with
  | some (target, amount) => engine.modulate target.key target.channel target.noteId amount
  | none => engine

/-- The voice with the offset the event sets for it. -/
def SynthPlugin.offset (v : Voice D S) (e : Event D) : Voice D S :=
  { v with modGain := (voiceAmount v e).getD v.modGain }

open SynthPlugin

theorem modulated_globalMod (engine : SineEngine D S) (e : Event D) :
    (modulated engine e).globalMod = (globalAmount S e).getD engine.globalMod := by
  unfold modulated globalAmount
  cases modulationOf e with
  | none => rfl
  | some r =>
    dsimp only [Option.bind_some]
    unfold SineEngine.modulate
    by_cases hall : r.1.addressesAll
    · rw [if_pos hall, if_pos (by exact hall)]
      rfl
    · rw [if_neg hall, if_neg (by exact hall)]
      rfl

theorem modulated_voices (engine : SineEngine D S) (e : Event D) :
    (modulated engine e).voices = engine.voices.map fun v => offset v e := by
  unfold modulated offset voiceAmount
  cases modulationOf e with
  | none => exact (List.map_id _).symm
  | some r =>
    dsimp only [Option.bind_some]
    unfold SineEngine.modulate
    by_cases hall : r.1.addressesAll
    · rw [if_pos (by exact hall)]
      simp only [if_pos hall]
      exact (List.map_id _).symm
    · rw [if_neg (by exact hall)]
      refine List.map_congr_left fun v _ => ?_
      rw [if_neg hall]
      unfold SineEngine.modulateVoice
      split <;> rfl

/-- An offset does not change who is addressed. -/
theorem foldl_offset (headers : List (Event D)) :
    ∀ v : Voice D S, (headers.foldl offset v).modGain =
      headers.foldl (fun x e => (voiceAmount v e).getD x) v.modGain := by
  induction headers with
  | nil => exact fun v => rfl
  | cons e headers ih => exact fun v => ih (offset v e)

theorem foldl_modulated (headers : List (Event D)) :
    ∀ engine : SineEngine D S,
      (headers.foldl modulated engine).globalMod =
          headers.foldl (fun x e => (globalAmount S e).getD x) engine.globalMod ∧
        (headers.foldl modulated engine).voices =
          engine.voices.map fun v => headers.foldl offset v := by
  induction headers with
  | nil => exact fun engine => ⟨rfl, (List.map_id _).symm⟩
  | cons e headers ih =>
    intro engine
    obtain ⟨hglobal, hvoices⟩ := ih (modulated engine e)
    rw [modulated_globalMod] at hglobal
    rw [modulated_voices, List.map_map] at hvoices
    exact ⟨hglobal, hvoices⟩

/-- The offsets stay as they are exactly if the last one set for each is the one it has. -/
theorem offsets_modulated_iff (engine : SineEngine D S) (headers : List (Event D)) :
    (headers.foldl modulated engine).offsets = engine.offsets ↔ OffsetsSettled engine headers := by
  have hlast : ∀ (o : Option S) (x : S), o.getD x = x ↔ ∀ y ∈ o, y = x := by
    intro o x
    cases o with
    | none => exact ⟨fun _ => nofun, fun _ => rfl⟩
    | some y =>
      refine ⟨fun h z hz => ?_, fun h => h y rfl⟩
      cases hz
      exact h
  obtain ⟨hglobal, hvoices⟩ := foldl_modulated headers engine
  have hvoice : ∀ v : Voice D S, (headers.foldl offset v).modGain = v.modGain ↔
      ∀ y ∈ (headers.filterMap (voiceAmount v)).getLast?, y = v.modGain := by
    intro v
    rw [foldl_offset, foldl_getD]
    exact hlast _ _
  unfold SineEngine.offsets
  rw [Prod.mk.injEq, hglobal, hvoices, foldl_getD, hlast, List.map_map, List.map_inj_left]
  exact ⟨fun h => ⟨h.1, fun v hv => (hvoice v).mp (h.2 v hv)⟩,
    fun h => ⟨h.whole, fun v hv => (hvoice v).mpr (h.voices v hv)⟩⟩

end Modulations

/-! ## The two loops -/

section Loops

variable {D S : Type} [DoubleOps D] [FloatOps S] [FloatCast D S]

namespace SynthPlugin

/-- The Synth takes a parameter event for the value and the modulation it carries. -/
theorem handleEvent_of_addressesParam {e : Event D} (h : addressesParam e = true)
    (s : State D S) : handleEvent s e =
      { params := applyParamValue paramIds s.params e, engine := modulated s.engine e } := by
  obtain ⟨hcore, hbody⟩ := Bool.and_eq_true_iff.mp h
  unfold handleEvent applyParamValue modulated modulationOf
  rw [hcore, if_pos rfl, Bool.not_true, if_neg Bool.false_ne_true]
  cases hevent : e.body with
  | paramValue target x => rfl
  | paramMod target amount =>
    dsimp only
    split <;> rfl
  | _ =>
    rw [hevent] at hbody
    cases hbody

theorem foldl_handleEvent {headers : List (Event D)}
    (h : ∀ e ∈ headers, addressesParam e = true) :
    ∀ s : State D S, headers.foldl handleEvent s =
      { params := headers.foldl (applyParamValue paramIds) s.params
        engine := headers.foldl modulated s.engine } := by
  induction headers with
  | nil => exact fun s => rfl
  | cons e headers ih =>
    intro s
    obtain ⟨he, hheaders⟩ := List.forall_mem_cons.mp h
    rw [List.foldl_cons, ih hheaders, handleEvent_of_addressesParam he]
    rfl

omit [DoubleOps D] [FloatOps S] [FloatCast D S] in
theorem foldl_flushEvent (headers : List (Event D)) :
    ∀ s : State D S, headers.foldl flushEvent s =
      { s with params := headers.foldl (applyParamValue paramIds) s.params } := by
  induction headers with
  | nil => exact fun s => rfl
  | cons e headers ih => exact fun s => ih (flushEvent s e)

end SynthPlugin

/-- The Sidechain Synth takes a value and passes over a modulation. -/
theorem SidechainSynthPlugin.handleEvent_of_addressesParam {e : Event D}
    (h : addressesParam e = true) (s : State D S) : handleEvent s e = applyParamEvent s e := by
  have hnote := playsNote_of_addressesParam h
  obtain ⟨hcore, -⟩ := Bool.and_eq_true_iff.mp h
  unfold handleEvent
  rw [hcore, if_pos rfl]
  cases hevent : e.body with
  | paramValue target x => rfl
  | _ =>
    dsimp only
    rw [SineEngine.handleEvent_of_silent hnote]
    unfold applyParamEvent applyParamValue
    rw [hcore, hevent]
    rfl

omit [DoubleOps D] [FloatOps S] [FloatCast D S] in
theorem SidechainSynthPlugin.foldl_applyParamEvent (headers : List (Event D)) :
    ∀ s : State D S, headers.foldl applyParamEvent s =
      { s with params := headers.foldl (applyParamValue paramIds) s.params } := by
  induction headers with
  | nil => exact fun s => rfl
  | cons e headers ih => exact fun s => ih (applyParamEvent s e)

theorem SidechainSynthPlugin.foldl_handleEvent {headers : List (Event D)}
    (h : ∀ e ∈ headers, addressesParam e = true) (s : State D S) :
    headers.foldl handleEvent s =
      { s with params := headers.foldl (applyParamValue paramIds) s.params } := by
  rw [List.foldl_ext handleEvent applyParamEvent s fun s e he =>
    handleEvent_of_addressesParam (h e he) s, foldl_applyParamEvent]

/-! ## Blocks -/

omit [DoubleOps D] in
/-- Events at the start of the block split no chunk, so what the rendering keeps is what their
    loop leaves. -/
theorem chunkLoop_at_start {σ T β : Type} {render : σ → Nat → Nat → Plane T → σ × Plane T}
    {φ : σ → β} (hkeeps : ∀ s offset frames m, φ (render s offset frames m).1 = φ s)
    (handle : σ → Event D → σ) (frames : Nat) {headers : List (Event D)}
    (htime : ∀ e ∈ headers, e.time = 0) (s : σ) (m : Plane T) :
    φ (chunkLoop render handle frames headers s m).self = φ (headers.foldl handle s) := by
  have hloop : ∀ s : σ, headers.foldl (chunkEvent render handle frames) ⟨s, m, 0⟩ =
      ⟨headers.foldl handle s, m, 0⟩ := by
    induction headers with
    | nil => exact fun s => rfl
    | cons e headers ih =>
      intro s
      obtain ⟨he, hheaders⟩ := List.forall_mem_cons.mp htime
      have hfirst : chunkEvent render handle frames ⟨s, m, 0⟩ e = ⟨handle s e, m, 0⟩ := by
        unfold chunkEvent
        rw [if_neg (by rw [he]; exact fun h => absurd h.1 (Nat.lt_irrefl 0))]
      rw [List.foldl_cons, hfirst]
      exact ih hheaders (handle s e)
  unfold chunkLoop
  rw [hloop]
  dsimp only
  split
  · exact hkeeps _ _ _ _
  · rfl

theorem renderImpl_offsets {T : Type} [SampleOps D T] (e : SineEngine D S) (left : Ptr)
    (right : Option Ptr) (offset frames : Nat) (gain : S) (m : Plane T) :
    (e.renderImpl left right offset frames gain m).1.offsets = e.offsets := by
  unfold SineEngine.renderImpl SineEngine.offsets
  dsimp only
  rw [renderVoices_fst, List.map_map]
  congr 1
  refine List.map_congr_left fun v _ => ?_
  show (voiceChunk gain e.globalMod _ v).1.modGain = v.modGain
  unfold voiceChunk
  split
  · exact voiceSamples_modGain _ _ v
  · rfl

omit [FloatOps S] [FloatCast D S] in
theorem emitNoteEnds_offsets (e : SineEngine D S) (time : Nat) :
    (e.emitNoteEnds time).1.offsets = e.offsets := by
  unfold SineEngine.emitNoteEnds SineEngine.mapVoices SineEngine.offsets
  dsimp only
  rw [List.map_map]
  rfl

section Blocks

variable {headers : List (Event D)} {block : ProcessBlock D} {memory : AudioMemory D S}

theorem SynthPlugin.process_offsets (htime : ∀ e ∈ headers, e.time = 0) (base : Base D)
    (s : State D S) :
    Yields (process base s (block.withEvents (headers.map some)) memory) fun r =>
      r.1.value ≠ .error →
        r.1.self.engine.offsets = (headers.foldl handleEvent s).engine.offsets := by
  have htyped : ∀ {T : Type} [SampleOps D T] (left : Ptr) (right : Option Ptr) (m : Plane T)
      (frames : UInt32), (processTyped s frames headers left right m).1.engine.offsets =
        (headers.foldl handleEvent s).engine.offsets := by
    intro T _ left right m frames
    unfold processTyped
    dsimp only
    rw [emitNoteEnds_offsets]
    exact chunkLoop_at_start (φ := fun s : State D S => s.engine.offsets)
      (fun s o n m => renderImpl_offsets s.engine left right o n _ m) handleEvent frames.toNat
      htime s _
  have hplane : ∀ {T : Type} [SampleOps D T] (out : AudioBuffer) (data : Option (List Ptr))
      (m : Plane T),
      Yields (processPlane s (block.withEvents (headers.map some)) out data m) fun r =>
        r.1.self.engine.offsets = (headers.foldl handleEvent s).engine.offsets := by
    intro T _ out data m
    unfold processPlane
    refine Yields.andThen fun left => Yields.branch fun right =>
      Yields.bind (unguardedHeaders_reads _) fun headers' hreads => ?_
    rw [hreads.eq]
    exact Yields.andThen fun pushed => Yields.of_ok (htyped left right m _)
  unfold process
  split
  · exact Yields.of_ok fun h => absurd rfl h
  · split
    · exact Yields.of_ok fun h => absurd rfl h
    · split
      · exact Yields.bind (hplane _ _ _) fun r hr => Yields.of_ok fun _ => hr
      · split
        · exact Yields.bind (hplane _ _ _) fun r hr => Yields.of_ok fun _ => hr
        · exact Yields.of_ok fun h => absurd rfl h

theorem SidechainSynthPlugin.process_offsets (htime : ∀ e ∈ headers, e.time = 0)
    (base : Base D) (s : State D S) :
    Yields (process base s (block.withEvents (headers.map some)) memory) fun r =>
      r.1.value ≠ .error →
        r.1.self.engine.offsets = (headers.foldl handleEvent s).engine.offsets := by
  unfold process
  split
  · exact Yields.of_ok fun h => absurd rfl h
  · split
    · exact Yields.of_ok fun h => absurd rfl h
    · refine Yields.andThen fun left => Yields.branch fun right =>
        Yields.bind (unguardedHeaders_reads _) fun headers' hreads => ?_
      rw [hreads.eq]
      refine Yields.bind (applySidechain_keeps _ _ _ _ _) fun r hr => Yields.andThen fun pushed =>
        Yields.of_ok fun _ => ?_
      show (r.1.engine.emitNoteEnds (lastFrame block.framesCount)).1.offsets = _
      rw [emitNoteEnds_offsets, hr.2]
      exact chunkLoop_at_start (φ := fun s : State D S => s.engine.offsets)
        (fun s o n m => renderImpl_offsets s.engine left right o n _ m) handleEvent _ htime s _

/-- Parameter events at the start of a block set values and offsets. -/
theorem SynthPlugin.process_params (hparam : ∀ e ∈ headers, addressesParam e = true)
    (htime : ∀ e ∈ headers, e.time = 0) (base : Base D) (s : State D S) :
    Yields (process base s (block.withEvents (headers.map some)) memory) fun r =>
      r.1.value ≠ .error → r.1.self.params = headers.foldl (applyParamValue paramIds) s.params ∧
        r.1.self.engine.offsets = (headers.foldl modulated s.engine).offsets := by
  intro r hr htaken
  have hoffsets := process_offsets htime base s r hr htaken
  rw [foldl_handleEvent hparam] at hoffsets
  exact ⟨(process_stores base s _ memory r hr).taken htaken, hoffsets⟩

theorem SidechainSynthPlugin.process_params (hparam : ∀ e ∈ headers, addressesParam e = true)
    (htime : ∀ e ∈ headers, e.time = 0) (base : Base D) (s : State D S) :
    Yields (process base s (block.withEvents (headers.map some)) memory) fun r =>
      r.1.value ≠ .error → r.1.self.params = headers.foldl (applyParamValue paramIds) s.params ∧
        r.1.self.engine.offsets = s.engine.offsets := by
  intro r hr htaken
  have hoffsets := process_offsets htime base s r hr htaken
  rw [foldl_handleEvent hparam] at hoffsets
  exact ⟨(process_stores base s _ memory r hr).taken htaken, hoffsets⟩

omit [DoubleOps D] in
/-- With nothing queued the drain behind the events applies nothing. -/
theorem GuiPlugin.drainQueue_params (headers : List (Event D)) {s : State D}
    (hquiet : s.paramQueue = []) (hasOutEvents : Bool) :
    (drainQueue (headers.foldl applyParamEvent s) hasOutEvents).1.params =
      headers.foldl (applyParamValue paramIds) s.params := by
  rw [foldl_applyParamEvent]
  show (s.paramQueue.foldl (ParamEventQueue.applyItem paramIds) _) = _
  rw [hquiet, List.foldl_nil]

theorem GuiPlugin.process_params (base : Base D) {s : State D} (hquiet : s.paramQueue = []) :
    Yields (process base s (block.withEvents (headers.map some)) memory) fun r =>
      r.1.value ≠ .error → r.1.self.params = headers.foldl (applyParamValue paramIds) s.params := by
  intro r hr htaken
  rcases process_stores base s _ memory r hr with ⟨herror, -⟩ | ⟨headers', hreads, -, hparams⟩
  · exact absurd herror htaken
  · rw [hparams, hreads.eq]
    exact drainQueue_params headers hquiet block.hasOutEvents

/-- The meter is the only parameter that a block writes by itself. -/
theorem ParamsZooPlugin.process_params (base : Base D) (s : State D) :
    Yields (process base s (block.withEvents (headers.map some)) memory) fun r =>
      r.1.value ≠ .error → r.1.self.gainModDb = (headers.foldl applyParamEvent s).gainModDb ∧
        ∀ id ≠ kParamPeak, r.1.self.params id = (headers.foldl applyParamEvent s).params id := by
  intro r hr htaken
  rcases process_stores base s _ memory r hr with
    ⟨herror, -⟩ | ⟨headers', hreads, ⟨herror, -⟩ | ⟨srcL, srcR, hself⟩⟩
  · exact absurd herror htaken
  · exact absurd herror htaken
  · rw [hself, hreads.eq]
    exact ⟨rfl, fun id hid => Function.update_of_ne hid _ _⟩

omit [DoubleOps D] in
/-- A flush reads a list without null entries. -/
theorem flush_headers {β : Type} (headers : List (Event D)) (f : List (Event D) → Exec β) :
    (unguardedHeaders (some { events := headers.map some }) >>= f) = f headers := by
  show (InputEvents.headers { events := headers.map some } >>= f) = _
  rw [headers_map]
  rfl

omit [DoubleOps D] [FloatOps S] [FloatCast D S] in
/-- A flush sets values only. -/
theorem SynthPlugin.paramsFlush_params (base : Base D) (headers : List (Event D)) (s : State D S)
    (hasOutEvents : Bool) :
    ∃ flushed, paramsFlush base s (some { events := headers.map some }) hasOutEvents =
        .ok flushed ∧ flushed.self.params = headers.foldl (applyParamValue paramIds) s.params ∧
      flushed.self.engine = s.engine := by
  refine ⟨_, flush_headers headers _, ?_⟩
  rw [consume_done, Outcome.done, foldl_flushEvent]
  exact ⟨rfl, rfl⟩

omit [DoubleOps D] [FloatOps S] [FloatCast D S] in
theorem SidechainSynthPlugin.paramsFlush_params (base : Base D) (headers : List (Event D))
    (s : State D S) (hasOutEvents : Bool) :
    ∃ flushed, paramsFlush base s (some { events := headers.map some }) hasOutEvents =
        .ok flushed ∧ flushed.self.params = headers.foldl (applyParamValue paramIds) s.params ∧
      flushed.self.engine = s.engine := by
  refine ⟨_, flush_headers headers _, ?_⟩
  rw [consume_done, Outcome.done, foldl_applyParamEvent]
  exact ⟨rfl, rfl⟩

omit [DoubleOps D] in
theorem ParamsZooPlugin.paramsFlush_params (base : Base D) (headers : List (Event D))
    (s : State D) (hasOutEvents : Bool) :
    ∃ flushed, paramsFlush base s (some { events := headers.map some }) hasOutEvents =
        .ok flushed ∧ flushed.self = headers.foldl applyParamEvent s := by
  refine ⟨_, flush_headers headers _, ?_⟩
  rw [consume_done]
  rfl

omit [DoubleOps D] in
theorem GuiPlugin.paramsFlush_params (base : Base D) (headers : List (Event D)) {s : State D}
    (hquiet : s.paramQueue = []) (hasOutEvents : Bool) :
    ∃ flushed, paramsFlush base s (some { events := headers.map some }) hasOutEvents =
        .ok flushed ∧ flushed.self.params = headers.foldl (applyParamValue paramIds) s.params := by
  refine ⟨_, flush_headers headers _, ?_⟩
  rw [consume_done]
  exact drainQueue_params headers hquiet hasOutEvents

end Blocks

namespace Flavor

variable [DoubleBits D]

/-- A flavor that takes values only, with the same values. -/
theorem paramView_of_values {flavor : Flavor} {values : ParamValues D} {s t : flavor.State D S}
    (hs : flavor.params s = values) (ht : flavor.params t = values)
    (hengine : flavor.rendersChunks = false) (hgain : flavor.gainMod s = flavor.gainMod t) :
    flavor.paramView s = flavor.paramView t :=
  paramView_of_params hengine hgain fun id _ => congrFun (hs.trans ht.symm) id

/-- The same parameter events in a flush and at the start of a block that is taken: the
    parameter values end up the same, but for the meter of ParamsZoo, and so do the modulation
    offsets, if in Synth the last modulation of each voice and of the instrument is for the offset
    that is set already. -/
theorem flush_like_process_iff {flavor : Flavor} {params : ParamsProvider D (flavor.State D S)}
    (hparams : (flavor.impl : PluginImpl D S _).params = some params) (base : Base D)
    {s : flavor.State D S} (hquiet : flavor.NoEdits s) {headers : List (Event D)}
    (hheaders : ∀ e ∈ headers, addressesParam e = true ∧ e.time = 0) {block : ProcessBlock D}
    {memory memory' : AudioMemory D S} {processed : Outcome D (flavor.State D S) ProcessStatus}
    (hprocess : (flavor.impl : PluginImpl D S _).process base s
      (block.withEvents (headers.map some)) memory = .ok (processed, memory'))
    (htaken : processed.value ≠ .error) (hasOutEvents : Bool) :
    ∃ flushed, params.paramsFlush base s (some { events := headers.map some }) hasOutEvents =
        .ok flushed ∧
      (flavor.paramView flushed.self = flavor.paramView processed.self ↔
        flavor.OffsetsSettled s headers) := by
  have hparam : ∀ e ∈ headers, addressesParam e = true := fun e he => (hheaders e he).1
  have htime : ∀ e ∈ headers, e.time = 0 := fun e he => (hheaders e he).2
  cases flavor with
  | hostCheck => cases hparams
  | synth =>
    cases hparams
    obtain ⟨hvalues, hoffsets⟩ := SynthPlugin.process_params hparam htime base s _ hprocess htaken
    obtain ⟨flushed, hflush, hvalues', hengine⟩ :=
      SynthPlugin.paramsFlush_params base headers s hasOutEvents
    have hiff : synth.paramView flushed.self = synth.paramView processed.self ↔
        some (SynthPlugin.State.engine flushed.self).offsets = some processed.self.engine.offsets :=
      paramView_iff rfl fun id _ => congrFun (hvalues'.trans hvalues.symm) id
    refine ⟨flushed, hflush, hiff.trans ?_⟩
    rw [hengine, hoffsets, Option.some.injEq, eq_comm]
    exact offsets_modulated_iff (SynthPlugin.State.engine s) headers
  | sidechainSynth =>
    cases hparams
    obtain ⟨hvalues, hoffsets⟩ :=
      SidechainSynthPlugin.process_params hparam htime base s _ hprocess htaken
    obtain ⟨flushed, hflush, hvalues', hengine⟩ :=
      SidechainSynthPlugin.paramsFlush_params base headers s hasOutEvents
    have hiff : sidechainSynth.paramView flushed.self = sidechainSynth.paramView processed.self ↔
        some (SidechainSynthPlugin.State.engine flushed.self).offsets =
          some processed.self.engine.offsets :=
      paramView_iff rfl fun id _ => congrFun (hvalues'.trans hvalues.symm) id
    refine ⟨flushed, hflush, iff_of_true (hiff.mpr ?_) trivial⟩
    exact congrArg some ((congrArg SineEngine.offsets hengine).trans hoffsets.symm)
  | effect =>
    cases hparams
    have hleft := consume_params EffectPlugin.State.params
      (EffectPlugin.applyParamEvent_params base) headers s
    have hright := (EffectPlugin.process_stores base s _ memory _ hprocess).taken htaken
    refine ⟨_, flush_headers headers _, iff_of_true ?_ trivial⟩
    exact paramView_of_values hleft hright rfl rfl
  | multiOutGen =>
    cases hparams
    have hleft := stores_params MultiOutGenPlugin.State.params MultiOutGenPlugin.applyParamEvent
      (fun _ _ => rfl) headers s
    have hright := (MultiOutGenPlugin.process_stores base s _ memory _ hprocess).taken htaken
    refine ⟨_, flush_headers headers _, iff_of_true ?_ trivial⟩
    exact paramView_of_values hleft hright rfl rfl
  | multiOutFx =>
    cases hparams
    have hleft := stores_params MultiOutFxPlugin.State.params MultiOutFxPlugin.applyParamEvent
      (fun _ _ => rfl) headers s
    have hright := (MultiOutFxPlugin.process_stores base s _ memory _ hprocess).taken htaken
    refine ⟨_, flush_headers headers _, iff_of_true ?_ trivial⟩
    exact paramView_of_values hleft hright rfl rfl
  | audioPortsZero =>
    cases hparams
    have hleft := stores_params AudioPortsZeroPlugin.State.params AudioPortsZeroPlugin.flushEvent
      (fun _ _ => rfl) headers s
    have hright := (AudioPortsZeroPlugin.process_stores base s _ memory _ hprocess).taken htaken
    refine ⟨_, flush_headers headers _, iff_of_true ?_ trivial⟩
    exact paramView_of_values hleft hright rfl rfl
  | slow =>
    cases hparams
    have hleft := stores_params SlowPlugin.State.params SlowPlugin.flushEvent
      (fun _ _ => rfl) headers s
    have hright := (SlowPlugin.process_stores base s _ memory _ hprocess).taken htaken
    refine ⟨_, flush_headers headers _, iff_of_true ?_ trivial⟩
    exact paramView_of_values hleft hright rfl rfl
  | preset =>
    cases hparams
    have hleft := stores_params PresetPlugin.State.params PresetPlugin.applyParamEvent
      (fun _ _ => rfl) headers s
    have hright := (PresetPlugin.process_stores base s _ memory _ hprocess).taken htaken
    refine ⟨_, flush_headers headers _, iff_of_true ?_ trivial⟩
    exact paramView_of_values hleft hright rfl rfl
  | surround =>
    cases hparams
    have hleft := stores_params SurroundPlugin.State.params SurroundPlugin.applyParamEvent
      (fun _ _ => rfl) headers s
    have hright := (SurroundPlugin.process_stores base s _ memory _ hprocess).taken htaken
    refine ⟨_, flush_headers headers _, iff_of_true ?_ trivial⟩
    exact paramView_of_values hleft hright rfl rfl
  | noteFx =>
    cases hparams
    have hleft := stores_params NoteFxPlugin.State.params NoteFxPlugin.flushEvent
      (fun _ _ => rfl) headers s
    have hright := (NoteFxPlugin.process_stores base s (block.withEvents (headers.map some)) memory
      _ hprocess).taken htaken
    refine ⟨_, flush_headers headers _, iff_of_true ?_ trivial⟩
    exact paramView_of_values hleft hright rfl rfl
  | paramsZoo =>
    cases hparams
    obtain ⟨hgain, hvalues⟩ := ParamsZooPlugin.process_params base s _ hprocess htaken
    obtain ⟨flushed, hflush, hself⟩ :=
      ParamsZooPlugin.paramsFlush_params base headers s hasOutEvents
    refine ⟨flushed, hflush, iff_of_true (paramView_of_params rfl ?_ fun id hid => ?_) trivial⟩
    · exact congrArg some ((congrArg ParamsZooPlugin.State.gainModDb hself).trans hgain.symm)
    · have hpeak : id ≠ ParamsZooPlugin.kParamPeak := fun h => hid ⟨rfl, h⟩
      exact (congrFun (congrArg ParamsZooPlugin.State.params hself) id).trans
        (hvalues id hpeak).symm
  | gui =>
    cases hparams
    obtain ⟨flushed, hflush, hleft⟩ :=
      GuiPlugin.paramsFlush_params base headers hquiet hasOutEvents
    have hright := GuiPlugin.process_params base hquiet _ hprocess htaken
    exact ⟨flushed, hflush, iff_of_true (paramView_of_values hleft hright rfl rfl) trivial⟩

end Flavor

end Loops

section Probe

namespace Flavor

/-- Volume of the whole Synth, modulated. -/
def modulateAll (amount : ExactFloat) : Event ExactFloat :=
  modEvent 64 0 {} { paramId := SynthPlugin.kParamVolume } amount

/-- The volume turned up, and a modulation back to the offset of a new instance. -/
def unmodulate : List (Event ExactFloat) :=
  [valueEvent 64 0 {} { paramId := SynthPlugin.kParamVolume } 1, modulateAll 0]

/-- A new Synth at work. -/
abbrev runningSynth : Plugin ExactFloat (SynthPlugin.State ExactFloat ExactFloat) :=
  synth.running ExactFloat (48000 : ExactFloat)

theorem flush_like_process_iff_unmodulate : ∃ flushed processed memory',
    SynthPlugin.process runningSynth.base runningSynth.self
        ((probeBlock ExactFloat 4).withEvents (unmodulate.map some)) quietMemory =
      .ok (processed, memory') ∧
    SynthPlugin.paramsFlush runningSynth.base runningSynth.self
        (some { events := unmodulate.map some }) true = .ok flushed ∧
    synth.paramView flushed.self = synth.paramView processed.self := by
  have hprocess : ∃ processed memory', SynthPlugin.process runningSynth.base runningSynth.self
      ((probeBlock ExactFloat 4).withEvents (unmodulate.map some)) quietMemory =
        .ok (processed, memory') ∧ processed.value = .sleep := ⟨_, _, rfl, rfl⟩
  obtain ⟨processed, memory', hprocess, hsleep⟩ := hprocess
  have htaken : processed.value ≠ .error := by
    rw [hsleep]
    decide
  have hsettled : synth.OffsetsSettled runningSynth.self unmodulate := by
    refine ⟨fun x hx => ?_, fun v hv x hx => ?_⟩
    · cases hx
      rfl
    · cases hx
  have hok : (synth.impl : PluginImpl ExactFloat ExactFloat _).process runningSynth.base
      runningSynth.self ((probeBlock ExactFloat 4).withEvents (unmodulate.map some)) quietMemory =
        .ok (processed, memory') := hprocess
  have hquiet : synth.NoEdits runningSynth.self := trivial
  obtain ⟨flushed, hflush, hiff⟩ :=
    flush_like_process_iff rfl runningSynth.base hquiet (by decide) hok htaken true
  exact ⟨flushed, processed, memory', hprocess, hflush, hiff.mpr hsettled⟩

/-- The block takes the modulation, the flush drops it. -/
theorem modulation_lost_in_flush : ∃ flushed processed memory',
    synth.Reachable runningSynth ∧ runningSynth.contract.active = true ∧
      SynthPlugin.process runningSynth.base runningSynth.self
          ((probeBlock ExactFloat 4).withEvents [some (modulateAll (1 / 2))]) quietMemory =
        .ok (processed, memory') ∧
      processed.value ≠ .error ∧
      SynthPlugin.paramsFlush runningSynth.base runningSynth.self
          (some { events := [some (modulateAll (1 / 2))] }) true = .ok flushed ∧
      synth.paramView flushed.self ≠ synth.paramView processed.self := by
  have hrun : ∃ flushed processed memory',
      SynthPlugin.process runningSynth.base runningSynth.self
          ((probeBlock ExactFloat 4).withEvents [some (modulateAll (1 / 2))]) quietMemory =
        .ok (processed, memory') ∧
      SynthPlugin.paramsFlush runningSynth.base runningSynth.self
          (some { events := [some (modulateAll (1 / 2))] }) true = .ok flushed ∧
      processed.value = .sleep ∧ flushed.self.engine.globalMod = 0 ∧
      processed.self.engine.globalMod = 1 / 2 := ⟨_, _, _, rfl, rfl, rfl, rfl, rfl⟩
  obtain ⟨flushed, processed, memory', hprocess, hflush, hsleep, hflushed, hprocessed⟩ := hrun
  obtain ⟨hr, hactive, -⟩ := synth.running_reachable ExactFloat (48000 : ExactFloat)
  refine ⟨flushed, processed, memory', hr, hactive, hprocess, ?_, hflush, fun hsame => ?_⟩
  · rw [hsleep]
    decide
  · have hoffsets := Option.some.inj (congrArg ParamView.offsets hsame)
    have hglobal : flushed.self.engine.globalMod = processed.self.engine.globalMod :=
      congrArg Prod.fst hoffsets
    rw [hflushed, hprocessed] at hglobal
    exact absurd hglobal (by decide +kernel)

end Flavor

end Probe

end Cvp
