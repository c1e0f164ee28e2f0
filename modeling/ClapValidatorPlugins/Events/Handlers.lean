/-
  What a flavor does with one event of its list. `processEvent` and `flushEvent` are the loop
  bodies of `process` and `paramsFlush`, as far as they change the flavor's members; `actsOn`
  tells from the event alone whether `process` does anything with it, and `view` is what an event
  can be seen by: parameter values, modulation offsets and voices.
-/
import ClapValidatorPlugins.State.Flavors
import ClapValidatorPlugins.Voices.Chunks

namespace Cvp

/-! ## Kinds of events -/

section Kinds

variable {D : Type}

/-- A core PARAM_VALUE. -/
def carriesValue (e : Event D) : Bool :=
  e.isCore && match e.body with
    | .paramValue _ _ => true
    | _ => false

/-- A core PARAM_VALUE for one of `ids`. -/
def writesParam (ids : List ClapId) (e : Event D) : Bool :=
  e.isCore && match e.body with
    | .paramValue target _ => decide (target.paramId ∈ ids)
    | _ => false

/-- A core PARAM_MOD for `id`. -/
def modulatesParam (id : ClapId) (e : Event D) : Bool :=
  e.isCore && match e.body with
    | .paramMod target _ => target.paramId == id
    | _ => false

/-- A core PARAM_VALUE. -/
def valueEvent (size time : Nat) (flags : EventFlags) (target : ParamTarget) (x : D) :
    Event D :=
  { size := size, time := time, flags := flags, body := .paramValue target x }

theorem eq_valueEvent {ids : List ClapId} {e : Event D} (h : writesParam ids e = true) :
    ∃ target x, target.paramId ∈ ids ∧ e = valueEvent e.size e.time e.flags target x := by
  obtain ⟨hcore, hbody⟩ := Bool.and_eq_true_iff.mp h
  split at hbody
  · rename_i target x hvalue
    refine ⟨target, x, of_decide_eq_true hbody, ?_⟩
    obtain ⟨size, time, spaceId, flags, body⟩ := e
    have hspace : spaceId = coreEventSpaceId := beq_iff_eq.mp hcore
    subst hspace hvalue
    rfl
  · cases hbody

/-- A core PARAM_MOD. -/
def modEvent (size time : Nat) (flags : EventFlags) (target : ParamTarget) (amount : D) :
    Event D :=
  { size := size, time := time, flags := flags, body := .paramMod target amount }

theorem eq_modEvent {id : ClapId} {e : Event D} (h : modulatesParam id e = true) :
    ∃ target amount, target.paramId = id ∧ e = modEvent e.size e.time e.flags target amount := by
  obtain ⟨hcore, hbody⟩ := Bool.and_eq_true_iff.mp h
  split at hbody
  · rename_i target amount hevent
    refine ⟨target, amount, beq_iff_eq.mp hbody, ?_⟩
    obtain ⟨size, time, spaceId, flags, body⟩ := e
    have hspace : spaceId = coreEventSpaceId := beq_iff_eq.mp hcore
    subst hspace hevent
    rfl
  · cases hbody

/-- What `SineEngine::handleEvent` takes for a note: note events, and MIDI 0x8x and 0x9x. -/
def playsNote (e : Event D) : Bool :=
  e.isCore && match e.body with
    | .noteOn _ | .noteOff _ | .noteChoke _ => true
    | .midi m => decide (m.data0 &&& 0xF0 = 0x90 ∨ m.data0 &&& 0xF0 = 0x80)
    | _ => false

/-- The flavors that store every core PARAM_VALUE on a known id pass over all other events. -/
theorem applyParamValue_of_not_writes {ids : List ClapId} {e : Event D}
    (h : writesParam ids e = false) (values : ParamValues D) :
    applyParamValue ids values e = values := by
  unfold writesParam at h
  unfold applyParamValue
  cases hcore : e.isCore with
  | false => rfl
  | true =>
    rw [hcore, Bool.true_and] at h
    rw [Bool.not_true, if_neg Bool.false_ne_true]
    cases hbody : e.body with
    | paramValue target x =>
      rw [hbody] at h
      exact storeParam_of_not_mem (of_decide_eq_false h) values x
    | _ => rfl

end Kinds

/-! ## The handlers -/

namespace Flavor

variable {D S : Type} [DoubleOps D] [FloatOps S] [FloatCast D S]

/-- The loop body of `process`. -/
def processEvent (base : Base D) : (flavor : Flavor) → flavor.State D S → Event D →
    flavor.State D S
  | synth, s, e => SynthPlugin.handleEvent s e
  | sidechainSynth, s, e => SidechainSynthPlugin.handleEvent s e
  | effect, s, e => (EffectPlugin.applyParamEvent base s e).self
  | multiOutGen, s, e => MultiOutGenPlugin.applyParamEvent s e
  | multiOutFx, s, e => MultiOutFxPlugin.applyParamEvent s e
  | audioPortsZero, s, e => AudioPortsZeroPlugin.flushEvent s e
  | slow, s, e => SlowPlugin.flushEvent s e
  | hostCheck, s, _ => s
  | noteFx, s, e => (NoteFxPlugin.transformEvent s e).self
  | paramsZoo, s, e => ParamsZooPlugin.applyParamEvent s e
  | preset, s, e => PresetPlugin.applyParamEvent s e
  | surround, s, e => SurroundPlugin.applyParamEvent s e
  | gui, s, e => (GuiPlugin.processEvent (s, none) e).1

/-- The loop body of `paramsFlush`. -/
def flushEvent (base : Base D) : (flavor : Flavor) → flavor.State D S → Event D →
    flavor.State D S
  | synth, s, e => SynthPlugin.flushEvent s e
  | sidechainSynth, s, e => SidechainSynthPlugin.applyParamEvent s e
  | effect, s, e => (EffectPlugin.applyParamEvent base s e).self
  | multiOutGen, s, e => MultiOutGenPlugin.applyParamEvent s e
  | multiOutFx, s, e => MultiOutFxPlugin.applyParamEvent s e
  | audioPortsZero, s, e => AudioPortsZeroPlugin.flushEvent s e
  | slow, s, e => SlowPlugin.flushEvent s e
  | hostCheck, s, _ => s
  | noteFx, s, e => NoteFxPlugin.flushEvent s e
  | paramsZoo, s, e => ParamsZooPlugin.applyParamEvent s e
  | preset, s, e => PresetPlugin.applyParamEvent s e
  | surround, s, e => SurroundPlugin.applyParamEvent s e
  | gui, s, e => GuiPlugin.applyParamEvent s e

/-- The events `process` does something with: parameters, notes, and in NoteFx whatever it
    passes on. -/
def actsOn : Flavor → Event D → Bool
  | synth, e =>
    writesParam SynthPlugin.paramIds e || modulatesParam SynthPlugin.kParamVolume e || playsNote e
  | sidechainSynth, e => writesParam SidechainSynthPlugin.paramIds e || playsNote e
  | noteFx, e => !carriesValue e || writesParam NoteFxPlugin.paramIds e
  | paramsZoo, e =>
    writesParam ParamsZooPlugin.savedIds e || modulatesParam ParamsZooPlugin.kParamGain e
  | flavor, e => writesParam flavor.paramIds e

/-- The flavors that render up to each event. -/
def rendersChunks : Flavor → Bool
  | synth | sidechainSynth => true
  | _ => false

/-! ## What can be seen of a flavor -/

end Flavor

/-- Parameter values, the modulation offset of ParamsZoo, the engine-wide one, and the voices
    with theirs. -/
structure FlavorView (D S : Type) where
  values : ClapId → Option D
  gainMod : Option D
  globalMod : Option S
  voices : List (Voice D S)

namespace Flavor

variable {D S : Type} [DoubleOps D] [FloatOps S] [FloatCast D S]

def engine : (flavor : Flavor) → flavor.State D S → Option (SineEngine D S)
  | synth, s => some (SynthPlugin.State.engine s)
  | sidechainSynth, s => some (SidechainSynthPlugin.State.engine s)
  | _, _ => none

def gainMod : (flavor : Flavor) → flavor.State D S → Option D
  | paramsZoo, s => some (ParamsZooPlugin.State.gainModDb s)
  | _, _ => none

def view [DoubleBits D] (flavor : Flavor) (s : flavor.State D S) : FlavorView D S :=
  { values := flavor.paramValue s
    gainMod := flavor.gainMod s
    globalMod := (flavor.engine s).map (·.globalMod)
    voices := ((flavor.engine s).map (·.voices)).getD [] }

end Flavor

/-! ## Events that are passed over -/

section Ignored

variable {D S : Type} [DoubleOps D] [FloatOps S] [FloatCast D S]

theorem SineEngine.handleEvent_of_silent {e : Event D} (h : playsNote e = false)
    (engine : SineEngine D S) : engine.handleEvent e = engine := by
  unfold playsNote at h
  unfold SineEngine.handleEvent
  cases hcore : e.isCore with
  | false => rfl
  | true =>
    rw [hcore, Bool.true_and] at h
    rw [Bool.not_true, if_neg Bool.false_ne_true]
    cases hbody : e.body with
    | noteOn _ | noteOff _ | noteChoke _ =>
      rw [hbody] at h
      cases h
    | midi m =>
      rw [hbody] at h
      have hstatus := not_or.mp (of_decide_eq_false h)
      show engine.handleMidi m = engine
      unfold handleMidi
      dsimp only
      rw [if_neg fun hon => hstatus.1 hon.1,
        if_neg fun hoff => hoff.elim hstatus.2 fun hzero => hstatus.1 hzero.1]
    | _ => rfl

theorem SynthPlugin.handleEvent_of_ignored {e : Event D} (h : Flavor.actsOn .synth e = false) :
    SynthPlugin.Ignored D S e := by
  intro s
  obtain ⟨hor, hnote⟩ := Bool.or_eq_false_iff.mp h
  obtain ⟨hwrite, hmod⟩ := Bool.or_eq_false_iff.mp hor
  have hengine := SineEngine.handleEvent_of_silent hnote s.engine
  unfold SynthPlugin.handleEvent
  cases hcore : e.isCore with
  | false =>
    rw [if_neg Bool.false_ne_true, hengine]
  | true =>
    rw [if_pos rfl]
    unfold writesParam at hwrite
    unfold modulatesParam at hmod
    rw [hcore, Bool.true_and] at hwrite hmod
    cases hbody : e.body with
    | paramValue target x =>
      rw [hbody] at hwrite
      have hid : target.paramId ∉ SynthPlugin.paramIds := of_decide_eq_false hwrite
      dsimp only
      rw [storeParam_of_not_mem hid]
    | paramMod target amount =>
      rw [hbody] at hmod
      exact if_neg (beq_eq_false_iff_ne.mp hmod)
    | _ =>
      dsimp only
      rw [hengine]

theorem SidechainSynthPlugin.handleEvent_of_ignored {e : Event D}
    (h : Flavor.actsOn .sidechainSynth e = false) (s : SidechainSynthPlugin.State D S) :
    SidechainSynthPlugin.handleEvent s e = s := by
  obtain ⟨hwrite, hnote⟩ := Bool.or_eq_false_iff.mp h
  have hengine := SineEngine.handleEvent_of_silent hnote s.engine
  have hparam : SidechainSynthPlugin.applyParamEvent s e = s := by
    unfold SidechainSynthPlugin.applyParamEvent
    rw [applyParamValue_of_not_writes hwrite]
  unfold SidechainSynthPlugin.handleEvent
  cases hcore : e.isCore with
  | false => rw [if_neg Bool.false_ne_true, hengine]
  | true =>
    rw [if_pos rfl]
    cases hbody : e.body with
    | paramValue target x => exact hparam
    | _ =>
      dsimp only
      rw [hengine]

/-- The stores of the Effect are those of the flavors without a restart request. -/
theorem EffectPlugin.applyParamEvent_self (base : Base D) (s : EffectPlugin.State D)
    (e : Event D) : (EffectPlugin.applyParamEvent base s e).self =
      { s with params := applyParamValue EffectPlugin.paramIds s.params e } := by
  unfold EffectPlugin.applyParamEvent applyParamValue
  cases e.isCore with
  | false => rfl
  | true =>
    rw [Bool.not_true, if_neg Bool.false_ne_true, if_neg Bool.false_ne_true]
    cases e.body with
    | paramValue target x =>
      dsimp only
      split
      · split <;> rfl
      · rename_i hid
        rw [storeParam_of_not_mem hid]
        rfl
    | _ => rfl

theorem EffectPlugin.applyParamEvent_of_ignored {e : Event D}
    (h : writesParam EffectPlugin.paramIds e = false) (base : Base D) (s : EffectPlugin.State D) :
    EffectPlugin.applyParamEvent base s e = .done s := by
  unfold writesParam at h
  unfold EffectPlugin.applyParamEvent
  cases hcore : e.isCore with
  | false => rfl
  | true =>
    rw [hcore, Bool.true_and] at h
    rw [Bool.not_true, if_neg Bool.false_ne_true]
    cases hbody : e.body with
    | paramValue target x =>
      rw [hbody] at h
      exact if_neg (of_decide_eq_false h)
    | _ => rfl

omit [DoubleOps D] in
theorem ParamsZooPlugin.applyParamEvent_of_ignored {e : Event D}
    (h : Flavor.actsOn .paramsZoo e = false) (s : ParamsZooPlugin.State D) :
    ParamsZooPlugin.applyParamEvent s e = s := by
  obtain ⟨hwrite, hmod⟩ := Bool.or_eq_false_iff.mp h
  unfold ParamsZooPlugin.applyParamEvent
  cases hcore : e.isCore with
  | false => rfl
  | true =>
    rw [Bool.not_true, if_neg Bool.false_ne_true]
    unfold writesParam at hwrite
    unfold modulatesParam at hmod
    rw [hcore, Bool.true_and] at hwrite hmod
    cases hbody : e.body with
    | paramValue target x =>
      rw [hbody] at hwrite
      have hsaved : target.paramId ∉ ParamsZooPlugin.savedIds := of_decide_eq_false hwrite
      dsimp only
      split
      · rfl
      · rename_i hpeak
        have hid : target.paramId ∉ ParamsZooPlugin.paramIds := fun hmem =>
          hsaved ((Flavor.mem_savedIds_iff .paramsZoo _).mpr ⟨hmem, fun hp => hpeak hp.2⟩)
        rw [storeParam_of_not_mem hid]
    | paramMod target amount =>
      rw [hbody] at hmod
      exact if_neg (beq_eq_false_iff_ne.mp hmod)
    | _ => rfl

/-- A list that is read to its end has no null entry. -/
theorem NoteFxPlugin.events_of_transformEvents {hasOutEvents : Bool}
    {events : List (Option (Event D))} :
    ∀ {s : NoteFxPlugin.State D} {out : Outcome D (NoteFxPlugin.State D) Unit},
      NoteFxPlugin.transformEvents hasOutEvents s events = .ok out →
      ∃ headers : List (Event D), events = headers.map some := by
  induction events with
  | nil => exact fun _ => ⟨[], rfl⟩
  | cons entry events ih =>
    intro s out h
    cases entry with
    | none => cases h
    | some header =>
      rw [NoteFxPlugin.transformEvents] at h
      split at h
      · obtain ⟨rest, hrest, -⟩ := Except.bind_eq_ok h
        obtain ⟨headers, rfl⟩ := ih hrest
        exact ⟨header :: headers, rfl⟩
      · cases h

theorem NoteFxPlugin.transformEvent_of_ignored {e : Event D}
    (h : Flavor.actsOn .noteFx e = false) (s : NoteFxPlugin.State D) :
    NoteFxPlugin.transformEvent s e = .done s := by
  obtain ⟨hvalue, hwrite⟩ := Bool.or_eq_false_iff.mp h
  have hcarries : carriesValue e = true := by
    rw [← Bool.not_not (carriesValue e), hvalue]
    rfl
  obtain ⟨hcore, hbody⟩ := Bool.and_eq_true_iff.mp hcarries
  unfold writesParam at hwrite
  rw [hcore, Bool.true_and] at hwrite
  unfold NoteFxPlugin.transformEvent
  dsimp only
  rw [if_pos hcore]
  split at hbody
  · rename_i target x hvalue
    rw [hvalue] at hwrite ⊢
    dsimp only at hwrite ⊢
    rw [storeParam_of_not_mem (of_decide_eq_false hwrite)]
  · cases hbody

/-- Everything but a parameter value is passed on. -/
theorem NoteFxPlugin.transformEvent_of_passed {e : Event D} (h : carriesValue e = false)
    (s : NoteFxPlugin.State D) : ∃ pushed,
      NoteFxPlugin.transformEvent s e = { value := (), self := s, pushed := [pushed] } := by
  unfold NoteFxPlugin.transformEvent
  dsimp only
  split
  · rename_i hcore
    unfold carriesValue at h
    rw [hcore] at h
    cases hbody : e.body with
    | paramValue target x =>
      rw [hbody] at h
      cases h
    | _ => exact ⟨_, rfl⟩
  · exact ⟨_, rfl⟩

end Ignored

end Cvp
