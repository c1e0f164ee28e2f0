/-
  The twelve flavors with `clap.state`: each keeps its parameters in one of the two formats
  (`SavesParams`), so what is known of the formats holds of the flavors.
-/
import ClapValidatorPlugins.Plugins.Registry
import ClapValidatorPlugins.State.Formats

namespace Cvp

open Assignments Transfer

variable {D S σ : Type}

/-! ## The flavors' formats -/

namespace Flavor

/-- `paramStorage`. -/
def paramIds : Flavor → List ClapId
  | synth => SynthPlugin.paramIds
  | sidechainSynth => SidechainSynthPlugin.paramIds
  | effect => EffectPlugin.paramIds
  | multiOutGen => MultiOutGenPlugin.paramIds
  | multiOutFx => MultiOutFxPlugin.paramIds
  | audioPortsZero => AudioPortsZeroPlugin.paramIds
  | slow => SlowPlugin.paramIds
  | hostCheck => []
  | noteFx => NoteFxPlugin.paramIds
  | paramsZoo => ParamsZooPlugin.paramIds
  | preset => PresetPlugin.paramIds
  | surround => SurroundPlugin.paramIds
  | gui => GuiPlugin.paramIds

/-- The ids a save writes, in order. -/
def savedIds : Flavor → List ClapId
  | paramsZoo => ParamsZooPlugin.savedIds
  | flavor => flavor.paramIds

def stateFormat : Flavor → StateFormat
  | effect | gui => .counted kStateMagic
  | paramsZoo => .counted ParamsZooPlugin.kStateMagic
  | _ => .fixed

/-- The parameter storage; HostCheck has none. -/
def params [DoubleOps D] : (flavor : Flavor) → flavor.State D S → ParamValues D
  | synth, s => SynthPlugin.State.params s
  | sidechainSynth, s => SidechainSynthPlugin.State.params s
  | effect, s => EffectPlugin.State.params s
  | multiOutGen, s => MultiOutGenPlugin.State.params s
  | multiOutFx, s => MultiOutFxPlugin.State.params s
  | audioPortsZero, s => AudioPortsZeroPlugin.State.params s
  | slow, s => SlowPlugin.State.params s
  | hostCheck, _ => fun _ => DoubleOps.lit 0
  | noteFx, s => NoteFxPlugin.State.params s
  | paramsZoo, s => ParamsZooPlugin.State.params s
  | preset, s => PresetPlugin.State.params s
  | surround, s => SurroundPlugin.State.params s
  | gui, s => GuiPlugin.State.params s

end Flavor

/-- `impl` keeps the parameters `values` of its state in `format`: `ids` are saved, `known` ids
    can be read. -/
structure SavesParams [DoubleBits D] (impl : PluginImpl D S σ) (format : StateFormat)
    (known ids : List ClapId) (values : σ → ParamValues D) : Prop where
  readable : ∀ params, impl.params = some params → ∀ s id,
    params.paramValue s id = loadParam known (values s) id
  save : ∀ state, impl.state = some state → ∀ s stream,
    (state.stateSave s stream).map (fun r => (r.1.value, r.2)) = format.save ids (values s) stream
  load : ∀ state, impl.state = some state → ∀ s stream,
    (state.stateLoad s stream).map (fun r => (r.1.value, values r.1.self, r.2)) =
      format.load ids (values s) stream

/-- A computation that is wrapped up and unwrapped again. -/
theorem map_bind_ok {ε α β : Type} (x : Except ε α) (f : α → β) (g : β → α)
    (h : ∀ a, g (f a) = a) : (x >>= fun a => Except.ok (f a)).map g = x := by
  cases x with
  | error e => rfl
  | ok a => exact congrArg Except.ok (h a)

section Flavors

variable [DoubleOps D] [FloatOps S] [FloatCast D S] [DoubleBits D]

theorem Flavor.savesParams (flavor : Flavor) :
    SavesParams (flavor.impl : PluginImpl D S _) flavor.stateFormat flavor.paramIds
      flavor.savedIds flavor.params := by
  cases flavor with
  | hostCheck => exact ⟨nofun, nofun, nofun⟩
  | _ =>
    refine ⟨?_, ?_, ?_⟩
    · rintro _ ⟨⟩ s id
      rfl
    · rintro _ ⟨⟩ s stream
      exact map_bind_ok _ _ _ fun _ => rfl
    · rintro _ ⟨⟩ s stream
      exact map_bind_ok _ _ _ fun _ => rfl

theorem Flavor.savedIds_nodup (flavor : Flavor) : flavor.savedIds.Nodup := by
  cases flavor <;> decide

theorem Flavor.savedIds_length (flavor : Flavor) : flavor.savedIds.length < 2 ^ 32 := by
  cases flavor <;> decide

/-- Every parameter but the meter of ParamsZoo is saved. -/
theorem Flavor.mem_savedIds_iff (flavor : Flavor) (id : ClapId) :
    id ∈ flavor.savedIds ↔
      id ∈ flavor.paramIds ∧ ¬ (flavor = .paramsZoo ∧ id = ParamsZooPlugin.kParamPeak) := by
  cases flavor with
  | paramsZoo =>
    have hfilter : Flavor.paramsZoo.savedIds =
        Flavor.paramsZoo.paramIds.filter (· ≠ ParamsZooPlugin.kParamPeak) := rfl
    rw [hfilter, List.mem_filter, decide_eq_true_eq]
    exact and_congr_right fun _ => not_congr (and_iff_right rfl).symm
  | _ => exact (and_iff_left fun h => nomatch h.1).symm

/-- What the host reads is the storage. -/
theorem Flavor.paramValue_eq {flavor : Flavor} {state : StateProvider D (flavor.State D S)}
    (hstate : (flavor.impl : PluginImpl D S _).state = some state) (s : flavor.State D S)
    (id : ClapId) :
    flavor.paramValue s id = if id ∈ flavor.paramIds then some (flavor.params s id) else none := by
  cases flavor with
  | hostCheck => cases hstate
  | _ => rfl

/-! ## Round trip -/

/-- The stream loads into `t`, and every parameter reads as it does on `s`, bit by bit; the meter
    of ParamsZoo is left as it was. -/
def Restores (flavor : Flavor) (state : StateProvider D (flavor.State D S))
    (s t : flavor.State D S) (stream : IStream) : Prop :=
  ∃ r stream', state.stateLoad t stream = .ok (r, stream') ∧ r.value = true ∧
    ∀ id, if flavor = .paramsZoo ∧ id = ParamsZooPlugin.kParamPeak then
        flavor.paramValue r.self id = flavor.paramValue t id
      else (flavor.paramValue r.self id).map DoubleBits.toBits =
        (flavor.paramValue s id).map DoubleBits.toBits

theorem restores_of_carries [LawfulDoubleBits D] {flavor : Flavor}
    {state : StateProvider D (flavor.State D S)}
    (hstate : (flavor.impl : PluginImpl D S _).state = some state) {s : flavor.State D S}
    (t : flavor.State D S) {records : List StateRecord}
    (hc : flavor.stateFormat.Carries flavor.savedIds (flavor.params s) records)
    {stream : IStream} {back : List UInt8}
    (h : Delivers stream (flavor.stateFormat.bytes records ++ back)) :
    Restores flavor state s t stream := by
  obtain ⟨loaded, stream', hload, hvalues⟩ :=
    load_restores flavor.stateFormat flavor.savedIds_nodup (flavor.params t) hc h
  rw [← flavor.savesParams.load state hstate t stream] at hload
  cases hr : state.stateLoad t stream with
  | error fault =>
    rw [hr] at hload
    cases hload
  | ok r =>
    obtain ⟨out, s'⟩ := r
    rw [hr] at hload
    obtain ⟨hvalue, hparams, -⟩ :
        out.value = true ∧ flavor.params out.self = loaded ∧ s' = stream' := by
      simpa [Except.map] using hload
    refine ⟨out, s', hr, hvalue, fun id => ?_⟩
    rw [Flavor.paramValue_eq hstate, Flavor.paramValue_eq hstate, Flavor.paramValue_eq hstate,
      hparams, hvalues]
    have hsaved := flavor.mem_savedIds_iff id
    by_cases hpeak : flavor = .paramsZoo ∧ id = ParamsZooPlugin.kParamPeak
    · rw [if_pos hpeak, if_neg fun hid => (hsaved.mp hid).2 hpeak]
    · rw [if_neg hpeak]
      by_cases hid : id ∈ flavor.paramIds
      · rw [if_pos hid, if_pos hid, if_pos (hsaved.mpr ⟨hid, hpeak⟩), Option.map_some,
          Option.map_some, LawfulDoubleBits.toBits_ofBits]
      · rw [if_neg hid, if_neg hid]

/-- Whatever values a flavor's parameters have: a stream that accepts something of every offer
    takes the saved bytes, and a stream that delivers them, in chunks of any sizes, restores the
    values in any instance. The records of a counted stream may come in any order, with records
    of other ids among them. -/
theorem state_roundTrip [LawfulDoubleBits D] {flavor : Flavor}
    {state : StateProvider D (flavor.State D S)}
    (hstate : (flavor.impl : PluginImpl D S _).state = some state) (s t : flavor.State D S) :
    ∃ bytes : List UInt8,
      (∀ out, Accepts out → ∃ r out', state.stateSave s out = .ok (r, out') ∧ r.value = true ∧
        out'.taken = out.taken ++ bytes) ∧
      (∀ stream back, Delivers stream (bytes ++ back) → Restores flavor state s t stream) ∧
      ∀ magic, flavor.stateFormat = .counted magic → ∀ records : List StateRecord,
        (records.filter fun r => decide (r.1 ∈ flavor.savedIds)).Perm
          (recordsOf flavor.savedIds (flavor.params s)) → records.length < 2 ^ 32 →
        ∀ stream back, Delivers stream (countedBytes magic records ++ back) →
          Restores flavor state s t stream := by
  refine ⟨flavor.stateFormat.bytes (recordsOf flavor.savedIds (flavor.params s)), ?_, ?_, ?_⟩
  · intro out hout
    obtain ⟨out', hsave, htaken⟩ :=
      save_accepts flavor.stateFormat flavor.savedIds (flavor.params s) hout
    rw [← flavor.savesParams.save state hstate s out] at hsave
    cases hr : state.stateSave s out with
    | error fault =>
      rw [hr] at hsave
      cases hsave
    | ok r =>
      rw [hr] at hsave
      obtain ⟨hvalue, hstream⟩ : r.1.value = true ∧ r.2 = out' := by
        simpa [Except.map] using hsave
      exact ⟨r.1, r.2, rfl, hvalue, by rw [hstream, htaken]⟩
  · exact fun stream back h => restores_of_carries hstate t
      (recordsOf_carries _ _ flavor.savedIds_length) h
  · intro magic hformat records hperm hlen stream back h
    have hc : flavor.stateFormat.Carries flavor.savedIds (flavor.params s) records := by
      rw [hformat]
      exact ⟨hperm, hlen⟩
    rw [show countedBytes magic records = flavor.stateFormat.bytes records by rw [hformat]; rfl]
      at h
    exact restores_of_carries hstate t hc h

/-- A failed load changes no parameter exactly if, for every id that is restored, the last
    complete record the stream hands out repeats the value that was there. A fixed layout has no
    such records. -/
theorem failedLoad_iff {flavor : Flavor} {state : StateProvider D (flavor.State D S)}
    (hstate : (flavor.impl : PluginImpl D S _).state = some state) {s : flavor.State D S}
    {stream stream' : IStream} {r : Outcome D (flavor.State D S) Bool}
    (hload : state.stateLoad s stream = .ok (r, stream')) (hfail : r.value = false) :
    (∀ id, flavor.paramValue r.self id = flavor.paramValue s id) ↔
      ∀ id ∈ flavor.savedIds, ∀ x, lastOf (flavor.stateFormat.recordsIn stream) id = some x →
        x = flavor.params s id := by
  have hformat := flavor.savesParams.load state hstate s stream
  rw [hload] at hformat
  have hsub : ∀ id ∈ flavor.savedIds, id ∈ flavor.paramIds :=
    fun id hid => ((flavor.mem_savedIds_iff id).mp hid).1
  have hiff := load_fails_iff flavor.stateFormat hsub (flavor.params s) stream _ hformat.symm hfail
  rw [← hiff]
  refine forall_congr' fun id => ?_
  rw [Flavor.paramValue_eq hstate, Flavor.paramValue_eq hstate]
  by_cases hid : id ∈ flavor.paramIds
  · rw [if_pos hid, if_pos hid, Option.some_inj]
    exact ⟨fun h _ => h, fun h => h hid⟩
  · rw [if_neg hid, if_neg hid]
    exact iff_of_true rfl fun h => absurd h hid

end Flavors

/-! ## The Effect flavor -/

/-- Gain at 6 dB, and so are the others. -/
def loudEffect : EffectPlugin.State ExactFloat :=
  { params := fun _ => 6, renderMode := 0, silentInputSamples := 0 }

def effectState : StateProvider ExactFloat (EffectPlugin.State ExactFloat) :=
  { stateSave := EffectPlugin.stateSave, stateLoad := EffectPlugin.stateLoad }

/-- Into a new instance, `i` bytes at the `i`-th request. -/
theorem state_roundTrip_loudEffect :
    ∃ bytes, Restores (D := ExactFloat) (S := ExactFloat) .effect effectState loudEffect
      EffectPlugin.create (serve bytes id) := by
  obtain ⟨bytes, -, hload, -⟩ := state_roundTrip (D := ExactFloat) (S := ExactFloat)
    (show Flavor.effect.impl.state = some effectState from rfl) loudEffect EffectPlugin.create
  exact ⟨bytes, hload _ [] (by rw [List.append_nil]; exact delivers_serve bytes id)⟩

/-- Two records are announced and one follows: Gain at 6 dB. -/
def truncatedStream : IStream :=
  serve (bytesOfUInt32 kStateMagic ++ bytesOfUInt32 kStateVersion ++ bytesOfUInt32 2 ++
    recordsBytes [(EffectPlugin.kParamGain, 6)]) fun _ => 8

/-- What the host reads of an Effect instance. -/
def effectParam (s : EffectPlugin.State ExactFloat) (id : ClapId) : Option ExactFloat :=
  Flavor.paramValue (S := ExactFloat) .effect s id

/-- Where Gain was at 6 dB before, the failed load changes nothing. -/
theorem failedLoad_iff_loudEffect :
    ∃ r stream', effectState.stateLoad loudEffect truncatedStream = .ok (r, stream') ∧
      r.value = false ∧ ∀ id, effectParam r.self id = effectParam loudEffect id := by
  refine ⟨_, _, rfl, rfl, ?_⟩
  have hload : effectState.stateLoad loudEffect truncatedStream = .ok (_, _) := rfl
  have hiff := failedLoad_iff (D := ExactFloat) (S := ExactFloat)
    (show Flavor.effect.impl.state = some effectState from rfl) hload rfl
  refine hiff.mpr fun id _ x hx => ?_
  have hrecord : (Flavor.effect.stateFormat.recordsIn truncatedStream :
      List (ClapId × ExactFloat)) = [(EffectPlugin.kParamGain, 6)] := rfl
  rw [hrecord, lastOf_cons, show lastOf ([] : List (ClapId × ExactFloat)) id = none from rfl,
    Option.none_or] at hx
  split at hx
  · exact (Option.some_inj.mp hx).symm
  · cases hx

/-- Elsewhere it does. -/
theorem failedLoad_changes :
    ∃ r stream', effectState.stateLoad EffectPlugin.create truncatedStream = .ok (r, stream') ∧
      r.value = false ∧ effectParam r.self EffectPlugin.kParamGain = some 6 ∧
      effectParam EffectPlugin.create EffectPlugin.kParamGain = some 0 := by
  refine ⟨_, _, rfl, rfl, ?_, rfl⟩
  decide

end Cvp
