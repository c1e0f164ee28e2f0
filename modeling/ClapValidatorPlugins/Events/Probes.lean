/-
  Blocks that show an event being acted on. A block of no frames on a new instance is enough: a
  parameter that the list sets to something else before, or an event that is passed on.
-/
import ClapValidatorPlugins.Events.Calls

namespace Cvp

/-! ## Arithmetic -/

/-- What the probes need of the arithmetic: two `double` values with different `float` values,
    and a sample rate whose release step takes something off 1. -/
structure NonDegenerate (D S : Type) [DoubleOps D] [FloatOps S] [FloatCast D S] : Prop where
  casts : ∃ a b : D, (FloatCast.toFloat a : S) ≠ FloatCast.toFloat b
  release : ∃ rate : D, (FloatOps.lit 1 : S) -
    FloatCast.toFloat (DoubleOps.lit 1 / (SineEngine.kReleaseSeconds * rate)) ≠ FloatOps.lit 1

theorem NonDegenerate.other {D S : Type} [DoubleOps D] [FloatOps S] [FloatCast D S]
    (h : NonDegenerate D S) (x : D) :
    ∃ y : D, (FloatCast.toFloat y : S) ≠ FloatCast.toFloat x := by
  obtain ⟨a, b, hab⟩ := h.casts
  by_cases ha : (FloatCast.toFloat a : S) = FloatCast.toFloat x
  · exact ⟨b, fun hb => hab (ha.trans hb.symm)⟩
  · exact ⟨a, ha⟩

/-! ## Parameters -/

section Values

variable {D : Type} [DoubleOps D]

theorem EffectPlugin.params_valueEvent {target : ParamTarget}
    (h : target.paramId ∈ EffectPlugin.paramIds) (base : Base D) (s : EffectPlugin.State D) (x : D)
    (size time : Nat) (flags : EventFlags) :
    (EffectPlugin.applyParamEvent base s (valueEvent size time flags target x)).self.params
      target.paramId = x := by
  show (if target.paramId ∈ EffectPlugin.paramIds then _ else _ :
    Outcome D (EffectPlugin.State D) Unit).self.params target.paramId = x
  rw [if_pos h]
  split
  · exact storeParam_self h s.params x
  · exact storeParam_self h s.params x

omit [DoubleOps D] in
theorem ParamsZooPlugin.params_valueEvent {target : ParamTarget}
    (h : target.paramId ∈ ParamsZooPlugin.savedIds) (s : ParamsZooPlugin.State D) (x : D)
    (size time : Nat) (flags : EventFlags) :
    target.paramId ≠ ParamsZooPlugin.kParamPeak ∧
      (ParamsZooPlugin.applyParamEvent s (valueEvent size time flags target x)).params
        target.paramId = x := by
  obtain ⟨hid, hpeak⟩ := (Flavor.mem_savedIds_iff .paramsZoo _).mp h
  have hne : target.paramId ≠ ParamsZooPlugin.kParamPeak := fun heq => hpeak ⟨rfl, heq⟩
  refine ⟨hne, ?_⟩
  show (if target.paramId = ParamsZooPlugin.kParamPeak then s else _ :
    ParamsZooPlugin.State D).params target.paramId = x
  rw [if_neg hne]
  exact storeParam_self hid s.params x

end Values

/-! ## An instance to probe -/

namespace Flavor

section Running

variable {D : Type} [DoubleOps D] [DoubleBits D] (S : Type) [FloatOps S] [FloatCast D S]

/-- A new instance, activated at `rate` and processing. -/
def running (flavor : Flavor) (rate : D) : Plugin D (flavor.State D S) :=
  let impl : PluginImpl D S _ := flavor.impl
  (((flavor.instantiate S none).sActivate impl 0 rate 1 512).1.sStartProcessing impl 0).1

theorem running_reachable (flavor : Flavor) (rate : D) :
    flavor.Reachable (flavor.running S rate) ∧
      (flavor.running S rate).contract.active = true ∧
      (flavor.running S rate).contract.processing = true := by
  have hstart : ∀ started : Plugin D (flavor.State D S),
      hostStep (flavor.impl : PluginImpl D S _) (.alive (flavor.instantiate S none))
        (0, .activate rate 1 512) =
          .ok (.alive started, { result := .bool true, hostCalls := [] }) →
      hostStep (flavor.impl : PluginImpl D S _) (.alive started) (0, .startProcessing) =
        .ok (.alive (flavor.running S rate), { result := .bool true, hostCalls := [] }) →
      flavor.Reachable (flavor.running S rate) := fun started h h' =>
    ⟨none, ((Machine.Reachable.refl _).tail h).tail h'⟩
  cases flavor <;> exact ⟨hstart _ rfl rfl, rfl, rfl⟩

end Running

/-! ## The block -/

/-- Two channels of 32-bit data. -/
def stereoBuffer : AudioBuffer := { channelCount := 2, data32 := some [0, 1] }

/-- One input, one output, no events yet. -/
def probeBlock (D : Type) (frames : UInt32) : ProcessBlock D :=
  { framesCount := frames, audioInputs := [stereoBuffer], audioOutputs := [stereoBuffer]
    inEvents := none }

theorem checkPorts_probe {D : Type} (m : ContractMonitor) (frames : UInt32) :
    (checkPorts m (probeBlock D frames)).1 = true := by
  by_cases h : countsMatch m.inputPorts m.outputPorts (probeBlock D frames)
  · rw [checkPorts_of_match m _ h]
    rfl
  · exact checkPorts_of_mismatch m _ h

/-- Memory full of zeros. -/
def quietMemory {D S : Type} [DoubleOps D] [FloatOps S] : AudioMemory D S :=
  { f32 := fun _ _ => FloatOps.lit 0, f64 := fun _ _ => DoubleOps.lit 0 }

section Probing

variable {D S : Type} [DoubleOps D] [FloatOps S] [FloatCast D S] [DoubleBits D]
  {flavor : Flavor} {e : Event D}

/-- What `Skipped` says of one probe. -/
theorem Skipped.outcome
    {allowed : Nat → List (Option (Event D)) → List (Option (Event D)) → Prop}
    (h : Skipped S flavor e allowed) (rate : D) (frames : UInt32) (memory : AudioMemory D S)
    (front back : List (Event D))
    (hallowed : allowed frames.toNat (front.map some) (back.map some)) :
    flavor.SameOutcome
      ((flavor.impl : PluginImpl D S _).process (flavor.running S rate).base
        (flavor.running S rate).self
        ((probeBlock D frames).withEvents ((front ++ e :: back).map some)) memory)
      ((flavor.impl : PluginImpl D S _).process (flavor.running S rate).base
        (flavor.running S rate).self
        ((probeBlock D frames).withEvents ((front ++ back).map some)) memory) := by
  obtain ⟨hr, hp⟩ := flavor.running_reachable S rate
  have hreply := h _ hr hp 0 (probeBlock D frames) memory _ _ hallowed
  rw [sameReply_iff hr hp.2] at hreply
  rw [List.map_append, List.map_append, List.map_cons]
  exact hreply (checkPorts_probe _ frames)

/-- A probe in which the two results are known to look different. -/
theorem Skipped.absurd_of_ok
    {allowed : Nat → List (Option (Event D)) → List (Option (Event D)) → Prop}
    (h : Skipped S flavor e allowed) (rate : D) (frames : UInt32) (memory : AudioMemory D S)
    (front back : List (Event D))
    (hallowed : allowed frames.toNat (front.map some) (back.map some))
    {out out' : Outcome D (flavor.State D S) ProcessStatus} {m m' : AudioMemory D S}
    (hwith : (flavor.impl : PluginImpl D S _).process (flavor.running S rate).base
      (flavor.running S rate).self
      ((probeBlock D frames).withEvents ((front ++ e :: back).map some)) memory = .ok (out, m))
    (hwithout : (flavor.impl : PluginImpl D S _).process (flavor.running S rate).base
      (flavor.running S rate).self
      ((probeBlock D frames).withEvents ((front ++ back).map some)) memory = .ok (out', m')) :
    flavor.view out.self = flavor.view out'.self ∧ out.pushed = out'.pushed := by
  have hsame := h.outcome rate frames memory front back hallowed
  rw [hwith, hwithout] at hsame
  exact hsame

end Probing

/-! ## Values -/

section Values

variable {D S : Type} [DoubleOps D] [FloatOps S] [FloatCast D S] [DoubleBits D]

/-- In a flavor without chunks, a value that is written stays to the end of the block. -/
theorem process_values (flavor : Flavor) (hchunks : flavor.rendersChunks = false)
    (hparams : flavor ≠ .hostCheck) (rate : D) (memory : AudioMemory D S) (target : ParamTarget)
    (x y : D) (size time : Nat) (flags : EventFlags) (hid : target.paramId ∈ flavor.savedIds) :
    ∃ out m out' m',
      (flavor.impl : PluginImpl D S _).process (flavor.running S rate).base
        (flavor.running S rate).self ((probeBlock D 0).withEvents
          [some (valueEvent 56 0 {} target y), some (valueEvent size time flags target x)])
        memory = .ok (out, m) ∧
      (flavor.impl : PluginImpl D S _).process (flavor.running S rate).base
        (flavor.running S rate).self ((probeBlock D 0).withEvents
          [some (valueEvent 56 0 {} target y)]) memory = .ok (out', m') ∧
      flavor.params out.self target.paramId = x ∧ flavor.params out'.self target.paramId = y := by
  cases flavor with
  | synth => cases hchunks
  | sidechainSynth => cases hchunks
  | hostCheck => exact absurd rfl hparams
  | effect =>
    exact ⟨_, _, _, _, rfl, rfl, EffectPlugin.params_valueEvent hid _ _ x _ _ _,
      EffectPlugin.params_valueEvent hid _ _ y _ _ _⟩
  | paramsZoo =>
    refine ⟨_, _, _, _, rfl, rfl, ?_, ?_⟩
    · obtain ⟨hne, hx⟩ := ParamsZooPlugin.params_valueEvent hid _ x size time flags
      exact (Function.update_of_ne hne _ _).trans hx
    · obtain ⟨hne, hy⟩ := ParamsZooPlugin.params_valueEvent hid _ y 56 0 {}
      exact (Function.update_of_ne hne _ _).trans hy
  | _ => exact ⟨_, _, _, _, rfl, rfl, storeParam_self hid _ x, storeParam_self hid _ y⟩

/-- The host reads the storage. -/
theorem paramValue_of_mem (flavor : Flavor) {id : ClapId} (h : id ∈ flavor.paramIds)
    (s : flavor.State D S) : flavor.paramValue s id = some (flavor.params s id) := by
  cases flavor with
  | hostCheck => cases h
  | _ => exact if_pos h

end Values

/-! ## Modulation of ParamsZoo, output of NoteFx -/

section Others

variable {D S : Type} [DoubleOps D] [FloatOps S] [FloatCast D S] [DoubleBits D] {e : Event D}
  {allowed : Nat → List (Option (Event D)) → List (Option (Event D)) → Prop}

/-- ParamsZoo skips no modulation of its gain. -/
theorem Skipped.unmodulated_paramsZoo (hd : NonDegenerate D S)
    (h : Skipped S .paramsZoo e allowed)
    (hallowed : ∀ front : List (Event D), (∀ x ∈ front, x.time = 0) →
      allowed 0 (front.map some) []) : modulatesParam ParamsZooPlugin.kParamGain e = false := by
  refine Bool.eq_false_iff.mpr fun hmod => ?_
  obtain ⟨target, amount, htarget, he⟩ := eq_modEvent hmod
  obtain ⟨amount', hother⟩ := hd.other amount
  let before := modEvent 56 0 {} target amount'
  have hstored : ∀ (s : ParamsZooPlugin.State D) (size time : Nat) (flags : EventFlags)
      (amount : D), (ParamsZooPlugin.applyParamEvent s
        (modEvent size time flags target amount)).gainModDb = amount := by
    intro s size time flags amount
    exact congrArg ParamsZooPlugin.State.gainModDb (if_pos htarget)
  let zoo := Flavor.paramsZoo.running S (DoubleOps.lit 0 : D)
  have hwith : ∃ out m, ParamsZooPlugin.process (S := S) zoo.base zoo.self
      ((probeBlock D 0).withEvents
        [some before, some (modEvent e.size e.time e.flags target amount)])
      quietMemory = .ok (out, m) ∧ out.self.gainModDb = amount :=
    ⟨_, _, rfl, hstored _ _ _ _ amount⟩
  have hwithout : ∃ out m, ParamsZooPlugin.process (S := S) zoo.base zoo.self
      ((probeBlock D 0).withEvents [some before]) quietMemory = .ok (out, m) ∧
        out.self.gainModDb = amount' :=
    ⟨_, _, rfl, hstored _ _ _ _ amount'⟩
  obtain ⟨out, m, hok, hgain⟩ := hwith
  obtain ⟨out', m', hok', hgain'⟩ := hwithout
  have hfront := hallowed [before] fun x hx => by
    rw [List.mem_singleton.mp hx]
    rfl
  obtain ⟨hview, -⟩ := h.absurd_of_ok (DoubleOps.lit 0) 0 quietMemory [before] [] hfront
    (by rw [he]; exact hok) hok'
  have hsame : some out.self.gainModDb = some out'.self.gainModDb :=
    congrArg FlavorView.gainMod hview
  rw [hgain, hgain'] at hsame
  exact hother (congrArg FloatCast.toFloat (Option.some.inj hsame).symm)

/-- NoteFx passes on everything but parameter values. -/
theorem Skipped.carriesValue_noteFx (h : Skipped S .noteFx e allowed)
    (hallowed : ∀ front : List (Event D), (∀ x ∈ front, x.time = 0) →
      allowed 0 (front.map some) []) : carriesValue e = true := by
  by_contra hvalue
  let fx := Flavor.noteFx.running S (DoubleOps.lit 0 : D)
  have hwith : ∃ out m, NoteFxPlugin.process (S := S) fx.base fx.self
      ((probeBlock D 0).withEvents [some e]) quietMemory = .ok (out, m) ∧ out.pushed ≠ [] := by
    obtain ⟨pushed, hp⟩ :=
      NoteFxPlugin.transformEvent_of_passed (Bool.not_eq_true _ |>.mp hvalue) fx.self
    have hloop : consume NoteFxPlugin.transformEvent fx.self [e] =
        { value := (), self := fx.self, pushed := [pushed] } := by
      show ({ value := (), self := _, effects := _ ++ [], pushed := _ ++ [] } :
        Outcome D (NoteFxPlugin.State D) Unit) = _
      rw [hp]
      rfl
    refine ⟨{ value := .continue, self := fx.self, pushed := [pushed] }, quietMemory, ?_,
      List.cons_ne_nil _ _⟩
    have hlist : ((probeBlock D 0).withEvents [some e]).inEvents =
        some { events := [e].map some } := rfl
    refine (NoteFxPlugin.process_ofList (S := S) fx.base fx.self _ quietMemory hlist).trans ?_
    rw [hloop]
    rfl
  have hwithout : ∃ out m, NoteFxPlugin.process (S := S) fx.base fx.self
      ((probeBlock D 0).withEvents []) quietMemory = .ok (out, m) ∧ out.pushed = [] :=
    ⟨_, _, rfl, rfl⟩
  obtain ⟨out, m, hok, hpushed⟩ := hwith
  obtain ⟨out', m', hok', hpushed'⟩ := hwithout
  obtain ⟨-, hsame⟩ := h.absurd_of_ok (DoubleOps.lit 0) 0 quietMemory [] []
    (hallowed [] fun x hx => absurd hx List.not_mem_nil) hok hok'
  exact hpushed (hsame.trans hpushed')

end Others

end Flavor

end Cvp
