/-
  Null event lists and null headers. `checkProcessContracts` passes over both without a finding, so
  a block with them is forwarded. Five flavors dereference a null list, and every flavor that reads
  events at all dereferences a null header; what saves a flavor is only that it returns before its
  loop (`nullEvents_survived_iff`).
-/
import ClapValidatorPlugins.Blocks.Faults
import ClapValidatorPlugins.Events.Probes

namespace Cvp

variable {D S : Type}

/-! ## The lists -/

theorem channelAt_fails (data : Option (List Ptr)) (ch : Nat) :
    Fails (channelAt data ch) (· ≠ .nullEvent) := by
  unfold channelAt
  split
  · exact .of_error nofun
  · split
    · exact .of_ok _
    · exact .of_error nofun

theorem blockFails_nullEvent (block : ProcessBlock D) : BlockFails (· ≠ .nullEvent) block where
  nullDeref := nofun
  inputs _ _ _ _ := ⟨channelAt_fails _ _, channelAt_fails _ _⟩
  outputs _ _ _ _ := ⟨channelAt_fails _ _, channelAt_fails _ _⟩

theorem firstChannelsFail_nullEvent (block : ProcessBlock D) :
    ParamsZooPlugin.FirstChannelsFail (· ≠ .nullEvent) block := by
  unfold ParamsZooPlugin.FirstChannelsFail
  split
  · exact fun _ _ => ⟨channelAt_fails _ _, channelAt_fails _ _⟩
  · trivial

/-- A null header is dereferenced where the loop can be run at all. -/
theorem headers_eq_nullEvent_iff (list : InputEvents D) :
    list.headers = .error .nullEvent ↔
      list.hasSize = true ∧ list.hasGet = true ∧ none ∈ list.events := by
  obtain ⟨hasSize, hasGet, events⟩ := list
  have hnone : ∀ headers : List (Event D), none ∉ headers.map some := by simp
  cases hasSize with
  | false => simp [InputEvents.headers]
  | true =>
    cases hasGet with
    | true =>
      rcases headers_cases events with ⟨headers, rfl, hok⟩ | ⟨hmem, herror⟩
      · rw [hok]
        exact iff_of_false nofun fun h => hnone headers h.2.2
      · exact iff_of_true herror ⟨rfl, rfl, hmem⟩
    | false =>
      cases events with
      | nil => exact iff_of_false nofun nofun
      | cons header events => exact iff_of_false nofun nofun

namespace Flavor

/-- The loop gets to the first null header: NoteFx dereferences a null `out_events` with the first
    event that it passes on. -/
def ReachesNull (flavor : Flavor) (block : ProcessBlock D) (events : List (Option (Event D))) :
    Prop :=
  none ∈ events ∧ (flavor = .noteFx → block.hasOutEvents = true ∨
    ∀ header ∈ events.takeWhile Option.isSome, header.any carriesValue = true)

/-- The flavor gets to its event loop and finds a null list there that it does not ask for, or a
    null header. -/
def MeetsNull (flavor : Flavor) (block : ProcessBlock D) : Prop :=
  flavor.readsEvents block = true ∧
    match block.inEvents with
    | none => flavor.guardsList = false
    | some list => list.hasSize = true ∧ list.hasGet = true ∧ flavor.ReachesNull block list.events

theorem fetchHeaders_eq_nullEvent_iff (flavor : Flavor) (block : ProcessBlock D) :
    flavor.fetchHeaders block = .error .nullEvent ↔
      match block.inEvents with
      | none => flavor.guardsList = false
      | some list => list.hasSize = true ∧ list.hasGet = true ∧ none ∈ list.events := by
  unfold fetchHeaders
  cases block.inEvents with
  | none => cases flavor.guardsList <;> simp [guardedHeaders, unguardedHeaders]
  | some list =>
    dsimp only
    rw [← headers_eq_nullEvent_iff]
    cases flavor.guardsList <;> exact Iff.rfl

end Flavor

/-! ## NoteFx -/

namespace NoteFxPlugin

variable [DoubleOps D]

/-- What is not passed on is a parameter value. -/
theorem pushed_isEmpty (s : State D) (e : Event D) :
    (transformEvent s e).pushed.isEmpty = carriesValue e := by
  cases hvalue : carriesValue e with
  | false =>
    obtain ⟨pushed, hpushed⟩ := transformEvent_of_passed hvalue s
    rw [hpushed]
    rfl
  | true =>
    unfold carriesValue at hvalue
    obtain ⟨hcore, hbody⟩ := Bool.and_eq_true_iff.mp hvalue
    unfold transformEvent
    dsimp only
    rw [if_pos hcore]
    cases hevent : e.body with
    | paramValue target x => rfl
    | _ =>
      rw [hevent] at hbody
      cases hbody

theorem transformEvents_eq_nullEvent_iff (hasOutEvents : Bool) (events : List (Option (Event D))) :
    ∀ s : State D, transformEvents hasOutEvents s events = .error .nullEvent ↔
      none ∈ events ∧ (hasOutEvents = true ∨
        ∀ header ∈ events.takeWhile Option.isSome, header.any carriesValue = true) := by
  induction events with
  | nil =>
    intro s
    refine iff_of_false ?_ fun h => List.not_mem_nil h.1
    rintro ⟨⟩
  | cons entry events ih =>
    intro s
    cases entry with
    | none => simp [transformEvents]
    | some e =>
      have hmem : none ∈ some e :: events ↔ none ∈ events := by simp
      rw [transformEvents, pushed_isEmpty, hmem, List.takeWhile_cons_of_pos rfl,
        List.forall_mem_cons]
      by_cases hpass : (carriesValue e || hasOutEvents) = true
      · rw [if_pos hpass, Fails.bind_eq_error_iff fun _ _ => .of_ok _, ih]
        rcases Bool.or_eq_true_iff.mp hpass with hvalue | hout
        · simp [hvalue]
        · simp [hout]
      · rw [if_neg hpass]
        rw [Bool.not_eq_true, Bool.or_eq_false_iff] at hpass
        refine iff_of_false ?_ (by simp [hpass.1, hpass.2])
        rintro ⟨⟩

theorem process_eq_nullEvent_iff (base : Base D) (s : State D) (block : ProcessBlock D)
    (memory : AudioMemory D S) :
    process base s block memory = .error .nullEvent ↔ Flavor.noteFx.MeetsNull block := by
  unfold process Flavor.MeetsNull Flavor.ReachesNull
  cases block.inEvents with
  | none => exact iff_of_true rfl ⟨rfl, rfl⟩
  | some list =>
    dsimp only
    by_cases hcallable : (list.hasSize && (list.hasGet || list.events.isEmpty)) = true
    · rw [if_pos hcallable, Fails.bind_eq_error_iff fun _ _ => .of_ok _,
        transformEvents_eq_nullEvent_iff]
      obtain ⟨hsize, hget⟩ := Bool.and_eq_true_iff.mp hcallable
      constructor
      · rintro ⟨hmem, hahead⟩
        refine ⟨rfl, hsize, ?_, hmem, fun _ => hahead⟩
        rcases Bool.or_eq_true_iff.mp hget with hget | hempty
        · exact hget
        · rw [List.isEmpty_iff.mp hempty] at hmem
          cases hmem
      · exact fun ⟨_, _, _, hmem, hahead⟩ => ⟨hmem, hahead rfl⟩
    · rw [if_neg hcallable]
      refine iff_of_false nofun ?_
      rintro ⟨-, hsize, hget, -⟩
      simp [hsize, hget] at hcallable

end NoteFxPlugin

/-! ## The flavors -/

section Flavors

variable [DoubleOps D] [FloatOps S] [FloatCast D S] [DoubleBits D]

theorem Flavor.process_eq_nullEvent_iff (flavor : Flavor) (base : Base D) (s : flavor.State D S)
    (block : ProcessBlock D) (memory : AudioMemory D S) :
    (flavor.impl : PluginImpl D S _).process base s block memory = .error .nullEvent ↔
      flavor.MeetsNull block := by
  by_cases hloop : flavor = .noteFx
  · subst hloop
    exact NoteFxPlugin.process_eq_nullEvent_iff base s block memory
  · have hreads : ReadsThen (· ≠ .nullEvent) _ _
        ((flavor.impl : PluginImpl D S _).process base s block memory) :=
      Flavor.process_readsThen base (blockFails_nullEvent block) flavor hloop
        (fun _ => firstChannelsFail_nullEvent block) s
    rw [hreads.eq_error_iff, flavor.fetchHeaders_eq_nullEvent_iff]
    unfold MeetsNull ReachesNull
    cases block.inEvents with
    | none => exact Iff.rfl
    | some list => simp [hloop]

/-- A `process()` call that is forwarded dereferences neither a null event list nor a null header
    exactly if the flavor does not get to its event loop with one of them: it asks for the list, or
    returns (or faults) before. For every state of the instance, and so for every active and
    processing one. -/
theorem nullEvents_survived_iff (flavor : Flavor) (p : Plugin D (flavor.State D S))
    (thread : ThreadId) (block : ProcessBlock D) (memory : AudioMemory D S) :
    p.sProcess (flavor.impl : PluginImpl D S _) thread block memory ≠ .error .nullEvent ↔
      ¬ ((p.processGate thread block).1 = .forward ∧ flavor.MeetsNull block) := by
  refine not_congr ?_
  unfold Plugin.sProcess
  rcases hgate : p.processGate thread block with ⟨gate, q⟩
  cases gate with
  | reject => exact iff_of_false nofun nofun
  | forward =>
    dsimp only
    rw [and_iff_right rfl, ← flavor.process_eq_nullEvent_iff q.base q.self block memory]
    cases (flavor.impl : PluginImpl D S _).process q.base q.self block memory with
    | ok r => exact iff_of_false nofun nofun
    | error fault => exact ⟨fun h => congrArg _ (Except.error.inj h),
        fun h => congrArg _ (Except.error.inj h)⟩

end Flavors

/-- NoteFx on a null list, and the Effect on a list with a null header, which are forwarded. -/
theorem nullEvents_not_survived :
    let block : ProcessBlock ExactFloat := { framesCount := 1, inEvents := none }
    let stereo : ProcessBlock ExactFloat :=
      { framesCount := 1
        audioInputs := [{ channelCount := 2, data32 := some [0, 1] }]
        audioOutputs := [{ channelCount := 2, data32 := some [2, 3] }]
        inEvents := some { events := [none] } }
    let silence : AudioMemory ExactFloat ExactFloat := { f32 := fun _ _ => 0, f64 := fun _ _ => 0 }
    let noteFx := Flavor.noteFx.running ExactFloat (48000 : ExactFloat)
    let effect := Flavor.effect.running ExactFloat (48000 : ExactFloat)
    (noteFx.processGate 0 block).1 = .forward ∧
      (noteFx.sProcess NoteFxPlugin.impl 0 block silence).map (fun r => r.2.status) =
        .error .nullEvent ∧
      (effect.processGate 0 stereo).1 = .forward ∧
      (effect.sProcess EffectPlugin.impl 0 stereo silence).map (fun r => r.2.status) =
        .error .nullEvent := by
  refine ⟨?_, ?_, ?_, ?_⟩ <;> decide +kernel

end Cvp
