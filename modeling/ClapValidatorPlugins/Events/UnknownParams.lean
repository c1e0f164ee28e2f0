/-
  P08. `checkParamEvents` looks a param id up in the table that activation fills and passes over
  the whole list while the table is empty. An empty table stands for two things: the flavor has no
  parameters, or nobody has activated the instance yet. In both cases events for unknown
  parameters go unreported; otherwise each of them is counted once, in either way a list is
  delivered (`unknownParams_caught_iff`).
-/
import ClapValidatorPlugins.Contract.SteadyTime

namespace Cvp

variable {D S σ : Type}

/-- A core PARAM_VALUE or PARAM_MOD with a whole header, for a parameter outside `ids`. -/
def Event.targetsOther (ids : List ClapId) (e : Event D) : Bool :=
  e.isCore && !e.isMalformed && match e.body with
    | .paramValue target _ | .paramMod target _ => decide (target.paramId ∉ ids)
    | _ => false

/-- Whether the event has all of its fields. -/
def Event.isFullSize (e : Event D) : Bool := decide (sizeofParamValue ≤ e.size)

/-- How many events of the list are for parameters outside `ids`: those of full size, or those
    that end behind the header. -/
def strayCount (ids : List ClapId) (fullSize : Bool) (inEvents : Option (InputEvents D)) : Nat :=
  (readableEvents inEvents).countP fun header =>
    header.any fun e => e.targetsOther ids && e.isFullSize == fullSize

/-- The event list the call hands to the checks, if any. -/
def Plugin.delivered (p : Plugin D σ) : Call D S → Option (Option (InputEvents D))
  | .process block _ => if p.checksBlocks then some block.inEvents else none
  | .paramsFlush inEvents _ => some inEvents
  | _ => none

/-- The length of a list is a `uint32_t`. -/
def Call.hasUInt32Length : Call D S → Prop
  | .process block _ => ∀ list, block.inEvents = some list → list.events.length < 2 ^ 32
  | .paramsFlush inEvents _ => ∀ list, inEvents = some list → list.events.length < 2 ^ 32
  | _ => True

/-- Whether `activate()` has been called so far. -/
def everActivated (before : Bool) (_ : Instance D σ) (l : ThreadId × Call D S)
    (_ : Reply D S) : Bool :=
  match l.2 with
  | .activate .. => true
  | _ => before

/-- Calls with that memory. -/
def activatedStep [DoubleOps D] (impl : PluginImpl D S σ) :
    Machine.Step (Instance D σ × Bool) (ThreadId × Call D S) (Reply D S) Fault :=
  Machine.remembering (hostStep impl) everActivated

/-- A condition on every event list that is delivered. -/
def OnDelivered (P : Bool → Option (InputEvents D) → Plugin D σ → Plugin D σ → Prop)
    (s : Instance D σ × Bool) (l : ThreadId × Call D S) (s' : Instance D σ × Bool)
    (_ : Reply D S) : Prop :=
  ∀ p q events, s.1 = .alive p → s'.1 = .alive q → p.delivered l.2 = some events →
    P s.2 events p q

/-- Every event of full size for a parameter outside `ids` raises P08 by one; a truncated one
    may or may not. -/
def Caught (ids : List ClapId) (_ : Bool) (events : Option (InputEvents D))
    (p q : Plugin D σ) : Prop :=
  ∃ truncated, truncated ≤ strayCount ids false events ∧
    p.raised q .P08 = UInt32.ofNat (strayCount ids true events + truncated)

/-! ## One list -/

theorem findParam_eq_none_iff (m : ContractMonitor) (id : ClapId) :
    m.findParam id = none ↔ id ∉ m.params.map (·.id) := by
  unfold ContractMonitor.findParam
  rw [List.find?_eq_none, List.mem_map]
  simp

/-- One event of a checked list. -/
theorem paramEventFindings_count (m : ContractMonitor) (playing : Bool) (i : Nat)
    (header : Option (Event D)) :
    ((paramEventFindings m playing i header).map (·.violation)).count .P08 =
      if header.any (Event.targetsOther (m.params.map (·.id))) then 1 else 0 := by
  have htarget : ∀ (target : ParamTarget) (verdict : ParamTarget → ParamRecord → List Finding),
      (∀ target param, ∀ f ∈ verdict target param, f.violation ≠ .P08) →
      ((targetFindings m i target verdict).map (·.violation)).count .P08 =
        if target.paramId ∉ m.params.map (·.id) then 1 else 0 := by
    intro target verdict hverdict
    unfold targetFindings
    cases hfind : m.findParam target.paramId with
    | none =>
      rw [if_pos ((findParam_eq_none_iff m _).mp hfind)]
      rfl
    | some param =>
      rw [if_neg fun hno => by
        rw [(findParam_eq_none_iff m _).mpr hno] at hfind
        cases hfind]
      refine count_eq_zero_of_ne (List.forall_mem_append.mpr ⟨?_, hverdict target param⟩)
      unfold cookieFindings
      split <;> simp
  cases header with
  | none => rfl
  | some e =>
    unfold paramEventFindings Event.targetsOther
    cases hcore : e.isCore with
    | false => simp [hcore]
    | true =>
      cases hmal : e.isMalformed with
      | true => simp [hcore, hmal]
      | false =>
        simp only [Option.any_some, hcore, hmal, Bool.not_true, Bool.not_false, Bool.or_self,
          Bool.false_eq_true, if_false, Bool.true_and]
        cases e.body with
        | paramValue target x =>
          dsimp only
          rw [htarget]
          · simp
          · intro target param
            unfold valueFindings
            split_ifs <;> simp
        | paramMod target amount =>
          dsimp only
          rw [htarget]
          · simp
          · intro target param
            unfold modFindings
            split_ifs <;> simp
        | _ => rfl

theorem strayCount_add (ids : List ClapId) (inEvents : Option (InputEvents D)) :
    strayCount ids true inEvents + strayCount ids false inEvents =
      (readableEvents inEvents).countP fun header => header.any (Event.targetsOther ids) := by
  unfold strayCount
  induction readableEvents inEvents with
  | nil => rfl
  | cons header es ih =>
    rw [List.countP_cons, List.countP_cons, List.countP_cons, ← ih]
    cases header with
    | none => simp
    | some e =>
      cases hstray : e.targetsOther ids <;> cases hsize : e.isFullSize <;> simp [hstray, hsize]
        <;> omega

/-- The checks of a list, with or without transport. -/
theorem checkParamEvents_count (m : ContractMonitor) (inEvents : Option (InputEvents D))
    (transport : Option (Transport D)) :
    ((checkParamEvents m inEvents transport).map (·.violation)).count .P08 =
      if m.hasParams then strayCount (m.params.map (·.id)) true inEvents +
        strayCount (m.params.map (·.id)) false inEvents else 0 := by
  have hscan : ∀ (es : List (Option (Event D))) (playing : Bool) (i : Nat),
      ((paramEventsFindings m playing i es).map (·.violation)).count .P08 =
        es.countP fun header => header.any (Event.targetsOther (m.params.map (·.id))) := by
    intro es playing
    induction es with
    | nil => exact fun i => rfl
    | cons header es ih =>
      intro i
      rw [paramEventsFindings, List.map_append, List.count_append, ih,
        paramEventFindings_count, List.countP_cons]
      omega
  rw [strayCount_add]
  unfold checkParamEvents
  split
  · exact hscan _ _ _
  · rfl

theorem strayCount_lt {ids : List ClapId} {inEvents : Option (InputEvents D)}
    (h : ∀ list, inEvents = some list → list.events.length < 2 ^ 32) :
    strayCount ids true inEvents + strayCount ids false inEvents < 2 ^ 32 := by
  rw [strayCount_add]
  cases inEvents with
  | none => exact Nat.two_pow_pos 32
  | some list =>
    unfold readableEvents
    dsimp only
    split
    · exact lt_of_le_of_lt List.countP_le_length (h list rfl)
    · exact Nat.two_pow_pos 32

section Steps

variable [DoubleOps D] {impl : PluginImpl D S σ}

/-- Both deliveries count what the checks find. -/
theorem raised_delivered (ht : Tame impl) {p q : Plugin D σ} {l : ThreadId × Call D S}
    {o : Reply D S} {events : Option (InputEvents D)} (hi : p.contract.inProcess = false)
    (hdelivered : p.delivered l.2 = some events)
    (h : hostStep impl (.alive p) l = .ok (.alive q, o)) :
    p.raised q .P08 = UInt32.ofNat
      (if p.contract.hasParams then strayCount (p.contract.params.map (·.id)) true events +
        strayCount (p.contract.params.map (·.id)) false events else 0) := by
  have hcall := hostStep_call h
  obtain ⟨thread, call⟩ := l
  cases call with
  | process block memory =>
    obtain ⟨hready, hevents⟩ := Option.ite_none_right_eq_some.mp hdelivered
    obtain rfl : block.inEvents = events := Option.some.inj hevents
    obtain ⟨a, hr, -⟩ := Instance.returned_alive hcall
    have hshift := (Plugin.sProcess_ready (p := { p with hostCalls := [] }) ht hi hready thread
      block memory _ hr).toShifts
    have haudio : (Plugin.audioCodes { p with hostCalls := [] } thread).count .P08 = 0 :=
      List.count_eq_zero_of_not_mem fun h => absurd (Plugin.eq_of_mem_audioCodes h) nofun
    refine (hshift.raised .P08).trans ?_
    rw [List.count_append, haudio, Nat.zero_add, blockCodes_count _ _ (by decide),
      checkParamEvents_count]
    exact congrArg UInt32.ofNat (Nat.zero_add _)
  | paramsFlush inEvents hasOutEvents =>
    obtain rfl : inEvents = events := Option.some.inj hdelivered
    obtain ⟨a, hr, -⟩ := Instance.returned_alive hcall
    have hshift := (Plugin.sFlush_steps (p := { p with hostCalls := [] }) ht thread inEvents
      hasOutEvents _ hr).toShifts
    refine (hshift.raised .P08).trans (congrArg UInt32.ofNat ?_)
    rw [List.count_append, List.count_append, checkParamEvents_count]
    cases p.contract.inProcess <;> cases Plugin.flushOnWrongThread { p with hostCalls := [] } thread
      <;> exact Nat.zero_add _
  | _ => cases hdelivered

/-- The table of an instance is what the flavor declares from the first `activate()` on. -/
def TableState (impl : PluginImpl D S σ) (s : Instance D σ × Bool) : Prop :=
  ∀ p, s.1 = .alive p → Snapshot impl p.contract p.self ∧
    p.contract.params = if s.2 then Plugin.declaredParams impl else []

theorem tableState_step (ht : Tame impl) (s : Instance D σ × Bool) (l : ThreadId × Call D S)
    (s' : Instance D σ × Bool) (o : Reply D S) (h : TableState impl s)
    (hstep : activatedStep impl s l = .ok (s', o)) : TableState impl s' := by
  obtain ⟨hcall, hmemory⟩ := Machine.remembering_ok hstep
  intro q hq
  obtain ⟨p, hp, -⟩ := hostStep_ok hcall
  rw [hp, hq] at hcall
  obtain ⟨hsnapshot, htable⟩ := h p hp
  have he := Plugin.hostStep_effects ht hsnapshot.inProcess hcall
  refine ⟨hostStep_snapshot ht (.alive p) l (.alive q) o
    (fun p' hp' => by cases hp'; exact hsnapshot) hcall q rfl, ?_⟩
  rw [he.params, hmemory]
  obtain ⟨thread, call⟩ := l
  cases call with
  | activate sampleRate minFrames maxFrames =>
    show (if p.contract.active then p.contract.params else _) = Plugin.declaredParams impl
    split
    · rename_i hactive
      exact hsnapshot.params hactive
    · rfl
  | _ => exact htable

end Steps

/-! ## Runs -/

section Runs

variable [DoubleOps D] [FloatOps S] [FloatCast D S] [DoubleBits D]

/-- What a flavor declares through `params.get_info`. -/
def Flavor.declaredIds (D S : Type) [DoubleOps D] [FloatOps S] [FloatCast D S] [DoubleBits D]
    (flavor : Flavor) : List ClapId :=
  (Plugin.declaredParams (flavor.impl : PluginImpl D S _)).map (·.id)

/-- Only HostCheck declares nothing. -/
theorem declaredIds_eq_nil_iff (flavor : Flavor) :
    flavor.declaredIds D S = [] ↔ flavor = .hostCheck := by
  cases flavor with
  | hostCheck => exact iff_of_true rfl rfl
  | _ => exact iff_of_false (List.cons_ne_nil _ _) nofun

/-- Somebody has activated the instance before, and its flavor has parameters; or the list has
    no full-size event for an unknown one. -/
def TableFilled (D S : Type) [DoubleOps D] [FloatOps S] [FloatCast D S] [DoubleBits D] {σ : Type}
    (flavor : Flavor) (activated : Bool) (events : Option (InputEvents D)) (_ _ : Plugin D σ) :
    Prop :=
  activated = true ∧ flavor ≠ .hostCheck ∨ strayCount (flavor.declaredIds D S) true events = 0

theorem caught_iff {flavor : Flavor} {s : Instance D (flavor.State D S) × Bool}
    {l : ThreadId × Call D S} {p q : Plugin D (flavor.State D S)} {o : Reply D S}
    {events : Option (InputEvents D)} (h : TableState (flavor.impl : PluginImpl D S _) s)
    (hp : s.1 = .alive p) (hlength : l.2.hasUInt32Length)
    (hdelivered : p.delivered l.2 = some events)
    (hcall : hostStep (flavor.impl : PluginImpl D S _) (.alive p) l = .ok (.alive q, o)) :
    Caught (flavor.declaredIds D S) s.2 events p q ↔ TableFilled D S flavor s.2 events p q := by
  obtain ⟨hsnapshot, htable⟩ := h p hp
  have hlt : strayCount (flavor.declaredIds D S) true events +
      strayCount (flavor.declaredIds D S) false events < 2 ^ 32 := by
    refine strayCount_lt fun list hlist => ?_
    obtain ⟨thread, call⟩ := l
    cases call with
    | process block memory =>
      obtain ⟨-, hevents⟩ := Option.ite_none_right_eq_some.mp hdelivered
      exact hlength list ((Option.some.inj hevents).trans hlist)
    | paramsFlush inEvents hasOutEvents =>
      exact hlength list ((Option.some.inj hdelivered).trans hlist)
    | _ => cases hdelivered
  have hraised := raised_delivered flavor.tame hsnapshot.inProcess hdelivered hcall
  -- an empty table: nothing is raised, so there must have been nothing to raise
  have hempty : p.contract.params = [] → (Caught (flavor.declaredIds D S) s.2 events p q ↔
      strayCount (flavor.declaredIds D S) true events = 0) := by
    intro hnil
    have hnone : p.contract.hasParams = false := by
      rw [ContractMonitor.hasParams, hnil]
      rfl
    rw [hnone, if_neg Bool.false_ne_true] at hraised
    constructor
    · rintro ⟨truncated, hle, hcaught⟩
      have hsum : strayCount (flavor.declaredIds D S) true events + truncated < UInt32.size :=
        lt_of_le_of_lt (Nat.add_le_add_left hle _) hlt
      have hnat := congrArg UInt32.toNat (hraised.symm.trans hcaught)
      rw [UInt32.toNat_ofNat_of_lt' hsum] at hnat
      exact (Nat.add_eq_zero_iff.mp hnat.symm).1
    · intro hzero
      exact ⟨0, Nat.zero_le _, by rw [hzero]; exact hraised⟩
  unfold TableFilled
  cases hactivated : s.2 with
  | false =>
    rw [hactivated] at htable hempty
    rw [hempty htable]
    simp
  | true =>
    rw [hactivated] at htable hempty
    have hids : p.contract.params.map (·.id) = flavor.declaredIds D S := by
      rw [htable]
      rfl
    by_cases hflavor : flavor = .hostCheck
    · have hnil : p.contract.params = [] :=
        List.map_eq_nil_iff.mp (hids.trans ((declaredIds_eq_nil_iff flavor).mpr hflavor))
      rw [hempty hnil]
      simp [hflavor]
    · have hsome : p.contract.hasParams = true := by
        cases hparams : p.contract.params with
        | nil =>
          rw [hparams] at hids
          exact absurd ((declaredIds_eq_nil_iff flavor).mp hids.symm) hflavor
        | cons param params =>
          rw [ContractMonitor.hasParams, hparams]
          rfl
      rw [hsome, if_pos rfl, hids] at hraised
      exact iff_of_true ⟨_, le_rfl, hraised⟩ (.inl ⟨rfl, hflavor⟩)

/-- Along every run of host calls on a new instance: every list that is delivered, by a process()
    while processing or by a flush in any state, raises P08 once for each event for an undeclared
    parameter, exactly if every list with such an event comes behind an `activate()` and the flavor
    is not the one without parameters. The events are those of full size. -/
theorem unknownParams_caught_iff (flavor : Flavor) (host : Option Host)
    {calls : List (ThreadId × Call D S)} (hlength : ∀ l ∈ calls, l.2.hasUInt32Length) :
    let impl : PluginImpl D S (flavor.State D S) := flavor.impl
    let start : Instance D (flavor.State D S) × Bool := (.alive (flavor.instantiate S host), false)
    Machine.AllSteps (activatedStep impl) (OnDelivered (Caught (flavor.declaredIds D S))) start
        calls ↔
      Machine.AllSteps (activatedStep impl) (OnDelivered (TableFilled D S flavor)) start calls := by
  intro impl start
  refine Machine.allSteps_iff (I := TableState impl)
    (A := fun _ l _ _ => l.2.hasUInt32Length) (fun s l s' o h hstep hl => ?_)
    (fun s l s' o h hstep _ _ => tableState_step flavor.tame s l s' o h hstep) ?_
    (Machine.allSteps_of_labels hlength)
  · obtain ⟨hcall, -⟩ := Machine.remembering_ok hstep
    refine forall_congr' fun p => forall_congr' fun q => forall_congr' fun events => ?_
    refine imp_congr_right fun hp => imp_congr_right fun hq => imp_congr_right fun hdelivered => ?_
    rw [hp, hq] at hcall
    exact caught_iff h hp hl hdelivered hcall
  · intro p hp
    cases hp
    exact ⟨Plugin.snapshot_create host, rfl⟩

end Runs

/-! ## Before the first `activate()` -/

/-- One PARAM_VALUE for a parameter that no flavor has. -/
def strayValue : InputEvents ExactFloat :=
  { events :=
      [some { size := sizeofParamValue, time := 0, body := .paramValue { paramId := 99 } 1 }] }

/-- It is flushed once before and once behind the `activate()`. -/
def strayFlushes : List (ThreadId × Call ExactFloat ExactFloat) :=
  [(0, .init []), (0, .paramsFlush (some strayValue) false), (0, .activate 48000 1 512),
    (0, .paramsFlush (some strayValue) false)]

theorem unknownParams_caught_iff_strayFlushes :
    let impl : PluginImpl ExactFloat ExactFloat (EffectPlugin.State ExactFloat) :=
      Flavor.effect.impl
    let start : Instance ExactFloat (EffectPlugin.State ExactFloat) × Bool :=
      (.alive (Flavor.effect.instantiate ExactFloat none), false)
    Machine.AllSteps (activatedStep impl)
        (OnDelivered (Caught (Flavor.effect.declaredIds ExactFloat ExactFloat))) start
        strayFlushes ↔
      Machine.AllSteps (activatedStep impl)
        (OnDelivered (TableFilled ExactFloat ExactFloat .effect)) start strayFlushes := by
  have hlength : ∀ l ∈ strayFlushes, l.2.hasUInt32Length := by
    simp [strayFlushes, strayValue, Call.hasUInt32Length]
  exact unknownParams_caught_iff .effect none hlength

/-- The first flush goes unreported, the second does not. -/
theorem unknownParams_missed :
    let start : Instance ExactFloat (EffectPlugin.State ExactFloat) :=
      .alive (Flavor.effect.instantiate ExactFloat none)
    let counted : Nat → Except Fault UInt32 := fun n =>
      (Machine.run (hostStep (EffectPlugin.impl : PluginImpl ExactFloat ExactFloat _)) start
        (strayFlushes.take n)).map fun r => r.1.contract.counter .P08
    strayCount (Flavor.effect.declaredIds ExactFloat ExactFloat) true (some strayValue) = 1 ∧
      strayCount (Flavor.effect.declaredIds ExactFloat ExactFloat) false (some strayValue) = 0 ∧
      counted 1 = .ok 0 ∧ counted 2 = .ok 0 ∧ counted 3 = .ok 0 ∧ counted 4 = .ok 1 := by
  decide +kernel

end Cvp
