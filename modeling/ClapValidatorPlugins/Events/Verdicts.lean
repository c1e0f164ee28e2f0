/-
  One event list on its two ways into a flavor: `params.flush()` and a `process()` block without
  transport. The param-event checks are shared, so P08, P11, P12 and P13 come out alike. The header
  scan is not: `checkParamEvents` leaves malformed headers to its caller, and of its two callers
  only `checkProcessContracts` counts them (P06).
-/
import ClapValidatorPlugins.Contract.BlockFindings
import ClapValidatorPlugins.Contract.ExtensionCalls
import ClapValidatorPlugins.Events.Probes

namespace Cvp

/-- The codes about the content of an event list, wherever it is delivered. -/
def eventCodes : List Violation := [.P06, .P08, .P11, .P12, .P13]

/-- How many headers of the list are malformed. -/
def malformedCount {D : Type} (es : List (Option (Event D))) : Nat :=
  es.countP fun header => header.any Event.isMalformed

namespace Plugin

variable {D S σ : Type}

/-- By how much the counter of `v` went up. -/
def raised (p q : Plugin D σ) (v : Violation) : UInt32 :=
  q.contract.counter v - p.contract.counter v

theorem Shifts.raised {p q : Plugin D σ} {vs : List Violation}
    {f : ContractMonitor → ContractMonitor} (h : Shifts p q vs f) (v : Violation) :
    p.raised q v = UInt32.ofNat (vs.count v) := by
  have hcount : q.contract.counter v = p.contract.counter v + UInt32.ofNat (vs.count v) :=
    congrFun h.counts.counters v
  rw [Plugin.raised, hcount, UInt32.add_comm, UInt32.add_sub_cancel]

end Plugin

section Counts

variable {D : Type}

/-- No finding of the list carries an event code. -/
theorem count_eq_zero_of_codes {found : List Finding} {v : Violation} (hv : v ∈ eventCodes)
    (h : ∀ f ∈ found, f.violation ∉ eventCodes) : (found.map (·.violation)).count v = 0 :=
  count_eq_zero_of_ne fun f hf heq => h f hf (heq ▸ hv)

theorem scanEvent_count (framesCount : UInt32) (scan : EventScan) (i : Nat)
    (header : Option (Event D)) {v : Violation} (hv : v ∈ eventCodes) :
    ((scanEvent framesCount scan i header).found.map (·.violation)).count v =
      (scan.found.map (·.violation)).count v +
        (if v = .P06 ∧ header.any Event.isMalformed then 1 else 0) := by
  have h3 : Violation.P03 ≠ v := fun h => absurd (h ▸ hv) (by decide)
  have h4 : Violation.P04 ≠ v := fun h => absurd (h ▸ hv) (by decide)
  unfold scanEvent
  cases header with
  | none => simp
  | some e =>
    cases hmal : e.isMalformed with
    | true =>
      by_cases h6 : v = .P06
      · simp [hmal, h6]
      · simp [hmal, h6, Ne.symm h6]
    | false =>
      dsimp only
      split_ifs <;> simp_all

theorem scanEvents_count (framesCount : UInt32) {v : Violation} (hv : v ∈ eventCodes)
    (es : List (Option (Event D))) :
    ∀ (scan : EventScan) (i : Nat),
      ((scanEvents framesCount scan i es).found.map (·.violation)).count v =
        (scan.found.map (·.violation)).count v + (if v = .P06 then malformedCount es else 0) := by
  induction es with
  | nil => exact fun scan i => by simp [scanEvents, malformedCount]
  | cons header es ih =>
    intro scan i
    rw [scanEvents, ih, scanEvent_count _ _ _ _ hv, malformedCount, malformedCount,
      List.countP_cons]
    by_cases h6 : v = .P06
    · simp only [h6, true_and, if_true]
      omega
    · simp only [h6, false_and, if_false, Nat.add_zero]

/-- What a block without transport counts of a code about its events. -/
theorem blockCodes_count (m : ContractMonitor) (block : ProcessBlock D) {v : Violation}
    (hv : v ∈ eventCodes) :
    (Plugin.blockCodes m block).count v =
      (if v = .P06 then malformedCount (readableEvents block.inEvents) else 0) +
        ((checkParamEvents m block.inEvents block.transport).map (·.violation)).count v := by
  have hframes := count_eq_zero_of_codes hv
    (framesFindings_codes (P := fun v => v ∉ eventCodes) (by decide) m block.framesCount)
  have hsteady := count_eq_zero_of_codes hv
    (steadyFindings_codes (P := fun v => v ∉ eventCodes) (by decide) m block)
  have hports := count_eq_zero_of_codes hv (checkPorts_codes (P := fun v => v ∉ eventCodes)
    (by decide) (by decide) (by decide) m block)
  have hscan := scanEvents_count block.framesCount hv (readableEvents block.inEvents) {} 0
  simp only [Plugin.blockCodes, blockFindings, eventFindings, List.map_append, List.count_append,
    hframes, hsteady, hports, hscan]
  simp

theorem malformedCount_eq_zero {es : List (Option (Event D))} :
    malformedCount es = 0 ↔ ∀ e, some e ∈ es → e.isMalformed = false := by
  rw [malformedCount, List.countP_eq_zero]
  constructor
  · exact fun h e he => eq_false_of_ne_true (h (some e) he)
  · intro h header hmem
    cases header with
    | none => exact Bool.false_ne_true
    | some e => exact ne_true_of_eq_false (h e hmem)

theorem malformedCount_readable (list : InputEvents D) :
    malformedCount (readableEvents (some list)) ≤ list.events.length := by
  unfold readableEvents
  dsimp only
  split
  · exact List.countP_le_length
  · exact Nat.zero_le _

end Counts

/-! ## The two deliveries -/

namespace Flavor

variable {D S : Type} [DoubleOps D] [FloatOps S] [FloatCast D S] [DoubleBits D]

/-- `flush()` and a `process()` block without transport raise every event code by the same amount
    exactly if no header of the list is malformed. -/
theorem flush_raises_iff {flavor : Flavor} {p : Plugin D (flavor.State D S)}
    (hr : flavor.Reachable p) (hp : p.contract.active = true ∧ p.contract.processing = true)
    {list : InputEvents D} (hlength : list.events.length < 2 ^ 32) {thread thread' : ThreadId}
    {hasOutEvents : Bool} {r : Plugin D (flavor.State D S) × List (Event D)}
    (hflush : Plugin.Params.sFlush (flavor.impl : PluginImpl D S _) p thread (some list)
      hasOutEvents = .ok r)
    {block : ProcessBlock D} (hblock : block.inEvents = some list ∧ block.transport = none)
    {memory : AudioMemory D S} {r' : Plugin D (flavor.State D S) × Plugin.ProcessReply D S}
    (hprocess : p.sProcess (flavor.impl : PluginImpl D S _) thread' block memory = .ok r') :
    (∀ v ∈ eventCodes, p.raised r.1 v = p.raised r'.1 v) ↔
      ∀ e, some e ∈ readableEvents (some list) → e.isMalformed = false := by
  have hidle := (snapshot_of_reachable hr).inProcess
  have hready : (p.contract.active && p.contract.processing) = true := by rw [hp.1, hp.2]; rfl
  have hflushed := (Plugin.sFlush_steps flavor.tame thread (some list) hasOutEvents r
    hflush).toShifts
  have hprocessed := (Plugin.sProcess_ready flavor.tame hidle hready thread' block memory r'
    hprocess).toShifts
  let checked := (checkParamEvents p.contract (some list) none).map (·.violation)
  have hflushRaised : ∀ v ∈ eventCodes, p.raised r.1 v = UInt32.ofNat (checked.count v) := by
    intro v hv
    rw [hflushed.raised, hidle]
    have h3 : Violation.T03 ≠ v := fun h => absurd (h ▸ hv) (by decide)
    cases p.flushOnWrongThread thread <;> simp [h3, checked]
  have hprocessRaised : ∀ v ∈ eventCodes, p.raised r'.1 v = UInt32.ofNat
      ((if v = .P06 then malformedCount (readableEvents (some list)) else 0) +
        checked.count v) := by
    intro v hv
    have h2 : v ∉ p.audioCodes thread' :=
      fun h => absurd (Plugin.eq_of_mem_audioCodes h ▸ hv) (by decide)
    rw [hprocessed.raised, List.count_append, List.count_eq_zero_of_not_mem h2, Nat.zero_add,
      blockCodes_count _ _ hv, hblock.1, hblock.2]
  rw [← malformedCount_eq_zero]
  constructor
  · intro hsame
    have hv : Violation.P06 ∈ eventCodes := List.mem_cons_self
    have h6 := hsame .P06 hv
    rw [hflushRaised .P06 hv, hprocessRaised .P06 hv, if_pos rfl, UInt32.ofNat_add] at h6
    have hnone : UInt32.ofNat (malformedCount (readableEvents (some list))) = 0 :=
      UInt32.add_eq_right.mp h6.symm
    have hlt := lt_of_le_of_lt (malformedCount_readable list) hlength
    have hnat := congrArg UInt32.toNat hnone
    rwa [UInt32.toNat_ofNat_of_lt' hlt] at hnat
  · intro hnone v hv
    rw [hflushRaised v hv, hprocessRaised v hv, hnone, ite_self, Nat.zero_add]

end Flavor

/-! ## A header cut short -/

/-- A PARAM_VALUE for an unknown parameter, and half a header. -/
def strayEvents : InputEvents ExactFloat where
  events :=
    [some { size := sizeofParamValue, time := 0, body := .paramValue { paramId := 99 } 1 },
      some { size := 8, time := 0, body := .paramValue { paramId := 0 } 1 }]

theorem flush_raises_iff_strayEvents :
    let p := Flavor.effect.running ExactFloat (48000 : ExactFloat)
    ∃ r r', Plugin.Params.sFlush (Flavor.effect.impl : PluginImpl ExactFloat ExactFloat _) p 0
        (some strayEvents) true = .ok r ∧
      p.sProcess (Flavor.effect.impl : PluginImpl ExactFloat ExactFloat _) 0
        { Flavor.probeBlock ExactFloat 1 with inEvents := some strayEvents }
        Flavor.quietMemory = .ok r' ∧
      ((∀ v ∈ eventCodes, p.raised r.1 v = p.raised r'.1 v) ↔
        ∀ e, some e ∈ readableEvents (some strayEvents) → e.isMalformed = false) := by
  intro p
  obtain ⟨hr, hp⟩ := Flavor.effect.running_reachable ExactFloat (48000 : ExactFloat)
  obtain ⟨r, hflush⟩ : ∃ r, Plugin.Params.sFlush
      (Flavor.effect.impl : PluginImpl ExactFloat ExactFloat _) p 0 (some strayEvents) true =
        .ok r := ⟨_, rfl⟩
  obtain ⟨r', hprocess⟩ : ∃ r', p.sProcess
      (Flavor.effect.impl : PluginImpl ExactFloat ExactFloat _) 0
      { Flavor.probeBlock ExactFloat 1 with inEvents := some strayEvents }
      Flavor.quietMemory = .ok r' := ⟨_, rfl⟩
  have hlength : strayEvents.events.length < 2 ^ 32 := by decide
  exact ⟨r, r', hflush, hprocess,
    Flavor.flush_raises_iff hr hp hlength hflush ⟨rfl, rfl⟩ hprocess⟩

/-- The flush counts the unknown parameter only, the block counts the short header too. -/
theorem flush_misses_malformed :
    let p := Flavor.effect.running ExactFloat (48000 : ExactFloat)
    let flushed := (Plugin.Params.sFlush (EffectPlugin.impl : PluginImpl ExactFloat ExactFloat _) p
      0 (some strayEvents) true).map fun r => eventCodes.map (p.raised r.1)
    let processed := (p.sProcess (EffectPlugin.impl : PluginImpl ExactFloat ExactFloat _) 0
      { Flavor.probeBlock ExactFloat 1 with inEvents := some strayEvents }
      Flavor.quietMemory).map fun r => eventCodes.map (p.raised r.1)
    Flavor.Reachable (S := ExactFloat) .effect p ∧
      (p.contract.active = true ∧ p.contract.processing = true) ∧
      flushed = .ok [0, 1, 0, 0, 0] ∧ processed = .ok [1, 1, 0, 0, 0] := by
  intro p flushed processed
  obtain ⟨hr, hp⟩ := Flavor.effect.running_reachable ExactFloat (48000 : ExactFloat)
  have hflushed : flushed = .ok [0, 1, 0, 0, 0] := by decide +kernel
  have hprocessed : processed = .ok [1, 1, 0, 0, 0] := by decide +kernel
  exact ⟨hr, hp, hflushed, hprocessed⟩

end Cvp
