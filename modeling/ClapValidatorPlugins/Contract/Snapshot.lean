/-
  The activation snapshot. Between calls an active plugin's caches are what the flavor declares
  right now, its frame bounds are sane, and the transient flags are down: `Snapshot`, kept by
  every call a host can make (`snapshot_call`) and so by every run (`snapshot_of_reachable`).
-/
import ClapValidatorPlugins.Contract.CallMoves

namespace Cvp

variable {D S σ : Type}

/-- What the monitor `m` holds of a flavor in state `s`. -/
structure Snapshot (impl : PluginImpl D S σ) (m : ContractMonitor) (s : σ) : Prop where
  processing_active : m.processing = true → m.active = true
  beingActivated : m.beingActivated = false
  inProcess : m.inProcess = false
  bounds : m.active = true → 1 ≤ m.minFrames ∧ m.minFrames ≤ m.maxFrames
  inputPorts : m.active = true → m.inputPorts = Plugin.declaredPorts impl s true
  outputPorts : m.active = true → m.outputPorts = Plugin.declaredPorts impl s false
  params : m.active = true → m.params = Plugin.declaredParams impl

section Keeping

variable {impl : PluginImpl D S σ}

theorem snapshot_tracked {m : ContractMonitor} {s : σ} :
    Snapshot impl m.tracked s ↔ Snapshot impl m s :=
  ⟨fun h => ⟨h.1, h.2, h.3, h.4, h.5, h.6, h.7⟩, fun h => ⟨h.1, h.2, h.3, h.4, h.5, h.6, h.7⟩⟩

/-- The snapshot speaks of the flavor's state through the declared ports only. -/
theorem Snapshot.samePorts {m : ContractMonitor} {s s' : σ} (h : Snapshot impl m s)
    (hp : m.active = true → SamePorts impl s s') : Snapshot impl m s' :=
  ⟨h.processing_active, h.beingActivated, h.inProcess, h.bounds,
    fun ha => (h.inputPorts ha).trans (hp ha true).symm,
    fun ha => (h.outputPorts ha).trans (hp ha false).symm, h.params⟩

/-- An inactive, idle monitor promises nothing about the caches. -/
theorem snapshot_of_inactive {m : ContractMonitor} (ha : m.active = false)
    (hp : m.processing = false) (hb : m.beingActivated = false) (hi : m.inProcess = false)
    (s : σ) : Snapshot impl m s := by
  have hno : ∀ P : Prop, m.active = true → P := by
    intro P h
    rw [ha] at h
    cases h
  refine ⟨fun h => ?_, hb, hi, hno _, hno _, hno _, hno _⟩
  rw [hp] at h
  cases h

/-- A change that leaves the flags, bounds and caches alone. -/
theorem Snapshot.of_eq {m m' : ContractMonitor} {s : σ} (h : Snapshot impl m s)
    (ha : m'.active = m.active) (hp : m'.processing = m.processing)
    (hb : m'.beingActivated = false) (hi : m'.inProcess = false)
    (hlo : m'.minFrames = m.minFrames) (hhi : m'.maxFrames = m.maxFrames)
    (hin : m'.inputPorts = m.inputPorts) (hout : m'.outputPorts = m.outputPorts)
    (hpar : m'.params = m.params) : Snapshot impl m' s := by
  refine ⟨?_, hb, hi, ?_, ?_, ?_, ?_⟩
  · rw [ha, hp]; exact h.processing_active
  · rw [ha, hlo, hhi]; exact h.bounds
  · rw [ha, hin]; exact h.inputPorts
  · rw [ha, hout]; exact h.outputPorts
  · rw [ha, hpar]; exact h.params

/-- What a call makes of the monitor keeps the snapshot, with the ports as they are behind it. -/
theorem Snapshot.after {m : ContractMonitor} {s : σ} (h : Snapshot impl m s) (call : Call D S)
    (made : Bool) : Snapshot impl (call.after impl s made m) s := by
  cases call with
  | init earlyLog => exact h.of_eq rfl rfl h.beingActivated h.inProcess rfl rfl rfl rfl rfl
  | activate sampleRate minFrames maxFrames =>
    dsimp only [Call.after]
    split
    · exact h
    · refine ⟨fun _ => rfl, rfl, h.inProcess, fun _ => ?_, fun _ => rfl, fun _ => rfl,
        fun _ => rfl⟩
      exact ⟨le_max_right _ _, le_max_right _ _⟩
  | deactivate =>
    dsimp only [Call.after]
    split
    · exact ⟨nofun, h.beingActivated, h.inProcess, nofun, nofun, nofun, nofun⟩
    · exact h
  | startProcessing =>
    dsimp only [Call.after]
    split
    · rename_i hready
      exact ⟨fun _ => (Bool.and_eq_true_iff.mp hready).1, h.beingActivated, h.inProcess, h.bounds,
        h.inputPorts, h.outputPorts, h.params⟩
    · exact h
  | stopProcessing =>
    exact ⟨nofun, h.beingActivated, h.inProcess, h.bounds, h.inputPorts, h.outputPorts, h.params⟩
  | process block memory =>
    obtain ⟨valid, steadyEnd, hreb⟩ := Plugin.rebased_eq block m
    dsimp only [Call.after]
    split
    · exact h
    · split
      · rw [hreb]
        exact h.of_eq rfl rfl h.beingActivated rfl rfl rfl rfl rfl rfl
      · exact h
  | reset => exact h.of_eq rfl rfl h.beingActivated h.inProcess rfl rfl rfl rfl rfl
  | onMainThread => exact h.of_eq rfl rfl h.beingActivated h.inProcess rfl rfl rfl rfl rfl
  | guiCreate api isFloating native =>
    dsimp only [Call.after]
    split
    · exact h.of_eq rfl rfl h.beingActivated h.inProcess rfl rfl rfl rfl rfl
    · exact h
  | guiDestroy => exact h.of_eq rfl rfl h.beingActivated h.inProcess rfl rfl rfl rfl rfl
  | _ => exact h

end Keeping

namespace Plugin

variable {impl : PluginImpl D S σ} {p : Plugin D σ}

theorem snapshot_create [DoubleOps D] (host : Option Host) :
    Snapshot impl (create impl host).contract (create impl host).self :=
  snapshot_of_inactive rfl rfl rfl rfl _

/-- Every call a host can make keeps the snapshot, in any order and whether legal or not. -/
theorem snapshot_call [DoubleOps D] (ht : Tame impl) (h : Snapshot impl p.contract p.self)
    (thread : ThreadId) (call : Call D S) :
    Yields (Plugin.call impl p thread call) fun r =>
      ∀ q, r.1 = .alive q → Snapshot impl q.contract q.self := by
  refine (call_moves ht thread call).mono fun r hr q hq => ?_
  obtain ⟨made, asked, hmoves⟩ := hr.moves q hq
  have hafter := (snapshot_tracked.mpr (h.samePorts hmoves.ports)).after call made
  rw [← snapshot_tracked, hmoves.tracked]
  exact hafter.of_eq rfl rfl hafter.beingActivated hafter.inProcess rfl rfl rfl rfl rfl

end Plugin

/-! ## Runs -/

section Runs

variable [DoubleOps D]

theorem hostStep_snapshot {impl : PluginImpl D S σ} (ht : Tame impl) (i : Instance D σ)
    (l : ThreadId × Call D S) (i' : Instance D σ) (o : Reply D S)
    (h : ∀ p, i = .alive p → Snapshot impl p.contract p.self)
    (hs : hostStep impl i l = .ok (i', o)) :
    ∀ p, i' = .alive p → Snapshot impl p.contract p.self := by
  obtain ⟨p, rfl, hcall, -⟩ := hostStep_ok hs
  have h0 : Snapshot impl { p with hostCalls := [] }.contract { p with hostCalls := [] }.self :=
    h p rfl
  exact Plugin.snapshot_call ht h0 l.1 l.2 _ hcall

variable [FloatOps S] [FloatCast D S] [DoubleBits D]

/-- In every flavor, behind every sequence of calls. -/
theorem snapshot_of_reachable {flavor : Flavor} {p : Plugin D (flavor.State D S)}
    (h : flavor.Reachable p) :
    Snapshot (flavor.impl : PluginImpl D S _) p.contract p.self := by
  obtain ⟨host, hr⟩ := h
  refine hr.invariant (P := fun i => ∀ p, i = .alive p →
    Snapshot (flavor.impl : PluginImpl D S _) p.contract p.self) ?_
    (fun i l i' o => hostStep_snapshot flavor.tame i l i' o) p rfl
  rintro _ ⟨⟩
  exact Plugin.snapshot_create host

/-- Behind every sequence of calls: processing implies active, the transient flags are down,
    and an active plugin has sane frame bounds and caches that match what its flavor answers
    now. -/
theorem activation_snapshot {flavor : Flavor} {p : Plugin D (flavor.State D S)}
    (h : flavor.Reachable p) :
    (p.contract.processing = true → p.contract.active = true) ∧
    p.contract.beingActivated = false ∧ p.contract.inProcess = false ∧
    (p.contract.active = true →
      (1 ≤ p.contract.minFrames ∧ p.contract.minFrames ≤ p.contract.maxFrames) ∧
      p.contract.inputPorts = Plugin.declaredPorts (flavor.impl : PluginImpl D S _) p.self true ∧
      p.contract.outputPorts = Plugin.declaredPorts (flavor.impl : PluginImpl D S _) p.self false ∧
      p.contract.params = Plugin.declaredParams (flavor.impl : PluginImpl D S _)) := by
  have hs := snapshot_of_reachable h
  refine ⟨hs.processing_active, hs.beingActivated, hs.inProcess, fun ha => ?_⟩
  exact ⟨hs.bounds ha, hs.inputPorts ha, hs.outputPorts ha, hs.params ha⟩

end Runs

/-- MultiOut FX behind `audio_ports_config.select(Multi Out)` and `activate()`. -/
def activatedMultiOutFx : Plugin ExactFloat (MultiOutFxPlugin.State ExactFloat) :=
  let p := (Flavor.instantiate ExactFloat .multiOutFx none).assertMainThread 0 "sSelect"
  let p := p.absorb (MultiOutFxPlugin.audioPortsConfigSelect p.base p.self kConfigMultiOut)
  (p.sActivate (MultiOutFxPlugin.impl : PluginImpl ExactFloat ExactFloat _) 0 48000 1 512).1

theorem activation_snapshot_multiOutFx :
    activatedMultiOutFx.contract.outputPorts =
      Plugin.declaredPorts (MultiOutFxPlugin.impl : PluginImpl ExactFloat ExactFloat _)
        activatedMultiOutFx.self false ∧
    activatedMultiOutFx.contract.outputPorts.length = 3 := by
  have hr : Flavor.Reachable (S := ExactFloat) .multiOutFx activatedMultiOutFx := by
    refine ⟨none, Machine.Reachable.tail (Machine.Reachable.tail (Machine.Reachable.refl _)
      (l := (0, .audioPortsConfigSelect kConfigMultiOut)) rfl)
      (l := (0, .activate 48000 1 512)) rfl⟩
  exact ⟨((activation_snapshot hr).2.2.2 rfl).2.2.1, rfl⟩

end Cvp
