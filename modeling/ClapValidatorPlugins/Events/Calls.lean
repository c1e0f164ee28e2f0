/-
  The same question one level up: `process()` as the host calls it. On an active, processing
  instance the wrapper decides from the port buffers alone whether the flavor sees a block, so a
  call with an event and the call without it go the same way (`sameReply_iff`).
-/
import ClapValidatorPlugins.Contract.BufferGate
import ClapValidatorPlugins.Events.Skipping

namespace Cvp

/-! ## What the wrapper hands over -/

namespace Plugin

variable {D S σ : Type}

theorem assertAudioThread_base (p : Plugin D σ) (thread : ThreadId) (function : String) :
    (p.assertAudioThread thread function).base = p.base := by
  have hactive := (moves_assertAudioThread p thread function).active
  unfold base
  rw [hactive]
  rfl

theorem logFirstProcess_base (p : Plugin D σ) (framesCount : UInt32) :
    (p.logFirstProcess framesCount).base = p.base := by
  unfold logFirstProcess
  split <;> rfl

/-- The gate asks nothing of the flavor and leaves alone what the flavor can ask. -/
theorem processGate_keeps (p : Plugin D σ) (thread : ThreadId) (block : ProcessBlock D) :
    (p.processGate thread block).2.base = p.base ∧
      (p.processGate thread block).2.self = p.self := by
  have hbase := p.assertAudioThread_base thread "sProcess"
  let p₂ : Plugin D σ := { p.assertAudioThread thread "sProcess" with
    contract := { (p.assertAudioThread thread "sProcess").contract with inProcess := true } }
  have hfirst : (p₂.logFirstProcess block.framesCount).base = p.base :=
    (logFirstProcess_base p₂ block.framesCount).trans hbase
  have hself : (p₂.logFirstProcess block.framesCount).self = p.self :=
    (moves_logFirstProcess p₂ block.framesCount).2
  have hchecked : ∀ q : Plugin D σ,
      ({ q with contract := (checkProcessContracts q.contract block).2 } : Plugin D σ).base =
        q.base := by
    intro q
    unfold checkProcessContracts ContractMonitor.checkSteadyTime base
    split <;> rfl
  unfold processGate
  dsimp only
  split
  · exact ⟨hbase, rfl⟩
  · split
    · exact ⟨hbase, rfl⟩
    · split
      · exact ⟨(hchecked _).trans hfirst, hself⟩
      · exact ⟨(hchecked _).trans hfirst, hself⟩

end Plugin

/-! ## Replies -/

namespace Flavor

variable {D S : Type} [DoubleOps D] [FloatOps S] [FloatCast D S] [DoubleBits D]

/-- Two `process()` calls behind which the flavor looks the same and that pushed the same
    events, or that ended in the same fault. -/
def SameReply (flavor : Flavor)
    (x y : Exec (Plugin D (flavor.State D S) × Plugin.ProcessReply D S)) : Prop :=
  match x, y with
  | .ok (p, reply), .ok (q, reply') =>
    flavor.view p.self = flavor.view q.self ∧ reply.pushed = reply'.pushed
  | .error fault, .error fault' => fault = fault'
  | _, _ => False

variable {flavor : Flavor} {p : Plugin D (flavor.State D S)}

/-- The call on an active, processing instance. -/
theorem sProcess_eq (hr : flavor.Reachable p) (hp : p.contract.processing = true)
    (thread : ThreadId) (block : ProcessBlock D) (memory : AudioMemory D S) :
    ∃ q : Plugin D (flavor.State D S), q.self = p.self ∧
      p.sProcess (flavor.impl : PluginImpl D S _) thread block memory =
        if (checkPorts p.contract block).1 then
          match (flavor.impl : PluginImpl D S _).process p.base p.self block memory with
          | .error fault => .error fault
          | .ok (out, memory) =>
            .ok ((q.absorb out).leaveProcess,
              { status := out.value, pushed := out.pushed, memory := memory })
        else .ok (q, { status := .error, memory := memory }) := by
  obtain ⟨hbase, hself⟩ := p.processGate_keeps thread block
  have hgate := processGate_fst (snapshot_of_reachable hr) hp thread block
  have hpair : p.processGate thread block =
      (if (checkPorts p.contract block).1 then .forward else .reject,
        (p.processGate thread block).2) := Prod.ext hgate rfl
  generalize (p.processGate thread block).2 = q at hbase hself hpair
  refine ⟨q, hself, ?_⟩
  unfold Plugin.sProcess
  rw [hpair, ← hbase, ← hself]
  cases (checkPorts p.contract block).1 with
  | false => rfl
  | true =>
    rw [if_pos rfl, if_pos rfl]
    dsimp only
    cases (flavor.impl : PluginImpl D S _).process q.base q.self block memory with
    | error fault => rfl
    | ok r => rfl

/-- With the same buffers the two calls go the same way; where the flavor is reached, they look
    the same exactly if its two `process` results do. -/
theorem sameReply_iff (hr : flavor.Reachable p) (hp : p.contract.processing = true)
    (thread : ThreadId) (block : ProcessBlock D) (events events' : List (Option (Event D)))
    (memory : AudioMemory D S) :
    flavor.SameReply
        (p.sProcess (flavor.impl : PluginImpl D S _) thread (block.withEvents events) memory)
        (p.sProcess (flavor.impl : PluginImpl D S _) thread (block.withEvents events') memory) ↔
      ((checkPorts p.contract block).1 = true →
        flavor.SameOutcome
          ((flavor.impl : PluginImpl D S _).process p.base p.self (block.withEvents events) memory)
          ((flavor.impl : PluginImpl D S _).process p.base p.self (block.withEvents events')
            memory)) := by
  obtain ⟨q, hq, heq⟩ := sProcess_eq hr hp thread (block.withEvents events) memory
  obtain ⟨q', hq', heq'⟩ := sProcess_eq hr hp thread (block.withEvents events') memory
  have hports : ∀ events, (checkPorts p.contract (block.withEvents events)).1 =
      (checkPorts p.contract block).1 := fun _ => rfl
  rw [heq, heq', hports, hports]
  cases (checkPorts p.contract block).1 with
  | false =>
    refine ⟨fun _ => nofun, fun _ => ⟨?_, rfl⟩⟩
    rw [hq, hq']
  | true =>
    rw [if_pos rfl, if_pos rfl]
    refine Iff.trans ?_ ⟨fun h _ => h, fun h => h rfl⟩
    rcases (flavor.impl : PluginImpl D S _).process p.base p.self (block.withEvents events)
        memory with fault | ⟨out, m⟩
    · rcases (flavor.impl : PluginImpl D S _).process p.base p.self (block.withEvents events')
          memory with fault' | ⟨out', m'⟩
      · exact Iff.rfl
      · exact Iff.rfl
    · rcases (flavor.impl : PluginImpl D S _).process p.base p.self (block.withEvents events')
          memory with fault' | ⟨out', m'⟩
      · exact Iff.rfl
      · show (flavor.view (q.absorb out).self = flavor.view (q'.absorb out').self ∧ _) ↔ _
        rw [Plugin.absorb_self, Plugin.absorb_self]
        exact Iff.rfl

/-! ## Skipped events -/

/-- `e` makes no difference to any `process()` call of an active, processing instance, at any
    place `allowed` admits in its event list. -/
def Skipped (S : Type) [FloatOps S] [FloatCast D S] (flavor : Flavor) (e : Event D)
    (allowed : Nat → List (Option (Event D)) → List (Option (Event D)) → Prop) : Prop :=
  ∀ p : Plugin D (flavor.State D S), flavor.Reachable p →
    p.contract.active = true ∧ p.contract.processing = true →
    ∀ thread (block : ProcessBlock D) memory front back,
      allowed block.framesCount.toNat front back →
      flavor.SameReply
        (p.sProcess (flavor.impl : PluginImpl D S _) thread
          (block.withEvents (front ++ some e :: back)) memory)
        (p.sProcess (flavor.impl : PluginImpl D S _) thread (block.withEvents (front ++ back))
          memory)

theorem skipped_of_ignored {e : Event D} (h : flavor.actsOn e = false)
    {allowed : Nat → List (Option (Event D)) → List (Option (Event D)) → Prop}
    (hsplit : ∀ frames front back, allowed frames front back → flavor.rendersChunks = true →
      SplitHarmless flavor.actsOn frames front back e) :
    Skipped S flavor e allowed := by
  intro p hr hp thread block memory front back hallowed
  rw [sameReply_iff hr hp.2]
  exact fun _ => flavor.process_without p.base p.self block memory h (hsplit _ _ _ hallowed)

end Flavor

end Cvp
