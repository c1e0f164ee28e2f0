/-
  What a call does to what later calls are judged by: the thread checker, whether the instance is
  initialized and active, the param table and the steady-time baseline. `call_effects` says it once
  for every call of every tame flavor. The first `init()` alone sets the thread checker up;
  `activate()` alone fills the table, and nothing ever empties it.
-/
import ClapValidatorPlugins.Contract.Snapshot

namespace Cvp

variable {D S σ : Type}

namespace Call

/-- Whether `init()` has been called behind the call. -/
def initializedAfter (call : Call D S) (m : ContractMonitor) : Bool :=
  match call with
  | .init _ => true
  | _ => m.initialized

/-- Whether the instance is active behind the call. -/
def activeAfter (call : Call D S) (m : ContractMonitor) : Bool :=
  match call with
  | .activate _ _ _ => true
  | .deactivate => false
  | _ => m.active

/-- The param table behind the call. -/
def paramsAfter (call : Call D S) (impl : PluginImpl D S σ) (m : ContractMonitor) :
    List ParamRecord :=
  match call with
  | .activate _ _ _ => if m.active then m.params else Plugin.declaredParams impl
  | _ => m.params

/-- The steady-time baseline behind the call: valid or not, and the end. -/
def steadyAfter (call : Call D S) (m : ContractMonitor) : Bool × Int :=
  match call with
  | .reset => (false, m.steadyEnd)
  | .startProcessing =>
    (if m.active && !m.processing then false else m.steadyValid, m.steadyEnd)
  | .process block _ =>
    if m.active && m.processing then
      ((Plugin.rebased block m).steadyValid, (Plugin.rebased block m).steadyEnd)
    else (m.steadyValid, m.steadyEnd)
  | _ => (m.steadyValid, m.steadyEnd)

theorem steadyAfter_tracked (call : Call D S) (m : ContractMonitor) :
    call.steadyAfter m.tracked = call.steadyAfter m := by
  cases call with
  | process block memory =>
    dsimp only [steadyAfter]
    rw [← Plugin.rebased_tracked]
    rfl
  | _ => rfl

end Call

/-- All of it, from the instance `p` to the instance `q`. -/
structure CallEffects (impl : PluginImpl D S σ) (thread : ThreadId) (call : Call D S)
    (p q : Plugin D σ) : Prop where
  host : q.host = p.host
  threads : q.threads = call.threadsAfter thread p
  initialized : q.contract.initialized = call.initializedAfter p.contract
  active : q.contract.active = call.activeAfter p.contract
  params : q.contract.params = call.paramsAfter impl p.contract
  steady : (q.contract.steadyValid, q.contract.steadyEnd) = call.steadyAfter p.contract

namespace Plugin

variable {impl : PluginImpl D S σ} {p q : Plugin D σ} {thread : ThreadId} {call : Call D S}

/-- What a call makes of the monitor `m`, given that it makes `m'` of it. -/
structure MonitorEffects (impl : PluginImpl D S σ) (call : Call D S) (m m' : ContractMonitor) :
    Prop where
  initialized : m'.initialized = call.initializedAfter m
  active : m'.active = call.activeAfter m
  params : m'.params = call.paramsAfter impl m
  steady : (m'.steadyValid, m'.steadyEnd) = call.steadyAfter m

theorem after_effects {m : ContractMonitor} (hi : m.inProcess = false) (call : Call D S) (s : σ)
    (made : Bool) : MonitorEffects impl call m (call.after impl s made m) := by
  cases call with
  | activate sampleRate minFrames maxFrames =>
    dsimp only [Call.after]
    split
    · rename_i hactive
      exact ⟨rfl, hactive, (if_pos hactive).symm, rfl⟩
    · rename_i hinactive
      exact ⟨rfl, rfl, (if_neg hinactive).symm, rfl⟩
  | deactivate =>
    dsimp only [Call.after]
    split
    · exact ⟨rfl, rfl, rfl, rfl⟩
    · rename_i hinactive
      exact ⟨rfl, Bool.not_eq_true _ ▸ hinactive, rfl, rfl⟩
  | startProcessing =>
    dsimp only [Call.after]
    split
    · rename_i hstarts
      exact ⟨rfl, rfl, rfl, by simp [Call.steadyAfter, hstarts]⟩
    · rename_i hstays
      exact ⟨rfl, rfl, rfl, by simp [Call.steadyAfter, hstays]⟩
  | process block memory =>
    dsimp only [Call.after]
    rw [hi, if_neg Bool.false_ne_true]
    split
    · rename_i hready
      obtain ⟨valid, steadyEnd, hreb⟩ := rebased_eq block m
      refine ⟨?_, ?_, ?_, by simp [Call.steadyAfter, hready]⟩
      all_goals
        rw [hreb]
        rfl
    · rename_i hidle
      exact ⟨rfl, rfl, rfl, by simp [Call.steadyAfter, hidle]⟩
  | guiCreate api isFloating native =>
    dsimp only [Call.after]
    split <;> exact ⟨rfl, rfl, rfl, rfl⟩
  | _ => exact ⟨rfl, rfl, rfl, rfl⟩

/-- Every call a host can make. -/
theorem call_effects [DoubleOps D] (ht : Tame impl) (hi : p.contract.inProcess = false)
    (thread : ThreadId) (call : Call D S) :
    Yields (Plugin.call impl p thread call) fun r =>
      ∀ q, r.1 = .alive q → CallEffects impl thread call p q := by
  refine (call_moves ht thread call).mono fun r hr q hq => ?_
  obtain ⟨made, asked, hmoves⟩ := hr.moves q hq
  have hafter : MonitorEffects impl call p.contract.tracked
      (call.after impl q.self made p.contract.tracked) :=
    after_effects (m := p.contract.tracked) hi call q.self made
  have hbehind : MonitorEffects impl call p.contract.tracked q.contract.tracked := by
    rw [hmoves.tracked]
    exact ⟨hafter.initialized, hafter.active, hafter.params, hafter.steady⟩
  exact ⟨hmoves.host, hmoves.threads, hbehind.initialized, hbehind.active, hbehind.params,
    hbehind.steady.trans (call.steadyAfter_tracked p.contract)⟩

/-- The same for a step of the host. -/
theorem hostStep_effects [DoubleOps D] (ht : Tame impl) {l : ThreadId × Call D S}
    {o : Reply D S} (hi : p.contract.inProcess = false)
    (h : hostStep impl (.alive p) l = .ok (.alive q, o)) : CallEffects impl l.1 l.2 p q := by
  have hcall := hostStep_call h
  have he := call_effects (p := { p with hostCalls := [] }) ht hi l.1 l.2 _ hcall q rfl
  exact ⟨he.host, he.threads.trans (by cases l.2 <;> rfl), he.initialized, he.active, he.params,
    he.steady⟩

end Plugin

end Cvp
