/-
  What a call does to an instance of a tame flavor, said once for every call a host can make:
  `call_moves`. The findings it counts and what becomes of the rest of the monitor are functions of
  the call and of the instance before it; what is left to the flavor are its own state, whether it
  made a gui, and how often it asked for a callback.
-/
import ClapValidatorPlugins.Contract.ExtensionCalls

namespace Cvp

variable {D S σ : Type}

open Plugin (codeIf badBounds clampBounds blockCodes activated rebased)

namespace Call

/-- The thread checker behind the call, made from thread `thread`. -/
def threadsAfter (call : Call D S) (thread : ThreadId) (p : Plugin D σ) : ThreadChecker :=
  match call with
  | .init _ =>
    if p.contract.initialized then p.threads else p.threads.onInit p.host thread
  | _ => p.threads

/-- What the call is reported for. -/
def codes (call : Call D S) (impl : PluginImpl D S σ) (thread : ThreadId) (p : Plugin D σ) :
    List Violation :=
  match call with
  | .init _ => p.mainCodes thread ++ codeIf p.contract.initialized .L02
  | .destroy => p.mainCodes thread ++ codeIf p.contract.active .L06
  | .activate _ minFrames maxFrames =>
    p.mainCodes thread ++
      if p.contract.active then [.L03] else codeIf (badBounds minFrames maxFrames) .L13
  | .deactivate =>
    p.mainCodes thread ++
      if p.contract.active then codeIf p.contract.processing .L05 else [.L04]
  | .startProcessing =>
    p.audioCodes thread ++ codeIf (!p.contract.active || p.contract.processing) .L07
  | .stopProcessing =>
    p.audioCodes thread ++ codeIf (!p.contract.active) .L08 ++ codeIf (!p.contract.processing) .L08
  | .reset => p.audioCodes thread ++ codeIf (!p.contract.active) .L10
  | .process block _ =>
    p.audioCodes thread ++
      if p.contract.inProcess then [.L12]
      else if p.contract.active && p.contract.processing then blockCodes p.contract block
      else [.L09]
  | .onMainThread =>
    p.mainCodes thread ++ codeIf (!decide (0 < p.contract.pendingCallbacks)) .L11
  | .guiCreate .. => p.mainCodes thread ++ codeIf p.contract.guiCreated .G02
  | .guiDestroy => p.mainCodes thread ++ codeIf (!p.contract.guiCreated) .G03
  | call => Plugin.plainCodes impl p thread call

/-- The monitor `m` behind the call, but for its findings and the callbacks asked for meanwhile:
    `s` is the flavor's state then, `made` whether it made a gui. -/
def after (call : Call D S) (impl : PluginImpl D S σ) (s : σ) (made : Bool)
    (m : ContractMonitor) : ContractMonitor :=
  match call with
  | .init _ => { m with initialized := true }
  | .activate _ minFrames maxFrames =>
    if m.active then m else activated impl s (clampBounds minFrames maxFrames) m
  | .deactivate => if m.active then { m with processing := false, active := false } else m
  | .startProcessing =>
    if m.active && !m.processing then { m with processing := true, steadyValid := false } else m
  | .stopProcessing => { m with processing := false }
  | .reset => { m with steadyValid := false }
  | .process block _ =>
    if m.inProcess then m
    else if m.active && m.processing then { rebased block m with inProcess := false }
    else m
  | .onMainThread => { m with pendingCallbacks := 0 }
  | .guiCreate _ isFloating _ => if made then m.setGuiCreated true isFloating else m
  | .guiDestroy => m.setGuiCreated false false
  | _ => m

end Call

/-- From the instance `p` to the instance `q`. -/
structure CallMoves (impl : PluginImpl D S σ) (thread : ThreadId) (call : Call D S)
    (p q : Plugin D σ) (made : Bool) (asked : Nat) : Prop where
  host : q.host = p.host
  threads : q.threads = call.threadsAfter thread p
  tracked : q.contract.tracked =
    (call.after impl q.self made p.contract.tracked).addCallbacks asked
  asks : q.callbackCalls = p.callbackCalls + asked
  ports : p.contract.active = true → SamePorts impl p.self q.self

/-- The findings are counted unless the call takes them back; `destroy()` leaves the rest of the
    monitor as it was. -/
structure Called (impl : PluginImpl D S σ) (thread : ThreadId) (call : Call D S) (p : Plugin D σ)
    (i : Instance D σ) : Prop where
  counts : call ≠ .violationsClear →
    Counted p.contract.findings i.contract.findings (call.codes impl thread p)
  moves : ∀ q, i = .alive q → ∃ made asked, CallMoves impl thread call p q made asked
  ends : ∀ contract, i = .deleted contract → contract.tracked = p.contract.tracked

namespace Plugin

variable {impl : PluginImpl D S σ} {p : Plugin D σ} {thread : ThreadId} {call : Call D S}

theorem called_of_steps {q : Plugin D σ} {vs : List Violation}
    {f : ContractMonitor → ContractMonitor} (made : Bool) (h : Steps impl p q vs f)
    (hcodes : call.codes impl thread p = vs)
    (hafter : call.after impl q.self made p.contract.tracked = f p.contract.tracked)
    (hthreads : p.threads = call.threadsAfter thread p) :
    Called impl thread call p (.alive q) := by
  refine ⟨fun _ => hcodes ▸ h.counts, ?_, fun _ h => nomatch h⟩
  rintro _ ⟨⟩
  refine ⟨made, 0, h.host, h.threads.trans hthreads, ?_, h.unasked, h.ports⟩
  rw [ContractMonitor.addCallbacks_zero, hafter]
  exact h.tracked

theorem called_sInit (ht : Tame impl) (thread : ThreadId) (earlyLog : List LogLine) :
    Called impl thread (.init earlyLog) p (.alive (p.sInit impl thread earlyLog).1) := by
  cases hi : p.contract.initialized with
  | true =>
    refine called_of_steps false (sInit_again hi thread earlyLog).1.steps ?_ ?_ (if_pos hi).symm
    · show _ ++ codeIf p.contract.initialized .L02 = _
      rw [hi]
      rfl
    · show { p.contract.tracked with initialized := true } = p.contract.tracked
      rw [← hi]
      rfl
  | false =>
    have hno : ¬ p.contract.initialized = true := by simp [hi]
    obtain ⟨n, -, hshift, hasks, hports, -⟩ := sInit_first ht hi thread earlyLog
    refine ⟨fun _ => ?_, ?_, fun _ h => nomatch h⟩
    · show Counted _ _ (_ ++ codeIf p.contract.initialized .L02)
      rw [hi, codeIf_false, List.append_nil]
      exact hshift.counts
    · rintro _ ⟨⟩
      exact ⟨false, n, hshift.host, hshift.threads.trans (if_neg hno).symm, hshift.tracked, hasks,
        fun _ => hports⟩

theorem called_sDestroy (thread : ThreadId) :
    Called impl thread (.destroy : Call D S) p (.deleted (p.sDestroy thread).contract) := by
  have hshift := sDestroy_shifts p thread
  refine ⟨fun _ => hshift.counts, fun q hq => absurd hq (Instance.deleted_ne_alive _ q), ?_⟩
  rintro _ ⟨⟩
  exact hshift.tracked

theorem called_sActivate [DoubleOps D] (ht : Tame impl) (thread : ThreadId) (sampleRate : D)
    (minFrames maxFrames : Nat) :
    Called impl thread (.activate sampleRate minFrames maxFrames) p
      (.alive (p.sActivate impl thread sampleRate minFrames maxFrames).1) := by
  cases ha : p.contract.active with
  | true =>
    exact called_of_steps false
      (sActivate_active ha thread sampleRate minFrames maxFrames).1.steps
      (congrArg _ (if_pos ha)) (if_pos ha) rfl
  | false =>
    have hno : ¬ p.contract.active = true := by simp [ha]
    exact called_of_steps false
      (sActivate_inactive ht ha thread sampleRate minFrames maxFrames).1
      (congrArg _ (if_neg hno)) (if_neg hno) rfl

theorem called_sDeactivate (ht : Tame impl) (thread : ThreadId) :
    Called impl thread (.deactivate : Call D S) p (.alive (p.sDeactivate impl thread)) := by
  cases ha : p.contract.active with
  | true =>
    exact called_of_steps false (sDeactivate_active ht ha thread) (congrArg _ (if_pos ha))
      (if_pos ha) rfl
  | false =>
    have hno : ¬ p.contract.active = true := by simp [ha]
    exact called_of_steps false (sDeactivate_inactive ha thread).steps (congrArg _ (if_neg hno))
      (if_neg hno) rfl

theorem called_sStartProcessing (ht : Tame impl) (thread : ThreadId) :
    Called impl thread (.startProcessing : Call D S) p
      (.alive (p.sStartProcessing impl thread).1) := by
  have hcode : ∀ {a b : Bool}, p.contract.active = a → p.contract.processing = b →
      (.startProcessing : Call D S).codes impl thread p = p.audioCodes thread ++
        codeIf (!a || b) .L07 := by
    rintro _ _ rfl rfl
    rfl
  have hafter : ∀ (s : σ) {a b : Bool}, p.contract.active = a → p.contract.processing = b →
      (.startProcessing : Call D S).after impl s false p.contract.tracked =
        if a && !b then { p.contract.tracked with processing := true, steadyValid := false }
        else p.contract.tracked := by
    rintro s _ _ rfl rfl
    rfl
  cases ha : p.contract.active with
  | false =>
    exact called_of_steps false (sStartProcessing_inactive ha thread).1.steps (hcode ha rfl)
      (hafter _ ha rfl) rfl
  | true =>
    cases hp : p.contract.processing with
    | true =>
      exact called_of_steps false (sStartProcessing_processing ha hp thread).1.steps (hcode ha hp)
        (hafter _ ha hp) rfl
    | false =>
      exact called_of_steps false (sStartProcessing_active ht ha hp thread).1
        ((hcode ha hp).trans (List.append_nil _)) (hafter _ ha hp) rfl

theorem called_sStopProcessing (ht : Tame impl) (thread : ThreadId) :
    Called impl thread (.stopProcessing : Call D S) p
      (.alive (p.sStopProcessing impl thread)) := by
  have hcode : ∀ {b : Bool}, p.contract.processing = b →
      (.stopProcessing : Call D S).codes impl thread p = p.audioCodes thread ++
        codeIf (!p.contract.active) .L08 ++ codeIf (!b) .L08 := by
    rintro _ rfl
    rfl
  cases hp : p.contract.processing with
  | false =>
    refine called_of_steps false (sStopProcessing_idle hp thread).steps (hcode hp) ?_ rfl
    show { p.contract.tracked with processing := false } = p.contract.tracked
    rw [← hp]
    rfl
  | true =>
    exact called_of_steps false (sStopProcessing_processing ht hp thread)
      ((hcode hp).trans (List.append_nil _)) rfl rfl

/-- A block that overlaps another one. -/
theorem sProcess_busy (h : p.contract.inProcess = true) (thread : ThreadId)
    (block : ProcessBlock D) (memory : AudioMemory D S) :
    ∃ q, p.sProcess impl thread block memory = .ok (q, { status := .error, memory := memory }) ∧
      Refuses p q (p.audioCodes thread ++ [.L12]) := by
  obtain ⟨hgate, hmoves, hself⟩ := processGate_busy h thread block
  refine ⟨(p.processGate thread block).2, ?_, hmoves, hself⟩
  unfold sProcess
  rw [show p.processGate thread block = (.reject, (p.processGate thread block).2) from
    Prod.ext hgate rfl]

theorem called_sProcess (ht : Tame impl) (thread : ThreadId) (block : ProcessBlock D)
    (memory : AudioMemory D S) :
    Yields (p.sProcess impl thread block memory) fun r =>
      Called impl thread (.process block memory) p (.alive r.1) := by
  cases hi : p.contract.inProcess with
  | true =>
    obtain ⟨q, hq, hrefuses⟩ := @sProcess_busy _ _ _ impl _ hi thread block memory
    rw [hq]
    exact Yields.of_ok (called_of_steps false hrefuses.steps (congrArg _ (if_pos hi)) (if_pos hi)
      rfl)
  | false =>
    have hidle : ¬ p.contract.inProcess = true := by simp [hi]
    cases hr : p.contract.active && p.contract.processing with
    | false =>
      have hno : ¬ (p.contract.active && p.contract.processing) = true := by simp [hr]
      obtain ⟨q, hq, hrefuses⟩ := @sProcess_notReady _ _ _ impl _ hi hr thread block memory
      rw [hq]
      exact Yields.of_ok (called_of_steps false hrefuses.steps
        (congrArg _ ((if_neg hidle).trans (if_neg hno))) ((if_neg hidle).trans (if_neg hno)) rfl)
    | true =>
      refine (sProcess_ready ht hi hr thread block memory).mono fun r hsteps => ?_
      exact called_of_steps false hsteps (congrArg _ ((if_neg hidle).trans (if_pos hr)))
        ((if_neg hidle).trans (if_pos hr)) rfl

theorem called_guiCreate (ht : Tame impl) (thread : ThreadId) (api : Option String)
    (isFloating : Bool) (native : NativeAnswer) :
    Yields (Gui.sCreate impl p thread api isFloating native) fun r =>
      Called impl thread (.guiCreate api isFloating native : Call D S) p (.alive r.1) := by
  have hcode : ∀ {b : Bool}, p.contract.guiCreated = b →
      (.guiCreate api isFloating native : Call D S).codes impl thread p =
        p.mainCodes thread ++ codeIf b .G02 := by
    rintro _ rfl
    rfl
  cases hg : p.contract.guiCreated with
  | true =>
    obtain ⟨q, hq, hsteps⟩ := @guiCreate_again _ _ _ impl _ hg thread api isFloating native
    rw [hq]
    exact Yields.of_ok (called_of_steps false hsteps (hcode hg) rfl rfl)
  | false =>
    refine (guiCreate_first ht hg thread api isFloating native).mono fun r hsteps => ?_
    exact called_of_steps r.2 hsteps ((hcode hg).trans (List.append_nil _)) rfl rfl

/-- Every call a host can make. -/
theorem call_moves [DoubleOps D] (ht : Tame impl) (thread : ThreadId) (call : Call D S) :
    Yields (Plugin.call impl p thread call) fun r => Called impl thread call p r.1 := by
  by_cases hplain : call.isPlain = true
  · refine (call_plain ht thread hplain).mono fun r hr => ?_
    obtain ⟨q, hq, hsteps⟩ := hr
    rw [hq]
    cases call <;> first | exact called_of_steps false hsteps rfl rfl rfl | cases hplain
  · cases call with
    | init earlyLog => exact Yields.of_ok (called_sInit ht thread earlyLog)
    | destroy => exact Yields.of_ok (called_sDestroy thread)
    | activate sampleRate minFrames maxFrames =>
      exact Yields.of_ok (called_sActivate ht thread sampleRate minFrames maxFrames)
    | deactivate => exact Yields.of_ok (called_sDeactivate ht thread)
    | startProcessing => exact Yields.of_ok (called_sStartProcessing ht thread)
    | stopProcessing => exact Yields.of_ok (called_sStopProcessing ht thread)
    | reset =>
      exact Yields.of_ok (called_of_steps false (sReset_steps ht thread) rfl rfl rfl)
    | process block memory =>
      exact Yields.bind (called_sProcess ht thread block memory) fun r hr => Yields.of_ok hr
    | onMainThread =>
      exact Yields.of_ok (called_of_steps false (sOnMainThread_steps ht thread) rfl rfl rfl)
    | guiCreate api isFloating native =>
      exact Yields.bind (called_guiCreate ht thread api isFloating native) fun r hr =>
        Yields.of_ok hr
    | guiDestroy =>
      exact Yields.bind (guiDestroy_steps ht thread) fun r hsteps =>
        Yields.of_ok (called_of_steps false hsteps rfl rfl rfl)
    | violationsClear =>
      refine Yields.of_ok ⟨fun h => absurd rfl h, ?_, fun _ h => nomatch h⟩
      rintro _ ⟨⟩
      exact ⟨false, 0, rfl, rfl, (ContractMonitor.addCallbacks_zero _).symm, rfl,
        fun _ isInput => rfl⟩
    | _ => exact absurd rfl hplain

/-- The same for a step of the host. -/
theorem hostStep_moves [DoubleOps D] (ht : Tame impl) {l : ThreadId × Call D S}
    {i : Instance D σ} {o : Reply D S} (h : hostStep impl (.alive p) l = .ok (i, o)) :
    Called impl l.1 l.2 { p with hostCalls := [] } i :=
  call_moves ht l.1 l.2 _ (hostStep_call h)

end Plugin

end Cvp
