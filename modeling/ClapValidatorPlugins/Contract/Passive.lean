/-
  The monitor watches and does no more. What a call returns, what it asks of the host and what it
  makes of the instance does not depend on the findings, the log and the steady-time baseline
  (`hostStep_alike`). So two instances that differ in what was noted on them give the same
  answers to the same calls, all along (`run_alike`).
-/
import ClapValidatorPlugins.Contract.ExtensionCalls

namespace Cvp

variable {D S σ : Type}

namespace Plugin

/-- The instance with nothing noted on it. -/
def unmonitored (p : Plugin D σ) : Plugin D σ :=
  { p with
    contract := { p.contract with findings := {}, steadyValid := false, steadyEnd := 0 }
    firstProcessLogged := false }

/-- The instances differ in what was noted on them at most. -/
def Alike (p q : Plugin D σ) : Prop := p.unmonitored = q.unmonitored

variable {impl : PluginImpl D S σ} {p q r : Plugin D σ}

/-! ## The pieces -/

theorem Alike.symm (h : Alike p q) : Alike q p := Eq.symm h

theorem Alike.trans (hpq : Alike p q) (hqr : Alike q r) : Alike p r := Eq.trans hpq hqr

/-- What does not look at the notes. -/
theorem Alike.agree {α : Type} (h : Alike p q) (f : Plugin D σ → α) :
    f p.unmonitored = f q.unmonitored := congrArg f h

theorem Alike.base (h : Alike p q) : p.base = q.base := h.agree Plugin.base

theorem Alike.self (h : Alike p q) : p.self = q.self := h.agree Plugin.self

theorem Alike.active (h : Alike p q) : p.contract.active = q.contract.active :=
  h.agree (·.contract.active)

theorem Alike.processing (h : Alike p q) : p.contract.processing = q.contract.processing :=
  h.agree (·.contract.processing)

/-- A change that does not touch the notes. -/
theorem Alike.change (h : Alike p q) (f : Plugin D σ → Plugin D σ)
    (hf : ∀ p, (f p).unmonitored = f p.unmonitored) :
    Alike (f p) (f q) := by
  unfold Alike
  rw [hf, hf, show p.unmonitored = q.unmonitored from h]

/-- Notes on both. -/
theorem Alike.noted {p' q' : Plugin D σ} (h : Alike p q) (hp : Alike p' p) (hq : Alike q' q) :
    Alike p' q' := (hp.trans h).trans hq.symm

theorem reportIf_alike (p : Plugin D σ) (b : Bool) (v : Violation) (function detail : String) :
    Alike (if b then p.report v function detail else p) p := by
  cases b <;> rfl

theorem logLifecycle_alike (p : Plugin D σ) (message : String) :
    Alike (p.logLifecycle message) p := by
  unfold logLifecycle
  split <;> rfl

theorem logLines_alike (lines : List LogLine) : ∀ p : Plugin D σ, Alike (p.logLines lines) p := by
  induction lines with
  | nil => exact fun p => rfl
  | cons line lines ih => exact fun p => ih (p.logToHost line.severity line.text)

theorem logHostInfo_alike (p : Plugin D σ) : Alike p.logHostInfo p := by
  unfold logHostInfo
  split
  · rfl
  · exact logLines_alike _ p

theorem logFirstProcess_alike (p : Plugin D σ) (framesCount : UInt32) :
    Alike (p.logFirstProcess framesCount) p := by
  unfold logFirstProcess
  split <;> rfl

theorem assertMainThread_alike (p : Plugin D σ) (thread : ThreadId) (function : String) :
    Alike (p.assertMainThread thread function) p := by
  unfold assertMainThread
  rw [ThreadChecker.assertMainThread_eq]
  rfl

theorem assertAudioThread_alike (p : Plugin D σ) (thread : ThreadId) (function : String) :
    Alike (p.assertAudioThread thread function) p := by
  unfold assertAudioThread
  rw [ThreadChecker.assertAudioThread_eq]
  rfl

theorem Alike.report (h : Alike p q) (v : Violation) (function detail : String) :
    Alike (p.report v function detail) (q.report v function detail) := h

theorem Alike.reportIf (h : Alike p q) (b b' : Bool) (v : Violation) (function detail : String) :
    Alike (if b then p.report v function detail else p)
      (if b' then q.report v function detail else q) :=
  h.noted (reportIf_alike p b v function detail) (reportIf_alike q b' v function detail)

theorem Alike.assertMainThread (h : Alike p q) (thread : ThreadId) (function : String) :
    Alike (p.assertMainThread thread function) (q.assertMainThread thread function) :=
  h.noted (assertMainThread_alike p thread function) (assertMainThread_alike q thread function)

theorem Alike.assertAudioThread (h : Alike p q) (thread : ThreadId) (function : String) :
    Alike (p.assertAudioThread thread function) (q.assertAudioThread thread function) :=
  h.noted (assertAudioThread_alike p thread function) (assertAudioThread_alike q thread function)

theorem Alike.logLifecycle (h : Alike p q) (message : String) :
    Alike (p.logLifecycle message) (q.logLifecycle message) :=
  h.noted (logLifecycle_alike p message) (logLifecycle_alike q message)

theorem Alike.perform (h : Alike p q) (effect : Effect) :
    Alike (p.perform effect) (q.perform effect) := by
  cases effect with
  | log severity text => exact h
  | requestCallback => exact h.change requestCallback fun _ => rfl
  | host call =>
    exact h.change (fun p => { p with hostCalls := p.hostCalls ++ [call] }) fun _ => rfl

theorem Alike.absorb {α : Type} (h : Alike p q) (out : Outcome D σ α) :
    Alike (p.absorb out) (q.absorb out) := by
  have hall : ∀ (effects : List Effect) {p q : Plugin D σ}, Alike p q →
      Alike (effects.foldl Plugin.perform p) (effects.foldl Plugin.perform q) := by
    intro effects
    induction effects with
    | nil => exact fun h => h
    | cons effect effects ih => exact fun h => ih (h.perform effect)
  exact hall out.effects (h.change (fun p => { p with self := out.self }) fun _ => rfl)

/-- A returned pair, with nothing noted on the instance. -/
def seen {α : Type} (r : Plugin D σ × α) : Plugin D σ × α := (r.1.unmonitored, r.2)

theorem Alike.seen {α : Type} (h : Alike p q) (a : α) : seen (p, a) = seen (q, a) :=
  Prod.ext h rfl

/-- A virtual method, called on both. -/
theorem Alike.call {α : Type} (h : Alike p q) (f : Base D → σ → Outcome D σ α) :
    Plugin.seen (p.absorb (f p.base p.self), (f p.base p.self).value) =
      Plugin.seen (q.absorb (f q.base q.self), (f q.base q.self).value) := by
  rw [h.base, h.self]
  exact (h.absorb _).seen _

/-! ## Lifecycle trampolines -/

section Trampolines

variable (h : Alike p q)
include h

theorem sInit_alike (thread : ThreadId) (earlyLog : List LogLine) :
    seen (p.sInit impl thread earlyLog) = seen (q.sInit impl thread earlyLog) := by
  have hcheck := h.assertMainThread thread "sInit"
  have hstart : Alike ((p.assertMainThread thread "sInit").withThreads thread)
      ((q.assertMainThread thread "sInit").withThreads thread) :=
    hcheck.change (fun p => p.withThreads thread) fun _ => rfl
  have hmark := (hstart.noted (logLines_alike earlyLog _) (logLines_alike earlyLog _)).change
    (fun p => { p with contract := { p.contract with initialized := true } }) fun _ => rfl
  have henter : Alike (p.enterInit thread earlyLog) (q.enterInit thread earlyLog) :=
    (hmark.noted (logHostInfo_alike _) (logHostInfo_alike _)).logLifecycle _
  have he : ∀ p : Plugin D σ, p.sInit impl thread earlyLog =
      if (p.assertMainThread thread "sInit").contract.initialized then
        ((p.assertMainThread thread "sInit").report .L02 "init()"
          "called twice on the same instance", true)
      else ((p.enterInit thread earlyLog).absorb
          (impl.init (p.enterInit thread earlyLog).base (p.enterInit thread earlyLog).self),
        (impl.init (p.enterInit thread earlyLog).base (p.enterInit thread earlyLog).self).value) :=
    fun _ => rfl
  have hinitialized : (p.assertMainThread thread "sInit").contract.initialized =
      (q.assertMainThread thread "sInit").contract.initialized :=
    hcheck.agree (·.contract.initialized)
  rw [he, he, hinitialized]
  split
  · exact hcheck.seen true
  · exact henter.call impl.init

theorem sDestroy_alike (thread : ThreadId) :
    Alike (p.sDestroy thread) (q.sDestroy thread) := by
  have hcheck := (h.assertMainThread thread "sDestroy").reportIf
    (p.assertMainThread thread "sDestroy").contract.active
    (q.assertMainThread thread "sDestroy").contract.active .L06 "destroy()"
    "called while the plugin is still active"
  have hsummary : ∀ p : Plugin D σ, Alike { p with contract := p.contract.logSummary } p :=
    fun _ => rfl
  exact (hcheck.noted (hsummary _) (hsummary _)).logLifecycle "lifecycle: destroy()"

theorem activateWith_alike [DoubleOps D] (sampleRate : D) (minFrames maxFrames : Nat) :
    seen (activateWith impl p sampleRate minFrames maxFrames) =
      seen (activateWith impl q sampleRate minFrames maxFrames) := by
  let start : Plugin D σ → Plugin D σ := fun p => { p with
    sampleRate := sampleRate
    contract := { p.contract with beingActivated := true } }
  let finish : Plugin D σ → Plugin D σ := fun p => { p with
    contract := { p.contract with beingActivated := false }
    firstProcessLogged := false }
  let cache : Plugin D σ → Plugin D σ := fun p =>
    { captureActivateSnapshot impl p minFrames maxFrames with
      contract := { (captureActivateSnapshot impl p minFrames maxFrames).contract with
        active := true } }
  let message := snprintf 128 ("lifecycle: activate(sr=" ++
    DoubleOps.formatFixed 1 sampleRate ++ s!", min={minFrames}, max={maxFrames})")
  have hstart : Alike (start (p.logLifecycle message)) (start (q.logLifecycle message)) :=
    (h.logLifecycle message).change start fun _ => rfl
  let out : Plugin D σ → Outcome D σ Bool := fun p =>
    impl.activate p.base p.self sampleRate minFrames maxFrames
  have he : ∀ p : Plugin D σ, activateWith impl p sampleRate minFrames maxFrames =
      (finish (if (out (start (p.logLifecycle message))).value then
          cache ((start (p.logLifecycle message)).absorb (out (start (p.logLifecycle message))))
        else (start (p.logLifecycle message)).absorb (out (start (p.logLifecycle message)))),
        (out (start (p.logLifecycle message))).value) := fun _ => rfl
  have hout : out (start (p.logLifecycle message)) = out (start (q.logLifecycle message)) :=
    hstart.agree out
  rw [he, he, hout]
  have habsorb := hstart.absorb (out (start (q.logLifecycle message)))
  split
  · exact ((habsorb.change cache fun _ => rfl).change finish fun _ => rfl).seen _
  · exact (habsorb.change finish fun _ => rfl).seen _

theorem sActivate_alike [DoubleOps D] (thread : ThreadId) (sampleRate : D)
    (minFrames maxFrames : Nat) :
    seen (p.sActivate impl thread sampleRate minFrames maxFrames) =
      seen (q.sActivate impl thread sampleRate minFrames maxFrames) := by
  have hcheck := h.assertMainThread thread "sActivate"
  unfold sActivate
  dsimp only
  rw [hcheck.active]
  split
  · exact hcheck.seen false
  · split
    · exact activateWith_alike (hcheck.report _ _ _)
        sampleRate _ _
    · exact activateWith_alike hcheck sampleRate minFrames maxFrames

theorem sDeactivate_alike (thread : ThreadId) :
    Alike (p.sDeactivate impl thread) (q.sDeactivate impl thread) := by
  let stopped : Plugin D σ → Plugin D σ := fun p =>
    let p := p.report .L05 "deactivate()"
      "called while still processing (missing stop_processing())"
    let p := p.absorb (impl.stopProcessing p.base p.self)
    { p with contract := { p.contract with processing := false } }
  let tail : Plugin D σ → Plugin D σ := fun p =>
    let p := p.logLifecycle "lifecycle: deactivate()"
    let p := p.absorb (impl.deactivate p.base p.self)
    { p with contract := { p.contract with active := false } }
  have hstopped : ∀ {p q : Plugin D σ}, Alike p q → Alike (stopped p) (stopped q) := by
    intro p q h
    have hreport := h.report .L05 "deactivate()"
      "called while still processing (missing stop_processing())"
    exact Alike.change (congrArg Prod.fst (hreport.call impl.stopProcessing))
      (fun p => { p with contract := { p.contract with processing := false } }) fun _ => rfl
  have htail : ∀ {p q : Plugin D σ}, Alike p q → Alike (tail p) (tail q) := by
    intro p q h
    exact Alike.change (congrArg Prod.fst ((h.logLifecycle _).call impl.deactivate))
      (fun p => { p with contract := { p.contract with active := false } }) fun _ => rfl
  have he : ∀ p : Plugin D σ, p.sDeactivate impl thread =
      if !(p.assertMainThread thread "sDeactivate").contract.active then
        (p.assertMainThread thread "sDeactivate").report .L04 "deactivate()"
          "called while not active"
      else tail (if (p.assertMainThread thread "sDeactivate").contract.processing then
          stopped (p.assertMainThread thread "sDeactivate")
        else p.assertMainThread thread "sDeactivate") := fun _ => rfl
  have hcheck := h.assertMainThread thread "sDeactivate"
  rw [he, he, hcheck.active, hcheck.processing]
  split
  · exact hcheck
  · split
    · exact htail (hstopped hcheck)
    · exact htail hcheck

theorem sStartProcessing_alike (thread : ThreadId) :
    seen (p.sStartProcessing impl thread) = seen (q.sStartProcessing impl thread) := by
  have hcheck := h.assertAudioThread thread "sStartProcessing"
  have hlog := hcheck.logLifecycle "lifecycle: start_processing()"
  unfold sStartProcessing
  dsimp only
  rw [hcheck.active, hcheck.processing]
  split
  · exact hcheck.seen false
  · split
    · exact hcheck.seen true
    · rw [hlog.base, hlog.self]
      exact ((hlog.absorb _).change (fun p => { p with
        contract := { p.contract with processing := _ } }) fun _ => rfl).seen _

theorem sStopProcessing_alike (thread : ThreadId) :
    Alike (p.sStopProcessing impl thread) (q.sStopProcessing impl thread) := by
  have haudio := h.assertAudioThread thread "sStopProcessing"
  have hcheck : Alike (p.checkStop thread) (q.checkStop thread) :=
    haudio.reportIf _ _ _ _ _
  rw [sStopProcessing_eq, sStopProcessing_eq, hcheck.processing]
  split
  · exact hcheck
  · exact Alike.change (congrArg Prod.fst ((hcheck.logLifecycle _).call impl.stopProcessing))
      (fun p => { p with contract := { p.contract with processing := false } }) fun _ => rfl

theorem sReset_alike (thread : ThreadId) :
    Alike (p.sReset impl thread) (q.sReset impl thread) := by
  have haudio := h.assertAudioThread thread "sReset"
  have hcheck := haudio.reportIf (!(p.assertAudioThread thread "sReset").contract.active)
    (!(q.assertAudioThread thread "sReset").contract.active) .L10 "reset()"
    "called while not active"
  have hrebase : ∀ p : Plugin D σ, Alike { p with contract := p.contract.invalidateSteadyTime } p :=
    fun _ => rfl
  exact congrArg Prod.fst
    (((hcheck.logLifecycle "lifecycle: reset()").noted (hrebase _) (hrebase _)).call impl.reset)

theorem sOnMainThread_alike (thread : ThreadId) :
    Alike (p.sOnMainThread impl thread) (q.sOnMainThread impl thread) := by
  let taken : Plugin D σ → Plugin D σ := fun p =>
    { p with contract := p.contract.consumePendingCallbacks.2 }
  have hmain := h.assertMainThread thread "sOnMainThread"
  have hcheck := (hmain.change taken fun _ => rfl).reportIf
    (!(p.assertMainThread thread "sOnMainThread").contract.consumePendingCallbacks.1)
    (!(q.assertMainThread thread "sOnMainThread").contract.consumePendingCallbacks.1) .L11
    "on_main_thread()" "called without a pending request_callback()"
  exact congrArg Prod.fst
    ((hcheck.logLifecycle "lifecycle: on_main_thread()").call impl.onMainThread)

omit h in
theorem checkProcessContracts_alike (p : Plugin D σ) (block : ProcessBlock D) :
    Alike { p with contract := (checkProcessContracts p.contract block).2 } p := by
  unfold Alike unmonitored checkProcessContracts ContractMonitor.checkSteadyTime
  split <;> rfl

theorem processGate_alike (thread : ThreadId) (block : ProcessBlock D) :
    (p.processGate thread block).1 = (q.processGate thread block).1 ∧
      Alike (p.processGate thread block).2 (q.processGate thread block).2 := by
  let enter : Plugin D σ → Plugin D σ := fun p =>
    { p with contract := { p.contract with inProcess := true } }
  let checked : Plugin D σ → Plugin D σ := fun p =>
    { p with contract := (checkProcessContracts p.contract block).2 }
  have he : ∀ p : Plugin D σ, p.processGate thread block =
      let p := p.assertAudioThread thread "sProcess"
      if p.contract.inProcess then
        (.reject, p.report .L12 "process()" "called concurrently with another process() call")
      else if !p.contract.active || !p.contract.processing then
        (.reject, ((enter p).report .L09 "process()"
          "called while not active/processing").leaveProcess)
      else if (checkPorts ((enter p).logFirstProcess block.framesCount).contract block).1 then
        (.forward, checked ((enter p).logFirstProcess block.framesCount))
      else (.reject, (checked ((enter p).logFirstProcess block.framesCount)).leaveProcess) :=
    fun _ => rfl
  have haudio := h.assertAudioThread thread "sProcess"
  have henter := haudio.change enter fun _ => rfl
  have hfirst := henter.noted (logFirstProcess_alike _ block.framesCount)
    (logFirstProcess_alike _ block.framesCount)
  have hchecked := hfirst.noted (checkProcessContracts_alike _ block)
    (checkProcessContracts_alike _ block)
  rw [he, he]
  dsimp only
  have hinProcess : (p.assertAudioThread thread "sProcess").contract.inProcess =
      (q.assertAudioThread thread "sProcess").contract.inProcess :=
    haudio.agree (·.contract.inProcess)
  have hports : (checkPorts ((enter _).logFirstProcess block.framesCount).contract block).1 =
      (checkPorts ((enter _).logFirstProcess block.framesCount).contract block).1 :=
    hfirst.agree fun p => (checkPorts p.contract block).1
  rw [hinProcess, haudio.active, haudio.processing, hports]
  split
  · exact ⟨rfl, haudio⟩
  · split
    · exact ⟨rfl, henter.change leaveProcess fun _ => rfl⟩
    · split
      · exact ⟨rfl, hchecked⟩
      · exact ⟨rfl, hchecked.change leaveProcess fun _ => rfl⟩

omit h in
theorem leaveProcess_alike (hi : p.contract.inProcess = false) : Alike p.leaveProcess p := by
  unfold leaveProcess
  rw [← hi]
  rfl

omit h in
/-- Between two blocks the gate leaves notes only, once the guard is given back. -/
theorem processGate_noted (hi : p.contract.inProcess = false) (thread : ThreadId)
    (block : ProcessBlock D) :
    Alike (p.processGate thread block).2.leaveProcess p ∧
      ((p.processGate thread block).1 = .reject → Alike (p.processGate thread block).2 p) := by
  let p₁ := p.assertAudioThread thread "sProcess"
  let p₂ : Plugin D σ := { p₁ with contract := { p₁.contract with inProcess := true } }
  have haudio : Alike p₁ p := assertAudioThread_alike p thread "sProcess"
  have hi₁ : p₁.contract.inProcess = false := (haudio.agree (·.contract.inProcess)).trans hi
  have hleft : Alike p₂.leaveProcess p :=
    Alike.trans (leaveProcess_alike hi₁ : Alike p₁.leaveProcess p₁) haudio
  have hchecked := (checkProcessContracts_alike (p₂.logFirstProcess block.framesCount) block).trans
    (logFirstProcess_alike p₂ block.framesCount)
  have hback := (hchecked.change leaveProcess fun _ => rfl).trans hleft
  unfold processGate
  dsimp only
  rw [hi₁, if_neg Bool.false_ne_true]
  split
  · exact ⟨hleft, fun _ => hleft⟩
  · split
    · exact ⟨hback, nofun⟩
    · exact ⟨hback, fun _ => hback⟩

omit h in
/-- A block of which the flavor's members keep nothing leaves notes only. -/
theorem sProcess_noted (hi : p.contract.inProcess = false) {block : ProcessBlock D}
    {memory : AudioMemory D S}
    (hnothing : ∀ base, Yields (impl.process base p.self block memory) fun r =>
      r.1.self = p.self ∧ r.1.effects = []) (thread : ThreadId) :
    Yields (p.sProcess impl thread block memory) fun r => Alike r.1 p := by
  obtain ⟨hleft, hreject⟩ := processGate_noted hi thread block
  have hself : (p.processGate thread block).2.self = p.self := hleft.self
  unfold sProcess
  split
  · rename_i q hq
    rw [hq] at hreject
    exact Yields.of_ok (hreject rfl)
  · rename_i q hq
    rw [hq] at hleft hself
    rw [show q.self = p.self from hself]
    split
    · exact Yields.of_error _
    · rename_i out memory' hout
      obtain ⟨hkept, hquiet⟩ := hnothing q.base _ hout
      have habsorb : q.absorb out = q := by
        unfold absorb
        rw [hquiet, hkept, ← hself]
        rfl
      refine Yields.of_ok ?_
      dsimp only
      rw [habsorb]
      exact hleft

theorem sProcess_alike (thread : ThreadId) (block : ProcessBlock D) (memory : AudioMemory D S) :
    (p.sProcess impl thread block memory).map seen =
      (q.sProcess impl thread block memory).map seen := by
  obtain ⟨hsame, hgate⟩ := processGate_alike h thread block
  unfold sProcess
  cases hp : p.processGate thread block with
  | mk gate p' =>
    cases hq : q.processGate thread block with
    | mk gate' q' =>
      rw [hp, hq] at hsame hgate
      cases hsame
      cases gate with
      | reject => exact congrArg Except.ok (hgate.seen _)
      | forward =>
        dsimp only
        rw [hgate.base, hgate.self]
        cases impl.process q'.base q'.self block memory with
        | error fault => rfl
        | ok r =>
          have hleft := (hgate.absorb r.1).change leaveProcess fun _ => rfl
          exact congrArg Except.ok (hleft.seen _)

theorem sGetExtension_alike (id : Option String) :
    (p.sGetExtension impl id).map seen = (q.sGetExtension impl id).map seen := by
  unfold sGetExtension
  cases id with
  | none =>
    dsimp only
    split
    · exact congrArg Except.ok (h.seen false)
    · rfl
  | some id =>
    exact congrArg Except.ok ((h.reportIf _ _ _ _ _).seen _)

omit h in
theorem bind_seen {α β : Type} (x : Exec α) {f g : α → Exec (Plugin D σ × β)}
    (hfg : ∀ a, (f a).map seen = (g a).map seen) :
    (x >>= f).map seen = (x >>= g).map seen := by
  cases x with
  | error fault => rfl
  | ok a => exact hfg a

omit h in
/-- What goes on alike behind two steps that ended alike. -/
theorem bind_map {α β γ δ : Type} {x y : Exec α} {g : α → β} {f : α → Exec γ} {k : γ → δ}
    (hxy : x.map g = y.map g) (hf : ∀ a b, g a = g b → (f a).map k = (f b).map k) :
    (x >>= f).map k = (y >>= f).map k := by
  cases x with
  | error fault =>
    cases y with
    | error fault' =>
      cases hxy
      rfl
    | ok b => cases hxy
  | ok a =>
    cases y with
    | error fault' => cases hxy
    | ok b => exact hf a b (Except.ok.inj hxy)

/-! ## Extensions -/

/-- A provider is asked. -/
theorem ask_alike {α β : Type} (o : Option α) (f : α → Base D → σ → β) :
    (provider o >>= fun a => Except.ok (p, f a p.base p.self)).map seen =
      (provider o >>= fun a => Except.ok (q, f a q.base q.self)).map seen := by
  refine bind_seen _ fun a => ?_
  rw [h.base, h.self]
  exact congrArg Except.ok (h.seen _)

/-- A provider does its part. -/
theorem absorb_alike {α β : Type} (o : Option α) (f : α → Base D → σ → Outcome D σ β) :
    (provider o >>= fun a =>
        Except.ok (p.absorb (f a p.base p.self), (f a p.base p.self).value)).map seen =
      (provider o >>= fun a =>
        Except.ok (q.absorb (f a q.base q.self), (f a q.base q.self).value)).map seen :=
  bind_seen _ fun a => congrArg Except.ok (h.call (f a))

/-- A trampoline that turns some calls down. -/
theorem refusing_alike {α : Type} {b b' : Bool} (hb : b = b') (code : Violation)
    (function detail : String) (o : Option α) (f : α → Base D → σ → Outcome D σ Bool) :
    (if b then Except.ok (p.report code function detail, false)
      else provider o >>= fun a =>
        Except.ok (p.absorb (f a p.base p.self), (f a p.base p.self).value)).map seen =
    (if b' then Except.ok (q.report code function detail, false)
      else provider o >>= fun a =>
        Except.ok (q.absorb (f a q.base q.self), (f a q.base q.self).value)).map seen := by
  subst hb
  split
  · exact congrArg Except.ok (h.seen false)
  · exact absorb_alike h o f

theorem sFlush_alike (thread : ThreadId) (inEvents : Option (InputEvents D))
    (hasOutEvents : Bool) :
    (Params.sFlush impl p thread inEvents hasOutEvents).map seen =
      (Params.sFlush impl q thread inEvents hasOutEvents).map seen := by
  let checked : Plugin D σ → Plugin D σ := fun p =>
    let p := (if p.contract.inProcess then
        p.report .P07 "params.flush()" "called concurrently with process()"
      else p).checkFlushThread thread
    { p with contract := { p.contract with
      findings := p.contract.findings.reportAll (checkParamEvents p.contract inEvents none) } }
  have hchecked : ∀ p : Plugin D σ, Alike (checked p) p := by
    intro p
    have hthread : ∀ p : Plugin D σ, Alike (p.checkFlushThread thread) p := by
      intro p
      unfold checkFlushThread
      split
      · exact reportIf_alike _ _ _ _ _
      · exact reportIf_alike _ _ _ _ _
    exact (hthread _).trans (reportIf_alike p _ _ _ _)
  have he : ∀ p : Plugin D σ, Params.sFlush impl p thread inEvents hasOutEvents =
      (provider impl.params >>= fun params =>
        params.paramsFlush (checked p).base (checked p).self inEvents hasOutEvents >>= fun out =>
          .ok ((checked p).absorb out, out.pushed)) := fun _ => rfl
  have hsame := h.noted (hchecked p) (hchecked q)
  rw [he, he, hsame.base, hsame.self]
  exact bind_seen _ fun params => bind_seen _ fun out =>
    congrArg Except.ok ((hsame.absorb out).seen _)

theorem sSave_alike (thread : ThreadId) (stream : OStream) :
    (State.sSave impl p thread stream).map seen = (State.sSave impl q thread stream).map seen := by
  have hcheck := h.assertMainThread thread "sSave"
  unfold State.sSave
  dsimp only
  rw [hcheck.self]
  exact bind_seen _ fun state => bind_seen _ fun r =>
    congrArg Except.ok ((hcheck.absorb r.1).seen _)

theorem sLoad_alike (thread : ThreadId) (stream : IStream) :
    (State.sLoad impl p thread stream).map seen = (State.sLoad impl q thread stream).map seen := by
  have hcheck := h.assertMainThread thread "sLoad"
  unfold State.sLoad
  dsimp only
  rw [hcheck.self]
  exact bind_seen _ fun state => bind_seen _ fun r =>
    congrArg Except.ok ((hcheck.absorb r.1).seen _)

theorem Alike.checkNoScan (code : Violation) (function : String) :
    Alike (p.checkNoScan code function) (q.checkNoScan code function) := h.reportIf _ _ _ _ _

theorem presetLoad_alike (thread : ThreadId) (files : FileSystem) (kind : Nat)
    (location loadKey : Option String) :
    (PresetLoad.sFromLocation impl p thread files kind location loadKey).map seen =
      (PresetLoad.sFromLocation impl q thread files kind location loadKey).map seen := by
  have hcheck := h.assertMainThread thread "sFromLocation"
  unfold PresetLoad.sFromLocation
  dsimp only
  split
  · exact congrArg Except.ok (hcheck.seen false)
  · split
    · exact absorb_alike (hcheck.report _ _ _)
        impl.presetLoad
        fun preset base s => preset.presetLoadFromLocation base s files kind location loadKey
    · exact absorb_alike hcheck impl.presetLoad
        fun preset base s => preset.presetLoadFromLocation base s files kind location loadKey

theorem getChannelMap_alike (thread : ThreadId) (isInput : Bool) (portIndex capacity : Nat) :
    (Surround.sGetChannelMap impl p thread isInput portIndex capacity).map seen =
      (Surround.sGetChannelMap impl q thread isInput portIndex capacity).map seen := by
  have hcheck := h.assertMainThread thread "sGetChannelMap"
  unfold Surround.sGetChannelMap
  dsimp only
  have hchannels : Surround.portChannels impl (p.assertMainThread thread "sGetChannelMap").self
      isInput portIndex =
      Surround.portChannels impl (q.assertMainThread thread "sGetChannelMap").self
        isInput portIndex := by rw [hcheck.self]
  rw [hchannels]
  split
  · split
    · exact absorb_alike (hcheck.report _ _ _)
        impl.surround fun surround _ s => surround.surroundChannelMap s isInput portIndex capacity
    · exact absorb_alike hcheck impl.surround
        fun surround _ s => surround.surroundChannelMap s isInput portIndex capacity
  · exact absorb_alike hcheck impl.surround
      fun surround _ s => surround.surroundChannelMap s isInput portIndex capacity

theorem guiCreate_alike (thread : ThreadId) (api : Option String) (isFloating : Bool)
    (native : NativeAnswer) :
    (Gui.sCreate impl p thread api isFloating native).map seen =
      (Gui.sCreate impl q thread api isFloating native).map seen := by
  have hcheck := h.assertMainThread thread "sCreate"
  unfold Gui.sCreate
  dsimp only
  have hcreated : (p.assertMainThread thread "sCreate").contract.guiCreated =
      (q.assertMainThread thread "sCreate").contract.guiCreated :=
    hcheck.agree (·.contract.guiCreated)
  rw [hcreated, hcheck.self]
  split
  · exact congrArg Except.ok (hcheck.seen false)
  · refine bind_seen _ fun gui => congrArg Except.ok ?_
    have hcreate := hcheck.absorb
      (gui.guiCreate (q.assertMainThread thread "sCreate").self api isFloating native)
    split
    · exact (hcreate.change (fun p =>
        { p with contract := p.contract.setGuiCreated true isFloating }) fun _ => rfl).seen _
    · exact hcreate.seen _

theorem guiDestroy_alike (thread : ThreadId) :
    (Gui.sDestroy impl p thread).map unmonitored =
      (Gui.sDestroy impl q thread).map unmonitored := by
  have hcheck := (h.assertMainThread thread "sDestroy").reportIf
    (!(p.assertMainThread thread "sDestroy").contract.guiCreated)
    (!(q.assertMainThread thread "sDestroy").contract.guiCreated) .G03 "gui.destroy()"
    "called without a created gui"
  unfold Gui.sDestroy
  cases impl.gui with
  | none => rfl
  | some gui =>
    have hcall := congrArg Prod.fst (hcheck.call fun _ s => gui.guiDestroy s)
    exact congrArg Except.ok (Alike.change hcall
      (fun p => { p with contract := p.contract.setGuiCreated false false }) fun _ => rfl)

theorem guiMethod_alike (thread : ThreadId) (method : GuiMethod D) (native : NativeAnswer) :
    (Gui.sMethod impl p thread method native).map seen =
      (Gui.sMethod impl q thread method native).map seen := by
  have hcheck := h.assertMainThread thread (Gui.functionName method)
  unfold Gui.sMethod
  dsimp only
  have hbroken : Gui.broken (p.assertMainThread thread (Gui.functionName method)) method =
      Gui.broken (q.assertMainThread thread (Gui.functionName method)) method :=
    hcheck.agree fun p => Gui.broken p method
  rw [hbroken]
  split
  · exact congrArg Except.ok (hcheck.seen false)
  · exact absorb_alike hcheck impl.gui fun gui _ s => gui.guiMethod s method native

end Trampolines

end Plugin

/-! ## Every call -/

/-- The instance with nothing noted on it. -/
def Instance.unmonitored : Instance D σ → Instance D σ
  | .alive p => .alive p.unmonitored
  | .deleted contract =>
    .deleted { contract with findings := {}, steadyValid := false, steadyEnd := 0 }

def Instance.seen {α : Type} (r : Instance D σ × α) : Instance D σ × α := (r.1.unmonitored, r.2)

theorem Plugin.Alike.returned {p q : Plugin D σ} (h : Alike p q) (result : Result D S) :
    (.ok (.alive p, result) : Exec (Instance D σ × Result D S)).map Instance.seen =
      (.ok (.alive q, result) : Exec (Instance D σ × Result D S)).map Instance.seen :=
  congrArg Except.ok (Prod.ext (congrArg Instance.alive h) rfl)

theorem returned_alike {α : Type} {r r' : Plugin D σ × α} {f : α → Result D S}
    (hr : Plugin.seen r = Plugin.seen r') :
    (.ok (.alive r.1, f r.2) : Exec (Instance D σ × Result D S)).map Instance.seen =
      (.ok (.alive r'.1, f r'.2) : Exec (Instance D σ × Result D S)).map Instance.seen := by
  obtain ⟨hp, hvalue⟩ := Prod.ext_iff.mp hr
  rw [show r.2 = r'.2 from hvalue]
  exact Plugin.Alike.returned hp _

theorem returned_bind {α : Type} {x y : Exec (Plugin D σ × α)} {f : α → Result D S}
    (hxy : x.map Plugin.seen = y.map Plugin.seen) :
    (x >>= fun r => (.ok (.alive r.1, f r.2) : Exec (Instance D σ × Result D S))).map
        Instance.seen =
      (y >>= fun r => (.ok (.alive r.1, f r.2) : Exec (Instance D σ × Result D S))).map
        Instance.seen :=
  Plugin.bind_map hxy fun _ _ => returned_alike

theorem Plugin.call_alike [DoubleOps D] {impl : PluginImpl D S σ} {p q : Plugin D σ}
    (h : Alike p q) (thread : ThreadId) (call : Call D S) :
    (Plugin.call impl p thread call).map Instance.seen =
      (Plugin.call impl q thread call).map Instance.seen := by
  cases call with
  | init earlyLog => exact returned_alike (sInit_alike h thread earlyLog)
  | destroy =>
    have hgone : (Instance.deleted (p.sDestroy thread).contract : Instance D σ).unmonitored =
        (Instance.deleted (q.sDestroy thread).contract : Instance D σ).unmonitored :=
      (sDestroy_alike h thread).agree fun p => Instance.deleted p.contract
    exact congrArg Except.ok (Prod.ext hgone rfl)
  | activate sampleRate minFrames maxFrames =>
    exact returned_alike (sActivate_alike h thread sampleRate minFrames maxFrames)
  | deactivate => exact (sDeactivate_alike h thread).returned _
  | startProcessing => exact returned_alike (sStartProcessing_alike h thread)
  | stopProcessing => exact (sStopProcessing_alike h thread).returned _
  | reset => exact (sReset_alike h thread).returned _
  | process block memory => exact returned_bind (sProcess_alike h thread block memory)
  | getExtension id => exact returned_bind (sGetExtension_alike h id)
  | onMainThread => exact (sOnMainThread_alike h thread).returned _
  | paramsFlush inEvents hasOutEvents =>
    exact returned_bind (sFlush_alike h thread inEvents hasOutEvents)
  | stateSave stream =>
    exact returned_bind (f := fun r : Bool × OStream => .save r.1 r.2) (sSave_alike h thread stream)
  | stateLoad stream => exact returned_bind (sLoad_alike h thread stream)
  | audioPortsCount isInput =>
    have hcheck := (h.assertMainThread thread "sCount").checkNoScan .AP01 "audio_ports.count()"
    exact returned_bind (ask_alike hcheck impl.audioPorts
      fun ports _ s => ports.audioPortCount s isInput)
  | audioPortsGet index isInput =>
    have hcheck := (h.assertMainThread thread "sGet").checkNoScan .AP01 "audio_ports.get()"
    exact returned_bind (ask_alike hcheck impl.audioPorts
      fun ports _ s => ports.audioPortInfo s index isInput)
  | notePortsCount isInput =>
    have hcheck := (h.assertMainThread thread "sCount").checkNoScan .NP01 "note_ports.count()"
    exact returned_bind (ask_alike hcheck impl.notePorts
      fun ports _ _ => ports.notePortCount isInput)
  | notePortsGet index isInput =>
    have hcheck := (h.assertMainThread thread "sGet").checkNoScan .NP01 "note_ports.get()"
    exact returned_bind (ask_alike hcheck impl.notePorts
      fun ports _ _ => ports.notePortInfo index isInput)
  | audioPortsConfigSelect configId =>
    have hcheck := h.assertMainThread thread "sSelect"
    exact returned_bind (refusing_alike hcheck hcheck.active _ _ _ impl.audioPortsConfig
      fun config base s => config.audioPortsConfigSelect base s configId)
  | canApplyConfiguration requests =>
    have hcheck := h.assertMainThread thread "sCanApply"
    exact returned_bind (refusing_alike hcheck hcheck.active _ _ _ impl.configurableAudioPorts
      fun config base s => config.canApplyConfiguration base s requests)
  | applyConfiguration requests =>
    have hcheck := h.assertMainThread thread "sApply"
    exact returned_bind (refusing_alike hcheck hcheck.active _ _ _ impl.configurableAudioPorts
      fun config base s => config.applyConfiguration base s requests)
  | latencyGet =>
    exact returned_bind (f := fun latency : UInt32 => .number latency.toNat)
      (ask_alike ((h.assertMainThread thread "sGet").reportIf _ _ _ _ _) impl.latency
        fun latency base s => latency.latency base s)
  | tailGet =>
    exact returned_bind (f := fun tail : UInt32 => .number tail.toNat)
      (ask_alike (h.reportIf _ _ _ _ _) impl.tail fun tail base s => tail.tail base s)
  | voiceInfoGet =>
    exact returned_bind (ask_alike ((h.assertMainThread thread "sGet").reportIf _ _ _ _ _)
      impl.voiceInfo fun voices _ _ => voices.voiceInfo)
  | renderSet mode =>
    exact returned_bind (refusing_alike (h.assertMainThread thread "sSet") rfl _ _ _ impl.render
      fun render _ s => render.renderSet s mode)
  | presetLoad files kind location loadKey =>
    exact returned_bind (presetLoad_alike h thread files kind location loadKey)
  | isChannelMaskSupported mask =>
    exact returned_bind (absorb_alike (h.assertMainThread thread "sIsChannelMaskSupported")
      impl.surround fun surround _ s => surround.surroundIsChannelMaskSupported s mask)
  | getChannelMap isInput portIndex capacity =>
    exact returned_bind (getChannelMap_alike h thread isInput portIndex capacity)
  | guiCreate api isFloating native =>
    exact returned_bind (guiCreate_alike h thread api isFloating native)
  | guiDestroy =>
    exact bind_map (guiDestroy_alike h thread) fun p q h => Plugin.Alike.returned h _
  | gui method native => exact returned_bind (guiMethod_alike h thread method native)
  | query function => exact (h.assertMainThread thread function).returned _
  | violationsClear => exact h.returned _
  | uiEdit edit =>
    unfold Plugin.call
    dsimp only
    rw [h.base, h.self]
    split
    · rfl
    · exact (h.absorb _).returned _

/-- The instance between two calls: what a call asked of the host has gone out with its answer. -/
def Instance.settled : Instance D σ → Instance D σ
  | .alive p => Instance.unmonitored (.alive { p with hostCalls := [] })
  | i => i.unmonitored

/-- Between two calls the instances differ in what was noted on them at most. -/
def Instance.Alike (i j : Instance D σ) : Prop := i.settled = j.settled

theorem Instance.Alike.trans {i j k : Instance D σ} (hij : i.Alike j) (hjk : j.Alike k) :
    i.Alike k := Eq.trans hij hjk

theorem Instance.Alike.of_alive {p q : Plugin D σ}
    (h : (Instance.alive p).Alike (.alive q)) :
    Plugin.Alike { p with hostCalls := [] } { q with hostCalls := [] } := Instance.alive.inj h

theorem hostStep_alike [DoubleOps D] {impl : PluginImpl D S σ} {i j i' : Instance D σ}
    {l : ThreadId × Call D S} {o : Reply D S} (h : i.Alike j)
    (hstep : hostStep impl i l = .ok (i', o)) :
    ∃ j', hostStep impl j l = .ok (j', o) ∧ i'.Alike j' := by
  obtain ⟨thread, call⟩ := l
  cases i with
  | deleted contract => cases hstep
  | alive p =>
    cases j with
    | deleted contract => cases h
    | alive q =>
      have hsame := @Plugin.call_alike _ _ _ _ impl _ _ h.of_alive thread call
      rw [hostStep] at hstep ⊢
      generalize Plugin.call impl { p with hostCalls := [] } thread call = x at hsame hstep
      generalize Plugin.call impl { q with hostCalls := [] } thread call = y at hsame
      cases x with
      | error fault => cases hstep
      | ok r =>
        cases y with
        | error fault => cases hsame
        | ok r' =>
          obtain ⟨i₁, result⟩ := r
          obtain ⟨j₁, result'⟩ := r'
          obtain ⟨hinstance, rfl⟩ := Prod.mk.inj (Except.ok.inj hsame)
          cases i₁ with
          | deleted contract =>
            cases j₁ with
            | alive q₁ => cases hinstance
            | deleted contract' =>
              cases hstep
              exact ⟨_, rfl, hinstance⟩
          | alive p₁ =>
            cases j₁ with
            | deleted contract' => cases hinstance
            | alive q₁ =>
              have halike : Plugin.Alike p₁ q₁ := Instance.alive.inj hinstance
              have hcalls : p₁.hostCalls = q₁.hostCalls := halike.agree (·.hostCalls)
              have hsettled := halike.change (fun p => { p with hostCalls := [] }) fun _ => rfl
              cases hstep
              rw [hcalls]
              exact ⟨_, rfl, congrArg Instance.alive hsettled⟩

/-- Instances alike answer every run of calls alike. -/
theorem run_alike [DoubleOps D] {impl : PluginImpl D S σ} {i j : Instance D σ} (h : i.Alike j)
    (ls : List (ThreadId × Call D S)) (os : List (Reply D S)) :
    (∃ i', Machine.run (hostStep impl) i ls = .ok (i', os)) ↔
      ∃ j', Machine.run (hostStep impl) j ls = .ok (j', os) := by
  have hrelated : ∀ {i j : Instance D σ}, i.Alike j →
      (∃ i', Machine.run (hostStep impl) i ls = .ok (i', os)) →
      ∃ j', Machine.run (hostStep impl) j ls = .ok (j', os) := by
    rintro i j h ⟨i', hrun⟩
    obtain ⟨j', hrun', -⟩ := Machine.run_related (R := Instance.Alike)
      (fun _ _ _ _ _ h hstep => hostStep_alike h hstep) h hrun
    exact ⟨j', hrun'⟩
  exact ⟨hrelated h, hrelated (Eq.symm h)⟩

end Cvp
