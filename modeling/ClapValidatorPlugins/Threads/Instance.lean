/-
  One instance, called from any number of threads at once. `process`, `params.flush`, `activate`,
  `deactivate`, `start_processing` and `stop_processing` go in small steps: each operation on one
  of the monitor's flags `_active`, `_processing`, `_beingActivated` and `_inProcess` is a step,
  and so is each piece of code between two of them (a report, a virtual method, the data checks,
  one cache write). Every other call operates on at most one of these flags and is one step. Steps
  are sequentially consistent, and there are none behind `destroy()`.
-/
import ClapValidatorPlugins.Host.Run
import ClapValidatorPlugins.Lib.Interleaving

namespace Cvp.Threads

variable {D S σ : Type}

/-! ## Where a call stands -/

/-- `sProcess`: what it does next. From `loadActive` to `leave` the `ProcessGuard` is alive. -/
inductive ProcessPc (D S : Type) where
  | assertThread | tryEnter | busy
  | loadActive | loadProcessing | notReady | firstLog | check | body
  | leave (reply : Plugin.ProcessReply D S)

/-- `sFlush`. -/
inductive FlushPc where
  | testInProcess | reportOverlap | checkThread | checkEvents | body

/-- `sActivate`; the bounds are those behind the clamp. -/
inductive ActivatePc where
  | assertThread | loadActive | reportActive | checkBounds
  | announce (minFrames maxFrames : Nat)
  | body (minFrames maxFrames : Nat)
  | setFrameBounds (minFrames maxFrames : Nat)
  | setPortLayout | setParams | setActive
  | finish (ok : Bool)

/-- `sDeactivate`. -/
inductive DeactivatePc where
  | assertThread | loadActive | reportInactive
  | loadProcessing | reportForced | forceStop | clearProcessing | body | clearActive

/-- `sStartProcessing`. -/
inductive StartPc where
  | assertThread | loadActive | reportInactive | loadProcessing | reportProcessing | body
  | setProcessing (ok : Bool)
  | invalidate (ok : Bool)

/-- `sStopProcessing`. -/
inductive StopPc where
  | assertThread | loadActive | reportInactive | loadProcessing | reportIdle | body
  | clearProcessing

inductive Place (D S : Type) where
  | process (block : ProcessBlock D) (memory : AudioMemory D S) (pc : ProcessPc D S)
  | flush (inEvents : Option (InputEvents D)) (hasOutEvents : Bool) (pc : FlushPc)
  | activate (sampleRate : D) (minFrames maxFrames : Nat) (pc : ActivatePc)
  | deactivate (pc : DeactivatePc)
  | startProcessing (pc : StartPc)
  | stopProcessing (pc : StopPc)
  | whole (call : Call D S)
  | returned (result : Result D S)

/-- A call under way, or behind its return. -/
structure Running (D S : Type) where
  thread : ThreadId
  place : Place D S

/-- A step goes on to the next place or returns. -/
inductive Next (π D S : Type) where
  | goto (pc : π)
  | ret (result : Result D S)

/-! ## `sProcess` -/

def processStep (impl : PluginImpl D S σ) (p : Plugin D σ) (thread : ThreadId)
    (block : ProcessBlock D) (memory : AudioMemory D S) :
    ProcessPc D S → Option (Plugin D σ × Next (ProcessPc D S) D S)
  | .assertThread => some (p.assertAudioThread thread "sProcess", .goto .tryEnter)
  | .tryEnter =>
    if p.contract.inProcess then some (p, .goto .busy)
    else some ({ p with contract := { p.contract with inProcess := true } }, .goto .loadActive)
  | .busy =>
    some (p.report .L12 "process()" "called concurrently with another process() call",
      .ret (.process { status := .error, memory := memory }))
  | .loadActive => some (p, .goto (if p.contract.active then .loadProcessing else .notReady))
  | .loadProcessing => some (p, .goto (if p.contract.processing then .firstLog else .notReady))
  | .notReady =>
    some (p.report .L09 "process()" "called while not active/processing",
      .goto (.leave { status := .error, memory := memory }))
  | .firstLog => some (p.logFirstProcess block.framesCount, .goto .check)
  | .check =>
    let (processable, contract) := checkProcessContracts p.contract block
    some ({ p with contract := contract },
      .goto (if processable then .body else .leave { status := .error, memory := memory }))
  | .body =>
    match impl.process p.base p.self block memory with
    | .error _ => none
    | .ok (out, memory) =>
      some (p.absorb out,
        .goto (.leave { status := out.value, pushed := out.pushed, memory := memory }))
  | .leave reply => some (p.leaveProcess, .ret (.process reply))

/-! ## `sFlush` -/

def flushStep (impl : PluginImpl D S σ) (p : Plugin D σ) (thread : ThreadId)
    (inEvents : Option (InputEvents D)) (hasOutEvents : Bool) :
    FlushPc → Option (Plugin D σ × Next FlushPc D S)
  | .testInProcess =>
    some (p, .goto (if p.contract.inProcess then .reportOverlap else .checkThread))
  | .reportOverlap =>
    some (p.report .P07 "params.flush()" "called concurrently with process()",
      .goto .checkThread)
  | .checkThread =>
    some (if p.contract.active then
        if p.threads.confirmedNotAudioThread thread then
          p.report .T03 "params.flush()" "must be on the audio thread while the plugin is active"
        else p
      else if p.threads.confirmedNotMainThread thread then
        p.report .T03 "params.flush()" "must be on the main thread while the plugin is inactive"
      else p, .goto .checkEvents)
  | .checkEvents =>
    some ({ p with contract := { p.contract with
        findings := p.contract.findings.reportAll (checkParamEvents p.contract inEvents none) } },
      .goto .body)
  | .body =>
    match impl.params with
    | none => none
    | some params =>
      match params.paramsFlush p.base p.self inEvents hasOutEvents with
      | .error _ => none
      | .ok out => some (p.absorb out, .ret (.flush out.pushed))

/-! ## `sActivate`, `sDeactivate` -/

def activateStep [DoubleOps D] (impl : PluginImpl D S σ) (p : Plugin D σ) (thread : ThreadId)
    (sampleRate : D) (minFrames maxFrames : Nat) :
    ActivatePc → Option (Plugin D σ × Next ActivatePc D S)
  | .assertThread => some (p.assertMainThread thread "sActivate", .goto .loadActive)
  | .loadActive => some (p, .goto (if p.contract.active then .reportActive else .checkBounds))
  | .reportActive =>
    some (p.report .L03 "activate()" "called while already active", .ret (.bool false))
  | .checkBounds =>
    if minFrames < 1 ∨ maxFrames < minFrames then
      some (p.report .L13 "activate()"
          (snprintf 96 s!"invalid frame bounds (min={minFrames}, max={maxFrames})"),
        .goto (.announce (max minFrames 1) (max maxFrames (max minFrames 1))))
    else some (p, .goto (.announce minFrames maxFrames))
  | .announce minFrames maxFrames =>
    let p := p.logLifecycle (snprintf 128 ("lifecycle: activate(sr=" ++
      DoubleOps.formatFixed 1 sampleRate ++ s!", min={minFrames}, max={maxFrames})"))
    some ({ p with
        sampleRate := sampleRate
        contract := { p.contract with beingActivated := true } }, .goto (.body minFrames maxFrames))
  | .body minFrames maxFrames =>
    let out := impl.activate p.base p.self sampleRate minFrames maxFrames
    some (p.absorb out,
      .goto (if out.value then .setFrameBounds minFrames maxFrames else .finish false))
  | .setFrameBounds minFrames maxFrames =>
    some ({ p with contract := p.contract.setFrameBounds minFrames maxFrames },
      .goto .setPortLayout)
  | .setPortLayout =>
    let inputs := Plugin.declaredPorts impl p.self true
    let outputs := Plugin.declaredPorts impl p.self false
    some ({ p with contract := p.contract.setPortLayout inputs outputs }, .goto .setParams)
  | .setParams =>
    some ({ p with contract := p.contract.setParams (Plugin.declaredParams impl) },
      .goto .setActive)
  | .setActive =>
    some ({ p with contract := { p.contract with active := true } }, .goto (.finish true))
  | .finish ok =>
    some ({ p with
        contract := { p.contract with beingActivated := false }
        firstProcessLogged := false }, .ret (.bool ok))

def deactivateStep (impl : PluginImpl D S σ) (p : Plugin D σ) (thread : ThreadId) :
    DeactivatePc → Option (Plugin D σ × Next DeactivatePc D S)
  | .assertThread => some (p.assertMainThread thread "sDeactivate", .goto .loadActive)
  | .loadActive => some (p, .goto (if p.contract.active then .loadProcessing else .reportInactive))
  | .reportInactive => some (p.report .L04 "deactivate()" "called while not active", .ret .void)
  | .loadProcessing => some (p, .goto (if p.contract.processing then .reportForced else .body))
  | .reportForced =>
    some (p.report .L05 "deactivate()"
      "called while still processing (missing stop_processing())", .goto .forceStop)
  | .forceStop => some (p.absorb (impl.stopProcessing p.base p.self), .goto .clearProcessing)
  | .clearProcessing =>
    some ({ p with contract := { p.contract with processing := false } }, .goto .body)
  | .body =>
    let p := p.logLifecycle "lifecycle: deactivate()"
    some (p.absorb (impl.deactivate p.base p.self), .goto .clearActive)
  | .clearActive => some ({ p with contract := { p.contract with active := false } }, .ret .void)

/-! ## `sStartProcessing`, `sStopProcessing` -/

def startStep (impl : PluginImpl D S σ) (p : Plugin D σ) (thread : ThreadId) :
    StartPc → Option (Plugin D σ × Next StartPc D S)
  | .assertThread => some (p.assertAudioThread thread "sStartProcessing", .goto .loadActive)
  | .loadActive => some (p, .goto (if p.contract.active then .loadProcessing else .reportInactive))
  | .reportInactive =>
    some (p.report .L07 "start_processing()" "called while not active", .ret (.bool false))
  | .loadProcessing =>
    some (p, .goto (if p.contract.processing then .reportProcessing else .body))
  | .reportProcessing =>
    some (p.report .L07 "start_processing()" "called while already processing", .ret (.bool true))
  | .body =>
    let p := p.logLifecycle "lifecycle: start_processing()"
    let out := impl.startProcessing p.base p.self
    some (p.absorb out, .goto (.setProcessing out.value))
  | .setProcessing ok =>
    some ({ p with contract := { p.contract with processing := ok } }, .goto (.invalidate ok))
  | .invalidate ok =>
    some ({ p with contract := p.contract.invalidateSteadyTime }, .ret (.bool ok))

def stopStep (impl : PluginImpl D S σ) (p : Plugin D σ) (thread : ThreadId) :
    StopPc → Option (Plugin D σ × Next StopPc D S)
  | .assertThread => some (p.assertAudioThread thread "sStopProcessing", .goto .loadActive)
  | .loadActive => some (p, .goto (if p.contract.active then .loadProcessing else .reportInactive))
  | .reportInactive =>
    some (p.report .L08 "stop_processing()" "called while not active", .goto .loadProcessing)
  | .loadProcessing => some (p, .goto (if p.contract.processing then .body else .reportIdle))
  | .reportIdle =>
    some (p.report .L08 "stop_processing()" "called while not processing", .ret .void)
  | .body =>
    let p := p.logLifecycle "lifecycle: stop_processing()"
    some (p.absorb (impl.stopProcessing p.base p.self), .goto .clearProcessing)
  | .clearProcessing =>
    some ({ p with contract := { p.contract with processing := false } }, .ret .void)

/-! ## The program -/

/-- Where a call on the vtable starts. -/
def startPlace : Call D S → Place D S
  | .process block memory => .process block memory .assertThread
  | .paramsFlush inEvents hasOutEvents => .flush inEvents hasOutEvents .testInProcess
  | .activate sampleRate minFrames maxFrames =>
    .activate sampleRate minFrames maxFrames .assertThread
  | .deactivate => .deactivate .assertThread
  | .startProcessing => .startProcessing .assertThread
  | .stopProcessing => .stopProcessing .assertThread
  | call => .whole call

/-- The place behind a step of one function. -/
def Next.place {π : Type} (wrap : π → Place D S) : Next π D S → Place D S
  | .goto pc => wrap pc
  | .ret result => .returned result

def step [DoubleOps D] (impl : PluginImpl D S σ) (thread : ThreadId) (p : Plugin D σ) :
    Place D S → Option (Instance D σ × Place D S)
  | .process block memory pc =>
    (processStep impl p thread block memory pc).map fun r =>
      (.alive r.1, r.2.place (.process block memory))
  | .flush inEvents hasOutEvents pc =>
    (flushStep impl p thread inEvents hasOutEvents pc).map fun r =>
      (.alive r.1, r.2.place (.flush inEvents hasOutEvents))
  | .activate sampleRate minFrames maxFrames pc =>
    (activateStep impl p thread sampleRate minFrames maxFrames pc).map fun r =>
      (.alive r.1, r.2.place (.activate sampleRate minFrames maxFrames))
  | .deactivate pc =>
    (deactivateStep impl p thread pc).map fun r => (.alive r.1, r.2.place .deactivate)
  | .startProcessing pc =>
    (startStep impl p thread pc).map fun r => (.alive r.1, r.2.place .startProcessing)
  | .stopProcessing pc =>
    (stopStep impl p thread pc).map fun r => (.alive r.1, r.2.place .stopProcessing)
  | .whole call =>
    match Plugin.call impl p thread call with
    | .error _ => none
    | .ok (i, result) => some (i, .returned result)
  | .returned _ => none

/-- `admits` says which calls the host makes in view of those under way. -/
def program [DoubleOps D] (impl : PluginImpl D S σ)
    (admits : List (Running D S) → ThreadId × Call D S → Bool := fun _ _ => true) :
    Interleaving.Program (Instance D σ) (ThreadId × Call D S) (Running D S) Unit where
  start request := { thread := request.1, place := startPlace request.2 }
  step i running :=
    match i with
    | .deleted _ => none
    | .alive p => (step impl running.thread p running.place).map fun r =>
      (r.1, { running with place := r.2 }, ())
  admits := admits

abbrev Pool (D S σ : Type) := Interleaving.Pool (Instance D σ) (Running D S)

section Steps

variable [DoubleOps D] {impl : PluginImpl D S σ}
  {admits : List (Running D S) → ThreadId × Call D S → Bool}

/-- A step is one of a call on a live instance. -/
theorem step_alive {i i' : Instance D σ} {c c' : Running D S} {w : Unit}
    (h : (program impl admits).step i c = some (i', c', w)) :
    ∃ p place, i = .alive p ∧ step impl c.thread p c.place = some (i', place) ∧
      c' = { c with place := place } := by
  cases i with
  | deleted contract => cases h
  | alive p =>
    obtain ⟨⟨i₁, place⟩, hs, heq⟩ := Option.map_eq_some_iff.mp h
    cases heq
    exact ⟨p, place, rfl, hs, rfl⟩

theorem advance_ok {pool : Pool D S σ} {i : Nat} {c : Running D S} {p : Plugin D σ}
    {i' : Instance D σ} {place : Place D S} (hc : pool.calls[i]? = some c)
    (hp : pool.shared = .alive p) (h : step impl c.thread p c.place = some (i', place)) :
    (program impl admits).next pool (.advance i) =
      .ok (⟨i', pool.calls.set i { c with place := place }⟩, some ()) := by
  refine Interleaving.next_advance hc ?_
  rw [hp]
  show (step impl c.thread p c.place).map _ = _
  rw [h]
  rfl

theorem step_process {p : Plugin D σ} {thread : ThreadId} {block : ProcessBlock D}
    {memory : AudioMemory D S} {pc : ProcessPc D S} {i : Instance D σ} {place : Place D S}
    (h : step impl thread p (.process block memory pc) = some (i, place)) :
    ∃ q next, processStep impl p thread block memory pc = some (q, next) ∧ i = .alive q ∧
      place = next.place (.process block memory) := by
  obtain ⟨⟨q, next⟩, hstep, heq⟩ := Option.map_eq_some_iff.mp h
  cases heq
  exact ⟨q, next, hstep, rfl, rfl⟩

end Steps

end Cvp.Threads
