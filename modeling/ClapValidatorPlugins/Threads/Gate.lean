/-
  The gate of `process()`. `_inProcess` counts the calls between `tryEnterProcess` and
  `leaveProcess`, so at most one is there at any time; a call that finds the flag up reports L12,
  returns an error and leaves the flag as it is (`process_exclusion`). This holds from the creation
  of an instance on, whatever else is called meanwhile.
-/
import ClapValidatorPlugins.Contract.BlockFindings
import ClapValidatorPlugins.Events.Probes
import ClapValidatorPlugins.Threads.Instance

namespace Cvp

open Threads

variable {D S σ : Type}

/-! ## What leaves the flag alone -/

namespace Plugin

variable {impl : PluginImpl D S σ} {p q : Plugin D σ}

@[simp] theorem report_inProcess (v : Violation) (function detail : String) :
    (p.report v function detail).contract.inProcess = p.contract.inProcess := rfl

@[simp] theorem logLifecycle_inProcess (message : String) :
    (p.logLifecycle message).contract.inProcess = p.contract.inProcess :=
  (moves_logLifecycle p message).inProcess

@[simp] theorem assertMainThread_inProcess (thread : ThreadId) (function : String) :
    (p.assertMainThread thread function).contract.inProcess = p.contract.inProcess :=
  (moves_assertMainThread p thread function).inProcess

@[simp] theorem assertAudioThread_inProcess (thread : ThreadId) (function : String) :
    (p.assertAudioThread thread function).contract.inProcess = p.contract.inProcess :=
  (moves_assertAudioThread p thread function).inProcess

@[simp] theorem logFirstProcess_inProcess (framesCount : UInt32) :
    (p.logFirstProcess framesCount).contract.inProcess = p.contract.inProcess :=
  (moves_logFirstProcess p framesCount).1.inProcess

@[simp] theorem checkProcessContracts_inProcess (m : ContractMonitor) (block : ProcessBlock D) :
    (checkProcessContracts m block).2.inProcess = m.inProcess := by
  obtain ⟨valid, steadyEnd, h⟩ := rebased_eq block m
  have hfield : (rebased block m).inProcess = m.inProcess := by rw [h]
  exact hfield

@[simp] theorem absorb_inProcess {α : Type} (out : Outcome D σ α) :
    (p.absorb out).contract.inProcess = p.contract.inProcess := by
  obtain ⟨n, h⟩ := shifts_absorb p out
  exact h.field ContractMonitor.inProcess fun _ => rfl

/-! ## Whole calls -/

theorem after_inProcess (call : Call D S) (s : σ) (made : Bool) (m : ContractMonitor) :
    (call.after impl s made m).inProcess = m.inProcess := by
  cases call with
  | activate sampleRate minFrames maxFrames =>
    dsimp only [Call.after]
    split <;> rfl
  | deactivate =>
    dsimp only [Call.after]
    split <;> rfl
  | startProcessing =>
    dsimp only [Call.after]
    split <;> rfl
  | process block memory =>
    dsimp only [Call.after]
    split
    · rfl
    · rename_i hidle
      split
      · exact (Bool.not_eq_true _ ▸ hidle).symm
      · rfl
  | guiCreate api isFloating native =>
    dsimp only [Call.after]
    split <;> rfl
  | _ => rfl

/-- A call that runs from its start to its end leaves the gate as it found it. -/
theorem call_inProcess [DoubleOps D] (ht : Tame impl) (thread : ThreadId) (call : Call D S) :
    Yields (Plugin.call impl p thread call) fun r =>
      r.1.contract.inProcess = p.contract.inProcess := by
  refine (call_moves ht thread call).mono fun r hr => ?_
  obtain ⟨i, result⟩ := r
  cases i with
  | alive q =>
    obtain ⟨made, asked, hmoves⟩ := hr.moves q rfl
    exact (congrArg ContractMonitor.inProcess hmoves.tracked).trans
      (after_inProcess call q.self made p.contract.tracked)
  | deleted contract =>
    show contract.tracked.inProcess = p.contract.tracked.inProcess
    rw [hr.ends contract rfl]

end Plugin

/-! ## One step -/

namespace Threads

open Plugin

/-- Between `tryEnterProcess` and `leaveProcess`. -/
def ProcessPc.holdsGate : ProcessPc D S → Bool
  | .assertThread | .tryEnter | .busy => false
  | .loadActive | .loadProcessing | .notReady | .firstLog | .check | .body | .leave _ => true

def Place.holdsGate : Place D S → Bool
  | .process _ _ pc => pc.holdsGate
  | _ => false

def Running.holdsGate (c : Running D S) : Bool := c.place.holdsGate

/-- What a step of `sProcess` reports. -/
def processCodes (p : Plugin D σ) (thread : ThreadId) (block : ProcessBlock D) :
    ProcessPc D S → List Violation
  | .assertThread => p.audioCodes thread
  | .busy => [.L12]
  | .notReady => [.L09]
  | .check => blockCodes p.contract block
  | .tryEnter | .loadActive | .loadProcessing | .firstLog | .body | .leave _ => []

section Steps

variable {impl : PluginImpl D S σ} {p q : Plugin D σ} {thread : ThreadId}

theorem processStep_shifts {block : ProcessBlock D} {memory : AudioMemory D S}
    {pc : ProcessPc D S} {next : Next (ProcessPc D S) D S}
    (h : processStep impl p thread block memory pc = some (q, next)) :
    ∃ f, Shifts p q (processCodes p thread block pc) f := by
  cases pc with
  | assertThread => cases h; exact ⟨_, (moves_assertAudioThread p thread "sProcess").toShifts⟩
  | tryEnter =>
    rw [processStep] at h
    split at h
    · cases h
      exact ⟨_, (Moves.refl p).toShifts⟩
    · cases h
      exact ⟨_, (moves_set p (fun m => { m with inProcess := true }) rfl rfl).toShifts⟩
  | busy => cases h; exact ⟨_, (moves_report p _ _ _).toShifts⟩
  | loadActive => cases h; exact ⟨_, (Moves.refl p).toShifts⟩
  | loadProcessing => cases h; exact ⟨_, (Moves.refl p).toShifts⟩
  | notReady => cases h; exact ⟨_, (moves_report p _ _ _).toShifts⟩
  | firstLog => cases h; exact ⟨_, (moves_logFirstProcess p _).1.toShifts⟩
  | check => cases h; exact ⟨_, (moves_checkProcessContracts p block).toShifts⟩
  | body =>
    rw [processStep] at h
    split at h
    · cases h
    · cases h
      obtain ⟨n, hn⟩ := shifts_absorb p _
      exact ⟨_, hn⟩
  | leave reply => cases h; exact ⟨_, (moves_leaveProcess p).toShifts⟩

/-- L12 comes from behind a failed `tryEnterProcess` only, and most codes from nowhere. -/
theorem not_mem_processCodes {v : Violation} {block : ProcessBlock D} {pc : ProcessPc D S}
    (hthread : v ≠ .T02) (hready : v ≠ .L09) (hblock : v.isBlockCode = false)
    (hbusy : pc = .busy → v ≠ .L12) : v ∉ processCodes p thread block pc := by
  cases pc with
  | assertThread => exact fun h => hthread (eq_of_mem_audioCodes h)
  | busy => simpa [processCodes] using hbusy rfl
  | notReady => simpa [processCodes] using hready
  | check =>
    intro hmem
    obtain ⟨f, hf, rfl⟩ := List.mem_map.mp hmem
    exact Bool.false_ne_true (hblock.symm.trans (blockFindings_codes p.contract block f hf))
  | _ => simp [processCodes]

/-- The flag follows the call through the gate. -/
theorem processStep_gate {block : ProcessBlock D} {memory : AudioMemory D S}
    {pc : ProcessPc D S} {next : Next (ProcessPc D S) D S}
    (h : processStep impl p thread block memory pc = some (q, next))
    (hheld : pc.holdsGate = true → p.contract.inProcess = true) :
    q.contract.inProcess.toInt - p.contract.inProcess.toInt =
      (next.place (Place.process block memory)).holdsGate.toInt - pc.holdsGate.toInt := by
  have kept : ∀ {q : Plugin D σ} {b : Bool}, q.contract.inProcess = p.contract.inProcess →
      b = pc.holdsGate → q.contract.inProcess.toInt - p.contract.inProcess.toInt =
        b.toInt - pc.holdsGate.toInt := by
    intro q b hq hb
    rw [hq, hb, Int.sub_self, Int.sub_self]
  cases pc with
  | tryEnter =>
    rw [processStep] at h
    split at h
    · cases h
      exact kept rfl rfl
    · rename_i hfree
      cases h
      rw [eq_false_of_ne_true hfree]
      rfl
  | leave reply =>
    cases h
    rw [hheld rfl]
    rfl
  | body =>
    rw [processStep] at h
    split at h
    · cases h
    · cases h
      exact kept (absorb_inProcess _) rfl
  | loadActive =>
    cases h
    refine kept rfl ?_
    split <;> rfl
  | loadProcessing =>
    cases h
    refine kept rfl ?_
    split <;> rfl
  | check =>
    cases h
    refine kept (checkProcessContracts_inProcess _ _) ?_
    split <;> rfl
  | assertThread => cases h; exact kept (assertAudioThread_inProcess _ _) rfl
  | busy => cases h; exact kept (report_inProcess _ _ _) rfl
  | notReady => cases h; exact kept (report_inProcess _ _ _) rfl
  | firstLog => cases h; exact kept (logFirstProcess_inProcess _) rfl

theorem flushStep_inProcess {inEvents : Option (InputEvents D)} {hasOutEvents : Bool}
    {pc : FlushPc} {next : Next FlushPc D S}
    (h : flushStep impl p thread inEvents hasOutEvents pc = some (q, next)) :
    q.contract.inProcess = p.contract.inProcess := by
  cases pc with
  | testInProcess => cases h; rfl
  | reportOverlap => cases h; rfl
  | checkThread =>
    cases h
    split_ifs <;> rfl
  | checkEvents => cases h; rfl
  | body =>
    rw [flushStep] at h
    split at h
    · cases h
    · split at h
      · cases h
      · cases h
        exact absorb_inProcess _

theorem activateStep_inProcess [DoubleOps D] {sampleRate : D} {minFrames maxFrames : Nat}
    {pc : ActivatePc} {next : Next ActivatePc D S}
    (h : activateStep impl p thread sampleRate minFrames maxFrames pc = some (q, next)) :
    q.contract.inProcess = p.contract.inProcess := by
  cases pc with
  | checkBounds =>
    rw [activateStep] at h
    split at h <;> cases h <;> rfl
  | assertThread => cases h; exact assertMainThread_inProcess _ _
  | announce lo hi => cases h; exact logLifecycle_inProcess _
  | body lo hi => cases h; exact absorb_inProcess _
  | _ => cases h; rfl

theorem deactivateStep_inProcess {pc : DeactivatePc} {next : Next DeactivatePc D S}
    (h : deactivateStep impl p thread pc = some (q, next)) :
    q.contract.inProcess = p.contract.inProcess := by
  cases pc with
  | assertThread => cases h; exact assertMainThread_inProcess _ _
  | forceStop => cases h; exact absorb_inProcess _
  | body => cases h; exact (absorb_inProcess _).trans (logLifecycle_inProcess _)
  | _ => cases h; rfl

theorem startStep_inProcess {pc : StartPc} {next : Next StartPc D S}
    (h : startStep impl p thread pc = some (q, next)) :
    q.contract.inProcess = p.contract.inProcess := by
  cases pc with
  | assertThread => cases h; exact assertAudioThread_inProcess _ _
  | body => cases h; exact (absorb_inProcess _).trans (logLifecycle_inProcess _)
  | _ => cases h; rfl

theorem stopStep_inProcess {pc : StopPc} {next : Next StopPc D S}
    (h : stopStep impl p thread pc = some (q, next)) :
    q.contract.inProcess = p.contract.inProcess := by
  cases pc with
  | assertThread => cases h; exact assertAudioThread_inProcess _ _
  | body => cases h; exact (absorb_inProcess _).trans (logLifecycle_inProcess _)
  | _ => cases h; rfl

/-- A step of another function neither moves the flag nor enters or leaves the gate. -/
theorem step_gate [DoubleOps D] (ht : Tame impl) {place place' : Place D S} {i : Instance D σ}
    (h : step impl thread p place = some (i, place'))
    (hheld : place.holdsGate = true → p.contract.inProcess = true) :
    i.contract.inProcess.toInt - p.contract.inProcess.toInt =
      place'.holdsGate.toInt - place.holdsGate.toInt := by
  have kept : ∀ {π : Type} {wrap : π → Place D S} {r : Plugin D σ × Next π D S},
      (∀ pc, (wrap pc).holdsGate = false) → r.1.contract.inProcess = p.contract.inProcess →
      (Instance.alive r.1).contract.inProcess.toInt - p.contract.inProcess.toInt =
        (r.2.place wrap).holdsGate.toInt - false.toInt := by
    intro π wrap r hwrap hr
    have hnext : (r.2.place wrap).holdsGate = false := by
      cases r.2 with
      | goto pc => exact hwrap pc
      | ret result => rfl
    rw [Instance.contract, hr, hnext, Int.sub_self, Int.sub_self]
  cases place with
  | process block memory pc =>
    obtain ⟨r, hr, heq⟩ := Option.map_eq_some_iff.mp h
    cases heq
    exact processStep_gate hr hheld
  | flush inEvents hasOutEvents pc =>
    obtain ⟨r, hr, heq⟩ := Option.map_eq_some_iff.mp h
    cases heq
    exact kept (fun _ => rfl) (flushStep_inProcess hr)
  | activate sampleRate minFrames maxFrames pc =>
    obtain ⟨r, hr, heq⟩ := Option.map_eq_some_iff.mp h
    cases heq
    exact kept (fun _ => rfl) (activateStep_inProcess hr)
  | deactivate pc =>
    obtain ⟨r, hr, heq⟩ := Option.map_eq_some_iff.mp h
    cases heq
    exact kept (fun _ => rfl) (deactivateStep_inProcess hr)
  | startProcessing pc =>
    obtain ⟨r, hr, heq⟩ := Option.map_eq_some_iff.mp h
    cases heq
    exact kept (fun _ => rfl) (startStep_inProcess hr)
  | stopProcessing pc =>
    obtain ⟨r, hr, heq⟩ := Option.map_eq_some_iff.mp h
    cases heq
    exact kept (fun _ => rfl) (stopStep_inProcess hr)
  | whole call =>
    rw [step] at h
    split at h
    · cases h
    · rename_i i' result hcall
      cases h
      rw [call_inProcess ht thread call _ hcall, Int.sub_self]
      rfl
  | returned result => cases h

/-- The gate is entered at `tryEnterProcess`. -/
theorem holdsGate_of_step [DoubleOps D] {place place' : Place D S} {i : Instance D σ}
    (h : step impl thread p place = some (i, place')) (hholds : place'.holdsGate = true) :
    place.holdsGate = true ∨
      (∃ block memory, place = .process block memory .tryEnter) ∧
        p.contract.inProcess = false := by
  have other : ∀ {π : Type} {wrap : π → Place D S} {next : Next π D S},
      (∀ pc, (wrap pc).holdsGate = false) → (next.place wrap).holdsGate = false := by
    intro π wrap next hwrap
    cases next with
    | goto pc => exact hwrap pc
    | ret result => rfl
  cases place with
  | process block memory pc =>
    obtain ⟨q, next, hr, -, rfl⟩ := step_process h
    cases pc with
    | assertThread => cases hr; cases hholds
    | tryEnter =>
      rw [processStep] at hr
      split at hr
      · cases hr
        cases hholds
      · rename_i hfree
        exact .inr ⟨⟨_, _, rfl⟩, eq_false_of_ne_true hfree⟩
    | busy => cases hr; cases hholds
    | _ => exact .inl rfl
  | whole call =>
    rw [step] at h
    split at h <;> cases h
    cases hholds
  | returned result => cases h
  | _ =>
    obtain ⟨r, hr, heq⟩ := Option.map_eq_some_iff.mp h
    cases heq
    rw [other fun _ => rfl] at hholds
    cases hholds

end Steps

/-! ## Every interleaving -/

section Pools

open Interleaving

variable {impl : PluginImpl D S σ} {admits : List (Running D S) → ThreadId × Call D S → Bool}
  {pool pool' : Pool D S σ}

theorem startPlace_holdsGate (call : Call D S) : (startPlace call).holdsGate = false := by
  cases call <;> rfl

theorem inProcess_iff (h : pool.shared.contract.inProcess.toInt =
      pool.calls.countP Running.holdsGate) :
    pool.shared.contract.inProcess = true ↔ ∃ c ∈ pool.calls, c.holdsGate = true := by
  rw [← List.countP_pos_iff]
  cases hb : pool.shared.contract.inProcess with
  | true =>
    rw [hb, Bool.toInt_true] at h
    exact iff_of_true rfl (by omega)
  | false =>
    rw [hb, Bool.toInt_false] at h
    exact iff_of_false Bool.false_ne_true (by omega)

theorem holdsGate_le_one (h : pool.shared.contract.inProcess.toInt =
    pool.calls.countP Running.holdsGate) : pool.calls.countP Running.holdsGate ≤ 1 := by
  cases hb : pool.shared.contract.inProcess with
  | true => rw [hb, Bool.toInt_true] at h; omega
  | false => rw [hb, Bool.toInt_false] at h; omega

variable [DoubleOps D]

/-- The flag counts the calls inside the gate. -/
theorem inProcess_eq (ht : Tame impl) (hidle : pool.shared.contract.inProcess.toInt =
      pool.calls.countP Running.holdsGate)
    (h : Machine.Reachable (program impl admits).next pool pool') :
    pool'.shared.contract.inProcess.toInt = pool'.calls.countP Running.holdsGate := by
  have hcount := count_from (fun i : Instance D σ => i.contract.inProcess.toInt) 0
    (fun request => startPlace_holdsGate request.2) ?_
    (hidle.trans (Int.zero_add _).symm) h
  · exact hcount.trans (Int.zero_add _)
  · intro i c i' c' w hheld hs
    obtain ⟨p, place, rfl, hstep, rfl⟩ := step_alive hs
    refine step_gate ht hstep fun hp => ?_
    have hpos := hheld hp
    cases hb : p.contract.inProcess with
    | true => rfl
    | false =>
      rw [Instance.contract, hb] at hpos
      exact absurd hpos (by decide)

theorem advance_process {i : Nat} {thread : ThreadId} {block : ProcessBlock D}
    {memory : AudioMemory D S} {pc : ProcessPc D S} {p q : Plugin D σ}
    {next : Next (ProcessPc D S) D S}
    (hc : pool.calls[i]? = some ⟨thread, .process block memory pc⟩) (hp : pool.shared = .alive p)
    (h : processStep impl p thread block memory pc = some (q, next)) :
    (program impl admits).next pool (.advance i) =
      .ok (⟨.alive q, pool.calls.set i ⟨thread, next.place (.process block memory)⟩⟩, some ()) := by
  refine advance_ok hc hp ?_
  rw [step, h]
  rfl

/-- Call `i` waits at the gate. Its next step changes nothing, and whenever it comes to the one
    after that, it counts one L12, leaves the flag as it is and returns an error. -/
def TurnsAway (impl : PluginImpl D S σ) (pool : Pool D S σ) (i : Nat) (thread : ThreadId)
    (memory : AudioMemory D S) : Prop :=
  ∃ pool₁, (program impl).next pool (.advance i) = .ok (pool₁, some ()) ∧
    pool₁.shared = pool.shared ∧
    ∀ moves pool₂ seen p₂, (∀ move ∈ moves, move ≠ .advance i) →
      Machine.run (program impl).next pool₁ moves = .ok (pool₂, seen) → pool₂.shared = .alive p₂ →
      ∃ p₃, (program impl).next pool₂ (.advance i) = .ok (⟨.alive p₃, pool₂.calls.set i
          ⟨thread, .returned (.process { status := .error, memory := memory })⟩⟩, some ()) ∧
        Counted p₂.contract.findings p₃.contract.findings [.L12] ∧
        p₃.contract.inProcess = p₂.contract.inProcess

theorem turnsAway {i : Nat} {thread : ThreadId} {block : ProcessBlock D} {memory : AudioMemory D S}
    {p : Plugin D σ} (hc : pool.calls[i]? = some ⟨thread, .process block memory .tryEnter⟩)
    (hp : pool.shared = .alive p) (hheld : p.contract.inProcess = true) :
    TurnsAway impl pool i thread memory := by
  have hstep : processStep impl p thread block memory .tryEnter = some (p, .goto .busy) := by
    rw [processStep, if_pos hheld]
  have hi : i < pool.calls.length := (List.getElem?_eq_some_iff.mp hc).1
  refine ⟨_, advance_process hc hp hstep, hp.symm, fun moves pool₂ seen p₂ hmoves hrun hp₂ => ?_⟩
  have hbusy : pool₂.calls[i]? = some ⟨thread, .process block memory .busy⟩ :=
    run_frame hmoves (List.getElem?_set_self hi) hrun
  exact ⟨_, advance_process hbusy hp₂ rfl, counted_report _ _ _ _, rfl⟩

end Pools

section Exclusion

variable [DoubleOps D] [FloatOps S] [FloatCast D S] [DoubleBits D]

/-- From the creation of an instance on, in every interleaving of calls on it: at most one call is
    inside the gate; the flag is up exactly while one is; a `process()` call that comes to the gate
    then is turned away; and no other step of a `process()` call counts an L12. -/
theorem process_exclusion {flavor : Flavor} {host : Option Host}
    {pool : Pool D S (flavor.State D S)}
    (h : Machine.Reachable (program (flavor.impl : PluginImpl D S _)).next
      { shared := .alive (flavor.instantiate S host) } pool) :
    pool.calls.countP Running.holdsGate ≤ 1 ∧
    (pool.shared.contract.inProcess = true ↔ ∃ c ∈ pool.calls, c.holdsGate = true) ∧
    ∀ i thread block memory pc p,
      pool.calls[i]? = some ⟨thread, .process block memory pc⟩ → pool.shared = .alive p →
      (pc = .tryEnter → (∃ c ∈ pool.calls, c.holdsGate = true) →
        TurnsAway (flavor.impl : PluginImpl D S _) pool i thread memory) ∧
      (pc ≠ .busy → ∀ q calls seen,
        (program (flavor.impl : PluginImpl D S _)).next pool (.advance i) =
          .ok (⟨.alive q, calls⟩, seen) →
        q.contract.findings.counters .L12 = p.contract.findings.counters .L12) := by
  have hcount := inProcess_eq flavor.tame rfl h
  refine ⟨holdsGate_le_one hcount, inProcess_iff hcount, fun i thread block memory pc p hc hp => ?_⟩
  constructor
  · rintro rfl hheld
    have hflag := (inProcess_iff hcount).mpr hheld
    rw [hp] at hflag
    exact turnsAway hc hp hflag
  · intro hpc q calls seen hnext
    rcases Interleaving.next_cases hnext with
      ⟨request, hmove, -⟩ | ⟨j, c, i', c', w, hmove, hc', hs, -, hpool⟩
    · cases hmove
    · cases hmove
      rw [hc] at hc'
      cases hc'
      rw [hp] at hs
      obtain ⟨p', place, hp', hstep, -⟩ := step_alive hs
      cases hp'
      obtain ⟨q', next, hprocess, rfl, -⟩ := step_process hstep
      cases hpool
      obtain ⟨f, hshifts⟩ := processStep_shifts hprocess
      rw [hshifts.counts.counters]
      exact bump_of_not_mem _ (not_mem_processCodes nofun nofun rfl fun h => absurd h hpc)

end Exclusion

/-- One block behind the gate, another one on its way to it. -/
def crossedBlocks : List (Interleaving.Move (ThreadId × Call ExactFloat ExactFloat)) :=
  let block := Call.process (Flavor.probeBlock ExactFloat 1) Flavor.quietMemory
  [.enter (1, block), .advance 0, .advance 0, .enter (2, block), .advance 1]

theorem process_exclusion_crossedBlocks :
    ∃ pool seen, Machine.run
        (program (Flavor.effect.impl : PluginImpl ExactFloat ExactFloat _)).next
        { shared := .alive (Flavor.effect.instantiate ExactFloat none) } crossedBlocks =
          .ok (pool, seen) ∧
      pool.calls.countP Running.holdsGate ≤ 1 ∧
      TurnsAway (Flavor.effect.impl : PluginImpl ExactFloat ExactFloat _) pool 1 2
        Flavor.quietMemory := by
  refine ⟨_, _, rfl, ?_⟩
  have hreach : Machine.Reachable
      (program (Flavor.effect.impl : PluginImpl ExactFloat ExactFloat _)).next
      { shared := .alive (Flavor.effect.instantiate ExactFloat none) } _ := ⟨crossedBlocks, _, rfl⟩
  have h := process_exclusion hreach
  exact ⟨h.1, ((h.2.2 1 2 _ _ _ _ rfl rfl).1 rfl) ⟨_, List.mem_cons_self, rfl⟩⟩

end Threads

end Cvp
