/-
  The caches `activate()` fills. The wrapper relies on the host for `captureActivateSnapshot` not
  to run under a block: `activate()` does not look at `_inProcess`, and `process()` enters its gate
  before it looks at `_active`. No block meets a capture in a run in which `activate()` finds the
  gate free at its `isActive` test and no block enters it from there to the last capture; a step
  that breaks this is at most three steps of `activate()` away from the race
  (`capture_race_free`).
-/
import ClapValidatorPlugins.Threads.Gate

namespace Cvp.Threads

open Interleaving Machine

variable {D S σ : Type}

/-! ## The main thread and the audio threads -/

/-- One main thread makes `activate` and `deactivate` calls, one after the other; audio threads
    make `start_processing`, `stop_processing` and `process` calls at any time. -/
def isMainThreadCall (c : Running D S) : Bool :=
  match c.place with
  | .activate _ _ _ _ | .deactivate _ => true
  | _ => false

def hostAdmits (calls : List (Running D S)) (request : ThreadId × Call D S) : Bool :=
  match request.2 with
  | .activate _ _ _ | .deactivate => calls.all fun c => !isMainThreadCall c
  | .startProcessing | .stopProcessing | .process _ _ => true
  | _ => false

/-- From behind its `isActive` test to its last capture. -/
def ActivatePc.pastTest : ActivatePc → Bool
  | .checkBounds | .announce _ _ | .body _ _ | .setFrameBounds _ _ | .setPortLayout
  | .setParams => true
  | .assertThread | .loadActive | .reportActive | .setActive | .finish _ => false

/-- In `captureActivateSnapshot`. -/
def ActivatePc.captures : ActivatePc → Bool
  | .setFrameBounds _ _ | .setPortLayout | .setParams => true
  | _ => false

def Running.isPastTest (c : Running D S) : Bool :=
  match c.place with
  | .activate _ _ _ pc => pc.pastTest
  | _ => false

def Running.captures (c : Running D S) : Bool :=
  match c.place with
  | .activate _ _ _ pc => pc.captures
  | _ => false

/-- No call is in `captureActivateSnapshot` while one is between `tryEnterProcess` and
    `leaveProcess`. -/
def RaceFree (pool : Pool D S σ) : Prop :=
  ∀ c ∈ pool.calls, ∀ d ∈ pool.calls, c.captures = true → d.holdsGate = false

/-- What has to hold of a step: `activate()` passes its `isActive` test only while the gate is
    free, and `process()` enters the gate only while no `activate()` is past that test and not
    yet behind its captures. -/
def OrderlyStep (pool : Pool D S σ) (move : Move (ThreadId × Call D S)) : Prop :=
  ∀ i c p, move = .advance i → pool.calls[i]? = some c → pool.shared = .alive p →
    ((∃ sampleRate lo hi, c.place = .activate sampleRate lo hi .loadActive) →
      p.contract.active = false → p.contract.inProcess = false) ∧
    ((∃ block memory, c.place = .process block memory .tryEnter) →
      p.contract.inProcess = false → ∀ d ∈ pool.calls, d.isPastTest = false)

/-- Decides `OrderlyStep`. -/
def orderly (pool : Pool D S σ) : Move (ThreadId × Call D S) → Bool
  | .enter _ => true
  | .advance i =>
    match pool.calls[i]?, pool.shared with
    | some c, .alive p =>
      match c.place with
      | .activate _ _ _ .loadActive => p.contract.active || !p.contract.inProcess
      | .process _ _ .tryEnter => p.contract.inProcess || pool.calls.all fun d => !d.isPastTest
      | _ => true
    | _, _ => true

theorem orderly_iff (pool : Pool D S σ) (move : Move (ThreadId × Call D S)) :
    orderly pool move = true ↔ OrderlyStep pool move := by
  cases move with
  | enter request => exact iff_of_true rfl fun i c p hmove => nomatch hmove
  | advance i =>
    rw [orderly]
    split
    · rename_i c p hc hp
      have hall : OrderlyStep pool (.advance i) ↔
          ((∃ sampleRate lo hi, c.place = .activate sampleRate lo hi .loadActive) →
            p.contract.active = false → p.contract.inProcess = false) ∧
          ((∃ block memory, c.place = .process block memory .tryEnter) →
            p.contract.inProcess = false → ∀ d ∈ pool.calls, d.isPastTest = false) := by
        refine ⟨fun h => h i c p rfl hc hp, fun h j c' p' hmove hc' hp' => ?_⟩
        cases hmove
        cases hc.symm.trans hc'
        cases hp.symm.trans hp'
        exact h
      rw [hall]
      split
      · rename_i hplace
        simp [hplace, ← Bool.not_eq_true, imp_iff_not_or]
      · rename_i hplace
        simp [hplace, ← Bool.not_eq_true, imp_iff_not_or]
      · rename_i hactivate hprocess
        refine iff_of_true rfl ⟨?_, ?_⟩
        · rintro ⟨sampleRate, lo, hi, hplace⟩
          exact absurd hplace (hactivate sampleRate lo hi)
        · rintro ⟨block, memory, hplace⟩
          exact absurd hplace (hprocess block memory)
    · rename_i hnone
      refine iff_of_true rfl fun j c p hmove hc hp => ?_
      cases hmove
      exact absurd hp (hnone c p hc)

instance (pool : Pool D S σ) (move : Move (ThreadId × Call D S)) :
    Decidable (OrderlyStep pool move) := decidable_of_iff _ (orderly_iff pool move)

/-! ## One step -/

section Steps

variable {impl : PluginImpl D S σ} {p : Plugin D σ} {thread : ThreadId} {i : Instance D σ}

theorem ActivatePc.pastTest_of_captures {pc : ActivatePc} (h : pc.captures = true) :
    pc.pastTest = true := by
  cases pc <;> first | rfl | cases h

theorem Running.isPastTest_of_captures {c : Running D S} (h : c.captures = true) :
    c.isPastTest = true := by
  unfold Running.captures at h
  unfold Running.isPastTest
  split at h
  · exact ActivatePc.pastTest_of_captures h
  · cases h

/-- The window opens at the `isActive` test. -/
theorem pastTest_of_step [DoubleOps D] {place place' : Place D S}
    (h : step impl thread p place = some (i, place'))
    (hpast : Running.isPastTest ⟨thread, place'⟩ = true) :
    Running.isPastTest ⟨thread, place⟩ = true ∨
      (∃ sampleRate lo hi, place = .activate sampleRate lo hi .loadActive) ∧
        p.contract.active = false := by
  have other : ∀ {π : Type} {wrap : π → Place D S} {next : Next π D S},
      (∀ pc, Running.isPastTest ⟨thread, wrap pc⟩ = false) →
      Running.isPastTest ⟨thread, next.place wrap⟩ = false := by
    intro π wrap next hwrap
    cases next with
    | goto pc => exact hwrap pc
    | ret result => rfl
  cases place with
  | activate sampleRate minFrames maxFrames pc =>
    obtain ⟨r, hr, heq⟩ := Option.map_eq_some_iff.mp h
    cases heq
    cases pc with
    | loadActive =>
      cases hr
      cases ha : p.contract.active with
      | true => rw [ha] at hpast; cases hpast
      | false => exact .inr ⟨⟨_, _, _, rfl⟩, rfl⟩
    | checkBounds => exact .inl rfl
    | announce lo hi => exact .inl rfl
    | body lo hi => exact .inl rfl
    | setFrameBounds lo hi => exact .inl rfl
    | setPortLayout => exact .inl rfl
    | setParams => exact .inl rfl
    | assertThread => cases hr; cases hpast
    | reportActive => cases hr; cases hpast
    | setActive => cases hr; cases hpast
    | finish ok => cases hr; cases hpast
  | whole call =>
    rw [step] at h
    split at h <;> cases h
    cases hpast
  | returned result => cases h
  | _ =>
    obtain ⟨r, hr, heq⟩ := Option.map_eq_some_iff.mp h
    cases heq
    rw [other fun _ => rfl] at hpast
    cases hpast

end Steps

/-! ## Orderly runs -/

section Runs

variable {impl : PluginImpl D S σ} {pool pool' : Pool D S σ} {move : Move (ThreadId × Call D S)}

/-- The flag counts the calls inside the gate, and there is none from the `isActive` test of an
    `activate()` to its last capture. -/
structure Separated (pool : Pool D S σ) : Prop where
  gate : pool.shared.contract.inProcess.toInt = pool.calls.countP Running.holdsGate
  window : ∀ c ∈ pool.calls, ∀ d ∈ pool.calls, c.isPastTest = true → d.holdsGate = false

theorem Separated.raceFree (h : Separated pool) : RaceFree pool :=
  fun c hc d hd hcaptures => h.window c hc d hd (Running.isPastTest_of_captures hcaptures)

theorem startPlace_isPastTest (request : ThreadId × Call D S) :
    Running.isPastTest ⟨request.1, startPlace request.2⟩ = false := by
  obtain ⟨thread, call⟩ := request
  cases call <;> rfl

theorem isPastTest_of_holdsGate {c : Running D S} (h : c.holdsGate = true) :
    c.isPastTest = false := by
  obtain ⟨thread, place⟩ := c
  cases place with
  | process block memory pc => rfl
  | _ => cases h

variable [DoubleOps D]

theorem separated_next (ht : Tame impl) (h : Separated pool) {seen : Option Unit}
    (hnext : (program impl hostAdmits).next pool move = .ok (pool', seen))
    (horderly : OrderlyStep pool move) : Separated pool' := by
  refine ⟨inProcess_eq ht h.gate ((Reachable.refl pool).tail hnext), ?_⟩
  rcases next_cases hnext with ⟨request, -, -, -, rfl⟩ | ⟨i, c, i', c', w, rfl, hc, hs, -, rfl⟩
  · have hpast := startPlace_isPastTest request
    have hgate := startPlace_holdsGate request.2
    intro c hc d hd hcp
    rcases List.mem_append.mp hc with hc | hc
    · rcases List.mem_append.mp hd with hd | hd
      · exact h.window c hc d hd hcp
      · rw [List.mem_singleton.mp hd]
        exact hgate
    · rw [List.mem_singleton.mp hc] at hcp
      exact absurd (hpast.symm.trans hcp) Bool.false_ne_true
  · obtain ⟨p, place, hp, hstep, rfl⟩ := step_alive hs
    have hmem : c ∈ pool.calls := List.mem_of_getElem? hc
    obtain ⟨htest, henter⟩ := horderly i c p rfl hc hp
    -- an old call inside the gate, a new call past the test
    have hleft : ∀ d ∈ pool.calls, Running.isPastTest ⟨c.thread, place⟩ = true →
        d.holdsGate = false := by
      intro d hd hpast
      rcases pastTest_of_step hstep hpast with hbefore | ⟨hplace, hinactive⟩
      · exact h.window c hmem d hd hbefore
      · have hfree : ¬ pool.shared.contract.inProcess = true := by
          rw [hp, Instance.contract, htest hplace hinactive]
          exact Bool.false_ne_true
        rw [inProcess_iff h.gate] at hfree
        exact eq_false_of_ne_true fun hheld => hfree ⟨d, hd, hheld⟩
    -- a new call inside the gate, an old call past the test
    have hright : ∀ d ∈ pool.calls, d.isPastTest = true →
        Running.holdsGate (⟨c.thread, place⟩ : Running D S) = false := by
      intro d hd hpast
      refine eq_false_of_ne_true fun hheld => ?_
      rcases holdsGate_of_step hstep hheld with hbefore | ⟨hplace, hfree⟩
      · exact Bool.false_ne_true ((h.window d hd c hmem hpast).symm.trans hbefore)
      · exact Bool.false_ne_true ((henter hplace hfree d hd).symm.trans hpast)
    intro a ha b hb hpast
    rcases List.mem_or_eq_of_mem_set ha with ha | rfl
    · rcases List.mem_or_eq_of_mem_set hb with hb | rfl
      · exact h.window a ha b hb hpast
      · exact hright a ha hpast
    · rcases List.mem_or_eq_of_mem_set hb with hb | rfl
      · exact hleft b hb hpast
      · refine eq_false_of_ne_true fun hheld => ?_
        exact Bool.false_ne_true ((isPastTest_of_holdsGate hheld).symm.trans hpast)

/-! ## Why each condition is needed -/

/-- Some continuation has a call in `captureActivateSnapshot` while one is inside the gate. -/
def RaceAhead (impl : PluginImpl D S σ) (pool : Pool D S σ) : Prop :=
  ∃ moves pool' seen,
    Machine.run (program impl hostAdmits).next pool moves = .ok (pool', seen) ∧ ¬ RaceFree pool'

section Ahead

variable {thread : ThreadId} {sampleRate : D} {minFrames maxFrames j k : Nat} {p q : Plugin D σ}
  {d : Running D S} {pc pc' : ActivatePc}

/-- A step of `activate()` while the call inside the gate stays there. -/
theorem raceAhead_step (hp : pool.shared = .alive p)
    (hc : pool.calls[j]? = some ⟨thread, .activate sampleRate minFrames maxFrames pc⟩)
    (hd : pool.calls[k]? = some d) (hjk : j ≠ k)
    (hstep : activateStep impl p thread sampleRate minFrames maxFrames pc = some (q, .goto pc'))
    (hrest : ∀ pool₁ : Pool D S σ, pool₁.shared = .alive q →
      pool₁.calls[j]? = some ⟨thread, .activate sampleRate minFrames maxFrames pc'⟩ →
      pool₁.calls[k]? = some d → RaceAhead impl pool₁) : RaceAhead impl pool := by
  have hnext : (program impl hostAdmits).next pool (.advance j) = .ok (⟨.alive q, pool.calls.set j
      ⟨thread, .activate sampleRate minFrames maxFrames pc'⟩⟩, some ()) := by
    refine advance_ok hc hp ?_
    rw [step, hstep]
    rfl
  have hj : j < pool.calls.length := (List.getElem?_eq_some_iff.mp hc).1
  obtain ⟨moves, pool', seen, hrun, hrace⟩ :=
    hrest ⟨.alive q, pool.calls.set j _⟩ rfl (List.getElem?_set_self hj)
      ((List.getElem?_set_ne hjk).trans hd)
  exact ⟨_, _, _, run_cons hnext hrun, hrace⟩

/-- Behind its test, `activate()` is at most three steps away from its captures. -/
theorem raceAhead_of_pastTest (ht : Tame impl) {c : Running D S} (hp : pool.shared = .alive p)
    (hc : pool.calls[j]? = some c) (hpast : c.isPastTest = true) (hd : pool.calls[k]? = some d)
    (hheld : d.holdsGate = true) : RaceAhead impl pool := by
  have hjk : j ≠ k := by
    rintro rfl
    rw [hc] at hd
    cases hd
    exact Bool.false_ne_true ((isPastTest_of_holdsGate hheld).symm.trans hpast)
  obtain ⟨thread, place⟩ := c
  cases place with
  | activate sampleRate minFrames maxFrames pc =>
    have hhere : ∀ {pool : Pool D S σ} {pc : ActivatePc}, pc.captures = true →
        pool.calls[j]? = some ⟨thread, .activate sampleRate minFrames maxFrames pc⟩ →
        pool.calls[k]? = some d → RaceAhead impl pool := by
      intro pool pc hcaptures hc hd
      refine ⟨[], pool, [], rfl, fun hfree => ?_⟩
      have hnot := hfree _ (List.mem_of_getElem? hc) d (List.mem_of_getElem? hd) hcaptures
      exact Bool.false_ne_true (hnot.symm.trans hheld)
    have hbody : ∀ {pool : Pool D S σ} {p : Plugin D σ} {lo hi : Nat}, pool.shared = .alive p →
        pool.calls[j]? = some ⟨thread, .activate sampleRate minFrames maxFrames (.body lo hi)⟩ →
        pool.calls[k]? = some d → RaceAhead impl pool := by
      intro pool p lo hi hp hc hd
      have hstep : activateStep impl p thread sampleRate minFrames maxFrames (.body lo hi) = some
          (p.absorb (impl.activate p.base p.self sampleRate lo hi),
            .goto (.setFrameBounds lo hi)) := by
        rw [activateStep, ht.activateSucceeds]
        rfl
      exact raceAhead_step hp hc hd hjk hstep fun pool₁ _ hc₁ hd₁ => hhere rfl hc₁ hd₁
    have hannounce : ∀ {pool : Pool D S σ} {p : Plugin D σ} {lo hi : Nat},
        pool.shared = .alive p →
        pool.calls[j]? = some ⟨thread, .activate sampleRate minFrames maxFrames (.announce lo hi)⟩ →
        pool.calls[k]? = some d → RaceAhead impl pool := by
      intro pool p lo hi hp hc hd
      exact raceAhead_step hp hc hd hjk rfl fun pool₁ hp₁ hc₁ hd₁ => hbody hp₁ hc₁ hd₁
    cases pc with
    | checkBounds =>
      by_cases hbounds : minFrames < 1 ∨ maxFrames < minFrames
      · exact raceAhead_step hp hc hd hjk (by rw [activateStep, if_pos hbounds])
          fun pool₁ hp₁ hc₁ hd₁ => hannounce hp₁ hc₁ hd₁
      · exact raceAhead_step hp hc hd hjk (by rw [activateStep, if_neg hbounds])
          fun pool₁ hp₁ hc₁ hd₁ => hannounce hp₁ hc₁ hd₁
    | announce lo hi => exact hannounce hp hc hd
    | body lo hi => exact hbody hp hc hd
    | setFrameBounds lo hi => exact hhere rfl hc hd
    | setPortLayout => exact hhere rfl hc hd
    | setParams => exact hhere rfl hc hd
    | _ => cases hpast
  | _ => cases hpast

/-- A step out of order leads there. -/
theorem raceAhead_of_disorder (ht : Tame impl) (h : Separated pool) {seen : Option Unit}
    (hnext : (program impl hostAdmits).next pool move = .ok (pool', seen))
    (hdisorder : ¬ OrderlyStep pool move) : RaceAhead impl pool' := by
  by_contra hno
  refine hdisorder fun i c p hmove hc hp => ?_
  subst hmove
  rcases next_cases hnext with ⟨request, hmove, -⟩ | ⟨i', c', s, c₁, w, hmove, hc', hs, -, rfl⟩
  · cases hmove
  cases hmove
  rw [hc] at hc'
  cases hc'
  obtain ⟨p', place, hp', hstep, rfl⟩ := step_alive hs
  rw [hp] at hp'
  cases hp'
  have hi : i < pool.calls.length := (List.getElem?_eq_some_iff.mp hc).1
  have hself : (pool.calls.set i ⟨c.thread, place⟩)[i]? = some ⟨c.thread, place⟩ :=
    List.getElem?_set_self hi
  obtain ⟨thread, cplace⟩ := c
  constructor
  · rintro ⟨sampleRate, lo, hi, rfl⟩ hinactive
    refine eq_false_of_ne_true fun hflag => hno ?_
    have hshared : pool.shared.contract.inProcess = true := by
      rw [hp]
      exact hflag
    obtain ⟨d, hd, hheld⟩ := (inProcess_iff h.gate).mp hshared
    obtain ⟨k, hik, hdk⟩ := exists_other hc hd fun heq => by
      rw [heq] at hheld
      cases hheld
    have htest : step impl thread p (.activate sampleRate lo hi .loadActive) =
        some (.alive p, .activate sampleRate lo hi .checkBounds) := by
      show some (_, Place.activate sampleRate lo hi (if p.contract.active then _ else _)) = _
      rw [if_neg (by rw [hinactive]; exact Bool.false_ne_true)]
    cases htest.symm.trans hstep
    exact raceAhead_of_pastTest ht rfl hself rfl ((List.getElem?_set_ne hik).trans hdk) hheld
  · rintro ⟨block, memory, rfl⟩ hfree d hd
    refine eq_false_of_ne_true fun hpast => hno ?_
    obtain ⟨k, hik, hdk⟩ := exists_other hc hd fun heq => by
      rw [heq] at hpast
      cases hpast
    obtain ⟨q, next, hr, rfl, rfl⟩ := step_process hstep
    rw [processStep, if_neg (by rw [hfree]; exact Bool.false_ne_true)] at hr
    cases hr
    exact raceAhead_of_pastTest ht rfl ((List.getElem?_set_ne hik).trans hdk) hpast hself rfl

end Ahead

end Runs

section Flavors

variable [DoubleOps D] [FloatOps S] [FloatCast D S] [DoubleBits D]

/-- From any instance between calls: in a run whose steps are all orderly no capture ever meets a
    block inside the gate, and the first step that is not leads to a state from which
    `activate()` can go on to its captures while the block is inside. -/
theorem capture_race_free {flavor : Flavor} {p : Plugin D (flavor.State D S)}
    (h : flavor.Reachable p) (moves : List (Move (ThreadId × Call D S))) :
    let next := (program (flavor.impl : PluginImpl D S _) hostAdmits).next
    let start : Pool D S (flavor.State D S) := { shared := .alive p }
    AllSteps next (fun pool move _ _ => OrderlyStep pool move) start moves →
      AllStates next RaceFree start moves ∧
      ∀ pool seen move pool' o, run next start moves = .ok (pool, seen) →
        next pool move = .ok (pool', o) → ¬ OrderlyStep pool move →
        RaceAhead (flavor.impl : PluginImpl D S _) pool' := by
  intro next start hsteps
  have hstart : Separated start := by
    refine ⟨?_, fun c hc => absurd hc List.not_mem_nil⟩
    show p.contract.inProcess.toInt = 0
    rw [(snapshot_of_reachable h).inProcess]
    rfl
  have hkeep : ∀ pool move pool' o, Separated pool → next pool move = .ok (pool', o) →
      OrderlyStep pool move → Separated pool' := fun pool move pool' o hpool hnext horderly =>
    separated_next flavor.tame hpool hnext horderly
  refine ⟨allStates_of_allSteps (fun pool hpool => hpool.raceFree) hkeep hstart hsteps, ?_⟩
  intro pool seen move pool' o hrun hnext hdisorder
  exact raceAhead_of_disorder flavor.tame (hsteps.run hkeep hstart hrun) hnext hdisorder

end Flavors

/-! ## A block behind `activate()`, and one under it -/

abbrev HostMove := Move (ThreadId × Call ExactFloat ExactFloat)

/-- A new instance is activated, which captures the bounds 1 and 512, and started; then a block
    passes the gate. -/
def firstBlock : List HostMove :=
  .enter (0, .activate 48000 1 512) :: List.replicate 10 (.advance 0) ++
  .enter (1, .startProcessing) :: List.replicate 6 (.advance 1) ++
  .enter (1, .process (Flavor.probeBlock ExactFloat 1) Flavor.quietMemory) ::
  List.replicate 2 (.advance 2)

theorem capture_race_free_firstBlock :
    let next := (program (Flavor.effect.impl : PluginImpl ExactFloat ExactFloat _) hostAdmits).next
    let start : Pool ExactFloat ExactFloat _ :=
      { shared := .alive (Flavor.effect.instantiate ExactFloat none) }
    (∃ pool seen, run next start firstBlock = .ok (pool, seen) ∧
      pool.shared.contract.maxFrames = 512 ∧
      pool.calls.map Running.holdsGate = [false, false, true]) ∧
    AllStates next RaceFree start firstBlock :=
  ⟨⟨_, _, rfl, rfl, rfl⟩, (capture_race_free (⟨none, .refl _⟩ : Flavor.effect.Reachable _)
    firstBlock (by decide +kernel)).1⟩

/-- A block reaches the plugin; before it returns the host deactivates the plugin (L05) and
    activates it again with other frame bounds. -/
def forcedStop : List HostMove :=
  .enter (1, .process (Flavor.probeBlock ExactFloat 1) Flavor.quietMemory) ::
  List.replicate 6 (.advance 0) ++
  .enter (0, .deactivate) :: List.replicate 8 (.advance 1) ++
  .enter (0, .activate 48000 64 64) :: List.replicate 6 (.advance 2)

theorem forcedStop_races :
    ∃ pool seen p,
      run (program (Flavor.effect.impl : PluginImpl ExactFloat ExactFloat _) hostAdmits).next
        { shared := .alive (Flavor.effect.running ExactFloat 48000) } forcedStop =
          .ok (pool, seen) ∧
      pool.shared = .alive p ∧ p.contract.minFrames = 64 ∧ ¬ RaceFree pool := by
  refine ⟨_, _, _, rfl, rfl, rfl, fun hfree => ?_⟩
  -- the third call is between two captures, the first one inside the gate
  exact Bool.noConfusion (hfree _ (List.mem_cons_of_mem _ (List.mem_cons_of_mem _
    List.mem_cons_self)) _ List.mem_cons_self rfl)

end Cvp.Threads
