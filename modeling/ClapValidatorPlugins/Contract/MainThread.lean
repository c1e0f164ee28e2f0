/-
  The first call. `CVP_ASSERT_MAIN_THREAD` stands in front of `_threads.onInit` in `sInit`, so the
  check compares the caller with a default `std::thread::id`, and nothing has asked the host for
  `clap.thread-check` yet. A host that makes every [main-thread] call from one thread is accused
  by each of them up to the first `init()`, that one included, and by none after it
  (`mainThread_accused`).
-/
import ClapValidatorPlugins.Contract.CallEffects
import ClapValidatorPlugins.Contract.LegalHost
import ClapValidatorPlugins.Contract.LogGrowth

namespace Cvp

variable {D S σ : Type}

/-- The [main-thread] lines of a run so far. -/
def accuse (lines : List LogLine) (i : Instance D σ) (l : ThreadId × Call D S)
    (_ : Reply D S) : List LogLine :=
  match i with
  | .alive p => lines ++ p.mainLines l.1 l.2
  | .deleted _ => lines

/-- Calls with the lines of their [main-thread] checks. -/
def accusedStep [DoubleOps D] (impl : PluginImpl D S σ) :
    Machine.Step (Instance D σ × List LogLine) (ThreadId × Call D S) (Reply D S) Fault :=
  Machine.remembering (hostStep impl) accuse

/-- The [main-thread] calls up to the first `init()`, that one included. -/
def untilInit : List (ThreadId × Call D S) → List String
  | [] => []
  | (_, .init _) :: _ => ["sInit"]
  | (_, call) :: calls => call.mainCheck.toList ++ untilInit calls

/-- The line of a check that has no host to ask. -/
def heuristicLine (function : String) : LogLine :=
  ⟨.warning, ThreadChecker.message function "main" false⟩

/-! ## The checker -/

/-- Before `onInit` every thread is a foreign one. -/
theorem mainLine_default (thread : ThreadId) (function : String) :
    ({} : ThreadChecker).mainLine thread function = some (heuristicLine function) := rfl

/-- Behind `onInit` the thread that made the call is not. -/
theorem mainLine_onInit {host : Option Host} {thread : ThreadId} (h : OnMainThread host thread)
    (function : String) :
    (({} : ThreadChecker).onInit host thread).mainLine thread function = none := by
  unfold ThreadChecker.mainLine ThreadChecker.onInit
  cases host with
  | none => simp
  | some host =>
    dsimp only
    cases hcheck : host.threadCheck with
    | none => simp
    | some check =>
      rw [Option.bind_some]
      cases hmain : check.isMainThread with
      | none => simp
      | some isMain => simp [h check hcheck isMain hmain]

/-- What is known of an instance between two calls. -/
structure CheckerState (impl : PluginImpl D S σ) (host : Option Host) (thread : ThreadId)
    (p : Plugin D σ) : Prop where
  snapshot : Snapshot impl p.contract p.self
  host : p.host = host
  fresh : p.contract.initialized = false → p.threads = {}
  silent : p.contract.initialized = true →
    ∀ function, p.threads.mainLine thread function = none

section Steps

variable [DoubleOps D] {impl : PluginImpl D S σ} {host : Option Host} {thread : ThreadId}
  {p q : Plugin D σ} {l : ThreadId × Call D S} {o : Reply D S}

theorem checkerState_step (ht : Tame impl) (hhost : OnMainThread host thread)
    (h : CheckerState impl host thread p) (hl : l.2.mainCheck.isSome → l.1 = thread)
    (hstep : hostStep impl (.alive p) l = .ok (.alive q, o)) :
    CheckerState impl host thread q := by
  have he := Plugin.hostStep_effects ht h.snapshot.inProcess hstep
  have hsnapshot := hostStep_snapshot ht (.alive p) l (.alive q) o
    (fun p' hp' => by cases hp'; exact h.snapshot) hstep q rfl
  refine ⟨hsnapshot, he.host.trans h.host, ?_, ?_⟩
  · rw [he.initialized, he.threads]
    obtain ⟨from_, call⟩ := l
    cases call with
    | init earlyLog => exact nofun
    | _ => exact h.fresh
  · rw [he.initialized, he.threads]
    obtain ⟨caller, call⟩ := l
    cases call with
    | init earlyLog =>
      intro _ function
      obtain rfl : caller = thread := hl rfl
      unfold Call.threadsAfter
      dsimp only
      split
      · rename_i hinit
        exact h.silent hinit function
      · rename_i hinit
        rw [h.fresh (by simpa using hinit), h.host]
        exact mainLine_onInit hhost function
    | _ => exact h.silent

omit [DoubleOps D] in
/-- The lines of one call: none behind `init()`, before it one for each [main-thread] call. -/
theorem mainLines_of_state (h : CheckerState impl host thread p)
    (hl : l.2.mainCheck.isSome → l.1 = thread) :
    p.mainLines l.1 l.2 =
      if p.contract.initialized then [] else l.2.mainCheck.toList.map heuristicLine := by
  unfold Plugin.mainLines
  cases hcheck : l.2.mainCheck with
  | none => simp
  | some function =>
    have hthread := hl (by rw [hcheck]; rfl)
    by_cases hinit : p.contract.initialized = true
    · simp [hinit, hthread, h.silent hinit function]
    · have hfresh := h.fresh (by simpa using hinit)
      simp [hinit, hfresh, mainLine_default]

/-- The lines of a run. -/
theorem accused_run (ht : Tame impl) (hhost : OnMainThread host thread)
    {calls : List (ThreadId × Call D S)} :
    ∀ {p : Plugin D σ} {before lines : List LogLine} {i : Instance D σ} {os : List (Reply D S)},
      CheckerState impl host thread p → (∀ l ∈ calls, l.2.mainCheck.isSome → l.1 = thread) →
      Machine.run (accusedStep impl) (.alive p, before) calls = .ok ((i, lines), os) →
      lines = before ++
        if p.contract.initialized then [] else (untilInit calls).map heuristicLine := by
  induction calls with
  | nil =>
    intro p before lines i os _ _ hrun
    cases hrun
    simp [untilInit]
  | cons l calls ih =>
    intro p before lines i os h hl hrun
    obtain ⟨s₁, o, os₁, hstep, hrest, rfl⟩ := Machine.run_cons_ok hrun
    obtain ⟨hcall, hlines⟩ := Machine.remembering_ok hstep
    obtain ⟨i₁, lines₁⟩ := s₁
    have hhere := hl l List.mem_cons_self
    have hlines₁ : lines₁ = before ++ p.mainLines l.1 l.2 := hlines
    rw [mainLines_of_state h hhere] at hlines₁
    cases i₁ with
    | deleted contract =>
      -- nothing comes behind `destroy()`
      cases calls with
      | cons l' calls =>
        obtain ⟨s₂, o₂, os₂, hnext, -⟩ := Machine.run_cons_ok hrest
        exact absurd (Machine.remembering_ok hnext).1 nofun
      | nil =>
        cases hrest
        rw [hlines₁]
        cases l with
        | mk caller call => cases call <;> rfl
    | alive q =>
      have hq := checkerState_step ht hhost h hhere hcall
      have hinit := (Plugin.hostStep_effects ht h.snapshot.inProcess hcall).initialized
      have hlast := ih hq (fun l' hl' => hl l' (List.mem_cons_of_mem _ hl')) hrest
      rw [hlast, hlines₁, hinit, List.append_assoc]
      obtain ⟨caller, call⟩ := l
      cases call with
      | init earlyLog => simp [Call.initializedAfter, Call.mainCheck, untilInit]
      | _ =>
        by_cases hp : p.contract.initialized = true
        · simp [Call.initializedAfter, hp]
        · simp [Call.initializedAfter, untilInit, hp]

omit [DoubleOps D] in
theorem untilInit_eq_nil_iff {calls : List (ThreadId × Call D S)} :
    untilInit calls = [] ↔ ∀ l ∈ calls, l.2.mainCheck = none := by
  induction calls with
  | nil => simp [untilInit]
  | cons l calls ih =>
    obtain ⟨caller, call⟩ := l
    rw [List.forall_mem_cons]
    cases call with
    | init earlyLog => simp [untilInit, Call.mainCheck]
    | _ => simp [untilInit, ih]

/-- The lines of the check come first of what a call logs, and accuse by themselves. -/
theorem accusedStep_log (ht : Tame impl) {s s' : Instance D σ × List LogLine}
    (hstep : accusedStep impl s l = .ok (s', o)) :
    ∃ accused more, s'.2 = s.2 ++ accused ∧
      s'.1.contract.findings.log = s.1.contract.findings.log ++ accused ++ more ∧
      ∀ line ∈ more, line.accusesMain → line ∈ l.2.given := by
  obtain ⟨hcall, hlines⟩ := Machine.remembering_ok hstep
  obtain ⟨p, hp, hret, -⟩ := hostStep_ok hcall
  obtain ⟨more, hmore, haccuses⟩ := Plugin.call_extends ht l.1 l.2 _ hret
  rw [Plugin.checked_log] at hmore
  refine ⟨p.mainLines l.1 l.2, more, ?_, ?_, haccuses⟩
  · rw [hlines, hp]
    rfl
  · rw [hp]
    exact hmore

/-- Every line of a run is in the instance's log. -/
theorem accused_logged (ht : Tame impl) {calls : List (ThreadId × Call D S)} :
    ∀ {s s' : Instance D σ × List LogLine} {os : List (Reply D S)},
      (∀ line ∈ s.2, line ∈ s.1.contract.findings.log) →
      Machine.run (accusedStep impl) s calls = .ok (s', os) →
      ∀ line ∈ s'.2, line ∈ s'.1.contract.findings.log := by
  intro s s' os hs hrun
  refine Machine.run_invariant (P := fun s : Instance D σ × List LogLine =>
    ∀ line ∈ s.2, line ∈ s.1.contract.findings.log) ?_ hs hrun
  intro s l s' o h hstep line hline
  obtain ⟨accused, more, hlines, hlog, -⟩ := accusedStep_log ht hstep
  rw [hlines] at hline
  rw [hlog]
  exact List.mem_append_left _ ((List.mem_append.mp hline).elim
    (fun hold => List.mem_append_left _ (h line hold)) (List.mem_append_right _))

/-- And the log has no other [main-thread] lines. -/
theorem accused_only (ht : Tame impl) {calls : List (ThreadId × Call D S)}
    (hgiven : ∀ l ∈ calls, ∀ line ∈ l.2.given, line.accusesMain = false)
    {s s' : Instance D σ × List LogLine} {os : List (Reply D S)}
    (hs : s.1.contract.findings.log.filter LogLine.accusesMain = s.2.filter LogLine.accusesMain)
    (hrun : Machine.run (accusedStep impl) s calls = .ok (s', os)) :
    s'.1.contract.findings.log.filter LogLine.accusesMain =
      s'.2.filter LogLine.accusesMain := by
  refine Machine.run_invariant_of_labels (I := fun s : Instance D σ × List LogLine =>
    s.1.contract.findings.log.filter LogLine.accusesMain = s.2.filter LogLine.accusesMain)
    ?_ hgiven hs hrun
  intro s l s' o h hquiet hstep
  obtain ⟨accused, more, hlines, hlog, haccuses⟩ := accusedStep_log ht hstep
  have hmore : more.filter LogLine.accusesMain = [] :=
    List.filter_eq_nil_iff.mpr fun line hl haccusing => by
      rw [hquiet line (haccuses line hl haccusing)] at haccusing
      cases haccusing
  rw [hlines, hlog, List.filter_append, List.filter_append, hmore, List.append_nil, h,
    List.filter_append]

end Steps

/-! ## Runs -/

section Runs

variable [DoubleOps D] [FloatOps S] [FloatCast D S] [DoubleBits D]

/-- A run on a new instance in which every [main-thread] call comes from one thread that the host
    does not deny to be main: the [main-thread] checks emit one heuristic line for each of these
    calls up to the first `init()`, all of them in the instance's log, and none later; and the log
    has no other [main-thread] line, if the early log has none. So they are silent exactly in the
    runs without a [main-thread] call, and a run that starts with `init()` has one line, from that
    `init()`. -/
theorem mainThread_accused {flavor : Flavor} {host : Option Host} {thread : ThreadId}
    (hhost : OnMainThread host thread) {calls : List (ThreadId × Call D S)}
    (hmain : ∀ l ∈ calls, l.2.mainCheck.isSome → l.1 = thread)
    {i : Instance D (flavor.State D S)} {lines : List LogLine} {os : List (Reply D S)}
    (hrun : Machine.run (accusedStep (flavor.impl : PluginImpl D S _))
      (.alive (flavor.instantiate S host), []) calls = .ok ((i, lines), os)) :
    (lines = [] ↔ ∀ l ∈ calls, l.2.mainCheck = none) ∧
    lines = (untilInit calls).map heuristicLine ∧
    (∀ line ∈ lines, line ∈ i.contract.findings.log) ∧
    ((∀ l ∈ calls, ∀ line ∈ l.2.given, line.accusesMain = false) →
      i.contract.findings.log.filter LogLine.accusesMain = lines.filter LogLine.accusesMain) ∧
    ∀ caller early rest, calls = (caller, .init early) :: rest →
      lines = [heuristicLine "sInit"] := by
  have hstart : CheckerState (flavor.impl : PluginImpl D S _) host thread
      (flavor.instantiate S host) :=
    ⟨Plugin.snapshot_create host, rfl, fun _ => rfl, nofun⟩
  have hlines : lines = (untilInit calls).map heuristicLine :=
    accused_run flavor.tame hhost hstart hmain hrun
  refine ⟨?_, hlines, ?_, fun hgiven => accused_only flavor.tame hgiven rfl hrun, ?_⟩
  · rw [hlines, List.map_eq_nil_iff, untilInit_eq_nil_iff]
  · intro line hline
    exact accused_logged flavor.tame (fun line hstart => absurd hstart List.not_mem_nil) hrun line
      hline
  · intro caller early rest hcalls
    rw [hlines, hcalls]
    rfl

end Runs

/-- A host whose `clap.thread-check` says yes to everyone. -/
def agreeingHost : Host :=
  { threadCheck :=
      some { isMainThread := some fun _ => true, isAudioThread := some fun _ => true } }

/-- The shortest life. -/
def initCalls : List (ThreadId × Call ExactFloat ExactFloat) := [(0, .init []), (0, .destroy)]

theorem mainThread_accused_initCalls :
    let start : Instance ExactFloat (EffectPlugin.State ExactFloat) × List LogLine :=
      (.alive (Flavor.effect.instantiate ExactFloat (some agreeingHost)), [])
    ∃ i lines os, Machine.run (accusedStep
        (Flavor.effect.impl : PluginImpl ExactFloat ExactFloat _)) start initCalls =
        .ok ((i, lines), os) ∧
      (lines = [] ↔ ∀ l ∈ initCalls, l.2.mainCheck = none) ∧
      lines = (untilInit initCalls).map heuristicLine ∧
      (∀ line ∈ lines, line ∈ i.contract.findings.log) ∧
      i.contract.findings.log.filter LogLine.accusesMain = lines.filter LogLine.accusesMain ∧
      ∀ caller early rest, initCalls = (caller, .init early) :: rest →
        lines = [heuristicLine "sInit"] := by
  intro start
  obtain ⟨i, lines, os, hrun⟩ : ∃ i lines os, Machine.run (accusedStep
      (Flavor.effect.impl : PluginImpl ExactFloat ExactFloat _)) start initCalls =
        .ok ((i, lines), os) := ⟨_, _, _, rfl⟩
  have hhost : OnMainThread (some agreeingHost) 0 := by
    intro check hcheck isMain hisMain
    cases hcheck
    cases hisMain
    rfl
  have hmain : ∀ l ∈ initCalls, l.2.mainCheck.isSome → l.1 = 0 := by
    simp [initCalls]
  have haccused := @mainThread_accused ExactFloat ExactFloat _ _ _ _ Flavor.effect
    (some agreeingHost) 0 hhost initCalls hmain i lines os hrun
  obtain ⟨hsilent, hlines, hlogged, honly, hfirst⟩ := haccused
  exact ⟨i, lines, os, hrun, hsilent, hlines, hlogged, honly (by simp [initCalls, Call.given]),
    hfirst⟩

/-- One thread, and a host that confirms it: `init()` is accused all the same. -/
theorem mainThread_accused_at_init :
    let p : Plugin ExactFloat (EffectPlugin.State ExactFloat) :=
      Flavor.effect.instantiate ExactFloat (some agreeingHost)
    OnMainThread p.host 0 ∧ p.mainLines 0 (.init [] : Call ExactFloat ExactFloat) =
        [⟨.warning, "clap-validator-plugin: 'sInit' was called outside the [main-thread] " ++
          "contract (heuristic: host lacks clap.thread-check)"⟩] ∧
      heuristicLine "sInit" ∈ (p.sInit (EffectPlugin.impl :
        PluginImpl ExactFloat ExactFloat _) 0 []).1.contract.findings.log := by
  intro p
  refine ⟨?_, by decide +kernel, ?_⟩
  · intro check hcheck isMain hisMain
    cases hcheck
    cases hisMain
    rfl
  · have htame : Tame (EffectPlugin.impl : PluginImpl ExactFloat ExactFloat _) := Flavor.effect.tame
    obtain ⟨more, hmore, -⟩ := Plugin.unaccusing_sInit (p := p) htame 0 []
    rw [hmore]
    refine List.mem_append_left more ?_
    decide +kernel

end Cvp
