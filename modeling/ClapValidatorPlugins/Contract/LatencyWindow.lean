/-
  Latency between `activate()` and `deactivate()`. `EffectPlugin::latency` reads the Latency
  parameter itself, and events, flushes and state loads store it at any time, so `clap.latency`
  answers alike all through an activation exactly if none of them leaves another value behind
  (`latency_frozen_iff`).
-/
import ClapValidatorPlugins.Contract.BufferGate
import ClapValidatorPlugins.Contract.CallEffects
import ClapValidatorPlugins.Contract.StateRule
import ClapValidatorPlugins.Events.Handlers
import ClapValidatorPlugins.State.Formats

namespace Cvp

open Assignments

variable {D S σ : Type}

/-- What the events of a list assign, in order. -/
def assignments (inEvents : Option (InputEvents D)) : List (ClapId × D) :=
  match inEvents.map InputEvents.headers with
  | some (.ok headers) => headers.filterMap paramValueOf
  | _ => []

namespace EffectPlugin

/-- Parameters as the call assigns them to an instance, in order: the events of a block that
    gets to the event loop, of a flush, the complete records of a state. -/
def writes [DoubleBits D] (p : Plugin D (State D)) (l : ThreadId × Call D S) : List (ClapId × D) :=
  match l.2 with
  | .process block _ =>
    if (p.processGate l.1 block).1 = .forward ∧
        block.audioInputs ≠ [] ∧ block.audioOutputs ≠ [] then
      assignments block.inEvents
    else []
  | .paramsFlush inEvents _ => assignments inEvents
  | .stateLoad stream => (StateFormat.counted kStateMagic).recordsIn stream
  | _ => []

variable [DoubleOps D]

/-- What `clap.latency` answered when the instance was activated, until it is deactivated. -/
def windowLatency (window : Option UInt32) (i : Instance D (State D)) (l : ThreadId × Call D S)
    (o : Reply D S) : Option UInt32 :=
  match l.2, o.result, i with
  | .activate .., .bool true, .alive p => some (latency p.base p.self)
  | .deactivate, _, _ => none
  | _, _, _ => window

variable [FloatOps S] [FloatCast D S] [DoubleBits D]

/-- Calls on an Effect instance with the value its activation began with. -/
def windowStep : Machine.Step (Instance D (State D) × Option UInt32) (ThreadId × Call D S)
    (Reply D S) Fault :=
  Machine.remembering (hostStep (impl : PluginImpl D S (State D))) windowLatency

/-- A `latency.get()` made here answers as at the start of the activation. -/
def Frozen (S : Type) [FloatOps S] [FloatCast D S] (s : Instance D (State D) × Option UInt32) :
    Prop :=
  ∀ value ∈ s.2, ∀ thread i (o : Reply D S),
    hostStep (impl : PluginImpl D S (State D)) s.1 (thread, .latencyGet) = .ok (i, o) →
      o.result = .number value.toNat

/-- The last value the call stores in Latency, if any, is the one the activation began with, as
    a sample count. -/
def KeepsLatency (s : Instance D (State D) × Option UInt32) (l : ThreadId × Call D S)
    (_ : Instance D (State D) × Option UInt32) (_ : Reply D S) : Prop :=
  ∀ value ∈ s.2, ∀ p, s.1 = .alive p →
    ∀ x, lastOf (writes p l) kParamLatency = some x → DoubleOps.toUInt32 x = value

/-! ## What a call does to Latency -/

omit [DoubleOps D] [FloatOps S] [FloatCast D S] [DoubleBits D] in
/-- Latency behind assignments to the parameters the Effect knows. -/
theorem assign_latency (values : ParamValues D) (rs : List (ClapId × D)) :
    assign values (rs.filter fun r => decide (r.1 ∈ paramIds)) kParamLatency =
      (lastOf rs kParamLatency).getD (values kParamLatency) := by
  rw [assign_apply, lastOf_filter (fun id => decide (id ∈ paramIds)) rs (by decide)]

omit [FloatOps S] [FloatCast D S] [DoubleBits D] in
/-- An event loop leaves Latency at its last assignment. -/
theorem consume_latency (base : Base D) (s : State D) (es : List (Event D)) :
    (consume (applyParamEvent base) s es).self.params kParamLatency =
      (lastOf (es.filterMap paramValueOf) kParamLatency).getD (s.params kParamLatency) := by
  have hself : ∀ s : State D, es.foldl (fun s e => (applyParamEvent base s e).self) s =
      { s with params := es.foldl (applyParamValue paramIds) s.params } := by
    induction es with
    | nil => exact fun s => rfl
    | cons e es ih =>
      intro s
      rw [List.foldl_cons, ih, applyParamEvent_self]
      rfl
  rw [consume_self, hself, foldl_applyParamValue]
  exact assign_latency s.params _

/-- Other calls leave the parameters alone. -/
def Keeps (call : Call D S) (s s' : State D) : Prop :=
  match call with
  | .process .. | .paramsFlush .. | .stateLoad _ => True
  | _ => s'.params = s.params

theorem keeps : StateRule (impl : PluginImpl D S (State D)) Keeps where
  unreached call _ := by cases call <;> trivial
  init _ _ _ := rfl
  activate _ _ _ _ _ _ _ _ := rfl
  deactivate _ _ := rfl
  stopAndDeactivate _ _ _ := rfl
  startProcessing _ _ := rfl
  stopProcessing _ _ := rfl
  reset _ _ := rfl
  onMainThread _ _ := rfl
  process _ _ _ _ _ _ := trivial
  paramsFlush _ _ _ _ _ _ _ _ := trivial
  stateSave := by
    rintro _ ⟨⟩ s stream
    exact Yields.andThen fun r => Yields.of_ok rfl
  stateLoad _ _ _ _ _ _ := trivial
  renderSet := by
    rintro _ ⟨⟩ s mode
    show (renderSet s mode).self.params = s.params
    unfold renderSet
    split <;> rfl

omit [DoubleBits D] in
theorem process_latency (base : Base D) (s : State D) (block : ProcessBlock D)
    (memory : AudioMemory D S) :
    Yields (process base s block memory) fun r => r.1.self.params kParamLatency =
      (lastOf (if block.audioInputs ≠ [] ∧ block.audioOutputs ≠ [] then
        assignments block.inEvents else []) kParamLatency).getD (s.params kParamLatency) := by
  unfold process
  split
  · rename_i input inputs output outputs hin hout
    rw [if_pos ⟨by simp [hin], by simp [hout]⟩]
    refine Yields.bind (P := fun headers => headers.filterMap paramValueOf =
      assignments block.inEvents) ?_ fun headers hheaders => ?_
    · intro headers h
      unfold assignments
      cases hevents : block.inEvents with
      | none =>
        rw [hevents] at h
        cases h
        rfl
      | some list =>
        rw [hevents] at h
        simp only [Option.map_some, show list.headers = .ok headers from h]
    · have hlatency := consume_latency base s headers
      rw [hheaders] at hlatency
      split
      · exact Yields.of_ok hlatency
      · refine Yields.andThen fun r => Yields.of_ok ?_
        have hfinish : ∀ (s : State D) (frames : UInt32) (silent : Bool),
            (finish base s frames silent).1.params = s.params := by
          intro s frames silent
          unfold finish
          split <;> rfl
        show (finish base _ _ _).1.params kParamLatency = _
        rw [hfinish]
        exact hlatency
  · rename_i hnone
    refine Yields.of_ok ?_
    rw [if_neg]
    · rfl
    · rintro ⟨hin, hout⟩
      obtain ⟨input, inputs, hin⟩ := List.exists_cons_of_ne_nil hin
      obtain ⟨output, outputs, hout⟩ := List.exists_cons_of_ne_nil hout
      exact hnone _ _ _ _ hin hout

omit [FloatOps S] [FloatCast D S] [DoubleBits D] in
theorem paramsFlush_latency (base : Base D) (s : State D) (inEvents : Option (InputEvents D))
    (hasOutEvents : Bool) :
    Yields (paramsFlush base s inEvents hasOutEvents) fun out => out.self.params kParamLatency =
      (lastOf (assignments inEvents) kParamLatency).getD (s.params kParamLatency) := by
  unfold paramsFlush
  refine Yields.bind (P := fun headers => headers.filterMap paramValueOf =
    assignments inEvents) ?_ fun headers hheaders => Yields.of_ok ?_
  · intro headers h
    unfold assignments
    cases inEvents with
    | none => cases h
    | some list => simp only [Option.map_some, show list.headers = .ok headers from h]
  · rw [← hheaders]
    exact consume_latency base s headers

omit [DoubleOps D] [FloatOps S] [FloatCast D S] in
theorem stateLoad_latency (s : State D) (stream : IStream) :
    Yields (stateLoad s stream) fun r => r.1.self.params kParamLatency =
      (lastOf ((StateFormat.counted kStateMagic).recordsIn stream) kParamLatency).getD
        (s.params kParamLatency) := by
  refine Yields.bind (loadCounted_stores kStateMagic paramIds s.params stream) fun r hr =>
    Yields.of_ok ?_
  show r.2.1 kParamLatency = _
  rw [hr]
  exact assign_latency s.params _

/-- Behind a call Latency is at the last value the call stores in it. -/
theorem latency_step {p q : Plugin D (State D)} {l : ThreadId × Call D S} {o : Reply D S}
    (hi : p.contract.inProcess = false)
    (h : hostStep (impl : PluginImpl D S (State D)) (.alive p) l = .ok (.alive q, o)) :
    q.self.params kParamLatency =
      (lastOf (writes p l) kParamLatency).getD (p.self.params kParamLatency) := by
  have hkeeps := Plugin.hostStep_self keeps h
  have hcall := hostStep_call h
  obtain ⟨thread, call⟩ := l
  cases call with
  | process block memory =>
    obtain ⟨a, hr, -⟩ := Instance.returned_alive hcall
    have hself := Plugin.sProcess_self thread block memory _ hr
    have hgate : (Plugin.processGate { p with hostCalls := [] } thread block).1 =
        (p.processGate thread block).1 := by
      rw [processGate_decides hi, processGate_decides (by exact hi)]
    dsimp only at hself
    rw [hgate] at hself
    unfold writes
    dsimp only
    split at hself
    · rename_i hforward
      obtain ⟨base, out, memory', hout, hself, -⟩ := hself
      simp only [hforward, true_and]
      rw [hself]
      exact process_latency base p.self block memory _ hout
    · rename_i hreject
      rw [if_neg fun h => hreject h.1, hself.1]
      rfl
  | paramsFlush inEvents hasOutEvents =>
    obtain ⟨a, hr, -⟩ := Instance.returned_alive hcall
    obtain ⟨params, hparams, base, out, hout, hself⟩ :=
      Plugin.sFlush_self thread inEvents hasOutEvents _ hr
    cases hparams
    rw [hself]
    exact paramsFlush_latency base p.self inEvents hasOutEvents out hout
  | stateLoad stream =>
    obtain ⟨a, hr, -⟩ := Instance.returned_alive hcall
    obtain ⟨state, hstate, out, stream', hout, hself⟩ := Plugin.sLoad_self thread stream _ hr
    cases hstate
    rw [hself]
    exact stateLoad_latency p.self stream _ hout
  | _ => exact congrFun hkeeps kParamLatency

theorem latencyGet_answers (p : Plugin D (State D)) (thread : ThreadId) :
    ∃ q calls, hostStep (impl : PluginImpl D S (State D)) (.alive p) (thread, .latencyGet) =
      .ok (.alive q,
        ⟨.number (DoubleOps.toUInt32 (p.self.params kParamLatency)).toNat, calls⟩) := by
  let p1 := Plugin.assertMainThread { p with hostCalls := [] } thread "sGet"
  let p2 := if !p1.contract.active && !p1.contract.beingActivated then
      p1.report .LT01 "latency.get()" "called while neither active nor being activated"
    else p1
  have hself : p2.self = p.self := Plugin.reportIf_self p1 _ _ _ _
  refine ⟨p2, p2.hostCalls, ?_⟩
  rw [← hself]
  rfl

/-! ## Runs -/

/-- Between two calls: Latency is what the activation began with. -/
def Begun (S : Type) [FloatOps S] [FloatCast D S] (s : Instance D (State D) × Option UInt32) :
    Prop :=
  ∀ p, s.1 = .alive p → Snapshot (impl : PluginImpl D S (State D)) p.contract p.self ∧
    ∀ value ∈ s.2, DoubleOps.toUInt32 (p.self.params kParamLatency) = value

theorem frozen_of_begun (s : Instance D (State D) × Option UInt32) (h : Begun S s) :
    Frozen S s := by
  intro value hvalue thread i o hget
  obtain ⟨p, hp, -⟩ := hostStep_ok hget
  obtain ⟨q, calls, hanswer⟩ := latencyGet_answers (S := S) p thread
  rw [hp, hanswer] at hget
  cases hget
  rw [(h p hp).2 value hvalue]

theorem begun_step (s : Instance D (State D) × Option UInt32) (l : ThreadId × Call D S)
    (s' : Instance D (State D) × Option UInt32) (o : Reply D S) (h : Begun S s)
    (hstep : windowStep s l = .ok (s', o)) (hkeep : KeepsLatency s l s' o) : Begun S s' := by
  obtain ⟨hcall, hwindow⟩ := Machine.remembering_ok hstep
  intro q hq
  obtain ⟨p, hp, -⟩ := hostStep_ok hcall
  rw [hp, hq] at hcall
  obtain ⟨hsnapshot, hvalue⟩ := h p hp
  refine ⟨hostStep_snapshot Flavor.effect.tame (.alive p) l (.alive q) o
    (fun p' hp' => by cases hp'; exact hsnapshot) hcall q rfl, fun value hmem => ?_⟩
  rw [latency_step hsnapshot.inProcess hcall]
  have hsame : value ∈ s.2 → DoubleOps.toUInt32
      ((lastOf (writes p l) kParamLatency).getD (p.self.params kParamLatency)) = value := by
    intro hmem
    cases hlast : lastOf (writes p l) kParamLatency with
    | none => exact hvalue value hmem
    | some x => exact hkeep value hmem p hp x hlast
  rw [hwindow, hp] at hmem
  unfold windowLatency at hmem
  split at hmem
  · rename_i hactivate _ hthis
    cases hthis
    have hnone : writes p l = [] := by
      unfold writes
      rw [hactivate]
    rw [hnone]
    exact Option.mem_some.mp hmem
  · cases hmem
  · exact hsame hmem

/-- A call that stores parameters leaves an instance behind and the activation open. -/
theorem open_of_writes {p : Plugin D (State D)} {l : ThreadId × Call D S}
    {i : Instance D (State D)} {o : Reply D S} {r : ClapId × D} (hr : r ∈ writes p l)
    (hcall : hostStep (impl : PluginImpl D S (State D)) (.alive p) l = .ok (i, o)) :
    (∃ q, i = .alive q) ∧ ∀ window, windowLatency window (.alive p) l o = window := by
  have hreturns : ∀ {α : Type} {x : Exec (Plugin D (State D) × α)}
      {f : Plugin D (State D) × α → Result D S},
      (x >>= fun r => Except.ok (Instance.alive r.1, f r)) = .ok (i, o.result) →
        ∃ q, i = .alive q := by
    intro α x f hx
    obtain ⟨r, -, hret⟩ := Except.bind_eq_ok hx
    exact ⟨r.1, (Prod.mk.inj (Except.ok.inj hret)).1.symm⟩
  have hcall := hostStep_call hcall
  obtain ⟨thread, call⟩ := l
  cases call with
  | process block memory => exact ⟨hreturns hcall, fun _ => rfl⟩
  | paramsFlush inEvents hasOutEvents => exact ⟨hreturns hcall, fun _ => rfl⟩
  | stateLoad stream => exact ⟨hreturns hcall, fun _ => rfl⟩
  | _ => exact absurd hr List.not_mem_nil

theorem keepsLatency_of_frozen (s : Instance D (State D) × Option UInt32)
    (l : ThreadId × Call D S) (s' : Instance D (State D) × Option UInt32) (o : Reply D S)
    (h : Begun S s) (hstep : windowStep s l = .ok (s', o)) (hfrozen : Frozen S s') :
    KeepsLatency s l s' o := by
  obtain ⟨hcall, hwindow⟩ := Machine.remembering_ok hstep
  intro value hvalue p hp x hlast
  rw [hp] at hcall hwindow
  have hmem : (kParamLatency, x) ∈ writes p l := mem_of_lastOf hlast
  obtain ⟨⟨q, hq⟩, hopen⟩ := open_of_writes hmem hcall
  rw [hopen] at hwindow
  have hlatency : q.self.params kParamLatency = x := by
    rw [hq] at hcall
    rw [latency_step (h p hp).1.inProcess hcall, hlast]
    rfl
  obtain ⟨q', calls, hanswer⟩ := latencyGet_answers (S := S) q 0
  rw [← hq] at hanswer
  have hsame := hfrozen value (hwindow ▸ hvalue) 0 _ _ hanswer
  rw [hlatency] at hsame
  exact UInt32.toNat_inj.mp (Result.number.inj hsame)

/-- All `latency.get()` results of every activation of a run are equal, wherever they are asked
    for, exactly if no call of the run that comes between a successful `activate()` and the next
    `deactivate()` leaves another sample count in Latency than the activation began with. -/
theorem latency_frozen_iff (host : Option Host) (calls : List (ThreadId × Call D S)) :
    Machine.AllStates (windowStep (S := S)) (Frozen S)
        (.alive (Plugin.create (impl : PluginImpl D S (State D)) host), none) calls ↔
      Machine.AllSteps windowStep KeepsLatency
        (.alive (Plugin.create (impl : PluginImpl D S (State D)) host), none) calls := by
  refine Machine.allStates_iff_allSteps (I := Begun S) frozen_of_begun begun_step
    keepsLatency_of_frozen ?_
  intro p hp
  cases hp
  exact ⟨Plugin.snapshot_create host, nofun⟩

/-- One core PARAM_VALUE: Latency to 64. -/
def latencyFlush : InputEvents ExactFloat :=
  { events := [some { size := sizeofParamValue, time := 0
                      body := .paramValue { paramId := kParamLatency } 64 }] }

/-- Active all the time, and the second query answers 64. -/
theorem latency_thaws :
    ∃ i os, Machine.run (hostStep (impl : PluginImpl ExactFloat ExactFloat _))
        (.alive (Plugin.create (impl : PluginImpl ExactFloat ExactFloat _) none))
        [(0, .init []), (0, .activate 48000 1 64), (0, .latencyGet),
          (0, .paramsFlush (some latencyFlush) false), (0, .latencyGet)] = .ok (i, os) ∧
      os.map Reply.result = [.bool true, .bool true, .number 0, .flush [], .number 64] :=
  ⟨_, _, rfl, rfl⟩

end EffectPlugin

end Cvp
