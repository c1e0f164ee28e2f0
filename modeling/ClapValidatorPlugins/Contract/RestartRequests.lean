/-
  The Effect's `request_restart`. A changed Latency needs a restart, and `applyParamEvent` asks for
  one; the record loop of `stateLoad` stores into the same parameter and asks for nothing. So the
  changes of an active Effect are answered exactly where none of them comes from a state, and there
  is a host to ask (`restarts_iff`).
-/
import ClapValidatorPlugins.Contract.LatencyWindow

namespace Cvp

variable {D S σ : Type}

/-! ## What a call does to Latency, in order -/

namespace EffectPlugin

inductive Mark where
  /-- a store, and whether it changes the value -/
  | store (changes : Bool)
  /-- `host()->request_restart(host())` -/
  | restart
  deriving DecidableEq, Repr

/-- While the plugin is active, every change is followed by a request. -/
def Answered (ms : List Mark) : Prop :=
  ∀ front back, ms = front ++ .store true :: back → .restart ∈ back

/-- Every request comes right behind a change. -/
def Caused (ms : List Mark) : Prop :=
  ∀ front back, ms = front ++ .restart :: back → front.getLast? = some (.store true)

theorem Answered.append {ms ms' : List Mark} (h : Answered ms) (h' : Answered ms') :
    Answered (ms ++ ms') := by
  intro front back heq
  rcases List.append_eq_append_iff.mp heq with ⟨rest, rfl, hrest⟩ | ⟨rest, rfl, hrest⟩
  · exact h' rest back hrest
  · cases rest with
    | nil => exact h' [] back hrest.symm
    | cons m rest =>
      cases hrest
      exact List.mem_append_left _ (h front rest rfl)

theorem Caused.append {ms ms' : List Mark} (h : Caused ms) (h' : Caused ms') :
    Caused (ms ++ ms') := by
  intro front back heq
  rcases List.append_eq_append_iff.mp heq with ⟨rest, rfl, hrest⟩ | ⟨rest, rfl, hrest⟩
  · rw [List.getLast?_append, h' rest back hrest]
    rfl
  · cases rest with
    | nil => cases h' [] back hrest.symm
    | cons m rest =>
      cases hrest
      exact h front rest rfl

/-- Where nothing is asked for, a change is one too many. -/
theorem answered_iff_of_not_mem {ms : List Mark} (h : .restart ∉ ms) :
    Answered ms ↔ .store true ∉ ms := by
  constructor
  · intro hanswered hmem
    obtain ⟨front, back, rfl⟩ := List.append_of_mem hmem
    exact h (List.mem_append_right _ (List.mem_cons_of_mem _ (hanswered front back rfl)))
  · rintro hnone front back rfl
    exact absurd (List.mem_append_right _ List.mem_cons_self) hnone

theorem caused_of_not_mem {ms : List Mark} (h : .restart ∉ ms) : Caused ms := by
  rintro front back rfl
  exact absurd (List.mem_append_right _ List.mem_cons_self) h

theorem answered_nil : Answered [] :=
  (answered_iff_of_not_mem List.not_mem_nil).mpr List.not_mem_nil

theorem answered_change : Answered [.store true, .restart] := by
  intro front back h
  rcases front with _ | ⟨m, _ | ⟨m', front⟩⟩
  · cases h
    exact List.mem_cons_self
  · cases h
  · simp at h

theorem caused_change : Caused [.store true, .restart] := by
  intro front back h
  rcases front with _ | ⟨m, _ | ⟨m', front⟩⟩
  · cases h
  · cases h
    rfl
  · simp at h

variable [DoubleOps D]

/-- An event: the store of `applyParamEvent`, then what it asks of the host. -/
def eventMarks (base : Base D) (s : State D) (header : Event D) : List Mark :=
  (match paramValueOf header with
    | some (id, x) =>
      if id = kParamLatency then [.store (DoubleOps.ne (s.params kParamLatency) x)] else []
    | none => []) ++
  List.replicate ((applyParamEvent base s header).effects.count (.host .requestRestart)) .restart

def loopMarks (base : Base D) : State D → List (Event D) → List Mark
  | _, [] => []
  | s, header :: headers =>
    eventMarks base s header ++ loopMarks base (applyParamEvent base s header).self headers

/-- The stores of the record loop. -/
def recordMarks : D → List (ClapId × D) → List Mark
  | _, [] => []
  | latency, (id, x) :: records =>
    if id = kParamLatency then .store (DoubleOps.ne latency x) :: recordMarks x records
    else recordMarks latency records

/-- A block that gets to the event loop. -/
def blockMarks (base : Base D) (s : State D) (block : ProcessBlock D) : List Mark :=
  match block.audioInputs, block.audioOutputs, guardedHeaders block.inEvents with
  | _ :: _, _ :: _, .ok headers => loopMarks base s headers
  | _, _, _ => []

def flushMarks (base : Base D) (s : State D) (inEvents : Option (InputEvents D)) : List Mark :=
  match unguardedHeaders inEvents with
  | .ok headers => loopMarks base s headers
  | .error _ => []

/-- A call on an instance. A state counts with its complete records. -/
def marks [DoubleBits D] (p : Plugin D (State D)) (l : ThreadId × Call D S) : List Mark :=
  match l.2 with
  | .process block _ =>
    if (p.processGate l.1 block).1 = .forward then blockMarks p.base p.self block else []
  | .paramsFlush inEvents _ => flushMarks p.base p.self inEvents
  | .stateLoad stream =>
    recordMarks (p.self.params kParamLatency) ((StateFormat.counted kStateMagic).recordsIn stream)
  | _ => []

/-! ## The loops -/

/-- Whether `applyParamEvent` may ask. -/
def asks (base : Base D) : Bool := base.isActive && base.host.isSome

theorem applyParamEvent_effects (base : Base D) (s : State D) (header : Event D) :
    (applyParamEvent base s header).effects =
      match paramValueOf header with
      | some (id, x) =>
        if id = kParamLatency ∧ DoubleOps.ne (s.params kParamLatency) x = true ∧
            asks base = true then
          [.host .requestRestart]
        else []
      | none => [] := by
  have hasks : asks base = true ↔ base.isActive = true ∧ base.host.isSome = true :=
    Bool.and_eq_true_iff
  unfold paramValueOf applyParamEvent
  cases header.isCore with
  | false => rfl
  | true =>
    cases header.body with
    | paramValue target x =>
      simp only [hasks, Bool.not_true, Bool.false_eq_true, if_false]
      by_cases hlatency : target.paramId = kParamLatency
      · rw [hlatency, if_pos (by decide)]
        split <;> rfl
      · simp only [hlatency, false_and, if_false]
        split <;> rfl
    | _ => rfl

/-- An event that changes Latency is answered at once, the others say nothing. -/
theorem eventMarks_cases (base : Base D) (s : State D) (header : Event D) :
    eventMarks base s header = [] ∨ eventMarks base s header = [.store false] ∨
      eventMarks base s header = .store true :: if asks base then [.restart] else [] := by
  unfold eventMarks
  rw [applyParamEvent_effects]
  cases paramValueOf header with
  | none => exact .inl rfl
  | some r =>
    obtain ⟨id, x⟩ := r
    dsimp only
    by_cases hlatency : id = kParamLatency
    · rw [if_pos hlatency, hlatency]
      cases DoubleOps.ne (s.params kParamLatency) x with
      | false => exact .inr (.inl rfl)
      | true =>
        refine .inr (.inr ?_)
        cases asks base <;> rfl
    · simp [hlatency]

theorem loopMarks_of_asks {base : Base D} (h : asks base = true) (headers : List (Event D)) :
    ∀ s, Answered (loopMarks base s headers) ∧ Caused (loopMarks base s headers) := by
  induction headers with
  | nil => exact fun s => ⟨answered_nil, caused_of_not_mem List.not_mem_nil⟩
  | cons header headers ih =>
    intro s
    obtain ⟨hanswered, hcaused⟩ := ih (applyParamEvent base s header).self
    have hevent : Answered (eventMarks base s header) ∧ Caused (eventMarks base s header) := by
      rcases eventMarks_cases base s header with heq | heq | heq
      · rw [heq]
        exact ⟨answered_nil, caused_of_not_mem List.not_mem_nil⟩
      · rw [heq]
        exact ⟨(answered_iff_of_not_mem (by simp)).mpr (by simp), caused_of_not_mem (by simp)⟩
      · rw [heq, h, if_pos rfl]
        exact ⟨answered_change, caused_change⟩
    exact ⟨hevent.1.append hanswered, hevent.2.append hcaused⟩

theorem loopMarks_of_not_asks {base : Base D} (h : asks base = false) (headers : List (Event D)) :
    ∀ s, .restart ∉ loopMarks base s headers := by
  induction headers with
  | nil => exact fun s => List.not_mem_nil
  | cons header headers ih =>
    intro s hmem
    rcases List.mem_append.mp hmem with hmem | hmem
    · rcases eventMarks_cases base s header with heq | heq | heq
      · simp [heq] at hmem
      · simp [heq] at hmem
      · simp [heq, h] at hmem
    · exact ih _ hmem

theorem recordMarks_not_mem (records : List (ClapId × D)) :
    ∀ latency, .restart ∉ recordMarks latency records := by
  induction records with
  | nil => exact fun latency => List.not_mem_nil
  | cons r records ih =>
    intro latency
    unfold recordMarks
    split
    · simpa using ih r.2
    · exact ih latency

theorem loopMarks_count (base : Base D) (headers : List (Event D)) :
    ∀ s, (loopMarks base s headers).count .restart =
      (consume (applyParamEvent base) s headers).effects.count (.host .requestRestart) := by
  induction headers with
  | nil => exact fun s => rfl
  | cons header headers ih =>
    intro s
    rw [loopMarks, consume]
    dsimp only
    rw [List.count_append, List.count_append, ih]
    congr 1
    unfold eventMarks
    rw [List.count_append, List.count_replicate_self]
    have hstore : ∀ o : Option (ClapId × D), (match o with
        | some (id, x) =>
          if id = kParamLatency then [Mark.store (DoubleOps.ne (s.params kParamLatency) x)] else []
        | none => []).count Mark.restart = 0 := by
      intro o
      cases o with
      | none => rfl
      | some r =>
        dsimp only
        split <;> simp
    rw [hstore, Nat.zero_add]

/-! ## The calls -/

theorem blockMarks_of_asks {base : Base D} (h : asks base = true) (s : State D)
    (block : ProcessBlock D) :
    Answered (blockMarks base s block) ∧ Caused (blockMarks base s block) := by
  unfold blockMarks
  split
  · exact loopMarks_of_asks h _ s
  · exact ⟨answered_nil, caused_of_not_mem List.not_mem_nil⟩

theorem flushMarks_of_asks {base : Base D} (h : asks base = true) (s : State D)
    (inEvents : Option (InputEvents D)) :
    Answered (flushMarks base s inEvents) ∧ Caused (flushMarks base s inEvents) := by
  unfold flushMarks
  split
  · exact loopMarks_of_asks h _ s
  · exact ⟨answered_nil, caused_of_not_mem List.not_mem_nil⟩

section Calls

variable [DoubleBits D]

/-- Without a request there is none. -/
theorem marks_of_not_asks {p : Plugin D (State D)} (h : asks p.base = false)
    (l : ThreadId × Call D S) : .restart ∉ marks p l := by
  unfold marks
  split
  · split
    · unfold blockMarks
      split
      · exact loopMarks_of_not_asks h _ _
      · exact List.not_mem_nil
    · exact List.not_mem_nil
  · unfold flushMarks
    split
    · exact loopMarks_of_not_asks h _ _
    · exact List.not_mem_nil
  · exact recordMarks_not_mem _ _
  · exact List.not_mem_nil

end Calls

end EffectPlugin

/-! ## What the host hears -/

/-- The calls that deliver events or a state. -/
def Call.storesParams : Call D S → Bool
  | .process _ _ | .paramsFlush _ _ | .stateLoad _ => true
  | _ => false

namespace Plugin

/-- How often `request_restart` was called on the host. -/
def restartCalls (p : Plugin D σ) : Nat := p.hostCalls.count .requestRestart

theorem restartCalls_absorb {α : Type} (p : Plugin D σ) (out : Outcome D σ α) :
    (p.absorb out).restartCalls = p.restartCalls + out.effects.count (.host .requestRestart) := by
  have heffects : ∀ (effects : List Effect) (p : Plugin D σ),
      (effects.foldl perform p).restartCalls =
        p.restartCalls + effects.count (.host .requestRestart) := by
    intro effects
    induction effects with
    | nil => exact fun p => rfl
    | cons effect effects ih =>
      intro p
      rw [List.foldl_cons, ih, List.count_cons]
      have hone : (p.perform effect).restartCalls =
          p.restartCalls + if effect == .host .requestRestart then 1 else 0 := by
        cases effect with
        | log severity text => rfl
        | requestCallback =>
          unfold perform requestCallback restartCalls
          dsimp only
          split <;> simp
        | host call =>
          unfold perform restartCalls
          simp [List.count_append, List.count_singleton]
      rw [hone]
      omega
  exact heffects out.effects { p with self := out.self }

theorem processGate_hostCalls (p : Plugin D σ) (thread : ThreadId) (block : ProcessBlock D) :
    (p.processGate thread block).2.hostCalls = p.hostCalls := by
  have hfirst : ∀ q : Plugin D σ,
      (q.logFirstProcess block.framesCount).hostCalls = q.hostCalls := by
    intro q
    unfold logFirstProcess
    split <;> rfl
  unfold processGate
  dsimp only
  split
  · rfl
  · split
    · rfl
    · split <;> exact hfirst _

/-- The gate does not look at them. -/
theorem processGate_fresh (p : Plugin D σ) (thread : ThreadId) (block : ProcessBlock D) :
    (Plugin.processGate { p with hostCalls := [] } thread block).1 =
      (p.processGate thread block).1 := by
  have hfirst : ∀ q : Plugin D σ, (logFirstProcess { q with hostCalls := [] }
      block.framesCount).contract = (q.logFirstProcess block.framesCount).contract := by
    intro q
    unfold logFirstProcess
    dsimp only
    split <;> rfl
  have hcontract : ∀ q : Plugin D σ, (Plugin.assertAudioThread { q with hostCalls := [] } thread
      "sProcess") = { q.assertAudioThread thread "sProcess" with hostCalls := [] } := fun _ => rfl
  unfold processGate
  rw [hcontract]
  dsimp only
  generalize p.assertAudioThread thread "sProcess" = q
  by_cases hin : q.contract.inProcess = true
  · rw [if_pos hin, if_pos hin]
  · rw [if_neg hin, if_neg hin]
    by_cases hready : (!q.contract.active || !q.contract.processing) = true
    · rw [if_pos hready, if_pos hready]
    · rw [if_neg hready, if_neg hready]
      have hchecks := congrArg (fun m => (checkProcessContracts m block).1)
        (hfirst { q with contract := { q.contract with inProcess := true } })
      dsimp only at hchecks
      rw [hchecks]
      split <;> rfl

end Plugin

namespace EffectPlugin

variable [DoubleOps D] [FloatOps S] [FloatCast D S]

theorem process_restarts (base : Base D) (s : State D) (block : ProcessBlock D)
    (memory : AudioMemory D S) :
    Yields (process base s block memory) fun r =>
      r.1.effects.count (.host .requestRestart) = (blockMarks base s block).count .restart := by
  unfold process blockMarks
  split
  · rename_i input inputs output outputs hin hout
    refine Yields.bind (P := fun headers => guardedHeaders block.inEvents = .ok headers)
      (fun headers h => h) fun headers hheaders => ?_
    rw [hin, hout, hheaders]
    dsimp only
    rw [loopMarks_count]
    split
    · exact Yields.of_ok rfl
    · exact Yields.andThen fun r => Yields.of_ok rfl
  · rename_i hnone
    refine Yields.of_ok ?_
    split
    · rename_i hin hout _
      exact absurd hout (hnone _ _ _ _ hin)
    · rfl

omit [FloatOps S] [FloatCast D S] in
theorem paramsFlush_restarts (base : Base D) (s : State D) (inEvents : Option (InputEvents D))
    (hasOutEvents : Bool) :
    Yields (paramsFlush base s inEvents hasOutEvents) fun out =>
      out.effects.count (.host .requestRestart) = (flushMarks base s inEvents).count .restart := by
  unfold paramsFlush flushMarks
  refine Yields.bind (P := fun headers => unguardedHeaders inEvents = .ok headers)
    (fun headers h => h) fun headers hheaders => Yields.of_ok ?_
  rw [hheaders]
  exact (loopMarks_count base headers s).symm

variable [DoubleBits D]

theorem sProcess_restarts (p : Plugin D (State D)) (thread : ThreadId) (block : ProcessBlock D)
    (memory : AudioMemory D S) :
    Yields (p.sProcess (impl : PluginImpl D S (State D)) thread block memory) fun r =>
      r.1.restartCalls = p.restartCalls + (if (p.processGate thread block).1 = .forward then
        blockMarks p.base p.self block else []).count .restart := by
  obtain ⟨hbase, hself⟩ := p.processGate_keeps thread block
  have hcalls : (p.processGate thread block).2.restartCalls = p.restartCalls :=
    congrArg (fun calls => calls.count .requestRestart) (p.processGate_hostCalls thread block)
  unfold Plugin.sProcess
  rcases hgate : p.processGate thread block with ⟨gate, q⟩
  rw [hgate] at hbase hself hcalls
  cases gate with
  | reject => exact Yields.of_ok hcalls
  | forward =>
    dsimp only at hbase hself hcalls ⊢
    have hprocess := process_restarts q.base q.self block memory
    split
    · exact Yields.of_error _
    · rename_i out memory' hout
      refine Yields.of_ok ?_
      show (q.absorb out).restartCalls = _
      rw [Plugin.restartCalls_absorb, hcalls, hprocess _ hout, hbase, hself]
      rfl

theorem sFlush_restarts (p : Plugin D (State D)) (thread : ThreadId)
    (inEvents : Option (InputEvents D)) (hasOutEvents : Bool) :
    Yields (Plugin.Params.sFlush (impl : PluginImpl D S (State D)) p thread inEvents hasOutEvents)
      fun r => r.1.restartCalls =
        p.restartCalls + (flushMarks p.base p.self inEvents).count .restart := by
  obtain ⟨q, -, -, hcalls, he⟩ :=
    Plugin.sFlush_eq (impl : PluginImpl D S (State D)) p thread inEvents hasOutEvents
  rw [he]
  show Yields (paramsFlush p.base p.self inEvents hasOutEvents >>= _) _
  refine Yields.bind (paramsFlush_restarts p.base p.self inEvents hasOutEvents)
    fun out hout => Yields.of_ok ?_
  rw [Plugin.restartCalls_absorb, hout, Plugin.restartCalls, hcalls]
  rfl

theorem sLoad_restarts (p : Plugin D (State D)) (thread : ThreadId) (stream : IStream) :
    Yields (Plugin.State.sLoad (impl : PluginImpl D S (State D)) p thread stream) fun r =>
      r.1.restartCalls = p.restartCalls := by
  have hload : Yields (stateLoad p.self stream) fun r => r.1.effects = [] :=
    Yields.andThen fun r => Yields.of_ok rfl
  show Yields (stateLoad p.self stream >>= _) _
  refine Yields.bind hload fun r hr => Yields.of_ok ?_
  rw [Plugin.restartCalls_absorb, hr]
  rfl

/-- The requests of a call that stores parameters. -/
theorem call_restarts {p : Plugin D (State D)} {i : Instance D (State D)}
    {l : ThreadId × Call D S} {o : Reply D S}
    (h : hostStep (impl : PluginImpl D S (State D)) (.alive p) l = .ok (i, o))
    (hstores : l.2.storesParams = true) :
    o.hostCalls.count .requestRestart = (marks p l).count .restart := by
  obtain ⟨_, ⟨⟩, hcall, hcalls⟩ := hostStep_ok h
  have hreturns : ∀ {α : Type} {x : Exec (Plugin D (State D) × α)}
      {f : Plugin D (State D) × α → Result D S} {n : Nat},
      (Yields x fun r => r.1.restartCalls = 0 + n) →
      (x >>= fun r => Except.ok (Instance.alive r.1, f r)) = .ok (i, o.result) →
        o.hostCalls.count .requestRestart = n := by
    intro α x f n hx hret
    obtain ⟨r, hr, hi⟩ := Except.bind_eq_ok hret
    rw [hcalls r.1 (Prod.mk.inj (Except.ok.inj hi)).1.symm]
    exact (hx r hr).trans (Nat.zero_add n)
  obtain ⟨thread, call⟩ := l
  cases call with
  | process block memory =>
    have hcount := sProcess_restarts { p with hostCalls := [] } thread block memory
    rw [Plugin.processGate_fresh] at hcount
    exact hreturns hcount hcall
  | paramsFlush inEvents hasOutEvents =>
    exact hreturns (sFlush_restarts _ thread inEvents hasOutEvents) hcall
  | stateLoad stream =>
    refine hreturns ((sLoad_restarts _ thread stream).mono fun r hr => ?_) hcall
    rw [hr, marks, List.count_eq_zero_of_not_mem (recordMarks_not_mem _ _)]
    rfl
  | _ => cases hstores

/-! ## Runs -/

/-- What is asked of the host for Latency: requests and marks agree in number, every change while
    active is followed by a request, and no request comes but right behind a change while active. -/
structure AsksOnChange (p : Plugin D (State D)) (l : ThreadId × Call D S) (o : Reply D S) :
    Prop where
  heard : o.hostCalls.count .requestRestart = (marks p l).count .restart
  answered : p.isActive = true → Answered (marks p l)
  caused : Caused (marks p l)
  active : .restart ∈ marks p l → p.isActive = true

/-- Every call of a run that delivers events or a state. -/
def RestartsOnChange (i : Instance D (State D)) (l : ThreadId × Call D S)
    (_ : Instance D (State D)) (o : Reply D S) : Prop :=
  ∀ p, i = .alive p → l.2.storesParams = true → AsksOnChange p l o

/-- A state that changes Latency while the plugin is active, or any change then without a host. -/
def MissesRestart (i : Instance D (State D)) (l : ThreadId × Call D S) : Prop :=
  ∃ p, i = .alive p ∧ p.isActive = true ∧ Mark.store true ∈ marks p l ∧
    (p.host = none ∨ ∃ stream, l.2 = .stateLoad stream)

omit [FloatOps S] [FloatCast D S] in
/-- An active plugin with a host asks for every change that comes as an event. -/
theorem marks_of_asks {p : Plugin D (State D)} (h : asks p.base = true)
    {l : ThreadId × Call D S} (hload : ∀ stream, l.2 ≠ .stateLoad stream) :
    Answered (marks p l) ∧ Caused (marks p l) := by
  unfold marks
  split
  · split
    · exact blockMarks_of_asks h _ _
    · exact ⟨answered_nil, caused_of_not_mem List.not_mem_nil⟩
  · exact flushMarks_of_asks h _ _
  · rename_i stream heq
    exact absurd heq (hload stream)
  · exact ⟨answered_nil, caused_of_not_mem List.not_mem_nil⟩

omit [FloatOps S] [FloatCast D S] in
theorem marks_stateLoad (p : Plugin D (State D)) {l : ThreadId × Call D S} {stream : IStream}
    (h : l.2 = .stateLoad stream) : .restart ∉ marks p l := by
  unfold marks
  rw [h]
  exact recordMarks_not_mem _ _

omit [FloatOps S] [FloatCast D S] in
theorem marks_eq_nil (p : Plugin D (State D)) {l : ThreadId × Call D S}
    (h : l.2.storesParams = false) : marks p l = [] := by
  obtain ⟨thread, call⟩ := l
  cases call <;> first | rfl | cases h

theorem asksOnChange_iff {p : Plugin D (State D)} {l : ThreadId × Call D S}
    {i : Instance D (State D)} {o : Reply D S}
    (h : hostStep (impl : PluginImpl D S (State D)) (.alive p) l = .ok (i, o))
    (hstores : l.2.storesParams = true) :
    AsksOnChange p l o ↔ ¬ MissesRestart (.alive p) l := by
  have hsilent : asks p.base = false ∨ (∃ stream, l.2 = .stateLoad stream) →
      .restart ∉ marks p l := by
    rintro (hasks | ⟨stream, hload⟩)
    · exact marks_of_not_asks hasks l
    · exact marks_stateLoad p hload
  constructor
  · rintro hright ⟨_, ⟨⟩, hactive, hstore, hwhy⟩
    refine (answered_iff_of_not_mem (hsilent ?_)).mp (hright.answered hactive) hstore
    refine hwhy.imp (fun hhost => ?_) id
    rw [asks, show p.base.host = none from hhost, Option.isSome_none, Bool.and_false]
  · intro hno
    have hheard := call_restarts h hstores
    by_cases hloud : asks p.base = true ∧ ∀ stream, l.2 ≠ .stateLoad stream
    · obtain ⟨hanswered, hcaused⟩ := marks_of_asks hloud.1 hloud.2
      exact ⟨hheard, fun _ => hanswered, hcaused, fun _ => (Bool.and_eq_true_iff.mp hloud.1).1⟩
    · have hquiet : .restart ∉ marks p l := by
        refine hsilent ?_
        rcases not_and_or.mp hloud with hasks | hload
        · exact .inl (Bool.not_eq_true _ ▸ hasks)
        · exact .inr (by simpa using hload)
      refine ⟨hheard, fun hactive => (answered_iff_of_not_mem hquiet).mpr fun hstore => ?_,
        caused_of_not_mem hquiet, fun hmem => absurd hmem hquiet⟩
      refine hno ⟨p, rfl, hactive, hstore, ?_⟩
      rcases not_and_or.mp hloud with hasks | hload
      · refine .inl (Option.not_isSome_iff_eq_none.mp fun hhost => hasks ?_)
        exact Bool.and_eq_true_iff.mpr ⟨hactive, hhost⟩
      · exact .inr (by simpa using hload)

/-- In every run of the Effect, every change of Latency while active is followed by
    `request_restart` within its call, and no request comes but for such a change, exactly if no
    call of the run loads a state that changes Latency while active (or changes it then without a
    host). -/
theorem restarts_iff (host : Option Host) (calls : List (ThreadId × Call D S)) :
    Machine.AllSteps (hostStep (impl : PluginImpl D S (State D))) RestartsOnChange
        (.alive (Plugin.create (impl : PluginImpl D S (State D)) host)) calls ↔
      Machine.AllSteps (hostStep (impl : PluginImpl D S (State D)))
        (fun i l _ _ => ¬ MissesRestart i l)
        (.alive (Plugin.create (impl : PluginImpl D S (State D)) host)) calls := by
  refine Machine.allSteps_congr (I := fun _ => True) (fun i l i' o _ h => ?_)
    (fun _ _ _ _ _ _ _ => trivial) trivial calls
  obtain ⟨p, rfl, -⟩ := hostStep_ok h
  cases hstores : l.2.storesParams with
  | true =>
    rw [← asksOnChange_iff h hstores]
    exact ⟨fun hright => hright p rfl hstores, fun hright p' heq _ => by cases heq; exact hright⟩
  | false =>
    refine iff_of_true (fun _ _ heq => absurd heq (by simp [hstores])) ?_
    rintro ⟨_, ⟨⟩, -, hstore, -⟩
    rw [marks_eq_nil p hstores] at hstore
    cases hstore

/-- A complete state with one record: Latency at 64 samples. -/
def latencyState : IStream :=
  Transfer.serve (bytesOfUInt32 kStateMagic ++ bytesOfUInt32 kStateVersion ++ bytesOfUInt32 1 ++
    recordsBytes [(kParamLatency, 64)]) fun _ => 8

/-- Loaded while active it goes from 0 to 64, and the host hears nothing. -/
theorem latencyState_not_answered :
    ¬ Machine.AllSteps (hostStep (impl : PluginImpl ExactFloat ExactFloat _)) RestartsOnChange
      (.alive (Plugin.create (impl : PluginImpl ExactFloat ExactFloat _) (some {})))
      [(0, .init []), (0, .activate 48000 1 64), (0, .stateLoad latencyState)] := by
  intro hall
  have hactivate := (hall _ _ rfl).2
  have hload := (hactivate _ _ rfl).2
  have hright := (hload _ _ rfl).1 _ rfl rfl
  exact List.not_mem_nil (hright.answered rfl [] [] rfl)

end EffectPlugin

end Cvp
