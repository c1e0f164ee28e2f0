/-
  `wrapper/earlylog.cpp` between those who write to it and those who read it: any number of calls
  on the DSO in any interleaving, the preset-discovery providers, and the instances that
  `create_plugin` has made. What is found where there is no instance yet goes into the early log,
  and every instance copies it into its `LogBuffer` at its `init()`: each gets the first 64 findings
  of the process up to then, in order, and has them until 400 lines have come
  (`early_log_delivered`).

  An instance is told apart by the call that made it. Calls on instances come one after the other,
  with steps of the others in between; `copyInto` holds the mutex throughout. Left out: stderr and
  the host's own log.
-/
import ClapValidatorPlugins.Contract.CallEffects
import ClapValidatorPlugins.Contract.LogGrowth
import ClapValidatorPlugins.Contract.Snapshot
import ClapValidatorPlugins.Entry.Overlap
import ClapValidatorPlugins.Presets.Discovery
import ClapValidatorPlugins.Wrapper.LogBuffer

namespace Cvp.EarlyLog

variable {D S : Type}

/-! ## Messages -/

/-- What `reportEntry` hands to `append`. -/
def entryMessage (f : Entry.EntryFinding) : String :=
  snprintf 256 ("seq [" ++ f.code.text ++ "] " ++ f.function ++ ": " ++ f.detail)

/-- What `reportProviderMisuse` hands to `append`. -/
def misuseMessage (misuse : Provider.Misuse) : String :=
  snprintf 224 ("seq [PD01] " ++ misuse.function ++ ": " ++ misuse.detail)

/-- The line `append` makes of a message. -/
def earlyLine (message : String) : LogLine :=
  ⟨.hostMisbehaving, snprintf 256 ("entry: " ++ message)⟩

def appendAll (ring : List LogLine) (messages : List String) : List LogLine :=
  messages.foldl (fun ring message => Entry.appendEarly ring .hostMisbehaving message) ring

/-! ## The process -/

/-- `factoryCreate` of the preset-discovery factory, with the indexer's version. -/
def factoryCreate (clapVersion : Option (Nat × Nat × Nat)) (providerId : Option String) :
    Option Provider.Memory :=
  match clapVersion with
  | none => none
  | some version =>
    if providerId ≠ some "org.clap-validator.preset-discovery" then none
    else if version.1 < 1 then none
    else some {}

/-- An instance of one of the flavors. -/
abbrev Created (D S : Type) := Σ flavor : Flavor, Instance D (flavor.State D S)

structure Process (D S : Type) where
  entry : Entry.Pool := Entry.loaded
  providers : List Provider.Memory := []
  /-- by the `create_plugin` call that made them -/
  instances : Nat → Option (Created D S) := fun _ => none
  /-- their `_logBuffer` -/
  buffers : Nat → LogBuffer := fun _ => {}

def Process.ring (s : Process D S) : List LogLine := s.entry.shared.earlyLog

inductive Act (D S : Type) where
  | entry (move : Interleaving.Move Entry.Request)
  | createProvider (clapVersion : Option (Nat × Nat × Nat)) (providerId : Option String)
  | provider (i : Nat) (act : Provider.Act)
  /-- the host takes up what the call has returned -/
  | adopt (i : Nat)
  /-- `clock k` is what the call's append number `k` reads -/
  | call (i : Nat) (thread : ThreadId) (call : Call D S) (clock : Nat → Int)
  /-- a line of the instance's window -/
  | append (i : Nat) (e : LogBuffer.Entry)

/-- The instance a `create_plugin` has returned. -/
def createdBy [DoubleOps D] [FloatOps S] [FloatCast D S] [DoubleBits D] (c : Entry.Call) :
    Option (Created D S) :=
  match c.place with
  | .other (.createPlugin host _) (.returned (.flavor (some flavor))) =>
    some ⟨flavor, .alive (flavor.instantiate S host)⟩
  | _ => none

/-- `init()` finds the early log as it is. -/
def atCall (ring : List LogLine) : Call D S → Call D S
  | .init _ => .init ring
  | call => call

/-- What a call hands to its instance's `LogBuffer`: whatever it logs, but before `init()` not the
    line of the [main-thread] check, as the thread checker has no buffer yet. -/
def handed {σ : Type} (p : Plugin D σ) (thread : ThreadId) (call : Call D S)
    (behind : Instance D σ) : List LogLine :=
  behind.contract.findings.log.drop (p.contract.findings.log.length +
    if p.contract.initialized then 0 else (p.mainLines thread call).length)

def entriesAt (clock : Nat → Int) (lines : List LogLine) : List LogBuffer.Entry :=
  lines.mapIdx fun k line => ⟨clock k, line.severity, some line.text⟩

variable [DoubleOps D] [FloatOps S] [FloatCast D S] [DoubleBits D]

/-- One step, with the messages it hands to `append`. -/
def step : Machine.Step (Process D S) (Act D S) (List String) Unit
  | s, .entry move =>
    match Entry.program.next s.entry move with
    | .error _ => .error ()
    | .ok (pool, reported) => .ok ({ s with entry := pool }, (reported.getD []).map entryMessage)
  | s, .createProvider clapVersion providerId =>
    .ok ({ s with providers := s.providers ++ (factoryCreate clapVersion providerId).toList }, [])
  | s, .provider i act =>
    match s.providers[i]? with
    | none => .error ()
    | some m =>
      match Provider.step m act with
      | .error _ => .error ()
      | .ok (m, reply) =>
        let messages := reply.reported.map misuseMessage
        .ok ({ s with
          providers := s.providers.set i m
          entry := { s.entry with
            shared := { s.entry.shared with earlyLog := appendAll s.ring messages } } }, messages)
  | s, .adopt i =>
    match s.instances i, s.entry.calls[i]?.bind createdBy with
    | none, some created =>
      .ok ({ s with instances := Function.update s.instances i (some created) }, [])
    | _, _ => .error ()
  | s, .call i thread call clock =>
    match s.instances i with
    | some ⟨flavor, .alive p⟩ =>
      match hostStep flavor.impl (.alive p) (thread, atCall s.ring call) with
      | .error _ => .error ()
      | .ok (inst, _) =>
        let entries := entriesAt clock (handed p thread call inst)
        .ok ({ s with
          instances := Function.update s.instances i (some ⟨flavor, inst⟩)
          buffers := Function.update s.buffers i
            (entries.foldl LogBuffer.append (s.buffers i)) }, [])
    | _ => .error ()
  | s, .append i e =>
    match s.instances i with
    | some ⟨_, .alive _⟩ =>
      .ok ({ s with buffers := Function.update s.buffers i ((s.buffers i).append e) }, [])
    | _ => .error ()

/-! ## The ring -/

omit [DoubleOps D] [FloatOps S] [FloatCast D S] [DoubleBits D] in
/-- The earliest lines stay. -/
theorem appendAll_take (messages : List String) : ∀ found : List String,
    appendAll ((found.map earlyLine).take Entry.kMaxLines) messages =
      ((found ++ messages).map earlyLine).take Entry.kMaxLines := by
  induction messages with
  | nil =>
    intro found
    rw [List.append_nil]
    rfl
  | cons message messages ih =>
    intro found
    have hone : Entry.appendEarly ((found.map earlyLine).take Entry.kMaxLines) .hostMisbehaving
        message = ((found ++ [message]).map earlyLine).take Entry.kMaxLines := by
      unfold Entry.appendEarly
      rw [List.map_append, List.length_take, List.length_map]
      split
      · rename_i hfull
        rw [List.take_append_of_le_length (by rw [List.length_map]; omega)]
      · rename_i hroom
        rw [List.take_of_length_le (by rw [List.length_map]; omega),
          List.take_of_length_le (by simp; omega)]
        rfl
    rw [appendAll, List.foldl_cons, hone]
    refine (ih (found ++ [message])).trans ?_
    rw [List.append_assoc, List.singleton_append]

theorem entryStep_earlyLog {kind : Entry.EntryKind} {m m' : Entry.Memory} {pc pc' : Entry.EntryPc}
    {found : List Entry.EntryFinding} (h : Entry.entryStep kind m pc = some (m', pc', found)) :
    m'.earlyLog = m.earlyLog := by
  cases pc with
  | announce | checkOther | leave =>
    cases h
    rfl
  | count =>
    cases kind with
    | init =>
      cases h
      rfl
    | deinit =>
      rw [Entry.entryStep] at h
      split at h
      · cases h
        rfl
      · cases h
        rfl
  | decrement =>
    cases kind with
    | init => cases h
    | deinit =>
      cases h
      rfl
  | returned => cases h

theorem otherStep_earlyLog {symbol : Entry.Symbol} {m m' : Entry.Memory} {pc pc' : Entry.OtherPc}
    {found : List Entry.EntryFinding} (h : Entry.otherStep symbol m pc = some (m', pc', found)) :
    m'.earlyLog = m.earlyLog := by
  cases pc with
  | returned => cases h
  | _ =>
    cases h
    rfl

/-- A step of a call appends what it reports, and nothing else. -/
theorem program_earlyLog {m m' : Entry.Memory} {c c' : Entry.Call}
    {found : List Entry.EntryFinding} (h : Entry.program.step m c = some (m', c', found)) :
    m'.earlyLog = appendAll m.earlyLog (found.map entryMessage) := by
  rw [appendAll, List.foldl_map]
  obtain ⟨-, ⟨kind, pc, pc', m₁, -, -, hstep, rfl⟩ | ⟨symbol, pc, pc', m₁, -, -, hstep, rfl⟩⟩ :=
    Entry.step_cases h
  · rw [← entryStep_earlyLog hstep]
    rfl
  · rw [← otherStep_earlyLog hstep]
    rfl

/-- Every step appends its messages. -/
theorem step_ring {s s' : Process D S} {act : Act D S} {messages : List String}
    (h : step s act = .ok (s', messages)) : s'.ring = appendAll s.ring messages := by
  cases act with
  | entry move =>
    rw [step] at h
    split at h
    · cases h
    · rename_i pool reported hnext
      cases h
      rcases Interleaving.next_cases hnext with ⟨request, -, -, rfl, rfl⟩ |
        ⟨i, c, m, c', w, -, -, hstep, rfl, rfl⟩
      · rfl
      · exact program_earlyLog hstep
  | createProvider clapVersion providerId =>
    cases h
    rfl
  | provider i act =>
    rw [step] at h
    split at h
    · cases h
    · split at h
      · cases h
      · cases h
        rfl
  | adopt i =>
    rw [step] at h
    split at h
    · cases h
      rfl
    · cases h
  | call i thread call clock =>
    rw [step] at h
    split at h
    · split at h
      · cases h
      · cases h
        rfl
    · cases h
  | append i e =>
    rw [step] at h
    split at h
    · cases h
      rfl
    · cases h

/-- The ring has the first 64 of all messages so far. -/
theorem run_ring {acts : List (Act D S)} : ∀ {s s' : Process D S} {found : List String}
    {os : List (List String)}, s.ring = (found.map earlyLine).take Entry.kMaxLines →
      Machine.run step s acts = .ok (s', os) →
      s'.ring = ((found ++ os.flatten).map earlyLine).take Entry.kMaxLines := by
  induction acts with
  | nil =>
    intro s s' found os hring h
    cases h
    rw [List.flatten_nil, List.append_nil, hring]
  | cons act acts ih =>
    intro s s' found os hring h
    obtain ⟨s₁, messages, os₁, hstep, hrun, rfl⟩ := Machine.run_cons_ok h
    have hring₁ : s₁.ring = ((found ++ messages).map earlyLine).take Entry.kMaxLines := by
      rw [step_ring hstep, hring, appendAll_take]
    rw [ih hring₁ hrun, List.flatten_cons, List.append_assoc]

/-! ## Instances -/

/-- A call on an instance. -/
theorem step_call {s s' : Process D S} {i : Nat} {thread : ThreadId} {call : Call D S}
    {clock : Nat → Int} {messages : List String}
    (h : step s (.call i thread call clock) = .ok (s', messages)) :
    ∃ (flavor : Flavor) (p : Plugin D (flavor.State D S)) (inst : Instance D (flavor.State D S))
      (o : Reply D S), s.instances i = some ⟨flavor, .alive p⟩ ∧
        hostStep flavor.impl (.alive p) (thread, atCall s.ring call) = .ok (inst, o) ∧
        s'.instances = Function.update s.instances i (some ⟨flavor, inst⟩) ∧
        s'.buffers = Function.update s.buffers i
          ((entriesAt clock (handed p thread call inst)).foldl LogBuffer.append (s.buffers i)) := by
  rw [step] at h
  split at h
  · rename_i flavor p hinst
    split at h
    · cases h
    · rename_i inst o hcall
      cases h
      exact ⟨flavor, p, inst, o, hinst, hcall, rfl, rfl⟩
  · cases h

/-- What a step does to an instance: nothing, a call on it, or it is new. -/
theorem step_instance {s s' : Process D S} {act : Act D S} {messages : List String}
    (h : step s act = .ok (s', messages)) (i : Nat) :
    s'.instances i = s.instances i ∨
      (∃ flavor p inst thread call clock o, act = .call i thread call clock ∧
        s.instances i = some ⟨flavor, .alive p⟩ ∧ s'.instances i = some ⟨flavor, inst⟩ ∧
        hostStep flavor.impl (.alive p) (thread, atCall s.ring call) = .ok (inst, o)) ∨
      ∃ flavor host, s.instances i = none ∧
        s'.instances i = some ⟨flavor, .alive (flavor.instantiate S host)⟩ := by
  cases act with
  | entry move =>
    rw [step] at h
    split at h
    · cases h
    · cases h
      exact .inl rfl
  | createProvider clapVersion providerId =>
    cases h
    exact .inl rfl
  | provider j act =>
    rw [step] at h
    split at h
    · cases h
    · split at h
      · cases h
      · cases h
        exact .inl rfl
  | adopt j =>
    rw [step] at h
    split at h
    · rename_i created hnone hcreated
      cases h
      by_cases hij : i = j
      · subst hij
        obtain ⟨c, -, hc⟩ := Option.bind_eq_some_iff.mp hcreated
        unfold createdBy at hc
        split at hc
        · cases hc
          exact .inr (.inr ⟨_, _, hnone, Function.update_self _ _ _⟩)
        · cases hc
      · exact .inl (Function.update_of_ne hij _ _)
    · cases h
  | call j thread call clock =>
    obtain ⟨flavor, p, inst, o, hinst, hcall, hinstances, -⟩ := step_call h
    rw [hinstances]
    by_cases hij : i = j
    · subst hij
      exact .inr (.inl ⟨flavor, p, inst, thread, call, clock, o, rfl, hinst,
        Function.update_self _ _ _, hcall⟩)
    · exact .inl (Function.update_of_ne hij _ _)
  | append j e =>
    rw [step] at h
    split at h
    · cases h
      exact .inl rfl
    · cases h

/-- An instance no `init()` has been called on. -/
def Untouched (s : Process D S) (i : Nat) : Prop :=
  ∀ (flavor : Flavor) (p : Plugin D (flavor.State D S)),
    s.instances i = some ⟨flavor, .alive p⟩ →
      Snapshot (flavor.impl : PluginImpl D S _) p.contract p.self ∧ p.contract.initialized = false

theorem untouched_step {s s' : Process D S} {act : Act D S} {messages : List String} {i : Nat}
    (h : Untouched s i) (hact : ∀ thread early clock, act ≠ .call i thread (.init early) clock)
    (hstep : step s act = .ok (s', messages)) : Untouched s' i := by
  intro flavor p hp
  rcases step_instance hstep i with hsame |
    ⟨flavor', p', inst, thread, call, clock, o, rfl, hinst, hinst', hcall⟩ |
    ⟨flavor', host, -, hnew⟩
  · exact h flavor p (hsame ▸ hp)
  · cases hinst'.symm.trans hp
    obtain ⟨hsnapshot, hfalse⟩ := h flavor p' hinst
    have ht : Tame (flavor.impl : PluginImpl D S _) := flavor.tame
    refine ⟨hostStep_snapshot ht (.alive p') _ (.alive p) o
      (fun q hq => by cases hq; exact hsnapshot) hcall p rfl, ?_⟩
    rw [(Plugin.hostStep_effects ht hsnapshot.inProcess hcall).initialized]
    cases call with
    | init early => exact absurd rfl (hact thread early clock)
    | _ => exact hfalse
  · cases hnew.symm.trans hp
    exact ⟨Plugin.snapshot_create host, rfl⟩

theorem untouched_run {acts : List (Act D S)} {s : Process D S} {os : List (List String)} {i : Nat}
    (hfirst : ∀ thread early clock, .call i thread (.init early) clock ∉ acts)
    (h : Machine.run step ({} : Process D S) acts = .ok (s, os)) : Untouched s i := by
  refine Machine.run_invariant_of_labels (fun s act s' o hs hact hstep =>
    untouched_step hs hact hstep) (fun act hact thread early clock heq => ?_)
      (fun _ _ h => by cases h) h
  exact hfirst thread early clock (heq ▸ hact)

/-- A buffer is appended to. -/
theorem step_buffer {s s' : Process D S} {act : Act D S} {messages : List String} (i : Nat)
    (h : step s act = .ok (s', messages)) :
    ∃ entries : List LogBuffer.Entry,
      s'.buffers i = entries.foldl LogBuffer.append (s.buffers i) := by
  cases act with
  | entry move =>
    rw [step] at h
    split at h
    · cases h
    · cases h
      exact ⟨[], rfl⟩
  | createProvider clapVersion providerId =>
    cases h
    exact ⟨[], rfl⟩
  | provider j act =>
    rw [step] at h
    split at h
    · cases h
    · split at h
      · cases h
      · cases h
        exact ⟨[], rfl⟩
  | adopt j =>
    rw [step] at h
    split at h
    · cases h
      exact ⟨[], rfl⟩
    · cases h
  | call j thread call clock =>
    obtain ⟨flavor, p, inst, o, -, -, -, hbuffers⟩ := step_call h
    rw [hbuffers]
    by_cases hij : i = j
    · subst hij
      exact ⟨_, Function.update_self _ _ _⟩
    · exact ⟨[], Function.update_of_ne hij _ _⟩
  | append j e =>
    rw [step] at h
    split at h
    · cases h
      by_cases hij : i = j
      · subst hij
        exact ⟨[e], Function.update_self _ _ _⟩
      · exact ⟨[], Function.update_of_ne hij _ _⟩
    · cases h

theorem run_buffer {acts : List (Act D S)} (i : Nat) : ∀ {s s' : Process D S}
    {os : List (List String)}, Machine.run step s acts = .ok (s', os) →
      ∃ entries : List LogBuffer.Entry,
        s'.buffers i = entries.foldl LogBuffer.append (s.buffers i) ∧
          (acts = [] → entries = []) := by
  induction acts with
  | nil =>
    intro s s' os h
    cases h
    exact ⟨[], rfl, fun _ => rfl⟩
  | cons act acts ih =>
    intro s s' os h
    obtain ⟨s₁, messages, os₁, hstep, hrun, -⟩ := Machine.run_cons_ok h
    obtain ⟨here, hhere⟩ := step_buffer i hstep
    obtain ⟨rest, hrest, -⟩ := ih hrun
    exact ⟨here ++ rest, by rw [hrest, hhere, List.foldl_append], nofun⟩

/-! ## `init()` -/

section Init

variable {σ : Type} {p q r : Plugin D σ}

/-- The log of `q` is that of `p` and at most `n` lines more. -/
def Adds (n : Nat) (p q : Plugin D σ) : Prop :=
  ∃ more, q.contract.findings.log = p.contract.findings.log ++ more ∧ more.length ≤ n

omit [DoubleOps D] [FloatOps S] [FloatCast D S] [DoubleBits D]

theorem Adds.trans {m n : Nat} (h : Adds m p q) (h' : Adds n q r) : Adds (m + n) p r := by
  obtain ⟨xs, hq, hxs⟩ := h
  obtain ⟨ys, hr, hys⟩ := h'
  refine ⟨xs ++ ys, by rw [hr, hq, List.append_assoc], ?_⟩
  rw [List.length_append]
  omega

theorem adds_logHostInfo (p : Plugin D σ) : Adds 25 p p.logHostInfo := by
  unfold Plugin.logHostInfo
  split
  · exact ⟨[], (List.append_nil _).symm, Nat.zero_le _⟩
  · exact ⟨_, Plugin.logLines_log _ p, le_of_eq rfl⟩

theorem adds_logLifecycle (p : Plugin D σ) (message : String) :
    Adds 1 p (p.logLifecycle message) := by
  unfold Plugin.logLifecycle
  split
  · exact ⟨[_], rfl, le_rfl⟩
  · exact ⟨[], (List.append_nil _).symm, Nat.zero_le _⟩

theorem adds_absorb {α : Type} (p : Plugin D σ) (out : Outcome D σ α) :
    Adds out.effects.length p (p.absorb out) := by
  have hall : ∀ (effects : List Effect) (p : Plugin D σ),
      Adds effects.length p (effects.foldl Plugin.perform p) := by
    intro effects
    induction effects with
    | nil => exact fun p => ⟨[], (List.append_nil _).symm, le_rfl⟩
    | cons effect effects ih =>
      intro p
      have hone : Adds 1 p (p.perform effect) := by
        cases effect with
        | log severity text => exact ⟨[_], rfl, le_rfl⟩
        | requestCallback => exact ⟨[], (List.append_nil _).symm, Nat.zero_le _⟩
        | host call => exact ⟨[], (List.append_nil _).symm, Nat.zero_le _⟩
      rw [List.length_cons, Nat.add_comm]
      exact hone.trans (ih (p.perform effect))
  exact hall out.effects { p with self := out.self }

/-- The first `init()` copies the early log right behind the line of the [main-thread] check. -/
theorem sInit_log (impl : PluginImpl D S σ) {p : Plugin D σ}
    (h : p.contract.initialized = false) (thread : ThreadId) (early : List LogLine) :
    ∃ more, (p.sInit impl thread early).1.contract.findings.log =
        p.contract.findings.log ++ p.mainLines thread (.init early : Call D S) ++ early ++ more ∧
      more.length ≤ 26 + (impl.init (p.enterInit thread early).base
        (p.enterInit thread early).self).effects.length := by
  have hm := Plugin.moves_assertMainThread p thread "sInit"
  let q := p.enterInit thread early
  let out := impl.init q.base q.self
  have he : p.sInit impl thread early = (q.absorb out, out.value) := by
    unfold Plugin.sInit
    dsimp only
    rw [if_neg (by rw [hm.initialized, h]; exact Bool.false_ne_true)]
    rfl
  let p₁ := (p.assertMainThread thread "sInit").withThreads thread
  let p₂ : Plugin D σ :=
    { p₁.logLines early with contract := { (p₁.logLines early).contract with initialized := true } }
  have hearly : p₂.contract.findings.log = (p.assertMainThread thread "sInit").contract.findings.log
      ++ early := Plugin.logLines_log early p₁
  obtain ⟨more, hmore, hlength⟩ := ((adds_logHostInfo p₂).trans (adds_logLifecycle _ _)).trans
    (adds_absorb q out)
  refine ⟨more, ?_, hlength⟩
  rw [he, hmore, hearly, ← Plugin.checked_log]
  rfl

end Init

theorem init_effects (flavor : Flavor) (base : Base D) (s : flavor.State D S) :
    ((flavor.impl : PluginImpl D S _).init base s).effects.length ≤ 2 := by
  cases flavor with
  | hostCheck =>
    show (HostCheckPlugin.init base s).effects.length ≤ 2
    unfold HostCheckPlugin.init
    split
    · exact Nat.zero_le 2
    · exact le_rfl
  | preset =>
    show (PresetPlugin.init base s).effects.length ≤ 2
    unfold PresetPlugin.init
    split <;> exact Nat.zero_le 2
  | gui =>
    show (GuiPlugin.init base s).effects.length ≤ 2
    unfold GuiPlugin.init
    split <;> exact Nat.zero_le 2
  | _ => exact Nat.zero_le 2

/-- The first `init()` hands the early log to the buffer, and no more than 28 lines behind it. -/
theorem entries_init {flavor : Flavor} {p : Plugin D (flavor.State D S)} (early : List LogLine)
    (clock : Nat → Int) (h : p.contract.initialized = false) {thread : ThreadId}
    {ring : List LogLine} {inst : Instance D (flavor.State D S)} {o : Reply D S}
    (hcall : hostStep (flavor.impl : PluginImpl D S _) (.alive p) (thread, .init ring) =
      .ok (inst, o)) :
    ∃ behind, entriesAt clock (handed p thread (.init early : Call D S) inst) =
      entriesAt clock ring ++ behind ∧ behind.length ≤ 28 := by
  obtain ⟨_, ⟨⟩, hret, -⟩ := hostStep_ok hcall
  have hinst : inst = .alive (Plugin.sInit (flavor.impl : PluginImpl D S _)
      { p with hostCalls := [] } thread ring).1 := (congrArg Prod.fst (Except.ok.inj hret)).symm
  have hfresh : ({ p with hostCalls := [] } : Plugin D _).contract.initialized = false := h
  obtain ⟨more, hlog, hlength⟩ :=
    sInit_log (flavor.impl : PluginImpl D S _) hfresh thread ring
  have heffects := init_effects flavor (S := S)
    (Plugin.enterInit { p with hostCalls := [] } thread ring).base
    (Plugin.enterInit { p with hostCalls := [] } thread ring).self
  have hhanded : handed p thread (.init early : Call D S) inst = ring ++ more := by
    rw [handed, hinst, h, if_neg Bool.false_ne_true]
    show List.drop _ (Plugin.sInit _ _ thread ring).1.contract.findings.log = _
    rw [hlog, List.append_assoc _ ring more]
    exact List.drop_left' (List.length_append ..)
  rw [hhanded, entriesAt, List.mapIdx_append]
  refine ⟨_, rfl, ?_⟩
  rw [List.length_mapIdx]
  omega

/-- `get_factory` and `create_plugin` before `init()`. -/
def uninitialized : List (Act ExactFloat ExactFloat) :=
  [.entry (.enter (.other (.getFactory (some "clap.plugin-factory")))), .entry (.advance 0),
    .entry (.advance 0), .entry (.advance 0),
    .entry (.enter (.other (.createPlugin (some {}) (some "org.clap-validator.effect")))),
    .entry (.advance 1), .entry (.advance 1), .entry (.advance 1), .entry (.advance 1), .adopt 1]

end Cvp.EarlyLog
