/-
  What the pieces of a trampoline do to an instance. `Moves p q vs f`: on the way from `p` to
  `q` exactly the violations `vs` were counted, and the rest of the monitor went through `f`;
  where nothing was counted, nothing of severity HOST_MISBEHAVING was logged. Moves compose, so
  what a trampoline does is read off from its pieces.
-/
import ClapValidatorPlugins.Wrapper.Extensions

namespace Cvp

/-! ## Counting -/

/-- The counters with every violation of `vs` counted once more per occurrence. -/
def bump (c : Violation → UInt32) (vs : List Violation) : Violation → UInt32 :=
  fun v => c v + UInt32.ofNat (vs.count v)

theorem bump_nil (c : Violation → UInt32) : bump c [] = c := by
  funext v
  exact UInt32.add_zero _

theorem bump_append (c : Violation → UInt32) (vs ws : List Violation) :
    bump c (vs ++ ws) = bump (bump c vs) ws := by
  funext v
  simp only [bump, List.count_append, UInt32.ofNat_add, UInt32.add_assoc]

theorem bump_singleton (c : Violation → UInt32) (v : Violation) :
    bump c [v] = Function.update c v (c v + 1) := by
  funext w
  by_cases h : w = v
  · subst h
    simp [bump]
  · rw [Function.update_of_ne h, bump, List.count_singleton, if_neg (by simpa using Ne.symm h)]
    exact UInt32.add_zero _

theorem bump_of_not_mem (c : Violation → UInt32) {vs : List Violation} {v : Violation}
    (h : v ∉ vs) : bump c vs v = c v := by
  rw [bump, List.count_eq_zero_of_not_mem h]
  exact UInt32.add_zero _

/-- On the way from `f` to `g` exactly the violations `vs` were counted. -/
structure Counted (f g : Findings) (vs : List Violation) : Prop where
  counters : g.counters = bump f.counters vs
  total : g.total = f.total + UInt32.ofNat vs.length

theorem counted_of_eq {f g : Findings} (hc : g.counters = f.counters) (ht : g.total = f.total) :
    Counted f g [] :=
  ⟨hc.trans (bump_nil _).symm, ht.trans (UInt32.add_zero _).symm⟩

theorem Counted.trans {f g h : Findings} {vs ws : List Violation} (a : Counted f g vs)
    (b : Counted g h ws) : Counted f h (vs ++ ws) := by
  constructor
  · rw [b.counters, a.counters, bump_append]
  · rw [b.total, a.total, List.length_append, UInt32.ofNat_add, UInt32.add_assoc]

theorem counted_report (f : Findings) (v : Violation) (function detail : String) :
    Counted f (f.report v function detail) [v] := by
  constructor
  · rw [bump_singleton]
    exact Findings.report_counters f v function detail
  · exact Findings.report_total f v function detail

theorem counted_reportAll (found : List Finding) :
    ∀ f : Findings, Counted f (f.reportAll found) (found.map (·.violation)) := by
  induction found with
  | nil => exact fun f => counted_of_eq rfl rfl
  | cons r rs ih =>
    intro f
    rw [Findings.reportAll_cons, List.map_cons, ← List.singleton_append]
    exact (counted_report f r.violation r.function r.detail).trans (ih _)

/-! ## The log -/

/-- The lines a harness may see in a run without violations. -/
def LogLine.isQuiet (line : LogLine) : Prop := line.severity ≠ .hostMisbehaving

/-- Between `f` and `g` only quiet lines were logged. -/
def Quiet (f g : Findings) : Prop :=
  ∃ lines : List LogLine, g.log = f.log ++ lines ∧ ∀ line ∈ lines, line.isQuiet

theorem quiet_of_eq {f g : Findings} (h : g.log = f.log) : Quiet f g :=
  ⟨[], by rw [h, List.append_nil], fun _ hl => absurd hl List.not_mem_nil⟩

theorem Quiet.trans {f g h : Findings} (a : Quiet f g) (b : Quiet g h) : Quiet f h := by
  obtain ⟨ls, hls, hq⟩ := a
  obtain ⟨ls', hls', hq'⟩ := b
  refine ⟨ls ++ ls', by rw [hls', hls, List.append_assoc], ?_⟩
  intro line hl
  rcases List.mem_append.mp hl with hl | hl
  · exact hq line hl
  · exact hq' line hl

/-- A line that is not quiet was there before. -/
theorem Quiet.mem {f g : Findings} (h : Quiet f g) {line : LogLine} (hl : line ∈ g.log) :
    line ∈ f.log ∨ line.isQuiet := by
  obtain ⟨lines, hlog, hq⟩ := h
  rw [hlog, List.mem_append] at hl
  exact hl.imp_right (hq line)

theorem quiet_emit (f : Findings) {severity : LogSeverity} (h : severity ≠ .hostMisbehaving)
    (text : String) : Quiet f (f.emit severity text) :=
  ⟨[⟨severity, text⟩], rfl, fun line hl => by rw [List.mem_singleton.mp hl]; exact h⟩

/-- A text that does not start with the plugin's name, as the lines of `ThreadChecker` do. -/
def Unsigned (text : String) : Prop := 2 ≤ text.toList.length ∧ text.toList.take 2 ≠ ['c', 'l']

instance (text : String) : Decidable (Unsigned text) := inferInstanceAs (Decidable (_ ∧ _))

theorem unsigned_append {front : String} (rest : String) (h : Unsigned front) :
    Unsigned (front ++ rest) := by
  obtain ⟨hlength, hfront⟩ := h
  refine ⟨?_, ?_⟩
  · rw [String.toList_append, List.length_append]
    omega
  · rwa [String.toList_append, List.take_append_of_le_length hlength]

theorem unsigned_snprintf {n : Nat} {text : String} (hn : 3 ≤ n) (h : Unsigned text) :
    Unsigned (snprintf n text) := by
  obtain ⟨hlength, hfront⟩ := h
  unfold snprintf Unsigned
  rw [String.toList_ofList, List.length_take, List.take_take, min_eq_left (by omega : 2 ≤ n - 1)]
  exact ⟨by omega, hfront⟩

/-- A text with arguments. -/
theorem unsigned_formatted {n : Nat} {front : String} (rest : String) (hn : 3 ≤ n)
    (h : Unsigned front) : Unsigned (snprintf n (front ++ rest)) :=
  unsigned_snprintf hn (unsigned_append rest h)

/-- What a virtual method may do in a run without violations: quiet lines, which are not the
    thread checker's, and calls on the host other than `request_callback`. -/
def Effect.isQuiet : Effect → Prop
  | .log severity text => severity ≠ .hostMisbehaving ∧ Unsigned text
  | .requestCallback => False
  | .host call => call ≠ .requestCallback

/-! ## Moves -/

/-- The monitor without its findings: the flags, the caches and the callback count. -/
def ContractMonitor.tracked (m : ContractMonitor) : ContractMonitor := { m with findings := {} }

def ContractMonitor.addCallbacks (n : Nat) (m : ContractMonitor) : ContractMonitor :=
  { m with pendingCallbacks := m.pendingCallbacks + UInt32.ofNat n }

theorem ContractMonitor.addCallbacks_zero (m : ContractMonitor) : m.addCallbacks 0 = m := by
  have h : m.pendingCallbacks + UInt32.ofNat 0 = m.pendingCallbacks := UInt32.add_zero _
  rw [addCallbacks, h]

namespace Plugin

variable {D S σ : Type}

/-- How often `request_callback` was called on the host. -/
def callbackCalls (p : Plugin D σ) : Nat := p.hostCalls.count .requestCallback

structure Shifts (p q : Plugin D σ) (vs : List Violation)
    (f : ContractMonitor → ContractMonitor) : Prop where
  counts : Counted p.contract.findings q.contract.findings vs
  tracked : q.contract.tracked = f p.contract.tracked
  threads : q.threads = p.threads
  host : q.host = p.host

structure Moves (p q : Plugin D σ) (vs : List Violation)
    (f : ContractMonitor → ContractMonitor) : Prop extends Shifts p q vs f where
  quiet : vs = [] → Quiet p.contract.findings q.contract.findings
  unasked : q.callbackCalls = p.callbackCalls

section Rules

variable {p q r : Plugin D σ} {vs ws : List Violation} {f g : ContractMonitor → ContractMonitor}

theorem Shifts.trans (a : Shifts p q vs f) (b : Shifts q r ws g) :
    Shifts p r (vs ++ ws) (fun m => g (f m)) := by
  refine ⟨a.counts.trans b.counts, ?_, b.threads.trans a.threads, b.host.trans a.host⟩
  rw [b.tracked, a.tracked]

/-- A piece that counts nothing does not lengthen the list. -/
theorem Shifts.andThen (a : Shifts p q vs f) (b : Shifts q r [] g) :
    Shifts p r vs (fun m => g (f m)) := by
  have h := a.trans b
  rwa [List.append_nil] at h

/-- A flag, cache or baseline is read off from what the monitor went through. -/
theorem Shifts.field {α : Type} (a : Shifts p q vs f) (get : ContractMonitor → α)
    (hget : ∀ m : ContractMonitor, get m.tracked = get m) :
    get q.contract = get (f p.contract.tracked) := by
  rw [← a.tracked, hget]

theorem Moves.refl (p : Plugin D σ) : Moves p p [] id :=
  ⟨⟨counted_of_eq rfl rfl, rfl, rfl, rfl⟩, fun _ => quiet_of_eq rfl, rfl⟩

theorem Moves.trans (a : Moves p q vs f) (b : Moves q r ws g) :
    Moves p r (vs ++ ws) (fun m => g (f m)) := by
  refine ⟨a.toShifts.trans b.toShifts, ?_, b.unasked.trans a.unasked⟩
  intro h
  obtain ⟨rfl, rfl⟩ := List.append_eq_nil_iff.mp h
  exact (a.quiet rfl).trans (b.quiet rfl)

theorem Moves.andThen (a : Moves p q vs f) (b : Moves q r [] g) :
    Moves p r vs (fun m => g (f m)) := by
  have h := a.trans b
  rwa [List.append_nil] at h

end Rules

/-! ## The pieces -/

/-- An assignment to something other than the findings. -/
theorem moves_set (p : Plugin D σ) (g : ContractMonitor → ContractMonitor)
    (hf : (g p.contract).findings = p.contract.findings)
    (hg : (g p.contract).tracked = g p.contract.tracked) :
    Moves p { p with contract := g p.contract } [] g :=
  ⟨⟨counted_of_eq (congrArg _ hf) (congrArg _ hf), hg, rfl, rfl⟩,
    fun _ => quiet_of_eq (congrArg _ hf), rfl⟩

theorem moves_report (p : Plugin D σ) (v : Violation) (function detail : String) :
    Moves p (p.report v function detail) [v] id :=
  ⟨⟨counted_report _ _ _ _, rfl, rfl, rfl⟩, fun h => absurd h (List.cons_ne_nil _ _), rfl⟩

theorem moves_reportAll (p : Plugin D σ) (found : List Finding) :
    Moves p { p with contract := { p.contract with
      findings := p.contract.findings.reportAll found } } (found.map (·.violation)) id := by
  refine ⟨⟨counted_reportAll _ _, rfl, rfl, rfl⟩, ?_, rfl⟩
  intro h
  rw [List.map_eq_nil_iff.mp h]
  exact quiet_of_eq rfl

theorem shifts_log (p : Plugin D σ) (severity : LogSeverity) (text : String) :
    Shifts p (p.logToHost severity text) [] id :=
  ⟨counted_of_eq rfl rfl, rfl, rfl, rfl⟩

theorem moves_log (p : Plugin D σ) {severity : LogSeverity} (h : severity ≠ .hostMisbehaving)
    (text : String) : Moves p (p.logToHost severity text) [] id :=
  ⟨shifts_log p severity text, fun _ => quiet_emit _ h text, rfl⟩

theorem moves_logLifecycle (p : Plugin D σ) (message : String) :
    Moves p (p.logLifecycle message) [] id := by
  unfold logLifecycle
  split
  · exact moves_log p (by decide) message
  · exact Moves.refl p

theorem shifts_logLines (lines : List LogLine) :
    ∀ p : Plugin D σ, Shifts p (p.logLines lines) [] id := by
  induction lines with
  | nil => exact fun p => (Moves.refl p).toShifts
  | cons l ls ih => exact fun p => (shifts_log p l.severity l.text).trans (ih _)

theorem logLines_log (lines : List LogLine) :
    ∀ p : Plugin D σ, (p.logLines lines).contract.findings.log =
      p.contract.findings.log ++ lines := by
  induction lines with
  | nil => exact fun p => (List.append_nil _).symm
  | cons l ls ih =>
    intro p
    exact (ih (p.logToHost l.severity l.text)).trans (List.append_assoc _ [l] ls)

theorem moves_logLines (lines : List LogLine) (h : ∀ line ∈ lines, line.isQuiet) :
    ∀ p : Plugin D σ, Moves p (p.logLines lines) [] id := by
  induction lines with
  | nil => exact Moves.refl
  | cons l ls ih =>
    intro p
    exact (moves_log p (h l List.mem_cons_self) l.text).trans
      (ih (fun line hl => h line (List.mem_cons_of_mem _ hl)) _)

theorem hostInfoLines_quiet (host : Host) : ∀ line ∈ hostInfoLines host, line.isQuiet := by
  intro line hl
  unfold hostInfoLines at hl
  simp only [List.mem_append, List.mem_cons, List.mem_map, List.not_mem_nil, or_false] at hl
  rcases hl with ((rfl | rfl) | ⟨id, -, rfl⟩) | rfl <;> exact LogSeverity.noConfusion

theorem moves_logHostInfo (p : Plugin D σ) : Moves p p.logHostInfo [] id := by
  unfold logHostInfo
  split
  · exact Moves.refl p
  · exact moves_logLines _ (hostInfoLines_quiet _) p

theorem moves_perform (p : Plugin D σ) {effect : Effect} (h : effect.isQuiet) :
    Moves p (p.perform effect) [] id := by
  cases effect with
  | log severity text => exact moves_log p h.1 text
  | requestCallback => exact h.elim
  | host call =>
    refine ⟨⟨counted_of_eq rfl rfl, rfl, rfl, rfl⟩, fun _ => quiet_of_eq rfl, ?_⟩
    show (p.hostCalls ++ [call]).count .requestCallback = _
    rw [List.count_append, List.count_singleton, if_neg (by simpa [Effect.isQuiet] using h)]
    rfl

theorem moves_effects (effects : List Effect) (h : ∀ e ∈ effects, e.isQuiet) :
    ∀ p : Plugin D σ, Moves p (effects.foldl perform p) [] id := by
  induction effects with
  | nil => exact Moves.refl
  | cons e es ih =>
    intro p
    exact (moves_perform p (h e List.mem_cons_self)).trans
      (ih (fun e he => h e (List.mem_cons_of_mem _ he)) _)

theorem moves_absorb {α : Type} (p : Plugin D σ) (out : Outcome D σ α)
    (h : ∀ e ∈ out.effects, e.isQuiet) : Moves p (p.absorb out) [] id :=
  have hself : Moves p { p with self := out.self } [] id :=
    ⟨⟨counted_of_eq rfl rfl, rfl, rfl, rfl⟩, fun _ => quiet_of_eq rfl, rfl⟩
  hself.trans (moves_effects out.effects h _)

/-- `requestCallback` counts the callback whether or not there is a host to ask. -/
theorem shifts_requestCallback (p : Plugin D σ) :
    Shifts p p.requestCallback [] (ContractMonitor.addCallbacks 1) :=
  ⟨counted_of_eq rfl rfl, rfl, rfl, rfl⟩

theorem shifts_effects (effects : List Effect) :
    ∀ p : Plugin D σ, ∃ n,
      Shifts p (effects.foldl perform p) [] (ContractMonitor.addCallbacks n) := by
  induction effects with
  | nil => exact fun p => ⟨0, counted_of_eq rfl rfl, (p.contract.tracked.addCallbacks_zero).symm,
      rfl, rfl⟩
  | cons e es ih =>
    intro p
    obtain ⟨n, hn⟩ := ih (p.perform e)
    cases e with
    | log severity text => exact ⟨n, (shifts_log p severity text).trans hn⟩
    | host call => exact ⟨n, hn.counts, hn.tracked, hn.threads, hn.host⟩
    | requestCallback =>
      have h := (shifts_requestCallback p).trans hn
      refine ⟨1 + n, h.counts, h.tracked.trans ?_, h.threads, h.host⟩
      simp only [ContractMonitor.addCallbacks, UInt32.ofNat_add, UInt32.add_assoc]

/-- Whatever a virtual method does, it reports nothing and leaves the flags and caches alone. -/
theorem shifts_absorb {α : Type} (p : Plugin D σ) (out : Outcome D σ α) :
    ∃ n, Shifts p (p.absorb out) [] (ContractMonitor.addCallbacks n) := by
  obtain ⟨n, hn⟩ := shifts_effects out.effects { p with self := out.self }
  exact ⟨n, hn.counts, hn.tracked, hn.threads, hn.host⟩

/-! ## The thread checks -/

/-- The authoritative thread findings of a [main-thread] call. -/
def mainCodes (p : Plugin D σ) (thread : ThreadId) : List Violation :=
  if p.threads.confirmedNotMainThread thread then [.T01] else []

/-- The authoritative thread findings of an [audio-thread] call. -/
def audioCodes (p : Plugin D σ) (thread : ThreadId) : List Violation :=
  if p.threads.confirmedNotAudioThread thread then [.T02] else []

theorem eq_of_mem_mainCodes {p : Plugin D σ} {thread : ThreadId} {v : Violation}
    (h : v ∈ p.mainCodes thread) : v = .T01 :=
  List.mem_singleton.mp (List.mem_ite_nil_right.mp h).2

theorem eq_of_mem_audioCodes {p : Plugin D σ} {thread : ThreadId} {v : Violation}
    (h : v ∈ p.audioCodes thread) : v = .T02 :=
  List.mem_singleton.mp (List.mem_ite_nil_right.mp h).2

/-- A thread finding is emitted and then noted. -/
theorem moves_threadFinding (p : Plugin D σ) (v : Violation) (message : String) :
    Moves p { p with contract := (p.contract.emit .hostMisbehaving message).note v message } [v]
      id :=
  ⟨⟨⟨(bump_singleton _ _).symm, rfl⟩, rfl, rfl, rfl⟩, fun h => absurd h (List.cons_ne_nil _ _),
    rfl⟩

theorem moves_assertMainThread (p : Plugin D σ) (thread : ThreadId) (function : String) :
    Moves p (p.assertMainThread thread function) (p.mainCodes thread) id := by
  unfold mainCodes assertMainThread ThreadChecker.assertMainThread
    ThreadChecker.confirmedNotMainThread
  cases hcheck : p.threads.hostCheck.bind (·.isMainThread) with
  | none =>
    dsimp only
    split
    · exact Moves.refl p
    · exact moves_log p (by decide) _
  | some isMain =>
    dsimp only
    by_cases hm : isMain thread = true
    · rw [if_pos hm, if_neg (by simp [hm])]
      exact Moves.refl p
    · rw [if_neg hm, if_pos (by simp [hm])]
      exact moves_threadFinding p .T01 _

theorem moves_assertAudioThread (p : Plugin D σ) (thread : ThreadId) (function : String) :
    Moves p (p.assertAudioThread thread function) (p.audioCodes thread) id := by
  unfold audioCodes assertAudioThread ThreadChecker.assertAudioThread
    ThreadChecker.confirmedNotAudioThread
  cases hcheck : p.threads.hostCheck.bind (·.isAudioThread) with
  | none => exact Moves.refl p
  | some isAudio =>
    dsimp only
    by_cases hm : isAudio thread = true
    · rw [if_pos hm, if_neg (by simp [hm])]
      exact Moves.refl p
    · rw [if_neg hm, if_pos (by simp [hm])]
      exact moves_threadFinding p .T02 _

/-! ## The flavor's own state -/

theorem effects_self (effects : List Effect) :
    ∀ p : Plugin D σ, (effects.foldl perform p).self = p.self := by
  induction effects with
  | nil => exact fun p => rfl
  | cons e es ih =>
    intro p
    rw [List.foldl_cons, ih]
    cases e <;> rfl

@[simp] theorem absorb_self {α : Type} (p : Plugin D σ) (out : Outcome D σ α) :
    (p.absorb out).self = out.self := effects_self out.effects _

@[simp] theorem logLifecycle_self (p : Plugin D σ) (message : String) :
    (p.logLifecycle message).self = p.self := by
  unfold logLifecycle
  split <;> rfl

theorem logLines_self (lines : List LogLine) :
    ∀ p : Plugin D σ, (p.logLines lines).self = p.self := by
  induction lines with
  | nil => exact fun p => rfl
  | cons l ls ih => exact fun p => ih _

@[simp] theorem logHostInfo_self (p : Plugin D σ) : p.logHostInfo.self = p.self := by
  unfold logHostInfo
  split
  · rfl
  · exact logLines_self _ _

end Plugin

end Cvp
