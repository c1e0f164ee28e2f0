/-
  The log only grows. Whatever a trampoline does, for any flavor, the lines that were there stay,
  the line of the [main-thread] check at its head comes right behind them, and no other line that
  comes with the call says that a function was called off the main thread (`call_extends`).
-/
import ClapValidatorPlugins.Contract.ExtensionCalls

namespace Cvp

variable {D S σ : Type}

/-! ## [main-thread] lines -/

/-- The line says that a function was called outside the [main-thread] contract. -/
def LogLine.accusesMain (line : LogLine) : Bool :=
  "clap-validator-plugin: '".toList.isPrefixOf line.text.toList &&
    line.text.toList.tails.any fun tail => "[main-thread] contract".toList.isPrefixOf tail

theorem accusesMain_of_unsigned {line : LogLine} (h : Unsigned line.text) :
    line.accusesMain = false := by
  refine Bool.eq_false_iff.mpr fun haccuses => h.2 ?_
  obtain ⟨rest, hrest⟩ := List.isPrefixOf_iff_prefix.mp (Bool.and_eq_true_iff.mp haccuses).1
  rw [← hrest, List.take_append_of_le_length (by decide)]
  decide

def Effect.isUnsigned : Effect → Prop
  | .log _ text => Unsigned text
  | .requestCallback | .host _ => True

theorem Effect.isUnsigned_of_isQuiet {effect : Effect} (h : effect.isQuiet) :
    effect.isUnsigned := by
  cases effect with
  | log severity text => exact h.2
  | requestCallback => trivial
  | host call => trivial

def Outcome.IsUnsigned {α : Type} (out : Outcome D σ α) : Prop :=
  ∀ effect ∈ out.effects, effect.isUnsigned

theorem Outcome.IsQuiet.unsigned {α : Type} {out : Outcome D σ α} (h : out.IsQuiet) :
    out.IsUnsigned := fun effect he => Effect.isUnsigned_of_isQuiet (h effect he)

theorem unsigned_reportLine (v : Violation) (function detail : String) :
    Unsigned (Findings.reportLine v function detail) := by
  unfold Findings.reportLine
  simp only [String.append_assoc]
  exact unsigned_formatted _ (by decide) (by decide)

theorem unsigned_summaryEntries (f : Findings) (codes : List Violation) :
    ∀ (first : Bool) (line : String), Unsigned line →
      Unsigned (f.summaryEntries codes first line) := by
  induction codes with
  | nil => exact fun _ _ h => h
  | cons v codes ih =>
    intro first line h
    unfold Findings.summaryEntries
    split
    · split
      · exact ih first line h
      · simp only [String.append_assoc]
        exact ih false _ (unsigned_append _ h)
    · exact h

theorem unsigned_hostInfoLines (host : Host) :
    ∀ line ∈ Plugin.hostInfoLines host, Unsigned line.text := by
  intro line hl
  unfold Plugin.hostInfoLines at hl
  simp only [List.mem_append, List.mem_cons, List.mem_map, List.not_mem_nil, or_false] at hl
  rcases hl with ((rfl | rfl) | ⟨id, -, rfl⟩) | rfl
  all_goals simp only [String.append_assoc]
  · exact unsigned_formatted _ (by decide) (by decide)
  · exact unsigned_append _ (by decide)
  · exact unsigned_append _ (by decide)
  · exact unsigned_append _ (by decide)

/-! ## The check at the head of a trampoline -/

namespace ThreadChecker

/-- The line `assertMainThread` emits, if any. -/
def mainLine (t : ThreadChecker) (thread : ThreadId) (function : String) : Option LogLine :=
  match t.hostCheck.bind (·.isMainThread) with
  | some isMain =>
    if isMain thread then none else some ⟨.hostMisbehaving, message function "main" true⟩
  | none =>
    if t.mainThread = some thread then none else some ⟨.warning, message function "main" false⟩

theorem assertMainThread_log (t : ThreadChecker) (m : ContractMonitor) (thread : ThreadId)
    (function : String) :
    (t.assertMainThread m thread function).findings.log =
      m.findings.log ++ (t.mainLine thread function).toList := by
  unfold assertMainThread mainLine
  cases t.hostCheck.bind (·.isMainThread) with
  | some isMain =>
    by_cases h : isMain thread = true
    · simp [h]
    · simp [h, report, Findings.emit, Findings.note, Findings.count, Findings.record]
  | none =>
    by_cases h : t.mainThread = some thread
    · simp [h]
    · simp [h, report, Findings.emit]

end ThreadChecker

/-- `__func__` of the trampoline, where it starts with `CVP_ASSERT_MAIN_THREAD`. -/
def Call.mainCheck : Call D S → Option String
  | .init _ => some "sInit"
  | .destroy => some "sDestroy"
  | .activate _ _ _ => some "sActivate"
  | .deactivate => some "sDeactivate"
  | .onMainThread => some "sOnMainThread"
  | .stateSave _ => some "sSave"
  | .stateLoad _ => some "sLoad"
  | .audioPortsCount _ | .notePortsCount _ => some "sCount"
  | .audioPortsGet _ _ | .notePortsGet _ _ | .latencyGet | .voiceInfoGet => some "sGet"
  | .audioPortsConfigSelect _ => some "sSelect"
  | .canApplyConfiguration _ => some "sCanApply"
  | .applyConfiguration _ => some "sApply"
  | .renderSet _ => some "sSet"
  | .presetLoad _ _ _ _ => some "sFromLocation"
  | .isChannelMaskSupported _ => some "sIsChannelMaskSupported"
  | .getChannelMap _ _ _ => some "sGetChannelMap"
  | .guiCreate _ _ _ => some "sCreate"
  | .guiDestroy => some "sDestroy"
  | .gui method _ => some (Plugin.Gui.functionName method)
  | .query function => some function
  | .startProcessing | .stopProcessing | .reset | .process _ _ | .getExtension _
  | .paramsFlush _ _ | .tailGet | .violationsClear | .uiEdit _ => none

/-- The lines `init()` is given to copy. -/
def Call.given : Call D S → List LogLine
  | .init earlyLog => earlyLog
  | _ => []

namespace Plugin

/-- The lines the check at the head of the call emits. -/
def mainLines (p : Plugin D σ) (thread : ThreadId) (call : Call D S) : List LogLine :=
  match call.mainCheck with
  | some function => (p.threads.mainLine thread function).toList
  | none => []

/-! ## The pieces -/

/-- Between `f` and `g` no line was logged that says that a function was called off the main thread,
    but for those of `given`. -/
def Unaccusing (given : List LogLine) (f g : Findings) : Prop :=
  ∃ more, g.log = f.log ++ more ∧ ∀ line ∈ more, line.accusesMain → line ∈ given

theorem Unaccusing.of_log {given : List LogLine} {f g : Findings} (h : g.log = f.log) :
    Unaccusing given f g :=
  ⟨[], by rw [List.append_nil, h], fun _ h => absurd h List.not_mem_nil⟩

theorem Unaccusing.refl (f : Findings) : Unaccusing [] f f := Unaccusing.of_log rfl

theorem Unaccusing.trans {given : List LogLine} {f g h : Findings} (a : Unaccusing given f g)
    (b : Unaccusing given g h) : Unaccusing given f h := by
  obtain ⟨more, hg, hmore⟩ := a
  obtain ⟨later, hh, hlater⟩ := b
  refine ⟨more ++ later, ?_, List.forall_mem_append.mpr ⟨hmore, hlater⟩⟩
  rw [hh, hg, List.append_assoc]

theorem Unaccusing.mono {given : List LogLine} {f g : Findings} (h : Unaccusing [] f g) :
    Unaccusing given f g := by
  obtain ⟨more, hg, hmore⟩ := h
  exact ⟨more, hg, fun line hl haccuses => absurd (hmore line hl haccuses) List.not_mem_nil⟩

/-- Lines that accuse nobody. -/
theorem unaccusing_of_lines {f g : Findings} {lines : List LogLine} (hg : g.log = f.log ++ lines)
    (h : ∀ line ∈ lines, line.accusesMain = false) : Unaccusing [] f g :=
  ⟨lines, hg, fun line hl haccuses => absurd haccuses (Bool.eq_false_iff.mp (h line hl))⟩

theorem unaccusing_emit (f : Findings) (severity : LogSeverity) {text : String}
    (h : LogLine.accusesMain ⟨severity, text⟩ = false) : Unaccusing [] f (f.emit severity text) :=
  unaccusing_of_lines rfl (List.forall_mem_singleton.mpr h)

theorem unaccusing_report (f : Findings) (v : Violation) (function detail : String) :
    Unaccusing [] f (f.report v function detail) := by
  let n := f.counters v + 1
  let recorded := (f.count v).record v (Findings.reportLine v function detail) n
  have hrecorded : Unaccusing [] f recorded := Unaccusing.refl f
  have hline : ∀ detail, Unaccusing [] recorded
      (recorded.emit .hostMisbehaving (Findings.reportLine v function detail)) := fun detail =>
    unaccusing_emit _ _ (accusesMain_of_unsigned (unsigned_reportLine v function detail))
  unfold Findings.report
  dsimp only
  split_ifs
  · exact hrecorded.trans (hline _)
  · exact hrecorded.trans (hline _)
  · exact hrecorded

theorem unaccusing_reportAll (found : List Finding) :
    ∀ f : Findings, Unaccusing [] f (f.reportAll found) := by
  induction found with
  | nil => exact Unaccusing.refl
  | cons r rs ih =>
    intro f
    rw [Findings.reportAll_cons]
    exact (unaccusing_report f r.violation r.function r.detail).trans (ih _)

theorem unaccusing_logSummary (f : Findings) : Unaccusing [] f f.logSummary := by
  unfold Findings.logSummary
  split
  · exact unaccusing_emit f _ (accusesMain_of_unsigned (by decide))
  · refine unaccusing_emit f _ (accusesMain_of_unsigned (unsigned_snprintf (by decide) ?_))
    refine unsigned_append _ (unsigned_summaryEntries f _ _ _ ?_)
    simp only [String.append_assoc]
    exact unsigned_append _ (by decide)

/-- The log of `q` is that of `p` and what came after, without a [main-thread] line. -/
def Extends (p q : Plugin D σ) : Prop := Unaccusing [] p.contract.findings q.contract.findings

variable {impl : PluginImpl D S σ} {p q r : Plugin D σ}

theorem Extends.refl (p : Plugin D σ) : Extends p p := Unaccusing.refl _

theorem Extends.trans (a : Extends p q) (b : Extends q r) : Extends p r := Unaccusing.trans a b

theorem Extends.of_log (h : q.contract.findings.log = p.contract.findings.log) : Extends p q :=
  Unaccusing.of_log h

theorem extends_report (p : Plugin D σ) (v : Violation) (function detail : String) :
    Extends p (p.report v function detail) := unaccusing_report _ _ _ _

theorem extends_reportIf (p : Plugin D σ) (b : Bool) (v : Violation) (function detail : String) :
    Extends p (if b then p.report v function detail else p) := by
  cases b
  · exact Extends.refl p
  · exact extends_report p v function detail

theorem extends_log (p : Plugin D σ) (severity : LogSeverity) {text : String}
    (h : LogLine.accusesMain ⟨severity, text⟩ = false) :
    Extends p (p.logToHost severity text) := unaccusing_emit _ _ h

theorem extends_logLifecycle (p : Plugin D σ) {message : String} (h : Unsigned message) :
    Extends p (p.logLifecycle message) := by
  unfold logLifecycle
  split
  · exact extends_log p _ (accusesMain_of_unsigned h)
  · exact Extends.refl p

theorem extends_logHostInfo (p : Plugin D σ) : Extends p p.logHostInfo := by
  unfold logHostInfo
  split
  · exact Extends.refl p
  · rename_i host _
    exact unaccusing_of_lines (logLines_log _ p) fun line hl =>
      accusesMain_of_unsigned (unsigned_hostInfoLines host line hl)

theorem extends_perform (p : Plugin D σ) {effect : Effect} (h : effect.isUnsigned) :
    Extends p (p.perform effect) := by
  cases effect with
  | log severity text => exact extends_log p severity (accusesMain_of_unsigned h)
  | requestCallback => exact Extends.refl p
  | host call => exact Extends.refl p

/-- What a virtual method did. -/
theorem extends_absorb {α : Type} (p : Plugin D σ) {out : Outcome D σ α} (h : out.IsUnsigned) :
    Extends p (p.absorb out) := by
  have hall : ∀ (effects : List Effect) (p : Plugin D σ), (∀ e ∈ effects, e.isUnsigned) →
      Extends p (effects.foldl perform p) := by
    intro effects
    induction effects with
    | nil => exact fun p _ => Extends.refl p
    | cons effect effects ih =>
      intro p h
      obtain ⟨heffect, heffects⟩ := List.forall_mem_cons.mp h
      exact (extends_perform p heffect).trans (ih _ heffects)
  exact (Extends.of_log (q := { p with self := out.self }) rfl).trans (hall out.effects _ h)

theorem extends_assertAudioThread (p : Plugin D σ) (thread : ThreadId) {function : String}
    (h : LogLine.accusesMain
      ⟨.hostMisbehaving, ThreadChecker.message function "audio" true⟩ = false) :
    Extends p (p.assertAudioThread thread function) := by
  unfold Extends assertAudioThread ThreadChecker.assertAudioThread
  split
  · split
    · exact Unaccusing.refl _
    · exact unaccusing_emit _ _ h
  · exact Unaccusing.refl _

theorem extends_checkProcessContracts (p : Plugin D σ) (block : ProcessBlock D) :
    Extends p { p with contract := (checkProcessContracts p.contract block).2 } :=
  unaccusing_reportAll _ _

theorem extends_logFirstProcess (p : Plugin D σ) (framesCount : UInt32) :
    Extends p (p.logFirstProcess framesCount) := by
  unfold logFirstProcess
  split
  · refine extends_log { p with firstProcessLogged := true } _ (accusesMain_of_unsigned ?_)
    simp only [String.append_assoc]
    exact unsigned_append _ (by decide)
  · exact Extends.refl p

/-! ## The trampolines, behind the check at their head -/

/-- The instance behind the check at the head of the call. -/
def checked (p : Plugin D σ) (thread : ThreadId) (call : Call D S) : Plugin D σ :=
  match call.mainCheck with
  | some function => p.assertMainThread thread function
  | none => p

theorem checked_log (p : Plugin D σ) (thread : ThreadId) (call : Call D S) :
    (p.checked thread call).contract.findings.log =
      p.contract.findings.log ++ p.mainLines thread call := by
  unfold checked mainLines
  split
  · exact ThreadChecker.assertMainThread_log _ _ _ _
  · rw [List.append_nil]

/-- What `init()` was given is logged as it is. -/
theorem unaccusing_sInit (ht : Tame impl) (thread : ThreadId) (earlyLog : List LogLine) :
    Unaccusing earlyLog (p.assertMainThread thread "sInit").contract.findings
      (p.sInit impl thread earlyLog).1.contract.findings := by
  have hinit : ∀ base s, (impl.init base s).IsUnsigned := by
    intro base s
    rcases ht.initEffects base s with hquiet | ⟨-, text, htext, heffects⟩
    · exact hquiet.unsigned
    · intro effect he
      rw [heffects] at he
      rcases List.mem_pair.mp he with rfl | rfl
      · exact htext
      · trivial
  unfold sInit
  dsimp only
  split
  · exact (extends_report _ _ _ _).mono
  · let p1 := p.assertMainThread thread "sInit"
    let p2 : Plugin D σ := { p1 with threads := p1.threads.onInit p1.host thread }
    let p3 := p2.logLines earlyLog
    let p4 : Plugin D σ := { p3 with contract := { p3.contract with initialized := true } }
    have h4 : Unaccusing earlyLog p1.contract.findings p4.contract.findings :=
      ⟨earlyLog, logLines_log earlyLog p2, fun _ hl _ => hl⟩
    let p5 := p4.logHostInfo.logLifecycle "lifecycle: init()"
    have h5 : Extends p4 p5 :=
      (extends_logHostInfo p4).trans (extends_logLifecycle _ (by decide))
    have h6 : Extends p5 (p5.absorb (impl.init p5.base p5.self)) := extends_absorb p5 (hinit _ _)
    exact h4.trans (h5.trans h6).mono

theorem extends_sDestroy (thread : ThreadId) :
    Extends (p.assertMainThread thread "sDestroy") (p.sDestroy thread) := by
  have hsummary : ∀ q : Plugin D σ, Extends q { q with contract := q.contract.logSummary } :=
    fun q => unaccusing_logSummary q.contract.findings
  exact ((extends_reportIf _ _ _ _ _).trans (hsummary _)).trans
    (extends_logLifecycle _ (by decide))

theorem extends_activateWith [DoubleOps D] (ht : Tame impl) (p : Plugin D σ) (sampleRate : D)
    (minFrames maxFrames : Nat) :
    Extends p (activateWith impl p sampleRate minFrames maxFrames).1 := by
  have hactivate : ∀ base s, (impl.activate base s sampleRate minFrames maxFrames).IsUnsigned :=
    fun base s => (ht.activateQuiet base s sampleRate minFrames maxFrames).unsigned
  have hline : Unsigned (snprintf 128 ("lifecycle: activate(sr=" ++
      DoubleOps.formatFixed 1 sampleRate ++ s!", min={minFrames}, max={maxFrames})")) := by
    simp only [String.append_assoc]
    exact unsigned_formatted _ (by decide) (by decide)
  unfold activateWith
  dsimp only
  split
  · exact (extends_logLifecycle _ hline).trans (extends_absorb { (p.logLifecycle _) with
      sampleRate := sampleRate
      contract := { (p.logLifecycle _).contract with beingActivated := true } } (hactivate _ _))
  · exact (extends_logLifecycle _ hline).trans (extends_absorb { (p.logLifecycle _) with
      sampleRate := sampleRate
      contract := { (p.logLifecycle _).contract with beingActivated := true } } (hactivate _ _))

theorem extends_sActivate [DoubleOps D] (ht : Tame impl) (thread : ThreadId) (sampleRate : D)
    (minFrames maxFrames : Nat) :
    Extends (p.assertMainThread thread "sActivate")
      (p.sActivate impl thread sampleRate minFrames maxFrames).1 := by
  unfold sActivate
  dsimp only
  split_ifs
  · exact extends_report _ _ _ _
  · exact (extends_report _ _ _ _).trans (extends_activateWith ht _ _ _ _)
  · exact extends_activateWith ht _ _ _ _

/-- `sDeactivate` behind its checks. -/
def deactivateTail (impl : PluginImpl D S σ) (p : Plugin D σ) : Plugin D σ :=
  let p := p.logLifecycle "lifecycle: deactivate()"
  let p := p.absorb (impl.deactivate p.base p.self)
  { p with contract := { p.contract with active := false } }

theorem extends_deactivateTail (ht : Tame impl) (p : Plugin D σ) :
    Extends p (p.deactivateTail impl) :=
  (extends_logLifecycle p (by decide)).trans (extends_absorb _ (ht.deactivate _ _).quiet.unsigned)

theorem extends_sDeactivate (ht : Tame impl) (thread : ThreadId) :
    Extends (p.assertMainThread thread "sDeactivate") (p.sDeactivate impl thread) := by
  let p1 := p.assertMainThread thread "sDeactivate"
  let p2 := p1.report .L05 "deactivate()"
    "called while still processing (missing stop_processing())"
  let p3 := p2.absorb (impl.stopProcessing p2.base p2.self)
  let p4 : Plugin D σ := { p3 with contract := { p3.contract with processing := false } }
  have h4 : Extends p1 p4 := (extends_report _ _ _ _).trans
    (extends_absorb p2 (ht.stopProcessing _ _).quiet.unsigned)
  have he : p.sDeactivate impl thread =
      if !p1.contract.active then p1.report .L04 "deactivate()" "called while not active"
      else (if p1.contract.processing then p4 else p1).deactivateTail impl := rfl
  rw [he]
  split_ifs
  · exact extends_report _ _ _ _
  · exact h4.trans (extends_deactivateTail ht _)
  · exact extends_deactivateTail ht _

theorem extends_sStartProcessing (ht : Tame impl) (thread : ThreadId) :
    Extends p (p.sStartProcessing impl thread).1 := by
  have hcheck : Extends p (p.assertAudioThread thread "sStartProcessing") :=
    extends_assertAudioThread p thread (by decide +kernel)
  unfold sStartProcessing
  dsimp only
  split_ifs
  · exact hcheck.trans (extends_report _ _ _ _)
  · exact hcheck.trans (extends_report _ _ _ _)
  · exact (hcheck.trans (extends_logLifecycle _ (by decide))).trans
      (extends_absorb _ (ht.startProcessing _ _).quiet.unsigned)

theorem extends_sStopProcessing (ht : Tame impl) (thread : ThreadId) :
    Extends p (p.sStopProcessing impl thread) := by
  have hcheck : Extends p (p.checkStop thread) :=
    (extends_assertAudioThread p thread (by decide +kernel)).trans (extends_reportIf _ _ _ _ _)
  rw [sStopProcessing_eq]
  split
  · exact hcheck.trans (extends_report _ _ _ _)
  · exact (hcheck.trans (extends_logLifecycle _ (by decide))).trans
      (extends_absorb _ (ht.stopProcessing _ _).quiet.unsigned)

theorem extends_sReset (ht : Tame impl) (thread : ThreadId) :
    Extends p (p.sReset impl thread) := by
  let p1 := p.assertAudioThread thread "sReset"
  let p2 := if !p1.contract.active then p1.report .L10 "reset()" "called while not active" else p1
  let p3 := p2.logLifecycle "lifecycle: reset()"
  let p4 : Plugin D σ := { p3 with contract := p3.contract.invalidateSteadyTime }
  have h2 : Extends p p2 :=
    (extends_assertAudioThread p thread (by decide +kernel)).trans (extends_reportIf _ _ _ _ _)
  have h4 : Extends p p4 :=
    (h2.trans (extends_logLifecycle _ (by decide))).trans (Extends.of_log rfl)
  exact h4.trans (extends_absorb p4 (ht.reset _ _).quiet.unsigned)

theorem extends_processGate (thread : ThreadId) (block : ProcessBlock D) :
    Extends p (p.processGate thread block).2 := by
  have hcheck : Extends p (p.assertAudioThread thread "sProcess") :=
    extends_assertAudioThread p thread (by decide +kernel)
  unfold processGate
  dsimp only
  split
  · exact hcheck.trans (extends_report _ _ _ _)
  · split
    · exact hcheck.trans (extends_report { (p.assertAudioThread thread "sProcess") with
        contract := { (p.assertAudioThread thread "sProcess").contract with
          inProcess := true } } _ _ _)
    · have hfirst : Extends p (({ (p.assertAudioThread thread "sProcess") with
          contract := { (p.assertAudioThread thread "sProcess").contract with
            inProcess := true } } : Plugin D σ).logFirstProcess block.framesCount) :=
        hcheck.trans (extends_logFirstProcess { (p.assertAudioThread thread "sProcess") with
          contract := { (p.assertAudioThread thread "sProcess").contract with
            inProcess := true } } _)
      have hblock := hfirst.trans (extends_checkProcessContracts _ block)
      split
      · exact hblock
      · exact hblock

theorem extends_sProcess (ht : Tame impl) (thread : ThreadId) (block : ProcessBlock D)
    (memory : AudioMemory D S) :
    Yields (p.sProcess impl thread block memory) fun r => Extends p r.1 := by
  have hgate := extends_processGate (p := p) thread block
  unfold sProcess
  split
  · rename_i q hq
    rw [hq] at hgate
    exact Yields.of_ok hgate
  · rename_i q hq
    rw [hq] at hgate
    split
    · exact Yields.of_error _
    · rename_i out m hout
      have hquiet := (ht.process q.base q.self block memory (out, m) hout).quiet
      exact Yields.of_ok (hgate.trans (extends_absorb q hquiet.unsigned))

theorem extends_sGetExtension (id : Option String) :
    Yields (p.sGetExtension impl id) fun r => Extends p r.1 := by
  unfold sGetExtension
  split
  · split
    · exact Yields.of_ok (Extends.refl p)
    · exact Yields.of_error _
  · exact Yields.of_ok (extends_reportIf _ _ _ _ _)

theorem extends_sOnMainThread (ht : Tame impl) (thread : ThreadId) :
    Extends (p.assertMainThread thread "sOnMainThread") (p.sOnMainThread impl thread) := by
  let p1 := p.assertMainThread thread "sOnMainThread"
  let p2 : Plugin D σ := { p1 with contract := p1.contract.consumePendingCallbacks.2 }
  have h2 : Extends p1 p2 := Extends.of_log rfl
  exact ((h2.trans (extends_reportIf p2 (!p1.contract.consumePendingCallbacks.1) _ _ _)).trans
    (extends_logLifecycle _ (by decide))).trans
      (extends_absorb _ (ht.onMainThread _ _).quiet.unsigned)

/-! ## The extensions -/

/-- A call that reaches its provider and takes over what it did. -/
theorem yields_absorb {α β γ : Type} {o : Option α} {f : α → Outcome D σ β} {g : α → γ}
    (h : Extends p q) (hf : ∀ a ∈ o, (f a).IsUnsigned) :
    Yields (provider o >>= fun a => Except.ok (q.absorb (f a), g a)) fun r => Extends p r.1 :=
  yields_provider fun a ha => Yields.of_ok (h.trans (extends_absorb q (hf a ha)))

/-- The same where the provider may fail. -/
theorem yields_absorb_exec {α β γ : Type} {o : Option α} {f : α → Exec β}
    {out : β → Outcome D σ γ} {δ : Type} {g : β → δ} (h : Extends p q)
    (hf : ∀ a ∈ o, Yields (f a) fun b => (out b).IsUnsigned) :
    Yields (provider o >>= fun a => f a >>= fun b => Except.ok (q.absorb (out b), g b))
      fun r => Extends p r.1 :=
  yields_provider fun a ha => Yields.bind (hf a ha) fun _ hb =>
    Yields.of_ok (h.trans (extends_absorb q hb))

/-- A call that asks its provider and changes nothing. -/
theorem yields_ask {α β : Type} {o : Option α} {g : α → β} (h : Extends p q) :
    Yields (provider o >>= fun a => Except.ok (q, g a)) fun r => Extends p r.1 :=
  yields_provider fun _ _ => Yields.of_ok h

theorem extends_checkNoScan (p : Plugin D σ) (code : Violation) (function : String) :
    Extends p (p.checkNoScan code function) := extends_reportIf p _ code function _

theorem extends_sFlush (ht : Tame impl) (thread : ThreadId) (inEvents : Option (InputEvents D))
    (hasOutEvents : Bool) :
    Yields (Params.sFlush impl p thread inEvents hasOutEvents) fun r => Extends p r.1 := by
  let p1 := if p.contract.inProcess then
      p.report .P07 "params.flush()" "called concurrently with process()"
    else p
  let p2 := p1.checkFlushThread thread
  let p3 : Plugin D σ := { p2 with contract := { p2.contract with
    findings := p2.contract.findings.reportAll (checkParamEvents p2.contract inEvents none) } }
  have h2 : Extends p1 p2 := by
    show Extends p1 (p1.checkFlushThread thread)
    unfold checkFlushThread
    split
    · exact extends_reportIf _ _ _ _ _
    · exact extends_reportIf _ _ _ _ _
  have h3 : Extends p p3 :=
    ((extends_reportIf p _ _ _ _).trans h2).trans (unaccusing_reportAll _ _)
  exact yields_absorb_exec h3 fun params hparams =>
    (ht.paramsFlush params hparams p3.base p3.self inEvents hasOutEvents).mono
      fun _ h => h.quiet.unsigned

/-- A refusal of the active plugin, or the provider's answer. -/
theorem yields_refusing {α : Type} {o : Option α} {f : α → Outcome D σ Bool} {b : Bool}
    {code : Violation} {function detail : String}
    (hf : b = false → ∀ a ∈ o, (f a).IsUnsigned) :
    Yields (if b then .ok (p.report code function detail, false)
      else provider o >>= fun a => Except.ok (p.absorb (f a), (f a).value) :
        Exec (Plugin D σ × Bool)) fun r => Extends p r.1 := by
  split
  · exact Yields.of_ok (extends_report _ _ _ _)
  · rename_i hb
    exact yields_absorb (Extends.refl p) (hf (Bool.eq_false_iff.mpr hb))

theorem extends_latencyGet (thread : ThreadId) :
    Yields (Latency.sGet impl p thread) fun r =>
      Extends (p.assertMainThread thread "sGet") r.1 :=
  yields_ask (extends_reportIf _ _ _ _ _)

theorem extends_tailGet (thread : ThreadId) :
    Yields (Tail.sGet impl p thread) fun r => Extends p r.1 :=
  yields_ask (extends_reportIf _ _ _ _ _)

theorem extends_voiceInfoGet (thread : ThreadId) :
    Yields (VoiceInfo.sGet impl p thread) fun r =>
      Extends (p.assertMainThread thread "sGet") r.1 :=
  yields_ask (extends_reportIf _ _ _ _ _)

theorem extends_renderSet (ht : Tame impl) (thread : ThreadId) (mode : Int) :
    Yields (Render.sSet impl p thread mode) fun r =>
      Extends (p.assertMainThread thread "sSet") r.1 :=
  yields_refusing fun _ render hrender => (ht.renderSet render hrender _ mode).quiet.unsigned

theorem extends_configSelect (ht : Tame impl) (thread : ThreadId) (configId : ClapId) :
    Yields (AudioPortsConfig.sSelect impl p thread configId) fun r =>
      Extends (p.assertMainThread thread "sSelect") r.1 :=
  yields_refusing fun _ config hconfig => (ht.configSelect config hconfig _ _ configId).unsigned

theorem extends_canApply (ht : Tame impl) (thread : ThreadId) (requests : PortConfigRequests) :
    Yields (ConfigurableAudioPorts.sCanApply impl p thread requests) fun r =>
      Extends (p.assertMainThread thread "sCanApply") r.1 :=
  yields_refusing fun hactive config hconfig =>
    (ht.canApply config hconfig _ _ requests hactive).unsigned

theorem extends_apply (ht : Tame impl) (thread : ThreadId) (requests : PortConfigRequests) :
    Yields (ConfigurableAudioPorts.sApply impl p thread requests) fun r =>
      Extends (p.assertMainThread thread "sApply") r.1 :=
  yields_refusing fun hactive config hconfig =>
    (ht.apply config hconfig _ _ requests hactive).unsigned

theorem extends_presetLoad (ht : Tame impl) (thread : ThreadId) (files : FileSystem) (kind : Nat)
    (location loadKey : Option String) :
    Yields (PresetLoad.sFromLocation impl p thread files kind location loadKey) fun r =>
      Extends (p.assertMainThread thread "sFromLocation") r.1 := by
  have hload : ∀ (q : Plugin D σ), ∀ preset ∈ impl.presetLoad,
      (preset.presetLoadFromLocation q.base q.self files kind location loadKey).IsUnsigned :=
    fun q preset hpreset =>
      (ht.presetLoad preset hpreset q.base q.self files kind location loadKey).quiet.unsigned
  unfold PresetLoad.sFromLocation
  dsimp only
  split
  · exact Yields.of_ok (extends_report _ _ _ _)
  · split
    · exact yields_absorb (extends_report _ _ _ _) (hload _)
    · exact yields_absorb (Extends.refl _) (hload _)

theorem extends_channelMask (ht : Tame impl) (thread : ThreadId) (channelMask : Nat) :
    Yields (Surround.sIsChannelMaskSupported impl p thread channelMask) fun r =>
      Extends (p.assertMainThread thread "sIsChannelMaskSupported") r.1 :=
  yields_absorb (Extends.refl _) fun surround hsurround =>
    (ht.channelMask surround hsurround _ channelMask).quiet.unsigned

theorem extends_getChannelMap (ht : Tame impl) (thread : ThreadId) (isInput : Bool)
    (portIndex capacity : Nat) :
    Yields (Surround.sGetChannelMap impl p thread isInput portIndex capacity) fun r =>
      Extends (p.assertMainThread thread "sGetChannelMap") r.1 := by
  have hmap : ∀ s, ∀ surround ∈ impl.surround,
      (surround.surroundChannelMap s isInput portIndex capacity).IsUnsigned := by
    intro s surround hsurround
    rcases ht.channelMapEffects surround hsurround s isInput portIndex capacity with
      hquiet | ⟨-, text, htext, heffects⟩
    · exact hquiet.unsigned
    · intro effect he
      rw [heffects] at he
      rw [List.mem_singleton.mp he]
      exact htext
  unfold Surround.sGetChannelMap
  refine yields_absorb ?_ (hmap _)
  split
  · split
    · exact extends_report _ _ _ _
    · exact Extends.refl _
  · exact Extends.refl _

theorem extends_guiCreate (ht : Tame impl) (thread : ThreadId) (api : Option String)
    (isFloating : Bool) (native : NativeAnswer) :
    Yields (Gui.sCreate impl p thread api isFloating native) fun r =>
      Extends (p.assertMainThread thread "sCreate") r.1 := by
  unfold Gui.sCreate
  dsimp only
  split
  · exact Yields.of_ok (extends_report _ _ _ _)
  · refine yields_provider fun gui hgui => Yields.of_ok ?_
    have hcreate := extends_absorb (p.assertMainThread thread "sCreate")
      (ht.guiCreate gui hgui (p.assertMainThread thread "sCreate").self api isFloating
        native).quiet.unsigned
    dsimp only
    split
    · exact hcreate.trans (Extends.of_log rfl)
    · exact hcreate

theorem extends_guiDestroy (ht : Tame impl) (thread : ThreadId) :
    Yields (Gui.sDestroy impl p thread) fun q =>
      Extends (p.assertMainThread thread "sDestroy") q := by
  unfold Gui.sDestroy
  refine yields_provider fun gui hgui => Yields.of_ok ?_
  exact ((extends_reportIf _ _ _ _ _).trans
    (extends_absorb _ (ht.guiDestroy gui hgui _).quiet.unsigned)).trans (Extends.of_log rfl)

theorem extends_guiMethod (ht : Tame impl) (thread : ThreadId) (method : GuiMethod D)
    (native : NativeAnswer) :
    Yields (Gui.sMethod impl p thread method native) fun r =>
      Extends (p.assertMainThread thread (Gui.functionName method)) r.1 := by
  unfold Gui.sMethod
  dsimp only
  split
  · exact Yields.of_ok (extends_report _ _ _ _)
  · exact yields_absorb (Extends.refl _) fun gui hgui =>
      (ht.guiMethod gui hgui _ method native).quiet.unsigned

/-! ## Every call -/

/-- Every call of every tame flavor keeps the log, and the line of the check at its head comes
    first. No other [main-thread] line comes with it, unless `init()` was given one. -/
theorem call_extends [DoubleOps D] (ht : Tame impl) (thread : ThreadId) (call : Call D S) :
    Yields (Plugin.call impl p thread call) fun r =>
      Unaccusing call.given (p.checked thread call).contract.findings
        r.1.contract.findings := by
  have wrap : ∀ {α : Type} {x : Exec (Plugin D σ × α)} {f : Plugin D σ × α → Result D S}
      {p' : Plugin D σ}, (Yields x fun r => Extends p' r.1) →
      Yields (do let r ← x; .ok (Instance.alive r.1, f r)) fun r =>
        Unaccusing [] p'.contract.findings r.1.contract.findings :=
    fun h => Yields.bind h fun r hr => Yields.of_ok hr
  cases call with
  | init earlyLog => exact Yields.of_ok (unaccusing_sInit ht thread earlyLog)
  | destroy => exact Yields.of_ok (extends_sDestroy thread)
  | activate sampleRate minFrames maxFrames =>
    exact Yields.of_ok (extends_sActivate ht thread sampleRate minFrames maxFrames)
  | deactivate => exact Yields.of_ok (extends_sDeactivate ht thread)
  | startProcessing => exact Yields.of_ok (extends_sStartProcessing ht thread)
  | stopProcessing => exact Yields.of_ok (extends_sStopProcessing ht thread)
  | reset => exact Yields.of_ok (extends_sReset ht thread)
  | process block memory => exact wrap (extends_sProcess ht thread block memory)
  | getExtension id => exact wrap (extends_sGetExtension id)
  | onMainThread => exact Yields.of_ok (extends_sOnMainThread ht thread)
  | paramsFlush inEvents hasOutEvents =>
    exact wrap (extends_sFlush ht thread inEvents hasOutEvents)
  | stateSave stream =>
    refine Yields.bind ?_ fun r (hr : Extends _ r.1) => Yields.of_ok hr
    exact yields_absorb_exec (Extends.refl _) fun state hstate =>
      (ht.stateSave state hstate _ stream).mono fun _ h => h.quiet.unsigned
  | stateLoad stream =>
    exact wrap (yields_absorb_exec (Extends.refl _) fun state hstate =>
      (ht.stateLoad state hstate _ stream).mono fun _ h => h.quiet.unsigned)
  | audioPortsCount isInput => exact wrap (yields_ask (extends_checkNoScan _ _ _))
  | audioPortsGet index isInput => exact wrap (yields_ask (extends_checkNoScan _ _ _))
  | notePortsCount isInput => exact wrap (yields_ask (extends_checkNoScan _ _ _))
  | notePortsGet index isInput => exact wrap (yields_ask (extends_checkNoScan _ _ _))
  | audioPortsConfigSelect configId => exact wrap (extends_configSelect ht thread configId)
  | canApplyConfiguration requests => exact wrap (extends_canApply ht thread requests)
  | applyConfiguration requests => exact wrap (extends_apply ht thread requests)
  | latencyGet => exact wrap (extends_latencyGet thread)
  | tailGet => exact wrap (extends_tailGet thread)
  | voiceInfoGet => exact wrap (extends_voiceInfoGet thread)
  | renderSet mode => exact wrap (extends_renderSet ht thread mode)
  | presetLoad files kind location loadKey =>
    exact wrap (extends_presetLoad ht thread files kind location loadKey)
  | isChannelMaskSupported channelMask => exact wrap (extends_channelMask ht thread channelMask)
  | getChannelMap isInput portIndex capacity =>
    exact wrap (extends_getChannelMap ht thread isInput portIndex capacity)
  | guiCreate api isFloating native =>
    exact wrap (extends_guiCreate ht thread api isFloating native)
  | guiDestroy => exact Yields.bind (extends_guiDestroy ht thread) fun r hr => Yields.of_ok hr
  | gui method native => exact wrap (extends_guiMethod ht thread method native)
  | query function => exact Yields.of_ok (Extends.refl _)
  | violationsClear => exact Yields.of_ok (Unaccusing.refl _)
  | uiEdit edit =>
    exact yields_uiEdit fun out hout =>
      extends_absorb p (ht.uiEdit p.base p.self edit out hout).quiet.unsigned

end Plugin

end Cvp
