/-
  `on_main_thread()` against `request_callback()`. `noteCallbackRequested` counts the requests, and
  one callback drains them all, since a host may coalesce them. A host that answers them one by one
  finds nothing left at the second: L11 is what it should be along a run exactly if every callback
  that the requests cover has one between itself and the callback before (`callbacks_iff`).
-/
import ClapValidatorPlugins.Contract.BlockFindings
import ClapValidatorPlugins.Contract.Snapshot

namespace Cvp

variable {D S σ : Type}

/-! ## Requests at any time -/

/-- A request of the plugin, from wherever its code runs, or a call of the host. A request during
    a call stands before it or behind it: the exchange of `consumePendingCallbacks` is atomic. -/
inductive CallbackLabel (D S : Type) where
  | request
  | call (l : ThreadId × Call D S)

def callbackStep [DoubleOps D] (impl : PluginImpl D S σ) :
    Machine.Step (Instance D σ) (CallbackLabel D S) (Reply D S) Fault
  | .alive p, .request =>
    let p := Plugin.requestCallback { p with hostCalls := [] }
    .ok (.alive p, { result := .void, hostCalls := p.hostCalls })
  | .deleted _, .request => .error .useAfterFree
  | i, .call l => hostStep impl i l

def Call.isOnMainThread : Call D S → Bool
  | .onMainThread => true
  | _ => false

/-- What the two sides have done so far. -/
structure Tally where
  requests : Nat := 0
  callbacks : Nat := 0
  /-- the requests behind the last callback -/
  since : Nat := 0
  /-- at no point were there more callbacks than requests -/
  within : Bool := true

namespace Tally

def ask (t : Tally) (n : Nat) : Tally :=
  { t with requests := t.requests + n, since := t.since + n }

def callBack (t : Tally) : Tally :=
  { t with
    callbacks := t.callbacks + 1
    since := 0
    within := t.within && decide (t.callbacks + 1 ≤ t.requests) }

/-- A flavor may request from within a call; in `onMainThread()` that is behind the exchange. -/
def note (t : Tally) (_ : Instance D σ) (l : CallbackLabel D S) (o : Reply D S) : Tally :=
  match l with
  | .request => t.ask 1
  | .call l =>
    (if l.2.isOnMainThread then t.callBack else t).ask (o.hostCalls.count .requestCallback)

end Tally

/-- Calls and requests on an instance, with the tally of them. -/
def talliedStep [DoubleOps D] (impl : PluginImpl D S σ) :
    Machine.Step (Instance D σ × Tally) (CallbackLabel D S) (Reply D S) Fault :=
  Machine.remembering (callbackStep impl) Tally.note

/-- The step counts L11. A `violations.clear()` takes the counter back. -/
def RaisesL11 (s : Instance D σ × Tally) (l : CallbackLabel D S) (s' : Instance D σ × Tally) :
    Prop :=
  (∀ thread, l ≠ .call (thread, .violationsClear)) ∧
    s'.1.contract.counter .L11 ≠ s.1.contract.counter .L11

/-- No L11 as long as the callbacks stay within the requests, and one for the first callback that
    does not. -/
def RightVerdict (s : Instance D σ × Tally) (l : CallbackLabel D S) (s' : Instance D σ × Tally)
    (_ : Reply D S) : Prop :=
  (s'.2.within = true → ¬ RaisesL11 s l s') ∧
    (s.2.within = true → s'.2.within = false → RaisesL11 s l s')

/-- A callback within the requests has one behind the callback before, where 2^32 of them count
    as none. -/
def AskedAgain (s : Instance D σ × Tally) (l : CallbackLabel D S) : Prop :=
  ∀ thread, l = .call (thread, .onMainThread) →
    s.2.callBack.within = true → s.2.since % 2 ^ 32 ≠ 0

/-! ## What a call does to the count -/

/-- The callbacks requested during the call are pending behind it, those from before unless the
    call drains them, and L11 is counted for a drain that finds nothing. -/
structure Drains (call : Call D S) (p : Plugin D σ) (i : Instance D σ) : Prop where
  pending : ∀ q, i = .alive q → ∃ n, q.callbackCalls = p.callbackCalls + n ∧
    q.contract.pendingCallbacks =
      (if call.isOnMainThread then 0 else p.contract.pendingCallbacks) + UInt32.ofNat n
  counter : call ≠ .violationsClear →
    i.contract.counter .L11 = p.contract.counter .L11 +
      if call.isOnMainThread ∧ p.contract.pendingCallbacks = 0 then 1 else 0

section Calls

variable {impl : PluginImpl D S σ} {p : Plugin D σ} {call : Call D S} {thread : ThreadId}

open Plugin (codeIf)

/-! L11 is the finding of one trampoline. -/

theorem mem_codeIf {b : Bool} {v w : Violation} : v ∈ codeIf b w ↔ b = true ∧ v = w := by
  cases b <;> simp

theorem not_mem_mainCodes : .L11 ∉ p.mainCodes thread :=
  fun hmem => by cases Plugin.eq_of_mem_mainCodes hmem

theorem not_mem_audioCodes : .L11 ∉ p.audioCodes thread :=
  fun hmem => by cases Plugin.eq_of_mem_audioCodes hmem

theorem not_mem_blockCodes (m : ContractMonitor) (block : ProcessBlock D) :
    .L11 ∉ Plugin.blockCodes m block := by
  intro hmem
  obtain ⟨f, hf, hcode⟩ := List.mem_map.mp hmem
  have hblock := blockFindings_codes m block f hf
  rw [hcode] at hblock
  cases hblock

theorem not_mem_guiBroken (method : GuiMethod D) :
    .L11 ∉ (Plugin.Gui.broken p method).toList.map (·.violation) := by
  intro hmem
  obtain ⟨f, hf, hcode⟩ := List.mem_map.mp hmem
  rw [Option.mem_toList] at hf
  unfold Plugin.Gui.broken at hf
  dsimp only at hf
  split at hf
  · cases hf
    cases hcode
  · split at hf
    · cases hf
    all_goals
      split at hf
      all_goals
        cases hf
        try cases hcode

theorem not_mem_plainCodes : .L11 ∉ Plugin.plainCodes impl p thread call := by
  cases call with
  | paramsFlush inEvents hasOutEvents =>
    have hparams : .L11 ∉ (checkParamEvents p.contract inEvents none).map (·.violation) := by
      intro hmem
      obtain ⟨f, hf, hcode⟩ := List.mem_map.mp hmem
      exact checkParamEvents_codes (P := (· ≠ .L11)) nofun nofun nofun nofun nofun _ _ _ f hf hcode
    simp only [Plugin.plainCodes, List.mem_append, mem_codeIf, hparams]
    simp
  | gui method native =>
    simp only [Plugin.plainCodes, List.mem_append, not_mem_mainCodes, not_mem_guiBroken, or_false,
      not_false_eq_true]
  | _ => simp [Plugin.plainCodes, mem_codeIf, not_mem_mainCodes]

/-- Only `on_main_thread()` is reported for it. -/
theorem not_mem_codes (hcall : call.isOnMainThread = false) : .L11 ∉ call.codes impl thread p := by
  cases call with
  | onMainThread => cases hcall
  | activate sampleRate minFrames maxFrames =>
    dsimp only [Call.codes]
    split <;> simp [mem_codeIf, not_mem_mainCodes]
  | deactivate =>
    dsimp only [Call.codes]
    split <;> simp [mem_codeIf, not_mem_mainCodes]
  | process block memory =>
    dsimp only [Call.codes]
    split_ifs <;> simp [not_mem_audioCodes, not_mem_blockCodes]
  | init earlyLog => simp [Call.codes, mem_codeIf, not_mem_mainCodes]
  | destroy => simp [Call.codes, mem_codeIf, not_mem_mainCodes]
  | startProcessing => simp [Call.codes, mem_codeIf, not_mem_audioCodes]
  | stopProcessing => simp [Call.codes, mem_codeIf, not_mem_audioCodes]
  | reset => simp [Call.codes, mem_codeIf, not_mem_audioCodes]
  | guiCreate api isFloating native => simp [Call.codes, mem_codeIf, not_mem_mainCodes]
  | guiDestroy => simp [Call.codes, mem_codeIf, not_mem_mainCodes]
  | _ =>
    dsimp only [Call.codes]
    exact not_mem_plainCodes

/-- Only `on_main_thread()` drains the count. -/
theorem after_pendingCallbacks (s : σ) (made : Bool) (m : ContractMonitor) :
    (call.after impl s made m).pendingCallbacks =
      if call.isOnMainThread then 0 else m.pendingCallbacks := by
  cases call with
  | activate sampleRate minFrames maxFrames =>
    dsimp only [Call.after]
    split <;> rfl
  | deactivate =>
    dsimp only [Call.after]
    split <;> rfl
  | startProcessing =>
    dsimp only [Call.after]
    split <;> rfl
  | process block memory =>
    obtain ⟨valid, steadyEnd, hreb⟩ := Plugin.rebased_eq block m
    dsimp only [Call.after]
    rw [hreb]
    split
    · rfl
    · split <;> rfl
  | guiCreate api isFloating native =>
    dsimp only [Call.after]
    split <;> rfl
  | _ => rfl

/-- Every call a host can make. -/
theorem Called.drains {i : Instance D σ} (h : Called impl thread call p i) : Drains call p i := by
  constructor
  · intro q hq
    obtain ⟨made, n, hmoves⟩ := h.moves q hq
    refine ⟨n, hmoves.asks, (congrArg ContractMonitor.pendingCallbacks hmoves.tracked).trans ?_⟩
    exact congrArg (· + UInt32.ofNat n) (after_pendingCallbacks q.self made p.contract.tracked)
  · intro hclear
    have hcounter := congrFun (h.counts hclear).counters .L11
    refine hcounter.trans (congrArg (p.contract.counter .L11 + ·) ?_)
    cases hmain : call.isOnMainThread with
    | false =>
      rw [List.count_eq_zero_of_not_mem (not_mem_codes hmain), if_neg (by simp)]
      rfl
    | true =>
      obtain rfl : call = .onMainThread := by cases call <;> first | rfl | cases hmain
      rw [Call.codes, List.count_append, List.count_eq_zero_of_not_mem not_mem_mainCodes,
        Nat.zero_add]
      by_cases hnone : p.contract.pendingCallbacks = 0
      · rw [hnone, if_pos ⟨rfl, rfl⟩]
        rfl
      · rw [if_neg fun h => hnone h.2,
          decide_eq_true (UInt32.pos_iff_ne_zero.mpr hnone)]
        rfl

end Calls

/-! ## Runs -/

/-- The monitor's count is that of the requests behind the last callback, wrapped; and these are
    requests that no callback has used up, as long as the callbacks stay within the requests. -/
structure Tallies (m : ContractMonitor) (t : Tally) : Prop where
  pending : m.pendingCallbacks = UInt32.ofNat t.since
  unused : t.within = true → t.callbacks + t.since ≤ t.requests

theorem Tallies.ask {m m' : ContractMonitor} {t : Tally} {n : Nat} (h : Tallies m t)
    (hp : m'.pendingCallbacks = m.pendingCallbacks + UInt32.ofNat n) : Tallies m' (t.ask n) := by
  refine ⟨?_, fun hwithin => ?_⟩
  · rw [hp, h.pending]
    exact (UInt32.ofNat_add t.since n).symm
  · have hunused := h.unused hwithin
    show t.callbacks + (t.since + n) ≤ t.requests + n
    omega

/-- A callback counts for itself and for the requests it takes with it. -/
theorem Tallies.callBack (m : ContractMonitor) (t : Tally) :
    Tallies { m with pendingCallbacks := 0 } t.callBack :=
  ⟨rfl, fun hwithin => of_decide_eq_true (Bool.and_eq_true_iff.mp hwithin).2⟩

theorem ofNat_eq_zero_iff (n : Nat) : UInt32.ofNat n = 0 ↔ n % 2 ^ 32 = 0 := by
  rw [← UInt32.toNat_inj, UInt32.toNat_ofNat]
  rfl

/-- Behind an `on_main_thread()` the callbacks may exceed the requests, and nowhere else. -/
theorem within_of_not_main {t : Tally} {i : Instance D σ} {l : CallbackLabel D S} {o : Reply D S}
    (h : ∀ thread, l ≠ .call (thread, .onMainThread)) : (t.note i l o).within = t.within := by
  cases l with
  | request => rfl
  | call c =>
    obtain ⟨thread, call⟩ := c
    cases call <;> first | rfl | exact absurd rfl (h thread)

section Runs

variable [DoubleOps D] {impl : PluginImpl D S σ} {p : Plugin D σ}

theorem callbackStep_ok {i i' : Instance D σ} {l : CallbackLabel D S} {o : Reply D S}
    (h : callbackStep impl i l = .ok (i', o)) :
    ∃ p, i = .alive p ∧
      ((l = .request ∧ i' = .alive (Plugin.requestCallback { p with hostCalls := [] })) ∨
        ∃ c, l = .call c ∧ hostStep impl (.alive p) c = .ok (i', o)) := by
  cases l with
  | request =>
    cases i with
    | alive p =>
      cases h
      exact ⟨p, rfl, .inl ⟨rfl, rfl⟩⟩
    | deleted contract => cases h
  | call c =>
    obtain ⟨p, rfl, -⟩ := hostStep_ok (show hostStep impl i c = .ok (i', o) by cases i <;> exact h)
    exact ⟨p, rfl, .inr ⟨c, rfl, h⟩⟩

/-- What the snapshot and the tally say of a live instance. -/
def Tallied (impl : PluginImpl D S σ) (s : Instance D σ × Tally) : Prop :=
  ∀ p, s.1 = .alive p → Snapshot impl p.contract p.self ∧ Tallies p.contract s.2

theorem tallied_step (ht : Tame impl) {s s' : Instance D σ × Tally} {l : CallbackLabel D S}
    {o : Reply D S} (hs : Tallied impl s) (h : talliedStep impl s l = .ok (s', o)) :
    Tallied impl s' := by
  obtain ⟨hstep, hnote⟩ := Machine.remembering_ok h
  obtain ⟨p, hp, hlabel⟩ := callbackStep_ok hstep
  obtain ⟨hsnap, htally⟩ := hs p hp
  intro q hq
  rw [hnote]
  rcases hlabel with ⟨rfl, hi⟩ | ⟨c, rfl, hcall⟩
  · rw [hi] at hq
    cases hq
    exact ⟨hsnap.of_eq rfl rfl hsnap.beingActivated hsnap.inProcess rfl rfl rfl rfl rfl,
      htally.ask rfl⟩
  · obtain ⟨n, hcalls, hpending⟩ := (Plugin.hostStep_moves ht hcall).drains.pending q hq
    have hheard : o.hostCalls.count .requestCallback = n := by
      obtain ⟨_, ⟨⟩, -, hhost⟩ := hostStep_ok hcall
      rw [hhost q hq]
      exact hcalls.trans (Nat.zero_add n)
    refine ⟨hostStep_snapshot ht (.alive p) c s'.1 o ?_ hcall q hq, ?_⟩
    · rintro _ ⟨⟩
      exact hsnap
    · show Tallies q.contract
        ((if c.2.isOnMainThread then s.2.callBack else s.2).ask (o.hostCalls.count _))
      rw [hheard]
      cases hmain : c.2.isOnMainThread with
      | true =>
        rw [hmain] at hpending
        exact (Tallies.callBack p.contract s.2).ask hpending
      | false =>
        rw [hmain] at hpending
        exact htally.ask hpending

/-- L11 comes of an `on_main_thread()` with no request since the last, modulo 2^32. -/
theorem raisesL11_iff (ht : Tame impl) {s s' : Instance D σ × Tally} {l : CallbackLabel D S}
    {o : Reply D S} (hs : Tallied impl s) (h : talliedStep impl s l = .ok (s', o)) :
    RaisesL11 s l s' ↔
      (∃ thread, l = .call (thread, .onMainThread)) ∧ s.2.since % 2 ^ 32 = 0 := by
  obtain ⟨hstep, -⟩ := Machine.remembering_ok h
  obtain ⟨p, hp, hlabel⟩ := callbackStep_ok hstep
  obtain ⟨hsnap, htally⟩ := hs p hp
  rcases hlabel with ⟨rfl, hi⟩ | ⟨c, rfl, hcall⟩
  · refine iff_of_false (fun hraises => hraises.2 ?_) fun hmain => nomatch hmain
    rw [hi, hp]
    rfl
  · have hmain : (∃ thread, CallbackLabel.call c = .call (thread, .onMainThread)) ↔
        c.2.isOnMainThread = true := by
      obtain ⟨thread, call⟩ := c
      cases call <;> simp [Call.isOnMainThread]
    rw [hmain, ← ofNat_eq_zero_iff, ← htally.pending]
    by_cases hclear : c.2 = .violationsClear
    · refine iff_of_false (fun hraises => hraises.1 c.1 ?_) ?_
      · rw [← hclear]
      · rw [hclear]
        exact fun hfalse => nomatch hfalse.1
    · have hno : ∀ thread, CallbackLabel.call c ≠ .call (thread, .violationsClear) := by
        rintro thread ⟨⟩
        exact hclear rfl
      have hcounter : s'.1.contract.counter .L11 = p.contract.counter .L11 +
          if c.2.isOnMainThread ∧ p.contract.pendingCallbacks = 0 then 1 else 0 :=
        (Plugin.hostStep_moves ht hcall).drains.counter hclear
      rw [RaisesL11, and_iff_right hno, hp, hcounter]
      show p.contract.counter .L11 + _ ≠ p.contract.counter .L11 ↔ _
      split
      · rename_i hspurious
        exact iff_of_true (by simp) hspurious
      · rename_i hasked
        exact iff_of_false (by simp) hasked

theorem rightVerdict_iff (ht : Tame impl) {s s' : Instance D σ × Tally} {l : CallbackLabel D S}
    {o : Reply D S} (hs : Tallied impl s) (h : talliedStep impl s l = .ok (s', o)) :
    RightVerdict s l s' o ↔ AskedAgain s l := by
  have hraises := raisesL11_iff ht hs h
  obtain ⟨hstep, hnote⟩ := Machine.remembering_ok h
  by_cases hmain : ∃ thread, l = .call (thread, .onMainThread)
  · obtain ⟨thread, rfl⟩ := hmain
    have hsince : RaisesL11 s (.call (thread, .onMainThread)) s' ↔ s.2.since % 2 ^ 32 = 0 :=
      hraises.trans (and_iff_right ⟨thread, rfl⟩)
    have hcovered : s'.2.within = s.2.callBack.within := by
      rw [hnote]
      rfl
    rw [RightVerdict, hsince, hcovered]
    constructor
    · exact fun hright _ _ => hright.1
    · intro hasked
      refine ⟨hasked thread rfl, fun hwithin hexceeds => ?_⟩
      -- all requests are used up, so none came behind the last callback
      obtain ⟨p, hp, -⟩ := callbackStep_ok hstep
      have hunused := (hs p hp).2.unused hwithin
      rw [Tally.callBack, hwithin, Bool.true_and, decide_eq_false_iff_not] at hexceeds
      omega
  · have hnot : ∀ thread, l ≠ .call (thread, .onMainThread) := not_exists.mp hmain
    have hwithin : s'.2.within = s.2.within := by rw [hnote, within_of_not_main hnot]
    refine iff_of_true ⟨fun _ hr => hmain (hraises.mp hr).1, fun htrue hfalse => ?_⟩
      fun thread heq => absurd heq (hnot thread)
    rw [hwithin, htrue] at hfalse
    cases hfalse

end Runs

section Flavors

variable [DoubleOps D] [FloatOps S] [FloatCast D S] [DoubleBits D]

/-- In every interleaving of requests and calls on a new instance of every flavor, L11 keeps quiet
    while the callbacks stay within the requests and is counted for the first that does not,
    exactly if every callback within the requests has a request behind the callback before
    (2^32 of them wrap to none). -/
theorem callbacks_iff (flavor : Flavor) (host : Option Host) (labels : List (CallbackLabel D S)) :
    Machine.AllSteps (talliedStep (flavor.impl : PluginImpl D S _)) RightVerdict
        (.alive (flavor.instantiate S host), {}) labels ↔
      Machine.AllSteps (talliedStep (flavor.impl : PluginImpl D S _))
        (fun s l _ _ => AskedAgain s l) (.alive (flavor.instantiate S host), {}) labels := by
  refine Machine.allSteps_congr (I := Tallied (flavor.impl : PluginImpl D S _))
    (fun s l s' o hs h => rightVerdict_iff flavor.tame hs h)
    (fun s l s' o hs h _ => tallied_step flavor.tame hs h) ?_ labels
  rintro _ ⟨⟩
  exact ⟨Plugin.snapshot_create host, rfl, fun _ => Nat.le_refl 0⟩

end Flavors

/-- Two requests, and a callback for each: the second is reported. -/
theorem oneByOne_reported :
    ¬ Machine.AllSteps
      (talliedStep (HostCheckPlugin.impl : PluginImpl ExactFloat ExactFloat _)) RightVerdict
      (.alive (Plugin.create (HostCheckPlugin.impl : PluginImpl ExactFloat ExactFloat _) (some {})),
        {})
      [.call (0, .init []), .request, .call (0, .onMainThread), .call (0, .onMainThread)] := by
  intro hall
  have hinit := (hall _ _ rfl).2
  have hrequest := (hinit _ _ rfl).2
  have hfirst := (hrequest _ _ rfl).2
  have hsecond := (hfirst _ _ rfl).1.1 rfl
  exact hsecond ⟨nofun, by decide⟩

end Cvp
