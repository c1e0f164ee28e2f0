/-
  P09, the gate in front of a flavor's `process`. The port loops answer whether every buffer is
  one the flavor may use, but they run only where the buffer counts match the declared ports: a
  block with other counts is reported as P05 and forwarded as it is.
-/
import ClapValidatorPlugins.Contract.Snapshot

namespace Cvp

variable {D S σ : Type}

/-- A buffer the flavor may use: 32-bit data, or 64-bit data on a port that supports it. -/
def usableBuffer (layout : Option PortLayout) (buffer : AudioBuffer) : Bool :=
  buffer.data32.isSome || (buffer.data64.isSome &&
    match layout with
    | some layout => layout.flags.supports64Bits
    | none => false)

/-- Every buffer of one direction is usable on the declared port of its index. -/
def usableBuffers (layouts : List PortLayout) : List AudioBuffer → Bool
  | [] => true
  | buffer :: buffers => usableBuffer layouts.head? buffer && usableBuffers layouts.tail buffers

theorem usableBuffers_iff (buffers : List AudioBuffer) :
    ∀ layouts : List PortLayout, usableBuffers layouts buffers = true ↔
      ∀ (i : Nat) (buffer : AudioBuffer), buffers[i]? = some buffer →
        usableBuffer layouts[i]? buffer = true := by
  induction buffers with
  | nil => simp [usableBuffers]
  | cons b bs ih =>
    intro layouts
    rw [usableBuffers, Bool.and_eq_true, ih]
    constructor
    · rintro ⟨hb, hbs⟩ i buffer hi
      cases i with
      | zero =>
        rw [List.getElem?_cons_zero] at hi
        cases hi
        rw [← List.head?_eq_getElem?]
        exact hb
      | succ i =>
        rw [List.getElem?_cons_succ] at hi
        rw [← List.getElem?_tail]
        exact hbs i buffer hi
    · intro h
      refine ⟨?_, fun i buffer hi => ?_⟩
      · have h0 := h 0 b List.getElem?_cons_zero
        rwa [← List.head?_eq_getElem?] at h0
      · have hi' := h (i + 1) buffer (by rw [List.getElem?_cons_succ]; exact hi)
        rwa [← List.getElem?_tail] at hi'

/-- One pass of a port loop. -/
theorem scanPort_processable (isInput : Bool) (scan : PortScan) (i : Nat) (layout : PortLayout)
    (buffer : AudioBuffer) :
    (scanPort isInput scan i layout buffer).processable =
      (scan.processable && usableBuffer (some layout) buffer) := by
  unfold scanPort usableBuffer
  cases buffer.data32.isSome <;> cases buffer.data64.isSome <;>
    cases h : layout.flags.supports64Bits <;> simp [h]

/-- A port loop, where there is a declared port for every buffer. -/
theorem scanPorts_processable (isInput : Bool) (buffers : List AudioBuffer) :
    ∀ (layouts : List PortLayout) (scan : PortScan) (i : Nat), buffers.length = layouts.length →
      (scanPorts isInput scan i layouts buffers).processable =
        (scan.processable && usableBuffers layouts buffers) := by
  induction buffers with
  | nil =>
    intro layouts scan i hlen
    rw [usableBuffers, Bool.and_true]
    cases layouts <;> rfl
  | cons b bs ih =>
    intro layouts scan i hlen
    cases layouts with
    | nil => cases hlen
    | cons l ls =>
      rw [scanPorts, ih ls _ _ (Nat.succ.inj hlen), scanPort_processable, usableBuffers,
        Bool.and_assoc]
      rfl

/-! ## The verdict -/

/-- The block has as many buffers as the flavor declares ports, in both directions. -/
def countsMatch (inputPorts outputPorts : List PortLayout) (block : ProcessBlock D) : Prop :=
  block.audioInputs.length = inputPorts.length ∧ block.audioOutputs.length = outputPorts.length

theorem checkPorts_of_match (m : ContractMonitor) (block : ProcessBlock D)
    (h : countsMatch m.inputPorts m.outputPorts block) :
    (checkPorts m block).1 = (usableBuffers m.inputPorts block.audioInputs &&
      usableBuffers m.outputPorts block.audioOutputs) := by
  unfold checkPorts
  rw [if_neg (by rintro (hin | hout) <;> [exact hin h.1; exact hout h.2])]
  dsimp only
  rw [scanPorts_processable false _ _ _ _ h.2, scanPorts_processable true _ _ _ _ h.1]
  rfl

theorem checkPorts_of_mismatch (m : ContractMonitor) (block : ProcessBlock D)
    (h : ¬ countsMatch m.inputPorts m.outputPorts block) : (checkPorts m block).1 = true := by
  unfold checkPorts
  rw [if_pos (not_and_or.mp h)]

/-- The buffers of one direction. -/
def ProcessBlock.buffers (block : ProcessBlock D) (isInput : Bool) : List AudioBuffer :=
  if isInput then block.audioInputs else block.audioOutputs

/-- Every buffer has 32-bit data, or 64-bit data and a declared port that supports it. -/
def UsableBlock (impl : PluginImpl D S σ) (s : σ) (block : ProcessBlock D) : Prop :=
  ∀ (isInput : Bool) (i : Nat) (buffer : AudioBuffer),
    (block.buffers isInput)[i]? = some buffer →
      buffer.data32.isSome ∨ (buffer.data64.isSome ∧
        ∃ layout, (Plugin.declaredPorts impl s isInput)[i]? = some layout ∧
          layout.flags.supports64Bits)

/-- The block has as many buffers as the flavor declares ports now. -/
def DeclaredCounts (impl : PluginImpl D S σ) (s : σ) (block : ProcessBlock D) : Prop :=
  ∀ isInput, (block.buffers isInput).length = (Plugin.declaredPorts impl s isInput).length

/-- Only usable blocks reach the flavor; every other block is answered CLAP_PROCESS_ERROR, with
    the audio memory as it was. -/
def GateKept (impl : PluginImpl D S σ) (p : Plugin D σ) (thread : ThreadId)
    (block : ProcessBlock D) : Prop :=
  ((p.processGate thread block).1 = .forward → UsableBlock impl p.self block) ∧
    ∀ memory, (p.processGate thread block).1 = .reject ∨ ¬ UsableBlock impl p.self block →
      ∃ q, p.sProcess impl thread block memory = .ok (q, { status := .error, memory := memory })

theorem usableBuffer_iff (layout : Option PortLayout) (buffer : AudioBuffer) :
    usableBuffer layout buffer = true ↔
      buffer.data32.isSome ∨ (buffer.data64.isSome ∧
        ∃ l, layout = some l ∧ l.flags.supports64Bits) := by
  unfold usableBuffer
  cases layout with
  | none => simp
  | some l => simp

theorem usableBlock_iff (impl : PluginImpl D S σ) (s : σ) (block : ProcessBlock D) :
    UsableBlock impl s block ↔
      (usableBuffers (Plugin.declaredPorts impl s true) block.audioInputs &&
        usableBuffers (Plugin.declaredPorts impl s false) block.audioOutputs) = true := by
  rw [Bool.and_eq_true, usableBuffers_iff, usableBuffers_iff]
  simp only [usableBuffer_iff]
  exact ⟨fun h => ⟨h true, h false⟩, fun h isInput => by cases isInput; exacts [h.2, h.1]⟩

section Gate

variable {impl : PluginImpl D S σ} {p : Plugin D σ}

theorem declaredCounts_iff (h : Snapshot impl p.contract p.self) (ha : p.contract.active = true)
    (block : ProcessBlock D) :
    DeclaredCounts impl p.self block ↔
      countsMatch p.contract.inputPorts p.contract.outputPorts block := by
  rw [h.inputPorts ha, h.outputPorts ha]
  exact ⟨fun h => ⟨h true, h false⟩, fun h isInput => by cases isInput; exacts [h.2, h.1]⟩

/-- The gate lets a block through to an active, processing instance if the port checks do. -/
theorem processGate_decides (hi : p.contract.inProcess = false) (thread : ThreadId)
    (block : ProcessBlock D) :
    (p.processGate thread block).1 =
      if p.contract.active && p.contract.processing && (checkPorts p.contract block).1 then
        .forward
      else .reject := by
  cases hr : p.contract.active && p.contract.processing with
  | false =>
    obtain ⟨hgate, -⟩ := Plugin.processGate_notReady hi hr thread block
    rw [hgate]
    rfl
  | true =>
    obtain ⟨q, -, -, hgate⟩ := Plugin.processGate_ready hi hr thread block
    rw [hgate, Bool.true_and]
    split <;> rfl

/-- The gate of an active, processing instance is the verdict of the port checks. -/
theorem processGate_fst (h : Snapshot impl p.contract p.self)
    (hp : p.contract.processing = true) (thread : ThreadId) (block : ProcessBlock D) :
    (p.processGate thread block).1 =
      if (checkPorts p.contract block).1 then .forward else .reject := by
  rw [processGate_decides h.inProcess, h.processing_active hp, hp]
  rfl

/-- A rejected block is answered without reaching the flavor. -/
theorem sProcess_of_reject {thread : ThreadId} {block : ProcessBlock D}
    (h : (p.processGate thread block).1 = .reject) (memory : AudioMemory D S) :
    ∃ q, p.sProcess impl thread block memory = .ok (q, { status := .error, memory := memory }) := by
  refine ⟨(p.processGate thread block).2, ?_⟩
  unfold Plugin.sProcess
  rw [show p.processGate thread block = (.reject, (p.processGate thread block).2) from
    Prod.ext h rfl]

theorem gateKept_iff (h : Snapshot impl p.contract p.self) (hp : p.contract.processing = true)
    (thread : ThreadId) (block : ProcessBlock D) :
    GateKept impl p thread block ↔
      DeclaredCounts impl p.self block ∨ UsableBlock impl p.self block := by
  have ha := h.processing_active hp
  have hgate := processGate_fst h hp thread block
  constructor
  · intro hkept
    by_cases hc : DeclaredCounts impl p.self block
    · exact .inl hc
    · rw [declaredCounts_iff h ha] at hc
      rw [checkPorts_of_mismatch _ _ hc, if_pos rfl] at hgate
      exact .inr (hkept.1 hgate)
  · -- a block that is not usable has the declared counts, so the port loops reject it
    intro hcond
    have hreject : ¬ UsableBlock impl p.self block → (p.processGate thread block).1 = .reject := by
      intro hu
      have hc := (declaredCounts_iff h ha block).mp (hcond.resolve_right hu)
      rw [usableBlock_iff, ← h.inputPorts ha, ← h.outputPorts ha,
        ← checkPorts_of_match _ _ hc] at hu
      rw [hgate, if_neg hu]
    refine ⟨fun hf => ?_, fun memory hor => sProcess_of_reject (hor.elim id hreject) memory⟩
    by_contra hu
    rw [hreject hu] at hf
    cases hf

end Gate

section Flavors

variable [DoubleOps D] [FloatOps S] [FloatCast D S] [DoubleBits D]

/-- The P09 gate holds exactly for the blocks that have as many buffers as declared, or whose
    buffers are all usable: with other counts an unusable buffer goes through. -/
theorem bufferGate_iff {flavor : Flavor} {p : Plugin D (flavor.State D S)}
    (hr : flavor.Reachable p) (hp : p.contract.active = true ∧ p.contract.processing = true)
    (thread : ThreadId) (block : ProcessBlock D) :
    GateKept (flavor.impl : PluginImpl D S _) p thread block ↔
      DeclaredCounts (flavor.impl : PluginImpl D S _) p.self block ∨
        UsableBlock (flavor.impl : PluginImpl D S _) p.self block :=
  gateKept_iff (snapshot_of_reachable hr) hp.2 thread block

end Flavors

/-- A fresh MultiOut FX (stereo: one output port), activated and processing. -/
def processingMultiOutFx : Plugin ExactFloat (MultiOutFxPlugin.State ExactFloat) :=
  let impl : PluginImpl ExactFloat ExactFloat _ := MultiOutFxPlugin.impl
  let p := ((Flavor.instantiate ExactFloat .multiOutFx none).sActivate impl 0 48000 1 512).1
  (p.sStartProcessing impl 0).1

theorem processingMultiOutFx_reachable :
    Flavor.Reachable (S := ExactFloat) .multiOutFx processingMultiOutFx :=
  ⟨none, Machine.Reachable.tail (Machine.Reachable.tail (Machine.Reachable.refl _)
    (l := (0, .activate 48000 1 512)) rfl) (l := (0, .startProcessing)) rfl⟩

/-- One input and, against the declared layout, three outputs without data. -/
def threeOutputsBlock : ProcessBlock ExactFloat :=
  { framesCount := 64
    audioInputs := [{ channelCount := 2, data32 := some [0, 1] }]
    audioOutputs := List.replicate 3 { channelCount := 2 }
    inEvents := some (InputEvents.ofList []) }

/-- With one output, as declared, the missing data is caught. -/
theorem bufferGate_iff_oneOutput :
    GateKept (MultiOutFxPlugin.impl : PluginImpl ExactFloat ExactFloat _) processingMultiOutFx 0
      { threeOutputsBlock with audioOutputs := [{ channelCount := 2 }] } :=
  (bufferGate_iff processingMultiOutFx_reachable ⟨rfl, rfl⟩ 0 _).mpr
    (.inl fun isInput => by cases isInput <;> rfl)

/-- The block goes through the gate, and the flavor dereferences the null `data32`. -/
theorem bufferGate_fails :
    Flavor.Reachable (S := ExactFloat) .multiOutFx processingMultiOutFx ∧
    (processingMultiOutFx.contract.active = true ∧
      processingMultiOutFx.contract.processing = true) ∧
    ¬ GateKept (MultiOutFxPlugin.impl : PluginImpl ExactFloat ExactFloat _) processingMultiOutFx 0
      threeOutputsBlock ∧
    ∀ memory, processingMultiOutFx.sProcess
      (MultiOutFxPlugin.impl : PluginImpl ExactFloat ExactFloat _) 0 threeOutputsBlock memory =
        .error .nullDeref := by
  refine ⟨processingMultiOutFx_reachable, ⟨rfl, rfl⟩, fun hkept => ?_, fun memory => rfl⟩
  have hbad := hkept.1 rfl false 0 { channelCount := 2 } rfl
  simp at hbad

end Cvp
