/-
  P05, P09 and P10 of a block with a buffer for each declared port. The port loops carry three
  accumulators over both directions; what they hold in the end is a matter of the set of ports
  (`scanPorts_scanned`), so the verdicts are those of the ports taken together, in any order
  (`portFormats_exact`).
-/
import ClapValidatorPlugins.Contract.BlockFindings
import ClapValidatorPlugins.Contract.BufferGate

namespace Cvp

variable {D : Type}

/-! ## One port -/

/-- A declared port and the buffer the host passes for it. -/
structure PortBuffer where
  layout : PortLayout
  buffer : AudioBuffer
  deriving DecidableEq

namespace PortBuffer

def has32 (p : PortBuffer) : Bool := p.buffer.data32.isSome

def has64 (p : PortBuffer) : Bool := p.buffer.data64.isSome

/-- Neither pointer, or 64-bit data on a port that has not declared it. -/
def isWrongFormat (p : PortBuffer) : Bool :=
  (!p.has32 && !p.has64) || (p.has64 && !p.layout.flags.supports64Bits)

/-- Neither pointer, or nothing but 64-bit data on a port that has not declared it. -/
def isUnusable (p : PortBuffer) : Bool :=
  !p.has32 && (!p.has64 || !p.layout.flags.supports64Bits)

def isWrongCount (p : PortBuffer) : Bool := decide (p.buffer.channelCount ≠ p.layout.channels)

def requiresCommon (p : PortBuffer) : Bool := p.layout.flags.requiresCommonSampleSize

/-- What the port is reported for, wherever it stands. -/
def codes (p : PortBuffer) : List Violation :=
  (if p.isWrongCount then [.P05] else []) ++ if p.isWrongFormat then [.P09] else []

end PortBuffer

/-- The ports of one direction with their buffers. -/
def portBuffers (layouts : List PortLayout) (buffers : List AudioBuffer) : List PortBuffer :=
  List.zipWith PortBuffer.mk layouts buffers

theorem portFindings_violations (isInput : Bool) (i : Nat) (layout : PortLayout)
    (buffer : AudioBuffer) :
    (portFindings isInput i layout buffer).map (·.violation) =
      PortBuffer.codes ⟨layout, buffer⟩ := by
  unfold portFindings PortBuffer.codes PortBuffer.isWrongCount PortBuffer.isWrongFormat
    PortBuffer.has32 PortBuffer.has64
  rw [List.map_append]
  congr 1
  · simp only [decide_eq_true_eq]
    split <;> rfl
  · cases buffer.data32.isSome <;> cases buffer.data64.isSome <;>
      cases layout.flags.supports64Bits <;> rfl

/-! ## The loops -/

/-- What a port loop adds to its accumulators. -/
structure Scanned (before after : PortScan) (ports : List PortBuffer) : Prop where
  anyRequiresCommon : after.anyRequiresCommon =
    (before.anyRequiresCommon || ports.any PortBuffer.requiresCommon)
  saw32 : after.saw32 = (before.saw32 || ports.any fun p => p.has32 && !p.has64)
  saw64 : after.saw64 = (before.saw64 || ports.any PortBuffer.has64)
  processable : after.processable =
    (before.processable && ports.all fun p => !p.isUnusable)
  codes : after.found.map (·.violation) =
    before.found.map (·.violation) ++ ports.flatMap PortBuffer.codes

theorem scanPort_scanned (isInput : Bool) (scan : PortScan) (i : Nat) (layout : PortLayout)
    (buffer : AudioBuffer) :
    Scanned scan (scanPort isInput scan i layout buffer) [⟨layout, buffer⟩] := by
  have hcodes : (scanPort isInput scan i layout buffer).found.map (·.violation) =
      scan.found.map (·.violation) ++ [⟨layout, buffer⟩].flatMap PortBuffer.codes := by
    rw [scanPort_found, List.map_append, portFindings_violations, List.flatMap_singleton]
  refine ⟨?_, ?_, ?_, ?_, hcodes⟩
  all_goals
    simp only [scanPort, PortBuffer.requiresCommon, PortBuffer.isUnusable, PortBuffer.has32,
      PortBuffer.has64, List.any_cons, List.any_nil, List.all_cons, List.all_nil]
    cases buffer.data32.isSome <;> cases buffer.data64.isSome <;>
      cases layout.flags.supports64Bits <;> simp

theorem Scanned.trans {a b c : PortScan} {ps qs : List PortBuffer} (h : Scanned a b ps)
    (h' : Scanned b c qs) : Scanned a c (ps ++ qs) where
  anyRequiresCommon := by rw [h'.anyRequiresCommon, h.anyRequiresCommon, List.any_append,
    Bool.or_assoc]
  saw32 := by rw [h'.saw32, h.saw32, List.any_append, Bool.or_assoc]
  saw64 := by rw [h'.saw64, h.saw64, List.any_append, Bool.or_assoc]
  processable := by rw [h'.processable, h.processable, List.all_append, Bool.and_assoc]
  codes := by rw [h'.codes, h.codes, List.flatMap_append, List.append_assoc]

theorem Scanned.refl (scan : PortScan) : Scanned scan scan [] := by
  constructor <;> simp

theorem scanPorts_scanned (isInput : Bool) (layouts : List PortLayout) :
    ∀ (buffers : List AudioBuffer) (scan : PortScan) (i : Nat),
      Scanned scan (scanPorts isInput scan i layouts buffers) (portBuffers layouts buffers) := by
  induction layouts with
  | nil =>
    intro buffers scan i
    cases buffers <;> exact .refl scan
  | cons l ls ih =>
    intro buffers scan i
    cases buffers with
    | nil => exact .refl scan
    | cons b bs => exact (scanPort_scanned isInput scan i l b).trans (ih bs _ _)

/-! ## The block -/

/-- The ports of a block, inputs first. -/
def blockPorts (m : ContractMonitor) (block : ProcessBlock D) : List PortBuffer :=
  portBuffers m.inputPorts block.audioInputs ++ portBuffers m.outputPorts block.audioOutputs

/-- Some port requires a common sample size, one carries 64-bit data and another only 32-bit. -/
def isMixed (ports : List PortBuffer) : Bool :=
  ports.any PortBuffer.requiresCommon && (ports.any fun p => p.has32 && !p.has64) &&
    ports.any PortBuffer.has64

theorem checkPorts_matched (m : ContractMonitor) (block : ProcessBlock D)
    (h : countsMatch m.inputPorts m.outputPorts block) :
    (checkPorts m block).1 = ((blockPorts m block).all fun p => !p.isUnusable) ∧
      (checkPorts m block).2.map (·.violation) =
        (blockPorts m block).flatMap PortBuffer.codes ++
          if isMixed (blockPorts m block) then [.P10] else [] := by
  have hscan := (scanPorts_scanned true m.inputPorts block.audioInputs {} 0).trans
    (scanPorts_scanned false m.outputPorts block.audioOutputs _ 0)
  have hmixed := hscan.anyRequiresCommon
  unfold checkPorts
  rw [if_neg (by rintro (hin | hout) <;> [exact hin h.1; exact hout h.2])]
  refine ⟨hscan.processable.trans (Bool.true_and _), ?_⟩
  dsimp only
  rw [List.map_append, hscan.codes, hscan.anyRequiresCommon, hscan.saw32, hscan.saw64]
  refine congrArg _ ?_
  rw [Bool.false_or, Bool.false_or, Bool.false_or]
  unfold isMixed blockPorts
  split <;> rfl

theorem count_flatMap_codes (v : Violation) (ports : List PortBuffer) :
    (ports.flatMap PortBuffer.codes).count v =
      (if v = .P05 then ports.countP PortBuffer.isWrongCount else 0) +
        if v = .P09 then ports.countP PortBuffer.isWrongFormat else 0 := by
  induction ports with
  | nil => simp
  | cons p ports ih =>
    rw [List.flatMap_cons, List.count_append, ih, List.countP_cons, List.countP_cons]
    unfold PortBuffer.codes
    by_cases h5 : v = .P05
    · subst h5
      cases p.isWrongCount <;> cases p.isWrongFormat <;> simp <;> omega
    · by_cases h9 : v = .P09
      · subst h9
        cases p.isWrongCount <;> cases p.isWrongFormat <;> simp <;> omega
      · cases p.isWrongCount <;> cases p.isWrongFormat <;> simp [h5, h9, Ne.symm h5, Ne.symm h9]

/-- The codes of the port loops. -/
def portCodes : List Violation := [.P05, .P09, .P10]

/-- No other check of the block reports them. -/
theorem count_blockFindings (m : ContractMonitor) (block : ProcessBlock D) {v : Violation}
    (hv : v ∈ portCodes) :
    ((blockFindings m block).map (·.violation)).count v =
      ((checkPorts m block).2.map (·.violation)).count v := by
  have hzero : ∀ {found : List Finding}, (∀ f ∈ found, f.violation ∉ portCodes) →
      (found.map (·.violation)).count v = 0 :=
    fun h => count_eq_zero_of_ne fun f hf heq => h f hf (heq ▸ hv)
  have hframes := hzero
    (framesFindings_codes (P := (· ∉ portCodes)) (by decide) m block.framesCount)
  have hsteady := hzero (steadyFindings_codes (P := (· ∉ portCodes)) (by decide) m block)
  have hscan := hzero (scanEvents_codes (P := (· ∉ portCodes)) (by decide) (by decide) (by decide)
    block.framesCount (readableEvents block.inEvents) {} 0 (codes_nil (P := (· ∉ portCodes))))
  have hparams := hzero (checkParamEvents_codes (P := (· ∉ portCodes)) (by decide) (by decide)
    (by decide) (by decide) (by decide) m block.inEvents block.transport)
  simp only [blockFindings, eventFindings, List.map_append, List.count_append, hframes, hsteady,
    hscan, hparams]
  omega

/-- The verdict is negative for an unusable port and for nothing else. -/
theorem checkPorts_eq_false_iff (m : ContractMonitor) (block : ProcessBlock D)
    (h : countsMatch m.inputPorts m.outputPorts block) :
    (checkPorts m block).1 = false ↔ ∃ p ∈ blockPorts m block, p.isUnusable = true := by
  rw [(checkPorts_matched m block h).1, List.all_eq_false]
  simp

theorem count_checkPorts (m : ContractMonitor) (block : ProcessBlock D)
    (h : countsMatch m.inputPorts m.outputPorts block) (v : Violation) :
    ((checkPorts m block).2.map (·.violation)).count v =
      (if v = .P05 then (blockPorts m block).countP PortBuffer.isWrongCount else 0) +
        (if v = .P09 then (blockPorts m block).countP PortBuffer.isWrongFormat else 0) +
        if v = .P10 ∧ isMixed (blockPorts m block) = true then 1 else 0 := by
  rw [(checkPorts_matched m block h).2, List.count_append, count_flatMap_codes]
  refine congrArg _ ?_
  by_cases hmixed : isMixed (blockPorts m block) = true
  · rw [if_pos hmixed]
    by_cases hv : v = .P10
    · simp [hv, hmixed]
    · simp [hv, Ne.symm hv]
  · simp [hmixed]

/-- With a buffer for each declared port: the block is refused for a port without a buffer the
    flavor could use; P05 and P09 are counted once for each port they hold of; P10 is counted once
    if the sample sizes are mixed although one port, of whatever direction, requires a common one.
    None of this depends on the order of the ports. -/
theorem portFormats_exact (m : ContractMonitor) (block : ProcessBlock D)
    (h : countsMatch m.inputPorts m.outputPorts block) :
    let ports := blockPorts m block
    let reported := fun (m : ContractMonitor) (block : ProcessBlock D) (v : Violation) =>
      ((blockFindings m block).map (·.violation)).count v
    ((checkProcessContracts m block).1 = false ↔ ∃ p ∈ ports, p.isUnusable = true) ∧
    reported m block .P09 = ports.countP PortBuffer.isWrongFormat ∧
    reported m block .P05 = ports.countP PortBuffer.isWrongCount ∧
    (reported m block .P10 = if (∃ p ∈ ports, p.layout.flags.requiresCommonSampleSize = true) ∧
        (∃ p ∈ ports, p.has64 = true) ∧ (∃ p ∈ ports, p.has32 = true ∧ p.has64 = false)
      then 1 else 0) ∧
    ∀ (m' : ContractMonitor) (block' : ProcessBlock D),
      countsMatch m'.inputPorts m'.outputPorts block' →
      (portBuffers m'.inputPorts block'.audioInputs).Perm
        (portBuffers m.inputPorts block.audioInputs) →
      (portBuffers m'.outputPorts block'.audioOutputs).Perm
        (portBuffers m.outputPorts block.audioOutputs) →
      (checkProcessContracts m' block').1 = (checkProcessContracts m block).1 ∧
        ∀ v ∈ portCodes, reported m' block' v = reported m block v := by
  intro ports reported
  have hreported : ∀ {m : ContractMonitor} {block : ProcessBlock D},
      countsMatch m.inputPorts m.outputPorts block → ∀ v ∈ portCodes, reported m block v =
        (if v = .P05 then (blockPorts m block).countP PortBuffer.isWrongCount else 0) +
          (if v = .P09 then (blockPorts m block).countP PortBuffer.isWrongFormat else 0) +
          if v = .P10 ∧ isMixed (blockPorts m block) = true then 1 else 0 :=
    fun hmatch v hv => (count_blockFindings _ _ hv).trans (count_checkPorts _ _ hmatch v)
  refine ⟨checkPorts_eq_false_iff m block h, ?_, ?_, ?_, fun m' block' h' hin hout => ?_⟩
  · rw [hreported h _ (by decide)]
    simp [ports]
  · rw [hreported h _ (by decide)]
    simp [ports]
  · have hmixed : isMixed ports = true ↔
        (∃ p ∈ ports, p.layout.flags.requiresCommonSampleSize = true) ∧
          (∃ p ∈ ports, p.has64 = true) ∧ (∃ p ∈ ports, p.has32 = true ∧ p.has64 = false) := by
      simp only [isMixed, Bool.and_eq_true, List.any_eq_true, Bool.not_eq_true',
        PortBuffer.requiresCommon]
      exact ⟨fun ⟨⟨hr, h32⟩, h64⟩ => ⟨hr, h64, h32⟩, fun ⟨hr, h64, h32⟩ => ⟨⟨hr, h32⟩, h64⟩⟩
    rw [hreported h _ (by decide), if_neg (by decide), if_neg (by decide), Nat.zero_add]
    exact if_congr ((and_iff_right rfl).trans hmixed) rfl rfl
  · have hperm : (blockPorts m' block').Perm (blockPorts m block) := hin.append hout
    have hmixed : isMixed (blockPorts m' block') = isMixed (blockPorts m block) := by
      unfold isMixed
      rw [hperm.any_eq, hperm.any_eq, hperm.any_eq]
    refine ⟨?_, fun v hv => ?_⟩
    · show (checkPorts m' block').1 = (checkPorts m block).1
      rw [(checkPorts_matched m' block' h').1, (checkPorts_matched m block h).1, hperm.all_eq]
    · rw [hreported h' v hv, hreported h v hv, hmixed, hperm.countP_eq, hperm.countP_eq]

/-- One input that requires a common sample size, two outputs, the second 64-bit only. -/
def commonSizeMonitor : ContractMonitor where
  inputPorts := [⟨2, { requiresCommonSampleSize := true }⟩]
  outputPorts := [⟨2, {}⟩, ⟨1, { supports64Bits := true }⟩]

/-- 32-bit data but for the last port; the first output has no data at all. -/
def mixedBlock : ProcessBlock ExactFloat where
  framesCount := 1
  audioInputs := [{ channelCount := 2, data32 := some [0, 1] }]
  audioOutputs := [{ channelCount := 1 }, { channelCount := 1, data64 := some [2] }]
  inEvents := none

theorem portFormats_exact_mixed :
    let reported := fun v =>
      ((blockFindings commonSizeMonitor mixedBlock).map (·.violation)).count v
    (checkProcessContracts commonSizeMonitor mixedBlock).1 = false ∧
      reported .P09 = 1 ∧ reported .P05 = 1 ∧ reported .P10 = 1 := by
  obtain ⟨hverdict, h9, h5, h10, -⟩ :=
    portFormats_exact commonSizeMonitor mixedBlock ⟨rfl, rfl⟩
  exact ⟨hverdict.mpr (by decide), h9.trans (by decide), h5.trans (by decide),
    h10.trans (by decide)⟩

end Cvp
