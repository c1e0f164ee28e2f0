/-
  What the data checks of a block can report: what the port loops find is what each port is
  reported for, and no check reports an L code (`blockFindings_data`).
-/
import ClapValidatorPlugins.Wrapper.ProcessChecks

namespace Cvp

variable {D : Type}

/-! ## The port loops -/

/-- What port `i` of one direction is reported for. -/
def portFindings (isInput : Bool) (i : Nat) (layout : PortLayout) (buffer : AudioBuffer) :
    List Finding :=
  let dirName := if isInput then "input" else "output"
  (if buffer.channelCount ≠ layout.channels then
    [⟨.P05, "process()", processDetail
      s!"{dirName} port {i} has channel_count={buffer.channelCount}, declared {layout.channels}"⟩]
  else []) ++
  (if !buffer.data32.isSome && !buffer.data64.isSome then
    [⟨.P09, "process()", processDetail s!"{dirName} port {i} has neither data32 nor data64"⟩]
  else if buffer.data64.isSome && !layout.flags.supports64Bits then
    [⟨.P09, "process()", processDetail
      (s!"{dirName} port {i} got a 64-bit buffer but did not declare " ++
        "CLAP_AUDIO_PORT_SUPPORTS_64BITS")⟩]
  else [])

theorem scanPort_found (isInput : Bool) (scan : PortScan) (i : Nat) (layout : PortLayout)
    (buffer : AudioBuffer) :
    (scanPort isInput scan i layout buffer).found =
      scan.found ++ portFindings isInput i layout buffer := by
  unfold scanPort portFindings
  dsimp only
  rw [← List.append_assoc]
  cases buffer.data32.isSome <;> cases buffer.data64.isSome <;>
    cases layout.flags.supports64Bits <;> simp

theorem scanPorts_found (isInput : Bool) (P : Finding → Prop) (layouts : List PortLayout) :
    ∀ (buffers : List AudioBuffer) (scan : PortScan) (i : Nat),
      (∀ f ∈ scan.found, P f) →
      (∀ i layout buffer, (layout, buffer) ∈ layouts.zip buffers →
        ∀ f ∈ portFindings isInput i layout buffer, P f) →
      ∀ f ∈ (scanPorts isInput scan i layouts buffers).found, P f := by
  induction layouts with
  | nil =>
    intro buffers scan i hscan _
    cases buffers <;> exact hscan
  | cons l ls ih =>
    intro buffers scan i hscan hport
    cases buffers with
    | nil => exact hscan
    | cons b bs =>
      rw [scanPorts]
      refine ih bs _ _ ?_ fun i layout buffer hmem => hport i layout buffer (by simp [hmem])
      rw [scanPort_found]
      exact List.forall_mem_append.mpr ⟨hscan, hport i l b (by simp)⟩

/-! ## The codes -/

section Codes

variable {P : Violation → Prop}

theorem codes_of_ite {c : Prop} [Decidable c] {f : Finding} {rest : List Finding}
    (h : P f.violation) (hrest : ∀ g ∈ rest, P g.violation) :
    ∀ g ∈ (if c then [f] else rest), P g.violation := by
  split
  · exact List.forall_mem_singleton.mpr h
  · exact hrest

/-- A code no finding of the list carries. -/
theorem count_eq_zero_of_ne {found : List Finding} {v : Violation}
    (h : ∀ f ∈ found, f.violation ≠ v) : (found.map (·.violation)).count v = 0 := by
  refine List.count_eq_zero.mpr fun hmem => ?_
  obtain ⟨f, hf, hv⟩ := List.mem_map.mp hmem
  exact h f hf hv

theorem codes_nil : ∀ f ∈ ([] : List Finding), P f.violation := fun _ h =>
  absurd h List.not_mem_nil

theorem framesFindings_codes (h1 : P .P01) (m : ContractMonitor) (framesCount : UInt32) :
    ∀ f ∈ framesFindings m framesCount, P f.violation := codes_of_ite h1 codes_nil

theorem steadyFindings_codes (h2 : P .P02) (m : ContractMonitor) (block : ProcessBlock D) :
    ∀ f ∈ steadyFindings m block, P f.violation := by
  unfold steadyFindings
  split
  · exact codes_nil
  · exact List.forall_mem_singleton.mpr h2

theorem portFindings_codes (h5 : P .P05) (h9 : P .P09) (isInput : Bool) (i : Nat)
    (layout : PortLayout) (buffer : AudioBuffer) :
    ∀ f ∈ portFindings isInput i layout buffer, P f.violation :=
  List.forall_mem_append.mpr
    ⟨codes_of_ite h5 codes_nil, codes_of_ite h9 (codes_of_ite h9 codes_nil)⟩

theorem checkPorts_codes (h5 : P .P05) (h9 : P .P09) (h10 : P .P10) (m : ContractMonitor)
    (block : ProcessBlock D) : ∀ f ∈ (checkPorts m block).2, P f.violation := by
  unfold checkPorts
  split
  · exact List.forall_mem_singleton.mpr h5
  · refine List.forall_mem_append.mpr ⟨?_, codes_of_ite h10 codes_nil⟩
    have hin := scanPorts_found true (fun f => P f.violation) m.inputPorts block.audioInputs {} 0
      codes_nil fun i l b _ => portFindings_codes h5 h9 true i l b
    exact scanPorts_found false _ _ _ _ _ hin fun i l b _ => portFindings_codes h5 h9 false i l b

theorem scanEvent_codes (h3 : P .P03) (h4 : P .P04) (h6 : P .P06) (framesCount : UInt32)
    (scan : EventScan) (i : Nat) (header : Option (Event D))
    (h : ∀ f ∈ scan.found, P f.violation) :
    ∀ f ∈ (scanEvent framesCount scan i header).found, P f.violation := by
  have snoc : ∀ {fs : List Finding} {f : Finding}, (∀ g ∈ fs, P g.violation) → P f.violation →
      ∀ g ∈ fs ++ [f], P g.violation :=
    fun hs hf => List.forall_mem_append.mpr ⟨hs, List.forall_mem_singleton.mpr hf⟩
  unfold scanEvent
  cases header with
  | none => exact h
  | some e =>
    dsimp only
    split_ifs
    · exact snoc h h6
    · exact snoc (snoc h h3) h4
    · exact snoc h h4
    · exact snoc h h3
    · exact h

theorem scanEvents_codes (h3 : P .P03) (h4 : P .P04) (h6 : P .P06) (framesCount : UInt32)
    (es : List (Option (Event D))) :
    ∀ (scan : EventScan) (i : Nat), (∀ f ∈ scan.found, P f.violation) →
      ∀ f ∈ (scanEvents framesCount scan i es).found, P f.violation := by
  induction es with
  | nil => exact fun scan i h => h
  | cons e es ih => exact fun scan i h => ih _ _ (scanEvent_codes h3 h4 h6 framesCount scan i e h)

theorem paramEventFindings_codes (h8 : P .P08) (h11 : P .P11) (h12 : P .P12) (h13 : P .P13)
    (h14 : P .P14) (m : ContractMonitor) (playing : Bool) (i : Nat) (header : Option (Event D)) :
    ∀ f ∈ paramEventFindings m playing i header, P f.violation := by
  have target : ∀ (t : ParamTarget) (verdict : ParamTarget → ParamRecord → List Finding),
      (∀ param, ∀ f ∈ verdict t param, P f.violation) →
        ∀ f ∈ targetFindings m i t verdict, P f.violation := by
    intro t verdict hv
    unfold targetFindings
    split
    · exact List.forall_mem_singleton.mpr h8
    · exact List.forall_mem_append.mpr ⟨codes_of_ite h11 codes_nil, hv _⟩
  unfold paramEventFindings
  split
  · exact codes_nil
  · split
    · exact codes_nil
    · split
      · exact target _ _ fun param => codes_of_ite h12 (codes_of_ite h14 codes_nil)
      · exact target _ _ fun param => codes_of_ite h13 (codes_of_ite h13 codes_nil)
      · exact codes_nil

theorem checkParamEvents_codes (h8 : P .P08) (h11 : P .P11) (h12 : P .P12) (h13 : P .P13)
    (h14 : P .P14) (m : ContractMonitor) (events : Option (InputEvents D))
    (transport : Option (Transport D)) :
    ∀ f ∈ checkParamEvents m events transport, P f.violation := by
  have all : ∀ (es : List (Option (Event D))) (i : Nat),
      ∀ f ∈ paramEventsFindings m (isPlaying transport) i es, P f.violation := by
    intro es
    induction es with
    | nil => exact fun _ => codes_nil
    | cons e es ih =>
      have hhead := fun i => paramEventFindings_codes h8 h11 h12 h13 h14 m (isPlaying transport) i e
      exact fun i => List.forall_mem_append.mpr ⟨hhead i, ih (i + 1)⟩
  unfold checkParamEvents
  split
  · exact all _ 0
  · exact codes_nil

/-- The codes `checkProcessContracts` can report. -/
def Violation.isBlockCode (v : Violation) : Bool :=
  v ∈ [.P01, .P02, .P03, .P04, .P05, .P06, .P08, .P09, .P10, .P11, .P12, .P13, .P14]

theorem blockFindings_codes (m : ContractMonitor) (block : ProcessBlock D) :
    ∀ f ∈ blockFindings m block, f.violation.isBlockCode = true := by
  let P : Violation → Prop := fun v => v.isBlockCode = true
  have hframes : ∀ f ∈ framesFindings m block.framesCount, P f.violation :=
    framesFindings_codes (P := P) rfl m block.framesCount
  have hsteady : ∀ f ∈ steadyFindings m block, P f.violation :=
    steadyFindings_codes (P := P) rfl m block
  have hports : ∀ f ∈ (checkPorts m block).2, P f.violation :=
    checkPorts_codes (P := P) rfl rfl rfl m block
  have hscan : ∀ f ∈ (scanEvents block.framesCount {} 0 (readableEvents block.inEvents)).found,
      P f.violation := scanEvents_codes (P := P) rfl rfl rfl _ _ {} 0 codes_nil
  have hevents : ∀ f ∈ eventFindings m block, P f.violation := List.forall_mem_append.mpr
    ⟨hscan, checkParamEvents_codes (P := P) rfl rfl rfl rfl rfl m block.inEvents block.transport⟩
  exact List.forall_mem_append.mpr ⟨List.forall_mem_append.mpr ⟨List.forall_mem_append.mpr
    ⟨hframes, hsteady⟩, hports⟩, hevents⟩

end Codes

/-- The code of a data check. -/
def Finding.IsData (f : Finding) : Prop := f.violation.isLifecycle = false

theorem blockFindings_data (m : ContractMonitor) (block : ProcessBlock D) :
    ∀ f ∈ blockFindings m block, f.IsData := by
  have hdata : ∀ v : Violation, v.isBlockCode = true → v.isLifecycle = false := by
    intro v
    cases v <;> decide
  exact fun f hf => hdata _ (blockFindings_codes m block f hf)

end Cvp
