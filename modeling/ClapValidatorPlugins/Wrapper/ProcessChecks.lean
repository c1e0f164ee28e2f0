/-
  `Plugin::checkProcessContracts` and `Plugin::checkParamEvents`: the data contracts on a
  `clap_process` block (P01 to P14 without the flush check P07). Every check returns the
  findings it makes, in order; the monitor reports them. Reporting is all the checks do, the
  steady-time baseline apart, so the caches are read as they were when the block arrived.
-/
import ClapValidatorPlugins.Wrapper.ThreadCheck

namespace Cvp

variable {D : Type}

/-- `snprintf` into the `char detail[160]` of the two functions. -/
def processDetail (text : String) : String := snprintf 160 text

/-! ## Frame count and steady time -/

def framesFindings (m : ContractMonitor) (framesCount : UInt32) : List Finding :=
  if framesCount.toNat < m.minFrames ∨ m.maxFrames < framesCount.toNat then
    [⟨.P01, "process()", processDetail (s!"frames_count={framesCount.toNat} outside " ++
      s!"activate bounds [{m.minFrames}, {m.maxFrames}]")⟩]
  else []

def steadyFindings (m : ContractMonitor) (block : ProcessBlock D) : List Finding :=
  if (m.checkSteadyTime block.steadyTime block.framesCount.toNat).1 then []
  else [⟨.P02, "process()", processDetail
    s!"steady_time={block.steadyTime} went backwards (must advance by at least frames_count)"⟩]

/-! ## Port buffers -/

/-- The accumulators of the port loops. -/
structure PortScan where
  anyRequiresCommon : Bool := false
  saw32 : Bool := false
  saw64 : Bool := false
  processable : Bool := true
  found : List Finding := []

/-- The loop body for port `i` of one direction. -/
def scanPort (isInput : Bool) (scan : PortScan) (i : Nat) (layout : PortLayout)
    (buffer : AudioBuffer) : PortScan :=
  let dirName := if isInput then "input" else "output"
  let channels : List Finding :=
    if buffer.channelCount ≠ layout.channels then
      [⟨.P05, "process()", processDetail
        s!"{dirName} port {i} has channel_count={buffer.channelCount}, declared {layout.channels}"⟩]
    else []
  let scan := { scan with
    anyRequiresCommon := scan.anyRequiresCommon || layout.flags.requiresCommonSampleSize
    found := scan.found ++ channels }
  let has64 := buffer.data64.isSome
  let has32 := buffer.data32.isSome
  if !has32 && !has64 then
    { scan with
      processable := false
      found := scan.found ++ [⟨.P09, "process()", processDetail
        s!"{dirName} port {i} has neither data32 nor data64"⟩] }
  else
    let scan :=
      if has64 && !layout.flags.supports64Bits then
        { scan with
          processable := scan.processable && has32
          found := scan.found ++ [⟨.P09, "process()", processDetail
            (s!"{dirName} port {i} got a 64-bit buffer but did not declare " ++
              "CLAP_AUDIO_PORT_SUPPORTS_64BITS")⟩] }
      else scan
    -- the effective sample size: 64 when the host set data64
    if has64 then { scan with saw64 := true } else { scan with saw32 := true }

def scanPorts (isInput : Bool) : PortScan → Nat → List PortLayout → List AudioBuffer → PortScan
  | scan, i, layout :: layouts, buffer :: buffers =>
    scanPorts isInput (scanPort isInput scan i layout buffer) (i + 1) layouts buffers
  | scan, _, _, _ => scan

/-- P05, P09 and P10: the verdict on the block's buffers and what is reported about them. -/
def checkPorts (m : ContractMonitor) (block : ProcessBlock D) : Bool × List Finding :=
  if block.audioInputs.length ≠ m.inputPorts.length ∨
      block.audioOutputs.length ≠ m.outputPorts.length then
    (true, [⟨.P05, "process()", processDetail
      (s!"buffer counts in={block.audioInputs.length}/out={block.audioOutputs.length} do not " ++
        s!"match declared ports in={m.inputPorts.length}/out={m.outputPorts.length}")⟩])
  else
    let scan := scanPorts true {} 0 m.inputPorts block.audioInputs
    let scan := scanPorts false scan 0 m.outputPorts block.audioOutputs
    (scan.processable, scan.found ++
      if scan.anyRequiresCommon && scan.saw32 && scan.saw64 then
        [⟨.P10, "process()", "mixed 32/64-bit buffers although a port declared " ++
          "CLAP_AUDIO_PORT_REQUIRES_COMMON_SAMPLE_SIZE"⟩]
      else [])

/-! ## The event list -/

/-- `!events || !events->size || !events->get`: the checks skip such a list. -/
def readableEvents (events : Option (InputEvents D)) : List (Option (Event D)) :=
  match events with
  | some list => if list.hasSize && list.hasGet then list.events else []
  | none => []

structure EventScan where
  previousTime : Nat := 0
  found : List Finding := []

/-- The loop body for event `i`. -/
def scanEvent (framesCount : UInt32) (scan : EventScan) (i : Nat) (header : Option (Event D)) :
    EventScan :=
  match header with
  | none => scan
  | some e =>
    if e.isMalformed then
      { scan with found := scan.found ++ [⟨.P06, "process()", processDetail
        s!"event {i} has header size {e.size} (malformed)"⟩] }
    else
      let scan :=
        if e.time < scan.previousTime then
          { scan with found := scan.found ++ [⟨.P03, "process()", processDetail
            (s!"event {i} at time {e.time} arrives after an event at time " ++
              s!"{scan.previousTime} (unsorted)")⟩] }
        else { scan with previousTime := e.time }
      if framesCount.toNat ≤ e.time then
        { scan with found := scan.found ++ [⟨.P04, "process()", processDetail
          s!"event {i} at time {e.time} is beyond the block (frames_count={framesCount.toNat})"⟩] }
      else scan

def scanEvents (framesCount : UInt32) : EventScan → Nat → List (Option (Event D)) → EventScan
  | scan, _, [] => scan
  | scan, i, header :: rest =>
    scanEvents framesCount (scanEvent framesCount scan i header) (i + 1) rest

/-! ## Parameter events -/

/-- `cookie && cookie != param->cookie`. -/
def wrongCookie (cookie declared : Option Ptr) : Bool := cookie.isSome && cookie != declared

/-- Note, key or channel addressing without the matching per-* flag. -/
def lacksCapability (flags : ParamFlags) (target : ParamTarget) : Bool :=
  (decide (0 ≤ target.noteId) && !flags.isModulatablePerNoteId) ||
    (decide (0 ≤ target.key) && !flags.isModulatablePerKey) ||
    (decide (0 ≤ target.channel) && !flags.isModulatablePerChannel)

def cookieFindings (i : Nat) (target : ParamTarget) (param : ParamRecord) : List Finding :=
  if wrongCookie target.cookie param.cookie then
    [⟨.P11, "process()/flush()", processDetail
      s!"event {i} for param_id={target.paramId.toNat} carries a wrong cookie"⟩]
  else []

def valueFindings (playing : Bool) (i : Nat) (target : ParamTarget) (param : ParamRecord) :
    List Finding :=
  if param.flags.isReadonly then
    [⟨.P12, "process()/flush()", processDetail
      s!"event {i} writes read-only param_id={target.paramId.toNat}"⟩]
  else if playing && !param.flags.isAutomatable then
    [⟨.P14, "process()", processDetail
      (s!"event {i} automates non-automatable param_id={target.paramId.toNat} (delivered " ++
        "while the transport is playing)")⟩]
  else []

def modFindings (i : Nat) (target : ParamTarget) (param : ParamRecord) : List Finding :=
  if !param.flags.isModulatable then
    [⟨.P13, "process()/flush()", processDetail
      s!"event {i} modulates param_id={target.paramId.toNat}, which is not modulatable"⟩]
  else if lacksCapability param.flags target then
    [⟨.P13, "process()/flush()", processDetail
      (s!"event {i} modulates param_id={target.paramId.toNat} per note/key/channel without " ++
        "the matching per-* capability")⟩]
  else []

/-- What a PARAM_VALUE (`verdict := valueFindings playing i`) or PARAM_MOD is reported for. -/
def targetFindings (m : ContractMonitor) (i : Nat) (target : ParamTarget)
    (verdict : ParamTarget → ParamRecord → List Finding) : List Finding :=
  match m.findParam target.paramId with
  | none => [⟨.P08, "process()/flush()", processDetail
      s!"event {i} targets unknown param_id={target.paramId.toNat}"⟩]
  | some param => cookieFindings i target param ++ verdict target param

/-- The loop body of `checkParamEvents`; malformed headers are P06, reported by the caller. -/
def paramEventFindings (m : ContractMonitor) (playing : Bool) (i : Nat)
    (header : Option (Event D)) : List Finding :=
  match header with
  | none => []
  | some e =>
    if !e.isCore || e.isMalformed then []
    else match e.body with
      | .paramValue target _ => targetFindings m i target (valueFindings playing i)
      | .paramMod target _ => targetFindings m i target (modFindings i)
      | _ => []

def paramEventsFindings (m : ContractMonitor) (playing : Bool) :
    Nat → List (Option (Event D)) → List Finding
  | _, [] => []
  | i, header :: rest =>
    paramEventFindings m playing i header ++ paramEventsFindings m playing (i + 1) rest

/-- `transport && (transport->flags & CLAP_TRANSPORT_IS_PLAYING)`. -/
def isPlaying (transport : Option (Transport D)) : Bool :=
  match transport with
  | some t => t.flags.isPlaying
  | none => false

/-- `checkParamEvents`. -/
def checkParamEvents (m : ContractMonitor) (events : Option (InputEvents D))
    (transport : Option (Transport D)) : List Finding :=
  if m.hasParams then paramEventsFindings m (isPlaying transport) 0 (readableEvents events) else []

/-! ## The whole check -/

def eventFindings (m : ContractMonitor) (block : ProcessBlock D) : List Finding :=
  (scanEvents block.framesCount {} 0 (readableEvents block.inEvents)).found ++
    checkParamEvents m block.inEvents block.transport

/-- Everything one block is reported for. -/
def blockFindings (m : ContractMonitor) (block : ProcessBlock D) : List Finding :=
  framesFindings m block.framesCount ++ steadyFindings m block ++ (checkPorts m block).2 ++
    eventFindings m block

/-- `checkProcessContracts`: whether the block can be processed, and the monitor after it. -/
def checkProcessContracts (m : ContractMonitor) (block : ProcessBlock D) :
    Bool × ContractMonitor :=
  let checked := (m.checkSteadyTime block.steadyTime block.framesCount.toNat).2
  ((checkPorts m block).1,
    { checked with findings := m.findings.reportAll (blockFindings m block) })

end Cvp
