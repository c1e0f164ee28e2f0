/-
  `wrapper/contract.h` and `contract.cpp`: the per-instance host-contract monitor. It holds
  the lifecycle flags every other check reads, the caches `activate()` fills for the audio
  thread, the steady-time baseline, the pending-callback count, and the findings: one
  counter per violation code, the total, the last code, the stored messages and the log.

  A C text is a `String` of one-byte characters. The log is the sequence of lines the instance
  emits, oldest first, whichever sinks they reach (`LogBuffer`, the host's `clap.log`, stderr).
-/
import ClapValidatorPlugins.Clap.Abi

namespace Cvp

/-- `CVP_VIOLATION_CODES`, in enum order. -/
inductive Violation where
  | L01 | L02 | L03 | L04 | L05 | L06 | L07 | L08 | L09 | L10 | L11 | L12 | L13
  | P01 | P02 | P03 | P04 | P05 | P06 | P07 | P08 | P09 | P10 | P11 | P12 | P13 | P14
  | T01 | T02 | T03 | T04
  | G01 | G02 | G03 | G04
  | AP01 | NP01 | AC01 | CA01 | LT01 | VI01 | R01 | PL01 | SR01
  deriving DecidableEq, Repr

/-- `kCodeStrings`. -/
def violationCode : Violation → String
  | .L01 => "L01" | .L02 => "L02" | .L03 => "L03" | .L04 => "L04" | .L05 => "L05"
  | .L06 => "L06" | .L07 => "L07" | .L08 => "L08" | .L09 => "L09" | .L10 => "L10"
  | .L11 => "L11" | .L12 => "L12" | .L13 => "L13"
  | .P01 => "P01" | .P02 => "P02" | .P03 => "P03" | .P04 => "P04" | .P05 => "P05"
  | .P06 => "P06" | .P07 => "P07" | .P08 => "P08" | .P09 => "P09" | .P10 => "P10"
  | .P11 => "P11" | .P12 => "P12" | .P13 => "P13" | .P14 => "P14"
  | .T01 => "T01" | .T02 => "T02" | .T03 => "T03" | .T04 => "T04"
  | .G01 => "G01" | .G02 => "G02" | .G03 => "G03" | .G04 => "G04"
  | .AP01 => "AP01" | .NP01 => "NP01" | .AC01 => "AC01" | .CA01 => "CA01"
  | .LT01 => "LT01" | .VI01 => "VI01" | .R01 => "R01" | .PL01 => "PL01" | .SR01 => "SR01"

/-- The codes of the L table. -/
def Violation.isLifecycle : Violation → Bool
  | .L01 | .L02 | .L03 | .L04 | .L05 | .L06 | .L07 | .L08 | .L09 | .L10 | .L11 | .L12 | .L13 =>
    true
  | _ => false

/-- All codes, in enum order: `static_cast<size_t>(v)` is the place of `v`. -/
def Violation.all : List Violation :=
  [.L01, .L02, .L03, .L04, .L05, .L06, .L07, .L08, .L09, .L10, .L11, .L12, .L13,
   .P01, .P02, .P03, .P04, .P05, .P06, .P07, .P08, .P09, .P10, .P11, .P12, .P13, .P14,
   .T01, .T02, .T03, .T04, .G01, .G02, .G03, .G04,
   .AP01, .NP01, .AC01, .CA01, .LT01, .VI01, .R01, .PL01, .SR01]

structure LogLine where
  severity : LogSeverity
  text : String
  deriving DecidableEq, Repr

def kMessageCapacity : Nat := 256
def kFullReports : UInt32 := 5
def kRepeatEvery : UInt32 := 100

/-- `snprintf(buf, capacity, "%s", text)`: at most `capacity - 1` characters are kept. A character
    stands for a byte. -/
def snprintf (capacity : Nat) (text : String) : String :=
  String.ofList (text.toList.take (capacity - 1))

/-- `%-*s`. -/
def padRight (width : Nat) (text : String) : String :=
  text ++ String.ofList (List.replicate (width - text.length) ' ')

/-! ## Findings -/

/-- The arguments of one `report` call. -/
structure Finding where
  violation : Violation
  function : String
  detail : String
  deriving DecidableEq, Repr

/-- What `getEntry` writes. -/
structure ViolationEntry where
  code : String
  count : UInt32
  message : String
  deriving DecidableEq, Repr

/-- The counting and reporting half of `ContractMonitor`. -/
structure Findings where
  counters : Violation → UInt32 := fun _ => 0
  total : UInt32 := 0
  lastCode : Option Violation := none
  lastMessages : Violation → String := fun _ => ""
  /-- every line the instance logs, wherever it goes -/
  log : List LogLine := []

namespace Findings

/-- `emit`. -/
def emit (f : Findings) (severity : LogSeverity) (line : String) : Findings :=
  { f with log := f.log ++ [⟨severity, line⟩] }

/-- `_counters[i].fetch_add(1)`. -/
def count (f : Findings) (v : Violation) : Findings :=
  { f with counters := Function.update f.counters v (f.counters v + 1) }

/-- `record`. -/
def record (f : Findings) (v : Violation) (line : String) (occurrence : UInt32) : Findings :=
  { f with
    total := f.total + 1
    lastCode := some v
    lastMessages :=
      if occurrence ≤ kFullReports then
        Function.update f.lastMessages v (snprintf kMessageCapacity line)
      else f.lastMessages }

/-- The line `seq [L03] activate(): called while already active`. -/
def reportLine (v : Violation) (function detail : String) : String :=
  snprintf (kMessageCapacity + 64)
    ("seq [" ++ violationCode v ++ "] " ++ function ++ ": " ++ detail)

/-- `report`. -/
def report (f : Findings) (v : Violation) (function detail : String) : Findings :=
  let n := f.counters v + 1
  let line := reportLine v function detail
  let f := (f.count v).record v line n
  if n ≤ kFullReports then f.emit .hostMisbehaving line
  else if n % kRepeatEvery = 0 then
    f.emit .hostMisbehaving
      (reportLine v function ("repeated (total " ++ toString n.toNat ++ ")"))
  else f

/-- `note`. -/
def note (f : Findings) (v : Violation) (message : String) : Findings :=
  (f.count v).record v message (f.counters v + 1)

/-- The two bytes of the multiplication sign in the summary line. -/
def timesSign : String := String.ofList [Char.ofNat 0xC3, Char.ofNat 0x97]

/-- The per-code list inside the summary line, while the cursor leaves room for it. -/
def summaryEntries (f : Findings) : List Violation → Bool → String → String
  | [], _, line => line
  | v :: rest, first, line =>
    if line.length < 512 - 16 then
      if f.counters v = 0 then summaryEntries f rest first line
      else
        summaryEntries f rest false
          (line ++ (if first then "" else ", ") ++ violationCode v ++ timesSign ++
            toString (f.counters v).toNat)
    else line

/-- `logSummary`. -/
def logSummary (f : Findings) : Findings :=
  if f.total = 0 then
    f.emit .info "contract summary: no host contract violations observed"
  else
    let head := "contract summary: " ++ toString f.total.toNat ++ " violation" ++
      (if f.total = 1 then "" else "s") ++ " ("
    f.emit .hostMisbehaving (snprintf 512 (f.summaryEntries Violation.all true head ++ ")"))

/-- `distinct`. -/
def distinct (f : Findings) : UInt32 :=
  Violation.all.foldl (fun n v => if 0 < f.counters v then n + 1 else n) 0

/-- The loop of `getEntry`: `seen` codes with a count have been passed. -/
def entryFrom (f : Findings) (index : UInt32) : UInt32 → List Violation → Option ViolationEntry
  | _, [] => none
  | seen, v :: rest =>
    if f.counters v = 0 then entryFrom f index seen rest
    else if seen = index then
      some ⟨snprintf 8 (violationCode v), f.counters v, f.lastMessages v⟩
    else entryFrom f index (seen + 1) rest

/-- `getEntry`: the index runs over the codes with a non-zero count, in enum order. -/
def getEntry (f : Findings) (index : UInt32) : Option ViolationEntry :=
  f.entryFrom index 0 Violation.all

/-- `clear`. -/
def clear (f : Findings) : Findings :=
  { f with counters := fun _ => 0, total := 0, lastCode := none, lastMessages := fun _ => "" }

/-- `lastViolation` into a buffer of `size` bytes. -/
def lastViolation (f : Findings) (size : Nat) : Option String :=
  f.lastCode.map fun v => snprintf size (violationCode v)

/-- The `report` calls a check makes, in order. -/
def reportAll (f : Findings) (found : List Finding) : Findings :=
  found.foldl (fun f r => f.report r.violation r.function r.detail) f

@[simp] theorem report_counters (f : Findings) (v : Violation) (fn d : String) :
    (f.report v fn d).counters = Function.update f.counters v (f.counters v + 1) := by
  unfold report
  dsimp only
  split_ifs <;> rfl

@[simp] theorem report_total (f : Findings) (v : Violation) (fn d : String) :
    (f.report v fn d).total = f.total + 1 := by
  unfold report
  dsimp only
  split_ifs <;> rfl

@[simp] theorem reportAll_nil (f : Findings) : f.reportAll [] = f := rfl

theorem reportAll_cons (f : Findings) (r : Finding) (rs : List Finding) :
    f.reportAll (r :: rs) = (f.report r.violation r.function r.detail).reportAll rs := rfl

@[simp] theorem note_counters (f : Findings) (v : Violation) (m : String) :
    (f.note v m).counters = Function.update f.counters v (f.counters v + 1) := rfl

@[simp] theorem note_total (f : Findings) (v : Violation) (m : String) :
    (f.note v m).total = f.total + 1 := rfl

@[simp] theorem emit_counters (f : Findings) (s : LogSeverity) (l : String) :
    (f.emit s l).counters = f.counters := rfl

@[simp] theorem emit_total (f : Findings) (s : LogSeverity) (l : String) :
    (f.emit s l).total = f.total := rfl

@[simp] theorem logSummary_counters (f : Findings) : f.logSummary.counters = f.counters := by
  unfold logSummary
  split_ifs <;> rfl

@[simp] theorem logSummary_total (f : Findings) : f.logSummary.total = f.total := by
  unfold logSummary
  split_ifs <;> rfl

end Findings

/-! ## The monitor -/

/-- `ContractMonitor::PortInfo`. -/
structure PortLayout where
  channels : Nat
  flags : AudioPortFlags
  deriving DecidableEq, Repr

/-- `ContractMonitor::ParamRecord`. -/
structure ParamRecord where
  id : ClapId
  flags : ParamFlags
  cookie : Option Ptr
  deriving DecidableEq, Repr

/-- `ContractMonitor`. -/
structure ContractMonitor where
  initialized : Bool := false
  active : Bool := false
  processing : Bool := false
  beingActivated : Bool := false
  inProcess : Bool := false
  guiCreated : Bool := false
  guiFloating : Bool := false
  minFrames : Nat := 0
  maxFrames : Nat := 0
  inputPorts : List PortLayout := []
  outputPorts : List PortLayout := []
  params : List ParamRecord := []
  steadyValid : Bool := false
  steadyEnd : Int := 0
  pendingCallbacks : UInt32 := 0
  findings : Findings := {}

namespace ContractMonitor

def hasParams (m : ContractMonitor) : Bool := !m.params.isEmpty

def findParam (m : ContractMonitor) (id : ClapId) : Option ParamRecord :=
  m.params.find? (fun param => param.id == id)

def setGuiCreated (m : ContractMonitor) (created floating : Bool) : ContractMonitor :=
  { m with guiCreated := created, guiFloating := floating }

def setFrameBounds (m : ContractMonitor) (minFrames maxFrames : Nat) : ContractMonitor :=
  { m with minFrames := minFrames, maxFrames := maxFrames }

def setPortLayout (m : ContractMonitor) (inputPorts outputPorts : List PortLayout) :
    ContractMonitor :=
  { m with inputPorts := inputPorts, outputPorts := outputPorts }

def setParams (m : ContractMonitor) (params : List ParamRecord) : ContractMonitor :=
  { m with params := params }

def invalidateSteadyTime (m : ContractMonitor) : ContractMonitor :=
  { m with steadyValid := false }

/-- Two's complement at 64 bits: what `int64_t` addition yields where it overflows. -/
def wrapInt64 (x : Int) : Int := (x + 2 ^ 63) % 2 ^ 64 - 2 ^ 63

/-- `checkSteadyTime`: the verdict and the new baseline. -/
def checkSteadyTime (m : ContractMonitor) (steadyTime : Int) (framesCount : Nat) :
    Bool × ContractMonitor :=
  if steadyTime < 0 then (true, { m with steadyValid := false })
  else
    (!m.steadyValid || decide (m.steadyEnd ≤ steadyTime),
      { m with steadyValid := true, steadyEnd := wrapInt64 (steadyTime + framesCount) })

def noteCallbackRequested (m : ContractMonitor) : ContractMonitor :=
  { m with pendingCallbacks := m.pendingCallbacks + 1 }

/-- `consumePendingCallbacks`: `exchange(0) > 0`. -/
def consumePendingCallbacks (m : ContractMonitor) : Bool × ContractMonitor :=
  (decide (0 < m.pendingCallbacks), { m with pendingCallbacks := 0 })

@[simp] def report (m : ContractMonitor) (v : Violation) (function detail : String) :
    ContractMonitor :=
  { m with findings := m.findings.report v function detail }

@[simp] def note (m : ContractMonitor) (v : Violation) (message : String) : ContractMonitor :=
  { m with findings := m.findings.note v message }

@[simp] def emit (m : ContractMonitor) (severity : LogSeverity) (line : String) :
    ContractMonitor :=
  { m with findings := m.findings.emit severity line }

@[simp] def logSummary (m : ContractMonitor) : ContractMonitor :=
  { m with findings := m.findings.logSummary }

def total (m : ContractMonitor) : UInt32 := m.findings.total

def counter (m : ContractMonitor) (v : Violation) : UInt32 := m.findings.counters v

def clear (m : ContractMonitor) : ContractMonitor :=
  { m with findings := m.findings.clear }

end ContractMonitor

end Cvp
