/-
  `wrapper/threadcheck.h` and `threadcheck.cpp`: the [main-thread]/[audio-thread] checks,
  compiled in by `CVP_THREAD_CHECKS` (on by default). With the host's `clap.thread-check` a
  mismatch is authoritative and counted; without it a main-thread mismatch is only logged.
  The debug-build `assert` after an authoritative finding is not modelled.

  `Host` is what a plugin sees of its host: the pointer may be null, and each of the
  extensions it asks for may be missing.
-/
import ClapValidatorPlugins.Wrapper.Contract

namespace Cvp

/-- `clap_host_thread_check`; either callback may be null. -/
structure HostThreadCheck where
  isMainThread : Option (ThreadId → Bool)
  isAudioThread : Option (ThreadId → Bool)

/-- `clap_host_preset_load`: which of its two callbacks are set. -/
structure HostPresetLoad where
  hasOnError : Bool := true
  hasLoaded : Bool := true
  deriving DecidableEq, Repr

/-- `clap_host_params`: whether `rescan` is set (`request_flush` is called unchecked). -/
structure HostParams where
  hasRescan : Bool := true
  deriving DecidableEq, Repr

/-- A non-null `clap_host`: its texts may be null; `hasExtension` answers `get_extension` for the
    ids that are only probed for presence. -/
structure Host where
  name : Option String := none
  vendor : Option String := none
  url : Option String := none
  version : Option String := none
  clapVersion : Nat × Nat × Nat := (1, 2, 10)
  hasExtension : String → Bool := fun _ => false
  threadCheck : Option HostThreadCheck := none
  presetLoad : Option HostPresetLoad := none
  params : Option HostParams := none

/-- `ThreadChecker`; `mainThread = none` is the default `std::thread::id`. -/
structure ThreadChecker where
  hostCheck : Option HostThreadCheck := none
  mainThread : Option ThreadId := none

namespace ThreadChecker

/-- `onInit`, run on thread `thread`. -/
def onInit (t : ThreadChecker) (host : Option Host) (thread : ThreadId) : ThreadChecker :=
  { hostCheck := match host with
      | some h => h.threadCheck
      | none => t.hostCheck
    mainThread := some thread }

/-- The line of `report`. -/
def message (function expected : String) (authoritative : Bool) : String :=
  snprintf 256 ("clap-validator-plugin: '" ++ function ++ "' was called outside the [" ++
    expected ++ "-thread] contract" ++
    (if authoritative then "" else " (heuristic: host lacks clap.thread-check)"))

/-- `report`: only an authoritative finding is counted. -/
def report (m : ContractMonitor) (function expected : String) (authoritative : Bool) :
    ContractMonitor :=
  let msg := message function expected authoritative
  if authoritative then
    (m.emit .hostMisbehaving msg).note (if expected = "main" then .T01 else .T02) msg
  else m.emit .warning msg

def assertMainThread (t : ThreadChecker) (m : ContractMonitor) (thread : ThreadId)
    (function : String) : ContractMonitor :=
  match t.hostCheck.bind (·.isMainThread) with
  | some isMain => if isMain thread then m else report m function "main" true
  | none => if t.mainThread = some thread then m else report m function "main" false

def assertAudioThread (t : ThreadChecker) (m : ContractMonitor) (thread : ThreadId)
    (function : String) : ContractMonitor :=
  match t.hostCheck.bind (·.isAudioThread) with
  | some isAudio => if isAudio thread then m else report m function "audio" true
  | none => m

def confirmedNotMainThread (t : ThreadChecker) (thread : ThreadId) : Bool :=
  match t.hostCheck.bind (·.isMainThread) with
  | some isMain => !isMain thread
  | none => false

def confirmedNotAudioThread (t : ThreadChecker) (thread : ThreadId) : Bool :=
  match t.hostCheck.bind (·.isAudioThread) with
  | some isAudio => !isAudio thread
  | none => false

/-! The checks touch the findings only. -/

/-- What a thread check leaves in the findings. -/
def mainFindings (t : ThreadChecker) (f : Findings) (thread : ThreadId) (function : String) :
    Findings :=
  (t.assertMainThread { findings := f } thread function).findings

def audioFindings (t : ThreadChecker) (f : Findings) (thread : ThreadId) (function : String) :
    Findings :=
  (t.assertAudioThread { findings := f } thread function).findings

theorem assertMainThread_eq (t : ThreadChecker) (m : ContractMonitor) (thread : ThreadId)
    (function : String) :
    t.assertMainThread m thread function =
      { m with findings := t.mainFindings m.findings thread function } := by
  unfold mainFindings assertMainThread
  split
  · split_ifs <;> rfl
  · split_ifs <;> rfl

theorem assertAudioThread_eq (t : ThreadChecker) (m : ContractMonitor) (thread : ThreadId)
    (function : String) :
    t.assertAudioThread m thread function =
      { m with findings := t.audioFindings m.findings thread function } := by
  unfold audioFindings assertAudioThread
  split
  · split_ifs <;> rfl
  · rfl

end ThreadChecker

end Cvp
