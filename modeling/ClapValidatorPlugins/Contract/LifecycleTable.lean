/-
  The L table of `docs/host-contract-violations.md` as an automaton over the calls of the
  `clap_plugin` vtable: created → initialized (`init`) → active (`activate`) → processing
  (`start_processing`), walked back by `stop_processing`, `deactivate` and `destroy`. For every
  call it says which rules the call breaks, how the call is answered, whether the flavor is
  reached, and the state behind it. The table has no rule about `activate` before `init`.
-/
import ClapValidatorPlugins.Contract.Trampolines

namespace Cvp

/-- The calls the L table is about, L01 and L11 aside. -/
inductive LifecycleCall (D S : Type) where
  | init (earlyLog : List LogLine)
  | destroy
  | activate (sampleRate : D) (minFrames maxFrames : Nat)
  | deactivate
  | startProcessing
  | stopProcessing
  | reset
  | process (block : ProcessBlock D) (memory : AudioMemory D S)

def LifecycleCall.toCall {D S : Type} : LifecycleCall D S → Call D S
  | .init earlyLog => .init earlyLog
  | .destroy => .destroy
  | .activate sampleRate minFrames maxFrames => .activate sampleRate minFrames maxFrames
  | .deactivate => .deactivate
  | .startProcessing => .startProcessing
  | .stopProcessing => .stopProcessing
  | .reset => .reset
  | .process block memory => .process block memory

/-- How far the plugin has been walked up. -/
inductive Phase where
  | inactive | active | processing
  deriving DecidableEq, Repr

/-- The documented state; `bounds` are those of the last activation, as clamped. -/
structure LifecycleState where
  initialized : Bool := false
  phase : Phase := .inactive
  bounds : Nat × Nat := (0, 0)
  deriving DecidableEq, Repr

namespace LifecycleState

open Plugin (codeIf badBounds clampBounds)

variable {D S : Type}

/-- The rules a call breaks. -/
def broken (d : LifecycleState) : LifecycleCall D S → List Violation
  | .init _ => codeIf d.initialized .L02
  | .destroy => codeIf (d.phase != .inactive) .L06
  | .activate _ minFrames maxFrames =>
    codeIf (d.phase != .inactive) .L03 ++ codeIf (badBounds minFrames maxFrames) .L13
  | .deactivate => codeIf (d.phase == .inactive) .L04 ++ codeIf (d.phase == .processing) .L05
  | .startProcessing => codeIf (d.phase != .active) .L07
  | .stopProcessing => codeIf (d.phase != .processing) .L08
  | .reset => codeIf (d.phase == .inactive) .L10
  | .process _ _ => codeIf (d.phase != .processing) .L09

/-- The state behind a call. -/
def next (d : LifecycleState) : LifecycleCall D S → LifecycleState
  | .init _ => { d with initialized := true }
  | .activate _ minFrames maxFrames =>
    match d.phase with
    | .inactive => { d with phase := .active, bounds := clampBounds minFrames maxFrames }
    | _ => d
  | .deactivate => { d with phase := .inactive }
  | .startProcessing =>
    match d.phase with
    | .active => { d with phase := .processing }
    | _ => d
  | .stopProcessing =>
    match d.phase with
    | .processing => { d with phase := .active }
    | _ => d
  | _ => d

/-- The answer: Reject is `false` or CLAP_PROCESS_ERROR, Tolerate goes on. -/
def Answers (d : LifecycleState) : LifecycleCall D S → Result D S → Prop
  | .init _, r => r = .bool true
  | .activate _ _ _, r => r = .bool (d.phase == .inactive)
  | .startProcessing, r => r = .bool (d.phase != .inactive)
  | .process _ memory, r =>
    d.phase ≠ .processing → r = .process { status := .error, memory := memory }
  | _, r => r = .void

/-- The calls the wrapper answers itself. -/
def refuses (d : LifecycleState) : LifecycleCall D S → Bool
  | .init _ => d.initialized
  | .activate _ _ _ => d.phase != .inactive
  | .deactivate => d.phase == .inactive
  | .startProcessing => d.phase != .active
  | .stopProcessing => d.phase != .processing
  | .process _ _ => d.phase != .processing
  | _ => false

/-- The state behind a sequence of calls. -/
def afterCalls (d : LifecycleState) (calls : List (ThreadId × LifecycleCall D S)) :
    LifecycleState :=
  calls.foldl (fun d call => d.next call.2) d

/-- The monitor's flags are those of the documented state. -/
structure Follows (d : LifecycleState) (m : ContractMonitor) : Prop where
  initialized : m.initialized = d.initialized
  active : m.active = (d.phase != .inactive)
  processing : m.processing = (d.phase == .processing)
  bounds : m.active = true → (m.minFrames, m.maxFrames) = d.bounds

end LifecycleState

end Cvp
