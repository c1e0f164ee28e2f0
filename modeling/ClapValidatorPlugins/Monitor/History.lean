/-
  The findings of one instance as a log. `sinceClear calls` lists what `report` and `note` were
  called with since the last `clear`; the counters, the total, the last code and the stored
  messages are functions of it (`Reflects`), and so is whether a report is logged.
-/
import ClapValidatorPlugins.Wrapper.Contract
import Mathlib.Data.List.Induction

namespace Cvp

/-! ## Calls and the log of findings -/

/-- A call on the monitor. -/
inductive MonitorCall where
  | report (v : Violation) (function detail : String)
  | note (v : Violation) (message : String)
  | clear

/-- One finding: its code and its line, uncut. -/
structure Recorded where
  violation : Violation
  line : String

/-- What a call adds to the log of findings. -/
def MonitorCall.recorded : MonitorCall → Option Recorded
  | .report v function detail =>
    some ⟨v, "seq [" ++ violationCode v ++ "] " ++ function ++ ": " ++ detail⟩
  | .note v message => some ⟨v, message⟩
  | .clear => none

/-- The log after one more call: only `clear` records nothing, and it empties the log. -/
def MonitorCall.extend (h : List Recorded) (call : MonitorCall) : List Recorded :=
  match call.recorded with
  | some r => h ++ [r]
  | none => []

/-- The findings since the last `clear`, oldest first. -/
def sinceClear (calls : List MonitorCall) : List Recorded := calls.foldl MonitorCall.extend []

/-- The findings of one code. -/
def ofCode (h : List Recorded) (v : Violation) : List Recorded := h.filter (·.violation = v)

namespace Findings

def call (f : Findings) : MonitorCall → Findings
  | .report v function detail => f.report v function detail
  | .note v message => f.note v message
  | .clear => f.clear

/-- A new monitor after the calls. -/
def after (calls : List MonitorCall) : Findings := calls.foldl call {}

end Findings

/-! ## What the monitor stores -/

/-- The message kept for `v`: the line of its fifth finding, or of its last one before that. -/
def keptMessage (h : List Recorded) (v : Violation) : String :=
  match (ofCode h v)[min (ofCode h v).length 5 - 1]? with
  | some r => snprintf kMessageCapacity r.line
  | none => ""

structure Reflects (f : Findings) (h : List Recorded) : Prop where
  counters : ∀ v, (f.counters v).toNat = (ofCode h v).length
  total : f.total.toNat = h.length
  lastCode : f.lastCode = h.getLast?.map (·.violation)
  messages : ∀ v, f.lastMessages v = keptMessage h v

theorem reflects_empty {log : List LogLine} : Reflects { log := log } [] :=
  ⟨fun _ => rfl, rfl, rfl, fun _ => rfl⟩

theorem toNat_succ {n : UInt32} {k : Nat} (h : n.toNat = k) (hk : k + 1 < 2 ^ 32) :
    (n + 1).toNat = k + 1 := by
  rw [UInt32.toNat_add, h, UInt32.toNat_one, Nat.mod_eq_of_lt hk]

theorem snprintf_snprintf {a b : Nat} (h : a ≤ b) (text : String) :
    snprintf a (snprintf b text) = snprintf a text := by
  have hmin : min (a - 1) (b - 1) = a - 1 := by omega
  rw [snprintf, snprintf, snprintf, String.toList_ofList, List.take_take, hmin]

theorem ofCode_append (h : List Recorded) (r : Recorded) (v : Violation) :
    ofCode (h ++ [r]) v = ofCode h v ++ if r.violation = v then [r] else [] := by
  rw [ofCode, List.filter_append]
  by_cases hv : r.violation = v
  · simp [ofCode, hv]
  · simp [ofCode, hv]

theorem length_ofCode_le (h : List Recorded) (v : Violation) : (ofCode h v).length ≤ h.length :=
  List.length_filter_le _ _

/-- A code no new finding carries keeps its message. -/
theorem keptMessage_of_ne (h : List Recorded) {r : Recorded} {v : Violation}
    (hv : r.violation ≠ v) : keptMessage (h ++ [r]) v = keptMessage h v := by
  have hsame : ofCode (h ++ [r]) v = ofCode h v := by
    rw [ofCode_append, if_neg hv, List.append_nil]
  rw [keptMessage, keptMessage, hsame]

/-- Up to its fifth finding a code keeps the newest message, then the one it has. -/
theorem keptMessage_self (h : List Recorded) (r : Recorded) :
    keptMessage (h ++ [r]) r.violation =
      if (ofCode h r.violation).length + 1 ≤ 5 then snprintf kMessageCapacity r.line
      else keptMessage h r.violation := by
  have hsnoc : ofCode (h ++ [r]) r.violation = ofCode h r.violation ++ [r] := by
    rw [ofCode_append, if_pos rfl]
  rw [keptMessage, keptMessage, hsnoc, List.length_append, List.length_singleton]
  by_cases hn : (ofCode h r.violation).length + 1 ≤ 5
  · have hindex : min ((ofCode h r.violation).length + 1) 5 - 1 =
        (ofCode h r.violation).length := by omega
    rw [if_pos hn, hindex, List.getElem?_concat_length]
  · have hindex : min ((ofCode h r.violation).length + 1) 5 - 1 = 4 := by omega
    have hindex' : min (ofCode h r.violation).length 5 - 1 = 4 := by omega
    rw [if_neg hn, hindex, hindex', List.getElem?_append_left (by omega)]

/-- `fetch_add` on the counter and `record`, which `report` and `note` share. -/
theorem Reflects.record {f : Findings} {h : List Recorded} (ht : Reflects f h)
    (hlt : h.length + 1 < 2 ^ 32) {r : Recorded} {line : String}
    (hline : snprintf kMessageCapacity line = snprintf kMessageCapacity r.line) :
    Reflects ((f.count r.violation).record r.violation line (f.counters r.violation + 1))
      (h ++ [r]) := by
  have hle := length_ofCode_le h r.violation
  have hcount : (f.counters r.violation + 1).toNat = (ofCode h r.violation).length + 1 :=
    toNat_succ (ht.counters r.violation) (by omega)
  refine ⟨fun v => ?_, ?_, ?_, fun v => ?_⟩
  · show (Function.update f.counters r.violation (f.counters r.violation + 1) v).toNat = _
    rw [ofCode_append]
    by_cases hv : r.violation = v
    · subst hv
      rw [Function.update_self, if_pos rfl, hcount, List.length_append, List.length_singleton]
    · rw [Function.update_of_ne (Ne.symm hv), if_neg hv, List.append_nil, ht.counters v]
  · show (f.total + 1).toNat = _
    rw [toNat_succ ht.total hlt, List.length_append, List.length_singleton]
  · show some r.violation = _
    rw [List.getLast?_concat, Option.map_some]
  · have hfull : f.counters r.violation + 1 ≤ kFullReports ↔
        (ofCode h r.violation).length + 1 ≤ 5 := by
      rw [UInt32.le_iff_toNat_le, hcount]
      rfl
    show (if f.counters r.violation + 1 ≤ kFullReports then
      Function.update f.lastMessages r.violation (snprintf kMessageCapacity line)
      else f.lastMessages) v = _
    by_cases hv : r.violation = v
    · subst hv
      rw [keptMessage_self]
      by_cases hn : (ofCode h r.violation).length + 1 ≤ 5
      · rw [if_pos (hfull.mpr hn), if_pos hn, Function.update_self, hline]
      · rw [if_neg (mt hfull.mp hn), if_neg hn, ht.messages]
    · rw [keptMessage_of_ne h hv, ← ht.messages v]
      split
      · exact Function.update_of_ne (Ne.symm hv) _ _
      · rfl

theorem Reflects.emit {f : Findings} {h : List Recorded} (ht : Reflects f h)
    (severity : LogSeverity) (line : String) : Reflects (f.emit severity line) h :=
  ⟨ht.counters, ht.total, ht.lastCode, ht.messages⟩

theorem Reflects.report {f : Findings} {h : List Recorded} (ht : Reflects f h)
    (hlt : h.length + 1 < 2 ^ 32) (v : Violation) (function detail : String) :
    Reflects (f.report v function detail)
      (h ++ [⟨v, "seq [" ++ violationCode v ++ "] " ++ function ++ ": " ++ detail⟩]) := by
  let r : Recorded := ⟨v, "seq [" ++ violationCode v ++ "] " ++ function ++ ": " ++ detail⟩
  have hcut : kMessageCapacity ≤ kMessageCapacity + 64 := Nat.le_add_right _ _
  have hrecord := ht.record hlt (r := r) (snprintf_snprintf hcut r.line)
  unfold Findings.report
  dsimp only
  split_ifs
  · exact hrecord.emit _ _
  · exact hrecord.emit _ _
  · exact hrecord

/-! ## Runs -/

theorem sinceClear_append (calls : List MonitorCall) (call : MonitorCall) :
    sinceClear (calls ++ [call]) = call.extend (sinceClear calls) := by
  rw [sinceClear, List.foldl_append]
  rfl

theorem after_append (calls : List MonitorCall) (call : MonitorCall) :
    Findings.after (calls ++ [call]) = (Findings.after calls).call call := by
  rw [Findings.after, List.foldl_append]
  rfl

theorem tracks_call {f : Findings} {h : List Recorded} {call : MonitorCall}
    (ht : call.recorded.isSome → Reflects f h) (hlt : (call.extend h).length < 2 ^ 32) :
    Reflects (f.call call) (call.extend h) := by
  cases call with
  | report v function detail =>
    have hlt' : h.length + 1 < 2 ^ 32 := by
      rwa [MonitorCall.extend, MonitorCall.recorded, List.length_append] at hlt
    exact (ht rfl).report hlt' v function detail
  | note v message =>
    have hlt' : h.length + 1 < 2 ^ 32 := by
      rwa [MonitorCall.extend, MonitorCall.recorded, List.length_append] at hlt
    exact (ht rfl).record hlt' (r := ⟨v, message⟩) rfl
  | clear => exact reflects_empty

/-- Only the findings since the last `clear` have to be few enough to be counted. -/
theorem reflects_after (calls : List MonitorCall) :
    (sinceClear calls).length < 2 ^ 32 → Reflects (Findings.after calls) (sinceClear calls) := by
  induction calls using List.reverseRecOn with
  | nil => exact fun _ => reflects_empty
  | append_singleton calls call ih =>
    intro hlt
    rw [sinceClear_append] at hlt ⊢
    rw [after_append]
    refine tracks_call (fun hsome => ih ?_) hlt
    obtain ⟨r, hr⟩ := Option.isSome_iff_exists.mp hsome
    have hlength : (call.extend (sinceClear calls)).length = (sinceClear calls).length + 1 := by
      rw [MonitorCall.extend, hr, List.length_append, List.length_singleton]
    omega

/-- Every finding has one code. -/
theorem sum_ofCode (h : List Recorded) :
    (Violation.all.map fun v => (ofCode h v).length).sum = h.length := by
  induction h with
  | nil => rfl
  | cons r h ih =>
    have hcons : ∀ v, (ofCode (r :: h) v).length =
        (ofCode h v).length + if r.violation = v then 1 else 0 := by
      intro v
      by_cases hv : r.violation = v
      · simp [ofCode, hv]
      · simp [ofCode, hv]
    have hone : (Violation.all.map fun v => if r.violation = v then 1 else 0).sum = 1 := by
      cases r.violation <;> rfl
    rw [funext hcons, List.sum_map_add, ih, hone, List.length_cons]

/-- The `n`-th finding of its code: a report is logged up to the fifth and at every hundredth. -/
theorem report_log (f : Findings) (v : Violation) (function detail : String) {n : Nat}
    (hn : (f.counters v + 1).toNat = n) :
    if n ≤ 5 ∨ 100 ∣ n then
      ∃ text, (f.report v function detail).log = f.log ++ [⟨.hostMisbehaving, text⟩]
    else (f.report v function detail).log = f.log := by
  have hfull : f.counters v + 1 ≤ kFullReports ↔ n ≤ 5 := by
    rw [UInt32.le_iff_toNat_le, hn]
    rfl
  have hrepeat : (f.counters v + 1) % kRepeatEvery = 0 ↔ 100 ∣ n := by
    rw [← UInt32.toNat_inj, UInt32.toNat_mod, hn, Nat.dvd_iff_mod_eq_zero]
    rfl
  unfold Findings.report
  dsimp only
  by_cases h5 : n ≤ 5
  · rw [if_pos (.inl h5), if_pos (hfull.mpr h5)]
    exact ⟨_, rfl⟩
  · rw [if_neg (mt hfull.mp h5)]
    by_cases h100 : 100 ∣ n
    · rw [if_pos (.inr h100), if_pos (hrepeat.mpr h100)]
      exact ⟨_, rfl⟩
    · rw [if_neg (not_or.mpr ⟨h5, h100⟩), if_neg (mt hrepeat.mp h100)]
      rfl

/-- The monitor refines the log of findings since the last `clear`. -/
theorem monitor_refines_log (calls : List MonitorCall)
    (hlt : (sinceClear calls).length < 2 ^ 32) :
    let f := Findings.after calls
    let h := sinceClear calls
    (∀ v, (f.counters v).toNat = (ofCode h v).length) ∧
    f.total.toNat = (Violation.all.map fun v => (f.counters v).toNat).sum ∧
    (∀ size, f.lastViolation size =
      h.getLast?.map fun r => snprintf size (violationCode r.violation)) ∧
    (∀ v, 1 ≤ (ofCode h v).length → ∃ r, (ofCode h v)[min (ofCode h v).length 5 - 1]? = some r ∧
      f.lastMessages v = snprintf 256 r.line) ∧
    (∀ earlier v function detail, calls = earlier ++ [.report v function detail] →
      if (ofCode h v).length ≤ 5 ∨ 100 ∣ (ofCode h v).length then
        ∃ text, f.log = (Findings.after earlier).log ++ [⟨.hostMisbehaving, text⟩]
      else f.log = (Findings.after earlier).log) ∧
    ∀ earlier v message, calls = earlier ++ [.note v message] →
      f.log = (Findings.after earlier).log := by
  intro f h
  have ht : Reflects f h := reflects_after calls hlt
  refine ⟨ht.counters, ?_, ?_, ?_, ?_, ?_⟩
  · rw [ht.total, funext ht.counters, sum_ofCode]
  · intro size
    rw [Findings.lastViolation, ht.lastCode, Option.map_map]
    rfl
  · intro v hone
    have hindex : min (ofCode h v).length 5 - 1 < (ofCode h v).length := by omega
    refine ⟨_, List.getElem?_eq_getElem hindex, ?_⟩
    rw [ht.messages, keptMessage, List.getElem?_eq_getElem hindex]
    rfl
  · intro earlier v function detail hcalls
    have hafter : f = (Findings.after earlier).report v function detail := by
      show Findings.after calls = _
      rw [hcalls, after_append]
      rfl
    rw [hafter]
    refine report_log _ v function detail ?_
    rw [← ht.counters, hafter, Findings.report_counters, Function.update_self]
  · intro earlier v message hcalls
    show (Findings.after calls).log = _
    rw [hcalls, after_append]
    rfl

/-- A report, then a thread finding. -/
def reportThenNote : List MonitorCall :=
  [.report .L03 "activate()" "called while already active", .note .T01 "called off the main thread"]

theorem monitor_refines_log_reportThenNote :
    (Findings.after reportThenNote).lastViolation 8 =
      (sinceClear reportThenNote).getLast?.map fun r => snprintf 8 (violationCode r.violation) :=
  (monitor_refines_log reportThenNote (by decide)).2.2.1 8

end Cvp
