/-
  `report`, `note` and `clear` called on one monitor from any number of threads. Each atomic
  operation and each section under `_messageMutex` is a step. A finding raises its counter and the
  total in two steps and a clear resets them in forty-five, so a clear can wipe one of the two
  increments without the other. At rest the total is the sum of the counters exactly if, modulo
  2^32, as many findings have lost only their counter as only their total
  (`total_eq_sum_iff`), and so whenever each clear keeps to one side of each finding
  (`total_eq_sum_of_order`).
-/
import ClapValidatorPlugins.Lib.Interleaving
import ClapValidatorPlugins.Monitor.History
import Mathlib.Data.Finset.Card
import Mathlib.Data.Fintype.Card
import Mathlib.Data.UInt
import Mathlib.Tactic.Ring

namespace Cvp.Monitor

open Interleaving

/-! ## The steps -/

/-- `report` and `note` with `record`: what comes next; `occurrence` is the counter's value that
    `fetch_add` made. -/
inductive RecordPc where
  | count
  | total (occurrence : UInt32)
  | lastCode (occurrence : UInt32)
  | message (occurrence : UInt32)
  | emit (occurrence : UInt32)
  | returned

/-- `clear`: the counters still to reset, then the total, and what comes behind it. -/
inductive ClearPc where
  | counters (rest : List Violation)
  | lastCode | messages | returned

inductive Place where
  | report (v : Violation) (function detail : String) (pc : RecordPc)
  | note (v : Violation) (message : String) (pc : RecordPc)
  | clear (pc : ClearPc)

/-- What a step does to a counter or the total. -/
inductive Touch where
  | counted (v : Violation)
  | totaled (v : Violation)
  | wipedCounter (v : Violation)
  | wipedTotal
  | other

/-- `emit` behind `record`, in `report`. -/
def emitReport (v : Violation) (function detail : String) (occurrence : UInt32) (f : Findings) :
    Findings :=
  if occurrence ≤ kFullReports then
    f.emit .hostMisbehaving (Findings.reportLine v function detail)
  else if occurrence % kRepeatEvery = 0 then
    f.emit .hostMisbehaving
      (Findings.reportLine v function ("repeated (total " ++ toString occurrence.toNat ++ ")"))
  else f

/-- A step of `report` or `note`; `last` is what they do behind `record`. -/
def recordStep (v : Violation) (line : String) (last : UInt32 → Findings → Findings)
    (f : Findings) : RecordPc → Option (Findings × RecordPc × Touch)
  | .count => some (f.count v, .total (f.counters v + 1), .counted v)
  | .total n => some ({ f with total := f.total + 1 }, .lastCode n, .totaled v)
  | .lastCode n =>
    -- later repeats keep the first messages
    some ({ f with lastCode := some v }, if n ≤ kFullReports then .message n else .emit n, .other)
  | .message n =>
    some ({ f with lastMessages :=
      Function.update f.lastMessages v (snprintf kMessageCapacity line) }, .emit n, .other)
  | .emit n => some (last n f, .returned, .other)
  | .returned => none

def clearStep (f : Findings) : ClearPc → Option (Findings × ClearPc × Touch)
  | .counters (v :: rest) =>
    some ({ f with counters := Function.update f.counters v 0 }, .counters rest, .wipedCounter v)
  | .counters [] => some ({ f with total := 0 }, .lastCode, .wipedTotal)
  | .lastCode => some ({ f with lastCode := none }, .messages, .other)
  | .messages => some ({ f with lastMessages := fun _ => "" }, .returned, .other)
  | .returned => none

def step (f : Findings) : Place → Option (Findings × Place × Touch)
  | .report v function detail pc =>
    (recordStep v (Findings.reportLine v function detail) (emitReport v function detail) f pc).map
      fun r => (r.1, .report v function detail r.2.1, r.2.2)
  | .note v message pc =>
    (recordStep v message (fun _ f => f) f pc).map fun r => (r.1, .note v message r.2.1, r.2.2)
  | .clear pc => (clearStep f pc).map fun r => (r.1, .clear r.2.1, r.2.2)

def startPlace : MonitorCall → Place
  | .report v function detail => .report v function detail .count
  | .note v message => .note v message .count
  | .clear => .clear (.counters Violation.all)

def program : Program Findings MonitorCall Place Touch where
  start := startPlace
  step := step

abbrev Pool := Interleaving.Pool Findings Place

def Place.isReturned : Place → Bool
  | .report _ _ _ .returned | .note _ _ .returned | .clear .returned => true
  | _ => false

/-! ## A call that runs alone -/

/-- `n` steps of a single call. -/
theorem run_single {f f' : Findings} {c c' : Place} {touch : Touch} {pool : Pool}
    {moves : List (Move MonitorCall)} {seen : List (Option Touch)}
    (h : step f c = some (f', c', touch))
    (hrest : Machine.run program.next ⟨f', [c']⟩ moves = .ok (pool, seen)) :
    Machine.run program.next ⟨f, [c]⟩ (.advance 0 :: moves) = .ok (pool, some touch :: seen) := by
  have hnext : program.next ⟨f, [c]⟩ (.advance 0) = .ok (⟨f', [c']⟩, some touch) :=
    next_advance rfl h
  exact Machine.run_cons hnext hrest

/-- `report` and `note`: count, record, and what they do behind it. -/
theorem run_record {v : Violation} {line : String} {last : UInt32 → Findings → Findings}
    (place : RecordPc → Place) (hplace : ∀ f pc, step f (place pc) =
      (recordStep v line last f pc).map fun r => (r.1, place r.2.1, r.2.2)) (f : Findings) :
    ∃ moves seen, Machine.run program.next ⟨f, [place .count]⟩ moves =
      .ok (⟨last (f.counters v + 1) ((f.count v).record v line (f.counters v + 1)),
        [place .returned]⟩, seen) := by
  let n := f.counters v + 1
  let recorded := (f.count v).record v line n
  let total := { f.count v with total := f.total + 1 }
  have hcount : step f (place .count) = some (f.count v, place (.total n), .counted v) :=
    hplace _ _
  have htotal : step (f.count v) (place (.total n)) =
      some (total, place (.lastCode n), .totaled v) := hplace _ _
  have hemit : step recorded (place (.emit n)) =
      some (last n recorded, place .returned, .other) := hplace _ _
  have hend : Machine.run program.next ⟨recorded, [place (.emit n)]⟩ [.advance 0] =
      .ok (⟨last n recorded, [place .returned]⟩, [some .other]) := run_single hemit rfl
  by_cases hn : n ≤ kFullReports
  · let code := { total with lastCode := some v }
    have hcode : step total (place (.lastCode n)) = some (code, place (.message n), .other) := by
      rw [hplace, recordStep, if_pos hn]
      rfl
    have hmessage : step code (place (.message n)) =
        some (recorded, place (.emit n), .other) := by
      rw [hplace]
      simp only [recorded, Findings.record, if_pos hn]
      rfl
    exact ⟨_, _, run_single hcount (run_single htotal (run_single hcode (run_single hmessage
      hend)))⟩
  · have hcode : step total (place (.lastCode n)) =
        some (recorded, place (.emit n), .other) := by
      rw [hplace, recordStep, if_neg hn]
      simp only [recorded, Findings.record, if_neg hn]
      rfl
    exact ⟨_, _, run_single hcount (run_single htotal (run_single hcode hend))⟩

/-- The loop over the counters. -/
theorem run_counters (rest : List Violation) :
    ∀ f : Findings, ∃ seen, Machine.run program.next ⟨f, [.clear (.counters rest)]⟩
        (List.replicate rest.length (.advance 0)) =
      .ok (⟨{ f with counters := fun v => if v ∈ rest then 0 else f.counters v },
        [.clear (.counters [])]⟩, seen) := by
  induction rest with
  | nil => exact fun f => ⟨[], rfl⟩
  | cons w rest ih =>
    intro f
    obtain ⟨seen, hrun⟩ := ih { f with counters := Function.update f.counters w 0 }
    have hcounters : (fun v => if v ∈ rest then 0 else Function.update f.counters w 0 v) =
        fun v => if v ∈ w :: rest then 0 else f.counters v := by
      funext v
      by_cases hv : v = w
      · simp [hv]
      · simp [hv]
    rw [hcounters] at hrun
    exact ⟨_, run_single rfl hrun⟩

theorem mem_all (v : Violation) : v ∈ Violation.all := by
  cases v <;> decide

/-- A call that runs from its start to its return with no other call under way does what the
    sequential call does. -/
theorem alone (f : Findings) (call : MonitorCall) :
    ∃ moves pool seen, Machine.run program.next ⟨f, [startPlace call]⟩ moves = .ok (pool, seen) ∧
      pool.shared = f.call call ∧ ∀ c ∈ pool.calls, c.isReturned = true := by
  cases call with
  | report v function detail =>
    obtain ⟨moves, seen, hrun⟩ := run_record (.report v function detail)
      (fun _ _ => rfl) f
    exact ⟨moves, _, seen, hrun, rfl, fun c hc => by rw [List.mem_singleton.mp hc]; rfl⟩
  | note v message =>
    obtain ⟨moves, seen, hrun⟩ := run_record (.note v message) (fun _ _ => rfl) f
    exact ⟨moves, _, seen, hrun, rfl, fun c hc => by rw [List.mem_singleton.mp hc]; rfl⟩
  | clear =>
    obtain ⟨seen, hrun⟩ := run_counters Violation.all f
    have hlast : ∀ g : Findings, ∃ seen,
        Machine.run program.next ⟨g, [.clear (.counters [])]⟩ (List.replicate 3 (.advance 0)) =
          .ok (⟨{ g with total := 0, lastCode := none, lastMessages := fun _ => "" },
            [.clear .returned]⟩, seen) := fun g => ⟨_, rfl⟩
    obtain ⟨seen', hrun'⟩ := hlast { f with counters := fun v =>
      if v ∈ Violation.all then 0 else f.counters v }
    refine ⟨_, _, _, Machine.run_append hrun hrun', ?_, ?_⟩
    · simp only [mem_all, if_true]
      rfl
    · exact fun c hc => by rw [List.mem_singleton.mp hc]; rfl

/-! ## The increments of each finding -/

/-- Behind the counter's `fetch_add`. -/
def RecordPc.hasCounted : RecordPc → Bool
  | .count => false
  | _ => true

/-- Behind the total's `fetch_add`. -/
def RecordPc.hasTotaled : RecordPc → Bool
  | .count | .total _ => false
  | _ => true

namespace Place

/-- The code a finding has raised the counter of. -/
def counted : Place → Option Violation
  | .report v _ _ pc | .note v _ pc => if pc.hasCounted then some v else none
  | .clear _ => none

/-- The code of a finding that has raised the total. -/
def totaled : Place → Option Violation
  | .report v _ _ pc | .note v _ pc => if pc.hasTotaled then some v else none
  | .clear _ => none

end Place

/-- What became of the increments, each with its call and code: those made, and those a clear has
    wiped since. -/
structure Marks where
  counted : Finset (Nat × Violation) := ∅
  totaled : Finset (Nat × Violation) := ∅
  lostCount : Finset (Nat × Violation) := ∅
  lostTotal : Finset (Nat × Violation) := ∅

/-- A step of call `i`. -/
def Marks.see (m : Marks) (i : Nat) : Touch → Marks
  | .counted v => { m with counted := insert (i, v) m.counted }
  | .totaled v => { m with totaled := insert (i, v) m.totaled }
  | .wipedCounter v => { m with lostCount := m.lostCount ∪ m.counted.filter (·.2 = v) }
  | .wipedTotal => { m with lostTotal := m.totaled }
  | .other => m

/-- Someone who keeps the marks while the calls run. -/
def bookkeeper : Machine.Observer Pool Marks (Move MonitorCall) (Option Touch) where
  allows _ _ _ := True
  next m move seen :=
    match move, seen with
    | .advance i, some touch => m.see i touch
    | _, _ => m

/-- What a step does to the counters, the total and the call. -/
inductive Accounts (f f' : Findings) (c c' : Place) : Touch → Prop where
  | counted {v : Violation} : c.counted = none → c.totaled = none → c'.counted = some v →
      c'.totaled = none → f'.counters = Function.update f.counters v (f.counters v + 1) →
      f'.total = f.total → Accounts f f' c c' (.counted v)
  | totaled {v : Violation} : c.counted = some v → c.totaled = none → c'.counted = some v →
      c'.totaled = some v → f'.counters = f.counters → f'.total = f.total + 1 →
      Accounts f f' c c' (.totaled v)
  | wipedCounter {v : Violation} : c'.counted = c.counted → c'.totaled = c.totaled →
      f'.counters = Function.update f.counters v 0 → f'.total = f.total →
      Accounts f f' c c' (.wipedCounter v)
  | wipedTotal : c'.counted = c.counted → c'.totaled = c.totaled → f'.counters = f.counters →
      f'.total = 0 → Accounts f f' c c' .wipedTotal
  | other : c'.counted = c.counted → c'.totaled = c.totaled → f'.counters = f.counters →
      f'.total = f.total → Accounts f f' c c' .other

section Steps

variable {f f' : Findings} {c c' : Place} {touch : Touch}

theorem recordStep_accounts {v : Violation} {line : String} {last : UInt32 → Findings → Findings}
    (place : RecordPc → Place) {pc pc' : RecordPc}
    (hcounted : ∀ pc, (place pc).counted = if pc.hasCounted then some v else none)
    (htotaled : ∀ pc, (place pc).totaled = if pc.hasTotaled then some v else none)
    (hlast : ∀ n g, (last n g).counters = g.counters ∧ (last n g).total = g.total)
    (h : recordStep v line last f pc = some (f', pc', touch)) :
    Accounts f f' (place pc) (place pc') touch := by
  cases pc with
  | count => cases h; exact .counted (hcounted _) (htotaled _) (hcounted _) (htotaled _) rfl rfl
  | total n => cases h; exact .totaled (hcounted _) (htotaled _) (hcounted _) (htotaled _) rfl rfl
  | lastCode n =>
    rw [recordStep] at h
    cases h
    refine .other ?_ ?_ rfl rfl
    · rw [hcounted, hcounted]
      split <;> rfl
    · rw [htotaled, htotaled]
      split <;> rfl
  | message n =>
    cases h
    exact .other ((hcounted _).trans (hcounted (.message n)).symm)
      ((htotaled _).trans (htotaled (.message n)).symm) rfl rfl
  | emit n =>
    cases h
    exact .other ((hcounted _).trans (hcounted (.emit n)).symm)
      ((htotaled _).trans (htotaled (.emit n)).symm) (hlast n f).1 (hlast n f).2
  | returned => cases h

theorem step_accounts (h : step f c = some (f', c', touch)) : Accounts f f' c c' touch := by
  cases c with
  | report v function detail pc =>
    obtain ⟨⟨g, pc', t⟩, hr, heq⟩ := Option.map_eq_some_iff.mp h
    cases heq
    refine recordStep_accounts (.report v function detail) (fun _ => rfl) (fun _ => rfl)
      (fun n g => ?_) hr
    unfold emitReport
    split_ifs <;> exact ⟨rfl, rfl⟩
  | note v message pc =>
    obtain ⟨⟨g, pc', t⟩, hr, heq⟩ := Option.map_eq_some_iff.mp h
    cases heq
    exact recordStep_accounts (.note v message) (fun _ => rfl) (fun _ => rfl)
      (fun n g => ⟨rfl, rfl⟩) hr
  | clear pc =>
    obtain ⟨⟨g, pc', t⟩, hr, heq⟩ := Option.map_eq_some_iff.mp h
    cases heq
    cases pc with
    | counters rest =>
      cases rest with
      | nil => cases hr; exact .wipedTotal rfl rfl rfl rfl
      | cons v rest => cases hr; exact .wipedCounter rfl rfl rfl rfl
    | lastCode => cases hr; exact .other rfl rfl rfl rfl
    | messages => cases hr; exact .other rfl rfl rfl rfl
    | returned => cases hr

end Steps

/-! ## The tallies -/

/-- How many findings of code `v` are in the set. -/
def codeCount (marks : Finset (Nat × Violation)) (v : Violation) : Nat :=
  (marks.filter (·.2 = v)).card

/-- Counters and total are what clears have left of the increments. -/
structure Tallies (pool : Pool) (m : Marks) : Prop where
  counters : ∀ v, pool.shared.counters v = UInt32.ofNat (codeCount (m.counted \ m.lostCount) v)
  total : pool.shared.total = UInt32.ofNat (m.totaled \ m.lostTotal).card
  counted : ∀ i v, (i, v) ∈ m.counted ↔ pool.calls[i]?.bind Place.counted = some v
  totaled : ∀ i v, (i, v) ∈ m.totaled ↔ pool.calls[i]?.bind Place.totaled = some v
  lostCount : m.lostCount ⊆ m.counted
  lostTotal : m.lostTotal ⊆ m.totaled

section Sets

variable {marks lost : Finset (Nat × Violation)} {i : Nat} {v w : Violation}

theorem codeCount_insert (h : (i, v) ∉ marks) :
    codeCount (insert (i, v) marks) w = codeCount marks w + if w = v then 1 else 0 := by
  unfold codeCount
  rw [Finset.filter_insert]
  by_cases hw : w = v
  · rw [if_pos hw.symm, if_pos hw, Finset.card_insert_of_notMem]
    exact fun hmem => h (Finset.mem_filter.mp hmem).1
  · rw [if_neg (fun hv => hw hv.symm), if_neg hw, Nat.add_zero]

theorem codeCount_wiped : codeCount (marks \ (lost ∪ marks.filter (·.2 = v))) w =
    if w = v then 0 else codeCount (marks \ lost) w := by
  unfold codeCount
  by_cases hw : w = v
  · rw [if_pos hw, Finset.card_eq_zero, Finset.filter_eq_empty_iff]
    intro x hx hcode
    simp only [Finset.mem_sdiff, Finset.mem_union, Finset.mem_filter, not_or, not_and] at hx
    exact hx.2.2 hx.1 (hcode.trans hw)
  · rw [if_neg hw]
    congr 1
    ext x
    simp only [Finset.mem_filter, Finset.mem_sdiff, Finset.mem_union, not_or, not_and]
    constructor
    · exact fun h => ⟨⟨h.1.1, h.1.2.1⟩, h.2⟩
    · exact fun h => ⟨⟨h.1.1, h.1.2, fun _ hv => hw (h.2.symm.trans hv)⟩, h.2⟩

/-- The counters together. -/
theorem sum_codeCount (marks : Finset (Nat × Violation)) :
    (Violation.all.map (codeCount marks)).sum = marks.card := by
  induction marks using Finset.induction_on with
  | empty => rfl
  | insert x marks hx ih =>
    obtain ⟨i, v⟩ := x
    have hone : (Violation.all.map fun w => if w = v then 1 else 0).sum = 1 := by
      cases v <;> rfl
    have hinsert : codeCount (insert (i, v) marks) =
        fun w => codeCount marks w + if w = v then 1 else 0 := funext fun w => codeCount_insert hx
    rw [hinsert, List.sum_map_add, ih, hone, Finset.card_insert_of_notMem hx]

theorem sum_ofNat (g : Violation → Nat) (codes : List Violation) :
    (codes.map fun v => UInt32.ofNat (g v)).sum = UInt32.ofNat (codes.map g).sum := by
  induction codes with
  | nil => rfl
  | cons v codes ih => rw [List.map_cons, List.sum_cons, ih, List.map_cons, List.sum_cons,
      UInt32.ofNat_add]

end Sets

section Calls

variable {calls : List Place} {c c' : Place} {i j : Nat} {g : Place → Option Violation}

theorem bind_append (hc : g c = none) : (calls ++ [c])[j]?.bind g = calls[j]?.bind g := by
  rcases Nat.lt_or_ge j calls.length with hj | hj
  · rw [List.getElem?_append_left hj]
  · rw [List.getElem?_append_right hj, List.getElem?_eq_none hj]
    cases hk : [c][j - calls.length]? with
    | none => rfl
    | some d =>
      rw [List.mem_singleton.mp (List.mem_of_getElem? hk)]
      exact hc

theorem bind_set_self (hc : calls[i]? = some c) : (calls.set i c')[i]?.bind g = g c' := by
  rw [List.getElem?_set_self (List.getElem?_eq_some_iff.mp hc).1]
  rfl

theorem bind_set_same (hc : calls[i]? = some c) (hg : g c' = g c) :
    (calls.set i c')[j]?.bind g = calls[j]?.bind g := by
  by_cases hij : i = j
  · subst hij
    rw [bind_set_self hc, hc, hg]
    rfl
  · rw [List.getElem?_set_ne hij]

/-- The set of findings grows with the call that makes an increment. -/
theorem mem_insert_iff {marks : Finset (Nat × Violation)} {v : Violation}
    (hmarks : ∀ j w, (j, w) ∈ marks ↔ calls[j]?.bind g = some w) (hc : calls[i]? = some c)
    (hbefore : g c = none) (hbehind : g c' = some v) :
    ∀ j w, (j, w) ∈ insert (i, v) marks ↔ (calls.set i c')[j]?.bind g = some w := by
  intro j w
  rw [Finset.mem_insert, hmarks]
  by_cases hij : i = j
  · subst hij
    rw [bind_set_self hc, hbehind, hc]
    simp [hbefore, eq_comm]
  · rw [List.getElem?_set_ne hij]
    simp [Ne.symm hij]

end Calls

section Runs

variable {pool pool' : Pool} {m : Marks}

theorem not_mem_of_none {marks : Finset (Nat × Violation)} {g : Place → Option Violation}
    {calls : List Place} {i : Nat} {c : Place} {v : Violation}
    (hmarks : ∀ j w, (j, w) ∈ marks ↔ calls[j]?.bind g = some w) (hc : calls[i]? = some c)
    (hnone : g c = none) : (i, v) ∉ marks := by
  rw [hmarks, hc]
  simp [hnone]

theorem tallies_advance {i : Nat} {c c' : Place} {f : Findings} {touch : Touch}
    (h : Tallies pool m) (hc : pool.calls[i]? = some c)
    (hdoes : Accounts pool.shared f c c' touch) :
    Tallies ⟨f, pool.calls.set i c'⟩ (m.see i touch) := by
  cases hdoes with
  | @counted v hcounted htotaled hcounted' htotaled' hcounters htotal =>
    have hnew := not_mem_of_none (v := v) h.counted hc hcounted
    have hkept : (i, v) ∉ m.lostCount := fun hmem => hnew (h.lostCount hmem)
    refine ⟨fun w => ?_, ?_, mem_insert_iff h.counted hc hcounted hcounted', fun j w => ?_,
      h.lostCount.trans (Finset.subset_insert _ _), h.lostTotal⟩
    · have hcount : (i, v) ∉ m.counted \ m.lostCount := fun hmem =>
        hnew (Finset.mem_sdiff.mp hmem).1
      show f.counters w = UInt32.ofNat (codeCount (insert (i, v) m.counted \ m.lostCount) w)
      rw [hcounters, Finset.insert_sdiff_of_notMem _ hkept, codeCount_insert hcount,
        UInt32.ofNat_add, ← h.counters]
      by_cases hw : w = v
      · subst hw
        rw [Function.update_self, if_pos rfl]
        rfl
      · rw [Function.update_of_ne hw, if_neg hw]
        exact (UInt32.add_zero _).symm
    · exact htotal.trans h.total
    · rw [bind_set_same hc (htotaled'.trans htotaled.symm)]
      exact h.totaled j w
  | @totaled v hcounted htotaled hcounted' htotaled' hcounters htotal =>
    have hnew := not_mem_of_none (v := v) h.totaled hc htotaled
    have hkept : (i, v) ∉ m.lostTotal := fun hmem => hnew (h.lostTotal hmem)
    refine ⟨fun w => (congrFun hcounters w).trans (h.counters w), ?_, fun j w => ?_,
      mem_insert_iff h.totaled hc htotaled htotaled', h.lostCount,
      h.lostTotal.trans (Finset.subset_insert _ _)⟩
    · have hcount : (i, v) ∉ m.totaled \ m.lostTotal := fun hmem =>
        hnew (Finset.mem_sdiff.mp hmem).1
      show f.total = UInt32.ofNat (insert (i, v) m.totaled \ m.lostTotal).card
      rw [htotal, Finset.insert_sdiff_of_notMem _ hkept, Finset.card_insert_of_notMem hcount,
        UInt32.ofNat_add, ← h.total]
      rfl
    · rw [bind_set_same hc (hcounted'.trans hcounted.symm)]
      exact h.counted j w
  | @wipedCounter v hcounted htotaled hcounters htotal =>
    refine ⟨fun w => ?_, htotal.trans h.total, fun j w => ?_, fun j w => ?_,
      Finset.union_subset h.lostCount (Finset.filter_subset _ _), h.lostTotal⟩
    · show f.counters w = UInt32.ofNat
        (codeCount (m.counted \ (m.lostCount ∪ m.counted.filter (·.2 = v))) w)
      rw [hcounters, codeCount_wiped]
      by_cases hw : w = v
      · subst hw
        rw [Function.update_self, if_pos rfl]
        rfl
      · rw [Function.update_of_ne hw, if_neg hw]
        exact h.counters w
    · rw [bind_set_same hc hcounted]
      exact h.counted j w
    · rw [bind_set_same hc htotaled]
      exact h.totaled j w
  | wipedTotal hcounted htotaled hcounters htotal =>
    refine ⟨fun w => (congrFun hcounters w).trans (h.counters w), ?_, fun j w => ?_,
      fun j w => ?_, h.lostCount, Finset.Subset.refl _⟩
    · show f.total = UInt32.ofNat (m.totaled \ m.totaled).card
      rw [htotal, Finset.sdiff_self]
      rfl
    · rw [bind_set_same hc hcounted]
      exact h.counted j w
    · rw [bind_set_same hc htotaled]
      exact h.totaled j w
  | other hcounted htotaled hcounters htotal =>
    refine ⟨fun w => (congrFun hcounters w).trans (h.counters w), htotal.trans h.total,
      fun j w => ?_, fun j w => ?_, h.lostCount, h.lostTotal⟩
    · rw [bind_set_same hc hcounted]
      exact h.counted j w
    · rw [bind_set_same hc htotaled]
      exact h.totaled j w

theorem startPlace_unmarked (call : MonitorCall) :
    (startPlace call).counted = none ∧ (startPlace call).totaled = none := by
  cases call <;> exact ⟨rfl, rfl⟩

theorem tallies_next {move : Move MonitorCall} {seen : Option Touch} (h : Tallies pool m)
    (hnext : program.next pool move = .ok (pool', seen)) :
    Tallies pool' (bookkeeper.next m move seen) := by
  rcases next_cases hnext with
    ⟨call, rfl, -, rfl, rfl⟩ | ⟨i, c, f, c', touch, rfl, hc, hs, rfl, rfl⟩
  · obtain ⟨hcounted, htotaled⟩ := startPlace_unmarked call
    refine ⟨h.counters, h.total, fun j w => ?_, fun j w => ?_, h.lostCount, h.lostTotal⟩
    · show _ ↔ (pool.calls ++ [startPlace call])[j]?.bind Place.counted = some w
      rw [bind_append hcounted]
      exact h.counted j w
    · show _ ↔ (pool.calls ++ [startPlace call])[j]?.bind Place.totaled = some w
      rw [bind_append htotaled]
      exact h.totaled j w
  · exact tallies_advance h hc (step_accounts hs)

theorem tallies_run {moves : List (Move MonitorCall)}
    (h : Machine.ObservedRun program.next bookkeeper { shared := {} } {} moves pool m) :
    Tallies pool m := by
  refine h.invariant (fun _ _ _ _ _ ht _ hnext => tallies_next ht hnext) ?_
  refine ⟨fun v => rfl, rfl, fun i v => ?_, fun i v => ?_, Finset.Subset.refl _,
    Finset.Subset.refl _⟩
  · simp
  · simp

/-- Every finding that has returned has made both increments. -/
theorem counted_eq_totaled (h : Tallies pool m) (hquiet : ∀ c ∈ pool.calls, c.isReturned = true) :
    m.totaled = m.counted := by
  ext ⟨i, v⟩
  rw [h.totaled, h.counted]
  cases hc : pool.calls[i]? with
  | none => rfl
  | some c =>
    have hreturned := hquiet c (List.mem_of_getElem? hc)
    have hsame : c.totaled = c.counted := by
      cases c with
      | report w function detail pc => cases pc <;> first | rfl | cases hreturned
      | note w message pc => cases pc <;> first | rfl | cases hreturned
      | clear pc => rfl
    show c.totaled = some v ↔ c.counted = some v
    rw [hsame]

theorem sum_of_tallies (h : Tallies pool m) : (Violation.all.map pool.shared.counters).sum =
    UInt32.ofNat (m.counted \ m.lostCount).card := by
  rw [show pool.shared.counters = _ from funext h.counters, sum_ofNat, sum_codeCount]

theorem total_of_tallies (h : Tallies pool m) (hquiet : ∀ c ∈ pool.calls, c.isReturned = true) :
    pool.shared.total = UInt32.ofNat (m.counted \ m.lostTotal).card := by
  rw [h.total, counted_eq_totaled h hquiet]

/-- In every run from a new monitor, whenever no call is in progress: the total is the sum of the
    counters exactly if as many findings have lost only their counter's increment to a clear as
    have lost only their increment of the total. -/
theorem total_eq_sum_iff {moves : List (Move MonitorCall)}
    (h : Machine.ObservedRun program.next bookkeeper { shared := {} } {} moves pool m)
    (hquiet : ∀ c ∈ pool.calls, c.isReturned = true) :
    pool.shared.total = (Violation.all.map pool.shared.counters).sum ↔
      (m.lostCount \ m.lostTotal).card % 2 ^ 32 = (m.lostTotal \ m.lostCount).card % 2 ^ 32 := by
  have ht := tallies_run h
  have hsame := counted_eq_totaled ht hquiet
  have hcount := Finset.card_sdiff_add_card_eq_card ht.lostCount
  have htot := Finset.card_sdiff_add_card_eq_card (hsame ▸ ht.lostTotal)
  have hleft := Finset.card_sdiff_add_card_inter m.lostCount m.lostTotal
  have hright := Finset.card_sdiff_add_card_inter m.lostTotal m.lostCount
  rw [Finset.inter_comm] at hright
  rw [total_of_tallies ht hquiet, sum_of_tallies ht, ← UInt32.toNat_inj, UInt32.toNat_ofNat',
    UInt32.toNat_ofNat']
  omega

end Runs

/-! ## The order of the steps -/

/-- What the steps of the calls did, each with its call, oldest first. -/
def stepsOf : List (Move MonitorCall) → List (Option Touch) → List (Nat × Touch)
  | .advance i :: moves, some touch :: seen => (i, touch) :: stepsOf moves seen
  | _ :: moves, _ :: seen => stepsOf moves seen
  | _, _ => []

/-- One step comes somewhere before the other. -/
def Before (steps : List (Nat × Touch)) (s t : Nat × Touch) : Prop := [s, t].Sublist steps

/-- The marks behind the steps. -/
def marksOf (steps : List (Nat × Touch)) (m : Marks) : Marks :=
  steps.foldl (fun m s => m.see s.1 s.2) m

section Order

variable {steps : List (Nat × Touch)} {s t u : Nat × Touch} {i j : Nat} {v : Violation}

theorem Before.mem (h : Before steps s t) : s ∈ steps := h.subset List.mem_cons_self

theorem before_concat : Before (steps ++ [u]) s t ↔ Before steps s t ∨ s ∈ steps ∧ t = u := by
  constructor
  · intro h
    obtain ⟨front, back, hsplit, hfront, hback⟩ := List.sublist_append_iff.mp h
    rcases List.sublist_singleton.mp hback with rfl | rfl
    · rw [List.append_nil] at hsplit
      subst hsplit
      exact .inl hfront
    · have hpair : [s] ++ [t] = front ++ [u] := hsplit
      obtain ⟨rfl, hlast⟩ := List.append_inj' hpair rfl
      exact .inr ⟨List.singleton_sublist.mp hfront, List.singleton_inj.mp hlast⟩
  · rintro (h | ⟨hs, rfl⟩)
    · exact h.trans (List.sublist_append_left _ _)
    · exact (List.singleton_sublist.mpr hs).append (List.Sublist.refl [t])

theorem marksOf_concat (m : Marks) : marksOf (steps ++ [u]) m = (marksOf steps m).see u.1 u.2 :=
  List.foldl_append

theorem mem_counted : (j, v) ∈ (marksOf steps {}).counted ↔ (j, .counted v) ∈ steps := by
  induction steps using List.reverseRecOn with
  | nil => simp [marksOf]
  | append_singleton steps u ih =>
    obtain ⟨k, touch⟩ := u
    rw [marksOf_concat]
    cases touch <;> simp [Marks.see, ih, or_comm]

theorem mem_totaled : (j, v) ∈ (marksOf steps {}).totaled ↔ (j, .totaled v) ∈ steps := by
  induction steps using List.reverseRecOn with
  | nil => simp [marksOf]
  | append_singleton steps u ih =>
    obtain ⟨k, touch⟩ := u
    rw [marksOf_concat]
    cases touch <;> simp [Marks.see, ih, or_comm]

/-- The counter's increment is lost to a reset of the counter behind it. -/
theorem mem_lostCount : (j, v) ∈ (marksOf steps {}).lostCount ↔
    ∃ i, Before steps (j, .counted v) (i, .wipedCounter v) := by
  induction steps using List.reverseRecOn with
  | nil => simp [marksOf, Before]
  | append_singleton steps u ih =>
    obtain ⟨k, touch⟩ := u
    rw [marksOf_concat]
    simp only [before_concat, exists_or, ← ih]
    cases touch with
    | wipedCounter w => simp [Marks.see, mem_counted, eq_comm]
    | _ => simp [Marks.see]

/-- The increment of the total is lost to a reset of the total behind it. -/
theorem mem_lostTotal : (j, v) ∈ (marksOf steps {}).lostTotal ↔
    ∃ i, Before steps (j, .totaled v) (i, .wipedTotal) := by
  induction steps using List.reverseRecOn with
  | nil => simp [marksOf, Before]
  | append_singleton steps u ih =>
    obtain ⟨k, touch⟩ := u
    rw [marksOf_concat]
    simp only [before_concat, exists_or, ← ih]
    cases touch with
    | wipedTotal =>
      have hlost : (j, v) ∈ (marksOf steps {}).lostTotal → (j, .totaled v) ∈ steps := fun h =>
        (ih.mp h).elim fun _ hbefore => hbefore.mem
      simpa [Marks.see, mem_totaled] using hlost
    | _ => simp [Marks.see]

/-- The bookkeeper's marks are those of the steps. -/
theorem observed_marksOf {moves : List (Move MonitorCall)} {seen : List (Option Touch)} :
    ∀ {pool pool' : Pool} {m : Marks},
      Machine.run program.next pool moves = .ok (pool', seen) →
      Machine.ObservedRun program.next bookkeeper pool m moves pool'
        (marksOf (stepsOf moves seen) m) := by
  induction moves generalizing seen with
  | nil =>
    intro pool pool' m h
    cases h
    exact .nil pool m
  | cons move moves ih =>
    intro pool pool' m h
    obtain ⟨pool₁, o, seen, hs, hrest, rfl⟩ := Machine.run_cons_ok h
    have hobserved := @ih seen _ _ (bookkeeper.next m move o) hrest
    have hmarks : marksOf (stepsOf (move :: moves) (o :: seen)) m =
        marksOf (stepsOf moves seen) (bookkeeper.next m move o) := by
      cases move <;> cases o <;> rfl
    rw [hmarks]
    exact .cons trivial hs hobserved

/-- Whenever no call is in progress, the total is the sum of the counters if every clear has kept to
    one side of every finding: its reset of the counter comes behind the finding's increment of the
    counter exactly if its reset of the total comes behind the finding's increment of the total. -/
theorem total_eq_sum_of_order {moves : List (Move MonitorCall)} {pool : Pool}
    {seen : List (Option Touch)}
    (hrun : Machine.run program.next { shared := {} } moves = .ok (pool, seen))
    (hquiet : ∀ c ∈ pool.calls, c.isReturned = true)
    (horder : ∀ i j v, Before (stepsOf moves seen) (j, .counted v) (i, .wipedCounter v) ↔
      Before (stepsOf moves seen) (j, .totaled v) (i, .wipedTotal)) :
    pool.shared.total = (Violation.all.map pool.shared.counters).sum := by
  have h := tallies_run (observed_marksOf hrun)
  have hsame : (marksOf (stepsOf moves seen) {}).lostTotal =
      (marksOf (stepsOf moves seen) {}).lostCount := by
    ext ⟨j, v⟩
    rw [mem_lostTotal, mem_lostCount]
    exact exists_congr fun i => (horder i j v).symm
  rw [total_of_tallies h hquiet, sum_of_tallies h, hsame]

end Order

/-! ## A clear between the two increments -/

/-- A report raises its counter, a clear runs, and the report goes on to the total. -/
def clearInside : List (Move MonitorCall) :=
  .enter (.report .L03 "activate()" "called while already active") :: .advance 0 ::
    .enter .clear :: List.replicate 47 (.advance 1) ++ List.replicate 4 (.advance 0)

theorem total_eq_sum_iff_clearInside :
    ∃ pool m, Machine.ObservedRun program.next bookkeeper { shared := {} } {} clearInside pool m ∧
      (pool.shared.total = (Violation.all.map pool.shared.counters).sum ↔
        (m.lostCount \ m.lostTotal).card % 2 ^ 32 =
          (m.lostTotal \ m.lostCount).card % 2 ^ 32) := by
  obtain ⟨r, hr⟩ : ∃ r, Machine.run program.next { shared := {} } clearInside = .ok r := ⟨_, rfl⟩
  have hquiet : ∀ c ∈ r.1.calls, c.isReturned = true := by
    cases hr
    decide +kernel
  obtain ⟨m, hm⟩ : ∃ m, Machine.ObservedRun program.next bookkeeper { shared := {} } {}
      clearInside r.1 m := Machine.observed_of_run (fun _ _ _ => trivial) hr
  exact ⟨r.1, m, hm, total_eq_sum_iff hm hquiet⟩

theorem clearInside_differs :
    ∃ pool seen, Machine.run program.next { shared := {} } clearInside = .ok (pool, seen) ∧
      (∀ c ∈ pool.calls, c.isReturned = true) ∧ pool.shared.total = 1 ∧
      (Violation.all.map pool.shared.counters).sum = 0 := by
  exact ⟨_, _, rfl, by decide +kernel, rfl, by decide +kernel⟩

end Cvp.Monitor
