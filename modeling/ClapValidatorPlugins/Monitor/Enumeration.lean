/-
  The query extension: `distinct` counts the codes with a non-zero counter, `getEntry` walks to
  the one of an index. Two scans of the same counters, with no list behind them. Both speak of
  `occurring`, the codes with a count in enum order (`getEntry_eq`, `distinct_eq`), so a harness
  that asks for the entries below `distinct()` gets each code once (`getEntry_enumerates`).
-/
import ClapValidatorPlugins.Monitor.History
import Mathlib.Data.List.Nodup
import Mathlib.Data.UInt

namespace Cvp

/-- The place of a code in the enumeration. -/
def Violation.index (v : Violation) : Nat := Violation.all.idxOf v

namespace Findings

/-- The codes with a non-zero counter, in enum order. -/
def occurring (f : Findings) : List Violation := Violation.all.filter fun v => f.counters v ≠ 0

/-- What a harness is told about one code. -/
def entry (f : Findings) (v : Violation) : ViolationEntry :=
  ⟨violationCode v, f.counters v, f.lastMessages v⟩

theorem mem_occurring (f : Findings) (v : Violation) : v ∈ f.occurring ↔ f.counters v ≠ 0 := by
  have hall : v ∈ Violation.all := by cases v <;> decide
  simp [occurring, hall]

theorem length_occurring_le (f : Findings) : f.occurring.length ≤ 44 :=
  List.length_filter_le _ _

/-! ## The two scans -/

/-- No code is cut by the eight bytes an entry has for it. -/
theorem snprintf_violationCode (v : Violation) :
    snprintf 8 (violationCode v) = violationCode v := by
  cases v <;> rfl

/-- Behind `seen` codes the loop looks for the code `index - seen` of the rest. -/
theorem entryFrom_eq (f : Findings) (index : UInt32) (vs : List Violation) :
    ∀ seen : UInt32, seen ≤ index → seen.toNat + vs.length < 2 ^ 32 →
      f.entryFrom index seen vs =
        (vs.filter fun v => f.counters v ≠ 0)[index.toNat - seen.toNat]?.map f.entry := by
  induction vs with
  | nil => exact fun seen _ _ => rfl
  | cons v vs ih =>
    intro seen hle hlt
    rw [List.length_cons] at hlt
    have hle' : seen.toNat ≤ index.toNat := UInt32.le_iff_toNat_le.mp hle
    unfold entryFrom
    by_cases hzero : f.counters v = 0
    · rw [if_pos hzero, ih seen hle (by omega)]
      simp [hzero]
    · rw [if_neg hzero]
      by_cases hseen : seen = index
      · subst hseen
        simp [hzero, entry, snprintf_violationCode]
      · have hne : seen.toNat ≠ index.toNat := fun h => hseen (UInt32.toNat_inj.mp h)
        have hsucc : (seen + 1).toNat = seen.toNat + 1 := toNat_succ rfl (by omega)
        have hle1 : seen + 1 ≤ index := by
          rw [UInt32.le_iff_toNat_le, hsucc]
          omega
        have hstep : index.toNat - seen.toNat = index.toNat - (seen + 1).toNat + 1 := by omega
        rw [if_neg hseen, ih (seen + 1) hle1 (by omega), hstep]
        simp [hzero]

theorem getEntry_eq (f : Findings) (index : UInt32) :
    f.getEntry index = f.occurring[index.toNat]?.map f.entry :=
  entryFrom_eq f index Violation.all 0 (UInt32.zero_le) (by decide)

theorem distinct_eq (f : Findings) : f.distinct = UInt32.ofNat f.occurring.length := by
  have hloop : ∀ (vs : List Violation) (n : UInt32),
      vs.foldl (fun n v => if 0 < f.counters v then n + 1 else n) n =
        n + UInt32.ofNat (vs.filter fun v => f.counters v ≠ 0).length := by
    intro vs
    induction vs with
    | nil => exact fun n => (UInt32.add_zero n).symm
    | cons v vs ih =>
      intro n
      rw [List.foldl_cons, ih]
      by_cases hzero : f.counters v = 0
      · simp [hzero]
      · have hpos : 0 < f.counters v := UInt32.pos_iff_ne_zero.mpr hzero
        simp [hzero, hpos, UInt32.ofNat_add, UInt32.add_assoc, UInt32.add_comm]
  exact (hloop Violation.all 0).trans (UInt32.zero_add _)

theorem toNat_ofNat_index (f : Findings) {i : Nat} (h : i ≤ f.occurring.length) :
    (UInt32.ofNat i).toNat = i := by
  have hle := length_occurring_le f
  exact UInt32.toNat_ofNat_of_lt' (by show _ < 2 ^ 32; omega)

theorem toNat_distinct (f : Findings) : f.distinct.toNat = f.occurring.length := by
  rw [distinct_eq, toNat_ofNat_index f (le_refl _)]

/-! ## The order -/

theorem occurring_sorted (f : Findings) :
    f.occurring.Pairwise fun v w => v.index < w.index ∧ violationCode v ≠ violationCode w := by
  have hall : Violation.all.Pairwise fun v w =>
      v.index < w.index ∧ violationCode v ≠ violationCode w := by decide
  exact hall.sublist List.filter_sublist

theorem violationCode_inj {v w : Violation} (h : violationCode v = violationCode w) : v = w := by
  have hnodup : (Violation.all.map violationCode).Nodup := by decide
  have hall : ∀ v : Violation, v ∈ Violation.all := fun v => by cases v <;> decide
  exact List.inj_on_of_nodup_map hnodup (hall v) (hall w) h

/-! ## The sum -/

/-- The counters add up to the total. -/
def Balanced (f : Findings) : Prop := (Violation.all.map f.counters).sum = f.total

/-- One more count of one code is one more in the sum. -/
theorem sum_update (c : Violation → UInt32) (v : Violation) :
    (Violation.all.map (Function.update c v (c v + 1))).sum = (Violation.all.map c).sum + 1 := by
  have hone : ∀ w, Function.update c v (c v + 1) w = c w + if v = w then 1 else 0 := by
    intro w
    by_cases hw : v = w
    · subst hw
      rw [Function.update_self, if_pos rfl]
    · rw [Function.update_of_ne (Ne.symm hw), if_neg hw, UInt32.add_zero]
  have hsum : (Violation.all.map fun w => if v = w then (1 : UInt32) else 0).sum = 1 := by
    cases v <;> rfl
  have hadd : ∀ (vs : List Violation) (d : Violation → UInt32),
      (vs.map fun w => c w + d w).sum = (vs.map c).sum + (vs.map d).sum := by
    intro vs d
    induction vs with
    | nil => rfl
    | cons v vs ih =>
      simp only [List.map_cons, List.sum_cons, ih]
      ac_rfl
  rw [funext hone, hadd, hsum]

theorem balanced_call (call : MonitorCall) {f : Findings} (h : f.Balanced) :
    (f.call call).Balanced := by
  cases call with
  | report v function detail =>
    show (Violation.all.map (f.report v function detail).counters).sum = _
    rw [report_counters, sum_update, h]
    exact (report_total f v function detail).symm
  | note v message =>
    show (Violation.all.map (f.note v message).counters).sum = _
    rw [note_counters, sum_update, h]
    rfl
  | clear =>
    show (Violation.all.map fun _ => (0 : UInt32)).sum = 0
    decide

theorem balanced_after (calls : List MonitorCall) : (after calls).Balanced := by
  induction calls using List.reverseRecOn with
  | nil =>
    show (Violation.all.map fun _ => (0 : UInt32)).sum = 0
    decide
  | append_singleton calls call ih =>
    rw [after_append]
    exact balanced_call call ih

/-- Codes without a count add nothing. -/
theorem sum_occurring (f : Findings) :
    (f.occurring.map f.counters).sum = (Violation.all.map f.counters).sum := by
  have hfilter : ∀ vs : List Violation,
      ((vs.filter fun v => f.counters v ≠ 0).map f.counters).sum = (vs.map f.counters).sum := by
    intro vs
    induction vs with
    | nil => rfl
    | cons v vs ih =>
      by_cases hzero : f.counters v = 0
      · simp only [List.map_cons, List.sum_cons, hzero, UInt32.zero_add, ← ih]
        simp [hzero]
      · simp only [List.map_cons, List.sum_cons, ← ih]
        simp [hzero]
  exact hfilter Violation.all

/-- The counts of all entries, in the order of their indices. -/
def entryCounts (f : Findings) : List UInt32 :=
  (List.range f.distinct.toNat).filterMap fun i =>
    (f.getEntry (UInt32.ofNat i)).map ViolationEntry.count

theorem entryCounts_eq (f : Findings) : f.entryCounts = f.occurring.map f.counters := by
  have hcount : ∀ i ∈ List.range f.occurring.length,
      (f.getEntry (UInt32.ofNat i)).map ViolationEntry.count =
        (f.occurring.map f.counters)[i]? := by
    intro i hi
    rw [getEntry_eq, toNat_ofNat_index f (List.mem_range.mp hi).le, Option.map_map,
      List.getElem?_map]
    rfl
  have hrange : ∀ l : List UInt32, (List.range l.length).filterMap (fun i => l[i]?) = l := by
    intro l
    induction l with
    | nil => rfl
    | cons x xs ih =>
      rw [List.length_cons, List.range_succ_eq_map]
      simpa [List.filterMap_map, Function.comp_def] using ih
  rw [entryCounts, toNat_distinct, List.filterMap_congr hcount]
  simpa using hrange (f.occurring.map f.counters)

/-- The entries a harness reads with `get(0) … get(distinct() - 1)`: there are no others, they are
    those of the codes with a count, each once and in enum order, and in every state of a run of
    `report`, `note` and `clear` their counts add up to the total, modulo 2^32. -/
theorem getEntry_enumerates (f : Findings) :
    (∀ i, (f.getEntry i).isSome ↔ i < f.distinct) ∧
    (∀ i e, f.getEntry i = some e →
      ∃ v, f.counters v ≠ 0 ∧ e = ⟨violationCode v, f.counters v, f.lastMessages v⟩) ∧
    (∀ v, f.counters v ≠ 0 →
      ∃ i, f.getEntry i = some ⟨violationCode v, f.counters v, f.lastMessages v⟩) ∧
    (∀ i j v w e e', i < j → f.getEntry i = some e → f.getEntry j = some e' →
      e.code = violationCode v → e'.code = violationCode w →
      v.index < w.index ∧ e.code ≠ e'.code) ∧
    ∀ calls, f = after calls → f.entryCounts.sum = f.total := by
  have hentry : ∀ {i : UInt32} {e : ViolationEntry}, f.getEntry i = some e →
      ∃ h : i.toNat < f.occurring.length, e = f.entry f.occurring[i.toNat] := by
    intro i e he
    rw [getEntry_eq, Option.map_eq_some_iff] at he
    obtain ⟨v, hv, rfl⟩ := he
    obtain ⟨hi, hv⟩ := List.getElem?_eq_some_iff.mp hv
    exact ⟨hi, by rw [hv]⟩
  refine ⟨fun i => ?_, fun i e he => ?_, fun v hv => ?_, ?_, ?_⟩
  · rw [getEntry_eq, Option.isSome_map, UInt32.lt_iff_toNat_lt, toNat_distinct]
    simp
  · obtain ⟨hi, rfl⟩ := hentry he
    exact ⟨_, (mem_occurring f _).mp (List.getElem_mem hi), rfl⟩
  · obtain ⟨i, hi, hv⟩ := List.getElem_of_mem ((mem_occurring f v).mpr hv)
    refine ⟨UInt32.ofNat i, ?_⟩
    rw [getEntry_eq, toNat_ofNat_index f hi.le, List.getElem?_eq_getElem hi, hv]
    rfl
  · intro i j v w e e' hij hi hj hv hw
    obtain ⟨hi', rfl⟩ := hentry hi
    obtain ⟨hj', rfl⟩ := hentry hj
    obtain rfl := violationCode_inj hv
    obtain rfl := violationCode_inj hw
    exact List.pairwise_iff_getElem.mp (occurring_sorted f) _ _ hi' hj'
      (UInt32.lt_iff_toNat_lt.mp hij)
  · intro calls hcalls
    rw [entryCounts_eq, sum_occurring, hcalls]
    exact balanced_after calls

end Findings

end Cvp
