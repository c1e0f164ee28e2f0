/-
  The cursor of `logSummary`. The destroy-time line is put together in 512 bytes: a head, then an
  entry for each code with a count as long as the cursor is below 496, then a closing bracket,
  each by an `snprintf` at the cursor that is moved by the length of the text uncut. An entry
  takes up to 18 bytes, so one that starts at 495 ends at 513, where the room left is negative
  (`summaryWrites_inside_iff`).
-/
import ClapValidatorPlugins.Monitor.Enumeration

namespace Cvp

/-- `sizeof(line)`. -/
def kSummaryCapacity : Nat := 512

/-- One `snprintf(line + pos, sizeof(line) - pos, ...)` with a text of `length` bytes. -/
structure SummaryWrite where
  pos : Nat
  length : Nat
  deriving DecidableEq, Repr

namespace SummaryWrite

/-- `sizeof(line) - pos`, computed as a `size_t`. -/
def remaining (w : SummaryWrite) : Nat := (2 ^ 64 + kSummaryCapacity - w.pos) % 2 ^ 64

/-- How many bytes from the cursor on are written, the terminating null included. -/
def written (w : SummaryWrite) : Nat :=
  if w.remaining = 0 then 0 else min w.length (w.remaining - 1) + 1

/-- The cursor and every byte written are inside the line. -/
def IsInside (w : SummaryWrite) : Prop :=
  w.pos ≤ kSummaryCapacity ∧ w.remaining = kSummaryCapacity - w.pos ∧
    w.pos + w.written ≤ kSummaryCapacity

instance (w : SummaryWrite) : Decidable w.IsInside :=
  inferInstanceAs (Decidable (_ ∧ _ ∧ _))

theorem isInside_iff (w : SummaryWrite) : w.IsInside ↔ w.pos ≤ kSummaryCapacity := by
  refine ⟨fun h => h.1, fun h => ?_⟩
  have hremaining : w.remaining = kSummaryCapacity - w.pos := by
    unfold remaining
    unfold kSummaryCapacity at h ⊢
    omega
  refine ⟨h, hremaining, ?_⟩
  unfold written
  split <;> omega

end SummaryWrite

/-- The length of `%u`. -/
def decimalWidth (n : UInt32) : Nat := (Nat.toDigits 10 n.toNat).length

namespace Findings

/-- The length of `contract summary: %u violation%s (`. -/
def headWidth (f : Findings) : Nat := 30 + decimalWidth f.total + if f.total = 1 then 0 else 1

/-- The length of `L03×1`: the multiplication sign has two bytes. -/
def entryWidth (f : Findings) (v : Violation) : Nat :=
  (violationCode v).length + 2 + decimalWidth (f.counters v)

/-- `first ? "" : ", "`. -/
def separatorWidth (first : Bool) : Nat := if first then 0 else 2

/-- The entry loop of `logSummary`: its writes and the cursor behind it. -/
def entryWrites (f : Findings) : List Violation → Bool → Nat → List SummaryWrite × Nat
  | [], _, pos => ([], pos)
  | v :: rest, first, pos =>
    if pos < kSummaryCapacity - 16 then
      if f.counters v = 0 then entryWrites f rest first pos
      else
        let width := separatorWidth first + f.entryWidth v
        let written := entryWrites f rest false (pos + width)
        (⟨pos, width⟩ :: written.1, written.2)
    else ([], pos)

/-- The writes of `logSummary` into the line, in order. -/
def summaryWrites (f : Findings) : List SummaryWrite :=
  if f.total = 0 then []
  else
    let entries := f.entryWrites Violation.all true f.headWidth
    ⟨0, f.headWidth⟩ :: entries.1 ++ [⟨entries.2, 1⟩]

/-- The bytes of the entries of `vs`, each with the separator behind it. -/
def entriesWidth (f : Findings) (vs : List Violation) : Nat :=
  ((vs.filter fun v => f.counters v ≠ 0).map fun v => f.entryWidth v + 2).sum

/-- Where the code of `v` stands in the line if every entry before it is written. -/
def column (f : Findings) (v : Violation) : Nat :=
  f.headWidth + f.entriesWidth (Violation.all.takeWhile (· ≠ v))

/-- A four-letter code with a count of ten digits, behind a text of 495 bytes and a separator. -/
def LeavesLine (f : Findings) (v : Violation) : Prop :=
  (violationCode v).length = 4 ∧ 10 ^ 9 ≤ (f.counters v).toNat ∧ f.column v = 497

/-! ## The widths -/

theorem decimalWidth_le (n : UInt32) : decimalWidth n ≤ 10 :=
  (Nat.length_toDigits_le_iff (by decide) (by decide)).mpr
    (lt_trans n.toNat_lt (by decide))

theorem decimalWidth_eq_ten (n : UInt32) : decimalWidth n = 10 ↔ 10 ^ 9 ≤ n.toNat := by
  have hnine : decimalWidth n ≤ 9 ↔ n.toNat < 10 ^ 9 :=
    Nat.length_toDigits_le_iff (by decide) (by decide)
  have hle := decimalWidth_le n
  omega

theorem length_violationCode_le (v : Violation) : (violationCode v).length ≤ 4 := by
  cases v <;> decide

theorem entryWidth_le (f : Findings) (v : Violation) : f.entryWidth v ≤ 16 := by
  have hcode := length_violationCode_le v
  have hcount := decimalWidth_le (f.counters v)
  unfold entryWidth
  omega

/-- The widest entry. -/
theorem entryWidth_eq (f : Findings) (v : Violation) :
    f.entryWidth v = 16 ↔ (violationCode v).length = 4 ∧ 10 ^ 9 ≤ (f.counters v).toNat := by
  have hcode := length_violationCode_le v
  have hcount := decimalWidth_le (f.counters v)
  rw [← decimalWidth_eq_ten]
  unfold entryWidth
  omega

theorem headWidth_le (f : Findings) : f.headWidth ≤ 41 := by
  have htotal := decimalWidth_le f.total
  unfold headWidth
  split <;> omega

theorem entriesWidth_cons_of_zero (f : Findings) {v : Violation} (vs : List Violation)
    (h : f.counters v = 0) : f.entriesWidth (v :: vs) = f.entriesWidth vs := by
  simp [entriesWidth, h]

theorem entriesWidth_cons_of_ne (f : Findings) {v : Violation} (vs : List Violation)
    (h : f.counters v ≠ 0) :
    f.entriesWidth (v :: vs) = f.entryWidth v + 2 + f.entriesWidth vs := by
  unfold entriesWidth
  rw [List.filter_cons_of_pos (by simpa using h), List.map_cons, List.sum_cons]

/-! ## The cursor -/

theorem entryWrites_pos_le (f : Findings) (vs : List Violation) :
    ∀ (first : Bool) (pos : Nat), pos ≤ (f.entryWrites vs first pos).2 ∧
      ∀ w ∈ (f.entryWrites vs first pos).1, w.pos ≤ (f.entryWrites vs first pos).2 := by
  induction vs with
  | nil => exact fun first pos => ⟨le_refl _, by simp [entryWrites]⟩
  | cons v rest ih =>
    intro first pos
    unfold entryWrites
    split
    · split
      · exact ih first pos
      · obtain ⟨hle, hall⟩ := ih false (pos + (separatorWidth first + f.entryWidth v))
        have hpos := le_trans (Nat.le_add_right pos _) hle
        refine ⟨hpos, fun w hw => ?_⟩
        rcases List.mem_cons.mp hw with rfl | hw
        · exact hpos
        · exact hall w hw
    · exact ⟨le_refl _, by simp⟩

/-- From a cursor inside the line the entries leave it by one byte only, and only where a widest
    entry meets the cursor at 495: the first entry has no separator but starts early. -/
theorem entryWrites_le_iff (f : Findings) (vs : List Violation) (hnodup : vs.Nodup) :
    ∀ (first : Bool) (pos : Nat), pos ≤ 512 → (first → pos ≤ 41) →
      ((f.entryWrites vs first pos).2 ≤ 512 ↔
        ∀ v ∈ vs, f.entryWidth v = 16 → pos + separatorWidth first +
          f.entriesWidth (vs.takeWhile (· ≠ v)) ≠ 497) := by
  induction vs with
  | nil => exact fun first pos hpos _ => ⟨fun _ v hv => absurd hv List.not_mem_nil, fun _ => hpos⟩
  | cons v rest ih =>
    intro first pos hpos hfirst
    obtain ⟨hnew, hnodup⟩ := List.nodup_cons.mp hnodup
    have hhead : (v :: rest).takeWhile (· ≠ v) = [] := by simp
    have htail : ∀ u ∈ rest, (v :: rest).takeWhile (· ≠ u) = v :: rest.takeWhile (· ≠ u) := by
      intro u hu
      have hne : v ≠ u := fun h => hnew (h ▸ hu)
      simp [hne]
    unfold entryWrites
    by_cases hroom : pos < kSummaryCapacity - 16
    · have hroom' : pos < 496 := hroom
      rw [if_pos hroom]
      by_cases hzero : f.counters v = 0
      · have hwidth : f.entryWidth v ≠ 16 := fun h => by
          have hcount := ((entryWidth_eq f v).mp h).2
          rw [hzero] at hcount
          exact absurd hcount (by decide)
        rw [if_pos hzero, ih hnodup first pos hpos hfirst, List.forall_mem_cons]
        refine ⟨fun hall => ⟨fun h => absurd h hwidth, fun u hu => ?_⟩, fun hall u hu => ?_⟩
        · rw [htail u hu, entriesWidth_cons_of_zero f _ hzero]
          exact hall u hu
        · rw [← entriesWidth_cons_of_zero f _ hzero, ← htail u hu]
          exact hall.2 u hu
      · have hle := entryWidth_le f v
        rw [if_neg hzero]
        by_cases hcursor : pos + (separatorWidth first + f.entryWidth v) ≤ 512
        · rw [ih hnodup false _ hcursor (fun h => absurd h (by decide)), List.forall_mem_cons]
          have hcolumn : ∀ us : List Violation,
              pos + (separatorWidth first + f.entryWidth v) + separatorWidth false +
                f.entriesWidth us = pos + separatorWidth first + f.entriesWidth (v :: us) := by
            intro us
            rw [entriesWidth_cons_of_ne f us hzero]
            show _ + 2 + _ = _
            omega
          refine ⟨fun hall => ⟨fun h => ?_, fun u hu => ?_⟩, fun hall u hu => ?_⟩
          · rw [hhead]
            show _ + 0 ≠ _
            omega
          · rw [htail u hu, ← hcolumn]
            exact hall u hu
          · rw [hcolumn, ← htail u hu]
            exact hall.2 u hu
        · have hsecond : first = false := by
            cases first
            · rfl
            · have hearly := hfirst rfl
              have hsep : separatorWidth true = 0 := rfl
              omega
          subst hsecond
          have hpast := (entryWrites_pos_le f rest false
            (pos + (separatorWidth false + f.entryWidth v))).1
          refine ⟨fun h => absurd (le_trans hpast h) hcursor, fun hall => ?_⟩
          have hcolumn := hall v List.mem_cons_self
          rw [hhead] at hcolumn
          change _ → pos + 2 + 0 ≠ 497 at hcolumn
          change ¬ pos + (2 + f.entryWidth v) ≤ 512 at hcursor
          omega
    · have hfull : ¬ pos < 496 := hroom
      rw [if_neg hroom]
      refine ⟨fun _ u _ _ => ?_, fun _ => hpos⟩
      cases first
      · have hsep : separatorWidth false = 2 := rfl
        omega
      · have hearly := hfirst rfl
        omega

/-! ## The line -/

theorem length_toString (n : UInt32) : (toString n.toNat).length = decimalWidth n := by
  rw [Nat.toString_eq_repr, ← String.length_toList, Nat.toList_repr]
  rfl

/-- The cursor behind the entries is the length of the text uncut. -/
theorem entryWrites_cursor (f : Findings) (vs : List Violation) :
    ∀ (first : Bool) (line : String),
      (f.entryWrites vs first line.length).2 = (f.summaryEntries vs first line).length := by
  have hsep : ∀ first : Bool, (if first then "" else ", ").length = separatorWidth first := by
    decide
  induction vs with
  | nil => exact fun first line => rfl
  | cons v rest ih =>
    intro first line
    unfold entryWrites summaryEntries
    by_cases hroom : line.length < kSummaryCapacity - 16
    · have hroom' : line.length < 512 - 16 := hroom
      rw [if_pos hroom, if_pos hroom']
      split
      · exact ih first line
      · rw [← ih false]
        simp only [String.length_append, hsep, length_toString]
        have hsign : timesSign.length = 2 := by decide
        rw [hsign]
        unfold entryWidth
        simp only [Nat.add_assoc]
    · have hfull : ¬ line.length < 512 - 16 := hroom
      rw [if_neg hroom, if_neg hfull]

/-- The line that is logged is the text up to the end of the last write, cut to the capacity. -/
theorem logSummary_writes (f : Findings) (h : f.total ≠ 0) :
    ∃ (text : String) (bracket : SummaryWrite),
      f.logSummary = f.emit .hostMisbehaving (snprintf kSummaryCapacity text) ∧
      f.summaryWrites.getLast? = some bracket ∧ text.length = bracket.pos + bracket.length := by
  let head := "contract summary: " ++ toString f.total.toNat ++ " violation" ++
    (if f.total = 1 then "" else "s") ++ " ("
  have hhead : head.length = f.headWidth := by
    have hplural : (if f.total = 1 then "" else "s").length = if f.total = 1 then 0 else 1 := by
      split <;> rfl
    have hfirst : "contract summary: ".length = 18 := by decide
    have hsecond : " violation".length = 10 := by decide
    have hthird : " (".length = 2 := by decide
    simp only [head, String.length_append, length_toString, hplural, hfirst, hsecond, hthird]
    unfold headWidth
    omega
  refine ⟨f.summaryEntries Violation.all true head ++ ")",
    ⟨(f.entryWrites Violation.all true f.headWidth).2, 1⟩, ?_, ?_, ?_⟩
  · unfold logSummary
    rw [if_neg h]
    rfl
  · unfold summaryWrites
    rw [if_neg h]
    exact List.getLast?_concat
  · rw [String.length_append, ← entryWrites_cursor, hhead]
    rfl

/-- Every write stands inside the line exactly if the closing bracket does. -/
theorem summaryWrites_cursor (f : Findings) (h : f.total ≠ 0) :
    (∀ w ∈ f.summaryWrites, w.IsInside) ↔
      (f.entryWrites Violation.all true f.headWidth).2 ≤ kSummaryCapacity := by
  obtain ⟨hhead, hall⟩ := entryWrites_pos_le f Violation.all true f.headWidth
  simp only [summaryWrites, if_neg h, SummaryWrite.isInside_iff]
  constructor
  · intro hinside
    exact hinside ⟨_, 1⟩ (List.mem_append_right _ (List.mem_singleton_self _))
  · intro hcursor w hw
    rcases List.mem_append.mp hw with hw | hw
    · rcases List.mem_cons.mp hw with rfl | hw
      · exact Nat.zero_le _
      · exact le_trans (hall w hw) hcursor
    · obtain rfl := List.mem_singleton.mp hw
      exact hcursor

/-- When the cursor of `logSummary` stays in the line: unless a four-letter code with a count of
    ten digits begins at column 497, for every value of the counters. -/
theorem summaryWrites_inside_iff (f : Findings) :
    (∀ w ∈ f.summaryWrites, w.IsInside) ↔ ¬ (f.total ≠ 0 ∧ ∃ v, f.LeavesLine v) := by
  by_cases htotal : f.total = 0
  · simp [summaryWrites, htotal]
  · have hall : ∀ v : Violation, v ∈ Violation.all := fun v => by cases v <;> decide
    have hhead := headWidth_le f
    rw [summaryWrites_cursor f htotal]
    have hiff := entryWrites_le_iff f Violation.all (by decide) true f.headWidth (by omega)
      fun _ => hhead
    refine hiff.trans ⟨?_, ?_⟩
    · rintro hcolumns ⟨-, v, hlength, hcount, hcolumn⟩
      exact hcolumns v (hall v) ((entryWidth_eq f v).mpr ⟨hlength, hcount⟩) hcolumn
    · intro hnone v _ hwidth hcolumn
      obtain ⟨hlength, hcount⟩ := (entryWidth_eq f v).mp hwidth
      exact hnone ⟨htotal, v, hlength, hcount, hcolumn⟩

end Findings

/-- What an effect can have counted before its `destroy()`. Twenty-six codes with ten digits each,
    one with seven, and `AP01`: what the counters add up to has ten digits as well, and the text
    before `AP01` ends at 495. -/
def overlong : Findings where
  counters v :=
    if v ∈ [.L06, .P10, .P12, .P14] then 0
    else if v.index < Violation.T04.index ∨ v = .AP01 then 1000000000
    else if v = .T04 then 1000000 else 0
  total := 1231196224

/-- The bracket is written one byte behind the line, with a size that has wrapped around. -/
theorem overlong_leaves_line :
    overlong.Balanced ∧ ∃ w ∈ overlong.summaryWrites,
      w.pos = 513 ∧ w.remaining = 2 ^ 64 - 1 ∧ ¬ w.IsInside := by
  refine ⟨?_, ?_⟩
  · unfold Findings.Balanced
    decide
  · decide

end Cvp
