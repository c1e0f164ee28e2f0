/-
  The loops of `streamWriteAll` and `streamReadAll` on the machine's integers. What is left is an
  unsigned count, the callback answers with a signed one, and the loop compares the answer with
  zero only. As long as no answer is more than what was asked for, the pointer stays inside the
  buffer and the result is the right one; the first that is more takes the pointer past the end
  and makes the count wrap (`loops_inside_iff`). In Wrapper.Stream that is the fault
  `streamOverrun` (`streamWriteLoop_history`, `streamReadLoop_history`).
-/
import ClapValidatorPlugins.Lib.Machine
import ClapValidatorPlugins.Wrapper.Stream

namespace Cvp.StreamLoop

open Machine

/-! ## The loop -/

/-- How far `bytes` has come, `size`, and what was returned. -/
structure Loop where
  advanced : Nat
  size : UInt64
  returned : Option Bool
  deriving DecidableEq, Repr

/-- `while (size > 0)` and the return behind it. -/
def enter (advanced : Nat) (size : UInt64) : Loop :=
  { advanced, size, returned := if 0 < size then none else some true }

/-- The loop body, the same in both functions: `result` is `written` or `read`. -/
def pass (s : Loop) (result : Int64) : Loop :=
  if result ≤ 0 then { s with returned := some false }
  else enter (s.advanced + result.toNatClampNeg) (s.size - result.toUInt64)

/-- A callback that would answer once more; behind the return it is not asked. -/
def next (s : Loop) (result : Int64) : Loop :=
  match s.returned with
  | none => pass s result
  | some _ => s

def step : Step Loop Int64 Unit Unit := fun s result => .ok (next s result, ())

theorem next_open {s : Loop} (h : s.returned = none) (result : Int64) :
    next s result = pass s result := by
  unfold next
  rw [h]

theorem next_returned {s : Loop} {ok : Bool} (h : s.returned = some ok) (result : Int64) :
    next s result = s := by
  unfold next
  rw [h]

/-- The loop is not entered where nothing is left. -/
theorem enter_returned_iff {advanced : Nat} {size : UInt64} {ok : Bool} :
    (enter advanced size).returned = some ok ↔ size.toNat = 0 ∧ ok = true := by
  have hsize : 0 < size ↔ 0 < size.toNat := UInt64.lt_iff_toNat_lt
  unfold enter
  dsimp only
  split
  · rename_i hleft
    exact iff_of_false nofun fun h => absurd h.1 (Nat.ne_of_gt (hsize.mp hleft))
  · rename_i hnone
    rw [Option.some.injEq, eq_comm]
    exact (and_iff_right (Nat.eq_zero_of_not_pos fun h => hnone (hsize.mpr h))).symm

theorem step_next (s : Loop) (r : Int64) : step s r = .ok (next s r, ()) := rfl

/-! ## What the loop promises -/

/-- The pointer is inside the buffer or at its end, and what remains has not wrapped. -/
structure Inside (size : UInt64) (s : Loop) : Prop where
  pointer : s.advanced ≤ size.toNat
  remaining : s.advanced + s.size.toNat = size.toNat

/-- Exactly `size` bytes were moved before the first result that is not positive. -/
def Moved (size : Nat) (results : List Int64) : Prop :=
  ∃ front, front <+: results ∧ (∀ r ∈ front, 0 < r) ∧ (front.map (·.toNatClampNeg)).sum = size

/-- The callback claims no more than it was asked for. -/
def WithinRequest (s : Loop) (result : Int64) (_ : Loop) (_ : Unit) : Prop :=
  s.returned = none → result.toNatClampNeg ≤ s.size.toNat

/-- The loop runs exactly while something is left. -/
structure Settled (size : UInt64) (s : Loop) : Prop extends Inside size s where
  open_iff : s.returned = none → 0 < s.size.toNat

theorem settled_enter {size left : UInt64} {advanced : Nat}
    (h : advanced + left.toNat = size.toNat) : Settled size (enter advanced left) := by
  refine ⟨⟨Nat.le.intro h, h⟩, fun hopen => Nat.pos_of_ne_zero fun hempty => ?_⟩
  have hend : (enter advanced left).returned = some true :=
    enter_returned_iff.mpr ⟨hempty, rfl⟩
  rw [hend] at hopen
  cases hopen

theorem toNat_toUInt64 {r : Int64} (hr : ¬ r ≤ 0) : r.toUInt64.toNat = r.toNatClampNeg :=
  Int64.toNat_toUInt64_of_le (Int64.le_of_lt (Int64.not_le.mp hr))

/-- An answer within the request leaves the rest of the request. -/
theorem toNat_sub_result {left : UInt64} {r : Int64} (hr : ¬ r ≤ 0)
    (h : r.toNatClampNeg ≤ left.toNat) :
    (left - r.toUInt64).toNat = left.toNat - r.toNatClampNeg := by
  have hle : r.toUInt64 ≤ left := by
    rw [UInt64.le_iff_toNat_le, toNat_toUInt64 hr]
    exact h
  rw [UInt64.toNat_sub_of_le _ _ hle, toNat_toUInt64 hr]

theorem settled_next {size : UInt64} {s : Loop} {r : Int64} (h : Settled size s)
    (hr : WithinRequest s r (next s r) ()) : Settled size (next s r) := by
  cases hreturned : s.returned with
  | some ok =>
    rw [next_returned hreturned]
    exact h
  | none =>
    rw [next_open hreturned, pass]
    split
    · exact ⟨⟨h.pointer, h.remaining⟩, nofun⟩
    · rename_i hpos
      have hle := hr hreturned
      have hremaining := h.remaining
      apply settled_enter
      rw [toNat_sub_result hpos hle]
      omega

/-- An answer beyond the request takes the pointer past the end. -/
theorem withinRequest_of_inside {size : UInt64} {s : Loop} {r : Int64} (h : Settled size s)
    (hnext : Inside size (next s r)) : WithinRequest s r (next s r) () := by
  intro hopen
  by_cases hpos : r ≤ 0
  · rw [Int64.toNatClampNeg_eq_zero_iff.mpr hpos]
    exact Nat.zero_le _
  · have hpointer := hnext.pointer
    have hremaining := h.remaining
    rw [next_open hopen, pass, if_neg hpos] at hpointer
    have hadvanced : s.advanced + r.toNatClampNeg ≤ size.toNat := hpointer
    omega

/-! ## What the loop returns -/

theorem foldl_next_returned {s : Loop} {ok : Bool} (h : s.returned = some ok)
    (results : List Int64) : results.foldl next s = s := by
  induction results with
  | nil => rfl
  | cons r results ih =>
    rw [List.foldl_cons, next_returned h]
    exact ih

theorem moved_zero (results : List Int64) : Moved 0 results :=
  ⟨[], List.nil_prefix, fun _ hr => absurd hr List.not_mem_nil, rfl⟩

/-- With nothing left the loop returns true, and nothing is to be moved. -/
theorem returned_iff_of_enter {advanced : Nat} {left : UInt64} {ok : Bool}
    (h : (enter advanced left).returned = some ok) (results : List Int64) :
    (results.foldl next (enter advanced left)).returned = some true ↔
      Moved left.toNat results := by
  obtain ⟨hempty, hok⟩ := enter_returned_iff.mp h
  rw [foldl_next_returned h, h, hempty, hok]
  exact iff_of_true rfl (moved_zero results)

/-- One answer further: a positive one counts, any other ends the transfer. -/
theorem moved_cons_iff {size : Nat} (hsize : 0 < size) (r : Int64) (results : List Int64) :
    Moved size (r :: results) ↔
      0 < r ∧ r.toNatClampNeg ≤ size ∧ Moved (size - r.toNatClampNeg) results := by
  constructor
  · rintro ⟨front, hfront, hpos, hsum⟩
    cases front with
    | nil => exact absurd hsum (by simp; omega)
    | cons r' front =>
      obtain ⟨rfl, hrest⟩ := List.cons_prefix_cons.mp hfront
      obtain ⟨hr, hpos⟩ := List.forall_mem_cons.mp hpos
      rw [List.map_cons, List.sum_cons] at hsum
      exact ⟨hr, by omega, front, hrest, hpos, by omega⟩
  · rintro ⟨hr, hle, front, hfront, hpos, hsum⟩
    refine ⟨r :: front, List.cons_prefix_cons.mpr ⟨rfl, hfront⟩,
      List.forall_mem_cons.mpr ⟨hr, hpos⟩, ?_⟩
    rw [List.map_cons, List.sum_cons, hsum]
    omega

theorem returned_iff {size : UInt64} (results : List Int64) :
    ∀ {s : Loop}, Settled size s → s.returned = none → AllSteps step WithinRequest s results →
      ((results.foldl next s).returned = some true ↔ Moved s.size.toNat results) := by
  induction results with
  | nil =>
    intro s hs hopen _
    have hleft := hs.open_iff hopen
    refine iff_of_false ?_ ?_
    · rw [List.foldl_nil, hopen]
      exact nofun
    · rintro ⟨front, hfront, -, hsum⟩
      rw [List.prefix_nil.mp hfront] at hsum
      simp at hsum
      omega
  | cons r results ih =>
    intro s hs hopen hall
    have hleft := hs.open_iff hopen
    obtain ⟨hwithin, hrest⟩ := (allSteps_cons (step_next _ _)).mp hall
    have hsettled := settled_next hs hwithin
    rw [List.foldl_cons, moved_cons_iff hleft]
    rw [next_open hopen, pass] at hsettled hrest ⊢
    by_cases hpos : r ≤ 0
    · rw [if_pos hpos, foldl_next_returned rfl]
      exact iff_of_false nofun fun h => Int64.not_le.mpr h.1 hpos
    · have hle := hwithin hopen
      have hsize := toNat_sub_result hpos hle
      rw [if_neg hpos] at hsettled hrest ⊢
      rw [← hsize]
      refine Iff.trans ?_ (and_iff_right (Int64.not_le.mp hpos)).symm
      refine Iff.trans ?_ (and_iff_right hle).symm
      cases hreturned : (enter (s.advanced + r.toNatClampNeg) (s.size - r.toUInt64)).returned with
      | none => exact ih hsettled hreturned hrest
      | some ok => exact returned_iff_of_enter hreturned results

/-- Within the requests every pass moves a byte, so `size` answers are enough. -/
theorem returned_of_length {size : UInt64} (results : List Int64) :
    ∀ {s : Loop}, Settled size s → AllSteps step WithinRequest s results →
      s.size.toNat ≤ results.length → (results.foldl next s).returned ≠ none := by
  induction results with
  | nil =>
    intro s hs _ hlen hopen
    exact absurd (hs.open_iff hopen) (Nat.not_lt.mpr hlen)
  | cons r results ih =>
    intro s hs hall hlen
    obtain ⟨hwithin, hrest⟩ := (allSteps_cons (step_next _ _)).mp hall
    cases hreturned : s.returned with
    | some ok =>
      rw [foldl_next_returned hreturned, hreturned]
      exact nofun
    | none =>
      have hpass := next_open hreturned r
      have hle := hwithin hreturned
      rw [List.foldl_cons]
      by_cases hpos : r ≤ 0
      · have hrefused : (next s r).returned = some false := by
          rw [hpass, pass, if_pos hpos]
        rw [foldl_next_returned hrefused, hrefused]
        exact nofun
      · have hleft : (next s r).size.toNat = s.size.toNat - r.toNatClampNeg := by
          rw [hpass, pass, if_neg hpos]
          exact toNat_sub_result hpos hle
        have hmoved : 0 < r.toNatClampNeg :=
          (Int64.toNatClampNeg_pos_iff r).mpr (Int64.not_le.mp hpos)
        rw [List.length_cons] at hlen
        exact ih (settled_next hs hwithin) hrest (by omega)

/-- The pointer stays inside the buffer, what remains never wraps, and the loop returns true
    exactly if `size` bytes were moved before the first result that is not positive. -/
def KeepsToBuffer (size : UInt64) (results : List Int64) : Prop :=
  AllStates step (Inside size) (enter 0 size) results ∧
    ((results.foldl next (enter 0 size)).returned = some true ↔ Moved size.toNat results)

theorem settled_start (size : UInt64) : Settled size (enter 0 size) :=
  settled_enter (Nat.zero_add _)

/-- Whatever the callback answers: the loop keeps to the buffer if and only if no answer is more
    than what was asked for. -/
theorem loops_inside_iff (size : UInt64) (results : List Int64) :
    KeepsToBuffer size results ↔ AllSteps step WithinRequest (enter 0 size) results := by
  have hinside : AllStates step (Inside size) (enter 0 size) results ↔
      AllSteps step WithinRequest (enter 0 size) results := by
    refine allStates_iff_allSteps (I := Settled size) (fun _ h => h.toInside) ?_ ?_
      (settled_start size)
    · rintro s r _ _ hs ⟨⟩ hr
      exact settled_next hs hr
    · rintro s r _ _ hs ⟨⟩ hr
      exact withinRequest_of_inside hs hr
  refine ⟨fun h => hinside.mp h.1, fun h => ⟨hinside.mpr h, ?_⟩⟩
  cases hreturned : (enter 0 size).returned with
  | none => exact returned_iff results (settled_start size) hreturned h
  | some ok => exact returned_iff_of_enter hreturned results

/-- Asked for four bytes, the callback claims five. -/
theorem pointer_past_end :
    [(5 : Int64)].foldl next (enter 0 4) =
        { advanced := 5, size := 18446744073709551615, returned := none } ∧
      ¬ KeepsToBuffer 4 [5] := by
  refine ⟨by decide, fun h => ?_⟩
  have hinside : Inside 4 (next (enter 0 4) 5) := (h.1.2 _ _ rfl)
  exact absurd hinside.pointer (by decide)

/-! ## Streams -/

/-- The loop at `s` goes on as told: it returns with no answer beyond a request, or (`none`) there
    is such an answer. -/
structure Shows (s : Loop) (outcome : Option Bool) (results : List Int64) : Prop where
  returns : ∀ ok, outcome = some ok →
    AllSteps step WithinRequest s results ∧ (results.foldl next s).returned = some ok
  overruns : outcome = none → ¬ AllSteps step WithinRequest s results

section Shows

variable {advanced : Nat} {left : UInt64} {outcome : Option Bool}

theorem enter_returned (h : 0 < left.toNat) : (enter advanced left).returned = none :=
  if_pos (show (0 : UInt64) < left from UInt64.lt_iff_toNat_lt.mpr h)

theorem shows_end : Shows (enter advanced 0) (some true) [] :=
  ⟨fun _ h => ⟨trivial, h⟩, nofun⟩

theorem shows_refused (h : 0 < left.toNat) : Shows (enter advanced left) (some false) [0] := by
  have hpass : next (enter advanced left) 0 =
      { enter advanced left with returned := some false } := next_open (enter_returned h) 0
  refine ⟨fun ok hok => ⟨?_, ?_⟩, nofun⟩
  · rintro _ _ ⟨⟩
    exact ⟨fun _ => Nat.zero_le _, trivial⟩
  · rw [List.foldl_cons, List.foldl_nil, hpass]
    exact hok

theorem shows_overrun (h : 0 < left.toNat) {r : Int64} (hr : left.toNat < r.toNatClampNeg) :
    Shows (enter advanced left) none [r] := by
  refine ⟨nofun, fun _ hall => ?_⟩
  obtain ⟨hwithin, -⟩ := (allSteps_cons (step_next _ _)).mp hall
  exact absurd (hwithin (enter_returned h)) (Nat.not_le.mpr hr)

theorem shows_moved {r : Int64} {results : List Int64} (hpos : 0 < r.toNatClampNeg)
    (hle : r.toNatClampNeg ≤ left.toNat)
    (h : Shows (enter (advanced + r.toNatClampNeg) (left - r.toUInt64)) outcome results) :
    Shows (enter advanced left) outcome (r :: results) := by
  have hr : ¬ r ≤ 0 := Int64.not_le.mpr ((Int64.toNatClampNeg_pos_iff r).mp hpos)
  have hpass : next (enter advanced left) r =
      enter (advanced + r.toNatClampNeg) (left - r.toUInt64) :=
    (next_open (enter_returned (by omega)) r).trans (if_neg hr)
  have hall : AllSteps step WithinRequest (enter advanced left) (r :: results) ↔
      AllSteps step WithinRequest (enter (advanced + r.toNatClampNeg) (left - r.toUInt64))
        results := by
    rw [allSteps_cons (step_next _ _), hpass]
    exact and_iff_right fun _ => hle
  refine ⟨fun ok hok => ?_, fun hnone => ?_⟩
  · rw [hall, List.foldl_cons, hpass]
    exact h.returns ok hok
  · rw [hall]
    exact h.overruns hnone

theorem toNat_request {n : Nat} (hn : n < 2 ^ 63 - 1) : (UInt64.ofNat n).toNat = n :=
  UInt64.toNat_ofNat_of_lt' (show n < 2 ^ 64 by omega)

/-- `k` of the `n` bytes asked for. -/
theorem shows_moved_of {k n : Nat} {results : List Int64} (hk : 0 < k) (hkn : k ≤ n)
    (hn : n < 2 ^ 63 - 1)
    (h : Shows (enter (advanced + k) (UInt64.ofNat (n - k))) outcome results) :
    Shows (enter advanced (UInt64.ofNat n)) outcome (Int64.ofNat k :: results) := by
  have hclamp : (Int64.ofNat k).toNatClampNeg = k :=
    Int64.toNatClampNeg_ofNat_of_lt (by omega)
  have hleft := toNat_request hn
  have hrest : UInt64.ofNat n - (Int64.ofNat k).toUInt64 = UInt64.ofNat (n - k) := by
    rw [Int64.toUInt64_ofNat', UInt64.ofNat_sub hkn]
  refine shows_moved ?_ ?_ ?_
  · rw [hclamp]
    exact hk
  · rw [hclamp, hleft]
    exact hkn
  · rw [hclamp, hrest]
    exact h

theorem shows_overrun_of {n : Nat} (hn : 0 < n) (hlt : n < 2 ^ 63 - 1) :
    Shows (enter advanced (UInt64.ofNat n)) none [Int64.ofNat (n + 1)] := by
  have hleft := toNat_request hlt
  refine shows_overrun (by omega) ?_
  rw [hleft, Int64.toNatClampNeg_ofNat_of_lt (by omega)]
  exact Nat.lt_succ_self n

end Shows

/-- What a loop of Wrapper.Stream returned, if it did not overrun. -/
def outcomeOf {α : Type} (isTrue : α → Bool) : Exec α → Option Bool
  | .ok a => some (isTrue a)
  | .error _ => none

theorem streamWriteLoop_history (fuel : Nat) :
    ∀ (stream : OStream) (bytes : List UInt8) (advanced : Nat), bytes.length ≤ fuel →
      bytes.length < 2 ^ 63 - 1 → ∃ results,
        Shows (enter advanced (UInt64.ofNat bytes.length))
          (outcomeOf (·.1) (streamWriteLoop fuel stream bytes)) results := by
  induction fuel with
  | zero =>
    intro stream bytes advanced hlen _
    obtain rfl : bytes = [] := List.length_eq_zero_iff.mp (Nat.le_zero.mp hlen)
    exact ⟨[], shows_end⟩
  | succ fuel ih =>
    intro stream bytes advanced hlen hlt
    cases bytes with
    | nil => exact ⟨[], shows_end⟩
    | cons b bs =>
      have hpos : 0 < (b :: bs).length := Nat.succ_pos _
      rw [streamWriteLoop]
      split
      · exact ⟨[0], shows_refused (hpos.trans_eq (toNat_request hlt).symm)⟩
      · rename_i hwritten
        split
        · exact ⟨_, shows_overrun_of hpos hlt⟩
        · rename_i hle
          obtain ⟨results, h⟩ := ih (stream.write (b :: bs)).2
            ((b :: bs).drop (stream.write (b :: bs)).1.toNat)
            (advanced + (stream.write (b :: bs)).1.toNat)
            (by rw [List.length_drop]; omega) (by rw [List.length_drop]; omega)
          rw [List.length_drop] at h
          exact ⟨_, shows_moved_of (by omega) (Nat.not_lt.mp hle) hlt h⟩

theorem streamReadLoop_history (fuel : Nat) :
    ∀ (stream : IStream) (got : List UInt8) (size advanced : Nat), size ≤ fuel →
      size < 2 ^ 63 - 1 → ∃ results,
        Shows (enter advanced (UInt64.ofNat size))
          (outcomeOf (·.1.isSome) (streamReadLoop fuel stream got size)) results := by
  induction fuel with
  | zero =>
    intro stream got size advanced hlen _
    obtain rfl : size = 0 := Nat.le_zero.mp hlen
    exact ⟨[], shows_end⟩
  | succ fuel ih =>
    intro stream got size advanced hlen hlt
    cases size with
    | zero => exact ⟨[], shows_end⟩
    | succ size =>
      have hpos : 0 < size + 1 := Nat.succ_pos _
      have hrefused : Shows (enter advanced (UInt64.ofNat (size + 1))) (some false) [0] :=
        shows_refused (hpos.trans_eq (toNat_request hlt).symm)
      rw [streamReadLoop]
      split
      · exact ⟨[0], hrefused⟩
      · rename_i xs _
        split
        · exact ⟨[0], hrefused⟩
        · rename_i hempty
          split
          · exact ⟨_, shows_overrun_of hpos hlt⟩
          · rename_i hle
            obtain ⟨results, h⟩ := ih (stream.read (size + 1)).2 (got ++ xs)
              (size + 1 - xs.length) (advanced + xs.length) (by omega) (by omega)
            exact ⟨_, shows_moved_of (by omega) (Nat.not_lt.mp hle) hlt h⟩

end Cvp.StreamLoop
