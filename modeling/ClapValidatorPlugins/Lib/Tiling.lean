/-
  Segments laid end to end. A segment is where it begins and how long it is; `Tiles lo segs hi`
  says that `segs` cover the numbers from `lo` up to `hi`, one behind the other and none of them
  empty. Then each number is in exactly one of them (`Tiles.countP_covers`).
-/
import Mathlib.Data.List.Basic

namespace Tiling

/-- A start and a length. -/
abbrev Segment := Nat × Nat

/-- `segs` cover `[lo, hi)` from left to right. -/
def Tiles : Nat → List Segment → Nat → Prop
  | lo, [], hi => lo = hi
  | lo, seg :: segs, hi => seg.1 = lo ∧ 0 < seg.2 ∧ Tiles (lo + seg.2) segs hi

/-- `i` is a number of the segment. -/
def covers (i : Nat) (seg : Segment) : Bool := decide (seg.1 ≤ i ∧ i < seg.1 + seg.2)

theorem Tiles.le {segs : List Segment} : ∀ {lo hi : Nat}, Tiles lo segs hi → lo ≤ hi := by
  induction segs with
  | nil => exact fun h => Nat.le_of_eq h
  | cons seg segs ih =>
    intro lo hi h
    have := ih h.2.2
    omega

theorem Tiles.append {segs more : List Segment} {mid hi : Nat} :
    ∀ {lo : Nat}, Tiles lo segs mid → Tiles mid more hi → Tiles lo (segs ++ more) hi := by
  induction segs with
  | nil =>
    intro lo h hmore
    cases h
    exact hmore
  | cons seg segs ih => exact fun h hmore => ⟨h.1, h.2.1, ih h.2.2 hmore⟩

/-- One more segment at the end. -/
theorem Tiles.concat {segs : List Segment} {lo mid hi : Nat} (h : Tiles lo segs mid)
    (hlt : mid < hi) : Tiles lo (segs ++ [(mid, hi - mid)]) hi := by
  refine h.append ⟨rfl, Nat.sub_pos_of_lt hlt, ?_⟩
  show mid + (hi - mid) = hi
  omega

theorem Tiles.countP_covers {segs : List Segment} (i : Nat) : ∀ {lo hi : Nat},
    Tiles lo segs hi → segs.countP (covers i) = if lo ≤ i ∧ i < hi then 1 else 0 := by
  induction segs with
  | nil =>
    intro lo hi h
    cases h
    rw [if_neg (by omega)]
    rfl
  | cons seg segs ih =>
    intro lo hi h
    obtain ⟨hstart, hpos, hrest⟩ := h
    have hle := hrest.le
    rw [List.countP_cons, ih hrest]
    simp only [covers, hstart, decide_eq_true_eq]
    split <;> split <;> split <;> omega

end Tiling
