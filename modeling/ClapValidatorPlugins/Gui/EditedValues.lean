/-
  The values that the editors set, in exact arithmetic. A slider of the X11 view and a trackbar of
  the Win32 view only ever set values that their parameter declares, and whole steps of a stepped
  one (`x11_values_declared`, `win32_values_declared`). The timer of the Win32 view puts a trackbar
  at the position that the parameter's value has; that is the position the value was read off
  (`valueToPos_posToValue`), so that a thumb stays where it was left (`win32_thumb_stays`).
-/
import ClapValidatorPlugins.Gui.SliderViews
import Mathlib.Algebra.Order.Field.Rat
import Mathlib.Tactic.FieldSimp
import Mathlib.Tactic.Linarith
import Mathlib.Tactic.Positivity

namespace Cvp

open Machine
open X11View (ParamDesc)

/-! ## Declared values -/

/-- `int` from a number that is not negative. -/
theorem toInt_of_nonneg {x : ExactFloat} (h : 0 ≤ x) : DoubleOps.toInt x = ⌊x⌋ := if_pos h

/-- A value the parameter declares. -/
structure Declared (desc : ParamDesc ExactFloat) (x : ExactFloat) : Prop where
  min_le : desc.minValue ≤ x
  le_max : x ≤ desc.maxValue
  step : desc.stepped = true → ∃ n : ℕ, x = desc.minValue + n

/-- Every value set is one that a parameter of that id declares. -/
def SetsDeclared (descs : List (ParamDesc ExactFloat)) (edits : List (UiEdit ExactFloat)) : Prop :=
  ∀ id x, UiEdit.setValue id x ∈ edits → ∃ desc ∈ descs, desc.id = id ∧ Declared desc x

section Sets

variable {descs : List (ParamDesc ExactFloat)} {edits : List (UiEdit ExactFloat)}

theorem setsDeclared_nil : SetsDeclared descs [] := fun _ _ h => absurd h List.not_mem_nil

theorem SetsDeclared.append (h : SetsDeclared descs edits) {more : List (UiEdit ExactFloat)}
    (hmore : SetsDeclared descs more) : SetsDeclared descs (edits ++ more) :=
  fun id x hx => (List.mem_append.mp hx).elim (h id x) (hmore id x)

/-- Calls on one parameter. -/
theorem setsDeclared_of_value {desc : ParamDesc ExactFloat} {value : ExactFloat}
    (hdesc : desc ∈ descs) (hvalue : Declared desc value)
    (hedits : ∀ edit ∈ edits, edit = .beginGesture desc.id ∨ edit = .setValue desc.id value ∨
      edit = .endGesture desc.id) : SetsDeclared descs edits := by
  intro id x hx
  rcases hedits _ hx with heq | heq | heq
  · cases heq
  · cases heq
    exact ⟨desc, hdesc, rfl, hvalue⟩
  · cases heq

end Sets

theorem ranges_guiParamDescs {desc : ParamDesc ExactFloat}
    (h : desc ∈ SliderViews.guiParamDescs) : desc.minValue < desc.maxValue ∧
      (desc.stepped = true → ∃ n : ℕ, desc.maxValue - desc.minValue = n) := by
  rcases List.mem_cons.mp h with rfl | h
  · exact ⟨show (-36 : ℚ) < 36 by norm_num, Bool.noConfusion⟩
  · rcases List.mem_cons.mp h with rfl | h
    · exact ⟨show (0 : ℚ) < 3 by norm_num, fun _ => ⟨3, show (3 : ℚ) - 0 = (3 : ℕ) by norm_num⟩⟩
    · rcases List.mem_singleton.mp h with rfl
      exact ⟨show (0 : ℚ) < 1 by norm_num, fun _ => ⟨1, show (1 : ℚ) - 0 = (1 : ℕ) by norm_num⟩⟩

/-! ## Win32 -/

namespace SliderViews.Win32

variable {desc : ParamDesc ExactFloat} {pos : Int}

/-- The position is one of the trackbar's. -/
def InTrack (desc : ParamDesc ExactFloat) (pos : Int) : Prop :=
  0 ≤ pos ∧ pos ≤ trackbarRange desc

theorem declared_posToValue (hrange : desc.minValue ≤ desc.maxValue) (hpos : InTrack desc pos) :
    Declared desc (posToValue desc pos) := by
  obtain ⟨h0, hmax⟩ := hpos
  have hwidth : 0 ≤ desc.maxValue - desc.minValue := sub_nonneg.mpr hrange
  have h0' : (0 : ℚ) ≤ pos := by exact_mod_cast h0
  cases hstepped : desc.stepped with
  | true =>
    have hvalue : posToValue desc pos = desc.minValue + (pos : ℚ) := by
      rw [posToValue, if_pos hstepped]
      rfl
    rw [trackbarRange, if_pos hstepped, toInt_of_nonneg hwidth, Int.le_floor] at hmax
    refine ⟨?_, ?_, fun _ => ⟨pos.toNat, ?_⟩⟩
    · rw [hvalue]
      exact le_add_of_nonneg_right h0'
    · rw [hvalue]
      linarith
    · rw [hvalue, ← Int.cast_natCast, Int.toNat_of_nonneg h0]
  | false =>
    have hvalue : posToValue desc pos =
        desc.minValue + (desc.maxValue - desc.minValue) * (pos : ℚ) / 1000 := by
      rw [posToValue, if_neg (Bool.eq_false_iff.mp hstepped)]
      rfl
    rw [trackbarRange, if_neg (Bool.eq_false_iff.mp hstepped)] at hmax
    have hmax' : (pos : ℚ) ≤ 1000 := by exact_mod_cast hmax
    have hle : (desc.maxValue - desc.minValue) * (pos : ℚ) ≤
        (desc.maxValue - desc.minValue) * 1000 := mul_le_mul_of_nonneg_left hmax' hwidth
    have hnonneg : 0 ≤ (desc.maxValue - desc.minValue) * (pos : ℚ) := mul_nonneg hwidth h0'
    refine ⟨?_, ?_, fun h => by rw [hstepped] at h; cases h⟩
    · rw [hvalue]
      exact le_add_of_nonneg_right (by positivity)
    · rw [hvalue]
      linarith

/-- The position of the value at a position. -/
theorem valueToPos_posToValue (hrange : desc.stepped = false → desc.minValue < desc.maxValue)
    (hpos : 0 ≤ pos) : valueToPos desc (posToValue desc pos) = pos := by
  have hfloor : ⌊(pos : ℚ) + 1 / 2⌋ = pos := by
    rw [Int.floor_intCast_add]
    norm_num
  have hround : DoubleOps.toInt ((pos : ℚ) + 1 / 2 : ExactFloat) = pos := by
    have h0 : (0 : ℚ) ≤ pos := by exact_mod_cast hpos
    rw [toInt_of_nonneg (by positivity), hfloor]
  cases hstepped : desc.stepped with
  | true =>
    have hsame : (desc.minValue + (pos : ℚ)) - desc.minValue + 1 / 2 = (pos : ℚ) + 1 / 2 := by ring
    rw [valueToPos, posToValue, if_pos hstepped, if_pos hstepped]
    show DoubleOps.toInt ((desc.minValue + (pos : ℚ)) - desc.minValue + 1 / 2 : ExactFloat) = pos
    rw [hsame]
    exact hround
  | false =>
    have hpositive : 0 < desc.maxValue - desc.minValue := sub_pos.mpr (hrange hstepped)
    have hsame : (desc.minValue + (desc.maxValue - desc.minValue) * (pos : ℚ) / 1000 -
        desc.minValue) / (desc.maxValue - desc.minValue) * 1000 + 1 / 2 = (pos : ℚ) + 1 / 2 := by
      field_simp
      ring
    rw [valueToPos, posToValue, if_neg (Bool.eq_false_iff.mp hstepped),
      if_neg (Bool.eq_false_iff.mp hstepped)]
    show (if decide (0 < desc.maxValue - desc.minValue) = true then DoubleOps.toInt
      ((desc.minValue + (desc.maxValue - desc.minValue) * (pos : ℚ) / 1000 -
        desc.minValue) / (desc.maxValue - desc.minValue) * 1000 + 1 / 2 : ExactFloat) else 0) = pos
    rw [if_pos (decide_eq_true hpositive), hsame]
    exact hround

/-! ### Runs -/

section Runs

variable {descs : List (ParamDesc ExactFloat)} {v v' : View ExactFloat Int} {o : Unit}

/-- A trackbar tells a position it can have. -/
def KeepsTrack (descs : List (ParamDesc ExactFloat)) : Message ExactFloat → Prop
  | .hScroll i _ pos => ∀ desc, descs[i]? = some desc → InTrack desc pos
  | .timer | .automate _ _ | .destroy => True

/-- The rows are those of the parameters. -/
def Rows (descs : List (ParamDesc ExactFloat)) (v : View ExactFloat Int) : Prop :=
  v.sliders.map (·.desc) = descs

theorem Rows.get (h : Rows descs v) {i : Nat} {s : Slider ExactFloat Int}
    (hs : v.sliders[i]? = some s) : descs[i]? = some s.desc := by
  rw [← h, List.getElem?_map, hs]
  rfl

theorem rows_construct (values : ClapId → ExactFloat) : Rows descs (construct descs values) := by
  rw [Rows, construct, List.map_map]
  exact List.map_id _

theorem rows_step {message : Message ExactFloat} (h : Rows descs v)
    (hs : step v message = .ok (v', o)) : Rows descs v' := by
  cases message with
  | hScroll i code pos =>
    rw [step] at hs
    split at hs
    · cases hs
      exact h
    · split at hs
      · cases hs
        exact h
      · rename_i slider hrow
        cases hs
        rw [Rows, (onHScroll_does v i { slider with pos := pos } code).2.1, List.map_set]
        exact (set_same (by rw [List.getElem?_map, hrow]; rfl)).trans h
  | timer =>
    cases hs
    split
    · exact h
    · rw [Rows, tick, List.map_map, ← h]
      refine List.map_congr_left fun s _ => ?_
      dsimp only [Function.comp]
      split
      · rfl
      · rfl
  | automate id value =>
    cases hs
    exact h
  | destroy =>
    cases hs
    exact h

theorem closed_step {message : Message ExactFloat} (h : v.closed = false)
    (hmessage : message ≠ .destroy) (hs : step v message = .ok (v', o)) : v'.closed = false := by
  cases message with
  | hScroll i code pos =>
    rw [step, if_neg (Bool.eq_false_iff.mp h)] at hs
    split at hs
    · cases hs
      exact h
    · rename_i slider hrow
      cases hs
      cases code <;> cases hopen : slider.inGesture <;>
        simpa [onHScroll, View.call, View.put, hopen] using h
  | timer =>
    cases hs
    rw [if_neg (Bool.eq_false_iff.mp h)]
    exact h
  | automate id value =>
    cases hs
    exact h
  | destroy => exact absurd rfl hmessage

theorem callsOf_mem (slider : Slider ExactFloat Int) (code : ScrollCode) :
    ∀ edit ∈ callsOf slider code, edit = .beginGesture slider.desc.id ∨
      edit = .setValue slider.desc.id (posToValue slider.desc slider.pos) ∨
      edit = .endGesture slider.desc.id := by
  unfold callsOf
  cases slider.inGesture <;> cases code <;> simp

theorem declared_step (hranges : ∀ desc ∈ descs, desc.minValue ≤ desc.maxValue)
    {message : Message ExactFloat} (hrows : Rows descs v) (h : SetsDeclared descs v.edits)
    (htrack : KeepsTrack descs message) (hs : step v message = .ok (v', o)) :
    SetsDeclared descs v'.edits := by
  cases message with
  | hScroll i code pos =>
    rw [step] at hs
    split at hs
    · cases hs
      exact h
    · split at hs
      · cases hs
        exact h
      · rename_i slider hrow
        cases hs
        have hdesc := hrows.get hrow
        have hmem : slider.desc ∈ descs := List.mem_of_getElem? hdesc
        rw [(onHScroll_does v i { slider with pos := pos } code).1]
        exact h.append (setsDeclared_of_value hmem
          (declared_posToValue (hranges _ hmem) (htrack _ hdesc)) (callsOf_mem _ code))
  | timer =>
    cases hs
    split
    · exact h
    · exact h
  | automate id value =>
    cases hs
    exact h
  | destroy =>
    cases hs
    exact h

/-- Over every run of the Win32 view. -/
theorem win32_values_declared {values : ClapId → ExactFloat} {messages : List (Message ExactFloat)}
    {os : List Unit} (hranges : ∀ desc ∈ descs, desc.minValue ≤ desc.maxValue)
    (htrack : ∀ message ∈ messages, KeepsTrack descs message)
    (hrun : run step (construct descs values) messages = .ok (v, os)) :
    SetsDeclared descs v.edits := by
  have hall : Rows descs v ∧ SetsDeclared descs v.edits := by
    refine run_invariant_of_labels (I := fun v => Rows descs v ∧ SetsDeclared descs v.edits) ?_
      htrack ⟨rows_construct values, setsDeclared_nil⟩ hrun
    exact fun _ _ _ _ h htrack hs =>
      ⟨rows_step h.1 hs, declared_step hranges h.1 h.2 htrack hs⟩
  exact hall.2

theorem win32_values_declared_gui : ∃ v os,
    run step (construct guiParamDescs fun _ => 0)
      [.hScroll 0 .other 500, .hScroll 1 .endTrack 2, .timer] = .ok (v, os) ∧
    SetsDeclared guiParamDescs v.edits := by
  obtain ⟨⟨v, os⟩, hrun⟩ : ∃ r, run step (construct guiParamDescs fun _ => (0 : ExactFloat))
      [.hScroll 0 .other 500, .hScroll 1 .endTrack 2, .timer] = .ok r := ⟨_, rfl⟩
  refine ⟨v, os, hrun, win32_values_declared (fun _ h => (ranges_guiParamDescs h).1.le) ?_ hrun⟩
  refine List.forall_mem_cons.mpr ⟨?_, List.forall_mem_cons.mpr ⟨?_,
    List.forall_mem_singleton.mpr trivial⟩⟩
  · rintro desc ⟨⟩
    exact ⟨by decide, by decide⟩
  · rintro desc ⟨⟩
    exact ⟨by decide, by decide +kernel⟩

/-! ### The thumb -/

/-- The message leaves the parameter and the thumb of row `i` where they are. -/
def Leaves (i : Nat) (desc : ParamDesc ExactFloat) (p : Int) : Message ExactFloat → Prop
  | .hScroll j _ pos => j = i → pos = p
  | .automate id _ => id ≠ desc.id
  | .timer | .destroy => True

/-- The thumb is at `p`, and so is the parameter. -/
structure At (descs : List (ParamDesc ExactFloat)) (i : Nat) (desc : ParamDesc ExactFloat)
    (p : Int) (v : View ExactFloat Int) : Prop where
  rows : Rows descs v
  pos : v.sliders[i]?.map (·.pos) = some p
  value : v.values desc.id = posToValue desc p

theorem At.row {i : Nat} {desc : ParamDesc ExactFloat} {p : Int} (h : At descs i desc p v)
    (hdesc : descs[i]? = some desc) :
    ∃ s, v.sliders[i]? = some s ∧ s.desc = desc ∧ s.pos = p := by
  obtain ⟨s, hs, hpos⟩ := Option.map_eq_some_iff.mp h.pos
  exact ⟨s, hs, Option.some.inj ((h.rows.get hs).symm.trans hdesc), hpos⟩

/-- A scroll to `p` that sets a value. -/
theorem at_onHScroll {i : Nat} {s : Slider ExactFloat Int}
    (hrow : v.sliders[i]? = some s) (code : ScrollCode) (p : Int)
    (hvalue : s.inGesture = true ∧ code = .endTrack → v.values s.desc.id = posToValue s.desc p)
    (hrows' : Rows descs (onHScroll v i { s with pos := p } code)) :
    At descs i s.desc p (onHScroll v i { s with pos := p } code) := by
  have hlt := (List.getElem?_eq_some_iff.mp hrow).1
  obtain ⟨-, hsliders, hvalues⟩ := onHScroll_does v i { s with pos := p } code
  refine ⟨hrows', ?_, ?_⟩
  · rw [hsliders, List.getElem?_set_self hlt]
    rfl
  · rw [hvalues]
    split
    · rename_i hend
      exact hvalue hend
    · exact Function.update_self ..

theorem at_step (hids : (descs.map (·.id)).Nodup) {i : Nat} {desc : ParamDesc ExactFloat} {p : Int}
    (hdesc : descs[i]? = some desc)
    (hrange : desc.stepped = false → desc.minValue < desc.maxValue) (hpos : InTrack desc p)
    {message : Message ExactFloat} (h : At descs i desc p v) (hleaves : Leaves i desc p message)
    (hs : step v message = .ok (v', o)) : At descs i desc p v' := by
  have hrows' := rows_step h.rows hs
  obtain ⟨s, hrow, rfl, hthumb⟩ := h.row hdesc
  cases message with
  | hScroll j code pos =>
    rw [step] at hs
    split at hs
    · cases hs
      exact h
    · split at hs
      · cases hs
        exact h
      · rename_i slider hslider
        cases hs
        by_cases hij : j = i
        · subst hij
          obtain rfl := hleaves rfl
          obtain rfl := Option.some.inj (hslider.symm.trans hrow)
          exact at_onHScroll hrow code pos (fun _ => h.value) hrows'
        · obtain ⟨-, hsliders, hvalues⟩ := onHScroll_does v j { slider with pos := pos } code
          have hother : s.desc.id ≠ slider.desc.id := fun heq => hij <| by
            have hj := (List.getElem?_eq_some_iff.mp (h.rows.get hslider)).1
            refine (List.getElem?_inj (by rwa [List.length_map]) hids).mp ?_
            rw [List.getElem?_map, List.getElem?_map, hdesc, h.rows.get hslider, Option.map_some,
              Option.map_some, heq]
          refine ⟨hrows', ?_, ?_⟩
          · rw [hsliders, List.getElem?_set_ne hij]
            exact h.pos
          · rw [hvalues]
            split
            · exact h.value
            · rw [Function.update_of_ne hother]
              exact h.value
  | timer =>
    cases hs
    by_cases hclosed : v.closed = true
    · rw [if_pos hclosed]
      exact h
    · rw [if_neg hclosed] at hrows' ⊢
      refine ⟨hrows', ?_, h.value⟩
      rw [tick, List.getElem?_map, hrow, Option.map_some, Option.map_some]
      refine congrArg some ?_
      split
      · exact hthumb
      · rw [setPos, h.value, valueToPos_posToValue hrange hpos.1]
        show max 0 (min p (trackbarRange s.desc)) = p
        rw [min_eq_left hpos.2, max_eq_right hpos.1]
  | automate id value =>
    cases hs
    refine ⟨hrows', h.pos, ?_⟩
    show Function.update v.values id value s.desc.id = _
    rw [Function.update_of_ne (Ne.symm hleaves)]
    exact h.value
  | destroy =>
    cases hs
    exact ⟨hrows', h.pos, h.value⟩

/-- A notification of row `i` sets a value; `TB_ENDTRACK` does so only outside a gesture. -/
def SetsValue (v : View ExactFloat Int) (i : Nat) (code : ScrollCode) : Prop :=
  code = .endTrack → ∀ s, v.sliders[i]? = some s → s.inGesture = false

def gainDesc : ParamDesc ExactFloat :=
  { id := GuiPlugin.kParamGain, minValue := -36, maxValue := 36, stepped := false }

end Runs

end SliderViews.Win32

/-! ## X11 -/

namespace X11View

/-- The parameter has a range, and a stepped one whole steps. -/
structure Ranged (desc : ParamDesc ExactFloat) : Prop where
  le : desc.minValue ≤ desc.maxValue
  steps : desc.stepped = true → ∃ n : ℕ, desc.maxValue - desc.minValue = n

variable {v v' : View ExactFloat} {o : Unit}

/-- The part of the track that the pointer is at. -/
theorem fraction_bounds (x : ExactFloat) :
    0 ≤ (if DoubleOps.lt x (0 : ExactFloat) then (0 : ExactFloat)
      else if DoubleOps.lt (1 : ExactFloat) x then 1 else x) ∧
    (if DoubleOps.lt x (0 : ExactFloat) then (0 : ExactFloat)
      else if DoubleOps.lt (1 : ExactFloat) x then 1 else x) ≤ 1 := by
  by_cases hlow : x < 0
  · rw [if_pos (show DoubleOps.lt x (0 : ExactFloat) = true from decide_eq_true hlow)]
    exact ⟨le_rfl, zero_le_one⟩
  · rw [if_neg (show ¬ DoubleOps.lt x (0 : ExactFloat) = true from fun h =>
      hlow (of_decide_eq_true h))]
    by_cases hhigh : 1 < x
    · rw [if_pos (show DoubleOps.lt (1 : ExactFloat) x = true from decide_eq_true hhigh)]
      exact ⟨zero_le_one, le_rfl⟩
    · rw [if_neg (show ¬ DoubleOps.lt (1 : ExactFloat) x = true from fun h =>
        hhigh (of_decide_eq_true h))]
      exact ⟨not_lt.mp hlow, not_lt.mp hhigh⟩

/-- Wherever the pointer is. -/
theorem declared_valueAt (v : View ExactFloat) {desc : ParamDesc ExactFloat} (h : Ranged desc)
    (i : Nat) (mouseX : Int) : Declared desc (v.valueAt desc i mouseX) := by
  obtain ⟨fraction, h0, h1, hvalue⟩ : ∃ fraction : ExactFloat, 0 ≤ fraction ∧ fraction ≤ 1 ∧
      v.valueAt desc i mouseX =
        if desc.stepped then desc.minValue + ((DoubleOps.toInt (desc.minValue +
          (desc.maxValue - desc.minValue) * fraction - desc.minValue + 1 / 2 : ExactFloat) : ℤ) : ℚ)
        else desc.minValue + (desc.maxValue - desc.minValue) * fraction := by
    obtain ⟨h0, h1⟩ := fraction_bounds (if 0 < (v.trackRect i).w then
      DoubleOps.ofInt (mouseX - (v.trackRect i).x) / DoubleOps.ofInt (v.trackRect i).w
      else DoubleOps.lit 0)
    exact ⟨_, h0, h1, rfl⟩
  have hwidth : 0 ≤ desc.maxValue - desc.minValue := sub_nonneg.mpr h.le
  have hlow : 0 ≤ (desc.maxValue - desc.minValue) * fraction := mul_nonneg hwidth h0
  have hhigh : (desc.maxValue - desc.minValue) * fraction ≤ desc.maxValue - desc.minValue :=
    mul_le_of_le_one_right hwidth h1
  rw [hvalue]
  cases hstepped : desc.stepped with
  | false =>
    rw [if_neg Bool.false_ne_true]
    exact ⟨le_add_of_nonneg_right hlow, by linarith, fun h => by rw [hstepped] at h; cases h⟩
  | true =>
    obtain ⟨n, hn⟩ := h.steps hstepped
    have hsame : desc.minValue + (desc.maxValue - desc.minValue) * fraction - desc.minValue +
        1 / 2 = (desc.maxValue - desc.minValue) * fraction + 1 / 2 := by ring
    rw [if_pos rfl, hsame, toInt_of_nonneg (by positivity)]
    have hfloor0 : 0 ≤ ⌊(desc.maxValue - desc.minValue) * fraction + 1 / 2⌋ :=
      Int.floor_nonneg.mpr (by positivity)
    have hfloor : ⌊(desc.maxValue - desc.minValue) * fraction + 1 / 2⌋ ≤ n := by
      rw [← Int.lt_add_one_iff, Int.floor_lt]
      push_cast
      linarith
    have hfloor' : ((⌊(desc.maxValue - desc.minValue) * fraction + 1 / 2⌋ : ℤ) : ℚ) ≤ n := by
      exact_mod_cast hfloor
    have hfloor0' : (0 : ℚ) ≤ (⌊(desc.maxValue - desc.minValue) * fraction + 1 / 2⌋ : ℤ) := by
      exact_mod_cast hfloor0
    refine ⟨le_add_of_nonneg_right hfloor0', by linarith,
      fun _ => ⟨⌊(desc.maxValue - desc.minValue) * fraction + 1 / 2⌋.toNat, ?_⟩⟩
    rw [← Int.cast_natCast, Int.toNat_of_nonneg hfloor0]

/-- The calls set what the parameters declare. -/
def Sets (params : List (ParamDesc ExactFloat)) (v : View ExactFloat) : Prop :=
  v.params = params ∧ SetsDeclared params v.edits

variable {params : List (ParamDesc ExactFloat)}

theorem Sets.of_untouched (h : Sets params v) (hu : Untouched v v') : Sets params v' :=
  ⟨hu.params.trans h.1, hu.edits ▸ h.2⟩

theorem sets_onMouseDrag (hranged : ∀ desc ∈ params, Ranged desc) (h : Sets params v) (i : Nat)
    (mouseX : Int) : Sets params (v.onMouseDrag i mouseX) := by
  cases hrow : v.params[i]? with
  | none =>
    unfold View.onMouseDrag
    rw [hrow]
    exact h
  | some desc =>
    rw [View.onMouseDrag_eq hrow]
    have hmem : desc ∈ params := h.1 ▸ List.mem_of_getElem? hrow
    refine ⟨h.1, h.2.append (setsDeclared_of_value hmem
      (declared_valueAt v (hranged desc hmem) i mouseX) fun edit hedit => ?_)⟩
    exact .inr (.inl (List.mem_singleton.mp hedit))

theorem sets_mark (h : Sets params v) {edit : UiEdit ExactFloat}
    (hedit : ∀ id x, edit ≠ .setValue id x) (i : Option Nat) :
    Sets params { v with dragParam := i, edits := v.edits ++ [edit] } :=
  ⟨h.1, h.2.append fun id x hx => absurd (List.mem_singleton.mp hx).symm (hedit id x)⟩

theorem sets_event (hranged : ∀ desc ∈ params, Ranged desc) (h : Sets params v) (e : XEvent) :
    Sets params (v.processXEvent e) := by
  cases e with
  | buttonPress button x y =>
    unfold View.processXEvent
    dsimp only
    split
    · unfold View.onMouseDown
      split
      · exact h
      · split
        · exact h
        · exact sets_onMouseDrag hranged (sets_mark h (fun _ _ heq => by cases heq) _) _ _
    · exact h
  | motionNotify x =>
    unfold View.processXEvent
    dsimp only
    split
    · exact h
    · exact sets_onMouseDrag hranged h _ _
  | buttonRelease button x =>
    unfold View.processXEvent
    dsimp only
    split
    · exact h
    · split
      · unfold View.onMouseUp
        split
        · exact h
        · exact sets_mark (sets_onMouseDrag hranged h _ _) (fun _ _ heq => by cases heq) _
      · exact h
  | configureNotify width height | destroyNotify => exact ⟨h.1, h.2⟩
  | expose | selectionRequest | selectionClear | other => exact h

theorem sets_step (hranged : ∀ desc ∈ params, Ranged desc) {act : Act ExactFloat}
    (h : Sets params v) (hs : step v act = .ok (v', o)) : Sets params v' := by
  cases act with
  | attach usable opened =>
    cases hs
    unfold View.attach
    split
    · exact h
    · exact h.of_untouched ⟨rfl, rfl, rfl, rfl⟩
  | setSize width height =>
    cases hs
    exact Sets.of_untouched (v := { v with widthPx := width, heightPx := height }) h
      (View.untouched_pushIfJoinable _ (.resize width height)).1
  | setScale scale =>
    cases hs
    unfold View.setScale
    split
    · exact h
    · dsimp only
      split
      · exact h.of_untouched ⟨rfl, rfl, rfl, rfl⟩
      · exact h.of_untouched ⟨rfl, rfl, rfl, rfl⟩
  | «show» =>
    cases hs
    exact h.of_untouched (View.untouched_pushIfJoinable v .show).1
  | hide =>
    cases hs
    exact h.of_untouched (View.untouched_pushIfJoinable v .hide).1
  | destroy =>
    cases hs
    exact h.of_untouched (View.untouched_pushIfJoinable v .quit).1
  | turn =>
    obtain ⟨-, rfl⟩ := step_turn_ok hs
    exact h.of_untouched ⟨rfl, rfl, rfl, rfl⟩
  | read =>
    obtain ⟨-, ⟨-, rfl⟩ | ⟨-, rfl⟩⟩ := step_read_ok hs
    · exact h.of_untouched ⟨rfl, rfl, rfl, rfl⟩
    · exact h.of_untouched ⟨rfl, rfl, rfl, rfl⟩
  | process =>
    obtain ⟨-, rfl⟩ := step_process_ok hs
    exact h.of_untouched (View.untouched_processCommands v).1
  | event e =>
    obtain ⟨-, -, rfl⟩ := step_event_ok hs
    exact sets_event hranged h e

/-- Over every run of the X11 view, whatever size and scale it has. -/
theorem x11_values_declared {acts : List (Act ExactFloat)} {os : List Unit}
    (hranged : ∀ desc ∈ params, Ranged desc)
    (hrun : run step (View.construct params) acts = .ok (v, os)) :
    SetsDeclared params v.edits := by
  have h : Sets params v :=
    run_invariant (fun _ _ _ _ h hs => sets_step hranged h hs) ⟨rfl, setsDeclared_nil⟩ hrun
  exact h.2

theorem x11_values_declared_gui : ∃ v os,
    run step (View.construct (SliderViews.guiParamDescs : List (ParamDesc ExactFloat)))
      [.attach true true, .turn, .process, .event (.buttonPress 1 200 65)] = .ok (v, os) ∧
    SetsDeclared SliderViews.guiParamDescs v.edits := by
  obtain ⟨⟨v, os⟩, hrun⟩ : ∃ r,
      run step (View.construct (SliderViews.guiParamDescs : List (ParamDesc ExactFloat)))
        [.attach true true, .turn, .process, .event (.buttonPress 1 200 65)] = .ok r := ⟨_, rfl⟩
  exact ⟨v, os, hrun, x11_values_declared
    (fun _ h => ⟨(ranges_guiParamDescs h).1.le, (ranges_guiParamDescs h).2⟩) hrun⟩

end X11View

end Cvp
