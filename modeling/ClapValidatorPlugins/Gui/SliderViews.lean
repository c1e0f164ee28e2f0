/-
  `gui/native_view_win32.cpp` and `native_view_mac.mm`: the editor on the platforms where a slider
  is a control of its own and the view is told what became of it. Each parameter has a flag that
  says whether a gesture is open on it; a timer shows the value of those that have none. The calls
  the Win32 view makes on the model are in order whatever messages come (`win32_edits_in_order`),
  those of the Mac view are exactly if no change other than by the mouse comes while a slider is
  held (`mac_edits_in_order_iff`).

  Left out: windows, layout, fonts and texts, and the 16 bits of `TBM_SETRANGE`. A trackbar keeps
  its position inside its range, as it is documented to.
-/
import ClapValidatorPlugins.Gui.X11Gestures

namespace Cvp.SliderViews

open Machine
open X11View (ParamDesc InOrder)

/-- A row: its parameter, its flag and where its control stands. -/
structure Slider (D P : Type) where
  desc : ParamDesc D
  inGesture : Bool := false
  pos : P

structure View (D P : Type) where
  sliders : List (Slider D P)
  /-- `_model` is null, or there is no window -/
  closed : Bool := false
  /-- what `guiParamValue` answers -/
  values : ClapId → D
  /-- the calls made on the model -/
  edits : List (UiEdit D) := []

namespace View

variable {D P : Type}

/-- A call on the model; it stores a value at once. -/
def call (v : View D P) (edit : UiEdit D) : View D P :=
  { v with
    edits := v.edits ++ [edit]
    values := match edit with
      | .setValue id x => Function.update v.values id x
      | .beginGesture _ | .endGesture _ => v.values }

def put (v : View D P) (i : Nat) (slider : Slider D P) : View D P :=
  { v with sliders := v.sliders.set i slider }

end View

/-- `guiParamDesc` of each parameter of the GUI plugin. -/
def guiParamDescs {D : Type} [DoubleOps D] : List (ParamDesc D) :=
  GuiPlugin.paramInfos.map fun info =>
    { id := info.id, minValue := info.minValue, maxValue := info.maxValue
      stepped := info.flags.isStepped }

theorem nodup_guiParamDescs {D : Type} [DoubleOps D] :
    ((guiParamDescs : List (ParamDesc D)).map (·.id)).Nodup :=
  (by decide : [GuiPlugin.kParamGain, GuiPlugin.kParamMode, GuiPlugin.kParamMute].Nodup)

/-! ## Win32 -/

namespace Win32

/-- `LOWORD(wParam)` of `WM_HSCROLL`. -/
inductive ScrollCode where
  | endTrack
  /-- the thumb, a key or a click -/
  | other
  deriving DecidableEq, Repr

inductive Message (D : Type) where
  /-- `WM_HSCROLL` of the control of row `i`, which stands at `pos` -/
  | hScroll (i : Nat) (code : ScrollCode) (pos : Int)
  | timer
  /-- the plugin or the host changes a parameter -/
  | automate (id : ClapId) (value : D)
  | destroy

variable {D : Type} [DoubleOps D]

def kTrackbarRange : Int := 1000

def trackbarRange (desc : ParamDesc D) : Int :=
  if desc.stepped then DoubleOps.toInt (desc.maxValue - desc.minValue) else kTrackbarRange

def valueToPos (desc : ParamDesc D) (value : D) : Int :=
  if desc.stepped then DoubleOps.toInt (value - desc.minValue + DoubleOps.lit (1 / 2))
  else
    let range := desc.maxValue - desc.minValue
    if DoubleOps.lt (DoubleOps.lit 0) range then
      DoubleOps.toInt ((value - desc.minValue) / range * DoubleOps.ofInt kTrackbarRange +
        DoubleOps.lit (1 / 2))
    else 0

def posToValue (desc : ParamDesc D) (pos : Int) : D :=
  if desc.stepped then desc.minValue + DoubleOps.ofInt pos
  else desc.minValue + (desc.maxValue - desc.minValue) * DoubleOps.ofInt pos /
    DoubleOps.ofInt kTrackbarRange

/-- `TBM_SETPOS`. -/
def setPos (slider : Slider D Int) (pos : Int) : Slider D Int :=
  { slider with pos := max 0 (min pos (trackbarRange slider.desc)) }

/-- `createChildren`. -/
def construct (descs : List (ParamDesc D)) (values : ClapId → D) : View D Int :=
  { sliders := descs.map fun desc =>
      setPos { desc := desc, pos := 0 } (valueToPos desc (values desc.id))
    values := values }

/-- `onHScroll`, for the row whose control it is. -/
def onHScroll (v : View D Int) (i : Nat) (slider : Slider D Int) (code : ScrollCode) :
    View D Int :=
  let desc := slider.desc
  let value := posToValue desc slider.pos
  match code with
  | .endTrack =>
    let v := if !slider.inGesture then (v.call (.beginGesture desc.id)).call
        (.setValue desc.id value)
      else v
    (v.call (.endGesture desc.id)).put i { slider with inGesture := false }
  | .other =>
    let v := if !slider.inGesture then
        (v.put i { slider with inGesture := true }).call (.beginGesture desc.id)
      else v.put i slider
    v.call (.setValue desc.id value)

/-- `tick`, as far as the sliders go. -/
def tick (v : View D Int) : View D Int :=
  { v with sliders := v.sliders.map fun slider =>
      if slider.inGesture then slider
      else setPos slider (valueToPos slider.desc (v.values slider.desc.id)) }

def step : Step (View D Int) (Message D) Unit Unit
  | v, .hScroll i code pos =>
    if v.closed then .ok (v, ())
    else
      match v.sliders[i]? with
      | none => .ok (v, ())
      | some slider => .ok (onHScroll v i { slider with pos := pos } code, ())
  | v, .timer => .ok (if v.closed then v else tick v, ())
  | v, .automate id value => .ok ({ v with values := Function.update v.values id value }, ())
  | v, .destroy => .ok ({ v with closed := true }, ())

end Win32

/-! ## Mac -/

namespace Mac

/-- `NSApp.currentEvent.type`. -/
inductive EventType where
  | leftMouseDown | leftMouseDragged | leftMouseUp
  /-- a key, or anything else -/
  | other
  deriving DecidableEq, Repr

inductive Message (D : Type) where
  /-- the action of the slider with tag `i`, whose value is `value` -/
  | sliderChanged (i : Nat) (eventType : EventType) (value : D)
  | tick
  | automate (id : ClapId) (value : D)
  | shutdown

variable {D : Type}

def construct (descs : List (ParamDesc D)) (values : ClapId → D) : View D D :=
  { sliders := descs.map fun desc => { desc := desc, pos := values desc.id }
    values := values }

/-- A gesture begins unless one is open. -/
def beginOnce (v : View D D) (i : Nat) (slider : Slider D D) : View D D :=
  if !slider.inGesture then
    (v.put i { slider with inGesture := true }).call (.beginGesture slider.desc.id)
  else v.put i slider

/-- `sliderChanged:`. -/
def sliderChanged (v : View D D) (i : Nat) (slider : Slider D D) (eventType : EventType) :
    View D D :=
  let id := slider.desc.id
  match eventType with
  | .leftMouseDown | .leftMouseDragged => (beginOnce v i slider).call (.setValue id slider.pos)
  | .leftMouseUp =>
    (((beginOnce v i slider).call (.setValue id slider.pos)).call (.endGesture id)).put i
      { slider with inGesture := false }
  | .other =>
    (((v.put i slider).call (.beginGesture id)).call (.setValue id slider.pos)).call
      (.endGesture id)

def tick (v : View D D) : View D D :=
  { v with sliders := v.sliders.map fun slider =>
      if slider.inGesture then slider else { slider with pos := v.values slider.desc.id } }

def step : Step (View D D) (Message D) Unit Unit
  | v, .sliderChanged i eventType value =>
    if v.closed then .ok (v, ())
    else
      match v.sliders[i]? with
      | none => .ok (v, ())
      | some slider => .ok (sliderChanged v i { slider with pos := value } eventType, ())
  | v, .tick => .ok (if v.closed then v else tick v, ())
  | v, .automate id value => .ok ({ v with values := Function.update v.values id value }, ())
  | v, .shutdown => .ok ({ v with closed := true }, ())

end Mac

/-! ## The gestures that are open -/

section Order

variable {D P : Type}

/-- The gestures open behind the calls. -/
def openBehind (edits : List (UiEdit D)) : ClapId → Bool :=
  edits.foldl GuiPlugin.track fun _ => false

theorem inOrder_append (xs ys : List (UiEdit D)) : ∀ inGesture,
    InOrder inGesture (xs ++ ys) ↔
      InOrder inGesture xs ∧ InOrder (xs.foldl GuiPlugin.track inGesture) ys := by
  induction xs with
  | nil => exact fun _ => (iff_of_eq (true_and _)).symm
  | cons edit xs ih =>
    intro inGesture
    show GuiPlugin.fits inGesture edit ∧ InOrder _ (xs ++ ys) ↔ (_ ∧ InOrder _ xs) ∧ _
    rw [ih, and_assoc]
    rfl

theorem set_same {α : Type} {xs : List α} {i : Nat} {x : α} (h : xs[i]? = some x) :
    xs.set i x = xs := by
  obtain ⟨hi, rfl⟩ := List.getElem?_eq_some_iff.mp h
  exact List.set_getElem_self hi

/-- The calls are in order, and the flags say which gestures are open. -/
structure Tracks (v : View D P) : Prop where
  ids : (v.sliders.map (·.desc.id)).Nodup
  order : InOrder (fun _ => false) v.edits
  flags : ∀ (i : Nat) (s : Slider D P), v.sliders[i]? = some s →
    openBehind v.edits s.desc.id = s.inGesture
  others : ∀ id, (∀ s ∈ v.sliders, s.desc.id ≠ id) → openBehind v.edits id = false

variable {v v' : View D P}

theorem Tracks.of_same (h : Tracks v) (hsliders : v'.sliders = v.sliders)
    (hedits : v'.edits = v.edits) : Tracks v' := by
  refine ⟨hsliders ▸ h.ids, hedits ▸ h.order, ?_, ?_⟩
  · rw [hsliders, hedits]
    exact h.flags
  · rw [hsliders, hedits]
    exact h.others

/-- The timer moves controls, not flags. -/
theorem Tracks.of_moved (h : Tracks v) (move : Slider D P → Slider D P)
    (hmove : ∀ s, (move s).desc = s.desc ∧ (move s).inGesture = s.inGesture)
    (hsliders : v'.sliders = v.sliders.map move) (hedits : v'.edits = v.edits) : Tracks v' := by
  refine ⟨?_, hedits ▸ h.order, fun i slider hi => ?_, fun id hid => ?_⟩
  · have hids : (fun s : Slider D P => s.desc.id) ∘ move = fun s => s.desc.id :=
      funext fun s => congrArg ParamDesc.id (hmove s).1
    rw [hsliders, List.map_map, hids]
    exact h.ids
  · rw [hsliders, List.getElem?_map] at hi
    obtain ⟨s, hs, rfl⟩ := Option.map_eq_some_iff.mp hi
    rw [hedits, (hmove s).1, (hmove s).2]
    exact h.flags i s hs
  · rw [hedits]
    refine h.others id fun s hs => ?_
    rw [← (hmove s).1]
    exact hid _ (hsliders ▸ List.mem_map_of_mem hs)

/-- Calls on the parameter of row `i` that lead from its flag to its new flag. -/
theorem Tracks.of_row (h : Tracks v) {i : Nat} {s s' : Slider D P}
    {es : List (UiEdit D)} (hrow : v.sliders[i]? = some s)
    (hsliders : v'.sliders = v.sliders.set i s') (hedits : v'.edits = v.edits ++ es)
    (hdesc : s'.desc = s.desc)
    (hes : ∀ g, g s.desc.id = s.inGesture →
      InOrder g es ∧ es.foldl GuiPlugin.track g = Function.update g s.desc.id s'.inGesture) :
    Tracks v' := by
  have hlt := (List.getElem?_eq_some_iff.mp hrow).1
  obtain ⟨hin, hfold⟩ := hes (openBehind v.edits) (h.flags i s hrow)
  have hopen : openBehind v'.edits =
      Function.update (openBehind v.edits) s.desc.id s'.inGesture := by
    rw [openBehind, hedits, List.foldl_append]
    exact hfold
  have hsame : (v.sliders.set i s').map (·.desc.id) = v.sliders.map (·.desc.id) := by
    rw [List.map_set, hdesc]
    exact set_same (by rw [List.getElem?_map, hrow]; rfl)
  refine ⟨?_, ?_, fun j slider hj => ?_, fun id hid => ?_⟩
  · rw [hsliders, hsame]
    exact h.ids
  · rw [hedits, inOrder_append]
    exact ⟨h.order, hin⟩
  · rw [hopen]
    rw [hsliders] at hj
    by_cases hij : i = j
    · subst hij
      rw [List.getElem?_set_self hlt] at hj
      cases hj
      rw [hdesc, Function.update_self]
    · rw [List.getElem?_set_ne hij] at hj
      have hne : slider.desc.id ≠ s.desc.id := fun heq => hij <| by
        refine (List.getElem?_inj (by rwa [List.length_map]) h.ids).mp ?_
        rw [List.getElem?_map, List.getElem?_map, hrow, hj, Option.map_some, Option.map_some, heq]
      rw [Function.update_of_ne hne]
      exact h.flags j slider hj
  · have hne : id ≠ s.desc.id := fun heq => by
      refine hid s' ?_ (hdesc ▸ heq.symm)
      rw [hsliders]
      exact List.mem_of_getElem? (List.getElem?_set_self hlt)
    rw [hopen, Function.update_of_ne hne]
    refine h.others id fun slider hslider heq => ?_
    obtain ⟨j, hj⟩ := List.mem_iff_getElem?.mp hslider
    by_cases hij : i = j
    · subst hij
      rw [hrow] at hj
      cases hj
      exact hne heq.symm
    · refine hid slider ?_ heq
      rw [hsliders]
      exact List.mem_of_getElem? ((List.getElem?_set_ne hij).trans hj)

theorem Tracks.open_iff (h : Tracks v) (id : ClapId) : openBehind v.edits id = true ↔
    ∃ s ∈ v.sliders, s.desc.id = id ∧ s.inGesture = true := by
  constructor
  · intro hopen
    by_contra hnone
    have hid : ∃ s ∈ v.sliders, s.desc.id = id := by
      by_contra hother
      have hclosed := h.others id fun s hs heq => hother ⟨s, hs, heq⟩
      rw [hopen] at hclosed
      cases hclosed
    obtain ⟨s, hs, rfl⟩ := hid
    obtain ⟨i, hi⟩ := List.mem_iff_getElem?.mp hs
    exact hnone ⟨s, hs, rfl, (h.flags i s hi).symm.trans hopen⟩
  · rintro ⟨s, hs, rfl, hflag⟩
    obtain ⟨i, hi⟩ := List.mem_iff_getElem?.mp hs
    exact (h.flags i s hi).trans hflag

/-- A begin where no gesture is open, and an end where one is. -/
theorem follows_begin {g : ClapId → Bool} {id : ClapId} (x : D) (h : g id = false) :
    InOrder g [.beginGesture id, .setValue id x] ∧
      [UiEdit.beginGesture id, .setValue id x].foldl GuiPlugin.track g =
        Function.update g id true :=
  ⟨⟨h, Function.update_self .., trivial⟩, rfl⟩

theorem follows_value {g : ClapId → Bool} {id : ClapId} (x : D) (h : g id = true) :
    InOrder g [.setValue id x] ∧
      [UiEdit.setValue id x].foldl GuiPlugin.track g = Function.update g id true :=
  ⟨⟨h, trivial⟩, (Function.update_eq_self_iff.mpr h.symm).symm⟩

theorem follows_end {g : ClapId → Bool} {id : ClapId} (h : g id = true) :
    InOrder g [UiEdit.endGesture (D := D) id] ∧
      [UiEdit.endGesture (D := D) id].foldl GuiPlugin.track g = Function.update g id false :=
  ⟨⟨h, trivial⟩, rfl⟩

theorem follows_whole {g : ClapId → Bool} {id : ClapId} (x : D) (h : g id = false) :
    InOrder g [.beginGesture id, .setValue id x, .endGesture id] ∧
      [UiEdit.beginGesture id, .setValue id x, .endGesture id].foldl GuiPlugin.track g =
        Function.update g id false :=
  ⟨⟨h, Function.update_self .., Function.update_self .., trivial⟩, Function.update_idem ..⟩

theorem follows_last {g : ClapId → Bool} {id : ClapId} (x : D) (h : g id = true) :
    InOrder g [.setValue id x, .endGesture id] ∧
      [UiEdit.setValue id x, .endGesture id].foldl GuiPlugin.track g =
        Function.update g id false :=
  ⟨⟨h, h, trivial⟩, rfl⟩

end Order

/-! ## The Win32 view -/

namespace Win32

variable {D : Type} [DoubleOps D] {v v' : View D Int} {o : Unit}

theorem tracks_construct {descs : List (ParamDesc D)} (values : ClapId → D)
    (hids : (descs.map (·.id)).Nodup) : Tracks (construct descs values) := by
  refine ⟨?_, trivial, fun i s hi => ?_, fun _ _ => rfl⟩
  · rw [construct, List.map_map]
    exact hids
  · rw [construct, List.getElem?_map] at hi
    obtain ⟨desc, -, rfl⟩ := Option.map_eq_some_iff.mp hi
    rfl

/-- The calls of one `WM_HSCROLL`. -/
def callsOf (slider : Slider D Int) (code : ScrollCode) : List (UiEdit D) :=
  let id := slider.desc.id
  let value := posToValue slider.desc slider.pos
  match slider.inGesture, code with
  | false, .endTrack => [.beginGesture id, .setValue id value, .endGesture id]
  | false, .other => [.beginGesture id, .setValue id value]
  | true, .endTrack => [.endGesture id]
  | true, .other => [.setValue id value]

/-- Everything a `WM_HSCROLL` does. -/
theorem onHScroll_does (v : View D Int) (i : Nat) (slider : Slider D Int) (code : ScrollCode) :
    (onHScroll v i slider code).edits = v.edits ++ callsOf slider code ∧
      (onHScroll v i slider code).sliders =
        v.sliders.set i { slider with inGesture := decide (code = .other) } ∧
      (onHScroll v i slider code).values =
        if slider.inGesture = true ∧ code = .endTrack then v.values
        else Function.update v.values slider.desc.id (posToValue slider.desc slider.pos) := by
  obtain ⟨desc, inGesture, pos⟩ := slider
  cases inGesture <;> cases code <;> simp [onHScroll, callsOf, View.call, View.put]

theorem tracks_onHScroll {i : Nat} {s : Slider D Int} (h : Tracks v)
    (hrow : v.sliders[i]? = some s) (code : ScrollCode) (pos : Int) :
    Tracks (onHScroll v i { s with pos := pos } code) := by
  obtain ⟨hedits, hsliders, -⟩ := onHScroll_does v i { s with pos := pos } code
  refine h.of_row hrow hsliders hedits rfl fun g hg => ?_
  cases hopen : s.inGesture with
  | false =>
    rw [hopen] at hg
    cases code with
    | endTrack => simpa [callsOf, hopen] using follows_whole _ hg
    | other => simpa [callsOf, hopen] using follows_begin _ hg
  | true =>
    rw [hopen] at hg
    cases code with
    | endTrack => simpa [callsOf, hopen] using follows_end hg
    | other => simpa [callsOf, hopen] using follows_value _ hg

theorem tracks_step {message : Message D} (h : Tracks v) (hs : step v message = .ok (v', o)) :
    Tracks v' := by
  cases message with
  | hScroll i code pos =>
    rw [step] at hs
    split at hs
    · cases hs
      exact h
    · split at hs
      · cases hs
        exact h
      · rename_i slider hrow
        cases hs
        exact tracks_onHScroll h hrow code pos
  | timer =>
    cases hs
    split
    · exact h
    · refine h.of_moved _ (fun s => ?_) rfl rfl
      split
      · exact ⟨rfl, rfl⟩
      · exact ⟨rfl, rfl⟩
  | automate id value =>
    cases hs
    exact h.of_same rfl rfl
  | destroy =>
    cases hs
    exact h.of_same rfl rfl

/-- Whatever messages come in whatever order, the calls are in order for every parameter, and the
    gestures that are open are those of the rows in a gesture. -/
theorem win32_edits_in_order {descs : List (ParamDesc D)} {values : ClapId → D}
    {messages : List (Message D)} {os : List Unit} (hids : (descs.map (·.id)).Nodup)
    (hrun : run step (construct descs values) messages = .ok (v, os)) :
    InOrder (fun _ => false) v.edits ∧
      ∀ id, openBehind v.edits id = true ↔
        ∃ s ∈ v.sliders, s.desc.id = id ∧ s.inGesture = true := by
  have h : Tracks v := run_invariant (fun _ _ _ _ h hs => tracks_step h hs)
    (tracks_construct values hids) hrun
  exact ⟨h.order, h.open_iff⟩

/-- The thumbs of two rows are held at once. -/
theorem win32_edits_in_order_two : ∃ v os,
    run step (construct guiParamDescs fun _ => (0 : ExactFloat))
      [.hScroll 0 .other 500, .hScroll 1 .other 2, .timer, .hScroll 0 .endTrack 510] =
        .ok (v, os) ∧
    InOrder (fun _ => false) v.edits ∧
      ∀ id, openBehind v.edits id = true ↔
        ∃ s ∈ v.sliders, s.desc.id = id ∧ s.inGesture = true := by
  obtain ⟨⟨v, os⟩, hrun⟩ : ∃ r, run step (construct guiParamDescs fun _ => (0 : ExactFloat))
      [.hScroll 0 .other 500, .hScroll 1 .other 2, .timer, .hScroll 0 .endTrack 510] = .ok r :=
    ⟨_, rfl⟩
  exact ⟨v, os, hrun, win32_edits_in_order nodup_guiParamDescs hrun⟩

end Win32

/-! ## The Mac view -/

namespace Mac

variable {D : Type} {v v' : View D D} {o : Unit}

theorem tracks_construct {descs : List (ParamDesc D)} (values : ClapId → D)
    (hids : (descs.map (·.id)).Nodup) : Tracks (construct descs values) := by
  refine ⟨?_, trivial, fun i s hi => ?_, fun _ _ => rfl⟩
  · rw [construct, List.map_map]
    exact hids
  · rw [construct, List.getElem?_map] at hi
    obtain ⟨desc, -, rfl⟩ := Option.map_eq_some_iff.mp hi
    rfl

/-- The calls of one `sliderChanged:`. -/
def callsOf (slider : Slider D D) (eventType : EventType) : List (UiEdit D) :=
  let id := slider.desc.id
  match eventType, slider.inGesture with
  | .leftMouseDown, false | .leftMouseDragged, false =>
    [.beginGesture id, .setValue id slider.pos]
  | .leftMouseDown, true | .leftMouseDragged, true => [.setValue id slider.pos]
  | .leftMouseUp, true => [.setValue id slider.pos, .endGesture id]
  | .leftMouseUp, false | .other, _ =>
    [.beginGesture id, .setValue id slider.pos, .endGesture id]

/-- The flag behind it. -/
def flagBehind (slider : Slider D D) : EventType → Bool
  | .leftMouseDown | .leftMouseDragged => true
  | .leftMouseUp => false
  | .other => slider.inGesture

/-- Everything a `sliderChanged:` does. -/
theorem sliderChanged_does (v : View D D) (i : Nat) (slider : Slider D D)
    (eventType : EventType) :
    (sliderChanged v i slider eventType).edits = v.edits ++ callsOf slider eventType ∧
      (sliderChanged v i slider eventType).sliders =
        v.sliders.set i { slider with inGesture := flagBehind slider eventType } := by
  obtain ⟨desc, inGesture, pos⟩ := slider
  cases inGesture <;> cases eventType <;>
    simp [sliderChanged, beginOnce, callsOf, flagBehind, View.call, View.put]

/-- A change that is not the mouse's does not come while the slider is held. -/
def SparesGesture (v : View D D) (message : Message D) (_ : View D D) (_ : Unit) : Prop :=
  ∀ i value s, message = .sliderChanged i .other value → v.closed = false →
    v.sliders[i]? = some s → s.inGesture = false

theorem tracks_sliderChanged {i : Nat} {s : Slider D D} (h : Tracks v)
    (hrow : v.sliders[i]? = some s) (eventType : EventType) (value : D)
    (hspares : eventType = .other → s.inGesture = false) :
    Tracks (sliderChanged v i { s with pos := value } eventType) := by
  obtain ⟨hedits, hsliders⟩ := sliderChanged_does v i { s with pos := value } eventType
  refine h.of_row hrow hsliders hedits rfl fun g hg => ?_
  cases hopen : s.inGesture with
  | false =>
    rw [hopen] at hg
    cases eventType with
    | leftMouseDown | leftMouseDragged =>
      simpa [callsOf, flagBehind, hopen] using follows_begin value hg
    | leftMouseUp | other => simpa [callsOf, flagBehind, hopen] using follows_whole value hg
  | true =>
    rw [hopen] at hg
    cases eventType with
    | leftMouseDown | leftMouseDragged =>
      simpa [callsOf, flagBehind, hopen] using follows_value value hg
    | leftMouseUp => simpa [callsOf, flagBehind, hopen] using follows_last value hg
    | other =>
      rw [hspares rfl] at hopen
      cases hopen

theorem tracks_step {message : Message D} (h : Tracks v) (hs : step v message = .ok (v', o))
    (hspares : SparesGesture v message v' o) : Tracks v' := by
  cases message with
  | sliderChanged i eventType value =>
    rw [step] at hs
    split at hs
    · cases hs
      exact h
    · rename_i hopened
      split at hs
      · cases hs
        exact h
      · rename_i slider hrow
        cases hs
        refine tracks_sliderChanged h hrow eventType value ?_
        rintro rfl
        exact hspares i value slider rfl (Bool.eq_false_iff.mpr hopened) hrow
  | tick =>
    cases hs
    split
    · exact h
    · refine h.of_moved _ (fun s => ?_) rfl rfl
      split
      · exact ⟨rfl, rfl⟩
      · exact ⟨rfl, rfl⟩
  | automate id value =>
    cases hs
    exact h.of_same rfl rfl
  | shutdown =>
    cases hs
    exact h.of_same rfl rfl

/-- A begin inside a gesture is out of order. -/
theorem sparesGesture_of_inOrder {message : Message D} (h : Tracks v)
    (hs : step v message = .ok (v', o)) (hgood : InOrder (fun _ => false) v'.edits) :
    SparesGesture v message v' o := by
  rintro i value s rfl hopened hrow
  rw [step, if_neg (Bool.eq_false_iff.mp hopened), hrow] at hs
  cases hs
  rw [(sliderChanged_does v i { s with pos := value } .other).1, inOrder_append] at hgood
  exact (h.flags i s hrow).symm.trans hgood.2.1

/-- Over every run: the calls are in order in every state exactly if no change other than by the
    mouse comes for a slider that is held. -/
theorem mac_edits_in_order_iff {descs : List (ParamDesc D)} (values : ClapId → D)
    (hids : (descs.map (·.id)).Nodup) (messages : List (Message D)) :
    AllStates step (fun v => InOrder (fun _ => false) v.edits) (construct descs values) messages ↔
      AllSteps step SparesGesture (construct descs values) messages :=
  allStates_iff_allSteps (fun _ h => h.order)
    (fun _ _ _ _ h hs hspares => tracks_step h hs hspares)
    (fun _ _ _ _ h hs hgood => sparesGesture_of_inOrder h hs hgood) (tracks_construct values hids)

/-- An arrow key while the mouse holds the slider. -/
def keyInDrag : List (Message ExactFloat) :=
  [.sliderChanged 0 .leftMouseDown 3, .sliderChanged 0 .other 4, .sliderChanged 0 .leftMouseUp 4]

theorem mac_edits_in_order_iff_keyInDrag :
    AllStates step (fun v => InOrder (fun _ => false) v.edits)
        (construct guiParamDescs fun _ => 0) keyInDrag ↔
      AllSteps step SparesGesture (construct guiParamDescs fun _ => 0) keyInDrag :=
  mac_edits_in_order_iff _ nodup_guiParamDescs keyInDrag

end Mac

end Cvp.SliderViews
