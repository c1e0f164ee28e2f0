/-
  `gui/native_view_x11.cpp`: the editor's window on Linux, with a thread of its own. The main thread
  queues commands and writes a byte to a pipe for each; the UI thread drains the pipe, handles the
  commands, then the X events, and turns again. A press on a slider begins a drag, and a drag is a
  gesture on the parameter.

  Left out: drawing and the tick, fonts and colours, the clipboard (the Copy Log button makes no
  call on the model that sets a parameter), what the X server answers, and a pipe that is full.
  `int` is computed in ℤ; a `uint32_t` that is cast to it wraps.
-/
import ClapValidatorPlugins.Lib.Machine
import ClapValidatorPlugins.Plugins.Gui

namespace Cvp.X11View

open Machine

/-! ## The view -/

/-- `GuiModel::ParamDesc`, as far as the view reads it outside of drawing. -/
structure ParamDesc (D : Type) where
  id : ClapId
  minValue : D
  maxValue : D
  stepped : Bool

inductive Command where
  | resize (width height : UInt32)
  | show
  | hide
  | quit
  deriving DecidableEq, Repr

/-- What the view asks of the X server. -/
inductive XRequest where
  | resizeWindow (width height : UInt32)
  | mapWindow
  | unmapWindow
  deriving DecidableEq, Repr

inductive XEvent where
  | expose
  | configureNotify (width height : UInt32)
  | destroyNotify
  | buttonPress (button : Nat) (x y : Int)
  | motionNotify (x : Int)
  | buttonRelease (button : Nat) (x : Int)
  | selectionRequest
  | selectionClear
  | other
  deriving DecidableEq, Repr

/-- Where the UI thread is. -/
inductive UiThread where
  /-- `attach` has not started it -/
  | idle
  /-- in `select`, or handling events -/
  | turning
  /-- about to read from the pipe -/
  | draining
  /-- about to take the commands -/
  | handling
  | ended
  deriving DecidableEq, Repr

structure View (D : Type) where
  params : List (ParamDesc D)
  scale : D
  widthPx : UInt32
  heightPx : UInt32
  commands : List Command := []
  /-- the bytes in the pipe -/
  pipe : Nat := 0
  thread : UiThread := .idle
  windowDead : Bool := false
  dragParam : Option Nat := none
  requests : List XRequest := []
  /-- the calls made on the model -/
  edits : List (UiEdit D) := []

namespace View

variable {D : Type} [DoubleOps D]

/-! ## Layout -/

def kLabelWidth : Int := 120
def kValueWidth : Int := 90
def kDefaultWidth : Int := 560
def kRowHeight : Int := 26
def kButtonRowHeight : Int := 28
def kTransportHeight : Int := 38
def kLogLines : Int := 20
def kLogLineHeight : Int := 15
def kPadding : Int := 8

def paramsTopFor : Int := kPadding + kTransportHeight + kPadding
def buttonRowTopFor (paramCount : Nat) : Int := paramsTopFor + paramCount * kRowHeight + kPadding
def logTopFor (paramCount : Nat) : Int := buttonRowTopFor paramCount + kButtonRowHeight + kPadding
def minHeightFor (paramCount : Nat) : Int :=
  logTopFor paramCount + kLogLines * kLogLineHeight + kPadding

/-- `scaled`. -/
def scaledBy (scale : D) (logical : Int) : UInt32 :=
  DoubleOps.toUInt32 (DoubleOps.ofInt logical * scale + DoubleOps.lit (1 / 2))

def scaled (v : View D) (logical : Int) : UInt32 := scaledBy v.scale logical

/-- `static_cast<int>`. -/
def asInt (x : UInt32) : Int := x.toInt32.toInt

structure Rect where
  x : Int
  y : Int
  w : Int
  h : Int

/-- The slider of row `i`. -/
def trackRect (v : View D) (i : Nat) : Rect :=
  let pad := asInt (v.scaled kPadding)
  let rowH := asInt (v.scaled kRowHeight)
  let labelW := asInt (v.scaled kLabelWidth)
  let valueW := asInt (v.scaled kValueWidth)
  { x := pad + labelW + 6
    y := asInt (v.scaled paramsTopFor) + i * rowH + rowH.tdiv 2 - 4
    w := asInt v.widthPx - labelW - valueW - 3 * pad - 12
    h := 8 }

def buttonRect (v : View D) : Rect :=
  let pad := asInt (v.scaled kPadding)
  let w := asInt (v.scaled 110)
  { x := asInt v.widthPx - pad - w
    y := asInt (v.scaled (buttonRowTopFor v.params.length))
    w := w
    h := asInt (v.scaled (kButtonRowHeight - 6)) }

def onButton (v : View D) (mouseX mouseY : Int) : Bool :=
  let r := v.buttonRect
  decide (r.x ≤ mouseX ∧ mouseX ≤ r.x + r.w ∧ r.y ≤ mouseY ∧ mouseY ≤ r.y + r.h)

def onTrack (v : View D) (mouseX mouseY : Int) (i : Nat) : Bool :=
  let r := v.trackRect i
  decide (r.x ≤ mouseX ∧ mouseX ≤ r.x + r.w ∧ r.y - 6 ≤ mouseY ∧ mouseY ≤ r.y + r.h + 6)

/-- The row whose slider a press there takes hold of. -/
def sliderAt (v : View D) (mouseX mouseY : Int) : Option Nat :=
  if v.onButton mouseX mouseY then none
  else (List.range v.params.length).find? (v.onTrack mouseX mouseY)

/-! ## The mouse -/

/-- The value under the pointer. -/
def valueAt (v : View D) (desc : ParamDesc D) (i : Nat) (mouseX : Int) : D :=
  let r := v.trackRect i
  let fraction : D := if 0 < r.w then DoubleOps.ofInt (mouseX - r.x) / DoubleOps.ofInt r.w
    else DoubleOps.lit 0
  let fraction := if DoubleOps.lt fraction (DoubleOps.lit 0) then DoubleOps.lit 0
    else if DoubleOps.lt (DoubleOps.lit 1) fraction then DoubleOps.lit 1 else fraction
  let value := desc.minValue + (desc.maxValue - desc.minValue) * fraction
  if desc.stepped then
    desc.minValue +
      DoubleOps.ofInt (DoubleOps.toInt ((value - desc.minValue) + DoubleOps.lit (1 / 2)))
  else value

/-- `onMouseDrag` on row `i`, which is one of the rows. -/
def onMouseDrag (v : View D) (i : Nat) (mouseX : Int) : View D :=
  match v.params[i]? with
  | none => v
  | some desc => { v with edits := v.edits ++ [.setValue desc.id (v.valueAt desc i mouseX)] }

def onMouseDown (v : View D) (mouseX mouseY : Int) : View D :=
  match v.sliderAt mouseX mouseY with
  | none => v
  | some i =>
    match v.params[i]? with
    | none => v
    | some desc =>
      let v : View D := { v with dragParam := some i, edits := v.edits ++ [.beginGesture desc.id] }
      v.onMouseDrag i mouseX

/-- `Button1` came up: the last value and the end of the gesture. -/
def onMouseUp (v : View D) (i : Nat) (mouseX : Int) : View D :=
  match v.params[i]? with
  | none => v
  | some desc =>
    let v : View D := v.onMouseDrag i mouseX
    { v with dragParam := none, edits := v.edits ++ [.endGesture desc.id] }

/-- One round of the loop of `processXEvents`. -/
def processXEvent (v : View D) : XEvent → View D
  | .configureNotify width height => { v with widthPx := width, heightPx := height }
  | .destroyNotify => { v with windowDead := true }
  | .buttonPress button x y => if button = 1 then v.onMouseDown x y else v
  | .motionNotify x =>
    match v.dragParam with
    | none => v
    | some i => v.onMouseDrag i x
  | .buttonRelease button x =>
    match v.dragParam with
    | none => v
    | some i => if button = 1 then v.onMouseUp i x else v
  | .expose | .selectionRequest | .selectionClear | .other => v

/-! ## Commands -/

/-- A dead window is left alone. -/
def request (v : View D) (r : XRequest) : View D :=
  if v.windowDead then v else { v with requests := v.requests ++ [r] }

/-- The loop of `processCommands`; `false` behind a `Quit`. -/
def handle : View D → List Command → View D × Bool
  | v, [] => (v, true)
  | v, .quit :: _ => (v, false)
  | v, .resize width height :: rest => handle (v.request (.resizeWindow width height)) rest
  | v, .show :: rest => handle (v.request .mapWindow) rest
  | v, .hide :: rest => handle (v.request .unmapWindow) rest

/-- `running = processCommands()` and what `uiThread` makes of it. -/
def processCommands (v : View D) : View D :=
  let (v, running) := handle { v with commands := [] } v.commands
  { v with thread := if running then .turning else .ended }

/-- `pushCommand`: queued, and one byte to wake the UI thread. -/
def pushCommand (v : View D) (command : Command) : View D :=
  { v with commands := v.commands ++ [command], pipe := v.pipe + 1 }

/-- `_thread.joinable()` -/
def joinable (v : View D) : Bool := v.thread ≠ .idle

/-! ## The main thread -/

/-- The constructor. -/
def construct (params : List (ParamDesc D)) : View D :=
  { params := params, scale := DoubleOps.lit 1
    widthPx := scaledBy (DoubleOps.lit 1 : D) kDefaultWidth
    heightPx := scaledBy (DoubleOps.lit 1 : D) (minHeightFor params.length) }

/-- `attach` to a parent that is there and with a pipe; `opened` is whether the thread it starts
    gets a display. -/
def attach (v : View D) (usable opened : Bool) : View D :=
  if v.joinable || !usable then v
  else { v with thread := if opened then .turning else .ended }

def setSize (v : View D) (width height : UInt32) : View D :=
  let v := { v with widthPx := width, heightPx := height }
  if v.joinable then v.pushCommand (.resize width height) else v

def setScale (v : View D) (scale : D) : View D :=
  if DoubleOps.le scale (DoubleOps.lit 0) then v
  else
    let v := { v with scale := scale }
    if v.joinable then v
    else { v with
      widthPx := v.scaled kDefaultWidth
      heightPx := v.scaled (minHeightFor v.params.length) }

def pushIfJoinable (v : View D) (command : Command) : View D :=
  if v.joinable then v.pushCommand command else v

def showWindow (v : View D) : View D := v.pushIfJoinable .show

def hideWindow (v : View D) : View D := v.pushIfJoinable .hide

/-- The destructor up to the join; it is through once the thread has ended. -/
def destroy (v : View D) : View D := v.pushIfJoinable .quit

end View

/-! ## The two threads -/

/-- `sizeof(drainBuf)` -/
def kDrainSize : Nat := 16

/-- What happens next: a call from the main thread, or a step of the UI thread. -/
inductive Act (D : Type) where
  | attach (usable opened : Bool)
  | setSize (width height : UInt32)
  | setScale (scale : D)
  | show
  | hide
  | destroy
  /-- `select` returns: on to the drain if the pipe is readable, else to the commands -/
  | turn
  /-- one `read` of the drain loop; a short one ends it -/
  | read
  /-- `processCommands` -/
  | process
  /-- `XNextEvent` -/
  | event (e : XEvent)

variable {D : Type} [DoubleOps D]

/-- A step of the UI thread that it cannot take where it is: a read does not return from an empty
    pipe, and a dead window has no events. -/
def step : Step (View D) (Act D) Unit Unit
  | v, .attach usable opened => .ok (v.attach usable opened, ())
  | v, .setSize width height => .ok (v.setSize width height, ())
  | v, .setScale scale => .ok (v.setScale scale, ())
  | v, .show => .ok (v.showWindow, ())
  | v, .hide => .ok (v.hideWindow, ())
  | v, .destroy => .ok (v.destroy, ())
  | v, .turn =>
    if v.thread ≠ .turning then .error ()
    else .ok ({ v with thread := if 0 < v.pipe then .draining else .handling }, ())
  | v, .read =>
    if v.thread ≠ .draining ∨ v.pipe = 0 then .error ()
    else if kDrainSize ≤ v.pipe then .ok ({ v with pipe := v.pipe - kDrainSize }, ())
    else .ok ({ v with pipe := 0, thread := .handling }, ())
  | v, .process =>
    if v.thread ≠ .handling then .error ()
    else .ok (v.processCommands, ())
  | v, .event e =>
    if v.thread ≠ .turning ∨ v.windowDead then .error ()
    else .ok (v.processXEvent e, ())

/-! ## What the UI thread's steps do -/

section Steps

variable {v v' : View D} {o : Unit}

theorem step_turn_ok (h : step v .turn = .ok (v', o)) : v.thread = .turning ∧
    v' = { v with thread := if 0 < v.pipe then .draining else .handling } := by
  rw [step] at h
  split at h
  · cases h
  · rename_i hturning
    cases h
    exact ⟨not_not.mp hturning, rfl⟩

/-- A full read goes on, a short one ends the drain. -/
theorem step_read_ok (h : step v .read = .ok (v', o)) : v.thread = .draining ∧
    (kDrainSize ≤ v.pipe ∧ v' = { v with pipe := v.pipe - kDrainSize } ∨
      v.pipe < kDrainSize ∧ v' = { v with pipe := 0, thread := .handling }) := by
  rw [step] at h
  split at h
  · cases h
  · rename_i hdraining
    refine ⟨not_not.mp (not_or.mp hdraining).1, ?_⟩
    split at h
    · rename_i hfull
      cases h
      exact .inl ⟨hfull, rfl⟩
    · rename_i hshort
      cases h
      exact .inr ⟨Nat.not_le.mp hshort, rfl⟩

theorem step_process_ok (h : step v .process = .ok (v', o)) :
    v.thread = .handling ∧ v' = v.processCommands := by
  rw [step] at h
  split at h
  · cases h
  · rename_i hhandling
    cases h
    exact ⟨not_not.mp hhandling, rfl⟩

theorem step_event_ok {e : XEvent} (h : step v (.event e) = .ok (v', o)) :
    v.thread = .turning ∧ v.windowDead = false ∧ v' = v.processXEvent e := by
  rw [step] at h
  split at h
  · cases h
  · rename_i hopen
    obtain ⟨hturning, hlive⟩ := not_or.mp hopen
    cases h
    exact ⟨not_not.mp hturning, Bool.eq_false_iff.mpr hlive, rfl⟩

end Steps

end Cvp.X11View
