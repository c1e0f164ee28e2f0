/-
  The gestures that the X11 view makes on the model. The drag is one index; a press sets it whether
  or not a drag is on, and neither the end of the window nor that of the thread looks at it. So the
  gestures come one after the other, each with its begin, its values and its end, and none stays
  open behind the end, exactly if no press takes hold of a slider during a drag and no drag is on
  when the window dies or the view quits (`gestures_alternate_iff`).
-/
import ClapValidatorPlugins.Gui.Gestures
import ClapValidatorPlugins.Gui.X11View
import ClapValidatorPlugins.Lib.Brackets

namespace Cvp.X11View

open Machine Brackets

variable {D : Type}

/-! ## Gestures -/

/-- What a call on the model is in a gesture. -/
def markOf : UiEdit D → Brackets.Mark ClapId
  | .beginGesture id => .opening id
  | .setValue id _ => .inner id
  | .endGesture id => .closing id

namespace View

def marks (v : View D) : List (Brackets.Mark ClapId) := v.edits.map markOf

/-- The parameter whose slider is held. -/
def dragged (v : View D) : Option ClapId := v.dragParam.bind fun i => (v.params[i]?).map (·.id)

/-- The calls so far are gestures, one after the other; once the window is dead or the view is
    destroyed none is open. -/
structure Alternates (v : View D) : Prop where
  front : IsFront v.marks
  complete : v.windowDead = true ∨ v.thread = .ended → Complete v.marks

/-- A press that takes hold of a slider, the end of the window, and the end of the view. -/
def interrupts [DoubleOps D] (v : View D) : Act D → Bool
  | .event (.buttonPress button x y) => button == 1 && (v.sliderAt x y).isSome
  | .event .destroyNotify => true
  | .process => v.commands.contains .quit
  | _ => false

end View

/-- No drag is interrupted. -/
def SparesDrag [DoubleOps D] (v : View D) (act : Act D) (_ : View D) (_ : Unit) : Prop :=
  v.interrupts act = true → v.dragParam = none

/-! ## Frames -/

/-- What the gestures depend on is as it was. -/
structure Untouched (v v' : View D) : Prop where
  params : v'.params = v.params
  edits : v'.edits = v.edits
  dragParam : v'.dragParam = v.dragParam
  windowDead : v'.windowDead = v.windowDead

/-- The drag is on one of the rows, its gesture is the open one, and none is on before the thread
    runs, behind it, and behind the window. -/
structure Settled (v : View D) : Prop where
  row : ∀ i ∈ v.dragParam, i < v.params.length
  reads : reads none v.marks = some v.dragged
  quiet : v.windowDead = true ∨ v.thread = .ended ∨ v.thread = .idle → v.dragParam = none

theorem Settled.of_untouched {v v' : View D} (h : Settled v) (hu : Untouched v v')
    (hquiet : v'.thread = .ended ∨ v'.thread = .idle → v.dragParam = none) : Settled v' := by
  refine ⟨?_, ?_, ?_⟩
  · rw [hu.dragParam, hu.params]
    exact h.row
  · unfold View.marks View.dragged
    rw [hu.edits, hu.dragParam, hu.params]
    exact h.reads
  · rw [hu.dragParam, hu.windowDead]
    exact fun hend => hend.elim (fun hdead => h.quiet (.inl hdead)) hquiet

theorem Settled.of_untouched_running {v v' : View D} (h : Settled v) (hu : Untouched v v')
    (hthread : v'.thread = v.thread) : Settled v' := by
  refine h.of_untouched hu ?_
  rw [hthread]
  exact fun hend => h.quiet (.inr hend)

theorem Settled.dragged_eq_none {v : View D} (h : Settled v) (hnone : v.dragged = none) :
    v.dragParam = none := by
  cases hdrag : v.dragParam with
  | none => rfl
  | some i =>
    have hrow := h.row i hdrag
    unfold View.dragged at hnone
    rw [hdrag, Option.bind_some, List.getElem?_eq_getElem hrow] at hnone
    cases hnone

theorem Settled.alternates {v : View D} (h : Settled v) : v.Alternates := by
  refine ⟨isFront_iff.mpr ⟨_, h.reads⟩, fun hend => complete_iff.mpr ?_⟩
  have hnone : v.dragParam = none := h.quiet (hend.imp_right .inl)
  rw [h.reads, View.dragged, hnone]
  rfl

namespace View

theorem untouched_pushIfJoinable (v : View D) (command : Command) :
    Untouched v (v.pushIfJoinable command) ∧ (v.pushIfJoinable command).thread = v.thread := by
  unfold pushIfJoinable
  split
  · exact ⟨⟨rfl, rfl, rfl, rfl⟩, rfl⟩
  · exact ⟨⟨rfl, rfl, rfl, rfl⟩, rfl⟩

/-- The commands are for the X server, but for `Quit`. -/
theorem handle_eq (commands : List Command) : ∀ v : View D, ∃ requests,
    handle v commands = ({ v with requests := requests }, !commands.contains .quit) := by
  induction commands with
  | nil => exact fun v => ⟨v.requests, rfl⟩
  | cons command commands ih =>
    intro v
    have hmore : ∀ r : XRequest, ∃ requests, handle (v.request r) commands =
        ({ v with requests := requests }, !commands.contains .quit) := by
      intro r
      obtain ⟨requests, h⟩ := ih (v.request r)
      unfold request at h ⊢
      split at h
      · rename_i hdead
        rw [if_pos hdead]
        exact ⟨requests, h⟩
      · rename_i hlive
        rw [if_neg hlive]
        exact ⟨requests, h⟩
    cases command with
    | quit => exact ⟨v.requests, rfl⟩
    | resize width height => exact hmore (.resizeWindow width height)
    | «show» => exact hmore .mapWindow
    | hide => exact hmore .unmapWindow

theorem untouched_processCommands (v : View D) :
    Untouched v v.processCommands ∧
      v.processCommands.thread = if v.commands.contains .quit then .ended else .turning := by
  obtain ⟨requests, h⟩ := handle_eq v.commands { v with commands := [] }
  unfold processCommands
  rw [h]
  refine ⟨⟨rfl, rfl, rfl, rfl⟩, ?_⟩
  cases v.commands.contains .quit <;> rfl

/-! ## The mouse -/

variable [DoubleOps D]

theorem onMouseDrag_eq {v : View D} {i : Nat} {desc : ParamDesc D} (h : v.params[i]? = some desc)
    (mouseX : Int) : v.onMouseDrag i mouseX =
      { v with edits := v.edits ++ [.setValue desc.id (v.valueAt desc i mouseX)] } := by
  unfold onMouseDrag
  rw [h]

theorem sliderAt_lt {v : View D} {x y : Int} {i : Nat} (h : v.sliderAt x y = some i) :
    i < v.params.length := by
  unfold sliderAt at h
  split at h
  · cases h
  · exact List.mem_range.mp (List.mem_of_find?_eq_some h)

/-- A press on a slider begins a gesture, whatever was held before. -/
theorem onMouseDown_slider {v : View D} {x y : Int} {i : Nat} {desc : ParamDesc D}
    (h : v.sliderAt x y = some i) (hrow : v.params[i]? = some desc) :
    ∃ value, v.onMouseDown x y =
      { v with
        dragParam := some i
        edits := v.edits ++ [.beginGesture desc.id] ++ [.setValue desc.id value] } := by
  let begun : View D :=
    { v with dragParam := some i, edits := v.edits ++ [.beginGesture desc.id] }
  have hdown : v.onMouseDown x y = begun.onMouseDrag i x := by
    unfold onMouseDown
    rw [h]
    dsimp only
    rw [hrow]
  refine ⟨begun.valueAt desc i x, ?_⟩
  rw [hdown]
  exact onMouseDrag_eq (v := begun) hrow x

theorem onMouseDown_elsewhere {v : View D} {x y : Int} (h : v.sliderAt x y = none) :
    v.onMouseDown x y = v := by
  unfold onMouseDown
  rw [h]

theorem onMouseUp_eq {v : View D} {i : Nat} {desc : ParamDesc D} (h : v.params[i]? = some desc)
    (mouseX : Int) : ∃ value, v.onMouseUp i mouseX =
      { v with
        dragParam := none
        edits := v.edits ++ [.setValue desc.id value] ++ [.endGesture desc.id] } := by
  refine ⟨v.valueAt desc i mouseX, ?_⟩
  unfold onMouseUp
  rw [h]
  dsimp only
  rw [onMouseDrag_eq h]

end View

/-! ## Steps -/

section Steps

theorem dragged_of_row {v : View D} {i : Nat} {desc : ParamDesc D} (hdrag : v.dragParam = some i)
    (hrow : v.params[i]? = some desc) : v.dragged = some desc.id := by
  unfold View.dragged
  rw [hdrag, Option.bind_some, hrow]
  rfl

/-- A value during a drag. -/
theorem reads_drag {v : View D} {i : Nat} {desc : ParamDesc D} (h : Settled v)
    (hdrag : v.dragParam = some i) (hrow : v.params[i]? = some desc) (value : D) :
    reads none ((v.edits ++ [UiEdit.setValue desc.id value]).map markOf) =
      some (some desc.id) := by
  have hreads := h.reads
  rw [dragged_of_row hdrag hrow] at hreads
  rw [List.map_append]
  exact (reads_snoc hreads _).trans (if_pos rfl)

theorem dragParam_of_complete {v v' : View D} (h : Settled v) (hmarks : v'.marks = v.marks)
    (hcomplete : Complete v'.marks) : v.dragParam = none := by
  rw [hmarks, complete_iff, h.reads] at hcomplete
  exact h.dragged_eq_none (Option.some.inj hcomplete)

/-- A begin inside a gesture does not fit. -/
theorem dragParam_of_begin {v : View D} {marks : List (Brackets.Mark ClapId)} {id : ClapId}
    (h : Settled v) (hfront : IsFront (v.marks ++ .opening id :: marks)) : v.dragParam = none := by
  obtain ⟨later, hlater⟩ := isFront_iff.mp hfront
  rw [reads_append, h.reads, Option.bind_some, reads] at hlater
  cases hheld : v.dragged with
  | none => exact h.dragged_eq_none hheld
  | some held =>
    rw [hheld] at hlater
    cases hlater

variable [DoubleOps D]

theorem settled_event {v : View D} (h : Settled v) (e : XEvent) (hlive : v.windowDead = false)
    (hturning : v.thread = .turning)
    (hspares : v.interrupts (.event e) = true → v.dragParam = none) :
    Settled (v.processXEvent e) := by
  have hopen : ¬ (v.windowDead = true ∨ v.thread = .ended ∨ v.thread = .idle) := by
    rw [hlive, hturning]
    decide
  have hheld : ∀ i ∈ v.dragParam, ∃ desc, v.params[i]? = some desc := fun i hi =>
    ⟨_, List.getElem?_eq_getElem (h.row i hi)⟩
  cases e with
  | configureNotify width height =>
    exact h.of_untouched ⟨rfl, rfl, rfl, rfl⟩ fun hend => absurd (.inr hend) hopen
  | destroyNotify =>
    have hnone := hspares rfl
    exact ⟨h.row, h.reads, fun _ => hnone⟩
  | buttonPress button x y =>
    unfold View.processXEvent
    dsimp only
    split
    · rename_i hbutton
      cases hslider : v.sliderAt x y with
      | none =>
        rw [View.onMouseDown_elsewhere hslider]
        exact h
      | some i =>
        have hinterrupts : v.interrupts (.event (.buttonPress button x y)) = true := by
          show (button == 1 && (v.sliderAt x y).isSome) = true
          rw [hbutton, hslider]
          rfl
        have hfree := hspares hinterrupts
        obtain ⟨desc, hrow⟩ : ∃ desc, v.params[i]? = some desc :=
          ⟨_, List.getElem?_eq_getElem (View.sliderAt_lt hslider)⟩
        obtain ⟨value, hdown⟩ := View.onMouseDown_slider hslider hrow
        rw [hdown]
        refine ⟨?_, ?_, fun hend => absurd hend hopen⟩
        · rintro _ ⟨⟩
          exact View.sliderAt_lt hslider
        · have hreads := h.reads
          rw [View.dragged, hfree, Option.bind_none] at hreads
          have hbegun : reads none (v.marks ++ [.opening desc.id]) = some (some desc.id) :=
            reads_snoc hreads _
          have hset : reads none (v.marks ++ [.opening desc.id] ++ [.inner desc.id]) =
              some (some desc.id) := (reads_snoc hbegun _).trans (if_pos rfl)
          unfold View.marks View.dragged
          dsimp only
          rw [List.map_append, List.map_append, Option.bind_some, hrow]
          exact hset
    · exact h
  | motionNotify x =>
    unfold View.processXEvent
    dsimp only
    cases hdrag : v.dragParam with
    | none => exact h
    | some i =>
      obtain ⟨desc, hrow⟩ := hheld i hdrag
      dsimp only
      rw [View.onMouseDrag_eq hrow]
      refine ⟨h.row, ?_, fun hend => absurd hend hopen⟩
      exact (reads_drag h hdrag hrow _).trans (congrArg some (dragged_of_row hdrag hrow).symm)
  | buttonRelease button x =>
    unfold View.processXEvent
    dsimp only
    cases hdrag : v.dragParam with
    | none => exact h
    | some i =>
      dsimp only
      split
      · obtain ⟨desc, hrow⟩ := hheld i hdrag
        obtain ⟨value, hup⟩ := View.onMouseUp_eq hrow x
        rw [hup]
        refine ⟨nofun, ?_, fun _ => rfl⟩
        unfold View.marks View.dragged
        dsimp only
        rw [List.map_append]
        exact (reads_snoc (reads_drag h hdrag hrow value) _).trans (if_pos rfl)
      · exact h
  | expose => exact h
  | selectionRequest => exact h
  | selectionClear => exact h
  | other => exact h

/-- What interrupts a drag, with no drag on, breaks nothing; nor does anything else. -/
theorem settled_step {v v' : View D} {act : Act D} {o : Unit} (h : Settled v)
    (hs : step v act = .ok (v', o)) (hspares : SparesDrag v act v' o) : Settled v' := by
  have hpush : ∀ command, Settled (v.pushIfJoinable command) := fun command =>
    h.of_untouched_running (View.untouched_pushIfJoinable v command).1
      (View.untouched_pushIfJoinable v command).2
  cases act with
  | attach usable opened =>
    cases hs
    unfold View.attach
    split
    · exact h
    · rename_i hfree
      have hidle : v.thread = .idle := by
        by_contra hjoinable
        exact hfree (by simp [View.joinable, hjoinable])
      exact h.of_untouched ⟨rfl, rfl, rfl, rfl⟩ fun _ => h.quiet (.inr (.inr hidle))
  | setSize width height =>
    cases hs
    have hsized : Settled { v with widthPx := width, heightPx := height } :=
      h.of_untouched_running ⟨rfl, rfl, rfl, rfl⟩ rfl
    have hpushed := View.untouched_pushIfJoinable
      { v with widthPx := width, heightPx := height } (.resize width height)
    exact hsized.of_untouched_running hpushed.1 hpushed.2
  | setScale scale =>
    cases hs
    unfold View.setScale
    split
    · exact h
    · dsimp only
      split
      · exact h.of_untouched_running ⟨rfl, rfl, rfl, rfl⟩ rfl
      · exact h.of_untouched_running ⟨rfl, rfl, rfl, rfl⟩ rfl
  | «show» =>
    cases hs
    exact hpush .show
  | hide =>
    cases hs
    exact hpush .hide
  | destroy =>
    cases hs
    exact hpush .quit
  | turn =>
    obtain ⟨-, rfl⟩ := step_turn_ok hs
    refine h.of_untouched ⟨rfl, rfl, rfl, rfl⟩ fun hend => ?_
    dsimp only at hend
    split at hend
    · exact absurd hend (by decide)
    · exact absurd hend (by decide)
  | read =>
    obtain ⟨-, ⟨-, rfl⟩ | ⟨-, rfl⟩⟩ := step_read_ok hs
    · exact h.of_untouched_running ⟨rfl, rfl, rfl, rfl⟩ rfl
    · refine h.of_untouched ⟨rfl, rfl, rfl, rfl⟩ fun hend => ?_
      exact absurd hend (by decide : ¬ (UiThread.handling = .ended ∨ UiThread.handling = .idle))
  | process =>
    obtain ⟨-, rfl⟩ := step_process_ok hs
    obtain ⟨hu, hthread⟩ := View.untouched_processCommands v
    refine h.of_untouched hu fun hend => hspares ?_
    show v.commands.contains .quit = true
    by_contra hquit
    rw [hthread, if_neg hquit] at hend
    exact absurd hend (by decide)
  | event e =>
    obtain ⟨hturning, hlive, rfl⟩ := step_event_ok hs
    exact settled_event h e hlive hturning hspares

/-- A press on a slider during a drag is a begin inside a gesture, and where the window or the
    thread ends in a drag its gesture stays open. -/
theorem sparesDrag_of_alternates {v v' : View D} {act : Act D} {o : Unit} (h : Settled v)
    (hs : step v act = .ok (v', o)) (hgood : v'.Alternates) : SparesDrag v act v' o := by
  intro hinterrupts
  cases act with
  | process =>
    obtain ⟨-, rfl⟩ := step_process_ok hs
    obtain ⟨hu, hthread⟩ := View.untouched_processCommands v
    have hended : v.processCommands.thread = .ended := by
      rw [hthread]
      exact if_pos hinterrupts
    exact dragParam_of_complete h (congrArg (List.map markOf) hu.edits)
      (hgood.complete (.inr hended))
  | event e =>
    obtain ⟨-, -, rfl⟩ := step_event_ok hs
    cases e with
    | destroyNotify => exact dragParam_of_complete h rfl (hgood.complete (.inl rfl))
    | buttonPress button x y =>
      obtain ⟨hbutton, hslider⟩ := Bool.and_eq_true_iff.mp hinterrupts
      obtain ⟨i, hi⟩ := Option.isSome_iff_exists.mp hslider
      obtain ⟨desc, hrow⟩ : ∃ desc, v.params[i]? = some desc :=
        ⟨_, List.getElem?_eq_getElem (View.sliderAt_lt hi)⟩
      obtain ⟨value, hdown⟩ := View.onMouseDown_slider hi hrow
      have hpressed : v.processXEvent (.buttonPress button x y) = v.onMouseDown x y :=
        if_pos (beq_iff_eq.mp hbutton)
      have hmarks : (v.processXEvent (.buttonPress button x y)).marks =
          v.marks ++ .opening desc.id :: [.inner desc.id] := by
        rw [hpressed, hdown, View.marks, List.map_append, List.map_append, List.append_assoc]
        rfl
      exact dragParam_of_begin h (hmarks ▸ hgood.front)
    | _ => cases hinterrupts
  | _ => cases hinterrupts

theorem settled_construct (params : List (ParamDesc D)) : Settled (View.construct params) :=
  ⟨nofun, rfl, fun _ => rfl⟩

end Steps

/-! ## Runs -/

/-- Over every run of the view, whatever the main thread asks for and whatever events come: the
    calls on the model are complete gestures one after the other exactly if no drag is
    interrupted. -/
theorem gestures_alternate_iff [DoubleOps D] (params : List (ParamDesc D)) (acts : List (Act D)) :
    AllStates step View.Alternates (View.construct params) acts ↔
      AllSteps step SparesDrag (View.construct params) acts :=
  allStates_iff_allSteps (fun _ h => h.alternates)
    (fun _ _ _ _ h hs hspares => settled_step h hs hspares)
    (fun _ _ _ _ h hs hgood => sparesDrag_of_alternates h hs hgood) (settled_construct params)

def oneSlider : List (ParamDesc ExactFloat) :=
  [{ id := 7, minValue := 0, maxValue := 1, stepped := false }]

/-- The host destroys the parent window while the slider is held. -/
def heldToTheEnd : List (Act ExactFloat) :=
  [.attach true true, .turn, .process, .event (.buttonPress 1 200 65), .event .destroyNotify]

theorem held_when_window_dies :
    ¬ AllStates step View.Alternates (View.construct oneSlider) heldToTheEnd := by
  have hseen : (run step (View.construct oneSlider) heldToTheEnd).toOption.map
      (fun r => (r.1.marks, r.1.windowDead)) = some ([.opening 7, .inner 7], true) := by
    decide +kernel
  refine not_allStates_of_seen (fun v => (v.marks, v.windowDead)) hseen
    fun v hv halternates => ?_
  obtain ⟨hmarks, hdead⟩ := Prod.mk.inj hv
  have hcomplete := complete_iff.mp (halternates.complete (.inl hdead))
  rw [hmarks] at hcomplete
  exact absurd hcomplete (by decide)

/-! ## The queue's side -/

/-- Every edit comes in order. -/
def InOrder : (ClapId → Bool) → List (UiEdit D) → Prop
  | _, [] => True
  | inGesture, edit :: edits =>
    GuiPlugin.fits inGesture edit ∧ InOrder (GuiPlugin.track inGesture edit) edits

/-- The one open gesture, as the queue's side keeps the open gestures. -/
def openOf (held : Option ClapId) (id : ClapId) : Bool := decide (held = some id)

theorem openOf_self (id : ClapId) : openOf (some id) id = true := decide_eq_true rfl

theorem fits_of_advance {held later : Option ClapId} {edit : UiEdit D}
    (h : advance held (markOf edit) = some later) :
    GuiPlugin.fits (openOf held) edit ∧ GuiPlugin.track (openOf held) edit = openOf later := by
  cases held with
  | none =>
    cases edit with
    | beginGesture id =>
      cases h
      refine ⟨rfl, funext fun id' => ?_⟩
      by_cases hid : id' = id
      · rw [hid, GuiPlugin.track, Function.update_self, openOf_self]
      · rw [GuiPlugin.track, Function.update_of_ne hid]
        exact (decide_eq_false fun heq => hid (Option.some.inj heq).symm).symm
    | setValue id x => cases h
    | endGesture id => cases h
  | some label =>
    cases edit with
    | beginGesture id => cases h
    | setValue id x =>
      rw [markOf, advance] at h
      split at h
      · rename_i hid
        cases h
        exact ⟨hid ▸ openOf_self id, rfl⟩
      · cases h
    | endGesture id =>
      rw [markOf, advance] at h
      split at h
      · rename_i hid
        cases h
        subst hid
        refine ⟨openOf_self id, funext fun id' => ?_⟩
        by_cases hid' : id' = id
        · rw [hid', GuiPlugin.track, Function.update_self]
          rfl
        · rw [GuiPlugin.track, Function.update_of_ne hid']
          exact decide_eq_false fun heq => hid' (Option.some.inj heq).symm
      · cases h

theorem inOrder_of_reads (edits : List (UiEdit D)) : ∀ held later,
    reads held (edits.map markOf) = some later → InOrder (openOf held) edits := by
  induction edits with
  | nil => exact fun _ _ _ => trivial
  | cons edit edits ih =>
    intro held later h
    rw [List.map_cons, reads] at h
    obtain ⟨between, hbetween, hrest⟩ := Option.bind_eq_some_iff.mp h
    obtain ⟨hfits, htrack⟩ := fits_of_advance hbetween
    exact ⟨hfits, htrack ▸ ih between later hrest⟩

/-- A view whose calls alternate is an editor as the queue's side expects one. -/
theorem View.Alternates.inOrder {v : View D} (h : v.Alternates) :
    InOrder (fun _ => false) v.edits := by
  obtain ⟨later, hlater⟩ := isFront_iff.mp h.front
  exact inOrder_of_reads v.edits none later hlater

end Cvp.X11View
