/-
  The wake-ups of the X11 view's thread. For each command a byte waits in the pipe; when `select`
  says that it is readable, the thread reads sixteen bytes at a time until a read comes back short.
  The pipe blocks, so a read behind exactly the last byte does not come back short: it waits for the
  next command. By itself the drain gets through exactly if the bytes are no multiple of sixteen
  (`drain_never_waits_iff`).
-/
import ClapValidatorPlugins.Gui.X11View

namespace Cvp.X11View

open Machine

variable {D : Type} [DoubleOps D]

namespace View

/-- The UI thread reads from the empty pipe. -/
def Waits (v : View D) : Prop := v.thread = .draining ∧ v.pipe = 0

/-- `select` has said that the pipe is readable, and `n` bytes are in it. -/
def readable (v : View D) (n : Nat) : View D := { v with thread := .draining, pipe := n }

/-- By its reads alone the thread empties the pipe and goes on to `processCommands`. -/
def Drains (v : View D) : Prop :=
  ∃ reads v' os, run step v (List.replicate reads .read) = .ok (v', os) ∧
    v'.thread = .handling ∧ v'.pipe = 0

end View

/-- The drain does not read exactly the last bytes of the pipe into a full buffer. -/
def LeavesSome (v : View D) (act : Act D) (_ : View D) (_ : Unit) : Prop :=
  act = .read → v.pipe ≠ kDrainSize

/-! ## Reads -/

namespace View

theorem step_read_long (v : View D) {n : Nat} (h : kDrainSize ≤ n) :
    step (v.readable n) .read = .ok (v.readable (n - kDrainSize), ()) := by
  have hopen : ¬ ((v.readable n).thread ≠ .draining ∨ n = 0) := by
    rintro (hthread | hzero)
    · exact hthread rfl
    · rw [hzero] at h
      exact absurd h (by decide)
  rw [step]
  exact (if_neg hopen).trans (if_pos h)

theorem step_read_short (v : View D) {n : Nat} (hpos : 0 < n) (h : n < kDrainSize) :
    ∃ v' : View D, step (v.readable n) .read = .ok (v', ()) ∧ v'.thread = .handling ∧
      v'.pipe = 0 := by
  have hopen : ¬ ((v.readable n).thread ≠ .draining ∨ n = 0) := by
    rintro (hthread | hzero)
    · exact hthread rfl
    · exact absurd hzero (Nat.pos_iff_ne_zero.mp hpos)
  refine ⟨{ v with thread := .handling, pipe := 0 }, ?_, rfl, rfl⟩
  rw [step]
  exact (if_neg hopen).trans (if_neg (Nat.not_le.mpr h))

/-- A thread in the drain gets on by a read, or not at all. -/
theorem drains_iff_read (v : View D) (n : Nat) :
    (v.readable n).Drains ↔ ∃ v', step (v.readable n) .read = .ok (v', ()) ∧ v'.Drains := by
  constructor
  · rintro ⟨reads, v', os, hrun, hthread, hpipe⟩
    cases reads with
    | zero =>
      cases hrun
      cases hthread
    | succ reads =>
      obtain ⟨v₁, o, os₁, hs, hrest, -⟩ := run_cons_ok hrun
      exact ⟨v₁, hs, reads, v', os₁, hrest, hthread, hpipe⟩
  · rintro ⟨v₁, hs, reads, v', os, hrun, hend⟩
    exact ⟨reads + 1, v', () :: os, run_cons hs hrun, hend⟩

/-- Sixteen bytes at a time, and the rest of fewer than sixteen ends the drain if there is one. -/
theorem drains_iff (v : View D) (n : Nat) : (v.readable n).Drains ↔ ¬ kDrainSize ∣ n := by
  induction n using Nat.strong_induction_on with
  | _ n ih =>
    rw [drains_iff_read]
    rcases Nat.lt_or_ge n kDrainSize with hshort | hlong
    · rcases Nat.eq_zero_or_pos n with hzero | hpos
      · subst hzero
        refine ⟨?_, fun h => absurd (dvd_zero _) h⟩
        rintro ⟨v', hs, -⟩
        cases hs
      · obtain ⟨v', hs, hend⟩ := step_read_short v hpos hshort
        exact ⟨fun _ => Nat.not_dvd_of_pos_of_lt hpos hshort,
          fun _ => ⟨v', hs, 0, v', [], rfl, hend⟩⟩
    · have hless : n - kDrainSize < n := Nat.sub_lt_self (by decide) hlong
      have hnext : (∃ v', step (v.readable n) .read = .ok (v', ()) ∧ v'.Drains) ↔
          (v.readable (n - kDrainSize)).Drains := by
        rw [step_read_long v hlong]
        refine ⟨?_, fun h => ⟨_, rfl, h⟩⟩
        rintro ⟨v', hs, h⟩
        cases hs
        exact h
      rw [hnext, ih _ hless, Nat.dvd_sub_iff_left hlong dvd_rfl]

end View

/-! ## Runs -/

/-- A drain that has begun has something to read. -/
def Fed (v : View D) : Prop := v.thread = .draining → 0 < v.pipe

omit [DoubleOps D] in
theorem Fed.not_waits {v : View D} (h : Fed v) : ¬ v.Waits := fun hwaits =>
  Nat.ne_of_gt (h hwaits.1) hwaits.2

omit [DoubleOps D] in
theorem fed_pushIfJoinable {v : View D} (h : Fed v) (command : Command) :
    Fed (v.pushIfJoinable command) := by
  unfold View.pushIfJoinable
  split
  · exact fun _ => Nat.succ_pos _
  · exact h

omit [DoubleOps D] in
theorem fed_processCommands (v : View D) : Fed v.processCommands := by
  unfold View.processCommands
  dsimp only
  split
  · exact nofun
  · exact nofun

theorem onMouseDrag_thread (v : View D) (i : Nat) (x : Int) :
    (v.onMouseDrag i x).thread = v.thread := by
  unfold View.onMouseDrag
  split
  · rfl
  · rfl

/-- The mouse does not move the thread. -/
theorem processXEvent_thread (v : View D) (e : XEvent) :
    (v.processXEvent e).thread = v.thread := by
  cases e with
  | buttonPress button x y =>
    unfold View.processXEvent View.onMouseDown
    dsimp only
    split
    · split
      · rfl
      · split
        · rfl
        · exact onMouseDrag_thread _ _ x
    · rfl
  | motionNotify x =>
    unfold View.processXEvent
    dsimp only
    split
    · rfl
    · exact onMouseDrag_thread v _ x
  | buttonRelease button x =>
    unfold View.processXEvent View.onMouseUp
    dsimp only
    split
    · rfl
    · split
      · split
        · rfl
        · exact onMouseDrag_thread v _ x
      · rfl
  | expose => rfl
  | configureNotify width height => rfl
  | destroyNotify => rfl
  | selectionRequest => rfl
  | selectionClear => rfl
  | other => rfl

/-- The main thread adds bytes only; a drain begins with a readable pipe and goes on behind a full
    read. -/
theorem fed_step {v v' : View D} {act : Act D} {o : Unit} (h : Fed v)
    (hs : step v act = .ok (v', o)) (hleaves : LeavesSome v act v' o) : Fed v' := by
  cases act with
  | attach usable opened =>
    cases hs
    unfold View.attach
    split
    · exact h
    · cases opened
      · exact nofun
      · exact nofun
  | setSize width height =>
    cases hs
    exact fed_pushIfJoinable (v := { v with widthPx := width, heightPx := height }) h _
  | setScale scale =>
    cases hs
    unfold View.setScale
    split
    · exact h
    · dsimp only
      split
      · exact h
      · exact h
  | «show» =>
    cases hs
    exact fed_pushIfJoinable h _
  | hide =>
    cases hs
    exact fed_pushIfJoinable h _
  | destroy =>
    cases hs
    exact fed_pushIfJoinable h _
  | turn =>
    obtain ⟨-, rfl⟩ := step_turn_ok hs
    intro hdraining
    by_contra hempty
    dsimp only at hdraining hempty
    rw [if_neg hempty] at hdraining
    cases hdraining
  | read =>
    obtain ⟨-, ⟨hfull, rfl⟩ | ⟨-, rfl⟩⟩ := step_read_ok hs
    · exact fun _ => Nat.sub_pos_of_lt (Nat.lt_of_le_of_ne hfull (hleaves rfl).symm)
    · rintro ⟨⟩
  | process =>
    obtain ⟨-, rfl⟩ := step_process_ok hs
    exact fed_processCommands v
  | event e =>
    obtain ⟨hturning, -, rfl⟩ := step_event_ok hs
    intro hdraining
    rw [processXEvent_thread, hturning] at hdraining
    cases hdraining

/-- Behind a read of the last sixteen bytes the thread is still in the drain. -/
theorem leavesSome_of_not_waits {v v' : View D} {act : Act D} {o : Unit}
    (hs : step v act = .ok (v', o)) (hgood : ¬ v'.Waits) : LeavesSome v act v' o := by
  rintro rfl hlast
  obtain ⟨hdraining, ⟨-, rfl⟩ | ⟨hshort, -⟩⟩ := step_read_ok hs
  · refine hgood ⟨hdraining, ?_⟩
    show v.pipe - kDrainSize = 0
    rw [hlast, Nat.sub_self]
  · exact absurd hlast (Nat.ne_of_lt hshort)

theorem fed_construct (params : List (ParamDesc D)) : Fed (View.construct params) := by
  intro hdraining
  cases hdraining

/-- Over every run of the view: the thread never waits in the drain exactly if no read takes just
    the last sixteen bytes; and on `n` bytes with nothing behind them the drain gets through exactly
    if sixteen does not divide `n`. -/
theorem drain_never_waits_iff (params : List (ParamDesc D)) (acts : List (Act D)) :
    (AllStates step (fun v => ¬ v.Waits) (View.construct params) acts ↔
      AllSteps step LeavesSome (View.construct params) acts) ∧
    ∀ (v : View D) (n : Nat), (v.readable n).Drains ↔ ¬ kDrainSize ∣ n :=
  ⟨allStates_iff_allSteps (fun _ h => h.not_waits)
      (fun _ _ _ _ h hs hleaves => fed_step h hs hleaves)
      (fun _ _ _ _ _ hs hgood => leavesSome_of_not_waits hs hgood) (fed_construct params),
    View.drains_iff⟩

/-- Sixteen commands within one turn of the thread, the last of them the destructor's: it waits for
    the thread, and the thread for a byte. -/
def sixteenCommands : List (Act ExactFloat) :=
  .attach true true :: List.replicate 15 .show ++ [.destroy, .turn, .read]

theorem waits_behind_sixteen :
    ¬ AllStates step (fun v => ¬ v.Waits) (View.construct []) sixteenCommands := by
  have hseen : (run step (View.construct []) sixteenCommands).toOption.map
      (fun r => (r.1.thread, r.1.pipe)) = some (.draining, 0) := by
    decide +kernel
  exact not_allStates_of_seen (fun v => (v.thread, v.pipe)) hseen
    fun v hv hgood => hgood (Prod.mk.inj hv)

end Cvp.X11View
