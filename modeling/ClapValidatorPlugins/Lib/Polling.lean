/-
  A poller that watches something written elsewhere. What is watched has contents and a version,
  both given by what has been written so far. In a turn the poller looks at the version, and if it
  is not the one it saw last, or if something else has made a redraw due, it takes the contents in
  a step of its own, so that writes can fall between the two. What it shows was at some time the
  contents, it never goes back (`shown_later`), and once a turn is through that no write overlaps
  or follows, it shows the contents (`shown_contents`), if no version comes twice.
-/
import ClapValidatorPlugins.Lib.Machine
import Mathlib.Data.List.Infix

namespace Polling

open Machine

variable {β α ν : Type}

/-- What is watched. -/
structure Feed (β α ν : Type) where
  contents : List β → α
  version : List β → ν

inductive Phase where
  | idle
  /-- behind the look -/
  | drawing
  deriving DecidableEq, Repr

structure State (β α ν : Type) where
  written : List β := []
  seen : ν
  due : Bool
  phase : Phase := .idle
  shown : Option α := none

inductive Move (β : Type) where
  | write (entry : β)
  /-- something else asks for a redraw -/
  | mark
  | look
  | draw

def Move.isWrite : Move β → Bool
  | .write _ => true
  | _ => false

variable [DecidableEq ν]

/-- A turn is a look and a draw. -/
def step (feed : Feed β α ν) : Step (State β α ν) (Move β) Unit Unit
  | s, .write entry => .ok ({ s with written := s.written ++ [entry] }, ())
  | s, .mark => .ok ({ s with due := true }, ())
  | s, .look =>
    if s.phase = .idle then
      .ok ({ s with
        seen := feed.version s.written
        due := s.due || decide (feed.version s.written ≠ s.seen)
        phase := .drawing }, ())
    else .error ()
  | s, .draw =>
    if s.phase = .drawing then
      .ok ({ s with
        shown := if s.due then some (feed.contents s.written) else s.shown
        due := false
        phase := .idle }, ())
    else .error ()

section Turns

variable {feed : Feed β α ν} {s s' : State β α ν} {o : Unit}

theorem step_look_ok (h : step feed s .look = .ok (s', o)) : s.phase = .idle ∧
    s' = { s with
      seen := feed.version s.written
      due := s.due || decide (feed.version s.written ≠ s.seen)
      phase := .drawing } := by
  rw [step] at h
  split at h
  · rename_i hidle
    cases h
    exact ⟨hidle, rfl⟩
  · cases h

theorem step_draw_ok (h : step feed s .draw = .ok (s', o)) : s.phase = .drawing ∧
    s' = { s with
      shown := if s.due then some (feed.contents s.written) else s.shown
      due := false
      phase := .idle } := by
  rw [step] at h
  split at h
  · rename_i hdrawing
    cases h
    exact ⟨hdrawing, rfl⟩
  · cases h

/-! ## What is shown and what was seen -/

/-- The version seen is that of a front of what is written, so is what is shown, and unless a redraw
    is due, what is shown is no older than the version seen. -/
structure Tracks (feed : Feed β α ν) (unseen : ν) (s : State β α ν) : Prop where
  seen : s.seen = unseen ∨ ∃ looked, looked <+: s.written ∧ s.seen = feed.version looked
  shown : ∀ a, s.shown = some a → ∃ drawn, drawn <+: s.written ∧ a = feed.contents drawn
  calm : s.due = false → s.seen = unseen ∨ ∃ looked drawn, looked <+: drawn ∧
    drawn <+: s.written ∧ s.seen = feed.version looked ∧ s.shown = some (feed.contents drawn)

omit [DecidableEq ν] in
theorem Tracks.initial {s : State β α ν} (h : s.shown = none) : Tracks feed s.seen s :=
  ⟨.inl rfl, fun a ha => absurd (h.symm.trans ha) (Option.some_ne_none a).symm, fun _ => .inl rfl⟩

theorem Tracks.step {unseen : ν} {move : Move β} (h : Tracks feed unseen s)
    (hs : step feed s move = .ok (s', o)) : Tracks feed unseen s' := by
  cases move with
  | write entry =>
    cases hs
    have hmore : s.written <+: s.written ++ [entry] := List.prefix_append _ _
    refine ⟨?_, fun a ha => ?_, fun hcalm => ?_⟩
    · exact h.seen.imp id fun ⟨looked, hlooked, hseen⟩ => ⟨looked, hlooked.trans hmore, hseen⟩
    · obtain ⟨drawn, hdrawn, hcontents⟩ := h.shown a ha
      exact ⟨drawn, hdrawn.trans hmore, hcontents⟩
    · exact (h.calm hcalm).imp id fun ⟨looked, drawn, hlooked, hdrawn, hrest⟩ =>
        ⟨looked, drawn, hlooked, hdrawn.trans hmore, hrest⟩
  | mark =>
    cases hs
    exact ⟨h.seen, h.shown, Bool.noConfusion⟩
  | look =>
    obtain ⟨-, rfl⟩ := step_look_ok hs
    refine ⟨.inr ⟨s.written, List.prefix_rfl, rfl⟩, h.shown, fun hcalm => ?_⟩
    -- nothing is due only where the version is the one that was seen
    obtain ⟨hdue, hsame⟩ := Bool.or_eq_false_iff.mp hcalm
    have hversion : feed.version s.written = s.seen := not_not.mp (of_decide_eq_false hsame)
    show feed.version s.written = unseen ∨ _
    rw [hversion]
    exact h.calm hdue
  | draw =>
    obtain ⟨-, rfl⟩ := step_draw_ok hs
    cases hdue : s.due with
    | false => exact ⟨h.seen, h.shown, fun _ => h.calm hdue⟩
    | true =>
      refine ⟨h.seen, fun a ha => ?_, fun _ => ?_⟩
      · exact ⟨s.written, List.prefix_rfl, (Option.some.inj ha).symm⟩
      · exact h.seen.imp id fun ⟨looked, hlooked, hseen⟩ =>
          ⟨looked, s.written, hlooked, List.prefix_rfl, hseen, rfl⟩

theorem Tracks.run {unseen : ν} {moves : List (Move β)} {os : List Unit}
    (h : Tracks feed unseen s) (hrun : Machine.run (Polling.step feed) s moves = .ok (s', os)) :
    Tracks feed unseen s' :=
  run_invariant (fun _ _ _ _ h hs => Tracks.step h hs) h hrun

/-! ## Never back -/

/-- What is shown later is what was written at the same time or later. -/
theorem shown_later {moves : List (Move β)} {os : List Unit} {drawn : List β}
    (hdrawn : drawn <+: s.written) (hshown : s.shown = some (feed.contents drawn))
    (hrun : Machine.run (step feed) s moves = .ok (s', os)) :
    ∃ drawn', drawn <+: drawn' ∧ drawn' <+: s'.written ∧
      s'.shown = some (feed.contents drawn') := by
  refine run_invariant (P := fun s => ∃ drawn', drawn <+: drawn' ∧ drawn' <+: s.written ∧
    s.shown = some (feed.contents drawn')) ?_ ⟨drawn, List.prefix_rfl, hdrawn, hshown⟩ hrun
  rintro s move s' o ⟨drawn', hlater, hdrawn', hshown'⟩ hs
  cases move with
  | write entry =>
    cases hs
    exact ⟨drawn', hlater, hdrawn'.trans (List.prefix_append _ _), hshown'⟩
  | mark =>
    cases hs
    exact ⟨drawn', hlater, hdrawn', hshown'⟩
  | look =>
    obtain ⟨-, rfl⟩ := step_look_ok hs
    exact ⟨drawn', hlater, hdrawn', hshown'⟩
  | draw =>
    obtain ⟨-, rfl⟩ := step_draw_ok hs
    cases hdue : s.due with
    | false => exact ⟨drawn', hlater, hdrawn', hshown'⟩
    | true => exact ⟨s.written, hlater.trans hdrawn', List.prefix_rfl, rfl⟩

/-! ## Once the writes have stopped -/

/-- Behind a look that was the last to see anything new: the draw is still to come, or what is shown
    is right. -/
def Settling (feed : Feed β α ν) (written : List β) (s : State β α ν) : Prop :=
  s.written = written ∧ s.seen = feed.version written ∧
    (s.phase = .drawing ∧ s.due = true ∨ s.shown = some (feed.contents written))

/-- The versions of proper fronts are others than the version now, and so is what the poller has
    started with. -/
def Fresh (feed : Feed β α ν) (unseen : ν) (written : List β) : Prop :=
  feed.version written ≠ unseen ∧
    ∀ front, front <+: written → feed.version front = feed.version written → front = written

theorem settling_of_look {unseen : ν} (h : Tracks feed unseen s)
    (hfresh : Fresh feed unseen s.written) (hs : step feed s .look = .ok (s', o)) :
    Settling feed s.written s' := by
  obtain ⟨-, rfl⟩ := step_look_ok hs
  refine ⟨rfl, rfl, ?_⟩
  show Phase.drawing = .drawing ∧ (s.due || decide (feed.version s.written ≠ s.seen)) = true ∨
    s.shown = some (feed.contents s.written)
  cases hdue : (s.due || decide (feed.version s.written ≠ s.seen)) with
  | true => exact .inl ⟨rfl, rfl⟩
  | false =>
    obtain ⟨hcalm, hsame⟩ := Bool.or_eq_false_iff.mp hdue
    have hversion : feed.version s.written = s.seen := not_not.mp (of_decide_eq_false hsame)
    rcases h.calm hcalm with hseen | ⟨looked, drawn, hlooked, hdrawn, hseen, hshown⟩
    · exact absurd (hversion.trans hseen) hfresh.1
    · -- the version seen is the one now, so the look before was at all that is written
      have hall := hfresh.2 looked (hlooked.trans hdrawn) (hseen.symm.trans hversion.symm)
      have hdrawn' : drawn = s.written :=
        hdrawn.eq_of_length_le (by rw [← hall]; exact hlooked.length_le)
      exact .inr (hdrawn' ▸ hshown)

theorem settling_step {written : List β} {move : Move β} (hmove : move.isWrite = false)
    (h : Settling feed written s) (hs : step feed s move = .ok (s', o)) :
    Settling feed written s' := by
  obtain ⟨rfl, hseen, hshown⟩ := h
  cases move with
  | write entry => cases hmove
  | mark =>
    cases hs
    exact ⟨rfl, hseen, hshown.imp (fun ⟨hphase, _⟩ => ⟨hphase, rfl⟩) id⟩
  | look =>
    obtain ⟨hidle, rfl⟩ := step_look_ok hs
    refine ⟨rfl, rfl, .inr (hshown.resolve_left fun ⟨hphase, _⟩ => ?_)⟩
    rw [hidle] at hphase
    cases hphase
  | draw =>
    obtain ⟨-, rfl⟩ := step_draw_ok hs
    refine ⟨rfl, hseen, .inr ?_⟩
    rcases hshown with ⟨-, hdue⟩ | hshown
    · exact if_pos hdue
    · cases hdue : s.due with
      | false => exact hshown
      | true => rfl

theorem written_of_quiet {moves : List (Move β)} {os : List Unit}
    (hquiet : ∀ move ∈ moves, move.isWrite = false)
    (hrun : Machine.run (step feed) s moves = .ok (s', os)) : s'.written = s.written := by
  refine run_invariant_of_labels (I := fun t => t.written = s.written) ?_ hquiet rfl hrun
  intro t move t' o ht hmove hs
  cases move with
  | write entry => cases hmove
  | mark =>
    cases hs
    exact ht
  | look =>
    obtain ⟨-, rfl⟩ := step_look_ok hs
    exact ht
  | draw =>
    obtain ⟨-, rfl⟩ := step_draw_ok hs
    exact ht

/-- Behind a look that no write follows, a poller that is through with its turn shows the
    contents. -/
theorem shown_contents {unseen : ν} {front back : List (Move β)} {os : List Unit}
    (htracks : Tracks feed unseen s)
    (hrun : Machine.run (step feed) s (front ++ .look :: back) = .ok (s', os))
    (hquiet : ∀ move ∈ back, move.isWrite = false) (hfresh : Fresh feed unseen s'.written)
    (hidle : s'.phase = .idle) : s'.shown = some (feed.contents s'.written) := by
  obtain ⟨s₁, os₁, os₂, hfront, hback, -⟩ := run_append_ok hrun
  obtain ⟨s₂, o₂, os₃, hlook, hrest, -⟩ := run_cons_ok hback
  have hwritten : s'.written = s₁.written := by
    rw [written_of_quiet hquiet hrest, (step_look_ok hlook).2]
  rw [hwritten] at hfresh
  have hsettling : Settling feed s₁.written s' := by
    refine run_invariant_of_labels ?_ hquiet
      (settling_of_look (htracks.run hfront) hfresh hlook) hrest
    exact fun _ _ _ _ h hmove hs => settling_step hmove h hs
  rcases hsettling.2.2 with ⟨hphase, -⟩ | hshown
  · rw [hidle] at hphase
    cases hphase
  · rw [hwritten]
    exact hshown

end Turns

end Polling
