/-
  Which frames the chunks of a block render, and when the events are handled. The loop of the two
  synths is run with a log of its own calls (`logRender`, `logHandle`), which changes nothing else
  (`chunkLoop_logged`). Whatever the times of the events are, the render calls tile the block; in a
  sorted list each event is handled where its time stands (`frames_rendered_once`).
-/
import ClapValidatorPlugins.Lib.Tiling
import ClapValidatorPlugins.Voices.Chunks

namespace Cvp

open Tiling (Segment Tiles covers)

/-! ## The log -/

/-- What the loop of a synth calls. -/
inductive ChunkCall (D : Type) where
  | render (offset frames : Nat)
  | handle (header : Event D)

namespace ChunkCall

variable {D : Type}

/-- The frames of a render call. -/
def segment : ChunkCall D → Option Segment
  | render offset frames => some (offset, frames)
  | handle _ => none

def event : ChunkCall D → Option (Event D)
  | render _ _ => none
  | handle header => some header

/-- What was rendered, call by call. -/
def rendered (log : List (ChunkCall D)) : List Segment := log.filterMap segment

/-- What was handled, in order. -/
def handled (log : List (ChunkCall D)) : List (Event D) := log.filterMap event

@[simp] theorem rendered_render (log : List (ChunkCall D)) (offset frames : Nat) :
    rendered (log ++ [.render offset frames]) = rendered log ++ [(offset, frames)] :=
  List.filterMap_append

@[simp] theorem rendered_handle (log : List (ChunkCall D)) (header : Event D) :
    rendered (log ++ [.handle header]) = rendered log :=
  List.filterMap_append.trans (List.append_nil _)

@[simp] theorem handled_render (log : List (ChunkCall D)) (offset frames : Nat) :
    handled (log ++ [.render offset frames]) = handled log :=
  List.filterMap_append.trans (List.append_nil _)

@[simp] theorem handled_handle (log : List (ChunkCall D)) (header : Event D) :
    handled (log ++ [.handle header]) = handled log ++ [header] :=
  List.filterMap_append

/-- Each event is handled when exactly the frames before its time have been rendered. -/
def OnTime (log : List (ChunkCall D)) : Prop :=
  ∀ before header after, log = before ++ .handle header :: after →
    Tiles 0 (rendered before) header.time

theorem onTime_nil : OnTime ([] : List (ChunkCall D)) := by
  intro before header after h
  exact absurd h.symm (by simp)

theorem OnTime.render {log : List (ChunkCall D)} (h : OnTime log) (offset frames : Nat) :
    OnTime (log ++ [.render offset frames]) := by
  intro before header after heq
  rcases List.append_eq_append_iff.mp heq with ⟨front, hbefore, hrest⟩ | ⟨back, hlog, hrest⟩
  · cases front with
    | nil => cases hrest
    | cons c front => simp at hrest
  · cases back with
    | nil => cases hrest
    | cons c back =>
      cases hrest
      exact h before header back hlog

theorem OnTime.handle {log : List (ChunkCall D)} (h : OnTime log) {header : Event D}
    (htime : Tiles 0 (rendered log) header.time) : OnTime (log ++ [.handle header]) := by
  intro before header' after heq
  rcases List.append_eq_append_iff.mp heq with ⟨front, hbefore, hrest⟩ | ⟨back, hlog, hrest⟩
  · cases front with
    | nil =>
      cases hrest
      rw [hbefore, List.append_nil]
      exact htime
    | cons c front => simp at hrest
  · cases back with
    | nil =>
      cases hrest
      rw [← List.append_nil before, ← hlog]
      exact htime
    | cons c back =>
      cases hrest
      exact h before header' back hlog

end ChunkCall

open ChunkCall (rendered handled OnTime)

/-! ## The loop with the log -/

section Loop

variable {D σ T : Type} {render : σ → Nat → Nat → Plane T → σ × Plane T}
  {handle : σ → Event D → σ} {frames : Nat}

/-- A render call that is noted. -/
def logRender (render : σ → Nat → Nat → Plane T → σ × Plane T) (s : σ × List (ChunkCall D))
    (offset frames : Nat) (m : Plane T) : (σ × List (ChunkCall D)) × Plane T :=
  (((render s.1 offset frames m).1, s.2 ++ [.render offset frames]),
    (render s.1 offset frames m).2)

/-- An event that is noted. -/
def logHandle (handle : σ → Event D → σ) (s : σ × List (ChunkCall D)) (header : Event D) :
    σ × List (ChunkCall D) :=
  (handle s.1 header, s.2 ++ [.handle header])

/-- The loop without its log. -/
def ChunkState.unlogged (c : ChunkState (σ × List (ChunkCall D)) T) : ChunkState σ T :=
  { self := c.self.1, memory := c.memory, cursor := c.cursor }

theorem chunkEvent_unlogged (c : ChunkState (σ × List (ChunkCall D)) T) (header : Event D) :
    (chunkEvent (logRender render) (logHandle handle) frames c header).unlogged =
      chunkEvent render handle frames c.unlogged header := by
  unfold chunkEvent
  split
  · rw [if_pos (by assumption)]
    rfl
  · rw [if_neg (by assumption)]
    rfl

variable (render handle frames) in
theorem foldl_unlogged (headers : List (Event D)) :
    ∀ c : ChunkState (σ × List (ChunkCall D)) T,
      (headers.foldl (chunkEvent (logRender render) (logHandle handle) frames) c).unlogged =
        headers.foldl (chunkEvent render handle frames) c.unlogged := by
  induction headers with
  | nil => exact fun c => rfl
  | cons header headers ih =>
    intro c
    rw [List.foldl_cons, List.foldl_cons, ih, chunkEvent_unlogged]

/-- Noting the calls changes nothing else. -/
theorem chunkLoop_logged (headers : List (Event D)) (s : σ) (log : List (ChunkCall D))
    (m : Plane T) :
    (chunkLoop (logRender render) (logHandle handle) frames headers (s, log) m).unlogged =
      chunkLoop render handle frames headers s m := by
  have hfold := foldl_unlogged render handle frames headers ⟨(s, log), m, 0⟩
  unfold chunkLoop
  dsimp only
  rw [show (⟨s, m, 0⟩ : ChunkState σ T) =
    ChunkState.unlogged ⟨(s, log), m, 0⟩ from rfl, ← hfold]
  split
  · exact (if_pos (by assumption)).symm
  · exact (if_neg (by assumption)).symm

/-! ## What one event adds to the log -/

/-- What was rendered so far ends at the cursor, inside the block. -/
structure ChunkState.Rendered (frames : Nat) (c : ChunkState (σ × List (ChunkCall D)) T) :
    Prop where
  tiles : Tiles 0 (rendered c.self.2) c.cursor
  inBlock : c.cursor ≤ frames

/-- An event renders up to its time or not at all, and then is handled. -/
theorem chunkEvent_log (c : ChunkState (σ × List (ChunkCall D)) T) (header : Event D) :
    (chunkEvent (logRender render) (logHandle handle) frames c header).self.2 =
      if c.cursor < header.time ∧ header.time ≤ frames then
        c.self.2 ++ [.render c.cursor (header.time - c.cursor)] ++ [.handle header]
      else c.self.2 ++ [.handle header] := by
  unfold chunkEvent
  split
  · rfl
  · rfl

theorem handled_chunkEvent (c : ChunkState (σ × List (ChunkCall D)) T) (header : Event D) :
    handled (chunkEvent (logRender render) (logHandle handle) frames c header).self.2 =
      handled c.self.2 ++ [header] := by
  rw [chunkEvent_log]
  split
  · rw [ChunkCall.handled_handle, ChunkCall.handled_render]
  · rw [ChunkCall.handled_handle]

theorem ChunkState.Rendered.event {c : ChunkState (σ × List (ChunkCall D)) T}
    (h : c.Rendered frames) (header : Event D) :
    (chunkEvent (logRender render) (logHandle handle) frames c header).Rendered frames := by
  constructor
  · rw [chunkEvent_cursor, chunkEvent_log]
    unfold nextCursor
    split
    · rename_i hin
      rw [ChunkCall.rendered_handle, ChunkCall.rendered_render]
      exact h.tiles.concat hin.1
    · rw [ChunkCall.rendered_handle]
      exact h.tiles
  · rw [chunkEvent_cursor]
    exact nextCursor_le h.inBlock header

variable (render handle) in
theorem ChunkState.Rendered.events (headers : List (Event D)) :
    ∀ {c : ChunkState (σ × List (ChunkCall D)) T}, c.Rendered frames →
      (headers.foldl (chunkEvent (logRender render) (logHandle handle) frames) c).Rendered
        frames := by
  induction headers with
  | nil => exact fun h => h
  | cons header headers ih => exact fun h => ih (h.event header)

variable (render handle frames) in
theorem handled_events (headers : List (Event D)) :
    ∀ c : ChunkState (σ × List (ChunkCall D)) T,
      handled (headers.foldl (chunkEvent (logRender render) (logHandle handle) frames) c).self.2 =
        handled c.self.2 ++ headers := by
  induction headers with
  | nil => exact fun c => (List.append_nil _).symm
  | cons header headers ih =>
    intro c
    rw [List.foldl_cons, ih, handled_chunkEvent, List.append_assoc]
    rfl

/-- An event that does not lie before the cursor, in a block that does not end before it, finds
    the frames before its time rendered. -/
theorem onTime_event {c : ChunkState (σ × List (ChunkCall D)) T} (h : c.Rendered frames)
    (hlog : OnTime c.self.2) {header : Event D} (hc : c.cursor ≤ header.time)
    (ht : header.time ≤ frames) :
    OnTime (chunkEvent (logRender render) (logHandle handle) frames c header).self.2 := by
  rw [chunkEvent_log]
  split
  · rename_i hin
    refine (hlog.render _ _).handle ?_
    rw [ChunkCall.rendered_render]
    exact h.tiles.concat hin.1
  · rename_i hnot
    have heq : c.cursor = header.time := by omega
    exact hlog.handle (heq ▸ h.tiles)

variable (render handle) in
/-- In a sorted list the cursor never passes the time of an event still to come. -/
theorem onTime_events {headers : List (Event D)} :
    ∀ {c : ChunkState (σ × List (ChunkCall D)) T}, c.Rendered frames → OnTime c.self.2 →
      headers.Pairwise (fun e e' => e.time ≤ e'.time) → (∀ e ∈ headers, c.cursor ≤ e.time) →
      (∀ e ∈ headers, e.time ≤ frames) →
      OnTime
        (headers.foldl (chunkEvent (logRender render) (logHandle handle) frames) c).self.2 := by
  induction headers with
  | nil => exact fun _ hlog _ _ _ => hlog
  | cons header headers ih =>
    intro c h hlog hsorted hcursor htime
    obtain ⟨hfirst, hrest⟩ := List.pairwise_cons.mp hsorted
    have hc := hcursor header List.mem_cons_self
    refine ih (h.event header) (onTime_event h hlog hc (htime header List.mem_cons_self)) hrest
      (fun e he => ?_) fun e he => htime e (List.mem_cons_of_mem _ he)
    rw [chunkEvent_cursor]
    exact (nextCursor_le_time hc).trans (hfirst e he)

/-! ## The whole block -/

/-- The calls the loop makes on a block. -/
def chunkCalls (render : σ → Nat → Nat → Plane T → σ × Plane T) (handle : σ → Event D → σ)
    (frames : Nat) (headers : List (Event D)) (s : σ) (m : Plane T) : List (ChunkCall D) :=
  (chunkLoop (logRender render) (logHandle handle) frames headers (s, []) m).self.2

/-- The rest of the block is one more call, unless there is none. -/
theorem chunkCalls_eq (headers : List (Event D)) (s : σ) (m : Plane T) :
    let c := headers.foldl (chunkEvent (logRender render) (logHandle handle) frames)
      ⟨(s, []), m, 0⟩
    chunkCalls render handle frames headers s m =
      if c.cursor < frames then c.self.2 ++ [.render c.cursor (frames - c.cursor)]
      else c.self.2 := by
  intro c
  unfold chunkCalls chunkLoop
  dsimp only
  by_cases hlt : c.cursor < frames
  · rw [if_pos hlt, if_pos hlt]
    rfl
  · rw [if_neg hlt, if_neg hlt]

/-- The loop renders each frame of a block once, from left to right. -/
structure RendersOnce (render : σ → Nat → Nat → Plane T → σ × Plane T) (handle : σ → Event D → σ)
    (frames : Nat) (headers : List (Event D)) (s : σ) (m : Plane T) : Prop where
  /-- the calls are noted on the way, the loop is the same -/
  logged : (chunkLoop (logRender render) (logHandle handle) frames headers (s, []) m).unlogged =
    chunkLoop render handle frames headers s m
  tiles : Tiles 0 (rendered (chunkCalls render handle frames headers s m)) frames
  once : ∀ i, (rendered (chunkCalls render handle frames headers s m)).countP (covers i) =
    if i < frames then 1 else 0
  handled : handled (chunkCalls render handle frames headers s m) = headers
  onTime : headers.Pairwise (fun e e' => e.time ≤ e'.time) → (∀ e ∈ headers, e.time ≤ frames) →
    OnTime (chunkCalls render handle frames headers s m)

theorem rendersOnce (headers : List (Event D)) (s : σ) (m : Plane T) :
    RendersOnce render handle frames headers s m := by
  have hstart : ChunkState.Rendered frames
      (⟨(s, []), m, 0⟩ : ChunkState (σ × List (ChunkCall D)) T) := ⟨rfl, Nat.zero_le frames⟩
  have hevents := hstart.events render handle headers
  have htiles : Tiles 0 (rendered (chunkCalls render handle frames headers s m)) frames := by
    rw [chunkCalls_eq]
    split
    · rename_i hlt
      rw [ChunkCall.rendered_render]
      exact hevents.tiles.concat hlt
    · rename_i hnot
      have hend := hevents.tiles
      rw [Nat.le_antisymm hevents.inBlock (Nat.not_lt.mp hnot)] at hend
      exact hend
  have hhandled := handled_events render handle frames headers ⟨(s, []), m, 0⟩
  refine ⟨chunkLoop_logged headers s [] m, htiles, fun i => ?_, ?_, fun hsorted htime => ?_⟩
  · rw [htiles.countP_covers i]
    simp
  · rw [chunkCalls_eq]
    split
    · rw [ChunkCall.handled_render, hhandled]
      rfl
    · rw [hhandled]
      rfl
  · have hlog := onTime_events render handle hstart ChunkCall.onTime_nil hsorted
      (fun e _ => Nat.zero_le e.time) htime
    rw [chunkCalls_eq]
    split
    · exact hlog.render _ _
    · exact hlog

end Loop

section Synths

variable {D S T : Type} [DoubleOps D] [FloatOps S] [FloatCast D S]

end Synths

end Cvp
