/-
  The block that shows the chunk an event splits. A note starts one frame before the end of the
  block and the list, out of order, stops it behind the event: with the event the frame is
  rendered before the note-off, without it the note is already being released.
-/
import ClapValidatorPlugins.Events.SynthProbes

namespace Cvp

/-! ## One frame of a held and of a released voice -/

namespace SineEngine

variable {D S : Type} [DoubleOps D] [FloatOps S] [FloatCast D S]

/-- The release gain of the first voice. -/
def headRelease (e : SineEngine D S) : Option S := e.head.map (·.2.2.2)

/-- An engine that holds one voice. -/
def held (S : Type) [FloatOps S] [FloatCast D S] (rate : D) : SineEngine D S :=
  (idle S rate).noteOn 0 0 0 (DoubleOps.lit 1)

theorem renderImpl_idle (rate : D) (left : Ptr) (right : Option Ptr) (offset frames : Nat)
    (gain : S) (m : Plane S) :
    ((idle S rate).renderImpl left right offset frames gain m).1 = idle S rate := rfl

theorem passes_one {t : Nat} (ht : 0 < t) (hlt : t < 2 ^ 32) : passes (t - 1) 1 = 1 := by
  unfold passes
  rw [Nat.sub_add_cancel ht, Nat.mod_eq_of_lt hlt]
  omega

theorem renderVoice_one (left : Ptr) (right : Option Ptr) (level : S) (i : Nat) (v : Voice D S)
    (m : Plane S) : (renderVoice left right level i 1 v m).1 = (voiceFrame level v).1 := by
  unfold renderVoice
  split
  · rename_i hframe
    rw [hframe]
  · rename_i hframe
    rw [hframe]
    rfl

theorem voiceFrame_releaseGain (level : S) (v : Voice D S) (h : v.releasing = true) :
    (voiceFrame level v).1.releaseGain = v.releaseGain - v.releaseStep := by
  unfold voiceFrame
  rw [if_pos h]
  dsimp only
  split
  · rfl
  · rfl

/-- Rendered before it is released, the voice keeps its release gain. -/
theorem headRelease_renderImpl_noteOff (rate : D) (left : Ptr) (right : Option Ptr)
    {offset frames : Nat} (h : passes offset frames = 1) (gain : S) (m : Plane S) :
    (((held S rate).renderImpl left right offset frames gain m).1.noteOff (-1) (-1) (-1)
      false).headRelease = some (FloatOps.lit 1) := by
  unfold renderImpl
  rw [h]
  rfl

/-- Rendered after it was released, it has lost one step. -/
theorem headRelease_noteOff_renderImpl (rate : D) (left : Ptr) (right : Option Ptr)
    {offset frames : Nat} (h : passes offset frames = 1) (gain : S) (m : Plane S) :
    (((held S rate).noteOff (-1) (-1) (-1) false).renderImpl left right offset frames gain
      m).1.headRelease = some (FloatOps.lit 1 -
        FloatCast.toFloat (DoubleOps.lit 1 / (kReleaseSeconds * rate))) := by
  let released : Voice D S :=
    { (idle S rate).newVoice 0 0 (0 : Int) (DoubleOps.lit 1 : D) with releasing := true }
  unfold renderImpl
  rw [h]
  show some (renderVoice left right (level gain _ released) offset 1 released m).1.releaseGain = _
  rw [renderVoice_one, voiceFrame_releaseGain _ released rfl]
  rfl

end SineEngine

/-! ## The block -/

namespace Flavor

variable {D S : Type} [DoubleOps D] [FloatOps S] [FloatCast D S] [DoubleBits D]
  {flavor : Flavor} {frames : Nat} {gain : S}
  {render : flavor.State D S → Nat → Nat → Plane S → flavor.State D S × Plane S}

/-- A loop state that has rendered up to `cursor` and left this engine. -/
def RenderedTo (flavor : Flavor) (c : ChunkState (flavor.State D S) S) (cursor : Nat)
    (engine : SineEngine D S) : Prop :=
  c.cursor = cursor ∧ flavor.engine c.self = some engine

omit [DoubleBits D] in
theorem RenderedTo.rendered (hrender : flavor.RendersEngine render gain frames)
    {c : ChunkState (flavor.State D S) S} {cursor : Nat} {engine : SineEngine D S}
    (h : flavor.RenderedTo c cursor engine) (target : Nat) :
    flavor.RenderedTo (renderTo render target c) target
      (engine.renderImpl 0 (some 1) cursor (target - cursor) gain c.memory).1 := by
  refine ⟨rfl, ?_⟩
  show flavor.engine (render c.self c.cursor (target - c.cursor) c.memory).1 = _
  rw [hrender.engine, h.1, h.2]
  rfl

omit [DoubleBits D] in
/-- A note event up to which everything is rendered. -/
theorem RenderedTo.note (hchunks : flavor.rendersChunks = true)
    {c : ChunkState (flavor.State D S) S} {cursor : Nat} {engine : SineEngine D S}
    (h : flavor.RenderedTo c cursor engine) {x : Event D} (hx : playsNote x = true)
    (htime : x.time ≤ cursor) (base : Base D) (frames : Nat)
    (render : flavor.State D S → Nat → Nat → Plane S → flavor.State D S × Plane S) :
    flavor.RenderedTo (chunkEvent render (flavor.processEvent base) frames c x) cursor
      (engine.handleEvent x) := by
  have hstays : ¬ (c.cursor < x.time ∧ x.time ≤ frames) := by
    rw [h.1]
    omega
  unfold chunkEvent
  rw [if_neg hstays]
  refine ⟨h.1, ?_⟩
  rw [engine_processEvent_note hchunks base _ hx, h.2]
  rfl

omit [DoubleBits D] in
/-- A note event ahead of the cursor. -/
theorem RenderedTo.note_ahead (hchunks : flavor.rendersChunks = true)
    (hrender : flavor.RendersEngine render gain frames)
    {c : ChunkState (flavor.State D S) S} {cursor : Nat} {engine : SineEngine D S}
    (h : flavor.RenderedTo c cursor engine) {x : Event D} (hx : playsNote x = true)
    (htime : cursor < x.time ∧ x.time ≤ frames) (base : Base D) :
    flavor.RenderedTo (chunkEvent render (flavor.processEvent base) frames c x) x.time
      ((engine.renderImpl 0 (some 1) cursor (x.time - cursor) gain c.memory).1.handleEvent x) := by
  obtain ⟨hcursor, hengine⟩ := h.rendered hrender x.time
  have hahead : c.cursor < x.time ∧ x.time ≤ frames := by
    rw [h.1]
    exact htime
  unfold chunkEvent
  rw [if_pos hahead]
  refine ⟨hcursor, ?_⟩
  rw [engine_processEvent_note hchunks base _ hx, hengine]
  rfl

/-- A note-on at `time`, and a note-off for every voice at 0. -/
def heldNote (D : Type) [DoubleOps D] (time : Nat) : Event D :=
  { noteOnEvent 0 0 0 with time := time }

def releaseAll (D : Type) [DoubleOps D] : Event D :=
  { size := 40, time := 0
    body := .noteOff
      { noteId := -1, portIndex := 0, channel := -1, key := -1, velocity := DoubleOps.lit 0 } }

/-- Up to the last frame nothing sounds; there the note starts. -/
theorem renderedTo_heldNote (hchunks : flavor.rendersChunks = true)
    (hrender : flavor.RendersEngine render gain frames) (base : Base D) (rate : D)
    (plane : Plane S) :
    flavor.RenderedTo (chunkEvent render (flavor.processEvent base) frames
      { self := (flavor.running S rate).self, memory := plane, cursor := 0 }
      (heldNote D (frames - 1))) (frames - 1) (SineEngine.held S rate) := by
  have hidle : flavor.RenderedTo
      { self := (flavor.running S rate).self, memory := plane, cursor := 0 } 0
      (SineEngine.idle S rate) := ⟨rfl, engine_running hchunks rate⟩
  by_cases hone : frames - 1 = 0
  · rw [hone]
    exact hidle.note hchunks rfl (Nat.le_refl 0) base frames render
  · have hstart := hidle.note_ahead hchunks hrender (x := heldNote D (frames - 1)) rfl
      ⟨Nat.pos_of_ne_zero hone, Nat.sub_le frames 1⟩ base
    rw [SineEngine.renderImpl_idle] at hstart
    exact hstart

omit [DoubleBits D] in
theorem processEvent_of_ignored (hchunks : flavor.rendersChunks = true) {e : Event D}
    (h : flavor.actsOn e = false) (base : Base D) (s : flavor.State D S) :
    flavor.processEvent base s e = s := by
  cases flavor with
  | synth => exact SynthPlugin.handleEvent_of_ignored h s
  | sidechainSynth => exact SidechainSynthPlugin.handleEvent_of_ignored h s
  | _ => cases hchunks

/-- With the event at the end of the block the last frame is rendered before the note-off. -/
theorem headRelease_with (hchunks : flavor.rendersChunks = true)
    (hrender : flavor.RendersEngine render gain frames) (base : Base D) (rate : D)
    (plane : Plane S) {e : Event D}
    (hignored : ∀ s, flavor.processEvent (S := S) base s e = s) (hframes : 0 < frames)
    (hlt : frames < 2 ^ 32) (htime : e.time = frames) :
    ∃ engine, flavor.engine (chunkLoop render (flavor.processEvent base) frames
        [heldNote D (frames - 1), e, releaseAll D] (flavor.running S rate).self plane).self =
          some engine ∧
      engine.headRelease = some (FloatOps.lit 1) := by
  have hheld := renderedTo_heldNote hchunks hrender base rate plane
  generalize hc : chunkEvent render (flavor.processEvent base) frames
    { self := (flavor.running S rate).self, memory := plane, cursor := 0 }
    (heldNote D (frames - 1)) = c at hheld
  have hsplit : chunkEvent render (flavor.processEvent base) frames c e =
      renderTo render frames c := by
    rw [chunkEvent_of_ignored hignored, htime, if_pos ⟨by rw [hheld.1]; omega, Nat.le_refl _⟩]
  have hend := (hheld.rendered hrender frames).note hchunks (x := releaseAll D) rfl
    (Nat.zero_le _) base frames render
  have hloop : (chunkLoop render (flavor.processEvent base) frames
      [heldNote D (frames - 1), e, releaseAll D] (flavor.running S rate).self plane) =
      chunkEvent render (flavor.processEvent base) frames (renderTo render frames c)
        (releaseAll D) := by
    unfold chunkLoop
    rw [List.foldl_cons, List.foldl_cons, List.foldl_cons, List.foldl_nil, hc, hsplit]
    exact if_neg (by rw [hend.1]; omega)
  refine ⟨_, by rw [hloop]; exact hend.2, ?_⟩
  exact SineEngine.headRelease_renderImpl_noteOff rate _ _
    (by rw [Nat.sub_sub_self hframes]; exact SineEngine.passes_one hframes hlt) _ _

/-- Without it, after. -/
theorem headRelease_without (hchunks : flavor.rendersChunks = true)
    (hrender : flavor.RendersEngine render gain frames) (base : Base D) (rate : D)
    (plane : Plane S) (hframes : 0 < frames) (hlt : frames < 2 ^ 32) :
    ∃ engine, flavor.engine (chunkLoop render (flavor.processEvent base) frames
        [heldNote D (frames - 1), releaseAll D] (flavor.running S rate).self plane).self =
          some engine ∧
      engine.headRelease = some (FloatOps.lit 1 -
        FloatCast.toFloat (DoubleOps.lit 1 / (SineEngine.kReleaseSeconds * rate))) := by
  have hheld := renderedTo_heldNote hchunks hrender base rate plane
  generalize hc : chunkEvent render (flavor.processEvent base) frames
    { self := (flavor.running S rate).self, memory := plane, cursor := 0 }
    (heldNote D (frames - 1)) = c at hheld
  have hreleased := hheld.note hchunks (x := releaseAll D) rfl (Nat.zero_le _) base frames
    render
  have hend := hreleased.rendered hrender frames
  have hloop : (chunkLoop render (flavor.processEvent base) frames
      [heldNote D (frames - 1), releaseAll D] (flavor.running S rate).self plane) =
      renderTo render frames (chunkEvent render (flavor.processEvent base) frames c
        (releaseAll D)) := by
    unfold chunkLoop
    rw [List.foldl_cons, List.foldl_cons, List.foldl_nil, hc]
    exact if_pos (by rw [hreleased.1]; omega)
  refine ⟨_, by rw [hloop]; exact hend.2, ?_⟩
  exact SineEngine.headRelease_noteOff_renderImpl rate _ _
    (by rw [Nat.sub_sub_self hframes]; exact SineEngine.passes_one hframes hlt) _ _

/-- A synth skips an event everywhere only if it is at the start of the block. -/
theorem Skipped.time_eq_zero (hd : NonDegenerate D S) (hchunks : flavor.rendersChunks = true)
    {e : Event D} (hignored : flavor.actsOn e = false) (htime : e.time < 2 ^ 32)
    (h : Skipped S flavor e fun _ _ _ => True) : e.time = 0 := by
  by_contra hzero
  obtain ⟨rate, hrate⟩ := hd.release
  have hframes : (UInt32.ofNat e.time).toNat = e.time := UInt32.toNat_ofNat_of_lt' htime
  obtain ⟨render, gain, plane, render', gain', plane', hrender, hrender', halike⟩ :=
    h.loops hchunks rate (UInt32.ofNat e.time) [heldNote D (e.time - 1)] [releaseAll D] trivial
  rw [hframes] at hrender hrender' halike
  obtain ⟨a, ha, hkept⟩ := headRelease_with hchunks hrender (flavor.running S rate).base rate
    plane
    (processEvent_of_ignored hchunks hignored (flavor.running S rate).base)
    (Nat.pos_of_ne_zero hzero) htime rfl
  obtain ⟨b, hb, hlost⟩ := headRelease_without hchunks hrender' (flavor.running S rate).base
    rate plane' (Nat.pos_of_ne_zero hzero) htime
  have hsame : a.headRelease = b.headRelease := by
    unfold SineEngine.headRelease
    rw [halike.head ha hb]
  rw [hkept, hlost] at hsame
  exact hrate (Option.some.inj hsame).symm

end Flavor

end Cvp
