/-
  The event loop that renders in chunks (`chunkLoop`), for any renderer that may be called in
  parts. An event that is not acted on splits a chunk and does nothing else, so it can be put
  into a block or left out of it (`chunkLoop_padded`). The exception is an event behind the end
  of the block: the loop does not render up to it but handles it where the cursor stands, and an
  ignored event before it moves the cursor.
-/
import ClapValidatorPlugins.Plugins.Synths
import ClapValidatorPlugins.Voices.Rendering

namespace Cvp

/-! ## Inserted elements -/

/-- `padded` is `kept` with elements of `P` put in anywhere. -/
inductive Padded {α : Type} (P : α → Prop) : List α → List α → Prop where
  | nil : Padded P [] []
  | keep (x : α) {kept padded : List α} :
      Padded P kept padded → Padded P (x :: kept) (x :: padded)
  | insert {x : α} {kept padded : List α} :
      P x → Padded P kept padded → Padded P kept (x :: padded)

theorem Padded.mem {α : Type} {P : α → Prop} {kept padded : List α} (h : Padded P kept padded)
    {y : α} (hy : y ∈ kept) : y ∈ padded := by
  induction h with
  | nil => exact hy
  | keep x _ ih =>
    rcases List.mem_cons.mp hy with rfl | hmem
    · exact List.mem_cons_self
    · exact List.mem_cons_of_mem x (ih hmem)
  | insert _ _ ih => exact List.mem_cons_of_mem _ (ih hy)

theorem Padded.refl {α : Type} {P : α → Prop} : ∀ xs : List α, Padded P xs xs
  | [] => .nil
  | x :: xs => .keep x (Padded.refl xs)

/-- One element put in. -/
theorem Padded.insertAt {α : Type} {P : α → Prop} {x : α} (hx : P x) (front back : List α) :
    Padded P (front ++ back) (front ++ x :: back) := by
  induction front with
  | nil => exact .insert hx (Padded.refl back)
  | cons y front ih => exact .keep y ih

/-! ## Renderers that may be called in parts -/

section Loop

variable {D σ T : Type}

/-- Within a block, two calls in a row are one call. -/
structure Splits (render : σ → Nat → Nat → Plane T → σ × Plane T) (frames : Nat) : Prop where
  zero : ∀ s o m, o ≤ frames → render s o 0 m = (s, m)
  add : ∀ s o a b m, o + a + b ≤ frames →
    render s o (a + b) m = render (render s o a m).1 (o + a) b (render s o a m).2

variable {render : σ → Nat → Nat → Plane T → σ × Plane T} {handle : σ → Event D → σ}
  {frames : Nat}

theorem renderTo_self (hr : Splits render frames) {c : ChunkState σ T} (hc : c.cursor ≤ frames) :
    renderTo render c.cursor c = c := by
  unfold renderTo
  rw [Nat.sub_self, hr.zero _ _ _ hc]

theorem renderTo_renderTo (hr : Splits render frames) {c : ChunkState σ T} {t u : Nat}
    (hct : c.cursor ≤ t) (htu : t ≤ u) (hu : u ≤ frames) :
    renderTo render u (renderTo render t c) = renderTo render u c := by
  have hadd := hr.add c.self c.cursor (t - c.cursor) (u - t) c.memory (by omega)
  rw [show t - c.cursor + (u - t) = u - c.cursor by omega,
    show c.cursor + (t - c.cursor) = t by omega] at hadd
  unfold renderTo
  rw [hadd]

/-! ## The cursor -/

/-- The cursor behind an event. -/
def nextCursor (frames cursor : Nat) (header : Event D) : Nat :=
  if cursor < header.time ∧ header.time ≤ frames then header.time else cursor

/-- The cursor behind the event loop: the last time stamp within the block. -/
def lastCursor (frames : Nat) (headers : List (Event D)) : Nat :=
  headers.foldl (nextCursor frames) 0

theorem nextCursor_le {cursor : Nat} (hc : cursor ≤ frames) (header : Event D) :
    nextCursor frames cursor header ≤ frames := by
  unfold nextCursor
  split
  · omega
  · exact hc

theorem nextCursor_le_time {cursor : Nat} {header : Event D} (hc : cursor ≤ header.time) :
    nextCursor frames cursor header ≤ header.time := by
  unfold nextCursor
  split
  · exact Nat.le_refl _
  · exact hc

/-- Events behind the block leave the cursor alone. -/
theorem foldl_nextCursor_of_lt {headers : List (Event D)} {cursor : Nat}
    (h : ∀ e ∈ headers, frames < e.time) :
    headers.foldl (nextCursor frames) cursor = cursor := by
  induction headers with
  | nil => rfl
  | cons e es ih =>
    have he : nextCursor frames cursor e = cursor :=
      if_neg fun hin => absurd hin.2 (Nat.not_le.mpr (h e List.mem_cons_self))
    rw [List.foldl_cons, he, ih fun x hx => h x (List.mem_cons_of_mem e hx)]

theorem chunkEvent_cursor (c : ChunkState σ T) (header : Event D) :
    (chunkEvent render handle frames c header).cursor = nextCursor frames c.cursor header := by
  unfold chunkEvent nextCursor
  split
  · rfl
  · rfl

/-- An event at or behind the cursor and within the block. -/
theorem chunkEvent_of_le (hr : Splits render frames) {c : ChunkState σ T} {header : Event D}
    (hc : c.cursor ≤ header.time) (ht : header.time ≤ frames) :
    chunkEvent render handle frames c header =
      { renderTo render header.time c with
        self := handle (renderTo render header.time c).self header } := by
  unfold chunkEvent
  by_cases hlt : c.cursor < header.time
  · rw [if_pos ⟨hlt, ht⟩]
  · have heq : header.time = c.cursor := by omega
    rw [if_neg fun hin => hlt hin.1, heq, renderTo_self hr (heq ▸ ht)]

/-- An event that is not acted on renders and does nothing else. -/
theorem chunkEvent_of_ignored {header : Event D} (hignored : ∀ s, handle s header = s)
    (c : ChunkState σ T) :
    chunkEvent render handle frames c header =
      if c.cursor < header.time ∧ header.time ≤ frames then renderTo render header.time c
      else c := by
  unfold chunkEvent
  dsimp only
  rw [hignored]

/-- An event behind the block is handled where the cursor stands. -/
theorem chunkEvent_of_lt {c : ChunkState σ T} {header : Event D} (ht : frames < header.time) :
    chunkEvent render handle frames c header = { c with self := handle c.self header } := by
  unfold chunkEvent
  rw [if_neg fun hin => absurd hin.2 (Nat.not_le.mpr ht)]

/-! ## Two loops -/

/-- The loop with the inserted events has rendered further than the other one. -/
structure Ahead (render : σ → Nat → Nat → Plane T → σ × Plane T) (frames : Nat)
    (c c' : ChunkState σ T) : Prop where
  le : c.cursor ≤ c'.cursor
  inBlock : c'.cursor ≤ frames
  rendered : c' = renderTo render c'.cursor c

theorem Ahead.refl (hr : Splits render frames) {c : ChunkState σ T} (hc : c.cursor ≤ frames) :
    Ahead render frames c c :=
  ⟨Nat.le_refl _, hc, (renderTo_self hr hc).symm⟩

theorem Ahead.eq_of_cursor (hr : Splits render frames) {c c' : ChunkState σ T}
    (h : Ahead render frames c c') (heq : c.cursor = c'.cursor) : c' = c := by
  rw [h.rendered, ← heq]
  exact renderTo_self hr (heq ▸ h.inBlock)

theorem Ahead.renderTo_eq (hr : Splits render frames) {c c' : ChunkState σ T}
    (h : Ahead render frames c c') {t : Nat} (hct : c'.cursor ≤ t) (ht : t ≤ frames) :
    renderTo render t c' = renderTo render t c := by
  rw [h.rendered]
  exact renderTo_renderTo hr h.le hct ht

/-- An inserted event. -/
theorem Ahead.insert (hr : Splits render frames) {c c' : ChunkState σ T}
    (h : Ahead render frames c c') {header : Event D} (hignored : ∀ s, handle s header = s)
    (hc : c'.cursor ≤ header.time) :
    Ahead render frames c (chunkEvent render handle frames c' header) := by
  by_cases ht : header.time ≤ frames
  · have hsame : chunkEvent render handle frames c' header = renderTo render header.time c := by
      rw [chunkEvent_of_le hr hc ht, hignored, h.renderTo_eq hr hc ht]
    rw [hsame]
    exact ⟨Nat.le_trans h.le hc, ht, rfl⟩
  · rw [chunkEvent_of_lt (Nat.not_le.mp ht), hignored]
    exact h

/-- An event of both lists. -/
theorem Ahead.keep (hr : Splits render frames) {c c' : ChunkState σ T}
    (h : Ahead render frames c c') {header : Event D} (hc : c'.cursor ≤ header.time)
    (hbeyond : frames < header.time → (∀ s, handle s header = s) ∨ c.cursor = c'.cursor) :
    Ahead render frames (chunkEvent render handle frames c header)
      (chunkEvent render handle frames c' header) := by
  have hbelow : (chunkEvent render handle frames c header).cursor ≤ frames := by
    rw [chunkEvent_cursor]
    exact nextCursor_le (Nat.le_trans h.le h.inBlock) header
  by_cases ht : header.time ≤ frames
  · have hsame : chunkEvent render handle frames c' header =
        chunkEvent render handle frames c header := by
      rw [chunkEvent_of_le hr hc ht, chunkEvent_of_le hr (Nat.le_trans h.le hc) ht,
        h.renderTo_eq hr hc ht]
    rw [hsame]
    exact Ahead.refl hr hbelow
  · rcases hbeyond (Nat.not_le.mp ht) with hignored | hcursor
    · rw [chunkEvent_of_lt (Nat.not_le.mp ht), chunkEvent_of_lt (Nat.not_le.mp ht), hignored,
        hignored]
      exact h
    · rw [h.eq_of_cursor hr hcursor]
      exact Ahead.refl hr hbelow

/-- Either no event that is acted on lies behind the block, or the inserted events leave the
    cursor where the others put it. -/
def InsertsHarmless (handle : σ → Event D → σ) (frames cursor cursor' : Nat)
    (headers padded : List (Event D)) : Prop :=
  (∀ e ∈ headers, (∀ s, handle s e = s) ∨ e.time ≤ frames) ∨
    headers.foldl (nextCursor frames) cursor = padded.foldl (nextCursor frames) cursor'

theorem Ahead.foldl (hr : Splits render frames) {headers padded : List (Event D)}
    (hpad : Padded (fun e => ∀ s, handle s e = s) headers padded) :
    ∀ {c c' : ChunkState σ T}, Ahead render frames c c' →
      padded.Pairwise (fun e e' => e.time ≤ e'.time) → (∀ e ∈ padded, c'.cursor ≤ e.time) →
      InsertsHarmless handle frames c.cursor c'.cursor headers padded →
      Ahead render frames (headers.foldl (chunkEvent render handle frames) c)
        (padded.foldl (chunkEvent render handle frames) c') := by
  induction hpad with
  | nil => exact fun h _ _ _ => h
  | @keep x kept padded hrest ih =>
    intro c c' h hsorted hcursor hharmless
    obtain ⟨hfirst, hlater⟩ := List.pairwise_cons.mp hsorted
    have hx : c'.cursor ≤ x.time := hcursor x List.mem_cons_self
    refine ih (h.keep hr hx fun hlt => ?_) hlater (fun e he => ?_) ?_
    · rcases hharmless with hbelow | heq
      · exact .inl ((hbelow x List.mem_cons_self).resolve_right (Nat.not_le.mpr hlt))
      · -- everything from here on lies behind the block, so both cursors are final
        have hall : ∀ e ∈ x :: padded, frames < e.time := by
          intro e he
          rcases List.mem_cons.mp he with rfl | hmem
          · exact hlt
          · exact Nat.lt_of_lt_of_le hlt (hfirst e hmem)
        rw [foldl_nextCursor_of_lt hall,
          foldl_nextCursor_of_lt fun e he => hall e ((Padded.keep x hrest).mem he)] at heq
        exact .inr heq
    · rw [chunkEvent_cursor]
      exact Nat.le_trans (nextCursor_le_time hx) (hfirst e he)
    · rw [chunkEvent_cursor, chunkEvent_cursor]
      exact hharmless.imp (fun hbelow e he => hbelow e (List.mem_cons_of_mem x he)) id
  | @insert x kept padded hignored _ ih =>
    intro c c' h hsorted hcursor hharmless
    obtain ⟨hfirst, hlater⟩ := List.pairwise_cons.mp hsorted
    have hx : c'.cursor ≤ x.time := hcursor x List.mem_cons_self
    refine ih (h.insert hr hignored hx) hlater (fun e he => ?_) ?_
    · rw [chunkEvent_cursor]
      exact Nat.le_trans (nextCursor_le_time hx) (hfirst e he)
    · rw [chunkEvent_cursor]
      exact hharmless

/-- The chunk behind the last event. -/
theorem renderRest_eq (hr : Splits render frames) {c : ChunkState σ T} (hc : c.cursor ≤ frames) :
    (if c.cursor < frames then renderTo render frames c else c) = renderTo render frames c := by
  split
  · rfl
  · rename_i hge
    have heq : frames = c.cursor := by omega
    rw [heq]
    exact (renderTo_self hr hc).symm

theorem Ahead.renderRest (hr : Splits render frames) {c c' : ChunkState σ T}
    (h : Ahead render frames c c') :
    (if c'.cursor < frames then renderTo render frames c' else c') =
      if c.cursor < frames then renderTo render frames c else c := by
  rw [renderRest_eq hr h.inBlock, renderRest_eq hr (Nat.le_trans h.le h.inBlock)]
  exact h.renderTo_eq hr h.inBlock (Nat.le_refl frames)

/-- Ignored events may be put into a block or left out of it. -/
theorem chunkLoop_padded (hr : Splits render frames) {headers padded : List (Event D)}
    (hpad : Padded (fun e => ∀ s, handle s e = s) headers padded)
    (hsorted : padded.Pairwise (fun e e' => e.time ≤ e'.time))
    (hharmless : (∀ e ∈ headers, (∀ s, handle s e = s) ∨ e.time ≤ frames) ∨
      lastCursor frames headers = lastCursor frames padded) (s : σ) (m : Plane T) :
    chunkLoop render handle frames padded s m = chunkLoop render handle frames headers s m := by
  have hahead := Ahead.foldl hr hpad (Ahead.refl hr (c := ⟨s, m, 0⟩) (Nat.zero_le frames)) hsorted
    (fun e _ => Nat.zero_le e.time) hharmless
  exact hahead.renderRest hr

theorem foldl_cursor_le {headers : List (Event D)} :
    ∀ {c : ChunkState σ T}, c.cursor ≤ frames →
      (headers.foldl (chunkEvent render handle frames) c).cursor ≤ frames := by
  induction headers with
  | nil => exact fun hc => hc
  | cons e es ih =>
    intro c hc
    refine ih ?_
    rw [chunkEvent_cursor]
    exact nextCursor_le hc e

/-- An ignored event at the start of the block does not even split a chunk. -/
theorem chunkLoop_of_time_zero {front back : List (Event D)} {e : Event D}
    (hignored : ∀ s, handle s e = s) (ht : e.time = 0) (s : σ) (m : Plane T) :
    chunkLoop render handle frames (front ++ e :: back) s m =
      chunkLoop render handle frames (front ++ back) s m := by
  have hpass : ∀ c : ChunkState σ T, chunkEvent render handle frames c e = c := by
    intro c
    rw [chunkEvent_of_ignored hignored, ht, if_neg fun hin => absurd hin.1 (Nat.not_lt_zero _)]
  unfold chunkLoop
  rw [List.foldl_append, List.foldl_cons, hpass, ← List.foldl_append]

/-- Behind an ignored last event the block is finished as it would be without it. -/
theorem chunkLoop_of_last (hr : Splits render frames) {front : List (Event D)} {e : Event D}
    (hignored : ∀ s, handle s e = s) (s : σ) (m : Plane T) :
    chunkLoop render handle frames (front ++ [e]) s m =
      chunkLoop render handle frames front s m := by
  have hcursor : (front.foldl (chunkEvent render handle frames) ⟨s, m, 0⟩).cursor ≤ frames :=
    foldl_cursor_le (Nat.zero_le frames)
  unfold chunkLoop
  rw [List.foldl_append, List.foldl_cons, List.foldl_nil]
  by_cases ht : (front.foldl (chunkEvent render handle frames) ⟨s, m, 0⟩).cursor ≤ e.time
  · exact ((Ahead.refl hr hcursor).insert hr hignored ht).renderRest hr
  · have hpass : chunkEvent render handle frames
        (front.foldl (chunkEvent render handle frames) ⟨s, m, 0⟩) e =
          front.foldl (chunkEvent render handle frames) ⟨s, m, 0⟩ := by
      rw [chunkEvent_of_ignored hignored, if_neg fun hin => ht (Nat.le_of_lt hin.1)]
    rw [hpass]

end Loop

/-! ## The two synths -/

section Synths

variable {D S T : Type} [DoubleOps D] [FloatOps S] [FloatCast D S]

theorem SynthPlugin.render_splits [SampleOps D T] (left : Ptr) (right : Option Ptr) (gain : S)
    (frames : UInt32) :
    Splits (SynthPlugin.render (D := D) (T := T) left right gain) frames.toNat := by
  have hframes : frames.toNat < 2 ^ 32 := frames.toNat_lt
  refine ⟨fun s o m ho => ?_, fun s o a b m ho => ?_⟩
  · unfold SynthPlugin.render
    rw [renderImpl_zero left right s.engine (Nat.lt_of_le_of_lt ho hframes)]
  · unfold SynthPlugin.render
    rw [renderImpl_split left right s.engine (Nat.lt_of_le_of_lt ho hframes)]

theorem SidechainSynthPlugin.render_splits (left : Ptr) (right : Option Ptr) (gain : S)
    (frames : UInt32) :
    Splits (SidechainSynthPlugin.render (D := D) left right gain) frames.toNat := by
  have hframes : frames.toNat < 2 ^ 32 := frames.toNat_lt
  refine ⟨fun s o m ho => ?_, fun s o a b m ho => ?_⟩
  · unfold SidechainSynthPlugin.render
    rw [renderImpl_zero left right s.engine (Nat.lt_of_le_of_lt ho hframes)]
  · unfold SidechainSynthPlugin.render
    rw [renderImpl_split left right s.engine (Nat.lt_of_le_of_lt ho hframes)]

/-- An event the synth does not act on. -/
def SynthPlugin.Ignored (D S : Type) [DoubleOps D] [FloatOps S] [FloatCast D S] (e : Event D) :
    Prop :=
  ∀ s : SynthPlugin.State D S, SynthPlugin.handleEvent s e = s

theorem SineEngine.handleEvent_foreign (engine : SineEngine D S) {e : Event D}
    (h : e.isCore = false) : engine.handleEvent e = engine := by
  unfold SineEngine.handleEvent
  rw [h]
  rfl

/-- Events of a foreign space. -/
theorem SynthPlugin.ignored_foreign {e : Event D} (h : e.isCore = false) :
    SynthPlugin.Ignored D S e := by
  intro s
  unfold SynthPlugin.handleEvent
  rw [h, SineEngine.handleEvent_foreign s.engine h]
  rfl

theorem SynthPlugin.processTyped_padded [SampleOps D T] (s : SynthPlugin.State D S)
    (frames : UInt32) {headers padded : List (Event D)}
    (hpad : Padded (SynthPlugin.Ignored D S) headers padded)
    (hsorted : padded.Pairwise (fun e e' => e.time ≤ e'.time))
    (hharmless : (∀ e ∈ headers, SynthPlugin.Ignored D S e ∨ e.time ≤ frames.toNat) ∨
      lastCursor frames.toNat headers = lastCursor frames.toNat padded)
    (left : Ptr) (right : Option Ptr) (m : Plane T) :
    SynthPlugin.processTyped s frames padded left right m =
      SynthPlugin.processTyped s frames headers left right m := by
  unfold SynthPlugin.processTyped
  dsimp only
  rw [chunkLoop_padded (SynthPlugin.render_splits left right _ frames) hpad hsorted hharmless]

/-- Chunked rendering is transparent: the engine renders a range in two parts as it renders it
    at once, and events the synth does not act on change neither the samples nor the state nor
    the note ends of a block, as long as no event it acts on lies behind the block or they leave
    the last time stamp within the block as it is. -/
theorem chunked_rendering_transparent [SampleOps D T] :
    (∀ (e : SineEngine D S) (left : Ptr) (right : Option Ptr) (o m n : Nat) (gain : S)
        (plane : Plane T), o + m + n < 2 ^ 32 →
      e.renderImpl left right o (m + n) gain plane =
        (e.renderImpl left right o m gain plane).1.renderImpl left right (o + m) n gain
          (e.renderImpl left right o m gain plane).2) ∧
    (∀ (s : SynthPlugin.State D S) (frames : UInt32) (headers padded : List (Event D))
        (left : Ptr) (right : Option Ptr) (plane : Plane T),
      Padded (SynthPlugin.Ignored D S) headers padded →
      padded.Pairwise (fun e e' => e.time ≤ e'.time) →
      ((∀ e ∈ headers, SynthPlugin.Ignored D S e ∨ e.time ≤ frames.toNat) ∨
        lastCursor frames.toNat headers = lastCursor frames.toNat padded) →
      SynthPlugin.processTyped s frames padded left right plane =
        SynthPlugin.processTyped s frames headers left right plane) := by
  constructor
  · intro e left right o m n gain plane h
    exact renderImpl_split left right e h gain plane
  · intro s frames headers padded left right plane hpad hsorted hharmless
    exact SynthPlugin.processTyped_padded s frames hpad hsorted hharmless left right plane

/-- A foreign event at sample 1. -/
def foreignEvent : Event ExactFloat := { size := 16, time := 1, spaceId := 7, body := .other 0 }

/-- A note-off at sample `time`. -/
def noteOffAt (time : Nat) : Event ExactFloat :=
  { size := sizeofNote, time := time
    body := .noteOff { noteId := -1, channel := 0, key := 60, velocity := 0 } }

/-- A synth at 40 samples a second, where a release takes two frames, with one held note. -/
def heldNote : SynthPlugin.State ExactFloat ExactFloat :=
  { engine := (((SineEngine.create : SineEngine ExactFloat ExactFloat).setSampleRate 40).reset
      ).noteOn 60 0 (-1) 1
    params := (SynthPlugin.create : SynthPlugin.State ExactFloat ExactFloat).params }

def silence : Plane ExactFloat := fun _ _ => 0

theorem chunked_rendering_transparent_foreignEvent :
    heldNote.engine.renderImpl 0 none 0 (1 + 1) 1 silence =
      (heldNote.engine.renderImpl 0 none 0 1 1 silence).1.renderImpl 0 none (0 + 1) 1 1
        (heldNote.engine.renderImpl 0 none 0 1 1 silence).2 ∧
    SynthPlugin.processTyped heldNote 2 [foreignEvent, noteOffAt 1] 0 none silence =
      SynthPlugin.processTyped heldNote 2 [noteOffAt 1] 0 none silence :=
  ⟨chunked_rendering_transparent.1 heldNote.engine 0 none 0 1 1 1 silence (by decide),
    chunked_rendering_transparent.2 heldNote 2 [noteOffAt 1] [foreignEvent, noteOffAt 1] 0 none
      silence (.insert (SynthPlugin.ignored_foreign rfl) (.keep (noteOffAt 1) .nil))
      (List.pairwise_cons.mpr ⟨fun e he => by
        rw [List.mem_singleton.mp he]
        exact Nat.le_refl 1, List.pairwise_singleton _ _⟩)
      (.inl fun e he => .inr (by
        rw [List.mem_singleton.mp he]
        decide))⟩

/-- With the note-off behind a block of two frames, the foreign event decides whether the
    release, and with it the note end, falls into this block. -/
theorem chunked_rendering_lateEvent :
    Padded (SynthPlugin.Ignored ExactFloat ExactFloat) [noteOffAt 3]
      [foreignEvent, noteOffAt 3] ∧
    [foreignEvent, noteOffAt 3].Pairwise (fun e e' => e.time ≤ e'.time) ∧
    SynthPlugin.processTyped heldNote 2 [foreignEvent, noteOffAt 3] 0 none silence ≠
      SynthPlugin.processTyped heldNote 2 [noteOffAt 3] 0 none silence := by
  refine ⟨.insert (SynthPlugin.ignored_foreign rfl) (.keep (noteOffAt 3) .nil), ?_, ?_⟩
  · refine List.pairwise_cons.mpr ⟨fun e he => ?_, List.pairwise_singleton _ _⟩
    rw [List.mem_singleton.mp he]
    decide
  · intro h
    have hpadded : (SynthPlugin.processTyped heldNote 2 [foreignEvent, noteOffAt 3] 0 none
        silence).2.2.length = 0 := by decide +kernel
    have hkept : (SynthPlugin.processTyped heldNote 2 [noteOffAt 3] 0 none
        silence).2.2.length = 1 := by decide +kernel
    rw [h, hkept] at hpadded
    cases hpadded

end Synths

end Cvp
