/-
  The loop that renders in chunks, over one block or over two. A renderer that may be called in
  parts, keeps to its range and does not look at where it stands lets the loop be cut at any frame
  (`chunkLoop_cut`): the events behind the cut go into the second block, with their times counted
  from its start. States are compared up to a relation that the handler keeps.
-/
import ClapValidatorPlugins.Voices.Chunks

namespace Cvp

section Cut

variable {D σ T : Type}

/-- In these channels `[k, k + n)` of `m` is `[0, n)` of `m'`. -/
def Window (channels : List Ptr) (k n : Nat) (m m' : Plane T) : Prop :=
  ∀ p ∈ channels, ∀ i < n, m' p i = m p (k + i)

/-- A renderer that keeps to its range. -/
def InRange (render : σ → Nat → Nat → Plane T → σ × Plane T) (frames : Nat) : Prop :=
  ∀ s o a m p i, o + a ≤ frames → (i < o ∨ o + a ≤ i) → (render s o a m).2 p i = m p i

/-- Rendering late in a long block is rendering early in a short one, with states that `R` holds
    for alike. -/
def Translates (render : σ → Nat → Nat → Plane T → σ × Plane T) (R : σ → σ → Prop)
    (channels : List Ptr) (frames : Nat) : Prop :=
  ∀ s s' k n o a m m', R s s' → Window channels k n m m' → o + a ≤ n → k + n ≤ frames →
    R (render s (k + o) a m).1 (render s' o a m').1 ∧
      Window channels k n (render s (k + o) a m).2 (render s' o a m').2

/-- The event in a block that begins `k` frames later. -/
def Event.earlier (k : Nat) (e : Event D) : Event D := { e with time := e.time - k }

theorem Splits.mono {render : σ → Nat → Nat → Plane T → σ × Plane T} {n frames : Nat}
    (h : Splits render frames) (hn : n ≤ frames) : Splits render n :=
  ⟨fun s o m ho => h.zero s o m (ho.trans hn), fun s o a b m ho => h.add s o a b m (ho.trans hn)⟩

variable {render : σ → Nat → Nat → Plane T → σ × Plane T} {handle : σ → Event D → σ}
  {R : σ → σ → Prop} {channels : List Ptr} {k n frames : Nat}

/-- The loop over a long block stands `k` frames behind the one over a short block. -/
structure Behind (R : σ → σ → Prop) (channels : List Ptr) (k n : Nat) (c c' : ChunkState σ T) :
    Prop where
  self : R c.self c'.self
  window : Window channels k n c.memory c'.memory
  cursor : c.cursor = k + c'.cursor
  inBlock : c'.cursor ≤ n

theorem Behind.renderTo {c c' : ChunkState σ T} (h : Behind R channels k n c c')
    (hs : Translates render R channels frames) (hk : k + n ≤ frames) {t : Nat} (hct : c'.cursor ≤ t)
    (ht : t ≤ n) : Behind R channels k n (renderTo render (k + t) c) (renderTo render t c') := by
  obtain ⟨hself, hwindow⟩ := hs c.self c'.self k n c'.cursor (t - c'.cursor) c.memory c'.memory
    h.self h.window (by omega) hk
  unfold Cvp.renderTo
  rw [h.cursor, show k + t - (k + c'.cursor) = t - c'.cursor by omega]
  exact ⟨hself, hwindow, rfl, ht⟩

theorem Behind.event {c c' : ChunkState σ T} (h : Behind R channels k n c c')
    (hs : Translates render R channels frames) (hk : k + n ≤ frames)
    (hhandle : ∀ s s' e, R s s' → R (handle s e) (handle s' (e.earlier k))) {e : Event D}
    (hke : k ≤ e.time) (hen : e.time ≤ k + n) :
    Behind R channels k n (chunkEvent render handle frames c e)
      (chunkEvent render handle n c' (e.earlier k)) := by
  have htime : (e.earlier k).time = e.time - k := rfl
  unfold chunkEvent
  rw [htime, h.cursor]
  by_cases hlt : c'.cursor < e.time - k
  · rw [if_pos ⟨by omega, by omega⟩, if_pos ⟨hlt, by omega⟩]
    have hto := h.renderTo hs hk (t := e.time - k) (by omega) (by omega)
    rw [show k + (e.time - k) = e.time by omega] at hto
    exact ⟨hhandle _ _ e hto.self, hto.window, hto.cursor, hto.inBlock⟩
  · rw [if_neg (by omega), if_neg (by omega)]
    exact ⟨hhandle _ _ e h.self, h.window, h.cursor, h.inBlock⟩

theorem Behind.events (hs : Translates render R channels frames) (hk : k + n ≤ frames)
    (hhandle : ∀ s s' e, R s s' → R (handle s e) (handle s' (e.earlier k)))
    {events : List (Event D)} : ∀ {c c' : ChunkState σ T}, Behind R channels k n c c' →
      (∀ e ∈ events, k ≤ e.time ∧ e.time ≤ k + n) →
      Behind R channels k n (events.foldl (chunkEvent render handle frames) c)
        ((events.map (Event.earlier k)).foldl (chunkEvent render handle n) c') := by
  induction events with
  | nil => exact fun h _ => h
  | cons e es ih =>
    intro c c' h htimes
    obtain ⟨he, hes⟩ := List.forall_mem_cons.mp htimes
    exact ih (h.event hs hk hhandle he.1 he.2) hes

/-! ## Columns that are left alone -/

theorem renderTo_column (hr : InRange render frames) {c : ChunkState σ T} {t : Nat}
    (hct : c.cursor ≤ t) (ht : t ≤ frames) (p : Ptr) {i : Nat} (hi : i < c.cursor ∨ t ≤ i) :
    (renderTo render t c).memory p i = c.memory p i :=
  hr c.self c.cursor (t - c.cursor) c.memory p i (by omega) (by omega)

/-- Columns before the cursor and columns behind the events. -/
theorem events_column (hr : InRange render frames) (p : Ptr) {i : Nat}
    {events : List (Event D)} : ∀ {c : ChunkState σ T}, c.cursor ≤ frames →
      (i < c.cursor ∨ c.cursor ≤ i ∧ ∀ e ∈ events, e.time ≤ i) →
      (events.foldl (chunkEvent render handle frames) c).memory p i = c.memory p i := by
  induction events with
  | nil => exact fun _ _ => rfl
  | cons e es ih =>
    intro c hc hi
    have hstep : (chunkEvent render handle frames c e).memory p i = c.memory p i := by
      unfold chunkEvent
      split
      · rename_i hin
        refine renderTo_column hr (Nat.le_of_lt hin.1) hin.2 p ?_
        exact hi.imp id fun h => h.2 e List.mem_cons_self
      · rfl
    rw [List.foldl_cons, ih, hstep]
    · rw [chunkEvent_cursor]
      exact nextCursor_le hc e
    · rw [chunkEvent_cursor]
      unfold nextCursor
      rcases hi with hi | ⟨hi, hes⟩
      · refine .inl ?_
        split <;> omega
      · refine .inr ⟨?_, fun x hx => hes x (List.mem_cons_of_mem e hx)⟩
        split
        · exact hes e List.mem_cons_self
        · exact hi

/-! ## One block or two -/

/-- A block of `k + n` frames is one of `k` and one of `n`: what is handed over between them is
    the state, as far as `R` holds it alike, and silence behind frame `k`. -/
theorem chunkLoop_cut (hsplits : Splits render (k + n)) (hrange : InRange render (k + n))
    (htranslates : Translates render R channels (k + n)) (htrans : ∀ s t u, R s t → R t u → R s u)
    (hhandle : ∀ j s s' e, R s s' → R (handle s e) (handle s' (Event.earlier j e)))
    {front back : List (Event D)} (hfront : ∀ e ∈ front, e.time ≤ k)
    (hback : ∀ e ∈ back, k ≤ e.time ∧ e.time ≤ k + n)
    (hsorted : back.Pairwise (fun e e' => e.time ≤ e'.time)) {s s₁ s₂ : σ} {m m₁ m₂ : Plane T}
    (hs₁ : R s s₁) (hm₁ : Window channels 0 k m m₁) (hm₂ : Window channels k n m m₂)
    (hs₂ : R (chunkLoop render handle k front s₁ m₁).self s₂) :
    let c := chunkLoop render handle (k + n) (front ++ back) s m
    let c₁ := chunkLoop render handle k front s₁ m₁
    let c₂ := chunkLoop render handle n (back.map (Event.earlier k)) s₂ m₂
    R c.self c₂.self ∧ Window channels 0 k c.memory c₁.memory ∧
      Window channels k n c.memory c₂.memory := by
  -- the front, in the long block and in the first short one
  let a := front.foldl (chunkEvent render handle (k + n)) ⟨s, m, 0⟩
  let a₁ := front.foldl (chunkEvent render handle k) ⟨s₁, m₁, 0⟩
  have hfront₁ : Behind R channels 0 k a a₁ := by
    have hstart : Behind R channels 0 k ⟨s, m, 0⟩ ⟨s₁, m₁, 0⟩ := ⟨hs₁, hm₁, rfl, Nat.zero_le k⟩
    have hevents := hstart.events htranslates (by omega) (hhandle 0)
      fun e he => ⟨Nat.zero_le _, by have := hfront e he; omega⟩
    rwa [show front.map (Event.earlier 0) = front from List.map_id _] at hevents
  have ha : a.cursor = a₁.cursor := hfront₁.cursor.trans (Nat.zero_add _)
  have hak : a₁.cursor ≤ k := hfront₁.inBlock
  -- up to frame `k`
  let b := renderTo render k a
  have hb₁ : Behind R channels 0 k b (renderTo render k a₁) := by
    have hto := hfront₁.renderTo htranslates (by omega) hak (Nat.le_refl k)
    rwa [Nat.zero_add] at hto
  have hc₁ : chunkLoop render handle k front s₁ m₁ = renderTo render k a₁ :=
    renderRest_eq (hsplits.mono (Nat.le_add_right k n)) hak
  have hsilent : ∀ p i, k ≤ i → b.memory p i = m p i := by
    intro p i hi
    have hto : b.memory p i = a.memory p i :=
      renderTo_column hrange (by omega) (by omega) p (.inr hi)
    refine hto.trans (events_column hrange p (Nat.zero_le _) (.inr ⟨Nat.zero_le _, ?_⟩))
    exact fun e he => (hfront e he).trans hi
  -- the second short block begins there
  have hb₂ : Behind R channels k n b ⟨s₂, m₂, 0⟩ := by
    refine ⟨htrans _ _ _ hb₁.self (hc₁ ▸ hs₂), fun p hp i hi => ?_, rfl, Nat.zero_le n⟩
    rw [hsilent p (k + i) (Nat.le_add_right k i)]
    exact hm₂ p hp i hi
  have hrest : Behind R channels k n (back.foldl (chunkEvent render handle (k + n)) b)
      ((back.map (Event.earlier k)).foldl (chunkEvent render handle n) ⟨s₂, m₂, 0⟩) :=
    hb₂.events htranslates (Nat.le_refl _) (hhandle k) hback
  -- in the long block it makes no difference that rendering has stopped at frame `k`
  have hahead : Ahead render (k + n) (back.foldl (chunkEvent render handle (k + n)) a)
      (back.foldl (chunkEvent render handle (k + n)) b) :=
    Ahead.foldl hsplits (Padded.refl back) ⟨by show a.cursor ≤ k; omega, by show k ≤ k + n; omega,
      rfl⟩ hsorted (fun e he => (hback e he).1) (.inl fun e he => .inr (hback e he).2)
  have hc : chunkLoop render handle (k + n) (front ++ back) s m =
      renderTo render (k + n) (back.foldl (chunkEvent render handle (k + n)) b) := by
    have hlast := hahead.renderRest hsplits
    rw [renderRest_eq hsplits hahead.inBlock] at hlast
    unfold chunkLoop
    rw [List.foldl_append]
    exact hlast.symm
  have hc₂ : chunkLoop render handle n (back.map (Event.earlier k)) s₂ m₂ =
      renderTo render n ((back.map (Event.earlier k)).foldl (chunkEvent render handle n)
        ⟨s₂, m₂, 0⟩) :=
    renderRest_eq (hsplits.mono (Nat.le_add_left n k)) hrest.inBlock
  have hend := hrest.renderTo htranslates (Nat.le_refl _) hrest.inBlock (Nat.le_refl n)
  dsimp only
  rw [hc, hc₁, hc₂]
  refine ⟨hend.self, fun p hp i hi => ?_, hend.window⟩
  have hcursor := hrest.cursor
  have hinBlock := hrest.inBlock
  rw [hb₁.window p hp i hi, Nat.zero_add, renderTo_column hrange (by omega) (Nat.le_refl _) p
    (.inl (by omega)), events_column hrange p (Nat.le_add_right k n) (.inl hi)]

/-- The same block twice, with states that `R` holds alike. -/
theorem chunkLoop_alike (hsplits : Splits render frames)
    (htranslates : Translates render R channels frames)
    (hhandle : ∀ j s s' e, R s s' → R (handle s e) (handle s' (Event.earlier j e)))
    {events : List (Event D)} (hevents : ∀ e ∈ events, e.time ≤ frames) {s s' : σ} {m m' : Plane T}
    (hs : R s s') (hm : Window channels 0 frames m m') :
    R (chunkLoop render handle frames events s m).self
        (chunkLoop render handle frames events s' m').self ∧
      Window channels 0 frames (chunkLoop render handle frames events s m).memory
        (chunkLoop render handle frames events s' m').memory := by
  have hstart : Behind R channels 0 frames ⟨s, m, 0⟩ ⟨s', m', 0⟩ := ⟨hs, hm, rfl, Nat.zero_le _⟩
  have hbehind := hstart.events htranslates (by omega) (hhandle 0)
    fun e he => ⟨Nat.zero_le _, by have := hevents e he; omega⟩
  rw [show events.map (Event.earlier 0) = events from List.map_id _] at hbehind
  have hto := hbehind.renderTo htranslates (by omega) hbehind.inBlock (Nat.le_refl frames)
  have hcursor := hbehind.cursor
  have hinBlock := hbehind.inBlock
  rw [Nat.zero_add] at hto
  unfold chunkLoop
  rw [renderRest_eq hsplits (by omega), renderRest_eq hsplits hinBlock]
  exact ⟨hto.self, hto.window⟩

end Cut

end Cvp
