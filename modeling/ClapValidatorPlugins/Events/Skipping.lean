/-
  `process` on a list with an event and on the list without it. An event the flavor does not act
  on makes no difference to what can be seen of the flavor, nor to what it pushes. In the two
  synths the event still splits a chunk, which matters only if the other events are out of order
  or behind the block (`SplitHarmless`).
-/
import ClapValidatorPlugins.Events.Handlers

namespace Cvp

/-! ## Event lists -/

section Lists

variable {D : Type}

/-- The block with these events, in a list whose callbacks are there. -/
def ProcessBlock.withEvents (block : ProcessBlock D) (events : List (Option (Event D))) :
    ProcessBlock D :=
  { block with inEvents := some { events := events } }

/-- A list without null entries is read; a null entry is dereferenced. -/
theorem headers_cases (events : List (Option (Event D))) :
    (∃ headers, events = headers.map some ∧
      InputEvents.headers { events := events } = .ok headers) ∨
    (none ∈ events ∧ InputEvents.headers { events := events } = .error .nullEvent) := by
  induction events with
  | nil => exact .inl ⟨[], rfl, rfl⟩
  | cons header events ih =>
    cases header with
    | none => exact .inr ⟨List.mem_cons_self, by
        unfold InputEvents.headers
        rw [Bool.true_and, Bool.true_or, if_pos rfl, List.mapM_cons]
        rfl⟩
    | some e =>
      unfold InputEvents.headers at ih ⊢
      rw [Bool.true_and, Bool.true_or, if_pos rfl] at ih ⊢
      rw [List.mapM_cons]
      rcases ih with ⟨headers, rfl, hok⟩ | ⟨hnone, herror⟩
      · refine .inl ⟨e :: headers, rfl, ?_⟩
        rw [hok]
        rfl
      · refine .inr ⟨List.mem_cons_of_mem _ hnone, ?_⟩
        rw [herror]
        rfl

theorem headers_map (headers : List (Event D)) :
    InputEvents.headers { events := headers.map some } = .ok headers := by
  rcases headers_cases (headers.map some) with ⟨headers', heq, hok⟩ | ⟨hnone, -⟩
  · rw [hok, List.map_injective_iff.mpr (Option.some_injective _) heq]
  · obtain ⟨x, -, hx⟩ := List.mem_map.mp hnone
    cases hx

/-- A list that is read to its end. -/
theorem headers_ok {list : InputEvents D} {headers : List (Event D)}
    (h : list.headers = .ok headers) : list.events = headers.map some := by
  rcases headers_cases list.events with ⟨headers', hmap, hok⟩ | ⟨-, herror⟩
  · unfold InputEvents.headers at h hok
    rw [Bool.true_and, Bool.true_or, if_pos rfl] at hok
    split at h
    · rw [hok] at h
      cases h
      exact hmap
    · cases h
  · unfold InputEvents.headers at h herror
    rw [Bool.true_and, Bool.true_or, if_pos rfl] at herror
    split at h
    · rw [herror] at h
      cases h
    · cases h

/-- The same list with and without one event. -/
theorem headers_without (front back : List (Option (Event D))) (e : Event D) :
    (∃ as bs, front = as.map some ∧ back = bs.map some ∧
      InputEvents.headers { events := front ++ some e :: back } = .ok (as ++ e :: bs) ∧
      InputEvents.headers { events := front ++ back } = .ok (as ++ bs)) ∨
    (InputEvents.headers { events := front ++ some e :: back } = .error .nullEvent ∧
      InputEvents.headers { events := front ++ back } = .error .nullEvent) := by
  have hsome : ∀ headers : List (Event D), none ∉ headers.map some := by
    intro headers hmem
    obtain ⟨x, -, hx⟩ := List.mem_map.mp hmem
    cases hx
  rcases headers_cases (front ++ some e :: back) with ⟨headers, hmap, hok⟩ | ⟨hnone, herror⟩
  · obtain ⟨as, rest, rfl, rfl, hrest⟩ := List.append_eq_map_iff.mp hmap
    obtain ⟨x, bs, rfl, hx, rfl⟩ := List.map_eq_cons_iff.mp hrest
    cases hx
    refine .inl ⟨as, bs, rfl, rfl, hok, ?_⟩
    rw [← List.map_append]
    rcases headers_cases ((as ++ bs).map some) with ⟨headers, heq, hok'⟩ | ⟨hnone, -⟩
    · rw [hok', List.map_injective_iff.mpr (Option.some_injective _) heq]
    · exact absurd hnone (hsome _)
  · refine .inr ⟨herror, ?_⟩
    have hnone' : none ∈ front ++ back := by
      rcases List.mem_append.mp hnone with hfront | hback
      · exact List.mem_append_left back hfront
      · rcases List.mem_cons.mp hback with hhead | htail
        · cases hhead
        · exact List.mem_append_right front htail
    rcases headers_cases (front ++ back) with ⟨headers, heq, -⟩ | ⟨-, herror'⟩
    · rw [heq] at hnone'
      exact absurd hnone' (hsome _)
    · exact herror'

/-- Two computations on the two lists that agree wherever both lists are read. -/
theorem bind_headers_congr {β : Type} {front back : List (Option (Event D))} {e : Event D}
    {F : List (Event D) → Exec β}
    (hF : ∀ as bs, front = as.map some → back = bs.map some → F (as ++ e :: bs) = F (as ++ bs)) :
    (InputEvents.headers { events := front ++ some e :: back } >>= F) =
      InputEvents.headers { events := front ++ back } >>= F := by
  rcases headers_without front back e with ⟨as, bs, hfront, hback, hwith, hwithout⟩ |
    ⟨hwith, hwithout⟩
  · rw [hwith, hwithout]
    exact hF as bs hfront hback
  · rw [hwith, hwithout]

/-- The list with the event is sorted by time, and of the other events none that is acted on
    lies behind the block. -/
def Orderly (acts : Event D → Bool) (frames : Nat) (front back : List (Option (Event D)))
    (e : Event D) : Prop :=
  (front ++ some e :: back).reduceOption.Pairwise (fun x y => x.time ≤ y.time) ∧
    ∀ x, some x ∈ front ++ back → acts x = true → x.time ≤ frames

/-- The event splits no chunk, or nothing behind it depends on the split. -/
def SplitHarmless (acts : Event D → Bool) (frames : Nat) (front back : List (Option (Event D)))
    (e : Event D) : Prop :=
  e.time = 0 ∨ back = [] ∨ Orderly acts frames front back e

/-- The event loop of a synth, on the two lists. -/
theorem chunkLoop_without {σ T : Type} {render : σ → Nat → Nat → Plane T → σ × Plane T}
    {handle : σ → Event D → σ} {frames : Nat} (hr : Splits render frames) {acts : Event D → Bool}
    (hacts : ∀ x, acts x = false → ∀ s, handle s x = s) {as bs : List (Event D)} {e : Event D}
    (he : acts e = false) (hsplit : SplitHarmless acts frames (as.map some) (bs.map some) e)
    (s : σ) (m : Plane T) :
    chunkLoop render handle frames (as ++ e :: bs) s m =
      chunkLoop render handle frames (as ++ bs) s m := by
  rcases hsplit with hzero | hlast | ⟨hsorted, hinBlock⟩
  · exact chunkLoop_of_time_zero (hacts e he) hzero s m
  · rw [List.map_eq_nil_iff.mp hlast, List.append_nil]
    exact chunkLoop_of_last hr (hacts e he) s m
  · have hlist : (as.map some ++ some e :: bs.map some).reduceOption = as ++ e :: bs := by
      rw [← List.map_cons, ← List.map_append]
      exact List.filterMap_map.trans List.filterMap_some
    rw [hlist] at hsorted
    refine chunkLoop_padded hr (Padded.insertAt (hacts e he) as bs) hsorted (.inl fun x hx => ?_)
      s m
    cases hact : acts x with
    | false => exact .inl (hacts x hact)
    | true =>
      refine .inr (hinBlock x ?_ hact)
      rw [← List.map_append]
      exact List.mem_map_of_mem hx

end Lists

/-! ## The flavors' loops -/

section Loops

variable {D S : Type} [DoubleOps D] [FloatOps S] [FloatCast D S]
  {front back : List (Option (Event D))} {e : Event D}

theorem SynthPlugin.process_without (h : Flavor.actsOn .synth e = false) (base : Base D)
    (s : SynthPlugin.State D S) (block : ProcessBlock D)
    (hsplit : SplitHarmless (Flavor.actsOn .synth) block.framesCount.toNat front back e)
    (memory : AudioMemory D S) :
    SynthPlugin.process base s (block.withEvents (front ++ some e :: back)) memory =
      SynthPlugin.process base s (block.withEvents (front ++ back)) memory := by
  have htyped : ∀ {T : Type} [SampleOps D T] (left : Ptr) (right : Option Ptr) (m : Plane T)
      (as bs : List (Event D)), front = as.map some → back = bs.map some →
      SynthPlugin.processTyped s block.framesCount (as ++ e :: bs) left right m =
        SynthPlugin.processTyped s block.framesCount (as ++ bs) left right m := by
    rintro T _ left right m as bs rfl rfl
    have hloop : ∀ (gain : S) (m : Plane T),
        chunkLoop (SynthPlugin.render left right gain) SynthPlugin.handleEvent
          block.framesCount.toNat (as ++ e :: bs) s m =
        chunkLoop (SynthPlugin.render left right gain) SynthPlugin.handleEvent
          block.framesCount.toNat (as ++ bs) s m := fun gain m =>
      chunkLoop_without (SynthPlugin.render_splits left right gain block.framesCount)
        (fun x (hx : Flavor.actsOn .synth x = false) => SynthPlugin.handleEvent_of_ignored hx) h
        hsplit s m
    unfold SynthPlugin.processTyped
    dsimp only
    rw [hloop]
  have hplane : ∀ {T : Type} [SampleOps D T] (out : AudioBuffer) (data : Option (List Ptr))
      (m : Plane T),
      SynthPlugin.processPlane s (block.withEvents (front ++ some e :: back)) out data m =
        SynthPlugin.processPlane s (block.withEvents (front ++ back)) out data m := by
    intro T _ out data m
    unfold SynthPlugin.processPlane
    refine bind_congr fun left => ?_
    dsimp only [ProcessBlock.withEvents, unguardedHeaders]
    split
    · refine bind_congr fun right => bind_headers_congr fun as bs hfront hback => ?_
      rw [htyped left right m as bs hfront hback]
    · refine bind_congr fun right => bind_headers_congr fun as bs hfront hback => ?_
      rw [htyped left right m as bs hfront hback]
  unfold SynthPlugin.process
  dsimp only [ProcessBlock.withEvents] at hplane ⊢
  simp only [hplane]

theorem SidechainSynthPlugin.process_without (h : Flavor.actsOn .sidechainSynth e = false)
    (base : Base D) (s : SidechainSynthPlugin.State D S) (block : ProcessBlock D)
    (hsplit : SplitHarmless (Flavor.actsOn .sidechainSynth) block.framesCount.toNat front back e)
    (memory : AudioMemory D S) :
    SidechainSynthPlugin.process base s (block.withEvents (front ++ some e :: back)) memory =
      SidechainSynthPlugin.process base s (block.withEvents (front ++ back)) memory := by
  have hloop : ∀ (left : Ptr) (right : Option Ptr) (gain : S) (m : Plane S)
      (as bs : List (Event D)), front = as.map some → back = bs.map some →
      chunkLoop (SidechainSynthPlugin.render left right gain) SidechainSynthPlugin.handleEvent
        block.framesCount.toNat (as ++ e :: bs) s m =
      chunkLoop (SidechainSynthPlugin.render left right gain) SidechainSynthPlugin.handleEvent
        block.framesCount.toNat (as ++ bs) s m := by
    rintro left right gain m as bs rfl rfl
    exact chunkLoop_without (SidechainSynthPlugin.render_splits left right gain block.framesCount)
      (fun x (hx : Flavor.actsOn .sidechainSynth x = false) =>
        SidechainSynthPlugin.handleEvent_of_ignored hx) h hsplit s m
  unfold SidechainSynthPlugin.process
  dsimp only [ProcessBlock.withEvents, unguardedHeaders]
  split
  · rfl
  · split
    · rfl
    · refine bind_congr fun left => ?_
      split
      · refine bind_congr fun right => bind_headers_congr fun as bs hfront hback => ?_
        rw [hloop left right _ _ as bs hfront hback]
      · refine bind_congr fun right => bind_headers_congr fun as bs hfront hback => ?_
        rw [hloop left right _ _ as bs hfront hback]

omit [DoubleOps D] in
/-- The loop of a flavor that only stores PARAM_VALUEs. -/
theorem consume_without {σ : Type} {apply : σ → Event D → σ} (h : ∀ s, apply s e = s)
    (as bs : List (Event D)) (s : σ) :
    consume (fun s e => .done (apply s e)) s (as ++ e :: bs) =
      consume (fun s e => .done (apply s e)) s (as ++ bs) :=
  consume_skip (fun s e => .done (apply s e)) as bs e (fun s => congrArg Outcome.done (h s)) s

theorem EffectPlugin.process_without (h : writesParam EffectPlugin.paramIds e = false)
    (base : Base D) (s : EffectPlugin.State D) (block : ProcessBlock D) (memory : AudioMemory D S) :
    EffectPlugin.process base s (block.withEvents (front ++ some e :: back)) memory =
      EffectPlugin.process base s (block.withEvents (front ++ back)) memory := by
  unfold EffectPlugin.process
  dsimp only [ProcessBlock.withEvents, guardedHeaders]
  split
  · refine bind_headers_congr fun as bs _ _ => ?_
    rw [consume_skip _ as bs e (EffectPlugin.applyParamEvent_of_ignored h base)]
  · rfl

theorem MultiOutGenPlugin.process_without (h : writesParam MultiOutGenPlugin.paramIds e = false)
    (base : Base D) (s : MultiOutGenPlugin.State D) (block : ProcessBlock D)
    (memory : AudioMemory D S) :
    MultiOutGenPlugin.process base s (block.withEvents (front ++ some e :: back)) memory =
      MultiOutGenPlugin.process base s (block.withEvents (front ++ back)) memory := by
  have hskip : ∀ s : MultiOutGenPlugin.State D, MultiOutGenPlugin.applyParamEvent s e = s := by
    intro s
    rw [MultiOutGenPlugin.applyParamEvent, applyParamValue_of_not_writes h]
  unfold MultiOutGenPlugin.process
  dsimp only [ProcessBlock.withEvents, guardedHeaders]
  refine bind_headers_congr fun as bs _ _ => ?_
  rw [consume_without hskip]

omit [DoubleOps D] in
theorem MultiOutFxPlugin.process_without (h : writesParam MultiOutFxPlugin.paramIds e = false)
    (base : Base D) (s : MultiOutFxPlugin.State D) (block : ProcessBlock D)
    (memory : AudioMemory D S) :
    MultiOutFxPlugin.process base s (block.withEvents (front ++ some e :: back)) memory =
      MultiOutFxPlugin.process base s (block.withEvents (front ++ back)) memory := by
  have hskip : ∀ s : MultiOutFxPlugin.State D, MultiOutFxPlugin.applyParamEvent s e = s := by
    intro s
    rw [MultiOutFxPlugin.applyParamEvent, applyParamValue_of_not_writes h]
  unfold MultiOutFxPlugin.process
  dsimp only [ProcessBlock.withEvents, guardedHeaders]
  split
  · refine bind_headers_congr fun as bs _ _ => ?_
    rw [consume_without hskip]
  · rfl

omit [DoubleOps D] [FloatOps S] [FloatCast D S] in
theorem AudioPortsZeroPlugin.process_without
    (h : writesParam AudioPortsZeroPlugin.paramIds e = false)
    (base : Base D) (s : AudioPortsZeroPlugin.State D) (block : ProcessBlock D)
    (memory : AudioMemory D S) :
    AudioPortsZeroPlugin.process base s (block.withEvents (front ++ some e :: back)) memory =
      AudioPortsZeroPlugin.process base s (block.withEvents (front ++ back)) memory := by
  have hskip : ∀ s : AudioPortsZeroPlugin.State D, AudioPortsZeroPlugin.flushEvent s e = s := by
    intro s
    rw [AudioPortsZeroPlugin.flushEvent, applyParamValue_of_not_writes h]
  have hflush : AudioPortsZeroPlugin.paramsFlush base s
        (block.withEvents (front ++ some e :: back)).inEvents block.hasOutEvents =
      AudioPortsZeroPlugin.paramsFlush base s (block.withEvents (front ++ back)).inEvents
        block.hasOutEvents := by
    refine bind_headers_congr fun as bs _ _ => ?_
    rw [consume_without hskip]
  unfold AudioPortsZeroPlugin.process
  rw [show (block.withEvents (front ++ some e :: back)).hasOutEvents = block.hasOutEvents from rfl,
    hflush]
  rfl

omit [DoubleOps D] [FloatOps S] [FloatCast D S] in
theorem SlowPlugin.process_without (h : writesParam SlowPlugin.paramIds e = false) (base : Base D)
    (s : SlowPlugin.State D) (block : ProcessBlock D) (memory : AudioMemory D S) :
    SlowPlugin.process base s (block.withEvents (front ++ some e :: back)) memory =
      SlowPlugin.process base s (block.withEvents (front ++ back)) memory := by
  have hskip : ∀ s : SlowPlugin.State D, SlowPlugin.flushEvent s e = s := by
    intro s
    rw [SlowPlugin.flushEvent, applyParamValue_of_not_writes h]
  have hflush : SlowPlugin.paramsFlush base s
        (block.withEvents (front ++ some e :: back)).inEvents block.hasOutEvents =
      SlowPlugin.paramsFlush base s (block.withEvents (front ++ back)).inEvents
        block.hasOutEvents := by
    refine bind_headers_congr fun as bs _ _ => ?_
    rw [consume_without hskip]
  unfold SlowPlugin.process
  rw [show (block.withEvents (front ++ some e :: back)).hasOutEvents = block.hasOutEvents from rfl,
    hflush]
  rfl

omit [FloatOps S] [FloatCast D S] in
theorem NoteFxPlugin.process_without (h : Flavor.actsOn .noteFx e = false) (base : Base D)
    (s : NoteFxPlugin.State D) (block : ProcessBlock D) (memory : AudioMemory D S) :
    NoteFxPlugin.process base s (block.withEvents (front ++ some e :: back)) memory =
      NoteFxPlugin.process base s (block.withEvents (front ++ back)) memory := by
  have hskip := NoteFxPlugin.transformEvent_of_ignored h
  have hloop : ∀ s : NoteFxPlugin.State D,
      NoteFxPlugin.transformEvents block.hasOutEvents s (front ++ some e :: back) =
        NoteFxPlugin.transformEvents block.hasOutEvents s (front ++ back) := by
    induction front with
    | nil =>
      intro s
      rw [List.nil_append, List.nil_append, NoteFxPlugin.transformEvents, hskip]
      change (NoteFxPlugin.transformEvents block.hasOutEvents s back >>= _) = _
      cases NoteFxPlugin.transformEvents block.hasOutEvents s back <;> rfl
    | cons header front ih =>
      intro s
      cases header with
      | none => rfl
      | some x => simp only [List.cons_append, NoteFxPlugin.transformEvents, ih]
  show (NoteFxPlugin.transformEvents block.hasOutEvents s _ >>= _) =
    NoteFxPlugin.transformEvents block.hasOutEvents s _ >>= _
  rw [hloop]

theorem ParamsZooPlugin.process_without (h : Flavor.actsOn .paramsZoo e = false)
    (base : Base D) (s : ParamsZooPlugin.State D) (block : ProcessBlock D)
    (memory : AudioMemory D S) :
    ParamsZooPlugin.process base s (block.withEvents (front ++ some e :: back)) memory =
      ParamsZooPlugin.process base s (block.withEvents (front ++ back)) memory := by
  unfold ParamsZooPlugin.process
  dsimp only [ProcessBlock.withEvents, guardedHeaders]
  split
  · refine bind_headers_congr fun as bs _ _ => ?_
    rw [consume_without (ParamsZooPlugin.applyParamEvent_of_ignored h)]
  · rfl

theorem PresetPlugin.process_without (h : writesParam PresetPlugin.paramIds e = false)
    (base : Base D) (s : PresetPlugin.State D) (block : ProcessBlock D) (memory : AudioMemory D S) :
    PresetPlugin.process base s (block.withEvents (front ++ some e :: back)) memory =
      PresetPlugin.process base s (block.withEvents (front ++ back)) memory := by
  have hskip : ∀ s : PresetPlugin.State D, PresetPlugin.applyParamEvent s e = s := by
    intro s
    rw [PresetPlugin.applyParamEvent, applyParamValue_of_not_writes h]
  unfold PresetPlugin.process
  dsimp only [ProcessBlock.withEvents, guardedHeaders]
  split
  · refine bind_headers_congr fun as bs _ _ => ?_
    rw [consume_without hskip]
  · rfl

theorem SurroundPlugin.process_without (h : writesParam SurroundPlugin.paramIds e = false)
    (base : Base D) (s : SurroundPlugin.State D) (block : ProcessBlock D)
    (memory : AudioMemory D S) :
    SurroundPlugin.process base s (block.withEvents (front ++ some e :: back)) memory =
      SurroundPlugin.process base s (block.withEvents (front ++ back)) memory := by
  have hskip : ∀ s : SurroundPlugin.State D, SurroundPlugin.applyParamEvent s e = s := by
    intro s
    rw [SurroundPlugin.applyParamEvent, applyParamValue_of_not_writes h]
  unfold SurroundPlugin.process
  dsimp only [ProcessBlock.withEvents, guardedHeaders]
  split
  · refine bind_headers_congr fun as bs _ _ => ?_
    rw [consume_without hskip]
  · rfl

end Loops

/-! ## With and without -/

namespace Flavor

variable {D S : Type} [DoubleOps D] [FloatOps S] [FloatCast D S] [DoubleBits D]

/-- Two `process` results that look the same: the same view of the flavor and the same pushed
    events, or the same fault. -/
def SameOutcome (flavor : Flavor)
    (x y : Exec (Outcome D (flavor.State D S) ProcessStatus × AudioMemory D S)) : Prop :=
  match x, y with
  | .ok (out, _), .ok (out', _) =>
    flavor.view out.self = flavor.view out'.self ∧ out.pushed = out'.pushed
  | .error fault, .error fault' => fault = fault'
  | _, _ => False

theorem SameOutcome.of_eq {flavor : Flavor}
    {x y : Exec (Outcome D (flavor.State D S) ProcessStatus × AudioMemory D S)} (h : x = y) :
    flavor.SameOutcome x y := by
  subst h
  match x with
  | .ok (out, _) => exact ⟨rfl, rfl⟩
  | .error fault => rfl

theorem SameOutcome.bind {flavor : Flavor} {α : Type} {x : Exec α}
    {f g : α → Exec (Outcome D (flavor.State D S) ProcessStatus × AudioMemory D S)}
    (h : ∀ a, flavor.SameOutcome (f a) (g a)) : flavor.SameOutcome (x >>= f) (x >>= g) := by
  cases x with
  | error fault => rfl
  | ok a => exact h a

theorem SameOutcome.headers {flavor : Flavor} {front back : List (Option (Event D))} {e : Event D}
    {F : List (Event D) → Exec (Outcome D (flavor.State D S) ProcessStatus × AudioMemory D S)}
    (hF : ∀ as bs, flavor.SameOutcome (F (as ++ e :: bs)) (F (as ++ bs))) :
    flavor.SameOutcome (InputEvents.headers { events := front ++ some e :: back } >>= F)
      (InputEvents.headers { events := front ++ back } >>= F) := by
  rcases headers_without front back e with ⟨as, bs, -, -, hwith, hwithout⟩ | ⟨hwith, hwithout⟩
  · rw [hwith, hwithout]
    exact hF as bs
  · rw [hwith, hwithout]
    rfl

/-- The transport display of Gui is not part of the view, so a transport event does not show. -/
theorem gui_sameOutcome (base : Base D) (s : GuiPlugin.State D) (block : ProcessBlock D)
    (memory : AudioMemory D S) {front back : List (Option (Event D))} {e : Event D}
    (h : writesParam GuiPlugin.paramIds e = false) :
    SameOutcome .gui
      (GuiPlugin.process base s (block.withEvents (front ++ some e :: back)) memory)
      (GuiPlugin.process base s (block.withEvents (front ++ back)) memory) := by
  have hskip : ∀ s : GuiPlugin.State D, GuiPlugin.applyParamEvent s e = s := by
    intro s
    rw [GuiPlugin.applyParamEvent, applyParamValue_of_not_writes h]
  unfold GuiPlugin.process
  dsimp only [ProcessBlock.withEvents, guardedHeaders]
  split
  · refine SameOutcome.headers (D := D) (S := S) fun as bs => ?_
    have hstate : ((as ++ e :: bs).foldl GuiPlugin.processEvent (s, block.transport)).1 =
        ((as ++ bs).foldl GuiPlugin.processEvent (s, block.transport)).1 := by
      rw [GuiPlugin.foldl_processEvent, GuiPlugin.foldl_processEvent, List.foldl_append,
        List.foldl_cons, hskip, ← List.foldl_append]
    revert hstate
    rcases (as ++ e :: bs).foldl GuiPlugin.processEvent (s, block.transport) with ⟨s₁, t₁⟩
    rcases (as ++ bs).foldl GuiPlugin.processEvent (s, block.transport) with ⟨s₂, t₂⟩
    rintro ⟨⟩
    exact SameOutcome.bind (D := D) (S := S) fun m => ⟨rfl, rfl⟩
  · exact ⟨rfl, rfl⟩

theorem process_without (flavor : Flavor) (base : Base D) (s : flavor.State D S)
    (block : ProcessBlock D) (memory : AudioMemory D S) {front back : List (Option (Event D))}
    {e : Event D} (h : flavor.actsOn e = false)
    (hsplit : flavor.rendersChunks = true →
      SplitHarmless flavor.actsOn block.framesCount.toNat front back e) :
    flavor.SameOutcome
      (flavor.impl.process base s (block.withEvents (front ++ some e :: back)) memory)
      (flavor.impl.process base s (block.withEvents (front ++ back)) memory) := by
  cases flavor with
  | synth => exact .of_eq (SynthPlugin.process_without h base s block (hsplit rfl) memory)
  | sidechainSynth =>
    exact .of_eq (SidechainSynthPlugin.process_without h base s block (hsplit rfl) memory)
  | effect => exact .of_eq (EffectPlugin.process_without h base s block memory)
  | multiOutGen => exact .of_eq (MultiOutGenPlugin.process_without h base s block memory)
  | multiOutFx => exact .of_eq (MultiOutFxPlugin.process_without h base s block memory)
  | audioPortsZero => exact .of_eq (AudioPortsZeroPlugin.process_without h base s block memory)
  | slow => exact .of_eq (SlowPlugin.process_without h base s block memory)
  | hostCheck => exact .of_eq rfl
  | noteFx => exact .of_eq (NoteFxPlugin.process_without h base s block memory)
  | paramsZoo => exact .of_eq (ParamsZooPlugin.process_without h base s block memory)
  | preset => exact .of_eq (PresetPlugin.process_without h base s block memory)
  | surround => exact .of_eq (SurroundPlugin.process_without h base s block memory)
  | gui => exact gui_sameOutcome base s block memory h

end Flavor

end Cvp
