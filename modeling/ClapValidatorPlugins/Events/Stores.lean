/-
  What the event loops store. A block that gets to its end leaves the parameters as the PARAM_VALUEs
  of its list leave them, in order; a block that is turned down leaves them alone (`Stores`). So it
  is in every flavor but two: ParamsZoo writes its meter behind the loop, and the Gui drains its
  queue (Gui.Calls).
-/
import ClapValidatorPlugins.Events.Skipping
import ClapValidatorPlugins.Lib.Yields
import ClapValidatorPlugins.State.Formats

namespace Cvp

open Assignments

/-! ## Lists that are read to the end -/

section Lists

variable {D : Type}

/-- `headers` are the events of the list; a null list has none. -/
def ReadsEvents (inEvents : Option (InputEvents D)) (headers : List (Event D)) : Prop :=
  inEvents.elim (headers = []) fun list => list.events = headers.map some

theorem guardedHeaders_reads (inEvents : Option (InputEvents D)) :
    Yields (guardedHeaders inEvents) (ReadsEvents inEvents) := by
  cases inEvents with
  | none => exact Yields.of_ok rfl
  | some list => exact fun headers h => headers_ok h

theorem unguardedHeaders_reads (inEvents : Option (InputEvents D)) :
    Yields (unguardedHeaders inEvents) (ReadsEvents inEvents) := by
  cases inEvents with
  | none => exact Yields.of_error _
  | some list => exact fun headers h => headers_ok h

theorem ReadsEvents.eq {headers headers' : List (Event D)}
    (h : ReadsEvents (some { events := headers.map some }) headers') : headers' = headers :=
  (List.map_injective_iff.mpr (Option.some_injective _) h).symm

end Lists

/-! ## Loops that store -/

section Loops

variable {D σ : Type} (params : σ → ParamValues D) {ids : List ClapId}

/-- A loop whose body stores what the event carries. -/
theorem foldl_params {handle : σ → Event D → σ}
    (hstep : ∀ s e, params (handle s e) = applyParamValue ids (params s) e)
    (headers : List (Event D)) :
    ∀ s, params (headers.foldl handle s) = headers.foldl (applyParamValue ids) (params s) := by
  induction headers with
  | nil => exact fun s => rfl
  | cons e headers ih =>
    intro s
    rw [List.foldl_cons, ih, hstep, List.foldl_cons]

theorem consume_params {handle : σ → Event D → Outcome D σ Unit}
    (hstep : ∀ s e, params (handle s e).self = applyParamValue ids (params s) e)
    (headers : List (Event D)) (s : σ) :
    params (consume handle s headers).self = headers.foldl (applyParamValue ids) (params s) := by
  rw [consume_self]
  exact foldl_params params hstep headers s

/-- The loop of a flush that only stores. -/
theorem stores_params (apply : σ → Event D → σ)
    (hstep : ∀ s e, params (apply s e) = applyParamValue ids (params s) e)
    (headers : List (Event D)) (s : σ) :
    params (consume (fun s e => .done (apply s e)) s headers).self =
      headers.foldl (applyParamValue ids) (params s) :=
  consume_params params hstep headers s

/-- So does a flush that consists of such a loop. -/
theorem flush_stores {handle : σ → Event D → Outcome D σ Unit}
    (hstep : ∀ s e, params (handle s e).self = applyParamValue ids (params s) e)
    (inEvents : Option (InputEvents D)) (s : σ) :
    Yields (unguardedHeaders inEvents >>= fun headers => Except.ok (consume handle s headers))
      fun out => ∃ headers, ReadsEvents inEvents headers ∧
        params out.self = headers.foldl (applyParamValue ids) (params s) :=
  Yields.bind (unguardedHeaders_reads inEvents) fun headers hreads =>
    Yields.of_ok ⟨headers, hreads, consume_params params hstep headers s⟩

/-- What the rendering leaves alone, the chunks leave as the event loop alone does. -/
theorem chunkLoop_foldl {T β : Type} {render : σ → Nat → Nat → Plane T → σ × Plane T}
    {handle : σ → Event D → σ} {φ : σ → β} {step : β → Event D → β}
    (hrender : ∀ s offset frames m, φ (render s offset frames m).1 = φ s)
    (hhandle : ∀ s e, φ (handle s e) = step (φ s) e) (frames : Nat) (headers : List (Event D))
    (s : σ) (m : Plane T) :
    φ (chunkLoop render handle frames headers s m).self = headers.foldl step (φ s) := by
  have hloop : ∀ c : ChunkState σ T,
      φ (headers.foldl (chunkEvent render handle frames) c).self =
        headers.foldl step (φ c.self) := by
    induction headers with
    | nil => exact fun c => rfl
    | cons e headers ih =>
      intro c
      have hfirst : φ (chunkEvent render handle frames c e).self = step (φ c.self) e := by
        unfold chunkEvent
        dsimp only
        rw [hhandle]
        split
        · exact congrArg (step · e) (hrender _ _ _ _)
        · rfl
      rw [List.foldl_cons, ih, hfirst, List.foldl_cons]
  unfold chunkLoop
  dsimp only
  split
  · exact (hrender _ _ _ _).trans (hloop _)
  · exact hloop _

end Loops

/-! ## Event handlers -/

section Handlers

variable {D S : Type} [DoubleOps D] [FloatOps S] [FloatCast D S]

theorem SynthPlugin.handleEvent_params (s : State D S) (e : Event D) :
    (handleEvent s e).params = applyParamValue paramIds s.params e := by
  unfold handleEvent applyParamValue
  cases e.isCore with
  | false => rfl
  | true =>
    cases e.body with
    | paramMod target amount =>
      dsimp only
      rw [if_pos rfl]
      split <;> rfl
    | _ => rfl

theorem SidechainSynthPlugin.handleEvent_params (s : State D S) (e : Event D) :
    (handleEvent s e).params = applyParamValue paramIds s.params e := by
  unfold handleEvent
  cases hcore : e.isCore with
  | false =>
    unfold applyParamValue
    rw [hcore]
    rfl
  | true =>
    unfold applyParamEvent applyParamValue
    rw [hcore]
    cases e.body with
    | _ => rfl

omit [FloatOps S] [FloatCast D S] in
theorem EffectPlugin.applyParamEvent_params (base : Base D) (s : State D) (e : Event D) :
    (applyParamEvent base s e).self.params = applyParamValue paramIds s.params e :=
  congrArg State.params (applyParamEvent_self base s e)

omit [FloatOps S] [FloatCast D S] in
theorem NoteFxPlugin.transformEvent_params (s : State D) (e : Event D) :
    (transformEvent s e).self.params = applyParamValue paramIds s.params e := by
  unfold transformEvent applyParamValue
  cases e.isCore with
  | false => rfl
  | true =>
    cases e.body with
    | _ => rfl

omit [FloatOps S] [FloatCast D S] [DoubleOps D] in
/-- Events do not reach the meter. -/
theorem ParamsZooPlugin.applyParamEvent_params (s : State D) (e : Event D) :
    (applyParamEvent s e).params = applyParamValue savedIds s.params e := by
  unfold applyParamEvent applyParamValue
  split
  · rfl
  · cases e.body with
    | paramMod target amount =>
      dsimp only
      split <;> rfl
    | paramValue target x =>
      have hmem : target.paramId ∈ savedIds ↔
          target.paramId ∈ paramIds ∧ target.paramId ≠ kParamPeak := by
        rw [show savedIds = paramIds.filter (· ≠ kParamPeak) from rfl, List.mem_filter,
          decide_eq_true_eq]
      dsimp only
      split
      · rename_i hpeak
        rw [storeParam, if_neg fun hsaved => (hmem.mp hsaved).2 hpeak]
      · rename_i hpeak
        unfold storeParam
        simp only [hmem, ne_eq, hpeak, not_false_eq_true, and_true]
    | _ => rfl

end Handlers

/-! ## Blocks -/

/-- A block that is turned down leaves the values alone, any other stores what its events carry. -/
def Stores {D : Type} (ids : List ClapId) (inEvents : Option (InputEvents D))
    (before after : ParamValues D) (status : ProcessStatus) : Prop :=
  (status = .error ∧ after = before) ∨
    ∃ headers, ReadsEvents inEvents headers ∧ after = headers.foldl (applyParamValue ids) before

section Blocks

variable {D S : Type} [DoubleOps D] [FloatOps S] [FloatCast D S]

omit [DoubleOps D] in
theorem Stores.taken {ids : List ClapId} {headers : List (Event D)} {before after : ParamValues D}
    {status : ProcessStatus}
    (h : Stores ids (some { events := headers.map some }) before after status)
    (htaken : status ≠ .error) : after = headers.foldl (applyParamValue ids) before := by
  rcases h with ⟨herror, -⟩ | ⟨headers', hreads, hafter⟩
  · exact absurd herror htaken
  · rw [hafter, hreads.eq]

theorem SynthPlugin.process_stores (base : Base D) (s : State D S) (block : ProcessBlock D)
    (memory : AudioMemory D S) :
    Yields (process base s block memory) fun r =>
      Stores paramIds block.inEvents s.params r.1.self.params r.1.value := by
  have hplane : ∀ {T : Type} [SampleOps D T] (out : AudioBuffer) (data : Option (List Ptr))
      (m : Plane T), Yields (processPlane s block out data m) fun r =>
        Stores paramIds block.inEvents s.params r.1.self.params r.1.value := by
    intro T _ out data m
    unfold processPlane
    refine Yields.andThen fun left => Yields.branch fun right =>
      Yields.bind (unguardedHeaders_reads block.inEvents) fun headers hreads =>
      Yields.andThen fun pushed => Yields.of_ok (.inr ⟨headers, hreads, ?_⟩)
    exact chunkLoop_foldl (φ := State.params) (fun _ _ _ _ => rfl) handleEvent_params _ headers s _
  unfold process
  split
  · exact Yields.of_ok (.inl ⟨rfl, rfl⟩)
  · split
    · exact Yields.of_ok (.inl ⟨rfl, rfl⟩)
    · split
      · exact Yields.bind (hplane _ _ _) fun r hr => Yields.of_ok hr
      · split
        · exact Yields.bind (hplane _ _ _) fun r hr => Yields.of_ok hr
        · exact Yields.of_ok (.inl ⟨rfl, rfl⟩)

omit [DoubleOps D] in
theorem SidechainSynthPlugin.applySidechain_keeps (s : State D S) (block : ProcessBlock D)
    (left : Ptr) (right : Option Ptr) (m : Plane S) :
    Yields (applySidechain s block left right m) fun r =>
      r.1.params = s.params ∧ r.1.engine = s.engine := by
  unfold applySidechain
  dsimp only
  split
  · exact Yields.of_ok ⟨rfl, rfl⟩
  · split
    · exact Yields.andThen fun scLeft => Yields.branch fun scRight => Yields.of_ok ⟨rfl, rfl⟩
    · exact Yields.of_ok ⟨rfl, rfl⟩

theorem SidechainSynthPlugin.process_stores (base : Base D) (s : State D S)
    (block : ProcessBlock D) (memory : AudioMemory D S) :
    Yields (process base s block memory) fun r =>
      Stores paramIds block.inEvents s.params r.1.self.params r.1.value := by
  unfold process
  split
  · exact Yields.of_ok (.inl ⟨rfl, rfl⟩)
  · split
    · exact Yields.of_ok (.inl ⟨rfl, rfl⟩)
    · refine Yields.andThen fun left => Yields.branch fun right =>
        Yields.bind (unguardedHeaders_reads block.inEvents) fun headers hreads =>
        Yields.bind (applySidechain_keeps _ block left right _) fun r hr =>
        Yields.andThen fun pushed => Yields.of_ok (.inr ⟨headers, hreads, hr.1.trans ?_⟩)
      exact chunkLoop_foldl (φ := State.params) (fun _ _ _ _ => rfl) handleEvent_params _ headers
        s _

omit [FloatOps S] [FloatCast D S] in
theorem EffectPlugin.finish_params (base : Base D) (s : State D) (frames : UInt32)
    (silent : Bool) : (finish base s frames silent).1.params = s.params := by
  unfold finish
  split <;> rfl

theorem EffectPlugin.process_stores (base : Base D) (s : State D) (block : ProcessBlock D)
    (memory : AudioMemory D S) :
    Yields (process base s block memory) fun r =>
      Stores paramIds block.inEvents s.params r.1.self.params r.1.value := by
  unfold process
  split
  · refine Yields.bind (guardedHeaders_reads block.inEvents) fun headers hreads => ?_
    have hloop := consume_params State.params (applyParamEvent_params base) headers s
    split
    · exact Yields.of_ok (.inr ⟨headers, hreads, hloop⟩)
    · refine Yields.andThen fun r => Yields.of_ok (.inr ⟨headers, hreads, ?_⟩)
      exact (finish_params _ _ _ _).trans hloop
  · exact Yields.of_ok (.inl ⟨rfl, rfl⟩)

theorem MultiOutGenPlugin.process_stores (base : Base D) (s : State D) (block : ProcessBlock D)
    (memory : AudioMemory D S) :
    Yields (process base s block memory) fun r =>
      Stores paramIds block.inEvents s.params r.1.self.params r.1.value := by
  unfold process
  refine Yields.bind (guardedHeaders_reads block.inEvents) fun headers hreads =>
    Yields.andThen fun tones => Yields.of_ok (.inr ⟨headers, hreads, ?_⟩)
  exact stores_params State.params applyParamEvent (fun _ _ => rfl) headers s

omit [DoubleOps D] in
theorem MultiOutFxPlugin.process_stores (base : Base D) (s : State D) (block : ProcessBlock D)
    (memory : AudioMemory D S) :
    Yields (process base s block memory) fun r =>
      Stores paramIds block.inEvents s.params r.1.self.params r.1.value := by
  unfold process
  split
  · refine Yields.bind (guardedHeaders_reads block.inEvents) fun headers hreads =>
      Yields.andThen fun m => Yields.of_ok (.inr ⟨headers, hreads, ?_⟩)
    exact stores_params State.params applyParamEvent (fun _ _ => rfl) headers s
  · exact Yields.of_ok (.inl ⟨rfl, rfl⟩)

omit [DoubleOps D] [FloatOps S] [FloatCast D S] in
theorem AudioPortsZeroPlugin.process_stores (base : Base D) (s : State D) (block : ProcessBlock D)
    (memory : AudioMemory D S) :
    Yields (process base s block memory) fun r =>
      Stores paramIds block.inEvents s.params r.1.self.params r.1.value :=
  Yields.bind (flush_stores State.params (fun _ _ => rfl) block.inEvents s) fun _ hflushed =>
    Yields.of_ok (.inr hflushed)

omit [DoubleOps D] [FloatOps S] [FloatCast D S] in
theorem SlowPlugin.process_stores (base : Base D) (s : State D) (block : ProcessBlock D)
    (memory : AudioMemory D S) :
    Yields (process base s block memory) fun r =>
      Stores paramIds block.inEvents s.params r.1.self.params r.1.value := by
  unfold process
  split
  · exact Yields.bind (flush_stores State.params (fun _ _ => rfl) block.inEvents s)
      fun _ hflushed => Yields.andThen fun m => Yields.of_ok (.inr hflushed)
  · exact Yields.of_ok (.inl ⟨rfl, rfl⟩)

omit [FloatOps S] [FloatCast D S] in
theorem NoteFxPlugin.process_stores (base : Base D) (s : State D) (block : ProcessBlock D)
    (memory : AudioMemory D S) :
    Yields (process base s block memory) fun r =>
      Stores paramIds block.inEvents s.params r.1.self.params r.1.value := by
  have hloop : ∀ list : InputEvents D, Yields (transformEvents block.hasOutEvents s list.events)
      fun out => ∃ headers, ReadsEvents (some list) headers ∧
        out.self.params = headers.foldl (applyParamValue paramIds) s.params := by
    intro list out hout
    obtain ⟨headers, hheaders⟩ := events_of_transformEvents hout
    rw [hheaders, transformEvents_map] at hout
    split at hout
    · cases hout
      exact ⟨headers, hheaders, consume_params State.params transformEvent_params headers s⟩
    · cases hout
  unfold process
  split
  · exact Yields.of_error _
  · rename_i list hlist
    rw [hlist]
    split
    · exact Yields.bind (hloop list) fun out hout => Yields.of_ok (.inr hout)
    · exact Yields.of_error _

theorem PresetPlugin.process_stores (base : Base D) (s : State D) (block : ProcessBlock D)
    (memory : AudioMemory D S) :
    Yields (process base s block memory) fun r =>
      Stores paramIds block.inEvents s.params r.1.self.params r.1.value := by
  unfold process
  split
  · refine Yields.bind (guardedHeaders_reads block.inEvents) fun headers hreads =>
      Yields.andThen fun m => Yields.of_ok (.inr ⟨headers, hreads, ?_⟩)
    exact stores_params State.params applyParamEvent (fun _ _ => rfl) headers s
  · exact Yields.of_ok (.inl ⟨rfl, rfl⟩)

theorem SurroundPlugin.process_stores (base : Base D) (s : State D) (block : ProcessBlock D)
    (memory : AudioMemory D S) :
    Yields (process base s block memory) fun r =>
      Stores paramIds block.inEvents s.params r.1.self.params r.1.value := by
  unfold process
  split
  · refine Yields.bind (guardedHeaders_reads block.inEvents) fun headers hreads =>
      Yields.andThen fun m => Yields.of_ok (.inr ⟨headers, hreads, ?_⟩)
    exact stores_params State.params applyParamEvent (fun _ _ => rfl) headers s
  · exact Yields.of_ok (.inl ⟨rfl, rfl⟩)

/-- Behind the loop the block writes the meter, if it has 32-bit planes to measure. -/
theorem ParamsZooPlugin.process_stores (base : Base D) (s : State D) (block : ProcessBlock D)
    (memory : AudioMemory D S) :
    Yields (process base s block memory) fun r =>
      (r.1.value = .error ∧ r.1.self = s) ∨
        ∃ headers, ReadsEvents block.inEvents headers ∧
          ((r.1.value = .error ∧ r.1.self = headers.foldl applyParamEvent s) ∨
            ∃ srcL srcR, r.1.self = { headers.foldl applyParamEvent s with
              params := Function.update (headers.foldl applyParamEvent s).params kParamPeak
                (minDouble (measurePeak ((headers.foldl applyParamEvent s).params kParamPeak)
                  srcL srcR block.framesCount.toNat memory.f32) (DoubleOps.lit 1)) }) := by
  unfold process
  split
  · refine Yields.bind (guardedHeaders_reads block.inEvents) fun headers hreads => ?_
    rw [consume_done]
    dsimp only
    split
    · exact Yields.of_ok (.inr ⟨headers, hreads, .inl ⟨rfl, rfl⟩⟩)
    · refine Yields.andThen fun srcL => Yields.branch fun srcR => Yields.andThen fun dstL =>
        Yields.branch fun dstR => Yields.of_ok (.inr ⟨headers, hreads, .inr ⟨srcL, srcR, rfl⟩⟩)
  · exact Yields.of_ok (.inl ⟨rfl, rfl⟩)

/-- Behind the loop the block drains the queue. -/
theorem GuiPlugin.process_stores (base : Base D) (s : State D) (block : ProcessBlock D)
    (memory : AudioMemory D S) :
    Yields (process base s block memory) fun r =>
      (r.1.value = .error ∧ r.1.self = s) ∨
        ∃ headers, ReadsEvents block.inEvents headers ∧ r.1.self.paramQueue = [] ∧
          r.1.self.params = (drainQueue (headers.foldl applyParamEvent s)
            block.hasOutEvents).1.params := by
  unfold process
  split
  · refine Yields.bind (guardedHeaders_reads block.inEvents) fun headers hreads =>
      Yields.andThen fun m => Yields.of_ok (.inr ⟨headers, hreads, rfl, ?_⟩)
    show (drainQueue (headers.foldl processEvent (s, block.transport)).1 _).1.params = _
    rw [foldl_processEvent]
  · exact Yields.of_ok (.inl ⟨rfl, rfl⟩)

end Blocks

end Cvp
