/-
  Plugins in a row: what one puts into `out_events` is the next one's `in_events`. Whatever the
  flavors, the instances and the rest of their blocks, a list in order and inside the block
  stays one all along the row, so no plugin of the bundle makes another one report P03, P04 or P06
  (`routed_events_accepted`).
-/
import ClapValidatorPlugins.Events.OrderScan
import ClapValidatorPlugins.Events.Probes
import ClapValidatorPlugins.Events.Transpose
import ClapValidatorPlugins.Events.Verdicts
import ClapValidatorPlugins.Lib.Yields
import ClapValidatorPlugins.Voices.Chunks

namespace Cvp

variable {D : Type}

/-! ## Lists the scan has nothing to say about -/

/-- Of full header size, in order and inside a block of that many frames. -/
structure Playable (framesCount : UInt32) (es : List (Event D)) : Prop where
  sized : ∀ e ∈ es, e.isMalformed = false
  inside : ∀ e ∈ es, e.time < framesCount.toNat
  sorted : es.Pairwise fun a b => a.time ≤ b.time

theorem Playable.nil (framesCount : UInt32) : Playable (D := D) framesCount [] :=
  ⟨fun _ h => absurd h List.not_mem_nil, fun _ h => absurd h List.not_mem_nil, List.Pairwise.nil⟩

/-- Events at one time of the block. -/
theorem Playable.atOnce {framesCount : UInt32} {es : List (Event D)} {time : Nat}
    (htime : time < framesCount.toNat)
    (h : ∀ e ∈ es, e.isMalformed = false ∧ e.time = time) : Playable framesCount es := by
  refine ⟨fun e he => (h e he).1, fun e he => ?_, ?_⟩
  · rw [(h e he).2]
    exact htime
  · refine List.pairwise_of_forall_mem_list fun a ha b hb => ?_
    rw [(h a ha).2, (h b hb).2]

/-- Part of a list, with sizes and times as they were. -/
theorem Playable.of_sublist {framesCount : UInt32} {es es' : List (Event D)}
    (h : Playable framesCount es)
    (hsub : (es'.map fun e => (e.size, e.time)).Sublist (es.map fun e => (e.size, e.time))) :
    Playable framesCount es' := by
  have hmem : ∀ e' ∈ es', ∃ e ∈ es, e.size = e'.size ∧ e.time = e'.time := by
    intro e' he'
    obtain ⟨e, he, heq⟩ := List.mem_map.mp (hsub.subset (List.mem_map_of_mem he'))
    exact ⟨e, he, congrArg Prod.fst heq, congrArg Prod.snd heq⟩
  refine ⟨fun e' he' => ?_, fun e' he' => ?_, ?_⟩
  · obtain ⟨e, he, hsize, -⟩ := hmem e' he'
    have hsized := h.sized e he
    rwa [Event.isMalformed, hsize] at hsized
  · obtain ⟨e, he, -, htime⟩ := hmem e' he'
    exact htime ▸ h.inside e he
  · have hsorted : (es.map fun e => (e.size, e.time)).Pairwise fun a b => a.2 ≤ b.2 :=
      List.pairwise_map.mpr h.sorted
    have hsorted' := hsorted.sublist hsub
    rwa [List.pairwise_map] at hsorted'

theorem wellFormed_eq {es : List (Option (Event D))}
    (h : ∀ e, some e ∈ es → e.isMalformed = false) : wellFormed es = es.reduceOption := by
  refine List.filter_eq_self.mpr fun e he => ?_
  rw [h e (List.reduceOption_mem_iff.mp he)]
  rfl

theorem scanVerdicts_mem {framesCount : UInt32} {es : List (Option (Event D))} {v : Violation}
    (h : v ∈ scanVerdicts framesCount es) : v ∈ scanCodes := by
  obtain ⟨⟨earlier, header⟩, -, hv⟩ := List.mem_flatMap.mp h
  unfold entryVerdict at hv
  cases header with
  | none => cases hv
  | some e =>
    dsimp only at hv
    split_ifs at hv <;> simp at hv <;> simp [scanCodes, hv]
    rcases hv with rfl | rfl <;> simp

/-- Nothing is reported exactly for the lists whose events, null entries aside, are playable. -/
theorem scanVerdicts_eq_nil_iff (framesCount : UInt32) (es : List (Option (Event D))) :
    scanVerdicts framesCount es = [] ↔ Playable framesCount es.reduceOption := by
  have hcodes : scanVerdicts framesCount es = [] ↔
      ∀ v ∈ scanCodes, (scanVerdicts framesCount es).count v = 0 := by
    constructor
    · intro h v _
      rw [h, List.count_nil]
    · intro h
      refine List.eq_nil_iff_forall_not_mem.mpr fun v hv => ?_
      exact List.count_eq_zero.mp (h v (scanVerdicts_mem hv)) hv
  have hsized : (scanVerdicts framesCount es).count .P06 = 0 ↔
      ∀ e ∈ es.reduceOption, e.isMalformed = false := by
    rw [malformed_count, show es.countP isTooSmall = malformedCount es from rfl,
      malformedCount_eq_zero]
    simp only [List.reduceOption_mem_iff]
  rw [hcodes]
  constructor
  · intro h
    have hsize := hsized.mp (h .P06 (by decide))
    have heq := wellFormed_eq fun e he => hsize e (List.reduceOption_mem_iff.mpr he)
    have hbeyond := h .P04 (by decide)
    have hlate := h .P03 (by decide)
    rw [beyond_count, heq, List.countP_eq_zero] at hbeyond
    rw [late_count, late_eq_zero_iff, heq] at hlate
    exact ⟨hsize, fun e he => by simpa using hbeyond e he, hlate⟩
  · intro h v hv
    have heq := wellFormed_eq fun e he => h.sized e (List.reduceOption_mem_iff.mpr he)
    simp only [scanCodes, List.mem_cons, List.not_mem_nil, or_false] at hv
    rcases hv with rfl | rfl | rfl
    · rw [late_count, late_eq_zero_iff, heq]
      exact h.sorted
    · rw [beyond_count, heq, List.countP_eq_zero]
      simpa using h.inside
    · exact hsized.mpr h.sized

theorem scanVerdicts_map_some (framesCount : UInt32) (es : List (Event D)) :
    scanVerdicts framesCount (es.map some) = [] ↔ Playable framesCount es := by
  have heq : (es.map some).reduceOption = es := by
    rw [List.reduceOption, List.filterMap_map]
    exact List.filterMap_some
  rw [scanVerdicts_eq_nil_iff, heq]

/-! ## What a flavor sends -/

/-- Events in order get an answer in order. -/
def KeepsOrder (block : ProcessBlock D) (pushed : List (Event D)) : Prop :=
  0 < block.framesCount →
    scanVerdicts block.framesCount (readableEvents block.inEvents) = [] →
      Playable block.framesCount pushed

theorem KeepsOrder.nil (block : ProcessBlock D) : KeepsOrder block [] :=
  fun _ _ => Playable.nil _

section Sends

variable {S : Type} [DoubleOps D] [FloatOps S] [FloatCast D S]

omit [FloatOps S] [FloatCast D S] in
/-- The note ends of a synth stand at the last frame of the block. -/
theorem emitNoteEnds_keepsOrder (e : SineEngine D S) (block : ProcessBlock D) :
    KeepsOrder block (e.emitNoteEnds (lastFrame block.framesCount)).2 := by
  intro hframes _
  have hpos : 0 < block.framesCount.toNat := UInt32.lt_iff_toNat_lt.mp hframes
  have hlast : lastFrame block.framesCount = block.framesCount.toNat - 1 := if_pos hframes
  have htime : lastFrame block.framesCount < block.framesCount.toNat := by omega
  refine Playable.atOnce htime fun e' he' => ?_
  obtain ⟨v, -, rfl⟩ := List.mem_map.mp he'
  exact ⟨rfl, rfl⟩

omit [DoubleOps D] in
theorem pushAll_yields (hasOutEvents : Bool) (events : List (Event D)) :
    Yields (pushAll hasOutEvents events) (· = events) := by
  unfold pushAll
  split
  · exact Yields.of_ok rfl
  · exact Yields.of_error _

theorem SynthPlugin.process_keepsOrder (base : Base D) (s : State D S) (block : ProcessBlock D)
    (memory : AudioMemory D S) :
    Yields (process base s block memory) fun r => KeepsOrder block r.1.pushed := by
  have hplane : ∀ {T : Type} [SampleOps D T] (out : AudioBuffer) (data : Option (List Ptr))
      (m : Plane T), Yields (processPlane s block out data m) fun r =>
        KeepsOrder block r.1.pushed := by
    intro T _ out data m
    unfold processPlane
    refine Yields.andThen fun left => Yields.branch fun right => Yields.andThen fun headers =>
      Yields.bind (pushAll_yields _ _) fun pushed hpushed => Yields.of_ok ?_
    rw [hpushed]
    exact emitNoteEnds_keepsOrder _ block
  unfold process
  split
  · exact Yields.of_ok (.nil block)
  · split
    · exact Yields.of_ok (.nil block)
    · split
      · exact Yields.bind (hplane _ _ _) fun r hr => Yields.of_ok hr
      · split
        · exact Yields.bind (hplane _ _ _) fun r hr => Yields.of_ok hr
        · exact Yields.of_ok (.nil block)

theorem SidechainSynthPlugin.process_keepsOrder (base : Base D) (s : State D S)
    (block : ProcessBlock D) (memory : AudioMemory D S) :
    Yields (process base s block memory) fun r => KeepsOrder block r.1.pushed := by
  unfold process
  split
  · exact Yields.of_ok (.nil block)
  · split
    · exact Yields.of_ok (.nil block)
    · refine Yields.andThen fun left => Yields.branch fun right => Yields.andThen fun headers =>
        Yields.andThen fun gated => Yields.bind (pushAll_yields _ _) fun pushed hpushed =>
          Yields.of_ok ?_
      show KeepsOrder block pushed
      rw [hpushed]
      exact emitNoteEnds_keepsOrder _ block

omit [FloatOps S] [FloatCast D S] in
/-- The events of a block that NoteFX gets through are the ones the scan has looked at. -/
theorem NoteFxPlugin.process_reads {base : Base D} {s : State D} {block : ProcessBlock D}
    {memory : AudioMemory D S} {r : Outcome D (State D) ProcessStatus × AudioMemory D S}
    (h : process base s block memory = .ok r) :
    ∃ headers, readableEvents block.inEvents = headers.map some ∧
      r.1.pushed = (passedOn (s.params kParamTranspose) headers).map fun p =>
        transposed p.2 p.1 := by
  obtain ⟨list, hlist, headers, hheaders, hpushed, -⟩ := process_ok h
  refine ⟨headers, ?_, hpushed⟩
  rw [hlist]
  unfold process at h
  rw [hlist] at h
  dsimp only at h
  split at h
  · rename_i hguard
    rw [← hheaders]
    unfold readableEvents
    dsimp only
    cases hget : list.hasGet with
    | true =>
      rw [hget, Bool.true_or] at hguard
      exact if_pos hguard
    | false =>
      -- without `get` the loop runs through an empty list only
      rw [hget, Bool.false_or, Bool.and_eq_true] at hguard
      rw [List.isEmpty_iff.mp hguard.2, ite_self]
  · cases h

omit [FloatOps S] [FloatCast D S] in
/-- What is passed on keeps its size and its time; what is consumed leaves the others in order. -/
theorem NoteFxPlugin.process_keepsOrder (base : Base D) (s : State D) (block : ProcessBlock D)
    (memory : AudioMemory D S) :
    Yields (process base s block memory) fun r => KeepsOrder block r.1.pushed := by
  intro r hr _ hclean
  obtain ⟨headers, hreads, hpushed⟩ := process_reads hr
  have hshape : ∀ (t : Int) (e : Event D),
      ((transposed t e).size, (transposed t e).time) = (e.size, e.time) := by
    intro t e
    rw [transposed_eq]
    split <;> rfl
  have hsub : (r.1.pushed.map fun e => (e.size, e.time)).Sublist
      (headers.map fun e => (e.size, e.time)) := by
    rw [hpushed, List.map_map, show ((fun e => (e.size, e.time)) ∘ fun p : Event D × Int =>
      transposed p.2 p.1) = (fun e => (e.size, e.time)) ∘ Prod.fst from
        funext fun p => hshape p.2 p.1, ← List.map_map, map_fst_passedOn]
    exact (List.filter_sublist ..).map _
  rw [hreads] at hclean
  exact ((scanVerdicts_map_some _ _).mp hclean).of_sublist hsub

/-- The edits in the queue leave at the first frame. -/
theorem GuiPlugin.process_keepsOrder (base : Base D) (s : State D) (block : ProcessBlock D)
    (memory : AudioMemory D S) :
    Yields (process base s block memory) fun r => KeepsOrder block r.1.pushed := by
  have hdrain : ∀ s : State D, KeepsOrder block (drainQueue s block.hasOutEvents).2 := by
    intro s hframes _
    refine Playable.atOnce (UInt32.lt_iff_toNat_lt.mp hframes) fun e he => ?_
    have hitem : ∃ item ∈ s.paramQueue, item.event = e := by
      unfold drainQueue ParamEventQueue.drain at he
      dsimp only at he
      split at he
      · exact List.mem_map.mp he
      · cases he
    obtain ⟨item, -, rfl⟩ := hitem
    cases item <;> exact ⟨rfl, rfl⟩
  unfold process
  split
  · exact Yields.andThen fun headers => Yields.andThen fun m => Yields.of_ok (hdrain _)
  · exact Yields.of_ok (.nil block)

/-- Every flavor. -/
theorem Flavor.process_keepsOrder [DoubleBits D] (flavor : Flavor) (base : Base D)
    (s : flavor.State D S) (block : ProcessBlock D) (memory : AudioMemory D S) :
    Yields ((flavor.impl : PluginImpl D S _).process base s block memory) fun r =>
      KeepsOrder block r.1.pushed := by
  cases flavor with
  | synth => exact SynthPlugin.process_keepsOrder base s block memory
  | sidechainSynth => exact SidechainSynthPlugin.process_keepsOrder base s block memory
  | noteFx => exact NoteFxPlugin.process_keepsOrder base s block memory
  | gui => exact GuiPlugin.process_keepsOrder base s block memory
  | effect =>
    show Yields (EffectPlugin.process base s block memory) _
    unfold EffectPlugin.process
    split
    · refine Yields.andThen fun headers => ?_
      split
      · exact Yields.of_ok (.nil block)
      · exact Yields.andThen fun r => Yields.of_ok (.nil block)
    · exact Yields.of_ok (.nil block)
  | multiOutGen =>
    exact Yields.andThen fun _ => Yields.andThen fun _ => Yields.of_ok (.nil block)
  | audioPortsZero => exact Yields.andThen fun _ => Yields.of_ok (.nil block)
  | multiOutFx =>
    show Yields (MultiOutFxPlugin.process base s block memory) _
    unfold MultiOutFxPlugin.process
    split
    · exact Yields.andThen fun _ => Yields.andThen fun _ => Yields.of_ok (.nil block)
    · exact Yields.of_ok (.nil block)
  | slow =>
    show Yields (SlowPlugin.process base s block memory) _
    unfold SlowPlugin.process
    split
    · exact Yields.andThen fun _ => Yields.andThen fun _ => Yields.of_ok (.nil block)
    · exact Yields.of_ok (.nil block)
  | hostCheck =>
    show Yields (HostCheckPlugin.process base s block memory) _
    unfold HostCheckPlugin.process
    split
    · exact Yields.andThen fun _ => Yields.of_ok (.nil block)
    · exact Yields.of_ok (.nil block)
  | paramsZoo =>
    show Yields (ParamsZooPlugin.process base s block memory) _
    unfold ParamsZooPlugin.process
    split
    · refine Yields.andThen fun headers => ?_
      dsimp only
      split
      · exact Yields.of_ok (.nil block)
      · exact Yields.andThen fun _ => Yields.branch fun _ => Yields.andThen fun _ =>
          Yields.branch fun _ => Yields.of_ok (.nil block)
    · exact Yields.of_ok (.nil block)
  | preset =>
    show Yields (PresetPlugin.process base s block memory) _
    unfold PresetPlugin.process
    split
    · exact Yields.andThen fun _ => Yields.andThen fun _ => Yields.of_ok (.nil block)
    · exact Yields.of_ok (.nil block)
  | surround =>
    show Yields (SurroundPlugin.process base s block memory) _
    unfold SurroundPlugin.process
    split
    · exact Yields.andThen fun _ => Yields.andThen fun _ => Yields.of_ok (.nil block)
    · exact Yields.of_ok (.nil block)

end Sends

namespace Plugin

variable {S σ : Type} {impl : PluginImpl D S σ} {p : Plugin D σ} {thread : ThreadId}

/-- The wrapper sends what the flavor sends, and nothing for a block it turns down. -/
theorem sProcess_keepsOrder {block : ProcessBlock D}
    (h : ∀ base s memory, Yields (impl.process base s block memory) fun r =>
      KeepsOrder block r.1.pushed) (p : Plugin D σ) (thread : ThreadId)
    (memory : AudioMemory D S) :
    Yields (p.sProcess impl thread block memory) fun r => KeepsOrder block r.2.pushed := by
  unfold sProcess
  split
  · exact Yields.of_ok (.nil block)
  · rename_i q _
    split
    · exact Yields.of_error _
    · rename_i out memory' hprocess
      exact Yields.of_ok (h _ _ _ _ hprocess)

/-- A block without verdicts on its events is not reported for them. -/
theorem process_uncounted {block : ProcessBlock D} {memory : AudioMemory D S} {v : Violation}
    (hclean : scanVerdicts block.framesCount (readableEvents block.inEvents) = [])
    (hv : v ∈ scanCodes) : v ∉ (.process block memory : Call D S).codes impl thread p := by
  have hne : ∀ w : Violation, w ∉ scanCodes → v ≠ w := fun w hw heq => hw (heq ▸ hv)
  intro hmem
  rcases List.mem_append.mp hmem with haudio | hmem
  · exact hne .T02 (by decide) (eq_of_mem_audioCodes haudio)
  split at hmem
  · exact hne .L12 (by decide) (List.mem_singleton.mp hmem)
  split at hmem
  · have hscan := blockFindings_scan p.contract block
    rw [hclean, List.filter_eq_nil_iff] at hscan
    exact hscan v hmem (by simpa using hv)
  · exact hne .L09 (by decide) (List.mem_singleton.mp hmem)

end Plugin

/-! ## A row of plugins -/

section Row

variable {S : Type} [DoubleOps D] [FloatOps S] [FloatCast D S] [DoubleBits D]

/-- A plugin in the row with what the host gives it in this cycle besides events and frames. -/
structure Stage (D S : Type) where
  flavor : Flavor
  plugin : Plugin D (flavor.State D S)
  thread : ThreadId
  block : ProcessBlock D
  memory : AudioMemory D S

/-- The stage behind its block, and what it has put into `out_events`. -/
def Stage.play (stage : Stage D S) (framesCount : UInt32) (events : List (Event D)) :
    Exec (Stage D S × List (Event D)) := do
  let block := { stage.block with framesCount := framesCount, inEvents := some (.ofList events) }
  let (p, reply) ← stage.plugin.sProcess (stage.flavor.impl : PluginImpl D S _) stage.thread block
    stage.memory
  .ok ({ stage with plugin := p, memory := reply.memory }, reply.pushed)

/-- One cycle of the row: every plugin gets what the one before it has sent. -/
def route (framesCount : UInt32) :
    List (Stage D S) → List (Event D) → Exec (List (Stage D S) × List (Event D))
  | [], events => .ok ([], events)
  | stage :: stages, events => do
    let (stage, sent) ← stage.play framesCount events
    let (stages, sent) ← route framesCount stages sent
    .ok (stage :: stages, sent)

/-- The count of a code does not change. -/
def Stage.Uncounted (codes : List Violation) (before after : Stage D S) : Prop :=
  before.flavor = after.flavor ∧
    ∀ v ∈ codes, after.plugin.contract.counter v = before.plugin.contract.counter v

/-- A clean list is not reported for its order, its times and its sizes, and is answered with a
    clean one. -/
theorem Stage.play_ok {stage stage' : Stage D S} {framesCount : UInt32}
    {events sent : List (Event D)} (hframes : 0 < framesCount)
    (hevents : Playable framesCount events)
    (h : stage.play framesCount events = .ok (stage', sent)) :
    Playable framesCount sent ∧ stage.Uncounted scanCodes stage' := by
  obtain ⟨⟨p, reply⟩, hprocess, hret⟩ := Except.bind_eq_ok h
  cases hret
  have hclean : scanVerdicts framesCount (readableEvents (some (.ofList events))) = [] :=
    (scanVerdicts_map_some framesCount events).mpr hevents
  refine ⟨?_, rfl, fun v hv => ?_⟩
  · refine Plugin.sProcess_keepsOrder (fun base s memory => ?_) _ _ _ _ hprocess hframes hclean
    exact Flavor.process_keepsOrder stage.flavor base s _ memory
  · have hcalled := Plugin.called_sProcess stage.flavor.tame stage.thread _ _ _ hprocess
    have hcounts := (hcalled.counts (by rintro ⟨⟩)).counters
    exact (congrFun hcounts v).trans
      (bump_of_not_mem _ (Plugin.process_uncounted hclean hv))

/-- However many plugins in a row, and whatever they are: events in order and inside the block
    come through in order and inside the block, and no plugin counts P03, P04 or P06. -/
theorem routed_events_accepted {framesCount : UInt32} (hframes : 0 < framesCount)
    {stages stages' : List (Stage D S)} : ∀ {events sent : List (Event D)},
      Playable framesCount events → route framesCount stages events = .ok (stages', sent) →
      Playable framesCount sent ∧ List.Forall₂ (Stage.Uncounted scanCodes) stages stages' := by
  induction stages generalizing stages' with
  | nil =>
    intro events sent hevents h
    cases h
    exact ⟨hevents, .nil⟩
  | cons stage stages ih =>
    intro events sent hevents h
    obtain ⟨⟨stage', first⟩, hplay, hrest⟩ := Except.bind_eq_ok h
    obtain ⟨⟨rest, last⟩, hroute, hret⟩ := Except.bind_eq_ok hrest
    cases hret
    obtain ⟨hfirst, hstage⟩ := Stage.play_ok hframes hevents hplay
    obtain ⟨hlast, hstages⟩ := ih hfirst hroute
    exact ⟨hlast, .cons hstage hstages⟩

end Row

namespace NoteFxPlugin

/-- A flush list that sets Transpose. -/
def setTranspose (x : ExactFloat) : InputEvents ExactFloat :=
  .ofList [{ size := sizeofParamValue, time := 0
             body := .paramValue { paramId := kParamTranspose } x }]

/-- A NoteFX that is processing, behind a flush that has set Transpose. -/
def transposer (x : ExactFloat) : Plugin ExactFloat (State ExactFloat) :=
  let p := Flavor.noteFx.running ExactFloat (48000 : ExactFloat)
  match Plugin.Params.sFlush (impl : PluginImpl ExactFloat ExactFloat _) p 0
    (some (setTranspose x)) true with
  | .ok r => r.1
  | .error _ => p

theorem transposer_reachable (x : ExactFloat) :
    Flavor.noteFx.Reachable (S := ExactFloat) (transposer x) ∧
      (transposer x).contract.processing = true := by
  obtain ⟨⟨host, hreach⟩, -⟩ := Flavor.noteFx.running_reachable ExactFloat (48000 : ExactFloat)
  exact ⟨⟨host, hreach.tail (l := (0, .paramsFlush (some (setTranspose x)) true)) rfl⟩, rfl⟩

/-- A fifth and a fourth. -/
def fifthAndFourth : List (Stage ExactFloat ExactFloat) :=
  [7, 5].map fun x =>
    ⟨.noteFx, transposer x, 0, { framesCount := 64, inEvents := none }, silentMemory⟩

end NoteFxPlugin

/-- The fifth and the fourth take the note-off at sample 3 without a report. -/
theorem routed_events_accepted_fifthAndFourth :
    ∃ stages sent, route 64 NoteFxPlugin.fifthAndFourth [noteOffAt 3] = .ok (stages, sent) ∧
      Playable 64 sent := by
  obtain ⟨⟨stages, sent⟩, hroute⟩ : ∃ r, route 64 NoteFxPlugin.fifthAndFourth [noteOffAt 3] =
    .ok r := ⟨_, rfl⟩
  have htime : 3 < (64 : UInt32).toNat := by decide
  have hplayable : Playable 64 [noteOffAt 3] := Playable.atOnce htime fun e he => by
    rw [List.mem_singleton.mp he]
    exact ⟨rfl, rfl⟩
  exact ⟨stages, sent, hroute, (routed_events_accepted (by decide) hplayable hroute).1⟩

end Cvp
