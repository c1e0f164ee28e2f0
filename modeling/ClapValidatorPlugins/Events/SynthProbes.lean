/-
  Blocks that show an event being acted on by a synth: a note it starts, a voice it stops, a
  modulation it sets (`note_shows`, `modulation_shows`). An event that is not acted on shows in one
  way only, through the chunk it splits.
-/
import ClapValidatorPlugins.Events.Probes

namespace Cvp

/-! ## What stays of an engine -/

section Shape

variable {D S : Type} [DoubleOps D] [FloatOps S] [FloatCast D S]

/-- What `emitNoteEnds` leaves alone of a voice: activity, release, modulation and release gain. -/
def Voice.shape (v : Voice D S) : Bool × Bool × S × S :=
  (v.active, v.releasing, v.modGain, v.releaseGain)

def SineEngine.shape (e : SineEngine D S) : S × List (Bool × Bool × S × S) :=
  (e.globalMod, e.voices.map Voice.shape)

omit [FloatOps S] [FloatCast D S] in
theorem SineEngine.emitNoteEnds_shape (e : SineEngine D S) (time : Nat) :
    (e.emitNoteEnds time).1.shape = e.shape := by
  have hvoices : (e.voices.map fun v => { v with justEnded := false }).map Voice.shape =
      e.voices.map Voice.shape := List.map_map
  exact congrArg (Prod.mk e.globalMod) hvoices

/-- The engine of an instance that was just activated. -/
def SineEngine.idle (S : Type) [FloatOps S] (rate : D) : SineEngine D S :=
  (SineEngine.create.setSampleRate rate).reset

end Shape

namespace Flavor

/-! ## A synth in the probe block -/

theorem pushAll_some {D : Type} (events : List (Event D)) : pushAll true events = .ok events := by
  unfold pushAll
  rw [Bool.or_true]
  rfl

section Synths

variable {D S : Type} [DoubleOps D] [FloatOps S] [FloatCast D S] [DoubleBits D]

omit [DoubleBits D] in
/-- `SynthPlugin::process` on the probe block. -/
theorem synth_process (base : Base D) (s : SynthPlugin.State D S) (frames : UInt32)
    (headers : List (Event D)) (memory : AudioMemory D S) :
    ∃ out memory', SynthPlugin.process base s
        ((probeBlock D frames).withEvents (headers.map some)) memory = .ok (out, memory') ∧
      out.self =
        (SynthPlugin.processTyped (T := S) s frames headers 0 (some 1) memory.f32).1 := by
  have hplane : ∃ out m, SynthPlugin.processPlane s
        ((probeBlock D frames).withEvents (headers.map some)) stereoBuffer (some [0, 1])
        memory.f32 = .ok (out, m) ∧
      out.self =
        (SynthPlugin.processTyped (T := S) s frames headers 0 (some 1) memory.f32).1 := by
    let typed := SynthPlugin.processTyped (T := S) s frames headers 0 (some 1) memory.f32
    refine ⟨{ value := voiceStatus typed.1.engine, self := typed.1, pushed := typed.2.2 },
      typed.2.1, ?_, rfl⟩
    show (InputEvents.headers { events := headers.map some } >>= _) = _
    rw [headers_map]
    show (pushAll true typed.2.2 >>= _) = _
    rw [pushAll_some]
    rfl
  obtain ⟨out, m, hok, hself⟩ := hplane
  refine ⟨out, { memory with f32 := m }, ?_, hself⟩
  show (SynthPlugin.processPlane s _ stereoBuffer (some [0, 1]) memory.f32 >>= _) = _
  rw [hok]
  rfl

omit [DoubleBits D] in
/-- `SidechainSynthPlugin::process` on the probe block: the gate works on the samples only. -/
theorem sidechainSynth_process (base : Base D) (s : SidechainSynthPlugin.State D S)
    (frames : UInt32) (headers : List (Event D)) (memory : AudioMemory D S) :
    ∃ plane out memory', SidechainSynthPlugin.process base s
        ((probeBlock D frames).withEvents (headers.map some)) memory = .ok (out, memory') ∧
      out.self.engine = ((chunkLoop (SidechainSynthPlugin.render 0 (some 1)
        (FloatCast.toFloat (s.params SidechainSynthPlugin.kParamVolume)))
        SidechainSynthPlugin.handleEvent frames.toNat headers s plane).self.engine.emitNoteEnds
          (lastFrame frames)).1 ∧
      out.self.params = (chunkLoop (SidechainSynthPlugin.render 0 (some 1)
        (FloatCast.toFloat (s.params SidechainSynthPlugin.kParamVolume)))
        SidechainSynthPlugin.handleEvent frames.toNat headers s plane).self.params := by
  let plane : Plane S := clearSamples (FloatOps.lit 0) 1 frames.toNat
    (clearSamples (FloatOps.lit 0) 0 frames.toNat memory.f32)
  let c := chunkLoop (SidechainSynthPlugin.render 0 (some 1)
    (FloatCast.toFloat (s.params SidechainSynthPlugin.kParamVolume)))
    SidechainSynthPlugin.handleEvent frames.toNat headers s plane
  have hgate : ∃ envelope m', SidechainSynthPlugin.applySidechain c.self
      ((probeBlock D frames).withEvents (headers.map some)) 0 (some 1) c.memory =
        .ok ({ c.self with envelope := envelope }, m') := by
    unfold SidechainSynthPlugin.applySidechain
    dsimp only [ProcessBlock.withEvents, probeBlock]
    split
    · exact ⟨_, _, rfl⟩
    · exact ⟨c.self.envelope, c.memory, rfl⟩
  obtain ⟨envelope, m', hm⟩ := hgate
  let ended := c.self.engine.emitNoteEnds (lastFrame frames)
  let self := { c.self with envelope := envelope, engine := ended.1 }
  refine ⟨plane, { value := voiceStatus ended.1, self := self, pushed := ended.2 },
    { memory with f32 := m' }, ?_, rfl, rfl⟩
  show (InputEvents.headers { events := headers.map some } >>= _) = _
  rw [headers_map]
  show (SidechainSynthPlugin.applySidechain c.self _ 0 (some 1) c.memory >>= _) = _
  rw [hm]
  show (pushAll true ended.2 >>= _) = _
  rw [pushAll_some]
  rfl

/-- A synth's renderer into two channels: the engine's, with the parameters left alone. -/
structure RendersEngine (flavor : Flavor)
    (render : flavor.State D S → Nat → Nat → Plane S → flavor.State D S × Plane S) (gain : S)
    (frames : Nat) : Prop where
  splits : Splits render frames
  engine : ∀ s o n m, flavor.engine (render s o n m).1 =
    (flavor.engine s).map fun e => (e.renderImpl 0 (some 1) o n gain m).1
  params : ∀ s o n m, flavor.params (render s o n m).1 = flavor.params s

/-- A synth's `process` on the probe block: its chunk loop, then the note ends. -/
theorem process_chunks (flavor : Flavor) (hchunks : flavor.rendersChunks = true) (base : Base D)
    (s : flavor.State D S) (frames : UInt32) (headers : List (Event D))
    (memory : AudioMemory D S) :
    ∃ render plane gain out memory', flavor.RendersEngine render gain frames.toNat ∧
      (flavor.impl : PluginImpl D S _).process base s
        ((probeBlock D frames).withEvents (headers.map some)) memory = .ok (out, memory') ∧
      flavor.engine out.self =
        ((flavor.engine (chunkLoop render (flavor.processEvent base) frames.toNat headers s
          plane).self).map fun e => (e.emitNoteEnds (lastFrame frames)).1) ∧
      flavor.params out.self =
        flavor.params (chunkLoop render (flavor.processEvent base) frames.toNat headers s
          plane).self := by
  cases flavor with
  | synth =>
    obtain ⟨out, memory', hprocess, hself⟩ := synth_process base s frames headers memory
    let plane : Plane S := clearSamples (FloatOps.lit 0) 1 frames.toNat
      (clearSamples (FloatOps.lit 0) 0 frames.toNat memory.f32)
    let gain : S := FloatCast.toFloat (s.params SynthPlugin.kParamVolume)
    have hengine := congrArg SynthPlugin.State.engine hself
    have hparams := congrArg SynthPlugin.State.params hself
    exact ⟨_, plane, gain, out, memory', ⟨SynthPlugin.render_splits 0 (some 1) gain frames,
      fun s o n m => rfl, fun s o n m => rfl⟩, hprocess, congrArg some hengine, hparams⟩
  | sidechainSynth =>
    obtain ⟨plane, out, memory', hprocess, hengine, hparams⟩ :=
      sidechainSynth_process base s frames headers memory
    exact ⟨_, plane, _, out, memory', ⟨SidechainSynthPlugin.render_splits 0 (some 1) _ frames,
      fun s o n m => rfl, fun s o n m => rfl⟩, hprocess, congrArg some hengine, hparams⟩
  | _ => cases hchunks

/-- Two states of a synth with the same parameters and engines of the same shape. -/
def LooksAlike (flavor : Flavor) (s t : flavor.State D S) : Prop :=
  (∀ id ∈ flavor.paramIds, flavor.params s id = flavor.params t id) ∧
    (flavor.engine s).map SineEngine.shape = (flavor.engine t).map SineEngine.shape

theorem looksAlike_of_view {flavor : Flavor} (hchunks : flavor.rendersChunks = true)
    {s t : flavor.State D S} (h : flavor.view s = flavor.view t) : flavor.LooksAlike s t := by
  have hvalues : flavor.paramValue s = flavor.paramValue t := congrArg FlavorView.values h
  have hglobal : (flavor.engine s).map (·.globalMod) = (flavor.engine t).map (·.globalMod) :=
    congrArg FlavorView.globalMod h
  have hvoices : ((flavor.engine s).map (·.voices)).getD [] =
      ((flavor.engine t).map (·.voices)).getD [] := congrArg FlavorView.voices h
  have hshape : ∀ a b : SineEngine D S, some a.globalMod = some b.globalMod →
      a.voices = b.voices → some a.shape = some b.shape := by
    intro a b hg hv
    unfold SineEngine.shape
    rw [Option.some.inj hg, hv]
  have hids : ∀ id ∈ flavor.paramIds, flavor.params s id = flavor.params t id := by
    intro id hid
    have hread : ∀ s : flavor.State D S, flavor.paramValue s id = some (flavor.params s id) :=
      flavor.paramValue_of_mem hid
    exact Option.some.inj ((hread s).symm.trans ((congrFun hvalues id).trans (hread t)))
  cases flavor with
  | synth => exact ⟨hids, hshape _ _ hglobal hvoices⟩
  | sidechainSynth => exact ⟨hids, hshape _ _ hglobal hvoices⟩
  | _ => cases hchunks

/-- What `Skipped` says of a synth: its two chunk loops end alike. -/
theorem Skipped.loops {flavor : Flavor} {e : Event D} (hchunks : flavor.rendersChunks = true)
    {allowed : Nat → List (Option (Event D)) → List (Option (Event D)) → Prop}
    (h : Skipped S flavor e allowed) (rate : D) (frames : UInt32) (front back : List (Event D))
    (hallowed : allowed frames.toNat (front.map some) (back.map some)) :
    ∃ render gain plane render' gain' plane', flavor.RendersEngine render gain frames.toNat ∧
      flavor.RendersEngine render' gain' frames.toNat ∧
      flavor.LooksAlike
        (chunkLoop render (flavor.processEvent (flavor.running S rate).base) frames.toNat
          (front ++ e :: back) (flavor.running S rate).self plane).self
        (chunkLoop render' (flavor.processEvent (flavor.running S rate).base) frames.toNat
          (front ++ back) (flavor.running S rate).self plane').self := by
  obtain ⟨render, plane, gain, out, m, hrender, hok, hengine, hparams⟩ :=
    flavor.process_chunks hchunks (flavor.running S rate).base (flavor.running S rate).self frames
      (front ++ e :: back) quietMemory
  obtain ⟨render', plane', gain', out', m', hrender', hok', hengine', hparams'⟩ :=
    flavor.process_chunks hchunks (flavor.running S rate).base (flavor.running S rate).self frames
      (front ++ back) quietMemory
  obtain ⟨hview, -⟩ := h.absurd_of_ok rate frames quietMemory front back hallowed hok hok'
  obtain ⟨hids, hshape⟩ := looksAlike_of_view hchunks hview
  refine ⟨render, gain, plane, render', gain', plane', hrender, hrender', ?_, ?_⟩
  · intro id hid
    rw [← hparams, ← hparams']
    exact hids id hid
  · have hends : ∀ x : Option (SineEngine D S),
        (x.map fun e => (e.emitNoteEnds (lastFrame frames)).1).map SineEngine.shape =
          x.map SineEngine.shape := by
      intro x
      cases x with
      | none => rfl
      | some engine => exact congrArg some (engine.emitNoteEnds_shape _)
    rw [hengine, hengine', hends, hends] at hshape
    exact hshape

omit [DoubleOps D] [DoubleBits D] in
/-- Without frames nothing is rendered, whatever the time stamps. -/
theorem chunkLoop_no_frames {σ T : Type} (render : σ → Nat → Nat → Plane T → σ × Plane T)
    (handle : σ → Event D → σ) (headers : List (Event D)) (s : σ) (m : Plane T) :
    (chunkLoop render handle 0 headers s m).self = headers.foldl handle s := by
  have hloop : ∀ s, headers.foldl (chunkEvent render handle 0) ⟨s, m, 0⟩ =
      ⟨headers.foldl handle s, m, 0⟩ := by
    induction headers with
    | nil => exact fun s => rfl
    | cons header headers ih =>
      intro s
      have hevent : chunkEvent render handle 0 ⟨s, m, 0⟩ header = ⟨handle s header, m, 0⟩ := by
        unfold chunkEvent
        rw [if_neg (by dsimp only; omega)]
      rw [List.foldl_cons, List.foldl_cons, hevent]
      exact ih _
  unfold chunkLoop
  dsimp only
  rw [hloop, if_neg (Nat.not_lt_zero 0)]

theorem Skipped.handled {flavor : Flavor} {e : Event D} (hchunks : flavor.rendersChunks = true)
    {allowed : Nat → List (Option (Event D)) → List (Option (Event D)) → Prop}
    (h : Skipped S flavor e allowed) (rate : D) {front : List (Event D)}
    (hallowed : allowed 0 (front.map some) []) :
    let handle := flavor.processEvent (S := S) (flavor.running S rate).base
    let s := (flavor.running S rate).self
    flavor.LooksAlike (handle (front.foldl handle s) e) (front.foldl handle s) := by
  intro handle s
  obtain ⟨render, gain, plane, render', gain', plane', -, -, halike⟩ :=
    h.loops hchunks rate 0 front [] hallowed
  rw [List.append_nil] at halike
  change flavor.LooksAlike (chunkLoop render handle 0 _ s _).self
    (chunkLoop render' handle 0 _ s _).self at halike
  rw [chunkLoop_no_frames, chunkLoop_no_frames, List.foldl_append] at halike
  exact halike

/-! ## Notes -/

omit [DoubleBits D] in
/-- A note event goes to the engine. -/
theorem engine_processEvent_note {flavor : Flavor} (hchunks : flavor.rendersChunks = true)
    (base : Base D) (s : flavor.State D S) {e : Event D} (h : playsNote e = true) :
    flavor.engine (flavor.processEvent base s e) =
      (flavor.engine s).map (·.handleEvent e) := by
  obtain ⟨hcore, hbody⟩ := Bool.and_eq_true_iff.mp h
  cases flavor with
  | synth =>
    refine congrArg some ?_
    show (SynthPlugin.handleEvent s e).engine = s.engine.handleEvent e
    unfold SynthPlugin.handleEvent
    rw [if_pos hcore]
    cases hevent : e.body with
    | paramValue _ _ | paramMod _ _ =>
      rw [hevent] at hbody
      cases hbody
    | _ => rfl
  | sidechainSynth =>
    refine congrArg some ?_
    show (SidechainSynthPlugin.handleEvent s e).engine = s.engine.handleEvent e
    unfold SidechainSynthPlugin.handleEvent
    rw [if_pos hcore]
    cases hevent : e.body with
    | paramValue _ _ =>
      rw [hevent] at hbody
      cases hbody
    | _ => rfl
  | _ => cases hchunks

theorem engine_running {flavor : Flavor} (hchunks : flavor.rendersChunks = true) (rate : D) :
    flavor.engine (flavor.running S rate).self = some (SineEngine.idle S rate) := by
  cases flavor with
  | synth => rfl
  | sidechainSynth => rfl
  | _ => cases hchunks

end Synths

end Flavor

section Notes

variable {D S : Type} [DoubleOps D] [FloatOps S] [FloatCast D S]

/-- A core note-on at the start of the block. -/
def noteOnEvent (key channel noteId : Int) : Event D :=
  { size := 40, time := 0
    body := .noteOn
      { noteId := noteId, portIndex := 0, channel := channel, key := key
        velocity := DoubleOps.lit 1 } }

omit [DoubleOps D] [FloatOps S] [FloatCast D S] in
theorem Voice.matchesAddress_self (v : Voice D S) :
    v.matchesAddress v.key v.channel v.noteId = true := by
  unfold Voice.matchesAddress
  rw [bne_self_eq_false, bne_self_eq_false, bne_self_eq_false, Bool.and_false, Bool.and_false,
    Bool.and_false]
  rfl

namespace SineEngine

/-- The first voice of an engine, as far as its shape goes. -/
def head (e : SineEngine D S) : Option (Bool × Bool × S × S) := e.shape.2.head?

omit [FloatCast D S] in
theorem head_idle (rate : D) :
    (idle S rate).head = some (false, false, FloatOps.lit 0, FloatOps.lit 1) := rfl

theorem head_noteOn (rate : D) (key channel noteId : Int) (velocity : D) :
    ((idle S rate).noteOn key channel noteId velocity).head =
      some (true, false, FloatOps.lit 0, FloatOps.lit 1) := rfl

theorem head_noteOff (rate : D) (key channel noteId : Int) (velocity : D) (choke : Bool) :
    (((idle S rate).noteOn key channel noteId velocity).noteOff key channel noteId choke).head =
      some (!choke, !choke, FloatOps.lit 0, FloatOps.lit 1) := by
  let v : Voice D S := (idle S rate).newVoice key channel noteId velocity
  have hmatch : v.matchesAddress key channel noteId = true := v.matchesAddress_self
  show some (releaseVoice key channel noteId choke v).shape = _
  unfold releaseVoice
  rw [if_pos (by rw [hmatch]; rfl)]
  cases choke with
  | false => rfl
  | true => rfl

theorem head_modulate (rate : D) (key channel noteId : Int) (velocity amount : D)
    (h : ¬ (key < 0 ∧ channel < 0 ∧ noteId < 0)) :
    (((idle S rate).noteOn key channel noteId velocity).modulate key channel noteId amount).head =
      some (true, false, FloatCast.toFloat amount, FloatOps.lit 1) := by
  let v : Voice D S := (idle S rate).newVoice key channel noteId velocity
  have hmatch : v.matchesAddress key channel noteId = true := v.matchesAddress_self
  unfold modulate
  rw [if_neg h]
  show some (modulateVoice key channel noteId amount v).shape = _
  unfold modulateVoice
  rw [if_pos (by rw [hmatch]; rfl)]
  rfl

theorem handleEvent_core (engine : SineEngine D S) (size time : Nat) (flags : EventFlags)
    (body : EventBody D) :
    engine.handleEvent { size := size, time := time, flags := flags, body := body } =
      match body with
      | .noteOn n => engine.noteOn n.key n.channel n.noteId n.velocity
      | .noteOff n => engine.noteOff n.key n.channel n.noteId false
      | .noteChoke n => engine.noteOff n.key n.channel n.noteId true
      | .midi m => engine.handleMidi m
      | _ => engine := rfl

theorem foldl_noteOnEvent (engine : SineEngine D S) (key channel noteId : Int) :
    [noteOnEvent key channel noteId].foldl handleEvent engine =
      engine.noteOn key channel noteId (DoubleOps.lit 1) := rfl

/-- A note event shows on an idle engine: a note-on by itself, a note-off or a choke behind the
    note-on of its voice. -/
theorem note_shows {e : Event D} (h : playsNote e = true) (rate : D) :
    ∃ front : List (Event D), (∀ x ∈ front, x.time = 0 ∧ playsNote x = true) ∧
      ((front.foldl handleEvent (idle S rate)).handleEvent e).head ≠
        (front.foldl handleEvent (idle S rate)).head := by
  have hon : ∀ key channel noteId velocity,
      ((idle S rate).noteOn key channel noteId velocity).head ≠ (idle S rate).head := by
    intro key channel noteId velocity heq
    rw [head_noteOn, head_idle] at heq
    cases heq
  have hoff : ∀ key channel noteId choke,
      (((idle S rate).noteOn key channel noteId (DoubleOps.lit 1)).noteOff key channel noteId
        choke).head ≠ ((idle S rate).noteOn key channel noteId (DoubleOps.lit 1)).head := by
    intro key channel noteId choke heq
    rw [head_noteOff, head_noteOn] at heq
    cases choke with
    | false => cases heq
    | true => cases heq
  have hnote : ∀ key channel noteId, ∀ x ∈ [noteOnEvent key channel noteId],
      x.time = 0 ∧ playsNote (D := D) x = true := by
    intro key channel noteId x hx
    rw [List.mem_singleton.mp hx]
    exact ⟨rfl, rfl⟩
  obtain ⟨size, time, spaceId, flags, body⟩ := e
  obtain ⟨hcore, hbody⟩ := Bool.and_eq_true_iff.mp h
  have hspace : spaceId = coreEventSpaceId := beq_iff_eq.mp hcore
  subst hspace
  have hnone : ∀ x ∈ ([] : List (Event D)), x.time = 0 ∧ playsNote x = true :=
    fun x hx => absurd hx List.not_mem_nil
  cases body with
  | noteOn n =>
    refine ⟨[], hnone, ?_⟩
    rw [List.foldl_nil, handleEvent_core]
    exact hon n.key n.channel n.noteId n.velocity
  | noteOff n =>
    refine ⟨[noteOnEvent n.key n.channel n.noteId], hnote _ _ _, ?_⟩
    rw [foldl_noteOnEvent, handleEvent_core]
    exact hoff _ _ _ false
  | noteChoke n =>
    refine ⟨[noteOnEvent n.key n.channel n.noteId], hnote _ _ _, ?_⟩
    rw [foldl_noteOnEvent, handleEvent_core]
    exact hoff _ _ _ true
  | midi m =>
    have hstatus : m.data0 &&& 0xF0 = 0x90 ∨ m.data0 &&& 0xF0 = 0x80 := of_decide_eq_true hbody
    by_cases hplays : m.data0 &&& 0xF0 = 0x90 ∧ 0 < m.data2
    · refine ⟨[], hnone, ?_⟩
      rw [List.foldl_nil, handleEvent_core]
      dsimp only
      unfold handleMidi
      dsimp only
      rw [if_pos hplays]
      exact hon _ _ _ _
    · have hzero : m.data0 &&& 0xF0 = 0x80 ∨ (m.data0 &&& 0xF0 = 0x90 ∧ m.data2 = 0) := by
        rcases hstatus with hnine | height
        · refine .inr ⟨hnine, ?_⟩
          have hnot : ¬ 0 < m.data2 := fun hpos => hplays ⟨hnine, hpos⟩
          exact UInt8.le_zero_iff.mp (UInt8.not_lt.mp hnot)
        · exact .inl height
      refine ⟨[noteOnEvent m.data1.toNat (m.data0 &&& 0x0F).toNat (-1)], hnote _ _ _, ?_⟩
      rw [foldl_noteOnEvent, handleEvent_core]
      dsimp only
      unfold handleMidi
      dsimp only
      rw [if_neg hplays, if_pos hzero]
      exact hoff _ _ _ false
  | _ => cases hbody

omit [DoubleOps D] [FloatOps S] in
/-- The later of two modulations of the same voices stands. -/
theorem modulate_modulate (engine : SineEngine D S) (key channel noteId : Int) (a b : D) :
    (engine.modulate key channel noteId a).modulate key channel noteId b =
      engine.modulate key channel noteId b := by
  have hvoice : ∀ v : Voice D S,
      modulateVoice key channel noteId b (modulateVoice key channel noteId a v) =
        modulateVoice key channel noteId b v := by
    intro v
    have hkept : (modulateVoice key channel noteId a v).active = v.active ∧
        (modulateVoice key channel noteId a v).matchesAddress key channel noteId =
          v.matchesAddress key channel noteId := by
      unfold modulateVoice
      split
      · exact ⟨rfl, rfl⟩
      · exact ⟨rfl, rfl⟩
    by_cases hmatch : (v.active && v.matchesAddress key channel noteId) = true
    · have ha : modulateVoice key channel noteId a v =
          { v with modGain := FloatCast.toFloat a } := if_pos hmatch
      have hb : ∀ w : Voice D S, w.active = v.active →
          w.matchesAddress key channel noteId = v.matchesAddress key channel noteId →
          modulateVoice key channel noteId b w =
            { w with modGain := FloatCast.toFloat b } := by
        intro w hactive haddress
        exact if_pos (by rw [hactive, haddress]; exact hmatch)
      rw [hb _ hkept.1 hkept.2, hb v rfl rfl, ha]
    · have ha : modulateVoice key channel noteId a v = v := if_neg hmatch
      rw [ha]
  unfold modulate
  split
  · rfl
  · unfold mapVoices
    simp only [List.map_map, Function.comp_def, hvoice]

/-- A modulation shows on an idle engine or on one with a voice of that address, unless it
    repeats the offset that is there. -/
theorem modulation_shows (key channel noteId : Int) (rate : D) :
    ∃ front : List (Event D), (∀ x ∈ front, x.time = 0 ∧ playsNote x = true) ∧
      ∀ a b : D, (FloatCast.toFloat a : S) ≠ FloatCast.toFloat b →
        ((front.foldl handleEvent (idle S rate)).modulate key channel noteId a).shape ≠
          ((front.foldl handleEvent (idle S rate)).modulate key channel noteId b).shape := by
  by_cases hall : key < 0 ∧ channel < 0 ∧ noteId < 0
  · refine ⟨[], fun x hx => absurd hx List.not_mem_nil, fun a b hab heq => hab ?_⟩
    have hglobal : ∀ x : D,
        ((idle S rate).modulate key channel noteId x).shape.1 = FloatCast.toFloat x :=
      fun x => congrArg (fun engine : SineEngine D S => engine.shape.1) (if_pos hall)
    rw [← hglobal, ← hglobal]
    exact congrArg Prod.fst heq
  · refine ⟨[noteOnEvent key channel noteId], fun x hx => ?_, fun a b hab heq => hab ?_⟩
    · rw [List.mem_singleton.mp hx]
      exact ⟨rfl, rfl⟩
    · have hhead := congrArg (fun x => x.2.head?) heq
      change SineEngine.head _ = SineEngine.head _ at hhead
      rw [foldl_noteOnEvent, head_modulate _ _ _ _ _ _ hall, head_modulate _ _ _ _ _ _ hall]
        at hhead
      injection hhead with hhead
      injection hhead with _ hhead
      injection hhead with _ hhead
      injection hhead

end SineEngine

end Notes

/-! ## Skipped events -/

namespace Flavor

section Skips

variable {D S : Type} [DoubleOps D] [FloatOps S] [FloatCast D S] [DoubleBits D]
  {flavor : Flavor} {e : Event D}
  {allowed : Nat → List (Option (Event D)) → List (Option (Event D)) → Prop}

omit [FloatOps S] [FloatCast D S] [DoubleBits D] in
theorem LooksAlike.head {s t : flavor.State D S} (h : flavor.LooksAlike s t)
    {a b : SineEngine D S} (ha : flavor.engine s = some a) (hb : flavor.engine t = some b) :
    a.head = b.head := by
  have hshape := h.2
  rw [ha, hb] at hshape
  exact congrArg (fun x => x.2.head?) (Option.some.inj hshape)

omit [DoubleBits D] in
theorem engine_foldl_notes (hchunks : flavor.rendersChunks = true) (base : Base D)
    {front : List (Event D)} (h : ∀ x ∈ front, playsNote x = true) (s : flavor.State D S) :
    flavor.engine (front.foldl (flavor.processEvent base) s) =
      (flavor.engine s).map fun engine => front.foldl SineEngine.handleEvent engine := by
  induction front generalizing s with
  | nil => exact Option.map_id'.symm
  | cons x front ih =>
    rw [List.foldl_cons, ih (fun y hy => h y (List.mem_cons_of_mem x hy)),
      engine_processEvent_note hchunks base s (h x List.mem_cons_self), Option.map_map]
    rfl

/-- A synth skips no note. -/
theorem Skipped.silent (hchunks : flavor.rendersChunks = true) (h : Skipped S flavor e allowed)
    (hallowed : ∀ front : List (Event D), (∀ x ∈ front, x.time = 0) →
      allowed 0 (front.map some) []) : playsNote e = false := by
  refine Bool.eq_false_iff.mpr fun hplays => ?_
  let rate : D := DoubleOps.lit 0
  obtain ⟨front, hfront, hshows⟩ := SineEngine.note_shows (S := S) hplays rate
  have halike := h.handled hchunks rate (hallowed front fun x hx => (hfront x hx).1)
  have hengine := engine_foldl_notes hchunks (flavor.running S rate).base
    (fun x hx => (hfront x hx).2) (flavor.running S rate).self
  rw [engine_running hchunks] at hengine
  refine hshows (halike.head ?_ hengine)
  rw [engine_processEvent_note hchunks _ _ hplays, hengine]
  rfl

/-- Synth skips no modulation of its volume. -/
theorem Skipped.unmodulated (hd : NonDegenerate D S) (h : Skipped S .synth e allowed)
    (hallowed : ∀ front : List (Event D), (∀ x ∈ front, x.time = 0) →
      allowed 0 (front.map some) []) : modulatesParam SynthPlugin.kParamVolume e = false := by
  refine Bool.eq_false_iff.mpr fun hmod => ?_
  obtain ⟨target, amount, htarget, he⟩ := eq_modEvent hmod
  obtain ⟨amount', hother⟩ := hd.other amount
  have hmodulate : ∀ (s : SynthPlugin.State D S) (size time : Nat) (flags : EventFlags)
      (amount : D), (SynthPlugin.handleEvent s (modEvent size time flags target amount)).engine =
        s.engine.modulate target.key target.channel target.noteId amount := by
    intro s size time flags amount
    exact congrArg SynthPlugin.State.engine (if_pos htarget)
  let rate : D := DoubleOps.lit 0
  let handle := Flavor.synth.processEvent (S := S) (Flavor.synth.running S rate).base
  let s := (Flavor.synth.running S rate).self
  let before := modEvent 56 0 {} target amount'
  obtain ⟨front, hfront, hshows⟩ :=
    SineEngine.modulation_shows (S := S) target.key target.channel target.noteId rate
  have hzero : ∀ x ∈ front ++ [before], x.time = 0 := by
    intro x hx
    rcases List.mem_append.mp hx with hnote | hbefore
    · exact (hfront x hnote).1
    · rw [List.mem_singleton.mp hbefore]
      rfl
  have halike := h.handled rfl rate (hallowed (front ++ [before]) hzero)
  change LooksAlike .synth (handle ((front ++ [before]).foldl handle s) _)
    ((front ++ [before]).foldl handle s) at halike
  rw [List.foldl_append, he] at halike
  have hnotes := engine_foldl_notes rfl (Flavor.synth.running S rate).base
    (fun x hx => (hfront x hx).2) s
  have hengine : (front.foldl handle s).engine =
      front.foldl SineEngine.handleEvent (SineEngine.idle S rate) := Option.some.inj hnotes
  have hshape := Option.some.inj halike.2
  change (SynthPlugin.handleEvent (SynthPlugin.handleEvent (front.foldl handle s) before)
    (modEvent e.size e.time e.flags target amount)).engine.shape =
    (SynthPlugin.handleEvent (front.foldl handle s) before).engine.shape at hshape
  rw [hmodulate, hmodulate, SineEngine.modulate_modulate] at hshape
  have hdiffer := hshows amount amount' (Ne.symm hother)
  rw [← hengine] at hdiffer
  exact hdiffer hshape

end Skips

end Flavor

end Cvp
