/-
  The note ends of `SineEngine` as a ledger over whole runs: what a note-on opens is closed by
  one NOTE_END. A voice that has ended and is not yet reported keeps its slot's `justEnded`
  flag, and nothing but a note-on clears it before `emitNoteEnds` does: `noteOn` takes the first
  slot that is not active, flag or not.
-/
import ClapValidatorPlugins.Lib.Machine
import ClapValidatorPlugins.Voices.Rendering

namespace Cvp

open Machine

/-! ## Voices that end -/

section Voices

variable {D S : Type}

/-- What a NOTE_END carries of its voice. -/
structure NoteAddress where
  key : Int
  channel : Int
  noteId : Int
  deriving DecidableEq, Repr

def Voice.address (v : Voice D S) : NoteAddress :=
  { key := v.key, channel := v.channel, noteId := v.noteId }

/-- The voices that were active and are not any more, slot by slot. -/
def finished : List (Voice D S) → List (Voice D S) → List NoteAddress
  | v :: vs, w :: ws =>
    if v.active && !w.active then v.address :: finished vs ws else finished vs ws
  | _, _ => []

/-- The ended voices whose NOTE_END is still to come. -/
def unreported (vs : List (Voice D S)) : List NoteAddress :=
  (vs.filter (·.justEnded)).map Voice.address

theorem unreported_cons (v : Voice D S) (vs : List (Voice D S)) :
    unreported (v :: vs) =
      if v.justEnded = true then v.address :: unreported vs else unreported vs := by
  unfold unreported
  rw [List.filter_cons]
  split
  · rfl
  · rfl

theorem length_unreported (vs : List (Voice D S)) :
    (unreported vs).length = vs.countP (·.justEnded) := by
  unfold unreported
  rw [List.length_map, List.countP_eq_length_filter]

theorem finished_cons (v w : Voice D S) (vs ws : List (Voice D S)) :
    finished (v :: vs) (w :: ws) =
      if v.active && !w.active then v.address :: finished vs ws else finished vs ws :=
  rfl

/-- No voice is active and ended at once. -/
def Exclusive (vs : List (Voice D S)) : Prop := ∀ v ∈ vs, v.active = true → v.justEnded = false

/-- What happens to a voice that is not replaced: its flags stay, or it ends. -/
structure VoiceMoves (v w : Voice D S) : Prop where
  address : w.address = v.address
  flags : (w.active = v.active ∧ w.justEnded = v.justEnded) ∨
    (v.active = true ∧ w.active = false ∧ w.justEnded = true)

theorem VoiceMoves.refl (v : Voice D S) : VoiceMoves v v := ⟨rfl, .inl ⟨rfl, rfl⟩⟩

theorem VoiceMoves.exclusive {v w : Voice D S} (h : VoiceMoves v w)
    (hv : v.active = true → v.justEnded = false) (hw : w.active = true) :
    w.justEnded = false := by
  rcases h.flags with ⟨hactive, hended⟩ | ⟨-, hactive, -⟩
  · exact hended.trans (hv (hactive.symm.trans hw))
  · exact absurd hw (by rw [hactive]; exact Bool.false_ne_true)

theorem VoiceMoves.trans_active {u v w : Voice D S} (huv : VoiceMoves u v)
    (hv : v.active = true) (hvw : VoiceMoves v w) : VoiceMoves u w := by
  rcases huv.flags with ⟨hactive, hended⟩ | ⟨-, hdead, -⟩
  · refine ⟨hvw.address.trans huv.address, ?_⟩
    rcases hvw.flags with ⟨hactive', hended'⟩ | ⟨-, hdead', hended'⟩
    · exact .inl ⟨hactive'.trans hactive, hended'.trans hended⟩
    · exact .inr ⟨hactive.symm.trans hv, hdead', hended'⟩
  · rw [hdead] at hv
    cases hv

section Moves

variable {f : Voice D S → Voice D S} (hf : ∀ v, VoiceMoves v (f v))

include hf

theorem exclusive_map {vs : List (Voice D S)} (h : Exclusive vs) : Exclusive (vs.map f) := by
  intro w hw hactive
  obtain ⟨v, hv, rfl⟩ := List.mem_map.mp hw
  exact (hf v).exclusive (h v hv) hactive

/-- Active and ended voices together are as many as before. -/
theorem count_map {vs : List (Voice D S)} (h : Exclusive vs) :
    (vs.map f).countP (·.active) + (vs.map f).countP (·.justEnded) =
      vs.countP (·.active) + vs.countP (·.justEnded) := by
  induction vs with
  | nil => rfl
  | cons v vs ih =>
    have hrest := ih fun u hu => h u (List.mem_cons_of_mem v hu)
    rw [List.map_cons, List.countP_cons, List.countP_cons, List.countP_cons, List.countP_cons]
    rcases (hf v).flags with ⟨hactive, hended⟩ | ⟨hv, hactive, hended⟩
    · rw [hactive, hended]
      omega
    · rw [hactive, hended, hv, h v List.mem_cons_self hv]
      simp only [if_true, Bool.false_eq_true, if_false]
      omega

/-- The voices that end join the unreported ones. -/
theorem unreported_map {vs : List (Voice D S)} (h : Exclusive vs) :
    (unreported (vs.map f)).Perm (unreported vs ++ finished vs (vs.map f)) := by
  induction vs with
  | nil => exact .nil
  | cons v vs ih =>
    have hrest := ih fun u hu => h u (List.mem_cons_of_mem v hu)
    rw [List.map_cons, unreported_cons, unreported_cons, finished_cons]
    rcases (hf v).flags with ⟨hactive, hended⟩ | ⟨hv, hactive, hended⟩
    · rw [hactive, hended, Bool.and_not_self, if_neg Bool.false_ne_true, (hf v).address]
      split
      · exact hrest.cons _
      · exact hrest
    · rw [hactive, hended, hv, h v List.mem_cons_self hv, (hf v).address, if_pos rfl,
        if_neg Bool.false_ne_true]
      exact (hrest.cons _).trans List.perm_middle.symm

end Moves

/-! ## A slot that is taken -/

/-- A voice put into a slot that was not active: no voice ends. -/
theorem finished_set {w : Voice D S} {vs : List (Voice D S)} :
    ∀ {i : Nat} (hi : i < vs.length), vs[i].active = false → finished vs (vs.set i w) = [] := by
  have hself : ∀ vs : List (Voice D S), finished vs vs = [] := by
    intro vs
    induction vs with
    | nil => rfl
    | cons v vs ih => rw [finished_cons, Bool.and_not_self, if_neg Bool.false_ne_true, ih]
  induction vs with
  | nil => exact fun hi => absurd hi (Nat.not_lt_zero _)
  | cons v vs ih =>
    intro i hi hv
    cases i with
    | zero =>
      have hinactive : v.active = false := hv
      rw [List.set_cons_zero, finished_cons, hinactive, Bool.false_and,
        if_neg Bool.false_ne_true, hself]
    | succ i =>
      rw [List.set_cons_succ, finished_cons, Bool.and_not_self, if_neg Bool.false_ne_true]
      exact ih (Nat.lt_of_succ_lt_succ hi) hv

/-- A slot without an unreported end, taken by a voice without one. -/
theorem unreported_set {w : Voice D S} (hw : w.justEnded = false) {vs : List (Voice D S)} :
    ∀ {i : Nat} (hi : i < vs.length), vs[i].justEnded = false →
      unreported (vs.set i w) = unreported vs := by
  induction vs with
  | nil => exact fun hi => absurd hi (Nat.not_lt_zero _)
  | cons v vs ih =>
    intro i hi hv
    cases i with
    | zero =>
      have hclean : v.justEnded = false := hv
      rw [List.set_cons_zero, unreported_cons, unreported_cons, hw, hclean]
      rfl
    | succ i =>
      rw [List.set_cons_succ, unreported_cons, unreported_cons,
        ih (Nat.lt_of_succ_lt_succ hi) hv]

theorem exclusive_set {w : Voice D S} (hw : w.justEnded = false) {vs : List (Voice D S)}
    (h : Exclusive vs) (i : Nat) : Exclusive (vs.set i w) := by
  intro v hv hactive
  rcases List.mem_or_eq_of_mem_set hv with hmem | rfl
  · exact h v hmem hactive
  · exact hw

/-- As long as a slot is free, a note-on takes a free one. -/
theorem targetSlot_of_free {vs : List (Voice D S)} (h : ∃ v ∈ vs, v.active = false) :
    ∃ hi : SineEngine.targetSlot vs < vs.length,
      vs[SineEngine.targetSlot vs].active = false := by
  obtain ⟨v, hv, hfree⟩ := h
  unfold SineEngine.targetSlot
  split
  · rename_i i hsome
    obtain ⟨hi, hactive, -⟩ := List.findIdx?_eq_some_iff_getElem.mp hsome
    exact ⟨hi, (Bool.not_eq_true' _).mp hactive⟩
  · rename_i hnone
    have hall := List.findIdx?_eq_none_iff.mp hnone v hv
    rw [hfree] at hall
    cases hall

end Voices

/-! ## What a call does to the voices -/

section Engine

variable {D S : Type} [DoubleOps D] [FloatOps S] [FloatCast D S]

open SineEngine

omit [DoubleOps D] [FloatOps S] in
theorem modulateVoice_moves (key channel noteId : Int) (amount : D) (v : Voice D S) :
    VoiceMoves v (modulateVoice key channel noteId amount v) := by
  unfold modulateVoice
  split
  · exact ⟨rfl, .inl ⟨rfl, rfl⟩⟩
  · exact VoiceMoves.refl v

omit [DoubleOps D] [FloatOps S] [FloatCast D S] in
theorem releaseVoice_moves (key channel noteId : Int) (choke : Bool) (v : Voice D S) :
    VoiceMoves v (releaseVoice key channel noteId choke v) := by
  unfold releaseVoice
  split
  · rename_i hmatch
    split
    · exact ⟨rfl, .inr ⟨(Bool.and_eq_true_iff.mp hmatch).1, rfl, rfl⟩⟩
    · exact ⟨rfl, .inl ⟨rfl, rfl⟩⟩
  · exact VoiceMoves.refl v

theorem voiceFrame_moves (level : S) (v : Voice D S) (hv : v.active = true) :
    VoiceMoves v (voiceFrame level v).1 := by
  unfold voiceFrame
  dsimp only
  split_ifs
  · exact ⟨rfl, .inr ⟨hv, rfl, rfl⟩⟩
  · exact ⟨rfl, .inl ⟨rfl, rfl⟩⟩
  · exact ⟨rfl, .inl ⟨rfl, rfl⟩⟩

theorem voiceSamples_moves (level : S) (count : Nat) :
    ∀ v : Voice D S, v.active = true → VoiceMoves v (voiceSamples level count v).1 := by
  induction count with
  | zero => exact fun v _ => VoiceMoves.refl v
  | succ count ih =>
    intro v hv
    have hmoves := voiceFrame_moves level v hv
    have hframe := voiceFrame_active level v hv
    rw [voiceSamples]
    revert hmoves hframe
    rcases voiceFrame level v with ⟨w, _ | x⟩
    · exact fun hmoves _ => hmoves
    · exact fun hmoves hgo => hmoves.trans_active hgo (ih w hgo)

theorem voiceChunk_moves (gain globalMod : S) (count : Nat) (v : Voice D S) :
    VoiceMoves v (voiceChunk gain globalMod count v).1 := by
  unfold voiceChunk
  split
  · rename_i hv
    exact voiceSamples_moves _ count v hv
  · exact VoiceMoves.refl v

/-- The events that start a note: NOTE_ON, and a MIDI note-on with a velocity. -/
def startsNote (header : Event D) : Bool :=
  header.isCore && match header.body with
    | .noteOn _ => true
    | .midi m => decide (m.data0 &&& 0xF0 = 0x90 ∧ 0 < m.data2)
    | _ => false

theorem handleEvent_starts (e : SineEngine D S) {header : Event D}
    (h : startsNote header = true) :
    ∃ key channel noteId velocity, e.handleEvent header = e.noteOn key channel noteId velocity := by
  obtain ⟨hcore, hbody⟩ := Bool.and_eq_true_iff.mp h
  unfold SineEngine.handleEvent
  rw [hcore, Bool.not_true, if_neg Bool.false_ne_true]
  split at hbody
  · rename_i n hn
    rw [hn]
    exact ⟨_, _, _, _, rfl⟩
  · rename_i m hm
    rw [hm]
    exact ⟨_, _, _, _, if_pos (of_decide_eq_true hbody)⟩
  · cases hbody

/-- Any other event releases voices, or does nothing. -/
theorem handleEvent_stops (e : SineEngine D S) {header : Event D}
    (h : startsNote header = false) :
    e.handleEvent header = e ∨
      ∃ key channel noteId choke, e.handleEvent header = e.noteOff key channel noteId choke := by
  unfold startsNote at h
  unfold SineEngine.handleEvent
  cases hcore : header.isCore with
  | false => exact .inl rfl
  | true =>
    rw [hcore, Bool.true_and] at h
    rw [Bool.not_true, if_neg Bool.false_ne_true]
    split at h
    · cases h
    · rename_i m hm
      rw [hm]
      show e.handleMidi m = e ∨ ∃ key channel noteId choke, e.handleMidi m = _
      unfold handleMidi
      dsimp only
      rw [if_neg (of_decide_eq_false h)]
      split
      · exact .inr ⟨_, _, _, _, rfl⟩
      · exact .inl rfl
    · rename_i hon hmidi
      split
      · exact absurd ‹_› (hon _)
      · exact .inr ⟨_, _, _, _, rfl⟩
      · exact .inr ⟨_, _, _, _, rfl⟩
      · exact absurd ‹_› (hmidi _)
      · exact .inl rfl

theorem handleEvent_moves (e : SineEngine D S) {header : Event D}
    (h : startsNote header = false) :
    ∃ f, (∀ v, VoiceMoves v (f v)) ∧ (e.handleEvent header).voices = e.voices.map f := by
  rcases handleEvent_stops e h with hsame | ⟨key, channel, noteId, choke, hoff⟩
  · rw [hsame]
    exact ⟨id, VoiceMoves.refl, (List.map_id _).symm⟩
  · rw [hoff]
    exact ⟨_, releaseVoice_moves key channel noteId choke, rfl⟩

/-! ## Runs of the engine -/

/-- The calls of `SineEngine`'s interface but `setSampleRate` and `reset`. -/
inductive EngineCall (D S : Type) where
  | handleEvent (header : Event D)
  | modulate (key channel noteId : Int) (amount : D)
  | renderFloat (left : Ptr) (right : Option Ptr) (offset frames : Nat) (gain : S)
  | renderDouble (left : Ptr) (right : Option Ptr) (offset frames : Nat) (gain : S)
  | emitNoteEnds (time : Nat)

def EngineCall.startsNote : EngineCall D S → Bool
  | .handleEvent header => Cvp.startsNote header
  | _ => false

def EngineCall.reports : EngineCall D S → Bool
  | .emitNoteEnds _ => true
  | _ => false

/-- The engine and the channel memory behind a call, and the events it pushes. -/
def EngineCall.perform (e : SineEngine D S) (memory : AudioMemory D S) :
    EngineCall D S → SineEngine D S × AudioMemory D S × List (Event D)
  | .handleEvent header => (e.handleEvent header, memory, [])
  | .modulate key channel noteId amount => (e.modulate key channel noteId amount, memory, [])
  | .renderFloat left right offset frames gain =>
    let rendered := e.renderImpl left right offset frames gain memory.f32
    (rendered.1, { memory with f32 := rendered.2 }, [])
  | .renderDouble left right offset frames gain =>
    let rendered := e.renderImpl left right offset frames gain memory.f64
    (rendered.1, { memory with f64 := rendered.2 }, [])
  | .emitNoteEnds time => ((e.emitNoteEnds time).1, memory, (e.emitNoteEnds time).2)

/-- The engine with the books someone outside keeps: the notes started, the voices that have
    finished since the last `emitNoteEnds`, and the events pushed. -/
structure EngineSession (D S : Type) where
  engine : SineEngine D S
  memory : AudioMemory D S
  noteOns : Nat
  owed : List NoteAddress
  emitted : Nat

def EngineSession.start (e : SineEngine D S) (memory : AudioMemory D S) : EngineSession D S :=
  { engine := e.reset, memory := memory, noteOns := 0, owed := [], emitted := 0 }

def engineStep : Step (EngineSession D S) (EngineCall D S) (List (Event D)) Fault := fun s call =>
  let (engine, memory, ends) := call.perform s.engine s.memory
  .ok ({ engine := engine
         memory := memory
         noteOns := s.noteOns + if call.startsNote then 1 else 0
         owed :=
          if call.reports then [] else s.owed ++ finished s.engine.voices engine.voices
         emitted := s.emitted + ends.length }, ends)

/-- What a call does to the voices: it puts a fresh one into the target slot, it clears the
    flags of the reported ones, or each voice moves on its own. -/
theorem perform_cases (e : SineEngine D S) (memory : AudioMemory D S) (call : EngineCall D S) :
    (call.startsNote = true ∧ call.reports = false ∧ (call.perform e memory).2.2 = [] ∧
      ∃ w : Voice D S, w.active = true ∧ w.justEnded = false ∧
        (call.perform e memory).1.voices = e.voices.set (targetSlot e.voices) w) ∨
    (∃ time, call = .emitNoteEnds time) ∨
    (call.startsNote = false ∧ call.reports = false ∧ (call.perform e memory).2.2 = [] ∧
      ∃ f, (∀ v, VoiceMoves v (f v)) ∧
        (call.perform e memory).1.voices = e.voices.map f) := by
  cases call with
  | handleEvent header =>
    cases hstarts : Cvp.startsNote header with
    | true =>
      obtain ⟨key, channel, noteId, velocity, hon⟩ := handleEvent_starts e hstarts
      refine .inl ⟨hstarts, rfl, rfl, e.newVoice key channel noteId velocity, rfl, rfl, ?_⟩
      exact congrArg SineEngine.voices hon
    | false => exact .inr (.inr ⟨hstarts, rfl, rfl, handleEvent_moves e hstarts⟩)
  | modulate key channel noteId amount =>
    refine .inr (.inr ⟨rfl, rfl, rfl, ?_⟩)
    show ∃ f, _ ∧ (e.modulate key channel noteId amount).voices = _
    unfold SineEngine.modulate
    split
    · exact ⟨id, VoiceMoves.refl, (List.map_id _).symm⟩
    · exact ⟨_, modulateVoice_moves key channel noteId amount, rfl⟩
  | renderFloat left right offset frames gain =>
    exact .inr (.inr ⟨rfl, rfl, rfl, _, voiceChunk_moves gain e.globalMod _,
      renderVoices_fst left right gain e.globalMod offset _ e.voices memory.f32⟩)
  | renderDouble left right offset frames gain =>
    exact .inr (.inr ⟨rfl, rfl, rfl, _, voiceChunk_moves gain e.globalMod _,
      renderVoices_fst left right gain e.globalMod offset _ e.voices memory.f64⟩)
  | emitNoteEnds time => exact .inr (.inl ⟨time, rfl⟩)

/-! ## The books -/

/-- Notes started, against active, ended and reported voices. -/
def EngineSession.Balanced (s : EngineSession D S) : Prop :=
  s.noteOns = s.engine.voices.countP (·.active) + s.engine.voices.countP (·.justEnded) + s.emitted

/-- The address a NOTE_END carries. -/
def noteEndAddress (e : Event D) : Option NoteAddress :=
  if e.isCore then
    match e.body with
    | .noteEnd n => some { key := n.key, channel := n.channel, noteId := n.noteId }
    | _ => none
  else none

/-- The books balance after the call, and a report has one NOTE_END for each voice that has
    finished since the last one. -/
def EndsKept (s : EngineSession D S) (call : EngineCall D S) (s' : EngineSession D S)
    (ends : List (Event D)) : Prop :=
  s'.Balanced ∧ (call.reports = true → (ends.map noteEndAddress).Perm (s.owed.map some))

/-- A note-on finds a slot that is not active. -/
def NoSteal (s : EngineSession D S) (call : EngineCall D S) (_ : EngineSession D S)
    (_ : List (Event D)) : Prop :=
  call.startsNote = true → ∃ v ∈ s.engine.voices, v.active = false

/-- A note-on takes a slot whose last voice has been reported. -/
def TakesReportedSlot (s : EngineSession D S) (call : EngineCall D S) (_ : EngineSession D S)
    (_ : List (Event D)) : Prop :=
  call.startsNote = true →
    ∀ v, s.engine.voices[targetSlot s.engine.voices]? = some v → v.justEnded = false

/-- What holds of the books as long as no unreported end is lost. -/
structure LedgerInv (s : EngineSession D S) : Prop where
  exclusive : Exclusive s.engine.voices
  owed : (unreported s.engine.voices).Perm s.owed
  balanced : s.Balanced

omit [FloatCast D S] in
theorem LedgerInv.start (e : SineEngine D S) (memory : AudioMemory D S) :
    LedgerInv (EngineSession.start e memory) := by
  refine ⟨fun v hv hactive => ?_, .nil, rfl⟩
  have hv' : v ∈ List.replicate kMaxVoices (Voice.init : Voice D S) := hv
  rw [List.eq_of_mem_replicate hv']
  rfl

omit [FloatOps S] [FloatCast D S] in
theorem emitNoteEnds_addresses (e : SineEngine D S) (time : Nat) :
    (e.emitNoteEnds time).2.map noteEndAddress = (unreported e.voices).map some := by
  unfold SineEngine.emitNoteEnds unreported
  rw [List.map_map, List.map_map]
  rfl

/-- A report settles the books. -/
theorem LedgerInv.emit {s : EngineSession D S} (h : LedgerInv s) (time : Nat) {s' ends}
    (hs : engineStep s (.emitNoteEnds time) = .ok (s', ends)) :
    EndsKept s (.emitNoteEnds time) s' ends ∧ LedgerInv s' := by
  have hflags : (s.engine.voices.map fun v => { v with justEnded := false }).countP
      (·.justEnded) = 0 := by
    rw [List.countP_map]
    exact List.countP_eq_zero.mpr fun v _ => Bool.false_ne_true
  have hactive : (s.engine.voices.map fun v => { v with justEnded := false }).countP
      (·.active) = s.engine.voices.countP (·.active) := List.countP_map
  have hends : (s.engine.emitNoteEnds time).2.length = s.engine.voices.countP (·.justEnded) := by
    rw [← List.length_map noteEndAddress, emitNoteEnds_addresses, List.length_map,
      length_unreported]
  have hbooks : s.noteOns + 0 =
      (s.engine.voices.map fun v => { v with justEnded := false }).countP (·.active) +
      (s.engine.voices.map fun v => { v with justEnded := false }).countP (·.justEnded) +
      (s.emitted + (s.engine.emitNoteEnds time).2.length) := by
    rw [hflags, hactive, hends, h.balanced]
    omega
  cases hs
  refine ⟨⟨hbooks, fun _ => ?_⟩, ⟨?_, ?_, hbooks⟩⟩
  · show ((s.engine.emitNoteEnds time).2.map noteEndAddress).Perm (s.owed.map some)
    rw [emitNoteEnds_addresses]
    exact h.owed.map some
  · intro w hw _
    obtain ⟨v, -, rfl⟩ := List.mem_map.mp hw
    rfl
  · have hnone : unreported (s.engine.voices.map fun v => { v with justEnded := false }) = [] :=
      List.length_eq_zero_iff.mp ((length_unreported _).trans hflags)
    show (unreported (s.engine.voices.map fun v => { v with justEnded := false })).Perm []
    rw [hnone]

/-- A call that moves each voice on its own. -/
theorem LedgerInv.move {s : EngineSession D S} (h : LedgerInv s) {call : EngineCall D S} {s' ends}
    (hstarts : call.startsNote = false) (hreports : call.reports = false)
    (hnone : (call.perform s.engine s.memory).2.2 = [])
    (hmap : ∃ f, (∀ v, VoiceMoves v (f v)) ∧
      (call.perform s.engine s.memory).1.voices = s.engine.voices.map f)
    (hs : engineStep s call = .ok (s', ends)) :
    EndsKept s call s' ends ∧ LedgerInv s' := by
  obtain ⟨f, hf, hvoices⟩ := hmap
  cases hs
  have hbooks : s.noteOns + (if call.startsNote then 1 else 0) =
      (call.perform s.engine s.memory).1.voices.countP (·.active) +
      (call.perform s.engine s.memory).1.voices.countP (·.justEnded) +
      (s.emitted + (call.perform s.engine s.memory).2.2.length) := by
    rw [hstarts, hnone, hvoices, count_map hf h.exclusive, h.balanced]
    rfl
  refine ⟨⟨hbooks, fun hreport => ?_⟩, ⟨?_, ?_, hbooks⟩⟩
  · rw [hreports] at hreport
    cases hreport
  · show Exclusive (call.perform s.engine s.memory).1.voices
    rw [hvoices]
    exact exclusive_map hf h.exclusive
  · show (unreported (call.perform s.engine s.memory).1.voices).Perm
      (if call.reports then [] else
        s.owed ++ finished s.engine.voices (call.perform s.engine s.memory).1.voices)
    rw [hvoices, hreports]
    exact (unreported_map hf h.exclusive).trans (h.owed.append_right _)

/-- A note-on keeps the books if, and only if, its slot holds no unreported end. -/
theorem LedgerInv.noteOn {s : EngineSession D S} (h : LedgerInv s) {call : EngineCall D S}
    {s' ends} (hstarts : call.startsNote = true) (hreports : call.reports = false)
    (hnone : (call.perform s.engine s.memory).2.2 = [])
    (hset : ∃ w : Voice D S, w.active = true ∧ w.justEnded = false ∧
      (call.perform s.engine s.memory).1.voices =
        s.engine.voices.set (targetSlot s.engine.voices) w)
    (hfree : ∃ v ∈ s.engine.voices, v.active = false)
    (hs : engineStep s call = .ok (s', ends)) :
    (EndsKept s call s' ends ↔ TakesReportedSlot s call s' ends) ∧
      (TakesReportedSlot s call s' ends → LedgerInv s') := by
  obtain ⟨w, hactive, hended, hvoices⟩ := hset
  obtain ⟨hi, hslot⟩ := targetSlot_of_free hfree
  have hslot? : s.engine.voices[targetSlot s.engine.voices]? =
      some s.engine.voices[targetSlot s.engine.voices] := List.getElem?_eq_getElem hi
  have hclean : TakesReportedSlot s call s' ends ↔
      s.engine.voices[targetSlot s.engine.voices].justEnded = false :=
    ⟨fun h => h hstarts _ hslot?, fun h _ v hv => by
      rw [hslot?] at hv
      cases hv
      exact h⟩
  cases hs
  have hbalanced : (s.noteOns + (if call.startsNote then 1 else 0) =
      (call.perform s.engine s.memory).1.voices.countP (·.active) +
      (call.perform s.engine s.memory).1.voices.countP (·.justEnded) +
      (s.emitted + (call.perform s.engine s.memory).2.2.length)) ↔
      s.engine.voices[targetSlot s.engine.voices].justEnded = false := by
    have hbooks := h.balanced
    unfold EngineSession.Balanced at hbooks
    rw [hstarts, hnone, hvoices, List.countP_set hi, List.countP_set hi, hslot, hactive, hended,
      if_pos rfl, if_neg Bool.false_ne_true, List.length_nil]
    cases hflag : s.engine.voices[targetSlot s.engine.voices].justEnded with
    | false =>
      rw [if_neg Bool.false_ne_true]
      exact ⟨fun _ => rfl, fun _ => by omega⟩
    | true =>
      have hpos : 0 < s.engine.voices.countP (·.justEnded) :=
        List.countP_pos_iff.mpr ⟨_, List.getElem_mem hi, hflag⟩
      rw [if_pos rfl]
      exact ⟨fun heq => by omega, nofun⟩
  refine ⟨Iff.trans ⟨fun h => h.1, fun h => ⟨h, fun hreport => ?_⟩⟩ (hbalanced.trans hclean.symm),
    fun hq => ?_⟩
  · rw [hreports] at hreport
    cases hreport
  · refine ⟨?_, ?_, hbalanced.mpr (hclean.mp hq)⟩
    · show Exclusive (call.perform s.engine s.memory).1.voices
      rw [hvoices]
      exact exclusive_set hended h.exclusive _
    · show (unreported (call.perform s.engine s.memory).1.voices).Perm
        (if call.reports then [] else
          s.owed ++ finished s.engine.voices (call.perform s.engine s.memory).1.voices)
      rw [hvoices, hreports, if_neg Bool.false_ne_true, finished_set hi hslot, List.append_nil,
        unreported_set hended hi (hclean.mp hq)]
      exact h.owed

/-- One call: the books stay right exactly if a note-on takes a reported slot, and then the
    invariant goes on. -/
theorem LedgerInv.step {s : EngineSession D S} (h : LedgerInv s) {call : EngineCall D S} {s' ends}
    (hs : engineStep s call = .ok (s', ends)) (hsteal : NoSteal s call s' ends) :
    (EndsKept s call s' ends ↔ TakesReportedSlot s call s' ends) ∧
      (TakesReportedSlot s call s' ends → LedgerInv s') := by
  have hvacuous : call.startsNote = false → TakesReportedSlot s call s' ends := by
    intro hno hyes
    rw [hno] at hyes
    cases hyes
  rcases perform_cases s.engine s.memory call with ⟨hstarts, hreports, hnone, hset⟩ |
    ⟨time, rfl⟩ | ⟨hstarts, hreports, hnone, hmap⟩
  · exact h.noteOn hstarts hreports hnone hset (hsteal hstarts) hs
  · obtain ⟨hkept, hinv⟩ := h.emit time hs
    exact ⟨⟨fun _ => hvacuous rfl, fun _ => hkept⟩, fun _ => hinv⟩
  · obtain ⟨hkept, hinv⟩ := h.move hstarts hreports hnone hmap hs
    exact ⟨⟨fun _ => hvacuous hstarts, fun _ => hkept⟩, fun _ => hinv⟩

/-- Over a run that steals no active voice, every voice that finishes gets its one NOTE_END, and
    the books balance after every call, exactly if each note-on takes a slot whose last voice
    has been reported. -/
theorem noteEnds_kept_iff (e : SineEngine D S) (memory : AudioMemory D S)
    (calls : List (EngineCall D S))
    (hsteal : AllSteps engineStep NoSteal (EngineSession.start e memory) calls) :
    AllSteps engineStep EndsKept (EngineSession.start e memory) calls ↔
      AllSteps engineStep TakesReportedSlot (EngineSession.start e memory) calls :=
  allSteps_iff (fun _ _ _ _ h hs hfree => (h.step hs hfree).1)
    (fun _ _ _ _ h hs hfree => (h.step hs hfree).2) (LedgerInv.start e memory) hsteal

end Engine

/-- A note on key `key`. -/
def noteOf (key : Int) : NoteEvent ExactFloat :=
  { noteId := key, channel := 0, key := key, velocity := 1 }

def noteCall (body : EventBody ExactFloat) : EngineCall ExactFloat ExactFloat :=
  .handleEvent { size := sizeofNote, time := 0, body := body }

def silentMemory : AudioMemory ExactFloat ExactFloat := { f32 := fun _ _ => 0, f64 := fun _ _ => 0 }

theorem noteEnds_kept_iff_choke :
    AllSteps engineStep EndsKept (EngineSession.start SineEngine.create silentMemory)
      [noteCall (.noteOn (noteOf 60)), noteCall (.noteChoke (noteOf 60)), .emitNoteEnds 0] ↔
    AllSteps engineStep TakesReportedSlot (EngineSession.start SineEngine.create silentMemory)
      [noteCall (.noteOn (noteOf 60)), noteCall (.noteChoke (noteOf 60)), .emitNoteEnds 0] := by
  refine noteEnds_kept_iff SineEngine.create silentMemory _ fun s₁ o₁ h₁ => ?_
  cases h₁
  refine ⟨fun _ => ⟨Voice.init, List.mem_cons_self, rfl⟩, fun s₂ o₂ h₂ => ?_⟩
  cases h₂
  refine ⟨nofun, fun s₃ o₃ h₃ => ?_⟩
  cases h₃
  exact ⟨nofun, trivial⟩

/-- A note-on, a choke and a note-on before the report: the second note takes the slot of the
    first one and its end is lost, although seven slots are free. -/
theorem noteEnds_lost :
    AllSteps engineStep NoSteal (EngineSession.start SineEngine.create silentMemory)
      [noteCall (.noteOn (noteOf 60)), noteCall (.noteChoke (noteOf 60)),
        noteCall (.noteOn (noteOf 62)), .emitNoteEnds 0] ∧
    ¬ AllSteps engineStep EndsKept (EngineSession.start SineEngine.create silentMemory)
      [noteCall (.noteOn (noteOf 60)), noteCall (.noteChoke (noteOf 60)),
        noteCall (.noteOn (noteOf 62)), .emitNoteEnds 0] := by
  constructor
  · intro s₁ o₁ h₁
    cases h₁
    refine ⟨fun _ => ⟨Voice.init, List.mem_cons_self, rfl⟩, fun s₂ o₂ h₂ => ?_⟩
    cases h₂
    refine ⟨nofun, fun s₃ o₃ h₃ => ?_⟩
    cases h₃
    refine ⟨fun _ => ⟨Voice.init, List.mem_cons_of_mem _ List.mem_cons_self, rfl⟩,
      fun s₄ o₄ h₄ => ?_⟩
    cases h₄
    exact ⟨nofun, trivial⟩
  · intro h
    have hkept := ((((h _ _ rfl).2 _ _ rfl).2 _ _ rfl).2 _ _ rfl).1.2 rfl
    have hlength := hkept.length_eq
    cases hlength

end Cvp
