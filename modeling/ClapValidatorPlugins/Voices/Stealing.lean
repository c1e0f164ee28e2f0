/-
  Which voice a note-on takes, over whole runs since a reset. `noteOn` steals the voice of least
  age, and age is the 32-bit clock at the voice's note-on. So it is the oldest voice as long as the
  clock has not come round between the note-ons of the voices that sound (`steals_oldest_iff`),
  and always within the first 2^32 note-ons (`steals_oldest_of_few`).
-/
import ClapValidatorPlugins.Voices.Ledger
import Mathlib.Data.Finset.Max

namespace Cvp

open Machine

section Voices

variable {D S : Type}

/-! ## The least age -/

/-- The search goes on from the first of the least ages in front. -/
theorem oldestFrom_eq (vs : List (Voice D S)) : ∀ (front : List (Voice D S)) (h : front ≠ []),
    SineEngine.oldestFrom (front.minIdxOn Voice.age h) (front.minOn Voice.age h).age front.length
        vs =
      (front ++ vs).minIdxOn Voice.age (List.append_ne_nil_of_left_ne_nil h vs) := by
  induction vs with
  | nil =>
    intro front h
    simp only [List.append_nil]
    rfl
  | cons v vs ih =>
    intro front h
    have hnext := ih (front ++ [v]) (List.append_ne_nil_of_left_ne_nil h [v])
    simp only [List.append_assoc, List.singleton_append] at hnext
    rw [← hnext, SineEngine.oldestFrom, List.minIdxOn_append h (List.cons_ne_nil v []),
      List.minOn_append h (List.cons_ne_nil v []), List.minOn_singleton, List.minIdxOn_singleton,
      List.length_append]
    by_cases hv : v.age < (front.minOn Voice.age h).age
    · rw [if_pos hv, if_neg (UInt32.not_le.mpr hv), minOn_eq_right_of_lt hv]
      rfl
    · rw [if_neg hv, if_pos (UInt32.not_lt.mp hv), minOn_eq_left (UInt32.not_lt.mp hv)]
      rfl

theorem oldest_eq {vs : List (Voice D S)} (h : vs ≠ []) :
    SineEngine.oldest vs = vs.minIdxOn Voice.age h := by
  cases vs with
  | nil => exact absurd rfl h
  | cons v vs =>
    have hfirst := oldestFrom_eq vs [v] (List.cons_ne_nil v [])
    rw [List.minIdxOn_singleton, List.minOn_singleton] at hfirst
    show SineEngine.oldestFrom 0 v.age 0 (v :: vs) = _
    rw [SineEngine.oldestFrom, if_neg (UInt32.lt_irrefl v.age)]
    exact hfirst

/-- While every slot is active, the slot of the least age, the first one of them. -/
theorem targetSlot_of_full {vs : List (Voice D S)} (h : vs ≠ [])
    (hfull : ∀ v ∈ vs, v.active = true) {i : Nat} :
    SineEngine.targetSlot vs = i ↔
      ∃ hi : i < vs.length, (∀ j (_ : j < vs.length), vs[i].age ≤ vs[j].age) ∧
        ∀ j (_ : j < i), vs[i].age < vs[j].age := by
  have hnone : vs.findIdx? (fun v => !v.active) = none :=
    List.findIdx?_eq_none_iff.mpr fun v hv => by rw [hfull v hv]; rfl
  unfold SineEngine.targetSlot
  rw [hnone]
  dsimp only
  rw [oldest_eq h]
  exact List.minIdxOn_eq_iff h

end Voices

/-! ## What a call does to the ages -/

section Engine

variable {D S : Type} [DoubleOps D] [FloatOps S] [FloatCast D S]

open SineEngine

/-- A voice that is not replaced keeps its age, and no voice wakes up. -/
def KeepsAge (v w : Voice D S) : Prop := w.age = v.age ∧ (w.active = true → v.active = true)

omit [DoubleOps D] [FloatOps S] [FloatCast D S] in
theorem KeepsAge.refl (v : Voice D S) : KeepsAge v v := ⟨rfl, id⟩

omit [DoubleOps D] [FloatOps S] in
theorem modulateVoice_age (key channel noteId : Int) (amount : D) (v : Voice D S) :
    KeepsAge v (modulateVoice key channel noteId amount v) := by
  unfold modulateVoice
  split
  · exact ⟨rfl, id⟩
  · exact KeepsAge.refl v

omit [DoubleOps D] [FloatOps S] [FloatCast D S] in
theorem releaseVoice_age (key channel noteId : Int) (choke : Bool) (v : Voice D S) :
    KeepsAge v (releaseVoice key channel noteId choke v) := by
  unfold releaseVoice
  split
  · split
    · exact ⟨rfl, nofun⟩
    · exact ⟨rfl, id⟩
  · exact KeepsAge.refl v

theorem voiceFrame_age (level : S) (v : Voice D S) : KeepsAge v (voiceFrame level v).1 := by
  unfold voiceFrame
  dsimp only
  split_ifs
  · exact ⟨rfl, nofun⟩
  · exact ⟨rfl, id⟩
  · exact ⟨rfl, id⟩

theorem voiceSamples_age (level : S) (count : Nat) :
    ∀ v : Voice D S, KeepsAge v (voiceSamples level count v).1 := by
  induction count with
  | zero => exact KeepsAge.refl
  | succ count ih =>
    intro v
    have hframe := voiceFrame_age level v
    rw [voiceSamples]
    revert hframe
    rcases voiceFrame level v with ⟨w, _ | x⟩
    · exact id
    · exact fun hframe => ⟨(ih w).1.trans hframe.1, fun h => hframe.2 ((ih w).2 h)⟩

theorem voiceChunk_age (gain globalMod : S) (count : Nat) (v : Voice D S) :
    KeepsAge v (voiceChunk gain globalMod count v).1 := by
  unfold voiceChunk
  split
  · exact voiceSamples_age _ count v
  · exact KeepsAge.refl v

/-- A call that starts a note puts the clock into the target slot and moves it on. -/
theorem perform_starts (e : SineEngine D S) (memory : AudioMemory D S) {call : EngineCall D S}
    (h : call.startsNote = true) :
    (call.perform e memory).1.clock = e.clock + 1 ∧
      ∃ w : Voice D S, w.active = true ∧ w.age = e.clock ∧
        (call.perform e memory).1.voices = e.voices.set (targetSlot e.voices) w := by
  cases call with
  | handleEvent header =>
    obtain ⟨key, channel, noteId, velocity, hon⟩ := handleEvent_starts e h
    show (e.handleEvent header).clock = _ ∧ ∃ w : Voice D S, _ ∧ _ ∧
      (e.handleEvent header).voices = _
    rw [hon]
    exact ⟨rfl, e.newVoice key channel noteId velocity, rfl, rfl, rfl⟩
  | modulate _ _ _ _ | renderFloat _ _ _ _ _ | renderDouble _ _ _ _ _ | emitNoteEnds _ => cases h

/-- Any other call leaves the clock and all ages alone. -/
theorem perform_keeps (e : SineEngine D S) (memory : AudioMemory D S) {call : EngineCall D S}
    (h : call.startsNote = false) :
    (call.perform e memory).1.clock = e.clock ∧
      ∃ f, (∀ v, KeepsAge v (f v)) ∧ (call.perform e memory).1.voices = e.voices.map f := by
  have hsame : ∃ f : Voice D S → Voice D S, (∀ v, KeepsAge v (f v)) ∧
      e.voices = e.voices.map f := ⟨id, KeepsAge.refl, (List.map_id _).symm⟩
  cases call with
  | handleEvent header =>
    show (e.handleEvent header).clock = _ ∧ ∃ f, _ ∧ (e.handleEvent header).voices = _
    rcases handleEvent_stops e h with hnone | ⟨key, channel, noteId, choke, hoff⟩
    · rw [hnone]
      exact ⟨rfl, hsame⟩
    · rw [hoff]
      exact ⟨rfl, _, releaseVoice_age key channel noteId choke, rfl⟩
  | modulate key channel noteId amount =>
    show (e.modulate key channel noteId amount).clock = _ ∧
      ∃ f, _ ∧ (e.modulate key channel noteId amount).voices = _
    unfold SineEngine.modulate
    split
    · exact ⟨rfl, hsame⟩
    · exact ⟨rfl, _, modulateVoice_age key channel noteId amount, rfl⟩
  | renderFloat left right offset frames gain =>
    exact ⟨rfl, _, voiceChunk_age gain e.globalMod _,
      renderVoices_fst left right gain e.globalMod offset _ e.voices memory.f32⟩
  | renderDouble left right offset frames gain =>
    exact ⟨rfl, _, voiceChunk_age gain e.globalMod _,
      renderVoices_fst left right gain e.globalMod offset _ e.voices memory.f64⟩
  | emitNoteEnds time =>
    exact ⟨rfl, fun v => { v with justEnded := false }, fun v => ⟨rfl, id⟩, rfl⟩

/-! ## Runs between two resets -/

/-- Every call of the engine's interface but `reset`. -/
inductive VoiceCall (D S : Type) where
  | engine (call : EngineCall D S)
  | setSampleRate (sampleRate : D)

def VoiceCall.startsNote : VoiceCall D S → Bool
  | .engine call => call.startsNote
  | .setSampleRate _ => false

/-- The engine with a count of the note-ons, and for each slot how many came before the one that
    took it last. -/
structure VoiceSession (D S : Type) where
  engine : SineEngine D S
  memory : AudioMemory D S
  noteOns : Nat
  started : Nat → Nat

def VoiceSession.start (e : SineEngine D S) (memory : AudioMemory D S) : VoiceSession D S :=
  { engine := e.reset, memory := memory, noteOns := 0, started := fun _ => 0 }

/-- The next session; a note-on is entered for the slot it takes. -/
def voiceStep : Step (VoiceSession D S) (VoiceCall D S) (List (Event D)) Fault
  | s, .engine call =>
    let (engine, memory, ends) := call.perform s.engine s.memory
    if call.startsNote then
      .ok ({ engine := engine, memory := memory, noteOns := s.noteOns + 1
             started := Function.update s.started (targetSlot s.engine.voices) s.noteOns }, ends)
    else .ok ({ s with engine := engine, memory := memory }, ends)
  | s, .setSampleRate sampleRate =>
    .ok ({ s with engine := s.engine.setSampleRate sampleRate }, [])

/-- Slot `i` was taken before all others. -/
def Earliest (started : Nat → Nat) (i : Nat) : Prop :=
  i < kMaxVoices ∧ ∀ j < kMaxVoices, j ≠ i → started i < started j

/-- A note-on changes no slot but the target. With all voices active that is the one whose note-on
    came first; as long as a voice is inactive the target is. -/
def TakesOldest (s : VoiceSession D S) (call : VoiceCall D S) (s' : VoiceSession D S)
    (_ : List (Event D)) : Prop :=
  call.startsNote = true →
    (∃ w : Voice D S, w.active = true ∧
      s'.engine.voices = s.engine.voices.set (targetSlot s.engine.voices) w) ∧
    ((∀ v ∈ s.engine.voices, v.active = true) →
      Earliest s.started (targetSlot s.engine.voices)) ∧
    ((∃ v ∈ s.engine.voices, v.active = false) →
      ∃ v, s.engine.voices[targetSlot s.engine.voices]? = some v ∧ v.active = false)

/-- At 32 bits, too, the note-on that came first has the least number, or shares it with slots
    behind its own only. -/
def LeastOnClock (started : Nat → Nat) : Prop :=
  ∀ i, Earliest started i → ∀ j < kMaxVoices, j ≠ i →
    started i % 2 ^ 32 < started j % 2 ^ 32 ∨
      (started i % 2 ^ 32 = started j % 2 ^ 32 ∧ i < j)

/-- A note-on that finds all voices active finds the oldest one least on the clock. -/
def ClockInOrder (s : VoiceSession D S) (call : VoiceCall D S) (_ : VoiceSession D S)
    (_ : List (Event D)) : Prop :=
  call.startsNote = true → (∀ v ∈ s.engine.voices, v.active = true) → LeastOnClock s.started

/-! ## The invariant -/

/-- The clock counts the note-ons; an active voice has the clock of its note-on, and no two active
    voices share one. -/
structure AgesInv (s : VoiceSession D S) : Prop where
  clock : s.engine.clock = UInt32.ofNat s.noteOns
  age : ∀ i (_ : i < s.engine.voices.length), s.engine.voices[i].active = true →
    s.engine.voices[i].age = UInt32.ofNat (s.started i)
  before : ∀ i (_ : i < s.engine.voices.length), s.engine.voices[i].active = true →
    s.started i < s.noteOns
  distinct : ∀ i j (_ : i < s.engine.voices.length) (_ : j < s.engine.voices.length),
    s.engine.voices[i].active = true → s.engine.voices[j].active = true →
      s.started i = s.started j → i = j

omit [FloatCast D S] in
theorem VoiceSession.start_idle {e : SineEngine D S} {memory : AudioMemory D S} {v : Voice D S}
    (h : v ∈ (VoiceSession.start e memory).engine.voices) : v.active = false := by
  have hmem : v ∈ List.replicate kMaxVoices (Voice.init : Voice D S) := h
  rw [List.eq_of_mem_replicate hmem]
  rfl

omit [FloatCast D S] in
theorem AgesInv.start (e : SineEngine D S) (memory : AudioMemory D S) :
    AgesInv (VoiceSession.start e memory) := by
  have hidle : ∀ i (_ : i < (VoiceSession.start e memory).engine.voices.length),
      (VoiceSession.start e memory).engine.voices[i].active ≠ true := by
    intro i hi
    rw [VoiceSession.start_idle (List.getElem_mem hi)]
    exact Bool.false_ne_true
  exact ⟨rfl, fun i hi h => absurd h (hidle i hi), fun i hi h => absurd h (hidle i hi),
    fun i _ hi _ h => absurd h (hidle i hi)⟩

omit [DoubleOps D] [FloatOps S] [FloatCast D S] in
/-- A call that starts no note. -/
theorem AgesInv.keeps {s : VoiceSession D S} (h : AgesInv s) {e : SineEngine D S}
    {memory : AudioMemory D S} (hclock : e.clock = s.engine.clock) {f : Voice D S → Voice D S}
    (hf : ∀ v, KeepsAge v (f v)) (hvoices : e.voices = s.engine.voices.map f) :
    AgesInv { s with engine := e, memory := memory } := by
  obtain ⟨voices, slots, sampleRate, clock, globalMod⟩ := e
  dsimp only at hclock hvoices
  subst hvoices
  have hslot : ∀ i (hi : i < (s.engine.voices.map f).length), (s.engine.voices.map f)[i].active =
      true → ∃ hi : i < s.engine.voices.length, s.engine.voices[i].active = true ∧
        (s.engine.voices.map f)[i].age = s.engine.voices[i].age := by
    intro i hi hactive
    rw [List.getElem_map] at hactive ⊢
    rw [List.length_map] at hi
    exact ⟨hi, (hf _).2 hactive, (hf _).1⟩
  refine ⟨hclock.trans h.clock, fun i hi hactive => ?_, fun i hi hactive => ?_,
    fun i j hi hj hactive hactive' => ?_⟩
  · obtain ⟨hi', hwas, hage⟩ := hslot i hi hactive
    exact hage.trans (h.age i hi' hwas)
  · obtain ⟨hi', hwas, -⟩ := hslot i hi hactive
    exact h.before i hi' hwas
  · obtain ⟨hi', hwas, -⟩ := hslot i hi hactive
    obtain ⟨hj', hwas', -⟩ := hslot j hj hactive'
    exact h.distinct i j hi' hj' hwas hwas'

omit [DoubleOps D] [FloatOps S] [FloatCast D S] in
/-- A note-on takes a slot with a number of its own. -/
theorem AgesInv.starts {s : VoiceSession D S} (h : AgesInv s) {e : SineEngine D S}
    {memory : AudioMemory D S} (hclock : e.clock = s.engine.clock + 1) {w : Voice D S}
    (hage : w.age = s.engine.clock) {slot : Nat}
    (hvoices : e.voices = s.engine.voices.set slot w) :
    AgesInv
      { engine := e, memory := memory, noteOns := s.noteOns + 1
        started := Function.update s.started slot s.noteOns } := by
  obtain ⟨voices, slots, sampleRate, clock, globalMod⟩ := e
  dsimp only at hclock hvoices
  subst hvoices
  have hslot : ∀ i (hi : i < (s.engine.voices.set slot w).length),
      (s.engine.voices.set slot w)[i].active = true →
      (i = slot ∧ Function.update s.started slot s.noteOns i = s.noteOns ∧
        (s.engine.voices.set slot w)[i].age = s.engine.clock) ∨
      ∃ hi : i < s.engine.voices.length, s.engine.voices[i].active = true ∧
        Function.update s.started slot s.noteOns i = s.started i ∧
        (s.engine.voices.set slot w)[i].age = s.engine.voices[i].age := by
    intro i hi hactive
    by_cases hslot : slot = i
    · subst hslot
      rw [List.getElem_set_self]
      exact .inl ⟨rfl, Function.update_self .., hage⟩
    · rw [List.getElem_set_ne hslot] at hactive ⊢
      rw [List.length_set] at hi
      exact .inr ⟨hi, hactive, Function.update_of_ne (Ne.symm hslot) .., rfl⟩
  refine ⟨?_, fun i hi hactive => ?_, fun i hi hactive => ?_,
    fun i j hi hj hactive hactive' hsame => ?_⟩
  · show clock = UInt32.ofNat (s.noteOns + 1)
    rw [hclock, h.clock, UInt32.ofNat_add]
    rfl
  · show ((s.engine.voices.set slot w).get ⟨i, hi⟩).age =
      UInt32.ofNat (Function.update s.started slot s.noteOns i)
    rw [List.get_eq_getElem]
    rcases hslot i hi hactive with ⟨-, hstarted, hnow⟩ | ⟨hi', hwas, hstarted, hkept⟩
    · rw [hstarted, hnow, h.clock]
    · rw [hstarted, hkept, h.age i hi' hwas]
  · show Function.update s.started slot s.noteOns i < s.noteOns + 1
    rcases hslot i hi hactive with ⟨-, hstarted, -⟩ | ⟨hi', hwas, hstarted, -⟩
    · rw [hstarted]
      exact Nat.lt_succ_self _
    · rw [hstarted]
      exact Nat.lt_succ_of_lt (h.before i hi' hwas)
  · have hsame' : Function.update s.started slot s.noteOns i =
      Function.update s.started slot s.noteOns j := hsame
    rcases hslot i hi hactive with ⟨hi', hnew, -⟩ | ⟨hi', hwas, hold, -⟩
    · rcases hslot j hj hactive' with ⟨hj', -, -⟩ | ⟨hj', hwas', hold', -⟩
      · exact hi'.trans hj'.symm
      · have hbefore := h.before j hj' hwas'
        omega
    · rcases hslot j hj hactive' with ⟨hj', hnew', -⟩ | ⟨hj', hwas', hold', -⟩
      · have hbefore := h.before i hi' hwas
        omega
      · exact h.distinct i j hi' hj' hwas hwas' (by omega)

theorem AgesInv.step {s s' : VoiceSession D S} (h : AgesInv s) {call : VoiceCall D S}
    {ends : List (Event D)} (hs : voiceStep s call = .ok (s', ends)) : AgesInv s' := by
  cases call with
  | setSampleRate sampleRate =>
    cases hs
    exact ⟨h.clock, h.age, h.before, h.distinct⟩
  | engine call =>
    unfold voiceStep at hs
    dsimp only at hs
    split at hs
    · rename_i hstarts
      obtain ⟨hclock, w, -, hage, hvoices⟩ := perform_starts s.engine s.memory hstarts
      cases hs
      exact h.starts hclock hage hvoices
    · rename_i hstarts
      obtain ⟨hclock, f, hf, hvoices⟩ :=
        perform_keeps s.engine s.memory ((Bool.not_eq_true _).mp hstarts)
      cases hs
      exact h.keeps hclock hf hvoices

/-! ## The oldest voice -/

theorem Earliest.unique {started : Nat → Nat} {i j : Nat} (hi : Earliest started i)
    (hj : Earliest started j) : i = j := by
  by_contra hne
  have hlt := hi.2 j hj.1 (Ne.symm hne)
  have hgt := hj.2 i hi.1 hne
  omega

section Full

variable {s : VoiceSession D S} (h : AgesInv s)
  (hfull : ∀ v ∈ s.engine.voices, v.active = true)

include h hfull

omit [DoubleOps D] [FloatOps S] [FloatCast D S] in
theorem AgesInv.exists_earliest : ∃ i, Earliest s.started i := by
  obtain ⟨i, hi, hleast⟩ := Finset.exists_min_image (Finset.range kMaxVoices) s.started
    ⟨0, Finset.mem_range.mpr (by decide)⟩
  rw [Finset.mem_range] at hi
  have hactive : ∀ j (hj : j < s.engine.voices.length), s.engine.voices[j].active = true :=
    fun j hj => hfull _ (List.getElem_mem hj)
  refine ⟨i, hi, fun j hj hne => Nat.lt_of_le_of_ne (hleast j (Finset.mem_range.mpr hj)) ?_⟩
  rw [← s.engine.slots] at hi hj
  exact fun hsame => hne (h.distinct i j hi hj (hactive i hi) (hactive j hj) hsame).symm

omit [DoubleOps D] [FloatOps S] [FloatCast D S] in
theorem AgesInv.age_toNat {i : Nat} (hi : i < s.engine.voices.length) :
    s.engine.voices[i].age.toNat = s.started i % 2 ^ 32 := by
  rw [h.age i hi (hfull _ (List.getElem_mem hi)), UInt32.toNat_ofNat']

omit [DoubleOps D] [FloatOps S] [FloatCast D S] in
/-- The slot stolen is the one taken first, if the clock says so. -/
theorem AgesInv.earliest_target_iff :
    Earliest s.started (targetSlot s.engine.voices) ↔ LeastOnClock s.started := by
  have hnonempty : s.engine.voices ≠ [] := by
    intro hnil
    have hslots := s.engine.slots
    rw [hnil] at hslots
    cases hslots
  constructor
  · intro htarget i hi j hj hne
    obtain ⟨hi', hle, hlt⟩ := (targetSlot_of_full hnonempty hfull).mp (htarget.unique hi)
    rw [← s.engine.slots] at hj
    have hle' := UInt32.le_iff_toNat_le.mp (hle j hj)
    rw [h.age_toNat hfull hi', h.age_toNat hfull hj] at hle'
    rcases Nat.lt_or_gt_of_ne hne with hji | hij
    · have hlt' := UInt32.lt_iff_toNat_lt.mp (hlt j hji)
      rw [h.age_toNat hfull hi', h.age_toNat hfull hj] at hlt'
      exact .inl hlt'
    · rcases Nat.lt_or_eq_of_le hle' with hlt' | heq
      · exact .inl hlt'
      · exact .inr ⟨heq, hij⟩
  · intro hleast
    obtain ⟨i, hi⟩ := h.exists_earliest hfull
    have hi' : i < s.engine.voices.length := by
      rw [s.engine.slots]
      exact hi.1
    have hbefore : ∀ j (hj : j < s.engine.voices.length), j ≠ i →
        s.engine.voices[i].age < s.engine.voices[j].age ∨
          (s.engine.voices[i].age = s.engine.voices[j].age ∧ i < j) := by
      intro j hj hne
      rw [UInt32.lt_iff_toNat_lt, ← UInt32.toNat_inj, h.age_toNat hfull hi', h.age_toNat hfull hj]
      exact hleast i hi j (s.engine.slots ▸ hj) hne
    have htarget : targetSlot s.engine.voices = i := by
      refine (targetSlot_of_full hnonempty hfull).mpr ⟨hi', fun j hj => ?_, fun j hji => ?_⟩
      · by_cases hne : j = i
        · subst hne
          exact UInt32.le_refl _
        · rcases hbefore j hj hne with hlt | ⟨heq, -⟩
          · exact UInt32.le_of_lt hlt
          · exact UInt32.le_of_eq heq
      · rcases hbefore j (hji.trans hi') (Nat.ne_of_lt hji) with hlt | ⟨-, hij⟩
        · exact hlt
        · exact absurd hij (Nat.lt_asymm hji)
    rw [htarget]
    exact hi

end Full

/-- One call steals the oldest voice exactly if the clock is in order. -/
theorem AgesInv.takesOldest_iff {s s' : VoiceSession D S} (h : AgesInv s) {call : VoiceCall D S}
    {ends : List (Event D)} (hs : voiceStep s call = .ok (s', ends)) :
    TakesOldest s call s' ends ↔ ClockInOrder s call s' ends := by
  refine ⟨fun htakes hstarts hfull => ?_, fun horder hstarts => ⟨?_, fun hfull => ?_, ?_⟩⟩
  · exact (h.earliest_target_iff hfull).mp ((htakes hstarts).2.1 hfull)
  · cases call with
    | setSampleRate sampleRate => cases hstarts
    | engine call =>
      have hnote : call.startsNote = true := hstarts
      obtain ⟨-, w, hactive, -, hvoices⟩ := perform_starts s.engine s.memory hnote
      unfold voiceStep at hs
      dsimp only at hs
      rw [if_pos hnote] at hs
      cases hs
      exact ⟨w, hactive, hvoices⟩
  · exact (h.earliest_target_iff hfull).mpr (horder hstarts hfull)
  · intro hfree
    obtain ⟨hi, hslot⟩ := targetSlot_of_free hfree
    exact ⟨_, List.getElem?_eq_getElem hi, hslot⟩

/-- In every run since a reset, every note-on that finds all voices active steals the oldest one
    exactly if at each of them that one is the least on the 32-bit clock. A note-on that finds a
    voice inactive touches no active one in any case. -/
theorem steals_oldest_iff (e : SineEngine D S) (memory : AudioMemory D S)
    (calls : List (VoiceCall D S)) :
    AllSteps voiceStep TakesOldest (VoiceSession.start e memory) calls ↔
      AllSteps voiceStep ClockInOrder (VoiceSession.start e memory) calls :=
  allSteps_congr (fun _ _ _ _ h hs => h.takesOldest_iff hs) (fun _ _ _ _ h hs _ => h.step hs)
    (AgesInv.start e memory) calls

theorem voiceStep_noteOns {s s' : VoiceSession D S} {call : VoiceCall D S} {ends : List (Event D)}
    (hs : voiceStep s call = .ok (s', ends)) :
    s'.noteOns = s.noteOns + if call.startsNote then 1 else 0 := by
  cases call with
  | setSampleRate sampleRate =>
    cases hs
    rfl
  | engine call =>
    unfold voiceStep at hs
    dsimp only at hs
    unfold VoiceCall.startsNote
    dsimp only
    split at hs
    · rename_i hstarts
      cases hs
      rw [if_pos hstarts]
    · rename_i hstarts
      cases hs
      rw [if_neg hstarts, Nat.add_zero]

theorem clockInOrder_of_few {calls : List (VoiceCall D S)} : ∀ {s : VoiceSession D S}, AgesInv s →
    s.noteOns + calls.countP VoiceCall.startsNote ≤ 2 ^ 32 →
      AllSteps voiceStep ClockInOrder s calls := by
  induction calls with
  | nil => exact fun _ _ => trivial
  | cons call calls ih =>
    intro s h hfew s' ends hs
    rw [List.countP_cons] at hfew
    refine ⟨fun _ hfull i hi j hj hne => .inl ?_, ih (h.step hs) ?_⟩
    · have hsmall : ∀ k, k < kMaxVoices → s.started k < 2 ^ 32 := by
        intro k hk
        rw [← s.engine.slots] at hk
        have hbefore := h.before k hk (hfull _ (List.getElem_mem hk))
        omega
      rw [Nat.mod_eq_of_lt (hsmall i hi.1), Nat.mod_eq_of_lt (hsmall j hj)]
      exact hi.2 j hj hne
    · rw [voiceStep_noteOns hs]
      omega

/-- With at most 2^32 note-ons since the reset it is always the oldest one. -/
theorem steals_oldest_of_few (e : SineEngine D S) (memory : AudioMemory D S)
    {calls : List (VoiceCall D S)} (hfew : calls.countP VoiceCall.startsNote ≤ 2 ^ 32) :
    AllSteps voiceStep TakesOldest (VoiceSession.start e memory) calls :=
  (allSteps_congr (fun _ _ _ _ h hs => h.takesOldest_iff hs) (fun _ _ _ _ h hs _ => h.step hs)
    (AgesInv.start e memory) calls).mpr
    (clockInOrder_of_few (AgesInv.start e memory) ((Nat.zero_add _).trans_le hfew))

/-! ## A clock that comes round -/

/-- `n` notes have come and gone, and then `k` have come to stay, one slot after the other. -/
structure Filling (n k : Nat) (s : VoiceSession D S) : Prop where
  ages : AgesInv s
  active : ∀ i v, s.engine.voices[i]? = some v → v.active = decide (i < k)
  noteOns : s.noteOns = n + k
  started : ∀ i < k, s.started i = n + i

/-- NOTE_ON on key 60. -/
def noteOnCall : VoiceCall D S :=
  .engine (.handleEvent
    { size := sizeofNote, time := 0
      body := .noteOn { noteId := 60, channel := 0, key := 60, velocity := DoubleOps.lit 1 } })

/-- NOTE_CHOKE for every voice. -/
def chokeAllCall : VoiceCall D S :=
  .engine (.handleEvent
    { size := sizeofNote, time := 0
      body := .noteChoke { noteId := -1, channel := -1, key := -1, velocity := DoubleOps.lit 0 } })

theorem Filling.noteOn {n k : Nat} {s : VoiceSession D S} (h : Filling n k s)
    (hk : k < kMaxVoices) : ∃ s', voiceStep s noteOnCall = .ok (s', []) ∧ Filling n (k + 1) s' := by
  have hlength : k < s.engine.voices.length := hk.trans_eq s.engine.slots.symm
  have htarget : targetSlot s.engine.voices = k := by
    have hfirst : s.engine.voices.findIdx? (fun v => !v.active) = some k := by
      refine List.findIdx?_eq_some_iff_getElem.mpr ⟨hlength, ?_, fun j hj => ?_⟩
      · rw [h.active k _ (List.getElem?_eq_getElem hlength), decide_eq_false (Nat.lt_irrefl k)]
        rfl
      · rw [h.active j _ (List.getElem?_eq_getElem (hj.trans hlength)), decide_eq_true hj]
        exact Bool.false_ne_true
    unfold targetSlot
    rw [hfirst]
  refine ⟨_, rfl, h.ages.step (show voiceStep s noteOnCall = _ from rfl), fun i v hv => ?_, ?_,
    fun i hi => ?_⟩
  · have hset : (s.engine.voices.set (targetSlot s.engine.voices)
        (s.engine.newVoice 60 0 60 (DoubleOps.lit 1)))[i]? = some v := hv
    rw [htarget, List.getElem?_set, if_pos hlength] at hset
    split at hset
    · rename_i heq
      cases hset
      exact (decide_eq_true (by omega)).symm
    · rw [h.active i v hset]
      exact decide_eq_decide.mpr (by omega)
  · show s.noteOns + 1 = n + (k + 1)
    rw [h.noteOns]
    rfl
  · show Function.update s.started (targetSlot s.engine.voices) s.noteOns i = n + i
    rw [htarget, h.noteOns]
    by_cases heq : i = k
    · rw [heq, Function.update_self]
    · rw [Function.update_of_ne heq]
      exact h.started i (by omega)

theorem Filling.choke {n k : Nat} {s : VoiceSession D S} (h : Filling n k s) :
    ∃ s', voiceStep s chokeAllCall = .ok (s', []) ∧ Filling (n + k) 0 s' := by
  refine ⟨_, rfl, h.ages.step (show voiceStep s chokeAllCall = _ from rfl), fun i v hv => ?_,
    h.noteOns, nofun⟩
  have hmap : (s.engine.voices.map (releaseVoice (-1) (-1) (-1) true))[i]? = some v := hv
  rw [List.getElem?_map, Option.map_eq_some_iff] at hmap
  obtain ⟨u, -, rfl⟩ := hmap
  show (releaseVoice (-1) (-1) (-1) true u).active = false
  unfold releaseVoice
  cases hu : u.active with
  | false =>
    rw [Bool.false_and, if_neg Bool.false_ne_true]
    exact hu
  | true => rfl

section Rounds

variable {P : VoiceSession D S → VoiceCall D S → VoiceSession D S → List (Event D) → Prop}
  {rest : List (VoiceCall D S)}

theorem Filling.noteOns_run (m : Nat) : ∀ {n k : Nat} {s : VoiceSession D S}, Filling n k s →
    k + m ≤ kMaxVoices → AllSteps voiceStep P s (List.replicate m noteOnCall ++ rest) →
      ∃ s', Filling n (k + m) s' ∧ AllSteps voiceStep P s' rest := by
  induction m with
  | zero => exact fun h _ hsteps => ⟨_, h, hsteps⟩
  | succ m ih =>
    intro n k s h hk hsteps
    obtain ⟨s₁, hs, h₁⟩ := h.noteOn (by omega)
    obtain ⟨s', h', hrest⟩ := ih h₁ (by omega) (hsteps s₁ [] hs).2
    exact ⟨s', by rwa [Nat.add_right_comm] at h', hrest⟩

theorem Filling.rounds_run (m : Nat) : ∀ {n : Nat} {s : VoiceSession D S}, Filling n 0 s →
    AllSteps voiceStep P s
      ((List.replicate m [noteOnCall, chokeAllCall]).flatten ++ rest) →
      ∃ s', Filling (n + m) 0 s' ∧ AllSteps voiceStep P s' rest := by
  induction m with
  | zero => exact fun h hsteps => ⟨_, h, hsteps⟩
  | succ m ih =>
    intro n s h hsteps
    rw [List.replicate_succ, List.flatten_cons, List.append_assoc] at hsteps
    obtain ⟨s₁, hs₁, h₁⟩ := h.noteOn (by decide)
    obtain ⟨s₂, hs₂, h₂⟩ := h₁.choke
    obtain ⟨s', h', hrest⟩ := ih h₂ ((hsteps s₁ [] hs₁).2 s₂ [] hs₂).2
    exact ⟨s', by rwa [Nat.zero_add, Nat.add_right_comm] at h', hrest⟩

end Rounds

end Engine

/-- 2^32 - 1 notes that come and go, eight that stay, and one more: the clock has come round behind
    the first of the eight, and the second one is stolen. -/
theorem steals_second_oldest :
    ¬ AllSteps voiceStep TakesOldest
      (VoiceSession.start (SineEngine.create : SineEngine ExactFloat ExactFloat) silentMemory)
      ((List.replicate (2 ^ 32 - 1) [noteOnCall, chokeAllCall]).flatten ++
        (List.replicate 8 noteOnCall ++ [noteOnCall])) := by
  intro hsteps
  have hstart : Filling 0 0
      (VoiceSession.start (SineEngine.create : SineEngine ExactFloat ExactFloat) silentMemory) :=
    ⟨AgesInv.start _ _, fun i v hv => VoiceSession.start_idle (List.mem_of_getElem? hv), rfl, nofun⟩
  obtain ⟨s, hs, hrest⟩ := hstart.rounds_run _ hsteps
  obtain ⟨s', hs', hlast⟩ := hs.noteOns_run 8 (by decide) hrest
  have hfull : ∀ v ∈ s'.engine.voices, v.active = true := by
    intro v hv
    obtain ⟨i, hi, rfl⟩ := List.mem_iff_getElem.mp hv
    rw [hs'.active i _ (List.getElem?_eq_getElem hi)]
    exact decide_eq_true (hi.trans_eq s'.engine.slots)
  have hfirst : Earliest s'.started 0 := by
    refine ⟨by decide, fun j hj hne => ?_⟩
    rw [hs'.started 0 (by decide), hs'.started j hj]
    omega
  have htarget := ((hlast _ _ rfl).1 rfl).2.1 hfull
  have hclock := (hs'.ages.earliest_target_iff hfull).mp htarget 0 hfirst 1 (by decide) (by decide)
  rw [hs'.started 0 (by decide), hs'.started 1 (by decide)] at hclock
  omega

end Cvp
