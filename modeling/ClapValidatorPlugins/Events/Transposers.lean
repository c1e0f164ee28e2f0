/-
  NoteFXs in a row. Every one clamps the keys it moves to the keyboard, so a row that shifts up
  and down loses notes at the ends; one that shifts in a single direction is one NoteFX that shifts
  by the sum (`transposers_add`).
-/
import Mathlib.Algebra.Order.BigOperators.Group.List
import ClapValidatorPlugins.Events.Chains

namespace Cvp

variable {D : Type}

namespace NoteFxPlugin

/-- Two shifts in one direction are one: the key stops at the end of the keyboard either way. -/
theorem shiftedKey_shiftedKey {a b key : Int} (hkey : 0 ≤ key ∧ key ≤ 127)
    (hsigns : (0 ≤ a ∧ 0 ≤ b) ∨ (a ≤ 0 ∧ b ≤ 0)) :
    shiftedKey b (shiftedKey a key) = shiftedKey (a + b) key := by
  unfold shiftedKey
  omega

/-- A key on the keyboard, if the event has one to move. -/
def OnKeyboard (e : Event D) : Prop := ∀ key, e.movableKey = some key → key ≤ 127

/-- A key that can be moved can be moved on from where it has been put, and back. -/
theorem movableKey_some {e : Event D} {key : Int} (h : e.movableKey = some key) :
    0 ≤ key ∧ e.withKey key = e ∧ ∀ key', 0 ≤ key' ∧ key' ≤ 127 →
      (e.withKey key').movableKey = some key' ∧
        ∀ key'', (e.withKey key').withKey key'' = e.withKey key'' := by
  obtain ⟨size, time, spaceId, flags, body⟩ := e
  unfold Event.movableKey at h
  cases hcore : Event.isCore ⟨size, time, spaceId, flags, body⟩ with
  | false =>
    rw [hcore] at h
    cases h
  | true =>
    have hcore' : ∀ body' : EventBody D, Event.isCore ⟨size, time, spaceId, flags, body'⟩ = true :=
      fun _ => hcore
    rw [hcore] at h
    cases body with
    | noteOn n | noteOff n | noteChoke n =>
      dsimp only at h
      split at h
      · rename_i hkey
        cases h
        refine ⟨hkey, rfl, fun key' hkey' => ⟨?_, fun _ => rfl⟩⟩
        unfold Event.movableKey Event.withKey
        dsimp only
        rw [hcore']
        exact if_pos hkey'.1
      · cases h
    | midi m =>
      dsimp only at h
      split at h
      · rename_i hstatus
        cases h
        refine ⟨Int.natCast_nonneg _, ?_, fun key' hkey' => ⟨?_, fun _ => rfl⟩⟩
        · unfold Event.withKey
          dsimp only
          rw [Int.toNat_natCast, UInt8.ofNat_toNat]
        · have hbyte : ((UInt8.ofNat key'.toNat).toNat : Int) = key' := by
            rw [UInt8.toNat_ofNat']
            omega
          unfold Event.movableKey Event.withKey
          dsimp only
          rw [hcore']
          dsimp only
          rw [if_pos hstatus, hbyte]
      · cases h
    | _ => cases h

theorem transposed_transposed {a b : Int} (hsigns : (0 ≤ a ∧ 0 ≤ b) ∨ (a ≤ 0 ∧ b ≤ 0))
    {e : Event D} (he : OnKeyboard e) :
    transposed b (transposed a e) = transposed (a + b) e ∧ OnKeyboard (transposed a e) := by
  cases hkey : e.movableKey with
  | none =>
    have hsame : ∀ t : Int, transposed t e = e := fun t => by
      unfold transposed
      rw [hkey]
    rw [hsame, hsame, hsame]
    exact ⟨rfl, he⟩
  | some key =>
    have hmoved : ∀ t : Int, transposed t e = e.withKey (shiftedKey t key) := fun t => by
      unfold transposed
      rw [hkey]
    have hrange : 0 ≤ shiftedKey a key ∧ shiftedKey a key ≤ 127 := by
      unfold shiftedKey
      omega
    obtain ⟨hlow, -, hmove⟩ := movableKey_some hkey
    obtain ⟨hagain, htwice⟩ := hmove _ hrange
    rw [hmoved, hmoved]
    constructor
    · unfold transposed
      rw [hagain]
      dsimp only
      rw [htwice, shiftedKey_shiftedKey ⟨hlow, he key hkey⟩ hsigns]
    · intro key' hkey'
      rw [hagain] at hkey'
      cases hkey'
      exact hrange.2

/-- On the keyboard nothing is moved by nothing. -/
theorem transposed_zero {e : Event D} (he : OnKeyboard e) : transposed 0 e = e := by
  unfold transposed
  split
  · rename_i key hkey
    obtain ⟨hlow, hback, -⟩ := movableKey_some hkey
    have hhigh := he key hkey
    have hsame : shiftedKey 0 key = key := by
      unfold shiftedKey
      omega
    rw [hsame, hback]
  · rfl

theorem carriesValue_transposed (t : Int) (e : Event D) :
    carriesValue (transposed t e) = carriesValue e := by
  rw [transposed_eq]
  split
  · rename_i hcore
    show (e.isCore && _) = _
    unfold carriesValue
    cases e.body <;> rfl
  · rfl

section Row

variable {S : Type} [DoubleOps D] [FloatOps S] [FloatCast D S] [DoubleBits D]

omit [FloatOps S] [FloatCast D S] [DoubleBits D] in
/-- Without parameter values in the list one Transpose is in force all along. -/
theorem passedOn_plain (t : D) {headers : List (Event D)}
    (h : ∀ e ∈ headers, carriesValue e = false) :
    passedOn t headers = headers.map fun e => (e, DoubleOps.toInt t) := by
  induction headers with
  | nil => rfl
  | cons e headers ih =>
    have he := h e List.mem_cons_self
    have hnone : transposeOf e = none := by
      unfold transposeOf paramValueOf
      unfold carriesValue at he
      split
      · rename_i hvalue
        split at hvalue
        · rename_i hcore hbody
          rw [hcore, hbody] at he
          cases he
        · cases hvalue
      · rfl
    rw [passedOn_cons, hnone, he, Option.getD_none, ih fun x hx => h x (List.mem_cons_of_mem e hx)]
    rfl

/-- A NoteFX that is processing and has somewhere to send events, with its Transpose, truncated.
    The cast to `int` and the sums with it are those of the source on the range the parameter
    declares. -/
inductive Transposes : Int → Stage D S → Prop where
  | intro {p : Plugin D (State D)} (hr : Flavor.noteFx.Reachable (D := D) (S := S) p)
      (hp : p.contract.processing = true)
      (hrange : -24 ≤ DoubleOps.toInt (p.self.params kParamTranspose) ∧
        DoubleOps.toInt (p.self.params kParamTranspose) ≤ 24) (thread : ThreadId)
      {block : ProcessBlock D} (hout : block.hasOutEvents = true) (memory : AudioMemory D S) :
      Transposes (DoubleOps.toInt (p.self.params kParamTranspose))
        ⟨.noteFx, p, thread, block, memory⟩

omit [FloatOps S] [FloatCast D S] in
/-- A NoteFX that is processing gets every block through that it may send events from: it
    declares no audio ports, so none is turned down for its buffers. -/
theorem sProcess_passes {p : Plugin D (State D)}
    (hsnap : Snapshot (impl : PluginImpl D S (State D)) p.contract p.self)
    (hp : p.contract.processing = true) (thread : ThreadId) {block : ProcessBlock D}
    (hout : block.hasOutEvents = true) (memory : AudioMemory D S) {events : List (Event D)}
    (hevents : block.inEvents = some (.ofList events)) :
    ∃ q reply, p.sProcess (impl : PluginImpl D S (State D)) thread block memory =
        .ok (q, reply) ∧ reply.pushed = (consume transformEvent p.self events).pushed := by
  have hactive := hsnap.processing_active hp
  have hready : (p.contract.active && p.contract.processing) = true := by
    rw [hactive, hp]
    rfl
  have hports : (checkPorts p.contract block).1 = true := by
    unfold checkPorts
    rw [hsnap.inputPorts hactive, hsnap.outputPorts hactive]
    split
    · rfl
    · rename_i hcounts
      push Not at hcounts
      rw [List.length_eq_zero_iff.mp hcounts.1, List.length_eq_zero_iff.mp hcounts.2]
      rfl
  obtain ⟨q, -, hself, hgate⟩ := Plugin.processGate_ready hsnap.inProcess hready thread block
  rw [if_pos hports] at hgate
  have hprocess := process_ofList q.base q.self block memory hevents
  dsimp only at hprocess
  rw [hout, Bool.or_true, if_pos rfl, hself] at hprocess
  unfold Plugin.sProcess
  rw [hgate]
  dsimp only
  rw [show (impl : PluginImpl D S (State D)).process q.base q.self block memory =
    process q.base p.self block memory from congrArg (process q.base · block memory) hself,
    hprocess]
  exact ⟨_, _, rfl, rfl⟩

theorem Transposes.play {t : Int} {stage : Stage D S} (h : Transposes t stage)
    (framesCount : UInt32) {events : List (Event D)}
    (hplain : ∀ e ∈ events, carriesValue e = false) :
    ∃ stage', stage.play framesCount events = .ok (stage', events.map (transposed t)) := by
  obtain ⟨hr, hp, -, thread, hout, memory⟩ := h
  rename_i p block
  let block' := { block with
    framesCount := framesCount, inEvents := some (InputEvents.ofList events) }
  have hevents : block'.inEvents = some (.ofList events) := rfl
  obtain ⟨q, reply, hprocess, hpushed⟩ := sProcess_passes (snapshot_of_reachable hr) hp thread
    (show block'.hasOutEvents = true from hout) memory hevents
  have hmap : (consume transformEvent p.self events).pushed = events.map
      (transposed (DoubleOps.toInt (p.self.params kParamTranspose))) := by
    rw [pushed_eq, passedOn_plain _ hplain, List.map_map]
    rfl
  refine ⟨⟨.noteFx, q, thread, block, reply.memory⟩, ?_⟩
  rw [← hmap, ← hpushed]
  show (p.sProcess (impl : PluginImpl D S (State D)) thread block' memory >>= _) = _
  rw [hprocess]
  rfl

/-- NoteFXs in a row that shift in one direction are one that shifts by the sum. -/
theorem transposers_add {ts : List Int} {stages : List (Stage D S)}
    (hstages : List.Forall₂ Transposes ts stages)
    (hsigns : (∀ t ∈ ts, 0 ≤ t) ∨ ∀ t ∈ ts, t ≤ 0) (framesCount : UInt32) :
    ∀ {events : List (Event D)}, (∀ e ∈ events, carriesValue e = false ∧ OnKeyboard e) →
      ∃ stages', route framesCount stages events =
        .ok (stages', events.map (transposed ts.sum)) := by
  induction hstages with
  | nil =>
    intro events hevents
    refine ⟨[], ?_⟩
    have hsame : events.map (transposed 0) = events := by
      rw [List.map_congr_left fun e he => transposed_zero (hevents e he).2, List.map_id']
    rw [List.sum_nil, hsame]
    rfl
  | @cons t stage ts stages hstage hstages ih =>
    intro events hevents
    obtain ⟨stage', hplay⟩ := hstage.play framesCount fun e he => (hevents e he).1
    have hrest : (∀ t ∈ ts, 0 ≤ t) ∨ ∀ t ∈ ts, t ≤ 0 :=
      hsigns.imp (fun h t' ht => h t' (List.mem_cons_of_mem t ht))
        fun h t' ht => h t' (List.mem_cons_of_mem t ht)
    have hsum : (0 ≤ t ∧ 0 ≤ ts.sum) ∨ (t ≤ 0 ∧ ts.sum ≤ 0) :=
      hsigns.imp
        (fun h => ⟨h t List.mem_cons_self,
          List.sum_nonneg fun t' ht => h t' (List.mem_cons_of_mem t ht)⟩)
        fun h => ⟨h t List.mem_cons_self, by
          simpa using List.sum_le_card_nsmul ts 0 fun t' ht => h t' (List.mem_cons_of_mem t ht)⟩
    have hmoved : ∀ e ∈ events.map (transposed t), carriesValue e = false ∧ OnKeyboard e := by
      intro x hx
      obtain ⟨e, he, rfl⟩ := List.mem_map.mp hx
      exact ⟨(carriesValue_transposed t e).trans (hevents e he).1,
        (transposed_transposed hsum (hevents e he).2).2⟩
    obtain ⟨stages', hroute⟩ := ih hrest hmoved
    refine ⟨stage' :: stages', ?_⟩
    have hmap : (events.map (transposed t)).map (transposed ts.sum) =
        events.map (transposed (t :: ts).sum) := by
      rw [List.map_map, List.sum_cons]
      exact List.map_congr_left fun e he => (transposed_transposed hsum (hevents e he).2).1
    rw [route, hplay, ← hmap]
    show (route framesCount stages (events.map (transposed t)) >>= _) = _
    rw [hroute]
    rfl

end Row

theorem transposers_add_fifthAndFourth :
    ∃ stages, route 64 fifthAndFourth [noteOffAt 3] =
      .ok (stages, [transposed 12 (noteOffAt 3)]) := by
  have hstage : ∀ x : ExactFloat, -24 ≤ DoubleOps.toInt x ∧ DoubleOps.toInt x ≤ 24 →
      Transposes (DoubleOps.toInt x)
        ⟨.noteFx, transposer x, 0, { framesCount := 64, inEvents := none }, silentMemory⟩ :=
    fun x hrange =>
      .intro (transposer_reachable x).1 (transposer_reachable x).2 hrange 0 rfl silentMemory
  have hstages : List.Forall₂ Transposes [7, 5] fifthAndFourth :=
    .cons (hstage 7 (by decide)) (.cons (hstage 5 (by decide)) .nil)
  refine transposers_add hstages (.inl (by decide)) 64 fun e he => ?_
  rw [List.mem_singleton.mp he]
  refine ⟨rfl, fun key hkey => ?_⟩
  cases hkey
  decide

end NoteFxPlugin

end Cvp
