/-
  What NoteFX makes of an event list. It keeps nothing of a note: an event is shifted by the
  Transpose in force where it stands, and parameter values are taken out (`pushed_eq`). So the
  output has the shape of the input (`forwarded_shape`); but a note-off is shifted by a Transpose of
  its own, and meets its note-on only as far as the two take the key to the same place
  (`offs_meet_ons_iff`).
-/
import ClapValidatorPlugins.Events.FlushParity
import ClapValidatorPlugins.Lib.Machine
import ClapValidatorPlugins.Voices.Ledger

namespace Cvp

open Assignments

variable {D S : Type}

/-! ## The key of an event -/

namespace Event

/-- The key that NoteFX moves: of NOTE_ON, NOTE_OFF and NOTE_CHOKE unless it is a wildcard, and
    data byte 1 of MIDI 0x8x and 0x9x. -/
def movableKey (e : Event D) : Option Int :=
  match e.isCore, e.body with
  | true, .noteOn n | true, .noteOff n | true, .noteChoke n =>
    if 0 ≤ n.key then some n.key else none
  | true, .midi m =>
    if m.data0 &&& 0xF0 = 0x80 ∨ m.data0 &&& 0xF0 = 0x90 then some m.data1.toNat else none
  | _, _ => none

/-- The event with another key and nothing else changed. -/
def withKey (e : Event D) (key : Int) : Event D :=
  match e.body with
  | .noteOn n => { e with body := .noteOn { n with key := key } }
  | .noteOff n => { e with body := .noteOff { n with key := key } }
  | .noteChoke n => { e with body := .noteChoke { n with key := key } }
  | .midi m => { e with body := .midi { m with data1 := UInt8.ofNat key.toNat } }
  | _ => e

end Event

namespace NoteFxPlugin

/-- The key plus the transposition, clamped to 0..127. -/
def shiftedKey (transpose key : Int) : Int := max 0 (min 127 (key + transpose))

/-- The event with its key moved, if it has one to move. -/
def transposed (transpose : Int) (e : Event D) : Event D :=
  match e.movableKey with
  | some key => e.withKey (shiftedKey transpose key)
  | none => e

theorem clampKey_eq (transpose key : Int) :
    clampKey (key + transpose) = shiftedKey transpose key := by
  unfold clampKey shiftedKey
  split
  · omega
  · split <;> omega

/-! ## The Transpose in force -/

/-- What the event sets Transpose to. -/
def transposeOf (e : Event D) : Option D :=
  match paramValueOf e with
  | some (id, x) => if id = kParamTranspose then some x else none
  | none => none

/-- The last value set in `front`, or what it was before. -/
def inForce (t : D) (front : List (Event D)) : D := (front.filterMap transposeOf).getLast?.getD t

theorem inForce_cons (t : D) (e : Event D) (front : List (Event D)) :
    inForce t (e :: front) = inForce ((transposeOf e).getD t) front := by
  unfold inForce
  rw [← foldl_getD, ← foldl_getD]
  rfl

variable [DoubleOps D]

/-- The events of a list that are passed on, each with the Transpose in force where it stands,
    truncated: all but the parameter values. -/
def passedOn (t : D) (headers : List (Event D)) : List (Event D × Int) :=
  (headers.zipIdx.filter fun p => !carriesValue p.1).map fun p =>
    (p.1, DoubleOps.toInt (inForce t (headers.take p.2)))

theorem passedOn_cons (t : D) (e : Event D) (headers : List (Event D)) :
    passedOn t (e :: headers) =
      (if carriesValue e = true then [] else [(e, DoubleOps.toInt t)]) ++
        passedOn ((transposeOf e).getD t) headers := by
  have hrest : ((headers.zipIdx 1).filter fun p => !carriesValue p.1).map
      (fun p => (p.1, DoubleOps.toInt (inForce t ((e :: headers).take p.2)))) =
      passedOn ((transposeOf e).getD t) headers := by
    unfold passedOn
    rw [List.zipIdx_succ, List.filter_map, List.map_map]
    refine List.map_congr_left fun p _ => ?_
    show (p.1, DoubleOps.toInt (inForce t ((e :: headers).take (p.2 + 1)))) = _
    rw [List.take_succ_cons, inForce_cons]
  unfold passedOn
  rw [List.zipIdx_cons, List.filter_cons]
  cases carriesValue e with
  | true => exact hrest
  | false => exact congrArg ((e, DoubleOps.toInt t) :: ·) hrest

theorem map_fst_passedOn (headers : List (Event D)) : ∀ t : D,
    (passedOn t headers).map Prod.fst = headers.filter fun e => !carriesValue e := by
  induction headers with
  | nil => exact fun t => rfl
  | cons e headers ih =>
    intro t
    rw [passedOn_cons, List.map_append, ih, List.filter_cons]
    cases carriesValue e <;> rfl

/-! ## The loop -/

omit [DoubleOps D] in
theorem applyParamValue_transpose (values : ParamValues D) (e : Event D) :
    applyParamValue paramIds values e kParamTranspose =
      (transposeOf e).getD (values kParamTranspose) := by
  rw [applyParamValue_eq]
  unfold transposeOf
  cases paramValueOf e with
  | none => rfl
  | some r =>
    dsimp only
    by_cases h : r.1 = kParamTranspose
    · rw [h, storeParam_self (by decide), if_pos rfl]
      rfl
    · rw [storeParam_of_ne _ (Ne.symm h), if_neg h]
      rfl

omit [DoubleOps D] in
/-- Behind a list the last Transpose of the list is in force. -/
theorem foldl_transpose (headers : List (Event D)) : ∀ values : ParamValues D,
    headers.foldl (applyParamValue paramIds) values kParamTranspose =
      inForce (values kParamTranspose) headers := by
  induction headers with
  | nil => exact fun values => rfl
  | cons e headers ih =>
    intro values
    rw [List.foldl_cons, ih, applyParamValue_transpose, inForce_cons]

omit [DoubleOps D] in
theorem transposeNote_eq (t : Int) (n : NoteEvent D) :
    transposeNote t n = if 0 ≤ n.key then { n with key := shiftedKey t n.key } else n := by
  unfold transposeNote
  rw [clampKey_eq]

/-- What the code does to the body of a core event that is passed on. -/
def shiftedBody (t : Int) : EventBody D → EventBody D
  | .noteOn n => .noteOn (transposeNote t n)
  | .noteOff n => .noteOff (transposeNote t n)
  | .noteChoke n => .noteChoke (transposeNote t n)
  | .midi m => .midi (transposeMidi t m)
  | body => body

omit [DoubleOps D] in
theorem transposed_eq (t : Int) (e : Event D) :
    transposed t e = if e.isCore = true then { e with body := shiftedBody t e.body } else e := by
  obtain ⟨size, time, spaceId, flags, body⟩ := e
  unfold transposed Event.movableKey Event.withKey shiftedBody
  cases Event.isCore ⟨size, time, spaceId, flags, body⟩ with
  | false => rfl
  | true =>
    cases body with
    | noteOn n | noteOff n | noteChoke n =>
      dsimp only
      rw [transposeNote_eq]
      by_cases h : 0 ≤ n.key
      · rw [if_pos h, if_pos h]
        rfl
      · rw [if_neg h, if_neg h]
        rfl
    | midi m =>
      dsimp only
      unfold transposeMidi
      rw [clampKey_eq]
      by_cases h : m.data0 &&& 0xF0 = 0x80 ∨ m.data0 &&& 0xF0 = 0x90
      · rw [if_pos h, if_pos rfl]
        dsimp only
        rw [if_pos h]
      · rw [if_neg h, if_pos rfl]
        dsimp only
        rw [if_neg h]
    | _ => rfl

theorem transformEvent_pushed (s : State D) (e : Event D) :
    (transformEvent s e).pushed =
      if carriesValue e = true then []
      else [transposed (DoubleOps.toInt (s.params kParamTranspose)) e] := by
  rw [transposed_eq]
  unfold transformEvent carriesValue
  cases e.isCore with
  | false => rfl
  | true =>
    cases hbody : e.body with
    | noteOn n | noteOff n | noteChoke n | midi m => rfl
    | _ => simp [shiftedBody, Outcome.done, ← hbody]

/-- The loop pushes what it does not consume, in order. -/
theorem pushed_eq (headers : List (Event D)) : ∀ s : State D,
    (consume transformEvent s headers).pushed =
      (passedOn (s.params kParamTranspose) headers).map fun p => transposed p.2 p.1 := by
  induction headers with
  | nil => exact fun s => rfl
  | cons e headers ih =>
    intro s
    have hself : (transformEvent s e).self.params kParamTranspose =
        (transposeOf e).getD (s.params kParamTranspose) := by
      rw [transformEvent_params]
      exact applyParamValue_transpose s.params e
    show (transformEvent s e).pushed ++
      (consume transformEvent (transformEvent s e).self headers).pushed = _
    rw [ih, hself, transformEvent_pushed, passedOn_cons, List.map_append]
    cases carriesValue e <;> rfl

/-! ## The output of a block -/

/-- A block that gets through had a list without null entries; what comes out is what the events
    push, and the state is theirs. -/
theorem process_ok {base : Base D} {s : State D} {block : ProcessBlock D}
    {memory memory' : AudioMemory D S} {out : Outcome D (State D) ProcessStatus}
    (h : process base s block memory = .ok (out, memory')) :
    ∃ list, block.inEvents = some list ∧ ∃ headers, list.events = headers.map some ∧
      out.pushed = (passedOn (s.params kParamTranspose) headers).map
        (fun p => transposed p.2 p.1) ∧
      out.self.params kParamTranspose = inForce (s.params kParamTranspose) headers := by
  unfold process at h
  split at h
  · cases h
  · rename_i list hlist
    split at h
    · obtain ⟨done, hdone, hret⟩ := Except.bind_eq_ok h
      cases hret
      obtain ⟨headers, hheaders⟩ := events_of_transformEvents hdone
      rw [hheaders, transformEvents_map] at hdone
      split at hdone
      · cases hdone
        refine ⟨list, hlist, headers, hheaders, pushed_eq headers s, ?_⟩
        rw [consume_params State.params transformEvent_params]
        exact foldl_transpose headers s.params
      · cases hdone
    · cases h

/-- A block with any list of events, into an output list that takes them all: what comes out are
    the events that carry no parameter value, in their order and with their keys moved by the
    Transpose in force where each stands. An event without a key to move is passed on as it is. -/
theorem forwarded_shape (base : Base D) (s : State D) (block : ProcessBlock D)
    (memory : AudioMemory D S) (headers : List (Event D)) :
    ∃ out, process base s
        { block with inEvents := some (.ofList headers), hasOutEvents := true } memory =
          .ok (out, memory) ∧
      out.pushed = (passedOn (s.params kParamTranspose) headers).map fun p =>
        transposed p.2 p.1 := by
  have hprocess := process_ofList base s
    { block with inEvents := some (.ofList headers), hasOutEvents := true } memory rfl
  dsimp only at hprocess
  rw [Bool.or_true, if_pos rfl] at hprocess
  exact ⟨_, hprocess, pushed_eq headers s⟩

end NoteFxPlugin

/-! ## Notes -/

/-- The note that begins with the event. A MIDI note has no note id. -/
def EventBody.startsNote : EventBody D → Option NoteAddress
  | .noteOn n => some ⟨n.key, n.channel, n.noteId⟩
  | .midi m =>
    if m.data0 &&& 0xF0 = 0x90 ∧ 0 < m.data2 then
      some ⟨m.data1.toNat, (m.data0 &&& 0x0F).toNat, -1⟩
    else none
  | _ => none

/-- The note that ends with the event. -/
def EventBody.endsNote : EventBody D → Option NoteAddress
  | .noteOff n | .noteChoke n => some ⟨n.key, n.channel, n.noteId⟩
  | .midi m =>
    if m.data0 &&& 0xF0 = 0x80 ∨ (m.data0 &&& 0xF0 = 0x90 ∧ m.data2 = 0) then
      some ⟨m.data1.toNat, (m.data0 &&& 0x0F).toNat, -1⟩
    else none
  | _ => none

def Event.startsNote (e : Event D) : Option NoteAddress :=
  if e.isCore then e.body.startsNote else none

def Event.endsNote (e : Event D) : Option NoteAddress :=
  if e.isCore then e.body.endsNote else none

namespace NoteFxPlugin

/-- Where the key of a note goes; a wildcard stays. -/
def movedKey (transpose key : Int) : Int := if 0 ≤ key then shiftedKey transpose key else key

def movedNote (transpose : Int) (a : NoteAddress) : NoteAddress :=
  { a with key := movedKey transpose a.key }

theorem address_transposeNote (t : Int) (n : NoteEvent D) :
    (⟨(transposeNote t n).key, (transposeNote t n).channel, (transposeNote t n).noteId⟩ :
      NoteAddress) = movedNote t ⟨n.key, n.channel, n.noteId⟩ := by
  rw [transposeNote_eq, movedNote, movedKey]
  split <;> rfl

theorem data1_transposeMidi (t : Int) {m : MidiEvent}
    (h : m.data0 &&& 0xF0 = 0x80 ∨ m.data0 &&& 0xF0 = 0x90) :
    ((transposeMidi t m).data1.toNat : Int) = movedKey t m.data1.toNat := by
  have hlow : 0 ≤ shiftedKey t m.data1.toNat := Int.le_max_left _ _
  have hhigh : shiftedKey t m.data1.toNat ≤ 127 := by
    unfold shiftedKey
    omega
  unfold transposeMidi
  dsimp only
  rw [if_pos h, movedKey, if_pos (Int.natCast_nonneg _), clampKey_eq, UInt8.toNat_ofNat']
  omega

theorem transposeMidi_status (t : Int) (m : MidiEvent) :
    (transposeMidi t m).data0 = m.data0 ∧ (transposeMidi t m).data2 = m.data2 := by
  unfold transposeMidi
  dsimp only
  split <;> exact ⟨rfl, rfl⟩

theorem startsNote_shiftedBody (t : Int) (body : EventBody D) :
    (shiftedBody t body).startsNote = body.startsNote.map (movedNote t) := by
  cases body with
  | noteOn n => exact congrArg some (address_transposeNote t n)
  | midi m =>
    obtain ⟨hstatus, hvelocity⟩ := transposeMidi_status t m
    unfold shiftedBody EventBody.startsNote
    dsimp only
    rw [hstatus, hvelocity]
    split
    · rename_i h
      rw [data1_transposeMidi t (.inr h.1)]
      rfl
    · rfl
  | _ => rfl

theorem endsNote_shiftedBody (t : Int) (body : EventBody D) :
    (shiftedBody t body).endsNote = body.endsNote.map (movedNote t) := by
  cases body with
  | noteOff n | noteChoke n => exact congrArg some (address_transposeNote t n)
  | midi m =>
    obtain ⟨hstatus, hvelocity⟩ := transposeMidi_status t m
    unfold shiftedBody EventBody.endsNote
    dsimp only
    rw [hstatus, hvelocity]
    split
    · rename_i h
      rw [data1_transposeMidi t (h.imp_right And.left)]
      rfl
    · rfl
  | _ => rfl

theorem startsNote_transposed (t : Int) (e : Event D) :
    (transposed t e).startsNote = e.startsNote.map (movedNote t) := by
  rw [transposed_eq]
  unfold Event.startsNote
  split
  · rename_i hcore
    show (if e.isCore = true then (shiftedBody t e.body).startsNote else none) = _
    rw [if_pos hcore, startsNote_shiftedBody]
  · rfl

theorem endsNote_transposed (t : Int) (e : Event D) :
    (transposed t e).endsNote = e.endsNote.map (movedNote t) := by
  rw [transposed_eq]
  unfold Event.endsNote
  split
  · rename_i hcore
    show (if e.isCore = true then (shiftedBody t e.body).endsNote else none) = _
    rw [if_pos hcore, endsNote_shiftedBody]
  · rfl

/-! ## Runs -/

/-- A block or a flush. -/
inductive Delivery (D S : Type) where
  | block (base : Base D) (block : ProcessBlock D) (memory : AudioMemory D S)
  | flush (base : Base D) (inEvents : Option (InputEvents D)) (hasOutEvents : Bool)

variable [DoubleOps D]

/-- What is delivered, and what is pushed meanwhile. -/
def deliver : Machine.Step (State D) (Delivery D S) (List (Event D)) Fault
  | s, .block base block memory => do
    let r ← process base s block memory
    .ok (r.1.self, r.1.pushed)
  | s, .flush base inEvents hasOutEvents => do
    let flushed ← paramsFlush base s inEvents hasOutEvents
    .ok (flushed.self, flushed.pushed)

/-- The entries of the list, without those that are null. -/
def entries (events : Option (InputEvents D)) : List (Event D) :=
  match events with
  | some list => list.events.filterMap id
  | none => []

omit [DoubleOps D] in
theorem entries_map {list : InputEvents D} {headers : List (Event D)}
    (h : list.events = headers.map some) : entries (some list) = headers := by
  show list.events.filterMap id = headers
  rw [h, List.filterMap_map]
  exact List.filterMap_some

def Delivery.headers : Delivery D S → List (Event D)
  | block _ b _ => entries b.inEvents
  | flush _ inEvents _ => entries inEvents

/-- The events of a block that are passed on, each with what was pushed for it. -/
def sentBy : Delivery D S → List (Event D) → List (Event D × Event D)
  | .block _ b _, pushed => ((entries b.inEvents).filter fun e => !carriesValue e).zip pushed
  | .flush _ _ _, _ => []

/-- Input and output of a run, event by event. -/
def sent (deliveries : List (Delivery D S)) (outputs : List (List (Event D))) :
    List (Event D × Event D) :=
  (deliveries.zip outputs).flatMap fun d => sentBy d.1 d.2

/-- The events that a delivery passes on, each with the Transpose in force where it stands. -/
def passedBy (t : D) : Delivery D S → List (Event D × Int)
  | .block _ b _ => passedOn t (entries b.inEvents)
  | .flush _ _ _ => []

/-- The same for a run. -/
def passedIn : D → List (Delivery D S) → List (Event D × Int)
  | _, [] => []
  | t, d :: rest => passedBy t d ++ passedIn (inForce t d.headers) rest

omit [DoubleOps D] in
/-- What a flush does to Transpose. -/
theorem paramsFlush_ok {base : Base D} {s : State D} {inEvents : Option (InputEvents D)}
    {hasOutEvents : Bool} {out : Outcome D (State D) Unit}
    (h : paramsFlush base s inEvents hasOutEvents = .ok out) :
    out.self.params kParamTranspose =
      inForce (s.params kParamTranspose) (entries inEvents) := by
  obtain ⟨headers, hheaders, hret⟩ := Except.bind_eq_ok h
  cases hret
  cases inEvents with
  | none => cases hheaders
  | some list =>
    rw [entries_map (headers_ok hheaders)]
    exact (congrFun (stores_params State.params flushEvent (fun _ _ => rfl) headers s) _).trans
      (foldl_transpose headers s.params)

theorem deliver_ok {s s' : State D} {d : Delivery D S} {pushed : List (Event D)}
    (h : deliver s d = .ok (s', pushed)) :
    sentBy d pushed =
        (passedBy (s.params kParamTranspose) d).map (fun p => (p.1, transposed p.2 p.1)) ∧
      s'.params kParamTranspose = inForce (s.params kParamTranspose) d.headers := by
  cases d with
  | block base b memory =>
    obtain ⟨⟨out, memory'⟩, hprocess, hret⟩ := Except.bind_eq_ok h
    cases hret
    obtain ⟨list, hlist, headers, hheaders, hpushed, hself⟩ := process_ok hprocess
    have hentries : entries b.inEvents = headers := by
      rw [hlist]
      exact entries_map hheaders
    refine ⟨?_, hself.trans ?_⟩
    · show ((entries b.inEvents).filter _).zip out.pushed = (passedOn _ (entries b.inEvents)).map _
      rw [hentries, hpushed, ← map_fst_passedOn, List.zip_map']
    · show _ = inForce _ (entries b.inEvents)
      rw [hentries]
  | flush base inEvents hasOutEvents =>
    obtain ⟨out, hflush, hret⟩ := Except.bind_eq_ok h
    cases hret
    exact ⟨rfl, paramsFlush_ok hflush⟩

theorem sent_eq {deliveries : List (Delivery D S)} :
    ∀ {s s' : State D} {outputs : List (List (Event D))},
      Machine.run deliver s deliveries = .ok (s', outputs) →
      sent deliveries outputs = (passedIn (s.params kParamTranspose) deliveries).map
        fun p => (p.1, transposed p.2 p.1) := by
  induction deliveries with
  | nil =>
    intro s s' outputs h
    cases h
    rfl
  | cons d deliveries ih =>
    intro s s' outputs h
    obtain ⟨s₁, pushed, later, hd, hrest, rfl⟩ := Machine.run_cons_ok h
    obtain ⟨hsent, hself⟩ := deliver_ok hd
    show sentBy d pushed ++ sent deliveries later = _
    rw [hsent, ih hrest, hself, ← List.map_append]
    rfl

/-! ## Note-offs -/

omit [DoubleOps D] in
/-- If the second input ends the note that the first one begins, so do the outputs. -/
def Meets (on off : Event D × Event D) : Prop :=
  ∀ a, on.1.startsNote = some a → off.1.endsNote = some a →
    off.2.endsNote.map NoteAddress.key = on.2.startsNote.map NoteAddress.key

omit [DoubleOps D] in
/-- If the second event ends the note that the first one begins, the Transposes in force take its
    key to the same place. -/
def SameShift (on off : Event D × Int) : Prop :=
  ∀ a, on.1.startsNote = some a → off.1.endsNote = some a →
    movedKey off.2 a.key = movedKey on.2 a.key

omit [DoubleOps D] in
theorem meets_iff (on off : Event D × Int) :
    Meets (on.1, transposed on.2 on.1) (off.1, transposed off.2 off.1) ↔ SameShift on off := by
  refine forall_congr' fun a => imp_congr_right fun hon => imp_congr_right fun hoff => ?_
  dsimp only at hon hoff ⊢
  rw [endsNote_transposed, startsNote_transposed, hon, hoff]
  exact Option.some_inj

/-- In every run of blocks and flushes, each note-off leaves with the key of the note-ons it
    followed exactly if at each pair the two Transposes in force, truncated and clamped, agree on
    the key. -/
theorem offs_meet_ons_iff {s s' : State D} {deliveries : List (Delivery D S)}
    {outputs : List (List (Event D))}
    (h : Machine.run deliver s deliveries = .ok (s', outputs)) :
    (sent deliveries outputs).Pairwise Meets ↔
      (passedIn (s.params kParamTranspose) deliveries).Pairwise SameShift := by
  rw [sent_eq h, List.pairwise_map]
  exact List.Pairwise.iff meets_iff

/-- An active instance at 48000 Hz without a host. -/
def activeBase : Base ExactFloat := { isActive := true, sampleRate := 48000, host := none }

def noteDelivery (bodies : List (EventBody ExactFloat)) : Delivery ExactFloat ExactFloat :=
  .block activeBase
    { framesCount := 64
      inEvents := some (.ofList (bodies.map fun body => { size := 40, time := 0, body := body })) }
    silentMemory

def transposeTo (x : ExactFloat) : EventBody ExactFloat :=
  .paramValue { paramId := kParamTranspose } x

/-- Half a semitone is no semitone: the note-off in the next block meets its note-on. -/
theorem offs_meet_ons_iff_half :
    ∃ s outputs, Machine.run deliver create
        [noteDelivery [.noteOn (noteOf 60), transposeTo (1 / 2)],
          noteDelivery [.noteOff (noteOf 60)]] = .ok (s, outputs) ∧
      (sent [noteDelivery [.noteOn (noteOf 60), transposeTo (1 / 2)],
          noteDelivery [.noteOff (noteOf 60)]] outputs).Pairwise Meets := by
  refine ⟨_, _, rfl, (offs_meet_ons_iff rfl).mpr ?_⟩
  refine List.pairwise_pair.mpr fun a hon _ => ?_
  cases hon
  show movedKey (DoubleOps.toInt (1 / 2 : ExactFloat)) 60 =
    movedKey (DoubleOps.toInt (0 : ExactFloat)) 60
  decide +kernel

/-- An octave is: the note-on left with key 60, the note-off leaves with key 72. -/
theorem off_leaves_with_other_key :
    ∃ s outputs, Machine.run deliver create
        [noteDelivery [.noteOn (noteOf 60), transposeTo 12],
          noteDelivery [.noteOff (noteOf 60)]] = .ok (s, outputs) ∧
      ¬ (sent [noteDelivery [.noteOn (noteOf 60), transposeTo 12],
          noteDelivery [.noteOff (noteOf 60)]] outputs).Pairwise Meets := by
  refine ⟨_, _, rfl, fun h => ?_⟩
  have hkeys := List.pairwise_pair.mp h _ rfl rfl
  cases hkeys

end NoteFxPlugin

end Cvp
