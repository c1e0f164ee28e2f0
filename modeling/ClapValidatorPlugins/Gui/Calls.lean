/-
  The GUI flavor's parameters and its edit queue, used from several threads: the editor's edits,
  the host events and the drain of `process` and `paramsFlush`, the stores of `stateLoad`, and the
  clear of `deactivate`. Each store into a parameter, each section under the queue's mutex and each
  `try_push` is a step; an output list is never full. Taken alone a call does what the sequential
  model of it does (`flush_alone` and its like).

  Left out: the transport snapshot, `request_flush`, and what `process` reads for the audio.
-/
import ClapValidatorPlugins.Lib.Interleaving
import ClapValidatorPlugins.Lib.Yields
import ClapValidatorPlugins.Plugins.Gui

namespace Cvp.GuiPlugin

open ParamEventQueue Interleaving

variable {D : Type}

/-! ## The steps -/

/-- What the calls share. -/
structure Memory (D : Type) where
  params : ParamValues D
  paramQueue : List (Item D) := []

/-- A call on the flavor. Of `process` only its ports and events are kept; `stateLoad` comes with
    the records its stream yields and whether it yields all of them. -/
inductive Request (D : Type) where
  | edit (edit : UiEdit D)
  | process (hasPorts : Bool) (events : List (Event D)) (hasOutEvents : Bool)
  | paramsFlush (events : List (Event D)) (hasOutEvents : Bool)
  | stateLoad (records : List (ClapId × D)) (ok : Bool)
  | deactivate

/-- What a call does next. -/
inductive Place (D : Type) where
  /-- the store of `guiSetValue` -/
  | store (id : ClapId) (x : D)
  | push (item : Item D)
  /-- the host events still to apply, then the swap -/
  | events (rest : List (Event D)) (hasOutEvents : Bool)
  /-- the rest of the batch -/
  | items (rest : List (Item D)) (hasOutEvents : Bool)
  /-- the push of a value that was just applied -/
  | forward (item : Item D) (rest : List (Item D))
  | load (rest : List (ClapId × D)) (ok : Bool)
  | clear
  | returned

/-- What a step does, as seen from outside. -/
inductive Seen (D : Type) where
  /-- a write by `guiSetValue`, or by a host event or a `stateLoad` that succeeds -/
  | wrote (byEditor : Bool) (id : ClapId) (x : D)
  | emitted (event : Event D)
  | other

/-- What applying the event is seen as. -/
def seenOf (header : Event D) : Seen D :=
  match paramValueOf header with
  | some (id, x) => .wrote false id x
  | none => .other

def step (m : Memory D) : Place D → Option (Memory D × Place D × Seen D)
  | .store id x =>
    some ({ m with params := storeParam paramIds m.params id x }, .push (.value id x),
      .wrote true id x)
  | .push item => some ({ m with paramQueue := m.paramQueue ++ [item] }, .returned, .other)
  | .events (header :: rest) hasOutEvents =>
    some ({ m with params := applyParamValue paramIds m.params header },
      .events rest hasOutEvents, seenOf header)
  | .events [] hasOutEvents =>
    some ({ m with paramQueue := [] }, .items m.paramQueue hasOutEvents, .other)
  | .items (.value id x :: rest) hasOutEvents =>
    some ({ m with params := storeParam paramIds m.params id x },
      if hasOutEvents then .forward (.value id x) rest else .items rest hasOutEvents, .other)
  | .items (item :: rest) hasOutEvents =>
    some (m, .items rest hasOutEvents, if hasOutEvents then .emitted item.event else .other)
  | .items [] _ => some (m, .returned, .other)
  | .forward item rest => some (m, .items rest true, .emitted item.event)
  | .load ((id, x) :: rest) ok =>
    some ({ m with params := storeParam paramIds m.params id x }, .load rest ok,
      if ok then .wrote false id x else .other)
  | .load [] _ => some (m, .returned, .other)
  | .clear => some ({ m with paramQueue := [] }, .returned, .other)
  | .returned => none

def startPlace : Request D → Place D
  | .edit (.beginGesture id) => .push (.gestureBegin id)
  | .edit (.setValue id x) => .store id x
  | .edit (.endGesture id) => .push (.gestureEnd id)
  | .process hasPorts events hasOutEvents =>
    if hasPorts then .events events hasOutEvents else .returned
  | .paramsFlush events hasOutEvents => .events events hasOutEvents
  | .stateLoad records ok => .load records ok
  | .deactivate => .clear

def program : Program (Memory D) (Request D) (Place D) (Seen D) where
  start := startPlace
  step := step

abbrev Pool (D : Type) := Interleaving.Pool (Memory D) (Place D)

/-- A call of the editor's thread that has not returned. -/
def Place.isEdit : Place D → Bool
  | .store _ _ | .push _ => true
  | _ => false

def Place.isReturned : Place D → Bool
  | .returned => true
  | _ => false

/-! ## A call that runs alone -/

/-- What was pushed into output lists, in order. -/
def emittedOf (seen : List (Option (Seen D))) : List (Event D) :=
  seen.filterMap fun
    | some (.emitted event) => some event
    | _ => none

/-- The shared part of the flavor's members. -/
def State.memory (s : State D) : Memory D := { params := s.params, paramQueue := s.paramQueue }

/-- A call that runs from its start to its return with no other call under way ends in `m'` and
    has pushed `pushed`. -/
def Alone (request : Request D) (m m' : Memory D) (pushed : List (Event D)) : Prop :=
  ∃ moves seen, Machine.run program.next ⟨m, [startPlace request]⟩ moves =
    .ok (⟨m', [.returned]⟩, seen) ∧ emittedOf seen = pushed

theorem run_single {m m' : Memory D} {c c' : Place D} {o : Seen D} {pool : Pool D}
    {moves : List (Move (Request D))} {seen : List (Option (Seen D))}
    (h : step m c = some (m', c', o))
    (hrest : Machine.run program.next ⟨m', [c']⟩ moves = .ok (pool, seen)) :
    Machine.run program.next ⟨m, [c]⟩ (.advance 0 :: moves) = .ok (pool, some o :: seen) := by
  have hnext : program.next ⟨m, [c]⟩ (.advance 0) = .ok (⟨m', [c']⟩, some o) := next_advance rfl h
  exact Machine.run_cons hnext hrest

/-- Applying an event pushes nothing. -/
theorem emittedOf_seenOf (header : Event D) (seen : List (Option (Seen D))) :
    emittedOf (some (seenOf header) :: seen) = emittedOf seen := by
  unfold seenOf
  cases paramValueOf header with
  | none => rfl
  | some r => rfl

theorem run_items (hasOutEvents : Bool) (batch : List (Item D)) :
    ∀ m : Memory D, ∃ moves seen, Machine.run program.next ⟨m, [.items batch hasOutEvents]⟩ moves =
        .ok (⟨{ m with params := batch.foldl (applyItem paramIds) m.params }, [.returned]⟩, seen) ∧
      emittedOf seen = if hasOutEvents then batch.map Item.event else [] := by
  induction batch with
  | nil =>
    intro m
    refine ⟨[.advance 0], [some .other], run_single rfl rfl, ?_⟩
    cases hasOutEvents <;> rfl
  | cons item batch ih =>
    intro m
    cases item with
    | value id x =>
      obtain ⟨moves, seen, hrun, hseen⟩ := ih { m with params := storeParam paramIds m.params id x }
      cases hasOutEvents with
      | true => exact ⟨_, _, run_single rfl (run_single rfl hrun), congrArg (_ :: ·) hseen⟩
      | false => exact ⟨_, _, run_single rfl hrun, hseen⟩
    | gestureBegin id =>
      obtain ⟨moves, seen, hrun, hseen⟩ := ih m
      cases hasOutEvents with
      | true => exact ⟨_, _, run_single rfl hrun, congrArg (_ :: ·) hseen⟩
      | false => exact ⟨_, _, run_single rfl hrun, hseen⟩
    | gestureEnd id =>
      obtain ⟨moves, seen, hrun, hseen⟩ := ih m
      cases hasOutEvents with
      | true => exact ⟨_, _, run_single rfl hrun, congrArg (_ :: ·) hseen⟩
      | false => exact ⟨_, _, run_single rfl hrun, hseen⟩

theorem run_events (hasOutEvents : Bool) (headers : List (Event D)) :
    ∀ m : Memory D, ∃ moves seen,
      Machine.run program.next ⟨m, [.events headers hasOutEvents]⟩ moves =
        .ok (⟨{ m with params := headers.foldl (applyParamValue paramIds) m.params },
          [.events [] hasOutEvents]⟩, seen) ∧ emittedOf seen = [] := by
  induction headers with
  | nil => exact fun m => ⟨[], [], rfl, rfl⟩
  | cons header headers ih =>
    intro m
    obtain ⟨moves, seen, hrun, hseen⟩ :=
      ih { m with params := applyParamValue paramIds m.params header }
    exact ⟨_, _, run_single rfl hrun, (emittedOf_seenOf header seen).trans hseen⟩

/-- The events, the swap and the batch. -/
theorem drain_alone (m : Memory D) (headers : List (Event D)) (hasOutEvents : Bool) :
    Alone (.paramsFlush headers hasOutEvents) m
      { params := (drain paramIds (headers.foldl (applyParamValue paramIds) m.params) m.paramQueue
          hasOutEvents).1 }
      (drain paramIds (headers.foldl (applyParamValue paramIds) m.params) m.paramQueue
        hasOutEvents).2 := by
  obtain ⟨moves, seen, hrun, hseen⟩ := run_events hasOutEvents headers m
  let m₁ : Memory D := { m with params := headers.foldl (applyParamValue paramIds) m.params }
  obtain ⟨moves', seen', hrun', hseen'⟩ :=
    run_items hasOutEvents m.paramQueue { m₁ with paramQueue := [] }
  refine ⟨_, _, Machine.run_append hrun (run_single rfl hrun'), ?_⟩
  rw [emittedOf, List.filterMap_append]
  show emittedOf seen ++ emittedOf seen' = _
  rw [hseen, hseen']
  rfl

theorem uiEdit_alone (base : Base D) (s : State D) (edit : UiEdit D) :
    Alone (.edit edit) s.memory (uiEdit base s edit).self.memory [] := by
  cases edit with
  | beginGesture id => exact ⟨[.advance 0], _, rfl, rfl⟩
  | setValue id x => exact ⟨[.advance 0, .advance 0], _, rfl, rfl⟩
  | endGesture id => exact ⟨[.advance 0], _, rfl, rfl⟩

theorem deactivate_alone (base : Base D) (s : State D) :
    Alone .deactivate s.memory (deactivate base s).self.memory [] :=
  ⟨[.advance 0], _, rfl, rfl⟩

theorem flush_alone {base : Base D} {s : State D} {inEvents : Option (InputEvents D)}
    {headers : List (Event D)} (hheaders : unguardedHeaders inEvents = .ok headers)
    {hasOutEvents : Bool} {out : Outcome D (State D) Unit}
    (h : paramsFlush base s inEvents hasOutEvents = .ok out) :
    Alone (.paramsFlush headers hasOutEvents) s.memory out.self.memory out.pushed := by
  rw [paramsFlush, hheaders] at h
  have hself : (consume (fun s e => Outcome.done (applyParamEvent s e)) s headers).self =
      { s with params := headers.foldl (applyParamValue paramIds) s.params } := by
    rw [consume_done, Outcome.done, foldl_applyParamEvent]
  cases h
  have hdrain := drain_alone s.memory headers hasOutEvents
  rw [hself]
  exact hdrain

section Block

variable {S : Type} [DoubleOps D] [FloatOps S] [FloatCast D S]

theorem process_alone {base : Base D} {s : State D} {block : ProcessBlock D}
    {memory : AudioMemory D S} {headers : List (Event D)}
    (hheaders : guardedHeaders block.inEvents = .ok headers)
    {r : Outcome D (State D) ProcessStatus × AudioMemory D S}
    (h : process base s block memory = .ok r) :
    Alone (.process (!block.audioInputs.isEmpty && !block.audioOutputs.isEmpty) headers
      block.hasOutEvents) s.memory r.1.self.memory r.1.pushed := by
  unfold process at h
  split at h
  · rename_i input inputs output outputs hin hout
    rw [hheaders] at h
    have hports : (!block.audioInputs.isEmpty && !block.audioOutputs.isEmpty) = true := by
      rw [hin, hout]
      rfl
    rw [hports]
    obtain ⟨_, hheads, hrest⟩ := Except.bind_eq_ok h
    cases hheads
    obtain ⟨m, -, hok⟩ := Except.bind_eq_ok hrest
    cases hok
    have hdrain := drain_alone s.memory headers block.hasOutEvents
    dsimp only
    rw [foldl_processEvent, foldl_applyParamEvent]
    exact hdrain
  · rename_i hports
    cases h
    have hnone : (!block.audioInputs.isEmpty && !block.audioOutputs.isEmpty) = false := by
      cases hin : block.audioInputs with
      | nil => rfl
      | cons input inputs =>
        cases hout : block.audioOutputs with
        | nil => rfl
        | cons output outputs => exact (hports _ _ _ _ hin hout).elim
    rw [hnone]
    exact ⟨[], _, rfl, rfl⟩

end Block

section Load

/-- The stores of the record loop. -/
def storeRecords (ids : List ClapId) (values : ParamValues D) (records : List (ClapId × D)) :
    ParamValues D :=
  records.foldl (fun values r => storeParam ids values r.1 r.2) values

theorem run_load (ok : Bool) (records : List (ClapId × D)) :
    ∀ m : Memory D, Alone (.stateLoad records ok) m
      { m with params := storeRecords paramIds m.params records } [] := by
  induction records with
  | nil => exact fun m => ⟨[.advance 0], _, rfl, rfl⟩
  | cons record records ih =>
    intro m
    obtain ⟨moves, seen, hrun, hseen⟩ :=
      ih { m with params := storeParam paramIds m.params record.1 record.2 }
    refine ⟨_, _, run_single rfl hrun, ?_⟩
    cases ok with
    | false => exact hseen
    | true => exact hseen

variable [DoubleBits D]

/-- Every record is stored as it is read, whether or not the stream ends too soon. -/
theorem loadRecords_stores (ids : List ClapId) (count : Nat) :
    ∀ (values : ParamValues D) (stream : IStream), Yields (loadRecords ids count values stream)
      fun r => ∃ records, r.2.1 = storeRecords ids values records := by
  induction count with
  | zero => exact fun values stream => Yields.of_ok ⟨[], rfl⟩
  | succ count ih =>
    intro values stream
    rw [loadRecords]
    split
    · exact Yields.of_error _
    · exact Yields.of_ok ⟨[], rfl⟩
    · rename_i id stream₁ _
      split
      · exact Yields.of_error _
      · exact Yields.of_ok ⟨[], rfl⟩
      · rename_i x stream₂ _
        refine (ih _ _).mono fun r hr => ?_
        obtain ⟨records, hrecords⟩ := hr
        exact ⟨(id, x) :: records, hrecords⟩

theorem load_alone {s : State D} {stream stream' : IStream} {out : Outcome D (State D) Bool}
    (h : stateLoad s stream = .ok (out, stream')) :
    ∃ records, Alone (.stateLoad records out.value) s.memory out.self.memory [] := by
  have hstores : Yields (loadCounted kStateMagic paramIds s.params stream) fun r =>
      ∃ records, r.2.1 = storeRecords paramIds s.params records := by
    unfold loadCounted
    split
    · exact Yields.of_error _
    · exact Yields.of_ok ⟨[], rfl⟩
    · split
      · exact Yields.of_error _
      · exact Yields.of_ok ⟨[], rfl⟩
      · exact loadRecords_stores _ _ _ _
  obtain ⟨⟨ok, params, stream₁⟩, hload, hrest⟩ := Except.bind_eq_ok h
  cases hrest
  obtain ⟨records, hrecords⟩ := hstores _ hload
  obtain rfl : params = storeRecords paramIds s.params records := hrecords
  exact ⟨records, run_load ok records s.memory⟩

end Load

/-! ## The editor's thread -/

theorem step_isEdit {m m' : Memory D} {c c' : Place D} {o : Seen D}
    (h : step m c = some (m', c', o)) (hedit : c.isEdit = false) : c'.isEdit = false := by
  cases c with
  | store id x => cases hedit
  | push item => cases hedit
  | events rest hasOutEvents => cases rest <;> cases h <;> rfl
  | items rest hasOutEvents =>
    cases rest with
    | nil =>
      cases h
      rfl
    | cons item rest => cases item <;> cases hasOutEvents <;> cases h <;> rfl
  | forward item rest =>
    cases h
    rfl
  | load rest ok => cases rest <;> cases h <;> rfl
  | clear =>
    cases h
    rfl
  | returned => cases h

theorem isEdit_startPlace {request : Request D} (h : ∀ edit, request ≠ .edit edit) :
    (startPlace request).isEdit = false := by
  cases request with
  | edit edit => exact absurd rfl (h edit)
  | process hasPorts events hasOutEvents => cases hasPorts <;> rfl
  | paramsFlush events hasOutEvents => rfl
  | stateLoad records ok => rfl
  | deactivate => rfl

/-- One edit is under way at most. -/
def OneEdit (calls : List (Place D)) : Prop :=
  AllPairs (fun c d => c.isEdit = false ∨ d.isEdit = false) calls

theorem OneEdit.set {m m' : Memory D} {calls : List (Place D)} {i : Nat} {c c' : Place D}
    {o : Seen D} (h : OneEdit calls) (hc : calls[i]? = some c)
    (hs : step m c = some (m', c', o)) : OneEdit (calls.set i c') := by
  refine AllPairs.set h fun j d hij hd => ?_
  have hpair : c'.isEdit = false ∨ d.isEdit = false :=
    (h i j c d hij hc hd).imp_left (step_isEdit hs)
  exact ⟨hpair, hpair.symm⟩

theorem OneEdit.append {calls : List (Place D)} {request : Request D} (h : OneEdit calls)
    (hfree : ∀ edit, request = .edit edit → ∀ c ∈ calls, c.isEdit = false) :
    OneEdit (calls ++ [startPlace request]) := by
  refine AllPairs.append h fun d hd => ?_
  have hpair : (startPlace request).isEdit = false ∨ d.isEdit = false := by
    by_cases hedit : ∃ edit, request = .edit edit
    · obtain ⟨edit, hedit⟩ := hedit
      exact .inr (hfree edit hedit d hd)
    · exact .inl (isEdit_startPlace fun edit heq => hedit ⟨edit, heq⟩)
  exact ⟨hpair, hpair.symm⟩

/-- What the others have to do as edits is nothing. -/
theorem OneEdit.alone {calls : List (Place D)} {i : Nat} {c : Place D} (h : OneEdit calls)
    (hc : calls[i]? = some c) (hedit : c.isEdit = true) {α : Type} {todo : Place D → List α}
    (htodo : ∀ d : Place D, d.isEdit = false → todo d = []) (j : Nat) (d : Place D) (hij : i ≠ j)
    (hd : calls[j]? = some d) : todo d = [] := by
  rcases h i j c d hij hc hd with hnot | hnot
  · rw [hedit] at hnot
    cases hnot
  · exact htodo d hnot

end Cvp.GuiPlugin
