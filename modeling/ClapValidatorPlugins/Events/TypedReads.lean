/-
  The memory accesses of `checkParamEvents`. An event is a header of 16 bytes and whatever its
  type adds; the host says in `header.size` how many bytes there are. The size is tested against
  the header only, and then the fields of `clap_event_param_value` or `clap_event_param_mod` are
  read, whose struct has 56 bytes. So an event of these types that ends in between is read past
  its end or at least taken for a whole one (`typedReads_inside_iff`).

  For whole events the checks are those of the typed model (`rawCheckParamEvents_typed`).
-/
import ClapValidatorPlugins.Events.Verdicts
import ClapValidatorPlugins.Lib.LittleEndian
import Mathlib.Data.Int.Init

namespace Cvp

/-! ## Events as bytes -/

/-- `CLAP_EVENT_PARAM_VALUE`. -/
def kEventParamValue : Nat := 5

/-- `CLAP_EVENT_PARAM_MOD`. -/
def kEventParamMod : Nat := 6

/-- `clap_event_header` and the bytes from its address on: those below `size` are the event's. -/
structure RawEvent where
  size : Nat
  time : Nat
  spaceId : Nat := coreEventSpaceId
  type : Nat
  flags : EventFlags := {}
  memory : Nat → UInt8

/-- `clap_input_events` over such events. -/
structure RawInputEvents where
  hasSize : Bool := true
  hasGet : Bool := true
  events : List (Option RawEvent)

/-- A field of a struct: where it begins and how many bytes it has. -/
structure Field where
  offset : Nat
  width : Nat
  deriving DecidableEq, Repr

/-- The fields of a parameter event behind the header. -/
structure ParamLayout where
  paramId : Field
  cookie : Field
  noteId : Field
  portIndex : Field
  channel : Field
  key : Field
  amount : Field

/-- `clap_event_param_value`. -/
def paramValueLayout : ParamLayout where
  paramId := ⟨16, 4⟩
  cookie := ⟨24, 8⟩
  noteId := ⟨32, 4⟩
  portIndex := ⟨36, 2⟩
  channel := ⟨38, 2⟩
  key := ⟨40, 2⟩
  amount := ⟨48, 8⟩

/-- `clap_event_param_mod`: `amount` stands where the value does. -/
def paramModLayout : ParamLayout := paramValueLayout

namespace RawEvent

/-- The number in a field. -/
def read (e : RawEvent) (f : Field) : Nat :=
  LittleEndian.decode ((List.range f.width).map fun i => e.memory (f.offset + i))

/-- The signed number in a field. -/
def readSigned (e : RawEvent) (f : Field) : Int := Int.bmod (e.read f) (256 ^ f.width)

/-- A pointer. -/
def readPtr (e : RawEvent) (f : Field) : Option Ptr :=
  if e.read f = 0 then none else some (e.read f)

/-- The fields behind the header, read as those of `layout`. -/
def target (e : RawEvent) (layout : ParamLayout) : ParamTarget where
  paramId := UInt32.ofNat (e.read layout.paramId)
  cookie := e.readPtr layout.cookie
  noteId := e.readSigned layout.noteId
  portIndex := e.readSigned layout.portIndex
  channel := e.readSigned layout.channel
  key := e.readSigned layout.key

def isCore (e : RawEvent) : Bool := e.spaceId == coreEventSpaceId

def isMalformed (e : RawEvent) : Bool := decide (e.size < sizeofEventHeader)

/-- A core event of one of the two types. -/
def isParam (e : RawEvent) : Bool :=
  e.isCore && (e.type == kEventParamValue || e.type == kEventParamMod)

/-- A core event of one of the two types without room for the struct of its type. -/
def isTooSmall (e : RawEvent) : Bool := e.isParam && decide (e.size < sizeofParamValue)

end RawEvent

/-- The loop behind the null checks. -/
def RawInputEvents.readable (events : Option RawInputEvents) : List (Option RawEvent) :=
  match events with
  | some list => if list.hasSize && list.hasGet then list.events else []
  | none => []

/-! ## The reads -/

/-- What a run of the checks reads behind the headers, and what it reports. -/
structure CheckRun where
  reads : List (RawEvent × Field) := []
  found : List Finding := []

namespace CheckRun

def append (a b : CheckRun) : CheckRun := ⟨a.reads ++ b.reads, a.found ++ b.found⟩

/-- Every byte read is one of the event's. -/
def IsInside (run : CheckRun) : Prop :=
  ∀ r ∈ run.reads, r.2.offset + r.2.width ≤ r.1.size

end CheckRun

/-- The five fields that are read for the checks, in this order. -/
def ParamLayout.checked (layout : ParamLayout) : List Field :=
  [layout.paramId, layout.cookie, layout.noteId, layout.key, layout.channel]

/-- The loop body of `checkParamEvents` on event `i`. -/
def rawParamEvent (m : ContractMonitor) (playing : Bool) (i : Nat) (header : Option RawEvent) :
    CheckRun :=
  match header with
  | none => {}
  | some e =>
    if !e.isCore || e.isMalformed then {}
    else if e.type = kEventParamValue then
      { reads := paramValueLayout.checked.map fun f => (e, f)
        found := targetFindings m i (e.target paramValueLayout) (valueFindings playing i) }
    else if e.type = kEventParamMod then
      { reads := paramModLayout.checked.map fun f => (e, f)
        found := targetFindings m i (e.target paramModLayout) (modFindings i) }
    else {}

def rawParamEvents (m : ContractMonitor) (playing : Bool) :
    Nat → List (Option RawEvent) → CheckRun
  | _, [] => {}
  | i, header :: rest =>
    (rawParamEvent m playing i header).append (rawParamEvents m playing (i + 1) rest)

/-- `checkParamEvents`, on the memory. -/
def rawCheckParamEvents {D : Type} (m : ContractMonitor) (events : Option RawInputEvents)
    (transport : Option (Transport D)) : CheckRun :=
  if m.hasParams then rawParamEvents m (isPlaying transport) 0 (RawInputEvents.readable events)
  else {}

/-- A small event is treated as malformed if the loop passes over it as over a missing one. -/
def RawInputEvents.withoutTooSmall (list : RawInputEvents) : RawInputEvents :=
  { list with events := list.events.map fun header => header.filter fun e => !e.isTooSmall }

/-- No byte behind an event is read, and no event that is too small for its type is looked at. -/
def ReadsWithinEvents {D : Type} (m : ContractMonitor) (events : Option RawInputEvents)
    (transport : Option (Transport D)) : Prop :=
  (rawCheckParamEvents m events transport).IsInside ∧
    rawCheckParamEvents m (events.map RawInputEvents.withoutTooSmall) transport =
      rawCheckParamEvents m events transport

/-- An event of one of the two types with a whole header has its whole struct. -/
def NoneTruncated (events : Option RawInputEvents) : Prop :=
  ∀ e, some e ∈ RawInputEvents.readable events → e.isParam = true → sizeofEventHeader ≤ e.size →
    sizeofParamValue ≤ e.size

/-! ## The typed model -/

section Typed

variable {D : Type} [DoubleBits D]

/-- The event as the typed model has it; what the other types hold, no check reads. -/
def RawEvent.typed (e : RawEvent) : Event D where
  size := e.size
  time := e.time
  spaceId := e.spaceId
  flags := e.flags
  body :=
    if e.type = kEventParamValue then .paramValue (e.target paramValueLayout)
      (DoubleBits.ofBits (UInt64.ofNat (e.read paramValueLayout.amount)))
    else if e.type = kEventParamMod then .paramMod (e.target paramModLayout)
      (DoubleBits.ofBits (UInt64.ofNat (e.read paramModLayout.amount)))
    else .other e.type

def RawInputEvents.typed (list : RawInputEvents) : InputEvents D where
  hasSize := list.hasSize
  hasGet := list.hasGet
  events := list.events.map (Option.map RawEvent.typed)

theorem readableEvents_typed (events : Option RawInputEvents) :
    readableEvents (events.map (RawInputEvents.typed (D := D))) =
      (RawInputEvents.readable events).map (Option.map RawEvent.typed) := by
  cases events with
  | none => rfl
  | some list =>
    unfold readableEvents RawInputEvents.readable RawInputEvents.typed
    dsimp only [Option.map_some]
    split <;> rfl

theorem rawParamEvent_typed (m : ContractMonitor) (playing : Bool) (i : Nat)
    (header : Option RawEvent) :
    (rawParamEvent m playing i header).found =
      paramEventFindings m playing i (header.map (RawEvent.typed (D := D))) := by
  cases header with
  | none => rfl
  | some e =>
    show _ = if !e.isCore || e.isMalformed then [] else _
    unfold rawParamEvent
    dsimp only
    by_cases hskip : (!e.isCore || e.isMalformed) = true
    · rw [if_pos hskip, if_pos hskip]
    · rw [if_neg hskip, if_neg hskip]
      unfold RawEvent.typed
      dsimp only
      by_cases hvalue : e.type = kEventParamValue
      · rw [if_pos hvalue, if_pos hvalue]
      · rw [if_neg hvalue, if_neg hvalue]
        by_cases hmod : e.type = kEventParamMod
        · rw [if_pos hmod, if_pos hmod]
        · rw [if_neg hmod, if_neg hmod]

/-- The checks on the memory report what the typed checks report. -/
theorem rawCheckParamEvents_typed (m : ContractMonitor) (events : Option RawInputEvents)
    (transport : Option (Transport D)) :
    (rawCheckParamEvents m events transport).found =
      checkParamEvents m (events.map RawInputEvents.typed) transport := by
  have hlist : ∀ (es : List (Option RawEvent)) (i : Nat),
      (rawParamEvents m (isPlaying transport) i es).found =
        paramEventsFindings m (isPlaying transport) i
          (es.map (Option.map (RawEvent.typed (D := D)))) := by
    intro es
    induction es with
    | nil => exact fun i => rfl
    | cons header es ih =>
      intro i
      show (rawParamEvent m (isPlaying transport) i header).found ++ _ = _
      rw [rawParamEvent_typed (D := D), ih]
      rfl
  unfold rawCheckParamEvents checkParamEvents
  rw [readableEvents_typed]
  split
  · exact hlist _ 0
  · rfl

end Typed

/-! ## Where the reads are -/

theorem mem_rawParamEvent_reads (m : ContractMonitor) (playing : Bool) (i : Nat)
    (header : Option RawEvent) (r : RawEvent × Field) :
    r ∈ (rawParamEvent m playing i header).reads ↔ header = some r.1 ∧ r.1.isParam = true ∧
      sizeofEventHeader ≤ r.1.size ∧ r.2 ∈ paramValueLayout.checked := by
  obtain ⟨e', f⟩ := r
  cases header with
  | none => simp [rawParamEvent]
  | some e =>
    have hskip : (!e.isCore || e.isMalformed) = true ↔
        ¬ (e.isCore = true ∧ sizeofEventHeader ≤ e.size) := by
      simp [RawEvent.isMalformed, imp_iff_not_or]
    unfold rawParamEvent RawEvent.isParam paramModLayout
    dsimp only
    by_cases hchecked : e.isCore = true ∧ sizeofEventHeader ≤ e.size
    · rw [if_neg (fun h => hskip.mp h hchecked)]
      by_cases hvalue : e.type = kEventParamValue
      · rw [if_pos hvalue]
        constructor
        · intro hmem
          obtain ⟨f', hf', heq⟩ := List.mem_map.mp hmem
          cases heq
          exact ⟨rfl, by simp [hchecked.1, hvalue], hchecked.2, hf'⟩
        · rintro ⟨⟨⟩, -, -, hf⟩
          exact List.mem_map_of_mem hf
      · rw [if_neg hvalue]
        by_cases hmod : e.type = kEventParamMod
        · rw [if_pos hmod]
          constructor
          · intro hmem
            obtain ⟨f', hf', heq⟩ := List.mem_map.mp hmem
            cases heq
            exact ⟨rfl, by simp [hchecked.1, hmod], hchecked.2, hf'⟩
          · rintro ⟨⟨⟩, -, -, hf⟩
            exact List.mem_map_of_mem hf
        · rw [if_neg hmod]
          refine iff_of_false List.not_mem_nil ?_
          rintro ⟨⟨⟩, hparam, -⟩
          simp [hvalue, hmod] at hparam
    · rw [if_pos (hskip.mpr hchecked)]
      refine iff_of_false List.not_mem_nil ?_
      rintro ⟨⟨⟩, hparam, hsize, -⟩
      exact hchecked ⟨(Bool.and_eq_true_iff.mp hparam).1, hsize⟩

theorem mem_rawParamEvents_reads (m : ContractMonitor) (playing : Bool)
    (es : List (Option RawEvent)) (r : RawEvent × Field) :
    ∀ i : Nat, r ∈ (rawParamEvents m playing i es).reads ↔ some r.1 ∈ es ∧ r.1.isParam = true ∧
      sizeofEventHeader ≤ r.1.size ∧ r.2 ∈ paramValueLayout.checked := by
  induction es with
  | nil => exact fun i => iff_of_false List.not_mem_nil fun h => List.not_mem_nil h.1
  | cons header es ih =>
    intro i
    show r ∈ (rawParamEvent m playing i header).reads ++ _ ↔ _
    rw [List.mem_append, mem_rawParamEvent_reads, ih, List.mem_cons, ← or_and_right,
      eq_comm (a := some r.1)]

theorem mem_rawCheck_reads {D : Type} (m : ContractMonitor) (events : Option RawInputEvents)
    (transport : Option (Transport D)) (r : RawEvent × Field) :
    r ∈ (rawCheckParamEvents m events transport).reads ↔ m.hasParams = true ∧
      some r.1 ∈ RawInputEvents.readable events ∧ r.1.isParam = true ∧
      sizeofEventHeader ≤ r.1.size ∧ r.2 ∈ paramValueLayout.checked := by
  unfold rawCheckParamEvents
  split
  · rename_i hm
    rw [mem_rawParamEvents_reads]
    exact (and_iff_right hm).symm
  · rename_i hm
    exact iff_of_false List.not_mem_nil fun h => hm h.1

theorem readable_withoutTooSmall (events : Option RawInputEvents) :
    RawInputEvents.readable (events.map RawInputEvents.withoutTooSmall) =
      (RawInputEvents.readable events).map fun header => header.filter fun e => !e.isTooSmall := by
  cases events with
  | none => rfl
  | some list =>
    unfold RawInputEvents.readable RawInputEvents.withoutTooSmall
    dsimp only [Option.map_some]
    split <;> rfl

/-- Where no event is truncated, the small ones are malformed. -/
theorem rawParamEvents_withoutTooSmall (m : ContractMonitor) (playing : Bool)
    {es : List (Option RawEvent)}
    (h : ∀ e, some e ∈ es → e.isTooSmall = true → e.isMalformed = true) :
    ∀ i : Nat, rawParamEvents m playing i
        (es.map fun header => header.filter fun e => !e.isTooSmall) =
      rawParamEvents m playing i es := by
  induction es with
  | nil => exact fun i => rfl
  | cons header es ih =>
    intro i
    have hhead : rawParamEvent m playing i (header.filter fun e => !e.isTooSmall) =
        rawParamEvent m playing i header := by
      cases header with
      | none => rfl
      | some e =>
        show rawParamEvent m playing i (if !e.isTooSmall then some e else none) = _
        cases hsmall : e.isTooSmall with
        | false => rfl
        | true =>
          have hmalformed := h e List.mem_cons_self hsmall
          simp [rawParamEvent, hmalformed]
    show (rawParamEvent m playing i _).append _ = (rawParamEvent m playing i header).append _
    rw [hhead, ih fun e he => h e (List.mem_cons_of_mem _ he)]

/-- The struct of the two types reaches to its last checked field and beyond. -/
theorem checked_inside {f : Field} (h : f ∈ paramValueLayout.checked) :
    f.offset + f.width ≤ sizeofParamValue := by
  revert f
  decide

theorem noneTruncated_iff (events : Option RawInputEvents) :
    NoneTruncated events ↔ ∀ e, some e ∈ RawInputEvents.readable events →
      e.isTooSmall = true → e.isMalformed = true := by
  unfold NoneTruncated
  refine forall_congr' fun e => imp_congr_right fun _ => ?_
  unfold RawEvent.isTooSmall RawEvent.isMalformed
  rw [Bool.and_eq_true, decide_eq_true_eq, decide_eq_true_eq]
  constructor
  · rintro h ⟨hparam, hsmall⟩
    exact Nat.lt_of_not_le fun hsize => Nat.not_le_of_lt hsmall (h hparam hsize)
  · intro h hparam hsize
    exact Nat.le_of_not_lt fun hsmall => Nat.not_lt_of_le hsize (h ⟨hparam, hsmall⟩)

theorem readsWithinEvents_iff {D : Type} (m : ContractMonitor) (events : Option RawInputEvents)
    (transport : Option (Transport D)) :
    ReadsWithinEvents m events transport ↔ (m.hasParams = true → NoneTruncated events) := by
  constructor
  · rintro ⟨-, hskip⟩ hm
    rw [noneTruncated_iff]
    intro e he hsmall
    by_contra hmalformed
    have hparam := (Bool.and_eq_true_iff.mp hsmall).1
    have hsize : sizeofEventHeader ≤ e.size := by
      simpa [RawEvent.isMalformed] using hmalformed
    -- its first field is read, but not where the event is left out
    have hread : (e, paramValueLayout.paramId) ∈ (rawCheckParamEvents m events transport).reads :=
      (mem_rawCheck_reads m events transport _).mpr
        ⟨hm, he, hparam, hsize, List.mem_cons_self⟩
    rw [← hskip] at hread
    obtain ⟨-, hmem, -⟩ := (mem_rawCheck_reads m _ transport _).mp hread
    rw [readable_withoutTooSmall] at hmem
    obtain ⟨header, -, hheader⟩ := List.mem_map.mp hmem
    have hkept := (Option.filter_eq_some_iff.mp hheader).2
    simp [hsmall] at hkept
  · intro h
    constructor
    · intro r hr
      obtain ⟨hm, hmem, hparam, hsize, hfield⟩ := (mem_rawCheck_reads m events transport r).mp hr
      exact le_trans (checked_inside hfield) (h hm r.1 hmem hparam hsize)
    · unfold rawCheckParamEvents
      split
      · rename_i hm
        rw [readable_withoutTooSmall]
        exact rawParamEvents_withoutTooSmall m _ ((noneTruncated_iff events).mp (h hm)) 0
      · rfl

/-! ## The two deliveries -/

theorem countP_eq_countP_iff {α : Type} {p q : α → Bool} (h : ∀ x, p x = true → q x = true)
    (xs : List α) : xs.countP p = xs.countP q ↔ ∀ x ∈ xs, q x = true → p x = true := by
  induction xs with
  | nil => simp
  | cons x xs ih =>
    have hle : xs.countP p ≤ xs.countP q := List.countP_mono_left fun y _ => h y
    rw [List.countP_cons, List.countP_cons, List.forall_mem_cons, ← ih]
    cases hp : p x with
    | true => simp [h x hp]
    | false =>
      cases hq : q x with
      | true => simp; omega
      | false => simp

/-- How many events are malformed, or too small for their type. -/
def smallCount (events : Option RawInputEvents) : Nat :=
  (RawInputEvents.readable events).countP fun header =>
    header.any fun e => e.isMalformed || e.isTooSmall

section Deliveries

variable {D : Type} [DoubleBits D]

/-- P06 of a block goes by the header alone. -/
theorem count_P06 (m : ContractMonitor) (events : Option RawInputEvents)
    (block : ProcessBlock D) :
    (Plugin.blockCodes m { block with inEvents := events.map RawInputEvents.typed }).count .P06 =
      (RawInputEvents.readable events).countP fun header => header.any RawEvent.isMalformed := by
  have hparams : ((checkParamEvents m (events.map (RawInputEvents.typed (D := D)))
      block.transport).map (·.violation)).count .P06 = 0 :=
    count_eq_zero_of_ne (checkParamEvents_codes (P := (· ≠ .P06)) nofun nofun nofun nofun nofun
      m _ _)
  rw [blockCodes_count m _ (by decide), hparams, if_pos rfl, Nat.add_zero, malformedCount,
    readableEvents_typed, List.countP_map]
  refine List.countP_congr fun header _ => ?_
  cases header <;> rfl

theorem count_P06_eq_iff (m : ContractMonitor) (events : Option RawInputEvents)
    (block : ProcessBlock D) :
    (Plugin.blockCodes m { block with inEvents := events.map RawInputEvents.typed }).count .P06 =
      smallCount events ↔ NoneTruncated events := by
  rw [count_P06, smallCount, noneTruncated_iff, countP_eq_countP_iff]
  · constructor
    · intro h e he hsmall
      exact h (some e) he (by simp [hsmall])
    · intro h header hheader hany
      cases header with
      | none => cases hany
      | some e =>
        rcases Bool.or_eq_true_iff.mp hany with hmalformed | hsmall
        · exact hmalformed
        · exact h e hheader hsmall
  · intro header hany
    cases header with
    | none => cases hany
    | some e => exact Bool.or_eq_true_iff.mpr (.inl hany)

/-- A list handed to `checkParamEvents`, from a `flush()` or a block: no byte behind an event is
    read and events too small for their type are passed over exactly if the table is empty or no
    parameter event with a whole header lacks a part of its struct. In a block, where a malformed
    event is also to be counted as P06, exactly if there is no such event. -/
theorem typedReads_inside_iff (m : ContractMonitor) (events : Option RawInputEvents) :
    (∀ transport : Option (Transport D), ReadsWithinEvents m events transport ↔
      (m.hasParams = true → NoneTruncated events)) ∧
    ∀ block : ProcessBlock D,
      (ReadsWithinEvents m events block.transport ∧
        (Plugin.blockCodes m
          { block with inEvents := events.map RawInputEvents.typed }).count .P06 =
          smallCount events) ↔ NoneTruncated events := by
  refine ⟨readsWithinEvents_iff m events, fun block => ?_⟩
  rw [count_P06_eq_iff, readsWithinEvents_iff]
  exact ⟨fun h => h.2, fun h => ⟨fun _ => h, h⟩⟩

end Deliveries

/-- A PARAM_VALUE that ends behind its header; `id` stands in the bytes that follow it. -/
def headerOnly (id : UInt8) : RawEvent where
  size := sizeofEventHeader
  time := 0
  type := kEventParamValue
  memory i := if i = 16 then id else 0

/-- It is read past its end, what lies there decides on P08, and it is no P06. -/
theorem headerOnly_read_past_end :
    let m : ContractMonitor := { params := [{ id := 1, flags := {}, cookie := none }] }
    let run := fun id => rawCheckParamEvents m (some { events := [some (headerOnly id)] })
      (none : Option (Transport ExactFloat))
    let block : ProcessBlock ExactFloat :=
      { framesCount := 1
        inEvents := some (RawInputEvents.typed { events := [some (headerOnly 1)] }) }
    ¬ (run 1).IsInside ∧ (run 1).found = [] ∧ (run 2).found.map (·.violation) = [.P08] ∧
      (Plugin.blockCodes m block).count .P06 = 0 := by
  intro m run block
  refine ⟨fun h => ?_, by decide, by decide, by decide⟩
  have hfirst := h (headerOnly 1, paramValueLayout.paramId)
    ((mem_rawCheck_reads m _ none _).mpr
      ⟨rfl, List.mem_cons_self, rfl, le_refl _, List.mem_cons_self⟩)
  exact absurd hfirst (by decide)

end Cvp
