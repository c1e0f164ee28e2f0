/-
  The two layouts of `clap.state` streams: values in a fixed order, and counted records of id
  and value. For each: what a save writes, what a load makes of a stream that carries the values
  (`load_restores`), and what a failed load has stored by then (`load_fails`).
-/
import ClapValidatorPlugins.Lib.Assignments
import ClapValidatorPlugins.Lib.Yields
import ClapValidatorPlugins.Plugins.Common

namespace Cvp

open Assignments Transfer

inductive StateFormat where
  | fixed
  | counted (magic : UInt32)
  deriving DecidableEq, Repr

/-- A parameter id with the 64-bit pattern of a value. -/
abbrev StateRecord := ClapId × UInt64

def recordsBytes (records : List StateRecord) : List UInt8 :=
  records.flatMap fun r => bytesOfUInt32 r.1 ++ bytesOfBits r.2

/-- A counted stream with these records. -/
def countedBytes (magic : UInt32) (records : List StateRecord) : List UInt8 :=
  bytesOfUInt32 magic ++ (bytesOfUInt32 kStateVersion ++
    (bytesOfUInt32 records.length.toUInt32 ++ recordsBytes records))

/-- A fixed stream with these patterns. -/
def fixedBytes (patterns : List UInt64) : List UInt8 :=
  bytesOfUInt32 kStateMagic ++ (bytesOfUInt32 kStateVersion ++ patterns.flatMap bytesOfBits)

section

variable {D : Type} [DoubleBits D]

/-- The values of `ids`, as records in order. -/
def recordsOf (ids : List ClapId) (values : ParamValues D) : List StateRecord :=
  ids.map fun id => (id, DoubleBits.toBits (values id))

/-- A record as a load stores it. -/
def storedRecord (r : StateRecord) : ClapId × D := (r.1, DoubleBits.ofBits r.2)

namespace StateFormat

def save (ids : List ClapId) (values : ParamValues D) (stream : OStream) :
    StateFormat → Exec (Bool × OStream)
  | fixed => saveFixed (ids.map values) stream
  | counted magic => saveRecords magic ids values stream

def load (ids : List ClapId) (values : ParamValues D) (stream : IStream) :
    StateFormat → Exec (Bool × ParamValues D × IStream)
  | fixed => loadFixed ids values stream
  | counted magic => loadCounted magic ids values stream

def bytes (records : List StateRecord) : StateFormat → List UInt8
  | fixed => fixedBytes (records.map (·.2))
  | counted magic => countedBytes magic records

/-- `records` carry the values of `ids`: as saved, or, where ids go along, in any order and with
    records of other ids in between. -/
def Carries (ids : List ClapId) (values : ParamValues D) (records : List StateRecord) :
    StateFormat → Prop
  | fixed => records = recordsOf ids values
  | counted _ => (records.filter fun r => decide (r.1 ∈ ids)).Perm (recordsOf ids values) ∧
      records.length < 2 ^ 32

end StateFormat

/-! ## Saving -/

theorem recordsOf_carries (format : StateFormat) {ids : List ClapId} (values : ParamValues D)
    (hlen : ids.length < 2 ^ 32) : format.Carries ids values (recordsOf ids values) := by
  cases format with
  | fixed => exact rfl
  | counted magic =>
    refine ⟨?_, ?_⟩
    · rw [List.filter_eq_self.mpr]
      intro r hr
      obtain ⟨id, hid, rfl⟩ := List.mem_map.mp hr
      exact decide_eq_true hid
    · rw [recordsOf, List.length_map]
      exact hlen

theorem flatten_recordBytes (ids : List ClapId) (values : ParamValues D) :
    (ids.flatMap fun id => recordBytes id (values id)).flatten =
      recordsBytes (recordsOf ids values) := by
  induction ids with
  | nil => rfl
  | cons id ids ih =>
    rw [List.flatMap_cons, List.flatten_append, ih, recordBytes, List.flatten_cons,
      List.flatten_cons, List.flatten_nil, List.append_nil]
    rfl

/-- An accepting stream is handed the values in the format's order. -/
theorem save_accepts (format : StateFormat) (ids : List ClapId) (values : ParamValues D)
    {stream : OStream} (h : Accepts stream) :
    ∃ stream', format.save ids values stream = .ok (true, stream') ∧
      stream'.taken = stream.taken ++ format.bytes (recordsOf ids values) := by
  cases format with
  | fixed =>
    obtain ⟨stream', hsave, htaken, -⟩ := streamWriteEach_accepts
      (bytesOfUInt32 kStateMagic :: bytesOfUInt32 kStateVersion ::
        (ids.map values).map bytesOfDouble) h
    refine ⟨stream', hsave, htaken.trans ?_⟩
    have hflat : ((ids.map values).map bytesOfDouble).flatten =
        ((recordsOf ids values).map (·.2)).flatMap bytesOfBits := by
      simp only [recordsOf, List.map_map, List.flatMap_def]
      rfl
    rw [List.flatten_cons, List.flatten_cons, hflat]
    rfl
  | counted magic =>
    obtain ⟨stream', hsave, htaken, -⟩ := streamWriteEach_accepts
      (bytesOfUInt32 magic :: bytesOfUInt32 kStateVersion ::
        bytesOfUInt32 ids.length.toUInt32 :: ids.flatMap fun id => recordBytes id (values id)) h
    refine ⟨stream', hsave, htaken.trans ?_⟩
    rw [List.flatten_cons, List.flatten_cons, List.flatten_cons, flatten_recordBytes,
      StateFormat.bytes, countedBytes, recordsOf, List.length_map]

/-! ## Loading what was saved -/

theorem readHeader_delivers (magic : UInt32) {stream : IStream} {back : List UInt8}
    (h : Delivers stream (bytesOfUInt32 magic ++ (bytesOfUInt32 kStateVersion ++ back))) :
    ∃ stream', readHeader magic stream = .ok (true, stream') ∧ Delivers stream' back := by
  obtain ⟨s1, hmagic, h1⟩ := streamReadUInt32_delivers h
  obtain ⟨s2, hversion, h2⟩ := streamReadUInt32_delivers h1
  refine ⟨s2, ?_, h2⟩
  rw [readHeader, hmagic]
  dsimp only
  rw [if_neg (not_not_intro rfl), hversion]
  rfl

theorem readDoubles_delivers (patterns : List UInt64) :
    ∀ {stream : IStream} {back : List UInt8},
      Delivers stream (patterns.flatMap bytesOfBits ++ back) →
      ∃ stream', readDoubles patterns.length stream =
        .ok (some (patterns.map fun b => (DoubleBits.ofBits b : D)), stream') := by
  induction patterns with
  | nil => exact fun {stream back} _ => ⟨stream, rfl⟩
  | cons b bs ih =>
    intro stream back h
    rw [List.flatMap_cons, List.append_assoc] at h
    obtain ⟨s1, hread, h1⟩ := streamReadDouble_delivers (D := D) h
    obtain ⟨s2, hrest⟩ := ih h1
    refine ⟨s2, ?_⟩
    rw [List.length_cons, readDoubles, hread]
    dsimp only
    rw [hrest]
    rfl

theorem loadRecords_delivers (ids : List ClapId) (records : List StateRecord) :
    ∀ {values : ParamValues D} {stream : IStream} {back : List UInt8},
      Delivers stream (recordsBytes records ++ back) →
      ∃ stream', loadRecords ids records.length values stream =
        .ok (true, (records.map storedRecord).foldl
          (fun values r => storeParam ids values r.1 r.2) values, stream') := by
  induction records with
  | nil => exact fun {values stream back} _ => ⟨stream, rfl⟩
  | cons r rs ih =>
    intro values stream back h
    rw [recordsBytes, List.flatMap_cons, List.append_assoc, List.append_assoc] at h
    obtain ⟨s1, hid, h1⟩ := streamReadUInt32_delivers h
    obtain ⟨s2, hvalue, h2⟩ := streamReadDouble_delivers (D := D) h1
    obtain ⟨s3, hrest⟩ := @ih (storeParam ids values r.1 (DoubleBits.ofBits r.2)) _ _ h2
    refine ⟨s3, ?_⟩
    rw [List.length_cons, loadRecords, hid]
    dsimp only
    rw [hvalue]
    exact hrest

omit [DoubleBits D] in
/-- Storing known records only is assigning what is left of them. -/
theorem foldl_storeParam (ids : List ClapId) (values : ParamValues D)
    (records : List (ClapId × D)) :
    records.foldl (fun values r => storeParam ids values r.1 r.2) values =
      assign values (records.filter fun r => decide (r.1 ∈ ids)) := by
  rw [← foldl_ite_eq_assign fun id => decide (id ∈ ids)]
  simp only [storeParam, decide_eq_true_eq]

omit [DoubleBits D] in
/-- So is applying events. -/
theorem foldl_applyParamValue (ids : List ClapId) (headers : List (Event D)) :
    ∀ values : ParamValues D, headers.foldl (applyParamValue ids) values =
      assign values ((headers.filterMap paramValueOf).filter fun r => decide (r.1 ∈ ids)) := by
  induction headers with
  | nil => exact fun values => rfl
  | cons e es ih =>
    intro values
    rw [List.foldl_cons, ih, applyParamValue_eq]
    cases he : paramValueOf e with
    | none => rw [List.filterMap_cons_none he]
    | some r =>
      rw [List.filterMap_cons_some he, ← foldl_storeParam, ← foldl_storeParam]
      rfl

/-- A stream that carries the values of `ids` loads, and every one of them has the pattern it
    was saved with; the other parameters are left alone. -/
theorem load_restores (format : StateFormat) {ids : List ClapId} (hn : ids.Nodup)
    {values : ParamValues D} (old : ParamValues D) {records : List StateRecord}
    (hc : format.Carries ids values records) {stream : IStream} {back : List UInt8}
    (h : Delivers stream (format.bytes records ++ back)) :
    ∃ loaded stream', format.load ids old stream = .ok (true, loaded, stream') ∧
      ∀ id, loaded id =
        if id ∈ ids then DoubleBits.ofBits (DoubleBits.toBits (values id)) else old id := by
  let restored : ParamValues D := fun id => DoubleBits.ofBits (DoubleBits.toBits (values id))
  have htable : (recordsOf ids values).map storedRecord = ids.map fun id => (id, restored id) := by
    rw [recordsOf, List.map_map]
    rfl
  cases format with
  | fixed =>
    obtain rfl : records = recordsOf ids values := hc
    rw [StateFormat.bytes, fixedBytes, List.append_assoc, List.append_assoc] at h
    obtain ⟨s1, hheader, h1⟩ := readHeader_delivers kStateMagic h
    obtain ⟨s2, hdoubles⟩ := readDoubles_delivers (D := D) _ h1
    rw [recordsOf, List.map_map, List.length_map] at hdoubles
    refine ⟨_, s2, ?_, assign_table old restored hn⟩
    rw [StateFormat.load, loadFixed, hheader]
    dsimp only
    rw [hdoubles]
    dsimp only
    rw [List.map_map, commitAll]
    show Except.ok (true, assign old (ids.zip (ids.map restored)), s2) = _
    rw [← List.map_prod_left_eq_zip]
  | counted magic =>
    obtain ⟨hperm, hlen⟩ := hc
    rw [StateFormat.bytes, countedBytes, List.append_assoc, List.append_assoc,
      List.append_assoc] at h
    obtain ⟨s1, hheader, h1⟩ := readHeader_delivers magic h
    obtain ⟨s2, hcount, h2⟩ := streamReadUInt32_delivers h1
    obtain ⟨s3, hrecords⟩ := @loadRecords_delivers D _ ids records old _ _ h2
    refine ⟨_, s3, ?_, assign_table old restored hn⟩
    have hcountNat : records.length.toUInt32.toNat = records.length :=
      UInt32.toNat_ofNat_of_lt' hlen
    -- what is left of the records is the table, up to the order
    have hleft : ((records.map storedRecord).filter fun r => decide (r.1 ∈ ids)).Perm
        (ids.map fun id => (id, restored id)) := by
      rw [← htable, List.filter_map]
      exact hperm.map storedRecord
    have hnodup : (((records.map storedRecord).filter fun r => decide (r.1 ∈ ids)).map
        (Prod.fst : ClapId × D → ClapId)).Nodup := by
      rw [(hleft.map Prod.fst).nodup_iff, List.map_map]
      exact (List.map_id ids).symm ▸ hn
    rw [StateFormat.load, loadCounted, hheader]
    dsimp only
    rw [hcount]
    dsimp only
    rw [hcountNat, hrecords, foldl_storeParam, assign_perm hleft hnodup]

/-! ## Failing to load -/

/-- The complete records a stream hands out before it ends or fails, `count` at most. -/
def completeRecords : Nat → IStream → List (ClapId × D)
  | 0, _ => []
  | count + 1, stream =>
    match streamReadUInt32 stream with
    | .ok (some id, stream) =>
      match streamReadDouble stream with
      | .ok (some x, stream) => (id, x) :: completeRecords count stream
      | _ => []
    | _ => []

namespace StateFormat

/-- The complete records behind a good header. A fixed stream has none: its values are only
    worth anything together. -/
def recordsIn (stream : IStream) : StateFormat → List (ClapId × D)
  | fixed => []
  | counted magic =>
    match readHeader magic stream with
    | .ok (true, stream) =>
      match streamReadUInt32 stream with
      | .ok (some count, stream) => completeRecords count.toNat stream
      | _ => []
    | _ => []

end StateFormat

/-- A record loop has stored what it has read, whether or not it got to the end. -/
theorem loadRecords_stores (ids : List ClapId) (count : Nat) :
    ∀ {values : ParamValues D} {stream : IStream},
      Yields (loadRecords ids count values stream) fun r =>
        r.2.1 = (completeRecords count stream).foldl
          (fun values r => storeParam ids values r.1 r.2) values := by
  induction count with
  | zero => exact fun {values stream} => Yields.of_ok rfl
  | succ count ih =>
    intro values stream
    rw [loadRecords, completeRecords]
    cases hid : streamReadUInt32 stream with
    | error fault => exact Yields.of_error fault
    | ok r =>
      obtain ⟨id, s1⟩ := r
      cases id with
      | none => exact Yields.of_ok rfl
      | some id =>
        dsimp only
        cases hx : streamReadDouble (D := D) s1 with
        | error fault => exact Yields.of_error fault
        | ok r =>
          obtain ⟨x, s2⟩ := r
          cases x with
          | none => exact Yields.of_ok rfl
          | some x => exact ih

/-- So has a counted load. -/
theorem loadCounted_stores (magic : UInt32) (ids : List ClapId) (values : ParamValues D)
    (stream : IStream) :
    Yields (loadCounted magic ids values stream) fun r =>
      r.2.1 = assign values (((StateFormat.counted magic).recordsIn stream).filter
        fun r => decide (r.1 ∈ ids)) := by
  rw [loadCounted, StateFormat.recordsIn]
  cases readHeader magic stream with
  | error fault => exact Yields.of_error fault
  | ok r =>
    obtain ⟨good, s1⟩ := r
    cases good with
    | false => exact Yields.of_ok rfl
    | true =>
      dsimp only
      cases streamReadUInt32 s1 with
      | error fault => exact Yields.of_error fault
      | ok r =>
        obtain ⟨count, s2⟩ := r
        cases count with
        | none => exact Yields.of_ok rfl
        | some count =>
          refine (loadRecords_stores ids count.toNat).mono fun r hr => ?_
          rw [hr, foldl_storeParam]

/-- What a load stores in `ids`, in order: the values of a fixed stream that has them all, the
    records of a counted one. -/
def StateFormat.stores (ids : List ClapId) (stream : IStream) : StateFormat → List (ClapId × D)
  | fixed =>
    match readHeader kStateMagic stream with
    | .ok (true, stream) =>
      match readDoubles ids.length stream with
      | .ok (some xs, _) => ids.zip xs
      | _ => []
    | _ => []
  | counted magic => ((counted magic).recordsIn stream).filter fun r => decide (r.1 ∈ ids)

theorem load_stores (format : StateFormat) (ids : List ClapId) (values : ParamValues D)
    (stream : IStream) :
    Yields (format.load ids values stream) fun r =>
      r.2.1 = assign values (format.stores ids stream) := by
  cases format with
  | fixed =>
    rw [StateFormat.load, loadFixed, StateFormat.stores]
    cases readHeader kStateMagic stream with
    | error fault => exact Yields.of_error fault
    | ok r =>
      obtain ⟨good, s1⟩ := r
      cases good with
      | false => exact Yields.of_ok rfl
      | true =>
        dsimp only
        cases readDoubles (D := D) ids.length s1 with
        | error fault => exact Yields.of_error fault
        | ok r =>
          obtain ⟨xs, s2⟩ := r
          cases xs with
          | none => exact Yields.of_ok rfl
          | some xs => exact Yields.of_ok rfl
  | counted magic => exact loadCounted_stores magic ids values stream

/-- A failed load leaves every record behind that it had read in full. -/
theorem load_fails (format : StateFormat) (ids : List ClapId) (values : ParamValues D)
    (stream : IStream) :
    Yields (format.load ids values stream) fun r => r.1 = false →
      r.2.1 = assign values ((format.recordsIn stream).filter fun r => decide (r.1 ∈ ids)) := by
  cases format with
  | fixed =>
    rw [StateFormat.load, loadFixed]
    cases readHeader kStateMagic stream with
    | error fault => exact Yields.of_error fault
    | ok r =>
      obtain ⟨good, s1⟩ := r
      cases good with
      | false => exact Yields.of_ok fun _ => rfl
      | true =>
        dsimp only
        cases readDoubles (D := D) ids.length s1 with
        | error fault => exact Yields.of_error fault
        | ok r =>
          obtain ⟨xs, s2⟩ := r
          cases xs with
          | none => exact Yields.of_ok fun _ => rfl
          | some xs => exact Yields.of_ok nofun
  | counted magic =>
    exact (loadCounted_stores magic ids values stream).mono fun r hr _ => hr

/-- A failed load changes nothing exactly if the last complete record of every id that is
    restored repeats the value that was there. -/
theorem load_fails_iff (format : StateFormat) {ids known : List ClapId}
    (hsub : ∀ id ∈ ids, id ∈ known) (values : ParamValues D) (stream : IStream) :
    Yields (format.load ids values stream) fun r => r.1 = false →
      ((∀ id ∈ known, r.2.1 id = values id) ↔
        ∀ id ∈ ids, ∀ x, lastOf (format.recordsIn stream) id = some x → x = values id) := by
  refine (load_fails format ids values stream).mono fun r hr hfalse => ?_
  rw [hr hfalse]
  have hlast : ∀ id ∈ ids, lastOf ((format.recordsIn stream).filter fun r =>
      decide (r.1 ∈ ids)) id = lastOf (format.recordsIn stream : List (ClapId × D)) id :=
    fun id hid => lastOf_filter (fun id => decide (id ∈ ids)) _ (decide_eq_true hid)
  constructor
  · intro h id hid x hx
    have hstored := h id (hsub id hid)
    rw [assign_apply, hlast id hid, hx] at hstored
    exact hstored
  · intro h id _
    rw [assign_apply]
    by_cases hid : id ∈ ids
    · rw [hlast id hid]
      cases hx : lastOf (format.recordsIn stream : List (ClapId × D)) id with
      | none => rfl
      | some x => exact h id hid x hx
    · rw [lastOf_of_not_mem]
      · rfl
      · intro hmem
        obtain ⟨r, hr, rfl⟩ := List.mem_map.mp hmem
        exact hid (of_decide_eq_true (List.mem_filter.mp hr).2)

end

end Cvp
