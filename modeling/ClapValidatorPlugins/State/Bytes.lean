/-
  What a load makes of any bytes at all. A stream that holds a byte string, in chunks of any sizes,
  is accepted exactly if the string starts with the magic and the version of the format and is as
  long as the format needs, and what is stored is read off the string (`stateLoad_reads`). So a load
  of what another flavor has saved can be told in advance (`foreign_state_accepted_iff`): all but
  ParamsZoo write the same magic.
-/
import ClapValidatorPlugins.State.Flavors

namespace Cvp

open Assignments Transfer

variable {D S : Type}

/-! ## Reading off a string -/

def bitsOfBytes (bytes : List UInt8) : UInt64 := UInt64.ofNat (LittleEndian.decode bytes)

/-- `n` bit patterns. -/
def patternsIn : Nat → List UInt8 → List UInt64
  | 0, _ => []
  | n + 1, bytes => bitsOfBytes (bytes.take 8) :: patternsIn n (bytes.drop 8)

/-- The complete records, `count` at most. -/
def recordsAt : Nat → List UInt8 → List StateRecord
  | 0, _ => []
  | count + 1, bytes =>
    if 12 ≤ bytes.length then
      (uint32OfBytes (bytes.take 4), bitsOfBytes ((bytes.drop 4).take 8)) ::
        recordsAt count (bytes.drop 12)
    else []

namespace StateFormat

def magic : StateFormat → UInt32
  | fixed => kStateMagic
  | counted magic => magic

/-- How many bytes a load of `n` parameters needs behind the header, which is followed by `body`. -/
def needs (n : Nat) (body : List UInt8) : StateFormat → Nat
  | fixed => 8 * n
  | counted _ => 4 + 12 * (uint32OfBytes (body.take 4)).toNat

/-- The magic and the version. -/
def HasHeader (format : StateFormat) (bytes : List UInt8) : Prop :=
  8 ≤ bytes.length ∧ uint32OfBytes (bytes.take 4) = format.magic ∧
    uint32OfBytes ((bytes.drop 4).take 4) = kStateVersion

instance (format : StateFormat) (bytes : List UInt8) : Decidable (format.HasHeader bytes) :=
  inferInstanceAs (Decidable (_ ∧ _ ∧ _))

def Accepted (format : StateFormat) (n : Nat) (bytes : List UInt8) : Prop :=
  format.HasHeader bytes ∧ format.needs n (bytes.drop 8) ≤ (bytes.drop 8).length

instance (format : StateFormat) (n : Nat) (bytes : List UInt8) :
    Decidable (format.Accepted n bytes) :=
  inferInstanceAs (Decidable (_ ∧ _))

/-- The values of `ids` in a string, in the order in which a load stores them: a fixed layout has
    them all or none, of counted records those that are complete count. -/
def valuesIn (ids : List ClapId) (bytes : List UInt8) : StateFormat → List StateRecord
  | fixed =>
    if fixed.Accepted ids.length bytes then ids.zip (patternsIn ids.length (bytes.drop 8)) else []
  | counted magic =>
    if (counted magic).HasHeader bytes then
      (recordsAt (uint32OfBytes ((bytes.drop 8).take 4)).toNat (bytes.drop 12)).filter
        fun r => decide (r.1 ∈ ids)
    else []

end StateFormat

/-! ## Reading from a stream -/

/-- A stream that holds fewer bytes than the buffer leaves it unused. -/
theorem streamReadLoop_holds (fuel : Nat) :
    ∀ {stream : IStream} {bytes : List UInt8} (got : List UInt8) {n : Nat}, Holds stream bytes →
      n ≤ fuel →
      ∃ stream', streamReadLoop fuel stream got n =
          .ok (if n ≤ bytes.length then some (got ++ bytes.take n) else none, stream') ∧
        (n ≤ bytes.length → Holds stream' (bytes.drop n)) := by
  induction fuel with
  | zero =>
    intro stream bytes got n h hn
    obtain rfl : n = 0 := Nat.le_zero.mp hn
    exact ⟨stream, by simp [streamReadLoop], fun _ => h⟩
  | succ fuel ih =>
    intro stream bytes got n h hn
    cases n with
    | zero => exact ⟨stream, by simp [streamReadLoop], fun _ => h⟩
    | succ n =>
      by_cases hbytes : bytes = []
      · subst hbytes
        obtain ⟨code, hrefuse⟩ := h.refuses (Nat.succ_pos n)
        refine ⟨(stream.read (n + 1)).2, ?_, fun hle => absurd hle (by simp)⟩
        rw [streamReadLoop, hrefuse, if_neg (by simp)]
      · obtain ⟨k, hk, hkn, hklen, hgive, hrest⟩ := h.step (Nat.succ_pos n) hbytes
        have hlen : (bytes.take k).length = k := List.length_take_of_le hklen
        obtain ⟨stream', hloop, hholds⟩ :=
          ih (got ++ bytes.take k) (n := n + 1 - k) hrest (by omega)
        have hle : n + 1 - k ≤ (bytes.drop k).length ↔ n + 1 ≤ bytes.length := by
          rw [List.length_drop]
          omega
        have htake : (got ++ bytes.take k) ++ (bytes.drop k).take (n + 1 - k) =
            got ++ bytes.take (n + 1) := by
          rw [List.append_assoc, ← List.take_add, Nat.add_sub_cancel' hkn]
        refine ⟨stream', ?_, fun hall => ?_⟩
        · rw [streamReadLoop, hgive]
          dsimp only
          rw [hlen, if_neg (by omega), if_neg (by omega), hloop, htake]
          simp only [hle]
        · have hdrop := hholds (hle.mpr hall)
          rwa [List.drop_drop, Nat.add_sub_cancel' hkn] at hdrop

theorem streamReadAll_holds {stream : IStream} {bytes : List UInt8} (h : Holds stream bytes)
    (n : Nat) :
    ∃ stream', streamReadAll stream n =
        .ok (if n ≤ bytes.length then some (bytes.take n) else none, stream') ∧
      (n ≤ bytes.length → Holds stream' (bytes.drop n)) :=
  streamReadLoop_holds n [] h le_rfl

theorem streamReadUInt32_holds {stream : IStream} {bytes : List UInt8} (h : Holds stream bytes) :
    ∃ stream', streamReadUInt32 stream =
        .ok (if 4 ≤ bytes.length then some (uint32OfBytes (bytes.take 4)) else none, stream') ∧
      (4 ≤ bytes.length → Holds stream' (bytes.drop 4)) := by
  obtain ⟨stream', hread, hrest⟩ := streamReadAll_holds h 4
  refine ⟨stream', ?_, hrest⟩
  rw [streamReadUInt32, hread]
  by_cases hlen : 4 ≤ bytes.length
  · simp [hlen]
  · simp [hlen]

section Loads

variable [DoubleBits D]

theorem streamReadDouble_holds {stream : IStream} {bytes : List UInt8} (h : Holds stream bytes) :
    ∃ stream', streamReadDouble stream =
        .ok (if 8 ≤ bytes.length then
          some (DoubleBits.ofBits (bitsOfBytes (bytes.take 8)) : D) else none, stream') ∧
      (8 ≤ bytes.length → Holds stream' (bytes.drop 8)) := by
  obtain ⟨stream', hread, hrest⟩ := streamReadAll_holds h 8
  refine ⟨stream', ?_, hrest⟩
  rw [streamReadDouble, hread]
  by_cases hlen : 8 ≤ bytes.length
  · simp [hlen, doubleOfBytes, bitsOfBytes]
  · simp [hlen]

theorem readHeader_holds (format : StateFormat) {stream : IStream} {bytes : List UInt8}
    (h : Holds stream bytes) :
    ∃ stream', readHeader format.magic stream =
        .ok (decide (format.HasHeader bytes), stream') ∧
      (format.HasHeader bytes → Holds stream' (bytes.drop 8)) := by
  obtain ⟨s1, hmagic, h1⟩ := streamReadUInt32_holds h
  rw [readHeader, hmagic]
  by_cases hfour : 4 ≤ bytes.length
  · rw [if_pos hfour]
    dsimp only
    by_cases hequal : uint32OfBytes (bytes.take 4) = format.magic
    · rw [if_neg (not_not_intro hequal)]
      obtain ⟨s2, hversion, h2⟩ := streamReadUInt32_holds (h1 hfour)
      have hlen : 4 ≤ (bytes.drop 4).length ↔ 8 ≤ bytes.length := by
        rw [List.length_drop]
        omega
      rw [hversion]
      by_cases height : 8 ≤ bytes.length
      · rw [if_pos (hlen.mpr height)]
        refine ⟨s2, ?_, fun _ => ?_⟩
        · simp [StateFormat.HasHeader, height, hequal, beq_eq_decide]
        · have hrest := h2 (hlen.mpr height)
          rwa [List.drop_drop] at hrest
      · rw [if_neg (fun hle => height (hlen.mp hle))]
        exact ⟨s2, by simp [StateFormat.HasHeader, height], fun hh => absurd hh.1 height⟩
    · rw [if_pos hequal]
      exact ⟨s1, by simp [StateFormat.HasHeader, hequal], fun hh => absurd hh.2.1 hequal⟩
  · rw [if_neg hfour]
    refine ⟨s1, ?_, fun hh => absurd hh.1 (by omega)⟩
    have height : ¬ 8 ≤ bytes.length := by omega
    simp [StateFormat.HasHeader, height]

theorem readDoubles_holds (n : Nat) : ∀ {stream : IStream} {bytes : List UInt8},
    Holds stream bytes →
    ∃ stream', readDoubles n stream =
      .ok (if 8 * n ≤ bytes.length then
        some ((patternsIn n bytes).map fun b => (DoubleBits.ofBits b : D)) else none, stream') := by
  induction n with
  | zero => exact fun {stream bytes} _ => ⟨stream, rfl⟩
  | succ n ih =>
    intro stream bytes h
    obtain ⟨s1, hread, h1⟩ := streamReadDouble_holds (D := D) h
    rw [readDoubles, hread]
    by_cases hone : 8 ≤ bytes.length
    · rw [if_pos hone]
      dsimp only
      obtain ⟨s2, hrest⟩ := ih (h1 hone)
      have hlen : 8 * n ≤ (bytes.drop 8).length ↔ 8 * (n + 1) ≤ bytes.length := by
        rw [List.length_drop]
        omega
      rw [hrest]
      simp only [hlen]
      by_cases hall : 8 * (n + 1) ≤ bytes.length
      · exact ⟨s2, by simp [hall, patternsIn]⟩
      · exact ⟨s2, by simp [hall]⟩
    · rw [if_neg hone]
      have hall : ¬ 8 * (n + 1) ≤ bytes.length := by omega
      exact ⟨s1, by simp [hall]⟩

theorem loadRecords_holds (ids : List ClapId) (count : Nat) :
    ∀ (values : ParamValues D) {stream : IStream} {bytes : List UInt8}, Holds stream bytes →
    ∃ stream', loadRecords ids count values stream =
      .ok (decide (12 * count ≤ bytes.length), ((recordsAt count bytes).map storedRecord).foldl
        (fun values r => storeParam ids values r.1 r.2) values, stream') := by
  induction count with
  | zero => exact fun values stream bytes _ => ⟨stream, by simp [loadRecords, recordsAt]⟩
  | succ count ih =>
    intro values stream bytes h
    obtain ⟨s1, hid, h1⟩ := streamReadUInt32_holds h
    rw [loadRecords, hid, recordsAt]
    by_cases hfour : 4 ≤ bytes.length
    · rw [if_pos hfour]
      dsimp only
      obtain ⟨s2, hvalue, h2⟩ := streamReadDouble_holds (D := D) (h1 hfour)
      have hlen : 8 ≤ (bytes.drop 4).length ↔ 12 ≤ bytes.length := by
        rw [List.length_drop]
        omega
      rw [hvalue]
      by_cases hone : 12 ≤ bytes.length
      · rw [if_pos (hlen.mpr hone), if_pos hone]
        dsimp only
        have hdrop := h2 (hlen.mpr hone)
        rw [List.drop_drop] at hdrop
        obtain ⟨s3, hrest⟩ := ih _ hdrop
        have hmore : 12 * count ≤ (bytes.drop 12).length ↔ 12 * (count + 1) ≤ bytes.length := by
          rw [List.length_drop]
          omega
        refine ⟨s3, hrest.trans ?_⟩
        simp only [hmore]
        rfl
      · rw [if_neg (fun hle => hone (hlen.mp hle)), if_neg hone]
        have hall : ¬ 12 * (count + 1) ≤ bytes.length := by omega
        exact ⟨s2, by simp [hall]⟩
    · rw [if_neg hfour, if_neg (by omega)]
      have hall : ¬ 12 * (count + 1) ≤ bytes.length := by omega
      exact ⟨s1, by simp [hall]⟩

theorem loadFixed_holds (ids : List ClapId) (values : ParamValues D) {stream : IStream}
    {bytes : List UInt8} (h : Holds stream bytes) :
    ∃ stream', loadFixed ids values stream =
      .ok (decide (StateFormat.fixed.Accepted ids.length bytes),
        assign values ((StateFormat.fixed.valuesIn ids bytes).map storedRecord), stream') := by
  obtain ⟨s1, hheader, h1⟩ := readHeader_holds .fixed h
  rw [loadFixed, show readHeader kStateMagic stream = .ok (decide _, s1) from hheader]
  by_cases hgood : StateFormat.fixed.HasHeader bytes
  · obtain ⟨s2, hdoubles⟩ := readDoubles_holds (D := D) ids.length (h1 hgood)
    have haccepted : StateFormat.fixed.Accepted ids.length bytes ↔
        8 * ids.length ≤ (bytes.drop 8).length := and_iff_right hgood
    rw [decide_eq_true hgood]
    dsimp only
    rw [hdoubles]
    by_cases hall : 8 * ids.length ≤ (bytes.drop 8).length
    · refine ⟨s2, ?_⟩
      rw [if_pos hall, decide_eq_true (haccepted.mpr hall), StateFormat.valuesIn,
        if_pos (haccepted.mpr hall)]
      dsimp only
      rw [commitAll, assign, List.zip_map_right]
      rfl
    · refine ⟨s2, ?_⟩
      have hnot := mt haccepted.mp hall
      rw [if_neg hall, decide_eq_false hnot, StateFormat.valuesIn, if_neg hnot]
      rfl
  · have hnot : ¬ StateFormat.fixed.Accepted ids.length bytes := fun hh => hgood hh.1
    refine ⟨s1, ?_⟩
    rw [decide_eq_false hgood, decide_eq_false hnot, StateFormat.valuesIn, if_neg hnot]
    rfl

/-- Without a count no records are read either. -/
theorem recordsAt_of_short (count : Nat) {bytes : List UInt8} (h : bytes.length < 12) :
    recordsAt count bytes = [] := by
  cases count with
  | zero => rfl
  | succ count => rw [recordsAt, if_neg (Nat.not_le.mpr h)]

theorem loadCounted_holds (magic : UInt32) (ids : List ClapId) (values : ParamValues D)
    {stream : IStream} {bytes : List UInt8} (h : Holds stream bytes) :
    ∃ stream', loadCounted magic ids values stream =
      .ok (decide ((StateFormat.counted magic).Accepted ids.length bytes),
        assign values (((StateFormat.counted magic).valuesIn ids bytes).map storedRecord),
        stream') := by
  obtain ⟨s1, hheader, h1⟩ := readHeader_holds (.counted magic) h
  rw [loadCounted, show readHeader magic stream = .ok (decide _, s1) from hheader]
  by_cases hgood : (StateFormat.counted magic).HasHeader bytes
  · obtain ⟨s2, hcount, h2⟩ := streamReadUInt32_holds (h1 hgood)
    have haccepted : (StateFormat.counted magic).Accepted ids.length bytes ↔
        4 + 12 * (uint32OfBytes ((bytes.drop 8).take 4)).toNat ≤ (bytes.drop 8).length :=
      and_iff_right hgood
    have hbody : (bytes.drop 12).length = (bytes.drop 8).length - 4 := by
      rw [List.length_drop, List.length_drop]
      omega
    rw [decide_eq_true hgood, StateFormat.valuesIn, if_pos hgood]
    dsimp only
    rw [hcount]
    by_cases hfour : 4 ≤ (bytes.drop 8).length
    · have hdrop := h2 hfour
      rw [List.drop_drop] at hdrop
      obtain ⟨s3, hrecords⟩ := loadRecords_holds (D := D) ids
        (uint32OfBytes ((bytes.drop 8).take 4)).toNat values hdrop
      have hlen : 12 * (uint32OfBytes ((bytes.drop 8).take 4)).toNat ≤ (bytes.drop 12).length ↔
          (StateFormat.counted magic).Accepted ids.length bytes := by
        rw [haccepted, hbody]
        omega
      refine ⟨s3, ?_⟩
      rw [if_pos hfour]
      dsimp only
      rw [hrecords, foldl_storeParam, List.filter_map]
      simp only [hlen]
      rfl
    · have hnot : ¬ (StateFormat.counted magic).Accepted ids.length bytes := by
        rw [haccepted]
        omega
      refine ⟨s2, ?_⟩
      rw [if_neg hfour, decide_eq_false hnot, recordsAt_of_short _ (by omega)]
      rfl
  · have hnot : ¬ (StateFormat.counted magic).Accepted ids.length bytes := fun hh => hgood hh.1
    refine ⟨s1, ?_⟩
    rw [decide_eq_false hgood, decide_eq_false hnot, StateFormat.valuesIn, if_neg hgood]
    rfl

/-- A load is a function of the bytes: how they are cut into chunks makes no difference. -/
theorem load_holds (format : StateFormat) (ids : List ClapId) (values : ParamValues D)
    {stream : IStream} {bytes : List UInt8} (h : Holds stream bytes) :
    ∃ stream', format.load ids values stream =
      .ok (decide (format.Accepted ids.length bytes),
        assign values ((format.valuesIn ids bytes).map storedRecord), stream') := by
  cases format with
  | fixed => exact loadFixed_holds ids values h
  | counted magic => exact loadCounted_holds magic ids values h

end Loads

/-! ## The flavors -/

section Flavors

variable [DoubleOps D] [FloatOps S] [FloatCast D S] [DoubleBits D]

/-- Whatever the bytes: `stateLoad` returns true exactly if they start with the magic and the
    version and are as many as the format needs, and in either case the parameters are read off
    them. -/
theorem stateLoad_reads {flavor : Flavor} {state : StateProvider D (flavor.State D S)}
    (hstate : (flavor.impl : PluginImpl D S _).state = some state) (t : flavor.State D S)
    {stream : IStream} {bytes : List UInt8} (h : Holds stream bytes) :
    ∃ r stream', state.stateLoad t stream = .ok (r, stream') ∧
      (r.value = true ↔ flavor.stateFormat.Accepted flavor.savedIds.length bytes) ∧
      ∀ id, flavor.paramValue r.self id =
        if id ∈ flavor.paramIds then some (assign (flavor.params t)
          ((flavor.stateFormat.valuesIn flavor.savedIds bytes).map storedRecord) id)
        else none := by
  obtain ⟨stream', hload⟩ := load_holds flavor.stateFormat flavor.savedIds (flavor.params t) h
  rw [← flavor.savesParams.load state hstate t stream] at hload
  cases hr : state.stateLoad t stream with
  | error fault =>
    rw [hr] at hload
    cases hload
  | ok r =>
    obtain ⟨out, s'⟩ := r
    rw [hr] at hload
    obtain ⟨hvalue, hparams, -⟩ := Prod.mk.inj (Except.ok.inj hload) |>.imp_right Prod.mk.inj
    refine ⟨out, s', rfl, ?_, fun id => ?_⟩
    · rw [show out.value = _ from hvalue, decide_eq_true_eq]
    · rw [Flavor.paramValue_eq hstate, show flavor.params out.self = _ from hparams]

/-! ## What another flavor has saved -/

/-- What a save writes behind the header. -/
def StateFormat.body (records : List StateRecord) : StateFormat → List UInt8
  | fixed => (records.map (·.2)).flatMap bytesOfBits
  | counted _ => bytesOfUInt32 records.length.toUInt32 ++ recordsBytes records

theorem StateFormat.bytes_eq (format : StateFormat) (records : List StateRecord) :
    format.bytes records =
      bytesOfUInt32 format.magic ++ (bytesOfUInt32 kStateVersion ++ format.body records) := by
  cases format <;> rfl

theorem length_bytesOfUInt32 (x : UInt32) : (bytesOfUInt32 x).length = 4 :=
  LittleEndian.length_encode 4 _

theorem length_bytesOfBits (b : UInt64) : (bytesOfBits b).length = 8 :=
  LittleEndian.length_encode 8 _

theorem uint32OfBytes_bytesOfUInt32 (x : UInt32) : uint32OfBytes (bytesOfUInt32 x) = x :=
  LittleEndian.ofNat_decode_encode32 x

/-- The first word of a bit pattern is its low half. -/
theorem uint32OfBytes_take_bytesOfBits (b : UInt64) :
    uint32OfBytes ((bytesOfBits b).take 4) = b.toUInt32 := by
  rw [bytesOfBits, LittleEndian.take_encode 4 4, uint32OfBytes, LittleEndian.decode_encode]
  refine UInt32.toNat.inj ?_
  simp

theorem take_word (x : UInt32) (rest : List UInt8) :
    (bytesOfUInt32 x ++ rest).take 4 = bytesOfUInt32 x :=
  List.take_left' (length_bytesOfUInt32 x)

theorem drop_word (x : UInt32) (rest : List UInt8) : (bytesOfUInt32 x ++ rest).drop 4 = rest :=
  List.drop_left' (length_bytesOfUInt32 x)

theorem StateFormat.hasHeader_iff (format : StateFormat) (magic : UInt32) (body : List UInt8) :
    format.HasHeader (bytesOfUInt32 magic ++ (bytesOfUInt32 kStateVersion ++ body)) ↔
      magic = format.magic := by
  rw [StateFormat.HasHeader, take_word, drop_word, take_word, uint32OfBytes_bytesOfUInt32,
    uint32OfBytes_bytesOfUInt32]
  have hlen : 8 ≤ (bytesOfUInt32 magic ++ (bytesOfUInt32 kStateVersion ++ body)).length := by
    simp only [List.length_append, length_bytesOfUInt32]
    omega
  exact ⟨fun h => h.2.1, fun h => ⟨hlen, h, rfl⟩⟩

theorem drop_header (magic : UInt32) (body : List UInt8) :
    (bytesOfUInt32 magic ++ (bytesOfUInt32 kStateVersion ++ body)).drop 8 = body := by
  rw [← List.drop_drop (i := 4) (j := 4), drop_word, drop_word]

theorem length_patterns (patterns : List UInt64) :
    (patterns.flatMap bytesOfBits).length = 8 * patterns.length := by
  induction patterns with
  | nil => rfl
  | cons b bs ih =>
    rw [List.flatMap_cons, List.length_append, ih, length_bytesOfBits, List.length_cons]
    omega

theorem length_recordsBytes (records : List StateRecord) :
    (recordsBytes records).length = 12 * records.length := by
  induction records with
  | nil => rfl
  | cons r rs ih =>
    rw [recordsBytes, List.flatMap_cons, List.length_append, List.length_append,
      length_bytesOfUInt32, length_bytesOfBits, List.length_cons]
    rw [recordsBytes] at ih
    omega

/-- A string of `n` saved values in one format, of which `first` is the first, is as long as a load
    of `m` values in the other format needs. -/
def StateFormat.Suffices (n m : Nat) (first : Option UInt64) : StateFormat → StateFormat → Prop
  | fixed, fixed => m ≤ n
  | counted _, fixed => 8 * m ≤ 4 + 12 * n
  | counted _, counted _ => True
  -- the low half of the first value is taken for the number of records
  | fixed, counted _ => ∃ b, first = some b ∧ 4 + 12 * b.toUInt32.toNat ≤ 8 * n

theorem StateFormat.needs_body_iff (format format' : StateFormat) {records : List StateRecord}
    (hlen : records.length < 2 ^ 32) (m : Nat) :
    format'.needs m (format.body records) ≤ (format.body records).length ↔
      Suffices records.length m (records.map (·.2)).head? format format' := by
  cases format with
  | fixed =>
    rw [StateFormat.body, length_patterns, List.length_map]
    cases format' with
    | fixed =>
      show 8 * m ≤ 8 * records.length ↔ m ≤ records.length
      omega
    | counted magic =>
      cases records with
      | nil => simp [needs, Suffices]
      | cons r rs =>
        have hcount : uint32OfBytes
            ((((r :: rs).map (·.2)).flatMap bytesOfBits).take 4) = r.2.toUInt32 := by
          rw [List.map_cons, List.flatMap_cons, List.take_append_of_le_length
            (by rw [length_bytesOfBits]; omega), uint32OfBytes_take_bytesOfBits]
        rw [needs, hcount]
        simp [Suffices]
  | counted magic =>
    have hbody : ((counted magic).body records).length = 4 + 12 * records.length := by
      rw [StateFormat.body, List.length_append, length_bytesOfUInt32, length_recordsBytes]
    rw [hbody]
    cases format' with
    | fixed => exact Iff.rfl
    | counted magic' =>
      have hcount : (records.length.toUInt32).toNat = records.length :=
        UInt32.toNat_ofNat_of_lt' hlen
      refine iff_of_true ?_ trivial
      rw [needs, StateFormat.body, take_word, uint32OfBytes_bytesOfUInt32, hcount]

/-- What a save of the flavor writes into a stream that takes it. -/
theorem stateSave_writes {flavor : Flavor} {state : StateProvider D (flavor.State D S)}
    (hstate : (flavor.impl : PluginImpl D S _).state = some state) (s : flavor.State D S)
    {out : OStream} (hout : Accepts out) :
    ∃ r out', state.stateSave s out = .ok (r, out') ∧ r.value = true ∧
      out'.taken = out.taken ++
        flavor.stateFormat.bytes (recordsOf flavor.savedIds (flavor.params s)) := by
  obtain ⟨out', hsave, htaken⟩ :=
    save_accepts flavor.stateFormat flavor.savedIds (flavor.params s) hout
  rw [← flavor.savesParams.save state hstate s out] at hsave
  cases hr : state.stateSave s out with
  | error fault =>
    rw [hr] at hsave
    cases hsave
  | ok r =>
    rw [hr] at hsave
    obtain ⟨hvalue, hstream⟩ := Prod.mk.inj (Except.ok.inj hsave)
    exact ⟨r.1, r.2, rfl, hvalue, by rw [show r.2 = _ from hstream, htaken]⟩

/-- The pattern that comes first in what the flavor saves. -/
def firstPattern (flavor : Flavor) (s : flavor.State D S) : Option UInt64 :=
  (flavor.savedIds.map fun id => DoubleBits.toBits (flavor.params s id)).head?

/-- What one flavor saves, another takes for its own exactly if they have the same magic and the
    string is long enough. -/
theorem foreign_state_accepted_iff {saver loader : Flavor}
    {saving : StateProvider D (saver.State D S)} {loading : StateProvider D (loader.State D S)}
    (hsaver : (saver.impl : PluginImpl D S _).state = some saving)
    (hloader : (loader.impl : PluginImpl D S _).state = some loading) (s : saver.State D S)
    (t : loader.State D S) :
    ∃ bytes : List UInt8,
      (∀ out, Accepts out → ∃ r out', saving.stateSave s out = .ok (r, out') ∧ r.value = true ∧
        out'.taken = out.taken ++ bytes) ∧
      ∀ stream, Holds stream bytes →
        ∃ r stream', loading.stateLoad t stream = .ok (r, stream') ∧
          (r.value = true ↔ saver.stateFormat.magic = loader.stateFormat.magic ∧
            StateFormat.Suffices saver.savedIds.length loader.savedIds.length (firstPattern saver s)
              saver.stateFormat loader.stateFormat) := by
  refine ⟨saver.stateFormat.bytes (recordsOf saver.savedIds (saver.params s)),
    fun out hout => stateSave_writes hsaver s hout, fun stream h => ?_⟩
  obtain ⟨r, stream', hload, haccepted, -⟩ := stateLoad_reads hloader t h
  refine ⟨r, stream', hload, haccepted.trans ?_⟩
  have hlen : (recordsOf saver.savedIds (saver.params s)).length = saver.savedIds.length := by
    rw [recordsOf, List.length_map]
  have hfirst : ((recordsOf saver.savedIds (saver.params s)).map (·.2)).head? =
      firstPattern saver s := by
    rw [recordsOf, List.map_map]
    rfl
  rw [StateFormat.bytes_eq, StateFormat.Accepted, StateFormat.hasHeader_iff, drop_header,
    StateFormat.needs_body_iff _ _ (hlen ▸ saver.savedIds_length), hlen, hfirst]

end Flavors

/-! ## Bytes that end early, and bytes of another plugin -/

section Probe

/-- One record of two that were announced. -/
def halfBytes : List UInt8 :=
  bytesOfUInt32 kStateMagic ++ (bytesOfUInt32 kStateVersion ++ (bytesOfUInt32 2 ++
    recordsBytes [(EffectPlugin.kParamGain, 6)]))

/-- The load fails, and the record has been stored. -/
theorem stateLoad_reads_halfBytes : ∃ r stream',
    effectState.stateLoad EffectPlugin.create (serve halfBytes fun _ => 5) = .ok (r, stream') ∧
      r.value = false ∧ effectParam r.self EffectPlugin.kParamGain = some 6 := by
  obtain ⟨r, stream', hload, haccepted, hvalues⟩ := stateLoad_reads (D := ExactFloat)
    (S := ExactFloat) (show Flavor.effect.impl.state = some effectState from rfl)
    EffectPlugin.create (holds_serve halfBytes fun _ => 5)
  refine ⟨r, stream', hload, ?_, (hvalues _).trans ?_⟩
  · rw [← Bool.not_eq_true, haccepted]
    decide
  · decide +kernel

def synthState : StateProvider ExactFloat (SynthPlugin.State ExactFloat ExactFloat) :=
  { stateSave := SynthPlugin.stateSave, stateLoad := SynthPlugin.stateLoad }

def noteFxState : StateProvider ExactFloat (NoteFxPlugin.State ExactFloat) :=
  { stateSave := NoteFxPlugin.stateSave, stateLoad := NoteFxPlugin.stateLoad }

/-- NoteFX takes what the Synth saves for its own. -/
theorem foreign_state_accepted_iff_synth : ∃ bytes, ∃ r stream',
    noteFxState.stateLoad NoteFxPlugin.create (serve bytes fun _ => 5) = .ok (r, stream') ∧
      r.value = true := by
  obtain ⟨bytes, -, hload⟩ := foreign_state_accepted_iff (D := ExactFloat) (S := ExactFloat)
    (show Flavor.synth.impl.state = some synthState from rfl)
    (show Flavor.noteFx.impl.state = some noteFxState from rfl) SynthPlugin.create
    NoteFxPlugin.create
  obtain ⟨r, stream', hok, haccepted⟩ := hload _ (holds_serve bytes fun _ => 5)
  exact ⟨bytes, r, stream', hok, haccepted.mpr ⟨rfl, le_rfl⟩⟩

end Probe

end Cvp
