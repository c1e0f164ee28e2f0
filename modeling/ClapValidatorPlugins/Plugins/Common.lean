/-
  What the plugin flavors do alike: parameter storage behind `paramStorage`, the `clap.state`
  formats, channel access and sample loops. Each flavor's own functions are these applied to
  its ids, defaults and gains.

  A flavor's `std::atomic<double>` members are one function from parameter ids; `paramStorage`
  is the list of ids it knows.
-/
import ClapValidatorPlugins.Wrapper.Virtuals

namespace Cvp

/-! ## Parameters -/

abbrev ParamValues (D : Type) := ClapId → D

section Params

variable {D : Type}

/-- `if (auto* storage = paramStorage(id)) storage->store(x);`. -/
def storeParam (ids : List ClapId) (values : ParamValues D) (id : ClapId) (x : D) :
    ParamValues D :=
  if id ∈ ids then Function.update values id x else values

theorem storeParam_self {ids : List ClapId} {id : ClapId} (h : id ∈ ids) (values : ParamValues D)
    (x : D) : storeParam ids values id x id = x := by
  rw [storeParam, if_pos h, Function.update_self]

theorem storeParam_of_ne (ids : List ClapId) {id id' : ClapId} (h : id' ≠ id)
    (values : ParamValues D) (x : D) : storeParam ids values id x id' = values id' := by
  rw [storeParam]
  split
  · exact Function.update_of_ne h _ _
  · rfl

theorem storeParam_of_not_mem {ids : List ClapId} {id : ClapId} (h : id ∉ ids)
    (values : ParamValues D) (x : D) : storeParam ids values id x = values := if_neg h

/-- `paramValue`: the stored value, for a known id. -/
def loadParam (ids : List ClapId) (values : ParamValues D) (id : ClapId) : Option D :=
  if id ∈ ids then some (values id) else none

/-- `applyParamEvent` of the flavors that store every core PARAM_VALUE on a known id. -/
def applyParamValue (ids : List ClapId) (values : ParamValues D) (header : Event D) :
    ParamValues D :=
  if !header.isCore then values
  else match header.body with
    | .paramValue target x => storeParam ids values target.paramId x
    | _ => values

/-- The parameter and value of a core PARAM_VALUE. -/
def paramValueOf (header : Event D) : Option (ClapId × D) :=
  match header.isCore, header.body with
  | true, .paramValue target x => some (target.paramId, x)
  | _, _ => none

theorem applyParamValue_eq (ids : List ClapId) (values : ParamValues D) (header : Event D) :
    applyParamValue ids values header =
      match paramValueOf header with
      | some (id, x) => storeParam ids values id x
      | none => values := by
  unfold applyParamValue paramValueOf
  cases hcore : header.isCore with
  | false => rfl
  | true =>
    rw [Bool.not_true, if_neg Bool.false_ne_true]
    cases header.body with
    | paramValue target x => rfl
    | _ => rfl

/-- A `ParamInfo` table read by index. -/
def paramTable (infos : List (ParamInfo D)) (index : Nat) : Option (ParamInfo D) := infos[index]?

section Texts

variable [DoubleOps D]

/-- `std::snprintf(out, capacity, "%.0f %%", value * 100.0);`. -/
def percentText (value : D) (capacity : Nat) : String :=
  snprintf capacity (DoubleOps.formatFixed 0 (value * DoubleOps.lit 100) ++ " %")

/-- The number at the beginning of the text, as a fraction up to 1 and as percent above. -/
def percentValue (text : String) : Option D :=
  if hasNumber text.toList then
    let parsed : D := DoubleOps.strtod text.toList
    some (if DoubleOps.lt (DoubleOps.lit 1) parsed then parsed / DoubleOps.lit 100 else parsed)
  else none

/-- `std::snprintf(out, capacity, "%.<digits>f<unit>", value);`. -/
def fixedText (digits : Nat) (unit : String) (value : D) (capacity : Nat) : String :=
  snprintf capacity (DoubleOps.formatFixed digits value ++ unit)

/-- The `+` of a format: a number without a sign gets one. -/
def withPlus (number : String) : String :=
  match number.toList with
  | '-' :: _ => number
  | _ => "+" ++ number

/-- `std::strtod`, unless it reads nothing. -/
def numberValue (text : String) : Option D :=
  if hasNumber text.toList then some (DoubleOps.strtod text.toList) else none

/-- `std::strncmp(text, name, std::strlen(name)) == 0`. -/
def beginsWith (text name : String) : Bool := name.toList.isPrefixOf text.toList

/-- `value < 0.0 ? 0 : (value > last ? last : static_cast<int>(value + 0.5))`. -/
def choiceIndex (value : D) (last : Nat) : Nat :=
  if DoubleOps.lt value (DoubleOps.lit 0) then 0
  else if DoubleOps.lt (DoubleOps.lit last) value then last
  else (DoubleOps.toInt (value + DoubleOps.lit (1 / 2))).toNat

/-- The first of the names that fits, as a value. -/
def choiceValue (fits : String → Bool) (names : List String) : Option D :=
  (names.findIdx? fits).map fun i => DoubleOps.ofInt i

end Texts

end Params

/-! ## State streams -/

/-- `kStateMagic` of every flavor but ParamsZoo: "CVPS". -/
def kStateMagic : UInt32 := 0x43565053

def kStateVersion : UInt32 := 1

section State

variable {D : Type} [DoubleBits D]

/-- `stateSave` of the flavors with a fixed layout: magic, version, the values in order. -/
def saveFixed (values : List D) (stream : OStream) : Exec (Bool × OStream) :=
  streamWriteEach stream
    (bytesOfUInt32 kStateMagic :: bytesOfUInt32 kStateVersion :: values.map bytesOfDouble)

/-- `!streamRead(magic) || magic != kStateMagic`, then the same for the version. -/
def readHeader (magic : UInt32) (stream : IStream) : Exec (Bool × IStream) :=
  match streamReadUInt32 stream with
  | .error fault => .error fault
  | .ok (none, stream) => .ok (false, stream)
  | .ok (some m, stream) =>
    if m ≠ magic then .ok (false, stream)
    else match streamReadUInt32 stream with
      | .error fault => .error fault
      | .ok (none, stream) => .ok (false, stream)
      | .ok (some version, stream) => .ok (version == kStateVersion, stream)

/-- `streamRead` into `count` local doubles, in order. -/
def readDoubles : Nat → IStream → Exec (Option (List D) × IStream)
  | 0, stream => .ok (some [], stream)
  | count + 1, stream =>
    match streamReadDouble stream with
    | .error fault => .error fault
    | .ok (none, stream) => .ok (none, stream)
    | .ok (some x, stream) =>
      match readDoubles count stream with
      | .error fault => .error fault
      | .ok (none, stream) => .ok (none, stream)
      | .ok (some xs, stream) => .ok (some (x :: xs), stream)

/-- The stores at the end of a fixed-layout load. -/
def commitAll (values : ParamValues D) (ids : List ClapId) (xs : List D) : ParamValues D :=
  (ids.zip xs).foldl (fun values r => Function.update values r.1 r.2) values

/-- `stateLoad` of the flavors with a fixed layout: everything is read into locals before the
    first store. -/
def loadFixed (ids : List ClapId) (values : ParamValues D) (stream : IStream) :
    Exec (Bool × ParamValues D × IStream) :=
  match readHeader kStateMagic stream with
  | .error fault => .error fault
  | .ok (false, stream) => .ok (false, values, stream)
  | .ok (true, stream) =>
    match readDoubles ids.length stream with
    | .error fault => .error fault
    | .ok (none, stream) => .ok (false, values, stream)
    | .ok (some xs, stream) => .ok (true, commitAll values ids xs, stream)

/-- One record of the counted format. -/
def recordBytes (id : ClapId) (x : D) : List (List UInt8) := [bytesOfUInt32 id, bytesOfDouble x]

/-- `stateSave` of the flavors with counted records: magic, version, count, then id and value
    of each saved parameter. -/
def saveRecords (magic : UInt32) (ids : List ClapId) (values : ParamValues D)
    (stream : OStream) : Exec (Bool × OStream) :=
  streamWriteEach stream
    (bytesOfUInt32 magic :: bytesOfUInt32 kStateVersion :: bytesOfUInt32 ids.length.toUInt32 ::
      ids.flatMap fun id => recordBytes id (values id))

/-- The record loop of the counted format: each record is stored as soon as it is read. -/
def loadRecords (ids : List ClapId) : Nat → ParamValues D → IStream →
    Exec (Bool × ParamValues D × IStream)
  | 0, values, stream => .ok (true, values, stream)
  | count + 1, values, stream =>
    match streamReadUInt32 stream with
    | .error fault => .error fault
    | .ok (none, stream) => .ok (false, values, stream)
    | .ok (some id, stream) =>
      match streamReadDouble stream with
      | .error fault => .error fault
      | .ok (none, stream) => .ok (false, values, stream)
      | .ok (some x, stream) => loadRecords ids count (storeParam ids values id x) stream

/-- `stateLoad` of the flavors with counted records; ids outside `ids` are skipped. -/
def loadCounted (magic : UInt32) (ids : List ClapId) (values : ParamValues D)
    (stream : IStream) : Exec (Bool × ParamValues D × IStream) :=
  match readHeader magic stream with
  | .error fault => .error fault
  | .ok (false, stream) => .ok (false, values, stream)
  | .ok (true, stream) =>
    match streamReadUInt32 stream with
    | .error fault => .error fault
    | .ok (none, stream) => .ok (false, values, stream)
    | .ok (some count, stream) => loadRecords ids count.toNat values stream

end State

/-! ## Channels and samples -/

/-- `data[ch]` of a channel pointer array. -/
def channelAt (data : Option (List Ptr)) (ch : Nat) : Exec Ptr :=
  match data with
  | none => .error .nullDeref
  | some channels =>
    match channels[ch]? with
    | some p => .ok p
    | none => .error .channelOutOfRange

/-- A loop over sample indices: `body start`, `body (start + 1)`, ..., `count` times. -/
def frameLoop {α : Type} (body : Nat → α → α) : Nat → Nat → α → α
  | _, 0, a => a
  | start, count + 1, a => frameLoop body (start + 1) count (body start a)

/-- `for (i) dst[i] = f(src[i]);`. -/
def mapSamples {T : Type} (f : T → T) (src dst : Ptr) (frames : Nat) (m : Plane T) : Plane T :=
  frameLoop (fun i m => m.write dst i (f (m src i))) 0 frames m

/-- `std::memset(dst, 0, frames * sizeof(sample))`. -/
def clearSamples {T : Type} (zero : T) (dst : Ptr) (frames : Nat) (m : Plane T) : Plane T :=
  frameLoop (fun i m => m.write dst i zero) 0 frames m

/-- `for (ch)` over 32-bit channels: `dst[i] = f(ch, src[i])`. -/
def mapChannels {S : Type} (f : Nat → S → S) (input output : AudioBuffer) (frames : Nat) :
    Nat → Nat → Plane S → Exec (Plane S)
  | _, 0, m => .ok m
  | ch, count + 1, m => do
    let src ← channelAt input.data32 ch
    let dst ← channelAt output.data32 ch
    mapChannels f input output frames (ch + 1) count (mapSamples (f ch) src dst frames m)

/-- The passthrough loop: `memcpy` unless the host shares the channel buffer. -/
def copyChannels {S : Type} (input output : AudioBuffer) (frames : Nat) :
    Nat → Nat → Plane S → Exec (Plane S)
  | _, 0, m => .ok m
  | ch, count + 1, m => do
    let dst ← channelAt output.data32 ch
    let src ← channelAt input.data32 ch
    copyChannels input output frames (ch + 1) count
      (if dst = src then m else mapSamples id src dst frames m)

/-- `in.channel_count < out.channel_count ? in.channel_count : out.channel_count`. -/
def commonChannels (input output : AudioBuffer) : Nat :=
  if input.channelCount < output.channelCount then input.channelCount else output.channelCount

end Cvp
