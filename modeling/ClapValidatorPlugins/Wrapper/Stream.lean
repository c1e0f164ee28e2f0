/-
  `wrapper/stream.h` and `stream.cpp`: the loops that move a value through `clap_ostream` and
  `clap_istream`, whose callbacks may move fewer bytes than asked. A stream is a peer of
  `Transfer`: it sees how many bytes were asked for and decides how many it moves.

  Every pass of a loop moves at least one byte, so `size` passes are enough. A callback that
  claims more than it was offered makes the pointer run past the buffer: `streamOverrun`.
-/
import ClapValidatorPlugins.Clap.Abi
import ClapValidatorPlugins.Lib.LittleEndian
import ClapValidatorPlugins.Lib.Transfer

namespace Cvp

open Transfer

abbrev IStream := Transfer.Reader UInt8
abbrev OStream := Transfer.Writer UInt8

def streamWriteLoop : Nat → OStream → List UInt8 → Exec (Bool × OStream)
  | _, stream, [] => .ok (true, stream)
  | 0, stream, _ :: _ => .ok (false, stream)
  | fuel + 1, stream, b :: bs =>
    let written := (stream.write (b :: bs)).1
    let stream := (stream.write (b :: bs)).2
    if written ≤ 0 then .ok (false, stream)
    else if (b :: bs).length < written.toNat then .error .streamOverrun
    else streamWriteLoop fuel stream ((b :: bs).drop written.toNat)

def streamWriteAll (stream : OStream) (bytes : List UInt8) : Exec (Bool × OStream) :=
  streamWriteLoop bytes.length stream bytes

/-- `got` is what the buffer holds so far; a failed read leaves the caller's buffer unused. -/
def streamReadLoop : Nat → IStream → List UInt8 → Nat → Exec (Option (List UInt8) × IStream)
  | _, stream, got, 0 => .ok (some got, stream)
  | 0, stream, _, _ + 1 => .ok (none, stream)
  | fuel + 1, stream, got, size + 1 =>
    let stream' := (stream.read (size + 1)).2
    match (stream.read (size + 1)).1 with
    | .refuse _ => .ok (none, stream')
    | .give xs =>
      if xs.length = 0 then .ok (none, stream')
      else if size + 1 < xs.length then .error .streamOverrun
      else streamReadLoop fuel stream' (got ++ xs) (size + 1 - xs.length)

def streamReadAll (stream : IStream) (size : Nat) : Exec (Option (List UInt8) × IStream) :=
  streamReadLoop size stream [] size

/-- The object representation of a `uint32_t`. -/
def bytesOfUInt32 (x : UInt32) : List UInt8 := LittleEndian.encode 4 x.toNat

/-- The eight bytes of a 64-bit pattern. -/
def bytesOfBits (bits : UInt64) : List UInt8 := LittleEndian.encode 8 bits.toNat

/-- The object representation of a `double`. -/
def bytesOfDouble {D : Type} [DoubleBits D] (x : D) : List UInt8 :=
  bytesOfBits (DoubleBits.toBits x)

def uint32OfBytes (bytes : List UInt8) : UInt32 := UInt32.ofNat (LittleEndian.decode bytes)

def doubleOfBytes {D : Type} [DoubleBits D] (bytes : List UInt8) : D :=
  DoubleBits.ofBits (UInt64.ofNat (LittleEndian.decode bytes))

/-- `streamWrite(a) && streamWrite(b) && ...`: the first failure ends the save. -/
def streamWriteEach (stream : OStream) : List (List UInt8) → Exec (Bool × OStream)
  | [] => .ok (true, stream)
  | value :: values =>
    match streamWriteAll stream value with
    | .error fault => .error fault
    | .ok (false, stream) => .ok (false, stream)
    | .ok (true, stream) => streamWriteEach stream values

/-- `streamRead<uint32_t>`. -/
def streamReadUInt32 (stream : IStream) : Exec (Option UInt32 × IStream) :=
  match streamReadAll stream 4 with
  | .error fault => .error fault
  | .ok (bytes, stream) => .ok (bytes.map uint32OfBytes, stream)

/-- `streamRead<double>`. -/
def streamReadDouble {D : Type} [DoubleBits D] (stream : IStream) : Exec (Option D × IStream) :=
  match streamReadAll stream 8 with
  | .error fault => .error fault
  | .ok (bytes, stream) => .ok (bytes.map doubleOfBytes, stream)

/-! ## Cooperative peers -/

/-- A stream that accepts something of every offer takes the whole buffer, in order. -/
theorem streamWriteLoop_accepts (fuel : Nat) :
    ∀ (stream : OStream) (bytes : List UInt8), Accepts stream → bytes.length ≤ fuel →
      ∃ stream', streamWriteLoop fuel stream bytes = .ok (true, stream') ∧
        stream'.taken = stream.taken ++ bytes ∧ Accepts stream' := by
  induction fuel with
  | zero =>
    intro stream bytes ha hlen
    obtain rfl : bytes = [] := List.length_eq_zero_iff.mp (by omega)
    exact ⟨stream, rfl, (List.append_nil _).symm, ha⟩
  | succ fuel ih =>
    intro stream bytes ha hlen
    cases bytes with
    | nil => exact ⟨stream, rfl, (List.append_nil _).symm, ha⟩
    | cons b bs =>
      obtain ⟨k, hk1, hk2, hres, htaken, ha'⟩ := ha.step (List.cons_ne_nil b bs)
      obtain ⟨stream', hloop, htaken', ha''⟩ := ih (stream.write (b :: bs)).2
        ((b :: bs).drop k) ha' (by rw [List.length_drop]; omega)
      refine ⟨stream', ?_, ?_, ha''⟩
      · have hpos : ¬ ((k : Int) ≤ 0) := by omega
        have hfit : ¬ ((b :: bs).length < (k : Int).toNat) := by omega
        rw [streamWriteLoop, hres, if_neg hpos, if_neg hfit, Int.toNat_natCast]
        exact hloop
      · rw [htaken', htaken, List.append_assoc, List.take_append_drop]

theorem streamWriteAll_accepts {stream : OStream} (h : Accepts stream) (bytes : List UInt8) :
    ∃ stream', streamWriteAll stream bytes = .ok (true, stream') ∧
      stream'.taken = stream.taken ++ bytes ∧ Accepts stream' :=
  streamWriteLoop_accepts bytes.length stream bytes h le_rfl

theorem streamWriteEach_accepts (values : List (List UInt8)) :
    ∀ {stream : OStream}, Accepts stream →
      ∃ stream', streamWriteEach stream values = .ok (true, stream') ∧
        stream'.taken = stream.taken ++ values.flatten ∧ Accepts stream' := by
  induction values with
  | nil => exact fun {stream} h => ⟨stream, rfl, by simp, h⟩
  | cons v vs ih =>
    intro stream h
    obtain ⟨s1, hw, ht, h1⟩ := streamWriteAll_accepts h v
    obtain ⟨s2, hws, hts, h2⟩ := ih h1
    refine ⟨s2, ?_, ?_, h2⟩
    · rw [streamWriteEach, hw]
      exact hws
    · rw [hts, ht, List.flatten_cons, List.append_assoc]

/-- A stream that delivers `front ++ back` fills a buffer of `front`'s size with `front`. -/
theorem streamReadLoop_delivers (fuel : Nat) :
    ∀ (stream : IStream) (got front back : List UInt8), Delivers stream (front ++ back) →
      front.length ≤ fuel →
      ∃ stream', streamReadLoop fuel stream got front.length = .ok (some (got ++ front), stream') ∧
        Delivers stream' back := by
  induction fuel with
  | zero =>
    intro stream got front back hd hlen
    obtain rfl : front = [] := List.length_eq_zero_iff.mp (by omega)
    exact ⟨stream, by simp [streamReadLoop], hd⟩
  | succ fuel ih =>
    intro stream got front back hd hlen
    cases front with
    | nil => exact ⟨stream, by simp [streamReadLoop], hd⟩
    | cons b bs =>
      obtain ⟨k, hk1, hkn, hkl, hres, hd'⟩ :=
        hd.step (n := bs.length + 1) (by omega) (by simp)
      have hk : k ≤ (b :: bs).length := by simpa using hkn
      have htake : (b :: bs ++ back).take k = (b :: bs).take k := List.take_append_of_le_length hk
      have hdrop : (b :: bs ++ back).drop k = (b :: bs).drop k ++ back :=
        List.drop_append_of_le_length hk
      rw [htake] at hres
      rw [hdrop] at hd'
      have htl : ((b :: bs).take k).length = k := List.length_take_of_le hk
      have hdl : ((b :: bs).drop k).length = bs.length + 1 - k := by
        rw [List.length_drop, List.length_cons]
      obtain ⟨stream', hloop, hback⟩ :=
        ih _ (got ++ (b :: bs).take k) ((b :: bs).drop k) back hd'
          (by rw [hdl]; simp only [List.length_cons] at hlen; omega)
      refine ⟨stream', ?_, hback⟩
      rw [List.length_cons, streamReadLoop, hres]
      dsimp only
      rw [htl, if_neg (by omega), if_neg (by omega), ← hdl, hloop, List.append_assoc,
        List.take_append_drop]

theorem streamReadAll_delivers {stream : IStream} {front back : List UInt8}
    (h : Delivers stream (front ++ back)) :
    ∃ stream', streamReadAll stream front.length = .ok (some front, stream') ∧
      Delivers stream' back :=
  streamReadLoop_delivers front.length stream [] front back h le_rfl

/-- A `uint32_t` that was written is read back. -/
theorem streamReadUInt32_delivers {stream : IStream} {x : UInt32} {back : List UInt8}
    (h : Delivers stream (bytesOfUInt32 x ++ back)) :
    ∃ stream', streamReadUInt32 stream = .ok (some x, stream') ∧ Delivers stream' back := by
  obtain ⟨stream', hr, hb⟩ := streamReadAll_delivers h
  have hlen : (bytesOfUInt32 x).length = 4 := LittleEndian.length_encode 4 _
  rw [hlen] at hr
  refine ⟨stream', ?_, hb⟩
  rw [streamReadUInt32, hr]
  show Except.ok (some (uint32OfBytes (bytesOfUInt32 x)), stream') = _
  rw [uint32OfBytes, bytesOfUInt32, LittleEndian.ofNat_decode_encode32]

/-- A 64-bit pattern that was written is read back as a `double` with that pattern. -/
theorem streamReadDouble_delivers {D : Type} [DoubleBits D] {stream : IStream} {bits : UInt64}
    {back : List UInt8} (h : Delivers stream (bytesOfBits bits ++ back)) :
    ∃ stream', streamReadDouble stream = .ok (some (DoubleBits.ofBits bits : D), stream') ∧
      Delivers stream' back := by
  obtain ⟨stream', hr, hb⟩ := streamReadAll_delivers h
  have hlen : (bytesOfBits bits).length = 8 := LittleEndian.length_encode 8 _
  rw [hlen] at hr
  refine ⟨stream', ?_, hb⟩
  rw [streamReadDouble, hr]
  show Except.ok (some (doubleOfBytes (bytesOfBits bits)), stream') = _
  rw [doubleOfBytes, bytesOfBits, LittleEndian.ofNat_decode_encode64]

end Cvp
