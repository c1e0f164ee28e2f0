/-
  Fixed-width little-endian words: `encode w n` is the low `w` bytes of `n`, least
  significant first, and `decode` reads any number of bytes back. `decode_encode` is the
  round trip, exact below `256 ^ w`.
-/
import Mathlib.Algebra.Group.Nat.Even
import Mathlib.Tactic.Ring

namespace LittleEndian

/-- The `w` low bytes of `n`, least significant first. -/
def encode : Nat → Nat → List UInt8
  | 0, _ => []
  | w + 1, n => UInt8.ofNat (n % 256) :: encode w (n / 256)

/-- The number a byte string stands for, least significant byte first. -/
def decode : List UInt8 → Nat
  | [] => 0
  | b :: bs => b.toNat + 256 * decode bs

@[simp] theorem length_encode (w n : Nat) : (encode w n).length = w := by
  induction w generalizing n with
  | zero => rfl
  | succ w ih => simp [encode, ih]

theorem decode_encode (w n : Nat) : decode (encode w n) = n % 256 ^ w := by
  induction w generalizing n with
  | zero => simp [encode, decode, Nat.mod_one]
  | succ w ih =>
    have hb : (UInt8.ofNat (n % 256)).toNat = n % 256 := by
      rw [UInt8.toNat_ofNat']
      omega
    rw [encode, decode, ih, hb, Nat.pow_succ', Nat.mod_mul]

theorem decode_encode_of_lt {w n : Nat} (h : n < 256 ^ w) : decode (encode w n) = n := by
  rw [decode_encode, Nat.mod_eq_of_lt h]

/-- The low bytes come first. -/
theorem take_encode (w w' n : Nat) : (encode (w + w') n).take w = encode w n := by
  induction w generalizing n with
  | zero => rfl
  | succ w ih => rw [Nat.succ_add, encode, encode, List.take_succ_cons, ih]

/-- A 32-bit word survives the trip through its four bytes. -/
theorem ofNat_decode_encode32 (x : UInt32) : UInt32.ofNat (decode (encode 4 x.toNat)) = x := by
  rw [decode_encode_of_lt (by have := x.toNat_lt; omega), UInt32.ofNat_toNat]

/-- A 64-bit word survives the trip through its eight bytes. -/
theorem ofNat_decode_encode64 (x : UInt64) : UInt64.ofNat (decode (encode 8 x.toNat)) = x := by
  rw [decode_encode_of_lt (by have := x.toNat_lt; omega), UInt64.ofNat_toNat]

end LittleEndian
