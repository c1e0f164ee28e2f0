/-
  Floating point as the plugins use it. `D` stands for `double`, `S` for `float`; the
  operations are uninterpreted, so every result that does not name a law holds for IEEE
  arithmetic and for exact arithmetic alike. A `double` travels through `clap.state` as its
  64-bit pattern (`DoubleBits`); the one law used there is `LawfulDoubleBits`.

  `ExactFloat` gives rational arithmetic for evaluating concrete runs. Its `sin`, `cos` and
  `tanh` are the first terms of their series and `pow` is exact for integer exponents only.
-/
import Mathlib.Data.Rat.Floor

namespace Cvp

/-- The `double` operations, comparisons, casts and `<cmath>` calls of the sources. -/
class DoubleOps (D : Type) extends Add D, Sub D, Mul D, Div D where
  lit : ℚ → D
  lt : D → D → Bool
  le : D → D → Bool
  ne : D → D → Bool
  abs : D → D
  sin : D → D
  cos : D → D
  tanh : D → D
  pow : D → D → D
  toInt : D → Int
  toUInt32 : D → UInt32
  ofInt : Int → D
  /-- `std::strtod` on the text of a value: the number of its longest numeric prefix, 0 when
      there is none. -/
  strtod : List Char → D
  /-- `printf("%.<digits>f")`. -/
  formatFixed : Nat → D → String

/-- The `float` operations of the sources. -/
class FloatOps (S : Type) extends Add S, Sub S, Mul S where
  lit : ℚ → S
  lt : S → S → Bool
  le : S → S → Bool
  ne : S → S → Bool
  abs : S → S

/-- `static_cast` between the two. -/
class FloatCast (D S : Type) where
  toFloat : D → S
  toDouble : S → D

/-- The object representation of a `double`, as `streamWrite`/`streamRead` copy it. -/
class DoubleBits (D : Type) where
  toBits : D → UInt64
  ofBits : UInt64 → D

/-- A `double` that was given a bit pattern has that bit pattern. -/
class LawfulDoubleBits (D : Type) [DoubleBits D] : Prop where
  toBits_ofBits : ∀ b : UInt64, DoubleBits.toBits (DoubleBits.ofBits b : D) = b

/-- What `SineEngine::renderImpl` needs of its `Sample` type. -/
class SampleOps (D T : Type) where
  ofDouble : D → T
  add : T → T → T
  zero : T

instance doubleSample {D : Type} [DoubleOps D] : SampleOps D D where
  ofDouble := id
  add := (· + ·)
  zero := DoubleOps.lit 0

instance floatSample {D S : Type} [FloatOps S] [FloatCast D S] : SampleOps D S where
  ofDouble := FloatCast.toFloat
  add := (· + ·)
  zero := FloatOps.lit 0

/-- `std::clamp(x, lo, hi)` on `float`. -/
def clampFloat {S : Type} [FloatOps S] (x lo hi : S) : S :=
  if FloatOps.lt x lo then lo else if FloatOps.lt hi x then hi else x

/-- `std::clamp(x, lo, hi)` on `double`. -/
def clampDouble {D : Type} [DoubleOps D] (x lo hi : D) : D :=
  if DoubleOps.lt x lo then lo else if DoubleOps.lt hi x then hi else x

/-- `std::max(a, b)` on `double`: `a` unless `a < b`. -/
def maxDouble {D : Type} [DoubleOps D] (a b : D) : D := if DoubleOps.lt a b then b else a

/-- `std::min(a, b)` on `double`: `a` unless `b < a`. -/
def minDouble {D : Type} [DoubleOps D] (a b : D) : D := if DoubleOps.lt b a then b else a

/-! ## Numeric prefixes -/

/-- `std::isspace`. -/
def isBlank (c : Char) : Bool := c = ' ' || (decide (9 ≤ c.toNat) && decide (c.toNat ≤ 13))

/-- Whether `std::strtod` reads anything of the text (`end != text`): behind blanks and a sign a
    digit, a point with a digit, or an infinity or nan in any case. A `0x` begins with a digit. -/
def hasNumber (text : List Char) : Bool :=
  match text.dropWhile isBlank with
  | '+' :: rest | '-' :: rest => numberBegins rest
  | rest => numberBegins rest
where
  numberBegins (rest : List Char) : Bool :=
    match rest with
    | '.' :: c :: _ => c.isDigit
    | c :: cs =>
      c.isDigit || decide ((c :: cs.take 2).map Char.toLower ∈ ["inf".toList, "nan".toList])
    | [] => false

/-! ## A carrier for concrete runs -/

/-- `double` and `float` as exact rationals. -/
abbrev ExactFloat := ℚ

/-- `10^0`, `2^1`, ... : exact for integer exponents, the floor of the exponent otherwise. -/
def ratPow (base e : ℚ) : ℚ := base ^ ⌊e⌋

/-- The value of a run of decimal digits, most significant first. -/
def digitsValue (cs : List Char) : ℚ :=
  cs.foldl (fun acc c => acc * 10 + (c.toNat - '0'.toNat : ℕ)) 0

/-- Optional sign, digits, optional fraction; exponents and blanks are not read. -/
def ratStrtod (text : List Char) : ℚ :=
  let (sign, rest) : ℚ × List Char := match text with
    | '-' :: cs => (-1, cs)
    | '+' :: cs => (1, cs)
    | cs => (1, cs)
  let whole := rest.takeWhile Char.isDigit
  let fraction := match rest.dropWhile Char.isDigit with
    | '.' :: cs => cs.takeWhile Char.isDigit
    | _ => []
  sign * (digitsValue whole + digitsValue fraction / 10 ^ fraction.length)

/-- The nearest integer, and of two the even one. -/
def roundHalfEven (x : ℚ) : ℤ :=
  if x - ⌊x⌋ < 1 / 2 then ⌊x⌋
  else if 1 / 2 < x - ⌊x⌋ then ⌊x⌋ + 1
  else if ⌊x⌋ % 2 = 0 then ⌊x⌋ else ⌊x⌋ + 1

/-- Rounded as `printf` does, with `digits` digits behind the point. -/
def ratFormatFixed (digits : Nat) (x : ℚ) : String :=
  let scaled := (roundHalfEven (|x| * 10 ^ digits)).toNat
  let fraction := toString (scaled % 10 ^ digits)
  let padding := String.ofList (List.replicate (digits - fraction.length) '0')
  (if x < 0 then "-" else "") ++ toString (scaled / 10 ^ digits) ++
    (if digits = 0 then "" else "." ++ padding ++ fraction)

instance : DoubleOps ExactFloat where
  lit := id
  lt a b := decide (a < b)
  le a b := decide (a ≤ b)
  ne a b := decide (a ≠ b)
  abs a := |a|
  sin x := x - x ^ 3 / 6
  cos x := 1 - x ^ 2 / 2
  tanh x := x - x ^ 3 / 3
  pow := ratPow
  toInt x := if 0 ≤ x then ⌊x⌋ else ⌈x⌉
  toUInt32 x := UInt32.ofNat ⌊x⌋.toNat
  ofInt n := n
  strtod := ratStrtod
  formatFixed := ratFormatFixed

instance : FloatOps ExactFloat where
  lit := id
  lt a b := decide (a < b)
  le a b := decide (a ≤ b)
  ne a b := decide (a ≠ b)
  abs a := |a|

instance : FloatCast ExactFloat ExactFloat where
  toFloat := id
  toDouble := id

/-- Whole numbers below `2^64` stand for the pattern of the same value. -/
instance : DoubleBits ExactFloat where
  toBits x := UInt64.ofNat ⌊x⌋.toNat
  ofBits b := (b.toNat : ℚ)

instance : LawfulDoubleBits ExactFloat where
  toBits_ofBits b := by
    show UInt64.ofNat ⌊(b.toNat : ℚ)⌋.toNat = b
    rw [Int.floor_natCast, Int.toNat_natCast, UInt64.ofNat_toNat]

end Cvp
