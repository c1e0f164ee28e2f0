/-
  Numbers as text, over exact arithmetic. What `%.<p>f` writes is a sign, the digits of a whole
  number and `p` digits behind the point; `strtod` reads up to the unit behind it and finds the
  value rounded to `p` digits (`numberValue_formatFixed`). That value is at most half a digit off
  and stays between any two bounds with `p` digits; a value with `p` digits is shown as it is.
-/
import ClapValidatorPlugins.Texts.Percent

namespace Cvp

/-! ## Reading a numeral -/

/-- The number behind the sign, as `strtod` reads it. -/
def unsignedValue (text : List Char) : ℚ :=
  let fraction := match text.dropWhile Char.isDigit with
    | '.' :: cs => cs.takeWhile Char.isDigit
    | _ => []
  digitsValue (text.takeWhile Char.isDigit) + digitsValue fraction / 10 ^ fraction.length

theorem ratStrtod_minus (text : List Char) : ratStrtod ('-' :: text) = -unsignedValue text :=
  neg_one_mul _

theorem ratStrtod_plus (text : List Char) : ratStrtod ('+' :: text) = unsignedValue text :=
  one_mul _

theorem ratStrtod_of_isDigit {c : Char} {cs : List Char} (h : c.isDigit = true) :
    ratStrtod (c :: cs) = unsignedValue (c :: cs) := by
  unfold ratStrtod
  split
  rename_i sign text heq
  split at heq
  · rename_i hminus
    rw [(List.cons.inj hminus).1] at h
    cases h
  · rename_i hplus
    rw [(List.cons.inj hplus).1] at h
    cases h
  · cases heq
    exact one_mul _

/-- The text goes on with something else than a digit. -/
def EndsDigits (rest : List Char) : Prop := ∀ c ∈ rest.head?, c.isDigit = false

theorem takeWhile_digits {digits rest : List Char} (h : ∀ c ∈ digits, c.isDigit = true)
    (hrest : EndsDigits rest) : (digits ++ rest).takeWhile Char.isDigit = digits := by
  rw [List.takeWhile_append_of_pos h]
  cases rest with
  | nil => exact List.append_nil _
  | cons c cs =>
    have hc : ¬ c.isDigit = true := Bool.eq_false_iff.mp (hrest c rfl)
    rw [List.takeWhile_cons_of_neg hc, List.append_nil]

theorem dropWhile_digits {digits rest : List Char} (h : ∀ c ∈ digits, c.isDigit = true)
    (hrest : EndsDigits rest) : (digits ++ rest).dropWhile Char.isDigit = rest := by
  rw [List.dropWhile_append_of_pos h]
  cases rest with
  | nil => rfl
  | cons c cs =>
    have hc : ¬ c.isDigit = true := Bool.eq_false_iff.mp (hrest c rfl)
    rw [List.dropWhile_cons_of_neg hc]

theorem isDigit_of_mem_toDigits {n : ℕ} : ∀ c ∈ Nat.toDigits 10 n, c.isDigit = true :=
  fun _ hc => Nat.isDigit_of_mem_toDigits (by decide) (by decide) hc

theorem digitsValue_toDigits (n : ℕ) : digitsValue (Nat.toDigits 10 n) = n := by
  rw [digitsValue_eq, Nat.ofDigitChars_ten_toDigits]

theorem digitsValue_zeros (k : ℕ) (cs : List Char) :
    digitsValue (List.replicate k '0' ++ cs) = digitsValue cs := by
  induction k with
  | zero => rfl
  | succ k ih =>
    have hzero : (0 : ℚ) * 10 + ('0'.toNat - '0'.toNat : ℕ) = 0 := by norm_num
    rw [List.replicate_succ, List.cons_append, digitsValue, List.foldl_cons, hzero]
    exact ih

/-- A whole number, and then no point. -/
theorem unsignedValue_whole (n : ℕ) {rest : List Char} (hrest : EndsDigits rest)
    (hpoint : rest.head? ≠ some '.') : unsignedValue (Nat.toDigits 10 n ++ rest) = n := by
  unfold unsignedValue
  rw [takeWhile_digits isDigit_of_mem_toDigits hrest,
    dropWhile_digits isDigit_of_mem_toDigits hrest, digitsValue_toDigits]
  split
  · exact absurd rfl hpoint
  · simp [digitsValue]

/-- A whole number, a point and more digits. -/
theorem unsignedValue_point (n : ℕ) {fraction rest : List Char}
    (hfraction : ∀ c ∈ fraction, c.isDigit = true) (hrest : EndsDigits rest) :
    unsignedValue (Nat.toDigits 10 n ++ '.' :: (fraction ++ rest)) =
      n + digitsValue fraction / 10 ^ fraction.length := by
  have hpoint : EndsDigits ('.' :: (fraction ++ rest)) := by
    rintro c ⟨⟩
    rfl
  unfold unsignedValue
  rw [takeWhile_digits isDigit_of_mem_toDigits hpoint,
    dropWhile_digits isDigit_of_mem_toDigits hpoint, digitsValue_toDigits]
  show _ + digitsValue ((fraction ++ rest).takeWhile Char.isDigit) /
    10 ^ ((fraction ++ rest).takeWhile Char.isDigit).length = _
  rw [takeWhile_digits hfraction hrest]

/-- A sign in front does not hide a number. -/
theorem hasNumber_signed (n : ℕ) (rest : List Char) :
    hasNumber ('-' :: (Nat.toDigits 10 n ++ rest)) = true ∧
      hasNumber ('+' :: (Nat.toDigits 10 n ++ rest)) = true := by
  obtain ⟨c, cs, hcs, hc⟩ := toDigits_cons n
  have hbegins : hasNumber.numberBegins (c :: (cs ++ rest)) = true := by
    unfold hasNumber.numberBegins
    split
    · rename_i heq
      rw [(List.cons.inj heq).1] at hc
      cases hc
    · rename_i heq
      rw [← (List.cons.inj heq).1, hc, Bool.true_or]
    · rename_i heq
      cases heq
  rw [hcs]
  exact ⟨hbegins, hbegins⟩

/-! ## Writing one -/

section Format

variable (p : ℕ) (x : ℚ)

/-- The digits of the value, without the point. -/
def scaledDigits : ℕ := (roundHalfEven (|x| * 10 ^ p)).toNat

/-- The digits behind the point. -/
def fractionDigits : List Char :=
  let fraction := Nat.toDigits 10 (scaledDigits p x % 10 ^ p)
  List.replicate (p - fraction.length) '0' ++ fraction

/-- The value as it is shown. -/
def shown : ℚ := (if x < 0 then -1 else 1) * (scaledDigits p x / 10 ^ p)

theorem toList_toString (n : ℕ) : (toString n).toList = Nat.toDigits 10 n := Nat.toList_repr

/-- What is behind the sign. -/
def unsignedChars : List Char :=
  Nat.toDigits 10 (scaledDigits p x / 10 ^ p) ++ if p = 0 then [] else '.' :: fractionDigits p x

theorem toList_formatFixed :
    (ratFormatFixed p x).toList = (if x < 0 then ['-'] else []) ++ unsignedChars p x := by
  unfold ratFormatFixed unsignedChars fractionDigits scaledDigits
  have hlength : (toString ((roundHalfEven (|x| * 10 ^ p)).toNat % 10 ^ p)).length =
      (Nat.toDigits 10 ((roundHalfEven (|x| * 10 ^ p)).toNat % 10 ^ p)).length := by
    rw [← toList_toString, String.length_toList]
  dsimp only
  rw [String.toList_append, String.toList_append, toList_toString, List.append_assoc]
  congr 1
  · split <;> rfl
  · congr 1
    split
    · rfl
    · simp only [String.toList_append, String.toList_ofList, toList_toString, hlength]
      rfl

theorem isDigit_of_mem_fractionDigits : ∀ c ∈ fractionDigits p x, c.isDigit = true := by
  intro c hc
  rcases List.mem_append.mp hc with hzero | hdigit
  · rw [List.eq_of_mem_replicate hzero]
    rfl
  · exact isDigit_of_mem_toDigits c hdigit

theorem length_fractionDigits (hp : p ≠ 0) : (fractionDigits p x).length = p := by
  have hle : (Nat.toDigits 10 (scaledDigits p x % 10 ^ p)).length ≤ p :=
    (Nat.length_toDigits_le_iff (by decide) (Nat.pos_of_ne_zero hp)).mpr
      (Nat.mod_lt _ (by positivity))
  rw [fractionDigits, List.length_append, List.length_replicate]
  omega

theorem unsignedValue_unsignedChars {rest : List Char} (hrest : EndsDigits rest)
    (hpoint : rest.head? ≠ some '.') :
    unsignedValue (unsignedChars p x ++ rest) = scaledDigits p x / 10 ^ p := by
  unfold unsignedChars
  by_cases hp : p = 0
  · subst hp
    rw [if_pos rfl, List.append_nil, unsignedValue_whole _ hrest hpoint, pow_zero, pow_zero,
      Nat.div_one, div_one]
  · have hvalue : digitsValue (fractionDigits p x) = (scaledDigits p x % 10 ^ p : ℕ) := by
      rw [fractionDigits, digitsValue_zeros, digitsValue_toDigits]
    have hsplit : (scaledDigits p x : ℚ) =
        (scaledDigits p x / 10 ^ p : ℕ) * 10 ^ p + (scaledDigits p x % 10 ^ p : ℕ) := by
      exact_mod_cast (Nat.div_add_mod' (scaledDigits p x) (10 ^ p)).symm
    have hpow : (10 : ℚ) ^ p ≠ 0 := by positivity
    rw [if_neg hp, List.append_assoc, List.cons_append,
      unsignedValue_point _ (isDigit_of_mem_fractionDigits p x) hrest, hvalue,
      length_fractionDigits p x hp]
    rw [hsplit, add_div, mul_div_cancel_right₀ _ hpow]

/-- Four digits at most, a sign and a point. -/
theorem length_formatFixed (h : |x| ≤ 9999) : (ratFormatFixed p x).toList.length ≤ 6 + p := by
  have hscaled : scaledDigits p x ≤ 9999 * 10 ^ p := by
    have hpow : (0 : ℚ) ≤ 10 ^ p := by positivity
    have hle : roundHalfEven (|x| * 10 ^ p) ≤ ((9999 * 10 ^ p : ℕ) : ℤ) := by
      refine roundHalfEven_le ?_
      push_cast
      exact mul_le_mul_of_nonneg_right h hpow
    exact Int.toNat_le.mpr hle
  have hwhole : scaledDigits p x / 10 ^ p < 10 ^ 4 := by
    have hle : scaledDigits p x / 10 ^ p ≤ 9999 := Nat.div_le_of_le_mul (by linarith)
    omega
  have hdigits : (Nat.toDigits 10 (scaledDigits p x / 10 ^ p)).length ≤ 4 :=
    (Nat.length_toDigits_le_iff (by decide) (by decide)).mpr hwhole
  have hfraction : (if p = 0 then [] else '.' :: fractionDigits p x).length ≤ p + 1 := by
    split
    · exact Nat.zero_le _
    · rename_i hp
      rw [List.length_cons, length_fractionDigits p x hp]
  have hsign : (if x < 0 then ['-'] else []).length ≤ 1 := by
    split
    · exact le_rfl
    · exact Nat.zero_le _
  rw [toList_formatFixed, List.length_append, unsignedChars, List.length_append]
  omega

end Format

/-! ## What is read back -/

section Read

variable {text : String} {rest : List Char}

theorem numberValue_of_toList {x : ℚ} (cs : List Char) (htext : text.toList = cs)
    (hnumber : hasNumber cs = true) (hx : ratStrtod cs = x) :
    (numberValue text : Option ExactFloat) = some x := by
  unfold numberValue
  rw [htext, if_pos hnumber]
  exact congrArg some hx

theorem hasNumber_unsignedChars (p : ℕ) (x : ℚ) (rest : List Char) :
    hasNumber (unsignedChars p x ++ rest) = true ∧
      hasNumber ('-' :: (unsignedChars p x ++ rest)) = true ∧
      hasNumber ('+' :: (unsignedChars p x ++ rest)) = true := by
  rw [unsignedChars, List.append_assoc]
  exact ⟨hasNumber_numeral _ _, hasNumber_signed _ _⟩

theorem ratStrtod_unsignedChars (p : ℕ) (x : ℚ) (hrest : EndsDigits rest)
    (hpoint : rest.head? ≠ some '.') :
    ratStrtod (unsignedChars p x ++ rest) = scaledDigits p x / 10 ^ p := by
  have hvalue := unsignedValue_unsignedChars p x hrest hpoint
  obtain ⟨c, cs, hcs, hc⟩ := toDigits_cons (scaledDigits p x / 10 ^ p)
  rw [unsignedChars, hcs, List.append_assoc, List.cons_append] at hvalue ⊢
  rw [ratStrtod_of_isDigit hc, hvalue]

/-- The value that is shown, whether or not a format asks for the sign. -/
theorem numberValue_formatFixed (p : ℕ) (x : ℚ) {unit : String} (hrest : EndsDigits unit.toList)
    (hpoint : unit.toList.head? ≠ some '.') :
    (numberValue (ratFormatFixed p x ++ unit) : Option ExactFloat) = some (shown p x) ∧
      (numberValue (withPlus (ratFormatFixed p x) ++ unit) : Option ExactFloat) =
        some (shown p x) := by
  have hvalue := unsignedValue_unsignedChars p x hrest hpoint
  have hchars := toList_formatFixed p x
  obtain ⟨hplain, hminus, hplus⟩ := hasNumber_unsignedChars p x unit.toList
  unfold shown
  by_cases hx : x < 0
  · rw [if_pos hx] at hchars ⊢
    have hsame : withPlus (ratFormatFixed p x) = ratFormatFixed p x := by
      unfold withPlus
      rw [hchars]
      rfl
    have hread : (numberValue (ratFormatFixed p x ++ unit) : Option ExactFloat) =
        some (-1 * ((scaledDigits p x : ℚ) / 10 ^ p)) := by
      refine numberValue_of_toList ('-' :: (unsignedChars p x ++ unit.toList)) ?_ hminus ?_
      · rw [String.toList_append, hchars, List.singleton_append, List.cons_append]
      · rw [ratStrtod_minus, hvalue, neg_one_mul]
    refine ⟨hread, ?_⟩
    rw [hsame]
    exact hread
  · rw [if_neg hx, List.nil_append] at hchars
    rw [if_neg hx, one_mul]
    have hsigned : withPlus (ratFormatFixed p x) = "+" ++ ratFormatFixed p x := by
      obtain ⟨c, cs, hcs, hc⟩ := toDigits_cons (scaledDigits p x / 10 ^ p)
      unfold withPlus
      rw [hchars, unsignedChars, hcs, List.cons_append]
      split
      · rename_i heq
        rw [(List.cons.inj heq).1] at hc
        cases hc
      · rfl
    constructor
    · refine numberValue_of_toList (unsignedChars p x ++ unit.toList) ?_ hplain
        (ratStrtod_unsignedChars p x hrest hpoint)
      rw [String.toList_append, hchars]
    · rw [hsigned]
      refine numberValue_of_toList ('+' :: (unsignedChars p x ++ unit.toList)) ?_ hplus
        ((ratStrtod_plus _).trans hvalue)
      rw [String.toList_append, String.toList_append, hchars]
      rfl

end Read

/-! ## The value that is shown -/

theorem le_roundHalfEven {x : ℚ} {m : ℤ} (h : (m : ℚ) ≤ x) : m ≤ roundHalfEven x := by
  have hfloor : m ≤ ⌊x⌋ := Int.le_floor.mpr h
  unfold roundHalfEven
  split_ifs <;> omega

/-- Half a step at most. -/
theorem abs_roundHalfEven_sub_le (x : ℚ) : |roundHalfEven x - x| ≤ 1 / 2 := by
  have hlow := Int.floor_le x
  have hhigh := Int.lt_floor_add_one x
  unfold roundHalfEven
  rw [abs_le]
  split_ifs <;> push_cast <;> constructor <;> linarith

section Shown

variable (p : ℕ) (x : ℚ)

theorem cast_scaledDigits : (scaledDigits p x : ℚ) = roundHalfEven (|x| * 10 ^ p) := by
  have hnonneg : 0 ≤ roundHalfEven (|x| * 10 ^ p) := roundHalfEven_nonneg (by positivity)
  have hcast : (scaledDigits p x : ℤ) = roundHalfEven (|x| * 10 ^ p) := Int.toNat_of_nonneg hnonneg
  exact_mod_cast hcast

theorem shown_mul_pow :
    shown p x * 10 ^ p = (if x < 0 then -1 else 1) * (roundHalfEven (|x| * 10 ^ p) : ℚ) := by
  have hpow : (10 : ℚ) ^ p ≠ 0 := by positivity
  rw [shown, mul_assoc, div_mul_cancel₀ _ hpow, cast_scaledDigits]

theorem abs_shown_sub_le : |shown p x - x| * 10 ^ p ≤ 1 / 2 := by
  have hpow : (0 : ℚ) < 10 ^ p := by positivity
  have hscale : |shown p x - x| * 10 ^ p = |shown p x * 10 ^ p - x * 10 ^ p| := by
    rw [← sub_mul, abs_mul, abs_of_pos hpow]
  rw [hscale, shown_mul_pow]
  by_cases hx : x < 0
  · have hround := abs_roundHalfEven_sub_le (|x| * 10 ^ p)
    rw [abs_of_neg hx] at hround ⊢
    rw [if_pos hx, abs_sub_comm]
    refine le_trans (le_of_eq (congrArg _ ?_)) hround
    ring
  · have hround := abs_roundHalfEven_sub_le (|x| * 10 ^ p)
    rw [abs_of_nonneg (not_lt.mp hx)] at hround ⊢
    rw [if_neg hx, one_mul]
    exact hround

theorem shown_neg : shown p (-x) = -shown p x := by
  unfold shown scaledDigits
  rw [abs_neg]
  rcases lt_trichotomy x 0 with hx | rfl | hx
  · rw [if_neg (by linarith), if_pos hx]
    ring
  · have hzero : roundHalfEven 0 = 0 := by exact_mod_cast roundHalfEven_intCast 0
    simp [hzero]
  · rw [if_pos (by linarith), if_neg (by linarith)]
    ring

theorem shown_le {b : ℤ} (h : x * 10 ^ p ≤ b) : shown p x * 10 ^ p ≤ b := by
  rw [shown_mul_pow]
  by_cases hx : x < 0
  · rw [if_pos hx, abs_of_neg hx]
    have hround : -b ≤ roundHalfEven (-x * 10 ^ p) := le_roundHalfEven (by push_cast; linarith)
    have hcast : (-b : ℚ) ≤ roundHalfEven (-x * 10 ^ p) := by exact_mod_cast hround
    linarith
  · rw [if_neg hx, one_mul, abs_of_nonneg (not_lt.mp hx)]
    exact_mod_cast roundHalfEven_le h

theorem le_shown {a : ℤ} (h : (a : ℚ) ≤ x * 10 ^ p) : (a : ℚ) ≤ shown p x * 10 ^ p := by
  have hneg := shown_le p (-x) (b := -a) (by push_cast; linarith)
  rw [shown_neg] at hneg
  push_cast at hneg
  linarith

theorem shown_exact : ∃ n : ℤ, shown p x * 10 ^ p = n := by
  rw [shown_mul_pow]
  split
  · exact ⟨-roundHalfEven (|x| * 10 ^ p), by push_cast; ring⟩
  · exact ⟨roundHalfEven (|x| * 10 ^ p), one_mul _⟩

/-- A value with these digits is shown as it is. -/
theorem shown_of_exact {n : ℤ} (h : x * 10 ^ p = n) : shown p x = x := by
  have hpow : (0 : ℚ) < 10 ^ p := by positivity
  have habs : |x| * 10 ^ p = (|n| : ℤ) := by
    rw [Int.cast_abs, ← h, abs_mul, abs_of_pos hpow]
  have hshown := shown_mul_pow p x
  rw [habs, roundHalfEven_intCast, ← habs] at hshown
  refine mul_right_cancel₀ hpow.ne' (hshown.trans ?_)
  split
  · rename_i hx
    rw [abs_of_neg hx]
    ring
  · rename_i hx
    rw [abs_of_nonneg (not_lt.mp hx), one_mul]

/-- `%d` is `%.0f` of a whole number. -/
theorem toString_eq_formatFixed (n : ℤ) : toString n = ratFormatFixed 0 n := by
  have hround : (roundHalfEven (|(n : ℚ)| * 10 ^ 0)).toNat = n.natAbs := by
    rw [pow_zero, mul_one, ← Int.cast_abs, roundHalfEven_intCast, Int.abs_eq_natAbs,
      Int.toNat_natCast]
  unfold ratFormatFixed
  dsimp only
  rw [hround, if_pos rfl, pow_zero, Nat.div_one, String.append_empty]
  cases n with
  | ofNat n =>
    rw [if_neg (by simp), String.empty_append]
    rfl
  | negSucc n =>
    rw [if_pos (by exact_mod_cast Int.negSucc_lt_zero n)]
    rfl

end Shown

end Cvp
