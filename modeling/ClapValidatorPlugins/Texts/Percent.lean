/-
  The five parameters shown in percent, over exact arithmetic. The text of a value in [0, 1] is a
  whole number `n` of percent, and reading it back divides by 100 only above 1: "1 %" is read as
  the fraction 1. So value and text agree except where the text is "1 %"
  (`percent_roundTrip_iff`).
-/
import ClapValidatorPlugins.Plugins.Effects
import ClapValidatorPlugins.Plugins.Synths
import Mathlib.Tactic.Linarith
import Mathlib.Tactic.NormNum

namespace Cvp

/-! ## Whole numbers as text -/

theorem digitsValue_eq (cs : List Char) : digitsValue cs = (Nat.ofDigitChars 10 cs 0 : ℕ) := by
  have hfold : ∀ (cs : List Char) (n : ℕ),
      cs.foldl (fun (acc : ℚ) c => acc * 10 + (c.toNat - '0'.toNat : ℕ)) n =
        (Nat.ofDigitChars 10 cs n : ℕ) := by
    intro cs
    induction cs with
    | nil => exact fun n => congrArg Nat.cast Nat.ofDigitChars_nil.symm
    | cons c cs ih =>
      intro n
      rw [List.foldl_cons, Nat.ofDigitChars_cons, ← ih, Nat.cast_add, Nat.cast_mul, mul_comm]
      rfl
  exact hfold cs 0

/-- The first character of a numeral. -/
theorem toDigits_cons (n : ℕ) :
    ∃ c cs, Nat.toDigits 10 n = c :: cs ∧ c.isDigit = true := by
  obtain ⟨c, cs, hcs⟩ := List.exists_cons_of_ne_nil (Nat.toDigits_ne_nil (n := n) (b := 10))
  have hmem : c ∈ Nat.toDigits 10 n := by
    rw [hcs]
    exact List.mem_cons_self
  exact ⟨c, cs, hcs, Nat.isDigit_of_mem_toDigits (by decide) (by decide) hmem⟩

/-- A numeral is read up to the blank behind it. -/
theorem ratStrtod_numeral (n : ℕ) (rest : List Char) :
    ratStrtod (Nat.toDigits 10 n ++ ' ' :: rest) = n := by
  have hdigit : ∀ c ∈ Nat.toDigits 10 n, c.isDigit = true :=
    fun c hc => Nat.isDigit_of_mem_toDigits (by decide) (by decide) hc
  have htake : (Nat.toDigits 10 n ++ ' ' :: rest).takeWhile Char.isDigit = Nat.toDigits 10 n := by
    rw [List.takeWhile_append_of_pos hdigit, List.takeWhile_cons_of_neg (by decide),
      List.append_nil]
  have hdrop : (Nat.toDigits 10 n ++ ' ' :: rest).dropWhile Char.isDigit = ' ' :: rest := by
    rw [List.dropWhile_append_of_pos hdigit, List.dropWhile_cons_of_neg (by decide)]
  obtain ⟨c, cs, hcs, hc⟩ := toDigits_cons n
  have hsign : ratStrtod (Nat.toDigits 10 n ++ ' ' :: rest) =
      1 * (digitsValue (Nat.toDigits 10 n) + digitsValue [] / 10 ^ 0) := by
    unfold ratStrtod
    split
    rename_i sign text heq
    split at heq
    · rename_i hminus
      rw [hcs] at hminus
      cases hminus
      cases hc
    · rename_i hplus
      rw [hcs] at hplus
      cases hplus
      cases hc
    · cases heq
      dsimp only
      rw [htake, hdrop]
      rfl
  rw [hsign, digitsValue_eq, Nat.ofDigitChars_ten_toDigits]
  norm_num [digitsValue]

theorem isBlank_of_isDigit {c : Char} (h : c.isDigit = true) : isBlank c = false := by
  have hlow : 48 ≤ c.toNat := by
    have hval := of_decide_eq_true (Bool.and_eq_true_iff.mp h).1
    exact UInt32.le_iff_toNat_le.mp hval
  unfold isBlank
  rw [decide_eq_false (p := c = ' ') (by rintro rfl; cases h), decide_eq_false (p := c.toNat ≤ 13)
    (by omega), Bool.and_false, Bool.or_false]

theorem hasNumber_numeral (n : ℕ) (rest : List Char) :
    hasNumber (Nat.toDigits 10 n ++ rest) = true := by
  obtain ⟨c, cs, hcs, hc⟩ := toDigits_cons n
  unfold hasNumber
  rw [hcs, List.cons_append, List.dropWhile_cons_of_neg (by rw [isBlank_of_isDigit hc]; decide)]
  split
  · rename_i heq
    cases heq
    cases hc
  · rename_i heq
    cases heq
    cases hc
  · unfold hasNumber.numberBegins
    split
    · rename_i heq
      rw [(List.cons.inj heq).1] at hc
      cases hc
    · rename_i heq
      rw [← (List.cons.inj heq).1, hc, Bool.true_or]
    · rename_i heq
      cases heq

/-! ## Rounding -/

theorem roundHalfEven_intCast (n : ℤ) : roundHalfEven n = n := by
  unfold roundHalfEven
  rw [Int.floor_intCast, sub_self, if_pos (by norm_num)]

/-- What is rounded to 1: the halves below and above go to 0 and 2. -/
theorem roundHalfEven_eq_one_iff (x : ℚ) : roundHalfEven x = 1 ↔ 1 / 2 < x ∧ x < 3 / 2 := by
  have hlow := Int.floor_le x
  have hhigh := Int.lt_floor_add_one x
  unfold roundHalfEven
  constructor
  · intro h
    split_ifs at h with hbelow habove heven
    · rw [h] at hlow hbelow
      push_cast at hlow hbelow
      exact ⟨by linarith, by linarith⟩
    · have hfloor : ⌊x⌋ = 0 := by omega
      rw [hfloor] at habove hhigh
      push_cast at habove hhigh
      exact ⟨by linarith, by linarith⟩
    · omega
    · omega
  · rintro ⟨h1, h2⟩
    have hfloor : ⌊x⌋ = 0 ∨ ⌊x⌋ = 1 := by
      have hlt : ⌊x⌋ < 2 := Int.floor_lt.mpr (by push_cast; linarith)
      have hge : 0 ≤ ⌊x⌋ := Int.floor_nonneg.mpr (by linarith)
      omega
    rcases hfloor with hfloor | hfloor
    · rw [hfloor, if_neg (by push_cast; linarith), if_pos (by push_cast; linarith)]
      rfl
    · rw [hfloor, if_pos (by push_cast; linarith)]

theorem roundHalfEven_nonneg {x : ℚ} (h : 0 ≤ x) : 0 ≤ roundHalfEven x := by
  have hfloor : 0 ≤ ⌊x⌋ := Int.floor_nonneg.mpr h
  unfold roundHalfEven
  split_ifs <;> omega

theorem roundHalfEven_le {x : ℚ} {m : ℤ} (h : x ≤ m) : roundHalfEven x ≤ m := by
  have hlow := Int.floor_le x
  have hfloor : ⌊x⌋ ≤ m := Int.floor_le_iff.mpr (by linarith)
  rcases Int.lt_or_eq_of_le hfloor with hlt | heq
  · unfold roundHalfEven
    split_ifs <;> omega
  · unfold roundHalfEven
    rw [heq, if_pos (by linarith)]

/-! ## Percent -/

/-- Room for the text is room for all of it. -/
theorem snprintf_of_short {capacity : ℕ} {text : String} (h : text.toList.length < capacity) :
    snprintf capacity text = text := by
  unfold snprintf
  rw [List.take_of_length_le (by omega), String.ofList_toList]

theorem toList_percent (n : ℕ) : (toString n ++ " %").toList = Nat.toDigits 10 n ++ [' ', '%'] := by
  rw [String.toList_append]
  exact congrArg (· ++ [' ', '%']) Nat.toList_repr

/-- The text of a value in range is a whole number of percent. -/
theorem percentText_eq {v : ExactFloat} (h0 : 0 ≤ v) {n capacity : ℕ}
    (hn : roundHalfEven (v * 100) = n) (hsmall : n ≤ 100) (hroom : 6 ≤ capacity) :
    percentText v capacity = toString n ++ " %" := by
  have habs : |v * 100| * 10 ^ 0 = v * 100 := by
    rw [pow_zero, mul_one, abs_of_nonneg (by linarith)]
  have htext : (DoubleOps.formatFixed 0 (v * DoubleOps.lit 100 : ExactFloat)) = toString n := by
    show ratFormatFixed 0 (v * 100) = toString n
    unfold ratFormatFixed
    dsimp only
    rw [habs, hn, if_neg (not_lt.mpr (by linarith)), if_pos rfl, Int.toNat_natCast, pow_zero,
      Nat.div_one, String.empty_append, String.append_empty]
  have hdigits : (Nat.toDigits 10 n).length ≤ 3 :=
    (Nat.length_toDigits_le_iff (by decide) (by decide)).mpr (by omega)
  unfold percentText
  rw [htext]
  refine snprintf_of_short ?_
  rw [toList_percent, List.length_append]
  show (Nat.toDigits 10 n).length + 2 < capacity
  omega

/-- It is read as that number, and divided by 100 above 1. -/
theorem percentValue_eq (n : ℕ) :
    (percentValue (toString n ++ " %") : Option ExactFloat) =
      some (if 1 < n then (n : ℚ) / 100 else n) := by
  have hparsed : (DoubleOps.strtod (toString n ++ " %").toList : ExactFloat) = (n : ℚ) := by
    rw [toList_percent]
    exact ratStrtod_numeral n ['%']
  unfold percentValue
  rw [if_pos (by rw [toList_percent]; exact hasNumber_numeral n _), hparsed]
  refine congrArg some ?_
  show (if decide ((1 : ℚ) < n) = true then (n : ℚ) / 100 else n) = _
  simp only [decide_eq_true_eq, Nat.one_lt_cast]

/-- The five parameters. -/
inductive PercentParam where
  | synthVolume
  | sidechainVolume
  | sidechainAmount
  | genLevel
  | fxAuxLevel
  deriving DecidableEq, Repr

namespace PercentParam

variable {D : Type} [DoubleOps D]

def paramValueToText : PercentParam → D → ℕ → Option String
  | synthVolume => SynthPlugin.paramValueToText SynthPlugin.kParamVolume
  | sidechainVolume => SidechainSynthPlugin.paramValueToText SidechainSynthPlugin.kParamVolume
  | sidechainAmount =>
    SidechainSynthPlugin.paramValueToText SidechainSynthPlugin.kParamSidechainAmount
  | genLevel => MultiOutGenPlugin.paramValueToText MultiOutGenPlugin.kParamLevel
  | fxAuxLevel => MultiOutFxPlugin.paramValueToText MultiOutFxPlugin.kParamAuxLevel

def paramTextToValue : PercentParam → String → Option D
  | synthVolume => SynthPlugin.paramTextToValue SynthPlugin.kParamVolume
  | sidechainVolume => SidechainSynthPlugin.paramTextToValue SidechainSynthPlugin.kParamVolume
  | sidechainAmount =>
    SidechainSynthPlugin.paramTextToValue SidechainSynthPlugin.kParamSidechainAmount
  | genLevel => MultiOutGenPlugin.paramTextToValue MultiOutGenPlugin.kParamLevel
  | fxAuxLevel => MultiOutFxPlugin.paramTextToValue MultiOutFxPlugin.kParamAuxLevel

/-- Every flavor knows its own ids. -/
theorem paramValueToText_eq (param : PercentParam) (v : D) (capacity : ℕ) :
    param.paramValueToText v capacity = some (percentText v capacity) := by
  cases param <;> rfl

theorem paramTextToValue_eq (param : PercentParam) (text : String) :
    (param.paramTextToValue text : Option D) = percentValue text := by
  cases param <;> rfl

/-- The text of `v` is read as a value in [0, 1], and that one has the same text. -/
def RoundTrips (param : PercentParam) (v : ExactFloat) (capacity : ℕ) : Prop :=
  ∃ (text : String) (w : ExactFloat), param.paramValueToText v capacity = some text ∧
    param.paramTextToValue text = some w ∧ 0 ≤ w ∧ w ≤ 1 ∧
      param.paramValueToText w capacity = some text

/-- `n` percent is `n` percent again, unless `n` is 1. -/
theorem roundTrips_iff (param : PercentParam) {v : ExactFloat} (h0 : 0 ≤ v) {n capacity : ℕ}
    (hn : roundHalfEven (v * 100) = n) (hsmall : n ≤ 100) (hroom : 6 ≤ capacity) :
    param.RoundTrips v capacity ↔ n ≠ 1 := by
  have htext := percentText_eq h0 hn hsmall hroom
  have hn100 : (n : ℚ) ≤ 100 := by exact_mod_cast hsmall
  have hn0 : (0 : ℚ) ≤ n := Nat.cast_nonneg n
  unfold RoundTrips
  simp only [paramValueToText_eq, paramTextToValue_eq, htext]
  constructor
  · rintro ⟨_, w, ⟨⟩, hw, -, -, hagain⟩ rfl
    rw [percentValue_eq, if_neg (lt_irrefl 1)] at hw
    cases hw
    have hround : roundHalfEven (((1 : ℕ) : ℚ) * 100) = (100 : ℕ) := by
      rw [Nat.cast_one, one_mul]
      exact roundHalfEven_intCast 100
    rw [percentText_eq (by norm_num) hround (by decide) hroom] at hagain
    exact absurd hagain (by decide)
  · intro hne
    by_cases hlarge : 1 < n
    · have hw0 : (0 : ℚ) ≤ n / 100 := by positivity
      have hw1 : (n : ℚ) / 100 ≤ 1 := by linarith
      have hround : roundHalfEven ((n : ℚ) / 100 * 100) = n := by
        rw [div_mul_cancel₀ _ (by norm_num)]
        exact roundHalfEven_intCast n
      refine ⟨_, (n : ℚ) / 100, rfl, ?_, hw0, hw1, ?_⟩
      · rw [percentValue_eq, if_pos hlarge]
      · rw [percentText_eq hw0 hround hsmall hroom]
    · have hzero : n = 0 := by omega
      subst hzero
      refine ⟨_, (0 : ℚ), rfl, ?_, le_refl _, zero_le_one, ?_⟩
      · rw [percentValue_eq, if_neg hlarge, Nat.cast_zero]
      · rw [percentText_eq (le_refl 0) ?_ hsmall hroom]
        rw [zero_mul]
        exact roundHalfEven_intCast 0

/-- For each of the parameters, every value of its range and room for the text: the text of the
    value is understood as a value with the same text, exactly if it is not "1 %". -/
theorem percent_roundTrip_iff (param : PercentParam) {v : ExactFloat} (h0 : 0 ≤ v) (h1 : v ≤ 1)
    {capacity : ℕ} (hroom : 6 ≤ capacity) :
    param.RoundTrips v capacity ↔ ¬ (1 / 200 < v ∧ v < 3 / 200) := by
  obtain ⟨n, hn⟩ := Int.eq_ofNat_of_zero_le (roundHalfEven_nonneg (x := v * 100) (by linarith))
  have hle : roundHalfEven (v * 100) ≤ (100 : ℤ) := roundHalfEven_le (by push_cast; linarith)
  have hone : n = 1 ↔ 1 / 200 < v ∧ v < 3 / 200 := by
    have hiff := roundHalfEven_eq_one_iff (v * 100)
    rw [hn] at hiff
    rw [← Nat.cast_inj (R := ℤ), Nat.cast_one, hiff]
    exact ⟨fun h => ⟨by linarith [h.1], by linarith [h.2]⟩,
      fun h => ⟨by linarith [h.1], by linarith [h.2]⟩⟩
  rw [param.roundTrips_iff h0 hn (by omega) hroom, ← hone]

/-- Half the volume is "50 %" and back. -/
theorem percent_roundTrip_iff_half :
    synthVolume.RoundTrips (1 / 2) 256 ↔ ¬ ((1 / 200 : ℚ) < 1 / 2 ∧ (1 / 2 : ℚ) < 3 / 200) :=
  percent_roundTrip_iff synthVolume (by norm_num) (by norm_num) (by decide)

/-- A hundredth of the volume is "1 %", and that is read as the whole volume. -/
theorem one_percent_is_all : ¬ synthVolume.RoundTrips (1 / 100) 256 := by
  have hround : roundHalfEven ((1 / 100 : ℚ) * 100) = (1 : ℕ) :=
    (roundHalfEven_eq_one_iff _).mpr (by norm_num)
  exact fun h => (roundTrips_iff synthVolume (by norm_num) hround (by decide) (by decide)).mp h rfl

end PercentParam

end Cvp
