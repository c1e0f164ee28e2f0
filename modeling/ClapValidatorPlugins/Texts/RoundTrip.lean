/-
  Every parameter through its text and back, over exact arithmetic. Numbers come back rounded to
  the digits that are shown, whole numbers cut or rounded, names as their number. What comes back
  lies in the declared range and comes back as itself. The one exception are the percent
  parameters at "1 %" (`text_roundTrip_iff`).
-/
import ClapValidatorPlugins.State.Ranges
import ClapValidatorPlugins.Texts.Decimals

namespace Cvp

/-! ## What a text says of a value -/

/-- `w` has `digits` digits behind the point, lies in the range and is near `v`; if `v` is not cut
    but rounded to the digits, it is at most half of the last one away. -/
structure ShownAs (info : ParamInfo ExactFloat) (digits : ℕ) (cut : Bool) (v w : ExactFloat) :
    Prop where
  contains : info.Contains w
  exact : ∃ n : ℤ, w * 10 ^ digits = n
  same : (∃ n : ℤ, v * 10 ^ digits = n) → w = v
  near : |w - v| * 10 ^ digits < 1
  half : cut = false → |w - v| * 10 ^ digits ≤ 1 / 2

section Kinds

variable {info : ParamInfo ExactFloat} {cut : Bool} {v : ExactFloat} {p : ℕ} {a b : ℤ}

theorem contains_iff : info.Contains v ↔ info.minValue ≤ v ∧ v ≤ info.maxValue :=
  ⟨fun h => ⟨of_decide_eq_true h.min_le, of_decide_eq_true h.le_max⟩,
    fun h => ⟨decide_eq_true h.1, decide_eq_true h.2⟩⟩

/-- At most half a digit away is near. -/
theorem ShownAs.of_half {w : ExactFloat} (hcontains : info.Contains w)
    (hexact : ∃ n : ℤ, w * 10 ^ p = n) (hsame : (∃ n : ℤ, v * 10 ^ p = n) → w = v)
    (hhalf : |w - v| * 10 ^ p ≤ 1 / 2) : ShownAs info p cut v w where
  contains := hcontains
  exact := hexact
  same := hsame
  near := lt_of_le_of_lt hhalf (by norm_num)
  half := fun _ => hhalf

/-- The range ends on digits that are shown, and holds numbers up to 9999. -/
structure EndsOn (info : ParamInfo ExactFloat) (digits : ℕ) : Prop where
  min_exact : (info.minValue * 10 ^ digits : ℚ).den = 1
  max_exact : (info.maxValue * 10 ^ digits : ℚ).den = 1
  le_min : (-9999 : ℚ) ≤ info.minValue
  max_le : info.maxValue ≤ (9999 : ℚ)

theorem EndsOn.small (h : EndsOn info p) (hv : info.Contains v) : |v| ≤ 9999 := by
  obtain ⟨hmin, hmax⟩ := contains_iff.mp hv
  exact abs_le.mpr ⟨h.le_min.trans hmin, hmax.trans h.max_le⟩

/-- A number with digits. -/
theorem shownAs_shown (h : EndsOn info p) (hv : info.Contains v) :
    ShownAs info p cut v (shown p v) := by
  have hpow : (0 : ℚ) < 10 ^ p := by positivity
  have hlo := (Rat.coe_int_num_of_den_eq_one h.min_exact).symm
  have hhi := (Rat.coe_int_num_of_den_eq_one h.max_exact).symm
  obtain ⟨hmin, hmax⟩ := contains_iff.mp hv
  have hlow : info.minValue * 10 ^ p ≤ shown p v * 10 ^ p := by
    rw [hlo]
    exact le_shown p v (hlo ▸ mul_le_mul_of_nonneg_right hmin hpow.le)
  have hhigh : shown p v * 10 ^ p ≤ info.maxValue * 10 ^ p := by
    rw [hhi]
    exact shown_le p v (hhi ▸ mul_le_mul_of_nonneg_right hmax hpow.le)
  refine .of_half (contains_iff.mpr ⟨?_, ?_⟩) (shown_exact p v) ?_ (abs_shown_sub_le p v)
  · exact le_of_mul_le_mul_right hlow hpow
  · exact le_of_mul_le_mul_right hhigh hpow
  · exact fun ⟨n, hn⟩ => shown_of_exact p v hn

theorem EndsOn.integers (h : EndsOn info 0) :
    (∃ a : ℤ, info.minValue = a) ∧ ∃ b : ℤ, info.maxValue = b := by
  obtain ⟨hlo, hhi, -, -⟩ := h
  rw [pow_zero, mul_one] at hlo hhi
  exact ⟨⟨_, (Rat.coe_int_num_of_den_eq_one hlo).symm⟩,
    _, (Rat.coe_int_num_of_den_eq_one hhi).symm⟩

/-- A value that is cut to a whole number. -/
theorem shownAs_toInt (h : EndsOn info 0) (hv : info.Contains v) :
    ShownAs info 0 true v (DoubleOps.toInt v : ℤ) := by
  obtain ⟨⟨a, hlo⟩, b, hhi⟩ := h.integers
  obtain ⟨hmin, hmax⟩ := contains_iff.mp hv
  rw [hlo] at hmin
  rw [hhi] at hmax
  have hcut : (DoubleOps.toInt v : ℤ) = if 0 ≤ v then ⌊v⌋ else ⌈v⌉ := rfl
  have hfloor := Int.floor_le v
  have hfloor' := Int.lt_floor_add_one v
  have hceil := Int.le_ceil v
  have hceil' := Int.ceil_lt_add_one v
  have hlow : a ≤ DoubleOps.toInt v := by
    rw [hcut]
    split
    · exact Int.le_floor.mpr hmin
    · exact Int.cast_le.mp (hmin.trans hceil)
  have hhigh : DoubleOps.toInt v ≤ b := by
    rw [hcut]
    split
    · exact Int.cast_le.mp (hfloor.trans hmax)
    · exact Int.ceil_le.mpr hmax
  have hnear : |((DoubleOps.toInt v : ℤ) : ℚ) - v| < 1 := by
    rw [hcut, abs_lt]
    split <;> constructor <;> linarith
  refine ⟨contains_iff.mpr ?_, ⟨_, by rw [pow_zero, mul_one]⟩, ?_, ?_, nofun⟩
  · rw [hlo, hhi]
    exact ⟨Int.cast_le.mpr hlow, Int.cast_le.mpr hhigh⟩
  · rintro ⟨n, hn⟩
    rw [pow_zero, mul_one] at hn
    rw [hcut, hn, Int.floor_intCast, Int.ceil_intCast, ite_self]
  · rw [pow_zero, mul_one]
    exact hnear

/-- A choice from a list: the nearest index. -/
theorem shownAs_nearest (h : EndsOn info 0) (hlo : info.minValue = (0 : ℚ))
    (hv : info.Contains v) : ShownAs info 0 cut v (⌊v + 1 / 2⌋ : ℤ) := by
  obtain ⟨-, b, hhi⟩ := h.integers
  obtain ⟨hmin, hmax⟩ := contains_iff.mp hv
  rw [hlo] at hmin
  rw [hhi] at hmax
  have hfloor := Int.floor_le (v + 1 / 2)
  have hfloor' := Int.lt_floor_add_one (v + 1 / 2)
  have hlow : 0 ≤ ⌊v + 1 / 2⌋ := Int.floor_nonneg.mpr (by linarith)
  have hhigh : ⌊v + 1 / 2⌋ ≤ b := by
    have hlt : ⌊v + 1 / 2⌋ < b + 1 := Int.floor_lt.mpr (by push_cast; linarith)
    omega
  refine .of_half (contains_iff.mpr ?_) ⟨_, by rw [pow_zero, mul_one]⟩ ?_ ?_
  · rw [hlo, hhi]
    exact ⟨Int.cast_nonneg hlow, Int.cast_le.mpr hhigh⟩
  · rintro ⟨n, hn⟩
    rw [pow_zero, mul_one] at hn
    have hhalf : ⌊(n : ℚ) + 1 / 2⌋ = n := by
      rw [Int.floor_intCast_add]
      norm_num
    rw [hn, hhalf]
  · rw [pow_zero, mul_one, abs_le]
    constructor <;> linarith

end Kinds

/-! ## Reading the texts -/

section Reading

variable {v : ExactFloat} {capacity : ℕ}

/-- The unit does not go on with the number. -/
def isUnit (unit : String) : Bool := unit.toList.head?.all fun c => !c.isDigit && c != '.'

theorem endsDigits_of_isUnit {unit : String} (h : isUnit unit = true) :
    EndsDigits unit.toList ∧ unit.toList.head? ≠ some '.' := by
  unfold isUnit at h
  constructor
  · intro c hc
    rw [hc] at h
    simpa using (Bool.and_eq_true_iff.mp h).1
  · intro hpoint
    rw [hpoint] at h
    cases h

/-- A number up to 9999 with a unit behind it. -/
theorem numberValue_snprintf (p : ℕ) (x : ℚ) (hx : |x| ≤ 9999) (unit : String)
    (hunit : isUnit unit = true) (hroom : 7 + p + unit.toList.length < capacity) :
    (numberValue (snprintf capacity (ratFormatFixed p x ++ unit)) : Option ExactFloat) =
        some (shown p x) ∧
      (numberValue (snprintf capacity (withPlus (ratFormatFixed p x) ++ unit)) :
        Option ExactFloat) = some (shown p x) := by
  have hlength := length_formatFixed p x hx
  have hplus : (withPlus (ratFormatFixed p x)).toList.length ≤ 7 + p := by
    unfold withPlus
    split
    · omega
    · rw [String.toList_append, List.length_append]
      show 1 + _ ≤ _
      omega
  obtain ⟨hends, hpoint⟩ := endsDigits_of_isUnit hunit
  obtain ⟨hread, hreadPlus⟩ := numberValue_formatFixed p x hends hpoint
  constructor
  · rw [snprintf_of_short (by rw [String.toList_append, List.length_append]; omega)]
    exact hread
  · rw [snprintf_of_short (by rw [String.toList_append, List.length_append]; omega)]
    exact hreadPlus

/-- `%d` is read as the number, with and without a sign. -/
theorem numberValue_int (n : ℤ) (hn : |(n : ℚ)| ≤ 9999) (unit : String)
    (hunit : isUnit unit = true) (hroom : 7 + unit.toList.length < capacity) :
    (numberValue (snprintf capacity (toString n ++ unit)) : Option ExactFloat) = some (n : ℚ) ∧
      (numberValue (snprintf capacity (withPlus (toString n) ++ unit)) : Option ExactFloat) =
        some (n : ℚ) := by
  have hwhole : shown 0 (n : ℚ) = n := shown_of_exact 0 _ (by rw [pow_zero, mul_one])
  have hread := numberValue_snprintf 0 (n : ℚ) hn unit hunit hroom
  rw [hwhole] at hread
  rw [toString_eq_formatFixed]
  exact hread

/-- Each name is told from the ones before it, and is short. -/
structure Names (fits : String → String → Bool) (names : List String) : Prop where
  ne_nil : names ≠ []
  first : ∀ i < names.length, names.findIdx? (fits (names.getD i "")) = some i
  short : ∀ i < names.length, (names.getD i "").toList.length < 16

theorem Names.choiceValue_getD {fits : String → String → Bool} {names : List String}
    (h : Names fits names) {i : ℕ} (hi : i < names.length) (hroom : 16 ≤ capacity) :
    (choiceValue (fits (snprintf capacity (names.getD i ""))) names : Option ExactFloat) =
      some (i : ℚ) := by
  rw [snprintf_of_short (lt_of_lt_of_le (h.short i hi) hroom), choiceValue, h.first i hi]
  rfl

theorem names_curve : Names (· == ·) ParamsZooPlugin.kCurveNames where
  ne_nil := by decide
  first := by decide
  short := by decide

theorem names_bypass : Names (· == ·) ["Active", "Bypassed"] where
  ne_nil := by decide
  first := by decide
  short := by decide

theorem names_color : Names beginsWith PresetPlugin.kColorNames where
  ne_nil := by decide
  first := by decide
  short := by decide

theorem names_solo : Names (· == ·) SurroundPlugin.kSoloNames where
  ne_nil := by decide
  first := by decide
  short := by decide

theorem names_mode : Names beginsWith GuiPlugin.kModeNames where
  ne_nil := by decide
  first := by decide
  short := by decide

/-- Mute has its names the other way around in the code, but "On" does not begin "Off". -/
theorem names_mute : Names beginsWith ["Off", "On"] where
  ne_nil := by decide
  first := by decide
  short := by decide

/-- An index that is clamped to the list needs no clamping inside the range. -/
theorem cast_choiceIndex {last : ℕ} (h0 : 0 ≤ v) (hlast : v ≤ last) :
    ((choiceIndex v last : ℕ) : ℤ) = ⌊v + 1 / 2⌋ := by
  have hlow : ¬ DoubleOps.lt v (DoubleOps.lit 0) = true := by
    simpa [DoubleOps.lt, DoubleOps.lit] using h0
  have hhigh : ¬ DoubleOps.lt (DoubleOps.lit last) v = true := by
    simpa [DoubleOps.lt, DoubleOps.lit] using hlast
  have hcut : (DoubleOps.toInt (v + DoubleOps.lit (1 / 2)) : ℤ) = ⌊v + 1 / 2⌋ :=
    if_pos (by show (0 : ℚ) ≤ v + 1 / 2; linarith)
  rw [choiceIndex, if_neg hlow, if_neg hhigh, hcut]
  exact Int.toNat_of_nonneg (Int.floor_nonneg.mpr (by linarith))

theorem cast_soloIndexFromValue (h0 : 0 ≤ v) (hlast : v ≤ 8) :
    ((SurroundPlugin.soloIndexFromValue v : ℕ) : ℤ) = ⌊v + 1 / 2⌋ := by
  have hcut : (DoubleOps.toInt (v + DoubleOps.lit (1 / 2)) : ℤ) = ⌊v + 1 / 2⌋ :=
    if_pos (by show (0 : ℚ) ≤ v + 1 / 2; linarith)
  have hnonneg : 0 ≤ ⌊v + 1 / 2⌋ := Int.floor_nonneg.mpr (by linarith)
  have hlt : ⌊v + 1 / 2⌋ < 9 := Int.floor_lt.mpr (by push_cast; linarith)
  have hlength : ((SurroundPlugin.kSoloChoices.length : ℕ) : ℤ) = 9 := rfl
  unfold SurroundPlugin.soloIndexFromValue
  dsimp only
  rw [hcut, if_neg (by omega), hlength, if_neg (by omega)]
  exact Int.toNat_of_nonneg hnonneg

end Reading

/-! ## The flavors -/

namespace Flavor

section Texts

variable {D : Type} [DoubleOps D]

/-- HostCheck has no parameters. -/
def paramValueToText : Flavor → ClapId → D → ℕ → Option String
  | synth => SynthPlugin.paramValueToText
  | sidechainSynth => SidechainSynthPlugin.paramValueToText
  | effect => EffectPlugin.paramValueToText
  | multiOutGen => MultiOutGenPlugin.paramValueToText
  | multiOutFx => MultiOutFxPlugin.paramValueToText
  | audioPortsZero => AudioPortsZeroPlugin.paramValueToText
  | slow => SlowPlugin.paramValueToText
  | hostCheck => fun _ _ _ => none
  | noteFx => NoteFxPlugin.paramValueToText
  | paramsZoo => ParamsZooPlugin.paramValueToText
  | preset => PresetPlugin.paramValueToText
  | surround => SurroundPlugin.paramValueToText
  | gui => GuiPlugin.paramValueToText

def paramTextToValue : Flavor → ClapId → String → Option D
  | synth => SynthPlugin.paramTextToValue
  | sidechainSynth => SidechainSynthPlugin.paramTextToValue
  | effect => EffectPlugin.paramTextToValue
  | multiOutGen => MultiOutGenPlugin.paramTextToValue
  | multiOutFx => MultiOutFxPlugin.paramTextToValue
  | audioPortsZero => AudioPortsZeroPlugin.paramTextToValue
  | slow => SlowPlugin.paramTextToValue
  | hostCheck => fun _ _ => none
  | noteFx => NoteFxPlugin.paramTextToValue
  | paramsZoo => ParamsZooPlugin.paramTextToValue
  | preset => PresetPlugin.paramTextToValue
  | surround => SurroundPlugin.paramTextToValue
  | gui => GuiPlugin.paramTextToValue

/-- The text of `v`, in `capacity` bytes, is understood as `w`. -/
def ReadsAs (flavor : Flavor) (id : ClapId) (capacity : ℕ) (v w : D) : Prop :=
  ∃ text, flavor.paramValueToText id v capacity = some text ∧
    flavor.paramTextToValue id text = some w

end Texts

/-- The digits behind the point that are shown; of a fraction, those of its percent. -/
def shownDigits : Flavor → ClapId → ℕ
  | synth | sidechainSynth | multiOutGen | multiOutFx | audioPortsZero => fun _ => 2
  | effect => fun id =>
    if id = EffectPlugin.kParamGain then 1 else if id = EffectPlugin.kParamTail then 2 else 0
  | slow => fun _ => 1
  | hostCheck | noteFx => fun _ => 0
  | paramsZoo => fun id =>
    if id = ParamsZooPlugin.kParamGain then 1
    else if id = ParamsZooPlugin.kParamDrive then 1
    else if id = ParamsZooPlugin.kParamPeak then 3
    else if id = ParamsZooPlugin.kParamDcOffset then 3
    else if id = ParamsZooPlugin.kParamSecret then 2
    else 0
  | preset => fun id => if id = PresetPlugin.kParamGain then 1 else 0
  | surround => fun id => if id = SurroundPlugin.kParamGain then 1 else 0
  | gui => fun id => if id = GuiPlugin.kParamGain then 1 else 0

/-- The parameters whose texts show the value cut to a whole number; all others round. -/
def cuts : Flavor → ClapId → Bool
  | effect => fun id => id = EffectPlugin.kParamLatency
  | noteFx => fun id => id = NoteFxPlugin.kParamTranspose
  | paramsZoo => fun id => id = ParamsZooPlugin.kParamCurve
  | _ => fun _ => false

/-- The flavors whose parameters are fractions, shown in percent. -/
def showsPercent : Flavor → Bool
  | synth | sidechainSynth | multiOutGen | multiOutFx => true
  | _ => false

/-- Every declared range ends on digits that are shown. -/
theorem endsOn (flavor : Flavor) : ∀ info ∈ (flavor.paramInfos : List (ParamInfo ExactFloat)),
    EndsOn info (flavor.shownDigits info.id) := by
  have hbounds : ∀ info ∈ (flavor.paramInfos : List (ParamInfo ExactFloat)),
      ((info.minValue * 10 ^ flavor.shownDigits info.id : ℚ).den = 1 ∧
        (info.maxValue * 10 ^ flavor.shownDigits info.id : ℚ).den = 1) ∧
      (-9999 : ℚ) ≤ info.minValue ∧ info.maxValue ≤ (9999 : ℚ) := by
    cases flavor <;> decide +kernel
  intro info hinfo
  obtain ⟨⟨hmin, hmax⟩, hle, hge⟩ := hbounds info hinfo
  exact ⟨hmin, hmax, hle, hge⟩

/-- The text of the value is understood, as a value that is near. -/
def Shows (flavor : Flavor) (info : ParamInfo ExactFloat) (capacity : ℕ) (v : ExactFloat) : Prop :=
  ∃ w, flavor.ReadsAs info.id capacity v w ∧
    ShownAs info (flavor.shownDigits info.id) (flavor.cuts info.id) v w

section Kinds

variable {flavor : Flavor} {info : ParamInfo ExactFloat} {capacity : ℕ} {v : ExactFloat}

/-- `%.<p>f` and a unit. -/
theorem shows_fixed {p : ℕ} {unit : String} (hinfo : EndsOn info (flavor.shownDigits info.id))
    (hdigits : flavor.shownDigits info.id = p)
    (htext : flavor.paramValueToText info.id v capacity = some (fixedText p unit v capacity))
    (hvalue : ∀ text, flavor.paramTextToValue info.id text = (numberValue text : Option ExactFloat))
    (hunit : isUnit unit = true) (hlength : p + unit.toList.length ≤ 8) (hroom : 16 ≤ capacity)
    (hv : info.Contains v) : flavor.Shows info capacity v := by
  rw [hdigits] at hinfo
  refine ⟨shown p v, ⟨_, htext, ?_⟩, ?_⟩
  · rw [hvalue]
    exact (numberValue_snprintf p v (hinfo.small hv) unit hunit (by omega)).1
  · rw [hdigits]
    exact shownAs_shown hinfo hv

/-- A name from a list, for the nearest index. -/
theorem shows_name {fits : String → String → Bool} {names : List String} {i : ℕ}
    (hnames : Names fits names) (hinfo : EndsOn info (flavor.shownDigits info.id))
    (hdigits : flavor.shownDigits info.id = 0) (hlo : info.minValue = (0 : ℚ))
    (hhi : info.maxValue = ((names.length - 1 : ℕ) : ℚ)) (hi : (i : ℤ) = ⌊v + 1 / 2⌋)
    (htext : flavor.paramValueToText info.id v capacity =
      some (snprintf capacity (names.getD i "")))
    (hvalue : ∀ text w, (choiceValue (fits text) names : Option ExactFloat) = some w →
      flavor.paramTextToValue info.id text = some w)
    (hroom : 16 ≤ capacity) (hv : info.Contains v) : flavor.Shows info capacity v := by
  rw [hdigits] at hinfo
  have hlast : i < names.length := by
    have hfloor := Int.floor_le (v + 1 / 2)
    have hmax := (contains_iff.mp hv).2
    rw [hhi] at hmax
    rw [← hi, Int.cast_natCast] at hfloor
    have hlt : (i : ℚ) < (names.length - 1 + 1 : ℕ) := by
      push_cast
      linarith
    have hlt' : i < names.length - 1 + 1 := by exact_mod_cast hlt
    have hpos := List.length_pos_of_ne_nil hnames.ne_nil
    omega
  refine ⟨(i : ℚ), ⟨_, htext, hvalue _ _ (hnames.choiceValue_getD hlast hroom)⟩, ?_⟩
  have hcast : (i : ℚ) = (⌊v + 1 / 2⌋ : ℤ) := by exact_mod_cast hi
  rw [hdigits, hcast]
  exact shownAs_nearest hinfo hlo hv

theorem shows_effect (hinfo : info ∈ (EffectPlugin.paramInfos : List (ParamInfo ExactFloat)))
    (hroom : 16 ≤ capacity) (hv : info.Contains v) : effect.Shows info capacity v := by
  have hbounds := effect.endsOn info hinfo
  simp only [EffectPlugin.paramInfos, List.mem_cons, List.not_mem_nil, or_false] at hinfo
  rcases hinfo with rfl | rfl | rfl
  · exact shows_fixed hbounds rfl rfl (fun _ => rfl) rfl (by decide) hroom hv
  · have hcut := shownAs_toInt hbounds hv
    have hroom' : 7 + " smp".toList.length < capacity := lt_of_lt_of_le (by decide) hroom
    have hread := numberValue_int _ (hbounds.small hcut.contains) " smp" rfl hroom'
    exact ⟨_, ⟨_, rfl, hread.1⟩, hcut⟩
  · exact shows_fixed hbounds rfl rfl (fun _ => rfl) rfl (by decide) hroom hv

theorem shows_audioPortsZero
    (hinfo : info ∈ (AudioPortsZeroPlugin.paramInfos : List (ParamInfo ExactFloat)))
    (hroom : 16 ≤ capacity) (hv : info.Contains v) : audioPortsZero.Shows info capacity v := by
  have hbounds := audioPortsZero.endsOn info hinfo
  cases List.mem_singleton.mp hinfo
  exact shows_fixed hbounds rfl rfl (fun _ => rfl) rfl (by decide) hroom hv

theorem shows_slow (hinfo : info ∈ (SlowPlugin.paramInfos : List (ParamInfo ExactFloat)))
    (hroom : 16 ≤ capacity) (hv : info.Contains v) : slow.Shows info capacity v := by
  have hbounds := slow.endsOn info hinfo
  cases List.mem_singleton.mp hinfo
  exact shows_fixed hbounds rfl rfl (fun _ => rfl) rfl (by decide) hroom hv

theorem shows_noteFx (hinfo : info ∈ (NoteFxPlugin.paramInfos : List (ParamInfo ExactFloat)))
    (hroom : 16 ≤ capacity) (hv : info.Contains v) : noteFx.Shows info capacity v := by
  have hbounds := noteFx.endsOn info hinfo
  cases List.mem_singleton.mp hinfo
  have hcut := shownAs_toInt hbounds hv
  have hroom' : 7 + " st".toList.length < capacity := lt_of_lt_of_le (by decide) hroom
  have hread := numberValue_int _ (hbounds.small hcut.contains) " st" rfl hroom'
  exact ⟨_, ⟨_, rfl, hread.2⟩, hcut⟩

theorem shows_preset (hinfo : info ∈ (PresetPlugin.paramInfos : List (ParamInfo ExactFloat)))
    (hroom : 16 ≤ capacity) (hv : info.Contains v) : preset.Shows info capacity v := by
  have hbounds := preset.endsOn info hinfo
  simp only [PresetPlugin.paramInfos, List.mem_cons, List.not_mem_nil, or_false] at hinfo
  rcases hinfo with rfl | rfl
  · exact shows_fixed hbounds rfl rfl (fun _ => rfl) rfl (by decide) hroom hv
  · obtain ⟨hmin, hmax⟩ := contains_iff.mp hv
    exact shows_name names_color hbounds rfl rfl rfl (cast_choiceIndex hmin hmax) rfl
      (fun _ _ h => h) hroom hv

theorem shows_surround (hinfo : info ∈ (SurroundPlugin.paramInfos : List (ParamInfo ExactFloat)))
    (hroom : 16 ≤ capacity) (hv : info.Contains v) : surround.Shows info capacity v := by
  have hbounds := surround.endsOn info hinfo
  simp only [SurroundPlugin.paramInfos, List.mem_cons, List.not_mem_nil, or_false] at hinfo
  rcases hinfo with rfl | rfl
  · exact shows_fixed hbounds rfl rfl (fun _ => rfl) rfl (by decide) hroom hv
  · obtain ⟨hmin, hmax⟩ := contains_iff.mp hv
    exact shows_name names_solo hbounds rfl rfl rfl (cast_soloIndexFromValue hmin hmax) rfl
      (fun _ _ h => h) hroom hv

/-- `value >= 0.5` is the nearer end of [0, 1]. -/
theorem half_iff_floor (h0 : 0 ≤ v) (h1 : v ≤ 1) :
    (((if (1 / 2 : ℚ) ≤ v then 1 else 0 : ℕ)) : ℤ) = ⌊v + 1 / 2⌋ := by
  split
  · exact (Int.floor_eq_iff.mpr ⟨by push_cast; linarith, by push_cast; linarith⟩).symm
  · exact (Int.floor_eq_iff.mpr ⟨by push_cast; linarith, by push_cast; linarith⟩).symm

/-- The two names of a switch. -/
theorem ite_half_eq_getD (v : ExactFloat) (off on : String) :
    (if DoubleOps.le (DoubleOps.lit (1 / 2)) v then on else off) =
      [off, on].getD (if (1 / 2 : ℚ) ≤ v then 1 else 0) "" := by
  have hle : DoubleOps.le (DoubleOps.lit (1 / 2)) v = decide ((1 / 2 : ℚ) ≤ v) := rfl
  rw [hle]
  by_cases h : (1 / 2 : ℚ) ≤ v
  · rw [if_pos h, if_pos (decide_eq_true h)]
    rfl
  · rw [if_neg h, decide_eq_false h, if_neg Bool.false_ne_true]
    rfl

theorem textToValue_mute {text : String} {w : ExactFloat}
    (h : (choiceValue (beginsWith text) ["Off", "On"] : Option ExactFloat) = some w) :
    gui.paramTextToValue GuiPlugin.kParamMute text = some w := by
  have hboth : beginsWith text "On" = true → beginsWith text "Off" = false := by
    intro hon
    rw [Bool.eq_false_iff]
    intro hoff
    have hbegins := List.prefix_of_prefix_length_le (List.isPrefixOf_iff_prefix.mp hon)
      (List.isPrefixOf_iff_prefix.mp hoff) (by decide)
    exact absurd hbegins (by decide)
  have hcode : (gui.paramTextToValue GuiPlugin.kParamMute text : Option ExactFloat) =
      if beginsWith text "On" then some (DoubleOps.lit 1)
      else if beginsWith text "Off" then some (DoubleOps.lit 0) else none := rfl
  rw [hcode]
  unfold choiceValue at h
  cases hon : beginsWith text "On" with
  | true =>
    simp [List.findIdx?_cons, hboth hon, hon] at h
    rw [← h]
    rfl
  | false =>
    cases hoff : beginsWith text "Off" with
    | true =>
      simp [List.findIdx?_cons, hoff] at h
      rw [← h]
      rfl
    | false => simp [List.findIdx?_cons, hon, hoff] at h

theorem shows_gui (hinfo : info ∈ (GuiPlugin.paramInfos : List (ParamInfo ExactFloat)))
    (hroom : 16 ≤ capacity) (hv : info.Contains v) : gui.Shows info capacity v := by
  have hbounds := gui.endsOn info hinfo
  simp only [GuiPlugin.paramInfos, List.mem_cons, List.not_mem_nil, or_false] at hinfo
  rcases hinfo with rfl | rfl | rfl
  · exact shows_fixed hbounds rfl rfl (fun _ => rfl) rfl (by decide) hroom hv
  · obtain ⟨hmin, hmax⟩ := contains_iff.mp hv
    exact shows_name names_mode hbounds rfl rfl rfl (cast_choiceIndex hmin hmax) rfl
      (fun _ _ h => h) hroom hv
  · obtain ⟨hmin, hmax⟩ := contains_iff.mp hv
    exact shows_name names_mute hbounds rfl rfl rfl (half_iff_floor hmin hmax)
      (congrArg (fun name => some (snprintf capacity name)) (ite_half_eq_getD v "Off" "On"))
      (fun _ _ => textToValue_mute) hroom hv

/-- Curve cuts where the other lists round. -/
theorem shows_curve {info : ParamInfo ExactFloat} (hbounds : EndsOn info 0)
    (hid : info.id = ParamsZooPlugin.kParamCurve) (hlo : info.minValue = (0 : ℚ))
    (hhi : info.maxValue = (2 : ℚ)) (hroom : 16 ≤ capacity) (hv : info.Contains v) :
    paramsZoo.Shows info capacity v := by
  have hcut := shownAs_toInt hbounds hv
  obtain ⟨hmin, hmax⟩ := contains_iff.mp hcut.contains
  rw [hlo] at hmin
  rw [hhi] at hmax
  have hlow : 0 ≤ DoubleOps.toInt v := by exact_mod_cast hmin
  have hhigh : DoubleOps.toInt v ≤ 2 := by exact_mod_cast hmax
  obtain ⟨i, hi⟩ := Int.eq_ofNat_of_zero_le hlow
  have hname : max 0 (min (DoubleOps.toInt v) 2) = i := by omega
  have hlast : i < ParamsZooPlugin.kCurveNames.length := by
    show i < 3
    omega
  have hread := names_curve.choiceValue_getD hlast hroom
  have hcast : ((DoubleOps.toInt v : ℤ) : ℚ) = (i : ℚ) := by rw [hi, Int.cast_natCast]
  rw [hcast] at hcut
  unfold Shows
  rw [hid]
  let text := snprintf capacity (ParamsZooPlugin.kCurveNames.getD i "")
  refine ⟨(i : ℚ), ⟨text, ?_, ?_⟩, hcut⟩
  · show some (snprintf capacity
      (ParamsZooPlugin.kCurveNames.getD (max 0 (min (DoubleOps.toInt v) 2)).toNat "")) = _
    rw [hname, Int.toNat_natCast]
  · exact congrArg (fun named : Option ExactFloat => named.or (numberValue text)) hread

theorem shows_paramsZoo (hinfo : info ∈ (ParamsZooPlugin.paramInfos : List (ParamInfo ExactFloat)))
    (hroom : 16 ≤ capacity) (hv : info.Contains v) : paramsZoo.Shows info capacity v := by
  have hbounds := paramsZoo.endsOn info hinfo
  simp only [ParamsZooPlugin.paramInfos, List.mem_cons, List.not_mem_nil, or_false] at hinfo
  rcases hinfo with rfl | rfl | rfl | rfl | rfl | rfl | rfl | rfl
  · exact shows_fixed hbounds rfl rfl (fun _ => rfl) rfl (by decide) hroom hv
  · exact shows_fixed hbounds rfl rfl (fun _ => rfl) rfl (by decide) hroom hv
  · exact shows_fixed hbounds rfl rfl (fun _ => rfl) rfl (by decide) hroom hv
  · obtain ⟨hmin, hmax⟩ := contains_iff.mp hv
    exact shows_name names_bypass hbounds rfl rfl rfl (half_iff_floor hmin hmax)
      (congrArg (fun name => some (snprintf capacity name))
        (ite_half_eq_getD v "Active" "Bypassed"))
      (fun text _ h => congrArg (·.or (numberValue text)) h) hroom hv
  · exact shows_fixed hbounds rfl rfl (fun _ => rfl) rfl (by decide) hroom hv
  · have hroom' : 7 + 3 + "".toList.length < capacity := lt_of_lt_of_le (by decide) hroom
    have hread := numberValue_snprintf 3 v (hbounds.small hv) "" rfl hroom'
    rw [String.append_empty, String.append_empty] at hread
    exact ⟨_, ⟨_, rfl, hread.2⟩, shownAs_shown hbounds hv⟩
  · exact shows_curve hbounds rfl rfl rfl hroom hv
  · exact shows_fixed hbounds rfl rfl (fun _ => rfl) rfl (by decide) hroom hv

/-- `n` percent, unless `n` is 1, are read as `n` hundredths. -/
theorem readsAs_percent {n : ℕ} (h0 : 0 ≤ v)
    (htext : ∀ x : ExactFloat,
      flavor.paramValueToText info.id x capacity = some (percentText x capacity))
    (hvalue : ∀ text, flavor.paramTextToValue info.id text =
      (percentValue text : Option ExactFloat))
    (hn : roundHalfEven (v * 100) = n) (hsmall : n ≤ 100) (hroom : 16 ≤ capacity) :
    flavor.ReadsAs info.id capacity v (if n = 1 then (1 : ℚ) else (n : ℚ) / 100) := by
  refine ⟨_, htext v, ?_⟩
  rw [hvalue, percentText_eq h0 hn hsmall (by omega), percentValue_eq]
  refine congrArg some ?_
  rcases Nat.lt_trichotomy n 1 with hzero | rfl | hlarge
  · have hn0 : n = 0 := by omega
    subst hn0
    norm_num
  · norm_num
  · rw [if_pos hlarge, if_neg (by omega)]

theorem one_percent_iff {n : ℕ} (hn : roundHalfEven (v * 100) = n) :
    n = 1 ↔ 1 / 200 < v ∧ v < 3 / 200 := by
  have hiff := roundHalfEven_eq_one_iff (v * 100)
  rw [hn] at hiff
  rw [← Nat.cast_inj (R := ℤ), Nat.cast_one, hiff]
  exact ⟨fun h => ⟨by linarith [h.1], by linarith [h.2]⟩,
    fun h => ⟨by linarith [h.1], by linarith [h.2]⟩⟩

theorem shown_two_eq {n : ℕ} (h0 : 0 ≤ v) (hn : roundHalfEven (v * 100) = n) :
    shown 2 v = (n : ℚ) / 100 := by
  have hscale : |v| * 10 ^ 2 = v * 100 := by
    rw [abs_of_nonneg h0]
    norm_num
  rw [shown, scaledDigits, hscale, hn, if_neg (not_lt.mpr h0), one_mul, Int.toNat_natCast]
  norm_num

/-- What the percent parameters have in common. -/
theorem percent_param (hflavor : flavor.showsPercent = true)
    (hinfo : info ∈ (flavor.paramInfos : List (ParamInfo ExactFloat))) :
    (info.minValue = (0 : ℚ) ∧ info.maxValue = (1 : ℚ)) ∧
      (∀ (x : ExactFloat) (room : ℕ),
        flavor.paramValueToText info.id x room = some (percentText x room)) ∧
      ∀ text, flavor.paramTextToValue info.id text = (percentValue text : Option ExactFloat) := by
  cases flavor with
  | synth =>
    cases List.mem_singleton.mp hinfo
    exact ⟨⟨rfl, rfl⟩, fun _ _ => rfl, fun _ => rfl⟩
  | sidechainSynth =>
    simp only [paramInfos, SidechainSynthPlugin.paramInfos, List.mem_cons, List.not_mem_nil,
      or_false] at hinfo
    rcases hinfo with rfl | rfl
    · exact ⟨⟨rfl, rfl⟩, fun _ _ => rfl, fun _ => rfl⟩
    · exact ⟨⟨rfl, rfl⟩, fun _ _ => rfl, fun _ => rfl⟩
  | multiOutGen =>
    cases List.mem_singleton.mp hinfo
    exact ⟨⟨rfl, rfl⟩, fun _ _ => rfl, fun _ => rfl⟩
  | multiOutFx =>
    cases List.mem_singleton.mp hinfo
    exact ⟨⟨rfl, rfl⟩, fun _ _ => rfl, fun _ => rfl⟩
  | _ => cases hflavor

theorem shownDigits_percent (hflavor : flavor.showsPercent = true) (id : ClapId) :
    flavor.shownDigits id = 2 := by
  cases flavor with
  | synth => rfl
  | sidechainSynth => rfl
  | multiOutGen => rfl
  | multiOutFx => rfl
  | _ => cases hflavor

/-- There and back, and from there on the same. -/
def RoundTrips (flavor : Flavor) (info : ParamInfo ExactFloat) (capacity : ℕ)
    (v : ExactFloat) : Prop :=
  ∃ w, flavor.ReadsAs info.id capacity v w ∧
    ShownAs info (flavor.shownDigits info.id) (flavor.cuts info.id) v w ∧
    flavor.ReadsAs info.id capacity w w

theorem readsAs_unique {w w' : ExactFloat} (h : flavor.ReadsAs info.id capacity v w)
    (h' : flavor.ReadsAs info.id capacity v w') : w = w' := by
  obtain ⟨text, htext, hw⟩ := h
  obtain ⟨text', htext', hw'⟩ := h'
  cases htext.symm.trans htext'
  exact Option.some.inj (hw.symm.trans hw')

theorem roundTrips_percent_iff (hflavor : flavor.showsPercent = true)
    (hinfo : info ∈ (flavor.paramInfos : List (ParamInfo ExactFloat))) (hroom : 16 ≤ capacity)
    (hv : info.Contains v) :
    flavor.RoundTrips info capacity v ↔ ¬ (1 / 200 < v ∧ v < 3 / 200) := by
  obtain ⟨⟨hlo, hhi⟩, htext, hvalue⟩ := percent_param hflavor hinfo
  have hbounds := flavor.endsOn info hinfo
  have hdigits := shownDigits_percent hflavor info.id
  obtain ⟨h0, h1⟩ := contains_iff.mp hv
  rw [hlo] at h0
  rw [hhi] at h1
  obtain ⟨n, hn⟩ := Int.eq_ofNat_of_zero_le (roundHalfEven_nonneg (x := v * 100) (by linarith))
  have hle : roundHalfEven (v * 100) ≤ (100 : ℤ) := roundHalfEven_le (by push_cast; linarith)
  have hsmall : n ≤ 100 := by omega
  have hread := readsAs_percent h0 (htext · capacity) hvalue hn hsmall hroom
  have hone := one_percent_iff hn
  rw [hdigits] at hbounds
  have hshown : ShownAs info 2 (flavor.cuts info.id) v ((n : ℚ) / 100) := by
    rw [← shown_two_eq h0 hn]
    exact shownAs_shown hbounds hv
  constructor
  · rintro ⟨w, hw, hnear, -⟩ hgap
    rw [if_pos (hone.mpr hgap)] at hread
    rw [hdigits] at hnear
    cases readsAs_unique hread hw
    have hscaled : |(1 : ℚ) - v| * 10 ^ 2 < 1 := hnear.near
    have hone_le : (1 : ℚ) - v ≤ |1 - v| := le_abs_self _
    linarith [hgap.2]
  · intro hgap
    have hne : n ≠ 1 := fun h => hgap (hone.mp h)
    rw [if_neg hne] at hread
    have hround : roundHalfEven ((n : ℚ) / 100 * 100) = n := by
      rw [div_mul_cancel₀ _ (by norm_num)]
      exact roundHalfEven_intCast n
    have hagain := readsAs_percent (v := (n : ℚ) / 100) (by positivity) (htext · capacity)
      hvalue hround hsmall hroom
    rw [if_neg hne] at hagain
    refine ⟨_, hread, ?_, hagain⟩
    rw [hdigits]
    exact hshown

/-- All other parameters. -/
theorem shows_number (hflavor : flavor.showsPercent = false)
    (hinfo : info ∈ (flavor.paramInfos : List (ParamInfo ExactFloat))) (hroom : 16 ≤ capacity)
    (hv : info.Contains v) : flavor.Shows info capacity v := by
  cases flavor with
  | effect => exact shows_effect hinfo hroom hv
  | audioPortsZero => exact shows_audioPortsZero hinfo hroom hv
  | slow => exact shows_slow hinfo hroom hv
  | hostCheck => cases hinfo
  | noteFx => exact shows_noteFx hinfo hroom hv
  | paramsZoo => exact shows_paramsZoo hinfo hroom hv
  | preset => exact shows_preset hinfo hroom hv
  | surround => exact shows_surround hinfo hroom hv
  | gui => exact shows_gui hinfo hroom hv
  | _ => cases hflavor

end Kinds

/-- For every parameter of every flavor and every value of its range: what is shown is understood as
    a value of the range, near the first and shown and understood as itself, unless it is "1 %". -/
theorem text_roundTrip_iff (flavor : Flavor) {info : ParamInfo ExactFloat}
    (hinfo : info ∈ flavor.paramInfos) {v : ExactFloat} (hv : info.Contains v) {capacity : ℕ}
    (hroom : 16 ≤ capacity) :
    flavor.RoundTrips info capacity v ↔
      (flavor.showsPercent = true → ¬ (1 / 200 < v ∧ v < 3 / 200)) := by
  cases hflavor : flavor.showsPercent with
  | true =>
    rw [roundTrips_percent_iff hflavor hinfo hroom hv]
    exact ⟨fun h _ => h, fun h => h rfl⟩
  | false =>
    refine iff_of_true ?_ (fun h => absurd h (by decide))
    obtain ⟨w, hw, hshown⟩ := shows_number hflavor hinfo hroom hv
    -- what is read has the digits that are shown, so it is read as itself
    obtain ⟨u, hu, hagain⟩ := shows_number hflavor hinfo hroom hshown.contains
    rw [hagain.same hshown.exact] at hu
    exact ⟨w, hw, hshown, hu⟩

/-- A third of a second of Slowness is "0.3 s", and stays three tenths. -/
theorem text_roundTrip_iff_third :
    slow.RoundTrips (SlowPlugin.paramInfos.head (by decide)) 64 (1 / 3) ↔
      (slow.showsPercent = true → ¬ ((1 / 200 : ℚ) < 1 / 3 ∧ (1 / 3 : ℚ) < 3 / 200)) :=
  slow.text_roundTrip_iff (List.head_mem _) ⟨by decide +kernel, by decide +kernel⟩ (by decide)

end Flavor

end Cvp
