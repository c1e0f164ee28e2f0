/-
  The ranges that the parameters declare. Every default lies in its range, the meter of ParamsZoo
  stays in its own, and events and edits are as good as the values they carry. The loads of states
  and presets do not look at the range: the values stay within it exactly if every load brings such
  values (`paramsInRange_iff`). A preset file may give Color, which ends at 3, any number
  (`colorSeven_outOfRange`).
-/
import ClapValidatorPlugins.State.Writers

namespace Cvp

open Assignments

/-- What is used of the order of `double`. Literals keep the order of the numbers they stand for,
    and a comparison that holds is not one of nans. -/
class OrderedDouble (D : Type) [DoubleOps D] : Prop where
  le_lit : ∀ {p q : ℚ}, p ≤ q → DoubleOps.le (DoubleOps.lit p : D) (DoubleOps.lit q) = true
  le_of_le_of_lt : ∀ {a b c : D}, DoubleOps.le a b = true → DoubleOps.lt b c = true →
    DoubleOps.le a c = true
  le_lit_of_not_lt : ∀ {a b : D} {q : ℚ}, DoubleOps.le a b = true →
    DoubleOps.lt (DoubleOps.lit q) b = false → DoubleOps.le b (DoubleOps.lit q) = true
  mul_lit_nonneg : ∀ {a : D} {q : ℚ}, DoubleOps.le (DoubleOps.lit 0) a = true →
    DoubleOps.le a (DoubleOps.lit 1) = true → 0 ≤ q → q ≤ 1 →
    DoubleOps.le (DoubleOps.lit 0) (a * DoubleOps.lit q) = true

instance : OrderedDouble ExactFloat where
  le_lit h := decide_eq_true h
  le_of_le_of_lt hab hbc :=
    decide_eq_true (le_trans (of_decide_eq_true hab) (le_of_lt (of_decide_eq_true hbc)))
  le_lit_of_not_lt _ hlt := decide_eq_true (not_lt.mp (of_decide_eq_false hlt))
  mul_lit_nonneg h0 _ hq _ := decide_eq_true (mul_nonneg (of_decide_eq_true h0) hq)

/-! ## Declared ranges -/

section Declared

variable {D S : Type} [DoubleOps D]

/-- `min_value <= x && x <= max_value`. -/
structure ParamInfo.Contains (info : ParamInfo D) (x : D) : Prop where
  min_le : DoubleOps.le info.minValue x = true
  le_max : DoubleOps.le x info.maxValue = true

namespace Flavor

/-- The table of `paramInfo`; HostCheck has none. -/
def paramInfos : Flavor → List (ParamInfo D)
  | synth => SynthPlugin.paramInfos
  | sidechainSynth => SidechainSynthPlugin.paramInfos
  | effect => EffectPlugin.paramInfos
  | multiOutGen => MultiOutGenPlugin.paramInfos
  | multiOutFx => MultiOutFxPlugin.paramInfos
  | audioPortsZero => AudioPortsZeroPlugin.paramInfos
  | slow => SlowPlugin.paramInfos
  | hostCheck => []
  | noteFx => NoteFxPlugin.paramInfos
  | paramsZoo => ParamsZooPlugin.paramInfos
  | preset => PresetPlugin.paramInfos
  | surround => SurroundPlugin.paramInfos
  | gui => GuiPlugin.paramInfos

/-- The table declares the parameters of the storage. -/
theorem map_paramInfos (flavor : Flavor) :
    (flavor.paramInfos : List (ParamInfo D)).map (·.id) = flavor.paramIds := by
  cases flavor <;> rfl

theorem mem_paramIds (flavor : Flavor) {info : ParamInfo D}
    (h : info ∈ (flavor.paramInfos : List (ParamInfo D))) : info.id ∈ flavor.paramIds := by
  rw [← flavor.map_paramInfos (D := D)]
  exact List.mem_map_of_mem h

/-- The value lies in the range declared for the parameter, if there is one. -/
def Allows (flavor : Flavor) (id : ClapId) (x : D) : Prop :=
  ∀ info ∈ (flavor.paramInfos : List (ParamInfo D)), info.id = id → info.Contains x

theorem allows_iff (flavor : Flavor) {info : ParamInfo D}
    (h : info ∈ (flavor.paramInfos : List (ParamInfo D))) (x : D) :
    flavor.Allows info.id x ↔ info.Contains x := by
  have hdistinct : ((flavor.paramInfos : List (ParamInfo D)).map (·.id)).Nodup := by
    rw [map_paramInfos]
    cases flavor <;> decide
  constructor
  · exact fun hallows => hallows info h rfl
  · intro hcontains info' h' hid
    rw [List.inj_on_of_nodup_map hdistinct h' h hid]
    exact hcontains

variable [FloatOps S] [FloatCast D S] [DoubleBits D]

/-- What the host reads of every declared parameter lies in the range declared for it. -/
def ParamsInRange (flavor : Flavor) (s : flavor.State D S) : Prop :=
  ∀ params ∈ (flavor.impl : PluginImpl D S _).params, ∀ index info,
    params.paramInfo index = some info → ∀ x, params.paramValue s info.id = some x →
      info.Contains x

theorem inRange_iff_allows (flavor : Flavor) (s : flavor.State D S) :
    flavor.ParamsInRange s ↔ ∀ id, flavor.Allows id (flavor.params s id) := by
  have hmem : ∀ info ∈ (flavor.paramInfos : List (ParamInfo D)), info.id ∈ flavor.paramIds :=
    fun _ h => flavor.mem_paramIds h
  constructor
  · rintro h _ info hinfo rfl
    obtain ⟨index, hindex⟩ := List.getElem?_of_mem hinfo
    cases flavor with
    | hostCheck => cases hinfo
    | _ => exact h _ rfl index info hindex _ (if_pos (hmem info hinfo))
  · intro h params hparams index info hindex x hx
    cases flavor with
    | hostCheck => cases hparams
    | _ =>
      cases hparams
      have hinfo := List.mem_of_getElem? hindex
      have hvalue := (if_pos (hmem info hinfo)).symm.trans hx
      cases hvalue
      exact h info.id info hinfo rfl

end Flavor

end Declared

/-! ## Defaults -/

section Defaults

variable {D S : Type} [DoubleOps D] [OrderedDouble D]

theorem contains_lit {info : ParamInfo D} {lo x hi : ℚ} (hlo : info.minValue = DoubleOps.lit lo)
    (hhi : info.maxValue = DoubleOps.lit hi) (h : lo ≤ x ∧ x ≤ hi) :
    info.Contains (DoubleOps.lit x) where
  min_le := hlo ▸ OrderedDouble.le_lit h.1
  le_max := hhi ▸ OrderedDouble.le_lit h.2

namespace Flavor

/-- Every default lies in its range. -/
theorem contains_default (flavor : Flavor) :
    ∀ info ∈ (flavor.paramInfos : List (ParamInfo D)), info.Contains info.defaultValue := by
  cases flavor <;>
    simp only [paramInfos, SynthPlugin.paramInfos, SidechainSynthPlugin.paramInfos,
      EffectPlugin.paramInfos, MultiOutGenPlugin.paramInfos, MultiOutFxPlugin.paramInfos,
      AudioPortsZeroPlugin.paramInfos, SlowPlugin.paramInfos, NoteFxPlugin.paramInfos,
      ParamsZooPlugin.paramInfos, PresetPlugin.paramInfos, SurroundPlugin.paramInfos,
      GuiPlugin.paramInfos, List.forall_mem_cons] <;>
    and_intros <;>
    first
      | exact contains_lit rfl rfl (by norm_num)
      | exact fun info h => absurd h List.not_mem_nil

variable [FloatOps S] [FloatCast D S] [DoubleBits D]

/-- A new instance has the defaults. -/
theorem create_allows (flavor : Flavor) :
    ∀ id, flavor.Allows id (flavor.params (flavor.impl : PluginImpl D S _).create id) := by
  have hcreate : ∀ info ∈ (flavor.paramInfos : List (ParamInfo D)),
      flavor.params (flavor.impl : PluginImpl D S _).create info.id = info.defaultValue := by
    cases flavor <;>
      simp only [paramInfos, SynthPlugin.paramInfos, SidechainSynthPlugin.paramInfos,
        EffectPlugin.paramInfos, MultiOutGenPlugin.paramInfos, MultiOutFxPlugin.paramInfos,
        AudioPortsZeroPlugin.paramInfos, SlowPlugin.paramInfos, NoteFxPlugin.paramInfos,
        ParamsZooPlugin.paramInfos, PresetPlugin.paramInfos, SurroundPlugin.paramInfos,
        GuiPlugin.paramInfos, List.forall_mem_cons] <;>
      and_intros <;>
      first
        | rfl
        | exact fun info h => absurd h List.not_mem_nil
  rintro _ info hinfo rfl
  rw [hcreate info hinfo]
  exact flavor.contains_default info hinfo

end Flavor

end Defaults

/-! ## The meter -/

/-- What the body of a sample loop keeps, the loop keeps. -/
theorem frameLoop_invariant {α : Type} {Q : α → Prop} {body : Nat → α → α}
    (hbody : ∀ i a, Q a → Q (body i a)) (start count : Nat) {a : α} (h : Q a) :
    Q (frameLoop body start count a) := by
  induction count generalizing start a with
  | zero => exact h
  | succ count ih => exact ih (start + 1) (hbody start a h)

section Meter

variable {D S : Type} [DoubleOps D]

theorem allows_peak_iff (x : D) :
    Flavor.paramsZoo.Allows ParamsZooPlugin.kParamPeak x ↔
      DoubleOps.le (DoubleOps.lit 0) x = true ∧ DoubleOps.le x (DoubleOps.lit 1) = true := by
  have hmem := List.mem_of_getElem? (l := (Flavor.paramsZoo.paramInfos : List (ParamInfo D)))
    (i := 2) rfl
  exact (Flavor.paramsZoo.allows_iff hmem x).trans
    ⟨fun h => ⟨h.min_le, h.le_max⟩, fun h => ⟨h.1, h.2⟩⟩

variable [OrderedDouble D]

theorem le_maxDouble {lo a : D} (h : DoubleOps.le lo a = true) (b : D) :
    DoubleOps.le lo (maxDouble a b) = true := by
  unfold maxDouble
  split
  · rename_i hlt
    exact OrderedDouble.le_of_le_of_lt h hlt
  · exact h

variable [FloatOps S] [FloatCast D S]

theorem measurePeak_nonneg {peak : D} (hmin : DoubleOps.le (DoubleOps.lit 0) peak = true)
    (hmax : DoubleOps.le peak (DoubleOps.lit 1) = true) (srcL srcR : Ptr) (frames : Nat)
    (m : Plane S) :
    DoubleOps.le (DoubleOps.lit 0) (ParamsZooPlugin.measurePeak peak srcL srcR frames m) = true :=
  frameLoop_invariant (Q := fun x : D => DoubleOps.le (DoubleOps.lit 0) x = true)
    (fun _ _ h => le_maxDouble (le_maxDouble h _) _) 0 frames
    (OrderedDouble.mul_lit_nonneg hmin hmax (by norm_num) (by norm_num))

/-- The meter is cut off at 1, and a decayed peak is not negative. -/
theorem meterKeeps_allows : MeterKeeps S (Flavor.paramsZoo.Allows (D := D)) := by
  intro peak srcL srcR frames m hpeak
  rw [allows_peak_iff] at hpeak ⊢
  have hnonneg := measurePeak_nonneg hpeak.1 hpeak.2 srcL srcR frames m
  unfold minDouble
  split
  · exact ⟨OrderedDouble.le_lit (by norm_num), OrderedDouble.le_lit le_rfl⟩
  · rename_i hlt
    exact ⟨hnonneg, OrderedDouble.le_lit_of_not_lt hnonneg (Bool.eq_false_iff.mpr hlt)⟩

end Meter

/-! ## Runs -/

section Runs

variable {D S : Type} [DoubleOps D] [OrderedDouble D] [FloatOps S] [FloatCast D S] [DoubleBits D]

namespace Flavor

/-- The parameters are in range as long as the instance lives. -/
def StaysInRange (flavor : Flavor) (i : Instance D (flavor.State D S)) : Prop :=
  ∀ p, i = .alive p → flavor.ParamsInRange p.self

/-- What the call loads is in range. -/
def LoadsInRange (flavor : Flavor) (_ : Instance D (flavor.State D S)) (l : ThreadId × Call D S)
    (_ : Instance D (flavor.State D S)) (_ : Reply D S) : Prop :=
  l.2.Loads flavor.Allows flavor

variable (flavor : Flavor)

omit [DoubleBits D] in
theorem meterKeeps : flavor = .paramsZoo → MeterKeeps S (flavor.Allows (D := D)) := by
  rintro rfl
  exact meterKeeps_allows

omit [OrderedDouble D] in
/-- A preset leaves its two values behind. -/
theorem step_names {p : Plugin D (PresetPlugin.State D)} {i : Instance D (PresetPlugin.State D)}
    {thread : ThreadId} {files : FileSystem} {kind : Nat} {location loadKey : Option String}
    {o : Reply D S} {gain color : D}
    (hnames : PresetPlugin.Names files kind location loadKey gain color)
    (hstep : hostStep (PresetPlugin.impl : PluginImpl D S _) (.alive p)
      (thread, .presetLoad files kind location loadKey) = .ok (i, o)) :
    ∃ q, i = .alive q ∧ q.self.params PresetPlugin.kParamGain = gain ∧
      q.self.params PresetPlugin.kParamColor = color := by
  have hforward : ¬ (kind = Plugin.PresetLoad.locationFile ∧ location = none) := by
    rintro ⟨rfl, rfl⟩
    cases hnames
  obtain ⟨q, -, -, -, hanswer⟩ :=
    PresetPlugin.step_forwarded (S := S) p thread files loadKey hforward
  obtain ⟨data, hresolve, rfl, rfl⟩ := PresetPlugin.resolve_of_names hnames
  dsimp only at hanswer
  rw [hstep] at hanswer
  cases hanswer
  refine ⟨_, rfl, ?_⟩
  rw [Plugin.absorb_self]
  unfold PresetPlugin.presetLoadFromLocation
  rw [hresolve]
  exact ⟨rfl, rfl⟩

omit [OrderedDouble D] in
/-- Values that are in range behind a load were loaded in range. -/
theorem loads_of_inRange {p : Plugin D (flavor.State D S)} {i : Instance D (flavor.State D S)}
    {l : ThreadId × Call D S} {o : Reply D S} (hp : flavor.Holds flavor.Allows p.self)
    (hstep : hostStep (flavor.impl : PluginImpl D S _) (.alive p) l = .ok (i, o))
    (hrange : flavor.StaysInRange i) : l.2.Loads flavor.Allows flavor := by
  obtain ⟨thread, call⟩ := l
  cases call with
  | stateLoad stream =>
    obtain ⟨⟨q, a⟩, hr, hret⟩ := Except.bind_eq_ok (hostStep_call hstep)
    obtain ⟨rfl, -⟩ := Prod.mk.inj (Except.ok.inj hret)
    obtain ⟨state, hstate, out, stream', hout, hself⟩ := Plugin.sLoad_self thread stream _ hr
    obtain ⟨hparams, -⟩ := flavor.stateLoad_params hstate p.self stream _ hout
    have hq := (flavor.inRange_iff_allows q.self).mp (hrange q rfl)
    rw [show q.self = out.self from hself, hparams, forall_assign_iff hp.params] at hq
    exact hq
  | presetLoad files kind location loadKey =>
    rintro rfl gain color hnames
    obtain ⟨q, rfl, rfl, rfl⟩ := step_names hnames hstep
    have hq := (Flavor.preset.inRange_iff_allows q.self).mp (hrange q rfl)
    exact ⟨hq PresetPlugin.kParamGain, hq PresetPlugin.kParamColor⟩
  | _ => trivial

/-- The values that events and edits set are in range. Then the parameters stay in range exactly
    if every load brings values that are: the last value a state stream carries for a parameter,
    Gain and Color of a preset. -/
theorem paramsInRange_iff (host : Option Host) {calls : List (ThreadId × Call D S)}
    (hsets : ∀ l ∈ calls, l.2.Sets flavor.Allows) :
    Machine.AllStates (hostStep (flavor.impl : PluginImpl D S _)) flavor.StaysInRange
        (.alive (flavor.instantiate S host)) calls ↔
      Machine.AllSteps (hostStep (flavor.impl : PluginImpl D S _)) flavor.LoadsInRange
        (.alive (flavor.instantiate S host)) calls := by
  refine Machine.allStates_iff_allSteps_of (A := fun _ l _ _ => l.2.Sets flavor.Allows)
    (I := fun i => ∀ p, i = .alive p → flavor.Holds flavor.Allows p.self) ?_ ?_ ?_ ?_
    (Machine.allSteps_of_labels hsets)
  · exact fun i h p hp => (flavor.inRange_iff_allows p.self).mpr (h p hp).params
  · rintro i l i' o h hstep hset hload q rfl
    obtain ⟨p, rfl, -⟩ := hostStep_ok hstep
    exact Plugin.hostStep_self (flavor.keeps flavor.meterKeeps) hstep hset hload (h p rfl)
  · intro i l i' o h hstep _ hrange
    obtain ⟨p, rfl, -⟩ := hostStep_ok hstep
    exact flavor.loads_of_inRange (h p rfl) hstep hrange
  · rintro p ⟨⟩
    refine ⟨flavor.create_allows, ?_⟩
    cases flavor <;> exact fun r hr => absurd hr List.not_mem_nil

end Flavor

end Runs

/-! ## Preset files -/

namespace PresetPlugin

/-- `init()`, and a load of a file with the two values. -/
def loadFile (values : String) : List (ThreadId × Call ExactFloat ExactFloat) :=
  [(0, .init []),
   (0, .presetLoad (fun _ => some ("CVP-PRESET v1\n" ++ values)) Plugin.PresetLoad.locationFile
     (some "a.cvpreset") none)]

theorem loadFile_sets (P : ClapId → ExactFloat → Prop) (values : String) :
    ∀ l ∈ loadFile values, l.2.Sets P :=
  List.forall_mem_cons.mpr ⟨trivial, List.forall_mem_singleton.mpr trivial⟩

/-- A number of one digit. -/
theorem readDigit {c : Char} {n : ℕ} (h : c.toNat - '0'.toNat = n) :
    digitsValue [c] + digitsValue [] / 10 ^ 0 = n := by
  subst h
  norm_num [digitsValue]

/-- Gain at -6 dB and Color at 2. -/
theorem paramsInRange_iff_colorTwo :
    Machine.AllStates (hostStep (Flavor.preset.impl : PluginImpl ExactFloat ExactFloat _))
      Flavor.preset.StaysInRange (.alive (Flavor.preset.instantiate ExactFloat none))
      (loadFile "gain=-6\ncolor=2\n") := by
  refine (Flavor.preset.paramsInRange_iff none (loadFile_sets _ _)).mpr
    (Machine.allSteps_of_labels (P := fun l : ThreadId × Call ExactFloat ExactFloat =>
      l.2.Loads Flavor.preset.Allows .preset) ?_)
  refine List.forall_mem_cons.mpr ⟨trivial, List.forall_mem_singleton.mpr ?_⟩
  rintro - gain color hnames
  obtain ⟨data, hresolve, rfl, rfl⟩ := resolve_of_names hnames
  cases hresolve
  constructor
  · refine (Flavor.preset.allows_iff (List.mem_of_getElem? (i := 0) rfl) _).mpr
      (contains_lit rfl rfl (x := -1 * (digitsValue ['6'] + digitsValue [] / 10 ^ 0)) ?_)
    rw [readDigit (n := 6) rfl]
    norm_num
  · refine (Flavor.preset.allows_iff (List.mem_of_getElem? (i := 1) rfl) _).mpr
      (contains_lit rfl rfl (x := 1 * (digitsValue ['2'] + digitsValue [] / 10 ^ 0)) ?_)
    rw [readDigit (n := 2) rfl]
    norm_num

/-- Color, declared from 0 to 3, is at 7 behind a load that succeeded. -/
theorem colorSeven_outOfRange :
    (∀ l ∈ loadFile "gain=0\ncolor=7\n", l.2.Sets Flavor.preset.Allows) ∧
    ∃ p os, Machine.run (hostStep (Flavor.preset.impl : PluginImpl ExactFloat ExactFloat _))
        (.alive (Flavor.preset.instantiate ExactFloat none)) (loadFile "gain=0\ncolor=7\n") =
          .ok (.alive p, os) ∧
      os.map (·.result) = [.bool true, .bool true] ∧
      Flavor.preset.paramValue p.self kParamColor = some 7 ∧
      ¬ Flavor.preset.ParamsInRange p.self := by
  refine ⟨loadFile_sets _ _, _, _, rfl, rfl, ?_⟩
  have hseven : ∀ (p : Plugin ExactFloat (State ExactFloat)) (x : ExactFloat),
      Flavor.preset.paramValue (S := ExactFloat) p.self kParamColor = some x → x = 7 →
        Flavor.preset.paramValue (S := ExactFloat) p.self kParamColor = some 7 ∧
          ¬ Flavor.preset.ParamsInRange (S := ExactFloat) p.self := by
    rintro p _ hp rfl
    refine ⟨hp, fun h => ?_⟩
    have hle : (7 : ℚ) ≤ 3 := of_decide_eq_true (h _ rfl 1 _ rfl 7 hp).le_max
    norm_num at hle
  refine hseven _ (1 * (digitsValue ['7'] + digitsValue [] / 10 ^ 0)) rfl ?_
  rw [readDigit (n := 7) rfl]
  norm_num

end PresetPlugin

end Cvp
