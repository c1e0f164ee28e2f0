/-
  `from_location` of the Preset flavor. The answer is decided in the wrapper (a FILE without a
  path) and in the flavor (unknown keys, unreadable files); on every path the two parameters and
  what the host is told change together (`fromLocation_answered`). The one load that fails without
  `on_error()` is the FILE without a path: the wrapper rejects it under PL01.
-/
import ClapValidatorPlugins.Contract.CallEffects
import ClapValidatorPlugins.Contract.StateRule
import ClapValidatorPlugins.Events.Verdicts

namespace Cvp

namespace PresetPlugin

open Preset Plugin.PresetLoad

variable {D S : Type} [DoubleOps D] [FloatOps S] [FloatCast D S] [DoubleBits D]

/-- A location and key name a preset with this Gain and Color. -/
inductive Names (files : FileSystem) : Nat → Option String → Option String → D → D → Prop where
  | internal (preset : InternalPreset D) (location : Option String) :
      preset ∈ kInternalPresets →
      Names files locationPlugin location (some preset.loadKey) preset.gain preset.color
  | file (path content : String) (loadKey : Option String) (data : PresetData D) :
      files path = some content → parsePresetFile content.toList = some data →
      Names files locationFile (some path) loadKey data.gain data.color

/-! ## What the flavor remembers of its host -/

/-- Every call but `init()` leaves the two host interfaces alone. -/
def KeepsHost (call : Call D S) (s s' : State D) : Prop :=
  (∀ early, call ≠ .init early) →
    s'.hostPresetLoad = s.hostPresetLoad ∧ s'.hostParams = s.hostParams

omit [DoubleOps D] [DoubleBits D] [FloatOps S] [FloatCast D S] in
theorem foldl_keepsHost (es : List (Event D)) (call : Call D S) :
    ∀ s : State D, KeepsHost call s (es.foldl applyParamEvent s) := by
  induction es with
  | nil => exact fun s _ => ⟨rfl, rfl⟩
  | cons e es ih => exact fun s => ih (applyParamEvent s e)

theorem keepsHost : StateRule (impl : PluginImpl D S (State D)) KeepsHost where
  unreached _ _ _ := ⟨rfl, rfl⟩
  init base s early h := absurd rfl (h early)
  activate _ _ _ _ _ _ _ _ _ := ⟨rfl, rfl⟩
  deactivate _ _ _ := ⟨rfl, rfl⟩
  stopAndDeactivate _ _ _ _ := ⟨rfl, rfl⟩
  startProcessing _ _ _ := ⟨rfl, rfl⟩
  stopProcessing _ _ _ := ⟨rfl, rfl⟩
  reset _ _ _ := ⟨rfl, rfl⟩
  onMainThread _ _ _ := ⟨rfl, rfl⟩
  process base s block memory := by
    show Yields (process base s block memory) _
    unfold process
    split
    · refine Yields.andThen fun headers => Yields.andThen fun m => Yields.of_ok ?_
      rw [consume_done]
      exact foldl_keepsHost headers _ s
    · exact Yields.of_ok fun _ => ⟨rfl, rfl⟩
  paramsFlush := by
    rintro _ ⟨⟩ base s events hasOut
    refine Yields.andThen fun headers => Yields.of_ok ?_
    rw [consume_done]
    exact foldl_keepsHost headers _ s
  stateSave := by
    rintro _ ⟨⟩ s stream
    exact Yields.andThen fun r => Yields.of_ok fun _ => ⟨rfl, rfl⟩
  stateLoad := by
    rintro _ ⟨⟩ s stream
    exact Yields.andThen fun r => Yields.of_ok fun _ => ⟨rfl, rfl⟩
  presetLoad := by
    rintro _ ⟨⟩ base s files kind location loadKey _
    show (presetLoadFromLocation base s files kind location loadKey).self.hostPresetLoad = _ ∧ _
    unfold presetLoadFromLocation
    dsimp only
    split <;> exact ⟨rfl, rfl⟩

/-- What is known of an instance between two calls. -/
structure Found (S : Type) [FloatOps S] [FloatCast D S] (host : Option Host)
    (p : Plugin D (State D)) : Prop where
  snapshot : Snapshot (impl : PluginImpl D S (State D)) p.contract p.self
  offered : p.host = host
  unknown : p.contract.initialized = false →
    p.self.hostPresetLoad = none ∧ p.self.hostParams = none
  interfaces : p.contract.initialized = true →
    p.self.hostPresetLoad = host.bind (·.presetLoad) ∧ p.self.hostParams = host.bind (·.params)

theorem found_create (host : Option Host) :
    Found S host (Plugin.create (impl : PluginImpl D S (State D)) host) :=
  ⟨Plugin.snapshot_create _, rfl, fun _ => ⟨rfl, rfl⟩, nofun⟩

theorem found_step {host : Option Host} {p q : Plugin D (State D)} {l : ThreadId × Call D S}
    {o : Reply D S} (h : Found S host p)
    (hstep : hostStep (impl : PluginImpl D S (State D)) (.alive p) l = .ok (.alive q, o)) :
    Found S host q := by
  have ht : Tame (impl : PluginImpl D S (State D)) := Flavor.preset.tame
  have he := Plugin.hostStep_effects ht h.snapshot.inProcess hstep
  have hself := Plugin.hostStep_self keepsHost hstep
  refine ⟨hostStep_snapshot ht (.alive p) l (.alive q) o
    (fun p' hp' => by cases hp'; exact h.snapshot) hstep q rfl, he.host.trans h.offered, ?_, ?_⟩
  · rw [he.initialized]
    obtain ⟨thread, call⟩ := l
    cases call with
    | init early => exact nofun
    | _ =>
      intro hinit
      obtain ⟨hload, hparams⟩ := hself nofun
      obtain ⟨hload', hparams'⟩ := h.unknown hinit
      exact ⟨hload.trans hload', hparams.trans hparams'⟩
  rw [he.initialized]
  obtain ⟨thread, call⟩ := l
  cases call with
  | init early =>
    intro _
    -- the flavor's own `init` looks at the host, a repeated one changes nothing
    have hcall := hostStep_call hstep
    have hret : (({ p with hostCalls := [] } : Plugin D (State D)).sInit
        (impl : PluginImpl D S (State D)) thread early).1 = q :=
      Instance.alive.inj (Prod.mk.inj (Except.ok.inj hcall)).1
    have hhost : (Plugin.enterInit { p with hostCalls := [] } thread early).base.host = host :=
      (Plugin.enterInit_shifts { p with hostCalls := [] } thread early).host.trans h.offered
    rw [← hret, Plugin.sInit_self]
    split
    · rename_i hinit
      exact h.interfaces hinit
    · rename_i hfresh
      show (init _ _).self.hostPresetLoad = _ ∧ (init _ _).self.hostParams = _
      unfold init
      rw [hhost]
      cases host with
      | none => exact h.unknown (Bool.eq_false_iff.mpr hfresh)
      | some host => exact ⟨rfl, rfl⟩
  | _ =>
    intro hinit
    obtain ⟨hload, hparams⟩ := hself nofun
    obtain ⟨hload', hparams'⟩ := h.interfaces hinit
    exact ⟨hload.trans hload', hparams.trans hparams'⟩

theorem found_of_reachable {host : Option Host} {p : Plugin D (State D)}
    (h : Machine.Reachable (hostStep (impl : PluginImpl D S (State D)))
      (.alive (Plugin.create (impl : PluginImpl D S (State D)) host)) (.alive p)) :
    Found S host p := by
  have hall := h.invariant (P := fun i => ∀ p, i = .alive p → Found S host p)
    (fun p hp => by cases hp; exact found_create host) ?_
  · exact hall p rfl
  · intro i l i' o hi hstep q hq
    obtain ⟨p', rfl, -⟩ := hostStep_ok hstep
    exact found_step (hi p' rfl) (hq ▸ hstep)

/-! ## What a location names -/

omit [DoubleBits D] [FloatOps S] [FloatCast D S] in
theorem names_of_resolve {files : FileSystem} {kind : Nat} {location loadKey : Option String}
    {data : PresetData D} (h : resolve files kind location loadKey = some data) :
    Names files kind location loadKey data.gain data.color := by
  unfold resolve at h
  split at h
  · rename_i hkind
    subst hkind
    obtain ⟨preset, hpreset, rfl⟩ := Option.map_eq_some_iff.mp h
    cases loadKey with
    | none => cases hpreset
    | some key =>
      have hfind : kInternalPresets.find? (fun preset => preset.loadKey == key) = some preset :=
        hpreset
      have hkey : preset.loadKey = key := by simpa using List.find?_some hfind
      rw [← hkey]
      exact .internal preset location (List.mem_of_find?_eq_some hfind)
  · split at h
    · rename_i hkind
      subst hkind
      obtain ⟨path, rfl, hpath⟩ := Option.bind_eq_some_iff.mp h
      obtain ⟨content, hcontent, hparse⟩ := Option.bind_eq_some_iff.mp hpath
      exact .file path content loadKey data hcontent hparse
    · cases h

omit [DoubleBits D] [FloatOps S] [FloatCast D S] in
theorem resolve_of_names {files : FileSystem} {kind : Nat} {location loadKey : Option String}
    {gain color : D} (h : Names files kind location loadKey gain color) :
    ∃ data, resolve files kind location loadKey = some data ∧ data.gain = gain ∧
      data.color = color := by
  cases h with
  | internal preset location hpreset =>
    have hfind : findInternalPreset (some preset.loadKey) = some preset := by
      simp only [kInternalPresets, List.mem_cons, List.not_mem_nil, or_false] at hpreset
      rcases hpreset with rfl | rfl | rfl <;> rfl
    exact ⟨_, by rw [resolve, if_pos rfl, hfind]; rfl, rfl, rfl⟩
  | file path content loadKey data hcontent hparse =>
    refine ⟨data, ?_, rfl, rfl⟩
    rw [resolve, if_neg (by decide), if_pos rfl]
    simp [hcontent, hparse]

/-! ## The load -/

/-- The wrapper answers for a FILE without a path itself. -/
theorem step_rejected (p : Plugin D (State D)) (thread : ThreadId) (files : FileSystem)
    (loadKey : Option String) :
    ∃ q, hostStep (impl : PluginImpl D S (State D)) (.alive p)
        (thread, .presetLoad files locationFile none loadKey) = .ok (.alive q, ⟨.bool false, []⟩) ∧
      q.self = p.self :=
  ⟨_, rfl, rfl⟩

/-- Every other load reaches the flavor. -/
theorem step_forwarded (p : Plugin D (State D)) (thread : ThreadId) (files : FileSystem)
    {kind : Nat} {location : Option String} (loadKey : Option String)
    (h : ¬ (kind = locationFile ∧ location = none)) :
    ∃ q : Plugin D (State D), q.self = p.self ∧ q.host = p.host ∧ q.hostCalls = [] ∧
      let out := presetLoadFromLocation q.base p.self files kind location loadKey
      hostStep (impl : PluginImpl D S (State D)) (.alive p)
          (thread, .presetLoad files kind location loadKey) =
        .ok (.alive (q.absorb out), ⟨.bool out.value, (q.absorb out).hostCalls⟩) := by
  let p1 := Plugin.assertMainThread { p with hostCalls := [] } thread "sFromLocation"
  let p2 := if kind = locationPlugin ∧ location.isSome then
      p1.report .PL01 "preset_load.from_location()"
        "PLUGIN location kind with a non-null location (must be null)"
    else p1
  have hp2 : p2.self = p.self ∧ p2.host = p.host ∧ p2.hostCalls = [] := by
    by_cases hplugin : kind = locationPlugin ∧ location.isSome
    · simp only [p2, if_pos hplugin]
      exact ⟨rfl, rfl, rfl⟩
    · simp only [p2, if_neg hplugin]
      exact ⟨rfl, rfl, rfl⟩
  refine ⟨p2, hp2.1, hp2.2.1, hp2.2.2, ?_⟩
  have hcall : Plugin.call (impl : PluginImpl D S (State D)) { p with hostCalls := [] } thread
      (.presetLoad files kind location loadKey) =
      .ok (.alive (p2.absorb (presetLoadFromLocation p2.base p2.self files kind location loadKey)),
        .bool (presetLoadFromLocation p2.base p2.self files kind location loadKey).value) := by
    show (sFromLocation impl _ thread files kind location loadKey >>= _) = _
    unfold sFromLocation
    rw [if_neg h]
    rfl
  unfold hostStep
  dsimp only
  rw [hcall, hp2.1]

/-- PL01 is counted once for a FILE without a path. -/
theorem raised_rejected {p q : Plugin D (State D)} {thread : ThreadId} {files : FileSystem}
    {loadKey : Option String} {o : Reply D S}
    (h : hostStep (impl : PluginImpl D S (State D)) (.alive p)
      (thread, .presetLoad files locationFile none loadKey) = .ok (.alive q, o)) :
    p.raised q .PL01 = 1 := by
  have hcall := hostStep_call h
  obtain ⟨q', hq', hsteps⟩ := Plugin.call_plain (p := { p with hostCalls := [] })
    Flavor.preset.tame thread (by rfl) _ hcall
  cases hq'
  refine (hsteps.toShifts.raised .PL01).trans ?_
  have hmain : (Plugin.mainCodes { p with hostCalls := [] } thread).count .PL01 = 0 :=
    List.count_eq_zero_of_not_mem fun h => absurd (Plugin.eq_of_mem_mainCodes h) nofun
  show UInt32.ofNat (List.count Violation.PL01 (_ ++ _)) = 1
  rw [List.count_append, hmain]
  rfl

/-- `from_location` on an initialized instance of a host that offers clap.preset-load and
    clap.params: true exactly if the location names a preset, whose values the parameters then
    take, with one `rescan` and one `loaded()`; otherwise the parameters stay and `on_error()` is
    called once, unless the wrapper already rejected a FILE without a path (PL01). -/
theorem fromLocation_answered {host : Host}
    (hload : host.presetLoad = some { hasOnError := true, hasLoaded := true })
    (hrescan : host.params = some { hasRescan := true }) {p : Plugin D (State D)}
    (hp : Machine.Reachable (hostStep (impl : PluginImpl D S (State D)))
      (.alive (Plugin.create (impl : PluginImpl D S (State D)) (some host))) (.alive p))
    (hinit : p.contract.initialized = true) (thread : ThreadId) (files : FileSystem) (kind : Nat)
    (location loadKey : Option String) :
    ∃ q answer calls, hostStep (impl : PluginImpl D S (State D)) (.alive p)
        (thread, .presetLoad files kind location loadKey) = .ok (.alive q, ⟨.bool answer, calls⟩) ∧
      (answer = true ↔ ∃ gain color : D, Names files kind location loadKey gain color) ∧
      (∀ gain color : D, Names files kind location loadKey gain color →
        q.self.params kParamGain = gain ∧ q.self.params kParamColor = color ∧
        calls = [.rescanValues, .presetLoaded kind location loadKey]) ∧
      (answer = false → q.self.params = p.self.params ∧
        (¬ (kind = locationFile ∧ location = none) → calls =
          [.presetOnError kind location loadKey "unknown preset or unreadable preset file"]) ∧
        (kind = locationFile ∧ location = none → calls = [] ∧ p.raised q .PL01 = 1)) := by
  have hfound : Found S (some host) p := found_of_reachable hp
  obtain ⟨hostLoad, hostParams⟩ := hfound.interfaces hinit
  rw [Option.bind_some, hload] at hostLoad
  rw [Option.bind_some, hrescan] at hostParams
  by_cases hreject : kind = locationFile ∧ location = none
  · obtain ⟨rfl, rfl⟩ := hreject
    obtain ⟨q, hstep, hself⟩ := step_rejected (S := S) p thread files loadKey
    have hnone : ∀ gain color : D, ¬ Names files locationFile none loadKey gain color := nofun
    refine ⟨q, false, [], hstep, ?_, ?_, ?_⟩
    · simp [hnone]
    · exact fun gain color h => absurd h (hnone gain color)
    · exact fun _ => ⟨congrArg State.params hself, fun h => absurd ⟨rfl, rfl⟩ h,
        fun _ => ⟨rfl, raised_rejected hstep⟩⟩
  · obtain ⟨q, hself, hhost, hcalls, hstep⟩ :=
      step_forwarded (S := S) p thread files loadKey hreject
    have hbase : q.base.host.isSome = true := by
      show q.host.isSome = true
      rw [hhost, hfound.offered]
      rfl
    cases hresolve : (resolve files kind location loadKey : Option (PresetData D)) with
    | none =>
      have hnone : ∀ gain color : D, ¬ Names files kind location loadKey gain color := by
        intro gain color h
        obtain ⟨data, hdata, -⟩ := resolve_of_names h
        rw [hresolve] at hdata
        cases hdata
      simp only [presetLoadFromLocation, hresolve, hostLoad, hbase, Bool.and_self, if_true] at hstep
      refine ⟨_, false, _, hstep, ?_, ?_, ?_⟩
      · simp [hnone]
      · exact fun gain color h => absurd h (hnone gain color)
      · refine fun _ => ⟨congrArg State.params (Plugin.absorb_self _ _), fun _ => ?_,
          fun h => absurd h hreject⟩
        show q.hostCalls ++ _ = _
        rw [hcalls]
        rfl
    | some data =>
      have hnames := names_of_resolve hresolve
      simp only [presetLoadFromLocation, hresolve, hostLoad, hostParams, hbase, Bool.and_self,
        if_true] at hstep
      refine ⟨_, true, _, hstep, ?_, ?_, nofun⟩
      · exact ⟨fun _ => ⟨_, _, hnames⟩, fun _ => rfl⟩
      · intro gain color h
        obtain ⟨data', hdata', rfl, rfl⟩ := resolve_of_names h
        obtain rfl : data = data' := Option.some.inj (hresolve.symm.trans hdata')
        refine ⟨?_, ?_, ?_⟩
        · rw [Plugin.absorb_self]
          rfl
        · rw [Plugin.absorb_self]
          rfl
        · show q.hostCalls ++ _ ++ _ = _
          rw [hcalls]
          rfl

/-- A host with both interfaces. -/
def loadingHost : Host := { presetLoad := some {}, params := some {} }

/-- A new instance of that host, and behind its `init()`. -/
def created : Plugin ExactFloat (State ExactFloat) :=
  Plugin.create (impl : PluginImpl ExactFloat ExactFloat _) (some loadingHost)

def initialized : Plugin ExactFloat (State ExactFloat) :=
  (created.sInit (impl : PluginImpl ExactFloat ExactFloat _) 0 []).1

/-- The internal preset "Quiet". -/
theorem fromLocation_answered_quiet :
    ∃ q answer calls, hostStep (impl : PluginImpl ExactFloat ExactFloat _) (.alive initialized)
        (0, .presetLoad (fun _ => none) locationPlugin none (some "internal:quiet")) =
          .ok (.alive q, ⟨.bool answer, calls⟩) ∧
      answer = true ∧ q.self.params kParamGain = DoubleOps.lit (-12) ∧
      calls = [.rescanValues, .presetLoaded locationPlugin none (some "internal:quiet")] := by
  have hreach : Machine.Reachable (hostStep (impl : PluginImpl ExactFloat ExactFloat _))
      (.alive created) (.alive initialized) := ⟨[(0, .init [])], _, rfl⟩
  have hload : loadingHost.presetLoad = some { hasOnError := true, hasLoaded := true } := rfl
  have hrescan : loadingHost.params = some { hasRescan := true } := rfl
  obtain ⟨q, answer, calls, hstep, htrue, hvalues, -⟩ := fromLocation_answered hload hrescan
    hreach rfl 0 (fun _ => none) locationPlugin none (some "internal:quiet")
  have hnames : Names (fun _ => none) locationPlugin none (some "internal:quiet")
      (DoubleOps.lit (-12) : ExactFloat) (DoubleOps.lit 1) :=
    .internal { loadKey := "internal:quiet", name := "Quiet", gain := DoubleOps.lit (-12)
                color := DoubleOps.lit 1 } none (by simp [kInternalPresets])
  obtain ⟨hgain, -, hcalls⟩ := hvalues _ _ hnames
  exact ⟨q, answer, calls, hstep, htrue.mpr ⟨_, _, hnames⟩, hgain, hcalls⟩

/-- A FILE without a path fails, and nothing is asked of the host. -/
theorem fromLocation_unanswered :
    initialized.host = some loadingHost ∧ initialized.contract.initialized = true ∧
    ∃ q, hostStep (impl : PluginImpl ExactFloat ExactFloat _) (.alive initialized)
        (0, .presetLoad (fun _ => none) locationFile none none) =
          .ok (.alive q, ⟨.bool false, []⟩) := by
  refine ⟨rfl, rfl, ?_⟩
  obtain ⟨q, hstep, -⟩ := step_rejected (S := ExactFloat) initialized 0 (fun _ => none) none
  exact ⟨q, hstep⟩

end PresetPlugin

end Cvp
