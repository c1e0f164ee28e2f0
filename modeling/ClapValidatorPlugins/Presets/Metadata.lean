/-
  `provider.get_metadata` of `plugins/preset/preset_discovery.cpp`: what a host that crawls the two
  kinds of location learns, and what the Preset flavor makes of it. The host is any: its receiver
  answers `begin_preset()` as it likes, with everything called so far in view, and between two
  locations the files may change.

  A host that takes metadata only for a preset it has accepted, and nothing behind one it has
  declined, never meets a call out of order, and each preset it has taken down loads from where it
  was found (`indexed_presets_load`). A host that accepts everything finds what there is to load
  (`loads_iff_published`).

  Left out: the misuse reports (`Provider.providerGetMetadata`).
-/
import ClapValidatorPlugins.Entry.Calls
import ClapValidatorPlugins.Presets.Loading
import ClapValidatorPlugins.Presets.SampleFiles

namespace Cvp.Metadata

open Preset Plugin.PresetLoad

/-! ## The receiver -/

/-- `CLAP_PRESET_DISCOVERY_IS_FACTORY_CONTENT` and `..._IS_USER_CONTENT`. -/
inductive Content where
  | factory | user
  deriving DecidableEq, Repr

/-- A call of the receiver's functions; `begin_preset()` with the answer. -/
inductive Call where
  | onError (osError : Nat) (message : String)
  | beginPreset (name : String) (loadKey : Option String) (accepted : Bool)
  | addPluginId (abi id : String)
  | setFlags (flags : Content)
  | setDescription (description : String)
  | addCreator (creator : String)
  deriving DecidableEq, Repr

structure Receiver where
  /-- the answer to `begin_preset()`, behind the calls so far -/
  beginPreset : List Call → String → Option String → Bool
  /-- `on_error` may be null -/
  hasOnError : Bool

/-! ## The provider -/

variable {D : Type} [DoubleOps D]

/-- `kPresetPluginId`. -/
def kPresetPluginId : String := "org.clap-validator.preset"

/-- The `description` members of `kInternalPresets`. -/
def descriptions : List String :=
  ["Gain 0 dB, neutral color", "Gain -12 dB, warm color", "Gain +6 dB, bright color"]

/-- The loop over the internal presets, as far as the receiver lets it; `before` are the calls so
    far. -/
def publishInternal (receiver : Receiver) (before : List Call) :
    List (InternalPreset D × String) → List Call
  | [] => []
  | (preset, description) :: rest =>
    if receiver.beginPreset before preset.name (some preset.loadKey) then
      let calls : List Call :=
        [.beginPreset preset.name (some preset.loadKey) true, .addPluginId "clap" kPresetPluginId,
          .setFlags .factory, .setDescription description,
          .addCreator "CLAP Validator Plugin Project"]
      calls ++ publishInternal receiver (before ++ calls) rest
    else [.beginPreset preset.name (some preset.loadKey) false]

/-- `providerGetMetadata`, with what it calls. -/
def providerGetMetadata (D : Type) [DoubleOps D] (receiver : Receiver) (files : FileSystem)
    (before : List Call) (kind : Nat) (location : Option String) : Bool × List Call :=
  if kind = locationPlugin then
    (true, publishInternal receiver before
      ((kInternalPresets : List (InternalPreset D)).zip descriptions))
  else if kind = locationFile then
    match location with
    | none => (false, [])
    | some path =>
      match ((files path).bind fun content => parsePresetFile content.toList :
          Option (PresetData D)) with
      | none =>
        (true, if receiver.hasOnError then [.onError 0 "skipping: not a valid .cvpreset file"]
          else [])
      | some data =>
        if receiver.beginPreset before data.name none then
          (true, [.beginPreset data.name none true, .addPluginId "clap" kPresetPluginId,
            .setFlags .user])
        else (true, [.beginPreset data.name none false])
  else (false, [])

/-! ## The host -/

/-- Where a host looks. -/
structure Place where
  files : FileSystem
  kind : Nat
  location : Option String

/-- What a host takes down about a preset. -/
structure Record where
  place : Place
  name : String
  loadKey : Option String
  pluginIds : List (String × String) := []
  flags : Option Content := none
  description : Option String := none
  creators : List String := []

inductive Phase where
  | idle | described | declined
  deriving DecidableEq, Repr

/-- The presets found, the newest first, and where the host is in this location. -/
structure Index where
  records : List Record
  phase : Phase := .idle

/-- More about the newest preset, if there is one that is being described. -/
def Index.amend (index : Index) (change : Record → Record) : Option Index :=
  match index.phase, index.records with
  | .described, record :: rest => some { index with records := change record :: rest }
  | _, _ => none

/-- What the host does on a call at `place`; none for a call out of order. -/
def Index.receive (place : Place) (index : Index) : Call → Option Index
  | .onError _ _ => some index
  | .beginPreset name loadKey accepted =>
    if index.phase = .declined then none
    else if accepted then
      some { records := { place, name, loadKey } :: index.records, phase := .described }
    else some { index with phase := .declined }
  | .addPluginId abi id =>
    index.amend fun record => { record with pluginIds := record.pluginIds ++ [(abi, id)] }
  | .setFlags flags => index.amend fun record => { record with flags := some flags }
  | .setDescription description =>
    index.amend fun record => { record with description := some description }
  | .addCreator creator =>
    index.amend fun record => { record with creators := record.creators ++ [creator] }

/-- A crawl so far: every call, and the presets found. -/
structure Crawl where
  calls : List Call := []
  records : List Record := []

/-- One location; fails on a call out of order. -/
def crawl (D : Type) [DoubleOps D] (receiver : Receiver) : Machine.Step Crawl Place Bool Unit :=
  fun s place =>
    let (answer, calls) :=
      providerGetMetadata D receiver place.files s.calls place.kind place.location
    match calls.foldlM (Index.receive place) { records := s.records } with
    | none => .error ()
    | some index => .ok ({ calls := s.calls ++ calls, records := index.records }, answer)

/-! ## What is published -/

/-- What a host has down about a preset: it is one of what its place names, under the name the
    plugin calls it by. -/
structure Right (D : Type) [DoubleOps D] (record : Record) : Prop where
  resolves : ∃ data : PresetData D, data.name = record.name ∧
    PresetPlugin.resolve record.place.files record.place.kind record.place.location
      record.loadKey = some data
  pluginIds : record.pluginIds = [("clap", kPresetPluginId)]
  flags : record.flags = some (if record.place.kind = locationPlugin then .factory else .user)

theorem resolve_internal (preset : InternalPreset D) (h : preset ∈ kInternalPresets)
    (files : FileSystem) (location : Option String) :
    PresetPlugin.resolve files locationPlugin location (some preset.loadKey) =
      some { name := preset.name, gain := preset.gain, color := preset.color } := by
  have hnames : ∀ name ∈ ["Unity", "Quiet", "Loud"], snprintf 64 name = name := by
    decide +kernel
  have hfind : findInternalPreset (some preset.loadKey) = some preset ∧
      snprintf 64 preset.name = preset.name := by
    simp only [kInternalPresets, List.mem_cons, List.not_mem_nil, or_false] at h
    rcases h with rfl | rfl | rfl <;> exact ⟨rfl, hnames _ (by simp)⟩
  rw [PresetPlugin.resolve, if_pos rfl, hfind.1, Option.map_some, hfind.2]

/-- The calls for the internal presets come in order, and leave records that are right. -/
theorem publishInternal_received (receiver : Receiver) (place : Place)
    (hkind : place.kind = locationPlugin) (presets : List (InternalPreset D × String))
    (hpresets : ∀ entry ∈ presets, entry.1 ∈ kInternalPresets) :
    ∀ (before : List Call) (index : Index), index.phase ≠ .declined →
      (∀ record ∈ index.records, Right D record) →
      ∃ index', (publishInternal receiver before presets).foldlM (Index.receive place) index =
        some index' ∧ ∀ record ∈ index'.records, Right D record := by
  induction presets with
  | nil => exact fun before index _ h => ⟨index, rfl, h⟩
  | cons entry rest ih =>
    obtain ⟨preset, description⟩ := entry
    intro before index hphase h
    have hresolves := resolve_internal preset (hpresets _ List.mem_cons_self) place.files
      place.location
    unfold publishInternal
    split
    · rw [List.foldlM_append]
      simp only [List.foldlM_cons, List.foldlM_nil, Index.receive, Index.amend, if_neg hphase,
        if_true, Option.bind_eq_bind, Option.bind_some, Option.pure_def]
      refine ih (fun entry he => hpresets entry (List.mem_cons_of_mem _ he)) _ _ nofun ?_
      intro record hrecord
      rcases List.mem_cons.mp hrecord with rfl | hold
      · exact ⟨⟨_, rfl, hkind ▸ hresolves⟩, rfl, by rw [if_pos hkind]⟩
      · exact h record hold
    · refine ⟨{ index with phase := .declined }, ?_, h⟩
      simp [Index.receive, hphase]

/-- So do the calls of every other location. -/
theorem providerGetMetadata_received (receiver : Receiver) (place : Place) (before : List Call)
    {records : List Record} (h : ∀ record ∈ records, Right D record) :
    ∃ index', (providerGetMetadata D receiver place.files before place.kind
        place.location).2.foldlM (Index.receive place) { records := records } = some index' ∧
      ∀ record ∈ index'.records, Right D record := by
  unfold providerGetMetadata
  split
  · rename_i hkind
    exact publishInternal_received receiver place hkind _ (fun entry he => (List.of_mem_zip he).1)
      before _ nofun h
  · rename_i hplugin
    split
    · rename_i hkind
      split
      · exact ⟨_, rfl, h⟩
      · rename_i path hpath
        split
        · split
          · exact ⟨_, rfl, h⟩
          · exact ⟨_, rfl, h⟩
        · rename_i data hdata
          split
          · refine ⟨_, rfl, fun record hrecord => ?_⟩
            rcases List.mem_cons.mp hrecord with rfl | hold
            · refine ⟨⟨data, rfl, ?_⟩, rfl, by rw [if_neg hplugin]⟩
              rw [PresetPlugin.resolve, if_neg hplugin, if_pos hkind, hpath]
              exact hdata
            · exact h record hold
          · exact ⟨_, rfl, h⟩
    · exact ⟨_, rfl, h⟩

theorem crawl_right (receiver : Receiver) (places : List Place) :
    ∀ s : Crawl, (∀ record ∈ s.records, Right D record) →
      ∃ s' answers, Machine.run (crawl D receiver) s places = .ok (s', answers) ∧
        ∀ record ∈ s'.records, Right D record := by
  induction places with
  | nil => exact fun s h => ⟨s, [], rfl, h⟩
  | cons place places ih =>
    intro s h
    obtain ⟨index, hindex, hright⟩ := providerGetMetadata_received receiver place s.calls h
    obtain ⟨s', answers, hrun, hall⟩ := ih { s with
      calls := s.calls ++ (providerGetMetadata D receiver place.files s.calls place.kind
        place.location).2
      records := index.records } hright
    refine ⟨s', _, Machine.run_cons (o := (providerGetMetadata D receiver place.files s.calls
      place.kind place.location).1) ?_ hrun, hall⟩
    unfold crawl
    dsimp only
    rw [hindex]

/-! ## What loads -/

variable {S : Type} [FloatOps S] [FloatCast D S] [DoubleBits D]

/-- What a host is told of a load, by those of `rescan()` and `loaded()` that it has. -/
def told (host : Option Host) (kind : Nat) (location loadKey : Option String) : List HostCall :=
  (if (host.bind (·.params)).any (·.hasRescan) then [.rescanValues] else []) ++
    if (host.bind (·.presetLoad)).any (·.hasLoaded) then [.presetLoaded kind location loadKey]
    else []

/-- The line that names the preset. -/
def loadedLine (data : PresetData D) : String :=
  snprintf 320 ("preset-load: loaded '" ++ data.name ++ "' (gain=" ++
    DoubleOps.formatFixed 1 data.gain ++ " dB, color=" ++ toString (DoubleOps.toInt data.color) ++
    ")")

/-- Behind a load of the preset `data`: its values are the parameters', the host has been told, and
    its name is in the log. -/
structure Loaded (host : Option Host) (data : PresetData D) (kind : Nat)
    (location loadKey : Option String) (q : Plugin D (PresetPlugin.State D))
    (calls : List HostCall) : Prop where
  gain : q.self.params PresetPlugin.kParamGain = data.gain
  color : q.self.params PresetPlugin.kParamColor = data.color
  calls : calls = told host kind location loadKey
  log : q.contract.findings.log.getLast? = some ⟨.info, loadedLine data⟩

section Load

variable {files : FileSystem} {kind : Nat} {location loadKey : Option String}

omit [FloatOps S] [FloatCast D S] [DoubleBits D] in
theorem load_effects {base : Base D} {s : PresetPlugin.State D} {data : PresetData D}
    (hload : s.hostPresetLoad = base.host.bind (·.presetLoad))
    (hparams : s.hostParams = base.host.bind (·.params))
    (hdata : PresetPlugin.resolve files kind location loadKey = some data) :
    ∃ called, (PresetPlugin.presetLoadFromLocation base s files kind location loadKey).effects =
      .log .info called :: (told base.host kind location loadKey).map .host ++
        [.log .info (loadedLine data)] := by
  refine ⟨snprintf 320 ("preset-load: from_location" ++ ("(kind=" ++ toString kind ++
    ", location=" ++ location.getD "null" ++ ", key=" ++ loadKey.getD "null" ++ ")")), ?_⟩
  rw [PresetPlugin.presetLoadFromLocation, hdata]
  simp only [hload, hparams, List.append_assoc, List.cons_append]
  refine congrArg (_ :: ·) ?_
  cases base.host with
  | none => rfl
  | some host =>
    rw [told, Option.bind_some, Option.bind_some]
    rcases host.params with - | ⟨- | -⟩
    all_goals rcases host.presetLoad with - | ⟨-, - | -⟩
    all_goals rfl

omit [DoubleOps D] [DoubleBits D] in
theorem perform_hosts {σ : Type} (calls : List HostCall) : ∀ q : Plugin D σ,
    (calls.map Effect.host).foldl Plugin.perform q =
      { q with hostCalls := q.hostCalls ++ calls } := by
  induction calls with
  | nil =>
    intro q
    rw [List.append_nil]
    rfl
  | cons call calls ih =>
    intro q
    rw [List.map_cons, List.foldl_cons, ih]
    show { q with hostCalls := q.hostCalls ++ [call] ++ calls } = _
    rw [List.append_assoc, List.singleton_append]

/-- `from_location` on an initialized instance of any host. -/
theorem fromLocation_step {host : Option Host} {p : Plugin D (PresetPlugin.State D)}
    (hp : Machine.Reachable (hostStep (PresetPlugin.impl : PluginImpl D S (PresetPlugin.State D)))
      (.alive (Plugin.create (PresetPlugin.impl : PluginImpl D S (PresetPlugin.State D)) host))
      (.alive p))
    (hinit : p.contract.initialized = true) (thread : ThreadId) (files : FileSystem) (kind : Nat)
    (location loadKey : Option String) :
    ∃ q calls, hostStep (PresetPlugin.impl : PluginImpl D S (PresetPlugin.State D)) (.alive p)
        (thread, .presetLoad files kind location loadKey) =
          .ok (.alive q, ⟨.bool (PresetPlugin.resolve files kind location loadKey :
            Option (PresetData D)).isSome, calls⟩) ∧
      ∀ data : PresetData D, PresetPlugin.resolve files kind location loadKey = some data →
        Loaded host data kind location loadKey q calls := by
  have hfound : PresetPlugin.Found S host p := PresetPlugin.found_of_reachable hp
  obtain ⟨hostLoad, hostParams⟩ := hfound.interfaces hinit
  by_cases hreject : kind = locationFile ∧ location = none
  · obtain ⟨rfl, rfl⟩ := hreject
    obtain ⟨q, hstep, -⟩ := PresetPlugin.step_rejected (S := S) p thread files loadKey
    exact ⟨q, [], hstep, fun _ h => (Option.some_ne_none _ h.symm).elim⟩
  · obtain ⟨q, hself, hhost, hcalls, hstep⟩ :=
      PresetPlugin.step_forwarded (S := S) p thread files loadKey hreject
    obtain rfl : q.base.host = host := hhost.trans hfound.offered
    cases hdata : (PresetPlugin.resolve files kind location loadKey : Option (PresetData D)) with
    | none =>
      simp only [PresetPlugin.presetLoadFromLocation, hdata] at hstep
      exact ⟨_, _, hstep, fun _ h => (Option.some_ne_none _ h.symm).elim⟩
    | some data =>
      obtain ⟨called, heffects⟩ := load_effects hostLoad hostParams hdata
      let out := PresetPlugin.presetLoadFromLocation q.base p.self files kind location loadKey
      obtain ⟨hvalue, hparams⟩ : out.value = true ∧ out.self.params = Function.update
          (Function.update p.self.params PresetPlugin.kParamGain data.gain)
          PresetPlugin.kParamColor data.color := by
        simp only [out, PresetPlugin.presetLoadFromLocation, hdata, and_self]
      refine ⟨q.absorb out, (q.absorb out).hostCalls, hstep.trans ?_, ?_⟩
      · show Except.ok (Instance.alive (q.absorb out), (⟨.bool out.value, _⟩ : Reply D S)) = _
        rw [hvalue]
        rfl
      rintro _ ⟨⟩
      have hq : q.absorb out = Plugin.perform { Plugin.perform { q with self := out.self }
          (.log .info called) with hostCalls := told q.base.host kind location loadKey }
            (.log .info (loadedLine data)) := by
        rw [Plugin.absorb, heffects, List.foldl_concat, List.foldl_cons, perform_hosts]
        show Plugin.perform { Plugin.perform { q with self := out.self } (.log .info called) with
          hostCalls := q.hostCalls ++ _ } _ = _
        rw [hcalls, List.nil_append]
      refine ⟨?_, ?_, ?_, ?_⟩
      · rw [Plugin.absorb_self, hparams]
        rfl
      · rw [Plugin.absorb_self, hparams]
        rfl
      · rw [hq]
        rfl
      · rw [hq]
        exact List.getLast?_concat

end Load

theorem reachable_initialized : Machine.Reachable
    (hostStep (PresetPlugin.impl : PluginImpl ExactFloat ExactFloat _))
    (.alive PresetPlugin.created) (.alive PresetPlugin.initialized) := ⟨[(0, .init [])], _, rfl⟩

/-- Accepts every preset. -/
def everything : Receiver := { beginPreset := fun _ _ _ => true, hasOnError := true }

/-- A preset is begun and accepted among the calls. -/
def Published (calls : List Call) (name : String) (loadKey : Option String) : Prop :=
  .beginPreset name loadKey true ∈ calls

omit [DoubleOps D] [FloatOps S] [FloatCast D S] [DoubleBits D] in
theorem publishInternal_all {receiver : Receiver}
    (hall : ∀ before name loadKey, receiver.beginPreset before name loadKey = true)
    (presets : List (InternalPreset D × String)) : ∀ (before : List Call) (name : String)
      (loadKey : Option String),
      Published (publishInternal receiver before presets) name loadKey ↔
        ∃ entry ∈ presets, entry.1.name = name ∧ some entry.1.loadKey = loadKey := by
  induction presets with
  | nil => exact fun before name loadKey => ⟨nofun, fun ⟨_, h, _⟩ => nomatch h⟩
  | cons entry rest ih =>
    obtain ⟨preset, description⟩ := entry
    intro before name loadKey
    unfold publishInternal
    rw [if_pos (hall _ _ _)]
    unfold Published at ih ⊢
    rw [List.mem_append, ih]
    simp [eq_comm]

omit [FloatOps S] [FloatCast D S] [DoubleBits D] in
theorem exists_description {preset : InternalPreset D} (h : preset ∈ kInternalPresets) :
    ∃ description, (preset, description) ∈
      (kInternalPresets : List (InternalPreset D)).zip descriptions := by
  simp only [kInternalPresets, List.mem_cons, List.not_mem_nil, or_false] at h
  rcases h with rfl | rfl | rfl
  · exact ⟨_, .head _⟩
  · exact ⟨_, .tail _ (.head _)⟩
  · exact ⟨_, .tail _ (.tail _ (.head _))⟩

omit [FloatOps S] [FloatCast D S] [DoubleBits D] in
/-- A key of the internal presets is published, or for a file the file, exactly if it names a
    preset. -/
theorem published_iff_resolve {receiver : Receiver}
    (hall : ∀ before name loadKey, receiver.beginPreset before name loadKey = true)
    (files : FileSystem) (before : List Call) (kind : Nat) (location loadKey : Option String) :
    (∃ name key, Published (providerGetMetadata D receiver files before kind location).2 name key ∧
        (kind = locationPlugin → key = loadKey)) ↔
      (PresetPlugin.resolve files kind location loadKey : Option (PresetData D)).isSome = true := by
  unfold providerGetMetadata
  by_cases hplugin : kind = locationPlugin
  · subst hplugin
    rw [if_pos rfl, PresetPlugin.resolve, if_pos rfl, Option.isSome_map]
    simp only [publishInternal_all hall, true_imp_iff]
    constructor
    · rintro ⟨name, key, ⟨⟨preset, description⟩, hentry, -, hkey⟩, rfl⟩
      have hmem : preset ∈ (kInternalPresets : List (InternalPreset D)) :=
        (List.of_mem_zip hentry).1
      rw [← hkey]
      exact List.find?_isSome.mpr ⟨preset, hmem, beq_self_eq_true _⟩
    · intro hfound
      cases loadKey with
      | none => cases hfound
      | some key =>
        obtain ⟨preset, hmem, hkey⟩ := List.find?_isSome.mp hfound
        obtain ⟨description, hentry⟩ := exists_description hmem
        exact ⟨preset.name, some key, ⟨_, hentry, rfl, congrArg some (eq_of_beq hkey)⟩, rfl⟩
  · rw [if_neg hplugin, PresetPlugin.resolve, if_neg hplugin]
    by_cases hfile : kind = locationFile
    · rw [if_pos hfile, if_pos hfile]
      cases location with
      | none => simp [Published]
      | some path =>
        dsimp only [Option.bind_some]
        cases (files path).bind fun content => (parsePresetFile content.toList :
            Option (PresetData D)) with
        | none =>
          cases receiver.hasOnError <;> simp [Published]
        | some data =>
          simp [Published, hall, hplugin]
    · rw [if_neg hfile, if_neg hfile]
      simp [Published]

/-- A host that accepts every preset finds what there is to load, and nothing else: `from_location`
    returns true exactly if `get_metadata` at the location publishes a preset, for the internal ones
    one with the load key. -/
theorem loads_iff_published {host : Option Host} {p : Plugin D (PresetPlugin.State D)}
    (hp : Machine.Reachable (hostStep (PresetPlugin.impl : PluginImpl D S (PresetPlugin.State D)))
      (.alive (Plugin.create (PresetPlugin.impl : PluginImpl D S (PresetPlugin.State D)) host))
      (.alive p))
    (hinit : p.contract.initialized = true) (thread : ThreadId) {receiver : Receiver}
    (hall : ∀ before name loadKey, receiver.beginPreset before name loadKey = true)
    (files : FileSystem) (before : List Call) (kind : Nat) (location loadKey : Option String) :
    (∃ q calls, hostStep (PresetPlugin.impl : PluginImpl D S (PresetPlugin.State D)) (.alive p)
        (thread, .presetLoad files kind location loadKey) =
          .ok (.alive q, ⟨.bool true, calls⟩)) ↔
      ∃ name key, Published (providerGetMetadata D receiver files before kind location).2 name key ∧
        (kind = locationPlugin → key = loadKey) := by
  obtain ⟨q, calls, hstep, -⟩ := fromLocation_step hp hinit thread files kind location loadKey
  rw [published_iff_resolve hall]
  constructor
  · rintro ⟨q', calls', hstep'⟩
    rw [hstep] at hstep'
    exact Result.bool.inj (congrArg Reply.result (Prod.mk.inj (Except.ok.inj hstep')).2)
  · intro hsome
    rw [hsome] at hstep
    exact ⟨q, calls, hstep⟩

theorem loads_iff_published_loud :
    ∃ name key, Published (providerGetMetadata ExactFloat everything (fun _ => none) []
      locationPlugin none).2 name key ∧ (locationPlugin = locationPlugin →
        key = some "internal:loud") := by
  have hall : ∀ before name loadKey, everything.beginPreset before name loadKey = true :=
    fun _ _ _ => rfl
  exact (loads_iff_published (S := ExactFloat) reachable_initialized rfl 0 hall
    (fun _ => none) [] locationPlugin none (some "internal:loud")).mp ⟨_, _, rfl⟩

/-! ## The sample files -/

/-- The preset directory as a reader finds it. -/
def reads (dir : Directory) : FileSystem := fun path =>
  match dir path with
  | some (.file content) => some (String.ofList content)
  | _ => none

/-- What the two sample files are for. -/
def samplePresets : List (String × PresetData D) :=
  [("validator-sample-soft.cvpreset",
    { name := "Sample Soft", gain := DoubleOps.strtod "-6.0".toList
      color := DoubleOps.strtod "3".toList }),
   ("validator-sample-hot.cvpreset",
    { name := "Sample Hot", gain := DoubleOps.strtod "12.0".toList
      color := DoubleOps.strtod "2".toList })]

omit [FloatOps S] [FloatCast D S] [DoubleBits D] in
theorem sample_resolves {dir : Directory} {sample : SampleFile} (h : sample ∈ kSampleFiles)
    (hdir : dir sample.fileName = some (.file sample.content)) :
    ∃ data : PresetData D, (sample.fileName, data) ∈ samplePresets ∧ ∀ loadKey,
      PresetPlugin.resolve (reads dir) locationFile (some sample.fileName) loadKey = some data := by
  have hreads : reads dir sample.fileName = some (String.ofList sample.content) := by
    rw [reads, hdir]
  have hresolve (loadKey : Option String) :
      PresetPlugin.resolve (reads dir) locationFile (some sample.fileName) loadKey =
        (parsePresetFile sample.content : Option (PresetData D)) := by
    rw [PresetPlugin.resolve, if_neg (by decide), if_pos rfl, Option.bind_some, hreads,
      Option.bind_some, String.toList_ofList]
  simp only [hresolve]
  simp only [kSampleFiles, List.mem_cons, List.not_mem_nil, or_false] at h
  rcases h with rfl | rfl
  · exact ⟨_, .head _, fun _ => rfl⟩
  · exact ⟨_, .tail _ (.head _), fun _ => rfl⟩

/-- In a directory without the sample files, over every run of `ensureSamplePresetFiles`, however
    often called and wherever killed, as long as what is written gets through: whenever a sample
    file is there, every initialized instance loads it, with the values it is for. -/
theorem samples_load (host : Option Host) {initial : Directory}
    (hfree : ∀ sample ∈ kSampleFiles, initial sample.fileName = none)
    {outcomes : List Preset.Outcome}
    (hthrough : Machine.AllSteps step GetsThrough { dir := initial } outcomes) :
    Machine.AllStates step (fun disk => ∀ sample ∈ kSampleFiles, disk.dir sample.fileName ≠ none →
      ∃ data : PresetData D, (sample.fileName, data) ∈ samplePresets ∧
        ∀ p, Machine.Reachable
            (hostStep (PresetPlugin.impl : PluginImpl D S (PresetPlugin.State D)))
            (.alive (Plugin.create (PresetPlugin.impl : PluginImpl D S (PresetPlugin.State D))
              host)) (.alive p) →
          p.contract.initialized = true → ∀ thread loadKey, ∃ q calls,
          hostStep (PresetPlugin.impl : PluginImpl D S (PresetPlugin.State D)) (.alive p)
            (thread, .presetLoad (reads disk.dir) locationFile (some sample.fileName) loadKey) =
              .ok (.alive q, ⟨.bool true, calls⟩) ∧
          Loaded host data locationFile (some sample.fileName) loadKey q calls)
      { dir := initial } outcomes := by
  refine (kept_of_outcomes initial hthrough).imp fun disk hkept sample hsample hthere => ?_
  rcases hkept sample hsample with hold | ⟨-, hfull⟩
  · exact absurd (hold.trans (hfree sample hsample)) hthere
  · obtain ⟨data, hdata, hresolve⟩ := sample_resolves (D := D) hsample hfull
    refine ⟨data, hdata, fun p hp hinit thread loadKey => ?_⟩
    obtain ⟨q, calls, hstep, hloaded⟩ := fromLocation_step hp hinit thread (reads disk.dir)
      locationFile (some sample.fileName) loadKey
    rw [hresolve] at hstep
    exact ⟨q, calls, hstep, hloaded data (hresolve loadKey)⟩

/-- The first sample is written, and "Sample Soft" loads. -/
theorem samples_load_soft :
    let outcomes : List Preset.Outcome :=
      [.call, .directory true, .check false, .open true, .write 100, .close, .rename true]
    ∃ disk os q calls, ∃ data : PresetData ExactFloat,
      Machine.run step { dir := fun _ => none } outcomes = .ok (disk, os) ∧
      data.name = "Sample Soft" ∧
      hostStep (PresetPlugin.impl : PluginImpl ExactFloat ExactFloat _)
        (.alive PresetPlugin.initialized) (0, .presetLoad (reads disk.dir) locationFile
          (some "validator-sample-soft.cvpreset") none) = .ok (.alive q, ⟨.bool true, calls⟩) ∧
      Loaded (some PresetPlugin.loadingHost) data locationFile
        (some "validator-sample-soft.cvpreset") none q calls := by
  intro outcomes
  have hthrough : Machine.AllSteps step GetsThrough { dir := fun _ => none } outcomes := by
    refine (Machine.allSteps_cons rfl).mpr ⟨⟨nofun, nofun⟩, ?_⟩
    refine (Machine.allSteps_cons rfl).mpr ⟨⟨nofun, nofun⟩, ?_⟩
    refine (Machine.allSteps_cons rfl).mpr ⟨⟨nofun, fun _ _ _ _ => rfl⟩, ?_⟩
    refine (Machine.allSteps_cons rfl).mpr ⟨⟨nofun, nofun⟩, ?_⟩
    refine (Machine.allSteps_cons rfl).mpr ⟨⟨nofun, nofun⟩, ?_⟩
    refine (Machine.allSteps_cons rfl).mpr ⟨⟨?_, nofun⟩, ?_⟩
    · rintro - _ _ _ ⟨⟩
      rfl
    refine (Machine.allSteps_cons rfl).mpr ⟨⟨nofun, nofun⟩, trivial⟩
  obtain ⟨⟨disk, os⟩, hrun⟩ : ∃ r, Machine.run step { dir := fun _ => none } outcomes = .ok r :=
    ⟨_, rfl⟩
  have hdir : disk.dir "validator-sample-soft.cvpreset" ≠ none := by
    cases hrun
    decide
  obtain ⟨data, hdata, hloads⟩ := (samples_load (S := ExactFloat) (D := ExactFloat)
    (some PresetPlugin.loadingHost) (fun _ _ => rfl) hthrough).last hrun _ List.mem_cons_self hdir
  obtain ⟨q, calls, hstep, hloaded⟩ := hloads _ reachable_initialized rfl 0 none
  obtain rfl : data = _ := by simpa [samplePresets] using hdata
  exact ⟨disk, os, q, calls, _, hrun, rfl, hstep, hloaded⟩

end Cvp.Metadata
