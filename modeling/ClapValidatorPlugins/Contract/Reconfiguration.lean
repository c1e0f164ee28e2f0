/-
  How the surround flavor is switched to another layout. `apply_configuration()` takes a list of
  requests as a whole: if they all ask for one layout of the table it is in force behind the call,
  on both ports and with the map that was asked for; if not, nothing has changed. What is accepted
  is what `can_apply_configuration()` says (`reconfiguration`).
-/
import ClapValidatorPlugins.Contract.ExtensionCalls

namespace Cvp.SurroundPlugin

/-! ## What a request asks for -/

/-- The request asks for the layout: on port 0, as a surround port or without a type, with its
    channel count and, where it brings a map, with its map. -/
structure AsksFor (layout : Layout) (request : PortConfigRequest) : Prop where
  port : request.portIndex = 0
  type : ∀ type ∈ request.portType, type = .surround
  channels : request.channelCount = layout.channelCount
  map : ∀ map ∈ request.portDetails, map.take request.channelCount = layout.channelMap

/-- A list that is not empty and asks for one layout. -/
def AgreeOn (layout : Layout) (requests : PortConfigRequests) : Prop :=
  ∃ list, requests = some list ∧ list ≠ [] ∧ ∀ request ∈ list, AsksFor layout request

/-- The channel counts of the table differ. -/
theorem layoutWithChannels_iff {channelCount l : Nat} :
    layoutWithChannels channelCount = some l ↔
      l < kLayouts.length ∧ (layoutAt l).channelCount = channelCount := by
  have hsearch : layoutWithChannels channelCount =
      if 8 = channelCount then some 2 else if 6 = channelCount then some 1
      else if 4 = channelCount then some 0 else none := rfl
  have hcounts : ∀ l < kLayouts.length, (layoutAt l).channelCount = 4 + 2 * l := by decide
  have hlength : kLayouts.length = 3 := rfl
  rw [hsearch]
  constructor
  · intro h
    split_ifs at h with h8 h6 h4
    all_goals
      cases h
      exact ⟨by decide, by rw [hcounts _ (by decide)]; omega⟩
  · rintro ⟨hl, hcount⟩
    rw [hcounts l hl] at hcount
    split_ifs
    all_goals first
      | exact congrArg some (by omega)
      | omega

/-- The request brings a map that is not the layout's. -/
def foreignMap (layout : Layout) (request : PortConfigRequest) : Bool :=
  match request.portDetails with
  | some map => map.take request.channelCount != layout.channelMap
  | none => false

theorem foreignMap_eq_false {layout : Layout} {request : PortConfigRequest} :
    foreignMap layout request = false ↔
      ∀ map ∈ request.portDetails, map.take request.channelCount = layout.channelMap := by
  unfold foreignMap
  cases request.portDetails with
  | none => exact ⟨fun _ => nofun, fun _ => rfl⟩
  | some map =>
    rw [bne_eq_false_iff_eq]
    exact ⟨fun h _ hmap => Option.some_inj.mp hmap ▸ h, fun h => h map rfl⟩

theorem acceptRequest_eq (layoutIndex : Option Nat) (request : PortConfigRequest) :
    acceptRequest layoutIndex request =
      if request.portIndex ≠ 0 then none
      else if request.portType.isSome ∧ request.portType ≠ some .surround then none
      else match layoutWithChannels request.channelCount with
        | none => none
        | some l =>
          if foreignMap (layoutAt l) request = true then none
          else if ∀ index ∈ layoutIndex, index = l then some (some l)
          else none := by
  unfold acceptRequest
  cases layoutIndex with
  | none =>
    have hnone : ∀ l, ∀ index ∈ (none : Option Nat), index = l := fun _ => nofun
    simp only [if_pos (hnone _)]
    rfl
  | some index =>
    have hsome : ∀ l, (∀ i ∈ some index, i = l) ↔ index = l :=
      fun l => ⟨fun h => h index rfl, fun h i hi => (Option.some_inj.mp hi).symm.trans h⟩
    simp only [hsome]
    rfl

/-- The loop body accepts what asks for a layout, the first one met from then on. -/
theorem acceptRequest_iff {layoutIndex found : Option Nat} {request : PortConfigRequest} :
    acceptRequest layoutIndex request = some found ↔
      ∃ l, found = some l ∧ l < kLayouts.length ∧ AsksFor (layoutAt l) request ∧
        ∀ index ∈ layoutIndex, index = l := by
  rw [acceptRequest_eq]
  constructor
  · intro h
    split at h
    · cases h
    · rename_i hport
      split at h
      · cases h
      · rename_i htype
        split at h
        · cases h
        · rename_i l hl
          split at h
          · cases h
          · rename_i hmap
            split at h
            · rename_i hsame
              cases h
              obtain ⟨hlength, hcount⟩ := layoutWithChannels_iff.mp hl
              refine ⟨l, rfl, hlength, ⟨Decidable.not_not.mp hport, fun type ht => ?_,
                hcount.symm, foreignMap_eq_false.mp ((Bool.not_eq_true _).mp hmap)⟩, hsame⟩
              rw [Option.mem_def.mp ht] at htype
              by_contra hne
              exact htype ⟨rfl, fun heq => hne (Option.some_inj.mp heq)⟩
            · cases h
  · rintro ⟨l, rfl, hlength, hasks, hsame⟩
    have htype : ¬ (request.portType.isSome ∧ request.portType ≠ some .surround) := by
      rintro ⟨hsome, hne⟩
      obtain ⟨type, ht⟩ := Option.isSome_iff_exists.mp hsome
      exact hne (ht.trans (congrArg some (hasks.type type ht)))
    rw [if_neg (Decidable.not_not.mpr hasks.port), if_neg htype,
      layoutWithChannels_iff.mpr ⟨hlength, hasks.channels.symm⟩]
    dsimp only
    rw [foreignMap_eq_false.mpr hasks.map, if_neg Bool.false_ne_true, if_pos hsame]

/-- The loop from a layout on: all requests ask for it. -/
theorem foldlM_acceptRequest {requests : List PortConfigRequest} {l : Nat} {found : Option Nat}
    (hl : l < kLayouts.length) :
    requests.foldlM acceptRequest (some l) = some found ↔
      found = some l ∧ ∀ request ∈ requests, AsksFor (layoutAt l) request := by
  induction requests with
  | nil => exact ⟨fun h => ⟨(Option.some_inj.mp h).symm, nofun⟩, fun h => congrArg some h.1.symm⟩
  | cons request requests ih =>
    rw [List.foldlM_cons]
    constructor
    · intro h
      obtain ⟨next, hnext, hrest⟩ := Option.bind_eq_some_iff.mp h
      obtain ⟨l', rfl, -, hasks, hsame⟩ := acceptRequest_iff.mp hnext
      obtain rfl := hsame l rfl
      obtain ⟨hfound, hall⟩ := ih.mp hrest
      exact ⟨hfound, List.forall_mem_cons.mpr ⟨hasks, hall⟩⟩
    · rintro ⟨hfound, hall⟩
      obtain ⟨hasks, hrest⟩ := List.forall_mem_cons.mp hall
      have hnext : acceptRequest (some l) request = some (some l) :=
        acceptRequest_iff.mpr ⟨l, rfl, hl, hasks, fun index h => (Option.some_inj.mp h).symm⟩
      exact Option.bind_eq_some_iff.mpr ⟨some l, hnext, ih.mpr ⟨hfound, hrest⟩⟩

/-- A layout is found if the list agrees on it. -/
theorem layoutForRequests_iff {requests : PortConfigRequests} {l : Nat} :
    layoutForRequests requests = some l ↔
      l < kLayouts.length ∧ AgreeOn (layoutAt l) requests := by
  unfold layoutForRequests AgreeOn
  cases requests with
  | none => exact ⟨nofun, fun ⟨_, _, h, _⟩ => nomatch h⟩
  | some requests =>
    dsimp only
    rw [Option.join_eq_some_iff]
    cases requests with
    | nil => exact ⟨nofun, fun ⟨_, _, h, hne, _⟩ => absurd (Option.some_inj.mp h).symm hne⟩
    | cons request requests =>
      rw [List.foldlM_cons]
      constructor
      · intro h
        obtain ⟨next, hnext, hrest⟩ := Option.bind_eq_some_iff.mp h
        obtain ⟨first, rfl, hlength, hasks, -⟩ := acceptRequest_iff.mp hnext
        obtain ⟨hfound, hall⟩ := (foldlM_acceptRequest hlength).mp hrest
        cases hfound
        exact ⟨hlength, _, rfl, List.cons_ne_nil _ _, List.forall_mem_cons.mpr ⟨hasks, hall⟩⟩
      · rintro ⟨hlength, _, ⟨⟩, -, hall⟩
        obtain ⟨hasks, hrest⟩ := List.forall_mem_cons.mp hall
        have hnext : acceptRequest none request = some (some l) :=
          acceptRequest_iff.mpr ⟨l, rfl, hlength, hasks, nofun⟩
        exact Option.bind_eq_some_iff.mpr
          ⟨some l, hnext, (foldlM_acceptRequest hlength).mpr ⟨rfl, hrest⟩⟩

/-- A list agrees on a layout of the table exactly if one is found for it. -/
theorem layoutForRequests_isSome {requests : PortConfigRequests} :
    (layoutForRequests requests).isSome = true ↔ ∃ layout ∈ kLayouts, AgreeOn layout requests := by
  have hat : ∀ l (hl : l < kLayouts.length), layoutAt l = kLayouts[l] :=
    fun l hl => (List.getD_eq_getElem?_getD ..).trans (by rw [List.getElem?_eq_getElem hl]; rfl)
  rw [Option.isSome_iff_exists]
  constructor
  · rintro ⟨l, hl⟩
    obtain ⟨hlength, hagree⟩ := layoutForRequests_iff.mp hl
    refine ⟨layoutAt l, ?_, hagree⟩
    rw [hat l hlength]
    exact List.getElem_mem hlength
  · rintro ⟨layout, hmem, hagree⟩
    obtain ⟨l, hlength, rfl⟩ := List.mem_iff_getElem.mp hmem
    rw [← hat l hlength] at hagree
    exact ⟨l, layoutForRequests_iff.mpr ⟨hlength, hagree⟩⟩

variable {D S : Type}

theorem canApplyConfiguration_value (base : Base D) (h : base.isActive = false) (s : State D)
    (requests : PortConfigRequests) :
    (canApplyConfiguration base s requests).value = (layoutForRequests requests).isSome := by
  unfold canApplyConfiguration
  rw [h, if_neg Bool.false_ne_true]

/-- What is found is put in force, and nothing else is. -/
theorem applyConfiguration_eq (base : Base D) (h : base.isActive = false) (s : State D)
    (requests : PortConfigRequests) :
    (applyConfiguration base s requests).value = (layoutForRequests requests).isSome ∧
      (applyConfiguration base s requests).self =
        { s with layoutIndex := (layoutForRequests requests).getD s.layoutIndex } := by
  unfold applyConfiguration
  rw [h, if_neg Bool.false_ne_true]
  cases layoutForRequests requests <;> exact ⟨rfl, rfl⟩

/-! ## Behind the call -/

variable [DoubleOps D] [FloatOps S] [FloatCast D S] [DoubleBits D]

/-- Both ports have the channels that were requested, and `get_channel_map()` with room for them
    returns the map that came with the request. -/
structure Honours (S : Type) [FloatOps S] [FloatCast D S] (p : Plugin D (State D))
    (request : PortConfigRequest) : Prop where
  ports : ∀ thread isInput, ∃ q info,
    Plugin.AudioPorts.sGet (impl : PluginImpl D S (State D)) p thread 0 isInput =
        .ok (q, some info) ∧
      info.channelCount = request.channelCount
  map : ∀ map ∈ request.portDetails, ∀ thread isInput capacity,
    request.channelCount ≤ capacity → ∃ q,
      Plugin.Surround.sGetChannelMap (impl : PluginImpl D S (State D)) p thread isInput 0 capacity =
        .ok (q, map.take request.channelCount)

omit [DoubleOps D] [DoubleBits D] in
theorem surroundChannelMap_value (s : State D) (isInput : Bool) {capacity : Nat}
    (hroom : (layout s).channelCount ≤ capacity) :
    (surroundChannelMap s isInput 0 capacity).value = (layout s).channelMap := by
  unfold surroundChannelMap
  rw [if_neg (Nat.not_lt.mpr hroom)]
  rfl

theorem honours_of_asksFor {p : Plugin D (State D)} {request : PortConfigRequest}
    (h : AsksFor (layout p.self) request) : Honours S p request := by
  refine ⟨fun thread isInput => ⟨_, _, rfl, ?_⟩, fun map hmap thread isInput capacity hroom => ?_⟩
  · have hscan : ((p.assertMainThread thread "sGet").checkNoScan .AP01 "audio_ports.get()").self =
        p.self := Plugin.reportIf_self _ _ _ _ _
    dsimp only
    rw [hscan, h.channels]
  · have hcheck := (Plugin.moves_checkCapacity (impl : PluginImpl D S (State D))
      (p.assertMainThread thread "sGetChannelMap") isInput 0 capacity).2
    refine ⟨_, congrArg Except.ok (Prod.ext rfl ?_)⟩
    rw [h.map map hmap, ← surroundChannelMap_value p.self isInput (h.channels.symm.trans_le hroom)]
    exact congrArg (fun s => (surroundChannelMap s isInput 0 capacity).value) hcheck

section Inactive

variable {p : Plugin D (State D)} (h : p.contract.active = false) (thread : ThreadId)
  (requests : PortConfigRequests)

include h

theorem sCanApply_of_inactive :
    ∃ q, Plugin.ConfigurableAudioPorts.sCanApply (impl : PluginImpl D S (State D)) p thread
        requests = .ok (q, (layoutForRequests requests).isSome) := by
  have hactive := (Plugin.moves_assertMainThread p thread "sCanApply").active.trans h
  unfold Plugin.ConfigurableAudioPorts.sCanApply
  dsimp only
  rw [hactive, if_neg Bool.false_ne_true]
  refine ⟨_, congrArg (fun b => Except.ok (_, b)) ?_⟩
  exact canApplyConfiguration_value (p.assertMainThread thread "sCanApply").base hactive _ requests

theorem sApply_of_inactive :
    ∃ q, Plugin.ConfigurableAudioPorts.sApply (impl : PluginImpl D S (State D)) p thread requests =
        .ok (q, (layoutForRequests requests).isSome) ∧
      q.self = { p.self with
        layoutIndex := (layoutForRequests requests).getD p.self.layoutIndex } := by
  have hactive := (Plugin.moves_assertMainThread p thread "sApply").active.trans h
  obtain ⟨hvalue, hself⟩ := applyConfiguration_eq (p.assertMainThread thread "sApply").base hactive
    p.self requests
  unfold Plugin.ConfigurableAudioPorts.sApply
  dsimp only
  rw [hactive, if_neg Bool.false_ne_true]
  exact ⟨_, congrArg (fun b => Except.ok (_, b)) hvalue, (Plugin.absorb_self _ _).trans hself⟩

end Inactive

/-- Every request list, in every state: `apply_configuration()` answers as
    `can_apply_configuration()` does, which is whether the plugin is inactive and the list agrees on
    a layout of the table. Then every request is honoured; if not, nothing has changed. -/
theorem reconfiguration (p : Plugin D (State D)) (thread : ThreadId)
    (requests : PortConfigRequests) :
    ∃ asked applied done,
      Plugin.ConfigurableAudioPorts.sCanApply (impl : PluginImpl D S (State D)) p thread requests =
        .ok (asked, done) ∧
      Plugin.ConfigurableAudioPorts.sApply (impl : PluginImpl D S (State D)) p thread requests =
        .ok (applied, done) ∧
      (done = true ↔
        p.contract.active = false ∧ ∃ layout ∈ kLayouts, AgreeOn layout requests) ∧
      (done = true → ∀ request ∈ requests.getD [], Honours S applied request) ∧
      (done = false → applied.self = p.self) := by
  cases hactive : p.contract.active with
  | true =>
    have hcan := (Plugin.moves_assertMainThread p thread "sCanApply").active.trans hactive
    have happly := (Plugin.moves_assertMainThread p thread "sApply").active.trans hactive
    unfold Plugin.ConfigurableAudioPorts.sCanApply Plugin.ConfigurableAudioPorts.sApply
    dsimp only
    rw [hcan, happly, if_pos rfl, if_pos rfl]
    exact ⟨_, _, _, rfl, rfl, ⟨nofun, fun h => nomatch h.1⟩, nofun, fun _ => rfl⟩
  | false =>
    obtain ⟨asked, hasked⟩ := sCanApply_of_inactive (S := S) hactive thread requests
    obtain ⟨applied, happlied, hself⟩ := sApply_of_inactive (S := S) hactive thread requests
    refine ⟨asked, applied, _, hasked, happlied, ?_, fun hfound => ?_, fun hnone => ?_⟩
    · rw [layoutForRequests_isSome]
      exact (and_iff_right rfl).symm
    · obtain ⟨l, hl⟩ := Option.isSome_iff_exists.mp hfound
      obtain ⟨-, list, hlist, -, hall⟩ := layoutForRequests_iff.mp hl
      intro request hrequest
      rw [hlist] at hrequest
      refine honours_of_asksFor ?_
      rw [hself, hl]
      exact hall request hrequest
    · rw [hself, Option.isSome_eq_false_iff.mp hnone |> Option.isNone_iff_eq_none.mp]
      rfl

end Cvp.SurroundPlugin
