/-
  Blocks and parameter events that keep the rules of process.h, events.h and params.h, said
  against the ports and parameters a flavor declares. The data checks report nothing about them
  (`blockFindings_nil`, `flushFindings_nil`).
-/
import ClapValidatorPlugins.Contract.PortFormats

namespace Cvp

variable {D : Type}

/-! ## The rules -/

/-- A buffer as its declared port wants it. -/
structure LegalBuffer (layout : PortLayout) (buffer : AudioBuffer) : Prop where
  channels : buffer.channelCount = layout.channels
  hasData : buffer.data32.isSome ∨ buffer.data64.isSome
  supported : buffer.data64.isSome → layout.flags.supports64Bits

structure LegalEvent (framesCount : UInt32) (e : Event D) : Prop where
  wellFormed : sizeofEventHeader ≤ e.size
  inBlock : e.time < framesCount.toNat

/-- The parameter is declared, and whatever is declared under its id allows the event. -/
def LegalTarget (params : List ParamRecord) (target : ParamTarget) (allowed : ParamFlags → Prop) :
    Prop :=
  (∃ param ∈ params, param.id = target.paramId) ∧
    ∀ param ∈ params, param.id = target.paramId →
      (target.cookie = none ∨ target.cookie = param.cookie) ∧ allowed param.flags

/-- What a PARAM_VALUE needs. -/
def AllowsValue (playing : Bool) (flags : ParamFlags) : Prop :=
  flags.isReadonly = false ∧ (playing = true → flags.isAutomatable = true)

/-- What a PARAM_MOD needs: the parameter is modulatable in the way it is addressed. -/
def AllowsMod (target : ParamTarget) (flags : ParamFlags) : Prop :=
  flags.isModulatable = true ∧ (0 ≤ target.noteId → flags.isModulatablePerNoteId = true) ∧
    (0 ≤ target.key → flags.isModulatablePerKey = true) ∧
    (0 ≤ target.channel → flags.isModulatablePerChannel = true)

def LegalParamEvent (params : List ParamRecord) (playing : Bool) (e : Event D) : Prop :=
  e.isCore = true →
    match e.body with
    | .paramValue target _ => LegalTarget params target (AllowsValue playing)
    | .paramMod target _ => LegalTarget params target (AllowsMod target)
    | _ => True

/-- `steady` is the earliest steady time the block may carry, where there is a bound. -/
structure LegalBlock (ports : Bool → List PortLayout) (params : List ParamRecord)
    (minFrames maxFrames : Nat) (steady : Option Int) (block : ProcessBlock D) : Prop where
  frames : minFrames ≤ block.framesCount.toNat ∧ block.framesCount.toNat ≤ maxFrames
  steadyTime : block.steadyTime = -1 ∨
    0 ≤ block.steadyTime ∧ block.steadyTime + block.framesCount.toNat < 2 ^ 63 ∧
      ∀ earliest ∈ steady, earliest ≤ block.steadyTime
  buffers : ∀ isInput, List.Forall₂ LegalBuffer (ports isInput) (block.buffers isInput)
  commonSize :
    (∃ isInput, ∃ layout ∈ ports isInput, layout.flags.requiresCommonSampleSize = true) →
      ∃ is64, ∀ isInput, ∀ buffer ∈ block.buffers isInput, buffer.data64.isSome = is64
  events : ∃ es : List (Event D), readableEvents block.inEvents = es.map some ∧
    es.Pairwise (fun a b => a.time ≤ b.time) ∧
    ∀ e ∈ es, LegalEvent block.framesCount e ∧
      LegalParamEvent params (isPlaying block.transport) e

/-- Events of a `flush()`, where no transport plays. -/
def LegalFlush (params : List ParamRecord) (events : Option (InputEvents D)) : Prop :=
  ∀ e, some e ∈ readableEvents events → LegalParamEvent params false e

/-! ## Ports -/

theorem portFindings_nil {layout : PortLayout} {buffer : AudioBuffer}
    (h : LegalBuffer layout buffer) (isInput : Bool) (i : Nat) :
    portFindings isInput i layout buffer = [] := by
  have hdata := h.hasData
  have hsupported := h.supported
  unfold portFindings
  dsimp only
  rw [if_neg (not_not_intro h.channels), List.nil_append]
  cases h32 : buffer.data32.isSome <;> cases h64 : buffer.data64.isSome <;>
    cases hs : layout.flags.supports64Bits <;> simp_all

theorem mem_portBuffers {layouts : List PortLayout} {buffers : List AudioBuffer}
    {p : PortBuffer} (h : p ∈ portBuffers layouts buffers) :
    (p.layout, p.buffer) ∈ layouts.zip buffers := by
  rw [portBuffers, ← List.map_uncurry_zip_eq_zipWith] at h
  obtain ⟨⟨layout, buffer⟩, hmem, rfl⟩ := List.mem_map.mp h
  exact hmem

theorem portCodes_nil {layouts : List PortLayout} {buffers : List AudioBuffer}
    (h : List.Forall₂ LegalBuffer layouts buffers) :
    ∀ p ∈ portBuffers layouts buffers, p.codes = [] := by
  intro p hp
  have hlegal : LegalBuffer p.layout p.buffer :=
    (List.forall₂_iff_zip.mp h).2 (mem_portBuffers hp)
  rw [← portFindings_violations true 0, portFindings_nil hlegal]
  rfl

/-- Where a port requires a common size, one of the two sizes is not seen. -/
theorem checkPorts_nil {m : ContractMonitor} {block : ProcessBlock D}
    (hin : List.Forall₂ LegalBuffer m.inputPorts block.audioInputs)
    (hout : List.Forall₂ LegalBuffer m.outputPorts block.audioOutputs)
    (hcommon : (∃ layout ∈ m.inputPorts ++ m.outputPorts,
        layout.flags.requiresCommonSampleSize = true) →
      ∃ is64, ∀ buffer ∈ block.audioInputs ++ block.audioOutputs, buffer.data64.isSome = is64) :
    (checkPorts m block).2 = [] := by
  have hports : ∀ p ∈ blockPorts m block, p.layout ∈ m.inputPorts ++ m.outputPorts ∧
      p.buffer ∈ block.audioInputs ++ block.audioOutputs := by
    intro p hp
    rcases List.mem_append.mp hp with hp | hp
    · obtain ⟨hlayout, hbuffer⟩ := List.of_mem_zip (mem_portBuffers hp)
      exact ⟨List.mem_append_left _ hlayout, List.mem_append_left _ hbuffer⟩
    · obtain ⟨hlayout, hbuffer⟩ := List.of_mem_zip (mem_portBuffers hp)
      exact ⟨List.mem_append_right _ hlayout, List.mem_append_right _ hbuffer⟩
  have hmixed : ¬ isMixed (blockPorts m block) = true := by
    intro hmixed
    rw [isMixed, Bool.and_eq_true, Bool.and_eq_true] at hmixed
    obtain ⟨⟨hreq, h32⟩, h64⟩ := hmixed
    obtain ⟨p, hp, hreq⟩ := List.any_eq_true.mp hreq
    obtain ⟨is64, hsize⟩ := hcommon ⟨p.layout, (hports p hp).1, hreq⟩
    obtain ⟨p32, hp32, h32⟩ := List.any_eq_true.mp h32
    obtain ⟨p64, hp64, h64⟩ := List.any_eq_true.mp h64
    have hno : p32.has64 = false := by
      rw [← Bool.not_eq_true']
      exact (Bool.and_eq_true_iff.mp h32).2
    have hsame : p32.has64 = p64.has64 :=
      (hsize _ (hports p32 hp32).2).trans (hsize _ (hports p64 hp64).2).symm
    rw [hno, h64] at hsame
    cases hsame
  have hmatch : countsMatch m.inputPorts m.outputPorts block :=
    ⟨hin.length_eq.symm, hout.length_eq.symm⟩
  rw [← List.map_eq_nil_iff, (checkPorts_matched m block hmatch).2, if_neg hmixed,
    List.append_nil, List.flatMap_eq_nil_iff, blockPorts]
  exact List.forall_mem_append.mpr ⟨portCodes_nil hin, portCodes_nil hout⟩

/-! ## Events -/

theorem scanEvents_nil (framesCount : UInt32) (es : List (Event D)) :
    ∀ (scan : EventScan) (i : Nat), scan.found = [] → (∀ e ∈ es, scan.previousTime ≤ e.time) →
      es.Pairwise (fun a b => a.time ≤ b.time) → (∀ e ∈ es, LegalEvent framesCount e) →
      (scanEvents framesCount scan i (es.map some)).found = [] := by
  induction es with
  | nil => exact fun scan i h _ _ _ => h
  | cons e es ih =>
    intro scan i hfound hprev hsorted hlegal
    have he := hlegal e List.mem_cons_self
    have hstep : scanEvent framesCount scan i (some e) = { scan with previousTime := e.time } := by
      have hsize : e.isMalformed = false := decide_eq_false (not_lt.mpr he.wellFormed)
      unfold scanEvent
      dsimp only
      rw [hsize, if_neg Bool.false_ne_true,
        if_neg (not_lt.mpr (hprev e List.mem_cons_self)), if_neg (not_le.mpr he.inBlock)]
    rw [List.map_cons, scanEvents, hstep]
    exact ih _ _ hfound (fun _ => List.rel_of_pairwise_cons hsorted) hsorted.of_cons
      fun e' he' => hlegal e' (List.mem_cons_of_mem _ he')

theorem targetFindings_nil {m : ContractMonitor} {target : ParamTarget}
    {allowed : ParamFlags → Prop} (h : LegalTarget m.params target allowed) (i : Nat)
    {verdict : ParamTarget → ParamRecord → List Finding}
    (hv : ∀ param, allowed param.flags → verdict target param = []) :
    targetFindings m i target verdict = [] := by
  obtain ⟨⟨declared, hmem, hid⟩, hrule⟩ := h
  unfold targetFindings ContractMonitor.findParam
  cases hfind : m.params.find? (fun param => param.id == target.paramId) with
  | none => exact absurd (List.find?_eq_none.mp hfind declared hmem) (by simp [hid])
  | some param =>
    obtain ⟨hcookie, hallowed⟩ := hrule param (List.mem_of_find?_eq_some hfind)
      (beq_iff_eq.mp (List.find?_some hfind :))
    have hc : wrongCookie target.cookie param.cookie = false := by
      unfold wrongCookie
      rcases hcookie with h | h <;> rw [h]
      · rfl
      · simp
    dsimp only
    rw [hv param hallowed, List.append_nil, cookieFindings, hc, if_neg Bool.false_ne_true]

theorem valueFindings_nil {playing : Bool} (i : Nat) (target : ParamTarget) (param : ParamRecord)
    (h : AllowsValue playing param.flags) : valueFindings playing i target param = [] := by
  unfold valueFindings
  rw [h.1, if_neg Bool.false_ne_true, if_neg]
  intro hp
  obtain ⟨hplaying, hauto⟩ := Bool.and_eq_true_iff.mp hp
  rw [h.2 hplaying] at hauto
  cases hauto

theorem modFindings_nil (i : Nat) (target : ParamTarget) (param : ParamRecord)
    (h : AllowsMod target param.flags) : modFindings i target param = [] := by
  obtain ⟨hmod, hnote, hkey, hchannel⟩ := h
  have hcap : lacksCapability param.flags target = false := by
    unfold lacksCapability
    simp only [Bool.or_eq_false_iff, Bool.and_eq_false_iff, decide_eq_false_iff_not,
      Bool.not_eq_false']
    exact ⟨⟨or_iff_not_imp_left.mpr fun h => hnote (not_not.mp h),
      or_iff_not_imp_left.mpr fun h => hkey (not_not.mp h)⟩,
      or_iff_not_imp_left.mpr fun h => hchannel (not_not.mp h)⟩
  unfold modFindings
  rw [hmod, hcap]
  rfl

theorem paramEventFindings_nil {m : ContractMonitor} {playing : Bool} {e : Event D}
    (h : LegalParamEvent m.params playing e) (i : Nat) :
    paramEventFindings m playing i (some e) = [] := by
  unfold paramEventFindings
  dsimp only
  split
  · rfl
  · rename_i hskip
    have hcore : e.isCore = true := by
      cases hc : e.isCore with
      | true => rfl
      | false => exact absurd (by rw [hc]; rfl) hskip
    have hbody := h hcore
    cases hb : e.body with
    | paramValue target value =>
      rw [hb] at hbody
      exact targetFindings_nil hbody i fun param => valueFindings_nil i target param
    | paramMod target amount =>
      rw [hb] at hbody
      exact targetFindings_nil hbody i fun param => modFindings_nil i target param
    | _ => rfl

theorem paramEventsFindings_nil {m : ContractMonitor} {playing : Bool}
    (es : List (Option (Event D))) :
    ∀ i, (∀ e, some e ∈ es → LegalParamEvent m.params playing e) →
      paramEventsFindings m playing i es = [] := by
  induction es with
  | nil => exact fun _ _ => rfl
  | cons header es ih =>
    intro i h
    rw [paramEventsFindings, ih (i + 1) fun e he => h e (List.mem_cons_of_mem _ he),
      List.append_nil]
    cases header with
    | none => rfl
    | some e => exact paramEventFindings_nil (h e List.mem_cons_self) i

/-! ## Blocks and flushes -/

/-- The monitor holds no table yet, or the declared one. -/
theorem checkParamEvents_nil {m : ContractMonitor} {params : List ParamRecord}
    (hm : m.params = [] ∨ m.params = params) {events : Option (InputEvents D)}
    {transport : Option (Transport D)}
    (h : ∀ e, some e ∈ readableEvents events → LegalParamEvent params (isPlaying transport) e) :
    checkParamEvents m events transport = [] := by
  unfold checkParamEvents
  rcases hm with hempty | hdeclared
  · rw [if_neg (by rw [ContractMonitor.hasParams, hempty]; exact Bool.false_ne_true)]
  · split
    · subst hdeclared
      exact paramEventsFindings_nil _ 0 h
    · rfl

theorem flushFindings_nil {m : ContractMonitor} {params : List ParamRecord}
    (hm : m.params = [] ∨ m.params = params) {events : Option (InputEvents D)}
    (h : LegalFlush params events) : checkParamEvents m events none = [] :=
  checkParamEvents_nil hm h

/-- The baseline the checks keep is `steady`. -/
theorem steadyFindings_nil {m : ContractMonitor} {block : ProcessBlock D}
    (h : block.steadyTime = -1 ∨ 0 ≤ block.steadyTime ∧
      (m.steadyValid = true → m.steadyEnd ≤ block.steadyTime)) :
    steadyFindings m block = [] := by
  unfold steadyFindings ContractMonitor.checkSteadyTime
  rcases h with hnone | ⟨hpos, hend⟩
  · rw [hnone]
    rfl
  · rw [if_neg (by omega : ¬ block.steadyTime < 0)]
    cases hv : m.steadyValid with
    | false => rfl
    | true =>
      rw [decide_eq_true (hend hv)]
      rfl

/-- A block that keeps the rules is reported for nothing. -/
theorem blockFindings_nil {m : ContractMonitor} {ports : Bool → List PortLayout}
    {params : List ParamRecord} {steady : Option Int} {block : ProcessBlock D}
    (h : LegalBlock ports params m.minFrames m.maxFrames steady block)
    (hin : m.inputPorts = ports true) (hout : m.outputPorts = ports false)
    (hparams : m.params = params)
    (hsteady : m.steadyValid = true → steady = some m.steadyEnd) : blockFindings m block = [] := by
  have hframes : framesFindings m block.framesCount = [] := by
    unfold framesFindings
    obtain ⟨hlo, hhi⟩ := h.frames
    rw [if_neg (by omega)]
  have htime : steadyFindings m block = [] := by
    refine steadyFindings_nil (h.steadyTime.imp_right fun h => ⟨h.1, fun hv => ?_⟩)
    exact h.2.2 _ (hsteady hv)
  have hports : (checkPorts m block).2 = [] := by
    refine checkPorts_nil (hin ▸ h.buffers true) (hout ▸ h.buffers false) fun hreq => ?_
    obtain ⟨layout, hmem, hflag⟩ := hreq
    have hreq' : ∃ isInput, ∃ layout ∈ ports isInput,
        layout.flags.requiresCommonSampleSize = true := by
      rw [hin, hout, List.mem_append] at hmem
      rcases hmem with hmem | hmem
      · exact ⟨true, layout, hmem, hflag⟩
      · exact ⟨false, layout, hmem, hflag⟩
    obtain ⟨is64, hsize⟩ := h.commonSize hreq'
    exact ⟨is64, List.forall_mem_append.mpr ⟨hsize true, hsize false⟩⟩
  obtain ⟨es, hes, hsorted, hlegal⟩ := h.events
  have hevents : eventFindings m block = [] := by
    have hparamEvents : checkParamEvents m block.inEvents block.transport = [] :=
      checkParamEvents_nil (.inr hparams) fun e he => by
        rw [hes, List.mem_map] at he
        obtain ⟨e', hmem, heq⟩ := he
        cases heq
        exact (hlegal e hmem).2
    rw [eventFindings, hparamEvents, List.append_nil, hes]
    exact scanEvents_nil _ es {} 0 rfl (fun _ _ => Nat.zero_le _) hsorted fun e he =>
      (hlegal e he).1
  rw [blockFindings, hframes, htime, hports, hevents]
  rfl

end Cvp
