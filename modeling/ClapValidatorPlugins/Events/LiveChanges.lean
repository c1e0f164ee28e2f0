/-
  P14 and `CLAP_EVENT_IS_LIVE`. A parameter without `CLAP_PARAM_IS_AUTOMATABLE` may be changed live
  at any time, so P14 is for automation only. `checkParamEvents` goes by the transport and not by
  the flag: while it plays, a live change is reported as well (`liveChange_spared_iff`).
-/
import ClapValidatorPlugins.Events.Flagged
import ClapValidatorPlugins.Events.ParamRules

namespace Cvp

variable {D : Type}

/-- A PARAM_VALUE on a known parameter that is neither read-only nor automatable. -/
def Event.WritesUnautomatable (m : ContractMonitor) (e : Event D) : Prop :=
  ∃ target param, e.Writes target ∧ m.findParam target.paramId = some param ∧
    param.flags.isReadonly = false ∧ param.flags.isAutomatable = false

theorem hasParams_of_findParam {m : ContractMonitor} {id : ClapId} {param : ParamRecord}
    (h : m.findParam id = some param) : m.hasParams = true := by
  have hmem : param ∈ m.params := List.mem_of_find?_eq_some h
  simp [ContractMonitor.hasParams, List.ne_nil_of_mem hmem]

theorem mem_raisedBy_P14_iff (m : ContractMonitor) (transport : Option (Transport D))
    (header : Option (Event D)) :
    Violation.P14 ∈ raisedBy m transport header ↔
      isPlaying transport = true ∧ ∃ e, header = some e ∧ e.WritesUnautomatable m := by
  rw [raisedBy_eq]
  constructor
  · intro hmem
    split at hmem
    · obtain ⟨e, rfl, target, param, hwrites, hfind, hplaying, hflags⟩ :=
        (mem_paramCodes_iff m _ header _).mp hmem
      exact ⟨hplaying, e, rfl, target, param, hwrites, hfind, hflags⟩
    · cases hmem
  · rintro ⟨hplaying, e, rfl, target, param, hwrites, hfind, hflags⟩
    rw [if_pos (hasParams_of_findParam hfind)]
    exact (mem_paramCodes_iff m _ _ _).mpr
      ⟨e, rfl, target, param, hwrites, hfind, hplaying, hflags⟩

/-- P14 is for events without the live flag while the transport plays, and so never for a live
    change, exactly if no such event comes while the transport plays. The codes of a list are
    those its entries raise (`checkParamEvents_flatMap`). -/
theorem liveChange_spared_iff (m : ContractMonitor) (events : Option (InputEvents D))
    (transport : Option (Transport D)) :
    (∀ header ∈ readableEvents events, Violation.P14 ∈ raisedBy m transport header →
      isPlaying transport = true ∧ ∃ e, header = some e ∧ e.flags.isLive = false) ↔
    ¬ (isPlaying transport = true ∧ ∃ e, some e ∈ readableEvents events ∧
      e.flags.isLive = true ∧ e.WritesUnautomatable m) := by
  constructor
  · rintro hspared ⟨hplaying, e, he, hlive, hwrites⟩
    obtain ⟨-, e', heq, hnot⟩ := hspared (some e) he
      ((mem_raisedBy_P14_iff m transport _).mpr ⟨hplaying, e, rfl, hwrites⟩)
    obtain rfl := Option.some.inj heq
    exact Bool.false_ne_true (hnot.symm.trans hlive)
  · intro hnone header hheader hraised
    obtain ⟨hplaying, e, rfl, hwrites⟩ := (mem_raisedBy_P14_iff m transport _).mp hraised
    refine ⟨hplaying, e, rfl, Bool.eq_false_iff.mpr fun hlive => ?_⟩
    exact hnone ⟨hplaying, e, hheader, hlive, hwrites⟩

/-- The user turns Drive, which is declared without any flag. -/
def liveDrive : Event ExactFloat :=
  { size := sizeofParamValue, time := 0, flags := { isLive := true }
    body := .paramValue { paramId := ParamsZooPlugin.kParamDrive } 1 }

def playingTransport : Transport ExactFloat where
  flags := { isPlaying := true }
  songPosBeats := 0
  songPosSeconds := 0
  tempo := 120
  loopStartBeats := 0
  loopEndBeats := 0
  barStart := 0
  barNumber := 0
  tsigNum := 4
  tsigDenom := 4

/-- One block with that event while the transport plays: the live change is accused, and
    ParamsZoo does as it is told. -/
theorem liveDrive_accused :
    let block : ProcessBlock ExactFloat :=
      { framesCount := 1, transport := some playingTransport
        audioInputs := [{ channelCount := 2, data32 := some [0, 1] }]
        audioOutputs := [{ channelCount := 2, data32 := some [2, 3] }]
        inEvents := some { events := [some liveDrive] } }
    let silence : AudioMemory ExactFloat ExactFloat := { f32 := fun _ _ => 0, f64 := fun _ _ => 0 }
    let processed := (Plugin.sProcess (ParamsZooPlugin.impl : PluginImpl ExactFloat ExactFloat _)
      runningParamsZoo 0 block silence).map fun r =>
        (r.1.contract.counter .P14, r.1.self.params ParamsZooPlugin.kParamDrive)
    liveDrive.flags.isLive = true ∧
      Violation.P14 ∈ raisedBy runningParamsZoo.contract (some playingTransport)
        (some liveDrive) ∧
      runningParamsZoo.contract.counter .P14 = 0 ∧ processed = .ok (1, 1) := by
  refine ⟨rfl, by decide +kernel, rfl, by decide +kernel⟩

end Cvp
