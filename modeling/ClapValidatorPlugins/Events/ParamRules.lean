/-
  The rules of `checkParamEvents`, event by event. The loop keeps nothing between two events, so a
  list is reported for what its events are reported for (`checkParamEvents_flatMap`), in whatever
  order they stand. What one event is reported for is the rule table P08, P11 to P14
  (`checkParamEvents_exact`).
-/
import ClapValidatorPlugins.Contract.Moves

namespace Cvp

variable {D : Type}

/-! ## The table -/

namespace Event

/-- The header is whole, so that the loop looks at the event, and it is a core one. -/
def IsChecked (e : Event D) : Prop := e.isCore = true ∧ sizeofEventHeader ≤ e.size

/-- A PARAM_VALUE. -/
def Writes (e : Event D) (target : ParamTarget) : Prop :=
  e.IsChecked ∧ ∃ value, e.body = .paramValue target value

/-- A PARAM_MOD. -/
def Modulates (e : Event D) (target : ParamTarget) : Prop :=
  e.IsChecked ∧ ∃ amount, e.body = .paramMod target amount

/-- Note, key and channel addressing each need a flag of their own. -/
def ExceedsCapability (target : ParamTarget) (flags : ParamFlags) : Prop :=
  (0 ≤ target.noteId ∧ flags.isModulatablePerNoteId = false) ∨
    (0 ≤ target.key ∧ flags.isModulatablePerKey = false) ∨
    (0 ≤ target.channel ∧ flags.isModulatablePerChannel = false)

/-- The rule a param-event code stands for, against the table in `m`. -/
def Breaks (m : ContractMonitor) (playing : Bool) (e : Event D) : Violation → Prop
  | .P08 => ∃ target, (e.Writes target ∨ e.Modulates target) ∧ m.findParam target.paramId = none
  | .P11 => ∃ target param, (e.Writes target ∨ e.Modulates target) ∧
      m.findParam target.paramId = some param ∧
      target.cookie ≠ none ∧ target.cookie ≠ param.cookie
  | .P12 => ∃ target param, e.Writes target ∧ m.findParam target.paramId = some param ∧
      param.flags.isReadonly = true
  | .P13 => ∃ target param, e.Modulates target ∧ m.findParam target.paramId = some param ∧
      (param.flags.isModulatable = false ∨ ExceedsCapability target param.flags)
  | .P14 => ∃ target param, e.Writes target ∧ m.findParam target.paramId = some param ∧
      playing = true ∧ param.flags.isReadonly = false ∧ param.flags.isAutomatable = false
  | _ => False

end Event

/-- The codes the loop body reports for one entry of the list, wherever it stands. -/
def paramCodes (m : ContractMonitor) (playing : Bool) (header : Option (Event D)) :
    List Violation :=
  (paramEventFindings m playing 0 header).map (·.violation)

/-! ## One event -/

section Codes

variable (m : ContractMonitor) (playing : Bool)

theorem codes_ite {c : Prop} [Decidable c] (f : Finding) (rest : List Finding) :
    (if c then [f] else rest).map (·.violation) =
      if c then [f.violation] else rest.map (·.violation) := by
  split <;> rfl

/-- The codes of a `targetFindings`, with the codes of its verdict on a known parameter. -/
def targetCodes (target : ParamTarget) (verdict : ParamRecord → List Violation) :
    List Violation :=
  match m.findParam target.paramId with
  | none => [.P08]
  | some param => (if wrongCookie target.cookie param.cookie then [.P11] else []) ++ verdict param

def valueCodes (param : ParamRecord) : List Violation :=
  if param.flags.isReadonly then [.P12]
  else if playing && !param.flags.isAutomatable then [.P14] else []

def modCodes (target : ParamTarget) (param : ParamRecord) : List Violation :=
  if !param.flags.isModulatable || lacksCapability param.flags target then [.P13] else []

theorem targetFindings_codes (i : Nat) (target : ParamTarget)
    (verdict : ParamTarget → ParamRecord → List Finding) {codes : ParamRecord → List Violation}
    (h : ∀ param, (verdict target param).map (·.violation) = codes param) :
    (targetFindings m i target verdict).map (·.violation) = targetCodes m target codes := by
  unfold targetFindings targetCodes
  cases m.findParam target.paramId with
  | none => rfl
  | some param =>
    simp only [List.map_append, h]
    unfold cookieFindings
    rw [codes_ite]
    rfl

/-- The index of an event is in the texts only. -/
theorem paramEventFindings_violations (i : Nat) (header : Option (Event D)) :
    (paramEventFindings m playing i header).map (·.violation) =
      match header with
      | none => []
      | some e =>
        if !e.isCore || e.isMalformed then []
        else match e.body with
          | .paramValue target _ => targetCodes m target (valueCodes playing)
          | .paramMod target _ => targetCodes m target (modCodes target)
          | _ => [] := by
  cases header with
  | none => rfl
  | some e =>
    unfold paramEventFindings
    dsimp only
    split
    · rfl
    · cases e.body with
      | paramValue target value =>
        refine targetFindings_codes m i target _ fun param => ?_
        unfold valueFindings valueCodes
        rw [codes_ite, codes_ite]
        rfl
      | paramMod target amount =>
        refine targetFindings_codes m i target _ fun param => ?_
        unfold modFindings modCodes
        rw [codes_ite, codes_ite]
        cases param.flags.isModulatable <;> rfl
      | _ => rfl

theorem paramCodes_index (i : Nat) (header : Option (Event D)) :
    (paramEventFindings m playing i header).map (·.violation) = paramCodes m playing header :=
  (paramEventFindings_violations m playing i header).trans
    (paramEventFindings_violations m playing 0 header).symm

/-! ## The table is exact -/

theorem lacksCapability_iff (target : ParamTarget) (flags : ParamFlags) :
    lacksCapability flags target = true ↔ Event.ExceedsCapability target flags := by
  simp [lacksCapability, Event.ExceedsCapability, or_assoc]

theorem wrongCookie_iff (cookie declared : Option Ptr) :
    wrongCookie cookie declared = true ↔ cookie ≠ none ∧ cookie ≠ declared := by
  cases cookie <;> simp [wrongCookie]

theorem isChecked_iff (e : Event D) : e.IsChecked ↔ ¬ (!e.isCore || e.isMalformed) = true := by
  simp [Event.IsChecked, Event.isMalformed]

/-- What the loop body makes of an entry: nothing, or the codes of its target. -/
theorem paramCodes_cases (header : Option (Event D)) :
    (∃ e target, header = some e ∧ e.Writes target ∧
      paramCodes m playing header = targetCodes m target (valueCodes playing)) ∨
    (∃ e target, header = some e ∧ e.Modulates target ∧
      paramCodes m playing header = targetCodes m target (modCodes target)) ∨
    (∀ e target, header = some e → ¬ e.Writes target ∧ ¬ e.Modulates target) ∧
      paramCodes m playing header = [] := by
  unfold paramCodes
  rw [paramEventFindings_violations]
  cases header with
  | none => exact .inr (.inr ⟨fun e target he => absurd he.symm (Option.some_ne_none e), rfl⟩)
  | some e =>
    dsimp only
    by_cases hchecked : e.IsChecked
    · rw [if_neg ((isChecked_iff e).mp hchecked)]
      cases hbody : e.body with
      | paramValue target value => exact .inl ⟨e, target, rfl, ⟨hchecked, value, hbody⟩, rfl⟩
      | paramMod target amount =>
        exact .inr (.inl ⟨e, target, rfl, ⟨hchecked, amount, hbody⟩, rfl⟩)
      | _ =>
        refine .inr (.inr ⟨?_, rfl⟩)
        intro e' target he
        obtain rfl := Option.some.inj he
        constructor
        · rintro ⟨-, value, hvalue⟩
          rw [hbody] at hvalue
          cases hvalue
        · rintro ⟨-, amount, hmod⟩
          rw [hbody] at hmod
          cases hmod
    · rw [if_pos (not_not.mp fun h => hchecked ((isChecked_iff e).mpr h))]
      refine .inr (.inr ⟨fun e' target he => ?_, rfl⟩)
      obtain rfl := Option.some.inj he
      exact ⟨fun h => hchecked h.1, fun h => hchecked h.1⟩

theorem Event.Writes.eq {e : Event D} {t target : ParamTarget} (h : e.Writes target) :
    e.Writes t ↔ t = target := by
  obtain ⟨hchecked, value, hbody⟩ := h
  constructor
  · rintro ⟨-, value', hbody'⟩
    cases hbody.symm.trans hbody'
    rfl
  · rintro rfl
    exact ⟨hchecked, value, hbody⟩

theorem Event.Modulates.eq {e : Event D} {t target : ParamTarget} (h : e.Modulates target) :
    e.Modulates t ↔ t = target := by
  obtain ⟨hchecked, amount, hbody⟩ := h
  constructor
  · rintro ⟨-, amount', hbody'⟩
    cases hbody.symm.trans hbody'
    rfl
  · rintro rfl
    exact ⟨hchecked, amount, hbody⟩

theorem Event.Writes.not_modulates {e : Event D} {t target : ParamTarget} (h : e.Writes target) :
    ¬ e.Modulates t := by
  rintro ⟨-, amount, hmod⟩
  obtain ⟨-, value, hvalue⟩ := h
  cases hvalue.symm.trans hmod

theorem mem_targetCodes_iff {target : ParamTarget} {verdict : ParamRecord → List Violation}
    {v : Violation} :
    v ∈ targetCodes m target verdict ↔
      (v = .P08 ∧ m.findParam target.paramId = none) ∨
      ∃ param, m.findParam target.paramId = some param ∧
        ((v = .P11 ∧ target.cookie ≠ none ∧ target.cookie ≠ param.cookie) ∨
          v ∈ verdict param) := by
  unfold targetCodes
  cases m.findParam target.paramId with
  | none => simp
  | some param =>
    rw [List.mem_append, List.mem_ite_nil_right, wrongCookie_iff]
    simp [and_comm]

theorem mem_valueCodes_iff {param : ParamRecord} {v : Violation} :
    v ∈ valueCodes playing param ↔
      (v = .P12 ∧ param.flags.isReadonly = true) ∨
      (v = .P14 ∧ playing = true ∧ param.flags.isReadonly = false ∧
        param.flags.isAutomatable = false) := by
  unfold valueCodes
  cases param.flags.isReadonly <;> cases playing <;> cases param.flags.isAutomatable <;> simp

theorem mem_modCodes_iff {target : ParamTarget} {param : ParamRecord} {v : Violation} :
    v ∈ modCodes target param ↔ v = .P13 ∧
      (param.flags.isModulatable = false ∨ Event.ExceedsCapability target param.flags) := by
  unfold modCodes
  rw [List.mem_ite_nil_right, Bool.or_eq_true, lacksCapability_iff]
  simp [and_comm]

/-- An entry raises exactly the codes whose rules it breaks. -/
theorem mem_paramCodes_iff (header : Option (Event D)) (v : Violation) :
    v ∈ paramCodes m playing header ↔ ∃ e, header = some e ∧ e.Breaks m playing v := by
  obtain ⟨e, target, rfl, hwrites, hcodes⟩ | ⟨e, target, rfl, hmod, hcodes⟩ | ⟨hnone, hcodes⟩ :=
    paramCodes_cases m playing header
  · rw [hcodes, mem_targetCodes_iff]
    cases v <;>
      simp [Event.Breaks, hwrites.eq, hwrites.not_modulates, mem_valueCodes_iff]
  · have hnot : ∀ t, ¬ e.Writes t := fun t h => h.not_modulates hmod
    rw [hcodes, mem_targetCodes_iff]
    cases v <;> simp [Event.Breaks, hmod.eq, hnot, mem_modCodes_iff]
  · rw [hcodes]
    refine iff_of_false List.not_mem_nil ?_
    rintro ⟨e, rfl, hbreaks⟩
    have hnot := fun target => hnone e target rfl
    cases v <;> simp [Event.Breaks, hnot] at hbreaks

/-- The rules other than the cookie one: each ends the loop body. -/
def verdictCodes : List Violation := [.P08, .P12, .P13, .P14]

theorem targetCodes_shape {target : ParamTarget} {verdict : ParamRecord → List Violation}
    (h : ∀ param, verdict param = [] ∨ ∃ v ∈ verdictCodes, verdict param = [v]) :
    (targetCodes m target verdict).Nodup ∧
      ∀ v ∈ targetCodes m target verdict, ∀ w ∈ targetCodes m target verdict,
        v ∈ verdictCodes → w ∈ verdictCodes → v = w := by
  have hP11 : ∀ v ∈ verdictCodes, Violation.P11 ≠ v := by decide
  unfold targetCodes
  cases m.findParam target.paramId with
  | none => simp
  | some param =>
    obtain hverdict | ⟨u, hu, hverdict⟩ := h param
    · dsimp only
      rw [hverdict]
      split <;> simp
    · dsimp only
      rw [hverdict]
      split
      · have hne := hP11 u hu
        refine ⟨by simp [hne], ?_⟩
        have hcookie : ∀ v ∈ [Violation.P11] ++ [u], v ∈ verdictCodes → v = u := by
          intro v hv hcode
          rcases List.mem_append.mp hv with hv | hv
          · exact absurd (List.mem_singleton.mp hv).symm (hP11 v hcode)
          · exact List.mem_singleton.mp hv
        exact fun v hv w hw hv' hw' => (hcookie v hv hv').trans (hcookie w hw hw').symm
      · simp

/-- An entry is reported for a code once, and for at most one of the codes that end the body. -/
theorem paramCodes_shape (header : Option (Event D)) :
    (paramCodes m playing header).Nodup ∧
      ∀ v ∈ paramCodes m playing header, ∀ w ∈ paramCodes m playing header,
        v ∈ verdictCodes → w ∈ verdictCodes → v = w := by
  obtain ⟨e, target, -, -, hcodes⟩ | ⟨e, target, -, -, hcodes⟩ | ⟨-, hcodes⟩ :=
    paramCodes_cases m playing header
  · rw [hcodes]
    refine targetCodes_shape m fun param => ?_
    unfold valueCodes
    split
    · exact .inr ⟨.P12, by decide, rfl⟩
    · split
      · exact .inr ⟨.P14, by decide, rfl⟩
      · exact .inl rfl
  · rw [hcodes]
    refine targetCodes_shape m fun param => ?_
    unfold modCodes
    split
    · exact .inr ⟨.P13, by decide, rfl⟩
    · exact .inl rfl
  · rw [hcodes]
    exact ⟨List.nodup_nil, fun v hv => absurd hv List.not_mem_nil⟩

/-! ## The list -/

theorem paramEventsFindings_violations (es : List (Option (Event D))) :
    ∀ i : Nat, (paramEventsFindings m playing i es).map (·.violation) =
      es.flatMap (paramCodes m playing) := by
  induction es with
  | nil => exact fun i => rfl
  | cons header es ih =>
    intro i
    rw [paramEventsFindings, List.map_append, ih, paramCodes_index, List.flatMap_cons]

end Codes

/-- What `checkParamEvents` reports for one entry: what it reports for a list of it alone. -/
def raisedBy (m : ContractMonitor) (transport : Option (Transport D))
    (header : Option (Event D)) : List Violation :=
  (checkParamEvents m (some { events := [header] }) transport).map (·.violation)

theorem raisedBy_eq (m : ContractMonitor) (transport : Option (Transport D))
    (header : Option (Event D)) :
    raisedBy m transport header =
      if m.hasParams then paramCodes m (isPlaying transport) header else [] := by
  unfold raisedBy checkParamEvents
  split
  · refine (paramEventsFindings_violations m _ _ 0).trans ?_
    exact List.flatMap_singleton _ header
  · rfl

/-- The entries are reported for one by one. -/
theorem checkParamEvents_flatMap (m : ContractMonitor) (events : Option (InputEvents D))
    (transport : Option (Transport D)) :
    (checkParamEvents m events transport).map (·.violation) =
      (readableEvents events).flatMap (raisedBy m transport) := by
  by_cases hm : m.hasParams = true
  · have hraised : raisedBy m transport = paramCodes m (isPlaying transport) :=
      funext fun header => (raisedBy_eq m transport header).trans (if_pos hm)
    rw [hraised, checkParamEvents, if_pos hm]
    exact paramEventsFindings_violations m _ _ 0
  · have hraised : raisedBy m transport = fun _ => [] :=
      funext fun header => (raisedBy_eq m transport header).trans (if_neg hm)
    rw [hraised, checkParamEvents, if_neg hm]
    simp

/-- With a table, the codes of a list are those of its entries, an entry raises exactly the codes
    whose rules it breaks, each once and at most one of P08, P12, P13 and P14, and the counters
    end up the same in whatever order the entries are delivered. -/
theorem checkParamEvents_exact (m : ContractMonitor) (hm : m.hasParams = true)
    (events : Option (InputEvents D)) (transport : Option (Transport D)) :
    (checkParamEvents m events transport).map (·.violation) =
        (readableEvents events).flatMap (raisedBy m transport) ∧
    (∀ header v, v ∈ raisedBy m transport header ↔
      ∃ e, header = some e ∧ e.Breaks m (isPlaying transport) v) ∧
    (∀ header, (raisedBy m transport header).Nodup ∧
      ∀ v ∈ raisedBy m transport header, ∀ w ∈ raisedBy m transport header,
        v ∈ verdictCodes → w ∈ verdictCodes → v = w) ∧
    ∀ reordered, (readableEvents reordered).Perm (readableEvents events) →
      (m.findings.reportAll (checkParamEvents m reordered transport)).counters =
        (m.findings.reportAll (checkParamEvents m events transport)).counters := by
  have hraised : ∀ header,
      raisedBy m transport header = paramCodes m (isPlaying transport) header :=
    fun header => (raisedBy_eq m transport header).trans (if_pos hm)
  refine ⟨checkParamEvents_flatMap m events transport, fun header v => ?_, fun header => ?_,
    fun reordered hperm => ?_⟩
  · rw [hraised]
    exact mem_paramCodes_iff m _ header v
  · rw [hraised]
    exact paramCodes_shape m _ header
  · have hcodes : ((checkParamEvents m reordered transport).map (·.violation)).Perm
        ((checkParamEvents m events transport).map (·.violation)) := by
      rw [checkParamEvents_flatMap, checkParamEvents_flatMap]
      exact hperm.flatMap_right _
    rw [(counted_reportAll _ m.findings).counters, (counted_reportAll _ m.findings).counters]
    funext v
    rw [bump, bump, hcodes.count_eq]

/-- A table of one read-only parameter. -/
def meterTable : ContractMonitor :=
  { params := [{ id := 3, flags := { isReadonly := true }, cookie := none }] }

/-- A value for the meter, then a modulation of a parameter that is not there. -/
def meterEvents : List (Option (Event ExactFloat)) :=
  [some { size := sizeofParamValue, time := 0, body := .paramValue { paramId := 3 } 1 },
    some { size := sizeofParamValue, time := 0, body := .paramMod { paramId := 4 } 1 }]

theorem checkParamEvents_exact_meter :
    let counters (es : List (Option (Event ExactFloat))) :=
      (meterTable.findings.reportAll
        (checkParamEvents meterTable (some { events := es }) none)).counters
    (checkParamEvents meterTable (some { events := meterEvents }) none).map (·.violation) =
        [.P12, .P08] ∧
      counters meterEvents.reverse = counters meterEvents := by
  obtain ⟨hlist, -, -, hperm⟩ :=
    checkParamEvents_exact meterTable rfl (some { events := meterEvents }) none
  exact ⟨hlist.trans (by decide), hperm (some { events := meterEvents.reverse })
    (List.reverse_perm _)⟩

end Cvp
