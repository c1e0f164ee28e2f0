/-
  P08, P12 and P13: the event "is ignored". The wrapper decides from the declared flags, the
  flavors from the ids in their handlers. The two agree but in one place: ParamsZoo declares its
  gain modulatable without any per-* flag and takes a PARAM_MOD on it however it is addressed
  (`flagged_ignored_iff`).
-/
import ClapValidatorPlugins.Events.Calls

namespace Cvp

/-! ## Flagged events -/

section Flagged

variable {D : Type} {m : ContractMonitor} {playing : Bool} {i : Nat} {e : Event D}

/-- `checkParamEvents` counts event `i` of a list as P08, P12 or P13. -/
def Flagged (m : ContractMonitor) (playing : Bool) (i : Nat) (e : Event D) : Prop :=
  m.hasParams = true ∧ ∃ f ∈ paramEventFindings m playing i (some e),
    f.violation ∈ [Violation.P08, .P12, .P13]

/-- The event is a core PARAM_VALUE or PARAM_MOD. -/
def addressesParam (e : Event D) : Bool :=
  e.isCore && match e.body with
    | .paramValue _ _ | .paramMod _ _ => true
    | _ => false

theorem playsNote_of_addressesParam (h : addressesParam e = true) : playsNote e = false := by
  obtain ⟨hcore, hbody⟩ := Bool.and_eq_true_iff.mp h
  unfold playsNote
  rw [hcore]
  cases hevent : e.body with
  | paramValue _ _ | paramMod _ _ => rfl
  | _ =>
    rw [hevent] at hbody
    cases hbody

theorem violation_cookieFindings {target : ParamTarget} {param : ParamRecord} {f : Finding}
    (h : f ∈ cookieFindings i target param) : f.violation = .P11 := by
  unfold cookieFindings at h
  split at h
  · rw [List.mem_singleton.mp h]
  · cases h

/-- A flagged value is for an unknown or a read-only parameter, a flagged modulation for one that
    is unknown or cannot be modulated in that way. -/
theorem flagged_cases (h : Flagged m playing i e) :
    e.isCore = true ∧
      ((∃ target x, e.body = .paramValue target x ∧
        ∀ param, m.findParam target.paramId = some param → param.flags.isReadonly = true) ∨
      ∃ target amount, e.body = .paramMod target amount ∧
        ∀ param, m.findParam target.paramId = some param →
          param.flags.isModulatable = false ∨ lacksCapability param.flags target = true) := by
  obtain ⟨-, f, hf, hcode⟩ := h
  unfold paramEventFindings at hf
  dsimp only at hf
  split at hf
  · cases hf
  rename_i hskip
  have hcore : e.isCore = true := by
    cases hc : e.isCore with
    | true => rfl
    | false =>
      rw [hc] at hskip
      exact absurd rfl hskip
  have hnotCookie : ∀ {target : ParamTarget} {param : ParamRecord},
      f ∉ cookieFindings i target param := by
    intro target param hmem
    rw [violation_cookieFindings hmem] at hcode
    exact absurd hcode (by decide)
  refine ⟨hcore, ?_⟩
  split at hf
  · rename_i target x hbody
    refine .inl ⟨target, x, hbody, fun param hfind => ?_⟩
    unfold targetFindings at hf
    rw [hfind] at hf
    rcases List.mem_append.mp hf with hcookie | hvalue
    · exact absurd hcookie hnotCookie
    · unfold valueFindings at hvalue
      split at hvalue
      · rename_i hreadonly
        exact hreadonly
      · split at hvalue
        · have hautomation : f.violation = .P14 := by rw [List.mem_singleton.mp hvalue]
          rw [hautomation] at hcode
          exact absurd hcode (by decide)
        · cases hvalue
  · rename_i target amount hbody
    refine .inr ⟨target, amount, hbody, fun param hfind => ?_⟩
    unfold targetFindings at hf
    rw [hfind] at hf
    rcases List.mem_append.mp hf with hcookie | hmod
    · exact absurd hcookie hnotCookie
    · unfold modFindings at hmod
      split at hmod
      · rename_i hunmodulatable
        exact .inl (Bool.not_eq_true' _ |>.mp hunmodulatable)
      · split at hmod
        · rename_i hlacks
          exact .inr hlacks
        · cases hmod
  · cases hf

theorem addressesParam_of_flagged (h : Flagged m playing i e) : addressesParam e = true := by
  obtain ⟨hcore, hcase⟩ := flagged_cases h
  unfold addressesParam
  rw [hcore]
  rcases hcase with ⟨target, x, hbody, -⟩ | ⟨target, amount, hbody, -⟩
  · rw [hbody]
    rfl
  · rw [hbody]
    rfl

end Flagged

/-! ## What a flavor takes -/

namespace Flavor

/-- The parameter events a handler does something with. -/
def takesParam {D : Type} : Flavor → Event D → Bool
  | synth, e => writesParam SynthPlugin.paramIds e || modulatesParam SynthPlugin.kParamVolume e
  | paramsZoo, e =>
    writesParam ParamsZooPlugin.savedIds e || modulatesParam ParamsZooPlugin.kParamGain e
  | flavor, e => writesParam flavor.savedIds e

section Declared

variable (D S : Type) [DoubleOps D] [FloatOps S] [FloatCast D S] [DoubleBits D]

/-- What a flavor declares of the parameter `id`. -/
def declared (flavor : Flavor) (id : ClapId) : Option ParamRecord :=
  (Plugin.declaredParams (flavor.impl : PluginImpl D S _)).find? fun param => param.id == id

/-- Every parameter that is saved is declared, and not as read-only. -/
theorem declared_of_saved {flavor : Flavor} {id : ClapId} (h : id ∈ flavor.savedIds) :
    ∃ param, flavor.declared D S id = some param ∧ param.flags.isReadonly = false := by
  have hall : flavor.savedIds.all (fun id =>
      (flavor.declared D S id).any fun param => !param.flags.isReadonly) = true := by
    cases flavor <;> rfl
  obtain ⟨param, hdeclared, hwritable⟩ :=
    (Option.any_eq_true _ _).mp (List.all_eq_true.mp hall id h)
  exact ⟨param, hdeclared, Bool.not_eq_true' _ |>.mp hwritable⟩

/-- The volume of Synth can be modulated in every way. -/
theorem declared_volume : ∃ param, Flavor.synth.declared D S SynthPlugin.kParamVolume = some param ∧
    param.flags.isModulatable = true ∧ ∀ target, lacksCapability param.flags target = false := by
  refine ⟨_, rfl, rfl, fun target => ?_⟩
  unfold lacksCapability
  show (_ && false || _ && false || _ && false) = false
  rw [Bool.and_false, Bool.and_false, Bool.and_false]
  rfl

end Declared

section Handlers

variable {D S : Type} [DoubleOps D] [FloatOps S] [FloatCast D S] [DoubleBits D]
  {flavor : Flavor} {p : Plugin D (flavor.State D S)} {playing : Bool} {i : Nat} {e : Event D}

theorem findParam_eq (hr : flavor.Reachable p) (ha : p.contract.active = true) (id : ClapId) :
    p.contract.findParam id = flavor.declared D S id := by
  unfold ContractMonitor.findParam
  rw [(snapshot_of_reachable hr).params ha]
  rfl

/-- Of the flagged events one kind is taken: modulations of ParamsZoo's gain. -/
theorem takesParam_of_flagged (hr : flavor.Reachable p) (ha : p.contract.active = true)
    (h : Flagged p.contract playing i e) (htakes : flavor.takesParam e = true) :
    flavor = .paramsZoo ∧ modulatesParam ParamsZooPlugin.kParamGain e = true := by
  obtain ⟨hcore, hcase⟩ := flagged_cases h
  have hwrites : writesParam flavor.savedIds e = false := by
    refine Bool.eq_false_iff.mpr fun hwrites => ?_
    obtain ⟨-, hbody⟩ := Bool.and_eq_true_iff.mp hwrites
    rcases hcase with ⟨target, x, hvalue, hreadonly⟩ | ⟨target, amount, hmod, -⟩
    · rw [hvalue] at hbody
      obtain ⟨param, hdeclared, hwritable⟩ := declared_of_saved D S (of_decide_eq_true hbody)
      rw [hreadonly param ((findParam_eq hr ha _).trans hdeclared)] at hwritable
      cases hwritable
    · rw [hmod] at hbody
      cases hbody
  cases flavor with
  | synth =>
    have hmod := (Bool.or_eq_true_iff.mp htakes).resolve_left (by
      rw [Bool.not_eq_true]
      exact hwrites)
    obtain ⟨-, hbody⟩ := Bool.and_eq_true_iff.mp hmod
    rcases hcase with ⟨target, x, hvalue, -⟩ | ⟨target, amount, hevent, hflagged⟩
    · rw [hvalue] at hbody
      cases hbody
    · rw [hevent] at hbody
      obtain ⟨param, hdeclared, hmodulatable, hcapable⟩ := declared_volume D S
      have hid : target.paramId = SynthPlugin.kParamVolume := beq_iff_eq.mp hbody
      rw [← hid, ← findParam_eq hr ha] at hdeclared
      rcases hflagged param hdeclared with hnot | hlacks
      · rw [hmodulatable] at hnot
        cases hnot
      · rw [hcapable] at hlacks
        cases hlacks
  | paramsZoo =>
    refine ⟨rfl, (Bool.or_eq_true_iff.mp htakes).resolve_left ?_⟩
    rw [Bool.not_eq_true]
    exact hwrites
  | _ => exact absurd htakes (by rw [Bool.not_eq_true]; exact hwrites)

omit [DoubleBits D] in
/-- Parameter events that are not taken, in `process` and in a flush. -/
theorem processEvent_of_untaken (hparam : addressesParam e = true)
    (h : flavor.takesParam e = false) (base : Base D) (s : flavor.State D S) :
    flavor.processEvent base s e = s := by
  have hnote := playsNote_of_addressesParam hparam
  cases flavor with
  | synth => exact SynthPlugin.handleEvent_of_ignored (Bool.or_eq_false_iff.mpr ⟨h, hnote⟩) s
  | sidechainSynth =>
    exact SidechainSynthPlugin.handleEvent_of_ignored (Bool.or_eq_false_iff.mpr ⟨h, hnote⟩) s
  | effect => exact congrArg Outcome.self (EffectPlugin.applyParamEvent_of_ignored h base s)
  | hostCheck => rfl
  | noteFx =>
    show (NoteFxPlugin.transformEvent s e).self = s
    cases hvalue : carriesValue e with
    | true =>
      have hignored : actsOn .noteFx e = false := by
        show (!carriesValue e || _) = false
        rw [hvalue]
        exact h
      exact congrArg Outcome.self (NoteFxPlugin.transformEvent_of_ignored hignored s)
    | false =>
      obtain ⟨pushed, hpass⟩ := NoteFxPlugin.transformEvent_of_passed hvalue s
      rw [hpass]
  | paramsZoo => exact ParamsZooPlugin.applyParamEvent_of_ignored h s
  | gui =>
    exact (GuiPlugin.processEvent_fst (s, none) e).trans
      (congrArg (fun values => { s with params := values })
        (applyParamValue_of_not_writes h s.params))
  | _ =>
    exact congrArg (fun values => { s with params := values })
      (applyParamValue_of_not_writes h s.params)

omit [FloatOps S] [FloatCast D S] [DoubleBits D] in
theorem flushEvent_of_untaken (h : flavor.takesParam e = false) (base : Base D)
    (s : flavor.State D S) : flavor.flushEvent base s e = s := by
  cases flavor with
  | synth =>
    exact congrArg (fun values => { s with params := values })
      (applyParamValue_of_not_writes (Bool.or_eq_false_iff.mp h).1 s.params)
  | effect => exact congrArg Outcome.self (EffectPlugin.applyParamEvent_of_ignored h base s)
  | hostCheck => rfl
  | paramsZoo => exact ParamsZooPlugin.applyParamEvent_of_ignored h s
  | _ =>
    exact congrArg (fun values => { s with params := values })
      (applyParamValue_of_not_writes h s.params)

/-- The amount of a modulation. -/
def modAmount (e : Event D) : Option D :=
  match e.body with
  | .paramMod _ amount => some amount
  | _ => none

/-- The event is no modulation of ParamsZoo's gain, or repeats the offset that is there. -/
def Settled (flavor : Flavor) (s : flavor.State D S) (e : Event D) : Prop :=
  flavor = .paramsZoo → modulatesParam ParamsZooPlugin.kParamGain e = true →
    flavor.gainMod s = modAmount e

/-- ParamsZoo stores the amount, however the modulation is addressed. -/
theorem view_gainMod_iff (h : modulatesParam ParamsZooPlugin.kParamGain e = true)
    (s : ParamsZooPlugin.State D) :
    view (S := S) .paramsZoo (ParamsZooPlugin.applyParamEvent s e) = view .paramsZoo s ↔
      Settled (S := S) .paramsZoo s e := by
  obtain ⟨target, amount, htarget, he⟩ := eq_modEvent h
  have hstored : ParamsZooPlugin.applyParamEvent s e = { s with gainModDb := amount } := by
    rw [he]
    exact if_pos htarget
  have hamount : modAmount e = some amount := by
    rw [he]
    rfl
  constructor
  · intro hview _ _
    have hgain : some (ParamsZooPlugin.applyParamEvent s e).gainModDb = some s.gainModDb :=
      congrArg FlavorView.gainMod hview
    rw [hstored] at hgain
    exact hgain.symm.trans hamount.symm
  · intro hsettled
    have hgain : some s.gainModDb = some amount := (hsettled rfl h).trans hamount
    rw [hstored, ← Option.some.inj hgain]

/-- A flagged event leaves the flavor as it was exactly if it is settled. -/
theorem view_processEvent_iff (hr : flavor.Reachable p) (ha : p.contract.active = true)
    (h : Flagged p.contract playing i e) (base : Base D) (s : flavor.State D S) :
    (flavor.view (flavor.processEvent base s e) = flavor.view s ↔ flavor.Settled s e) ∧
      (flavor.view (flavor.flushEvent base s e) = flavor.view s ↔ flavor.Settled s e) := by
  cases htakes : flavor.takesParam e with
  | true =>
    obtain ⟨rfl, hmod⟩ := takesParam_of_flagged hr ha h htakes
    exact ⟨view_gainMod_iff hmod s, view_gainMod_iff hmod s⟩
  | false =>
    have hsettled : flavor.Settled s e := by
      rintro rfl hmod
      rw [(Bool.or_eq_false_iff.mp htakes).2] at hmod
      cases hmod
    rw [processEvent_of_untaken (addressesParam_of_flagged h) htakes,
      flushEvent_of_untaken htakes]
    exact ⟨iff_of_true rfl hsettled, iff_of_true rfl hsettled⟩

end Handlers

/-! ## Calls -/

section Calls

variable {D S : Type} [DoubleOps D] [FloatOps S] [FloatCast D S] [DoubleBits D]
  {flavor : Flavor} {p : Plugin D (flavor.State D S)} {playing : Bool} {i : Nat} {e : Event D}

/-- Two calls behind which the flavor looks the same, whenever both return. -/
def SameView {α : Type} (flavor : Flavor) (x y : Exec (Plugin D (flavor.State D S) × α)) : Prop :=
  ∀ r r', x = .ok r → y = .ok r' → flavor.view r.1.self = flavor.view r'.1.self

/-- `paramsFlush` on a list with an event that is not taken, and without it. -/
theorem paramsFlush_without (h : flavor.takesParam e = false)
    {params : ParamsProvider D (flavor.State D S)}
    (hparams : (flavor.impl : PluginImpl D S _).params = some params) (base : Base D)
    (s : flavor.State D S) (front back : List (Option (Event D))) (hasOutEvents : Bool) :
    params.paramsFlush base s (some { events := front ++ some e :: back }) hasOutEvents =
      params.paramsFlush base s (some { events := front ++ back }) hasOutEvents := by
  have huntaken := flushEvent_of_untaken (S := S) h base
  cases flavor with
  | hostCheck => cases hparams
  | effect =>
    cases hparams
    exact bind_headers_congr fun as bs _ _ => congrArg Except.ok
      (consume_skip _ as bs e (EffectPlugin.applyParamEvent_of_ignored h base) s)
  | gui =>
    cases hparams
    refine bind_headers_congr fun as bs _ _ => ?_
    have hloop := consume_without huntaken as bs s
    exact congrArg (fun out : Outcome D (GuiPlugin.State D) Unit =>
      (Except.ok { value := (), self := (GuiPlugin.drainQueue out.self hasOutEvents).1
                   pushed := (GuiPlugin.drainQueue out.self hasOutEvents).2 } :
        Exec (Outcome D (GuiPlugin.State D) Unit))) hloop
  | _ =>
    cases hparams
    exact bind_headers_congr fun as bs _ _ => congrArg Except.ok (consume_without huntaken as bs s)

theorem sFlush_without (h : flavor.takesParam e = false) (p : Plugin D (flavor.State D S))
    (thread : ThreadId) (front back : List (Option (Event D))) (hasOutEvents : Bool) :
    flavor.SameView
      (Plugin.Params.sFlush (flavor.impl : PluginImpl D S _) p thread
        (some { events := front ++ some e :: back }) hasOutEvents)
      (Plugin.Params.sFlush (flavor.impl : PluginImpl D S _) p thread
        (some { events := front ++ back }) hasOutEvents) := by
  obtain ⟨q, -, -, -, hq⟩ := Plugin.sFlush_eq (flavor.impl : PluginImpl D S _) p thread
    (some { events := front ++ some e :: back }) hasOutEvents
  obtain ⟨q', -, -, -, hq'⟩ := Plugin.sFlush_eq (flavor.impl : PluginImpl D S _) p thread
    (some { events := front ++ back }) hasOutEvents
  intro r r' hr hr'
  rw [hq] at hr
  rw [hq'] at hr'
  cases hparams : (flavor.impl : PluginImpl D S _).params with
  | none =>
    rw [hparams] at hr
    cases hr
  | some params =>
    rw [hparams] at hr hr'
    change (params.paramsFlush _ _ _ _ >>= _) = _ at hr hr'
    rw [paramsFlush_without h hparams] at hr
    cases hout : params.paramsFlush p.base p.self (some { events := front ++ back })
        hasOutEvents with
    | error fault =>
      rw [hout] at hr
      cases hr
    | ok out =>
      rw [hout] at hr hr'
      cases hr
      cases hr'
      rw [Plugin.absorb_self, Plugin.absorb_self]

omit [DoubleOps D] [FloatOps S] [FloatCast D S] [DoubleBits D] in
/-- Only NoteFx acts on parameter events it does not take: it passes them on. -/
theorem actsOn_of_untaken (hparam : addressesParam e = true) (h : flavor.takesParam e = false)
    (hne : flavor ≠ .noteFx) : flavor.actsOn e = false := by
  have hnote := playsNote_of_addressesParam hparam
  cases flavor with
  | synth => exact Bool.or_eq_false_iff.mpr ⟨h, hnote⟩
  | sidechainSynth => exact Bool.or_eq_false_iff.mpr ⟨h, hnote⟩
  | noteFx => exact absurd rfl hne
  | _ => exact h

/-- What a `process()` call leaves behind is what the flavor's `process` does, or nothing. -/
theorem sProcess_self (hr : flavor.Reachable p) (hp : p.contract.processing = true)
    {thread : ThreadId} {block : ProcessBlock D} {memory : AudioMemory D S}
    {r : Plugin D (flavor.State D S) × Plugin.ProcessReply D S}
    (h : p.sProcess (flavor.impl : PluginImpl D S _) thread block memory = .ok r) :
    if (checkPorts p.contract block).1 then
      ∃ out m, (flavor.impl : PluginImpl D S _).process p.base p.self block memory =
        .ok (out, m) ∧ r.1.self = out.self
    else r.1.self = p.self := by
  obtain ⟨q, hq, heq⟩ := sProcess_eq hr hp thread block memory
  rw [heq] at h
  split at h
  · rename_i hports
    rw [if_pos hports]
    split at h
    · cases h
    · rename_i out m hout
      cases h
      exact ⟨out, m, hout, Plugin.absorb_self _ _⟩
  · rename_i hports
    rw [if_neg hports]
    cases h
    exact hq

omit [DoubleOps D] [DoubleBits D] in
theorem foldl_skip {σ : Type} {f : σ → Event D → σ} (h : ∀ s, f s e = s) (as bs : List (Event D))
    (s : σ) : (as ++ e :: bs).foldl f s = (as ++ bs).foldl f s := by
  rw [List.foldl_append, List.foldl_append, List.foldl_cons, h]

omit [FloatOps S] [FloatCast D S] [DoubleBits D] in
theorem noteFx_process_self (base : Base D) {s : NoteFxPlugin.State D} {block : ProcessBlock D}
    {events : List (Option (Event D))} {memory m : AudioMemory D S}
    {out : Outcome D (NoteFxPlugin.State D) ProcessStatus}
    (h : NoteFxPlugin.process base s (block.withEvents events) memory = .ok (out, m)) :
    ∃ headers, InputEvents.headers { events := events } = .ok headers ∧
      out.self = headers.foldl (fun s e => (NoteFxPlugin.transformEvent s e).self) s := by
  obtain ⟨looped, hloop, hout⟩ := Except.bind_eq_ok (show
    (NoteFxPlugin.transformEvents block.hasOutEvents s events >>= _) = _ from h)
  obtain ⟨headers, rfl⟩ := NoteFxPlugin.events_of_transformEvents hloop
  refine ⟨headers, headers_map headers, ?_⟩
  rw [NoteFxPlugin.transformEvents_map] at hloop
  rw [← consume_self]
  split at hloop
  · cases hloop
    cases hout
    rfl
  · cases hloop

/-- A flagged event that is not taken, in a block: NoteFx passes it on, to the others it is as if
    it were not there. -/
theorem sProcess_without (hr : flavor.Reachable p)
    (hp : p.contract.active = true ∧ p.contract.processing = true)
    (hparam : addressesParam e = true) (h : flavor.takesParam e = false) (thread : ThreadId)
    (block : ProcessBlock D) (memory : AudioMemory D S) {front back : List (Option (Event D))}
    (hsplit : flavor.rendersChunks = true →
      SplitHarmless flavor.actsOn block.framesCount.toNat front back e) :
    flavor.SameView
      (p.sProcess (flavor.impl : PluginImpl D S _) thread
        (block.withEvents (front ++ some e :: back)) memory)
      (p.sProcess (flavor.impl : PluginImpl D S _) thread (block.withEvents (front ++ back))
        memory) := by
  intro r r' hwith hwithout
  by_cases hfx : flavor = .noteFx
  · subst hfx
    have hself := sProcess_self hr hp.2 hwith
    have hself' := sProcess_self hr hp.2 hwithout
    change if (checkPorts p.contract block).1 then _ else _ at hself hself'
    split at hself
    · rename_i hports
      rw [if_pos hports] at hself'
      obtain ⟨out, m, hok, hr₁⟩ := hself
      obtain ⟨out', m', hok', hr₁'⟩ := hself'
      obtain ⟨headers, hheaders, hfold⟩ := noteFx_process_self p.base hok
      obtain ⟨headers', hheaders', hfold'⟩ := noteFx_process_self p.base hok'
      rw [hr₁, hr₁', hfold, hfold']
      rcases headers_without front back e with ⟨as, bs, -, -, hin, hout⟩ | ⟨hfault, -⟩
      · rw [hin] at hheaders
        rw [hout] at hheaders'
        cases hheaders
        cases hheaders'
        have huntaken := processEvent_of_untaken (S := S) hparam h p.base
        exact congrArg (view (S := S) .noteFx) (foldl_skip huntaken as bs p.self)
      · rw [hfault] at hheaders
        cases hheaders
    · rename_i hports
      rw [if_neg hports] at hself'
      rw [hself, hself']
  · have hskipped : Skipped S flavor e fun frames front back =>
        flavor.rendersChunks = true → SplitHarmless flavor.actsOn frames front back e :=
      skipped_of_ignored (actsOn_of_untaken hparam h hfx) fun _ _ _ hallowed => hallowed
    have hreply := hskipped p hr hp thread block memory front back hsplit
    rw [hwith, hwithout] at hreply
    exact hreply.1

/-- A flagged event leaves every parameter value and modulation offset as it was exactly if it is
    settled: no modulation of ParamsZoo's gain, or one that repeats the offset. In a call, a
    flagged event of another kind makes no difference, wherever it stands in the list. -/
theorem flagged_ignored_iff (hr : flavor.Reachable p) (ha : p.contract.active = true)
    (hflagged : Flagged p.contract playing i e) :
    (∀ s : flavor.State D S,
      (flavor.view (flavor.processEvent p.base s e) = flavor.view s ↔ flavor.Settled s e) ∧
      (flavor.view (flavor.flushEvent p.base s e) = flavor.view s ↔ flavor.Settled s e)) ∧
    (¬ (flavor = .paramsZoo ∧ modulatesParam ParamsZooPlugin.kParamGain e = true) →
      (∀ thread front back hasOutEvents, flavor.SameView
        (Plugin.Params.sFlush (flavor.impl : PluginImpl D S _) p thread
          (some { events := front ++ some e :: back }) hasOutEvents)
        (Plugin.Params.sFlush (flavor.impl : PluginImpl D S _) p thread
          (some { events := front ++ back }) hasOutEvents)) ∧
      (p.contract.processing = true → ∀ thread (block : ProcessBlock D) memory front back,
        (flavor.rendersChunks = true →
          SplitHarmless flavor.actsOn block.framesCount.toNat front back e) →
        flavor.SameView
          (p.sProcess (flavor.impl : PluginImpl D S _) thread
            (block.withEvents (front ++ some e :: back)) memory)
          (p.sProcess (flavor.impl : PluginImpl D S _) thread (block.withEvents (front ++ back))
            memory))) := by
  refine ⟨view_processEvent_iff hr ha hflagged p.base, fun hother => ?_⟩
  have huntaken : flavor.takesParam e = false :=
    Bool.eq_false_iff.mpr fun htakes => hother (takesParam_of_flagged hr ha hflagged htakes)
  refine ⟨fun thread front back hasOutEvents =>
    sFlush_without huntaken p thread front back hasOutEvents, fun hp => ?_⟩
  exact fun thread block memory front back hsplit => sProcess_without hr ⟨ha, hp⟩
    (addressesParam_of_flagged hflagged) huntaken thread block memory hsplit

end Calls

end Flavor

/-! ## On an instance -/

/-- ParamsZoo, activated and processing. -/
def runningParamsZoo : Plugin ExactFloat (ParamsZooPlugin.State ExactFloat) :=
  let impl : PluginImpl ExactFloat ExactFloat _ := ParamsZooPlugin.impl
  (((Flavor.instantiate ExactFloat .paramsZoo none).sActivate impl 0 48000 1 512).1.sStartProcessing
    impl 0).1

theorem runningParamsZoo_reachable :
    Flavor.Reachable (S := ExactFloat) .paramsZoo runningParamsZoo :=
  ⟨none, Machine.Reachable.tail (Machine.Reachable.tail (Machine.Reachable.refl _)
    (l := (0, .activate 48000 1 512)) rfl) (l := (0, .startProcessing)) rfl⟩

/-- A value for the read-only meter. -/
def meterWrite : Event ExactFloat :=
  { size := sizeofParamValue, time := 0
    body := .paramValue { paramId := ParamsZooPlugin.kParamPeak } 1 }

theorem flagged_ignored_iff_meterWrite :
    Flavor.view (S := ExactFloat) .paramsZoo
        (ParamsZooPlugin.applyParamEvent runningParamsZoo.self meterWrite) =
      Flavor.view .paramsZoo runningParamsZoo.self ↔
    Flavor.Settled (S := ExactFloat) .paramsZoo runningParamsZoo.self meterWrite := by
  have hflagged : Flagged runningParamsZoo.contract false 0 meterWrite :=
    ⟨rfl, _, List.mem_cons_self, List.mem_cons_of_mem _ List.mem_cons_self⟩
  exact ((Flavor.flagged_ignored_iff runningParamsZoo_reachable rfl hflagged).1
    runningParamsZoo.self).2

/-- A modulation of the gain of note 3: ParamsZoo declares no per-note modulation. -/
def noteGainMod : Event ExactFloat :=
  { size := sizeofParamValue, time := 0
    body := .paramMod { paramId := ParamsZooPlugin.kParamGain, noteId := 3 } 6 }

/-- The flush is reported for P13, and the offset is set all the same. -/
theorem flagged_applied :
    let flushed (events : List (Option (Event ExactFloat))) :=
      (Plugin.Params.sFlush (ParamsZooPlugin.impl : PluginImpl ExactFloat ExactFloat _)
        runningParamsZoo 0 (some { events := events }) true).map fun r =>
          (r.1.self.gainModDb, r.1.contract.counter .P13)
    Flavor.Reachable (S := ExactFloat) .paramsZoo runningParamsZoo ∧
      runningParamsZoo.contract.active = true ∧
      Flagged runningParamsZoo.contract false 0 noteGainMod ∧
      runningParamsZoo.self.gainModDb = 0 ∧
      flushed [some noteGainMod] = .ok (6, 1) ∧ flushed [] = .ok (0, 0) := by
  refine ⟨runningParamsZoo_reachable, rfl, ⟨rfl, _, List.mem_cons_self, ?_⟩, rfl, ?_, ?_⟩
  · exact List.mem_cons_of_mem _ (List.mem_cons_of_mem _ List.mem_cons_self)
  · decide +kernel
  · decide +kernel

end Cvp
