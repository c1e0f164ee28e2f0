/-
  The call order of gui.h, kept twice: in the monitor's two flags and in the editor's view. The
  trampolines ask the flags and the flavor asks the view; `create()` and `destroy()` change both,
  and along every sequence of calls they agree. So every call is judged by the gui there is, and a
  method that uses the view finds one (`gui_call_order`).
-/
import ClapValidatorPlugins.Contract.CallMoves
import ClapValidatorPlugins.Contract.StateRule
import ClapValidatorPlugins.Gui.Calls

namespace Cvp

variable {D S : Type}

/-! ## gui.h -/

namespace GuiMethod

/-- Allowed before `create()`. -/
def anyTime : GuiMethod D → Bool
  | .isApiSupported _ _ | .getPreferredApi => true
  | _ => false

/-- [!floating] -/
def embeddedOnly : GuiMethod D → Bool
  | .canResize | .getResizeHints | .adjustSize _ _ | .setSize _ _ | .setParent => true
  | _ => false

/-- [floating] -/
def floatingOnly : GuiMethod D → Bool
  | .setTransient | .suggestTitle _ => true
  | _ => false

/-- The editor calls its view. -/
def usesView : GuiMethod D → Bool
  | .setScale _ | .getSize | .setSize _ _ | .setParent | .show | .hide => true
  | _ => false

/-- There is no view before `create()`. -/
theorem anyTime_of_usesView {method : GuiMethod D} (h : method.usesView = true) :
    method.anyTime = false := by
  cases method with
  | isApiSupported api isFloating => cases h
  | getPreferredApi => cases h
  | _ => rfl

end GuiMethod

namespace Call

/-- A call on `clap.gui`. -/
def isGui : Call D S → Bool
  | .guiCreate .. | .guiDestroy | .gui .. => true
  | _ => false

/-- `create()` or `destroy()`. -/
def makesGui : Call D S → Bool
  | .guiCreate .. | .guiDestroy => true
  | _ => false

/-- What the call breaks, where `gui` says whether the gui there is floats. -/
def verdict (gui : Option Bool) : Call D S → Option Violation
  | .guiCreate .. => if gui.isSome then some .G02 else none
  | .guiDestroy => if gui.isSome then none else some .G03
  | .gui method _ =>
    match gui with
    | none => if method.anyTime then none else some .G01
    | some true => if method.embeddedOnly then some .G04 else none
    | some false => if method.floatingOnly then some .G04 else none
  | _ => none

/-- The gui behind the call. -/
def guiBehind (gui : Option Bool) (call : Call D S) (result : Result D S) : Option Bool :=
  match call, result with
  | .guiCreate _ isFloating _, .bool true => some isFloating
  | .guiDestroy, _ => none
  | _, _ => gui

end Call

theorem Call.guiBehind_create (gui : Option Bool) (api : Option String) (isFloating : Bool)
    (native : NativeAnswer) (made : Bool) :
    (.guiCreate api isFloating native : Call D S).guiBehind gui (.bool made) =
      if made then some isFloating else gui := by
  cases made <;> rfl

theorem Call.guiBehind_other (gui : Option Bool) {call : Call D S} (h : call.makesGui = false)
    (result : Result D S) : call.guiBehind gui result = gui := by
  cases call with
  | guiCreate api isFloating native => cases h
  | guiDestroy => cases h
  | _ => rfl

/-- The codes of the G table. -/
def guiCodes : List Violation := [.G01, .G02, .G03, .G04]

namespace GuiPlugin

/-! ## Runs -/

/-- The method of the flavor that the call reaches, and the state it finds. -/
def reached (p : Plugin D (State D)) (thread : ThreadId) :
    Call D S → Option (GuiMethod D × State D)
  | .gui method _ =>
    let q := p.assertMainThread thread (Plugin.Gui.functionName method)
    match Plugin.Gui.broken q method with
    | some _ => none
    | none => some (method, q.self)
  | _ => none

/-- The two flags of the monitor and the view are those of the gui there is. -/
structure Agrees (gui : Option Bool) (p : Plugin D (State D)) : Prop where
  created : p.contract.guiCreated = p.self.view
  floating : p.contract.guiFloating = true ↔ gui = some true
  view : p.self.view = gui.isSome

/-! ## The flags -/

/-- The two flags are as they were. -/
structure SameFlags (m m' : ContractMonitor) : Prop where
  created : m'.guiCreated = m.guiCreated
  floating : m'.guiFloating = m.guiFloating

theorem sameFlags_of_shifts {σ : Type} {p q : Plugin D σ} {vs : List Violation}
    {f : ContractMonitor → ContractMonitor} (h : Plugin.Shifts p q vs f)
    (hf : ∀ m, SameFlags m (f m)) : SameFlags p.contract q.contract :=
  ⟨(h.field ContractMonitor.guiCreated fun _ => rfl).trans (hf _).created,
    (h.field ContractMonitor.guiFloating fun _ => rfl).trans (hf _).floating⟩

/-- Only `create()` and `destroy()` touch the flags. -/
theorem sameFlags_after {call : Call D S} (h : call.makesGui = false) {σ : Type}
    (impl : PluginImpl D S σ) (s : σ) (made : Bool) (m : ContractMonitor) :
    SameFlags m (call.after impl s made m) := by
  cases call with
  | guiCreate api isFloating native => cases h
  | guiDestroy => cases h
  | activate sampleRate minFrames maxFrames =>
    unfold Call.after
    dsimp only
    split
    · exact ⟨rfl, rfl⟩
    · exact ⟨rfl, rfl⟩
  | deactivate =>
    unfold Call.after
    dsimp only
    split
    · exact ⟨rfl, rfl⟩
    · exact ⟨rfl, rfl⟩
  | startProcessing =>
    unfold Call.after
    dsimp only
    split
    · exact ⟨rfl, rfl⟩
    · exact ⟨rfl, rfl⟩
  | process block memory =>
    obtain ⟨valid, steadyEnd, hrebased⟩ := Plugin.rebased_eq block m
    unfold Call.after
    dsimp only
    split
    · exact ⟨rfl, rfl⟩
    · split
      · rw [hrebased]
        exact ⟨rfl, rfl⟩
      · exact ⟨rfl, rfl⟩
  | _ => exact ⟨rfl, rfl⟩

theorem Agrees.of_same {gui : Option Bool} {p q : Plugin D (State D)} (h : Agrees gui p)
    (hflags : SameFlags p.contract q.contract) (hview : q.self.view = p.self.view) :
    Agrees gui q := by
  refine ⟨?_, ?_, hview.trans h.view⟩
  · rw [hflags.created, hview]
    exact h.created
  · rw [hflags.floating]
    exact h.floating

/-- What the two flags are set to is what the view is then. -/
theorem Agrees.of_set {isFloating : Bool} {p : Plugin D (State D)} (hview : p.self.view = true) :
    Agrees (some isFloating)
      { p with contract := p.contract.setGuiCreated true isFloating } := by
  refine ⟨hview.symm, ?_, hview⟩
  show isFloating = true ↔ _
  cases isFloating <;> decide

/-! ## The guard -/

/-- The flags are those of the gui there is. -/
theorem Agrees.flags {gui : Option Bool} {p : Plugin D (State D)} (h : Agrees gui p) :
    p.contract.guiCreated = gui.isSome ∧ p.contract.guiFloating = gui.getD false := by
  refine ⟨h.created.trans h.view, ?_⟩
  have hfloating := h.floating
  cases hf : p.contract.guiFloating with
  | true =>
    rw [hf] at hfloating
    rw [hfloating.mp rfl]
    rfl
  | false =>
    rw [hf] at hfloating
    cases gui with
    | none => rfl
    | some isFloating =>
      cases isFloating with
      | false => rfl
      | true => cases hfloating.mpr rfl

/-- The guard finds what the call breaks. -/
theorem broken_verdict {gui : Option Bool} {p : Plugin D (State D)} (h : Agrees gui p)
    (method : GuiMethod D) (native : NativeAnswer) :
    (Plugin.Gui.broken p method).map (·.violation) =
      (.gui method native : Call D S).verdict gui := by
  obtain ⟨hcreated, hfloating⟩ := h.flags
  unfold Plugin.Gui.broken
  rw [hcreated, hfloating]
  cases gui with
  | none => cases method <;> rfl
  | some isFloating => cases isFloating <;> cases method <;> rfl

/-- What the guard lets through finds the view it uses. -/
theorem view_of_reached {gui : Option Bool} {p : Plugin D (State D)} (h : Agrees gui p)
    {thread : ThreadId} {call : Call D S} {method : GuiMethod D} {state : State D}
    (hreached : reached p thread call = some (method, state)) (huses : method.usesView = true) :
    state.view = true := by
  cases call with
  | gui asked native =>
    have hchecked : Agrees gui (p.assertMainThread thread (Plugin.Gui.functionName asked)) :=
      h.of_same (sameFlags_of_shifts
        (Plugin.moves_assertMainThread p thread (Plugin.Gui.functionName asked)).toShifts
        fun _ => ⟨rfl, rfl⟩) rfl
    have hverdict := broken_verdict (S := S) hchecked asked native
    unfold reached at hreached
    dsimp only at hreached
    split at hreached
    · cases hreached
    · rename_i hfine
      cases hreached
      rw [hfine] at hverdict
      rw [hchecked.view]
      cases gui with
      | some isFloating => rfl
      | none =>
        have hlate : ¬ method.anyTime = true := by
          rw [GuiMethod.anyTime_of_usesView huses]
          exact Bool.false_ne_true
        cases hverdict.trans (if_neg hlate)
  | _ => cases hreached

/-- A thread finding is under none of these codes. -/
theorem bump_verdict {σ : Type} (p : Plugin D σ) (thread : ThreadId)
    (counters : Violation → UInt32) (verdict : Option Violation) {code : Violation}
    (hcode : code ∈ guiCodes) :
    bump counters (p.mainCodes thread ++ verdict.toList) code =
      counters code + if verdict = some code then 1 else 0 := by
  have hthread : code ∉ p.mainCodes thread := by
    intro hmem
    rw [Plugin.eq_of_mem_mainCodes hmem] at hcode
    exact absurd hcode (by decide)
  rw [bump_append, bump, bump_of_not_mem counters hthread]
  cases verdict with
  | none => rfl
  | some v =>
    by_cases hv : v = code
    · rw [hv, if_pos rfl, Option.toList_some, List.count_singleton_self]
      rfl
    · rw [if_neg fun h => hv (Option.some.inj h), Option.toList_some,
        List.count_singleton, if_neg (by simpa using hv)]
      rfl

/-! ## Calls -/

variable [DoubleOps D] [FloatOps S] [FloatCast D S] [DoubleBits D]

/-- Calls together with the gui that `create()` has made. -/
def guiStep : Machine.Step (Instance D (State D) × Option Bool) (ThreadId × Call D S)
    (Reply D S) Fault :=
  Machine.remembering (hostStep impl) fun gui _ l o => l.2.guiBehind gui o.result

/-- Between two calls. -/
def InStep (s : Instance D (State D) × Option Bool) : Prop :=
  ∀ p, s.1 = .alive p → Agrees s.2 p

/-- A call on `clap.gui` is counted under the one code it breaks, or under none; and what it
    reaches finds the view it uses. -/
structure Judged (s : Instance D (State D) × Option Bool) (l : ThreadId × Call D S)
    (s' : Instance D (State D) × Option Bool) (_ : Reply D S) : Prop where
  counts : ∀ p, s.1 = .alive p → l.2.isGui = true → ∀ code ∈ guiCodes,
    s'.1.contract.findings.counters code = p.contract.findings.counters code +
      if l.2.verdict s.2 = some code then 1 else 0
  finds : ∀ p method state, s.1 = .alive p → reached p l.1 l.2 = some (method, state) →
    method.usesView = true → state.view = true

/-- What `sMethod` does is what it reaches. -/
theorem sMethod_reached (p : Plugin D (State D)) (thread : ThreadId) (method : GuiMethod D)
    (native : NativeAnswer) :
    match reached (S := S) p thread (.gui method native) with
    | some (method, state) => ∃ q, Plugin.Gui.sMethod (impl : PluginImpl D S _) p thread method
        native = .ok (q, (guiMethod state method native).value) ∧
          q.self = (guiMethod state method native).self
    | none => ∃ q, Plugin.Gui.sMethod (impl : PluginImpl D S _) p thread method native =
        .ok (q, false) ∧ q.self = p.self := by
  cases hbroken : Plugin.Gui.broken
      (p.assertMainThread thread (Plugin.Gui.functionName method)) method with
  | some finding =>
    simp only [reached, Plugin.Gui.sMethod, hbroken]
    exact ⟨_, rfl, rfl⟩
  | none =>
    simp only [reached, Plugin.Gui.sMethod, hbroken]
    exact ⟨_, rfl, Plugin.absorb_self _ _⟩

/-! ## The view -/

/-- Only `create()` and `destroy()` touch the view. -/
def KeepsView (call : Call D S) (s s' : State D) : Prop :=
  call.makesGui = false → s'.view = s.view

theorem keepsView : StateRule (impl : PluginImpl D S (State D)) KeepsView where
  unreached _ _ _ := rfl
  init base s _ _ := by
    show (init base s).self.view = s.view
    unfold init
    split
    · rfl
    · rfl
  activate _ _ _ _ _ _ _ _ _ := rfl
  deactivate _ _ _ := rfl
  stopAndDeactivate _ _ _ _ := rfl
  startProcessing _ _ _ := rfl
  stopProcessing _ _ _ := rfl
  reset _ _ _ := rfl
  onMainThread _ _ _ := rfl
  process base s block memory := by
    show Yields (process base s block memory) _
    unfold process
    split
    · refine Yields.andThen fun headers => Yields.andThen fun m => Yields.of_ok fun _ => ?_
      have hview : (headers.foldl processEvent (s, block.transport)).1.view = s.view := by
        rw [foldl_processEvent, foldl_applyParamEvent]
      exact hview
    · exact Yields.of_ok fun _ => rfl
  paramsFlush := by
    rintro _ ⟨⟩ base s events hasOut
    refine Yields.andThen fun headers => Yields.of_ok fun _ => ?_
    rw [consume_done]
    have hview : (headers.foldl applyParamEvent s).view = s.view := by
      rw [foldl_applyParamEvent]
    exact hview
  stateSave := by
    rintro _ ⟨⟩ s stream
    exact Yields.andThen fun r => Yields.of_ok fun _ => rfl
  stateLoad := by
    rintro _ ⟨⟩ s stream
    exact Yields.andThen fun r => Yields.of_ok fun _ => rfl
  guiCreate _ _ _ _ _ _ h := nomatch h
  guiDestroy _ _ _ h := nomatch h
  guiMethod := by
    rintro _ ⟨⟩ s method native _
    cases method <;> rfl
  uiEdit := by
    rintro base s edit _ ⟨⟩ _
    cases edit <;> rfl

/-! ## Steps -/

omit [DoubleOps D] [DoubleBits D] in
/-- Without a view, `guiCreate` returns whether there is one behind it. -/
theorem guiCreate_view {s : State D} (h : s.view = false) (api : Option String)
    (isFloating : Bool) (native : NativeAnswer) :
    (guiCreate s api isFloating native).self.view =
      (guiCreate s api isFloating native).value := by
  unfold guiCreate
  dsimp only
  split
  · exact h
  · split
    · exact h
    · rfl

theorem agrees_sCreate {gui : Option Bool} {p : Plugin D (State D)} (h : Agrees gui p)
    (thread : ThreadId) (api : Option String) (isFloating : Bool) (native : NativeAnswer) :
    Yields (Plugin.Gui.sCreate (impl : PluginImpl D S _) p thread api isFloating native) fun r =>
      Agrees (if r.2 then some isFloating else gui) r.1 := by
  let q := p.assertMainThread thread "sCreate"
  have hq : Agrees gui q := h.of_same
    (sameFlags_of_shifts (Plugin.moves_assertMainThread p thread "sCreate").toShifts
      fun _ => ⟨rfl, rfl⟩) rfl
  unfold Plugin.Gui.sCreate
  dsimp only
  split
  · exact Yields.of_ok (hq.of_same ⟨rfl, rfl⟩ rfl)
  · rename_i hfree
    refine Plugin.yields_provider fun provider hprovider => Yields.of_ok ?_
    cases hprovider
    have hview : q.self.view = false := hq.created.symm.trans (Bool.eq_false_iff.mpr hfree)
    let out := guiCreate q.self api isFloating native
    have hout : (q.absorb out).self.view = out.value := by
      rw [Plugin.absorb_self]
      exact guiCreate_view hview api isFloating native
    obtain ⟨asked, hshifts⟩ := Plugin.shifts_absorb q out
    cases hvalue : out.value with
    | false =>
      exact hq.of_same (sameFlags_of_shifts hshifts fun _ => ⟨rfl, rfl⟩)
        (hout.trans (hvalue.trans hview.symm))
    | true => exact Agrees.of_set (hout.trans hvalue)

theorem agrees_sDestroy (p : Plugin D (State D)) (thread : ThreadId) :
    Yields (Plugin.Gui.sDestroy (impl : PluginImpl D S _) p thread) fun q => Agrees none q := by
  unfold Plugin.Gui.sDestroy
  refine Plugin.yields_provider fun provider hprovider => Yields.of_ok ?_
  cases hprovider
  have hview : ∀ q : Plugin D (State D), (q.absorb (guiDestroy q.self)).self.view = false := by
    intro q
    rw [Plugin.absorb_self]
    rfl
  exact ⟨(hview _).symm, ⟨nofun, nofun⟩, hview _⟩

theorem agrees_step {gui : Option Bool} {p q : Plugin D (State D)} {l : ThreadId × Call D S}
    {o : Reply D S} (h : Agrees gui p)
    (hstep : hostStep (impl : PluginImpl D S _) (.alive p) l = .ok (.alive q, o)) :
    Agrees (l.2.guiBehind gui o.result) q := by
  obtain ⟨thread, call⟩ := l
  have hcall := hostStep_call hstep
  have hfresh : Agrees gui { p with hostCalls := [] } := ⟨h.created, h.floating, h.view⟩
  cases hmakes : call.makesGui with
  | false =>
    obtain ⟨made, asked, hmoves⟩ := (Plugin.hostStep_moves Flavor.gui.tame hstep).moves q rfl
    have hafter := sameFlags_after hmakes impl q.self made p.contract.tracked
    have hflags : SameFlags p.contract q.contract :=
      ⟨(congrArg ContractMonitor.guiCreated hmoves.tracked).trans hafter.created,
        (congrArg ContractMonitor.guiFloating hmoves.tracked).trans hafter.floating⟩
    rw [Call.guiBehind_other gui hmakes]
    exact h.of_same hflags (Plugin.hostStep_self keepsView hstep hmakes)
  | true =>
    cases call with
    | guiCreate api isFloating native =>
      obtain ⟨r, hr, hret⟩ := Except.bind_eq_ok hcall
      obtain ⟨hq, hresult⟩ := Prod.mk.inj (Except.ok.inj hret)
      cases hq
      rw [← hresult, Call.guiBehind_create]
      exact agrees_sCreate hfresh thread api isFloating native r hr
    | guiDestroy =>
      obtain ⟨r, hr, hret⟩ := Except.bind_eq_ok hcall
      obtain ⟨hq, -⟩ := Prod.mk.inj (Except.ok.inj hret)
      cases hq
      exact agrees_sDestroy _ thread q hr
    | _ => cases hmakes

theorem codes_verdict {gui : Option Bool} {p : Plugin D (State D)} (h : Agrees gui p)
    {call : Call D S} (hgui : call.isGui = true) (thread : ThreadId) :
    call.codes impl thread p = p.mainCodes thread ++ (call.verdict gui).toList := by
  have hcreated := h.flags.1
  cases call with
  | guiCreate api isFloating native =>
    show _ ++ Plugin.codeIf p.contract.guiCreated .G02 = _
    rw [hcreated]
    cases gui <;> rfl
  | guiDestroy =>
    show _ ++ Plugin.codeIf (!p.contract.guiCreated) .G03 = _
    rw [hcreated]
    cases gui <;> rfl
  | gui method native =>
    show _ ++ (Plugin.Gui.broken p method).toList.map (·.violation) = _
    rw [← broken_verdict h method native]
    cases Plugin.Gui.broken p method <;> rfl
  | _ => cases hgui

theorem judged_step {s s' : Instance D (State D) × Option Bool} {l : ThreadId × Call D S}
    {o : Reply D S} (h : InStep s) (hstep : guiStep s l = .ok (s', o)) : Judged s l s' o := by
  obtain ⟨hcall, -⟩ := Machine.remembering_ok hstep
  obtain ⟨i, gui⟩ := s
  dsimp only at hcall
  constructor
  · rintro p rfl hgui code hcode
    have hagrees : Agrees gui p := h p rfl
    have hcounts := (Plugin.hostStep_moves Flavor.gui.tame hcall).counts (by
      rintro hclear
      rw [hclear] at hgui
      cases hgui)
    have hcounters : s'.1.contract.findings.counters =
        bump p.contract.findings.counters (l.2.codes impl l.1 { p with hostCalls := [] }) :=
      hcounts.counters
    have hfresh : Agrees gui { p with hostCalls := [] } :=
      ⟨hagrees.created, hagrees.floating, hagrees.view⟩
    rw [hcounters, codes_verdict hfresh hgui]
    exact bump_verdict _ l.1 _ _ hcode
  · rintro p method state rfl hreached huses
    exact view_of_reached (h p rfl) hreached huses

theorem inStep_step {s s' : Instance D (State D) × Option Bool} {l : ThreadId × Call D S}
    {o : Reply D S} (h : InStep s) (hstep : guiStep s l = .ok (s', o)) : InStep s' := by
  obtain ⟨hcall, hgui⟩ := Machine.remembering_ok hstep
  obtain ⟨i, gui⟩ := s
  obtain ⟨i', gui'⟩ := s'
  rintro q rfl
  dsimp only at hcall hgui ⊢
  obtain ⟨p, rfl, -⟩ := hostStep_ok hcall
  rw [hgui]
  exact agrees_step (h p rfl) hcall

/-- Over every sequence of calls on an instance of the flavor, legal or not, with views that come
    about or not: the monitor's flags and the view are those of the gui that `create()` has made and
    `destroy()` has not ended, every call on `clap.gui` is counted under the one G code it breaks or
    under none, and a method that uses the view finds one. -/
theorem gui_call_order (host : Option Host) (calls : List (ThreadId × Call D S)) :
    Machine.AllStates guiStep InStep (.alive (Flavor.gui.instantiate S host), none) calls ∧
      Machine.AllSteps guiStep Judged (.alive (Flavor.gui.instantiate S host), none) calls := by
  have hnew : InStep
      ((.alive (Flavor.gui.instantiate S host), none) : Instance D (State D) × Option Bool) := by
    rintro _ ⟨⟩
    exact ⟨rfl, ⟨nofun, nofun⟩, rfl⟩
  have hany : Machine.AllSteps guiStep (fun _ _ _ _ => True)
      (.alive (Flavor.gui.instantiate S host), none) calls :=
    Machine.allSteps_of_labels (P := fun _ => True) fun _ _ => trivial
  refine ⟨Machine.allStates_of_allSteps (fun _ h => h)
    (fun _ _ _ _ h hs _ => inStep_step h hs) hnew hany, ?_⟩
  exact (Machine.allSteps_congr (I := InStep)
    (fun _ _ _ _ h hs => iff_of_true (judged_step h hs) trivial)
    (fun _ _ _ _ h hs _ => inStep_step h hs) hnew calls).mpr hany

end GuiPlugin

end Cvp
