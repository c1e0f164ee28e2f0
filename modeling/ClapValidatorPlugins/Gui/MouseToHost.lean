/-
  From the mouse to the host. `guiCreate` opens the window of the platform, `guiDestroy` closes it,
  and so on; what the windows call on the model goes through the queue, in step with any other calls
  on the plugin. The host sees whole gestures, and once the queue has run dry it sees a gesture open
  on exactly the parameters whose slider is held (`gestures_reach_host`); a window that is closed
  with a slider held leaves its gesture open for good. Of the edits, each reaches the host once and
  in order as long as no `clear()` finds any (`edits_delivered`).
-/
import ClapValidatorPlugins.Gui.Gestures
import ClapValidatorPlugins.Gui.SliderViews

namespace Cvp.GuiPlugin

open ParamEventQueue Machine Interleaving Alternation
open SliderViews (openBehind inOrder_append)
open X11View (InOrder ParamDesc)

variable {D : Type}

/-! ## Edits in order -/

theorem openBehind_append (xs ys : List (UiEdit D)) :
    openBehind (xs ++ ys) = ys.foldl track (openBehind xs) := List.foldl_append

theorem inOrder_of_prefix {xs ys : List (UiEdit D)} (h : InOrder (fun _ => false) ys)
    (hfront : xs <+: ys) : InOrder (fun _ => false) xs := by
  obtain ⟨rest, rfl⟩ := hfront
  exact ((inOrder_append xs rest _).mp h).1

/-- The parameter an edit is on. -/
def paramOf : UiEdit D → ClapId
  | .beginGesture id | .setValue id _ | .endGesture id => id

theorem fits_congr {g g' : ClapId → Bool} {edit : UiEdit D}
    (h : g' (paramOf edit) = g (paramOf edit)) : fits g' edit ↔ fits g edit := by
  cases edit <;> simp_all [fits, paramOf]

theorem track_congr {g g' : ClapId → Bool} (edit : UiEdit D) {id : ClapId} (h : g' id = g id) :
    track g' edit id = track g edit id := by
  cases edit <;> simp [track, Function.update_apply, h]

theorem track_other (g : ClapId → Bool) {edit : UiEdit D} {id : ClapId} (h : id ≠ paramOf edit) :
    track g edit id = g id := by
  cases edit with
  | beginGesture => exact Function.update_of_ne h _ _
  | setValue => rfl
  | endGesture => exact Function.update_of_ne h _ _

/-- Gestures that are open on other parameters do not matter. -/
theorem inOrder_apart {others : ClapId → Prop} (ys : List (UiEdit D)) :
    ∀ {g g' : ClapId → Bool}, (∀ edit ∈ ys, ¬ others (paramOf edit)) →
      (∀ id, ¬ others id → g' id = g id) → InOrder g ys →
      InOrder g' ys ∧ (∀ id, ¬ others id → ys.foldl track g' id = ys.foldl track g id) ∧
        ∀ id, others id → ys.foldl track g' id = g' id := by
  induction ys with
  | nil => exact fun _ hagree _ => ⟨trivial, hagree, fun _ _ => rfl⟩
  | cons edit ys ih =>
    intro g g' hapart hagree horder
    obtain ⟨hedit, hys⟩ := List.forall_mem_cons.mp hapart
    obtain ⟨hfits, hrest⟩ := horder
    have hagree' : ∀ id, ¬ others id → track g' edit id = track g edit id :=
      fun id hid => track_congr edit (hagree id hid)
    obtain ⟨horder', hsame, hleft⟩ := ih hys hagree' hrest
    refine ⟨⟨(fits_congr (hagree _ hedit)).mpr hfits, horder'⟩, hsame, fun id hid => ?_⟩
    have hne : id ≠ paramOf edit := fun heq => hedit (heq ▸ hid)
    exact (hleft id hid).trans (track_other g' hne)

/-! ## The queue's side -/

/-- The calls of the editor that have come to the model, and what the host has received. -/
structure Traffic (D : Type) where
  called : List (UiEdit D) := []
  emitted : List (Event D) := []

/-- The thread of the editor makes one call after the other, and the host drains into an output
    list; any other call may come at any time. -/
def editsToHost : Observer (Pool D) (Traffic D) (Move (Request D)) (Option (Seen D)) where
  allows pool _ move :=
    match move with
    | .enter (.edit _) => ∀ c ∈ pool.calls, c.isEdit = false
    | .enter (.process _ _ hasOutEvents) | .enter (.paramsFlush _ hasOutEvents) =>
      hasOutEvents = true
    | _ => True
  next traffic move seen :=
    { called :=
        match move with
        | .enter (.edit edit) => traffic.called ++ [edit]
        | _ => traffic.called
      emitted := traffic.emitted ++ emittedOf [seen] }

/-- As long as the calls are in order, the line to the host is. -/
def CarriesOrder (pool : Pool D) (traffic : Traffic D) : Prop :=
  InOrder (fun _ => false) traffic.called →
    InLine pool ⟨openBehind traffic.called, traffic.emitted⟩

theorem CarriesOrder.enter {pool : Pool D} {traffic : Traffic D} (h : CarriesOrder pool traffic)
    {request : Request D} (hallows : editsToHost.allows pool traffic (.enter request)) :
    CarriesOrder { pool with calls := pool.calls ++ [startPlace request] }
      (editsToHost.next traffic (.enter request) none) := by
  intro horder
  cases request with
  | edit edit =>
    obtain ⟨hbefore, hfits, -⟩ := (inOrder_append traffic.called [edit] _).mp horder
    have hallows' : gesturesToHost.allows pool ⟨openBehind traffic.called, traffic.emitted⟩
        (.enter (.edit edit)) := ⟨hallows, hfits⟩
    have hentered := (h hbefore).enter hallows'
    rwa [editsToHost, openBehind_append]
  | process hasPorts events hasOutEvents => exact (h horder).enter hallows
  | paramsFlush events hasOutEvents => exact (h horder).enter hallows
  | stateLoad records ok => exact (h horder).enter hallows
  | deactivate => exact (h horder).enter hallows

theorem CarriesOrder.step {pool pool' : Pool D} {traffic : Traffic D} {move : Move (Request D)}
    {seen : Option (Seen D)} (h : CarriesOrder pool traffic)
    (hallows : (editsToHost.given fun pool _ move => CutsNoGesture pool move).allows pool traffic
      move) (hnext : program.next pool move = .ok (pool', seen)) :
    CarriesOrder pool' (editsToHost.next traffic move seen) := by
  obtain ⟨hallows, hcut⟩ := hallows
  rcases next_cases hnext with
    ⟨request, rfl, -, rfl, rfl⟩ | ⟨i, c, m, c', w, rfl, hc, hstep, rfl, rfl⟩
  · exact h.enter hallows
  · exact fun horder => (h horder).advance hc hstep hcut

theorem carriesOrder_run {params : ParamValues D} {moves : List (Move (Request D))}
    {pool : Pool D} {traffic : Traffic D}
    (hrun : ObservedRun program.next
      (editsToHost.given fun pool _ move => CutsNoGesture pool move)
      { shared := { params := params } } {} moves pool traffic) : CarriesOrder pool traffic := by
  refine hrun.invariant (R := CarriesOrder) ?_ fun _ => inLine_start params
  intro s t move s' o h hallows hnext
  exact h.step hallows hnext

/-- Every call is through, and nothing is left in the queue. -/
structure AtRest (pool : Pool D) : Prop where
  returned : ∀ c ∈ pool.calls, c = .returned
  drained : pool.shared.paramQueue = []

/-- What the host has seen of parameter `id`, read to its end: whether a gesture is open. -/
def openAtHost (id : ClapId) (emitted : List (Event D)) : Option Bool :=
  phase false (emitted.filterMap (markOf id))

theorem InLine.openAtHost_of_atRest {pool : Pool D} {view : View D} (h : InLine pool view)
    (hrest : AtRest pool) (id : ClapId) :
    openAtHost id view.emitted = some (view.inGesture id) := by
  have hphase := h.phased id
  have hheld : pool.calls.flatMap (fun c => marks id c.held) = [] :=
    List.flatMap_eq_nil_iff.mpr fun c hc => by
      rw [hrest.returned c hc]
      rfl
  have hunqueued : pool.calls.flatMap (fun c => marks id c.unqueued) = [] :=
    List.flatMap_eq_nil_iff.mpr fun c hc => by
      rw [hrest.returned c hc]
      rfl
  have hqueued : marks id pool.shared.paramQueue = [] := by
    rw [hrest.drained]
    rfl
  rwa [line, hheld, hunqueued, hqueued, List.append_nil, List.append_nil, List.append_nil]
    at hphase

/-! ## Every edit once, and in order -/

section Delivery

variable (p : Event D → Bool)

/-- The events items are forwarded as, of those that `p` picks. -/
def picked (items : List (Item D)) : List (Event D) := (items.map Item.event).filter p

theorem picked_append (xs ys : List (Item D)) :
    picked p (xs ++ ys) = picked p xs ++ picked p ys := by
  simp [picked]

/-- Everything from the host back to the editor, oldest first. -/
def eventLine (pool : Pool D) (traffic : Traffic D) : List (Event D) :=
  traffic.emitted.filter p ++ (pool.calls.flatMap (fun c => picked p c.held) ++
    (picked p pool.shared.paramQueue ++ pool.calls.flatMap fun c => picked p c.unqueued))

/-- What has to hold of a step: `deactivate` finds nothing queued, and a drain takes items only
    while no other drain still holds any. -/
def LosesNothing (pool : Pool D) (move : Move (Request D)) : Prop :=
  ∀ i c, move = .advance i → pool.calls[i]? = some c →
    (c = .clear → picked p pool.shared.paramQueue = []) ∧
    (∀ hasOutEvents, c = .events [] hasOutEvents → picked p pool.shared.paramQueue ≠ [] →
      ∀ d ∈ pool.calls, picked p d.held = [])

/-- The line holds each edit once. -/
structure Delivers (pool : Pool D) (traffic : Traffic D) : Prop where
  forwards : ∀ c ∈ pool.calls, c.forwards = true
  edits : OneEdit pool.calls
  drains : AllPairs (fun c d => picked p c.held = [] ∨ picked p d.held = []) pool.calls
  line : eventLine p pool traffic = picked p (traffic.called.map itemOf)

variable {p} {pool : Pool D} {traffic : Traffic D} {i : Nat} {c c' : Place D} {m' : Memory D}
  {pushed : List (Event D)}

theorem picked_unqueued_of_not_isEdit (c : Place D) (h : c.isEdit = false) :
    picked p c.unqueued = [] := by
  cases c with
  | store id x => cases h
  | push item => cases h
  | _ => rfl

/-- A drain forwards its first item, and the others hold nothing that would have come before. -/
theorem Delivers.flatMap_held (h : Delivers p pool traffic) (hc : pool.calls[i]? = some c)
    {item : Item D} (hheld : c.held = item :: c'.held) :
    pool.calls.flatMap (fun c => picked p c.held) =
      picked p [item] ++ (pool.calls.set i c').flatMap fun c => picked p c.held := by
  have hsplit : picked p c.held = picked p [item] ++ picked p c'.held := by
    rw [hheld, ← picked_append, List.singleton_append]
  by_cases hnone : picked p c.held = []
  · obtain ⟨hitem, hrest⟩ := List.append_eq_nil_iff.mp (hsplit.symm.trans hnone)
    have hsame : (pool.calls.set i c').flatMap (fun c => picked p c.held) =
        pool.calls.flatMap fun c => picked p c.held := flatMap_set_same hc (hrest.trans hnone.symm)
    rw [hsame, hitem, List.nil_append]
  · have halone : ∀ (j : Nat) (d : Place D), i ≠ j → pool.calls[j]? = some d →
        picked p d.held = [] :=
      fun j d hij hd => (h.drains i j c d hij hc hd).resolve_left hnone
    rw [flatMap_alone hc halone, flatMap_set_alone hc halone]
    exact hsplit

theorem Delivers.line_advance (h : Delivers p pool traffic) (hc : pool.calls[i]? = some c)
    (hcarry : Carries pool.shared m' c c' pushed) (hkeeps : LosesNothing p pool (.advance i)) :
    eventLine p ⟨m', pool.calls.set i c'⟩ ⟨traffic.called, traffic.emitted ++ pushed⟩ =
      picked p (traffic.called.map itemOf) := by
  have hline := h.line
  unfold eventLine at hline ⊢
  dsimp only
  have hunqueued : c'.unqueued = c.unqueued →
      (pool.calls.set i c').flatMap (fun c => picked p c.unqueued) =
        pool.calls.flatMap fun c => picked p c.unqueued :=
    fun heq => flatMap_set_same hc (congrArg (picked p) heq)
  have hheld : c'.held = c.held →
      (pool.calls.set i c').flatMap (fun c => picked p c.held) =
        pool.calls.flatMap fun c => picked p c.held :=
    fun heq => flatMap_set_same hc (congrArg (picked p) heq)
  cases hcarry with
  | kept hqueue hsame hsame' =>
    rw [hqueue, hheld hsame, hunqueued hsame', List.append_nil]
    exact hline
  | queued item hqueue hitem hnone hsame hedit =>
    have halone := h.edits.alone hc hedit (picked_unqueued_of_not_isEdit (p := p))
    have hbefore : pool.calls.flatMap (fun c => picked p c.unqueued) = picked p [item] :=
      (flatMap_alone hc halone).trans (congrArg (picked p) hitem)
    have hafter : (pool.calls.set i c').flatMap (fun c => picked p c.unqueued) = [] :=
      (flatMap_set_alone hc halone).trans (congrArg (picked p) hnone)
    rw [hbefore] at hline
    rw [hqueue, hheld hsame, hafter, picked_append, List.append_nil, List.append_nil]
    exact hline
  | took hasOutEvents hplace hbatch hqueue hsame =>
    have hbefore : picked p c.held = [] := by
      rw [hplace]
      rfl
    have hmoved : (pool.calls.set i c').flatMap (fun c => picked p c.held) =
        pool.calls.flatMap (fun c => picked p c.held) ++ picked p pool.shared.paramQueue := by
      by_cases hempty : picked p pool.shared.paramQueue = []
      · rw [hempty, List.append_nil]
        refine flatMap_set_same hc ?_
        rw [hbatch, hempty, hbefore]
      · have halone := (hkeeps i c rfl hc).2 hasOutEvents hplace hempty
        rw [List.flatMap_eq_nil_iff.mpr halone, List.nil_append, flatMap_set_alone hc
          fun j d _ hd => halone d (List.mem_of_getElem? hd), hbatch]
    have hnone : picked p ([] : List (Item D)) = [] := rfl
    rw [hqueue, hmoved, hunqueued hsame, hnone, List.append_nil, List.append_assoc,
      List.nil_append]
    exact hline
  | emitted item hqueue hfirst hsame =>
    rw [h.flatMap_held hc hfirst] at hline
    rw [hqueue, hunqueued hsame, List.filter_append]
    simp only [List.append_assoc] at hline ⊢
    exact hline
  | cleared hplace hqueue hsame hsame' =>
    have hempty := (hkeeps i c rfl hc).1 hplace
    rw [hempty] at hline
    rw [hqueue, hheld hsame, hunqueued hsame', List.append_nil]
    exact hline

theorem Delivers.held_advance (h : Delivers p pool traffic) (hc : pool.calls[i]? = some c)
    (hcarry : Carries pool.shared m' c c' pushed) (hkeeps : LosesNothing p pool (.advance i))
    (j : Nat) (d : Place D) (hij : i ≠ j) (hd : pool.calls[j]? = some d) :
    picked p c'.held = [] ∨ picked p d.held = [] := by
  have hbefore := h.drains i j c d hij hc hd
  cases hcarry with
  | kept _ hsame => rwa [hsame]
  | queued _ _ _ _ hsame => rwa [hsame]
  | took hasOutEvents hplace hbatch =>
    rw [hbatch]
    by_cases hempty : picked p pool.shared.paramQueue = []
    · exact .inl hempty
    · exact .inr ((hkeeps i c rfl hc).2 hasOutEvents hplace hempty d (List.mem_of_getElem? hd))
  | emitted item _ hfirst =>
    refine hbefore.imp_left fun hnone => ?_
    rw [hfirst, ← List.singleton_append, picked_append] at hnone
    exact (List.append_eq_nil_iff.mp hnone).2
  | cleared _ _ hsame => rwa [hsame]

theorem Delivers.advance (h : Delivers p pool traffic) (hc : pool.calls[i]? = some c) {o : Seen D}
    (hs : step pool.shared c = some (m', c', o)) (hkeeps : LosesNothing p pool (.advance i)) :
    Delivers p ⟨m', pool.calls.set i c'⟩
      ⟨traffic.called, traffic.emitted ++ emittedOf [some o]⟩ := by
  obtain ⟨hcarry, hforwards⟩ := step_carries hs (h.forwards c (List.mem_of_getElem? hc))
  refine ⟨fun d hd => ?_, h.edits.set hc hs, h.drains.set fun j d hij hd => ?_,
    h.line_advance hc hcarry hkeeps⟩
  · rcases List.mem_or_eq_of_mem_set hd with hd | rfl
    · exact h.forwards d hd
    · exact hforwards
  · have hpair := h.held_advance hc hcarry hkeeps j d hij hd
    exact ⟨hpair, hpair.symm⟩

theorem Delivers.enter (h : Delivers p pool traffic) {request : Request D}
    (hallows : editsToHost.allows pool traffic (.enter request)) :
    Delivers p { pool with calls := pool.calls ++ [startPlace request] }
      (editsToHost.next traffic (.enter request) none) := by
  have hheld := held_startPlace request
  refine ⟨?_, ?_, ?_, ?_⟩
  · refine List.forall_mem_append.mpr ⟨h.forwards, List.forall_mem_singleton.mpr ?_⟩
    cases request with
    | edit edit => cases edit <;> rfl
    | process hasPorts events hasOutEvents =>
      obtain rfl : hasOutEvents = true := hallows
      cases hasPorts <;> rfl
    | paramsFlush events hasOutEvents => exact hallows
    | stateLoad records ok => rfl
    | deactivate => rfl
  · refine h.edits.append fun edit hedit c hc => ?_
    subst hedit
    exact hallows c hc
  · refine h.drains.append fun d _ => ?_
    rw [hheld]
    exact ⟨.inl rfl, .inr rfl⟩
  · have hlast : eventLine p { pool with calls := pool.calls ++ [startPlace request] }
        (editsToHost.next traffic (.enter request) none) =
          eventLine p pool traffic ++ picked p (startPlace request).unqueued := by
      unfold eventLine
      simp only [List.flatMap_append, List.flatMap_singleton, hheld, List.append_assoc]
      show (traffic.emitted ++ []).filter p ++ _ = _
      rw [List.append_nil]
      rfl
    rw [hlast, h.line]
    cases request with
    | edit edit =>
      rw [unqueued_startPlace, ← picked_append, editsToHost, List.map_append]
      rfl
    | process hasPorts events hasOutEvents => cases hasPorts <;> exact List.append_nil _
    | paramsFlush events hasOutEvents => exact List.append_nil _
    | stateLoad records ok => exact List.append_nil _
    | deactivate => exact List.append_nil _

theorem delivers_start (params : ParamValues D) :
    Delivers p (D := D) { shared := { params := params } } {} :=
  ⟨nofun, allPairs_nil, allPairs_nil, rfl⟩

end Delivery

/-- Over any run in which no `clear()` finds a picked edit queued and no two drains hold picked ones
    at once: what the host has received of them is a front of what the editor has called, each once
    and in the order of the calls; once the queue is at rest, all of it. -/
theorem edits_delivered {p : Event D → Bool} {params : ParamValues D}
    {moves : List (Move (Request D))} {pool : Pool D} {traffic : Traffic D}
    (hrun : ObservedRun program.next
      (editsToHost.given fun pool _ move => LosesNothing p pool move)
      { shared := { params := params } } {} moves pool traffic) :
    traffic.emitted.filter p <+: picked p (traffic.called.map itemOf) ∧
      (AtRest pool → traffic.emitted.filter p = picked p (traffic.called.map itemOf)) := by
  have h : Delivers p pool traffic := by
    refine hrun.invariant (R := Delivers p) ?_ (delivers_start params)
    rintro s t move s' o hs ⟨hallows, hkeeps⟩ hnext
    rcases next_cases hnext with
      ⟨request, rfl, -, rfl, rfl⟩ | ⟨i, c, m, c', w, rfl, hc, hstep, rfl, rfl⟩
    · exact hs.enter hallows
    · exact hs.advance hc hstep hkeeps
  refine ⟨⟨_, h.line⟩, fun hrest => ?_⟩
  have hline := h.line
  have hheld : pool.calls.flatMap (fun c => picked p c.held) = [] :=
    List.flatMap_eq_nil_iff.mpr fun c hc => by
      rw [hrest.returned c hc]
      rfl
  have hunqueued : pool.calls.flatMap (fun c => picked p c.unqueued) = [] :=
    List.flatMap_eq_nil_iff.mpr fun c hc => by
      rw [hrest.returned c hc]
      rfl
  have hqueued : picked p pool.shared.paramQueue = [] := by
    rw [hrest.drained]
    rfl
  rwa [eventLine, hheld, hunqueued, hqueued, List.append_nil, List.append_nil, List.append_nil]
    at hline

section Probe

variable {x : ExactFloat}

/-- A begin and a value are queued, and the next block takes both to the host. -/
def valueForwarded (x : ExactFloat) : List (Move (Request ExactFloat)) :=
  [.enter (.edit (.beginGesture kParamGain)), .advance 0,
    .enter (.edit (.setValue kParamGain x)), .advance 1, .advance 1,
    .enter (.process true [] true), .advance 2, .advance 2, .advance 2, .advance 2, .advance 2]

/-- The place of call `i` is neither a clear nor a swap. -/
def QueueKept (pool : Pool ExactFloat) (i : Nat) : Prop :=
  ∀ c, pool.calls[i]? = some c → c ≠ .clear ∧ ∀ hasOutEvents, c ≠ .events [] hasOutEvents

/-- Whatever is asked of the steps that neither clear nor swap behind another drain. -/
theorem run_valueForwarded (P : Pool ExactFloat → Move (Request ExactFloat) → Prop)
    (henter : ∀ pool request, P pool (.enter request))
    (hqueue : ∀ pool i, QueueKept pool i → P pool (.advance i))
    (hswap : ∀ m, P ⟨m, [.returned, .returned, .events [] true]⟩ (.advance 2)) :
    ∃ pool, ObservedRun program.next (editsToHost.given fun pool _ move => P pool move)
      { shared := { params := create.params } } {} (valueForwarded x) pool
      ⟨[.beginGesture kParamGain, .setValue kParamGain x],
        [(Item.gestureBegin kParamGain).event, (Item.value kParamGain x).event]⟩ ∧
      AtRest pool := by
  refine ⟨_, .cons ⟨nofun, henter _ _⟩ rfl (.cons ⟨trivial, hqueue _ _ ?_⟩ rfl
    (.cons ⟨List.forall_mem_singleton.mpr rfl, henter _ _⟩ rfl
      (.cons ⟨trivial, hqueue _ _ ?_⟩ rfl (.cons ⟨trivial, hqueue _ _ ?_⟩ rfl
        (.cons ⟨rfl, henter _ _⟩ rfl (.cons ⟨trivial, hswap _⟩ rfl
          (.cons ⟨trivial, hqueue _ _ ?_⟩ rfl (.cons ⟨trivial, hqueue _ _ ?_⟩ rfl
            (.cons ⟨trivial, hqueue _ _ ?_⟩ rfl (.cons ⟨trivial, hqueue _ _ ?_⟩ rfl
              (.nil _ _))))))))))), ?_, rfl⟩
  all_goals first
    | exact fun c hc => by cases hc; exact ⟨nofun, nofun⟩
    | simp

theorem edits_delivered_valueForwarded : ∃ pool traffic,
    ObservedRun program.next
      (editsToHost.given fun pool _ move => LosesNothing (fun _ => true) pool move)
      { shared := { params := create.params } } {} (valueForwarded 500) pool traffic ∧
    traffic.emitted.filter (fun _ => true) =
      picked (fun _ => true) (traffic.called.map itemOf) := by
  obtain ⟨pool, hrun, hrest⟩ := run_valueForwarded (LosesNothing fun _ => true)
    (fun pool request i c h => nomatch h)
    (fun pool i hother j c h hc => by
      cases h
      exact ⟨fun hclear => absurd hclear (hother c hc).1,
        fun b hevents => absurd hevents ((hother c hc).2 b)⟩)
    (fun m j c h hc => by
      cases h
      cases hc
      exact ⟨nofun, fun _ _ _ => by simp [picked, Place.held]⟩)
  exact ⟨pool, _, hrun, (edits_delivered hrun).2 hrest⟩

end Probe

end Cvp.GuiPlugin

/-! ## Windows -/

namespace Cvp

open Machine
open GuiPlugin (openBehind_append inOrder_apart)
open SliderViews (openBehind inOrder_append)
open X11View (InOrder ParamDesc)

/-- The window of one platform. -/
structure NativeView (D : Type) where
  State : Type
  Act : Type
  start : (ClapId → D) → State
  step : Step State Act Unit Unit
  /-- the calls made on the model -/
  edits : State → List (UiEdit D)
  /-- the slider of the parameter is held -/
  held : State → ClapId → Prop
  /-- what the window needs of the messages that come -/
  spares : State → Act → State → Unit → Prop

inductive Platform where
  | win32 | mac | x11
  deriving DecidableEq, Repr

variable {D : Type}

namespace X11View

theorem track_of_reads (edits : List (UiEdit D)) : ∀ held later,
    Brackets.reads held (edits.map markOf) = some later →
      edits.foldl GuiPlugin.track (openOf held) = openOf later := by
  induction edits with
  | nil =>
    intro held later h
    cases h
    rfl
  | cons edit edits ih =>
    intro held later h
    rw [List.map_cons, Brackets.reads] at h
    obtain ⟨between, hbetween, hrest⟩ := Option.bind_eq_some_iff.mp h
    rw [List.foldl_cons, (fits_of_advance hbetween).2]
    exact ih between later hrest

theorem Settled.openBehind_eq {v : View D} (h : Settled v) :
    openBehind v.edits = openOf v.dragged := track_of_reads v.edits none _ h.reads

end X11View

variable [DoubleOps D]

/-- `createNativeView`, on the platform the plugin is built for. -/
def createNativeView (descs : List (ParamDesc D)) : Platform → NativeView D
  | .win32 =>
    { State := SliderViews.View D Int
      Act := SliderViews.Win32.Message D
      start := SliderViews.Win32.construct descs
      step := SliderViews.Win32.step
      edits := fun v => v.edits
      held := fun v id => ∃ s ∈ v.sliders, s.desc.id = id ∧ s.inGesture = true
      spares := fun _ _ _ _ => True }
  | .mac =>
    { State := SliderViews.View D D
      Act := SliderViews.Mac.Message D
      start := SliderViews.Mac.construct descs
      step := SliderViews.Mac.step
      edits := fun v => v.edits
      held := fun v id => ∃ s ∈ v.sliders, s.desc.id = id ∧ s.inGesture = true
      spares := SliderViews.Mac.SparesGesture }
  | .x11 =>
    { State := X11View.View D
      Act := X11View.Act D
      start := fun _ => X11View.View.construct descs
      step := X11View.step
      edits := fun v => v.edits
      held := fun v id => v.dragged = some id
      spares := X11View.SparesDrag }

/-- The calls of a window are in order, and the gestures they leave open are those of the sliders
    that are held. -/
structure NativeView.Orderly (w : NativeView D) (v : w.State) : Prop where
  order : InOrder (fun _ => false) (w.edits v)
  open_iff : ∀ id, openBehind (w.edits v) id = true ↔ w.held v id

section Windows

variable {descs : List (ParamDesc D)} {platform : Platform}

theorem orderly_of_run (hids : (descs.map (·.id)).Nodup) {values : ClapId → D}
    {acts : List (createNativeView descs platform).Act}
    {v : (createNativeView descs platform).State} {os : List Unit}
    (hspares : AllSteps (createNativeView descs platform).step
      (createNativeView descs platform).spares ((createNativeView descs platform).start values)
      acts)
    (hrun : run (createNativeView descs platform).step
      ((createNativeView descs platform).start values) acts = .ok (v, os)) :
    (createNativeView descs platform).Orderly v := by
  cases platform with
  | win32 =>
    have h : SliderViews.Tracks v := run_invariant
      (fun _ _ _ _ h hs => SliderViews.Win32.tracks_step h hs)
      (SliderViews.Win32.tracks_construct values hids) hrun
    exact ⟨h.order, h.open_iff⟩
  | mac =>
    have h : SliderViews.Tracks v := hspares.run
      (fun _ _ _ _ h hs hq => SliderViews.Mac.tracks_step h hs hq)
      (SliderViews.Mac.tracks_construct values hids) hrun
    exact ⟨h.order, h.open_iff⟩
  | x11 =>
    have h : X11View.Settled v := hspares.run
      (fun _ _ _ _ h hs hq => X11View.settled_step h hs hq)
      (X11View.settled_construct descs) hrun
    refine ⟨h.alternates.inOrder, fun id => ?_⟩
    show openBehind v.edits id = true ↔ v.dragged = some id
    rw [h.openBehind_eq]
    exact decide_eq_true_iff

/-- Windows one after the other, as `guiCreate` and `guiDestroy` come: what they have called so far,
    and the parameters whose slider is held or was when its window was closed. A window makes no
    calls on those an earlier one left behind. -/
inductive Windows (w : NativeView D) : List (UiEdit D) → (ClapId → Prop) → Prop where
  | none : Windows w [] fun _ => False
  | next {edits : List (UiEdit D)} {held : ClapId → Prop} {values : ClapId → D}
      {acts : List w.Act} {v : w.State} {os : List Unit} :
      Windows w edits held → AllSteps w.step w.spares (w.start values) acts →
      run w.step (w.start values) acts = .ok (v, os) →
      (∀ edit ∈ w.edits v, ¬ held (GuiPlugin.paramOf edit)) →
      Windows w (edits ++ w.edits v) fun id => held id ∨ w.held v id

theorem Windows.orderly (hids : (descs.map (·.id)).Nodup) {edits : List (UiEdit D)}
    {held : ClapId → Prop} (h : Windows (createNativeView descs platform) edits held) :
    InOrder (fun _ => false) edits ∧ ∀ id, openBehind edits id = true ↔ held id := by
  induction h with
  | none => exact ⟨trivial, fun id => iff_of_false Bool.false_ne_true not_false⟩
  | @next edits held values acts v os _ hspares hrun hapart ih =>
    obtain ⟨horder, hopen⟩ := ih
    have hlast := orderly_of_run hids hspares hrun
    have hclosed : ∀ id, ¬ held id → openBehind edits id = false := fun id hid =>
      Bool.eq_false_iff.mpr fun heq => hid ((hopen id).mp heq)
    obtain ⟨horder', hsame, hleft⟩ := inOrder_apart _ hapart hclosed hlast.order
    refine ⟨(inOrder_append _ _ _).mpr ⟨horder, horder'⟩, fun id => ?_⟩
    rw [openBehind_append]
    by_cases hid : held id
    · rw [hleft id hid]
      exact iff_of_true ((hopen id).mpr hid) (.inl hid)
    · rw [hsame id hid]
      exact (hlast.open_iff id).trans (or_iff_right hid).symm

end Windows

/-- From the mouse to the host: whatever windows are opened and closed, whatever comes to them and
    whatever else is called on the plugin, the host sees whole gestures on each parameter; and once
    the queue is at rest it sees a gesture open on the parameters whose slider is held, or was when
    its window was closed, and on no other. -/
theorem gestures_reach_host {descs : List (ParamDesc D)} (hids : (descs.map (·.id)).Nodup)
    {platform : Platform} {edits : List (UiEdit D)} {held : ClapId → Prop}
    (hwindows : Windows (createNativeView descs platform) edits held) {params : ParamValues D}
    {moves : List (Interleaving.Move (GuiPlugin.Request D))} {pool : GuiPlugin.Pool D}
    {traffic : GuiPlugin.Traffic D}
    (hrun : ObservedRun GuiPlugin.program.next
      (GuiPlugin.editsToHost.given fun pool _ move => GuiPlugin.CutsNoGesture pool move)
      { shared := { params := params } } {} moves pool traffic)
    (hcalled : traffic.called <+: edits) (id : ClapId) :
    (∃ rest, Alternation.Alternating
      (traffic.emitted.filterMap (GuiPlugin.markOf id) ++ rest)) ∧
    (traffic.called = edits → GuiPlugin.AtRest pool →
      (GuiPlugin.openAtHost id traffic.emitted = some true ↔ held id)) := by
  obtain ⟨horder, hopen⟩ := hwindows.orderly hids
  have hline := GuiPlugin.carriesOrder_run hrun (GuiPlugin.inOrder_of_prefix horder hcalled)
  obtain ⟨d, hemitted, -⟩ := Alternation.phase_of_append (hline.phased id)
  refine ⟨Alternation.isFront_iff.mpr ⟨d, hemitted⟩, fun hall hrest => ?_⟩
  rw [hline.openAtHost_of_atRest hrest id, ← hopen id, ← hall]
  exact ⟨Option.some.inj, congrArg some⟩

/-- The editor of the GUI plugin on Windows. -/
def guiWindow : NativeView ExactFloat := createNativeView SliderViews.guiParamDescs .win32

def thumbHeld : List (SliderViews.Win32.Message ExactFloat) := [.hScroll 0 .other 500]

/-- The thumb of the gain is held; its begin and its value have come to the host, which sees the
    gesture open. -/
theorem gestures_reach_host_thumbHeld : ∃ edits held x pool,
    ∃ traffic : GuiPlugin.Traffic ExactFloat,
      Windows guiWindow edits held ∧ traffic.called = edits ∧ GuiPlugin.AtRest pool ∧
      ObservedRun GuiPlugin.program.next
        (GuiPlugin.editsToHost.given fun pool _ move => GuiPlugin.CutsNoGesture pool move)
        { shared := { params := GuiPlugin.create.params } } {} (GuiPlugin.valueForwarded x) pool
        traffic ∧
      held GuiPlugin.kParamGain ∧
      GuiPlugin.openAtHost GuiPlugin.kParamGain traffic.emitted = some true := by
  obtain ⟨v, os, x, hwindow, hedits, hheld⟩ : ∃ v os x,
      run guiWindow.step (guiWindow.start fun _ => 0) thumbHeld = .ok (v, os) ∧
      guiWindow.edits v = [.beginGesture GuiPlugin.kParamGain, .setValue GuiPlugin.kParamGain x] ∧
      guiWindow.held v GuiPlugin.kParamGain :=
    ⟨_, _, _, rfl, rfl, _, List.mem_cons_self, rfl, rfl⟩
  have hwindows : Windows guiWindow (guiWindow.edits v) fun id => False ∨ guiWindow.held v id :=
    .next .none (allSteps_of_labels (P := fun _ => True) fun _ _ => trivial) hwindow
      fun _ _ => id
  obtain ⟨pool, hrun, hrest⟩ := GuiPlugin.run_valueForwarded (x := x) GuiPlugin.CutsNoGesture
    (fun pool request i c h => nomatch h)
    (fun pool i hother j c h hc => by
      cases h
      exact ⟨fun hclear => absurd hclear (hother c hc).1,
        fun b hevents => absurd hevents ((hother c hc).2 b)⟩)
    (fun m j c h hc => by
      cases h
      cases hc
      exact ⟨nofun, fun _ _ id _ => by simp [GuiPlugin.Place.held, GuiPlugin.marks]⟩)
  refine ⟨_, _, x, pool, _, hwindows, hedits.symm, hrest, hrun, .inr hheld, ?_⟩
  exact ((gestures_reach_host SliderViews.nodup_guiParamDescs hwindows hrun
    (hedits ▸ List.prefix_rfl) GuiPlugin.kParamGain).2 hedits.symm hrest).mpr (.inr hheld)

end Cvp
