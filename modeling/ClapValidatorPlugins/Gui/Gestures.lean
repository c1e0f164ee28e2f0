/-
  Gestures on their way to the host. The editor makes complete gestures, one edit at a time; they
  wait in the queue, are taken in batches and forwarded in order. What the host receives stays
  balanced as long as no clear cuts a gesture and no two drains hold items of one parameter
  (`gestures_balanced`); `deactivate` clears at any time.
-/
import ClapValidatorPlugins.Gui.Calls
import ClapValidatorPlugins.Lib.Alternation

namespace Cvp.GuiPlugin

open ParamEventQueue Interleaving Alternation Machine

variable {D : Type}

/-! ## The editor and the host -/

/-- What an event on parameter `id` is in a gesture. -/
def markOf (id : ClapId) (event : Event D) : Option Mark :=
  match event.body with
  | .paramGestureBegin paramId => if paramId = id then some .opening else none
  | .paramValue target _ => if target.paramId = id then some .inner else none
  | .paramGestureEnd paramId => if paramId = id then some .closing else none
  | _ => none

def itemMark (id : ClapId) (item : Item D) : Option Mark := markOf id item.event

/-- The item an edit is queued as. -/
def itemOf : UiEdit D → Item D
  | .beginGesture id => .gestureBegin id
  | .setValue id x => .value id x
  | .endGesture id => .gestureEnd id

/-- The gestures open in the editor, and what the host has received. -/
structure View (D : Type) where
  inGesture : ClapId → Bool := fun _ => false
  emitted : List (Event D) := []

/-- The edit comes in order: a gesture begins where none is open, and values and ends come inside
    one. -/
def fits (inGesture : ClapId → Bool) : UiEdit D → Prop
  | .beginGesture id => inGesture id = false
  | .setValue id _ | .endGesture id => inGesture id = true

/-- The gestures open behind an edit. -/
def track (inGesture : ClapId → Bool) : UiEdit D → ClapId → Bool
  | .beginGesture id => Function.update inGesture id true
  | .setValue _ _ => inGesture
  | .endGesture id => Function.update inGesture id false

/-- The editor makes well-formed gestures, one edit after the other on its thread, and the host
    drains into an output list; any other call may come at any time. -/
def gesturesToHost : Observer (Pool D) (View D) (Move (Request D)) (Option (Seen D)) where
  allows pool view move :=
    match move with
    | .enter (.edit edit) => (∀ c ∈ pool.calls, c.isEdit = false) ∧ fits view.inGesture edit
    | .enter (.process _ _ hasOutEvents) | .enter (.paramsFlush _ hasOutEvents) =>
      hasOutEvents = true
    | _ => True
  next view move seen :=
    { inGesture :=
        match move with
        | .enter (.edit edit) => track view.inGesture edit
        | _ => view.inGesture
      emitted := view.emitted ++ emittedOf [seen] }

/-- The rest of the batch a drain has taken. -/
def Place.held : Place D → List (Item D)
  | .items rest _ => rest
  | .forward item rest => item :: rest
  | _ => []

/-- The item an edit has still to queue. -/
def Place.unqueued : Place D → List (Item D)
  | .store id x => [.value id x]
  | .push item => [item]
  | _ => []

def marks (id : ClapId) (items : List (Item D)) : List Mark := items.filterMap (itemMark id)

/-- What has to hold of a step: where `deactivate` clears the queue, it holds as many ends as
    begins of each parameter; and a drain takes items of a parameter only while no other drain
    still holds any. -/
def CutsNoGesture (pool : Pool D) (move : Move (Request D)) : Prop :=
  ∀ i c, move = .advance i → pool.calls[i]? = some c →
    (c = .clear → ∀ id, (marks id pool.shared.paramQueue).count .opening =
      (marks id pool.shared.paramQueue).count .closing) ∧
    (∀ hasOutEvents, c = .events [] hasOutEvents → ∀ id, marks id pool.shared.paramQueue ≠ [] →
      ∀ d ∈ pool.calls, marks id d.held = [])

/-! ## Steps -/

section Marks

variable {id : ClapId} {edit : UiEdit D} {inGesture : ClapId → Bool}

theorem phase_track (h : fits inGesture edit) (id : ClapId) :
    phase (inGesture id) (marks id [itemOf edit]) = some (track inGesture edit id) := by
  have hmark : ∀ (paramId : ClapId) (m : Mark), itemMark id (itemOf edit) =
      (if paramId = id then some m else none) →
      (paramId = id → advance (inGesture id) m = some (track inGesture edit id)) →
      (paramId ≠ id → inGesture id = track inGesture edit id) →
      phase (inGesture id) (marks id [itemOf edit]) = some (track inGesture edit id) := by
    intro paramId m hitem hsame hother
    rw [marks, List.filterMap_cons, hitem]
    by_cases hid : paramId = id
    · rw [if_pos hid]
      exact (phase_singleton _ _).trans (hsame hid)
    · rw [if_neg hid]
      exact (phase_nil _).trans (congrArg some (hother hid))
  cases edit with
  | beginGesture paramId =>
    refine hmark paramId .opening rfl ?_ fun hid => (Function.update_of_ne (Ne.symm hid) _ _).symm
    rintro rfl
    rw [show inGesture paramId = false from h, track, Function.update_self]
    rfl
  | setValue paramId x =>
    refine hmark paramId .inner rfl ?_ fun _ => rfl
    rintro rfl
    rw [track, show inGesture paramId = true from h]
    rfl
  | endGesture paramId =>
    refine hmark paramId .closing rfl ?_ fun hid => (Function.update_of_ne (Ne.symm hid) _ _).symm
    rintro rfl
    rw [show inGesture paramId = true from h, track, Function.update_self]
    rfl

end Marks

/-- The drains of the place push into an output list. -/
def Place.forwards : Place D → Bool
  | .events _ hasOutEvents | .items _ hasOutEvents => hasOutEvents
  | _ => true

/-- What a step does to the queue, to what its call holds, and what it pushes for the host. -/
inductive Carries (m m' : Memory D) (c c' : Place D) : List (Event D) → Prop where
  | kept : m'.paramQueue = m.paramQueue → c'.held = c.held → c'.unqueued = c.unqueued →
      Carries m m' c c' []
  | queued (item : Item D) : m'.paramQueue = m.paramQueue ++ [item] → c.unqueued = [item] →
      c'.unqueued = [] → c'.held = c.held → c.isEdit = true → Carries m m' c c' []
  | took (hasOutEvents : Bool) : c = .events [] hasOutEvents → c'.held = m.paramQueue →
      m'.paramQueue = [] → c'.unqueued = c.unqueued → Carries m m' c c' []
  | emitted (item : Item D) : m'.paramQueue = m.paramQueue → c.held = item :: c'.held →
      c'.unqueued = c.unqueued → Carries m m' c c' [item.event]
  | cleared : c = .clear → m'.paramQueue = [] → c'.held = c.held → c'.unqueued = c.unqueued →
      Carries m m' c c' []

theorem step_carries {m m' : Memory D} {c c' : Place D} {o : Seen D}
    (h : step m c = some (m', c', o)) (hout : c.forwards = true) :
    Carries m m' c c' (emittedOf [some o]) ∧ c'.forwards = true := by
  cases c with
  | store id x =>
    cases h
    exact ⟨.kept rfl rfl rfl, rfl⟩
  | push item =>
    cases h
    exact ⟨.queued item rfl rfl rfl rfl rfl, rfl⟩
  | events rest hasOutEvents =>
    cases rest with
    | nil =>
      cases h
      exact ⟨.took hasOutEvents rfl rfl rfl rfl, hout⟩
    | cons header rest =>
      cases h
      rw [emittedOf_seenOf]
      exact ⟨.kept rfl rfl rfl, hout⟩
  | items rest hasOutEvents =>
    obtain rfl : hasOutEvents = true := hout
    cases rest with
    | nil =>
      cases h
      exact ⟨.kept rfl rfl rfl, rfl⟩
    | cons item rest =>
      cases item with
      | value id x =>
        cases h
        exact ⟨.kept rfl rfl rfl, rfl⟩
      | gestureBegin id =>
        cases h
        exact ⟨.emitted (.gestureBegin id) rfl rfl rfl, rfl⟩
      | gestureEnd id =>
        cases h
        exact ⟨.emitted (.gestureEnd id) rfl rfl rfl, rfl⟩
  | forward item rest =>
    cases h
    exact ⟨.emitted item rfl rfl rfl, rfl⟩
  | load rest ok =>
    cases rest with
    | nil =>
      cases h
      exact ⟨.kept rfl rfl rfl, rfl⟩
    | cons record rest =>
      cases h
      cases ok with
      | false => exact ⟨.kept rfl rfl rfl, rfl⟩
      | true => exact ⟨.kept rfl rfl rfl, rfl⟩
  | clear =>
    cases h
    exact ⟨.cleared rfl rfl rfl rfl, rfl⟩
  | returned => cases h

theorem marks_unqueued_of_not_isEdit (id : ClapId) (c : Place D) (h : c.isEdit = false) :
    marks id c.unqueued = [] := by
  cases c with
  | store id x => cases h
  | push item => cases h
  | _ => rfl

theorem held_startPlace (request : Request D) : (startPlace request).held = [] := by
  cases request with
  | edit edit => cases edit <;> rfl
  | process hasPorts events hasOutEvents => cases hasPorts <;> rfl
  | paramsFlush events hasOutEvents => rfl
  | stateLoad records ok => rfl
  | deactivate => rfl

theorem unqueued_startPlace (edit : UiEdit D) :
    (startPlace (.edit edit)).unqueued = [itemOf edit] := by
  cases edit <;> rfl

theorem marks_append (id : ClapId) (xs ys : List (Item D)) :
    marks id (xs ++ ys) = marks id xs ++ marks id ys := List.filterMap_append

/-! ## The line to the host -/

/-- Everything on parameter `id` from the host back to the editor, oldest first. -/
def line (id : ClapId) (pool : Pool D) (view : View D) : List Mark :=
  view.emitted.filterMap (markOf id) ++ (pool.calls.flatMap (fun c => marks id c.held) ++
    (marks id pool.shared.paramQueue ++ pool.calls.flatMap fun c => marks id c.unqueued))

/-- The line leads from no gesture to the one the editor is in; one edit is under way at most, and
    one drain holds items of a parameter at most. -/
structure InLine (pool : Pool D) (view : View D) : Prop where
  forwards : ∀ c ∈ pool.calls, c.forwards = true
  edits : OneEdit pool.calls
  drains : ∀ id, AllPairs (fun c d => marks id c.held = [] ∨ marks id d.held = []) pool.calls
  phased : ∀ id, phase false (line id pool view) = some (view.inGesture id)

section Keep

variable {pool : Pool D} {view : View D} {i : Nat} {c c' : Place D} {m' : Memory D}
  {pushed : List (Event D)}

/-- The other calls hold nothing of the parameter. -/
theorem InLine.held_alone (h : InLine pool view) (hc : pool.calls[i]? = some c) {id : ClapId}
    (hholds : marks id c.held ≠ []) (j : Nat) (d : Place D) (hij : i ≠ j)
    (hd : pool.calls[j]? = some d) : marks id d.held = [] :=
  (h.drains id i j c d hij hc hd).resolve_left hholds

/-- A drain forwards its first item. -/
theorem InLine.flatMap_held (h : InLine pool view) (hc : pool.calls[i]? = some c) {item : Item D}
    (hheld : c.held = item :: c'.held) (id : ClapId) :
    pool.calls.flatMap (fun c => marks id c.held) =
      marks id [item] ++ (pool.calls.set i c').flatMap fun c => marks id c.held := by
  have hsplit : marks id c.held = marks id [item] ++ marks id c'.held := by
    rw [hheld, ← marks_append, List.singleton_append]
  by_cases hnone : marks id c.held = []
  · obtain ⟨hitem, hrest⟩ := List.append_eq_nil_iff.mp (hsplit.symm.trans hnone)
    have hsame : (pool.calls.set i c').flatMap (fun c => marks id c.held) =
        pool.calls.flatMap fun c => marks id c.held := flatMap_set_same hc (hrest.trans hnone.symm)
    rw [hsame, hitem, List.nil_append]
  · have halone := h.held_alone hc hnone
    rw [flatMap_alone hc halone, flatMap_set_alone hc halone]
    exact hsplit

theorem InLine.phase_advance (h : InLine pool view) (hc : pool.calls[i]? = some c)
    (hcarry : Carries pool.shared m' c c' pushed) (hcut : CutsNoGesture pool (.advance i))
    (id : ClapId) :
    phase false (line id ⟨m', pool.calls.set i c'⟩ ⟨view.inGesture, view.emitted ++ pushed⟩) =
      some (view.inGesture id) := by
  have hphase := h.phased id
  unfold line at hphase ⊢
  dsimp only
  have hunqueued : c'.unqueued = c.unqueued →
      (pool.calls.set i c').flatMap (fun c => marks id c.unqueued) =
        pool.calls.flatMap fun c => marks id c.unqueued :=
    fun heq => flatMap_set_same hc (congrArg (marks id) heq)
  have hheld : c'.held = c.held →
      (pool.calls.set i c').flatMap (fun c => marks id c.held) =
        pool.calls.flatMap fun c => marks id c.held :=
    fun heq => flatMap_set_same hc (congrArg (marks id) heq)
  cases hcarry with
  | kept hqueue hsame hsame' =>
    rw [hqueue, hheld hsame, hunqueued hsame', List.append_nil]
    exact hphase
  | queued item hqueue hitem hnone hsame hedit =>
    have halone := h.edits.alone hc hedit (marks_unqueued_of_not_isEdit id)
    have hbefore : pool.calls.flatMap (fun c => marks id c.unqueued) = marks id [item] :=
      (flatMap_alone hc halone).trans (congrArg (marks id) hitem)
    have hafter : (pool.calls.set i c').flatMap (fun c => marks id c.unqueued) = [] :=
      (flatMap_set_alone hc halone).trans (congrArg (marks id) hnone)
    rw [hbefore] at hphase
    rw [hqueue, hheld hsame, hafter, marks_append, List.append_nil, List.append_nil]
    exact hphase
  | took hasOutEvents hplace hbatch hqueue hsame =>
    have hbefore : marks id c.held = [] := by
      rw [hplace]
      rfl
    have hnone := ((hcut i c rfl hc).2 hasOutEvents hplace) id
    have hmoved : (pool.calls.set i c').flatMap (fun c => marks id c.held) =
        pool.calls.flatMap (fun c => marks id c.held) ++ marks id pool.shared.paramQueue := by
      by_cases hempty : marks id pool.shared.paramQueue = []
      · rw [hempty, List.append_nil]
        refine flatMap_set_same hc ?_
        rw [hbatch, hempty, hbefore]
      · have halone : ∀ d ∈ pool.calls, marks id d.held = [] := hnone hempty
        rw [List.flatMap_eq_nil_iff.mpr halone, List.nil_append, flatMap_set_alone hc
          fun j d _ hd => halone d (List.mem_of_getElem? hd), hbatch]
    rw [hqueue, hmoved, hunqueued hsame, List.append_nil, List.append_assoc]
    exact hphase
  | emitted item hqueue hfirst hsame =>
    rw [h.flatMap_held hc hfirst id] at hphase
    rw [hqueue, hunqueued hsame, List.filterMap_append]
    simp only [List.append_assoc] at hphase ⊢
    exact hphase
  | cleared hplace hqueue hsame hsame' =>
    have hcount := (hcut i c rfl hc).1 hplace id
    rw [← List.append_assoc] at hphase
    rw [hqueue, hheld hsame, hunqueued hsame', List.append_nil, ← List.append_assoc]
    exact phase_cut hphase hcount

theorem InLine.held_advance (h : InLine pool view) (hc : pool.calls[i]? = some c)
    (hcarry : Carries pool.shared m' c c' pushed) (hcut : CutsNoGesture pool (.advance i))
    (id : ClapId) (j : Nat) (d : Place D) (hij : i ≠ j) (hd : pool.calls[j]? = some d) :
    marks id c'.held = [] ∨ marks id d.held = [] := by
  have hbefore := h.drains id i j c d hij hc hd
  cases hcarry with
  | kept _ hsame => rwa [hsame]
  | queued _ _ _ _ hsame => rwa [hsame]
  | took hasOutEvents hplace hbatch =>
    rw [hbatch]
    by_cases hempty : marks id pool.shared.paramQueue = []
    · exact .inl hempty
    · exact .inr ((hcut i c rfl hc).2 hasOutEvents hplace id hempty d (List.mem_of_getElem? hd))
  | emitted item _ hfirst =>
    refine hbefore.imp_left fun hnone => ?_
    rw [hfirst, ← List.singleton_append, marks_append] at hnone
    exact (List.append_eq_nil_iff.mp hnone).2
  | cleared _ _ hsame => rwa [hsame]

theorem InLine.advance (h : InLine pool view) (hc : pool.calls[i]? = some c) {o : Seen D}
    (hs : step pool.shared c = some (m', c', o)) (hcut : CutsNoGesture pool (.advance i)) :
    InLine ⟨m', pool.calls.set i c'⟩ ⟨view.inGesture, view.emitted ++ emittedOf [some o]⟩ := by
  obtain ⟨hcarry, hforwards⟩ := step_carries hs (h.forwards c (List.mem_of_getElem? hc))
  refine ⟨?_, ?_, fun id => ?_, fun id => h.phase_advance hc hcarry hcut id⟩
  · intro d hd
    rcases List.mem_or_eq_of_mem_set hd with hd | rfl
    · exact h.forwards d hd
    · exact hforwards
  · exact h.edits.set hc hs
  · refine (h.drains id).set fun j d hij hd => ?_
    have hpair := h.held_advance hc hcarry hcut id j d hij hd
    exact ⟨hpair, hpair.symm⟩

theorem InLine.enter (h : InLine pool view) {request : Request D}
    (hallows : gesturesToHost.allows pool view (.enter request)) :
    InLine { pool with calls := pool.calls ++ [startPlace request] }
      (gesturesToHost.next view (.enter request) none) := by
  have hheld := held_startPlace request
  have hlast : ∀ id, line id { pool with calls := pool.calls ++ [startPlace request] }
      (gesturesToHost.next view (.enter request) none) =
        line id pool view ++ marks id (startPlace request).unqueued := by
    intro id
    unfold line
    simp only [List.flatMap_append, List.flatMap_singleton, hheld, List.append_assoc]
    show (view.emitted ++ []).filterMap (markOf id) ++ _ = _
    rw [List.append_nil]
    rfl
  refine ⟨?_, ?_, ?_, fun id => ?_⟩
  · refine List.forall_mem_append.mpr ⟨h.forwards, List.forall_mem_singleton.mpr ?_⟩
    cases request with
    | edit edit => cases edit <;> rfl
    | process hasPorts events hasOutEvents =>
      obtain rfl : hasOutEvents = true := hallows
      cases hasPorts <;> rfl
    | paramsFlush events hasOutEvents => exact hallows
    | stateLoad records ok => rfl
    | deactivate => rfl
  · refine h.edits.append fun edit hedit c hc => ?_
    subst hedit
    exact hallows.1 c hc
  · intro id
    refine (h.drains id).append fun d _ => ?_
    rw [hheld]
    exact ⟨.inl rfl, .inr rfl⟩
  · rw [hlast, phase_append, h.phased id]
    cases request with
    | edit edit =>
      rw [unqueued_startPlace]
      exact phase_track hallows.2 id
    | process hasPorts events hasOutEvents => cases hasPorts <;> exact phase_nil _
    | paramsFlush events hasOutEvents => exact phase_nil _
    | stateLoad records ok => exact phase_nil _
    | deactivate => exact phase_nil _

end Keep

/-- Before the first call. -/
theorem inLine_start (params : ParamValues D) :
    InLine (D := D) { shared := { params := params } } {} :=
  ⟨nofun, allPairs_nil, fun _ => allPairs_nil, fun _ => rfl⟩

/-- What the host receives is balanced, for each parameter, as long as no step cuts a gesture. -/
theorem gestures_balanced {params : ParamValues D} {moves : List (Move (Request D))} {pool : Pool D}
    {view : View D} (hrun : ObservedRun program.next
      (gesturesToHost.given fun pool _ move => CutsNoGesture pool move)
      { shared := { params := params } } {} moves pool view) (id : ClapId) :
    ∃ rest, Alternating (view.emitted.filterMap (markOf id) ++ rest) := by
  have hline : InLine pool view := by
    refine hrun.invariant (R := InLine) ?_ (inLine_start params)
    rintro s t move s' o hs ⟨hallows, hcut⟩ hnext
    rcases next_cases hnext with
      ⟨request, rfl, -, rfl, rfl⟩ | ⟨i, c, m, c', w, rfl, hc, hstep, rfl, rfl⟩
    · exact hs.enter hallows
    · exact hs.advance hc hstep hcut
  obtain ⟨d, hemitted, -⟩ := phase_of_append (hline.phased id)
  exact isFront_iff.mpr ⟨d, hemitted⟩

/-! ## A gesture around a clear -/

section Probe

abbrev newMemory : Memory ExactFloat := { params := create.params }

/-- The begin reaches the host before the queue is cleared. -/
def clearBehindBegin : List (Move (Request ExactFloat)) :=
  [.enter (.edit (.beginGesture kParamGain)), .advance 0, .enter (.process true [] true),
    .advance 1, .advance 1, .enter .deactivate, .advance 2]

theorem gestures_balanced_clearBehindBegin : ∃ pool view,
    ObservedRun program.next (gesturesToHost.given fun pool _ move => CutsNoGesture pool move)
        { shared := newMemory } {} clearBehindBegin pool view ∧
      ∃ rest, Alternating (view.emitted.filterMap (markOf kParamGain) ++ rest) := by
  have henter : ∀ (s : Pool ExactFloat) (request : Request ExactFloat),
      CutsNoGesture s (.enter request) := fun s request i c h => nomatch h
  have hrun : ∃ pool view, ObservedRun program.next
      (gesturesToHost.given fun pool _ move => CutsNoGesture pool move) { shared := newMemory } {}
      clearBehindBegin pool view := by
    refine ⟨_, _, .cons ⟨⟨nofun, rfl⟩, henter _ _⟩ rfl (.cons ⟨trivial, ?_⟩ rfl
      (.cons ⟨rfl, henter _ _⟩ rfl (.cons ⟨trivial, ?_⟩ rfl (.cons ⟨trivial, ?_⟩ rfl
        (.cons ⟨trivial, henter _ _⟩ rfl (.cons ⟨trivial, ?_⟩ rfl (.nil _ _)))))))⟩
    · rintro _ _ ⟨⟩ ⟨⟩
      exact ⟨nofun, nofun⟩
    · rintro _ _ ⟨⟩ ⟨⟩
      exact ⟨nofun, fun _ _ id _ => List.forall_mem_cons.mpr
        ⟨rfl, List.forall_mem_singleton.mpr rfl⟩⟩
    · rintro _ _ ⟨⟩ ⟨⟩
      exact ⟨nofun, nofun⟩
    · rintro _ _ ⟨⟩ ⟨⟩
      exact ⟨fun _ id => rfl, nofun⟩
  obtain ⟨pool, view, hrun⟩ := hrun
  exact ⟨pool, view, hrun, gestures_balanced hrun kParamGain⟩

/-- The end of a gesture waits in the queue when `deactivate` clears it; then comes the next
    gesture. -/
def clearBeforeEnd : List (Move (Request ExactFloat)) :=
  [.enter (.edit (.beginGesture kParamGain)), .advance 0, .enter (.process true [] true),
    .advance 1, .advance 1, .advance 1, .enter (.edit (.endGesture kParamGain)), .advance 2,
    .enter .deactivate, .advance 3, .enter (.edit (.beginGesture kParamGain)), .advance 4,
    .enter (.process true [] true), .advance 5, .advance 5]

theorem clearBeforeEnd_unbalanced : ∃ pool view,
    ObservedRun program.next gesturesToHost { shared := newMemory } {} clearBeforeEnd pool view ∧
      ¬ ∃ rest, Alternating (view.emitted.filterMap (markOf kParamGain) ++ rest) := by
  have hrun : ∃ pool view, ObservedRun program.next gesturesToHost { shared := newMemory } {}
      clearBeforeEnd pool view ∧ view.emitted =
        [(Item.gestureBegin kParamGain).event, (Item.gestureBegin kParamGain).event] :=
    ⟨_, _, .cons ⟨nofun, rfl⟩ rfl (.cons trivial rfl (.cons rfl rfl (.cons trivial rfl
      (.cons trivial rfl (.cons trivial rfl (.cons ⟨by decide, rfl⟩ rfl (.cons trivial rfl
      (.cons trivial rfl (.cons trivial rfl (.cons ⟨by decide, rfl⟩ rfl (.cons trivial rfl
      (.cons rfl rfl (.cons trivial rfl (.cons trivial rfl (.nil _ _))))))))))))))), rfl⟩
  obtain ⟨pool, view, hrun, hemitted⟩ := hrun
  refine ⟨pool, view, hrun, fun hfront => ?_⟩
  obtain ⟨c, hc⟩ := isFront_iff.mp hfront
  rw [hemitted] at hc
  cases hc

end Probe

end Cvp.GuiPlugin
