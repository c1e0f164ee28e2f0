/-
  The second write of an edit. `guiSetValue` stores its value at once and queues it, and the drain
  that takes it stores it again. Where the last value queued for a parameter is still the last
  written when a drain takes it, and nothing else writes the parameter until the drain is through,
  the second write is harmless: with no call in progress every parameter has the value of the last
  write (`params_eq_lastWrite`). A host event between the two writes is undone.
-/
import ClapValidatorPlugins.Gui.Calls

namespace Cvp.GuiPlugin

open ParamEventQueue Interleaving Machine

variable {D : Type}

/-! ## Writes -/

/-- The last write of every parameter, and whether it was `guiSetValue`'s. -/
structure Written (D : Type) where
  last : ClapId → D
  byEditor : ClapId → Bool := fun _ => false

def Written.see (written : Written D) : Seen D → Written D
  | .wrote byEditor id x =>
    { last := Function.update written.last id x
      byEditor := Function.update written.byEditor id byEditor }
  | _ => written

/-- Who follows the writes. The editor makes one edit after the other on its thread; any other
    call may come at any time. -/
def lastWrites : Observer (Pool D) (Written D) (Move (Request D)) (Option (Seen D)) where
  allows pool _ move :=
    match move with
    | .enter (.edit _) => ∀ c ∈ pool.calls, c.isEdit = false
    | _ => True
  next written _ seen :=
    match seen with
    | some seen => written.see seen
    | none => written

/-- The values on parameter `id` among items, in order. -/
def valuesOf (id : ClapId) (items : List (Item D)) : List D :=
  items.filterMap fun
    | .value paramId x => if paramId = id then some x else none
    | _ => none

/-- What a drain has still to apply. -/
def Place.unapplied : Place D → List (Item D)
  | .items rest _ | .forward _ rest => rest
  | _ => []

/-- What an edit has stored and has still to queue. -/
def Place.unpushed : Place D → List (Item D)
  | .push item => [item]
  | _ => []

/-- The parameter the next step stores into, other than a drain. -/
def Place.stores : Place D → Option ClapId
  | .store id _ => some id
  | .events (header :: _) _ => (paramValueOf header).map Prod.fst
  | .load (record :: _) _ => some record.1
  | _ => none

/-- The next step stores a record of a `stateLoad` that is going to fail. -/
def Place.loadFails : Place D → Bool
  | .load _ ok => !ok
  | _ => false

/-- The values on `id` that drains have still to apply, and those that edits have still to queue. -/
def unappliedOf (id : ClapId) (pool : Pool D) : List D :=
  pool.calls.flatMap fun c => valuesOf id c.unapplied

def unpushedOf (id : ClapId) (pool : Pool D) : List D :=
  pool.calls.flatMap fun c => valuesOf id c.unpushed

/-- What has to hold of a step, for every parameter: nothing is stored into it while a drain has
    values of it to apply, nor by a `stateLoad` that fails; and a drain takes values of it only
    where the last write was `guiSetValue`'s, and queued. -/
def Orderly (pool : Pool D) (written : Written D) (move : Move (Request D)) : Prop :=
  ∀ i c, move = .advance i → pool.calls[i]? = some c → ∀ id ∈ paramIds,
    (c.stores = some id → c.loadFails = false ∧ unappliedOf id pool = []) ∧
    ∀ hasOutEvents, c = .events [] hasOutEvents → valuesOf id pool.shared.paramQueue ≠ [] →
      written.byEditor id = true ∧ unpushedOf id pool = []

/-! ## Steps -/

/-- What a step does to the parameters, to the queue and to what its call holds. -/
inductive Touches (m : Memory D) (c : Place D) : Memory D → Place D → Seen D → Prop where
  | passed {c' : Place D} {o : Seen D} :
      (∀ id, valuesOf id c'.unapplied = valuesOf id c.unapplied) → c'.unpushed = c.unpushed →
      (∀ written : Written D, written.see o = written) → Touches m c m c' o
  | wrote (byEditor : Bool) (id : ClapId) (x : D) {c' : Place D} : c.stores = some id →
      c.loadFails = false → c'.unapplied = c.unapplied → c.unpushed = [] →
      c'.unpushed = (if byEditor then [.value id x] else []) →
      (byEditor = true → c.isEdit = true) →
      Touches m c { m with params := storeParam paramIds m.params id x } c' (.wrote byEditor id x)
  | spoilt (id : ClapId) (x : D) {c' : Place D} : c.stores = some id → c.loadFails = true →
      c'.unapplied = c.unapplied → c'.unpushed = c.unpushed →
      Touches m c { m with params := storeParam paramIds m.params id x } c' .other
  | pushed (item : Item D) : c = .push item →
      Touches m c { m with paramQueue := m.paramQueue ++ [item] } .returned .other
  | took (hasOutEvents : Bool) : c = .events [] hasOutEvents →
      Touches m c { m with paramQueue := [] } (.items m.paramQueue hasOutEvents) .other
  | applied (id : ClapId) (x : D) {c' : Place D} : c.unapplied = .value id x :: c'.unapplied →
      c'.unpushed = c.unpushed →
      Touches m c { m with params := storeParam paramIds m.params id x } c' .other
  | cleared : c = .clear → Touches m c { m with paramQueue := [] } .returned .other

theorem step_touches {m m' : Memory D} {c c' : Place D} {o : Seen D}
    (h : step m c = some (m', c', o)) : Touches m c m' c' o := by
  cases c with
  | store id x =>
    cases h
    exact .wrote true id x rfl rfl rfl rfl rfl fun _ => rfl
  | push item =>
    cases h
    exact .pushed item rfl
  | events rest hasOutEvents =>
    cases rest with
    | nil =>
      cases h
      exact .took hasOutEvents rfl
    | cons header rest =>
      cases h
      rw [applyParamValue_eq, seenOf]
      cases hwrite : paramValueOf header with
      | none => exact .passed (fun _ => rfl) rfl fun _ => rfl
      | some record =>
        exact .wrote false record.1 record.2 (congrArg (Option.map Prod.fst) hwrite) rfl rfl rfl
          rfl nofun
  | items rest hasOutEvents =>
    cases rest with
    | nil =>
      cases h
      exact .passed (fun _ => rfl) rfl fun _ => rfl
    | cons item rest =>
      cases item with
      | value id x =>
        cases h
        cases hasOutEvents with
        | false => exact .applied id x rfl rfl
        | true => exact .applied id x rfl rfl
      | gestureBegin id =>
        cases h
        cases hasOutEvents with
        | false => exact .passed (fun _ => rfl) rfl fun _ => rfl
        | true => exact .passed (fun _ => rfl) rfl fun _ => rfl
      | gestureEnd id =>
        cases h
        cases hasOutEvents with
        | false => exact .passed (fun _ => rfl) rfl fun _ => rfl
        | true => exact .passed (fun _ => rfl) rfl fun _ => rfl
  | forward item rest =>
    cases h
    exact .passed (fun _ => rfl) rfl fun _ => rfl
  | load rest ok =>
    cases rest with
    | nil =>
      cases h
      exact .passed (fun _ => rfl) rfl fun _ => rfl
    | cons record rest =>
      cases h
      cases ok with
      | false => exact .spoilt record.1 record.2 rfl rfl rfl rfl
      | true => exact .wrote false record.1 record.2 rfl rfl rfl rfl rfl nofun
  | clear =>
    cases h
    exact .cleared rfl
  | returned => cases h

/-! ## One parameter -/

/-- Parameter `id` in order: one drain has values of it to apply at most, and then none are queued
    or about to be; once they are applied it has its last write; and where that was
    `guiSetValue`'s, it is the last value on the way to the drains. -/
structure Settled (id : ClapId) (pool : Pool D) (written : Written D) : Prop where
  alone : AllPairs (fun c d => valuesOf id c.unapplied = [] ∨ valuesOf id d.unapplied = [])
    pool.calls
  taken : unappliedOf id pool ≠ [] →
    valuesOf id pool.shared.paramQueue = [] ∧ unpushedOf id pool = []
  value : (unappliedOf id pool).getLastD (pool.shared.params id) = written.last id
  queued : written.byEditor id = true → (valuesOf id pool.shared.paramQueue ++
    unpushedOf id pool).getLastD (written.last id) = written.last id

theorem unpushed_of_not_isEdit (id : ClapId) (c : Place D) (h : c.isEdit = false) :
    valuesOf id c.unpushed = [] := by
  cases c with
  | push item => cases h
  | _ => rfl

theorem valuesOf_append (id : ClapId) (xs ys : List (Item D)) :
    valuesOf id (xs ++ ys) = valuesOf id xs ++ valuesOf id ys := List.filterMap_append

theorem valuesOf_value_self (id : ClapId) (x : D) (rest : List (Item D)) :
    valuesOf id (.value id x :: rest) = x :: valuesOf id rest := by
  simp [valuesOf]

theorem valuesOf_value_of_ne {id id' : ClapId} (h : id ≠ id') (x : D) (rest : List (Item D)) :
    valuesOf id (.value id' x :: rest) = valuesOf id rest := by
  simp [valuesOf, Ne.symm h]

theorem getLastD_of_ne_nil {α : Type} {xs : List α} (h : xs ≠ []) (a b : α) :
    xs.getLastD a = xs.getLastD b := by
  cases xs with
  | nil => exact absurd rfl h
  | cons x xs => rfl

theorem getLastD_of_append {α : Type} {xs ys : List α} {a : α}
    (h : (xs ++ ys).getLastD a = a) : ys.getLastD a = a := by
  cases ys with
  | nil => rfl
  | cons y ys =>
    rw [List.getLastD_eq_getLast?, List.getLast?_append, List.getLast?_cons, Option.some_or] at h
    rw [List.getLastD_eq_getLast?, List.getLast?_cons]
    exact h

section Keep

variable {id : ClapId} {pool : Pool D} {written : Written D} {i : Nat} {c c' : Place D}
  {m' : Memory D} {o : Seen D}

/-- A step that changes nothing of the parameter. -/
theorem Settled.of_same (h : Settled id pool written) {pool' : Pool D} {written' : Written D}
    (halone : AllPairs (fun c d => valuesOf id c.unapplied = [] ∨ valuesOf id d.unapplied = [])
      pool'.calls)
    (hunapplied : unappliedOf id pool' = unappliedOf id pool)
    (hunpushed : unpushedOf id pool' = unpushedOf id pool)
    (hqueue : valuesOf id pool'.shared.paramQueue = valuesOf id pool.shared.paramQueue)
    (hparams : pool'.shared.params id = pool.shared.params id)
    (hlast : written'.last id = written.last id)
    (hby : written'.byEditor id = written.byEditor id) : Settled id pool' written' := by
  refine ⟨halone, ?_, ?_, ?_⟩
  · rw [hunapplied, hqueue, hunpushed]
    exact h.taken
  · rw [hunapplied, hparams, hlast]
    exact h.value
  · rw [hby, hqueue, hunpushed, hlast]
    exact h.queued

theorem Settled.alone_set (h : Settled id pool written) (hc : pool.calls[i]? = some c)
    (hless : valuesOf id c.unapplied = [] → valuesOf id c'.unapplied = []) :
    AllPairs (fun c d => valuesOf id c.unapplied = [] ∨ valuesOf id d.unapplied = [])
      (pool.calls.set i c') := by
  refine h.alone.set fun j d hij hd => ?_
  have hpair := (h.alone i j c d hij hc hd).imp_left hless
  exact ⟨hpair, hpair.symm⟩

/-- A store into another parameter. -/
theorem Settled.store_elsewhere (h : Settled id pool written) (hc : pool.calls[i]? = some c)
    {id' : ClapId} (hne : id ≠ id') (x : D)
    (hunapplied : valuesOf id c'.unapplied = valuesOf id c.unapplied)
    (hunpushed : valuesOf id c'.unpushed = valuesOf id c.unpushed) {written' : Written D}
    (hlast : written'.last id = written.last id)
    (hby : written'.byEditor id = written.byEditor id) :
    Settled id ⟨{ pool.shared with params := storeParam paramIds pool.shared.params id' x },
      pool.calls.set i c'⟩ written' :=
  h.of_same (h.alone_set hc fun hnil => hunapplied.trans hnil) (flatMap_set_same hc hunapplied)
    (flatMap_set_same hc hunpushed) rfl (storeParam_of_ne _ hne _ _) hlast hby

theorem Settled.store (h : Settled id pool written) (hid : id ∈ paramIds)
    (hedits : OneEdit pool.calls)
    (hc : pool.calls[i]? = some c) (hnone : unappliedOf id pool = []) (byEditor : Bool) (x : D)
    (hsame : c'.unapplied = c.unapplied)
    (hpush : c'.unpushed = if byEditor then [.value id x] else [])
    (hedit : byEditor = true → c.isEdit = true) :
    Settled id ⟨{ pool.shared with params := storeParam paramIds pool.shared.params id x },
      pool.calls.set i c'⟩ (written.see (.wrote byEditor id x)) := by
  have hunapplied : unappliedOf id ⟨{ pool.shared with
      params := storeParam paramIds pool.shared.params id x }, pool.calls.set i c'⟩ = [] :=
    (flatMap_set_same hc (congrArg (valuesOf id) hsame)).trans hnone
  have hlast : (written.see (.wrote byEditor id x)).last id = x := Function.update_self _ _ _
  refine ⟨h.alone_set hc fun hempty => by rwa [hsame], fun hsome => absurd hunapplied hsome, ?_,
    fun hby => ?_⟩
  · rw [hunapplied, hlast]
    exact storeParam_self hid _ _
  · obtain rfl : byEditor = true := (Function.update_self _ _ _).symm.trans hby
    have hunpushed : (pool.calls.set i c').flatMap (fun c => valuesOf id c.unpushed) = [x] := by
      rw [flatMap_set_alone hc (hedits.alone hc (hedit rfl) (unpushed_of_not_isEdit id)), hpush]
      exact valuesOf_value_self id x []
    rw [unpushedOf, hunpushed, List.getLastD_concat, hlast]

theorem Settled.push (h : Settled id pool written)
    (hedits : OneEdit pool.calls) {item : Item D}
    (hc : pool.calls[i]? = some (.push item)) :
    Settled id ⟨{ pool.shared with paramQueue := pool.shared.paramQueue ++ [item] },
      pool.calls.set i .returned⟩ written := by
  have halone := hedits.alone hc rfl (unpushed_of_not_isEdit id)
  have hbefore : unpushedOf id pool = valuesOf id [item] := flatMap_alone hc halone
  have hafter : (pool.calls.set i .returned).flatMap (fun c => valuesOf id c.unpushed) = [] :=
    flatMap_set_alone hc halone
  have hunapplied : (pool.calls.set i .returned).flatMap (fun c => valuesOf id c.unapplied) =
      unappliedOf id pool := flatMap_set_same hc rfl
  refine ⟨h.alone_set hc fun hnil => hnil, fun hsome => ?_, ?_, fun hby => ?_⟩
  · rw [unappliedOf, hunapplied] at hsome
    obtain ⟨hqueue, hunpushed⟩ := h.taken hsome
    rw [valuesOf_append, hqueue, ← hbefore, hunpushed]
    exact ⟨rfl, hafter⟩
  · rw [unappliedOf, hunapplied]
    exact h.value
  · have hlast := h.queued hby
    rw [hbefore] at hlast
    rw [unpushedOf, hafter, valuesOf_append, List.append_nil]
    exact hlast

theorem Settled.take (h : Settled id pool written) {hasOutEvents : Bool}
    (hc : pool.calls[i]? = some (.events [] hasOutEvents))
    (hfresh : valuesOf id pool.shared.paramQueue ≠ [] →
      written.byEditor id = true ∧ unpushedOf id pool = []) :
    Settled id ⟨{ pool.shared with paramQueue := [] },
      pool.calls.set i (.items pool.shared.paramQueue hasOutEvents)⟩ written := by
  have hunpushed : (pool.calls.set i (.items pool.shared.paramQueue hasOutEvents)).flatMap
      (fun c => valuesOf id c.unpushed) = unpushedOf id pool := flatMap_set_same hc rfl
  by_cases hempty : valuesOf id pool.shared.paramQueue = []
  · have hnone : valuesOf id (Place.items pool.shared.paramQueue hasOutEvents).unapplied = [] :=
      hempty
    refine h.of_same (h.alone_set hc fun _ => hnone) ?_ hunpushed hempty.symm rfl rfl rfl
    exact flatMap_set_same hc hempty
  · obtain ⟨hby, hnone⟩ := hfresh hempty
    have hothers : ∀ d ∈ pool.calls, valuesOf id d.unapplied = [] := by
      by_contra hsome
      exact hempty (h.taken fun hnil => hsome (List.flatMap_eq_nil_iff.mp hnil)).1
    have hunapplied : (pool.calls.set i (.items pool.shared.paramQueue hasOutEvents)).flatMap
        (fun c => valuesOf id c.unapplied) = valuesOf id pool.shared.paramQueue :=
      flatMap_set_alone hc fun j d _ hd => hothers d (List.mem_of_getElem? hd)
    refine ⟨?_, fun _ => ⟨rfl, hunpushed.trans hnone⟩, ?_, fun _ => ?_⟩
    · refine h.alone.set fun j d _ hd => ?_
      have hd' := hothers d (List.mem_of_getElem? hd)
      exact ⟨.inr hd', .inl hd'⟩
    · have hlast := h.queued hby
      rw [hnone, List.append_nil] at hlast
      rw [unappliedOf, hunapplied]
      exact (getLastD_of_ne_nil hempty _ _).trans hlast
    · rw [unpushedOf, hunpushed, hnone]
      rfl

/-- A drain applies its first value. -/
theorem Settled.apply (h : Settled id pool written) (hid : id ∈ paramIds)
    (hc : pool.calls[i]? = some c) {x : D} (hfirst : c.unapplied = .value id x :: c'.unapplied)
    (hsame : c'.unpushed = c.unpushed) :
    Settled id ⟨{ pool.shared with params := storeParam paramIds pool.shared.params id x },
      pool.calls.set i c'⟩ written := by
  have hvalues : valuesOf id c.unapplied = x :: valuesOf id c'.unapplied := by
    rw [hfirst]
    exact valuesOf_value_self id x _
  have hsome : valuesOf id c.unapplied ≠ [] := by
    rw [hvalues]
    exact List.cons_ne_nil _ _
  have halone : ∀ j d, i ≠ j → pool.calls[j]? = some d → valuesOf id d.unapplied = [] :=
    fun j d hij hd => (h.alone i j c d hij hc hd).resolve_left hsome
  have hbefore : unappliedOf id pool = x :: valuesOf id c'.unapplied :=
    (flatMap_alone hc halone).trans hvalues
  have hafter : (pool.calls.set i c').flatMap (fun c => valuesOf id c.unapplied) =
      valuesOf id c'.unapplied := flatMap_set_alone hc halone
  have hunpushed : (pool.calls.set i c').flatMap (fun c => valuesOf id c.unpushed) =
      unpushedOf id pool := flatMap_set_same hc (congrArg (valuesOf id) hsame)
  have htaken := h.taken (by rw [hbefore]; exact List.cons_ne_nil _ _)
  refine ⟨h.alone_set hc fun hnil => absurd hnil hsome,
    fun _ => ⟨htaken.1, hunpushed.trans htaken.2⟩, ?_, ?_⟩
  · have hvalue := h.value
    rw [hbefore, List.getLastD_cons] at hvalue
    rw [unappliedOf, hafter]
    dsimp only
    rw [storeParam_self hid]
    exact hvalue
  · rw [unpushedOf, hunpushed]
    exact h.queued

theorem Settled.clear (h : Settled id pool written) (hc : pool.calls[i]? = some .clear) :
    Settled id ⟨{ pool.shared with paramQueue := [] }, pool.calls.set i .returned⟩ written := by
  have hunapplied : (pool.calls.set i .returned).flatMap (fun c => valuesOf id c.unapplied) =
      unappliedOf id pool := flatMap_set_same hc rfl
  have hunpushed : (pool.calls.set i .returned).flatMap (fun c => valuesOf id c.unpushed) =
      unpushedOf id pool := flatMap_set_same hc rfl
  refine ⟨h.alone_set hc (fun _ => rfl), fun hsome => ?_, ?_, fun hby => ?_⟩
  · rw [unappliedOf, hunapplied] at hsome
    exact ⟨rfl, hunpushed.trans (h.taken hsome).2⟩
  · rw [unappliedOf, hunapplied]
    exact h.value
  · rw [unpushedOf, hunpushed]
    exact getLastD_of_append (h.queued hby)

theorem Settled.advance (h : Settled id pool written) (hid : id ∈ paramIds)
    (hedits : OneEdit pool.calls)
    (hc : pool.calls[i]? = some c) (htouch : Touches pool.shared c m' c' o)
    (horderly : Orderly pool written (.advance i)) :
    Settled id ⟨m', pool.calls.set i c'⟩ (written.see o) := by
  obtain ⟨hstores, htakes⟩ := horderly i c rfl hc id hid
  cases htouch with
  | passed hunapplied hunpushed hsee =>
    rw [hsee]
    exact h.of_same (h.alone_set hc fun hnil => (hunapplied id).trans hnil)
      (flatMap_set_same hc (hunapplied id)) (flatMap_set_same hc (congrArg (valuesOf id) hunpushed))
      rfl rfl rfl rfl
  | wrote byEditor id' x hid' hload hsame hnone hpush hedit =>
    by_cases heq : id = id'
    · subst heq
      exact h.store hid hedits hc (hstores hid').2 byEditor x hsame hpush hedit
    · have hunpushed : valuesOf id c'.unpushed = valuesOf id c.unpushed := by
        rw [hpush, hnone]
        split
        · exact valuesOf_value_of_ne heq x []
        · rfl
      exact h.store_elsewhere hc heq x (congrArg (valuesOf id) hsame) hunpushed
        (Function.update_of_ne heq _ _) (Function.update_of_ne heq _ _)
  | spoilt id' x hid' hload hsame hsame' =>
    by_cases heq : id = id'
    · subst heq
      exact absurd ((hstores hid').1.symm.trans hload) Bool.false_ne_true
    · exact h.store_elsewhere hc heq x (congrArg (valuesOf id) hsame)
        (congrArg (valuesOf id) hsame') rfl rfl
  | pushed item hplace =>
    subst hplace
    exact h.push hedits hc
  | took hasOutEvents hplace =>
    subst hplace
    exact h.take hc (htakes hasOutEvents rfl)
  | applied id' x hfirst hsame =>
    by_cases heq : id = id'
    · subst heq
      exact h.apply hid hc hfirst hsame
    · have hunapplied : valuesOf id c'.unapplied = valuesOf id c.unapplied := by
        rw [hfirst, valuesOf_value_of_ne heq]
      exact h.store_elsewhere hc heq x hunapplied (congrArg (valuesOf id) hsame) rfl rfl
  | cleared hplace =>
    subst hplace
    exact h.clear hc

/-- A fresh call holds nothing. -/
theorem Settled.enter (h : Settled id pool written) (request : Request D) :
    Settled id { pool with calls := pool.calls ++ [startPlace request] } written := by
  obtain ⟨hunapplied, hunpushed⟩ : valuesOf id (startPlace request).unapplied = [] ∧
      valuesOf id (startPlace request).unpushed = [] := by
    cases request with
    | edit edit => cases edit <;> exact ⟨rfl, rfl⟩
    | process hasPorts events hasOutEvents => cases hasPorts <;> exact ⟨rfl, rfl⟩
    | paramsFlush events hasOutEvents => exact ⟨rfl, rfl⟩
    | stateLoad records ok => exact ⟨rfl, rfl⟩
    | deactivate => exact ⟨rfl, rfl⟩
  refine h.of_same (h.alone.append fun d _ => ⟨.inl hunapplied, .inr hunapplied⟩) ?_ ?_ rfl rfl
    rfl rfl
  · rw [unappliedOf, List.flatMap_append, List.flatMap_singleton, hunapplied, List.append_nil]
    rfl
  · rw [unpushedOf, List.flatMap_append, List.flatMap_singleton, hunpushed, List.append_nil]
    rfl

end Keep

/-! ## Runs -/

/-- With no call in progress every parameter has its last write, if every step of the run was
    orderly. -/
theorem params_eq_lastWrite {params : ParamValues D} {moves : List (Move (Request D))}
    {pool : Pool D} {written : Written D}
    (hrun : ObservedRun program.next (lastWrites.given Orderly) { shared := { params := params } }
      { last := params } moves pool written)
    (hquiet : ∀ c ∈ pool.calls, c.isReturned = true) {id : ClapId} (hid : id ∈ paramIds) :
    pool.shared.params id = written.last id := by
  have hstart : Settled id ({ shared := { params := params } } : Pool D) { last := params } :=
    ⟨allPairs_nil, fun h => absurd rfl h, rfl, nofun⟩
  have hkeep : OneEdit pool.calls ∧ Settled id pool written := by
    refine hrun.invariant
      (R := fun (s : Pool D) (w : Written D) => OneEdit s.calls ∧ Settled id s w) ?_
      ⟨allPairs_nil, hstart⟩
    rintro s w move s' o ⟨hedits, hs⟩ ⟨hallows, horderly⟩ hnext
    rcases next_cases hnext with
      ⟨request, rfl, -, rfl, rfl⟩ | ⟨i, c, m, c', seen, rfl, hc, hstep, rfl, rfl⟩
    · refine ⟨hedits.append fun edit hedit => ?_, hs.enter request⟩
      subst hedit
      exact hallows
    · exact ⟨hedits.set hc hstep, hs.advance hid hedits hc (step_touches hstep) horderly⟩
  have hnone : unappliedOf id pool = [] := by
    refine List.flatMap_eq_nil_iff.mpr fun c hc => ?_
    have hreturned := hquiet c hc
    cases c with
    | returned => rfl
    | _ => cases hreturned
  have hvalue := hkeep.2.value
  rw [hnone] at hvalue
  exact hvalue

/-! ## An edit and a block -/

section Probe

abbrev newParams : ParamValues ExactFloat := create.params

/-- The gain is edited, and a block with the given events takes the edit to the host. -/
def editThenBlock (events : List (Event ExactFloat)) : List (Move (Request ExactFloat)) :=
  [.enter (.edit (.setValue kParamGain 5)), .advance 0, .advance 0,
    .enter (.process true events true)] ++ List.replicate (events.length + 4) (.advance 1)

theorem params_eq_lastWrite_editThenBlock : ∃ pool written,
    ObservedRun program.next (lastWrites.given Orderly) { shared := { params := newParams } }
        { last := newParams } (editThenBlock []) pool written ∧
      pool.shared.params kParamGain = written.last kParamGain := by
  have henter : ∀ (s : Pool ExactFloat) (w : Written ExactFloat) (request : Request ExactFloat),
      Orderly s w (.enter request) := fun s w request i c h => nomatch h
  have hrun : ∃ pool written, ObservedRun program.next (lastWrites.given Orderly)
      { shared := { params := newParams } } { last := newParams } (editThenBlock []) pool written ∧
      ∀ c ∈ pool.calls, c.isReturned = true := by
    refine ⟨_, _, .cons ⟨nofun, henter _ _ _⟩ rfl (.cons ⟨trivial, ?_⟩ rfl (.cons ⟨trivial, ?_⟩ rfl
      (.cons ⟨trivial, henter _ _ _⟩ rfl (.cons ⟨trivial, ?_⟩ rfl (.cons ⟨trivial, ?_⟩ rfl
        (.cons ⟨trivial, ?_⟩ rfl (.cons ⟨trivial, ?_⟩ rfl (.nil _ _)))))))), ?_⟩
    · rintro _ _ ⟨⟩ ⟨⟩ id _
      exact ⟨fun _ => ⟨rfl, rfl⟩, nofun⟩
    · rintro _ _ ⟨⟩ ⟨⟩ id _
      exact ⟨nofun, nofun⟩
    · rintro _ _ ⟨⟩ ⟨⟩ id _
      refine ⟨nofun, fun _ _ hsome => ?_⟩
      by_cases hid : id = kParamGain
      · subst hid
        exact ⟨rfl, rfl⟩
      · exact absurd (valuesOf_value_of_ne hid _ _) hsome
    · rintro _ _ ⟨⟩ ⟨⟩ id _
      exact ⟨nofun, nofun⟩
    · rintro _ _ ⟨⟩ ⟨⟩ id _
      exact ⟨nofun, nofun⟩
    · rintro _ _ ⟨⟩ ⟨⟩ id _
      exact ⟨nofun, nofun⟩
    · exact List.forall_mem_cons.mpr ⟨rfl, List.forall_mem_singleton.mpr rfl⟩
  obtain ⟨pool, written, hrun, hquiet⟩ := hrun
  exact ⟨pool, written, hrun, params_eq_lastWrite hrun hquiet (by decide)⟩

/-- The host automates the gain in the block that takes the edit. -/
theorem hostWrite_undone : ∃ pool written,
    ObservedRun program.next lastWrites { shared := { params := newParams } } { last := newParams }
        (editThenBlock [(Item.value kParamGain 7).event]) pool written ∧
      (∀ c ∈ pool.calls, c.isReturned = true) ∧ written.last kParamGain = 7 ∧
      pool.shared.params kParamGain = 5 :=
  ⟨_, _, .cons nofun rfl (.cons trivial rfl (.cons trivial rfl (.cons trivial rfl
    (.cons trivial rfl (.cons trivial rfl (.cons trivial rfl (.cons trivial rfl
      (.cons trivial rfl (.nil _ _))))))))),
    List.forall_mem_cons.mpr ⟨rfl, List.forall_mem_singleton.mpr rfl⟩, rfl, rfl⟩

end Probe

end Cvp.GuiPlugin
