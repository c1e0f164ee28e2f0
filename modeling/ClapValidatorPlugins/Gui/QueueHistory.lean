/-
  Where the items of `ParamEventQueue` go. The pushes and the two mutex sections that empty the
  queue, the swap of a drain and the `clear()` of `deactivate`, are single steps, so the batches
  they take are consecutive pieces of what was pushed, each taken by one call; the rest is still
  queued. What a drain does with its batch outside the mutex is its own affair: by the time it
  returns it has applied each value and forwarded each item once, in the order of the pushes
  (`queue_linear`).
-/
import ClapValidatorPlugins.Gui.Calls
import ClapValidatorPlugins.Lib.Handout
import Mathlib.Data.List.Nodup

namespace Cvp.GuiPlugin

open ParamEventQueue Interleaving Handout

variable {D : Type}

/-- Who took a batch: the drain of the `i`-th call, with an output list or without, or its
    `clear()`. -/
inductive Taker where
  | drain (call : Nat) (hasOutEvents : Bool)
  | clear (call : Nat)
  deriving DecidableEq, Repr

def Taker.call : Taker → Nat
  | drain call _ | clear call => call

/-- What the queue's calls have done so far; `applied` and `emitted` are per call, in order. -/
structure History (D : Type) where
  log : Log Taker (Item D) := {}
  applied : Nat → List (ClapId × D) := fun _ => []
  emitted : Nat → List (Event D) := fun _ => []

/-- What the step from `c` does to the queue and the parameters. -/
def History.see (h : History D) (i : Nat) (m : Memory D) : Place D → History D
  | .push item => { h with log := h.log.push item }
  | .events [] hasOutEvents => { h with log := h.log.take (.drain i hasOutEvents) m.paramQueue }
  | .clear => { h with log := h.log.take (.clear i) m.paramQueue }
  | .items (.value id x :: _) _ =>
    { h with applied := Function.update h.applied i (h.applied i ++ [(id, x)]) }
  | _ => h

/-- What it pushes into an output list. -/
def History.hear (h : History D) (i : Nat) : Seen D → History D
  | .emitted event => { h with emitted := Function.update h.emitted i (h.emitted i ++ [event]) }
  | _ => h

def History.note (h : History D) (pool : Pool D) (move : Move (Request D))
    (seen : Option (Seen D)) : History D :=
  match move, seen with
  | .advance i, some o =>
    match pool.calls[i]? with
    | some c => (h.see i pool.shared c).hear i o
    | none => h
  | _, _ => h

/-- The calls on the flavor, with their history. -/
def historyStep : Machine.Step (Pool D × History D) (Move (Request D)) (Option (Seen D)) Unit :=
  Machine.remembering program.next History.note

/-- The values among items, in order. -/
def valuesIn (items : List (Item D)) : List (ClapId × D) :=
  items.filterMap fun
    | .value id x => some (id, x)
    | _ => none

/-- One event for each item, if there is an output list. -/
def forwarded (hasOutEvents : Bool) (items : List (Item D)) : List (Event D) :=
  if hasOutEvents then items.map Item.event else []

/-- The call has handed its batch out: a drain has applied each value once and forwarded each item
    once; of what a `clear()` took nothing came out. -/
def History.HandedOut (h : History D) (b : Batch Taker (Item D)) : Prop :=
  match b.taker with
  | .drain i hasOutEvents =>
    h.applied i = valuesIn b.items ∧ h.emitted i = forwarded hasOutEvents b.items
  | .clear i => h.applied i = [] ∧ h.emitted i = []

/-! ## How far a call is -/

/-- The call has taken nothing and handed nothing out. -/
structure History.Untouched (h : History D) (i : Nat) : Prop where
  taken : ∀ b ∈ h.log.batches, b.taker.call ≠ i
  applied : h.applied i = []
  emitted : h.emitted i = []

/-- The call has handed a batch out up to the items given. -/
def History.HandsOut (h : History D) (i : Nat) (hasOutEvents : Bool)
    (unapplied unforwarded : List (Item D)) : Prop :=
  ∃ b ∈ h.log.batches, b.taker = .drain i hasOutEvents ∧
    h.applied i ++ valuesIn unapplied = valuesIn b.items ∧
    h.emitted i ++ forwarded hasOutEvents unforwarded = forwarded hasOutEvents b.items

def Progress (h : History D) (i : Nat) : Place D → Prop
  | .items rest hasOutEvents => h.HandsOut i hasOutEvents rest rest
  | .forward item rest => h.HandsOut i true rest (item :: rest)
  | .returned => h.Untouched i ∨ ∃ b ∈ h.log.batches, b.taker.call = i ∧ h.HandedOut b
  | _ => h.Untouched i

/-- Two histories that agree on a call, but for batches of others. -/
structure SameFor (h h' : History D) (j : Nat) : Prop where
  batches : ∃ others, h'.log.batches = h.log.batches ++ others ∧ ∀ b ∈ others, b.taker.call ≠ j
  applied : h'.applied j = h.applied j
  emitted : h'.emitted j = h.emitted j

section Same

variable {h h' : History D} {j : Nat}

theorem SameFor.untouched (hsame : SameFor h h' j) (hold : h.Untouched j) : h'.Untouched j := by
  obtain ⟨others, hbatches, hothers⟩ := hsame.batches
  refine ⟨fun b hb => ?_, hsame.applied.trans hold.applied, hsame.emitted.trans hold.emitted⟩
  rw [hbatches, List.mem_append] at hb
  exact hb.elim (hold.taken b) (hothers b)

theorem SameFor.handsOut (hsame : SameFor h h' j) {hasOutEvents : Bool} {xs ys : List (Item D)}
    (hold : h.HandsOut j hasOutEvents xs ys) : h'.HandsOut j hasOutEvents xs ys := by
  obtain ⟨others, hbatches, -⟩ := hsame.batches
  obtain ⟨b, hb, htaker, happlied, hemitted⟩ := hold
  refine ⟨b, ?_, htaker, ?_, ?_⟩
  · rw [hbatches]
    exact List.mem_append_left others hb
  · rw [hsame.applied]
    exact happlied
  · rw [hsame.emitted]
    exact hemitted

theorem SameFor.handedOut (hsame : SameFor h h' j) {b : Batch Taker (Item D)}
    (hcall : b.taker.call = j) (hold : h.HandedOut b) : h'.HandedOut b := by
  subst hcall
  unfold History.HandedOut at hold ⊢
  cases htaker : b.taker with
  | drain i hasOutEvents =>
    rw [htaker] at hold hsame
    exact ⟨hsame.applied.trans hold.1, hsame.emitted.trans hold.2⟩
  | clear i =>
    rw [htaker] at hold hsame
    exact ⟨hsame.applied.trans hold.1, hsame.emitted.trans hold.2⟩

theorem SameFor.progress (hsame : SameFor h h' j) {c : Place D} (hold : Progress h j c) :
    Progress h' j c := by
  cases c with
  | items rest hasOutEvents => exact hsame.handsOut hold
  | forward item rest => exact hsame.handsOut hold
  | returned =>
    rcases hold with hold | ⟨b, hb, hcall, hhanded⟩
    · exact .inl (hsame.untouched hold)
    · obtain ⟨others, hbatches, -⟩ := hsame.batches
      refine .inr ⟨b, ?_, hcall, hsame.handedOut hcall hhanded⟩
      rw [hbatches]
      exact List.mem_append_left others hb
  | _ => exact hsame.untouched hold

theorem SameFor.refl (h : History D) (j : Nat) : SameFor h h j :=
  ⟨⟨[], (List.append_nil _).symm, nofun⟩, rfl, rfl⟩

theorem SameFor.trans {h'' : History D} (hsame : SameFor h h' j) (hsame' : SameFor h' h'' j) :
    SameFor h h'' j := by
  obtain ⟨others, hbatches, hothers⟩ := hsame.batches
  obtain ⟨others', hbatches', hothers'⟩ := hsame'.batches
  refine ⟨⟨others ++ others', ?_, ?_⟩, hsame'.applied.trans hsame.applied,
    hsame'.emitted.trans hsame.emitted⟩
  · rw [hbatches', hbatches, List.append_assoc]
  · intro b hb
    exact (List.mem_append.mp hb).elim (hothers b) (hothers' b)

/-- A step of one call is nothing to another. -/
theorem sameFor_see {i : Nat} (hij : j ≠ i) (h : History D) (m : Memory D) (c : Place D)
    (o : Seen D) : SameFor h ((h.see i m c).hear i o) j := by
  have hsee : SameFor h (h.see i m c) j := by
    have htake : ∀ taker : Taker, taker.call = i →
        SameFor h { h with log := h.log.take taker m.paramQueue } j := by
      intro taker htaker
      refine ⟨⟨[⟨taker, m.paramQueue⟩], rfl, ?_⟩, rfl, rfl⟩
      simpa [htaker] using Ne.symm hij
    unfold History.see
    split
    · exact ⟨⟨[], (List.append_nil _).symm, nofun⟩, rfl, rfl⟩
    · exact htake _ rfl
    · exact htake _ rfl
    · exact ⟨⟨[], (List.append_nil _).symm, nofun⟩, Function.update_of_ne hij _ _, rfl⟩
    · exact SameFor.refl h j
  unfold History.hear
  split
  · exact ⟨hsee.batches, hsee.applied, (Function.update_of_ne hij _ _).trans hsee.emitted⟩
  · exact hsee

end Same

/-! ## One step -/

section Step

variable {h : History D} {i : Nat} {m m' : Memory D} {c c' : Place D} {o : Seen D}

/-- A call that has just swapped the queue has everything before it. -/
theorem handsOut_taken (hold : h.Untouched i) (hasOutEvents : Bool) (items : List (Item D)) :
    History.HandsOut { h with log := h.log.take (.drain i hasOutEvents) items } i hasOutEvents
      items items := by
  refine ⟨⟨.drain i hasOutEvents, items⟩, List.mem_append_right _ List.mem_cons_self, rfl, ?_, ?_⟩
  · show h.applied i ++ _ = _
    rw [hold.applied, List.nil_append]
  · show h.emitted i ++ _ = _
    rw [hold.emitted, List.nil_append]

/-- The next value is applied. -/
theorem History.HandsOut.apply {hasOutEvents : Bool} {id : ClapId} {x : D}
    {rest unforwarded : List (Item D)}
    (hold : h.HandsOut i hasOutEvents (.value id x :: rest) unforwarded) :
    History.HandsOut { h with applied := Function.update h.applied i (h.applied i ++ [(id, x)]) } i
      hasOutEvents rest unforwarded := by
  obtain ⟨b, hb, htaker, happlied, hemitted⟩ := hold
  refine ⟨b, hb, htaker, ?_, hemitted⟩
  show Function.update h.applied i _ i ++ _ = _
  rw [Function.update_self, List.append_assoc]
  exact happlied

/-- The next item is forwarded. -/
theorem History.HandsOut.forward {item : Item D} {unapplied rest : List (Item D)}
    (hold : h.HandsOut i true unapplied (item :: rest)) :
    History.HandsOut (h.hear i (.emitted item.event)) i true unapplied rest := by
  obtain ⟨b, hb, htaker, happlied, hemitted⟩ := hold
  refine ⟨b, hb, htaker, happlied, ?_⟩
  show Function.update h.emitted i _ i ++ _ = _
  rw [Function.update_self, List.append_assoc]
  exact hemitted

/-- A gesture is not applied. -/
theorem History.HandsOut.skip {hasOutEvents : Bool} {item : Item D}
    {rest unforwarded : List (Item D)} (hitem : valuesIn [item] = [])
    (hold : h.HandsOut i hasOutEvents (item :: rest) unforwarded) :
    h.HandsOut i hasOutEvents rest unforwarded := by
  obtain ⟨b, hb, htaker, happlied, hemitted⟩ := hold
  refine ⟨b, hb, htaker, ?_, hemitted⟩
  rw [← happlied, ← List.singleton_append (l := rest)]
  unfold valuesIn at hitem ⊢
  rw [List.filterMap_append, hitem, List.nil_append]

/-- Without an output list there is nothing to forward. -/
theorem History.HandsOut.silent {unapplied xs ys : List (Item D)}
    (hold : h.HandsOut i false unapplied xs) : h.HandsOut i false unapplied ys := hold

/-- A gesture on its way through a drain. -/
theorem progress_gesture {hasOutEvents : Bool} {item : Item D} {rest : List (Item D)}
    (hitem : valuesIn [item] = [])
    (hold : h.HandsOut i hasOutEvents (item :: rest) (item :: rest)) :
    History.HandsOut (h.hear i (if hasOutEvents then .emitted item.event else .other)) i
      hasOutEvents rest rest := by
  cases hasOutEvents with
  | true => exact (hold.skip hitem).forward
  | false => exact (hold.skip hitem).silent

theorem progress_step (hs : step m c = some (m', c', o)) (hold : Progress h i c) :
    Progress ((h.see i m c).hear i o) i c' := by
  cases c with
  | store id x =>
    cases hs
    exact hold
  | push item =>
    cases hs
    exact .inl ⟨hold.taken, hold.applied, hold.emitted⟩
  | events rest hasOutEvents =>
    cases rest with
    | nil =>
      cases hs
      exact handsOut_taken hold hasOutEvents m.paramQueue
    | cons header rest =>
      cases hs
      unfold seenOf
      split <;> exact hold
  | items rest hasOutEvents =>
    cases rest with
    | nil =>
      cases hs
      obtain ⟨b, hb, htaker, happlied, hemitted⟩ := hold
      refine .inr ⟨b, hb, by rw [htaker]; rfl, ?_⟩
      unfold History.HandedOut
      rw [htaker]
      refine ⟨(List.append_nil _).symm.trans happlied, ?_⟩
      cases hasOutEvents <;> exact (List.append_nil _).symm.trans hemitted
    | cons item rest =>
      cases item with
      | value id x =>
        cases hs
        cases hasOutEvents with
        | true => exact History.HandsOut.apply hold
        | false => exact (History.HandsOut.apply hold).silent
      | gestureBegin id =>
        cases hs
        exact progress_gesture rfl hold
      | gestureEnd id =>
        cases hs
        exact progress_gesture rfl hold
  | forward item rest =>
    cases hs
    exact History.HandsOut.forward hold
  | load rest ok =>
    cases rest with
    | nil =>
      cases hs
      exact .inl hold
    | cons record rest =>
      cases hs
      cases ok <;> exact hold
  | clear =>
    cases hs
    exact .inr ⟨⟨.clear i, m.paramQueue⟩, List.mem_append_right _ List.mem_cons_self, rfl,
      hold.applied, hold.emitted⟩
  | returned => cases hs

@[simp]
theorem hear_log (h : History D) (i : Nat) (o : Seen D) : (h.hear i o).log = h.log := by
  unfold History.hear
  split <;> rfl

theorem accounts_step (hs : step m c = some (m', c', o)) (hold : h.log.Accounts m.paramQueue) :
    ((h.see i m c).hear i o).log.Accounts m'.paramQueue := by
  rw [hear_log]
  cases c with
  | store id x =>
    cases hs
    exact hold
  | push item =>
    cases hs
    exact hold.push item
  | events rest hasOutEvents =>
    cases rest with
    | nil =>
      cases hs
      exact hold.take _
    | cons header rest =>
      cases hs
      exact hold
  | items rest hasOutEvents =>
    cases rest with
    | nil =>
      cases hs
      exact hold
    | cons item rest =>
      cases item <;> cases hs <;> exact hold
  | forward item rest =>
    cases hs
    exact hold
  | load rest ok =>
    cases rest <;> cases hs <;> exact hold
  | clear =>
    cases hs
    exact hold.take _
  | returned => cases hs

/-- The calls that took a batch, each once. -/
def History.Once (h : History D) : Prop := (h.log.batches.map (·.taker.call)).Nodup

theorem Once.take (hold : h.Once) (hfresh : h.Untouched i) {taker : Taker} (htaker : taker.call = i)
    (queue : List (Item D)) : History.Once { h with log := h.log.take taker queue } := by
  unfold History.Once Log.take
  rw [List.map_append, List.nodup_append]
  refine ⟨hold, List.pairwise_singleton _ _, ?_⟩
  intro j hj k hk hjk
  obtain ⟨b, hb, rfl⟩ := List.mem_map.mp hj
  rw [List.map_singleton, List.mem_singleton] at hk
  exact hfresh.taken b hb (hjk.trans (hk.trans htaker))

theorem once_step (hold : h.Once) (hprogress : Progress h i c) (m : Memory D) (o : Seen D) :
    ((h.see i m c).hear i o).Once := by
  unfold History.Once
  rw [hear_log]
  unfold History.see
  split
  · exact hold
  · exact Once.take hold hprogress rfl m.paramQueue
  · exact Once.take hold hprogress rfl m.paramQueue
  · exact hold
  · exact hold

end Step

/-! ## Runs -/

/-- What holds of the calls and their history. -/
structure Linear (s : Pool D × History D) : Prop where
  accounts : s.2.log.Accounts s.1.shared.paramQueue
  once : s.2.Once
  progress : ∀ i c, s.1.calls[i]? = some c → Progress s.2 i c
  later : ∀ i, s.1.calls.length ≤ i → s.2.Untouched i

section Runs

variable {s s' : Pool D × History D} {moves : List (Move (Request D))}
  {seen : List (Option (Seen D))}

theorem progress_start {h : History D} {i : Nat} (hold : h.Untouched i) (request : Request D) :
    Progress h i (startPlace request) := by
  unfold startPlace
  split
  · exact hold
  · exact hold
  · exact hold
  · split
    · exact hold
    · exact .inl hold
  · exact hold
  · exact hold
  · exact hold

theorem note_advance {pool : Pool D} {i : Nat} {c : Place D} (hc : pool.calls[i]? = some c)
    (h : History D) (o : Seen D) :
    h.note pool (.advance i) (some o) = (h.see i pool.shared c).hear i o := by
  simp only [History.note, hc]

/-- What a step of the calls and their history can be. -/
theorem historyStep_cases {move : Move (Request D)} {o : Option (Seen D)}
    (h : historyStep s move = .ok (s', o)) :
    (∃ request, s' = ({ s.1 with calls := s.1.calls ++ [startPlace request] }, s.2)) ∨
    ∃ i c m' c' w, move = .advance i ∧ s.1.calls[i]? = some c ∧
      step s.1.shared c = some (m', c', w) ∧
      s' = (⟨m', s.1.calls.set i c'⟩, (s.2.see i s.1.shared c).hear i w) := by
  obtain ⟨hnext, hnote⟩ := Machine.remembering_ok h
  rcases next_cases hnext with ⟨request, rfl, -, rfl, hpool⟩ |
      ⟨i, c, m', c', w, rfl, hc, hs, rfl, hpool⟩
  · exact .inl ⟨request, Prod.ext hpool hnote⟩
  · refine .inr ⟨i, c, m', c', w, rfl, hc, hs, Prod.ext hpool ?_⟩
    exact hnote.trans (note_advance hc _ _)

theorem linear_step {move : Move (Request D)} {o : Option (Seen D)} (hold : Linear s)
    (h : historyStep s move = .ok (s', o)) : Linear s' := by
  rcases historyStep_cases h with ⟨request, rfl⟩ | ⟨i, c, m', c', w, -, hc, hs, rfl⟩
  · refine ⟨hold.accounts, hold.once, ?_, ?_⟩
    · intro j d hd
      rcases Nat.lt_or_ge j s.1.calls.length with hj | hj
      · rw [List.getElem?_append_left hj] at hd
        exact hold.progress j d hd
      · obtain rfl : startPlace request = d := by
          rw [List.getElem?_append_right hj] at hd
          exact List.mem_singleton.mp (List.mem_of_getElem? hd) |>.symm
        exact progress_start (hold.later j hj) request
    · intro j hj
      refine hold.later j (Nat.le_trans ?_ hj)
      exact List.length_append ▸ Nat.le_add_right _ _
  · have hown := hold.progress i c hc
    refine ⟨accounts_step hs hold.accounts, once_step hold.once hown _ w, ?_, ?_⟩
    · intro j d hd
      by_cases hij : i = j
      · subst hij
        rw [List.getElem?_set_self (List.getElem?_eq_some_iff.mp hc).1] at hd
        cases hd
        exact progress_step hs hown
      · rw [List.getElem?_set_ne hij] at hd
        exact (sameFor_see (Ne.symm hij) s.2 s.1.shared c w).progress (hold.progress j d hd)
    · intro j hj
      rw [List.length_set] at hj
      have hij : j ≠ i := by
        have := (List.getElem?_eq_some_iff.mp hc).1
        omega
      exact (sameFor_see hij s.2 s.1.shared c w).untouched (hold.later j hj)

theorem linear_run (hold : Linear s) (h : Machine.run historyStep s moves = .ok (s', seen)) :
    Linear s' :=
  Machine.run_invariant (fun _ _ _ _ hp hs => linear_step hp hs) hold h

theorem linear_start {m : Memory D} (hm : m.paramQueue = []) : Linear (⟨m, []⟩, {}) where
  accounts := hm.symm ▸ Log.accounts_empty
  once := List.nodup_nil
  progress := nofun
  later _ _ := ⟨nofun, rfl, rfl⟩

/-- A call that has returned takes no further batch. -/
theorem returned_run {i : Nat} :
    ∀ {s : Pool D × History D} {seen : List (Option (Seen D))},
      s.1.calls[i]? = some .returned → Machine.run historyStep s moves = .ok (s', seen) →
      SameFor s.2 s'.2 i := by
  induction moves with
  | nil =>
    intro s seen _ h
    cases h
    exact SameFor.refl _ _
  | cons move moves ih =>
    intro s seen hi h
    obtain ⟨s₁, o, os, hstep, hrun, -⟩ := Machine.run_cons_ok h
    rcases historyStep_cases hstep with ⟨request, rfl⟩ | ⟨j, c, m', c', w, -, hc, hs, rfl⟩
    · have hi' : (s.1.calls ++ [startPlace request])[i]? = some .returned :=
        (List.getElem?_append_left (List.getElem?_eq_some_iff.mp hi).1).trans hi
      exact @ih (⟨s.1.shared, s.1.calls ++ [startPlace request]⟩, s.2) os hi' hrun
    · have hij : i ≠ j := by
        rintro rfl
        rw [hi] at hc
        cases hc
        cases hs
      have hrest := ih ((List.getElem?_set_ne (Ne.symm hij)).trans hi) hrun
      exact (sameFor_see hij s.2 s.1.shared c w).trans hrest

/-- The call has its section on the queue still ahead. -/
def Ahead (pool : Pool D) (i : Nat) : Prop :=
  ∀ c, pool.calls[i]? = some c → (∃ rest hasOutEvents, c = .events rest hasOutEvents) ∨ c = .clear

theorem Ahead.untouched {i : Nat} (hahead : Ahead s.1 i) (hold : Linear s) : s.2.Untouched i := by
  cases hc : s.1.calls[i]? with
  | none => exact hold.later i (List.getElem?_eq_none_iff.mp hc)
  | some c =>
    have hprogress := hold.progress i c hc
    rcases hahead c hc with ⟨rest, hasOutEvents, rfl⟩ | rfl
    · exact hprogress
    · exact hprogress

theorem prefix_forwarded (hasOutEvents : Bool) (items : List (Item D)) :
    forwarded hasOutEvents items <+: items.map Item.event := by
  cases hasOutEvents with
  | true => exact List.prefix_rfl
  | false => exact List.nil_prefix

/-- The call has handed out a part of the batch, in order. -/
def History.InOrder (h : History D) (b : Batch Taker (Item D)) : Prop :=
  h.applied b.taker.call <+: valuesIn b.items ∧
    h.emitted b.taker.call <+: b.items.map Item.event

theorem History.HandedOut.inOrder {h : History D} {b : Batch Taker (Item D)}
    (hold : h.HandedOut b) : h.InOrder b := by
  unfold History.HandedOut at hold
  unfold History.InOrder
  cases htaker : b.taker with
  | drain i hasOutEvents =>
    rw [htaker] at hold
    exact ⟨hold.1 ▸ List.prefix_rfl, hold.2 ▸ prefix_forwarded hasOutEvents b.items⟩
  | clear i =>
    rw [htaker] at hold
    exact ⟨hold.1 ▸ List.nil_prefix, hold.2 ▸ List.nil_prefix⟩

theorem History.HandsOut.inOrder {h : History D} {i : Nat} {hasOutEvents : Bool}
    {xs ys : List (Item D)} (hold : h.HandsOut i hasOutEvents xs ys) :
    ∃ b ∈ h.log.batches, b.taker.call = i ∧ h.InOrder b := by
  obtain ⟨b, hb, htaker, happlied, hemitted⟩ := hold
  refine ⟨b, hb, htaker ▸ rfl, ?_⟩
  unfold History.InOrder
  rw [htaker]
  exact ⟨⟨_, happlied⟩, List.IsPrefix.trans ⟨_, hemitted⟩ (prefix_forwarded hasOutEvents b.items)⟩

/-- A call that has taken something has handed out a part of it, in order. -/
theorem Progress.inOrder {h : History D} {i : Nat} {c : Place D} (hold : Progress h i c) :
    h.Untouched i ∨ ∃ b ∈ h.log.batches, b.taker.call = i ∧ h.InOrder b := by
  cases c with
  | items rest hasOutEvents => exact .inr (History.HandsOut.inOrder hold)
  | forward item rest => exact .inr (History.HandsOut.inOrder hold)
  | returned =>
    rcases hold with hnone | ⟨b, hb, hcall, hhanded⟩
    · exact .inl hnone
    · exact .inr ⟨b, hb, hcall, hhanded.inOrder⟩
  | _ => exact .inl hold

/-- No call takes two batches. -/
theorem Linear.batch_eq (hold : Linear s) {b b' : Batch Taker (Item D)}
    (hb : b ∈ s.2.log.batches) (hb' : b' ∈ s.2.log.batches)
    (hcall : b'.taker.call = b.taker.call) : b' = b :=
  List.inj_on_of_nodup_map hold.once hb' hb hcall

theorem Linear.inOrder (hold : Linear s) {b : Batch Taker (Item D)} (hb : b ∈ s.2.log.batches) :
    s.2.InOrder b := by
  have hpart : s.2.Untouched b.taker.call ∨
      ∃ b' ∈ s.2.log.batches, b'.taker.call = b.taker.call ∧ s.2.InOrder b' := by
    cases hc : s.1.calls[b.taker.call]? with
    | none => exact .inl (hold.later _ (List.getElem?_eq_none_iff.mp hc))
    | some c => exact (hold.progress _ c hc).inOrder
  rcases hpart with hnone | ⟨b', hb', hcall, horder⟩
  · exact (hnone.taken b hb rfl).elim
  · exact hold.batch_eq hb hb' hcall ▸ horder

theorem Linear.handedOut (hold : Linear s) {b : Batch Taker (Item D)} (hb : b ∈ s.2.log.batches)
    (hreturned : s.1.calls[b.taker.call]? = some .returned) : s.2.HandedOut b := by
  rcases hold.progress _ _ hreturned with hnone | ⟨b', hb', hcall, hhanded⟩
  · exact (hnone.taken b hb rfl).elim
  · exact hold.batch_eq hb hb' hcall ▸ hhanded

end Runs

section Probe

/-- A flush drains the gain's edit and returns; then come the mode's edit, and a flush of it. -/
def flushTwice : List (Move (Request ExactFloat)) × List (Move (Request ExactFloat)) :=
  ([.enter (.edit (.setValue kParamGain 5)), .advance 0, .advance 0,
      .enter (.paramsFlush [] true)] ++ List.replicate 4 (.advance 1),
    [.enter (.edit (.setValue kParamMode 2)), .advance 2, .advance 2,
      .enter (.paramsFlush [] true)] ++ List.replicate 4 (.advance 3))

end Probe

end Cvp.GuiPlugin
