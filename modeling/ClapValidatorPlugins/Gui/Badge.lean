/-
  The contract badge of the three native views: `contract: 3 violations [last P03]`. A view reads
  the total and the last code in steps of its own while any number of threads report findings, and
  a finding raises the total before it stores its code. Win32 and X11 read again only when the
  total has changed. So the count is right once a tick is through that no finding overlaps
  (`badge_right_at_rest`), and the code is, unless the badge was last drawn between the two steps
  of a finding; then it stays wrong until the next finding (`badge_stays_stale`).
-/
import ClapValidatorPlugins.Monitor.Interleaved

namespace Cvp.Badge

open Machine Interleaving

inductive Platform where
  | mac | win32 | x11
  deriving DecidableEq, Repr

/-- What is left of the view's `tick`. -/
inductive Phase where
  | idle
  /-- X11: about to redraw if `_dirty` says so -/
  | counting
  /-- has the total, about to read the last code -/
  | coding (total : UInt32)
  deriving DecidableEq, Repr

/-- `_lastViolations` as it is constructed. -/
def unseen : UInt32 := UInt32.ofNat (2 ^ 32 - 1)

structure View where
  pool : Monitor.Pool := { shared := {} }
  lastViolations : UInt32 := unseen
  /-- `_dirty` of the X11 view -/
  dirty : Bool := false
  phase : Phase := .idle
  badge : String := "contract: OK"

inductive Act where
  /-- a call on the monitor is made or takes a step -/
  | calls (move : Move MonitorCall)
  /-- X11: something else sets `_dirty` -/
  | dirtied
  /-- `tick` reads the total -/
  | look
  /-- X11: `redraw` reads it again -/
  | count
  | code

/-- The text of the badge. -/
def badgeText (total : UInt32) (last : Option Violation) : String :=
  if total = 0 then "contract: OK"
  else
    let code := match last with
      | some v => snprintf 8 (violationCode v)
      | none => ""
    snprintf 64 ("contract: " ++ toString total.toNat ++ " violation" ++
      (if total = 1 then "" else "s") ++ " [last " ++ code ++ "]")

def step (platform : Platform) : Step View Act Unit Unit
  | v, .calls move =>
    match Monitor.program.next v.pool move with
    | .error _ => .error ()
    | .ok (pool, _) => .ok ({ v with pool := pool }, ())
  | v, .dirtied => if platform = .x11 then .ok ({ v with dirty := true }, ()) else .error ()
  | v, .look =>
    if v.phase = .idle then
      let total := v.pool.shared.total
      match platform with
      | .mac => .ok ({ v with phase := .coding total }, ())
      | .win32 =>
        if total = v.lastViolations then .ok (v, ())
        else .ok ({ v with lastViolations := total, phase := .coding total }, ())
      | .x11 =>
        .ok ({ v with
          lastViolations := total
          dirty := v.dirty || decide (total ≠ v.lastViolations)
          phase := .counting }, ())
    else .error ()
  | v, .count =>
    if v.phase = .counting then
      if v.dirty then
        .ok ({ v with dirty := false, phase := .coding v.pool.shared.total }, ())
      else .ok ({ v with phase := .idle }, ())
    else .error ()
  | v, .code =>
    match v.phase with
    | .coding total =>
      .ok ({ v with badge := badgeText total v.pool.shared.lastCode, phase := .idle }, ())
    | .idle | .counting => .error ()

/-! ## The findings -/

/-- Between the total and the last code. -/
def isBetween : Monitor.RecordPc → Bool
  | .lastCode _ => true
  | _ => false

def between : Monitor.Place → Bool
  | .report _ _ _ pc | .note _ _ pc => isBetween pc
  | .clear _ => false

def isFinding : Monitor.Place → Bool
  | .report _ _ _ _ | .note _ _ _ => true
  | .clear _ => false

/-- How many findings have raised the total. -/
def totals (pool : Monitor.Pool) : Nat := pool.calls.countP fun c => c.totaled.isSome

/-- No finding stands between its two steps. -/
def Settled (pool : Monitor.Pool) : Prop := ∀ c ∈ pool.calls, between c = false

instance (pool : Monitor.Pool) : Decidable (Settled pool) :=
  inferInstanceAs (Decidable (∀ c ∈ pool.calls, between c = false))

/-- What a step of a finding does to the total and the last code. -/
def Raises (f f' : Findings) (c c' : Monitor.Place) : Prop :=
  isFinding c' = true ∧
    (c.totaled.isSome = false ∧ c'.totaled.isSome = true ∧ f'.total = f.total + 1 ∨
      c'.totaled.isSome = c.totaled.isSome ∧ f'.total = f.total ∧
        (between c = false → between c' = false ∧ f'.lastCode = f.lastCode))

section Steps

variable {f f' : Findings} {c c' : Monitor.Place} {touch : Monitor.Touch}

theorem recordStep_raises {v : Violation} {line : String}
    {last : UInt32 → Findings → Findings} (place : Monitor.RecordPc → Monitor.Place)
    {pc pc' : Monitor.RecordPc}
    (htotaled : ∀ pc, (place pc).totaled = if pc.hasTotaled then some v else none)
    (hbetween : ∀ pc, between (place pc) = isBetween pc)
    (hfinding : ∀ pc, isFinding (place pc) = true)
    (hlast : ∀ n g, (last n g).total = g.total ∧ (last n g).lastCode = g.lastCode)
    (h : Monitor.recordStep v line last f pc = some (f', pc', touch)) :
    Raises f f' (place pc) (place pc') := by
  refine ⟨hfinding pc', ?_⟩
  rw [htotaled, htotaled, hbetween, hbetween]
  cases pc with
  | count =>
    cases h
    exact .inr ⟨rfl, rfl, fun _ => ⟨rfl, rfl⟩⟩
  | total n =>
    cases h
    exact .inl ⟨rfl, rfl, rfl⟩
  | lastCode n =>
    rw [Monitor.recordStep] at h
    cases h
    exact .inr ⟨by split <;> rfl, rfl, Bool.noConfusion⟩
  | message n =>
    cases h
    exact .inr ⟨rfl, rfl, fun _ => ⟨rfl, rfl⟩⟩
  | emit n =>
    cases h
    exact .inr ⟨rfl, (hlast n f).1, fun _ => ⟨rfl, (hlast n f).2⟩⟩
  | returned => cases h

theorem step_raises (hc : isFinding c = true)
    (h : Monitor.step f c = some (f', c', touch)) : Raises f f' c c' := by
  cases c with
  | report v function detail pc =>
    obtain ⟨⟨g, pc', t⟩, hr, heq⟩ := Option.map_eq_some_iff.mp h
    cases heq
    refine recordStep_raises (.report v function detail) (fun _ => rfl) (fun _ => rfl)
      (fun _ => rfl) (fun n g => ?_) hr
    unfold Monitor.emitReport
    split_ifs <;> exact ⟨rfl, rfl⟩
  | note v message pc =>
    obtain ⟨⟨g, pc', t⟩, hr, heq⟩ := Option.map_eq_some_iff.mp h
    cases heq
    exact recordStep_raises (.note v message) (fun _ => rfl) (fun _ => rfl) (fun _ => rfl)
      (fun n g => ⟨rfl, rfl⟩) hr
  | clear pc => cases hc

end Steps

/-! ## The calls on the monitor -/

section Calls

variable {pool pool' : Monitor.Pool} {move : Move MonitorCall}
  {seen : Option Monitor.Touch}

/-- Every call is a finding, and the total counts those that have raised it. -/
def Counted (pool : Monitor.Pool) : Prop :=
  (∀ c ∈ pool.calls, isFinding c = true) ∧
    pool.shared.total = UInt32.ofNat (totals pool)

def isClear : Move MonitorCall → Bool
  | .enter .clear => true
  | _ => false

theorem totals_le (pool : Monitor.Pool) : totals pool ≤ pool.calls.length :=
  List.countP_le_length

/-- A finding more in the total, or the total as it was; the last code changes only in the second
    step of a finding. -/
theorem counted_next (h : Counted pool) (hmove : isClear move = false)
    (hnext : Monitor.program.next pool move = .ok (pool', seen)) :
    Counted pool' ∧ (totals pool' = totals pool + 1 ∨
      totals pool' = totals pool ∧
        (Settled pool → Settled pool' ∧ pool'.shared.lastCode = pool.shared.lastCode)) := by
  obtain ⟨hfindings, htotal⟩ := h
  rcases next_cases hnext with ⟨call, rfl, -, -, rfl⟩ | ⟨i, c, f, c', touch, -, hc, hs, -, rfl⟩
  · have hstart : isFinding (Monitor.startPlace call) = true ∧
        between (Monitor.startPlace call) = false := by
      cases call with
      | report v function detail => exact ⟨rfl, rfl⟩
      | note v message => exact ⟨rfl, rfl⟩
      | clear => cases hmove
    have hsame : (pool.calls ++ [Monitor.startPlace call]).countP (fun c => c.totaled.isSome) =
        totals pool := by
      have hnone : (Monitor.startPlace call).totaled = none :=
        (Monitor.startPlace_unmarked call).2
      rw [List.countP_append, List.countP_singleton, hnone]
      rfl
    refine ⟨⟨fun c hc => ?_, ?_⟩, .inr ⟨hsame, fun hsettled => ⟨fun c hc => ?_, rfl⟩⟩⟩
    · exact (List.mem_append.mp hc).elim (hfindings c)
        fun hc => List.mem_singleton.mp hc ▸ hstart.1
    · exact htotal.trans (congrArg UInt32.ofNat hsame.symm)
    · exact (List.mem_append.mp hc).elim (hsettled c)
        fun hc => List.mem_singleton.mp hc ▸ hstart.2
  · obtain ⟨hfinding, hraises⟩ := step_raises (hfindings c (List.mem_of_getElem? hc)) hs
    have hcount := countP_set (p := fun c => c.totaled.isSome) hc c'
    have hall : ∀ d ∈ pool.calls.set i c', isFinding d = true := fun d hd =>
      (List.mem_or_eq_of_mem_set hd).elim (hfindings d) fun heq => heq ▸ hfinding
    rcases hraises with ⟨hbefore, hbehind, hmore⟩ | ⟨hsame, hkept, hcode⟩
    · have htotals : totals ⟨f, pool.calls.set i c'⟩ = totals pool + 1 := by
        rw [hbefore, hbehind] at hcount
        show (pool.calls.set i c').countP _ = pool.calls.countP _ + 1
        simp only [Bool.toInt_true, Bool.toInt_false] at hcount
        omega
      refine ⟨⟨hall, ?_⟩, .inl htotals⟩
      rw [htotals, UInt32.ofNat_add, ← htotal]
      exact hmore
    · have htotals : totals ⟨f, pool.calls.set i c'⟩ = totals pool := by
        rw [hsame] at hcount
        show (pool.calls.set i c').countP _ = pool.calls.countP _
        omega
      refine ⟨⟨hall, ?_⟩, .inr ⟨htotals, fun hsettled => ?_⟩⟩
      · rw [htotals, ← htotal]
        exact hkept
      · obtain ⟨hcalm, hlast⟩ := hcode (hsettled c (List.mem_of_getElem? hc))
        exact ⟨fun d hd => (List.mem_or_eq_of_mem_set hd).elim (hsettled d) fun heq => heq ▸ hcalm,
          hlast⟩

end Calls

/-! ## The view -/

/-- The view as it is constructed. -/
def opened (platform : Platform) : View × Bool :=
  match platform with
  | .mac | .win32 => ({}, true)
  | .x11 => ({ dirty := true, badge := "" }, true)

/-- The view, and whether its badge was last drawn with no finding between its two steps. -/
def recorded (platform : Platform) : Step (View × Bool) Act Unit Unit :=
  remembering (step platform) fun settled v act _ =>
    match act with
    | .code => decide (Settled v.pool)
    | .calls _ | .dirtied | .look | .count => settled

/-- The badge is that of `c` findings, no fewer than the last look has seen. With no more findings
    since, its code is the last one, if it was drawn with none between its steps. -/
def Drawn (r : View × Bool) : Prop :=
  ∃ t c code, t ≤ c ∧ c ≤ totals r.1.pool ∧ r.1.lastViolations = UInt32.ofNat t ∧
    r.1.badge = badgeText (UInt32.ofNat c) code ∧
    (r.2 = true → c = totals r.1.pool → Settled r.1.pool ∧ code = r.1.pool.shared.lastCode)

structure Follows (platform : Platform) (r : View × Bool) : Prop where
  counted : Counted r.1.pool
  clean : platform ≠ .x11 → r.1.dirty = false
  seen : r.1.lastViolations = unseen ∨
    ∃ t, t ≤ totals r.1.pool ∧ r.1.lastViolations = UInt32.ofNat t
  coding : ∀ n, r.1.phase = .coding n → ∃ c, c ≤ totals r.1.pool ∧ n = UInt32.ofNat c ∧
    (r.1.lastViolations = unseen ∨ ∃ t, t ≤ c ∧ r.1.lastViolations = UInt32.ofNat t)
  calm : r.1.dirty = false → (∀ n, r.1.phase ≠ .coding n) →
    r.1.lastViolations = unseen ∨ Drawn r

def Act.isCalls : Act → Bool
  | .calls _ => true
  | .dirtied | .look | .count | .code => false

/-- A call of `clear` is made. -/
def Act.clears : Act → Bool
  | .calls move => isClear move
  | .dirtied | .look | .count | .code => false

section Runs

variable {platform : Platform} {r r' : View × Bool} {act : Act} {o : Unit}

theorem recorded_calls_ok {move : Move MonitorCall}
    (h : recorded platform r (.calls move) = .ok (r', o)) :
    ∃ pool seen, Monitor.program.next r.1.pool move = .ok (pool, seen) ∧
      r' = ({ r.1 with pool := pool }, r.2) := by
  obtain ⟨hs, hb⟩ := remembering_ok h
  rw [step] at hs
  split at hs
  · cases hs
  · rename_i pool seen hnext
    have h1 := (Prod.mk.inj (Except.ok.inj hs)).1
    exact ⟨pool, seen, hnext, Prod.ext h1.symm hb⟩

theorem recorded_code_ok (h : recorded platform r .code = .ok (r', o)) :
    ∃ n, r.1.phase = .coding n ∧ r' =
      ({ r.1 with badge := badgeText n r.1.pool.shared.lastCode, phase := .idle },
        decide (Settled r.1.pool)) := by
  obtain ⟨hs, hb⟩ := remembering_ok h
  rw [step] at hs
  split at hs
  · rename_i n hphase
    have h1 := (Prod.mk.inj (Except.ok.inj hs)).1
    exact ⟨n, hphase, Prod.ext h1.symm hb⟩
  · cases hs
  · cases hs

theorem recorded_count_ok (h : recorded platform r .count = .ok (r', o)) :
    r.1.phase = .counting ∧
      (r.1.dirty = true ∧
          r' = ({ r.1 with dirty := false, phase := .coding r.1.pool.shared.total }, r.2) ∨
        r.1.dirty = false ∧ r' = ({ r.1 with phase := .idle }, r.2)) := by
  obtain ⟨hs, hb⟩ := remembering_ok h
  rw [step] at hs
  split at hs
  · rename_i hphase
    refine ⟨hphase, ?_⟩
    split at hs
    · rename_i hdirty
      have h1 := (Prod.mk.inj (Except.ok.inj hs)).1
      exact .inl ⟨hdirty, Prod.ext h1.symm hb⟩
    · rename_i hdirty
      have h1 := (Prod.mk.inj (Except.ok.inj hs)).1
      exact .inr ⟨Bool.eq_false_iff.mpr hdirty, Prod.ext h1.symm hb⟩
  · cases hs

theorem recorded_dirtied_ok (h : recorded platform r .dirtied = .ok (r', o)) :
    platform = .x11 ∧ r' = ({ r.1 with dirty := true }, r.2) := by
  obtain ⟨hs, hb⟩ := remembering_ok h
  rw [step] at hs
  split at hs
  · rename_i hx11
    have h1 := (Prod.mk.inj (Except.ok.inj hs)).1
    exact ⟨hx11, Prod.ext h1.symm hb⟩
  · cases hs

/-- A look: a redraw follows for sure on a Mac, elsewhere if the total is another than the one seen
    or the X11 view is dirty. -/
theorem recorded_look_ok (h : recorded platform r .look = .ok (r', o)) :
    r.1.phase = .idle ∧
      (platform = .mac ∧ r' = ({ r.1 with phase := .coding r.1.pool.shared.total }, r.2) ∨
        platform = .win32 ∧ r.1.pool.shared.total = r.1.lastViolations ∧ r' = r ∨
        platform = .win32 ∧ r' = ({ r.1 with
          lastViolations := r.1.pool.shared.total
          phase := .coding r.1.pool.shared.total }, r.2) ∨
        platform = .x11 ∧ r' = ({ r.1 with
          lastViolations := r.1.pool.shared.total
          dirty := r.1.dirty || decide (r.1.pool.shared.total ≠ r.1.lastViolations)
          phase := .counting }, r.2)) := by
  obtain ⟨hs, hb⟩ := remembering_ok h
  rw [step] at hs
  split at hs
  · rename_i hphase
    refine ⟨hphase, ?_⟩
    cases platform with
    | mac =>
      have h1 := (Prod.mk.inj (Except.ok.inj hs)).1
      exact .inl ⟨rfl, Prod.ext h1.symm hb⟩
    | win32 =>
      dsimp only at hs
      split at hs
      · rename_i htotal
        have h1 := (Prod.mk.inj (Except.ok.inj hs)).1
        exact .inr (.inl ⟨rfl, htotal, Prod.ext h1.symm hb⟩)
      · have h1 := (Prod.mk.inj (Except.ok.inj hs)).1
        exact .inr (.inr (.inl ⟨rfl, Prod.ext h1.symm hb⟩))
    | x11 =>
      have h1 := (Prod.mk.inj (Except.ok.inj hs)).1
      exact .inr (.inr (.inr ⟨rfl, Prod.ext h1.symm hb⟩))
  · cases hs

theorem follows_opened (platform : Platform) : Follows platform (opened platform) := by
  have hcounted : ∀ v : View, v.pool = { shared := {} } → Counted v.pool := fun v hv => by
    rw [hv]
    exact ⟨fun c hc => absurd hc List.not_mem_nil, rfl⟩
  cases platform with
  | mac | win32 =>
    exact ⟨hcounted _ rfl, fun _ => rfl, .inl rfl, fun n hn => Phase.noConfusion hn,
      fun _ _ => .inl rfl⟩
  | x11 =>
    exact ⟨hcounted _ rfl, fun hx11 => absurd rfl hx11, .inl rfl,
      fun n hn => Phase.noConfusion hn, Bool.noConfusion⟩

theorem follows_step (h : Follows platform r) (hact : act.clears = false)
    (hs : recorded platform r act = .ok (r', o)) : Follows platform r' := by
  cases act with
  | calls move =>
    obtain ⟨pool, seen, hnext, rfl⟩ := recorded_calls_ok hs
    obtain ⟨hcounted, hgrown⟩ := counted_next h.counted hact hnext
    have hle : totals r.1.pool ≤ totals pool := by omega
    refine ⟨hcounted, h.clean, ?_, fun n hn => ?_, fun hdirty hphase => ?_⟩
    · exact h.seen.imp id fun ⟨t, ht, heq⟩ => ⟨t, ht.trans hle, heq⟩
    · obtain ⟨c, hc, hrest⟩ := h.coding n hn
      exact ⟨c, hc.trans hle, hrest⟩
    · refine (h.calm hdirty hphase).imp id ?_
      rintro ⟨t, c, code, htc, hc, hlast, hbadge, hcode⟩
      refine ⟨t, c, code, htc, hc.trans hle, hlast, hbadge, fun hsettled hall => ?_⟩
      rcases hgrown with hmore | ⟨hsame, hkeeps⟩
      · have hall : c = totals pool := hall
        omega
      · obtain ⟨hpool, hcode⟩ := hcode hsettled (hall.trans hsame)
        exact ⟨(hkeeps hpool).1, hcode.trans (hkeeps hpool).2.symm⟩
  | dirtied =>
    obtain ⟨hx11, rfl⟩ := recorded_dirtied_ok hs
    exact ⟨h.counted, fun hx11' => absurd hx11 hx11', h.seen, h.coding, Bool.noConfusion⟩
  | look =>
    obtain ⟨hidle, hlook⟩ := recorded_look_ok hs
    have htotal := h.counted.2
    rcases hlook with ⟨-, rfl⟩ | ⟨-, -, rfl⟩ | ⟨-, rfl⟩ | ⟨hx11, rfl⟩
    · refine ⟨h.counted, h.clean, h.seen, fun n hn => ?_, fun _ hphase => absurd rfl (hphase _)⟩
      cases hn
      exact ⟨_, le_rfl, htotal, h.seen⟩
    · exact h
    · refine ⟨h.counted, h.clean, .inr ⟨_, le_rfl, htotal⟩, fun n hn => ?_,
        fun _ hphase => absurd rfl (hphase _)⟩
      cases hn
      exact ⟨_, le_rfl, htotal, .inr ⟨_, le_rfl, htotal⟩⟩
    · refine ⟨h.counted, fun hx11' => absurd hx11 hx11', .inr ⟨_, le_rfl, htotal⟩,
        fun n hn => Phase.noConfusion hn, fun hdirty _ => ?_⟩
      obtain ⟨hclean, hsame⟩ := Bool.or_eq_false_iff.mp hdirty
      have hlast : r.1.pool.shared.total = r.1.lastViolations :=
        not_not.mp (of_decide_eq_false hsame)
      have hcalm := h.calm hclean fun n hn => by rw [hidle] at hn; cases hn
      unfold Drawn at hcalm ⊢
      dsimp only
      rw [hlast]
      exact hcalm
  | count =>
    obtain ⟨hphase, hcount⟩ := recorded_count_ok hs
    rcases hcount with ⟨-, rfl⟩ | ⟨hclean, rfl⟩
    · refine ⟨h.counted, fun _ => rfl, h.seen, fun n hn => ?_,
        fun _ hphase => absurd rfl (hphase _)⟩
      cases hn
      exact ⟨_, le_rfl, h.counted.2, h.seen⟩
    · refine ⟨h.counted, h.clean, h.seen, fun n hn => Phase.noConfusion hn, fun _ _ => ?_⟩
      exact h.calm hclean fun n hn => by rw [hphase] at hn; cases hn
  | code =>
    obtain ⟨n, hphase, rfl⟩ := recorded_code_ok hs
    obtain ⟨c, hc, rfl, hlast⟩ := h.coding n hphase
    refine ⟨h.counted, h.clean, h.seen, fun n hn => Phase.noConfusion hn, fun _ _ => ?_⟩
    refine hlast.imp id fun ⟨t, ht, heq⟩ => ?_
    exact ⟨t, c, _, ht, hc, heq, rfl, fun hsettled _ => ⟨of_decide_eq_true hsettled, rfl⟩⟩

/-! ## Once the findings have stopped -/

/-- The badge shows the total, and its code is the last one unless it was drawn between the two
    steps of a finding. -/
def Right (platform : Platform) (r : View × Bool) : Prop :=
  ∃ code, r.1.badge = badgeText r.1.pool.shared.total code ∧
    (platform = .mac ∨ r.2 = true → code = r.1.pool.shared.lastCode)

/-- Behind a look, with no finding since: the draw is still to come, or the badge is right. -/
def Settling (platform : Platform) (r : View × Bool) : Prop :=
  (platform ≠ .mac → r.1.lastViolations = r.1.pool.shared.total) ∧
    (r.1.phase = .counting ∧ r.1.dirty = true ∨ r.1.phase = .coding r.1.pool.shared.total ∨
      Right platform r ∧ ∀ n, r.1.phase ≠ .coding n)

/-- A badge that was right for the total as it is seen again is right. -/
theorem right_of_seen (h : Follows platform r) (hlength : r.1.pool.calls.length < 2 ^ 32 - 1)
    (hclean : r.1.dirty = false) (hphase : ∀ n, r.1.phase ≠ .coding n) (hmac : platform ≠ .mac)
    (hseen : r.1.pool.shared.total = r.1.lastViolations) : Right platform r := by
  have htotals := totals_le r.1.pool
  have htotal := h.counted.2
  have hsame : ∀ m n : Nat, m < 2 ^ 32 → n < 2 ^ 32 → UInt32.ofNat m = UInt32.ofNat n → m = n := by
    intro m n hm hn heq
    have := congrArg UInt32.toNat heq
    rwa [UInt32.toNat_ofNat_of_lt' hm, UInt32.toNat_ofNat_of_lt' hn] at this
  rcases h.calm hclean hphase with hunseen | ⟨t, c, code, htc, hc, hlast, hbadge, hcode⟩
  · have := hsame _ _ (by omega) (by omega) (htotal.symm.trans (hseen.trans hunseen))
    omega
  · have ht := hsame _ _ (by omega) (by omega) (htotal.symm.trans (hseen.trans hlast))
    have hall : c = totals r.1.pool := by omega
    refine ⟨code, ?_, fun hdrawn => (hcode (hdrawn.resolve_left hmac) hall).2⟩
    rw [hbadge, hall, ← htotal]

theorem settling_of_look (h : Follows platform r) (hlength : r.1.pool.calls.length < 2 ^ 32 - 1)
    (hs : recorded platform r .look = .ok (r', o)) : Settling platform r' := by
  obtain ⟨hidle, hlook⟩ := recorded_look_ok hs
  have hphase : ∀ n, r.1.phase ≠ .coding n := fun n hn => by rw [hidle] at hn; cases hn
  rcases hlook with ⟨rfl, rfl⟩ | ⟨rfl, hseen, rfl⟩ | ⟨rfl, rfl⟩ | ⟨rfl, rfl⟩
  · exact ⟨fun hmac => absurd rfl hmac, .inr (.inl rfl)⟩
  · have hright : Right .win32 r' :=
      right_of_seen h hlength (h.clean Platform.noConfusion) hphase Platform.noConfusion hseen
    exact ⟨fun _ => hseen.symm, .inr (.inr ⟨hright, hphase⟩)⟩
  · exact ⟨fun _ => rfl, .inr (.inl rfl)⟩
  · refine ⟨fun _ => rfl, ?_⟩
    cases hdue : r.1.dirty || decide (r.1.pool.shared.total ≠ r.1.lastViolations) with
    | true => exact .inl ⟨rfl, rfl⟩
    | false =>
      obtain ⟨hclean, hsame⟩ := Bool.or_eq_false_iff.mp hdue
      have hseen : r.1.pool.shared.total = r.1.lastViolations :=
        not_not.mp (of_decide_eq_false hsame)
      have hright : Right .x11 r := right_of_seen h hlength hclean hphase Platform.noConfusion hseen
      exact .inr (.inr ⟨hright, fun n hn => Phase.noConfusion hn⟩)

theorem pool_of_quiet (hact : act.isCalls = false) (hs : recorded platform r act = .ok (r', o)) :
    r'.1.pool = r.1.pool := by
  cases act with
  | calls move => cases hact
  | dirtied => rw [(recorded_dirtied_ok hs).2]
  | look =>
    obtain ⟨-, ⟨-, rfl⟩ | ⟨-, -, rfl⟩ | ⟨-, rfl⟩ | ⟨-, rfl⟩⟩ := recorded_look_ok hs <;> rfl
  | count =>
    obtain ⟨-, ⟨-, rfl⟩ | ⟨-, rfl⟩⟩ := recorded_count_ok hs <;> rfl
  | code =>
    obtain ⟨n, -, rfl⟩ := recorded_code_ok hs
    rfl

theorem settling_step (h : Settling platform r) (hact : act.isCalls = false)
    (hs : recorded platform r act = .ok (r', o)) : Settling platform r' := by
  obtain ⟨hseen, hphase⟩ := h
  cases act with
  | calls move => cases hact
  | dirtied =>
    obtain ⟨-, rfl⟩ := recorded_dirtied_ok hs
    exact ⟨hseen, hphase.imp (fun h => ⟨h.1, rfl⟩) id⟩
  | look =>
    obtain ⟨hidle, hlook⟩ := recorded_look_ok hs
    have hright : Right platform r := by
      rcases hphase with ⟨hcounting, -⟩ | hcoding | ⟨hright, -⟩
      · rw [hidle] at hcounting
        cases hcounting
      · rw [hidle] at hcoding
        cases hcoding
      · exact hright
    rcases hlook with ⟨rfl, rfl⟩ | ⟨rfl, -, rfl⟩ | ⟨rfl, rfl⟩ | ⟨rfl, rfl⟩
    · exact ⟨hseen, .inr (.inl rfl)⟩
    · exact ⟨hseen, hphase⟩
    · exact ⟨fun _ => rfl, .inr (.inl rfl)⟩
    · exact ⟨fun _ => rfl, .inr (.inr ⟨hright, fun n hn => Phase.noConfusion hn⟩)⟩
  | count =>
    obtain ⟨hcounting, hcount⟩ := recorded_count_ok hs
    rcases hcount with ⟨-, rfl⟩ | ⟨hclean, rfl⟩
    · exact ⟨hseen, .inr (.inl rfl)⟩
    · refine ⟨hseen, .inr (.inr ⟨?_, fun n hn => Phase.noConfusion hn⟩)⟩
      rcases hphase with ⟨-, hdirty⟩ | hcoding | ⟨hright, -⟩
      · rw [hclean] at hdirty
        cases hdirty
      · rw [hcounting] at hcoding
        cases hcoding
      · exact hright
  | code =>
    obtain ⟨n, hcoding, rfl⟩ := recorded_code_ok hs
    have htotal : n = r.1.pool.shared.total := by
      rcases hphase with ⟨hcounting, -⟩ | hcoding' | ⟨-, hnone⟩
      · rw [hcoding] at hcounting
        cases hcounting
      · exact Phase.coding.inj (hcoding.symm.trans hcoding')
      · exact absurd hcoding (hnone n)
    refine ⟨hseen, .inr (.inr ⟨⟨_, ?_, fun _ => rfl⟩, fun n hn => Phase.noConfusion hn⟩)⟩
    rw [htotal]

/-- On every platform, for every order of findings and ticks: once a tick is through that no step of
    a finding overlaps or follows, the badge shows the total, and the last code unless it was last
    drawn between the two steps of a finding. -/
theorem badge_right_at_rest {front back : List Act} {os : List Unit}
    (hrun : run (recorded platform) (opened platform) (front ++ .look :: back) = .ok (r, os))
    (hfindings : ∀ act ∈ front, act.clears = false) (hquiet : ∀ act ∈ back, act.isCalls = false)
    (hlength : r.1.pool.calls.length < 2 ^ 32 - 1) (hidle : r.1.phase = .idle) :
    Right platform r := by
  obtain ⟨r₁, os₁, os₂, hfront, hback, -⟩ := run_append_ok hrun
  obtain ⟨r₂, o, os₃, hlook, hrest, -⟩ := run_cons_ok hback
  have hfollows : Follows platform r₁ := by
    refine run_invariant_of_labels ?_ hfindings (follows_opened platform) hfront
    exact fun _ _ _ _ h hact hs => follows_step h hact hs
  have hsame : r.1.pool = r₁.1.pool := by
    rw [← pool_of_quiet rfl hlook]
    refine run_invariant_of_labels (I := fun t => t.1.pool = r₂.1.pool) ?_ hquiet rfl hrest
    exact fun _ _ _ _ h hact hs => (pool_of_quiet hact hs).trans h
  rw [hsame] at hlength
  have hsettling : Settling platform r := by
    refine run_invariant_of_labels ?_ hquiet (settling_of_look hfollows hlength hlook) hrest
    exact fun _ _ _ _ h hact hs => settling_step h hact hs
  rcases hsettling.2 with ⟨hcounting, -⟩ | hcoding | ⟨hright, -⟩
  · rw [hidle] at hcounting
    cases hcounting
  · rw [hidle] at hcoding
    cases hcoding
  · exact hright

end Runs

/-- A finding raises the total, a tick draws the badge, and the finding goes on to its code. -/
def tickInside : List Act :=
  [.calls (.enter (.note .L03 "activate()")), .calls (.advance 0), .calls (.advance 0), .look,
    .code, .calls (.advance 0), .calls (.advance 0), .calls (.advance 0)]

theorem badge_right_at_rest_tickInside : ∃ r os,
    run (recorded .win32) (opened .win32) (tickInside ++ .look :: []) = .ok (r, os) ∧
    Right .win32 r :=
  ⟨_, _, rfl, @badge_right_at_rest .win32 _ tickInside [] _ rfl (by decide)
    (fun _ h => absurd h List.not_mem_nil) (by decide) rfl⟩

/-- Behind it no tick draws the badge again. -/
theorem badge_stays_stale : ∃ r os,
    run (recorded .win32) (opened .win32) tickInside = .ok (r, os) ∧
      (∀ c ∈ r.1.pool.calls, c.isReturned = true) ∧ r.1.pool.shared.lastCode = some .L03 ∧
      recorded .win32 r .look = .ok (r, ()) ∧ r.1.badge = badgeText 1 none :=
  ⟨_, _, rfl, by decide, rfl, rfl, rfl⟩

end Cvp.Badge
