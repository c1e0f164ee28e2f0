/-
  P07, the detector for `params.flush()` concurrent with `process()`. The flush looks at
  `_inProcess` once, as its first step, and does not announce itself, so it sees a block that
  entered the gate before that look and never one that enters behind it
  (`flush_overlap_counted_iff`).
-/
import ClapValidatorPlugins.Threads.Gate

namespace Cvp.Threads

open Interleaving Machine Plugin

variable {D S σ : Type}

/-! ## One flush and one block -/

/-- The two calls at their places, and no others. -/
def duo (p : Plugin D σ) (t₁ t₂ : ThreadId) (a b : Place D S) : Pool D S σ :=
  ⟨.alive p, [⟨t₁, a⟩, ⟨t₂, b⟩]⟩

def duet [DoubleOps D] (impl : PluginImpl D S σ) := program impl fun _ _ => false

/-- A flush that has looked at the flag and has not returned. -/
def Place.isInFlush : Place D S → Bool
  | .flush _ _ .testInProcess => false
  | .flush _ _ _ => true
  | _ => false

def Running.isInFlush (c : Running D S) : Bool := c.place.isInFlush

/-- No flush is under way while a call is inside the gate. -/
def Apart (pool : Pool D S σ) : Prop :=
  ∀ c ∈ pool.calls, ∀ d ∈ pool.calls, c.isInFlush = true → d.holdsGate = false

/-- A block comes to the gate while a flush is behind its look at the flag. -/
def EntersBehind (pool : Pool D S σ) (move : Move (ThreadId × Call D S)) : Prop :=
  ∃ i c, move = .advance i ∧ pool.calls[i]? = some c ∧
    (∃ block memory, c.place = .process block memory .tryEnter) ∧
    ∃ d ∈ pool.calls, d.isInFlush = true

/-- The P07 counter. -/
def overlaps (p : Plugin D σ) : UInt32 := p.contract.findings.counters .P07

namespace Place

def isProcess : Place D S → Bool
  | .process _ _ _ | .returned _ => true
  | _ => false

def isFlush : Place D S → Bool
  | .flush _ _ _ | .returned _ => true
  | _ => false

/-- A flush behind its look at the flag. -/
def hasLooked : Place D S → Bool
  | .flush _ _ .testInProcess => false
  | .flush _ _ _ | .returned _ => true
  | _ => false

def isPastGate : Place D S → Bool
  | .process _ _ .assertThread | .process _ _ .tryEnter => false
  | .process _ _ _ | .returned _ => true
  | _ => false

/-- What a flush has still to add to the P07 counter. -/
def due : Place D S → UInt32
  | .flush _ _ .reportOverlap => 1
  | _ => 0

end Place

section Duo

variable {t₁ t₂ : ThreadId}

theorem isProcess_of_isPastGate {b : Place D S} (h : b.isPastGate = true) :
    b.isProcess = true := by
  cases b with
  | process block memory pc => rfl
  | returned result => rfl
  | _ => cases h

theorem isPastGate_of_holdsGate {b : Place D S} (h : b.holdsGate = true) :
    b.isPastGate = true := by
  cases b with
  | process block memory pc =>
    cases pc with
    | assertThread => cases h
    | tryEnter => cases h
    | _ => rfl
  | _ => cases h

theorem isInFlush_of_isProcess {b : Place D S} (h : b.isProcess = true) : b.isInFlush = false := by
  cases b with
  | process block memory pc => rfl
  | returned result => rfl
  | _ => cases h

theorem holdsGate_of_isFlush {a : Place D S} (h : a.isFlush = true) : a.holdsGate = false := by
  cases a with
  | process block memory pc => cases h
  | _ => rfl

theorem isFlush_of_hasLooked {a : Place D S} (h : a.hasLooked = true) : a.isFlush = true := by
  cases a with
  | flush inEvents hasOutEvents pc => rfl
  | returned result => rfl
  | _ => cases h

theorem apart_duo {p : Plugin D σ} {a b : Place D S} (ha : a.isFlush = true)
    (hb : b.isProcess = true) :
    Apart (duo p t₁ t₂ a b) ↔ (a.isInFlush = true → b.holdsGate = false) := by
  have hb' := isInFlush_of_isProcess hb
  constructor
  · exact fun h => h ⟨t₁, a⟩ List.mem_cons_self ⟨t₂, b⟩
      (List.mem_cons_of_mem _ List.mem_cons_self)
  · intro h c hc d hd hflush
    rcases List.mem_cons.mp hc with rfl | hc
    · rcases List.mem_cons.mp hd with rfl | hd
      · exact holdsGate_of_isFlush ha
      · rw [List.mem_singleton.mp hd]
        exact h hflush
    · rw [List.mem_singleton.mp hc] at hflush
      exact absurd (hb'.symm.trans hflush) Bool.false_ne_true

/-- A block that comes to the gate behind the look is the one of the pair. -/
theorem entersBehind_duo {p : Plugin D σ} {a b : Place D S} {move : Move (ThreadId × Call D S)}
    (ha : a.isFlush = true) (hb : b.isProcess = true) :
    EntersBehind (duo p t₁ t₂ a b) move ↔ move = .advance 1 ∧ a.isInFlush = true ∧
      ∃ block memory, b = .process block memory .tryEnter := by
  constructor
  · rintro ⟨j, c, rfl, hc, ⟨block, memory, hplace⟩, d, hd, hflush⟩
    have hin : a.isInFlush = true := by
      rcases List.mem_cons.mp hd with rfl | hd
      · exact hflush
      · rw [List.mem_singleton.mp hd] at hflush
        exact absurd ((isInFlush_of_isProcess hb).symm.trans hflush) Bool.false_ne_true
    match j, hc with
    | 0, hc =>
      cases hc
      rw [show a = _ from hplace] at ha
      cases ha
    | 1, hc =>
      cases hc
      exact ⟨rfl, hin, block, memory, hplace⟩
    | j + 2, hc => cases hc
  · rintro ⟨rfl, hin, hplace⟩
    exact ⟨1, ⟨t₂, b⟩, rfl, rfl, hplace, ⟨t₁, a⟩, List.mem_cons_self, hin⟩

end Duo

/-! ## Steps -/

section Steps

variable [DoubleOps D] {impl : PluginImpl D S σ} {p : Plugin D σ} {t t₁ t₂ : ThreadId}
  {i : Instance D σ} {a a' b b' : Place D S}

theorem toInt_inj {b c : Bool} (h : b.toInt = c.toInt) : b = c := by
  cases b <;> cases c <;> first | rfl | cases h

theorem duo_next {move : Move (ThreadId × Call D S)} {pool' : Pool D S σ} {seen : Option Unit}
    (h : (duet impl).next (duo p t₁ t₂ a b) move = .ok (pool', seen)) :
    (∃ i a', move = .advance 0 ∧ step impl t₁ p a = some (i, a') ∧
      pool' = ⟨i, [⟨t₁, a'⟩, ⟨t₂, b⟩]⟩) ∨
    ∃ i b', move = .advance 1 ∧ step impl t₂ p b = some (i, b') ∧
      pool' = ⟨i, [⟨t₁, a⟩, ⟨t₂, b'⟩]⟩ := by
  rcases next_cases h with ⟨request, -, hadmits, -⟩ | ⟨j, c, i', c', w, rfl, hc, hs, -, rfl⟩
  · cases hadmits
  · obtain ⟨q, place, hq, hstep, rfl⟩ := step_alive hs
    cases hq
    match j, hc with
    | 0, hc =>
      cases hc
      exact .inl ⟨_, _, rfl, hstep, rfl⟩
    | 1, hc =>
      cases hc
      exact .inr ⟨_, _, rfl, hstep, rfl⟩
    | j + 2, hc => cases hc

/-- A `process()` call counts no P07, and the flag follows it. -/
theorem process_step (hb : b.isProcess = true) (h : step impl t p b = some (i, b')) :
    ∃ q, i = .alive q ∧ b'.isProcess = true ∧ overlaps q = overlaps p ∧
      (p.contract.inProcess = b.holdsGate → q.contract.inProcess = b'.holdsGate) := by
  cases b with
  | process block memory pc =>
    obtain ⟨q, next, hstep, rfl, rfl⟩ := step_process h
    obtain ⟨f, hshifts⟩ := processStep_shifts hstep
    refine ⟨q, rfl, ?_, ?_, fun hflag => ?_⟩
    · cases next <;> rfl
    · rw [overlaps, hshifts.counts.counters]
      exact bump_of_not_mem _ (not_mem_processCodes nofun nofun rfl nofun)
    · have hgate := processStep_gate hstep fun hheld => hflag.trans hheld
      rw [hflag] at hgate
      exact toInt_inj (Int.sub_left_inj _ |>.mp hgate)
  | returned result => cases h
  | _ => cases hb

theorem isPastGate_of_step (hb : b.isPastGate = true) (h : step impl t p b = some (i, b')) :
    b'.isPastGate = true := by
  cases b with
  | process block memory pc =>
    obtain ⟨q, next, hstep, rfl, rfl⟩ := step_process h
    cases pc with
    | assertThread => cases hb
    | tryEnter => cases hb
    | loadActive =>
      cases hstep
      show (Place.process block memory (if _ then _ else _)).isPastGate = true
      split <;> rfl
    | loadProcessing =>
      cases hstep
      show (Place.process block memory (if _ then _ else _)).isPastGate = true
      split <;> rfl
    | check =>
      cases hstep
      show (Place.process block memory (if _ then _ else _)).isPastGate = true
      split <;> rfl
    | body =>
      rw [processStep] at hstep
      split at hstep
      · cases hstep
      · cases hstep
        rfl
    | _ => cases hstep; rfl
  | returned result => cases h
  | _ => cases hb

/-- A flush counts one P07 where its look at the flag told it to, and goes on to its return. -/
theorem flush_step (ha : a.hasLooked = true) (h : step impl t p a = some (i, a')) :
    ∃ q, i = .alive q ∧ a'.hasLooked = true ∧ overlaps q + a'.due = overlaps p + a.due ∧
      q.contract.inProcess = p.contract.inProcess := by
  have quiet : ∀ {q : Plugin D σ} {vs : List Violation} {f : ContractMonitor → ContractMonitor},
      Shifts p q vs f → .P07 ∉ vs → overlaps q + 0 = overlaps p + 0 := by
    intro q vs f hshifts hvs
    rw [overlaps, hshifts.counts.counters, bump_of_not_mem _ hvs]
    rfl
  cases a with
  | flush inEvents hasOutEvents pc =>
    obtain ⟨⟨q, next⟩, hstep, heq⟩ := Option.map_eq_some_iff.mp h
    cases heq
    have hflag := flushStep_inProcess hstep
    cases pc with
    | testInProcess => cases ha
    | reportOverlap =>
      cases hstep
      have hreport := congrFun (counted_report p.contract.findings .P07 "params.flush()"
        "called concurrently with process()").counters .P07
      exact ⟨_, rfl, rfl, (UInt32.add_zero _).trans hreport, hflag⟩
    | checkThread =>
      cases hstep
      refine ⟨_, rfl, rfl, ?_, hflag⟩
      split_ifs
      · exact quiet (moves_report p .T03 _ _).toShifts (by decide)
      · rfl
      · exact quiet (moves_report p .T03 _ _).toShifts (by decide)
      · rfl
    | checkEvents =>
      cases hstep
      refine ⟨_, rfl, rfl, quiet (moves_reportAll p _).toShifts fun hmem => ?_, hflag⟩
      obtain ⟨f, hf, hcode⟩ := List.mem_map.mp hmem
      exact checkParamEvents_codes (P := (· ≠ .P07)) nofun nofun nofun nofun nofun p.contract
        inEvents none f hf hcode
    | body =>
      rw [flushStep] at hstep
      split at hstep
      · cases hstep
      · split at hstep
        · cases hstep
        · cases hstep
          obtain ⟨n, hn⟩ := shifts_absorb p _
          exact ⟨_, rfl, rfl, quiet hn List.not_mem_nil, hflag⟩
  | returned result => cases h
  | _ => cases ha

end Steps

/-! ## Behind the look -/

section Behind

variable [DoubleOps D] {impl : PluginImpl D S σ} {t₁ t₂ : ThreadId}

/-- The flush has looked and has `k` on the P07 counter when it returns; the flag is that of the
    block. -/
structure Behind (t₁ t₂ : ThreadId) (k : UInt32) (pool : Pool D S σ) : Prop where
  places : ∃ p a b, pool = duo p t₁ t₂ a b ∧ a.hasLooked = true ∧ b.isProcess = true ∧
    overlaps p + a.due = k ∧ p.contract.inProcess = b.holdsGate

theorem behind_next {k : UInt32} {pool pool' : Pool D S σ} {move : Move (ThreadId × Call D S)}
    {seen : Option Unit} (h : Behind t₁ t₂ k pool)
    (hnext : (duet impl).next pool move = .ok (pool', seen)) : Behind t₁ t₂ k pool' := by
  obtain ⟨p, a, b, rfl, ha, hb, hk, hflag⟩ := h.places
  rcases duo_next hnext with ⟨i, a', -, hstep, rfl⟩ | ⟨i, b', -, hstep, rfl⟩
  · obtain ⟨q, rfl, ha', hcount, hsame⟩ := flush_step ha hstep
    exact ⟨q, a', b, rfl, ha', hb, hcount.trans hk, hsame.trans hflag⟩
  · obtain ⟨q, rfl, hb', hcount, hgate⟩ := process_step hb hstep
    exact ⟨q, a, b', rfl, ha, hb', by rw [hcount, hk], hgate hflag⟩

theorem behind_overlaps {k : UInt32} {pool : Pool D S σ} {p : Plugin D σ} {r₁ r₂ : Result D S}
    {moves : List (Move (ThreadId × Call D S))} {seen : List (Option Unit)}
    (h : Behind t₁ t₂ k pool)
    (hrun : run (duet impl).next pool moves =
      .ok (duo p t₁ t₂ (.returned r₁) (.returned r₂), seen)) : overlaps p = k := by
  have hend := run_invariant (P := Behind t₁ t₂ k) (fun _ _ _ _ => behind_next) h hrun
  obtain ⟨q, a, b, heq, -, -, hk, -⟩ := hend.places
  cases heq
  exact (UInt32.add_zero _).symm.trans hk

theorem isInFlush_of_step {p : Plugin D σ} {t : ThreadId} {a : Place D S}
    {r : Instance D σ × Place D S} (ha : a.hasLooked = true) (h : step impl t p a = some r) :
    a.isInFlush = true := by
  cases a with
  | flush inEvents hasOutEvents pc =>
    cases pc with
    | testInProcess => cases ha
    | _ => rfl
  | returned result => cases h
  | _ => cases ha

/-- A block that was inside the gate at the look does not come to it again. -/
theorem allSteps_of_held {p : Plugin D σ} {a b : Place D S}
    (ha : a.hasLooked = true) (hb : b.isPastGate = true)
    (moves : List (Move (ThreadId × Call D S))) :
    AllSteps (duet impl).next (fun pool move _ _ => ¬ EntersBehind pool move)
      (duo p t₁ t₂ a b) moves := by
  induction moves generalizing p a b with
  | nil => trivial
  | cons move moves ih =>
    intro pool' o hnext
    have hprocess := isProcess_of_isPastGate hb
    constructor
    · intro henters
      obtain ⟨-, -, block, memory, rfl⟩ :=
        (entersBehind_duo (isFlush_of_hasLooked ha) hprocess).mp henters
      cases hb
    · rcases duo_next hnext with ⟨i, a', -, hstep, rfl⟩ | ⟨i, b', -, hstep, rfl⟩
      · obtain ⟨q, rfl, ha', -, -⟩ := flush_step ha hstep
        exact ih ha' hb
      · obtain ⟨q, rfl, -, -, -⟩ := process_step hprocess hstep
        exact ih ha (isPastGate_of_step hb hstep)

/-- A block that was outside the gate at the look overlaps exactly if it enters behind it. -/
theorem allStates_apart_iff {k : UInt32} {pool : Pool D S σ} (h : Behind t₁ t₂ k pool)
    (hapart : Apart pool) (moves : List (Move (ThreadId × Call D S))) :
    AllStates (duet impl).next Apart pool moves ↔
      AllSteps (duet impl).next (fun pool move _ _ => ¬ EntersBehind pool move) pool moves := by
  refine allStates_iff_allSteps (I := fun pool => Behind t₁ t₂ k pool ∧ Apart pool)
    (fun _ h => h.2) ?_ ?_ ⟨h, hapart⟩
  · intro pool move pool' o ⟨h, hapart⟩ hnext hbehind
    refine ⟨behind_next h hnext, ?_⟩
    obtain ⟨p, a, b, rfl, ha, hb, -, -⟩ := h.places
    have hflush := isFlush_of_hasLooked ha
    rw [apart_duo hflush hb] at hapart
    rw [entersBehind_duo hflush hb] at hbehind
    rcases duo_next hnext with ⟨i, a', -, hstep, rfl⟩ | ⟨i, b', rfl, hstep, rfl⟩
    · obtain ⟨q, rfl, ha', -, -⟩ := flush_step ha hstep
      exact (apart_duo (isFlush_of_hasLooked ha') hb).mpr
        fun _ => hapart (isInFlush_of_step ha hstep)
    · obtain ⟨q, rfl, hb', -, -⟩ := process_step hb hstep
      refine (apart_duo hflush hb').mpr fun hin => eq_false_of_ne_true fun hheld => ?_
      rcases holdsGate_of_step hstep hheld with hbefore | ⟨hplace, -⟩
      · exact Bool.false_ne_true ((hapart hin).symm.trans hbefore)
      · exact hbehind ⟨rfl, hin, hplace⟩
  · intro pool move pool' o ⟨h, hapart⟩ hnext hafter henters
    obtain ⟨p, a, b, rfl, ha, hb, -, hflag⟩ := h.places
    have hflush := isFlush_of_hasLooked ha
    obtain ⟨rfl, hin, block, memory, rfl⟩ := (entersBehind_duo hflush hb).mp henters
    rcases duo_next hnext with ⟨i, a', hmove, -, -⟩ | ⟨i, b', -, hstep, rfl⟩
    · cases hmove
    · obtain ⟨q, next, hprocess, rfl, rfl⟩ := step_process hstep
      rw [processStep, if_neg (by rw [hflag]; exact Bool.false_ne_true)] at hprocess
      cases hprocess
      exact Bool.false_ne_true (((apart_duo hflush rfl).mp hafter hin).symm.trans rfl)

end Behind

/-! ## Every run of the pair -/

section Runs

variable [DoubleOps D] {impl : PluginImpl D S σ} {t₁ t₂ : ThreadId}
  {inEvents : Option (InputEvents D)} {hasOutEvents : Bool} {p' : Plugin D σ} {r₁ r₂ : Result D S}

/-- P07 is counted exactly if flush and block overlap, in this run. -/
def CountsOverlap (impl : PluginImpl D S σ) (pool : Pool D S σ)
    (moves : List (Move (ThreadId × Call D S))) (p p' : Plugin D σ) : Prop :=
  (¬ AllStates (duet impl).next Apart pool moves → overlaps p' ≠ overlaps p) ∧
    (AllStates (duet impl).next Apart pool moves → overlaps p' = overlaps p)

theorem countsOverlap_iff (moves : List (Move (ThreadId × Call D S))) :
    ∀ {p : Plugin D σ} {b : Place D S} {seen : List (Option Unit)}, b.isProcess = true →
      p.contract.inProcess = b.holdsGate →
      run (duet impl).next (duo p t₁ t₂ (.flush inEvents hasOutEvents .testInProcess) b) moves =
        .ok (duo p' t₁ t₂ (.returned r₁) (.returned r₂), seen) →
      (CountsOverlap impl (duo p t₁ t₂ (.flush inEvents hasOutEvents .testInProcess) b) moves p p' ↔
        AllSteps (duet impl).next (fun pool move _ _ => ¬ EntersBehind pool move)
          (duo p t₁ t₂ (.flush inEvents hasOutEvents .testInProcess) b) moves) := by
  induction moves with
  | nil =>
    intro p b seen _ _ hrun
    cases hrun
  | cons move moves ih =>
    intro p b seen hb hflag hrun
    obtain ⟨pool₁, o, os, hnext, hrest, -⟩ := run_cons_ok hrun
    have hapart : Apart (duo p t₁ t₂ (.flush inEvents hasOutEvents .testInProcess) b) :=
      (apart_duo rfl hb).mpr nofun
    have horderly : ¬ EntersBehind
        (duo p t₁ t₂ (.flush inEvents hasOutEvents .testInProcess) b) move := by
      rw [entersBehind_duo rfl hb]
      exact fun h => absurd h.2.1 Bool.false_ne_true
    rw [CountsOverlap, allStates_cons hnext, allSteps_cons hnext]
    rcases duo_next hnext with ⟨i, a', -, hstep, rfl⟩ | ⟨i, b', -, hstep, rfl⟩
    · -- the look
      have hlook : step impl t₁ p (.flush inEvents hasOutEvents .testInProcess) = some (.alive p,
          .flush inEvents hasOutEvents (if b.holdsGate then .reportOverlap else .checkThread)) := by
        rw [← hflag]
        rfl
      cases hlook.symm.trans hstep
      cases hheld : b.holdsGate with
      | true =>
        rw [hheld, if_pos rfl] at hrest
        have hbehind : Behind t₁ t₂ (overlaps p + 1)
            (duo p t₁ t₂ (.flush inEvents hasOutEvents .reportOverlap) b) :=
          ⟨p, _, b, rfl, rfl, hb, rfl, hflag⟩
        have hraised : overlaps p' = overlaps p + 1 := behind_overlaps hbehind hrest
        have hmet : ¬ Apart (duo p t₁ t₂ (.flush inEvents hasOutEvents .reportOverlap) b) := by
          rw [apart_duo rfl hb, hheld]
          exact fun h => Bool.false_ne_true (h rfl).symm
        refine iff_of_true ⟨fun _ => ?_, fun h => absurd h.2.head hmet⟩
          ⟨horderly, allSteps_of_held rfl (isPastGate_of_holdsGate hheld) moves⟩
        rw [hraised]
        simp
      | false =>
        rw [hheld, if_neg Bool.false_ne_true] at hrest
        have hbehind : Behind t₁ t₂ (overlaps p + 0)
            (duo p t₁ t₂ (.flush inEvents hasOutEvents .checkThread) b) :=
          ⟨p, _, b, rfl, rfl, hb, rfl, hflag⟩
        have hsame : overlaps p' = overlaps p :=
          (behind_overlaps hbehind hrest).trans (UInt32.add_zero _)
        have hnow : Apart (duo p t₁ t₂ (.flush inEvents hasOutEvents .checkThread) b) :=
          (apart_duo rfl hb).mpr fun _ => hheld
        rw [and_iff_right hapart, and_iff_right horderly]
        refine Iff.trans ⟨fun h => ?_, fun h => ?_⟩ (allStates_apart_iff hbehind hnow moves)
        · by_contra hno
          exact h.1 hno hsame
        · exact ⟨fun hno => absurd h hno, fun _ => hsame⟩
    · obtain ⟨q, rfl, hb', hcount, hgate⟩ := process_step hb hstep
      have hih := ih hb' (hgate hflag) hrest
      rw [CountsOverlap, hcount] at hih
      rw [and_iff_right hapart, and_iff_right horderly]
      exact hih

/-- One flush and one block on an instance that is not in `process()`, in any interleaving, both
    run to their return: P07 counts their overlap exactly if the block does not come to the gate
    between the flush's look at the flag and its return. -/
theorem flush_overlap_counted_iff {p : Plugin D σ} (hidle : p.contract.inProcess = false)
    {block : ProcessBlock D} {memory : AudioMemory D S} {moves : List (Move (ThreadId × Call D S))}
    {seen : List (Option Unit)}
    (hrun : run (duet impl).next (duo p t₁ t₂ (startPlace (.paramsFlush inEvents hasOutEvents))
      (startPlace (.process block memory))) moves =
        .ok (duo p' t₁ t₂ (.returned r₁) (.returned r₂), seen)) :
    CountsOverlap impl (duo p t₁ t₂ (startPlace (.paramsFlush inEvents hasOutEvents))
        (startPlace (.process block memory))) moves p p' ↔
      AllSteps (duet impl).next (fun pool move _ _ => ¬ EntersBehind pool move)
        (duo p t₁ t₂ (startPlace (.paramsFlush inEvents hasOutEvents))
          (startPlace (.process block memory))) moves :=
  countsOverlap_iff moves rfl hidle hrun

end Runs

section Probe

/-- A flush without events and a block, on an effect that is processing. -/
def flushAndBlock : Pool ExactFloat ExactFloat (Flavor.effect.State ExactFloat ExactFloat) :=
  duo (Flavor.effect.running ExactFloat 48000) 1 2
    (startPlace (.paramsFlush (some { events := [] }) false))
    (startPlace (.process (Flavor.probeBlock ExactFloat 1) Flavor.quietMemory))

/-- The flush starts inside the block. -/
def blockFirst : List (Move (ThreadId × Call ExactFloat ExactFloat)) :=
  .advance 1 :: .advance 1 :: List.replicate 5 (.advance 0) ++ List.replicate 6 (.advance 1)

theorem flush_overlap_counted_iff_blockFirst :
    ∃ p' r₁ r₂ seen,
      run (duet (Flavor.effect.impl : PluginImpl ExactFloat ExactFloat _)).next flushAndBlock
        blockFirst = .ok (duo p' 1 2 (.returned r₁) (.returned r₂), seen) ∧
      (CountsOverlap (Flavor.effect.impl : PluginImpl ExactFloat ExactFloat _) flushAndBlock
          blockFirst (Flavor.effect.running ExactFloat 48000) p' ↔
        AllSteps (duet (Flavor.effect.impl : PluginImpl ExactFloat ExactFloat _)).next
          (fun pool move _ _ => ¬ EntersBehind pool move) flushAndBlock blockFirst) :=
  ⟨_, _, _, _, rfl, flush_overlap_counted_iff rfl rfl⟩

/-- The block comes to the gate right behind the flush's look at the flag. -/
def flushFirst : List (Move (ThreadId × Call ExactFloat ExactFloat)) :=
  .advance 0 :: .advance 1 :: .advance 1 :: List.replicate 3 (.advance 0) ++
    List.replicate 6 (.advance 1)

theorem flushFirst_uncounted :
    ∃ p' r₁ r₂ seen,
      run (duet (Flavor.effect.impl : PluginImpl ExactFloat ExactFloat _)).next flushAndBlock
        flushFirst = .ok (duo p' 1 2 (.returned r₁) (.returned r₂), seen) ∧
      ¬ CountsOverlap (Flavor.effect.impl : PluginImpl ExactFloat ExactFloat _) flushAndBlock
        flushFirst (Flavor.effect.running ExactFloat 48000) p' := by
  refine ⟨_, _, _, _, rfl, fun hcounts => ?_⟩
  refine hcounts.1 (fun hall => ?_) rfl
  -- behind the third step the block is inside the gate and the flush has not returned
  have hmet := (((hall.2 _ _ rfl).2 _ _ rfl).2 _ _ rfl).head
  exact Bool.noConfusion (hmet _ List.mem_cons_self _
    (List.mem_cons_of_mem _ List.mem_cons_self) rfl)

end Probe

end Cvp.Threads
