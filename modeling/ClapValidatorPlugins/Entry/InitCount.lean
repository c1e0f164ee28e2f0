/-
  `gInitCount`. An `init` adds to it in one step; a `deinit` tests it in one step and takes from it
  in another, so the count is right in a run exactly if no other `deinit` uses it up in between and
  it does not overflow (`initCount_right_iff`).
-/
import ClapValidatorPlugins.Entry.Overlap

namespace Cvp.Entry

open Interleaving

/-! ## What a call does to the count -/

instance (c : Call) (code : EntryCode) : Decidable (c.HasReported code) :=
  inferInstanceAs (Decidable (∃ f ∈ c.reported, f.code = code))

/-- Behind the step that updates `gInitCount`. -/
def EntryPc.hasCounted : EntryPc → Bool
  | .leave | .returned => true
  | .announce | .checkOther | .count | .decrement => false

namespace Call

def isReturned (c : Call) : Bool :=
  match c.place with
  | .entry _ .returned | .other _ (.returned _) => true
  | _ => false

def isInit (c : Call) : Bool :=
  match c.place with
  | .entry .init _ => true
  | _ => false

/-- A `deinit` that has not reported E03. -/
def isMatchedDeinit (c : Call) : Bool :=
  match c.place with
  | .entry .deinit _ => decide (¬ c.HasReported .E03)
  | _ => false

/-- What the call has added to `gInitCount`. -/
def contribution (c : Call) : Int :=
  match c.place with
  | .entry .init pc => if pc.hasCounted then 1 else 0
  | .entry .deinit pc => if pc.hasCounted ∧ ¬ c.HasReported .E03 then -1 else 0
  | .other _ _ => 0

/-- E03 is reported in the step that leaves the count alone. -/
def ReportsLate (c : Call) : Prop :=
  ∀ pc, c.place = .entry .deinit pc → pc.hasCounted = false → ¬ c.HasReported .E03

end Call

theorem wrapInt32_of_range {x : Int} (h : -2 ^ 31 ≤ x) (h' : x < 2 ^ 31) : wrapInt32 x = x := by
  unfold wrapInt32
  omega

/-- A step for which the count is as it should be afterwards. -/
def CountsWell (m : Memory) (c : Call) : Prop :=
  (c.place = .entry .deinit .decrement → 0 < m.initCount) ∧
    (c.place = .entry .init .count → m.initCount < 2 ^ 31 - 1)

section Step

variable {m m' : Memory} {c c' : Call} {found : List EntryFinding}

theorem not_hasReported_append {code : EntryCode} {place : Place}
    (h : ¬ c.HasReported code) (hfound : ∀ f ∈ found, f.code ≠ code) :
    ¬ Call.HasReported ⟨place, c.reported ++ found⟩ code := by
  rintro ⟨f, hf, hcode⟩
  rcases List.mem_append.mp hf with hf | hf
  · exact h ⟨f, hf, hcode⟩
  · exact hfound f hf hcode

/-- A finding under a condition. -/
theorem code_of_mem_ite {p : Prop} [Decidable p] {f : EntryFinding} {code : EntryCode}
    (h : f.code ≠ code) : ∀ g ∈ (if p then [f] else []), g.code ≠ code := by
  intro g hg
  split at hg
  · rwa [List.mem_singleton.mp hg]
  · exact absurd hg List.not_mem_nil

/-- The count moved with the call, and stays a count. -/
structure Follows (m m' : Memory) (c c' : Call) : Prop where
  change : m'.initCount - m.initCount = c'.contribution - c.contribution
  nonneg : 0 ≤ m'.initCount
  small : m'.initCount < 2 ^ 31
  late : c'.ReportsLate

theorem follows_of_eq (hnonneg : 0 ≤ m.initCount) (hsmall : m.initCount < 2 ^ 31)
    (hm : m'.initCount = m.initCount) (hc : c'.contribution = c.contribution)
    (hlate : c'.ReportsLate) : Follows m m' c c' := by
  refine ⟨?_, hm ▸ hnonneg, hm ▸ hsmall, hlate⟩
  rw [hm, hc, Int.sub_self, Int.sub_self]

theorem initStep_follows {pc pc' : EntryPc} {reported : List EntryFinding}
    (h : entryStep .init m pc = some (m', pc', found)) (hnonneg : 0 ≤ m.initCount)
    (hsmall : m.initCount < 2 ^ 31) (hwell : CountsWell m ⟨.entry .init pc, reported⟩) :
    Follows m m' ⟨.entry .init pc, reported⟩ ⟨.entry .init pc', reported ++ found⟩ := by
  have hlate : Call.ReportsLate ⟨.entry .init pc', reported ++ found⟩ := fun pc h => nomatch h
  cases pc with
  | count =>
    have hlt := hwell.2 rfl
    cases h
    have hwrap : wrapInt32 (m.initCount + 1) = m.initCount + 1 :=
      wrapInt32_of_range (by omega) (by omega)
    refine ⟨?_, ?_, ?_, hlate⟩
    · show wrapInt32 (m.initCount + 1) - m.initCount = 1 - 0
      omega
    · show 0 ≤ wrapInt32 (m.initCount + 1)
      omega
    · show wrapInt32 (m.initCount + 1) < 2 ^ 31
      omega
  | decrement => cases h
  | returned => cases h
  | _ =>
    cases h
    exact follows_of_eq hnonneg hsmall rfl rfl hlate

theorem deinitStep_follows {pc pc' : EntryPc} {reported : List EntryFinding}
    (h : entryStep .deinit m pc = some (m', pc', found)) (hnonneg : 0 ≤ m.initCount)
    (hsmall : m.initCount < 2 ^ 31) (hwell : CountsWell m ⟨.entry .deinit pc, reported⟩)
    (hlate : Call.ReportsLate ⟨.entry .deinit pc, reported⟩) :
    Follows m m' ⟨.entry .deinit pc, reported⟩ ⟨.entry .deinit pc', reported ++ found⟩ := by
  have hkeep : pc.hasCounted = false → (∀ f ∈ found, f.code ≠ .E03) →
      Call.ReportsLate ⟨.entry .deinit pc', reported ++ found⟩ := by
    intro hpc hfound _ _ _
    exact not_hasReported_append (hlate pc rfl hpc) hfound
  cases pc with
  | announce =>
    cases h
    exact follows_of_eq hnonneg hsmall rfl rfl (hkeep rfl (code_of_mem_ite EntryCode.noConfusion))
  | checkOther =>
    cases h
    exact follows_of_eq hnonneg hsmall rfl rfl (hkeep rfl (code_of_mem_ite EntryCode.noConfusion))
  | count =>
    rw [entryStep] at h
    split at h
    · cases h
      have hreports : Call.HasReported ⟨.entry .deinit .leave, reported ++
          [⟨.E03, "entry.deinit()", "called without a matching successful init()"⟩]⟩ .E03 :=
        ⟨_, List.mem_append_right _ (List.mem_singleton.mpr rfl), rfl⟩
      refine follows_of_eq hnonneg hsmall rfl ?_ (fun pc hpc hout => ?_)
      · exact if_neg fun hcounted => hcounted.2 hreports
      · cases hpc
        cases hout
    · cases h
      exact follows_of_eq hnonneg hsmall rfl rfl (hkeep rfl fun f hf => absurd hf List.not_mem_nil)
  | decrement =>
    have hpos := hwell.1 rfl
    have hunreported := hlate .decrement rfl rfl
    cases h
    have hwrap : wrapInt32 (m.initCount - 1) = m.initCount - 1 :=
      wrapInt32_of_range (by omega) (by omega)
    have hcounted : Call.contribution ⟨.entry .deinit .leave, reported ++ []⟩ = -1 :=
      if_pos ⟨rfl, by rwa [List.append_nil]⟩
    refine ⟨?_, ?_, ?_, fun pc hpc hout => ?_⟩
    · show wrapInt32 (m.initCount - 1) - m.initCount = _ - 0
      rw [hcounted]
      omega
    · show 0 ≤ wrapInt32 (m.initCount - 1)
      omega
    · show wrapInt32 (m.initCount - 1) < 2 ^ 31
      omega
    · cases hpc
      cases hout
  | leave =>
    cases h
    refine follows_of_eq hnonneg hsmall rfl ?_ (fun pc hpc hout => ?_)
    · rw [List.append_nil]
      rfl
    · cases hpc
      cases hout
  | returned => cases h

theorem otherStep_follows {symbol : Symbol} {pc pc' : OtherPc} {reported : List EntryFinding}
    (h : otherStep symbol m pc = some (m', pc', found)) (hnonneg : 0 ≤ m.initCount)
    (hsmall : m.initCount < 2 ^ 31) :
    Follows m m' ⟨.other symbol pc, reported⟩ ⟨.other symbol pc', reported ++ found⟩ := by
  have hlate : Call.ReportsLate ⟨.other symbol pc', reported ++ found⟩ := fun pc h => nomatch h
  cases pc with
  | returned reply => cases h
  | _ =>
    cases h
    exact follows_of_eq hnonneg hsmall rfl rfl hlate

theorem step_follows (h : program.step m c = some (m', c', found)) (hnonneg : 0 ≤ m.initCount)
    (hsmall : m.initCount < 2 ^ 31) (hlate : c.ReportsLate) (hwell : CountsWell m c) :
    Follows m m' c c' := by
  obtain ⟨place, reported⟩ := c
  obtain ⟨place', reported'⟩ := c'
  obtain ⟨hreported, ⟨kind, pc, pc', m₁, hc, hc', hs, rfl⟩ |
    ⟨symbol, pc, pc', m₁, hc, hc', hs, rfl⟩⟩ := step_cases h
  · cases hc
    cases hc'
    cases hreported
    cases kind with
    | init =>
      obtain ⟨hchange, hnonneg', hsmall', hlate'⟩ := initStep_follows hs hnonneg hsmall hwell
      exact ⟨hchange, hnonneg', hsmall', hlate'⟩
    | deinit =>
      obtain ⟨hchange, hnonneg', hsmall', hlate'⟩ :=
        deinitStep_follows hs hnonneg hsmall hwell hlate
      exact ⟨hchange, hnonneg', hsmall', hlate'⟩
  · cases hc
    cases hc'
    cases hreported
    obtain ⟨hchange, hnonneg', hsmall', hlate'⟩ := otherStep_follows hs hnonneg hsmall
    exact ⟨hchange, hnonneg', hsmall', hlate'⟩

/-- A step for which the count is not ready takes it out of its range. -/
theorem countsWell_of_nonneg (h : program.step m c = some (m', c', found))
    (hnonneg : 0 ≤ m.initCount) (hsmall : m.initCount < 2 ^ 31) (hafter : 0 ≤ m'.initCount) :
    CountsWell m c := by
  obtain ⟨place, reported⟩ := c
  constructor
  · intro hplace
    cases hplace
    cases h
    by_contra hzero
    have hwrap : wrapInt32 (m.initCount - 1) = m.initCount - 1 :=
      wrapInt32_of_range (by omega) (by omega)
    have hneg : 0 ≤ wrapInt32 (m.initCount - 1) := hafter
    omega
  · intro hplace
    cases hplace
    cases h
    by_contra hmax
    have htop : m.initCount + 1 = 2 ^ 31 := by omega
    have hneg : 0 ≤ wrapInt32 (m.initCount + 1) := hafter
    rw [htop] at hneg
    exact absurd hneg (by decide)

end Step

/-! ## Runs -/

/-- The calls of `init`. -/
def inits (pool : Pool) : Nat := pool.calls.countP Call.isInit

/-- The calls of `deinit` that did not report E03. -/
def matchedDeinits (pool : Pool) : Nat := pool.calls.countP Call.isMatchedDeinit

/-- The count is right: it is no negative number; when no call is running it is the number of
    `init` calls less the matched `deinit` calls; and when no entry call is running, a symbol
    reports E01 exactly if the two are as many. -/
structure CountRight (pool : Pool) : Prop where
  nonneg : 0 ≤ pool.shared.initCount
  quiet : (∀ c ∈ pool.calls, c.isReturned = true) →
    pool.shared.initCount = inits pool - matchedDeinits pool
  verdict : (∀ c ∈ pool.calls, c.isEntry = true → c.isReturned = true) →
    ∀ c ∈ pool.calls, ∀ symbol m' c' found, c.place = .other symbol .checkInitialized →
      program.step pool.shared c = some (m', c', found) →
      ((∃ f ∈ found, f.code = .E01) ↔ inits pool = matchedDeinits pool)

/-- What a run keeps as long as its steps count well. -/
structure Counted (pool : Pool) : Prop where
  nonneg : 0 ≤ pool.shared.initCount
  small : pool.shared.initCount < 2 ^ 31
  sum : pool.shared.initCount = (pool.calls.map Call.contribution).sum
  late : ∀ c ∈ pool.calls, c.ReportsLate

/-- The step finds `gInitCount` ready: a `deinit` about to decrement finds it positive, an `init`
    about to increment finds it below the largest `int`. -/
def FindsCountReady (pool : Pool) (move : Move Request) : Prop :=
  ∀ i c, move = .advance i → pool.calls[i]? = some c → CountsWell pool.shared c

theorem counted_loaded : Counted loaded :=
  ⟨le_rfl, by decide, rfl, fun _ hc => absurd hc List.not_mem_nil⟩

theorem counted_step {pool pool' : Pool} {move : Move Request} {seen : Option (List EntryFinding)}
    (h : Counted pool) (hnext : program.next pool move = .ok (pool', seen))
    (hready : FindsCountReady pool move) : Counted pool' := by
  rcases next_cases hnext with ⟨request, -, -, -, rfl⟩ | ⟨i, c, m', c', found, rfl, hc, hs, -, rfl⟩
  · refine ⟨h.nonneg, h.small, ?_, ?_⟩
    · rw [List.map_append, List.sum_append, ← h.sum]
      cases request with
      | entry kind => cases kind <;> exact (Int.add_zero _).symm
      | other symbol => exact (Int.add_zero _).symm
    · refine List.forall_mem_append.mpr ⟨h.late, List.forall_mem_singleton.mpr ?_⟩
      rintro pc hpc - ⟨f, hf, -⟩
      cases request <;> exact absurd hf List.not_mem_nil
  · obtain ⟨hchange, hnonneg, hsmall, hlate⟩ := step_follows hs h.nonneg h.small
      (h.late c (List.mem_of_getElem? hc)) (hready i c rfl hc)
    refine ⟨hnonneg, hsmall, ?_, fun d hd => ?_⟩
    · rw [sum_map_set hc, ← h.sum, ← hchange]
      show m'.initCount = _
      omega
    · rcases List.mem_or_eq_of_mem_set hd with hd | rfl
      · exact h.late d hd
      · exact hlate

/-- Once no entry call is running, the contributions are the `init` calls less the matched
    `deinit` calls. -/
theorem sum_contribution {calls : List Call}
    (h : ∀ c ∈ calls, c.isEntry = true → c.isReturned = true) :
    (calls.map Call.contribution).sum =
      calls.countP Call.isInit - (calls.countP Call.isMatchedDeinit : Int) := by
  induction calls with
  | nil => rfl
  | cons c calls ih =>
    obtain ⟨hc, hcalls⟩ := List.forall_mem_cons.mp h
    have hone : c.contribution = c.isInit.toInt - c.isMatchedDeinit.toInt := by
      obtain ⟨place, reported⟩ := c
      cases place with
      | other symbol pc => rfl
      | entry kind pc =>
        cases pc with
        | returned =>
          cases kind with
          | init => rfl
          | deinit =>
            by_cases hreports : Call.HasReported ⟨.entry .deinit .returned, reported⟩ .E03
            · simp [Call.contribution, Call.isInit, Call.isMatchedDeinit, hreports]
            · simp [Call.contribution, Call.isInit, Call.isMatchedDeinit, hreports,
                EntryPc.hasCounted]
        | _ => exact absurd (hc rfl) Bool.false_ne_true
    have hcount : ∀ p : Call → Bool,
        ((c :: calls).countP p : Int) = calls.countP p + (p c).toInt := by
      intro p
      rw [List.countP_cons]
      cases p c <;> simp
    rw [List.map_cons, List.sum_cons, ih hcalls, hcount, hcount, hone]
    omega

theorem Counted.right {pool : Pool} (h : Counted pool) : CountRight pool := by
  refine ⟨h.nonneg, fun hquiet => ?_, ?_⟩
  · exact h.sum.trans (sum_contribution fun c hc _ => hquiet c hc)
  · intro hidle c hc symbol m' c' found hplace hs
    have hcount : pool.shared.initCount = inits pool - matchedDeinits pool :=
      h.sum.trans (sum_contribution hidle)
    have hzero : inits pool = matchedDeinits pool ↔ pool.shared.initCount = 0 := by omega
    obtain ⟨place, reported⟩ := c
    cases hplace
    cases hs
    rw [hzero]
    by_cases h0 : pool.shared.initCount = 0
    · rw [if_pos h0]
      exact iff_of_true ⟨_, List.mem_singleton.mpr rfl, rfl⟩ h0
    · rw [if_neg h0]
      exact iff_of_false (fun ⟨f, hf, _⟩ => absurd hf List.not_mem_nil) h0

/-- Along a run of the DSO the count is right in every state exactly if every step finds it
    ready. -/
theorem initCount_right_iff (moves : List (Move Request)) :
    Machine.AllStates program.next CountRight loaded moves ↔
      Machine.AllSteps program.next (fun pool move _ _ => FindsCountReady pool move) loaded
        moves := by
  refine Machine.allStates_iff_allSteps (I := Counted) (fun pool h => h.right) ?_ ?_ counted_loaded
  · exact fun pool move pool' seen h hnext hready => counted_step h hnext hready
  · intro pool move pool' seen h hnext hright i c hmove hc
    rcases next_cases hnext with ⟨request, rfl, -⟩ | ⟨j, d, m', d', found, rfl, hd, hs, -, rfl⟩
    · cases hmove
    · cases hmove
      rw [hc] at hd
      cases hd
      exact countsWell_of_nonneg hs h.nonneg h.small hright.nonneg

/-- One `init`, then two `deinit` calls that both test the count before either decrements it. -/
def racingDeinits : List (Move Request) :=
  [.enter (.entry .init), .advance 0, .advance 0, .advance 0, .advance 0,
    .enter (.entry .deinit), .enter (.entry .deinit), .advance 1, .advance 1, .advance 2,
    .advance 2, .advance 1, .advance 2, .advance 1, .advance 2, .advance 1, .advance 2]

/-- The count is -1 behind them, and a `get_factory` that follows does not report E01. -/
theorem racingDeinits_miscount :
    let factoryCall : List (Move Request) :=
      [.enter (.other (.getFactory none)), .advance 3, .advance 3, .advance 3, .advance 3]
    (Machine.run program.next loaded racingDeinits).map (fun r =>
      (r.1.shared.initCount, r.1.calls.all Call.isReturned)) = .ok (-1, true) ∧
    (Machine.run program.next loaded (racingDeinits ++ factoryCall)).map (fun r =>
      r.1.calls[3]?.map fun c => decide (c.HasReported .E01)) = .ok (some false) ∧
    ¬ Machine.AllStates program.next CountRight loaded racingDeinits := by
  intro factoryCall
  have hcount : (Machine.run program.next loaded racingDeinits).map (fun r =>
      (r.1.shared.initCount, r.1.calls.all Call.isReturned)) = .ok (-1, true) := rfl
  refine ⟨hcount, rfl, fun hall => ?_⟩
  cases hrun : Machine.run program.next loaded racingDeinits with
  | error e =>
    rw [hrun] at hcount
    cases hcount
  | ok r =>
    rw [hrun] at hcount
    have hneg : r.1.shared.initCount = -1 := congrArg Prod.fst (Except.ok.inj hcount)
    have hnonneg := (hall.last hrun).nonneg
    omega

end Cvp.Entry
