/-
  E04. A call announces itself in its depth before it looks at the other depth, so of two
  conflicting calls the one that looks later sees the other (`overlaps_detected`); and whatever it
  sees is a call between its increment and its decrement (`overlap_sound`).
-/
import ClapValidatorPlugins.Entry.Calls

namespace Cvp.Entry

open Interleaving

/-! ## Where a call stands -/

/-- Between the increment of its depth and the decrement. -/
def EntryPc.inBody : EntryPc → Bool
  | .announce | .returned => false
  | .checkOther | .count | .decrement | .leave => true

def OtherPc.inBody : OtherPc → Bool
  | .announce | .returned _ => false
  | .checkEntry | .checkInitialized | .leave => true

/-- Behind the depth checks and before the decrement. -/
def EntryPc.pastChecks : EntryPc → Bool
  | .announce | .checkOther | .returned => false
  | .count | .decrement | .leave => true

def OtherPc.pastChecks : OtherPc → Bool
  | .announce | .checkEntry | .returned _ => false
  | .checkInitialized | .leave => true

namespace Call

/-- `init` or `deinit`. -/
def isEntry (c : Call) : Bool :=
  match c.place with
  | .entry _ _ => true
  | .other _ _ => false

def inBody (c : Call) : Bool :=
  match c.place with
  | .entry _ pc => pc.inBody
  | .other _ pc => pc.inBody

def pastChecks (c : Call) : Bool :=
  match c.place with
  | .entry _ pc => pc.pastChecks
  | .other _ pc => pc.pastChecks

/-- `init` and `deinit` must not overlap anything. -/
def Conflicts (c d : Call) : Prop := c.isEntry = true ∨ d.isEntry = true

def HasReported (c : Call) (code : EntryCode) : Prop := ∃ f ∈ c.reported, f.code = code

end Call

/-! ## One step -/

section Step

variable {m m' : Memory} {c c' d : Call} {found : List EntryFinding}

/-- A step is one of the two functions' steps; what it reports is added to what was reported. -/
theorem step_cases (h : program.step m c = some (m', c', found)) :
    c'.reported = c.reported ++ found ∧
    ((∃ kind pc pc' m₁, c.place = .entry kind pc ∧ c'.place = .entry kind pc' ∧
        entryStep kind m pc = some (m₁, pc', found) ∧
        m' = { m₁ with earlyLog := found.foldl reportEntry m₁.earlyLog }) ∨
      ∃ symbol pc pc' m₁, c.place = .other symbol pc ∧ c'.place = .other symbol pc' ∧
        otherStep symbol m pc = some (m₁, pc', found) ∧
        m' = { m₁ with earlyLog := found.foldl reportEntry m₁.earlyLog }) := by
  obtain ⟨⟨m₁, place', found₁⟩, hplace, hr⟩ := Option.map_eq_some_iff.mp h
  cases hr
  refine ⟨rfl, ?_⟩
  unfold placeStep at hplace
  split at hplace
  · rename_i kind pc hc
    obtain ⟨⟨m₂, pc', found₂⟩, hstep, hr⟩ := Option.map_eq_some_iff.mp hplace
    cases hr
    exact .inl ⟨kind, pc, pc', _, hc, rfl, hstep, rfl⟩
  · rename_i symbol pc hc
    obtain ⟨⟨m₂, pc', found₂⟩, hstep, hr⟩ := Option.map_eq_some_iff.mp hplace
    cases hr
    exact .inr ⟨symbol, pc, pc', _, hc, rfl, hstep, rfl⟩

theorem step_isEntry (h : program.step m c = some (m', c', found)) : c'.isEntry = c.isEntry := by
  obtain ⟨-, ⟨kind, pc, pc', m₁, hc, hc', -, -⟩ | ⟨symbol, pc, pc', m₁, hc, hc', -, -⟩⟩ :=
    step_cases h
  · rw [Call.isEntry, Call.isEntry, hc, hc']
  · rw [Call.isEntry, Call.isEntry, hc, hc']

theorem step_hasReported (h : program.step m c = some (m', c', found)) {code : EntryCode}
    (hc : c.HasReported code) : c'.HasReported code := by
  obtain ⟨f, hf, hcode⟩ := hc
  rw [Call.HasReported, (step_cases h).1]
  exact ⟨f, List.mem_append_left _ hf, hcode⟩

theorem entryStep_depths {kind : EntryKind} {pc pc' : EntryPc}
    (h : entryStep kind m pc = some (m', pc', found)) :
    m'.entryCallDepth - m.entryCallDepth = pc'.inBody.toInt - pc.inBody.toInt ∧
      m'.otherCallDepth = m.otherCallDepth := by
  have hsub : ∀ x y : Int, x + y - x = y := fun x y => by omega
  cases pc with
  | announce =>
    cases h
    exact ⟨hsub _ _, rfl⟩
  | checkOther =>
    cases h
    exact ⟨Int.sub_self _, rfl⟩
  | count =>
    cases kind with
    | init =>
      cases h
      exact ⟨Int.sub_self _, rfl⟩
    | deinit =>
      rw [entryStep] at h
      split at h
      · cases h
        exact ⟨Int.sub_self _, rfl⟩
      · cases h
        exact ⟨Int.sub_self _, rfl⟩
  | decrement =>
    cases kind with
    | init => cases h
    | deinit =>
      cases h
      exact ⟨Int.sub_self _, rfl⟩
  | leave =>
    cases h
    exact ⟨hsub _ _, rfl⟩
  | returned => cases h

theorem otherStep_depths {symbol : Symbol} {pc pc' : OtherPc}
    (h : otherStep symbol m pc = some (m', pc', found)) :
    m'.otherCallDepth - m.otherCallDepth = pc'.inBody.toInt - pc.inBody.toInt ∧
      m'.entryCallDepth = m.entryCallDepth := by
  have hsub : ∀ x y : Int, x + y - x = y := fun x y => by omega
  cases pc with
  | announce =>
    cases h
    exact ⟨hsub _ _, rfl⟩
  | checkEntry =>
    cases h
    exact ⟨Int.sub_self _, rfl⟩
  | checkInitialized =>
    cases h
    exact ⟨Int.sub_self _, rfl⟩
  | leave =>
    cases h
    exact ⟨hsub _ _, rfl⟩
  | returned reply => cases h

/-- Each depth moves with the calls that enter and leave their body. -/
theorem step_depths (h : program.step m c = some (m', c', found)) :
    m'.entryCallDepth - m.entryCallDepth =
        (c'.isEntry && c'.inBody).toInt - (c.isEntry && c.inBody).toInt ∧
      m'.otherCallDepth - m.otherCallDepth =
        (!c'.isEntry && c'.inBody).toInt - (!c.isEntry && c.inBody).toInt := by
  obtain ⟨-, ⟨kind, pc, pc', m₁, hc, hc', hstep, rfl⟩ |
    ⟨symbol, pc, pc', m₁, hc, hc', hstep, rfl⟩⟩ := step_cases h
  · obtain ⟨hentry, hother⟩ := entryStep_depths hstep
    rw [Call.isEntry, Call.isEntry, Call.inBody, Call.inBody, hc, hc']
    exact ⟨hentry, Int.sub_eq_zero_of_eq hother⟩
  · obtain ⟨hother, hentry⟩ := otherStep_depths hstep
    rw [Call.isEntry, Call.isEntry, Call.inBody, Call.inBody, hc, hc']
    exact ⟨Int.sub_eq_zero_of_eq hentry, hother⟩

end Step

/-! ## The depths -/

section Depths

variable {pool : Pool}

theorem start_notInBody (request : Request) : (program.start request).inBody = false := by
  cases request with
  | entry kind => rfl
  | other symbol => rfl

theorem entryCallDepth_eq (h : Reachable pool) :
    pool.shared.entryCallDepth = pool.calls.countP fun c => c.isEntry && c.inBody := by
  refine (count_from Memory.entryCallDepth 0 (fun request => ?_)
    (fun _ _ _ _ _ _ hs => (step_depths hs).1) rfl h).trans (Int.zero_add _)
  rw [start_notInBody, Bool.and_false]

theorem otherCallDepth_eq (h : Reachable pool) :
    pool.shared.otherCallDepth = pool.calls.countP fun c => !c.isEntry && c.inBody := by
  refine (count_from Memory.otherCallDepth 0 (fun request => ?_)
    (fun _ _ _ _ _ _ hs => (step_depths hs).2) rfl h).trans (Int.zero_add _)
  rw [start_notInBody, Bool.and_false]

/-- A depth is positive exactly while a call of its kind is in its body. -/
theorem entryCallDepth_pos (h : Reachable pool) :
    0 < pool.shared.entryCallDepth ↔ ∃ d ∈ pool.calls, d.isEntry = true ∧ d.inBody = true := by
  rw [entryCallDepth_eq h, Int.natCast_pos, List.countP_pos_iff]
  simp only [Bool.and_eq_true]

theorem otherCallDepth_pos (h : Reachable pool) :
    0 < pool.shared.otherCallDepth ↔ ∃ d ∈ pool.calls, d.isEntry = false ∧ d.inBody = true := by
  rw [otherCallDepth_eq h, Int.natCast_pos, List.countP_pos_iff]
  simp only [Bool.and_eq_true, Bool.not_eq_true']

end Depths

/-! ## The checks -/

section Checks

variable {m m' : Memory} {found : List EntryFinding} {kind : EntryKind} {pc pc' : EntryPc}
  {symbol : Symbol} {opc opc' : OtherPc}

/-- The step reports E04. -/
def FindsOverlap (found : List EntryFinding) : Prop := ∃ f ∈ found, f.code = .E04

theorem findsOverlap_of_pos {n : Int} (h : 0 < n) {f : EntryFinding} (hf : f.code = .E04) :
    FindsOverlap (if n > 0 then [f] else []) := by
  rw [if_pos h]
  exact ⟨f, List.mem_singleton.mpr rfl, hf⟩

theorem pos_of_findsOverlap {n : Int} {f : EntryFinding}
    (h : FindsOverlap (if n > 0 then [f] else [])) : 0 < n := by
  by_contra hn
  rw [if_neg hn] at h
  obtain ⟨g, hg, -⟩ := h
  exact absurd hg List.not_mem_nil

theorem not_findsOverlap {found : List EntryFinding} (h : ∀ f ∈ found, f.code ≠ .E04) :
    ¬ FindsOverlap found := fun ⟨f, hf, hcode⟩ => h f hf hcode

theorem entryStep_reports (h : entryStep kind m pc = some (m', pc', found))
    (hfound : FindsOverlap found) :
    (pc = .announce ∧ 0 < m.entryCallDepth) ∨ pc = .checkOther ∧ 0 < m.otherCallDepth := by
  cases pc with
  | announce =>
    cases h
    exact .inl ⟨rfl, pos_of_findsOverlap hfound⟩
  | checkOther =>
    cases h
    exact .inr ⟨rfl, pos_of_findsOverlap hfound⟩
  | count =>
    refine absurd hfound (not_findsOverlap fun f hf => ?_)
    cases kind with
    | init =>
      cases h
      split at hf
      · rw [List.mem_singleton.mp hf]
        exact EntryCode.noConfusion
      · exact absurd hf List.not_mem_nil
    | deinit =>
      rw [entryStep] at h
      split at h
      · cases h
        rw [List.mem_singleton.mp hf]
        exact EntryCode.noConfusion
      · cases h
        exact absurd hf List.not_mem_nil
  | decrement =>
    cases kind with
    | init => cases h
    | deinit =>
      cases h
      exact absurd hfound (not_findsOverlap fun f hf => absurd hf List.not_mem_nil)
  | leave =>
    cases h
    exact absurd hfound (not_findsOverlap fun f hf => absurd hf List.not_mem_nil)
  | returned => cases h

theorem otherStep_reports (h : otherStep symbol m opc = some (m', opc', found))
    (hfound : FindsOverlap found) : 0 < m.entryCallDepth := by
  cases opc with
  | announce =>
    cases h
    exact absurd hfound (not_findsOverlap fun f hf => absurd hf List.not_mem_nil)
  | checkEntry =>
    cases h
    exact pos_of_findsOverlap hfound
  | checkInitialized =>
    cases h
    refine absurd hfound (not_findsOverlap fun f hf => ?_)
    split at hf
    · rw [List.mem_singleton.mp hf]
      exact EntryCode.noConfusion
    · exact absurd hf List.not_mem_nil
  | leave =>
    cases h
    exact absurd hfound (not_findsOverlap fun f hf => absurd hf List.not_mem_nil)
  | returned reply => cases h

/-- The step into the body sees the entry calls that are in theirs. -/
theorem entryStep_enters (h : entryStep kind m pc = some (m', pc', found))
    (hbefore : pc.inBody = false) (hafter : pc'.inBody = true) (hpos : 0 < m.entryCallDepth) :
    FindsOverlap found := by
  cases pc with
  | announce =>
    cases h
    exact findsOverlap_of_pos hpos rfl
  | returned => cases h
  | _ => cases hbefore

/-- The step behind the checks sees the other calls that are in their body. -/
theorem entryStep_passes (h : entryStep kind m pc = some (m', pc', found))
    (hbefore : pc.pastChecks = false) (hafter : pc'.pastChecks = true)
    (hpos : 0 < m.otherCallDepth) : FindsOverlap found := by
  cases pc with
  | announce =>
    cases h
    cases hafter
  | checkOther =>
    cases h
    exact findsOverlap_of_pos hpos rfl
  | returned => cases h
  | _ => cases hbefore

theorem otherStep_passes (h : otherStep symbol m opc = some (m', opc', found))
    (hbefore : opc.pastChecks = false) (hafter : opc'.pastChecks = true)
    (hpos : 0 < m.entryCallDepth) : FindsOverlap found := by
  cases opc with
  | announce =>
    cases h
    cases hafter
  | checkEntry =>
    cases h
    exact findsOverlap_of_pos hpos rfl
  | returned reply => cases h
  | _ => cases hbefore

end Checks

/-! ## Pairs of calls -/

namespace Call

theorem inBody_of_pastChecks {c : Call} (h : c.pastChecks = true) : c.inBody = true := by
  unfold pastChecks at h
  unfold inBody
  split at h
  · rename_i kind pc _
    cases pc <;> first | rfl | cases h
  · rename_i symbol pc _
    cases pc <;> first | rfl | cases h

/-- The two overlap far enough for one of them to have seen the other. -/
def Overlaps (c d : Call) : Prop :=
  (c.isEntry = true ∧ d.isEntry = true ∧ c.inBody = true ∧ d.inBody = true) ∨
    c.isEntry ≠ d.isEntry ∧ c.pastChecks = true ∧ d.pastChecks = true

def Detected (c d : Call) : Prop := c.HasReported .E04 ∨ d.HasReported .E04

theorem Overlaps.symm {c d : Call} (h : c.Overlaps d) : d.Overlaps c := by
  rcases h with ⟨hc, hd, hbody, hbody'⟩ | ⟨hne, hpast, hpast'⟩
  · exact .inl ⟨hd, hc, hbody', hbody⟩
  · exact .inr ⟨hne.symm, hpast', hpast⟩

theorem Overlaps.inBody {c d : Call} (h : c.Overlaps d) : c.inBody = true := by
  rcases h with ⟨-, -, hbody, -⟩ | ⟨-, hpast, -⟩
  · exact hbody
  · exact inBody_of_pastChecks hpast

end Call

/-- The step that makes two calls overlap reports it. -/
theorem step_detects {pool : Pool} (h : Reachable pool) {m' : Memory} {c c' d : Call}
    {found : List EntryFinding} (hd : d ∈ pool.calls)
    (hstep : program.step pool.shared c = some (m', c', found)) (hbefore : ¬ c.Overlaps d)
    (hafter : c'.Overlaps d) : c'.HasReported .E04 := by
  have hkind := step_isEntry hstep
  obtain ⟨hreported, hplace⟩ := step_cases hstep
  have hfinds : FindsOverlap found := by
    rcases hafter with ⟨hc', hd', hbody, hbody'⟩ | ⟨hne, hpast, hpast'⟩
    · have hpos := (entryCallDepth_pos h).mpr ⟨d, hd, hd', hbody'⟩
      have hout : c.inBody = false := by
        by_contra hin
        exact hbefore (.inl ⟨hkind ▸ hc', hd', eq_true_of_ne_false hin, hbody'⟩)
      rcases hplace with ⟨kind, pc, pc', m₁, hc, hc₁, hs, -⟩ | ⟨symbol, pc, pc', m₁, hc, hc₁, hs, -⟩
      · rw [Call.inBody, hc] at hout
        rw [Call.inBody, hc₁] at hbody
        exact entryStep_enters hs hout hbody hpos
      · rw [Call.isEntry, hc₁] at hc'
        cases hc'
    · have hin := Call.inBody_of_pastChecks hpast'
      have hout : c.pastChecks = false := by
        by_contra hcpast
        exact hbefore (.inr ⟨hkind ▸ hne, eq_true_of_ne_false hcpast, hpast'⟩)
      rcases hplace with ⟨kind, pc, pc', m₁, hc, hc₁, hs, -⟩ | ⟨symbol, pc, pc', m₁, hc, hc₁, hs, -⟩
      · rw [Call.pastChecks, hc] at hout
        rw [Call.pastChecks, hc₁] at hpast
        rw [Call.isEntry, hc₁] at hne
        exact entryStep_passes hs hout hpast
          ((otherCallDepth_pos h).mpr ⟨d, hd, eq_false_of_ne_true hne.symm, hin⟩)
      · rw [Call.pastChecks, hc] at hout
        rw [Call.pastChecks, hc₁] at hpast
        rw [Call.isEntry, hc₁] at hne
        exact otherStep_passes hs hout hpast
          ((entryCallDepth_pos h).mpr ⟨d, hd, eq_true_of_ne_false hne.symm, hin⟩)
  obtain ⟨f, hf, hcode⟩ := hfinds
  rw [Call.HasReported, hreported]
  exact ⟨f, List.mem_append_right _ hf, hcode⟩

/-- Of two calls that overlap, one has reported it. -/
theorem overlaps_detected {pool : Pool} (h : Reachable pool) :
    AllPairs (fun c d => c.Overlaps d → c.Detected d) pool.calls := by
  let I : Pool → Prop := fun q =>
    Reachable q ∧ AllPairs (fun c d => c.Overlaps d → c.Detected d) q.calls
  have hI : I pool := by
    refine Machine.Reachable.invariant h ⟨Machine.Reachable.refl _, allPairs_nil⟩ ?_
    intro q move q' o hq hnext
    refine ⟨hq.1.tail hnext, ?_⟩
    rcases next_cases hnext with ⟨request, -, -, -, rfl⟩ | ⟨i, c, s, c', w, -, hc, hs, -, rfl⟩
    · have hfresh := start_notInBody request
      refine hq.2.append fun d _ => ⟨fun hover => ?_, fun hover => ?_⟩
      · rw [hover.inBody] at hfresh
        cases hfresh
      · rw [hover.symm.inBody] at hfresh
        cases hfresh
    · have hnew : ∀ j d, i ≠ j → q.calls[j]? = some d → c'.Overlaps d → c'.Detected d := by
        intro j d hij hd hover
        by_cases hbefore : c.Overlaps d
        · exact (hq.2 i j c d hij hc hd hbefore).imp (step_hasReported hs) id
        · exact .inl (step_detects hq.1 (List.mem_of_getElem? hd) hs hbefore hover)
      exact hq.2.set fun j d hij hd =>
        ⟨hnew j d hij hd, fun hover => (hnew j d hij hd hover.symm).symm⟩
  exact hI.2

/-- E04 is reported of a conflicting call that is in its body at that step. -/
theorem overlap_sound {pool : Pool} (h : Reachable pool) {i : Nat} {c c' : Call} {m' : Memory}
    {found : List EntryFinding} (hc : pool.calls[i]? = some c)
    (hstep : program.step pool.shared c = some (m', c', found)) (hfound : FindsOverlap found) :
    ∃ j d, j ≠ i ∧ pool.calls[j]? = some d ∧ c.Conflicts d ∧ d.inBody = true := by
  -- a call that differs from `c` in kind or place is another one
  have hother : ∀ d ∈ pool.calls, (d.isEntry = c.isEntry → d.inBody = c.inBody → False) →
      c.Conflicts d → d.inBody = true →
      ∃ j d, j ≠ i ∧ pool.calls[j]? = some d ∧ c.Conflicts d ∧ d.inBody = true := by
    intro d hd hne hconflict hbody
    obtain ⟨j, hij, hj⟩ := exists_other hc hd fun heq =>
      hne (congrArg Call.isEntry heq) (congrArg Call.inBody heq)
    exact ⟨j, d, hij.symm, hj, hconflict, hbody⟩
  obtain ⟨-, ⟨kind, pc, pc', m₁, hplace, -, hs, -⟩ | ⟨symbol, pc, pc', m₁, hplace, -, hs, -⟩⟩ :=
    step_cases hstep
  · have hentry : c.isEntry = true := by rw [Call.isEntry, hplace]
    rcases entryStep_reports hs hfound with ⟨rfl, hpos⟩ | ⟨rfl, hpos⟩
    · obtain ⟨d, hd, -, hbody⟩ := (entryCallDepth_pos h).mp hpos
      have hout : c.inBody = false := by rw [Call.inBody, hplace]; rfl
      refine hother d hd (fun _ hsame => ?_) (.inl hentry) hbody
      rw [hbody, hout] at hsame
      cases hsame
    · obtain ⟨d, hd, hkind, hbody⟩ := (otherCallDepth_pos h).mp hpos
      refine hother d hd (fun hsame _ => ?_) (.inl hentry) hbody
      rw [hkind, hentry] at hsame
      cases hsame
  · have hentry : c.isEntry = false := by rw [Call.isEntry, hplace]
    obtain ⟨d, hd, hkind, hbody⟩ := (entryCallDepth_pos h).mp (otherStep_reports hs hfound)
    refine hother d hd (fun hsame _ => ?_) (.inr hkind) hbody
    rw [hkind, hentry] at hsame
    cases hsame

/-- E04 is sound, misses no overlap of two bodies, and the depths go back to zero. -/
theorem overlap_detection {pool : Pool} (h : Reachable pool) :
    (∀ (i : Nat) c m' c' found, pool.calls[i]? = some c →
      program.step pool.shared c = some (m', c', found) → (∃ f ∈ found, f.code = .E04) →
      ∃ (j : Nat) (d : Call), j ≠ i ∧ pool.calls[j]? = some d ∧ c.Conflicts d ∧
        d.inBody = true) ∧
    (∀ (i j : Nat) (c d : Call), i ≠ j → pool.calls[i]? = some c → pool.calls[j]? = some d →
      c.isEntry = true → c.pastChecks = true → d.pastChecks = true →
      c.HasReported .E04 ∨ d.HasReported .E04) ∧
    ((∀ c ∈ pool.calls, c.inBody = false) →
      pool.shared.entryCallDepth = 0 ∧ pool.shared.otherCallDepth = 0) := by
  refine ⟨fun i c m' c' found hc hstep hfound => overlap_sound h hc hstep hfound, ?_, ?_⟩
  · intro i j c d hij hc hd hentry hpast hpast'
    refine overlaps_detected h i j c d hij hc hd ?_
    by_cases hkind : d.isEntry = true
    · exact .inl ⟨hentry, hkind, Call.inBody_of_pastChecks hpast,
        Call.inBody_of_pastChecks hpast'⟩
    · exact .inr ⟨fun hsame => hkind (hsame ▸ hentry), hpast, hpast'⟩
  · intro hidle
    have hnone : ∀ p : Call → Bool, (pool.calls.countP fun c => p c && c.inBody) = 0 := by
      intro p
      refine List.countP_eq_zero.mpr fun c hc => ?_
      rw [hidle c hc, Bool.and_false]
      exact Bool.false_ne_true
    rw [entryCallDepth_eq h, otherCallDepth_eq h]
    exact ⟨congrArg Nat.cast (hnone Call.isEntry), congrArg Nat.cast (hnone fun c => !c.isEntry)⟩

/-- A `get_factory` between the checks of an `init` and its end. -/
def initOverFactory : List (Move Request) :=
  [.enter (.entry .init), .enter (.other (.getFactory none)), .advance 0, .advance 1, .advance 0,
    .advance 1]

theorem overlap_detection_initOverFactory :
    ∃ pool, Reachable pool ∧ ∃ c d : Call, pool.calls[0]? = some c ∧ pool.calls[1]? = some d ∧
      (c.HasReported .E04 ∨ d.HasReported .E04) := by
  refine ⟨_, ⟨initOverFactory, _, rfl⟩, _, _, rfl, rfl, ?_⟩
  exact (overlap_detection ⟨initOverFactory, _, rfl⟩).2.1 0 1 _ _ Nat.zero_ne_one rfl rfl rfl rfl
    rfl

end Cvp.Entry
