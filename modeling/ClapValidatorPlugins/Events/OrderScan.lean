/-
  P03, P04 and P06: the header scan of `checkProcessContracts`. The loop keeps one number, the
  latest time so far, and advances it on one branch only. Entry by entry it reports what
  `entryVerdict` says about the entry and the ones before it (`scanEvents_verdicts`), so a null or
  malformed entry is invisible to the others (`scanVerdicts_skip`), and P03 is reported exactly
  for lists whose well-formed events are not sorted (`checkProcessContracts_scan`).
-/
import Mathlib.Data.List.ReduceOption
import Mathlib.Data.List.Infix
import ClapValidatorPlugins.Contract.BlockFindings
import ClapValidatorPlugins.Contract.Moves

namespace Cvp

variable {D : Type}

/-! ## What the scan is meant to report -/

/-- A header that is there and too small. -/
def isTooSmall (header : Option (Event D)) : Bool := header.any Event.isMalformed

/-- The well-formed events of a list, in order. -/
def wellFormed (es : List (Option (Event D))) : List (Event D) :=
  es.reduceOption.filter fun e => !e.isMalformed

/-- The latest time of a well-formed event; 0 if there is none. -/
def latestTime (es : List (Option (Event D))) : Nat := ((wellFormed es).map (·.time)).foldr max 0

/-- What one entry is to be reported for, behind the entries `earlier`. -/
def entryVerdict (framesCount : UInt32) (earlier : List (Option (Event D)))
    (header : Option (Event D)) : List Violation :=
  match header with
  | none => []
  | some e =>
    if e.isMalformed then [.P06]
    else (if e.time < latestTime earlier then [.P03] else []) ++
      (if framesCount.toNat ≤ e.time then [.P04] else [])

/-- The entries of a list, each with the ones before it. -/
def withEarlier (es : List (Option (Event D))) :
    List (List (Option (Event D)) × Option (Event D)) := es.inits.zip es

/-- All entries of the list, each behind the ones before it. -/
def scanVerdicts (framesCount : UInt32) (es : List (Option (Event D))) : List Violation :=
  (withEarlier es).flatMap fun entry => entryVerdict framesCount entry.1 entry.2

/-! ## The well-formed events -/

theorem wellFormed_append (es es' : List (Option (Event D))) :
    wellFormed (es ++ es') = wellFormed es ++ wellFormed es' := by
  simp [wellFormed, List.reduceOption_append]

@[simp] theorem wellFormed_none (es : List (Option (Event D))) :
    wellFormed (none :: es) = wellFormed es := rfl

theorem wellFormed_some (e : Event D) (es : List (Option (Event D))) :
    wellFormed (some e :: es) =
      if e.isMalformed then wellFormed es else e :: wellFormed es := by
  cases h : e.isMalformed <;> simp [wellFormed, List.reduceOption_cons_of_some, h]

/-- An entry without a verdict on it is invisible behind it. -/
theorem wellFormed_skip {header : Option (Event D)} (h : wellFormed [header] = [])
    (front back : List (Option (Event D))) :
    wellFormed (front ++ header :: back) = wellFormed (front ++ back) := by
  rw [List.append_cons, wellFormed_append, wellFormed_append, h, List.append_nil,
    ← wellFormed_append]

theorem latestTime_snoc (es : List (Option (Event D))) (header : Option (Event D)) :
    latestTime (es ++ [header]) =
      max (latestTime es) (((wellFormed [header]).map (·.time)).foldr max 0) := by
  have hmax : ∀ (ts : List Nat) (t : Nat), ts.foldr max t = max (ts.foldr max 0) t := by
    intro ts t
    induction ts with
    | nil => simp
    | cons u ts ih => simp only [List.foldr_cons, ih, max_assoc]
  rw [latestTime, wellFormed_append, List.map_append, List.foldr_append, hmax, latestTime]

theorem lt_latestTime_iff {es : List (Option (Event D))} {t : Nat} :
    t < latestTime es ↔ ∃ e ∈ wellFormed es, t < e.time := by
  unfold latestTime
  induction wellFormed es with
  | nil => simp
  | cons e es ih => simp [ih]

/-! ## The loop -/

/-- One pass of the loop: the number kept stays the latest time, and what is reported is the
    verdict on this entry. -/
theorem scanEvent_verdict (framesCount : UInt32) {scan : EventScan}
    {earlier : List (Option (Event D))} (hprev : scan.previousTime = latestTime earlier) (i : Nat)
    (header : Option (Event D)) :
    (scanEvent framesCount scan i header).previousTime = latestTime (earlier ++ [header]) ∧
      (scanEvent framesCount scan i header).found.map (·.violation) =
        scan.found.map (·.violation) ++ entryVerdict framesCount earlier header := by
  rw [latestTime_snoc]
  unfold scanEvent entryVerdict
  cases header with
  | none => simpa [wellFormed] using hprev
  | some e =>
    rw [wellFormed_some]
    dsimp only
    cases hmal : e.isMalformed with
    | true => simpa [wellFormed] using hprev
    | false =>
      rw [hprev]
      -- the late branch keeps the number, the other one takes this event's time
      by_cases hlate : e.time < latestTime earlier
      · have hkept : max (latestTime earlier) e.time = latestTime earlier := by omega
        by_cases hbeyond : framesCount.toNat ≤ e.time
        · simp [wellFormed, hlate, hbeyond, hkept]
        · simp [wellFormed, hlate, hbeyond, hkept]
      · have htaken : max (latestTime earlier) e.time = e.time := by omega
        by_cases hbeyond : framesCount.toNat ≤ e.time
        · simp [wellFormed, hlate, hbeyond, htaken]
        · simp [wellFormed, hlate, hbeyond, htaken]

theorem withEarlier_cons (header : Option (Event D)) (es : List (Option (Event D))) :
    withEarlier (header :: es) =
      ([], header) :: (withEarlier es).map fun entry => (header :: entry.1, entry.2) := by
  unfold withEarlier
  rw [List.inits_cons, List.zip_cons_cons, List.zip_map_left]
  rfl

/-- The loop, from any entry on. -/
theorem scanEvents_verdicts (framesCount : UInt32) (es : List (Option (Event D))) :
    ∀ (earlier : List (Option (Event D))) (scan : EventScan) (i : Nat),
      scan.previousTime = latestTime earlier →
      (scanEvents framesCount scan i es).found.map (·.violation) =
        scan.found.map (·.violation) ++ (withEarlier es).flatMap
          fun entry => entryVerdict framesCount (earlier ++ entry.1) entry.2 := by
  induction es with
  | nil => exact fun earlier scan i _ => by simp [scanEvents, withEarlier]
  | cons header es ih =>
    intro earlier scan i hprev
    obtain ⟨hnext, hcodes⟩ := scanEvent_verdict framesCount hprev i header
    rw [scanEvents, ih (earlier ++ [header]) _ (i + 1) hnext, hcodes, withEarlier_cons]
    simp [List.flatMap_map]

/-- The whole scan. -/
theorem scan_verdicts (framesCount : UInt32) (es : List (Option (Event D))) :
    (scanEvents framesCount {} 0 es).found.map (·.violation) = scanVerdicts framesCount es := by
  have h := scanEvents_verdicts framesCount es [] {} 0 rfl
  simpa [scanVerdicts] using h

/-! ## Each code on its own -/

/-- The codes of the scan. -/
def scanCodes : List Violation := [.P03, .P04, .P06]

/-- Among the codes a block is reported for, those of the scan are the verdicts on its events. -/
theorem blockFindings_scan (m : ContractMonitor) (block : ProcessBlock D) :
    ((blockFindings m block).map (·.violation)).filter (· ∈ scanCodes) =
      scanVerdicts block.framesCount (readableEvents block.inEvents) := by
  have hnone : ∀ found : List Finding, (∀ f ∈ found, f.violation ∉ scanCodes) →
      (found.map (·.violation)).filter (· ∈ scanCodes) = [] := by
    intro found h
    simpa [List.filter_eq_nil_iff] using h
  have hall : ∀ v ∈ scanVerdicts block.framesCount (readableEvents block.inEvents),
      v ∈ scanCodes := by
    rw [← scan_verdicts]
    intro v hv
    obtain ⟨f, hf, rfl⟩ := List.mem_map.mp hv
    exact scanEvents_codes (P := (· ∈ scanCodes)) (by decide) (by decide) (by decide) _ _ {} 0
      codes_nil f hf
  have hframes := hnone _ (framesFindings_codes (P := (· ∉ scanCodes)) (by decide) m
    block.framesCount)
  have hsteady := hnone _ (steadyFindings_codes (P := (· ∉ scanCodes)) (by decide) m block)
  have hports := hnone _ (checkPorts_codes (P := (· ∉ scanCodes)) (by decide) (by decide)
    (by decide) m block)
  have hparams := hnone _ (checkParamEvents_codes (P := (· ∉ scanCodes)) (by decide) (by decide)
    (by decide) (by decide) (by decide) m block.inEvents block.transport)
  have hscan : (scanVerdicts block.framesCount (readableEvents block.inEvents)).filter
      (· ∈ scanCodes) = scanVerdicts block.framesCount (readableEvents block.inEvents) := by
    simpa [List.filter_eq_self] using hall
  simp only [blockFindings, eventFindings, List.map_append, List.filter_append, hframes, hsteady,
    hports, hparams, scan_verdicts, hscan, List.nil_append, List.append_nil]

/-- A code is counted once for each entry whose verdict has it. -/
theorem scanVerdicts_count {framesCount : UInt32} {v : Violation}
    (raises : List (Option (Event D)) → Option (Event D) → Bool)
    (h : ∀ earlier header, (entryVerdict framesCount earlier header).count v =
      if raises earlier header then 1 else 0) (es : List (Option (Event D))) :
    (scanVerdicts framesCount es).count v =
      (withEarlier es).countP fun entry => raises entry.1 entry.2 := by
  unfold scanVerdicts
  induction withEarlier es with
  | nil => rfl
  | cons entry rest ih =>
    rw [List.flatMap_cons, List.count_append, ih, h, List.countP_cons, Nat.add_comm]

/-- Counting entries that are judged alone is counting in the list. -/
theorem withEarlier_countP (p : Option (Event D) → Bool) (es : List (Option (Event D))) :
    (withEarlier es).countP (fun entry => p entry.2) = es.countP p := by
  have hmap : (withEarlier es).map Prod.snd = es := by
    unfold withEarlier
    exact List.map_snd_zip (by simp)
  conv_rhs => rw [← hmap]
  rw [List.countP_map]
  rfl

theorem wellFormed_countP (p : Event D → Bool) (es : List (Option (Event D))) :
    (wellFormed es).countP p =
      es.countP fun header => header.any fun e => !e.isMalformed && p e := by
  induction es with
  | nil => rfl
  | cons header es ih =>
    cases header with
    | none => simpa using ih
    | some e =>
      rw [wellFormed_some, List.countP_cons, ← ih]
      cases h : e.isMalformed <;> simp [List.countP_cons, h]

/-- A well-formed entry with a time below a well-formed one before it. -/
def arrivesLate (earlier : List (Option (Event D))) (header : Option (Event D)) : Bool :=
  header.any fun e => !e.isMalformed && decide (e.time < latestTime earlier)

theorem malformed_count (framesCount : UInt32) (es : List (Option (Event D))) :
    (scanVerdicts framesCount es).count .P06 = es.countP isTooSmall := by
  rw [← withEarlier_countP]
  refine scanVerdicts_count (fun _ => isTooSmall) (fun earlier header => ?_) es
  cases header with
  | none => simp [entryVerdict, isTooSmall]
  | some e =>
    unfold entryVerdict isTooSmall
    simp only [Option.any_some]
    split_ifs <;> simp

theorem beyond_count (framesCount : UInt32) (es : List (Option (Event D))) :
    (scanVerdicts framesCount es).count .P04 =
      (wellFormed es).countP fun e => decide (framesCount.toNat ≤ e.time) := by
  rw [wellFormed_countP, ← withEarlier_countP]
  refine scanVerdicts_count (fun _ header => header.any fun e =>
    !e.isMalformed && decide (framesCount.toNat ≤ e.time)) (fun earlier header => ?_) es
  cases header with
  | none => simp [entryVerdict]
  | some e =>
    unfold entryVerdict
    cases h : e.isMalformed <;> by_cases hbeyond : framesCount.toNat ≤ e.time <;>
      by_cases hlate : e.time < latestTime earlier <;> simp [h, hbeyond, hlate]

theorem late_count (framesCount : UInt32) (es : List (Option (Event D))) :
    (scanVerdicts framesCount es).count .P03 =
      (withEarlier es).countP fun entry => arrivesLate entry.1 entry.2 := by
  refine scanVerdicts_count arrivesLate (fun earlier header => ?_) es
  cases header with
  | none => simp [entryVerdict, arrivesLate]
  | some e =>
    unfold entryVerdict arrivesLate
    cases h : e.isMalformed <;> by_cases hbeyond : framesCount.toNat ≤ e.time <;>
      by_cases hlate : e.time < latestTime earlier <;> simp [h, hbeyond, hlate]

/-! ## Sortedness, and entries that are no events -/

theorem withEarlier_append (es es' : List (Option (Event D))) :
    withEarlier (es ++ es') =
      withEarlier es ++ (withEarlier es').map fun entry => (es ++ entry.1, entry.2) := by
  induction es with
  | nil => simp [withEarlier]
  | cons header es ih => simp [withEarlier_cons, ih]

theorem arrivesLate_eq_false_iff {earlier : List (Option (Event D))} {header : Option (Event D)} :
    arrivesLate earlier header = false ↔
      ∀ a ∈ wellFormed earlier, ∀ b ∈ wellFormed [header], a.time ≤ b.time := by
  cases header with
  | none => simp [arrivesLate, wellFormed]
  | some e =>
    rw [wellFormed_some]
    cases h : e.isMalformed with
    | true => simp [arrivesLate, wellFormed, h]
    | false => simp [arrivesLate, wellFormed, h, lt_latestTime_iff]

/-- No entry of the list arrives late exactly if the well-formed events are sorted. -/
theorem late_eq_zero_iff (es : List (Option (Event D))) :
    ((withEarlier es).countP fun entry => arrivesLate entry.1 entry.2) = 0 ↔
      (wellFormed es).Pairwise fun a b => a.time ≤ b.time := by
  induction es using List.reverseRecOn with
  | nil => simp [withEarlier, wellFormed]
  | append_singleton es header ih =>
    have hlast : withEarlier [header] = [([], header)] := rfl
    have hsingle : (wellFormed [header]).Pairwise fun a b : Event D => a.time ≤ b.time := by
      cases header with
      | none => simp [wellFormed]
      | some e => cases h : e.isMalformed <;> simp [wellFormed, h]
    rw [withEarlier_append, hlast, List.countP_append, Nat.add_eq_zero_iff, ih, wellFormed_append,
      List.pairwise_append]
    simp only [hsingle, true_and, ← arrivesLate_eq_false_iff]
    simp

/-- The verdict on an entry looks at the well-formed events before it only. -/
theorem entryVerdict_congr (framesCount : UInt32) {earlier earlier' : List (Option (Event D))}
    (h : wellFormed earlier = wellFormed earlier') (header : Option (Event D)) :
    entryVerdict framesCount earlier header = entryVerdict framesCount earlier' header := by
  unfold entryVerdict latestTime
  rw [h]

/-- An entry that is no well-formed event adds its own verdict and changes no other. -/
theorem scanVerdicts_skip (framesCount : UInt32) {header : Option (Event D)}
    (h : wellFormed [header] = []) (front back : List (Option (Event D))) :
    ∃ others, scanVerdicts framesCount (front ++ back) =
        scanVerdicts framesCount front ++ others ∧
      scanVerdicts framesCount (front ++ header :: back) =
        scanVerdicts framesCount front ++ entryVerdict framesCount [] header ++ others := by
  refine ⟨(withEarlier back).flatMap fun entry =>
    entryVerdict framesCount (front ++ entry.1) entry.2, ?_, ?_⟩
  · simp [scanVerdicts, withEarlier_append, List.flatMap_map]
  · have hown : entryVerdict framesCount front header = entryVerdict framesCount [] header := by
      unfold entryVerdict
      cases header with
      | none => rfl
      | some e =>
        rw [wellFormed_some] at h
        cases hmal : e.isMalformed with
        | true => simp [hmal]
        | false =>
          rw [hmal, if_neg Bool.false_ne_true] at h
          exact absurd h (List.cons_ne_nil _ _)
    have hothers : ∀ entry : List (Option (Event D)) × Option (Event D),
        entryVerdict framesCount (front ++ header :: entry.1) entry.2 =
          entryVerdict framesCount (front ++ entry.1) entry.2 :=
      fun entry => entryVerdict_congr framesCount (wellFormed_skip h front entry.1) entry.2
    simp [scanVerdicts, withEarlier_append, withEarlier_cons, List.flatMap_map, hown, hothers]

/-! ## Blocks -/

/-- What `checkProcessContracts` reports about the order, the times and the sizes of a block's
    events, entry by entry and in numbers. P03 is reported at all exactly if the well-formed
    events are not sorted, and an entry that is none of them changes nothing for the others. -/
theorem checkProcessContracts_scan (m : ContractMonitor) (block : ProcessBlock D) :
    let es := readableEvents block.inEvents
    let verdicts := scanVerdicts block.framesCount es
    ((blockFindings m block).map (·.violation)).filter (· ∈ scanCodes) = verdicts ∧
    (∀ v ∈ scanCodes, (checkProcessContracts m block).2.counter v =
      m.counter v + UInt32.ofNat (verdicts.count v)) ∧
    verdicts.count .P06 = es.countP isTooSmall ∧
    verdicts.count .P04 =
      (wellFormed es).countP (fun e => decide (block.framesCount.toNat ≤ e.time)) ∧
    verdicts.count .P03 = (withEarlier es).countP (fun entry => arrivesLate entry.1 entry.2) ∧
    (.P03 ∈ verdicts ↔ ¬ (wellFormed es).Pairwise fun a b => a.time ≤ b.time) ∧
    ∀ front header back, es = front ++ header :: back → wellFormed [header] = [] →
      ∃ others, scanVerdicts block.framesCount (front ++ back) =
          scanVerdicts block.framesCount front ++ others ∧
        verdicts = scanVerdicts block.framesCount front ++
          entryVerdict block.framesCount [] header ++ others := by
  intro es verdicts
  have hfilter : ((blockFindings m block).map (·.violation)).filter (· ∈ scanCodes) = verdicts :=
    blockFindings_scan m block
  refine ⟨hfilter, fun v hv => ?_, malformed_count _ es, beyond_count _ es, late_count _ es, ?_, ?_⟩
  · have hcount : ((blockFindings m block).map (·.violation)).count v = verdicts.count v := by
      rw [← hfilter, List.count_filter (by simpa using hv)]
    have hcounted := (counted_reportAll (blockFindings m block) m.findings).counters
    rw [← hcount]
    exact congrFun hcounted v
  · rw [← late_eq_zero_iff, ← late_count block.framesCount, List.count_eq_zero, not_not]
  · intro front header back hes hheader
    show ∃ others, _ ∧ scanVerdicts block.framesCount es = _
    rw [hes]
    exact scanVerdicts_skip block.framesCount hheader front back

/-- A late event behind a null entry, a malformed one and an event beyond the block. -/
example : scanVerdicts (D := Unit) 8 [some ⟨16, 3, 0, {}, .other 0⟩, none,
    some ⟨8, 0, 0, {}, .other 0⟩, some ⟨16, 9, 0, {}, .other 0⟩, some ⟨16, 8, 0, {}, .other 0⟩] =
    [.P06, .P04, .P03, .P04] := by decide

end Cvp
