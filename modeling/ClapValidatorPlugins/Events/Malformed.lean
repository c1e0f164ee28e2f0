/-
  P06, "Tolerate — event skipped": `checkProcessContracts` reports an event whose `header->size` is
  too small and passes over it, but no flavor looks at `header->size`. So a malformed event is
  skipped exactly by the flavors that skip it well-formed as well (`malformed_skipped_iff`).
-/
import ClapValidatorPlugins.Events.ChunkProbes

namespace Cvp

namespace Flavor

section Skips

variable {D S : Type} [DoubleOps D] [FloatOps S] [FloatCast D S] [DoubleBits D]
  {flavor : Flavor} {e : Event D}
  {allowed : Nat → List (Option (Event D)) → List (Option (Event D)) → Prop}

/-! ## An event that is acted on is not skipped -/

/-- No flavor skips a value for one of its parameters. -/
theorem Skipped.unwritten (hd : NonDegenerate D S) (h : Skipped S flavor e allowed)
    (hallowed : ∀ front : List (Event D), (∀ x ∈ front, x.time = 0) →
      allowed 0 (front.map some) []) : writesParam flavor.savedIds e = false := by
  refine Bool.eq_false_iff.mpr fun hwrites => ?_
  obtain ⟨target, x, hid, he⟩ := eq_valueEvent hwrites
  obtain ⟨y, hother⟩ := hd.other x
  have hxy : x ≠ y := fun heq => hother (congrArg FloatCast.toFloat heq.symm)
  have hfront := hallowed [valueEvent 56 0 {} target y] fun z hz => by
    rw [List.mem_singleton.mp hz]
    rfl
  let rate : D := DoubleOps.lit 0
  cases hchunks : flavor.rendersChunks with
  | false =>
    have hparams : flavor ≠ .hostCheck := by
      rintro rfl
      cases hid
    obtain ⟨out, m, out', m', hok, hok', hx, hy⟩ := process_values (S := S) flavor hchunks hparams
      rate quietMemory target x y
      e.size e.time e.flags hid
    obtain ⟨hview, -⟩ := h.absurd_of_ok rate 0 _ [_] [] hfront (by rw [he]; exact hok) hok'
    have hread : ∀ s : flavor.State D S,
        flavor.paramValue s target.paramId = some (flavor.params s target.paramId) :=
      flavor.paramValue_of_mem ((flavor.mem_savedIds_iff _).mp hid).1
    have hvalue := congrFun (congrArg FlavorView.values hview) target.paramId
    have heq := Option.some.inj ((hread _).symm.trans (hvalue.trans (hread _)))
    rw [hx, hy] at heq
    exact hxy heq
  | true =>
    have halike := h.handled hchunks rate hfront
    have hstored : ∀ (base : Base D) (s : flavor.State D S) (size time : Nat) (flags : EventFlags)
        (x : D), flavor.params (flavor.processEvent base s (valueEvent size time flags target x))
          target.paramId = x := by
      intro base s size time flags x
      cases flavor with
      | synth => exact storeParam_self hid s.params x
      | sidechainSynth => exact storeParam_self hid s.params x
      | _ => cases hchunks
    have heq := halike.1 target.paramId ((flavor.mem_savedIds_iff _).mp hid).1
    rw [he, List.foldl_cons, List.foldl_nil, hstored, hstored] at heq
    exact hxy heq

/-- Nothing is skipped that is acted on, even at the start of a block without frames. -/
theorem Skipped.not_actsOn (hd : NonDegenerate D S) (h : Skipped S flavor e allowed)
    (hallowed : ∀ front : List (Event D), (∀ x ∈ front, x.time = 0) →
      allowed 0 (front.map some) []) : flavor.actsOn e = false := by
  have hwrite := h.unwritten hd hallowed
  cases flavor with
  | synth =>
    exact Bool.or_eq_false_iff.mpr ⟨Bool.or_eq_false_iff.mpr ⟨hwrite, h.unmodulated hd hallowed⟩,
      h.silent rfl hallowed⟩
  | sidechainSynth => exact Bool.or_eq_false_iff.mpr ⟨hwrite, h.silent rfl hallowed⟩
  | noteFx =>
    refine Bool.or_eq_false_iff.mpr ⟨?_, hwrite⟩
    rw [h.carriesValue_noteFx hallowed]
    rfl
  | paramsZoo => exact Bool.or_eq_false_iff.mpr ⟨hwrite, h.unmodulated_paramsZoo hd hallowed⟩
  | _ => exact hwrite

/-! ## Malformed events -/

omit [DoubleOps D] [FloatOps S] [FloatCast D S] [DoubleBits D] in
/-- Events at the start of a block without frames, and one more behind them. -/
theorem orderly_of_zero (acts : Event D → Bool) {front : List (Event D)}
    (h : ∀ x ∈ front, x.time = 0) (e : Event D) : Orderly acts 0 (front.map some) [] e := by
  have hlist : (front.map some ++ [some e]).reduceOption = front ++ [e] := by
    refine List.filterMap_append.trans ?_
    exact congrArg (· ++ [e]) (List.filterMap_map.trans List.filterMap_some)
  refine ⟨?_, fun x hx _ => ?_⟩
  · rw [hlist, List.pairwise_append]
    refine ⟨?_, List.pairwise_singleton _ e, fun x hx y _ => ?_⟩
    · exact List.Pairwise.imp_of_mem (fun hx _ _ => by rw [h _ hx]; exact Nat.zero_le _)
        (List.pairwise_of_forall (R := fun _ _ => True) fun _ _ => trivial)
    · rw [h x hx]
      exact Nat.zero_le _
  · rw [List.append_nil] at hx
    obtain ⟨y, hy, hyx⟩ := List.mem_map.mp hx
    rw [← Option.some.inj hyx, h y hy]

/-- A malformed event is skipped in every list exactly if the flavor does not act on it and, in
    the synths, it splits no chunk; in the lists a host may send, exactly if the flavor does not
    act on it. -/
theorem malformed_skipped_iff (hd : NonDegenerate D S) (flavor : Flavor) {e : Event D}
    (_ : e.isMalformed = true) (htime : e.time < 2 ^ 32) :
    (Skipped S flavor e (fun _ _ _ => True) ↔
      flavor.actsOn e = false ∧ (flavor.rendersChunks = true → e.time = 0)) ∧
    (Skipped S flavor e (fun frames front back => Orderly flavor.actsOn frames front back e) ↔
      flavor.actsOn e = false) := by
  refine ⟨⟨fun h => ?_, fun h => ?_⟩, fun h => ?_, fun h => ?_⟩
  · have hignored := h.not_actsOn hd fun _ _ => trivial
    exact ⟨hignored, fun hchunks => h.time_eq_zero hd hchunks hignored htime⟩
  · exact skipped_of_ignored h.1 fun _ _ _ _ hchunks => .inl (h.2 hchunks)
  · exact h.not_actsOn hd fun front hfront => orderly_of_zero _ hfront e
  · exact skipped_of_ignored h fun _ _ _ hallowed _ => .inr (.inr hallowed)

end Skips

end Flavor

/-! ## On instances -/

theorem nonDegenerate_exactFloat : NonDegenerate ExactFloat ExactFloat where
  casts := ⟨0, 1, by decide⟩
  release := ⟨1, by
    show (1 : ℚ) - 1 / (5 / 100 * 1) ≠ 1
    norm_num⟩

/-- An event of a foreign space, cut short, in the middle of a block. -/
def truncatedForeign : Event ExactFloat :=
  { size := 8, time := 3, spaceId := 7, body := .other 0 }

/-- The synth skips it in sorted lists, but not in every list. -/
theorem malformed_skipped_iff_truncatedForeign :
    ¬ Flavor.Skipped ExactFloat .synth truncatedForeign (fun _ _ _ => True) ∧
      Flavor.Skipped ExactFloat .synth truncatedForeign fun frames front back =>
        Orderly (Flavor.actsOn .synth) frames front back truncatedForeign := by
  obtain ⟨hall, hsorted⟩ := Flavor.malformed_skipped_iff nonDegenerate_exactFloat .synth
    (e := truncatedForeign) rfl (by decide)
  exact ⟨fun h => absurd ((hall.mp h).2 rfl) (by decide), hsorted.mpr rfl⟩

/-- A PARAM_VALUE for the gain of Effect, cut short. -/
def truncatedGain : Event ExactFloat :=
  { size := 8, time := 0
    body := .paramValue { paramId := EffectPlugin.kParamGain } (1 / 4) }

/-- The block is reported for P06 and the gain is set all the same. -/
theorem malformed_applied :
    let p : Plugin ExactFloat (EffectPlugin.State ExactFloat) :=
      Flavor.effect.running ExactFloat 48000
    let played (events : List (Option (Event ExactFloat))) :=
      (p.sProcess (EffectPlugin.impl : PluginImpl ExactFloat ExactFloat _) 0
        ((Flavor.probeBlock ExactFloat 1).withEvents events) Flavor.quietMemory).map fun r =>
          (r.1.self.params EffectPlugin.kParamGain, r.1.contract.counter .P06)
    Flavor.Reachable (S := ExactFloat) .effect p ∧
      (p.contract.active = true ∧ p.contract.processing = true) ∧
      truncatedGain.isMalformed = true ∧
      played [some truncatedGain] = .ok (1 / 4, 1) ∧ played [] = .ok (0, 0) ∧
      ¬ Flavor.Skipped ExactFloat .effect truncatedGain fun _ _ _ => True := by
  intro p played
  obtain ⟨hr, hp⟩ := Flavor.effect.running_reachable ExactFloat (48000 : ExactFloat)
  have hwith : played [some truncatedGain] = .ok (1 / 4, 1) := by decide +kernel
  have hwithout : played [] = .ok (0, 0) := by decide +kernel
  refine ⟨hr, hp, rfl, hwith, hwithout, fun hskipped => ?_⟩
  exact Bool.false_ne_true (hskipped.not_actsOn nonDegenerate_exactFloat fun _ _ => trivial).symm

end Cvp
