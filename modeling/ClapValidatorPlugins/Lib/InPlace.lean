/-
  Passes over a memory that is seen in columns, where the destinations may be the sources. A pass
  rewrites a number of columns alike (`Rewrites`). Where it takes its pairs of source and
  destination in order, no destination is read later and none is written twice (`Spared`), every
  destination gets what its source held before the pass (`Rewrites.passed`), so two memories with
  the same sources end up with the same destinations (`Passed.same`).
-/
import ClapValidatorPlugins.Lib.Assignments

namespace InPlace

open Assignments

/-! ## Columns -/

section Columns

variable {M K V : Type} {column : M → Nat → K → V}

variable (column) in
/-- Column `i` is rewritten by `g` and no other. -/
def RewritesAt (i : Nat) (g : (K → V) → K → V) (m m' : M) : Prop :=
  column m' i = g (column m i) ∧ ∀ j, j ≠ i → column m' j = column m j

theorem RewritesAt.trans {i : Nat} {g g' : (K → V) → K → V} {m m' m'' : M}
    (h : RewritesAt column i g m m') (h' : RewritesAt column i g' m' m'') :
    RewritesAt column i (fun c => g' (g c)) m m'' :=
  ⟨h'.1.trans (congrArg g' h.1), fun j hj => (h'.2 j hj).trans (h.2 j hj)⟩

variable (column) in
/-- Each of the first `count` columns is rewritten by `g` and no other. -/
def Rewrites (count : Nat) (g : (K → V) → K → V) (m m' : M) : Prop :=
  ∀ i, column m' i = if i < count then g (column m i) else column m i

theorem Rewrites.refl (count : Nat) (m : M) : Rewrites column count id m m :=
  fun _ => (ite_self _).symm

theorem Rewrites.trans {count : Nat} {g g' : (K → V) → K → V} {m m' m'' : M}
    (h : Rewrites column count g m m') (h' : Rewrites column count g' m' m'') :
    Rewrites column count (fun c => g' (g c)) m m'' := by
  intro i
  rw [h' i, h i]
  split <;> rfl

theorem Rewrites.at {count : Nat} {g : (K → V) → K → V} {m m' : M}
    (h : Rewrites column count g m m') {i : Nat} (hi : i < count) :
    column m' i = g (column m i) := by
  rw [h i, if_pos hi]

end Columns

/-! ## Pairs of source and destination -/

section Pairs

variable {K V : Type}

/-- No destination is the source of a later pair, and none is written twice. -/
structure Spared (pairs : List (K × K)) : Prop where
  reads : pairs.Pairwise fun a b => a.2 ≠ b.1
  writes : (pairs.map Prod.snd).Nodup

/-- Destinations of their own. -/
theorem spared_apart {srcs dsts : List K} (hn : dsts.Nodup) (hl : srcs.length = dsts.length)
    (h : ∀ k ∈ srcs, k ∉ dsts) : Spared (srcs.zip dsts) := by
  refine ⟨List.pairwise_of_forall_mem_list fun a ha b hb heq => ?_, ?_⟩
  · exact h b.1 (List.of_mem_zip hb).1 (heq ▸ (List.of_mem_zip ha).2)
  · rwa [List.map_snd_zip (Nat.le_of_eq hl.symm)]

/-- Each source is its own destination. -/
theorem spared_inPlace {ks : List K} (hn : ks.Nodup) : Spared (ks.zip ks) := by
  have hdiag : ks.zip ks = ks.map fun k => (k, k) := by
    rw [List.map_prod_left_eq_zip, List.map_id']
  refine ⟨?_, ?_⟩
  · rw [hdiag, List.pairwise_map]
    exact hn
  · rwa [List.map_snd_zip (Nat.le_refl _)]

theorem Spared.map {L : Type} {f : K → L} (hf : Function.Injective f) {srcs dsts : List K}
    (h : Spared (srcs.zip dsts)) : Spared ((srcs.map f).zip (dsts.map f)) := by
  rw [List.zip_map]
  refine ⟨List.pairwise_map.mpr (h.reads.imp fun hne heq => hne (hf heq)), ?_⟩
  have hsnd : ((srcs.zip dsts).map (Prod.map f f)).map Prod.snd =
      ((srcs.zip dsts).map Prod.snd).map f := by
    rw [List.map_map, List.map_map]
    rfl
  rw [hsnd]
  exact h.writes.map hf

variable [DecidableEq K]

/-- The assignments of a pass, the first of them for pair `n`. -/
def pairSteps (f : Nat → V → V) (n : Nat) (pairs : List (K × K)) : List (K × ((K → V) → V)) :=
  (pairs.zipIdx n).map fun p => (p.1.2, fun c => f p.2 (c p.1.1))

omit [DecidableEq K] in
theorem pairSteps_const (f : V → V) (n : Nat) (pairs : List (K × K)) :
    pairSteps (fun _ => f) n pairs = pairs.map fun p => (p.2, fun c => f (c p.1)) := by
  rw [← List.zipIdx_map_fst n pairs, List.map_map, List.zipIdx_map_fst]
  rfl

theorem unseen_pairSteps (f : Nat → V → V) {pairs : List (K × K)} (h : Spared pairs) :
    Unseen (pairSteps f 0 pairs) := by
  have hreads := h.reads
  rw [← List.zipIdx_map_fst 0 pairs, List.pairwise_map] at hreads
  refine List.pairwise_map.mpr (hreads.imp fun hne c x => ?_)
  dsimp only
  rw [Function.update_of_ne (Ne.symm hne)]

/-- Destination `n` gets what `f n` makes of the value in its source, and the rest is kept. -/
theorem assignInTurn_pairSteps (f : Nat → V → V) {srcs dsts : List K}
    (hl : srcs.length = dsts.length) (h : Spared (srcs.zip dsts)) (c : K → V) :
    dsts.map (assignInTurn c (pairSteps f 0 (srcs.zip dsts))) = (srcs.map c).mapIdx f ∧
      ∀ k, k ∉ dsts → assignInTurn c (pairSteps f 0 (srcs.zip dsts)) k = c k := by
  have hvalues : (pairSteps f 0 (srcs.zip dsts)).map (fun step => (step.1, step.2 c)) =
      dsts.zip ((srcs.map c).mapIdx f) := by
    refine List.ext_getElem ?_ fun i _ _ => ?_
    · simp [pairSteps, Nat.min_comm]
    · simp [pairSteps]
  have hlen : dsts.length = ((srcs.map c).mapIdx f).length := by
    rw [List.length_mapIdx, List.length_map, hl]
  have hkeys : (dsts.zip ((srcs.map c).mapIdx f)).map Prod.fst = dsts :=
    List.map_fst_zip (Nat.le_of_eq hlen)
  have hdsts : dsts.Nodup := by
    have hwrites := h.writes
    rwa [List.map_snd_zip (Nat.le_of_eq hl.symm)] at hwrites
  rw [assignInTurn_eq_assign (unseen_pairSteps f h), hvalues]
  exact ⟨map_assign hdsts hlen c, fun k hk => assign_of_not_mem (hkeys.symm ▸ hk) c⟩

end Pairs

/-! ## Passes -/

section Passes

variable {M K V : Type} {column : M → Nat → K → V}

variable (column) in
/-- In the first `count` columns the destinations hold what `f` makes of the sources, and
    everything that is no destination is kept. -/
structure Passed (f : Nat → V → V) (count : Nat) (srcs dsts : List K) (m m' : M) : Prop where
  written : ∀ i < count, dsts.map (column m' i) = (srcs.map (column m i)).mapIdx f
  kept : ∀ k, k ∉ dsts → ∀ i, column m' i k = column m i k

theorem Rewrites.passed [DecidableEq K] {f : Nat → V → V} {count : Nat} {srcs dsts : List K}
    {m m' : M}
    (h : Rewrites column count (fun c => assignInTurn c (pairSteps f 0 (srcs.zip dsts))) m m')
    (hl : srcs.length = dsts.length) (hs : Spared (srcs.zip dsts)) :
    Passed column f count srcs dsts m m' := by
  refine ⟨fun i hi => ?_, fun k hk i => ?_⟩
  · rw [h.at hi]
    exact (assignInTurn_pairSteps f hl hs _).1
  · rw [h i]
    split
    · exact (assignInTurn_pairSteps f hl hs _).2 k hk
    · rfl

/-- Two passes over the same values leave the same values. -/
theorem Passed.same {f : Nat → V → V} {count : Nat} {srcs dsts srcs' dsts' : List K}
    {m₁ m₁' m₂ m₂' : M} (h₁ : Passed column f count srcs dsts m₁ m₁')
    (h₂ : Passed column f count srcs' dsts' m₂ m₂')
    (hsame : ∀ i < count, srcs.map (column m₁ i) = srcs'.map (column m₂ i)) :
    ∀ i < count, dsts.map (column m₁' i) = dsts'.map (column m₂' i) := by
  intro i hi
  rw [h₁.written i hi, h₂.written i hi, hsame i hi]

end Passes

end InPlace
