/-
  Assignments to the points of a function, one after the other. A point ends up with what was
  assigned to it last (`assign_apply`), so where no point is assigned twice the order does not
  matter (`assign_perm`). Assignments outside a set of known points can be passed over
  (`foldl_ite_eq_assign`).
-/
import Mathlib.Data.List.Nodup
import Mathlib.Logic.Function.Basic

namespace Assignments

variable {K V : Type} [DecidableEq K]

/-- `f` with every pair of the list assigned, in order. -/
def assign (f : K → V) (rs : List (K × V)) : K → V :=
  rs.foldl (fun f r => Function.update f r.1 r.2) f

theorem assign_cons (f : K → V) (r : K × V) (rs : List (K × V)) :
    assign f (r :: rs) = assign (Function.update f r.1 r.2) rs := rfl

/-- What was assigned to `k` last. -/
def lastOf (rs : List (K × V)) (k : K) : Option V := rs.reverse.lookup k

theorem lastOf_cons (r : K × V) (rs : List (K × V)) (k : K) :
    lastOf (r :: rs) k = (lastOf rs k).or (if k = r.1 then some r.2 else none) := by
  obtain ⟨k', x⟩ := r
  unfold lastOf
  rw [List.reverse_cons, List.lookup_append, List.lookup_cons, List.lookup_nil]
  by_cases h : k = k'
  · rw [beq_iff_eq.mpr h, if_pos h]
  · rw [beq_eq_false_iff_ne.mpr h, if_neg h]

theorem assign_apply (rs : List (K × V)) (k : K) :
    ∀ f : K → V, assign f rs k = (lastOf rs k).getD (f k) := by
  induction rs with
  | nil => exact fun f => rfl
  | cons r rs ih =>
    intro f
    rw [assign_cons, ih, lastOf_cons]
    cases lastOf rs k with
    | some x => rfl
    | none =>
      rw [Option.none_or, Option.getD_none]
      by_cases h : k = r.1
      · subst h
        rw [if_pos rfl, Function.update_self]
        rfl
      · rw [if_neg h, Function.update_of_ne h]
        rfl

theorem lastOf_of_not_mem {rs : List (K × V)} {k : K} (h : k ∉ rs.map Prod.fst) :
    lastOf rs k = none := by
  unfold lastOf
  rw [List.lookup_eq_none_iff]
  intro r hr
  rw [bne_iff_ne]
  rintro rfl
  exact h (List.mem_map_of_mem (List.mem_reverse.mp hr))

theorem mem_of_lastOf {rs : List (K × V)} {k : K} {x : V} (h : lastOf rs k = some x) :
    (k, x) ∈ rs := by
  induction rs with
  | nil => cases h
  | cons r rs ih =>
    rw [lastOf_cons] at h
    cases hlast : lastOf rs k with
    | some y =>
      rw [hlast, Option.some_or] at h
      exact List.mem_cons_of_mem r (ih (hlast.trans h))
    | none =>
      rw [hlast, Option.none_or] at h
      split at h
      · rename_i hk
        cases h
        rw [hk]
        exact List.mem_cons_self
      · cases h

/-- A point that takes what some of the entries carry ends up with the last of it. -/
theorem foldl_getD {E : Type} (f : E → Option V) (es : List E) :
    ∀ x : V, es.foldl (fun x e => (f e).getD x) x = (es.filterMap f).getLast?.getD x := by
  induction es with
  | nil => exact fun x => rfl
  | cons e es ih =>
    intro x
    rw [List.foldl_cons, ih]
    cases h : f e with
    | none => rw [List.filterMap_cons_none h, Option.getD_none]
    | some y =>
      rw [List.filterMap_cons_some h, Option.getD_some]
      cases hrest : es.filterMap f with
      | nil => rfl
      | cons z zs =>
        rw [List.getLast?_cons_cons, List.getLast?_cons, Option.getD_some, Option.getD_some]

/-- Only the assignments to points of interest count for them. -/
theorem lastOf_filter (known : K → Bool) (rs : List (K × V)) {k : K} (hk : known k = true) :
    lastOf (rs.filter fun r => known r.1) k = lastOf rs k := by
  induction rs with
  | nil => rfl
  | cons r rs ih =>
    rw [lastOf_cons]
    by_cases h : known r.1 = true
    · rw [List.filter_cons_of_pos (by exact h), lastOf_cons, ih]
    · have hne : k ≠ r.1 := by
        rintro rfl
        exact h hk
      rw [List.filter_cons_of_neg (by exact h), ih, if_neg hne, Option.or_none]

/-- Where no point is assigned twice, the last assignment is the only one. -/
theorem lastOf_of_mem {rs : List (K × V)} (hn : (rs.map Prod.fst).Nodup) {k : K} {x : V}
    (h : (k, x) ∈ rs) : lastOf rs k = some x := by
  induction rs with
  | nil => cases h
  | cons r rs ih =>
    rw [List.map_cons, List.nodup_cons] at hn
    rw [lastOf_cons]
    rcases List.mem_cons.mp h with rfl | h
    · rw [lastOf_of_not_mem hn.1, Option.none_or, if_pos rfl]
    · rw [ih hn.2 h, Option.some_or]

theorem assign_perm {rs rs' : List (K × V)} (hp : rs.Perm rs') (hn : (rs.map Prod.fst).Nodup)
    (f : K → V) : assign f rs = assign f rs' := by
  funext k
  have hn' : (rs'.map Prod.fst).Nodup := (hp.map Prod.fst).nodup_iff.mp hn
  rw [assign_apply, assign_apply]
  by_cases hk : k ∈ rs.map Prod.fst
  · obtain ⟨⟨k', x⟩, hmem, rfl⟩ := List.mem_map.mp hk
    rw [lastOf_of_mem hn hmem, lastOf_of_mem hn' (hp.mem_iff.mp hmem)]
  · rw [lastOf_of_not_mem hk, lastOf_of_not_mem fun hk' => hk ((hp.map Prod.fst).mem_iff.mpr hk')]

/-- Assigning to known points only is assigning what is left of the list. -/
theorem foldl_ite_eq_assign (known : K → Bool) (rs : List (K × V)) :
    ∀ f : K → V, rs.foldl (fun f r => if known r.1 then Function.update f r.1 r.2 else f) f =
      assign f (rs.filter fun r => known r.1) := by
  induction rs with
  | nil => exact fun f => rfl
  | cons r rs ih =>
    intro f
    rw [List.foldl_cons, ih]
    by_cases h : known r.1 = true
    · rw [List.filter_cons_of_pos (by exact h), assign_cons, if_pos h]
    · rw [List.filter_cons_of_neg (by exact h), if_neg h]

/-- A table of `g` assigned to `f`. -/
theorem assign_table (f g : K → V) {ks : List K} (hn : ks.Nodup) (k : K) :
    assign f (ks.map fun k => (k, g k)) k = if k ∈ ks then g k else f k := by
  have hkeys : (ks.map fun k => (k, g k)).map Prod.fst = ks := by
    rw [List.map_map]
    exact List.map_id ks
  rw [assign_apply]
  by_cases hk : k ∈ ks
  · have hmem : (k, g k) ∈ ks.map fun k => (k, g k) := List.mem_map.mpr ⟨k, hk, rfl⟩
    rw [lastOf_of_mem (by rw [hkeys]; exact hn) hmem, if_pos hk]
    rfl
  · rw [lastOf_of_not_mem (by rw [hkeys]; exact hk), if_neg hk]
    rfl

/-- Where no point is assigned twice, the points take the values they are paired with. -/
theorem map_assign {ks : List K} {xs : List V} (hn : ks.Nodup) (hl : ks.length = xs.length)
    (f : K → V) : ks.map (assign f (ks.zip xs)) = xs := by
  have hkeys : (ks.zip xs).map Prod.fst = ks := List.map_fst_zip (Nat.le_of_eq hl)
  refine List.ext_getElem ((List.length_map _).trans hl) fun i hi hx => ?_
  have hk : i < ks.length := hl ▸ hx
  have hmem : (ks[i], xs[i]) ∈ ks.zip xs :=
    List.mem_iff_getElem.mpr ⟨i, by rw [List.length_zip]; omega, List.getElem_zip⟩
  rw [List.getElem_map, assign_apply, lastOf_of_mem (hkeys.symm ▸ hn) hmem, Option.getD_some]

theorem assign_of_not_mem {rs : List (K × V)} {k : K} (h : k ∉ rs.map Prod.fst) (f : K → V) :
    assign f rs k = f k := by
  rw [assign_apply, lastOf_of_not_mem h, Option.getD_none]

/-- What holds of all values holds behind the assignments if it holds of every value that was
    assigned last. -/
theorem forall_assign_iff {P : K → V → Prop} {f : K → V} (h : ∀ k, P k (f k))
    (rs : List (K × V)) :
    (∀ k, P k (assign f rs k)) ↔ ∀ k x, lastOf rs k = some x → P k x := by
  refine forall_congr' fun k => ?_
  rw [assign_apply]
  cases lastOf rs k with
  | none => exact iff_of_true (h k) nofun
  | some x => exact ⟨fun hx _ heq => Option.some.inj heq ▸ hx, fun hx => hx x rfl⟩

/-! ## Values computed on the way -/

/-- Assignments whose values are computed from the function as it is when their turn comes. -/
def assignInTurn (f : K → V) (steps : List (K × ((K → V) → V))) : K → V :=
  steps.foldl (fun f step => Function.update f step.1 (step.2 f)) f

/-- No assignment is seen by a later one. -/
def Unseen (steps : List (K × ((K → V) → V))) : Prop :=
  steps.Pairwise fun a b => ∀ f x, b.2 (Function.update f a.1 x) = b.2 f

/-- Then the values may as well be computed beforehand. -/
theorem assignInTurn_eq_assign {steps : List (K × ((K → V) → V))} (h : Unseen steps) :
    ∀ f : K → V, assignInTurn f steps = assign f (steps.map fun step => (step.1, step.2 f)) := by
  induction steps with
  | nil => exact fun f => rfl
  | cons step steps ih =>
    intro f
    obtain ⟨hstep, hrest⟩ := List.pairwise_cons.mp h
    show assignInTurn (Function.update f step.1 (step.2 f)) steps = _
    rw [ih hrest, List.map_cons, assign_cons]
    refine congrArg _ (List.map_congr_left fun later hlater => ?_)
    rw [hstep later hlater]

end Assignments
