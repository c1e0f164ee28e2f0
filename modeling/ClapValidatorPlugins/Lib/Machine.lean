/-
  Machines that take labelled steps, answer each one, and may fail for good: runs, reachable
  states, the invariant rule, and the rule for a machine that is watched by an observer.
-/
import Mathlib.Data.List.Basic

namespace Machine

variable {σ ℓ ω ε τ : Type}

/-- One step: the next state and the answer, or a failure that ends the run. -/
abbrev Step (σ ℓ ω ε : Type) := σ → ℓ → Except ε (σ × ω)

/-- A finite sequence of steps, with the answers in order. -/
def run (step : Step σ ℓ ω ε) : σ → List ℓ → Except ε (σ × List ω)
  | s, [] => .ok (s, [])
  | s, l :: ls =>
    match step s l with
    | .error e => .error e
    | .ok (s', o) =>
      match run step s' ls with
      | .error e => .error e
      | .ok (s'', os) => .ok (s'', o :: os)

section Runs

variable {step : Step σ ℓ ω ε}

theorem run_cons_ok {s s'' : σ} {l : ℓ} {ls : List ℓ} {os : List ω}
    (h : run step s (l :: ls) = .ok (s'', os)) :
    ∃ s' o os', step s l = .ok (s', o) ∧ run step s' ls = .ok (s'', os') ∧ os = o :: os' := by
  rw [run] at h
  split at h
  · cases h
  · rename_i s' o hs
    split at h
    · cases h
    · rename_i s3 os' hr
      cases h
      exact ⟨s', o, os', hs, hr, rfl⟩

theorem run_cons {s s' s'' : σ} {l : ℓ} {ls : List ℓ} {o : ω} {os : List ω}
    (hs : step s l = .ok (s', o)) (hr : run step s' ls = .ok (s'', os)) :
    run step s (l :: ls) = .ok (s'', o :: os) := by
  rw [run, hs]
  dsimp only
  rw [hr]

theorem run_append {ls ls' : List ℓ} :
    ∀ {s s' s'' : σ} {os os' : List ω}, run step s ls = .ok (s', os) →
      run step s' ls' = .ok (s'', os') → run step s (ls ++ ls') = .ok (s'', os ++ os') := by
  induction ls with
  | nil =>
    intro s s' s'' os os' h h'
    cases h
    exact h'
  | cons l ls ih =>
    intro s s' s'' os os' h h'
    obtain ⟨s1, o, os1, hs, hr, rfl⟩ := run_cons_ok h
    exact run_cons hs (ih hr h')

/-- A run of a longer sequence is a run of its front and a run of its back. -/
theorem run_append_ok {ls ls' : List ℓ} :
    ∀ {s s'' : σ} {os : List ω}, run step s (ls ++ ls') = .ok (s'', os) →
      ∃ s' os₁ os₂, run step s ls = .ok (s', os₁) ∧ run step s' ls' = .ok (s'', os₂) ∧
        os = os₁ ++ os₂ := by
  induction ls with
  | nil => exact fun {s s'' os} h => ⟨s, [], os, rfl, h, rfl⟩
  | cons l ls ih =>
    intro s s'' os h
    obtain ⟨s1, o, os1, hs, hr, rfl⟩ := run_cons_ok h
    obtain ⟨s', os₁, os₂, h₁, h₂, rfl⟩ := ih hr
    exact ⟨s', o :: os₁, os₂, run_cons hs h₁, h₂, rfl⟩

/-- What the initial state has and every step keeps, every run ends with. -/
theorem run_invariant {P : σ → Prop}
    (hstep : ∀ s l s' o, P s → step s l = .ok (s', o) → P s') {ls : List ℓ} :
    ∀ {s s' : σ} {os : List ω}, P s → run step s ls = .ok (s', os) → P s' := by
  induction ls with
  | nil =>
    intro s s' os hp h
    cases h
    exact hp
  | cons l ls ih =>
    intro s s' os hp h
    obtain ⟨s1, o, os1, hs, hr, -⟩ := run_cons_ok h
    exact ih (hstep s l s1 o hp hs) hr

/-- States that are related answer a label alike and stay related, so they answer whole runs
    alike. -/
theorem run_related {step' : Step τ ℓ ω ε} {R : σ → τ → Prop}
    (hstep : ∀ s t l s' o, R s t → step s l = .ok (s', o) →
      ∃ t', step' t l = .ok (t', o) ∧ R s' t') {ls : List ℓ} :
    ∀ {s s' : σ} {t : τ} {os : List ω}, R s t → run step s ls = .ok (s', os) →
      ∃ t', run step' t ls = .ok (t', os) ∧ R s' t' := by
  induction ls with
  | nil =>
    intro s s' t os h hrun
    cases hrun
    exact ⟨t, rfl, h⟩
  | cons l ls ih =>
    intro s s' t os h hrun
    obtain ⟨s₁, o, os', hs, hr, rfl⟩ := run_cons_ok hrun
    obtain ⟨t₁, ht, h₁⟩ := hstep s t l s₁ o h hs
    obtain ⟨t', hrun', h'⟩ := ih h₁ hr
    exact ⟨t', run_cons ht hrun', h'⟩

/-- A machine each of whose steps is a finite run of another one, over related states. Labels that
    have `A` are made up of labels that have `B`. -/
theorem run_refined {ℓ' ω' : Type} {step' : Step τ ℓ' ω' ε} {R : σ → τ → Prop} {A : ℓ → Prop}
    {B : ℓ' → Prop}
    (hstep : ∀ s t l s' o, R s t → step s l = .ok (s', o) →
      ∃ ls' os' t', run step' t ls' = .ok (t', os') ∧ R s' t' ∧ (A l → ∀ l' ∈ ls', B l'))
    {ls : List ℓ} :
    ∀ {s s' : σ} {t : τ} {os : List ω}, R s t → run step s ls = .ok (s', os) →
      ∃ ls' os' t', run step' t ls' = .ok (t', os') ∧ R s' t' ∧
        ((∀ l ∈ ls, A l) → ∀ l' ∈ ls', B l') := by
  induction ls with
  | nil =>
    intro s s' t os h hrun
    cases hrun
    exact ⟨[], [], t, rfl, h, fun _ l' hl' => absurd hl' List.not_mem_nil⟩
  | cons l ls ih =>
    intro s s' t os h hrun
    obtain ⟨s₁, o, os', hs, hr, rfl⟩ := run_cons_ok hrun
    obtain ⟨front, os₁, t₁, hfront, h₁, hlabels₁⟩ := hstep s t l s₁ o h hs
    obtain ⟨back, os₂, t', hback, h', hlabels₂⟩ := ih h₁ hr
    refine ⟨front ++ back, os₁ ++ os₂, t', run_append hfront hback, h', fun hall l' hl' => ?_⟩
    obtain ⟨hl, hls⟩ := List.forall_mem_cons.mp hall
    exact (List.mem_append.mp hl').elim (hlabels₁ hl l') (hlabels₂ hls l')

/-- A stretch of the run can be left out or put in, if behind it everything is answered as it
    would have been without it. -/
theorem run_skip {s₀ s t : σ} {front mid : List ℓ} {os os₁ : List ω}
    (hfront : run step s₀ front = .ok (s, os)) (hmid : run step s mid = .ok (t, os₁))
    (hsame : ∀ back later, (∃ s', run step t back = .ok (s', later)) ↔
      ∃ s', run step s back = .ok (s', later)) (back : List ℓ) (later : List ω) :
    (∃ s', run step s₀ (front ++ mid ++ back) = .ok (s', os ++ os₁ ++ later)) ↔
      ∃ s', run step s₀ (front ++ back) = .ok (s', os ++ later) := by
  have hback : ∀ {ls : List ℓ} {os : List ω} {s : σ}, run step s₀ ls = .ok (s, os) →
      ((∃ s', run step s₀ (ls ++ back) = .ok (s', os ++ later)) ↔
        ∃ s', run step s back = .ok (s', later)) := by
    intro ls os s hls
    refine exists_congr fun s' => ⟨fun h => ?_, fun h => run_append hls h⟩
    obtain ⟨s₁, os₁, os₂, h₁, h₂, hos⟩ := run_append_ok h
    rw [hls] at h₁
    cases h₁
    rw [List.append_cancel_left hos]
    exact h₂
  rw [hback (run_append hfront hmid), hback hfront]
  exact hsame back later

/-- Some run from `s₀` ends in `s`. -/
def Reachable (step : Step σ ℓ ω ε) (s₀ s : σ) : Prop :=
  ∃ ls os, run step s₀ ls = .ok (s, os)

theorem Reachable.refl (s₀ : σ) : Reachable step s₀ s₀ := ⟨[], [], rfl⟩

theorem Reachable.tail {s₀ s s' : σ} {l : ℓ} {o : ω} (h : Reachable step s₀ s)
    (hs : step s l = .ok (s', o)) : Reachable step s₀ s' := by
  obtain ⟨ls, os, hr⟩ := h
  exact ⟨ls ++ [l], os ++ [o], run_append hr (run_cons hs rfl)⟩

/-- What the initial state has and every step keeps, every reachable state has. -/
theorem Reachable.invariant {P : σ → Prop} {s₀ s : σ} (h : Reachable step s₀ s) (h₀ : P s₀)
    (hstep : ∀ s l s' o, P s → step s l = .ok (s', o) → P s') : P s := by
  obtain ⟨ls, os, hr⟩ := h
  exact run_invariant hstep h₀ hr

/-! ## Conditions on every step -/

/-- `P` holds at every step of the run of the labels from `s`. -/
def AllSteps (step : Step σ ℓ ω ε) (P : σ → ℓ → σ → ω → Prop) : σ → List ℓ → Prop
  | _, [] => True
  | s, l :: ls => ∀ s' o, step s l = .ok (s', o) → P s l s' o ∧ AllSteps step P s' ls

/-- Two conditions agree on a run when they agree on every step from a state of the invariant
    and each step that meets them keeps the invariant. -/
theorem allSteps_iff {I : σ → Prop} {A P Q : σ → ℓ → σ → ω → Prop}
    (hagree : ∀ s l s' o, I s → step s l = .ok (s', o) → A s l s' o →
      (P s l s' o ↔ Q s l s' o))
    (hkeep : ∀ s l s' o, I s → step s l = .ok (s', o) → A s l s' o → Q s l s' o → I s')
    {ls : List ℓ} :
    ∀ {s : σ}, I s → AllSteps step A s ls → (AllSteps step P s ls ↔ AllSteps step Q s ls) := by
  induction ls with
  | nil => exact fun _ _ => Iff.rfl
  | cons l ls ih =>
    intro s hi hall
    refine forall_congr' fun s' => forall_congr' fun o => ?_
    refine imp_congr_right fun hs => ?_
    obtain ⟨ha, hrest⟩ := hall s' o hs
    have hhere := hagree s l s' o hi hs ha
    constructor
    · rintro ⟨hp, hps⟩
      have hq := hhere.mp hp
      exact ⟨hq, (ih (hkeep s l s' o hi hs ha hq) hrest).mp hps⟩
    · rintro ⟨hq, hqs⟩
      exact ⟨hhere.mpr hq, (ih (hkeep s l s' o hi hs ha hq) hrest).mpr hqs⟩

theorem allSteps_cons {P : σ → ℓ → σ → ω → Prop} {s s' : σ} {l : ℓ} {o : ω} {ls : List ℓ}
    (hs : step s l = .ok (s', o)) :
    AllSteps step P s (l :: ls) ↔ P s l s' o ∧ AllSteps step P s' ls := by
  refine ⟨fun h => h s' o hs, fun h s₁ o₁ hs₁ => ?_⟩
  cases hs.symm.trans hs₁
  exact h

/-- A condition that can be decided of one step can be decided of a run. -/
instance decidableAllSteps {P : σ → ℓ → σ → ω → Prop} [∀ s l s' o, Decidable (P s l s' o)] :
    ∀ s ls, Decidable (AllSteps step P s ls)
  | _, [] => .isTrue trivial
  | s, l :: ls =>
    match hs : step s l with
    | .error _ => .isTrue fun _ _ h => nomatch hs.symm.trans h
    | .ok (s', o) =>
      have := decidableAllSteps (P := P) s' ls
      decidable_of_iff (P s l s' o ∧ AllSteps step P s' ls) (allSteps_cons hs).symm

/-- `P` holds in every state of the run of the labels from `s`. -/
def AllStates (step : Step σ ℓ ω ε) (P : σ → Prop) : σ → List ℓ → Prop
  | s, [] => P s
  | s, l :: ls => P s ∧ ∀ s' o, step s l = .ok (s', o) → AllStates step P s' ls

theorem AllStates.head {P : σ → Prop} {s : σ} {ls : List ℓ} (h : AllStates step P s ls) : P s := by
  cases ls with
  | nil => exact h
  | cons l ls => exact h.1

theorem allStates_cons {P : σ → Prop} {s s' : σ} {l : ℓ} {o : ω} {ls : List ℓ}
    (hs : step s l = .ok (s', o)) :
    AllStates step P s (l :: ls) ↔ P s ∧ AllStates step P s' ls := by
  refine and_congr_right fun _ => ⟨fun h => h s' o hs, fun h s₁ o₁ hs₁ => ?_⟩
  cases hs.symm.trans hs₁
  exact h

theorem AllStates.last {P : σ → Prop} {ls : List ℓ} :
    ∀ {s s' : σ} {os : List ω}, AllStates step P s ls → run step s ls = .ok (s', os) → P s' := by
  induction ls with
  | nil =>
    intro s s' os h hr
    cases hr
    exact h
  | cons l ls ih =>
    intro s s' os h hr
    obtain ⟨s₁, o, os₁, hs, hrest, -⟩ := run_cons_ok hr
    exact ih (h.2 s₁ o hs) hrest

theorem AllStates.imp {P Q : σ → Prop} (h : ∀ s, P s → Q s) {ls : List ℓ} :
    ∀ {s : σ}, AllStates step P s ls → AllStates step Q s ls := by
  induction ls with
  | nil => exact fun hall => h _ hall
  | cons l ls ih => exact fun hall => ⟨h _ hall.1, fun s' o hs => ih (hall.2 s' o hs)⟩

/-- A run that ends where `P` fails; `seen` is what is looked at there. -/
theorem not_allStates_of_seen {α : Type} {P : σ → Prop} {s : σ} {ls : List ℓ} (seen : σ → α)
    {a : α} (hseen : (run step s ls).toOption.map (fun r => seen r.1) = some a)
    (hfails : ∀ s', seen s' = a → ¬ P s') : ¬ AllStates step P s ls := by
  intro hall
  cases hrun : run step s ls with
  | error e =>
    rw [hrun] at hseen
    cases hseen
  | ok r =>
    rw [hrun] at hseen
    exact hfails r.1 (Option.some.inj hseen) (hall.last hrun)

/-- `P` holds all along a run whose steps meet `Q`, where an invariant `I` implies `P` and a step
    that meets `Q` keeps `I`. -/
theorem allStates_of_allSteps {I P : σ → Prop} {Q : σ → ℓ → σ → ω → Prop}
    (hholds : ∀ s, I s → P s)
    (hkeep : ∀ s l s' o, I s → step s l = .ok (s', o) → Q s l s' o → I s') {ls : List ℓ} :
    ∀ {s : σ}, I s → AllSteps step Q s ls → AllStates step P s ls := by
  induction ls with
  | nil => exact fun hi _ => hholds _ hi
  | cons l ls ih =>
    intro s hi hsteps
    refine ⟨hholds s hi, fun s' o hs => ?_⟩
    obtain ⟨hq, hrest⟩ := hsteps s' o hs
    exact ih (hkeep s l s' o hi hs hq) hrest

/-- A condition on the labels holds at every step. -/
theorem allSteps_of_labels {P : ℓ → Prop} {ls : List ℓ} :
    ∀ {s : σ}, (∀ l ∈ ls, P l) → AllSteps step (fun _ l _ _ => P l) s ls := by
  induction ls with
  | nil => exact fun _ => trivial
  | cons l ls ih =>
    intro s h s' o _
    exact ⟨h l List.mem_cons_self, ih fun l' hl' => h l' (List.mem_cons_of_mem _ hl')⟩

/-- Exactly then, where only a step that meets `Q` can end in `P`. `A` is known of every step. -/
theorem allStates_iff_allSteps_of {I P : σ → Prop} {A Q : σ → ℓ → σ → ω → Prop}
    (hholds : ∀ s, I s → P s)
    (hkeep : ∀ s l s' o, I s → step s l = .ok (s', o) → A s l s' o → Q s l s' o → I s')
    (hneed : ∀ s l s' o, I s → step s l = .ok (s', o) → A s l s' o → P s' → Q s l s' o)
    {ls : List ℓ} :
    ∀ {s : σ}, I s → AllSteps step A s ls → (AllStates step P s ls ↔ AllSteps step Q s ls) := by
  induction ls with
  | nil => exact fun hi _ => ⟨fun _ => trivial, fun _ => hholds _ hi⟩
  | cons l ls ih =>
    intro s hi hall
    constructor
    · intro hstates s' o hs
      obtain ⟨ha, hrest⟩ := hall s' o hs
      have hq := hneed s l s' o hi hs ha (hstates.2 s' o hs).head
      exact ⟨hq, (ih (hkeep s l s' o hi hs ha hq) hrest).mp (hstates.2 s' o hs)⟩
    · intro hsteps
      refine ⟨hholds s hi, fun s' o hs => ?_⟩
      obtain ⟨ha, hrest⟩ := hall s' o hs
      obtain ⟨hq, hqs⟩ := hsteps s' o hs
      exact (ih (hkeep s l s' o hi hs ha hq) hrest).mpr hqs

theorem allStates_iff_allSteps {I P : σ → Prop} {Q : σ → ℓ → σ → ω → Prop}
    (hholds : ∀ s, I s → P s)
    (hkeep : ∀ s l s' o, I s → step s l = .ok (s', o) → Q s l s' o → I s')
    (hneed : ∀ s l s' o, I s → step s l = .ok (s', o) → P s' → Q s l s' o) {s : σ} (hi : I s)
    {ls : List ℓ} : AllStates step P s ls ↔ AllSteps step Q s ls :=
  allStates_iff_allSteps_of hholds (fun s l s' o hi hs _ => hkeep s l s' o hi hs)
    (fun s l s' o hi hs _ => hneed s l s' o hi hs) hi
    (allSteps_of_labels (P := fun _ => True) fun _ _ => trivial)

/-- Two conditions that agree on every step from a state of the invariant agree on every run. -/
theorem allSteps_congr {I : σ → Prop} {P Q : σ → ℓ → σ → ω → Prop}
    (hagree : ∀ s l s' o, I s → step s l = .ok (s', o) → (P s l s' o ↔ Q s l s' o))
    (hkeep : ∀ s l s' o, I s → step s l = .ok (s', o) → Q s l s' o → I s') {s : σ} (hi : I s)
    (ls : List ℓ) : AllSteps step P s ls ↔ AllSteps step Q s ls :=
  allSteps_iff (fun s l s' o hi hs _ => hagree s l s' o hi hs)
    (fun s l s' o hi hs _ hq => hkeep s l s' o hi hs hq) hi
    (allSteps_of_labels (P := fun _ => True) fun _ _ => trivial)

/-- What the steps of a run keep, it ends with. -/
theorem AllSteps.run {I : σ → Prop} {Q : σ → ℓ → σ → ω → Prop} {ls : List ℓ}
    (hkeep : ∀ s l s' o, I s → step s l = .ok (s', o) → Q s l s' o → I s') {s s' : σ}
    {os : List ω} (h : AllSteps step Q s ls) (hi : I s)
    (hr : Machine.run step s ls = .ok (s', os)) : I s' :=
  (allStates_of_allSteps (fun _ hs => hs) hkeep hi h).last hr

/-- What the steps with labels in `P` keep, a run of such labels ends with. -/
theorem run_invariant_of_labels {I : σ → Prop} {P : ℓ → Prop}
    (hkeep : ∀ s l s' o, I s → P l → step s l = .ok (s', o) → I s') {ls : List ℓ} {s s' : σ}
    {os : List ω} (hls : ∀ l ∈ ls, P l) (hi : I s) (hr : run step s ls = .ok (s', os)) : I s' :=
  AllSteps.run (fun s l s' o hi hs hp => hkeep s l s' o hi hp hs) (allSteps_of_labels hls) hi hr

end Runs

/-! ## Remembering -/

/-- The machine together with a memory of its steps. -/
def remembering (step : Step σ ℓ ω ε) (note : τ → σ → ℓ → ω → τ) : Step (σ × τ) ℓ ω ε :=
  fun s l =>
    match step s.1 l with
    | .error e => .error e
    | .ok (s', o) => .ok ((s', note s.2 s.1 l o), o)

theorem remembering_ok {step : Step σ ℓ ω ε} {note : τ → σ → ℓ → ω → τ} {s s' : σ × τ} {l : ℓ}
    {o : ω} (h : remembering step note s l = .ok (s', o)) :
    step s.1 l = .ok (s'.1, o) ∧ s'.2 = note s.2 s.1 l o := by
  unfold remembering at h
  split at h
  · cases h
  · rename_i hs
    cases h
    exact ⟨hs, rfl⟩

/-! ## Observed runs -/

/-- Someone who sees labels and answers, and says which label may come next; what the machine
    declares about its state may enter into it. -/
structure Observer (σ τ ℓ ω : Type) where
  allows : σ → τ → ℓ → Prop
  next : τ → ℓ → ω → τ

/-- An observer that also keeps to `P`. -/
def Observer.given (obs : Observer σ τ ℓ ω) (P : σ → τ → ℓ → Prop) : Observer σ τ ℓ ω where
  allows s t l := obs.allows s t l ∧ P s t l
  next := obs.next

/-- A run in which every label is one the observer allows, from `(s, t)` to `(s', t')`. -/
inductive ObservedRun (step : Step σ ℓ ω ε) (obs : Observer σ τ ℓ ω) :
    σ → τ → List ℓ → σ → τ → Prop where
  | nil (s : σ) (t : τ) : ObservedRun step obs s t [] s t
  | cons {s s' s'' : σ} {t t'' : τ} {l : ℓ} {o : ω} {ls : List ℓ} :
      obs.allows s t l → step s l = .ok (s', o) →
      ObservedRun step obs s' (obs.next t l o) ls s'' t'' →
      ObservedRun step obs s t (l :: ls) s'' t''

/-- A relation that every allowed step keeps, an observed run keeps. -/
theorem ObservedRun.invariant {step : Step σ ℓ ω ε} {obs : Observer σ τ ℓ ω} {R : σ → τ → Prop}
    (hstep : ∀ s t l s' o, R s t → obs.allows s t l → step s l = .ok (s', o) →
      R s' (obs.next t l o)) {s s' : σ} {t t' : τ} {ls : List ℓ}
    (h : ObservedRun step obs s t ls s' t') : R s t → R s' t' := by
  induction h with
  | nil s t => exact id
  | cons ha hs _ ih => exact fun hr => ih (hstep _ _ _ _ _ hr ha hs)

/-- A run is observed by anyone who allows every label. -/
theorem observed_of_run {step : Step σ ℓ ω ε} {obs : Observer σ τ ℓ ω}
    (hallows : ∀ s t l, obs.allows s t l) {ls : List ℓ} :
    ∀ {s s' : σ} {t : τ} {os : List ω}, run step s ls = .ok (s', os) →
      ∃ t', ObservedRun step obs s t ls s' t' := by
  induction ls with
  | nil =>
    intro s s' t os h
    cases h
    exact ⟨t, .nil s t⟩
  | cons l ls ih =>
    intro s s' t os h
    obtain ⟨s₁, o, os₁, hs, hr, -⟩ := run_cons_ok h
    obtain ⟨t', hrest⟩ := @ih s₁ s' (obs.next t l o) os₁ hr
    exact ⟨t', .cons (hallows s t l) hs hrest⟩

end Machine
