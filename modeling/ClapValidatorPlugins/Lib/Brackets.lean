/-
  Labelled brackets, one at a time: an opening, any number of inner marks and a closing, all with
  the same label, and so on. `reads` goes through the marks and knows which bracket is open; what it
  reads to its end is the front of a complete sequence (`isFront_iff`), and it has come out of every
  bracket exactly if the sequence is complete (`complete_iff`).
-/
import Mathlib.Data.List.Basic

namespace Brackets

variable {α : Type}

inductive Mark (α : Type) where
  | opening (label : α)
  | inner (label : α)
  | closing (label : α)
  deriving DecidableEq, Repr

/-- Complete brackets, one behind the other. -/
inductive Complete : List (Mark α) → Prop where
  | nil : Complete []
  | bracket (label : α) (n : Nat) {rest : List (Mark α)} : Complete rest →
      Complete (.opening label :: List.replicate n (.inner label) ++ .closing label :: rest)

/-- The front of complete brackets. -/
def IsFront (marks : List (Mark α)) : Prop := ∃ rest, Complete (marks ++ rest)

variable [DecidableEq α]

/-- The bracket open behind one more mark; `none` where the mark does not fit. -/
def advance : Option α → Mark α → Option (Option α)
  | none, .opening label => some (some label)
  | some label, .inner label' => if label' = label then some (some label) else none
  | some label, .closing label' => if label' = label then some none else none
  | _, _ => none

def reads : Option α → List (Mark α) → Option (Option α)
  | current, [] => some current
  | current, m :: ms => (advance current m).bind fun later => reads later ms

theorem reads_append (xs ys : List (Mark α)) :
    ∀ current, reads current (xs ++ ys) = (reads current xs).bind fun later => reads later ys := by
  induction xs with
  | nil => exact fun current => rfl
  | cons x xs ih =>
    intro current
    rw [List.cons_append, reads, reads, Option.bind_assoc]
    exact congrArg _ (funext fun later => ih later)

theorem reads_singleton (current : Option α) (m : Mark α) :
    reads current [m] = advance current m := by
  rw [reads]
  cases advance current m <;> rfl

/-- One mark more. -/
theorem reads_snoc {current later : Option α} {xs : List (Mark α)}
    (h : reads current xs = some later) (m : Mark α) :
    reads current (xs ++ [m]) = advance later m := by
  rw [reads_append, h]
  exact reads_singleton later m

theorem reads_inners (label : α) (n : Nat) (xs : List (Mark α)) :
    reads (some label) (List.replicate n (.inner label) ++ xs) = reads (some label) xs := by
  induction n with
  | zero => rfl
  | succ n ih =>
    rw [List.replicate_succ, List.cons_append, reads, advance, if_pos rfl]
    exact ih

theorem reads_of_complete {xs : List (Mark α)} (h : Complete xs) : reads none xs = some none := by
  induction h with
  | nil => rfl
  | bracket label n _ ih =>
    rw [List.cons_append, reads, advance]
    show reads (some label) (List.replicate n (.inner label) ++ _) = _
    rw [reads_inners, reads, advance, if_pos rfl]
    exact ih

/-- The closing that is still to come. -/
def missing : Option α → List (Mark α)
  | some label => [.closing label]
  | none => []

/-- Both ends of the reading: outside of every bracket, and behind `n` inner marks of one. -/
theorem complete_of_reads (xs : List (Mark α)) : ∀ later,
    (reads none xs = some later → Complete (xs ++ missing later)) ∧
    ∀ label, reads (some label) xs = some later → ∀ n,
      Complete (.opening label :: List.replicate n (.inner label) ++ (xs ++ missing later)) := by
  induction xs with
  | nil =>
    intro later
    constructor
    · intro h
      cases h
      exact .nil
    · intro label h n
      cases h
      exact .bracket label n .nil
  | cons x xs ih =>
    intro later
    constructor
    · intro h
      cases x with
      | opening label => exact (ih later).2 label h 0
      | inner label => cases h
      | closing label => cases h
    · intro label h n
      cases x with
      | opening label' => cases h
      | inner label' =>
        rw [reads, advance] at h
        split at h
        · rename_i hlabel
          subst hlabel
          have hmore := (ih later).2 label' h (n + 1)
          rwa [List.replicate_succ', ← List.cons_append, List.append_assoc] at hmore
        · cases h
      | closing label' =>
        rw [reads, advance] at h
        split at h
        · rename_i hlabel
          subst hlabel
          exact .bracket label' n ((ih later).1 h)
        · cases h

theorem complete_iff {xs : List (Mark α)} : Complete xs ↔ reads none xs = some none := by
  refine ⟨reads_of_complete, fun h => ?_⟩
  have hcomplete := (complete_of_reads xs none).1 h
  rwa [missing, List.append_nil] at hcomplete

theorem isFront_iff {xs : List (Mark α)} : IsFront xs ↔ ∃ later, reads none xs = some later := by
  constructor
  · rintro ⟨rest, h⟩
    have hreads := reads_of_complete h
    rw [reads_append] at hreads
    obtain ⟨later, hlater, -⟩ := Option.bind_eq_some_iff.mp hreads
    exact ⟨later, hlater⟩
  · rintro ⟨later, h⟩
    exact ⟨missing later, (complete_of_reads xs later).1 h⟩

end Brackets
