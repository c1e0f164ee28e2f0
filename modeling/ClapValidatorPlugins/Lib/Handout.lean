/-
  A queue that is filled item by item and emptied as a whole, by one taker after the other: the
  log of the pushes and of the batches taken. Every pushed item is in exactly one batch or still
  queued, in the order of the pushes (`Accounts`), so an earlier batch holds earlier items
  (`Accounts.apart`).
-/
import Mathlib.Data.List.Basic

namespace Handout

variable {κ α : Type}

/-- What one taker found in the queue. -/
structure Batch (κ α : Type) where
  taker : κ
  items : List α

structure Log (κ α : Type) where
  pushed : List α := []
  batches : List (Batch κ α) := []

namespace Log

def push (log : Log κ α) (a : α) : Log κ α := { log with pushed := log.pushed ++ [a] }

def take (log : Log κ α) (taker : κ) (queue : List α) : Log κ α :=
  { log with batches := log.batches ++ [⟨taker, queue⟩] }

/-- What is in the batches, in order. -/
def taken (log : Log κ α) : List α := log.batches.flatMap Batch.items

/-- The batches, one after the other, and the queue behind them are what was pushed. -/
def Accounts (log : Log κ α) (queue : List α) : Prop := log.pushed = log.taken ++ queue

theorem accounts_empty : Accounts ({} : Log κ α) [] := rfl

variable {log : Log κ α} {queue : List α}

theorem Accounts.push (h : Accounts log queue) (a : α) : Accounts (log.push a) (queue ++ [a]) := by
  show log.pushed ++ [a] = log.taken ++ (queue ++ [a])
  rw [h, List.append_assoc]

theorem Accounts.take (h : Accounts log queue) (taker : κ) :
    Accounts (log.take taker queue) [] := by
  have htaken : (log.take taker queue).taken = log.taken ++ queue := by
    simp [Log.taken, Log.take]
  show log.pushed = (log.take taker queue).taken ++ []
  rw [htaken, List.append_nil]
  exact h

/-- Of two batches the items of the earlier one were all pushed before those of the later. -/
theorem Accounts.apart (h : Accounts log queue) {before between after : List (Batch κ α)}
    {s t : Batch κ α} (hsplit : log.batches = before ++ s :: (between ++ t :: after)) :
    ∃ xs ys zs, log.pushed = xs ++ (s.items ++ (ys ++ (t.items ++ zs))) := by
  refine ⟨before.flatMap Batch.items, between.flatMap Batch.items,
    after.flatMap Batch.items ++ queue, ?_⟩
  rw [h, taken, hsplit]
  simp [List.append_assoc]

end Log

/-- Something from the front of a list stands before something from its back. -/
theorem exists_split {xs ys : List α} {a b : α} (ha : a ∈ xs) (hb : b ∈ ys) :
    ∃ before between after, xs ++ ys = before ++ a :: (between ++ b :: after) := by
  obtain ⟨before, rest, rfl⟩ := List.append_of_mem ha
  obtain ⟨rest', after, rfl⟩ := List.append_of_mem hb
  exact ⟨before, rest ++ rest', after, by simp⟩

end Handout
