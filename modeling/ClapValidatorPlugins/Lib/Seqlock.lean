/-
  A record under a sequence counter. The one writer makes the counter odd, copies its record field
  by field and makes the counter even; a reader loads the counter, copies the fields, loads the
  counter again and starts over unless both loads gave the same even number. The counter has 32
  bits. What a read returns is a whole record, and none that was replaced before the read began
  (`returned_latest`), as long as fewer than `2 ^ 31` stores overlap the read.
-/
import ClapValidatorPlugins.Lib.Machine
import Mathlib.Data.UInt

namespace Seqlock

open Machine

variable {R ι α : Type}

/-- The record `R` with its fields `ι`, and the stores on requests `α`. -/
structure Code (R ι α : Type) where
  /-- the fields in the order in which they are copied -/
  order : List ι
  /-- the second record, with one field of the first -/
  copy : ι → R → R → R
  copies : ∀ source target : R, order.foldl (fun r i => copy i source r) target = source
  /-- what a store writes -/
  record : α → R
  /-- what a read starts with -/
  blank : R

/-- Where the writer is. -/
inductive Writer (ι α : Type) where
  | idle
  | begun (request : α)
  | copying (request : α) (rest : List ι)

/-- Where a reader is. -/
inductive Reader (R ι : Type) where
  | before (out : R)
  | copying (before : UInt32) (rest : List ι) (out : R)
  | returned (out : R)

structure Lock (R ι α : Type) where
  data : R
  seq : UInt32 := 0
  writer : Writer ι α := .idle
  readers : List (Reader R ι) := []
  /-- the stores that are through, in order -/
  stored : List α := []

/-- What the scheduler can choose. -/
inductive Move (α : Type) where
  | store (request : α)
  | write
  | read
  | advance (i : Nat)

namespace Code

variable (code : Code R ι α)

/-- The fields that are left, copied. -/
def copyRest (source : R) (rest : List ι) (target : R) : R :=
  rest.foldl (fun r i => code.copy i source r) target

/-- One step of a reader; `none` behind the return. -/
def readerStep (lock : Lock R ι α) : Reader R ι → Option (Reader R ι)
  | .before out => some (.copying lock.seq code.order out)
  | .copying before (i :: rest) out => some (.copying before rest (code.copy i lock.data out))
  | .copying before [] out =>
    if before ≠ lock.seq ∨ before &&& 1 ≠ 0 then some (.before out) else some (.returned out)
  | .returned _ => none

/-- One step of the writer; `none` between two stores. -/
def writerStep (lock : Lock R ι α) : Option (Lock R ι α) :=
  match lock.writer with
  | .idle => none
  | .begun request =>
    some { lock with seq := lock.seq + 1, writer := .copying request code.order }
  | .copying request (i :: rest) =>
    some { lock with
      data := code.copy i (code.record request) lock.data
      writer := .copying request rest }
  | .copying request [] =>
    some { lock with
      seq := lock.seq + 1
      writer := .idle
      stored := lock.stored ++ [request] }

def step : Step (Lock R ι α) (Move α) Unit Unit
  | lock, .store request =>
    match lock.writer with
    | .idle => .ok ({ lock with writer := .begun request }, ())
    | _ => .error ()
  | lock, .write =>
    match code.writerStep lock with
    | none => .error ()
    | some lock' => .ok (lock', ())
  | lock, .read => .ok ({ lock with readers := lock.readers ++ [.before code.blank] }, ())
  | lock, .advance i =>
    match (lock.readers[i]?).bind (code.readerStep lock) with
    | none => .error ()
    | some reader => .ok ({ lock with readers := lock.readers.set i reader }, ())

end Code

/-! ## Undisturbed -/

section Alone

variable (code : Code R ι α)

theorem run_copying (request : α) (rest : List ι) : ∀ lock : Lock R ι α,
    lock.writer = .copying request rest →
      run code.step lock (List.replicate (rest.length + 1) .write) =
        .ok ({ lock with
          data := code.copyRest (code.record request) rest lock.data
          seq := lock.seq + 1
          writer := .idle
          stored := lock.stored ++ [request] }, List.replicate (rest.length + 1) ()) := by
  induction rest with
  | nil =>
    intro lock hwriter
    refine run_cons ?_ rfl
    rw [Code.step, Code.writerStep, hwriter]
    rfl
  | cons i rest ih =>
    intro lock hwriter
    have hone : code.step lock .write = .ok ({ lock with
        data := code.copy i (code.record request) lock.data
        writer := .copying request rest }, ()) := by
      rw [Code.step, Code.writerStep, hwriter]
    exact run_cons hone (ih _ rfl)

/-- A store with nothing in between writes its record. -/
theorem run_store (lock : Lock R ι α) (hidle : lock.writer = .idle) (request : α) :
    run code.step lock (.store request :: List.replicate (code.order.length + 2) .write) =
      .ok ({ lock with
        data := code.record request
        seq := lock.seq + 1 + 1
        stored := lock.stored ++ [request] }, List.replicate (code.order.length + 3) ()) := by
  have hbegin : code.step lock (.store request) =
      .ok ({ lock with writer := .begun request }, ()) := by
    rw [Code.step, hidle]
  have hodd : code.step { lock with writer := .begun request } .write =
      .ok ({ lock with seq := lock.seq + 1, writer := .copying request code.order }, ()) := rfl
  have hrest := run_copying code request code.order
    { lock with seq := lock.seq + 1, writer := .copying request code.order } rfl
  have hwhole : code.copyRest (code.record request) code.order lock.data = code.record request :=
    code.copies _ _
  dsimp only at hrest
  rw [hwhole] at hrest
  rw [hidle]
  exact run_cons hbegin (run_cons hodd hrest)

theorem step_advance_last (lock : Lock R ι α) (readers : List (Reader R ι))
    {reader reader' : Reader R ι} (hlast : lock.readers = readers ++ [reader])
    (hs : code.readerStep lock reader = some reader') :
    code.step lock (.advance readers.length) =
      .ok ({ lock with readers := readers ++ [reader'] }, ()) := by
  rw [Code.step, hlast, List.getElem?_concat_length, Option.bind_some, hs]
  dsimp only
  rw [List.set_append_right _ _ (Nat.le_refl _), Nat.sub_self, List.set_cons_zero]

theorem run_read_rest (readers : List (Reader R ι)) (rest : List ι) (out : R)
    (lock : Lock R ι α) (hlast : lock.readers = readers ++ [.copying lock.seq rest out])
    (heven : lock.seq &&& 1 = 0) :
    run code.step lock (List.replicate (rest.length + 1) (.advance readers.length)) =
      .ok ({ lock with readers := readers ++ [.returned (code.copyRest lock.data rest out)] },
        List.replicate (rest.length + 1) ()) := by
  induction rest generalizing out lock with
  | nil =>
    have hagree : ¬ (lock.seq ≠ lock.seq ∨ lock.seq &&& 1 ≠ 0) := by
      rintro (hne | hodd)
      · exact hne rfl
      · exact hodd heven
    exact run_cons (step_advance_last code lock readers hlast (if_neg hagree)) rfl
  | cons i rest ih =>
    have hone := step_advance_last code lock readers hlast rfl
    exact run_cons hone (ih _ { lock with readers := _ } rfl heven)

/-- A read of an even counter with nothing in between returns at once, with what is in memory. -/
theorem run_read (lock : Lock R ι α) (heven : lock.seq &&& 1 = 0) :
    run code.step lock
        (.read :: List.replicate (code.order.length + 2) (.advance lock.readers.length)) =
      .ok ({ lock with readers := lock.readers ++ [.returned lock.data] },
        List.replicate (code.order.length + 3) ()) := by
  have hload := step_advance_last code
    { lock with readers := lock.readers ++ [.before code.blank] } lock.readers rfl rfl
  have hrest := run_read_rest code lock.readers code.order code.blank
    { lock with readers := lock.readers ++ [.copying lock.seq code.order code.blank] } rfl heven
  have hwhole : code.copyRest lock.data code.order code.blank = lock.data := code.copies _ _
  dsimp only at hrest
  rw [hwhole] at hrest
  exact run_cons rfl (run_cons hload hrest)

end Alone

/-! ## Counting -/

namespace Lock

/-- How often the counter has been incremented. -/
def total (lock : Lock R ι α) : Nat :=
  match lock.writer with
  | .copying _ _ => 2 * lock.stored.length + 1
  | _ => 2 * lock.stored.length

/-- The stores that have been begun. -/
def entered (lock : Lock R ι α) : Nat :=
  match lock.writer with
  | .idle => lock.stored.length
  | _ => lock.stored.length + 1

theorem total_le_entered (lock : Lock R ι α) : lock.total ≤ 2 * lock.entered := by
  unfold total entered
  split
  · rename_i h
    rw [h]
    dsimp only
    omega
  · split
    · omega
    · omega

theorem stored_le_total (lock : Lock R ι α) : 2 * lock.stored.length ≤ lock.total := by
  unfold total
  split
  · omega
  · omega

end Lock

/-! ## The writer's side -/

section Invariants

variable (code : Code R ι α) (initial : R)

/-- The record behind these stores. -/
def latest (stored : List α) : R := (stored.getLast?).elim initial code.record

/-- What is in memory: between two stores the record of the last, and within one what the fields
    that are left complete. -/
structure Sound (lock : Lock R ι α) : Prop where
  seq : lock.seq = UInt32.ofNat lock.total
  quiet : lock.total % 2 = 0 → lock.data = latest code initial lock.stored
  completes : ∀ request rest, lock.writer = .copying request rest →
    code.copyRest (code.record request) rest lock.data = code.record request

/-- A step of the writer only adds to the stores and to the counter; and where memory changes the
    counter is odd. -/
structure Grows (lock lock' : Lock R ι α) : Prop where
  readers : lock'.readers = lock.readers
  total : lock.total ≤ lock'.total
  stored : lock.stored <+: lock'.stored
  data : lock'.total = lock.total → lock.total % 2 = 0 → lock'.data = lock.data

theorem sound_store {lock lock' : Lock R ι α} {request : α} {o : Unit}
    (h : Sound code initial lock) (hs : code.step lock (.store request) = .ok (lock', o)) :
    Sound code initial lock' ∧ Grows lock lock' := by
  rw [Code.step] at hs
  split at hs
  · rename_i hidle
    cases hs
    have htotal : Lock.total { lock with writer := .begun request } = lock.total := by
      unfold Lock.total
      rw [hidle]
    refine ⟨⟨?_, ?_, nofun⟩, rfl, Nat.le_of_eq htotal.symm, List.prefix_rfl, fun _ _ => rfl⟩
    · rw [htotal]
      exact h.seq
    · rw [htotal]
      exact h.quiet
  · cases hs

theorem sound_write {lock lock' : Lock R ι α} {o : Unit} (h : Sound code initial lock)
    (hs : code.step lock .write = .ok (lock', o)) :
    Sound code initial lock' ∧ Grows lock lock' := by
  have hone : ∀ n, UInt32.ofNat (n + 1) = UInt32.ofNat n + 1 := fun n => UInt32.ofNat_add n 1
  rw [Code.step, Code.writerStep] at hs
  cases hwriter : lock.writer with
  | idle =>
    rw [hwriter] at hs
    cases hs
  | begun request =>
    rw [hwriter] at hs
    cases hs
    have htotal : lock.total = 2 * lock.stored.length := by
      unfold Lock.total
      rw [hwriter]
    have hnext : Lock.total { lock with seq := lock.seq + 1, writer := .copying request code.order }
        = lock.total + 1 := congrArg (· + 1) htotal.symm
    refine ⟨⟨?_, ?_, ?_⟩, rfl, hnext ▸ Nat.le_succ _, List.prefix_rfl, fun _ _ => rfl⟩
    · rw [hnext, hone, ← h.seq]
    · intro heven
      rw [hnext, htotal] at heven
      omega
    · rintro _ _ ⟨⟩
      exact code.copies _ _
  | copying request rest =>
    have htotal : lock.total = 2 * lock.stored.length + 1 := by
      unfold Lock.total
      rw [hwriter]
    have hcompletes := h.completes request rest hwriter
    cases rest with
    | cons i rest =>
      rw [hwriter] at hs
      cases hs
      have hsame : Lock.total { lock with
          data := code.copy i (code.record request) lock.data
          writer := .copying request rest } = lock.total := htotal.symm
      refine ⟨⟨?_, ?_, ?_⟩, rfl, Nat.le_of_eq hsame.symm, List.prefix_rfl, ?_⟩
      · rw [hsame]
        exact h.seq
      · intro heven
        rw [hsame, htotal] at heven
        omega
      · rintro _ _ ⟨⟩
        exact hcompletes
      · intro _ heven
        rw [htotal] at heven
        omega
    | nil =>
      rw [hwriter] at hs
      cases hs
      have hnext : Lock.total { lock with
          seq := lock.seq + 1
          writer := .idle
          stored := lock.stored ++ [request] } = lock.total + 1 := by
        show 2 * (lock.stored ++ [request]).length = _
        rw [htotal, List.length_append, List.length_singleton]
        omega
      refine ⟨⟨?_, ?_, nofun⟩, rfl, hnext ▸ Nat.le_succ _, List.prefix_append _ _, ?_⟩
      · rw [hnext, hone, ← h.seq]
      · intro _
        show lock.data = latest code initial (lock.stored ++ [request])
        rw [latest, List.getLast?_append, List.getLast?_singleton]
        exact hcompletes
      · intro heq
        rw [hnext] at heq
        omega

/-! ## A reader's side -/

/-- What a read that began at the count `low` holds. A read that copies loaded the counter at some
    count since then, and if the counter stands there still and is even, what it has copied is what
    is in memory. One that has returned has the record of a store that was the last since then,
    unless the counter has gone all the way round. -/
def Holds (low : Nat) (lock : Lock R ι α) : Reader R ι → Prop
  | .before _ => True
  | .copying before rest out =>
    ∃ n, low ≤ n ∧ n ≤ lock.total ∧ before = UInt32.ofNat n ∧
      (n = lock.total → n % 2 = 0 → code.copyRest lock.data rest out = lock.data)
  | .returned out =>
    (∃ history, history <+: lock.stored ∧ low ≤ 2 * history.length ∧
      out = latest code initial history) ∨ low + 2 ^ 32 ≤ lock.total

theorem Holds.grow {low : Nat} {lock lock' : Lock R ι α} {reader : Reader R ι}
    (h : Holds code initial low lock reader) (hg : Grows lock lock') :
    Holds code initial low lock' reader := by
  cases reader with
  | before out => trivial
  | copying before rest out =>
    obtain ⟨n, hlow, hn, hbefore, hcopied⟩ := h
    refine ⟨n, hlow, Nat.le_trans hn hg.total, hbefore, fun heq heven => ?_⟩
    have hsame : lock'.total = lock.total := Nat.le_antisymm (heq ▸ hn) hg.total
    rw [hg.data hsame (hsame ▸ heq ▸ heven)]
    exact hcopied (heq.trans hsame) heven
  | returned out =>
    rcases h with ⟨history, hprefix, hlow, hout⟩ | hround
    · exact .inl ⟨history, hprefix.trans hg.stored, hlow, hout⟩
    · exact .inr (Nat.le_trans hround hg.total)

/-- Two counts that the counter does not tell apart. -/
theorem count_eq_or_round {n total : Nat} (hn : n ≤ total)
    (h : UInt32.ofNat n = UInt32.ofNat total) : n = total ∨ n + 2 ^ 32 ≤ total := by
  have hmod := congrArg UInt32.toNat h
  rw [UInt32.toNat_ofNat', UInt32.toNat_ofNat'] at hmod
  omega

theorem even_of_and_one {n : Nat} (h : UInt32.ofNat n &&& 1 = 0) : n % 2 = 0 := by
  have hbit := congrArg UInt32.toNat h
  rw [UInt32.toNat_and, UInt32.toNat_ofNat', show (1 : UInt32).toNat = 1 from rfl,
    Nat.and_one_is_mod] at hbit
  have hzero : (0 : UInt32).toNat = 0 := rfl
  omega

theorem holds_readerStep {low : Nat} {lock : Lock R ι α} {reader reader' : Reader R ι}
    (hsound : Sound code initial lock) (hlow : low ≤ lock.total)
    (h : Holds code initial low lock reader) (hs : code.readerStep lock reader = some reader') :
    Holds code initial low lock reader' := by
  cases reader with
  | before out =>
    cases hs
    exact ⟨lock.total, hlow, Nat.le_refl _, hsound.seq, fun _ _ => code.copies _ _⟩
  | copying before rest out =>
    cases rest with
    | cons i rest =>
      cases hs
      exact h
    | nil =>
      obtain ⟨n, hlown, hn, hbefore, hcopied⟩ := h
      rw [Code.readerStep] at hs
      split at hs
      · cases hs
        trivial
      · rename_i hagree
        cases hs
        obtain ⟨hseq, heven⟩ := not_or.mp hagree
        rw [not_not, hbefore, hsound.seq] at hseq
        rw [not_not, hbefore] at heven
        rcases count_eq_or_round hn hseq with heq | hround
        · have heven' : n % 2 = 0 := even_of_and_one heven
          have hquiet := hsound.quiet (heq ▸ heven')
          refine .inl ⟨lock.stored, List.prefix_rfl, ?_, (hcopied heq heven').trans hquiet⟩
          have htotal : lock.total = 2 * lock.stored.length := by
            rw [heq] at heven'
            unfold Lock.total at heven' ⊢
            split at heven'
            · omega
            · rfl
          omega
        · exact .inr (by omega)
  | returned out => cases hs

/-- What is known of the read at `k`. -/
structure Watched (low k : Nat) (lock : Lock R ι α) : Prop where
  sound : Sound code initial lock
  since : low ≤ lock.total
  reader : ∃ reader, lock.readers[k]? = some reader ∧ Holds code initial low lock reader

theorem Watched.grow {low k : Nat} {lock lock' : Lock R ι α}
    (h : Watched code initial low k lock)
    (hg : Sound code initial lock' ∧ Grows lock lock') : Watched code initial low k lock' := by
  obtain ⟨reader, hreader, hholds⟩ := h.reader
  exact ⟨hg.1, Nat.le_trans h.since hg.2.total, reader, hg.2.readers ▸ hreader,
    hholds.grow code initial hg.2⟩

/-- The writer is not concerned with the readers. -/
theorem Sound.of_readers {lock : Lock R ι α} (h : Sound code initial lock)
    (readers : List (Reader R ι)) : Sound code initial { lock with readers := readers } :=
  ⟨h.seq, h.quiet, h.completes⟩

theorem Holds.of_readers {low : Nat} {lock : Lock R ι α} {reader : Reader R ι}
    (h : Holds code initial low lock reader) (readers : List (Reader R ι)) :
    Holds code initial low { lock with readers := readers } reader := by
  cases reader with
  | before out => trivial
  | copying before rest out => exact h
  | returned out => exact h

theorem advance_ok {lock lock' : Lock R ι α} {i : Nat} {o : Unit}
    (hs : code.step lock (.advance i) = .ok (lock', o)) :
    ∃ reader reader', lock.readers[i]? = some reader ∧
      code.readerStep lock reader = some reader' ∧
      lock' = { lock with readers := lock.readers.set i reader' } := by
  rw [Code.step] at hs
  split at hs
  · cases hs
  · rename_i reader' hreader'
    cases hs
    obtain ⟨reader, hreader, hstep⟩ := Option.bind_eq_some_iff.mp hreader'
    exact ⟨reader, reader', hreader, hstep, rfl⟩

theorem sound_step {lock lock' : Lock R ι α} {move : Move α} {o : Unit}
    (h : Sound code initial lock) (hs : code.step lock move = .ok (lock', o)) :
    Sound code initial lock' := by
  cases move with
  | store request => exact (sound_store code initial h hs).1
  | write => exact (sound_write code initial h hs).1
  | read =>
    cases hs
    exact h.of_readers code initial _
  | advance i =>
    obtain ⟨reader, reader', -, -, rfl⟩ := advance_ok code hs
    exact h.of_readers code initial _

theorem watched_step {low k : Nat} {lock lock' : Lock R ι α} {move : Move α} {o : Unit}
    (h : Watched code initial low k lock) (hs : code.step lock move = .ok (lock', o)) :
    Watched code initial low k lock' := by
  obtain ⟨reader, hreader, hholds⟩ := h.reader
  cases move with
  | store request => exact h.grow code initial (sound_store code initial h.sound hs)
  | write => exact h.grow code initial (sound_write code initial h.sound hs)
  | read =>
    cases hs
    refine ⟨h.sound.of_readers code initial _, h.since, reader, ?_,
      hholds.of_readers code initial _⟩
    exact (List.getElem?_append_left (List.getElem?_eq_some_iff.mp hreader).1).trans hreader
  | advance i =>
    obtain ⟨moved, moved', hmoved, hstep, rfl⟩ := advance_ok code hs
    by_cases hik : i = k
    · subst hik
      cases hreader.symm.trans hmoved
      have hnext := holds_readerStep code initial h.sound h.since hholds hstep
      refine ⟨h.sound.of_readers code initial _, h.since, moved', ?_,
        hnext.of_readers code initial _⟩
      exact List.getElem?_set_self (List.getElem?_eq_some_iff.mp hreader).1
    · refine ⟨h.sound.of_readers code initial _, h.since, reader, ?_,
        hholds.of_readers code initial _⟩
      exact (List.getElem?_set_ne hik).trans hreader

theorem sound_initial : Sound code initial ({ data := initial } : Lock R ι α) :=
  ⟨rfl, fun _ => rfl, nofun⟩

end Invariants

/-! ## Reads -/

/-- A read that begins behind `front` and has returned behind `during`: its record is that of a
    store which was the last at some time in between, if fewer than `2 ^ 31` stores are begun by
    its end and not through at its beginning. -/
theorem returned_latest {code : Code R ι α} {initial out : R} {front during : List (Move α)}
    {lock lock' : Lock R ι α} {os os' : List Unit}
    (hfront : run code.step { data := initial } front = .ok (lock, os))
    (hduring : run code.step lock (.read :: during) = .ok (lock', os'))
    (hreturned : lock'.readers[lock.readers.length]? = some (.returned out))
    (hfew : lock'.entered < lock.stored.length + 2 ^ 31) :
    ∃ history, history <+: lock'.stored ∧ lock.stored.length ≤ history.length ∧
      out = latest code initial history := by
  have hsound : Sound code initial lock := run_invariant
    (fun _ _ _ _ h hs => sound_step code initial h hs) (sound_initial code initial) hfront
  obtain ⟨begun, o, os₁, hbegin, hrest, -⟩ := run_cons_ok hduring
  cases hbegin
  have hbegun : Watched code initial lock.total lock.readers.length
      { lock with readers := lock.readers ++ [.before code.blank] } :=
    ⟨hsound.of_readers code initial _, Nat.le_refl _, .before code.blank,
      List.getElem?_concat_length, trivial⟩
  have hwatched := run_invariant
    (fun _ _ _ _ h hs => watched_step code initial h hs) hbegun hrest
  obtain ⟨reader, hreader, hholds⟩ := hwatched.reader
  cases hreader.symm.trans hreturned
  have hstored := lock.stored_le_total
  rcases hholds with ⟨history, hprefix, hlow, hout⟩ | hround
  · exact ⟨history, hprefix, by omega, hout⟩
  · have hentered := lock'.total_le_entered
    omega

theorem latest_eq (code : Code R ι α) (initial : R) (stored : List α) :
    latest code initial stored = initial ∨
      ∃ request ∈ stored, latest code initial stored = code.record request := by
  rw [latest]
  cases hlast : stored.getLast? with
  | none => exact .inl rfl
  | some request => exact .inr ⟨request, List.mem_of_getLast? hlast, rfl⟩

end Seqlock
