/-
  `wrapper/logbuffer.h` and `logbuffer.cpp`: the lines an editor shows. The buffer keeps the last
  400 lines and counts the appends. A caller of `append` reads the clock before it waits for the
  mutex, so that a line can carry an earlier time than the one before it.
-/
import ClapValidatorPlugins.Wrapper.Contract
import Mathlib.Data.UInt

namespace Cvp

def severityTag : LogSeverity → String
  | .debug => "DBG"
  | .info => "INF"
  | .warning => "WRN"
  | .error => "ERR"
  | .fatal => "FTL"
  | .hostMisbehaving => "HOST!"
  | .pluginMisbehaving => "PLUG!"

namespace LogBuffer

def kMaxLines : Nat := 400

/-- `%4lld`. -/
def padLeft (width : Nat) (x : Int) : String :=
  let digits := toString x
  String.ofList (List.replicate (width - digits.length) ' ') ++ digits

/-- `%03lld`: the sign stands before the zeros and counts. -/
def zeroPadded (width : Nat) (x : Int) : String :=
  let digits := toString x.natAbs
  if x < 0 then "-" ++ String.ofList (List.replicate (width - 1 - digits.length) '0') ++ digits
  else String.ofList (List.replicate (width - digits.length) '0') ++ digits

/-- The front of a line; `rel` is in milliseconds. -/
def lineHead (rel : Int) (severity : LogSeverity) : String :=
  snprintf 48 (padLeft 4 (rel.tdiv 1000) ++ "." ++ zeroPadded 3 (rel.tmod 1000) ++ " [" ++
    padRight 5 (severityTag severity) ++ "] ")

end LogBuffer

/-- `LogBuffer`. -/
structure LogBuffer where
  lines : List String := []
  version : UInt64 := 0
  epochMs : Int := -1

namespace LogBuffer

/-- A call of `append`, with what its `nowMs` gave. -/
structure Entry where
  now : Int
  severity : LogSeverity
  message : Option String

/-- The time that times are counted from, behind an append at `now`. -/
def epochBehind (epochMs now : Int) : Int := if epochMs < 0 then now else epochMs

def lineOf (epochMs : Int) (e : Entry) : String :=
  lineHead (e.now - epochBehind epochMs e.now) e.severity ++ e.message.getD ""

/-- `append`, under the mutex. -/
def append (b : LogBuffer) (e : Entry) : LogBuffer :=
  let lines := b.lines ++ [lineOf b.epochMs e]
  { lines := if kMaxLines < lines.length then lines.drop 1 else lines
    version := b.version + 1
    epochMs := epochBehind b.epochMs e.now }

def snapshot (b : LogBuffer) : List String := b.lines

/-! ## The buffer is the end of a history -/

/-- The lines of all appends. -/
def linesFrom (epochMs : Int) : List Entry → List String
  | [] => []
  | e :: rest => lineOf epochMs e :: linesFrom (epochBehind epochMs e.now) rest

/-- The buffer behind the appends. -/
def behind (entries : List Entry) : LogBuffer := entries.foldl append {}

/-- The last `n` of the list. -/
def lastOf {α : Type} (n : Nat) (xs : List α) : List α := xs.drop (xs.length - n)

theorem length_lastOf {α : Type} (n : Nat) (xs : List α) :
    (lastOf n xs).length = min n xs.length := by
  rw [lastOf, List.length_drop]
  omega

@[simp] theorem length_linesFrom (entries : List Entry) :
    ∀ epochMs, (linesFrom epochMs entries).length = entries.length := by
  induction entries with
  | nil => exact fun _ => rfl
  | cons e rest ih => exact fun epochMs => congrArg Nat.succ (ih _)

/-- A full window loses its oldest entry. -/
theorem lastOf_push {α : Type} {n : Nat} {xs all : List α} (h : xs = lastOf n all) (x : α) :
    (if n < (xs ++ [x]).length then (xs ++ [x]).drop 1 else xs ++ [x]) =
      lastOf n (all ++ [x]) := by
  have hlength : xs.length = min n all.length := by rw [h, length_lastOf]
  rw [List.length_append, List.length_singleton, hlength]
  split
  · have hlong : n ≤ all.length := by omega
    rw [h, lastOf, lastOf, List.length_append, List.length_singleton,
      ← List.drop_append_of_le_length (Nat.sub_le _ _), List.drop_drop]
    congr 1
    omega
  · have hshort : all.length < n := by omega
    rw [h, lastOf, lastOf, List.length_append, List.length_singleton,
      Nat.sub_eq_zero_of_le hshort.le, Nat.sub_eq_zero_of_le hshort]
    rfl

theorem lines_append {b : LogBuffer} {all : List String} (h : b.lines = lastOf kMaxLines all)
    (e : Entry) : (b.append e).lines = lastOf kMaxLines (all ++ [lineOf b.epochMs e]) :=
  lastOf_push h _

theorem foldl_append (entries : List Entry) :
    ∀ (b : LogBuffer) (all : List String), b.lines = lastOf kMaxLines all →
      (entries.foldl append b).lines = lastOf kMaxLines (all ++ linesFrom b.epochMs entries) ∧
      (entries.foldl append b).version = b.version + UInt64.ofNat entries.length := by
  induction entries with
  | nil =>
    intro b all h
    rw [linesFrom, List.append_nil]
    exact ⟨h, (add_zero _).symm⟩
  | cons e rest ih =>
    intro b all h
    obtain ⟨hlines, hversion⟩ := ih (b.append e) _ (lines_append h e)
    refine ⟨?_, ?_⟩
    · rw [List.foldl_cons, hlines, linesFrom, List.append_assoc]
      rfl
    · rw [List.foldl_cons, hversion, List.length_cons, UInt64.ofNat_add]
      show b.version + 1 + _ = b.version + (_ + 1)
      rw [UInt64.add_assoc, UInt64.add_comm 1]

/-- The snapshot is the last 400 of all lines, in the order of the appends, whatever the clock said;
    the version counts them all. -/
theorem snapshot_behind (entries : List Entry) :
    (behind entries).snapshot = lastOf kMaxLines (linesFrom (-1) entries) ∧
      (behind entries).version = UInt64.ofNat entries.length := by
  obtain ⟨hlines, hversion⟩ := foldl_append entries {} [] rfl
  exact ⟨hlines, hversion.trans (zero_add _)⟩

/-! ## What is still there -/

theorem suffix_lastOf {α : Type} {n : Nat} {xs ys : List α} (h : ys.length ≤ n) :
    ys <:+ lastOf n (xs ++ ys) := by
  refine ⟨xs.drop (xs.length + ys.length - n), ?_⟩
  rw [lastOf, List.length_append, List.drop_append_of_le_length (by omega)]

theorem linesFrom_append (xs ys : List Entry) : ∀ epochMs, ∃ epochMs',
    linesFrom epochMs (xs ++ ys) = linesFrom epochMs xs ++ linesFrom epochMs' ys := by
  induction xs with
  | nil => exact fun epochMs => ⟨epochMs, rfl⟩
  | cons x xs ih =>
    intro epochMs
    obtain ⟨epochMs', hrest⟩ := ih (epochBehind epochMs x.now)
    exact ⟨epochMs', congrArg (lineOf epochMs x :: ·) hrest⟩

theorem behind_append (xs ys : List Entry) : behind (xs ++ ys) = ys.foldl append (behind xs) :=
  List.foldl_append

/-- Until 400 lines have been appended from the first of them on, lines stand in the snapshot as
    they were appended. -/
theorem infix_snapshot {before lines after : List Entry}
    (h : lines.length + after.length ≤ kMaxLines) :
    linesFrom (behind before).epochMs lines <:+:
      (behind (before ++ lines ++ after)).snapshot := by
  obtain ⟨hsnapshot, -⟩ := foldl_append (lines ++ after) (behind before) _
    (snapshot_behind before).1
  obtain ⟨epochMs, hsplit⟩ := linesFrom_append lines after (behind before).epochMs
  rw [List.append_assoc, behind_append]
  show _ <:+: LogBuffer.lines _
  rw [hsnapshot, hsplit]
  refine List.IsInfix.trans ?_ (suffix_lastOf ?_).isInfix
  · exact (List.prefix_append _ _).isInfix
  · rwa [List.length_append, length_linesFrom, length_linesFrom]

end LogBuffer

end Cvp
