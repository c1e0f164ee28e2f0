/-
  The preset file as a format. A file is a header and `key=value` lines of which the last of each
  key counts (`parsePresetFile_eq`); what it stands for is `presetOf`. The parser takes any value of
  `gain` for a number, so it agrees with the format on every content but those whose last gain is
  none (`parsePresetFile_iff`).
-/
import ClapValidatorPlugins.Lib.Assignments
import ClapValidatorPlugins.Plugins.Preset

namespace Cvp.Preset

open Assignments

variable {D : Type} [DoubleOps D]

/-! ## Lines -/

/-- Key and value of a line; a line without `=` has none. -/
def keyValue (line : List Char) : Option (List Char × List Char) :=
  if '=' ∈ dropCarriageReturn line then
    some ((dropCarriageReturn line).takeWhile (· ≠ '='),
      ((dropCarriageReturn line).dropWhile (· ≠ '=')).tail)
  else none

/-- The value of the last line with the key. -/
def lastValue (key : String) (lines : List (List Char)) : Option (List Char) :=
  lastOf (lines.filterMap keyValue) key.toList

/-- The number a value begins with. -/
def number (value : List Char) : D := DoubleOps.strtod (cString value)

/-- A name of at most 63 bytes. -/
def nameText (value : List Char) : String := String.ofList (cString (value.take 63))

/-- What the lines behind the header say. -/
def dataOf (lines : List (List Char)) (gain : List Char) : PresetData D :=
  { name := ((lastValue "name" lines).map nameText).getD "Unnamed"
    gain := number gain
    color := ((lastValue "color" lines).map number).getD (DoubleOps.lit 0) }

/-- The lines behind the header, if there is one. -/
def body (content : List Char) : Option (List (List Char)) :=
  match getlines [] content with
  | [] => none
  | first :: rest =>
    if dropCarriageReturn first = "CVP-PRESET v1".toList then some rest else none

/-- The preset a content stands for: it has the header, and its last gain is a number. -/
def presetOf (content : List Char) : Option (PresetData D) :=
  (body content).bind fun lines => (lastValue "gain" lines).bind fun gain =>
    if hasNumber (cString gain) = true then some (dataOf lines gain) else none

/-! ## The loop -/

/-- What a record changes. -/
def parseRecord (st : ParseState D) (record : List Char × List Char) : ParseState D :=
  if record.1 = "name".toList then
    { st with data := { st.data with name := nameText record.2 } }
  else if record.1 = "gain".toList then
    { data := { st.data with gain := number record.2 }, haveGain := true }
  else if record.1 = "color".toList then
    { st with data := { st.data with color := number record.2 } }
  else st

theorem snprintf_cString (value : List Char) :
    snprintf 64 (String.ofList (cString value)) = nameText value := by
  unfold snprintf nameText cString
  rw [String.toList_ofList, List.take_takeWhile]

theorem parseLine_eq (st : ParseState D) (line : List Char) :
    parseLine st line =
      match keyValue line with
      | none => st
      | some record => parseRecord st record := by
  unfold parseLine keyValue
  dsimp only
  by_cases h : '=' ∈ dropCarriageReturn line
  · rw [if_neg (by simp [h]), if_pos h]
    dsimp only
    unfold parseRecord
    rw [snprintf_cString]
    rfl
  · rw [if_pos (by simp [h]), if_neg h]

theorem foldl_parseLine (lines : List (List Char)) : ∀ st : ParseState D,
    lines.foldl parseLine st = (lines.filterMap keyValue).foldl parseRecord st := by
  induction lines with
  | nil => exact fun st => rfl
  | cons line lines ih =>
    intro st
    rw [List.foldl_cons, parseLine_eq, List.filterMap_cons]
    cases keyValue line with
    | none => exact ih st
    | some record => exact ih (parseRecord st record)

/-- A variable that the records of one key set holds what the last of them says. -/
theorem foldl_parseRecord {α : Type} (get : ParseState D → α) (key : List Char)
    (set : List Char → α)
    (hset : ∀ st record, get (parseRecord st record) =
      if record.1 = key then set record.2 else get st)
    (records : List (List Char × List Char)) : ∀ st : ParseState D,
      get (records.foldl parseRecord st) = ((lastOf records key).map set).getD (get st) := by
  induction records with
  | nil => exact fun st => rfl
  | cons record records ih =>
    intro st
    rw [List.foldl_cons, ih, lastOf_cons, hset]
    cases lastOf records key with
    | some value => rfl
    | none =>
      rw [Option.none_or]
      by_cases h : record.1 = key
      · rw [if_pos h, if_pos h.symm]
        rfl
      · rw [if_neg h, if_neg (Ne.symm h)]

section Fields

variable (st : ParseState D) (record : List Char × List Char)

theorem parseRecord_name : (parseRecord st record).data.name =
    if record.1 = "name".toList then nameText record.2 else st.data.name := by
  unfold parseRecord
  split_ifs <;> rfl

theorem parseRecord_gain : (parseRecord st record).data.gain =
    if record.1 = "gain".toList then number record.2 else st.data.gain := by
  unfold parseRecord
  split_ifs with hname hgain
  · rw [hname] at hgain
    exact absurd hgain (by decide)
  all_goals rfl

theorem parseRecord_haveGain : (parseRecord st record).haveGain =
    if record.1 = "gain".toList then true else st.haveGain := by
  unfold parseRecord
  split_ifs with hname hgain
  · rw [hname] at hgain
    exact absurd hgain (by decide)
  all_goals rfl

theorem parseRecord_color : (parseRecord st record).data.color =
    if record.1 = "color".toList then number record.2 else st.data.color := by
  unfold parseRecord
  split_ifs with hname hcolor hgain hcolor
  · rw [hname] at hcolor
    exact absurd hcolor (by decide)
  · rfl
  · rw [hgain] at hcolor
    exact absurd hcolor (by decide)
  all_goals rfl

end Fields

/-! ## The parser -/

/-- The records in a file leave behind what the last of each key says. -/
theorem foldl_records (records : List (List Char × List Char)) (start : ParseState D) :
    records.foldl parseRecord start =
      { data :=
          { name := ((lastOf records "name".toList).map nameText).getD start.data.name
            gain := ((lastOf records "gain".toList).map number).getD start.data.gain
            color := ((lastOf records "color".toList).map number).getD start.data.color }
        haveGain := ((lastOf records "gain".toList).map fun _ => true).getD start.haveGain } := by
  have hname := foldl_parseRecord (fun st : ParseState D => st.data.name) _ _ parseRecord_name
    records start
  have hgain := foldl_parseRecord (fun st : ParseState D => st.data.gain) _ _ parseRecord_gain
    records start
  have hcolor := foldl_parseRecord (fun st : ParseState D => st.data.color) _ _ parseRecord_color
    records start
  have hhave := foldl_parseRecord (fun st : ParseState D => st.haveGain) _ (fun _ => true)
    parseRecord_haveGain records start
  rw [← hname, ← hgain, ← hcolor, ← hhave]

/-- What the parser returns: with a header, what the last lines say, if one of them is a gain. -/
theorem parsePresetFile_eq (content : List Char) :
    (parsePresetFile content : Option (PresetData D)) =
      (body content).bind fun lines => (lastValue "gain" lines).map (dataOf lines) := by
  unfold parsePresetFile body
  cases getlines [] content with
  | nil => rfl
  | cons first lines =>
    dsimp only
    by_cases h : dropCarriageReturn first = "CVP-PRESET v1".toList
    · rw [if_neg (not_not.mpr h), if_pos h, foldl_parseLine, foldl_records, Option.bind_some]
      unfold lastValue dataOf
      cases lastOf (lines.filterMap keyValue) "gain".toList <;> rfl
    · rw [if_pos h, if_neg h]
      rfl

/-- The parser reads a content as the format does, exactly if a content with a header does not have
    a last gain that is no number. -/
theorem parsePresetFile_iff (content : List Char) :
    (parsePresetFile content : Option (PresetData D)) = presetOf content ↔
      ∀ lines ∈ body content, ∀ gain ∈ lastValue "gain" lines,
        hasNumber (cString gain) = true := by
  rw [parsePresetFile_eq]
  unfold presetOf
  cases body content with
  | none => exact ⟨fun _ => nofun, fun _ => rfl⟩
  | some lines =>
    rw [Option.bind_some, Option.bind_some]
    cases hgain : lastValue "gain" lines with
    | none =>
      refine ⟨fun _ lines' hlines gain hgain' => ?_, fun _ => rfl⟩
      cases hlines
      rw [hgain] at hgain'
      cases hgain'
    | some gain =>
      rw [Option.map_some, Option.bind_some]
      constructor
      · intro h lines' hlines gain' hgain'
        cases hlines
        rw [hgain] at hgain'
        cases hgain'
        by_contra hno
        rw [if_neg hno] at h
        cases h
      · intro h
        rw [if_pos (h lines rfl gain hgain)]

/-- A gain in words: the file is taken, with a gain of 0. -/
theorem gain_in_words :
    (parsePresetFile "CVP-PRESET v1\ngain=loud\n".toList : Option (PresetData ExactFloat)) =
        some { name := "Unnamed", gain := 0, color := 0 } ∧
      (presetOf "CVP-PRESET v1\ngain=loud\n".toList : Option (PresetData ExactFloat)) = none := by
  have hparse : (parsePresetFile "CVP-PRESET v1\ngain=loud\n".toList :
      Option (PresetData ExactFloat)) =
      some { name := "Unnamed", gain := 1 * (0 + 0 / 10 ^ 0), color := 0 } := rfl
  rw [hparse, zero_div, add_zero, mul_zero]
  exact ⟨rfl, rfl⟩

end Cvp.Preset
