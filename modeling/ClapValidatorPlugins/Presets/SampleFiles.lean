/-
  `ensureSamplePresetFiles` against the file system. Every step can fail, a write can fall short,
  and the process can be killed between any two steps and call the function again. Nothing looks
  at whether the sample was written before its temporary file is renamed, so what the sample paths
  hold is as promised exactly if no rename that succeeds moves anything but the full sample to a
  free path (`samples_kept_iff`); writes that get through are enough (`kept_of_outcomes`).

  A name stands for what is read through it; left out: names that are links to one another.
-/
import ClapValidatorPlugins.Lib.Machine
import Mathlib.Logic.Function.Basic

namespace Cvp.Preset

open Machine

structure SampleFile where
  fileName : String
  content : List Char
  deriving DecidableEq, Repr

def kSampleFiles : List SampleFile :=
  [{ fileName := "validator-sample-soft.cvpreset"
     content := "CVP-PRESET v1\nname=Sample Soft\ngain=-6.0\ncolor=3\n".toList },
   { fileName := "validator-sample-hot.cvpreset"
     content := "CVP-PRESET v1\nname=Sample Hot\ngain=12.0\ncolor=2\n".toList }]

/-- The temporary name. -/
def SampleFile.tmp (sample : SampleFile) : String := sample.fileName ++ ".tmp"

/-! ## The directory -/

inductive Entry where
  | file (content : List Char)
  | directory
  deriving DecidableEq, Repr

/-- What the preset directory holds under each name; one that does not exist holds nothing. -/
abbrev Directory := String → Option Entry

/-! ## The function -/

/-- The next step of the function, and the samples behind the one at hand. -/
inductive Stage where
  /-- not called, returned, or killed -/
  | outside
  /-- `create_directories` and `is_directory` -/
  | entered
  /-- `exists` -/
  | checking (sample : SampleFile) (rest : List SampleFile)
  /-- the constructor of `file` -/
  | opening (sample : SampleFile) (rest : List SampleFile)
  /-- `file << sample.content` up to the end of `file`, with what is not written yet -/
  | writing (sample : SampleFile) (left : List Char) (rest : List SampleFile)
  | renaming (sample : SampleFile) (rest : List SampleFile)
  | removing (sample : SampleFile) (rest : List SampleFile)
  deriving DecidableEq, Repr

structure Disk where
  dir : Directory
  stage : Stage := .outside

/-- One step, and what comes of it. -/
inductive Outcome where
  | call
  | kill
  | directory (usable : Bool)
  | check (answer : Bool)
  | open (opened : Bool)
  /-- the next `n` characters reach the file -/
  | write (n : Nat)
  /-- nothing more reaches it -/
  | close
  | rename (renamed : Bool)
  | remove (removed : Bool)
  deriving DecidableEq, Repr

/-- On to the next sample, or the return. -/
def proceed (dir : Directory) : List SampleFile → Disk × Option Bool
  | [] => ({ dir := dir }, some true)
  | sample :: rest => ({ dir := dir, stage := .checking sample rest }, none)

/-- `ensureSamplePresetFiles`, with what it returns; an error where the outcome is none of the
    step's. `exists` answers `false` also where it fails. -/
def step : Step Disk Outcome (Option Bool) Unit
  | ⟨dir, _⟩, .kill => .ok ({ dir := dir }, none)
  | ⟨dir, .outside⟩, .call => .ok ({ dir := dir, stage := .entered }, none)
  | ⟨dir, .entered⟩, .directory usable =>
    if usable then .ok (proceed dir kSampleFiles) else .ok ({ dir := dir }, some false)
  | ⟨dir, .checking sample rest⟩, .check answer =>
    if answer then
      if dir sample.fileName = none then .error () else .ok (proceed dir rest)
    else .ok ({ dir := dir, stage := .opening sample rest }, none)
  | ⟨dir, .opening sample rest⟩, .open opened =>
    if opened then
      if dir sample.tmp = some .directory then .error ()
      else .ok ({ dir := Function.update dir sample.tmp (some (.file []))
                  stage := .writing sample sample.content rest }, none)
    else .ok (proceed dir rest)
  | ⟨dir, .writing sample left rest⟩, .write n =>
    match dir sample.tmp with
    | some (.file content) =>
      .ok ({ dir := Function.update dir sample.tmp (some (.file (content ++ left.take n)))
             stage := .writing sample (left.drop n) rest }, none)
    | _ => .error ()
  | ⟨dir, .writing sample _ rest⟩, .close =>
    .ok ({ dir := dir, stage := .renaming sample rest }, none)
  | ⟨dir, .renaming sample rest⟩, .rename renamed =>
    if renamed then
      if dir sample.tmp = none ∨ dir sample.fileName = some .directory then .error ()
      else .ok (proceed (Function.update (Function.update dir sample.fileName (dir sample.tmp))
        sample.tmp none) rest)
    else .ok ({ dir := dir, stage := .removing sample rest }, none)
  | ⟨dir, .removing sample rest⟩, .remove removed =>
    .ok (proceed (if removed then Function.update dir sample.tmp none else dir) rest)
  | _, _ => .error ()

/-! ## The promise -/

/-- Each sample path holds what it held before or, if it did not exist before, nothing or the full
    sample. -/
def Kept (initial dir : Directory) : Prop :=
  ∀ sample ∈ kSampleFiles, dir sample.fileName = initial sample.fileName ∨
    initial sample.fileName = none ∧ dir sample.fileName = some (.file sample.content)

/-- A rename that succeeds moves the full sample to a path that holds nothing, or changes nothing
    of what the path holds. -/
def RenamesSample (disk : Disk) (outcome : Outcome) (_ : Disk) (_ : Option Bool) : Prop :=
  outcome = .rename true → ∀ sample rest, disk.stage = .renaming sample rest →
    disk.dir sample.fileName = disk.dir sample.tmp ∨
      disk.dir sample.fileName = none ∧ disk.dir sample.tmp = some (.file sample.content)

/-- What is written gets through, and `exists` does not fail on a file that is there. -/
def GetsThrough (disk : Disk) (outcome : Outcome) (_ : Disk) (_ : Option Bool) : Prop :=
  (outcome = .close → ∀ sample left rest, disk.stage = .writing sample left rest → left = []) ∧
  (outcome = .check false → ∀ sample rest, disk.stage = .checking sample rest →
    disk.dir sample.fileName = none)

/-! ## Steps -/

/-- The samples still to come, the one at hand first. -/
def Stage.samples : Stage → List SampleFile
  | .outside => []
  | .entered => kSampleFiles
  | .checking sample rest | .opening sample rest | .writing sample _ rest | .renaming sample rest
  | .removing sample rest => sample :: rest

/-- No temporary name is that of a sample. -/
theorem tmp_ne_fileName {sample other : SampleFile} (h : sample ∈ kSampleFiles)
    (hother : other ∈ kSampleFiles) : other.fileName ≠ sample.tmp := by
  have hall : ∀ sample ∈ kSampleFiles, ∀ other ∈ kSampleFiles, other.fileName ≠ sample.tmp := by
    decide
  exact hall sample h other hother

theorem fileName_inj {sample other : SampleFile} (h : sample ∈ kSampleFiles)
    (hother : other ∈ kSampleFiles) (hname : other.fileName = sample.fileName) :
    other = sample := by
  have hall : ∀ sample ∈ kSampleFiles, ∀ other ∈ kSampleFiles,
      other.fileName = sample.fileName → other = sample := by
    decide
  exact hall sample h other hother hname

theorem proceed_dir (dir : Directory) (rest : List SampleFile) :
    (proceed dir rest).1.dir = dir := by
  cases rest with
  | nil => rfl
  | cons sample rest => rfl

theorem proceed_samples (dir : Directory) (rest : List SampleFile) :
    (proceed dir rest).1.stage.samples = rest := by
  cases rest with
  | nil => rfl
  | cons sample rest => rfl

/-- The sample at hand moved from its temporary name to its own. -/
def renamed (dir : Directory) (sample : SampleFile) : Directory :=
  Function.update (Function.update dir sample.fileName (dir sample.tmp)) sample.tmp none

/-- What a step does to the directory: nothing, a change of a temporary file, or a rename. -/
inductive Touches (disk : Disk) : Outcome → Directory → Prop where
  | kept (outcome : Outcome) : Touches disk outcome disk.dir
  | tmp (outcome : Outcome) (sample : SampleFile) (entry : Option Entry) :
      sample ∈ disk.stage.samples →
      Touches disk outcome (Function.update disk.dir sample.tmp entry)
  | renamed (sample : SampleFile) (rest : List SampleFile) :
      disk.stage = .renaming sample rest → disk.dir sample.tmp ≠ none →
      Touches disk (.rename true) (renamed disk.dir sample)

theorem Touches.proceed {disk disk' : Disk} {outcome : Outcome} {dir : Directory}
    {rest : List SampleFile} {o : Option Bool} (h : Touches disk outcome dir)
    (hrest : ∀ sample ∈ rest, sample ∈ disk.stage.samples ∨ sample ∈ kSampleFiles)
    (hs : (.ok (proceed dir rest) : Except Unit (Disk × Option Bool)) = .ok (disk', o)) :
    Touches disk outcome disk'.dir ∧
      ∀ sample ∈ disk'.stage.samples, sample ∈ disk.stage.samples ∨ sample ∈ kSampleFiles := by
  have hdisk : (Preset.proceed dir rest).1 = disk' := congrArg Prod.fst (Except.ok.inj hs)
  rw [← hdisk, proceed_dir, proceed_samples]
  exact ⟨h, hrest⟩

theorem step_touches {disk disk' : Disk} {outcome : Outcome} {o : Option Bool}
    (hs : step disk outcome = .ok (disk', o)) : Touches disk outcome disk'.dir ∧
      ∀ sample ∈ disk'.stage.samples, sample ∈ disk.stage.samples ∨ sample ∈ kSampleFiles := by
  unfold step at hs
  split at hs
  -- `kill`
  · cases hs
    exact ⟨.kept _, nofun⟩
  -- `call`
  · cases hs
    exact ⟨.kept _, fun _ h => .inr h⟩
  -- `directory`
  · split at hs
    · exact (Touches.kept _).proceed (fun _ h => .inr h) hs
    · cases hs
      exact ⟨.kept _, nofun⟩
  -- `check`
  · split at hs
    · split at hs
      · cases hs
      · exact (Touches.kept _).proceed (fun _ h => .inl (List.mem_cons_of_mem _ h)) hs
    · cases hs
      exact ⟨.kept _, fun _ h => .inl h⟩
  -- `open`
  · split at hs
    · split at hs
      · cases hs
      · cases hs
        exact ⟨.tmp _ _ _ List.mem_cons_self, fun _ h => .inl h⟩
    · exact (Touches.kept _).proceed (fun _ h => .inl (List.mem_cons_of_mem _ h)) hs
  -- `write`
  · split at hs
    · cases hs
      exact ⟨.tmp _ _ _ List.mem_cons_self, fun _ h => .inl h⟩
    · cases hs
  -- `close`
  · cases hs
    exact ⟨.kept _, fun _ h => .inl h⟩
  -- `rename`
  · split at hs
    · rename_i hrenamed
      split at hs
      · cases hs
      · rename_i hmoves
        subst hrenamed
        exact (Touches.renamed _ _ rfl (not_or.mp hmoves).1).proceed
          (fun _ h => .inl (List.mem_cons_of_mem _ h)) hs
    · cases hs
      exact ⟨.kept _, fun _ h => .inl h⟩
  -- `remove`
  · rename_i dir sample rest removed
    have htouches : Touches ⟨dir, .removing sample rest⟩ (.remove removed)
        (if removed then Function.update dir sample.tmp none else dir) := by
      cases removed with
      | false => exact .kept _
      | true => exact .tmp _ _ _ List.mem_cons_self
    exact htouches.proceed (fun _ h => .inl (List.mem_cons_of_mem _ h)) hs
  · cases hs

/-! ## Runs -/

/-- The promise so far, and the function at samples of the table. -/
structure Going (initial : Directory) (disk : Disk) : Prop where
  kept : Kept initial disk.dir
  samples : ∀ sample ∈ disk.stage.samples, sample ∈ kSampleFiles

theorem Kept.update_tmp {initial dir : Directory} (h : Kept initial dir) {sample : SampleFile}
    (hsample : sample ∈ kSampleFiles) (entry : Option Entry) :
    Kept initial (Function.update dir sample.tmp entry) := by
  intro other hother
  rw [Function.update_of_ne (tmp_ne_fileName hsample hother)]
  exact h other hother

theorem renamed_self {dir : Directory} {sample : SampleFile} (h : sample ∈ kSampleFiles) :
    renamed dir sample sample.fileName = dir sample.tmp := by
  rw [renamed, Function.update_of_ne (tmp_ne_fileName h h), Function.update_self]

theorem renamed_other {dir : Directory} {sample other : SampleFile} (h : sample ∈ kSampleFiles)
    (hother : other ∈ kSampleFiles) (hne : other ≠ sample) :
    renamed dir sample other.fileName = dir other.fileName := by
  rw [renamed, Function.update_of_ne (tmp_ne_fileName h hother),
    Function.update_of_ne fun hname => hne (fileName_inj h hother hname)]

/-- A rename keeps the promise exactly if it moves the full sample to a free path, or the path
    holds behind it what it held. -/
theorem kept_renamed_iff {initial dir : Directory} (h : Kept initial dir) {sample : SampleFile}
    (hsample : sample ∈ kSampleFiles) (htmp : dir sample.tmp ≠ none) :
    Kept initial (renamed dir sample) ↔ dir sample.fileName = dir sample.tmp ∨
      dir sample.fileName = none ∧ dir sample.tmp = some (.file sample.content) := by
  constructor
  · intro hkept
    have hnow := hkept sample hsample
    rw [renamed_self hsample] at hnow
    rcases hnow with hsame | ⟨hfree, hfull⟩
    · rcases h sample hsample with hold | ⟨hfree, -⟩
      · exact .inl (hold.trans hsame.symm)
      · exact absurd (hsame.trans hfree) htmp
    · rcases h sample hsample with hold | ⟨-, hold⟩
      · exact .inr ⟨hold.trans hfree, hfull⟩
      · exact .inl (hold.trans hfull.symm)
  · intro hmoves other hother
    by_cases hother' : other = sample
    · subst hother'
      rw [renamed_self hsample]
      rcases hmoves with hsame | ⟨hfree, hfull⟩
      · rw [← hsame]
        exact h other hother
      · rcases h other hother with hold | ⟨-, hold⟩
        · exact .inr ⟨hold.symm.trans hfree, hfull⟩
        · rw [hfree] at hold
          cases hold
    · rw [renamed_other hsample hother hother']
      exact h other hother

theorem going_step {initial : Directory} {disk disk' : Disk} {outcome : Outcome} {o : Option Bool}
    (h : Going initial disk) (hs : step disk outcome = .ok (disk', o))
    (hrenames : RenamesSample disk outcome disk' o) : Going initial disk' := by
  obtain ⟨htouches, hsamples⟩ := step_touches hs
  refine ⟨?_, fun sample hsample => (hsamples sample hsample).elim (h.samples sample) id⟩
  generalize disk'.dir = dir at htouches
  cases htouches with
  | kept => exact h.kept
  | tmp _ sample entry hsample => exact h.kept.update_tmp (h.samples sample hsample) entry
  | renamed sample rest hstage htmp =>
    have hsample : sample ∈ kSampleFiles :=
      h.samples sample (hstage ▸ List.mem_cons_self)
    exact (kept_renamed_iff h.kept hsample htmp).mpr (hrenames rfl sample rest hstage)

theorem renamesSample_of_kept {initial : Directory} {disk disk' : Disk} {outcome : Outcome}
    {o : Option Bool} (h : Going initial disk) (hs : step disk outcome = .ok (disk', o))
    (hkept : Kept initial disk'.dir) : RenamesSample disk outcome disk' o := by
  rintro rfl sample rest hstage
  have hsample : sample ∈ kSampleFiles := h.samples sample (hstage ▸ List.mem_cons_self)
  obtain ⟨dir, stage⟩ := disk
  subst hstage
  rw [step, if_pos rfl] at hs
  split at hs
  · cases hs
  · rename_i hmoves
    have hdir : disk'.dir = renamed dir sample :=
      (congrArg (fun d => d.1.dir) (Except.ok.inj hs)).symm.trans (proceed_dir _ _)
    rw [hdir] at hkept
    exact (kept_renamed_iff h.kept hsample (not_or.mp hmoves).1).mp hkept

theorem going_initial (initial : Directory) : Going initial { dir := initial } :=
  ⟨fun _ _ => .inl rfl, nofun⟩

/-- Over every run on every directory, whatever the outcome of each step, wherever the process is
    killed and however often it calls the function again: the promise is kept at every point exactly
    if each rename that succeeds moves the full sample to a free path, or nothing else than what is
    there. -/
theorem samples_kept_iff (initial : Directory) (outcomes : List Outcome) :
    AllStates step (fun disk => Kept initial disk.dir) { dir := initial } outcomes ↔
      AllSteps step RenamesSample { dir := initial } outcomes :=
  allStates_iff_allSteps (fun _ h => h.kept)
    (fun _ _ _ _ h hs hrenames => going_step h hs hrenames)
    (fun _ _ _ _ h hs hkept => renamesSample_of_kept h hs hkept) (going_initial initial)

/-- The disk is full behind the fifth character of the first sample. -/
def shortWrite : List Outcome :=
  [.call, .directory true, .check false, .open true, .write 5, .close, .rename true]

theorem partial_sample :
    ¬ AllStates step (fun disk => Kept (fun _ => none) disk.dir) { dir := fun _ => none }
      shortWrite := by
  have hseen : (run step { dir := fun _ => none } shortWrite).toOption.map
      (fun r => r.1.dir "validator-sample-soft.cvpreset") =
        some (some (.file "CVP-P".toList)) := by
    decide +kernel
  refine not_allStates_of_seen (fun disk => disk.dir "validator-sample-soft.cvpreset") hseen
    fun disk hheld hkept => ?_
  rcases hkept _ List.mem_cons_self with hnone | ⟨-, hfull⟩
  · exact absurd (hheld.symm.trans hnone) (by decide)
  · exact absurd (hheld.symm.trans hfull) (by decide)

/-! ## Writes that get through -/

/-- Where `exists` has told the truth nothing is at the sample's path, and the temporary file holds
    what has been written. -/
def Written (disk : Disk) : Prop :=
  match disk.stage with
  | .opening sample _ => disk.dir sample.fileName = none
  | .writing sample left _ => disk.dir sample.fileName = none ∧
      ∃ front, disk.dir sample.tmp = some (.file front) ∧ front ++ left = sample.content
  | .renaming sample _ => disk.dir sample.fileName = none ∧
      disk.dir sample.tmp = some (.file sample.content)
  | _ => True

theorem written_proceed {dir : Directory} {rest : List SampleFile} {disk : Disk}
    {o : Option Bool}
    (hs : (.ok (proceed dir rest) : Except Unit (Disk × Option Bool)) = .ok (disk, o)) :
    Written disk := by
  have hdisk : (proceed dir rest).1 = disk := congrArg Prod.fst (Except.ok.inj hs)
  rw [← hdisk]
  cases rest with
  | nil => trivial
  | cons sample rest => trivial

theorem written_step {disk disk' : Disk} {outcome : Outcome} {o : Option Bool}
    (h : Written disk) (htable : ∀ sample ∈ disk.stage.samples, sample ∈ kSampleFiles)
    (hs : step disk outcome = .ok (disk', o)) (hthrough : GetsThrough disk outcome disk' o) :
    Written disk' := by
  unfold step at hs
  split at hs
  -- `kill`
  · cases hs
    trivial
  -- `call`
  · cases hs
    trivial
  -- `directory`
  · split at hs
    · exact written_proceed hs
    · cases hs
      trivial
  -- `check`
  · split at hs
    · split at hs
      · cases hs
      · exact written_proceed hs
    · rename_i hanswer
      cases hs
      exact hthrough.2 (congrArg _ (Bool.eq_false_iff.mpr hanswer)) _ _ rfl
  -- `open`
  · split at hs
    · split at hs
      · cases hs
      · cases hs
        have hsample := htable _ List.mem_cons_self
        refine ⟨?_, [], Function.update_self _ _ _, rfl⟩
        exact (Function.update_of_ne (tmp_ne_fileName hsample hsample) _ _).trans h
    · exact written_proceed hs
  -- `write`
  · split at hs
    · rename_i content hcontent
      cases hs
      have hsample := htable _ List.mem_cons_self
      obtain ⟨hfree, front, hfront, hwhole⟩ := h
      cases hfront.symm.trans hcontent
      refine ⟨?_, _, Function.update_self _ _ _, ?_⟩
      · exact (Function.update_of_ne (tmp_ne_fileName hsample hsample) _ _).trans hfree
      · rw [List.append_assoc, List.take_append_drop]
        exact hwhole
    · cases hs
  -- `close`
  · cases hs
    obtain ⟨hfree, front, hfront, hwhole⟩ := h
    have hall := hthrough.1 rfl _ _ _ rfl
    subst hall
    rw [List.append_nil] at hwhole
    exact ⟨hfree, hwhole ▸ hfront⟩
  -- `rename`
  · split at hs
    · split at hs
      · cases hs
      · exact written_proceed hs
    · cases hs
      trivial
  -- `remove`
  · exact written_proceed hs
  · cases hs

theorem renamesSample_of_written {disk disk' : Disk} {outcome : Outcome} {o : Option Bool}
    (h : Written disk) : RenamesSample disk outcome disk' o := by
  rintro - sample rest hstage
  unfold Written at h
  rw [hstage] at h
  exact .inr h

/-- The only outcomes that break the promise are a write that falls short and an `exists` that
    fails: opening, renaming and removing may fail, and the process may be killed. -/
theorem kept_of_outcomes (initial : Directory) {outcomes : List Outcome}
    (h : AllSteps step GetsThrough { dir := initial } outcomes) :
    AllStates step (fun disk => Kept initial disk.dir) { dir := initial } outcomes :=
  allStates_of_allSteps (I := fun disk => Going initial disk ∧ Written disk)
    (fun _ hdisk => hdisk.1.kept)
    (fun _ _ _ _ hdisk hs hthrough =>
      ⟨going_step hdisk.1 hs (renamesSample_of_written hdisk.2),
        written_step hdisk.2 hdisk.1.samples hs hthrough⟩)
    ⟨going_initial initial, trivial⟩ h

end Cvp.Preset
