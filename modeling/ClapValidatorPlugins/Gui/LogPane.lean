/-
  The log pane of the three native views: `tick`, the part of it that is about the log, and
  `copyLog`. Any thread appends to the log while the view compares versions, takes a snapshot and
  draws it; the log's mutex is held for each of these by itself. The Win32 and Mac views draw the
  whole snapshot, the X11 view the last lines it finds room for.
-/
import ClapValidatorPlugins.Lib.Polling
import ClapValidatorPlugins.Wrapper.LogBuffer

namespace Cvp.LogPane

open Machine

inductive Platform where
  | mac | win32 | x11
  deriving DecidableEq, Repr

/-- What `copyLog` joins the lines with. -/
def Platform.lineEnd : Platform → String
  | .win32 => "\r\n"
  | .mac | .x11 => "\n"

/-- Where the view's thread is. -/
inductive Phase where
  | idle
  /-- in `tick`, behind the comparison of the versions -/
  | drawing
  /-- in `copyLog`, which has `copied` lines -/
  | copying (copied : Nat)
  deriving DecidableEq, Repr

structure Pane where
  log : LogBuffer := {}
  logVersion : UInt64 := UInt64.ofNat (2 ^ 64 - 1)
  /-- `_dirty` on X11; elsewhere whether the versions differed -/
  dirty : Bool
  /-- `shutdown`, or `_windowDead` -/
  closed : Bool := false
  phase : Phase := .idle
  shown : Option (List String) := none
  /-- the room `redraw` has found last, on X11 -/
  visibleLines : Int := 0
  clipboard : Option String := none

/-- The view as it is constructed. -/
def construct (platform : Platform) : Pane := { dirty := platform == .x11 }

inductive Act where
  /-- a line from any thread -/
  | append (e : LogBuffer.Entry)
  /-- X11: an event or another part of `tick` sets `_dirty` -/
  | dirtied
  | look
  /-- the end of `tick`, in a pane with room for `visibleLines` -/
  | draw (visibleLines : Int)
  /-- `copyLog` up to its own line -/
  | copy
  /-- the line, at the time `now` -/
  | noteCopied (now : Int)
  | close

/-- The first line `redraw` draws; `visibleLines` is an `int`, and is compared as a `size_t`. -/
def first (size : Nat) (visibleLines : Int) : Nat :=
  let visible := (visibleLines % 2 ^ 64).toNat
  if visible < size then size - visible else 0

/-- What is drawn of a snapshot. -/
def linesDrawn (platform : Platform) (visibleLines : Int) (lines : List String) : List String :=
  match platform with
  | .x11 => lines.drop (first lines.length visibleLines)
  | .win32 | .mac => lines

def joined (platform : Platform) (lines : List String) : String :=
  String.join (lines.map (· ++ platform.lineEnd))

def copiedLine (now : Int) (copied : Nat) : LogBuffer.Entry :=
  { now := now
    severity := .info
    message := some (snprintf 64 s!"gui: copied {copied} log lines to clipboard") }

def step (platform : Platform) : Step Pane Act Unit Unit
  | p, .append e => .ok ({ p with log := p.log.append e }, ())
  | p, .dirtied => if platform = .x11 then .ok ({ p with dirty := true }, ()) else .error ()
  | p, .look =>
    if p.phase = .idle ∧ p.closed = false then
      .ok ({ p with
        logVersion := p.log.version
        dirty := p.dirty || decide (p.log.version ≠ p.logVersion)
        phase := .drawing }, ())
    else .error ()
  | p, .draw visibleLines =>
    if p.phase = .drawing then
      .ok ({ p with
        shown :=
          if p.dirty then some (linesDrawn platform visibleLines p.log.snapshot) else p.shown
        visibleLines := if p.dirty then visibleLines else p.visibleLines
        dirty := false
        phase := .idle }, ())
    else .error ()
  | p, .copy =>
    if p.phase = .idle ∧ p.closed = false then
      .ok ({ p with
        clipboard := some (joined platform p.log.snapshot)
        phase := .copying p.log.snapshot.length }, ())
    else .error ()
  | p, .noteCopied now =>
    match p.phase with
    | .copying copied =>
      .ok ({ p with
        log := p.log.append (copiedLine now copied)
        dirty := p.dirty || (platform == .x11)
        phase := .idle }, ())
    | .idle | .drawing => .error ()
  | p, .close => if p.phase = .idle then .ok ({ p with closed := true }, ()) else .error ()

/-! ## What is appended -/

/-- What a step appends. -/
def appended (p : Pane) : Act → List LogBuffer.Entry
  | .append e => [e]
  | .noteCopied now =>
    match p.phase with
    | .copying copied => [copiedLine now copied]
    | .idle | .drawing => []
  | .dirtied | .look | .draw _ | .copy | .close => []

def Act.appends : Act → Bool
  | .append _ | .noteCopied _ => true
  | .dirtied | .look | .draw _ | .copy | .close => false

/-- The view with all that was appended to its log so far. -/
def recorded (platform : Platform) : Step (Pane × List LogBuffer.Entry) Act Unit Unit :=
  remembering (step platform) fun written p act _ => written ++ appended p act

/-- The log as the view polls it. -/
def feed : Polling.Feed LogBuffer.Entry (List String) UInt64 where
  contents entries := (LogBuffer.behind entries).snapshot
  version entries := (LogBuffer.behind entries).version

def Phase.polling : Phase → Polling.Phase
  | .drawing => .drawing
  | .idle | .copying _ => .idle

/-- The poller in the view, if `taken` is the snapshot the pane was drawn from. -/
def polled (r : Pane × List LogBuffer.Entry) (taken : Option (List String)) :
    Polling.State LogBuffer.Entry (List String) UInt64 where
  written := r.2
  seen := r.1.logVersion
  due := r.1.dirty
  phase := r.1.phase.polling
  shown := taken

/-- The pane was drawn from `taken`. -/
def DrawnFrom (platform : Platform) (taken : Option (List String)) (p : Pane) : Prop :=
  p.shown = taken.map (linesDrawn platform p.visibleLines)

/-- A step of the view as steps of the poller. -/
def movesOf (platform : Platform) (p : Pane) : Act → List (Polling.Move LogBuffer.Entry)
  | .append e => [.write e]
  | .dirtied => [.mark]
  | .look => [.look]
  | .draw _ => [.draw]
  | .noteCopied now =>
    (appended p (.noteCopied now)).map .write ++ if platform = .x11 then [.mark] else []
  | .copy | .close => []

/-- The log is what its appends make of it. -/
def Logged (r : Pane × List LogBuffer.Entry) : Prop := r.1.log = LogBuffer.behind r.2

section Steps

variable {platform : Platform} {r r' : Pane × List LogBuffer.Entry} {act : Act} {o : Unit}

theorem recorded_ok (h : recorded platform r act = .ok (r', o)) :
    step platform r.1 act = .ok (r'.1, o) ∧ r'.2 = r.2 ++ appended r.1 act := remembering_ok h

/-- Everything a step does to the log. -/
theorem log_of_step {p p' : Pane} (h : step platform p act = .ok (p', o)) :
    p'.log = (appended p act).foldl LogBuffer.append p.log := by
  cases act with
  | append e =>
    cases h
    rfl
  | dirtied | look | draw | copy | close =>
    rw [step] at h
    split at h
    · cases h
      rfl
    · cases h
  | noteCopied now =>
    rw [step] at h
    split at h
    · rename_i copied hphase
      cases h
      rw [appended, hphase]
      rfl
    · cases h
    · cases h

theorem logged_step (hlog : Logged r) (h : recorded platform r act = .ok (r', o)) :
    Logged r' := by
  obtain ⟨hs, hwritten⟩ := recorded_ok h
  rw [Logged, log_of_step hs, hwritten, hlog]
  exact List.foldl_append.symm

/-- A step of the view is a run of the poller. -/
theorem polled_step {taken : Option (List String)} (hlog : Logged r)
    (hdrawn : DrawnFrom platform taken r.1) (h : recorded platform r act = .ok (r', o)) :
    ∃ os taken', run (Polling.step feed) (polled r taken) (movesOf platform r.1 act) =
      .ok (polled r' taken', os) ∧ DrawnFrom platform taken' r'.1 := by
  obtain ⟨p, written⟩ := r
  obtain ⟨p', written'⟩ := r'
  obtain ⟨hs, hwritten⟩ := recorded_ok h
  dsimp only [Logged] at hlog hdrawn hs hwritten
  subst hwritten
  cases act with
  | append e =>
    cases hs
    exact ⟨[()], taken, rfl, hdrawn⟩
  | dirtied =>
    rw [step] at hs
    split at hs
    · cases hs
      refine ⟨[()], taken, ?_, hdrawn⟩
      simp [movesOf, run, Polling.step, polled, appended]
    · cases hs
  | look =>
    rw [step] at hs
    split at hs
    · rename_i hopen
      cases hs
      refine ⟨[()], taken, ?_, hdrawn⟩
      simp [movesOf, run, Polling.step, polled, appended, hopen.1, Phase.polling, feed, hlog]
    · cases hs
  | draw visibleLines =>
    rw [step] at hs
    split at hs
    · rename_i hdrawing
      cases hs
      refine ⟨[()], if p.dirty then some p.log.snapshot else taken, ?_, ?_⟩
      · simp [movesOf, run, Polling.step, polled, appended, hdrawing, Phase.polling, feed, hlog]
      · cases hdirty : p.dirty with
        | true => simp [DrawnFrom]
        | false => simpa [DrawnFrom] using hdrawn
    · cases hs
  | copy =>
    rw [step] at hs
    split at hs
    · rename_i hopen
      cases hs
      refine ⟨[], taken, ?_, hdrawn⟩
      simp [movesOf, run, polled, appended, hopen.1, Phase.polling]
    · cases hs
  | noteCopied now =>
    rw [step] at hs
    split at hs
    · rename_i copied hphase
      cases hs
      by_cases hx11 : platform = .x11
      · refine ⟨[(), ()], taken, ?_, hdrawn⟩
        simp [movesOf, run, Polling.step, polled, appended, hphase, Phase.polling, hx11]
      · refine ⟨[()], taken, ?_, hdrawn⟩
        simp [movesOf, run, Polling.step, polled, appended, hphase, Phase.polling, hx11]
    · cases hs
    · cases hs
  | close =>
    rw [step] at hs
    split at hs
    · cases hs
      refine ⟨[], taken, ?_, hdrawn⟩
      simp [movesOf, run, polled, appended]
    · cases hs

/-- What appends nothing writes nothing. -/
theorem movesOf_quiet {p : Pane} (hact : act.appends = false) :
    ∀ move ∈ movesOf platform p act, move.isWrite = false := by
  cases act with
  | append e => cases hact
  | noteCopied now => cases hact
  | dirtied | look | draw => simp [movesOf, Polling.Move.isWrite]
  | copy | close => simp [movesOf]

/-- A run of the view is a run of the poller. -/
theorem polled_run {acts : List Act} {os : List Unit} {taken : Option (List String)}
    (hlog : Logged r) (hdrawn : DrawnFrom platform taken r.1)
    (h : run (recorded platform) r acts = .ok (r', os)) :
    Logged r' ∧ ∃ moves os' taken',
      run (Polling.step feed) (polled r taken) moves = .ok (polled r' taken', os') ∧
      DrawnFrom platform taken' r'.1 ∧
      ((∀ act ∈ acts, act.appends = false) → ∀ move ∈ moves, move.isWrite = false) := by
  have hstep : ∀ (r : Pane × List LogBuffer.Entry) s act r' (o : Unit),
      (Logged r ∧ ∃ taken, s = polled r taken ∧ DrawnFrom platform taken r.1) →
      recorded platform r act = .ok (r', o) →
      ∃ moves os' s', run (Polling.step feed) s moves = .ok (s', os') ∧
        (Logged r' ∧ ∃ taken, s' = polled r' taken ∧ DrawnFrom platform taken r'.1) ∧
        (act.appends = false → ∀ move ∈ moves, move.isWrite = false) := by
    rintro r s act r' o ⟨hlog, taken, rfl, hdrawn⟩ hs
    obtain ⟨os, taken', hrun, hdrawn'⟩ := polled_step hlog hdrawn hs
    exact ⟨_, os, _, hrun, ⟨logged_step hlog hs, taken', rfl, hdrawn'⟩, movesOf_quiet⟩
  obtain ⟨moves, os', s, hrun, ⟨hlog', taken', rfl, hdrawn'⟩, hquiet⟩ :=
    run_refined hstep ⟨hlog, taken, rfl, hdrawn⟩ h
  exact ⟨hlog', moves, os', taken', hrun, hdrawn', hquiet⟩

end Steps

/-! ## What the pane shows -/

/-- The view and its log, with nothing appended. -/
def opened (platform : Platform) : Pane × List LogBuffer.Entry := (construct platform, [])

theorem logged_opened (platform : Platform) : Logged (opened platform) := rfl

theorem drawnFrom_opened (platform : Platform) :
    DrawnFrom platform none (opened platform).1 := rfl

/-- The lines of the last 400 appends. -/
def lastLines (entries : List LogBuffer.Entry) : List String :=
  LogBuffer.lastOf LogBuffer.kMaxLines (LogBuffer.linesFrom (-1) entries)

theorem feed_contents (entries : List LogBuffer.Entry) :
    feed.contents entries = lastLines entries := (LogBuffer.snapshot_behind entries).1

/-- Below 2^64 - 1 appends no version comes twice, and none is the one the view starts with. -/
theorem fresh_of_length {entries : List LogBuffer.Entry} (h : entries.length < 2 ^ 64 - 1) :
    Polling.Fresh feed (UInt64.ofNat (2 ^ 64 - 1)) entries := by
  have hversion : ∀ front, feed.version front = UInt64.ofNat front.length :=
    fun front => (LogBuffer.snapshot_behind front).2
  have hsame : ∀ m n : Nat, m < 2 ^ 64 → n < 2 ^ 64 → UInt64.ofNat m = UInt64.ofNat n → m = n := by
    intro m n hm hn heq
    have := congrArg UInt64.toNat heq
    rwa [UInt64.toNat_ofNat_of_lt' hm, UInt64.toNat_ofNat_of_lt' hn] at this
  refine ⟨fun heq => ?_, fun front hfront heq => ?_⟩
  · rw [hversion] at heq
    have := hsame _ _ (by omega) (by omega) heq
    omega
  · rw [hversion, hversion] at heq
    have hle := hfront.length_le
    exact hfront.eq_of_length (hsame _ _ (by omega) (by omega) heq)

theorem tracks_opened (platform : Platform) :
    Polling.Tracks feed (UInt64.ofNat (2 ^ 64 - 1)) (polled (opened platform) none) :=
  Polling.Tracks.initial (s := polled (opened platform) none) rfl

/-- On every platform, for every order of appends, ticks and copies: once a tick is through that no
    append overlaps or follows, the pane shows the last 400 lines, in the order of the appends; on
    X11 those of them that the last redraw has found room for. -/
theorem pane_shows_last_lines {platform : Platform} {front back : List Act}
    {r : Pane × List LogBuffer.Entry} {os : List Unit}
    (hrun : run (recorded platform) (opened platform) (front ++ .look :: back) = .ok (r, os))
    (hquiet : ∀ act ∈ back, act.appends = false) (hlength : r.2.length < 2 ^ 64 - 1)
    (hidle : r.1.phase = .idle) :
    r.1.shown = some (linesDrawn platform r.1.visibleLines (lastLines r.2)) := by
  obtain ⟨r₁, os₁, os₂, hfront, hback, -⟩ := run_append_ok hrun
  obtain ⟨r₂, o, os₃, hlook, hrest, -⟩ := run_cons_ok hback
  obtain ⟨hlog₁, moves₁, os₁', taken₁, hmoves₁, hdrawn₁, -⟩ :=
    polled_run (logged_opened platform) (drawnFrom_opened platform) hfront
  obtain ⟨osl, taken₂, hmovesl, hdrawn₂⟩ := polled_step hlog₁ hdrawn₁ hlook
  obtain ⟨hlog, moves₂, os₂', taken, hmoves₂, hdrawn, hquiet'⟩ :=
    polled_run (logged_step hlog₁ hlook) hdrawn₂ hrest
  have hturns := run_append hmoves₁ (run_append hmovesl hmoves₂)
  have hphase : (polled r taken).phase = .idle := by
    show r.1.phase.polling = _
    rw [hidle]
    rfl
  have htaken : taken = some (feed.contents r.2) :=
    Polling.shown_contents (tracks_opened platform) hturns (hquiet' hquiet)
      (fresh_of_length hlength) hphase
  rw [hdrawn, htaken, feed_contents]
  rfl

/-- The X11 view finds room for one line. -/
theorem pane_shows_last_lines_of_one : ∃ r os,
    run (recorded .x11) (opened .x11)
      ([.append ⟨5, .info, some "gui: show()"⟩, .append ⟨9, .info, some "gui: hide()"⟩] ++
        .look :: [.draw 1]) = .ok (r, os) ∧
    r.1.visibleLines = 1 ∧
    r.1.shown = some (linesDrawn .x11 r.1.visibleLines (lastLines r.2)) :=
  ⟨_, _, rfl, rfl, @pane_shows_last_lines .x11
    [.append ⟨5, .info, some "gui: show()"⟩, .append ⟨9, .info, some "gui: hide()"⟩] [.draw 1] _ _
    rfl (by decide) (by decide) rfl⟩

/-- What the pane shows was drawn from what was at some time the last 400 lines, and later it shows
    the lines of a time that is no earlier. -/
theorem pane_never_goes_back {platform : Platform} {acts later : List Act}
    {r r' : Pane × List LogBuffer.Entry} {os os' : List Unit} {lines : List String}
    (hrun : run (recorded platform) (opened platform) acts = .ok (r, os))
    (hlater : run (recorded platform) r later = .ok (r', os')) (hshown : r.1.shown = some lines) :
    ∃ drawn drawn', drawn <+: drawn' ∧ drawn' <+: r'.2 ∧
      lines = linesDrawn platform r.1.visibleLines (lastLines drawn) ∧
      r'.1.shown = some (linesDrawn platform r'.1.visibleLines (lastLines drawn')) := by
  obtain ⟨hlog, moves, osm, taken, hmoves, hdrawn, -⟩ :=
    polled_run (logged_opened platform) (drawnFrom_opened platform) hrun
  obtain ⟨-, moves', osm', taken', hmoves', hdrawn', -⟩ := polled_run hlog hdrawn hlater
  obtain ⟨contents, rfl, hlines⟩ := Option.map_eq_some_iff.mp (hdrawn.symm.trans hshown)
  obtain ⟨drawn, hfront, rfl⟩ := ((tracks_opened platform).run hmoves).shown contents rfl
  obtain ⟨drawn', hforth, hfront', htaken'⟩ := Polling.shown_later hfront rfl hmoves'
  refine ⟨drawn, drawn', hforth, hfront', ?_, ?_⟩
  · rw [← hlines, feed_contents]
  · rw [hdrawn', show taken' = some (feed.contents drawn') from htaken', feed_contents]
    rfl

theorem pane_never_goes_back_on_draw : ∃ r r' os os',
    run (recorded .x11) (opened .x11) [.look, .draw 10] = .ok (r, os) ∧
    run (recorded .x11) r [.append ⟨5, .info, some "gui: show()"⟩, .look, .draw 10] =
      .ok (r', os') ∧
    ∃ drawn drawn', drawn <+: drawn' ∧ drawn' <+: r'.2 ∧
      [] = linesDrawn .x11 r.1.visibleLines (lastLines drawn) ∧
      r'.1.shown = some (linesDrawn .x11 r'.1.visibleLines (lastLines drawn')) :=
  ⟨_, _, _, _, rfl, rfl, @pane_never_goes_back .x11 [.look, .draw 10]
    [.append ⟨5, .info, some "gui: show()"⟩, .look, .draw 10] _ _ _ _ [] rfl rfl rfl⟩

/-! ## The clipboard -/

/-- The clipboard has what the log had at some time, and the line that `copyLog` is about to append
    tells its number of lines. -/
def Clipped (platform : Platform) (r : Pane × List LogBuffer.Entry) : Prop :=
  Logged r ∧ (∀ text, r.1.clipboard = some text → ∃ taken, taken <+: r.2 ∧
      text = joined platform (lastLines taken)) ∧
    ∀ copied, r.1.phase = .copying copied → ∃ taken, taken <+: r.2 ∧
      r.1.clipboard = some (joined platform (lastLines taken)) ∧
      copied = (lastLines taken).length

theorem clipped_step {platform : Platform} {r r' : Pane × List LogBuffer.Entry} {act : Act}
    {o : Unit} (hr : Clipped platform r) (h : recorded platform r act = .ok (r', o)) :
    Clipped platform r' := by
  obtain ⟨hlog, htext, hcopying⟩ := hr
  have hlog' := logged_step hlog h
  obtain ⟨p, written⟩ := r
  obtain ⟨p', written'⟩ := r'
  obtain ⟨hs, hwritten⟩ := recorded_ok h
  dsimp only at hs hwritten htext hcopying
  have hmore : written <+: written' := hwritten ▸ List.prefix_append _ _
  refine ⟨hlog', ?_⟩
  have hkept : p'.clipboard = p.clipboard → p'.phase = p.phase ∨ p'.phase = .idle ∨
      p'.phase = .drawing → (∀ text, p'.clipboard = some text → ∃ taken, taken <+: written' ∧
        text = joined platform (lastLines taken)) ∧
      ∀ copied, p'.phase = .copying copied → ∃ taken, taken <+: written' ∧
        p'.clipboard = some (joined platform (lastLines taken)) ∧
        copied = (lastLines taken).length := by
    intro hclip hphase
    rw [hclip]
    refine ⟨fun text ht => ?_, fun copied hc => ?_⟩
    · obtain ⟨taken, htaken, heq⟩ := htext text ht
      exact ⟨taken, htaken.trans hmore, heq⟩
    · rw [hc] at hphase
      obtain ⟨taken, htaken, heq⟩ := hcopying copied (by simpa [eq_comm] using hphase)
      exact ⟨taken, htaken.trans hmore, heq⟩
  cases act with
  | append e =>
    cases hs
    exact hkept rfl (.inl rfl)
  | dirtied | look | draw | close =>
    rw [step] at hs
    split at hs
    · cases hs
      exact hkept rfl (by simp)
    · cases hs
  | copy =>
    rw [step] at hs
    split at hs
    · cases hs
      have htaken : p.log.snapshot = lastLines written := by
        rw [show p.log = LogBuffer.behind written from hlog]
        exact feed_contents written
      refine ⟨fun text ht => ⟨written, hmore, ?_⟩, fun copied hc => ⟨written, hmore, ?_, ?_⟩⟩
      · rw [← htaken]
        exact (Option.some.inj ht).symm
      · rw [← htaken]
      · rw [← htaken]
        exact (Phase.copying.inj hc).symm
    · cases hs
  | noteCopied now =>
    rw [step] at hs
    split at hs
    · cases hs
      exact hkept rfl (.inr (.inl rfl))
    · cases hs
    · cases hs

/-- The line of a copy gives the number of lines in the clipboard, however many were appended in
    between. -/
theorem copied_line_counts {platform : Platform} {acts : List Act} {now : Int}
    {r r' : Pane × List LogBuffer.Entry} {os : List Unit} {o : Unit}
    (hrun : run (recorded platform) (opened platform) acts = .ok (r, os))
    (h : recorded platform r (.noteCopied now) = .ok (r', o)) :
    ∃ taken, taken <+: r.2 ∧ r'.1.clipboard = some (joined platform (lastLines taken)) ∧
      r'.2 = r.2 ++ [copiedLine now (lastLines taken).length] := by
  have hopened : Clipped platform (opened platform) :=
    ⟨logged_opened platform, fun text ht => absurd ht (Option.some_ne_none text).symm,
      fun copied hc => Phase.noConfusion hc⟩
  have hr : Clipped platform r :=
    run_invariant (fun _ _ _ _ hr hs => clipped_step hr hs) hopened hrun
  obtain ⟨hs, hwritten⟩ := recorded_ok h
  rw [step] at hs
  split at hs
  · rename_i copied hphase
    obtain ⟨taken, htaken, hclip, hcopied⟩ := hr.2.2 copied hphase
    rw [appended, hphase] at hwritten
    have hclip' : r'.1.clipboard = r.1.clipboard := by
      rw [← (Prod.mk.inj (Except.ok.inj hs)).1]
    exact ⟨taken, htaken, hclip'.trans hclip, hcopied ▸ hwritten⟩
  · cases hs
  · cases hs

end Cvp.LogPane
