/-
  `plugins/preset/preset_discovery.cpp`: the provider's two flags around the `declare_*()` calls of
  `providerInit`. The indexer has control between two calls on the provider and inside each
  `declare_*()` call, from where it may call the provider again, to any depth; a step is the
  provider's code up to the point where the indexer has control again. `get_metadata` reads the
  flags on entry only, so what its receiver calls counts as called right behind it.

  `get_metadata` and `get_extension` report every misuse, and `init()` a second run, but a run
  inside a running one goes unreported: until it is through no flag of it is up
  (`reentrancy_reported_iff`).

  Left out: the metadata itself, and the declared texts.
-/
import ClapValidatorPlugins.Lib.Machine

namespace Cvp.Provider

/-! ## The provider -/

/-- The `declare_*()` call a running `providerInit` is in; in the first it still has to decide on
    the second, which it makes if the preset directory is there (`declaresFile`). -/
inductive Declare where
  | filetype (declaresFile : Bool)
  | fileLocation
  | pluginLocation
  deriving DecidableEq, Repr

structure Memory where
  /-- set once `init()` completed -/
  initialized : Bool := false
  /-- set around `declare_*()` calls into the indexer -/
  inDeclare : Bool := false
  /-- the runs of `providerInit` under way, the innermost first -/
  running : List Declare := []
  deriving DecidableEq, Repr

/-- The arguments of one `reportProviderMisuse` call. -/
structure Misuse where
  function : String
  detail : String
  deriving DecidableEq, Repr

/-- What comes out of a step: what it reports, and what a run of `init()` that ends in it
    returns. -/
structure Reply where
  reported : List Misuse := []
  initReturned : Option Bool := none
  deriving DecidableEq, Repr

/-- `p->inDeclare = true` and the call. -/
def enterDeclare (m : Memory) (declare : Declare) : Memory :=
  { m with inDeclare := true, running := declare :: m.running }

/-- `providerInit` up to the first `declare_*()` call. -/
def providerInit (m : Memory) (declaresFile : Bool) : Memory × Reply :=
  if m.initialized then
    (m, { reported := [⟨"provider.init()", "called twice on the same provider"⟩]
          initReturned := some true })
  else (enterDeclare m (.filetype declaresFile), {})

/-- `providerInit` from the return of the call `declare` on; `m` has the other runs. -/
def resumeInit (m : Memory) (declare : Declare) (accepted : Bool) : Memory × Reply :=
  let m := { m with inDeclare := false }
  match declare with
  | .filetype declaresFile =>
    if !accepted then (m, { initReturned := some false })
    else if declaresFile then (enterDeclare m .fileLocation, {})
    else (enterDeclare m .pluginLocation, {})
  -- a rejected FILE location is not fatal
  | .fileLocation => (enterDeclare m .pluginLocation, {})
  | .pluginLocation => ({ m with initialized := accepted }, { initReturned := some accepted })

def providerGetMetadata (m : Memory) : Memory × Reply :=
  (m, { reported :=
    if !m.initialized then [⟨"provider.get_metadata()", "called before provider init()"⟩]
    else if m.inDeclare then
      [⟨"provider.get_metadata()", "re-entered from within a declare_*() call"⟩]
    else [] })

def providerGetExtension (m : Memory) : Memory × Reply :=
  (m, { reported :=
    if !m.initialized then [⟨"provider.get_extension()", "called before provider init()"⟩]
    else [] })

/-! ## The indexer -/

/-- What the indexer does next. -/
inductive Act where
  | init (declaresFile : Bool)
  | getMetadata
  | getExtension
  /-- return from the `declare_*()` call it is in -/
  | answer (accepted : Bool)
  deriving DecidableEq, Repr

/-- Outside of every `declare_*()` call there is none to return from. -/
def step : Machine.Step Memory Act Reply Unit
  | m, .init declaresFile => .ok (providerInit m declaresFile)
  | m, .getMetadata => .ok (providerGetMetadata m)
  | m, .getExtension => .ok (providerGetExtension m)
  | m, .answer accepted =>
    match m.running with
    | [] => .error ()
    | declare :: rest => .ok (resumeInit { m with running := rest } declare accepted)

/-- Whether some run of `init()` has returned true. -/
def everInitialized (before : Bool) (_ : Memory) (_ : Act) (o : Reply) : Bool :=
  before || o.initReturned == some true

/-- The provider with that memory. -/
def watchedStep : Machine.Step (Memory × Bool) Act Reply Unit :=
  Machine.remembering step everInitialized

/-- PD01: a call from within a `declare_*()` call, an `init()` behind one that returned true, and
    any other call before that. -/
def isMisuse (s : Memory × Bool) (a : Act) : Bool :=
  match a with
  | .init _ => !s.1.running.isEmpty || s.2
  | .getMetadata | .getExtension => !s.1.running.isEmpty || !s.2
  | .answer _ => false

/-- Exactly one finding for a misuse, and none otherwise. -/
def Exact (s : Memory × Bool) (a : Act) (_ : Memory × Bool) (o : Reply) : Prop :=
  o.reported.length = if isMisuse s a then 1 else 0

/-- No `init()` while one is running. -/
def OneInit (s : Memory × Bool) (a : Act) (_ : Memory × Bool) (_ : Reply) : Prop :=
  ∀ declaresFile, a = .init declaresFile → s.1.running = []

/-! ## What the flags say -/

/-- As long as no `init()` is called while one is running: `initialized` is up if one has returned
    true, and down while one is running; `inDeclare` is up while one is running. -/
structure Settled (s : Memory × Bool) : Prop where
  initialized : s.1.initialized = s.2
  inDeclare : s.1.inDeclare = !s.1.running.isEmpty
  alone : s.1.running = [] ∨ ∃ declare, s.1.running = [declare] ∧ s.1.initialized = false

theorem resumeInit_reported (m : Memory) (declare : Declare) (accepted : Bool) :
    (resumeInit m declare accepted).2.reported = [] := by
  cases declare with
  | filetype declaresFile => cases accepted <;> cases declaresFile <;> rfl
  | fileLocation => rfl
  | pluginLocation => rfl

theorem exact_iff (s : Memory × Bool) (a : Act) (s' : Memory × Bool) (o : Reply)
    (h : Settled s) (hstep : watchedStep s a = .ok (s', o)) :
    Exact s a s' o ↔ OneInit s a s' o := by
  obtain ⟨hcall, -⟩ := Machine.remembering_ok hstep
  obtain ⟨⟨initialized, inDeclare, running⟩, returned⟩ := s
  obtain ⟨hinit, hdeclare, halone⟩ := h
  dsimp only at hinit hdeclare halone hcall
  subst hinit hdeclare
  unfold Exact OneInit isMisuse
  cases a with
  | init declaresFile =>
    obtain rfl : (providerInit _ declaresFile).2 = o := congrArg Prod.snd (Except.ok.inj hcall)
    rcases halone with rfl | ⟨declare, rfl, rfl⟩
    · cases initialized <;> simp [providerInit]
    · simp [providerInit]
  | getMetadata =>
    obtain rfl : (providerGetMetadata _).2 = o := congrArg Prod.snd (Except.ok.inj hcall)
    rcases halone with rfl | ⟨declare, rfl, rfl⟩
    · cases initialized <;> simp [providerGetMetadata]
    · simp [providerGetMetadata]
  | getExtension =>
    obtain rfl : (providerGetExtension _).2 = o := congrArg Prod.snd (Except.ok.inj hcall)
    rcases halone with rfl | ⟨declare, rfl, rfl⟩
    · cases initialized <;> simp [providerGetExtension]
    · simp [providerGetExtension]
  | answer accepted =>
    cases running with
    | nil => cases hcall
    | cons declare rest =>
      have ho : (resumeInit { initialized, inDeclare := true, running := rest } declare
          accepted).2 = o := congrArg Prod.snd (Except.ok.inj hcall)
      rw [← ho, resumeInit_reported]
      simp

theorem settled_step (s : Memory × Bool) (a : Act) (s' : Memory × Bool) (o : Reply)
    (h : Settled s) (hstep : watchedStep s a = .ok (s', o)) (hone : OneInit s a s' o) :
    Settled s' := by
  obtain ⟨hcall, hmemory⟩ := Machine.remembering_ok hstep
  obtain ⟨⟨initialized, inDeclare, running⟩, returned⟩ := s
  obtain ⟨m', returned'⟩ := s'
  obtain ⟨hinit, hdeclare, halone⟩ := h
  dsimp only at hinit hdeclare halone hcall hmemory
  subst hinit hdeclare hmemory
  cases a with
  | init declaresFile =>
    obtain rfl : running = [] := hone declaresFile rfl
    cases initialized with
    | true =>
      cases hcall
      exact ⟨rfl, rfl, .inl rfl⟩
    | false =>
      cases hcall
      exact ⟨rfl, rfl, .inr ⟨_, rfl, rfl⟩⟩
  | getMetadata =>
    cases hcall
    exact ⟨by simp [everInitialized], rfl, halone⟩
  | getExtension =>
    cases hcall
    exact ⟨by simp [everInitialized], rfl, halone⟩
  | answer accepted =>
    rcases halone with rfl | ⟨declare, rfl, rfl⟩
    · cases hcall
    · -- the run goes on to its next `declare_*()` call or ends
      cases declare with
      | filetype declaresFile =>
        cases accepted with
        | false =>
          cases hcall
          exact ⟨rfl, rfl, .inl rfl⟩
        | true =>
          cases declaresFile <;> cases hcall <;> exact ⟨rfl, rfl, .inr ⟨_, rfl, rfl⟩⟩
      | fileLocation =>
        cases hcall
        exact ⟨rfl, rfl, .inr ⟨_, rfl, rfl⟩⟩
      | pluginLocation =>
        cases hcall
        cases accepted <;> exact ⟨rfl, rfl, .inl rfl⟩

/-- Whatever the indexer does: each of its calls is reported exactly if it is a misuse, all along,
    if and only if it never calls `init()` while one is running. -/
theorem reentrancy_reported_iff (acts : List Act) :
    Machine.AllSteps watchedStep Exact ({}, false) acts ↔
      Machine.AllSteps watchedStep OneInit ({}, false) acts :=
  Machine.allSteps_congr (I := Settled) exact_iff settled_step ⟨rfl, rfl, .inl rfl⟩ acts

/-- An `init()` inside the first `declare_*()` call goes unreported; once it is through, so does
    everything else inside that call. -/
theorem reentrancy_unreported :
    let acts : List Act := [.init false, .init false, .answer true, .answer true, .getExtension,
      .getMetadata]
    (Machine.run watchedStep ({}, false) acts).map (fun r => r.2.map (·.reported)) =
        .ok [[], [], [], [], [], []] ∧
      (Machine.run watchedStep ({}, false) (acts.take 4)).map (fun r => r.1.1.running) =
        .ok [.filetype false] := by
  decide

end Cvp.Provider
