/-
  `entry.cpp`, `registry.cpp` and `wrapper/earlylog.cpp`: the symbols of the DSO, called from any
  number of threads at once. One step is one operation on a `std::atomic`, together with the code
  up to the next one; a line in the early log belongs to the step that decides on it.

  The two depths count calls under way, each on a thread of its own, and are unbounded here.
  `gInitCount` also counts calls that follow one another: it is a 32-bit `int`, and `fetch_add`
  wraps. Of a plugin that `create_plugin` makes only the flavor is kept.
-/
import ClapValidatorPlugins.Lib.Interleaving
import ClapValidatorPlugins.Plugins.Registry

namespace Cvp

/-! ## The registry -/

namespace Flavor

/-- `descriptor.id`. -/
def id : Flavor → String
  | synth => "org.clap-validator.synth"
  | sidechainSynth => "org.clap-validator.sidechain-synth"
  | effect => "org.clap-validator.effect"
  | multiOutGen => "org.clap-validator.multiout-gen"
  | multiOutFx => "org.clap-validator.multiout-fx"
  | audioPortsZero => "org.clap-validator.audioports-zero"
  | slow => "org.clap-validator.slow"
  | hostCheck => "org.clap-validator.hostcheck"
  | noteFx => "org.clap-validator.notefx"
  | paramsZoo => "org.clap-validator.params"
  | preset => "org.clap-validator.preset"
  | surround => "org.clap-validator.surround"
  | gui => "org.clap-validator.gui"

end Flavor

namespace Entry

/-- `kEntries`, in a build with GUI. -/
def registryEntries : List Flavor :=
  [.effect, .noteFx, .synth, .sidechainSynth, .multiOutGen, .multiOutFx, .audioPortsZero, .slow,
    .hostCheck, .paramsZoo, .preset, .surround, .gui]

def registryFind (pluginId : Option String) : Option Flavor :=
  match pluginId with
  | none => none
  | some id => registryEntries.find? (·.id == id)

/-! ## What is reported -/

inductive EntryCode where
  | E01 | E02 | E03 | E04
  deriving DecidableEq, Repr

def EntryCode.text : EntryCode → String
  | .E01 => "E01" | .E02 => "E02" | .E03 => "E03" | .E04 => "E04"

/-- The arguments of one `reportEntry` call. -/
structure EntryFinding where
  code : EntryCode
  function : String
  detail : String
  deriving DecidableEq, Repr

/-- `kMaxLines` of the early log. -/
def kMaxLines : Nat := 64

/-- `earlylog::append`: the earliest lines matter most. -/
def appendEarly (log : List LogLine) (severity : LogSeverity) (message : String) : List LogLine :=
  if kMaxLines ≤ log.length then log else log ++ [⟨severity, snprintf 256 ("entry: " ++ message)⟩]

/-- `reportEntry`. -/
def reportEntry (log : List LogLine) (f : EntryFinding) : List LogLine :=
  appendEarly log .hostMisbehaving
    (snprintf 256 ("seq [" ++ f.code.text ++ "] " ++ f.function ++ ": " ++ f.detail))

/-! ## Memory and calls -/

/-- Two's complement at 32 bits. -/
def wrapInt32 (x : Int) : Int := (x + 2 ^ 31) % 2 ^ 32 - 2 ^ 31

/-- The DSO-level state. -/
structure Memory where
  initCount : Int := 0
  entryCallDepth : Int := 0
  otherCallDepth : Int := 0
  earlyLog : List LogLine := []

inductive EntryKind where
  | init | deinit
  deriving DecidableEq, Repr

/-- The symbols behind an `OtherCallScope`. -/
inductive Symbol where
  | getFactory (factoryId : Option String)
  | getPluginCount
  | getPluginDescriptor (index : Nat)
  | createPlugin (host : Option Host) (pluginId : Option String)

inductive Request where
  | entry (kind : EntryKind)
  | other (symbol : Symbol)

/-- Where an `init` or `deinit` stands: the next atomic operation. -/
inductive EntryPc where
  | announce | checkOther | count | decrement | leave | returned
  deriving DecidableEq, Repr

inductive Factory where
  | plugin | presetDiscovery
  deriving DecidableEq, Repr

/-- What the other symbols return. -/
inductive Reply where
  | factory (factory : Option Factory)
  | count (count : Nat)
  | flavor (flavor : Option Flavor)

inductive OtherPc where
  | announce | checkEntry | checkInitialized | leave
  | returned (reply : Reply)

inductive Place where
  | entry (kind : EntryKind) (pc : EntryPc)
  | other (symbol : Symbol) (pc : OtherPc)

/-- One call, with what it has reported so far. -/
structure Call where
  place : Place
  reported : List EntryFinding := []

/-! ## `entryInit`, `entryDeinit` -/

def EntryKind.function : EntryKind → String
  | .init => "entry.init()"
  | .deinit => "entry.deinit()"

/-- One step of either function: the memory without the early log, the next place and what is
    reported. They differ in what they do with `gInitCount`. -/
def entryStep (kind : EntryKind) (m : Memory) :
    EntryPc → Option (Memory × EntryPc × List EntryFinding)
  | .announce =>
    some ({ m with entryCallDepth := m.entryCallDepth + 1 }, .checkOther,
      if m.entryCallDepth > 0 then
        [⟨.E04, kind.function, "called concurrently with another entry call"⟩]
      else [])
  | .checkOther =>
    some (m, .count,
      if m.otherCallDepth > 0 then
        [⟨.E04, kind.function, "called concurrently with another CLAP symbol"⟩]
      else [])
  | .count =>
    match kind with
    | .init =>
      some ({ m with initCount := wrapInt32 (m.initCount + 1) }, .leave,
        if m.initCount > 0 then
          [⟨.E02, kind.function, snprintf 96
            s!"called again without a matching deinit() (count is now {m.initCount + 1})"⟩]
        else [])
    | .deinit =>
      if m.initCount = 0 then
        some (m, .leave, [⟨.E03, kind.function, "called without a matching successful init()"⟩])
      else some (m, .decrement, [])
  | .decrement =>
    match kind with
    | .init => none -- only a `deinit` gets here
    | .deinit => some ({ m with initCount := wrapInt32 (m.initCount - 1) }, .leave, [])
  | .leave => some ({ m with entryCallDepth := m.entryCallDepth - 1 }, .returned, [])
  | .returned => none

/-! ## The other symbols -/

/-- The name an `OtherCallScope` reports under. -/
def Symbol.scope : Symbol → String
  | .getFactory _ => "entry.get_factory()"
  | .getPluginCount => "plugin_factory.get_plugin_count()"
  | .getPluginDescriptor _ => "plugin_factory.get_plugin_descriptor()"
  | .createPlugin _ _ => "plugin_factory.create_plugin()"

/-- The name `checkInitialized` reports under. -/
def Symbol.function : Symbol → String
  | .getFactory factoryId =>
    snprintf 128 ("entry.get_factory(\"" ++ factoryId.getD "null" ++ "\")")
  | symbol => symbol.scope

/-- What is returned once the checks are made. -/
def Symbol.reply : Symbol → Reply
  | .getFactory factoryId => .factory <|
    if factoryId = some "clap.plugin-factory" then some .plugin
    else if factoryId = some "clap.preset-discovery-factory/2" ∨
        factoryId = some "clap.preset-discovery-factory/draft-2" then some .presetDiscovery
    else none
  | .getPluginCount => .count registryEntries.length
  | .getPluginDescriptor index => .flavor registryEntries[index]?
  | .createPlugin host pluginId => .flavor <|
    match host with
    | none => none
    | some host => if host.clapVersion.1 < 1 then none else registryFind pluginId

/-- One step of a symbol: `OtherCallScope`'s constructor, `checkInitialized`, the destructor. -/
def otherStep (symbol : Symbol) (m : Memory) :
    OtherPc → Option (Memory × OtherPc × List EntryFinding)
  | .announce => some ({ m with otherCallDepth := m.otherCallDepth + 1 }, .checkEntry, [])
  | .checkEntry =>
    some (m, .checkInitialized,
      if m.entryCallDepth > 0 then
        [⟨.E04, symbol.scope, "called concurrently with entry.init()/deinit()"⟩]
      else [])
  | .checkInitialized =>
    some (m, .leave,
      if m.initCount = 0 then
        [⟨.E01, symbol.function, "called before entry.init() (or after deinit())"⟩]
      else [])
  | .leave => some ({ m with otherCallDepth := m.otherCallDepth - 1 }, .returned symbol.reply, [])
  | .returned _ => none

/-! ## The program -/

def placeStep (m : Memory) : Place → Option (Memory × Place × List EntryFinding)
  | .entry kind pc => (entryStep kind m pc).map fun r => (r.1, .entry kind r.2.1, r.2.2)
  | .other symbol pc => (otherStep symbol m pc).map fun r => (r.1, .other symbol r.2.1, r.2.2)

/-- A step shows what it reports. -/
def program : Interleaving.Program Memory Request Call (List EntryFinding) where
  start
    | .entry kind => { place := .entry kind .announce }
    | .other symbol => { place := .other symbol .announce }
  step m c := (placeStep m c.place).map fun r =>
    ({ r.1 with earlyLog := r.2.2.foldl reportEntry r.1.earlyLog },
      { place := r.2.1, reported := c.reported ++ r.2.2 }, r.2.2)

abbrev Pool := Interleaving.Pool Memory Call

/-- The DSO as it is loaded. -/
def loaded : Pool := { shared := {} }

/-- Any number of calls, in any interleaving. -/
def Reachable (pool : Pool) : Prop := Machine.Reachable program.next loaded pool

end Entry

end Cvp
