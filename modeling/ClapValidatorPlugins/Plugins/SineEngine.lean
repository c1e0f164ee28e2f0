/-
  `plugins/common/sine_engine.h` and `sine_engine.cpp`: the eight-voice sine engine of the two
  synth flavors. `-1` in a note address is a wildcard. `renderImpl` writes through channel
  pointers; its sample index is a `uint32_t`, so the loop bound `offset + frames` wraps.
-/
import ClapValidatorPlugins.Plugins.Common

namespace Cvp

/-- `SineEngine::kMaxVoices`. -/
def kMaxVoices : Nat := 8

/-- `SineEngine::Voice`. -/
structure Voice (D S : Type) where
  active : Bool
  releasing : Bool
  justEnded : Bool
  key : Int
  channel : Int
  noteId : Int
  age : UInt32
  phase : D
  phaseInc : D
  velocity : S
  releaseGain : S
  releaseStep : S
  modGain : S

/-- `SineEngine`; there are always `kMaxVoices` slots. -/
structure SineEngine (D S : Type) where
  voices : List (Voice D S)
  slots : voices.length = kMaxVoices
  sampleRate : D
  clock : UInt32
  globalMod : S

section

variable {D S : Type} [DoubleOps D] [FloatOps S] [FloatCast D S]

/-- `Voice{}`. -/
def Voice.init : Voice D S :=
  { active := false, releasing := false, justEnded := false, key := 0, channel := 0, noteId := -1
    age := 0, phase := DoubleOps.lit 0, phaseInc := DoubleOps.lit 0, velocity := FloatOps.lit 0
    releaseGain := FloatOps.lit 1, releaseStep := FloatOps.lit 0, modGain := FloatOps.lit 0 }

/-- The address test of `modulate` and `noteOff`: `-1` matches every voice. -/
def Voice.matchesAddress (v : Voice D S) (key channel noteId : Int) : Bool :=
  !((decide (0 ≤ key) && v.key != key) || (decide (0 ≤ channel) && v.channel != channel) ||
    (decide (0 ≤ noteId) && v.noteId != noteId))

namespace SineEngine

def kTwoPi : D := DoubleOps.lit (6283185307179586 / 1000000000000000)

def kReleaseSeconds : D := DoubleOps.lit (5 / 100)

def keyToFrequency (key : Int) : D :=
  DoubleOps.lit 440 *
    DoubleOps.pow (DoubleOps.lit 2) (DoubleOps.ofInt (key - 69) / DoubleOps.lit 12)

/-- A freshly constructed engine. -/
def create : SineEngine D S :=
  { voices := List.replicate kMaxVoices Voice.init
    slots := List.length_replicate
    sampleRate := DoubleOps.lit 48000
    clock := 0
    globalMod := FloatOps.lit 0 }

def setSampleRate (e : SineEngine D S) (sampleRate : D) : SineEngine D S :=
  { e with sampleRate := sampleRate }

def reset (e : SineEngine D S) : SineEngine D S :=
  { e with
    voices := List.replicate kMaxVoices Voice.init
    slots := List.length_replicate
    clock := 0
    globalMod := FloatOps.lit 0 }

/-- `for (auto& voice : _voices)` with a body that looks at one voice only. -/
def mapVoices (e : SineEngine D S) (f : Voice D S → Voice D S) : SineEngine D S :=
  { e with voices := e.voices.map f, slots := (List.length_map f).trans e.slots }

/-- The body of `modulate`'s loop. -/
def modulateVoice (key channel noteId : Int) (amount : D) (v : Voice D S) : Voice D S :=
  if v.active && v.matchesAddress key channel noteId then
    { v with modGain := FloatCast.toFloat amount }
  else v

def modulate (e : SineEngine D S) (key channel noteId : Int) (amount : D) : SineEngine D S :=
  if key < 0 ∧ channel < 0 ∧ noteId < 0 then { e with globalMod := FloatCast.toFloat amount }
  else e.mapVoices (modulateVoice key channel noteId amount)

/-- The index of the first voice of least age: the search starts from slot 0. -/
def oldestFrom : Nat → UInt32 → Nat → List (Voice D S) → Nat
  | best, _, _, [] => best
  | best, bestAge, i, v :: vs =>
    if v.age < bestAge then oldestFrom i v.age (i + 1) vs else oldestFrom best bestAge (i + 1) vs

def oldest : List (Voice D S) → Nat
  | [] => 0
  | v :: vs => oldestFrom 0 v.age 0 (v :: vs)

/-- The slot a note-on takes: the first inactive one, else the oldest. -/
def targetSlot (voices : List (Voice D S)) : Nat :=
  match voices.findIdx? (fun v => !v.active) with
  | some i => i
  | none => oldest voices

/-- The voice a note-on puts into its slot. -/
def newVoice (e : SineEngine D S) (key channel noteId : Int) (velocity : D) : Voice D S :=
  { (Voice.init : Voice D S) with
    active := true
    key := key
    channel := channel
    noteId := noteId
    age := e.clock
    phaseInc := kTwoPi * keyToFrequency key / e.sampleRate
    velocity := FloatCast.toFloat
      (if DoubleOps.le velocity (DoubleOps.lit 0) then DoubleOps.lit 1 else velocity)
    releaseStep := FloatCast.toFloat (DoubleOps.lit 1 / (kReleaseSeconds * e.sampleRate)) }

def noteOn (e : SineEngine D S) (key channel noteId : Int) (velocity : D) : SineEngine D S :=
  { e with
    voices := e.voices.set (targetSlot e.voices) (e.newVoice key channel noteId velocity)
    slots := List.length_set.trans e.slots
    clock := e.clock + 1 }

/-- The body of `noteOff`'s loop. -/
def releaseVoice (key channel noteId : Int) (choke : Bool) (v : Voice D S) : Voice D S :=
  if v.active && v.matchesAddress key channel noteId then
    if choke then { v with active := false, justEnded := true } else { v with releasing := true }
  else v

def noteOff (e : SineEngine D S) (key channel noteId : Int) (choke : Bool) : SineEngine D S :=
  e.mapVoices (releaseVoice key channel noteId choke)

/-- The MIDI branch of `handleEvent`. -/
def handleMidi (e : SineEngine D S) (midi : MidiEvent) : SineEngine D S :=
  let status := midi.data0 &&& 0xF0
  let channel : Int := (midi.data0 &&& 0x0F).toNat
  let key : Int := midi.data1.toNat
  if status = 0x90 ∧ 0 < midi.data2 then
    e.noteOn key channel (-1) (DoubleOps.ofInt midi.data2.toNat / DoubleOps.lit 127)
  else if status = 0x80 ∨ (status = 0x90 ∧ midi.data2 = 0) then e.noteOff key channel (-1) false
  else e

def handleEvent (e : SineEngine D S) (header : Event D) : SineEngine D S :=
  if !header.isCore then e
  else match header.body with
    | .noteOn n => e.noteOn n.key n.channel n.noteId n.velocity
    | .noteOff n => e.noteOff n.key n.channel n.noteId false
    | .noteChoke n => e.noteOff n.key n.channel n.noteId true
    | .midi m => e.handleMidi m
    | _ => e

/-! ## Rendering -/

/-- The per-voice level: volume plus both modulation offsets, clamped to the param range. -/
def level (gain globalMod : S) (v : Voice D S) : S :=
  clampFloat (gain + globalMod + v.modGain) (FloatOps.lit 0) (FloatOps.lit 1)

/-- One frame of one voice: the voice after it, and the sample in `double` unless the release
    ended here. -/
def voiceFrame (level : S) (v : Voice D S) : Voice D S × Option D :=
  let envelope := v.velocity * level
  if v.releasing then
    let v := { v with releaseGain := v.releaseGain - v.releaseStep }
    if FloatOps.le v.releaseGain (FloatOps.lit 0) then
      ({ v with active := false, justEnded := true }, none)
    else (advancePhase v, some (sampleOf v (envelope * v.releaseGain)))
  else (advancePhase v, some (sampleOf v envelope))
where
  sampleOf (v : Voice D S) (envelope : S) : D :=
    DoubleOps.sin v.phase * FloatCast.toDouble envelope
  advancePhase (v : Voice D S) : Voice D S :=
    let phase := v.phase + v.phaseInc
    { v with phase := if DoubleOps.le kTwoPi phase then phase - kTwoPi else phase }

/-- `left[i] += sample; if (right) right[i] += sample;`. -/
def mix {T : Type} [SampleOps D T] (left : Ptr) (right : Option Ptr) (i : Nat) (sample : D)
    (m : Plane T) : Plane T :=
  let x : T := SampleOps.ofDouble sample
  let m := m.write left i (SampleOps.add D (m left i) x)
  match right with
  | some right => m.write right i (SampleOps.add D (m right i) x)
  | none => m

/-- The frame loop of one voice, from sample `i` on; it breaks where the release ends. -/
def renderVoice {T : Type} [SampleOps D T] (left : Ptr) (right : Option Ptr) (level : S) :
    Nat → Nat → Voice D S → Plane T → Voice D S × Plane T
  | _, 0, v, m => (v, m)
  | i, count + 1, v, m =>
    match voiceFrame level v with
    | (v, none) => (v, m)
    | (v, some sample) => renderVoice left right level (i + 1) count v (mix left right i sample m)

/-- The voice loop. -/
def renderVoices {T : Type} [SampleOps D T] (left : Ptr) (right : Option Ptr) (gain globalMod : S)
    (offset count : Nat) : List (Voice D S) → Plane T → List (Voice D S) × Plane T
  | [], m => ([], m)
  | v :: vs, m =>
    if v.active then
      let (v', m) := renderVoice left right (level gain globalMod v) offset count v m
      let (vs', m) := renderVoices left right gain globalMod offset count vs m
      (v' :: vs', m)
    else
      let (vs', m) := renderVoices left right gain globalMod offset count vs m
      (v :: vs', m)

theorem length_renderVoices {T : Type} [SampleOps D T] (left : Ptr) (right : Option Ptr)
    (gain globalMod : S) (offset count : Nat) (vs : List (Voice D S)) (m : Plane T) :
    (renderVoices left right gain globalMod offset count vs m).1.length = vs.length := by
  induction vs generalizing m with
  | nil => rfl
  | cons v vs ih =>
    unfold renderVoices
    split
    · exact congrArg (· + 1) (ih _)
    · exact congrArg (· + 1) (ih _)

/-- The number of passes of `for (i = offset; i < offset + frames; ++i)` at 32 bits. -/
def passes (offset frames : Nat) : Nat := (offset + frames) % 2 ^ 32 - offset

/-- `renderImpl`. -/
def renderImpl {T : Type} [SampleOps D T] (e : SineEngine D S) (left : Ptr) (right : Option Ptr)
    (offset frames : Nat) (gain : S) (m : Plane T) : SineEngine D S × Plane T :=
  let rendered :=
    renderVoices left right gain e.globalMod offset (passes offset frames) e.voices m
  ({ e with
      voices := rendered.1
      slots := (length_renderVoices _ _ _ _ _ _ _ _).trans e.slots }, rendered.2)

/-! ## Note ends -/

/-- The event `emitNoteEnds` pushes for a voice. -/
def noteEndEvent (time : Nat) (v : Voice D S) : Event D :=
  { size := sizeofNote
    time := time
    body := .noteEnd { noteId := v.noteId, portIndex := 0, channel := v.channel, key := v.key
                       velocity := DoubleOps.lit 0 } }

/-- `emitNoteEnds`: the engine with the flags cleared and the events, in slot order. -/
def emitNoteEnds (e : SineEngine D S) (time : Nat) : SineEngine D S × List (Event D) :=
  (e.mapVoices (fun v => { v with justEnded := false }),
    (e.voices.filter (·.justEnded)).map (noteEndEvent time))

def anyVoiceActive (e : SineEngine D S) : Bool := e.voices.any (·.active)

end SineEngine

end

end Cvp
