/-
  `plugins/params_zoo/params_zoo.cpp`: one parameter per flag constellation. Gain is the only
  modulatable parameter and the only one with a cookie; In Peak is a read-only meter that
  `process` writes.

  Left out: the descriptor and remote controls.
-/
import ClapValidatorPlugins.Plugins.Plain

namespace Cvp.ParamsZooPlugin

variable {D S : Type} [DoubleOps D] [FloatOps S] [FloatCast D S]

/-- `kStateMagic` of this flavor: "CVPP". -/
def kStateMagic : UInt32 := 0x43565050

def kPi : D := DoubleOps.lit (314159265358979323846 / 100000000000000000000)

def kParamGain : ClapId := 1
def kParamDrive : ClapId := 2
def kParamPeak : ClapId := 3
def kParamBypass : ClapId := 4
def kParamRotation : ClapId := 5
def kParamDcOffset : ClapId := 6
def kParamCurve : ClapId := 7
def kParamSecret : ClapId := 8

/-- `paramStorage`. -/
def paramIds : List ClapId :=
  [kParamGain, kParamDrive, kParamPeak, kParamBypass, kParamRotation, kParamDcOffset, kParamCurve,
   kParamSecret]

/-- `saved` of `stateSave`, and the ids `stateLoad` restores: never the meter. -/
def savedIds : List ClapId :=
  [kParamGain, kParamDrive, kParamBypass, kParamRotation, kParamDcOffset, kParamCurve,
   kParamSecret]

/-- The address of `_gainDb`. -/
def gainCookie : Ptr := 1

structure State (D : Type) where
  params : ParamValues D
  /-- the PARAM_MOD offset, never persisted -/
  gainModDb : D

def create : State D :=
  { params := fun id => if id = kParamSecret then DoubleOps.lit 1 else DoubleOps.lit 0
    gainModDb := DoubleOps.lit 0 }

def paramInfos : List (ParamInfo D) :=
  [{ id := kParamGain, name := "Gain", flags := { isAutomatable := true, isModulatable := true }
     cookie := some gainCookie
     minValue := DoubleOps.lit (-24), maxValue := DoubleOps.lit 24
     defaultValue := DoubleOps.lit 0 },
   { id := kParamDrive, name := "Drive"
     minValue := DoubleOps.lit 0, maxValue := DoubleOps.lit 10
     defaultValue := DoubleOps.lit 0 },
   { id := kParamPeak, name := "In Peak", flags := { isReadonly := true }
     minValue := DoubleOps.lit 0, maxValue := DoubleOps.lit 1
     defaultValue := DoubleOps.lit 0 },
   { id := kParamBypass, name := "Bypass"
     flags := { isBypass := true, isStepped := true, isAutomatable := true }
     minValue := DoubleOps.lit 0, maxValue := DoubleOps.lit 1
     defaultValue := DoubleOps.lit 0 },
   { id := kParamRotation, name := "Rotation"
     flags := { isPeriodic := true, isAutomatable := true }
     minValue := DoubleOps.lit 0, maxValue := DoubleOps.lit 360
     defaultValue := DoubleOps.lit 0 },
   { id := kParamDcOffset, name := "DC Offset"
     flags := { requiresProcess := true, isAutomatable := true }
     minValue := DoubleOps.lit (-2 / 10), maxValue := DoubleOps.lit (2 / 10)
     defaultValue := DoubleOps.lit 0 },
   { id := kParamCurve, name := "Curve", flags := { isStepped := true, isEnum := true }
     minValue := DoubleOps.lit 0, maxValue := DoubleOps.lit 2
     defaultValue := DoubleOps.lit 0 },
   { id := kParamSecret, name := "Secret Trim", flags := { isHidden := true }
     minValue := DoubleOps.lit 0, maxValue := DoubleOps.lit 1
     defaultValue := DoubleOps.lit 1 }]

def kCurveNames : List String := ["Linear", "Soft", "Hard"]

def paramValueToText (paramId : ClapId) (value : D) (capacity : Nat) : Option String :=
  if paramId = kParamGain then some (fixedText 1 " dB" value capacity)
  else if paramId = kParamDrive then some (fixedText 1 "" value capacity)
  else if paramId = kParamPeak then some (fixedText 3 "" value capacity)
  else if paramId = kParamBypass then
    some (snprintf capacity
      (if DoubleOps.le (DoubleOps.lit (1 / 2)) value then "Bypassed" else "Active"))
  else if paramId = kParamRotation then some (fixedText 0 "\xc2\xb0" value capacity)
  else if paramId = kParamDcOffset then
    some (snprintf capacity (withPlus (DoubleOps.formatFixed 3 value)))
  else if paramId = kParamCurve then
    let index := max 0 (min (DoubleOps.toInt value) 2)
    some (snprintf capacity (kCurveNames.getD index.toNat ""))
  else if paramId = kParamSecret then some (fixedText 2 "" value capacity)
  else none

/-- The names of Curve and Bypass, and else a number. -/
def paramTextToValue (paramId : ClapId) (text : String) : Option D :=
  if paramId ∉ paramIds then none
  else
    let named : Option D :=
      if paramId = kParamCurve then choiceValue (text == ·) kCurveNames
      else if paramId = kParamBypass then choiceValue (text == ·) ["Active", "Bypassed"]
      else none
    named.or (numberValue text)

def applyParamEvent (s : State D) (header : Event D) : State D :=
  if !header.isCore then s
  else match header.body with
    | .paramMod target amount =>
      -- an additive offset, never persisted; only Gain takes one
      if target.paramId = kParamGain then { s with gainModDb := amount } else s
    | .paramValue target x =>
      if target.paramId = kParamPeak then s
      else { s with params := storeParam paramIds s.params target.paramId x }
    | _ => s

def paramsFlush (_ : Base D) (s : State D) (inEvents : Option (InputEvents D)) (_ : Bool) :
    Exec (Outcome D (State D) Unit) := do
  let headers ← unguardedHeaders inEvents
  .ok (consume (fun s e => .done (applyParamEvent s e)) s headers)

/-! ## Audio -/

def shape (x drive : D) (curve : Int) : D :=
  if DoubleOps.le drive (DoubleOps.lit 0) then x
  else
    let boosted := x * (DoubleOps.lit 1 + drive)
    if curve = 1 then DoubleOps.tanh boosted
    else if curve = 2 then clampDouble boosted (DoubleOps.lit (-1)) (DoubleOps.lit 1)
    else boosted

/-- The input peak with the per-block decay. -/
def measurePeak (peak : D) (srcL srcR : Ptr) (frames : Nat) (m : Plane S) : D :=
  frameLoop (fun i peak =>
    maxDouble (maxDouble peak (FloatCast.toDouble (FloatOps.abs (m srcL i))))
      (FloatCast.toDouble (FloatOps.abs (m srcR i))))
    0 frames (peak * DoubleOps.lit (95 / 100))

/-- `dstR` is null on a one-channel output. -/
def writeRight (m : Plane S) (dstR : Option Ptr) (i : Nat) (x : S) : Plane S :=
  match dstR with
  | some dstR => m.write dstR i x
  | none => m

def bypassLoop (srcL srcR dstL : Ptr) (dstR : Option Ptr) (frames : Nat) (m : Plane S) :
    Plane S :=
  frameLoop (fun i m =>
    let m := m.write dstL i (m srcL i)
    writeRight m dstR i (m srcR i)) 0 frames m

/-- Gain, drive, trim, DC offset and rotation of one block. -/
def shapeLoop (s : State D) (srcL srcR dstL : Ptr) (dstR : Option Ptr) (frames : Nat)
    (m : Plane S) : Plane S :=
  let gainDb := s.params kParamGain + s.gainModDb
  let gain := DoubleOps.pow (DoubleOps.lit 10) (gainDb / DoubleOps.lit 20)
  let drive := s.params kParamDrive
  let curve := min (max (DoubleOps.toInt (s.params kParamCurve)) 0) 2
  let dc := s.params kParamDcOffset
  let trim := s.params kParamSecret
  let angle := s.params kParamRotation * kPi / DoubleOps.lit 180
  let rotCos := DoubleOps.cos angle
  let rotSin := DoubleOps.sin angle
  frameLoop (fun i m =>
    let left := shape (FloatCast.toDouble (m srcL i) * gain * trim) drive curve + dc
    let right := shape (FloatCast.toDouble (m srcR i) * gain * trim) drive curve + dc
    let m := m.write dstL i (FloatCast.toFloat (left * rotCos - right * rotSin))
    writeRight m dstR i (FloatCast.toFloat (left * rotSin + right * rotCos))) 0 frames m

def process (_ : Base D) (s : State D) (block : ProcessBlock D) (memory : AudioMemory D S) :
    Exec (Outcome D (State D) ProcessStatus × AudioMemory D S) :=
  match block.audioInputs, block.audioOutputs with
  | input :: _, output :: _ => do
    let headers ← guardedHeaders block.inEvents
    let s := (consume (fun s e => .done (applyParamEvent s e)) s headers).self
    let frames := block.framesCount.toNat
    if !input.data32.isSome || !output.data32.isSome then .ok (.just .error s, memory)
    else
      let srcL ← channelAt input.data32 0
      let srcR ← if 1 < input.channelCount then channelAt input.data32 1
        else channelAt input.data32 0
      let dstL ← channelAt output.data32 0
      let dstR ← if 1 < output.channelCount then some <$> channelAt output.data32 1 else .ok none
      let peak := measurePeak (s.params kParamPeak) srcL srcR frames memory.f32
      let s := { s with
        params := Function.update s.params kParamPeak (minDouble peak (DoubleOps.lit 1)) }
      let bypassed := DoubleOps.le (DoubleOps.lit (1 / 2)) (s.params kParamBypass)
      let m := if bypassed then bypassLoop srcL srcR dstL dstR frames memory.f32
        else shapeLoop s srcL srcR dstL dstR frames memory.f32
      .ok (.just .continue s, { memory with f32 := m })
  | _, _ => .ok (.just .error s, memory)

variable [DoubleBits D]

def stateSave (s : State D) (stream : OStream) : Exec (Outcome D (State D) Bool × OStream) := do
  let (ok, stream) ← saveRecords kStateMagic savedIds s.params stream
  .ok (.just ok s, stream)

def stateLoad (s : State D) (stream : IStream) : Exec (Outcome D (State D) Bool × IStream) := do
  let (ok, params, stream) ← loadCounted kStateMagic savedIds s.params stream
  .ok (.just ok { s with params := params }, stream)

def impl : PluginImpl D S (State D) where
  create := create
  extensions := ["clap.audio-ports", "clap.params", "clap.state", "clap.remote-controls/2",
    "clap.remote-controls.draft/2"]
  process := process
  audioPorts := some { audioPortCount := fun _ _ => 1, audioPortInfo := fun _ => stereoPort }
  params := some
    { paramCount := 8, paramInfo := paramTable paramInfos
      paramValue := fun s => loadParam paramIds s.params, paramsFlush := paramsFlush }
  state := some { stateSave := stateSave, stateLoad := stateLoad }

end Cvp.ParamsZooPlugin
