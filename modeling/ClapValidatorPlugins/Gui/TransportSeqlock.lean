/-
  The transport that the editor shows. `storeTransport` runs on the audio thread and `guiTransport`
  on the editor's; the snapshot between them is under a sequence counter, and is copied field by
  field. A `guiTransport` that fewer than `2 ^ 31` stores overlap returns what one `storeTransport`
  has written, or the initial value, and never a mixture (`transport_never_torn`).
-/
import ClapValidatorPlugins.Lib.Seqlock
import ClapValidatorPlugins.Plugins.Gui

namespace Cvp.GuiPlugin

open Machine Seqlock

variable {D : Type}

/-- The members of `TransportInfo`. -/
inductive TransportField where
  | seen
  | provided
  | flags
  | tempo
  | songPosBeats
  | songPosSeconds
  | loopStartBeats
  | loopEndBeats
  | barStartBeats
  | barNumber
  | tsigNum
  | tsigDenom
  deriving DecidableEq, Repr

/-- One member of an assignment of a `TransportInfo`. -/
def copyField (i : TransportField) (source target : TransportInfo D) : TransportInfo D :=
  match i with
  | .seen => { target with seen := source.seen }
  | .provided => { target with provided := source.provided }
  | .flags => { target with flags := source.flags }
  | .tempo => { target with tempo := source.tempo }
  | .songPosBeats => { target with songPosBeats := source.songPosBeats }
  | .songPosSeconds => { target with songPosSeconds := source.songPosSeconds }
  | .loopStartBeats => { target with loopStartBeats := source.loopStartBeats }
  | .loopEndBeats => { target with loopEndBeats := source.loopEndBeats }
  | .barStartBeats => { target with barStartBeats := source.barStartBeats }
  | .barNumber => { target with barNumber := source.barNumber }
  | .tsigNum => { target with tsigNum := source.tsigNum }
  | .tsigDenom => { target with tsigDenom := source.tsigDenom }

def transportFields : List TransportField :=
  [.seen, .provided, .flags, .tempo, .songPosBeats, .songPosSeconds, .loopStartBeats,
    .loopEndBeats, .barStartBeats, .barNumber, .tsigNum, .tsigDenom]

/-- No member is left out. -/
theorem copyField_all (source target : TransportInfo D) :
    transportFields.foldl (fun r i => copyField i source r) target = source := by
  simp only [transportFields, List.foldl_cons, List.foldl_nil, copyField]

variable [DoubleOps D]

/-- The `info` of `storeTransport`. -/
def transportInfo (transport : Option (Transport D)) : TransportInfo D :=
  (storeTransport create transport).transportData

/-- `_transportSeq` and `_transportData`. -/
def transportLock : Code (TransportInfo D) TransportField (Option (Transport D)) where
  order := transportFields
  copy := copyField
  copies := copyField_all
  record := transportInfo
  blank := TransportInfo.init

def transportStep : Step (Lock (TransportInfo D) TransportField (Option (Transport D)))
    (Move (Option (Transport D))) Unit Unit := transportLock.step

theorem storeTransport_eq (s : State D) (transport : Option (Transport D)) :
    storeTransport s transport = { s with transportData := transportInfo transport } := by
  cases transport with
  | none => rfl
  | some t => rfl

/-- A `storeTransport` with nothing in between, and a `guiTransport` behind it. -/
theorem store_then_read (s : State D) (transport : Option (Transport D)) :
    ∃ os lock, run transportStep { data := s.transportData }
        (.store transport :: List.replicate 14 .write ++
          .read :: List.replicate 14 (.advance 0)) = .ok (lock, os) ∧
      lock.data = (storeTransport s transport).transportData ∧
      lock.readers = [.returned (storeTransport s transport).transportData] := by
  have hstore := run_store transportLock { data := s.transportData } rfl transport
  have hread := run_read transportLock
    { data := transportInfo transport, seq := 0 + 1 + 1, stored := [transport] }
    (show (0 + 1 + 1 : UInt32) &&& 1 = 0 by decide)
  rw [storeTransport_eq]
  exact ⟨_, _, run_append hstore hread, rfl, rfl⟩

/-- Over every interleaving of the steps of any number of `storeTransport` calls, one after the
    other, and of any number of `guiTransport` calls: one of the latter that begins behind `front`
    and has returned behind `during`. The stores that overlap it are those begun by its end and not
    through at its beginning. -/
theorem transport_never_torn {front during : List (Move (Option (Transport D)))}
    {lock lock' : Lock (TransportInfo D) TransportField (Option (Transport D))}
    {os os' : List Unit} {out : TransportInfo D}
    (hfront : run transportStep { data := TransportInfo.init } front = .ok (lock, os))
    (hduring : run transportStep lock (.read :: during) = .ok (lock', os'))
    (hreturned : lock'.readers[lock.readers.length]? = some (.returned out))
    (hfew : lock'.entered - lock.stored.length < 2 ^ 31) :
    out = TransportInfo.init ∨ ∃ transport ∈ lock'.stored, out = transportInfo transport := by
  obtain ⟨history, hprefix, -, hout⟩ := returned_latest hfront hduring hreturned (by omega)
  rw [hout]
  refine (latest_eq transportLock TransportInfo.init history).imp_right ?_
  rintro ⟨transport, hmem, hrecord⟩
  exact ⟨transport, hprefix.subset hmem, hrecord⟩

/-- A store of no transport, and a read that begins while its members are copied. -/
theorem transport_never_torn_once :
    let out : TransportInfo ExactFloat := transportInfo none
    out = TransportInfo.init ∨ ∃ transport ∈ [none], out = transportInfo transport :=
  transport_never_torn (D := ExactFloat)
    (show run transportStep { data := TransportInfo.init }
      (.store none :: List.replicate 7 .write) = .ok (_, _) from rfl)
    (show run transportStep _
      (.read :: List.replicate 7 .write ++ List.replicate 14 (.advance 0)) = .ok (_, _) from rfl)
    rfl (by decide)

end Cvp.GuiPlugin
