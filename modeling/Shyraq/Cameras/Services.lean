import Shyraq.Cameras.Entities
import Shyraq.Kernel.Digits
import Shyraq.Transactions.Runs
import Shyraq.Transactions.Statements

/-!
# CameraService

The writes to a camera row: by an administrator, and by the probe of its codec.  What the gateway answers for each
stream key, and when, is part of a request.
-/

namespace Cameras

open Kernel Transactions

inductive CameraError
  | cameraNotFound (id : Nat)
  | cameraArchived (id : Nat)
  | locationNotFound (id : Nat)
  /-- `camera_stream_key_taken`: the UPDATE of a row that is there matches unless a key is taken. -/
  | streamKeyTaken (id : Nat)

abbrev Sql A := Prog Store Key Write CameraError A

structure StreamProbeResult where
  available : Bool
  videoCodec : VideoCodec

structure CodecRefreshSummary where
  probed : Nat
  updated : Nat
  unavailable : Nat
  deriving DecidableEq

namespace CameraRepository

def findById (id : Nat) : Sql (Option Camera) := Prog.query fun s => s.camera id

/-- Whether or not the camera is active. -/
def streamable (s : Store) : List Camera := s.cameras.filter fun row => row.streamKey.isSome && row.archivedAt.isNone

def listStreamable : Sql (List Camera) := Prog.query streamable

def update (id : Nat) (patch : UpdateCameraInput) : Sql (Option Camera) := do
  if patch.isEmpty then pure () else Prog.insertOr (.update id patch) (.streamKeyTaken id)
  findById id

def save (camera : Camera) : Sql Camera := do
  Prog.insertOr (.save camera) (.streamKeyTaken camera.id)
  let row ← findById camera.id
  Prog.require row (.cameraNotFound camera.id)

end CameraRepository

def findLocation (id : Nat) : Sql Bool := Prog.query fun s => s.locations.contains id

def normalizeStreamKey (value : Option String) : Option String :=
  value.bind fun key => if (trim key).isEmpty then none else some (trim key)

namespace CameraService

def getById (id : Nat) : Sql Camera := do
  let row ← CameraRepository.findById id
  Prog.require row (.cameraNotFound id)

def requireLocation (id : Nat) : Sql Unit := do
  let found ← findLocation id
  Prog.guardOr found (.locationNotFound id)

def update (id : Nat) (patch : UpdateCameraInput) : Sql Camera := do
  let current ← getById id
  Prog.guardOr (!current.isArchived) (.cameraArchived id)
  match patch.locationId with
  | none => pure ()
  | some locationId => requireLocation locationId
  let updated ← CameraRepository.update id { patch with
    streamKey := patch.streamKey.map normalizeStreamKey
    streamKeyHd := patch.streamKeyHd.map normalizeStreamKey }
  Prog.require updated (.cameraNotFound id)

def linkToLocation (id locationId : Nat) : Sql Camera := do
  let current ← getById id
  Prog.guardOr (!current.isArchived) (.cameraArchived id)
  requireLocation locationId
  CameraRepository.save (current.linkToLocation locationId)

def archive (now : Int) (id : Nat) : Sql Camera := do
  let current ← getById id
  if current.isArchived then pure current else CameraRepository.save (current.archive now)

def restore (id : Nat) : Sql Camera := do
  let current ← getById id
  if current.isArchived then CameraRepository.save current.restore else pure current

/-- The row with the gateway's answer; `none` without a key or an answer. -/
def probed (now : Int) (probe : String → StreamProbeResult) (camera : Camera) : Option Camera :=
  camera.probeKey.bind fun key =>
    if (probe key).available then some (camera.recordCodecProbe (probe key).videoCodec now) else none

def refreshCodec (now : Int) (probe : String → StreamProbeResult) (id : Nat) : Sql Camera := do
  let current ← getById id
  match probed now probe current with
  | none => pure current
  | some recorded => CameraRepository.save recorded

/-- The same answer as last time counts as no update. -/
def sameAnswer (camera recorded : Camera) : Bool :=
  camera.videoCodec == recorded.videoCodec && camera.codecCheckedAt.isSome

/-- One camera after the other. -/
def refreshEach (now : Int) (probe : String → StreamProbeResult) :
    CodecRefreshSummary → List Camera → Sql CodecRefreshSummary
  | summary, [] => pure summary
  | summary, camera :: cameras =>
      match probed now probe camera with
      | none => refreshEach now probe (if camera.probeKey.isSome then
          { summary with probed := summary.probed + 1, unavailable := summary.unavailable + 1 } else summary) cameras
      | some recorded => do
          let _ ← CameraRepository.save recorded
          refreshEach now probe { summary with
            probed := summary.probed + 1
            updated := if sameAnswer camera recorded then summary.updated else summary.updated + 1 } cameras

def refreshCodecs (now : Int) (probe : String → StreamProbeResult) : Sql CodecRefreshSummary := do
  let cameras ← CameraRepository.listStreamable
  refreshEach now probe ⟨0, 0, 0⟩ cameras

end CameraService

/-! ## Requests -/

inductive Op
  | update (id : Nat) (patch : UpdateCameraInput)
  | linkToLocation (id locationId : Nat)
  | archive (now : Int) (id : Nat)
  | restore (id : Nat)
  | refreshCodec (now : Int) (probe : String → StreamProbeResult) (id : Nat)
  | refreshCodecs (now : Int) (probe : String → StreamProbeResult)

inductive Answer
  | camera (row : Camera)
  | summary (summary : CodecRefreshSummary)

def answered (p : Sql Camera) : Sql Answer := do
  let row ← p
  pure (.camera row)

def Op.prog : Op → Sql Answer
  | update id patch => answered (CameraService.update id patch)
  | linkToLocation id locationId => answered (CameraService.linkToLocation id locationId)
  | archive now id => answered (CameraService.archive now id)
  | restore id => answered (CameraService.restore id)
  | refreshCodec now probe id => answered (CameraService.refreshCodec now probe id)
  | refreshCodecs now probe => do
      let summary ← CameraService.refreshCodecs now probe
      pure (.summary summary)

abbrev System (n : Nat) := Transactions.System Store Key Write CameraError Op Answer n
abbrev Schedule (n : Nat) := List (Choice Op n)
abbrev Commit := Transactions.Commit Store Key Write Op Answer

def run {n : Nat} (s : Store) (cs : Schedule n) : Option (System n) := (System.init s).exec Op.prog cs

end Cameras
