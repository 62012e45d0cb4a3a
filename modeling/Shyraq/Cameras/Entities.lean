import Shyraq.Transactions.Program
import Shyraq.Transactions.Table

/-!
# Cameras

The cameras of one kindergarten and its locations.  The columns `created_at` and `updated_at` are left out.
-/

namespace Cameras

open Transactions

inductive VideoCodec
  | h264 | h265 | unknown
  deriving DecidableEq

structure Camera where
  id : Nat
  locationId : Nat
  name : String
  rtspUrl : String
  hlsUrl : Option String
  streamKey : Option String
  streamKeyHd : Option String
  videoCodec : Option VideoCodec
  codecCheckedAt : Option Int
  isActive : Bool
  archivedAt : Option Int
  deriving DecidableEq

instance : Row Camera := ⟨Camera.id⟩

/-- `none` leaves the column alone. -/
structure UpdateCameraInput where
  locationId : Option Nat
  name : Option String
  rtspUrl : Option String
  hlsUrl : Option (Option String)
  streamKey : Option (Option String)
  streamKeyHd : Option (Option String)

/-- Nothing to write. -/
def UpdateCameraInput.isEmpty (patch : UpdateCameraInput) : Bool :=
  patch.locationId.isNone && patch.name.isNone && patch.rtspUrl.isNone && patch.hlsUrl.isNone &&
    patch.streamKey.isNone && patch.streamKeyHd.isNone

namespace Camera

variable (camera : Camera)

def isArchived : Bool := camera.archivedAt.isSome

def isStreamable : Bool := camera.streamKey.isSome && camera.isActive && !camera.isArchived

/-- The key to ask the gateway about: the empty text is none. -/
def probeKey : Option String := camera.streamKey.filter fun key => !key.isEmpty

def linkToLocation (locationId : Nat) : Camera := { camera with locationId := locationId }

/-- What the gateway has answered. -/
def recordCodecProbe (codec : VideoCodec) (now : Int) : Camera :=
  { camera with videoCodec := some codec, codecCheckedAt := some now }

def archive (now : Int) : Camera :=
  if camera.isArchived then camera else { camera with archivedAt := some now, isActive := false }

def restore : Camera :=
  if camera.isArchived then { camera with archivedAt := none, isActive := true } else camera

/-- The columns of an UPDATE by patch.  A new key drops what was known about the codec. -/
def patched (patch : UpdateCameraInput) : Camera :=
  { camera with
    locationId := patch.locationId.getD camera.locationId
    name := patch.name.getD camera.name
    rtspUrl := patch.rtspUrl.getD camera.rtspUrl
    hlsUrl := patch.hlsUrl.getD camera.hlsUrl
    streamKey := patch.streamKey.getD camera.streamKey
    streamKeyHd := patch.streamKeyHd.getD camera.streamKeyHd
    videoCodec := if patch.streamKey.isSome then none else camera.videoCodec
    codecCheckedAt := if patch.streamKey.isSome then none else camera.codecCheckedAt }

end Camera

/-! ## The tables -/

structure Store where
  cameras : List Camera
  locations : List Nat
  /-- Stream keys that cameras of other kindergartens hold. -/
  foreignKeys : List String
  foreignKeysHd : List String
  deriving DecidableEq

inductive Key
  | row (id : Nat)
  /-- `uq_cameras_stream_key`. -/
  | streamKey (key : String)
  /-- `uq_cameras_stream_key_hd`. -/
  | streamKeyHd (key : String)
  deriving DecidableEq

inductive Write
  | update (id : Nat) (patch : UpdateCameraInput)
  /-- Every column. -/
  | save (camera : Camera)

namespace Store

variable (s : Store)

def camera (id : Nat) : Option Camera := Table.find s.cameras id

/-- No other row holds the keys. -/
def keysFree (id : Nat) (streamKey streamKeyHd : Option String) : Bool :=
  (streamKey.all fun key => !s.foreignKeys.contains key &&
    s.cameras.all fun row => row.id == id || row.streamKey != some key) &&
  (streamKeyHd.all fun key => !s.foreignKeysHd.contains key &&
    s.cameras.all fun row => row.id == id || row.streamKeyHd != some key)

def indexKeys (streamKey streamKeyHd : Option String) : List Key :=
  streamKey.toList.map Key.streamKey ++ streamKeyHd.toList.map Key.streamKeyHd

def keys : Write → List Key
  | .update id patch => .row id :: indexKeys (patch.streamKey.getD none) (patch.streamKeyHd.getD none)
  | .save camera => .row camera.id :: indexKeys camera.streamKey camera.streamKeyHd

def hit : Write → Bool
  | .update id patch => (s.camera id).isSome &&
      s.keysFree id (patch.streamKey.getD none) (patch.streamKeyHd.getD none)
  | .save camera => (s.camera camera.id).isSome && s.keysFree camera.id camera.streamKey camera.streamKeyHd

def apply : Write → Store
  | .update id patch => { s with
      cameras := Table.updateWhere s.cameras id (fun _ => true) fun row => row.patched patch }
  | .save camera => { s with
      cameras := Table.updateWhere s.cameras camera.id (fun _ => true) fun row => { camera with id := row.id } }

end Store

instance : Relational Store Key Write where
  keys := Store.keys
  hit := Store.hit
  apply := Store.apply
  rowKey := Key.row
  absent s i := (s.camera i).isNone

end Cameras
