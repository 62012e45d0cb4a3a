import Mathlib.Data.List.Sort
import Shyraq.Cameras.Entities
import Shyraq.Guardians.Entities
import Shyraq.Schedule.Entities

/-!
# Watching a camera

Stream tokens, the gateway's sessions and the playlists that the streaming door serves.  Who may watch which camera
follows from the tables, which the rest of the program changes as it likes.  A request reads them at one instant.  The
text of a token is cut at its dots: neither an id nor a `base64url` signature has any.
-/

namespace Cameras

/-! ## Who may watch -/

/-- A row of `children` and of `groups`: where it belongs. -/
structure Child where
  id : Nat
  currentGroupId : Option Nat
  deriving DecidableEq

structure Group where
  id : Nat
  currentLocationId : Option Nat
  deriving DecidableEq

structure World where
  guardians : List Guardians.ChildGuardian
  children : List Child
  groups : List Group
  events : List Schedule.ActivityEvent
  cameras : List Camera
  /-- Who reaches the kindergarten with another role than `parent`. -/
  staff : List Nat
  deriving DecidableEq

inductive StreamError
  | childAccessDenied (childId : Nat)
  | cctvAccessDenied
  | childNotFound (childId : Nat)
  | cctvNotConfigured
  | cctvTokenInvalid
  | cameraNotFound (cameraId : Nat)
  | cctvGatewayUnavailable
  | cctvPlaylistUnreadable
  | cctvSessionNotFound
  deriving DecidableEq

/-- `DEFAULT_PERMISSIONS_BY_ROLE[…].view_cctv`. -/
def defaultViewCctv : Guardians.GuardianRelation → Bool
  | .primary | .secondary => true
  | .nanny => false

/-- `effective(role).view_cctv`. -/
def effectiveViewCctv (guardian : Guardians.ChildGuardian) : Bool :=
  (guardian.permissions.lookup .viewCctv).getD (defaultViewCctv guardian.role)

namespace World

variable (world : World)

/-- The event that covers this instant, the latest to begin. -/
def findCurrentForGroup (groupId : Nat) (now : Int) : Option Schedule.ActivityEvent :=
  ((world.events.filter fun event => event.groupId == groupId && decide (event.startsAt ≤ now) &&
    (event.endsAt.any fun ends => decide (now < ends)) && event.status != .cancelled).insertionSort
      fun e f => e.startsAt ≥ f.startsAt).head?

/-- The schedule answers first. -/
def resolveLocationId (groupId : Nat) (now : Int) : Option Nat :=
  match (world.findCurrentForGroup groupId now).bind Schedule.ActivityEvent.locationId with
  | some locationId => some locationId
  | none => (world.groups.find? fun group => group.id == groupId).bind Group.currentLocationId

/-- `ChildAccessGuard`: the record of an approved guardian; staff pass without one. -/
def guardianRecord (childId userId : Nat) : Except StreamError (Option Guardians.ChildGuardian) :=
  if userId ∈ world.staff then .ok none
  else
    match world.guardians.find? fun g => g.childId == childId && g.userId == userId && g.status == .approved with
    | some guardian => .ok (some guardian)
    | none => .error (.childAccessDenied childId)

/-- The cameras of `listForChild`. -/
def camerasForChild (now : Int) (childId : Nat) (guardian : Option Guardians.ChildGuardian) :
    Except StreamError (List Camera) :=
  if guardian.all effectiveViewCctv then
    match world.children.find? fun child => child.id == childId with
    | none => .error (.childNotFound childId)
    | some child =>
        match child.currentGroupId.bind fun groupId => world.resolveLocationId groupId now with
        | none => .ok []
        | some locationId => .ok (world.cameras.filter fun camera =>
            camera.locationId == locationId && !camera.isArchived && camera.isStreamable)
  else .error .cctvAccessDenied

/-- What a user is shown for a child. -/
def listForChild (now : Int) (childId userId : Nat) : Except StreamError (List Camera) := do
  let guardian ← world.guardianRecord childId userId
  world.camerasForChild now childId guardian

/-- The right to watch: a child through which the camera is shown, or the admin panel. -/
def mayWatch (now : Int) (userId cameraId : Nat) : Bool :=
  (decide (userId ∈ world.staff) && world.cameras.any fun camera => camera.id == cameraId && camera.isStreamable) ||
    world.children.any fun child =>
      match world.listForChild now child.id userId with
      | .ok cameras => cameras.any fun camera => camera.id == cameraId
      | .error _ => false

end World

/-! ## Tokens -/

structure CctvConfig where
  streamTokenSecret : Option String
  streamTokenTtlSeconds : Int
  streamPublicBase : Option String
  deriving DecidableEq

structure StreamTokenClaims where
  cameraId : Nat
  userId : Nat
  /-- Unix seconds. -/
  expiresAt : Int
  deriving DecidableEq

structure StreamToken where
  version : String
  claims : StreamTokenClaims
  signature : String
  deriving DecidableEq

def StreamToken.payload (version : String) (claims : StreamTokenClaims) : String :=
  ".".intercalate [version, toString claims.cameraId, toString claims.userId, toString claims.expiresAt]

namespace CctvStreamTokenService

/-- `createHmac('sha256', secret).update(payload).digest('base64url')`. -/
abbrev Hmac := String → String → String

variable (hmac : Hmac) (config : CctvConfig)

/-- A token and the instant that it was minted at. -/
structure Minted where
  token : StreamToken
  at_ : Int
  deriving DecidableEq

def mint (secret : String) (now : Int) (cameraId userId : Nat) : Minted :=
  let claims : StreamTokenClaims := ⟨cameraId, userId, now / 1000 + config.streamTokenTtlSeconds⟩
  ⟨⟨"v1", claims, hmac secret (StreamToken.payload "v1" claims)⟩, now⟩

/-- The signature is this server's. -/
def signed (token : StreamToken) : Bool :=
  config.streamTokenSecret.any fun secret => token.signature == hmac secret (StreamToken.payload token.version token.claims)

def verify (now : Int) (token : StreamToken) : Option StreamTokenClaims :=
  if signed hmac config token && token.version == "v1" && decide (now < token.claims.expiresAt * 1000) then
    some token.claims
  else none

end CctvStreamTokenService

/-! ## The system -/

/-- A stream that the gateway has opened, and the camera that it was opened for. -/
structure GatewaySession where
  id : String
  cameraId : Nat
  deriving DecidableEq

/-- A media playlist that went out. -/
structure Served where
  at_ : Int
  /-- Of the session. -/
  cameraId : Nat
  /-- Of the token. -/
  claims : StreamTokenClaims
  /-- The user might have asked for a token of that camera just then. -/
  allowed : Bool
  deriving DecidableEq

structure State where
  now : Int
  world : World
  minted : List CctvStreamTokenService.Minted
  sessions : List GatewaySession
  served : List Served
  deriving DecidableEq

/-- What the gateway answers. -/
inductive GatewayAnswer
  | silent
  /-- A playlist that the rewriter does not know its way about. -/
  | unreadable
  | playlist
  deriving DecidableEq

inductive Event
  | pass (ms : Nat)
  /-- Permissions, groups, schedule, cameras: whatever the rest of the program writes. -/
  | change (world : World)
  | listForChild (childId userId : Nat)
  | streamAccess (cameraId userId : Nat)
  /-- `sessionId` is the session that the gateway opens if it answers with a playlist. -/
  | master (cameraId : Nat) (token : StreamToken) (answer : GatewayAnswer) (sessionId : String)
  | media (sessionId : String) (token : StreamToken) (answer : GatewayAnswer)
  deriving DecidableEq

/-- `/^[A-Za-z0-9_-]{1,64}$/`. -/
def isSessionId (sessionId : String) : Bool :=
  decide (1 ≤ sessionId.length ∧ sessionId.length ≤ 64) &&
    sessionId.toList.all fun c => c.isAlphanum || c == '_' || c == '-'

namespace State

open CctvStreamTokenService

variable (hmac : Hmac) (config : CctvConfig) (σ : State)

def mintAll (secret : String) (userId : Nat) (cameras : List Camera) : State :=
  { σ with minted := σ.minted ++ cameras.map fun camera => mint hmac config secret σ.now camera.id userId }

/-- `ParentCctvController.list`. -/
def listForChild (childId userId : Nat) : Except StreamError State :=
  match config.streamTokenSecret, config.streamPublicBase with
  | some secret, some _ => do
      let cameras ← σ.world.listForChild σ.now childId userId
      pure (σ.mintAll hmac config secret userId cameras)
  | _, _ => .error .cctvNotConfigured

/-- `CameraService.streamAccess`: no token without a signing key. -/
def streamAccess (cameraId userId : Nat) : Except StreamError State :=
  if userId ∈ σ.world.staff then
    match σ.world.cameras.find? fun camera => camera.id == cameraId with
    | none => .error (.cameraNotFound cameraId)
    | some camera =>
        match config.streamTokenSecret with
        | some secret => .ok (if camera.isStreamable then σ.mintAll hmac config secret userId [camera] else σ)
        | none => .ok σ
  else .error .cctvAccessDenied

/-- `CctvStreamController.master`. -/
def master (cameraId : Nat) (token : StreamToken) (answer : GatewayAnswer) (sessionId : String) :
    Except StreamError State := do
  match verify hmac config σ.now token with
  | none => throw .cctvTokenInvalid
  | some claims =>
      if claims.cameraId ≠ cameraId then throw .cctvTokenInvalid
      else if σ.world.cameras.any fun camera => camera.id == cameraId && camera.isStreamable && camera.probeKey.isSome then
        match answer, config.streamPublicBase with
        | .silent, _ => throw .cctvGatewayUnavailable
        | _, none => throw .cctvNotConfigured
        | .unreadable, some _ => throw .cctvPlaylistUnreadable
        | .playlist, some _ => pure { σ with sessions := σ.sessions ++ [⟨sessionId, cameraId⟩] }
      else throw (.cameraNotFound cameraId)

/-- `CctvStreamController.media`. -/
def media (sessionId : String) (token : StreamToken) (answer : GatewayAnswer) : Except StreamError State :=
  match verify hmac config σ.now token with
  | none => throw .cctvTokenInvalid
  | some claims =>
      if isSessionId sessionId then
        match σ.sessions.find? fun session => session.id == sessionId, answer, config.streamPublicBase with
        | none, _, _ | _, .silent, _ => throw .cctvSessionNotFound
        | some _, _, none => throw .cctvNotConfigured
        | some _, .unreadable, some _ => throw .cctvPlaylistUnreadable
        | some session, .playlist, some _ => pure { σ with
            served := σ.served ++ [⟨σ.now, session.cameraId, claims,
              σ.world.mayWatch σ.now claims.userId session.cameraId⟩] }
      else throw .cctvSessionNotFound

/-- A refused request changes nothing; the gateway never gives out a session id twice. -/
def step : Event → Option State
  | .pass ms => some { σ with now := σ.now + ms }
  | .change world => some { σ with world := world }
  | .listForChild childId userId => some ((listForChild hmac config σ childId userId).toOption.getD σ)
  | .streamAccess cameraId userId => some ((streamAccess hmac config σ cameraId userId).toOption.getD σ)
  | .master cameraId token answer sessionId =>
      if σ.sessions.any fun session => session.id == sessionId then none
      else some ((master hmac config σ cameraId token answer sessionId).toOption.getD σ)
  | .media sessionId token answer => some ((media hmac config σ sessionId token answer).toOption.getD σ)

def run : State → List Event → Option State
  | σ, [] => some σ
  | σ, e :: events => (step hmac config σ e).bind fun σ' => run σ' events

end State

end Cameras
