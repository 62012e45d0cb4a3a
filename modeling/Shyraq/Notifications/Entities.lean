import Mathlib.Data.List.Dedup
import Mathlib.Data.List.Sort
import Mathlib.Data.Rat.Defs
import Shyraq.Children.Entities
import Shyraq.Guardians.Entities

/-!
# The notification outbox

The tables `notification_outbox` and `notifications`, with what the dispatcher reads of the guardians, the children,
the preferences and the push tokens.  They are shared by all kindergartens.  Ids inside a payload are texts, as in the
`payload` column; a date in a payload is its ISO text.  Columns that only a rendered text reads are left out, as are
the ids of history rows and the column `created_at` of the outbox.
-/

namespace Notifications

open Transactions

/-- The id of a user, a child, a group or a kindergarten, as a payload carries it. -/
abbrev Uuid := String

/-- What a step of the dispatcher throws; `fail` reports its message. -/
structure NotificationError where
  message : String
  deriving DecidableEq

/-! ## Payloads -/

/-- A value of the `payload` object. -/
inductive PayloadValue
  | text (value : String)
  | number (value : Rat)
  | flag (value : Bool)
  | texts (values : List String)
  | object (json : String)
  | null
  deriving DecidableEq

abbrev Payload := List (String × PayloadValue)

/-- `string | null`. -/
def PayloadValue.ofOption : Option String → PayloadValue
  | some value => .text value
  | none => .null

/-- An object or `null`. -/
def PayloadValue.ofObject : Option String → PayloadValue
  | some json => .object json
  | none => .null

/-- A field that must be a text that is not empty. -/
def stringField (payload : Payload) (key : String) : Except NotificationError String :=
  match payload.lookup key with
  | some (.text value) => if value = "" then .error ⟨"payload_missing_field:" ++ key⟩ else .ok value
  | _ => .error ⟨"payload_missing_field:" ++ key⟩

def asNonEmptyString : Option PayloadValue → Option String
  | some (.text value) => if value = "" then none else some value
  | _ => none

/-- The texts of an array that are not empty. -/
def stringsField (payload : Payload) (key : String) : List String :=
  match payload.lookup key with
  | some (.texts values) => values.filter fun value => value != ""
  | _ => []

/-! ## Outbox events -/

inductive OutboxEventStatus
  | pending | dispatched | failed
  deriving DecidableEq, Repr

def OutboxEventStatus.value : OutboxEventStatus → String
  | pending => "pending"
  | dispatched => "dispatched"
  | failed => "failed"

/-- `MAX_OUTBOX_ATTEMPTS`. -/
def maxOutboxAttempts : Nat := 5

/-- Milliseconds until the next try: `2 ^ attempts` minutes, one hour at most. -/
def defaultBackoff (attempts : Nat) : Int :=
  let safeAttempts := max 1 (min attempts 30)
  let minutes := min (2 ^ safeAttempts) 60
  minutes * 60000

structure OutboxEvent where
  id : Nat
  kindergartenId : Uuid
  eventKey : String
  payload : Payload
  status : OutboxEventStatus
  attempts : Nat
  nextRetryAt : Int
  dispatchedAt : Option Int
  failedReason : Option String
  deriving DecidableEq

instance : Row OutboxEvent := ⟨OutboxEvent.id⟩

namespace OutboxEvent

def create (id : Nat) (kindergartenId : Uuid) (eventKey : String) (payload : Payload) (now : Int) : OutboxEvent :=
  ⟨id, kindergartenId, eventKey, payload, .pending, 0, now, none, none⟩

variable (event : OutboxEvent)

def isTerminal : Bool := event.status == .dispatched || event.status == .failed

def markFailed (now : Int) (reason : String) : Except NotificationError OutboxEvent :=
  if event.status ≠ .pending then .error ⟨"outbox_event_already_terminal: status=" ++ event.status.value⟩
  else if maxOutboxAttempts ≤ event.attempts + 1 then
    .ok { event with
      attempts := event.attempts + 1, failedReason := some reason, status := .failed, nextRetryAt := now }
  else
    .ok { event with
      attempts := event.attempts + 1, failedReason := some reason,
      nextRetryAt := now + defaultBackoff (event.attempts + 1) }

/-- `UPDATE … SET status = 'dispatched'`. -/
def dispatchedRow (now : Int) : OutboxEvent := { event with status := .dispatched, dispatchedAt := some now }

/-- `UPDATE` of a failed attempt, from the event in memory. -/
def failedRow (fresh : OutboxEvent) : OutboxEvent := { event with
  status := if fresh.isTerminal then .failed else .pending
  attempts := fresh.attempts
  nextRetryAt := fresh.nextRetryAt
  failedReason := fresh.failedReason }

end OutboxEvent

/-! ## What the dispatcher reads -/

structure ChildGuardian where
  kindergartenId : Uuid
  childId : Uuid
  userId : Uuid
  role : Guardians.GuardianRelation
  status : Guardians.GuardianStatus
  revokedAt : Option Int
  deriving DecidableEq

def ChildGuardian.approvedActive (g : ChildGuardian) : Bool := g.status == .approved && g.revokedAt.isNone

structure Child where
  id : Uuid
  kindergartenId : Uuid
  currentGroupId : Option Uuid
  status : Children.ChildStatus
  deriving DecidableEq

structure NotificationPreference where
  userId : Uuid
  eventKey : String
  pushEnabled : Bool
  inAppEnabled : Bool
  deriving DecidableEq

structure PushToken where
  userId : Uuid
  token : String
  deriving DecidableEq

/-- A row of `notifications`.  The table does not say which event a row is about; `event` records it. -/
structure Notification where
  event : Nat
  kindergartenId : Uuid
  userId : Uuid
  eventKey : String
  createdAt : Int
  deriving DecidableEq

/-! ## The tables -/

/-- The tables that the dispatcher only reads. -/
structure Directory where
  guardians : List ChildGuardian
  children : List Child
  preferences : List NotificationPreference
  tokens : List PushToken
  deriving DecidableEq

structure Store where
  outbox : List OutboxEvent
  history : List Notification
  directory : Directory

inductive Key
  | row (id : Nat)
  deriving DecidableEq

inductive Write
  | enqueue (event : OutboxEvent)
  | insertNotification (row : Notification)
  | markDispatched (id : Nat) (now : Int)
  /-- `attempts`, `next_retry_at` and the rest are those of the event in memory. -/
  | markFailedWithRetry (id : Nat) (fresh : OutboxEvent)
  /-- Guardians, children, preferences and tokens as other requests leave them. -/
  | directory (d : Directory)
  deriving DecidableEq

namespace Store

def event (s : Store) (i : Nat) : Option OutboxEvent := Table.find s.outbox i

def keys : Write → List Key
  | .enqueue event => [.row event.id]
  | .markDispatched i _ | .markFailedWithRetry i _ => [.row i]
  | .insertNotification _ | .directory _ => []

def hit (s : Store) : Write → Bool
  | .enqueue event => (s.event event.id).isNone
  | .markDispatched i _ | .markFailedWithRetry i _ => (s.event i).isSome
  | .insertNotification _ | .directory _ => true

def apply (s : Store) : Write → Store
  | .enqueue event => { s with outbox := s.outbox ++ [event] }
  | .insertNotification row => { s with history := s.history ++ [row] }
  | .markDispatched i now => { s with
      outbox := Table.updateWhere s.outbox i (fun _ => true) fun event => event.dispatchedRow now }
  | .markFailedWithRetry i fresh => { s with
      outbox := Table.updateWhere s.outbox i (fun _ => true) fun event => event.failedRow fresh }
  | .directory d => { s with directory := d }

end Store

instance : Relational Store Key Write where
  keys := Store.keys
  hit := Store.hit
  apply := Store.apply
  rowKey := Key.row
  absent s i := (s.event i).isNone

end Notifications
