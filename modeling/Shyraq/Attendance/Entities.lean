import Shyraq.Kernel.Calendar
import Shyraq.Transactions.Statements
import Shyraq.Transactions.Table
import Shyraq.Transactions.Runs

/-!
# Attendance events, timeline entries, daily statuses

The tables `attendance_events`, `timeline_entries` and `child_daily_status` of one kindergarten.
A `date` column is the day itself, counted from 1970-01-01.  The columns `created_at` and
`updated_at` are left out.
-/

namespace Attendance

open Kernel Transactions

inductive AttendanceEventType
  | checkIn | checkOut
  deriving DecidableEq, Repr

inductive AttendanceMethod
  | faceId | manual | otpPickup
  deriving DecidableEq, Repr

inductive ChildIntradayStatus
  | present | absent | sick | late | earlyPickup | onVacation
  deriving DecidableEq, Repr

inductive TimelineEntryType
  | checkIn | checkOut | activity | meal | nap | note | photo | mood | medication
  deriving DecidableEq, Repr

/-- The entry that an event is mirrored by. -/
def AttendanceEventType.entryType : AttendanceEventType → TimelineEntryType
  | checkIn => .checkIn
  | checkOut => .checkOut

def AttendanceEventType.title : AttendanceEventType → String
  | checkIn => "Check-in"
  | checkOut => "Check-out"

inductive AttendanceError
  | staffNotFound (userId : Nat)
  | childNotFound (id : Nat)
  | attendanceEventNotFound (id : Nat)
  | attendanceCorrectionAdminOnly (eventId : Nat) (field : String)
  | attendanceEditWindowExpired (eventId : Nat) (recordedAt now : Int)
  | invalidAttendancePickup (message : String)
  | pickupUserNotAllowed (childId userId : Nat)
  | invalidAttendanceTimestamp (when' now : Int)
  | invalidTimelineEntryType (entryType : TimelineEntryType)
  | invalidTimelineMetadata (entryType reason : String)
  | mentorScopeViolated (childId : Nat)
  | timelineEntryNotAuthor (entryId : Nat)
  | timelineEntryNotFound (entryId : Nat)
  /-- A failed read-back, or what the driver throws on a violated constraint. -/
  | internal (message : String)
  deriving DecidableEq

/-! ## Events -/

structure AttendanceEvent where
  id : Nat
  childId : Nat
  eventType : AttendanceEventType
  method : AttendanceMethod
  recordedBy : Option Nat
  pickupUserId : Option Nat
  pickupRequestId : Option Nat
  notes : Option String
  recordedAt : Int
  deletedAt : Option Int
  deriving DecidableEq

instance : Row AttendanceEvent := ⟨AttendanceEvent.id⟩

/-- `UpdateAttendanceEventPatch`; `none` leaves the field alone. -/
structure UpdateAttendanceEventPatch where
  recordedAt : Option Int
  notes : Option (Option String)
  pickupUserId : Option Nat
  childId : Option Nat
  eventType : Option AttendanceEventType

namespace AttendanceEvent

def createCheckIn (id childId : Nat) (method : AttendanceMethod) (recordedBy : Nat)
    (notes : Option String) (recordedAt : Int) : AttendanceEvent :=
  ⟨id, childId, .checkIn, method, some recordedBy, none, none, notes, recordedAt, none⟩

def createCheckOut (id childId : Nat) (method : AttendanceMethod) (recordedBy : Nat)
    (pickupUserId pickupRequestId : Option Nat) (notes : Option String) (recordedAt : Int) :
    AttendanceEvent :=
  ⟨id, childId, .checkOut, method, some recordedBy, pickupUserId, pickupRequestId, notes, recordedAt,
    none⟩

variable (e : AttendanceEvent)

/-- A check-in never carries a pickup user. -/
def applyPatch (patch : UpdateAttendanceEventPatch) : AttendanceEvent :=
  let eventType := patch.eventType.getD e.eventType
  { e with
    recordedAt := patch.recordedAt.getD e.recordedAt
    notes := patch.notes.getD e.notes
    childId := patch.childId.getD e.childId
    eventType := eventType
    pickupUserId :=
      if eventType = .checkIn then none else patch.pickupUserId.or e.pickupUserId
    pickupRequestId := if eventType = .checkIn then none else e.pickupRequestId }

/-- Deleting again keeps the first timestamp. -/
def softDelete (at' : Int) : AttendanceEvent := { e with deletedAt := e.deletedAt.or (some at') }

/-- `update` writes all columns but the immutable ones. -/
def saved (row : AttendanceEvent) : AttendanceEvent :=
  { e with id := row.id, method := row.method, recordedBy := row.recordedBy }

/-- The Almaty day of the event, `formatLocalIsoDate`. -/
def day : Int := formatDateInTimezone e.recordedAt

end AttendanceEvent

/-! ## Timeline entries -/

inductive Json
  | string (s : String)
  /-- Any other value, as `String(v)` shows it. -/
  | other (shown : String)
  deriving DecidableEq

def Json.shown : Json → String
  | string s => s
  | other shown => shown

abbrev Metadata := List (String × Json)

structure TimelineEntry where
  id : Nat
  childId : Nat
  entryType : TimelineEntryType
  title : Option String
  body : Option String
  mediaUrls : Option (List String)
  metadata : Option Metadata
  recordedBy : Option Nat
  entryTime : Int
  sourceEventId : Option Nat
  deriving DecidableEq

instance : Row TimelineEntry := ⟨TimelineEntry.id⟩

/-- The patch of `TimelineEntry.applyPatch`. -/
structure TimelineEntryPatch where
  title : Option (Option String)
  body : Option (Option String)
  mediaUrls : Option (Option (List String))
  metadata : Option (Option Metadata)
  entryTime : Option Int
  childId : Option Nat

namespace TimelineEntry

variable (x : TimelineEntry)

def applyPatch (patch : TimelineEntryPatch) : TimelineEntry :=
  { x with
    title := patch.title.getD x.title
    body := patch.body.getD x.body
    mediaUrls := patch.mediaUrls.getD x.mediaUrls
    metadata := patch.metadata.getD x.metadata
    entryTime := patch.entryTime.getD x.entryTime
    childId := patch.childId.getD x.childId }

/-- `update` leaves the type, the author and the source alone. -/
def saved (row : TimelineEntry) : TimelineEntry :=
  { x with
    id := row.id, entryType := row.entryType, recordedBy := row.recordedBy
    sourceEventId := row.sourceEventId }

def assertEditableBy (staffMemberId : Option Nat) (isAdmin : Bool) : Except AttendanceError Unit :=
  if isAdmin then .ok ()
  else if x.recordedBy = none ∨ staffMemberId = none then .error (.timelineEntryNotAuthor x.id)
  else if x.recordedBy ≠ staffMemberId then .error (.timelineEntryNotAuthor x.id)
  else .ok ()

end TimelineEntry

/-! ## Daily statuses -/

structure ChildDailyStatus where
  id : Nat
  childId : Nat
  date : Int
  status : ChildIntradayStatus
  note : Option String
  setBy : Option Nat
  deriving DecidableEq

instance : Row ChildDailyStatus := ⟨ChildDailyStatus.id⟩

namespace ChildDailyStatus

variable (d : ChildDailyStatus)

/-- The row of this child and day. -/
def isOf (childId : Nat) (date : Int) : Bool := d.childId == childId && d.date == date

/-- `ON CONFLICT (child_id, date) DO UPDATE`: the row keeps its id. -/
def merged (row : ChildDailyStatus) : ChildDailyStatus :=
  { row with status := d.status, note := d.note, setBy := d.setBy }

/-- Set to `present` by a check-in. -/
def promoted (setBy : Nat) : ChildDailyStatus := { d with status := .present, setBy := some setBy }

end ChildDailyStatus

/-- `status IN ('absent', 'late')`. -/
def ChildIntradayStatus.isPromotableByCheckIn (s : ChildIntradayStatus) : Bool :=
  s == .absent || s == .late

/-! ## Tables -/

structure Store where
  events : List AttendanceEvent
  entries : List TimelineEntry
  dailyStatuses : List ChildDailyStatus

inductive Key
  | row (id : Nat)
  /-- `idx_daily_status_child_date`. -/
  | daily (childId : Nat) (date : Int)
  deriving DecidableEq

inductive Write
  | insertEvent (e : AttendanceEvent)
  | updateEvent (e : AttendanceEvent)
  | insertEntry (x : TimelineEntry)
  | updateEntry (x : TimelineEntry)
  | deleteEntry (id : Nat)
  | upsertStatus (d : ChildDailyStatus)
  | updatePresentIfAbsentOrLate (childId : Nat) (date : Int) (setBy : Nat)

namespace Store

def eventAt (s : Store) (i : Nat) : Option AttendanceEvent := Table.find s.events i

def entryAt (s : Store) (i : Nat) : Option TimelineEntry := Table.find s.entries i

def dailyStatusAt (s : Store) (childId : Nat) (date : Int) : Option ChildDailyStatus :=
  s.dailyStatuses.find? (·.isOf childId date)

def keys : Write → List Key
  | .insertEvent e | .updateEvent e => [.row e.id]
  | .insertEntry x | .updateEntry x => [.row x.id]
  | .deleteEntry i => [.row i]
  | .upsertStatus d => [.daily d.childId d.date]
  | .updatePresentIfAbsentOrLate childId date _ => [.daily childId date]

/-- An entry's source must exist. -/
def hit (s : Store) : Write → Bool
  | .insertEvent e => s.events.all fun q => q.id != e.id
  | .updateEvent e => (s.eventAt e.id).isSome
  | .insertEntry x => (s.entries.all fun q => q.id != x.id) &&
      x.sourceEventId.all fun i => (s.eventAt i).isSome
  | .updateEntry x => (s.entryAt x.id).isSome
  | .deleteEntry i => (s.entryAt i).isSome
  | .upsertStatus _ => true
  | .updatePresentIfAbsentOrLate childId date _ =>
      (s.dailyStatusAt childId date).any fun d => d.status.isPromotableByCheckIn

def upsertStatus (l : List ChildDailyStatus) (d : ChildDailyStatus) : List ChildDailyStatus :=
  if l.any (·.isOf d.childId d.date) then
    l.map fun row => if row.isOf d.childId d.date then d.merged row else row
  else l ++ [d]

def promoteStatus (l : List ChildDailyStatus) (childId : Nat) (date : Int) (setBy : Nat) :
    List ChildDailyStatus :=
  l.map fun row =>
    if row.isOf childId date && row.status.isPromotableByCheckIn then row.promoted setBy else row

def apply (s : Store) : Write → Store
  | .insertEvent e => { s with events := s.events ++ [e] }
  | .updateEvent e => { s with events := Table.updateWhere s.events e.id (fun _ => true) e.saved }
  | .insertEntry x => { s with entries := s.entries ++ [x] }
  | .updateEntry x => { s with entries := Table.updateWhere s.entries x.id (fun _ => true) x.saved }
  | .deleteEntry i => { s with entries := s.entries.filter fun x => x.id != i }
  | .upsertStatus d => { s with dailyStatuses := upsertStatus s.dailyStatuses d }
  | .updatePresentIfAbsentOrLate childId date setBy =>
      { s with dailyStatuses := promoteStatus s.dailyStatuses childId date setBy }

end Store

instance : Relational Store Key Write where
  keys := Store.keys
  hit := Store.hit
  apply := Store.apply
  rowKey := Key.row
  absent s i := (s.eventAt i).isNone && (s.entryAt i).isNone &&
    s.dailyStatuses.all fun d => d.id != i

end Attendance
