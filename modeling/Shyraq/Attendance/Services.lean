import Mathlib.Data.List.Sort
import Shyraq.Attendance.Entities

/-!
# AttendanceService and TimelineService

Each request is one transaction.  What other modules answer is part of the request: the staff
member behind the caller, whether the child exists, whether the pickup user is an approved
guardian, whether the mentor is assigned to the child's group.  The audit log and the
notifications are left out.
-/

namespace Attendance

open Kernel Transactions

abbrev Sql (A : Type) := Prog Store Key Write AttendanceError A

namespace AttendanceEventRepository

def create (event : AttendanceEvent) : Sql Unit :=
  Prog.insertOr (.insertEvent event) (.internal "attendance_events")

/-- Live rows only. -/
def findById (eventId : Nat) : Sql (Option AttendanceEvent) :=
  Prog.query fun s => (s.eventAt eventId).filter fun e => e.deletedAt.isNone

/-- All mutable columns, the tombstone among them. -/
def update (event : AttendanceEvent) : Sql AttendanceEvent := do
  let row ← Prog.returning (.updateEvent event) fun s => s.eventAt event.id
  Prog.require row (.internal "attendance_event_update_readback_failed")

end AttendanceEventRepository

/-- A live event of the child, of this type, recorded in the half-open window. -/
def AttendanceEvent.liveIn (childId : Nat) (source stop : Int) (eventType : AttendanceEventType)
    (e : AttendanceEvent) : Bool :=
  e.deletedAt.isNone && e.childId == childId && decide (source ≤ e.recordedAt) &&
    decide (e.recordedAt < stop) && e.eventType == eventType

namespace AttendanceEventRepository

def listByChild (childId : Nat) (source stop : Int) (eventType : AttendanceEventType) (limit : Nat) :
    Sql (List AttendanceEvent) :=
  Prog.query fun s => ((s.events.filter (AttendanceEvent.liveIn childId source stop eventType)).insertionSort
    fun a b => b.recordedAt ≤ a.recordedAt).take limit

end AttendanceEventRepository

namespace TimelineEntryRepository

def create (entry : TimelineEntry) : Sql Unit :=
  Prog.insertOr (.insertEntry entry) (.internal "timeline_entries")

def findById (entryId : Nat) : Sql (Option TimelineEntry) := Prog.query fun s => s.entryAt entryId

def findBySourceEventId (sourceEventId : Nat) : Sql (Option TimelineEntry) :=
  Prog.query fun s => s.entries.find? fun x => x.sourceEventId == some sourceEventId

def update (entry : TimelineEntry) : Sql TimelineEntry := do
  let row ← Prog.returning (.updateEntry entry) fun s => s.entryAt entry.id
  Prog.require row (.internal "timeline_entry_update_readback_failed")

def delete (entryId : Nat) : Sql Unit := do
  let _ ← Prog.update (.deleteEntry entryId)
  pure ()

end TimelineEntryRepository

namespace ChildDailyStatusRepository

def findByChildAndDate (childId : Nat) (date : Int) : Sql (Option ChildDailyStatus) :=
  Prog.query fun s => s.dailyStatusAt childId date

def upsert (daily : ChildDailyStatus) : Sql ChildDailyStatus := do
  let row ← Prog.returning (.upsertStatus daily) fun s => s.dailyStatusAt daily.childId daily.date
  Prog.require row (.internal "child_daily_status_upsert_readback_failed")

/-- The row as it is after the statement, whether it matched or not. -/
def updatePresentIfAbsentOrLate (childId : Nat) (date : Int) (setBy : Nat) :
    Sql (Option ChildDailyStatus) := do
  let _ ← Prog.update (.updatePresentIfAbsentOrLate childId date setBy)
  findByChildAndDate childId date

end ChildDailyStatusRepository

/-! ## AttendanceService -/

/-- Five minutes. -/
def skewMs : Int := 300000

def assertNotFuture (now when' : Int) : Sql Unit :=
  Prog.guardOr (decide (when' ≤ now + skewMs)) (.invalidAttendanceTimestamp when' now)

/-- What the guardians table answers for the child and the pickup user. -/
def assertPickupAllowed (pickupAllowed : Bool) (childId pickupUserId : Nat) : Sql Unit :=
  Prog.guardOr pickupAllowed (.pickupUserNotAllowed childId pickupUserId)

/-- `almatyDayStartUtc`: the instant at which the Almaty day starts. -/
def almatyDayStartUtc (date : Int) (addDays : Int) : Int := midnight (date + addDays) - almatyOffsetMs

structure AttendanceFlowResult where
  event : AttendanceEvent
  dailyStatus : Option ChildDailyStatus
  timelineEntry : TimelineEntry
  deriving DecidableEq

/-- The caller and what is known of the request from elsewhere. -/
structure Caller where
  userId : Nat
  /-- The active staff member of the user in this kindergarten. -/
  staff : Option Nat

/-- `PatchEventOpts`. -/
structure PatchEventOpts where
  skipEditWindow : Bool
  allowStructuralCorrection : Bool

/-- The entry that mirrors an event. -/
def mirrorEntry (id : Nat) (event : AttendanceEvent) (recordedBy : Option Nat) : TimelineEntry where
  id := id
  childId := event.childId
  entryType := event.eventType.entryType
  title := some event.eventType.title
  body := none
  mediaUrls := none
  metadata := none
  recordedBy := recordedBy
  entryTime := event.recordedAt
  sourceEventId := some event.id

namespace AttendanceService

def resolveCallerStaffMemberId (caller : Caller) : Sql Nat :=
  Prog.require caller.staff (.staffNotFound caller.userId)

/-- A new status row of the day, `present` by default of the callers. -/
def createStatus (childId : Nat) (date : Int) (status : ChildIntradayStatus) (staff : Nat) :
    Sql ChildDailyStatus := do
  let id ← Prog.uuid
  ChildDailyStatusRepository.upsert ⟨id, childId, date, status, none, some staff⟩

def checkIn (now : Int) (childId : Nat) (caller : Caller) (childExists : Bool)
    (recordedAt : Option Int) (notes : Option String) : Sql AttendanceFlowResult := do
  let recordedAt := recordedAt.getD now
  assertNotFuture now recordedAt
  let staff ← resolveCallerStaffMemberId caller
  Prog.guardOr childExists (.childNotFound childId)
  let eventId ← Prog.uuid
  let event := AttendanceEvent.createCheckIn eventId childId .manual staff notes recordedAt
  AttendanceEventRepository.create event
  let entryId ← Prog.uuid
  let timeline := mirrorEntry entryId event (some staff)
  TimelineEntryRepository.create timeline
  let isoDate := formatDateInTimezone recordedAt
  let existing ← ChildDailyStatusRepository.findByChildAndDate childId isoDate
  match existing with
  | none => do
      let dailyStatus ← createStatus childId isoDate .present staff
      pure ⟨event, some dailyStatus, timeline⟩
  | some row => do
      let current ← ChildDailyStatusRepository.updatePresentIfAbsentOrLate childId isoDate staff
      pure ⟨event, some (current.getD row), timeline⟩

/-- Without a pickup request the picker must be a guardian of the child. -/
def assertCheckOutPickup (childId : Nat) (pickupUserId pickupRequestId : Option Nat)
    (pickupAllowed : Bool) : Sql Unit :=
  match pickupRequestId, pickupUserId with
  | some _, _ => pure ()
  | none, none => .throw (.invalidAttendancePickup "pickupUserId is required when pickupRequestId is null")
  | none, some user => assertPickupAllowed pickupAllowed childId user

/-- The daily status is left alone. -/
def checkOut (now : Int) (childId : Nat) (caller : Caller) (childExists : Bool)
    (pickupUserId pickupRequestId : Option Nat) (pickupAllowed : Bool) (method : Option AttendanceMethod)
    (recordedAt : Option Int) (notes : Option String) : Sql AttendanceFlowResult := do
  let recordedAt := recordedAt.getD now
  assertNotFuture now recordedAt
  let staff ← resolveCallerStaffMemberId caller
  Prog.guardOr childExists (.childNotFound childId)
  assertCheckOutPickup childId pickupUserId pickupRequestId pickupAllowed
  let eventId ← Prog.uuid
  let event := AttendanceEvent.createCheckOut eventId childId (method.getD .manual) staff pickupUserId
    pickupRequestId notes recordedAt
  AttendanceEventRepository.create event
  let entryId ← Prog.uuid
  let timeline := mirrorEntry entryId event (some staff)
  TimelineEntryRepository.create timeline
  pure ⟨event, none, timeline⟩

/-! ### Corrections -/

/-- The entry of a corrected event follows it; an entry of the other type replaces it. -/
def cascadeTimeline (before updated : AttendanceEvent) : Sql Unit := do
  let found ← TimelineEntryRepository.findBySourceEventId updated.id
  match found with
  | none => pure ()
  | some entry =>
      if before.eventType = updated.eventType then
        if before.childId = updated.childId ∧ before.recordedAt = updated.recordedAt then pure ()
        else do
          let _ ← TimelineEntryRepository.update (entry.applyPatch
            ⟨none, none, none, none, some updated.recordedAt, some updated.childId⟩)
          pure ()
      else do
        TimelineEntryRepository.delete entry.id
        let id ← Prog.uuid
        -- the original author, not the one who corrects
        TimelineEntryRepository.create (mirrorEntry id updated entry.recordedBy)

/-- Promotes as a check-in does; demotes `present` only, and only without a live check-in. -/
def recomputeDailyStatus (childId : Nat) (isoDate : Int) (staff : Nat) : Sql Unit := do
  let liveCheckIns ← AttendanceEventRepository.listByChild childId (almatyDayStartUtc isoDate 0)
    (almatyDayStartUtc isoDate 1) .checkIn 1
  let existing ← ChildDailyStatusRepository.findByChildAndDate childId isoDate
  if 0 < liveCheckIns.length then
    match existing with
    | none => do
        let _ ← createStatus childId isoDate .present staff
        pure ()
    | some _ => do
        let _ ← ChildDailyStatusRepository.updatePresentIfAbsentOrLate childId isoDate staff
        pure ()
  else
    match existing with
    | some row =>
        if row.status = .present then do
          let _ ← ChildDailyStatusRepository.upsert ⟨row.id, childId, isoDate, .absent, row.note, some staff⟩
          pure ()
        else pure ()
    | none => pure ()

/-- The (child, day) that the event left and the one it landed in. -/
def recomputeAffectedDailyStatuses (before after : AttendanceEvent) (staff : Nat) : Sql Unit :=
  Prog.forEach (fun b => recomputeDailyStatus b.1 b.2 staff)
    [(before.childId, before.day), (after.childId, after.day)].dedup

/-- The edit window: the Almaty day of the event. -/
def assertEditWindow (now : Int) (event : AttendanceEvent) (skipEditWindow : Bool) : Sql Unit :=
  Prog.guardOr (skipEditWindow || event.day == formatDateInTimezone now)
    (.attendanceEditWindowExpired event.id event.recordedAt now)

def assertStructural (eventId : Nat) (patch : UpdateAttendanceEventPatch) (allowed : Bool) : Sql Unit := do
  Prog.guardOr (allowed || patch.childId.isNone) (.attendanceCorrectionAdminOnly eventId "child_id")
  Prog.guardOr (allowed || patch.eventType.isNone) (.attendanceCorrectionAdminOnly eventId "event_type")

/-- The pickup user of the row as it will end up. -/
def assertPatchedPickup (before : AttendanceEvent) (patch : UpdateAttendanceEventPatch)
    (pickupAllowed : Bool) : Sql Unit :=
  let nextChildId := patch.childId.getD before.childId
  let nextEventType := patch.eventType.getD before.eventType
  match nextEventType, patch.pickupUserId.or before.pickupUserId with
  | .checkIn, _ => Prog.guardOr patch.pickupUserId.isNone
      (.invalidAttendancePickup "cannot set pickup_user_id on a check_in event")
  | .checkOut, none => pure ()
  | .checkOut, some user =>
      if nextChildId ≠ before.childId ∨ some user ≠ before.pickupUserId then
        assertPickupAllowed pickupAllowed nextChildId user
      else pure ()

def patchEvent (now : Int) (eventId : Nat) (caller : Caller) (patch : UpdateAttendanceEventPatch)
    (opts : PatchEventOpts) (childExists pickupAllowed : Bool) : Sql AttendanceEvent := do
  let staff ← resolveCallerStaffMemberId caller
  assertNotFuture now (patch.recordedAt.getD now)
  let found ← AttendanceEventRepository.findById eventId
  let before ← Prog.require found (.attendanceEventNotFound eventId)
  assertStructural eventId patch opts.allowStructuralCorrection
  assertEditWindow now before opts.skipEditWindow
  Prog.guardOr (childExists || patch.childId.all fun c => c == before.childId)
    (.childNotFound (patch.childId.getD 0))
  assertPatchedPickup before patch pickupAllowed
  let updated ← AttendanceEventRepository.update (before.applyPatch patch)
  cascadeTimeline before updated
  recomputeAffectedDailyStatuses before updated staff
  pure updated

def deleteEvent (now : Int) (eventId : Nat) (caller : Caller) : Sql Unit := do
  let staff ← resolveCallerStaffMemberId caller
  let found ← AttendanceEventRepository.findById eventId
  let before ← Prog.require found (.attendanceEventNotFound eventId)
  let _ ← AttendanceEventRepository.update (before.softDelete now)
  let entry ← TimelineEntryRepository.findBySourceEventId eventId
  match entry with
  | some x => do
      TimelineEntryRepository.delete x.id
      recomputeDailyStatus before.childId before.day staff
  | none => recomputeDailyStatus before.childId before.day staff

end AttendanceService

/-! ## TimelineService -/

/-- `TimelineEntryOpts`, with what the groups table answers for a mentor. -/
structure TimelineEntryOpts where
  isAdmin : Bool
  isMentor : Bool
  mentorOfGroup : Bool

structure CreateTimelineEntryInput where
  entryType : TimelineEntryType
  title : Option String
  body : Option String
  mediaUrls : Option (List String)
  metadata : Option Metadata
  entryTime : Option Int

structure UpdateTimelineEntryInput where
  title : Option (Option String)
  body : Option (Option String)
  mediaUrls : Option (Option (List String))
  metadata : Option (Option Metadata)
  entryTime : Option Int

namespace TimelineService

/-- `RESERVED_ENTRY_TYPES`. -/
def reservedEntryTypes : List TimelineEntryType := [.checkIn, .checkOut]

/-- The typed key is checked only when it is there. -/
def assertTyped (metadata : Option Metadata) (entryType key : String) (allowed : List String)
    (expected : String) : Sql Unit :=
  match metadata.bind fun m => m.lookup key with
  | none => pure ()
  | some v => Prog.guardOr (allowed.any fun a => v == .string a)
      (.invalidTimelineMetadata entryType (key ++ " must be " ++ expected ++ ", got " ++ v.shown))

def assertTimelineMetadata (entryType : TimelineEntryType) (metadata : Option Metadata) : Sql Unit :=
  match entryType with
  | .mood => assertTyped metadata "mood" "mood" ["happy", "ok", "sad"] "happy|ok|sad"
  | .meal => assertTyped metadata "meal" "ate" ["all", "half", "little"] "all|half|little"
  | _ => pure ()

/-- A mentor works only with children of the own group. -/
def assertMentorScope (opts : TimelineEntryOpts) (childId : Nat) : Sql Unit :=
  Prog.guardOr (opts.isAdmin || !opts.isMentor || opts.mentorOfGroup) (.mentorScopeViolated childId)

def resolveStaffMemberId (caller : Caller) : Sql Nat :=
  Prog.require caller.staff (.staffNotFound caller.userId)

def createEntry (now : Int) (childId : Nat) (caller : Caller) (dto : CreateTimelineEntryInput)
    (childExists : Bool) (opts : TimelineEntryOpts) : Sql TimelineEntry := do
  Prog.guardOr (!reservedEntryTypes.contains dto.entryType) (.invalidTimelineEntryType dto.entryType)
  assertTimelineMetadata dto.entryType dto.metadata
  let staffMemberId ← resolveStaffMemberId caller
  Prog.guardOr childExists (.childNotFound childId)
  assertMentorScope opts childId
  let entryTime := dto.entryTime.getD now
  assertNotFuture now entryTime
  let id ← Prog.uuid
  let entry : TimelineEntry := ⟨id, childId, dto.entryType, dto.title, dto.body, dto.mediaUrls, dto.metadata,
    some staffMemberId, entryTime, none⟩
  TimelineEntryRepository.create entry
  pure entry

/-- An admin needs no staff row. -/
def resolveAuthor (caller : Caller) (isAdmin : Bool) : Sql (Option Nat) :=
  if isAdmin then pure none
  else do
    let staffMemberId ← resolveStaffMemberId caller
    pure (some staffMemberId)

def assertEditable (entry : TimelineEntry) (caller : Caller) (opts : TimelineEntryOpts) : Sql Unit := do
  let staffMemberId ← resolveAuthor caller opts.isAdmin
  Prog.ofExcept (entry.assertEditableBy staffMemberId opts.isAdmin)
  assertMentorScope opts entry.childId

def findEntryOrThrow (entryId : Nat) : Sql TimelineEntry := do
  let entry ← TimelineEntryRepository.findById entryId
  Prog.require entry (.timelineEntryNotFound entryId)

def updateEntry (now : Int) (entryId : Nat) (caller : Caller) (dto : UpdateTimelineEntryInput)
    (opts : TimelineEntryOpts) : Sql TimelineEntry := do
  let entry ← findEntryOrThrow entryId
  assertEditable entry caller opts
  assertNotFuture now (dto.entryTime.getD now)
  assertTimelineMetadata entry.entryType (dto.metadata.getD none)
  TimelineEntryRepository.update (entry.applyPatch
    ⟨dto.title, dto.body, dto.mediaUrls, dto.metadata, dto.entryTime, none⟩)

def deleteEntry (entryId : Nat) (caller : Caller) (opts : TimelineEntryOpts) : Sql Unit := do
  let entry ← findEntryOrThrow entryId
  assertEditable entry caller opts
  TimelineEntryRepository.delete entryId

end TimelineService

/-! ## Requests -/

inductive Op
  | checkIn (now : Int) (childId : Nat) (caller : Caller) (childExists : Bool)
      (recordedAt : Option Int) (notes : Option String)
  | checkOut (now : Int) (childId : Nat) (caller : Caller) (childExists : Bool)
      (pickupUserId pickupRequestId : Option Nat) (pickupAllowed : Bool)
      (method : Option AttendanceMethod) (recordedAt : Option Int) (notes : Option String)
  | patchEvent (now : Int) (eventId : Nat) (caller : Caller) (patch : UpdateAttendanceEventPatch)
      (opts : PatchEventOpts) (childExists pickupAllowed : Bool)
  | deleteEvent (now : Int) (eventId : Nat) (caller : Caller)
  | createEntry (now : Int) (childId : Nat) (caller : Caller) (dto : CreateTimelineEntryInput)
      (childExists : Bool) (opts : TimelineEntryOpts)
  | updateEntry (now : Int) (entryId : Nat) (caller : Caller) (dto : UpdateTimelineEntryInput)
      (opts : TimelineEntryOpts)
  | deleteEntry (entryId : Nat) (caller : Caller) (opts : TimelineEntryOpts)

inductive Response
  | flow (r : AttendanceFlowResult)
  | event (e : AttendanceEvent)
  | entry (x : TimelineEntry)
  | noContent
  deriving DecidableEq

def Op.prog : Op → Sql Response
  | checkIn now c caller found recordedAt notes =>
      .bind (AttendanceService.checkIn now c caller found recordedAt notes) fun r => .ret (.flow r)
  | checkOut now c caller found user request allowed method recordedAt notes =>
      .bind (AttendanceService.checkOut now c caller found user request allowed method recordedAt notes)
        fun r => .ret (.flow r)
  | patchEvent now i caller patch opts found allowed =>
      .bind (AttendanceService.patchEvent now i caller patch opts found allowed) fun e => .ret (.event e)
  | deleteEvent now i caller =>
      .bind (AttendanceService.deleteEvent now i caller) fun _ => .ret .noContent
  | createEntry now c caller dto found opts =>
      .bind (TimelineService.createEntry now c caller dto found opts) fun x => .ret (.entry x)
  | updateEntry now i caller dto opts =>
      .bind (TimelineService.updateEntry now i caller dto opts) fun x => .ret (.entry x)
  | deleteEntry i caller opts =>
      .bind (TimelineService.deleteEntry i caller opts) fun _ => .ret .noContent

/-- Up to `n` transactions at once. -/
abbrev System (n : Nat) := Transactions.System Store Key Write AttendanceError Op Response n

abbrev Schedule (n : Nat) := List (Choice Op n)

abbrev AttendanceCommit := Commit Store Key Write Op Response

def run {n : Nat} (s : Store) (cs : Schedule n) : Option (System n) :=
  (System.init s).exec Op.prog cs

end Attendance
