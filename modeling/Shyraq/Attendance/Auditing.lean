import Shyraq.Attendance.Services
import Shyraq.Transactions.Statements

/-!
# The audit log of AttendanceService

The requests of `AttendanceService` over the attendance tables and the table `audit_log`: what each
request does to the tables is as before, and the entry it writes is part of its transaction.
-/

namespace Attendance

open Kernel Transactions

inductive AuditEntityType
  | attendanceEvent | childDailyStatus
  deriving DecidableEq, Repr

inductive AuditAction
  | create | update | delete
  deriving DecidableEq, Repr

/-- `toAuditSnapshot`: the state of a row. -/
inductive AuditSnapshot
  | event (e : AttendanceEvent)
  | dailyStatus (d : ChildDailyStatus)
  deriving DecidableEq

structure AuditLogEntry where
  id : Nat
  entityType : AuditEntityType
  entityId : Nat
  action : AuditAction
  actorUserId : Option Nat
  actorStaffId : Option Nat
  before : Option AuditSnapshot
  after : Option AuditSnapshot
  createdAt : Int
  deriving DecidableEq

instance : Row AuditLogEntry := ⟨AuditLogEntry.id⟩

structure AuditedStore where
  attendance : Store
  auditLog : List AuditLogEntry

inductive AuditedWrite
  | attendance (w : Write)
  | insertAudit (a : AuditLogEntry)

namespace AuditedStore

def keys : AuditedWrite → List Key
  | .attendance w => Store.keys w
  | .insertAudit a => [.row a.id]

def hit (s : AuditedStore) : AuditedWrite → Bool
  | .attendance w => s.attendance.hit w
  | .insertAudit a => s.auditLog.all fun q => q.id != a.id

def apply (s : AuditedStore) : AuditedWrite → AuditedStore
  | .attendance w => { s with attendance := s.attendance.apply w }
  | .insertAudit a => { s with auditLog := s.auditLog ++ [a] }

end AuditedStore

instance : Relational AuditedStore Key AuditedWrite where
  keys := AuditedStore.keys
  hit := AuditedStore.hit
  apply := AuditedStore.apply
  rowKey := Key.row
  absent s i := Relational.absent s.attendance i && s.auditLog.all fun a => a.id != i

abbrev AuditedSql (A : Type) := Prog AuditedStore Key AuditedWrite AttendanceError A

/-- The attendance tables among the others. -/
def attendanceTables : Part Store Key Write AttendanceError AuditedStore Key AuditedWrite AttendanceError :=
  ⟨AuditedStore.attendance, id, .attendance, id⟩

def attendance {A : Type} (p : Sql A) : AuditedSql A := p.within attendanceTables

/-! ## AuditService -/

structure RecordAuditInput where
  entityType : AuditEntityType
  entityId : Nat
  action : AuditAction
  actorUserId : Option Nat
  actorStaffId : Option Nat
  before : Option AuditSnapshot
  after : Option AuditSnapshot

def AuditLogEntry.create (id : Nat) (input : RecordAuditInput) (createdAt : Int) : AuditLogEntry :=
  ⟨id, input.entityType, input.entityId, input.action, input.actorUserId, input.actorStaffId, input.before,
    input.after, createdAt⟩

/-- Within the transaction of the caller. -/
def AuditService.record (now : Int) (input : RecordAuditInput) : AuditedSql Unit := do
  let id ← Prog.uuid
  Prog.insertOr (.insertAudit (AuditLogEntry.create id input now)) (.internal "audit_log")

/-! ## The audited requests -/

namespace AuditedService

/-- What a new event is recorded as. -/
def eventCreated (caller : Caller) (event : AttendanceEvent) : RecordAuditInput :=
  ⟨.attendanceEvent, event.id, .create, some caller.userId, caller.staff, none, some (.event event)⟩

def checkIn (now : Int) (childId : Nat) (caller : Caller) (childExists : Bool)
    (recordedAt : Option Int) (notes : Option String) : AuditedSql AttendanceFlowResult := do
  let result ← attendance (AttendanceService.checkIn now childId caller childExists recordedAt notes)
  AuditService.record now (eventCreated caller result.event)
  pure result

def checkOut (now : Int) (childId : Nat) (caller : Caller) (childExists : Bool)
    (pickupUserId pickupRequestId : Option Nat) (pickupAllowed : Bool) (method : Option AttendanceMethod)
    (recordedAt : Option Int) (notes : Option String) : AuditedSql AttendanceFlowResult := do
  let result ← attendance (AttendanceService.checkOut now childId caller childExists pickupUserId
    pickupRequestId pickupAllowed method recordedAt notes)
  AuditService.record now (eventCreated caller result.event)
  pure result

def patchEvent (now : Int) (eventId : Nat) (caller : Caller) (patch : UpdateAttendanceEventPatch)
    (opts : PatchEventOpts) (childExists pickupAllowed : Bool) : AuditedSql AttendanceEvent := do
  let staff ← attendance (AttendanceService.resolveCallerStaffMemberId caller)
  attendance (assertNotFuture now (patch.recordedAt.getD now))
  let found ← attendance (AttendanceEventRepository.findById eventId)
  let before ← Prog.require found (.attendanceEventNotFound eventId)
  attendance (AttendanceService.assertStructural eventId patch opts.allowStructuralCorrection)
  attendance (AttendanceService.assertEditWindow now before opts.skipEditWindow)
  Prog.guardOr (childExists || patch.childId.all fun c => c == before.childId)
    (.childNotFound (patch.childId.getD 0))
  attendance (AttendanceService.assertPatchedPickup before patch pickupAllowed)
  let updated ← attendance (AttendanceEventRepository.update (before.applyPatch patch))
  attendance (AttendanceService.cascadeTimeline before updated)
  attendance (AttendanceService.recomputeAffectedDailyStatuses before updated staff)
  AuditService.record now ⟨.attendanceEvent, eventId, .update, some caller.userId, some staff,
    some (.event before), some (.event updated)⟩
  pure updated

/-- The mirror entry of a deleted event goes, if there is one. -/
def deleteMirror : Option TimelineEntry → AuditedSql Unit
  | some x => attendance (TimelineEntryRepository.delete x.id)
  | none => pure ()

/-- The entry has no `after`. -/
def deleteEvent (now : Int) (eventId : Nat) (caller : Caller) : AuditedSql Unit := do
  let staff ← attendance (AttendanceService.resolveCallerStaffMemberId caller)
  let found ← attendance (AttendanceEventRepository.findById eventId)
  let before ← Prog.require found (.attendanceEventNotFound eventId)
  let _ ← attendance (AttendanceEventRepository.update (before.softDelete now))
  let entry ← attendance (TimelineEntryRepository.findBySourceEventId eventId)
  deleteMirror entry
  attendance (AttendanceService.recomputeDailyStatus before.childId before.day staff)
  AuditService.record now ⟨.attendanceEvent, eventId, .delete, some caller.userId, some staff,
    some (.event before), none⟩

structure SetDailyStatusInput where
  childId : Nat
  date : Int
  status : ChildIntradayStatus
  note : Option String

def setDailyStatus (now : Int) (caller : Caller) (input : SetDailyStatusInput) (childExists : Bool) :
    AuditedSql ChildDailyStatus := do
  let staff ← attendance (AttendanceService.resolveCallerStaffMemberId caller)
  Prog.guardOr childExists (.childNotFound input.childId)
  let previous ← attendance (ChildDailyStatusRepository.findByChildAndDate input.childId input.date)
  let id ← Prog.uuid
  let upserted ← attendance (ChildDailyStatusRepository.upsert
    ⟨id, input.childId, input.date, input.status, input.note, some staff⟩)
  AuditService.record now ⟨.childDailyStatus, upserted.id, if previous.isNone then .create else .update,
    some caller.userId, some staff, previous.map .dailyStatus, some (.dailyStatus upserted)⟩
  pure upserted

end AuditedService

inductive AuditedOp
  | checkIn (now : Int) (childId : Nat) (caller : Caller) (childExists : Bool)
      (recordedAt : Option Int) (notes : Option String)
  | checkOut (now : Int) (childId : Nat) (caller : Caller) (childExists : Bool)
      (pickupUserId pickupRequestId : Option Nat) (pickupAllowed : Bool)
      (method : Option AttendanceMethod) (recordedAt : Option Int) (notes : Option String)
  | patchEvent (now : Int) (eventId : Nat) (caller : Caller) (patch : UpdateAttendanceEventPatch)
      (opts : PatchEventOpts) (childExists pickupAllowed : Bool)
  | deleteEvent (now : Int) (eventId : Nat) (caller : Caller)
  | setDailyStatus (now : Int) (caller : Caller) (input : AuditedService.SetDailyStatusInput)
      (childExists : Bool)

inductive AuditedResponse
  | flow (r : AttendanceFlowResult)
  | event (e : AttendanceEvent)
  | dailyStatus (d : ChildDailyStatus)
  | noContent

def AuditedOp.prog : AuditedOp → AuditedSql AuditedResponse
  | checkIn now c caller found recordedAt notes =>
      .bind (AuditedService.checkIn now c caller found recordedAt notes) fun r => .ret (.flow r)
  | checkOut now c caller found user request allowed method recordedAt notes =>
      .bind (AuditedService.checkOut now c caller found user request allowed method recordedAt notes)
        fun r => .ret (.flow r)
  | patchEvent now i caller patch opts found allowed =>
      .bind (AuditedService.patchEvent now i caller patch opts found allowed) fun e => .ret (.event e)
  | deleteEvent now i caller =>
      .bind (AuditedService.deleteEvent now i caller) fun _ => .ret .noContent
  | setDailyStatus now caller input found =>
      .bind (AuditedService.setDailyStatus now caller input found) fun d => .ret (.dailyStatus d)

/-- One request at a time. -/
abbrev AuditedSystem := Transactions.System AuditedStore Key AuditedWrite AttendanceError AuditedOp AuditedResponse 1

abbrev AuditedSchedule := List (Choice AuditedOp 1)

abbrev AuditedCommit := Commit AuditedStore Key AuditedWrite AuditedOp AuditedResponse

def runAudited (s : AuditedStore) (cs : AuditedSchedule) : Option AuditedSystem :=
  (System.init s).exec AuditedOp.prog cs

theorem runAudited_shows (s : AuditedStore) (cs : AuditedSchedule) (p : AuditedSystem → Bool)
    (h : (runAudited s cs).any p = true) : ∃ σ : AuditedSystem, runAudited s cs = some σ ∧ p σ = true :=
  (Option.any_eq_true _ _).1 h

end Attendance
