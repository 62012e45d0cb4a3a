import Shyraq.Attendance.Entities
import Shyraq.Guardians.Entities
import Shyraq.Kernel.KeySpace
import Shyraq.Transactions.Scripts
import Shyraq.Transactions.Statements

/-!
# Pickup requests and trusted people

The tables `pickup_requests` and `trusted_people` of one kindergarten, beside the attendance tables, and
the OTP keys of a pickup request in Redis.  The columns `created_at` and the child's other data are left out.
-/

namespace Pickup

open Kernel Transactions

inductive PickupRequestStatus
  | otpSent | validated | expired | cancelled
  deriving DecidableEq, Repr

/-- All but `otp_sent`. -/
def PickupRequestStatus.terminal : PickupRequestStatus → Bool
  | .otpSent => false
  | .validated | .expired | .cancelled => true

inductive PickupError
  | staffNotFound (userId : Nat)
  | pickupRequestNotFound (id : Nat)
  | pickupRequestStatusInvalid (status : Option PickupRequestStatus) (attempted : String)
  | pickupRequestAlreadyValidated
  | pickupRequestExpired
  | pickupOtpExpired
  | otpLocked
  | otpInvalid
  | otpRateLimited
  | trustedPersonNotFound (id : Nat)
  | trustedPersonRevoked
  | forbiddenAction (code : String)
  /-- The SMS provider failed. -/
  | smsFailed
  | attendance (e : Attendance.AttendanceError)
  deriving DecidableEq

/-! ## Rows -/

structure PickupRequest where
  id : Nat
  childId : Nat
  requestedByUserId : Nat
  trustedPersonId : Option Nat
  trustedPersonPhone : String
  trustedPersonName : String
  trustedPersonIin : Option String
  otpRef : Option String
  status : PickupRequestStatus
  validatedBy : Option Nat
  validatedAt : Option Int
  attendanceEventId : Option Nat
  parentRequestId : Option Nat
  expiresAt : Int
  deriving DecidableEq

instance : Row PickupRequest := ⟨PickupRequest.id⟩

namespace PickupRequest

variable (pr : PickupRequest)

def isExpired (now : Int) : Bool := decide (pr.expiresAt ≤ now)

def validate (staffMemberId attendanceEventId : Nat) (now : Int) : Except PickupError PickupRequest :=
  if pr.status = .validated then .error .pickupRequestAlreadyValidated
  else if pr.status ≠ .otpSent then .error (.pickupRequestStatusInvalid (some pr.status) "validate")
  else if pr.isExpired now then .error .pickupRequestExpired
  else
    .ok { pr with
      status := .validated
      validatedBy := some staffMemberId
      validatedAt := some now
      attendanceEventId := some attendanceEventId }

def cancel : Except PickupError PickupRequest :=
  if pr.status ≠ .otpSent then .error (.pickupRequestStatusInvalid (some pr.status) "cancel")
  else .ok { pr with status := .cancelled }

end PickupRequest

/-- `PickupRequestPatch`; `none` leaves the column alone. -/
structure PickupRequestPatch where
  status : Option PickupRequestStatus
  otpRef : Option String
  validatedBy : Option Nat
  validatedAt : Option Int
  attendanceEventId : Option Nat

def PickupRequestPatch.set (patch : PickupRequestPatch) (row : PickupRequest) : PickupRequest :=
  { row with
    status := patch.status.getD row.status
    otpRef := patch.otpRef.or row.otpRef
    validatedBy := patch.validatedBy.or row.validatedBy
    validatedAt := patch.validatedAt.or row.validatedAt
    attendanceEventId := patch.attendanceEventId.or row.attendanceEventId }

structure TrustedPerson where
  id : Nat
  childId : Nat
  addedByUserId : Nat
  fullName : String
  phone : String
  iin : Option String
  relation : String
  photoUrl : Option String
  isActive : Bool
  isOneTime : Bool
  usedAt : Option Int
  revokedAt : Option Int
  deriving DecidableEq

instance : Row TrustedPerson := ⟨TrustedPerson.id⟩

namespace TrustedPerson

variable (tp : TrustedPerson)

def isRevoked : Bool := tp.revokedAt.isSome

def isAvailableForPickup : Bool :=
  tp.isActive && !tp.isRevoked && !(tp.isOneTime && tp.usedAt.isSome)

def revoke (now : Int) : Except PickupError TrustedPerson :=
  if tp.isRevoked then .error .trustedPersonRevoked
  else if !tp.isActive then .error .trustedPersonRevoked
  else .ok { tp with isActive := false, revokedAt := some now }

end TrustedPerson

/-- `UpdateTrustedPersonInput`; `none` leaves the field alone. -/
structure TrustedPersonPatch where
  fullName : Option String
  phone : Option String
  iin : Option (Option String)
  relation : Option String
  photoUrl : Option (Option String)
  isOneTime : Option Bool
  deriving DecidableEq

namespace TrustedPersonPatch

def none : TrustedPersonPatch := ⟨.none, .none, .none, .none, .none, .none⟩

def set (patch : TrustedPersonPatch) (row : TrustedPerson) : TrustedPerson :=
  { row with
    fullName := patch.fullName.getD row.fullName
    phone := patch.phone.getD row.phone
    iin := patch.iin.getD row.iin
    relation := patch.relation.getD row.relation
    photoUrl := patch.photoUrl.getD row.photoUrl
    isOneTime := patch.isOneTime.getD row.isOneTime }

end TrustedPersonPatch

/-! ## The tables -/

structure Store where
  requests : List PickupRequest
  people : List TrustedPerson
  attendance : Attendance.Store

inductive Key
  | row (id : Nat)
  /-- `pickup:validate:<requestId>`. -/
  | validate (requestId : Nat)
  | attendance (k : Attendance.Key)
  deriving DecidableEq

inductive Write
  /-- Where the status is still the expected one, if one is given. -/
  | updateRequest (id : Nat) (patch : PickupRequestPatch) (expectedStatus : Option PickupRequestStatus)
  | updatePerson (id : Nat) (patch : TrustedPersonPatch)
  | markRevoked (id : Nat) (now : Int)
  | markUsed (id : Nat) (now : Int) (deactivate : Bool)
  | attendance (w : Attendance.Write)

namespace TrustedPerson

def revoked (now : Int) (row : TrustedPerson) : TrustedPerson :=
  { row with revokedAt := some now, isActive := false }

/-- `revoked_at IS NULL AND is_active = true`, and `used_at IS NULL` for a one-time claim. -/
def claimable (deactivate : Bool) (row : TrustedPerson) : Bool :=
  !row.isRevoked && row.isActive && (!deactivate || row.usedAt.isNone)

def used (now : Int) (deactivate : Bool) (row : TrustedPerson) : TrustedPerson :=
  { row with usedAt := some now, isActive := row.isActive && !deactivate }

end TrustedPerson

namespace Store

def request (s : Store) (i : Nat) : Option PickupRequest := Table.find s.requests i

def person (s : Store) (i : Nat) : Option TrustedPerson := Table.find s.people i

def expected (e : Option PickupRequestStatus) (row : PickupRequest) : Bool := e.all fun st => row.status == st

def keys : Write → List Key
  | .updateRequest i _ _ => [.row i]
  | .updatePerson i _ => [.row i]
  | .markRevoked i _ => [.row i]
  | .markUsed i _ _ => [.row i]
  | .attendance w => (Relational.keys Attendance.Store w).map Key.attendance

def hit (s : Store) : Write → Bool
  | .updateRequest i _ e => (s.request i).any (expected e)
  | .updatePerson i _ => (s.person i).isSome
  | .markRevoked i _ => (s.person i).any fun row => !row.isRevoked
  | .markUsed i _ d => (s.person i).any (TrustedPerson.claimable d)
  | .attendance w => Relational.hit s.attendance w

def apply (s : Store) : Write → Store
  | .updateRequest i patch e => { s with requests := Table.updateWhere s.requests i (expected e) patch.set }
  | .updatePerson i patch => { s with people := Table.updateWhere s.people i (fun _ => true) patch.set }
  | .markRevoked i now => { s with
      people := Table.updateWhere s.people i (fun row => !row.isRevoked) (TrustedPerson.revoked now) }
  | .markUsed i now d => { s with
      people := Table.updateWhere s.people i (TrustedPerson.claimable d) (TrustedPerson.used now d) }
  | .attendance w => { s with attendance := Relational.apply s.attendance w }

end Store

/-- Ids are drawn for attendance rows only. -/
instance : Relational Store Key Write where
  keys := Store.keys
  hit := Store.hit
  apply := Store.apply
  rowKey i := .attendance (.row i)
  absent s i := Relational.absent s.attendance i

def attendancePart : Part Attendance.Store Attendance.Key Attendance.Write Attendance.AttendanceError
    Store Key Write PickupError where
  get := Store.attendance
  key := .attendance
  write := .attendance
  error := .attendance

/-! ## The OTP keys -/

/-- `otp:pickup:<id>`, `otp:pickup:attempts:<id>` and `otp:pickup:lock:<id>`; the time is in milliseconds. -/
structure OtpCache where
  now : Nat
  code : Nat → Option (Expiring String)
  attempts : Nat → Option (Expiring Nat)
  lock : Nat → Option (Expiring Unit)

inductive OtpCommand
  /-- `SET otp:pickup:<id> <code> EX <ttlSec>`. -/
  | setCode (requestId : Nat) (code : String) (ttlSec : Nat)
  | getCode (requestId : Nat)
  | delCode (requestId : Nat)
  /-- `INCR` and `EXPIRE` in one pipeline. -/
  | incrAttempts (requestId : Nat) (ttlSec : Nat)
  | getAttempts (requestId : Nat)
  | delAttempts (requestId : Nat)
  | setLock (requestId : Nat) (ttlSec : Nat)
  | existsLock (requestId : Nat)
  deriving DecidableEq

inductive OtpReply
  | ok
  | text (value : Option String)
  | number (value : Nat)
  deriving DecidableEq

namespace OtpCache

def empty (now : Nat) : OtpCache := ⟨now, fun _ => none, fun _ => none, fun _ => none⟩

variable (x : OtpCache)

def deadline (ttlSec : Nat) : Option Nat := some (x.now + ttlSec * 1000)

def exec : OtpCommand → OtpCache × OtpReply
  | .setCode i c ttl => ({ x with code := Function.update x.code i (some ⟨c, x.deadline ttl⟩) }, .ok)
  | .getCode i => (x, .text (Expiring.live x.now (x.code i)))
  | .delCode i => ({ x with code := Function.update x.code i none }, .ok)
  | .incrAttempts i ttl =>
      let count := (Expiring.live x.now (x.attempts i)).getD 0 + 1
      ({ x with attempts := Function.update x.attempts i (some ⟨count, x.deadline ttl⟩) }, .number count)
  | .getAttempts i => (x, .number ((Expiring.live x.now (x.attempts i)).getD 0))
  | .delAttempts i => ({ x with attempts := Function.update x.attempts i none }, .ok)
  | .setLock i ttl => ({ x with lock := Function.update x.lock i (some ⟨(), x.deadline ttl⟩) }, .ok)
  | .existsLock i => (x, .number (if (Expiring.live x.now (x.lock i)).isSome then 1 else 0))

def pass (d : Nat) : OtpCache := { x with now := x.now + d }

end OtpCache

instance : Outer OtpCache OtpCommand OtpReply where
  exec := OtpCache.exec
  pass := OtpCache.pass
  pass_zero _ := rfl
  pass_pass x d d' := by
    simp only [OtpCache.pass, Nat.add_assoc]

end Pickup
