import Shyraq.Attendance.Services
import Shyraq.Pickup.Entities

/-!
# PickupRequestService and TrustedPersonService

A request is one transaction that talks to Redis on the way.  What other modules answer is part of the
request: the staff member behind the caller, whether the child exists, the caller's guardian link, the state
of the rate limit, whether the SMS goes out, the code that is drawn.  Notifications are left out.
-/

namespace Pickup

open Kernel Transactions

abbrev Sql (A : Type) := Prog Store Key Write PickupError A

abbrev Request (A : Type) := Script Store Key Write PickupError OtpCommand OtpReply A

abbrev guardOr (c : Bool) (e : PickupError) : Sql Unit := Prog.guardOr c e

abbrev require {A : Type} (o : Option A) (e : PickupError) : Sql A := Prog.require o e

def pickupOtpTtlSec : Nat := 30 * 60
def pickupOtpLockTtlSec : Nat := 15 * 60
def pickupOtpMaxFailedAttempts : Nat := 3
/-- `ATTEMPTS_TTL_SEC`. -/
def attemptsTtlSec : Nat := 30 * 60

/-! ## Repositories -/

def emptyPatch : PickupRequestPatch := ⟨none, none, none, none, none⟩

namespace PickupRequestRepository

def acquireValidateAdvisoryLock (requestId : Nat) : Sql Unit := Prog.acquire (.validate requestId)

def findById (id : Nat) : Sql (Option PickupRequest) := Prog.query fun s => s.request id

/-- `FOR UPDATE`. -/
def findByIdForUpdate (id : Nat) : Sql (Option PickupRequest) := do
  Prog.acquire (.row id)
  findById id

def update (id : Nat) (patch : PickupRequestPatch) (expectedStatus : Option PickupRequestStatus) : Sql Bool :=
  Prog.update (.updateRequest id patch expectedStatus)

end PickupRequestRepository

namespace TrustedPersonRepository

def findById (id : Nat) : Sql (Option TrustedPerson) := Prog.query fun s => s.person id

/-- An empty patch only reads. -/
def update (id : Nat) (patch : TrustedPersonPatch) : Sql (Option TrustedPerson) :=
  if patch = .none then findById id
  else do
    let _ ← Prog.update (.updatePerson id patch)
    findById id

def markRevoked (id : Nat) (now : Int) : Sql Unit := do
  let _ ← Prog.update (.markRevoked id now)
  pure ()

def markUsed (id : Nat) (now : Int) (deactivate : Bool) : Sql Bool :=
  Prog.update (.markUsed id now deactivate)

end TrustedPersonRepository

/-! ## RedisPickupOtpStoreAdapter -/

structure StoredPickupOtp where
  code : String
  attempts : Nat
  deriving DecidableEq

def OtpReply.code : OtpReply → Option String
  | .text value => value.filter fun c => c != ""
  | _ => none

def OtpReply.count : OtpReply → Nat
  | .number value => value
  | _ => 0

/-- `otp:pickup:<requestId>`. -/
def pickupOtpRedisKey (requestId : Nat) : String := "otp:pickup:" ++ toString requestId

namespace OtpStore

def storeCode (requestId : Nat) (code : String) (ttlSec : Nat) : Request String := do
  let _ ← Script.send (.setCode requestId code ttlSec)
  let _ ← Script.send (.delAttempts requestId)
  pure (pickupOtpRedisKey requestId)

/-- The counter is read only when there is a code. -/
def readCounted (requestId : Nat) : Option String → Request (Option StoredPickupOtp)
  | none => pure none
  | some code => do
      let attempts ← Script.send (.getAttempts requestId)
      pure (some ⟨code, attempts.count⟩)

def readCode (requestId : Nat) : Request (Option StoredPickupOtp) := do
  let reply ← Script.send (.getCode requestId)
  readCounted requestId reply.code

def clearCode (requestId : Nat) : Request Unit := do
  let _ ← Script.send (.delCode requestId)
  pure ()

def incrementAttempts (requestId : Nat) : Request Nat := do
  let reply ← Script.send (.incrAttempts requestId attemptsTtlSec)
  pure reply.count

def lockRequest (requestId ttlSec : Nat) : Request Unit := do
  let _ ← Script.send (.setLock requestId ttlSec)
  pure ()

def isLocked (requestId : Nat) : Request Bool := do
  let reply ← Script.send (.existsLock requestId)
  pure (reply.count == 1)

end OtpStore

/-! ## PickupRequestService -/

structure SendOtpResult where
  otpRef : String
  expiresIn : Nat
  deriving DecidableEq

structure ValidateOtpResult where
  pickupRequest : PickupRequest
  attendanceEventId : Nat
  deriving DecidableEq

/-- `generateSixDigitCode`, from a draw below a million. -/
def sixDigitCode (draw : Nat) : String :=
  let digits := toString draw
  String.ofList (List.replicate (6 - digits.length) '0') ++ digits

namespace PickupRequestService

/-- The request under its lock. -/
def lockPickupRequest (requestId : Nat) : Sql PickupRequest := do
  PickupRequestRepository.acquireValidateAdvisoryLock requestId
  let found ← PickupRequestRepository.findByIdForUpdate requestId
  Prog.require found (.pickupRequestNotFound requestId)

def sendOtp (now : Int) (requestId draw : Nat) (rateExceeded smsSent : Bool) : Request SendOtpResult := do
  let pr ← lockPickupRequest requestId
  guardOr (pr.status == .otpSent) (.pickupRequestStatusInvalid (some pr.status) "send_otp")
  guardOr (!pr.isExpired now) .pickupRequestExpired
  let locked ← OtpStore.isLocked requestId
  guardOr (!locked) .otpLocked
  guardOr (!rateExceeded) .otpRateLimited
  let redisKey ← OtpStore.storeCode requestId (sixDigitCode draw) pickupOtpTtlSec
  let _ ← PickupRequestRepository.update requestId { emptyPatch with otpRef := some redisKey } none
  guardOr smsSent .smsFailed
  pure ⟨redisKey, pickupOtpTtlSec⟩

/-- The trusted person as found before the code is looked at. -/
def findTrustedPerson : Option Nat → Sql (Option TrustedPerson)
  | none => pure none
  | some id => do
      let found ← TrustedPersonRepository.findById id
      let trustedPerson ← Prog.require found (.trustedPersonNotFound id)
      Prog.guardOr trustedPerson.isAvailableForPickup .trustedPersonRevoked
      pure (some trustedPerson)

/-- The third strike locks the request and clears its code. -/
def punish (requestId attempts : Nat) : Request Unit :=
  if pickupOtpMaxFailedAttempts ≤ attempts then do
    OtpStore.lockRequest requestId pickupOtpLockTtlSec
    OtpStore.clearCode requestId
    .throw .otpLocked
  else .throw .otpInvalid

def compareCode (requestId : Nat) (stored : StoredPickupOtp) (code : String) : Request Unit :=
  if stored.code ≠ code then do
    let attempts ← OtpStore.incrementAttempts requestId
    punish requestId attempts
  else pure ()

/-- Only a one-time person that is not claimed is refused. -/
def claimTrustedPerson (now : Int) : Option TrustedPerson → Sql Unit
  | none => pure ()
  | some trustedPerson => do
      let claimed ← TrustedPersonRepository.markUsed trustedPerson.id now trustedPerson.isOneTime
      Prog.guardOr (claimed || !trustedPerson.isOneTime) .trustedPersonRevoked

/-- The check-out, the flip to `validated` and the claim. -/
def recordPickup (now : Int) (requestId : Nat) (pr : PickupRequest) (trustedPerson : Option TrustedPerson)
    (staff : Nat) (caller : Attendance.Caller) (childExists : Bool) : Sql ValidateOtpResult := do
  let checkout ← Prog.within attendancePart (Attendance.AttendanceService.checkOut now pr.childId caller
    childExists none (some requestId) false (some .otpPickup) (some now) none)
  let validated ← Prog.ofExcept (pr.validate staff checkout.event.id now)
  let _ ← PickupRequestRepository.update requestId ⟨some validated.status, none, validated.validatedBy,
    validated.validatedAt, validated.attendanceEventId⟩ none
  claimTrustedPerson now trustedPerson
  pure ⟨validated, checkout.event.id⟩

/-- Everything that is checked before the OTP keys are touched. -/
def preCheck (now : Int) (requestId : Nat) : Sql (PickupRequest × Option TrustedPerson) := do
  let pr ← lockPickupRequest requestId
  Prog.guardOr (pr.status != .validated) .pickupRequestAlreadyValidated
  Prog.guardOr (pr.status == .otpSent) (.pickupRequestStatusInvalid (some pr.status) "validate")
  Prog.guardOr (!pr.isExpired now) .pickupRequestExpired
  let trustedPerson ← findTrustedPerson pr.trustedPersonId
  pure (pr, trustedPerson)

def validateOtp (now : Int) (requestId : Nat) (code : String) (caller : Attendance.Caller)
    (childExists : Bool) : Request ValidateOtpResult := do
  let staff ← require caller.staff (.staffNotFound caller.userId)
  let checked ← preCheck now requestId
  let locked ← OtpStore.isLocked requestId
  guardOr (!locked) .otpLocked
  let found ← OtpStore.readCode requestId
  let stored ← require found .pickupOtpExpired
  compareCode requestId stored code
  let result ← recordPickup now requestId checked.1 checked.2 staff caller childExists
  OtpStore.clearCode requestId
  pure result

/-- Somebody else has moved the request out of `otp_sent`. -/
def requireUpdated (requestId : Nat) (updated : Bool) : Sql Unit :=
  if updated then pure ()
  else do
    let fresh ← PickupRequestRepository.findById requestId
    .throw (.pickupRequestStatusInvalid (fresh.map PickupRequest.status) "cancel")

def cancel (requestId : Nat) : Request PickupRequest := do
  let pr ← lockPickupRequest requestId
  let cancelled ← (Prog.ofExcept pr.cancel : Sql PickupRequest)
  let updated ← PickupRequestRepository.update requestId { emptyPatch with status := some cancelled.status }
    (some .otpSent)
  requireUpdated requestId updated
  OtpStore.clearCode requestId
  pure cancelled

end PickupRequestService

/-! ## TrustedPersonService -/

/-- The `trusted_people_manage` entry of `effective(role)`; by default of the primary guardian only. -/
def managesTrustedPeople (link : Guardians.ChildGuardian) : Bool :=
  (link.permissions.lookup .trustedPeopleManage).getD (link.role == .primary)

namespace TrustedPersonService

/-- `link` is the guardian link of the caller and the child that is not revoked, if there is one. -/
def assertParentGuardianLink (link : Option Guardians.ChildGuardian) : Sql Guardians.ChildGuardian := do
  let link ← Prog.require link (.forbiddenAction "parent_not_a_guardian")
  Prog.guardOr (link.status == .approved && link.revokedAt.isNone)
    (.forbiddenAction "parent_guardian_not_approved")
  pure link

def assertCanManageTrustedPeople (link : Option Guardians.ChildGuardian) : Sql Unit := do
  let link ← assertParentGuardianLink link
  Prog.guardOr (managesTrustedPeople link) (.forbiddenAction "trusted_people_manage_required")

def update (trustedPersonId : Nat) (patch : TrustedPersonPatch) (link : Option Guardians.ChildGuardian) :
    Sql TrustedPerson := do
  let found ← TrustedPersonRepository.findById trustedPersonId
  let tp ← Prog.require found (.trustedPersonNotFound trustedPersonId)
  assertCanManageTrustedPeople link
  Prog.guardOr (!(tp.isRevoked || !tp.isActive)) .trustedPersonRevoked
  let updated ← TrustedPersonRepository.update trustedPersonId patch
  Prog.require updated (.trustedPersonNotFound trustedPersonId)

def revoke (now : Int) (trustedPersonId : Nat) (link : Option Guardians.ChildGuardian) : Sql TrustedPerson := do
  let found ← TrustedPersonRepository.findById trustedPersonId
  let tp ← Prog.require found (.trustedPersonNotFound trustedPersonId)
  assertCanManageTrustedPeople link
  let revoked ← Prog.ofExcept (tp.revoke now)
  TrustedPersonRepository.markRevoked tp.id now
  pure revoked

end TrustedPersonService

/-! ## The system -/

inductive Op
  | sendOtp (now : Int) (requestId draw : Nat) (rateExceeded smsSent : Bool)
  | validateOtp (now : Int) (requestId : Nat) (code : String) (caller : Attendance.Caller) (childExists : Bool)
  | cancel (requestId : Nat)
  | updatePerson (trustedPersonId : Nat) (patch : TrustedPersonPatch) (link : Option Guardians.ChildGuardian)
  | revokePerson (now : Int) (trustedPersonId : Nat) (link : Option Guardians.ChildGuardian)

inductive Response
  | sent (r : SendOtpResult)
  | validated (r : ValidateOtpResult)
  | cancelled (pr : PickupRequest)
  | person (tp : TrustedPerson)
  deriving DecidableEq

def Op.prog : Op → Request Response
  | sendOtp now i draw rateExceeded smsSent =>
      .bind (PickupRequestService.sendOtp now i draw rateExceeded smsSent) fun r => .ret (.sent r)
  | validateOtp now i code caller childExists =>
      .bind (PickupRequestService.validateOtp now i code caller childExists) fun r => .ret (.validated r)
  | cancel i => .bind (PickupRequestService.cancel i) fun pr => .ret (.cancelled pr)
  | updatePerson i patch link => .lift (.bind (TrustedPersonService.update i patch link) fun tp => .ret (.person tp))
  | revokePerson now i link =>
      .lift (.bind (TrustedPersonService.revoke now i link) fun tp => .ret (.person tp))

/-- Up to `n` requests at once. -/
abbrev System (n : Nat) := Scripts Store Key Write PickupError OtpCache OtpCommand OtpReply Op Response n

abbrev Schedule (n : Nat) := List (Event Op n)

abbrev PickupCommit := Commit Store Key Write Op Response

/-- The commands of all requests so far, with their replies. -/
abbrev Trace := List (Op × OtpCommand × OtpReply)

/-- Redis is empty at first. -/
def init {n : Nat} (s : Store) (now : Nat) : System n := Scripts.init s (OtpCache.empty now)

def run {n : Nat} (s : Store) (now : Nat) (cs : Schedule n) : Option (System n) := (init s now).exec Op.prog cs

end Pickup
