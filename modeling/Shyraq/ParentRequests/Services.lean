import Shyraq.ParentRequests.Entities

/-!
# ParentRequestService

Each request is one transaction.  What other modules answer is part of the request: the mentor of the child's
group, a named member of staff, the state of the rate limit, what becomes of the OTP.  The notifications, the
notice to the trusted person and the thread are left out.
-/

namespace ParentRequests

open Kernel Transactions

abbrev Sql (A : Type) := Prog Store Key Write ParentRequestError A

/-! ## Repositories -/

structure CreateParentRequestInput where
  childId : Nat
  requesterUserId : Nat
  requestType : ParentRequestType
  dateFrom : Option Int
  dateTo : Option Int
  details : Details
  recipientType : Option RecipientType
  recipientStaffId : Option Nat
  deriving DecidableEq

namespace ParentRequestRepository

def create (input : CreateParentRequestInput) : Sql ParentRequest := do
  let id ← Prog.uuid
  let pr : ParentRequest :=
    { id := id
      childId := input.childId
      requesterUserId := input.requesterUserId
      requestType := input.requestType
      status := .pending
      dateFrom := input.dateFrom
      dateTo := input.dateTo
      details := input.details
      recipientType := input.recipientType
      recipientStaffId := input.recipientStaffId
      reviewedBy := none
      reviewedAt := none
      reviewNote := none
      invoiceId := none }
  Prog.insertOr (.insertRequest pr) (.internal "parent_requests_pkey")
  pure pr

def findById (id : Nat) : Sql (Option ParentRequest) := Prog.query fun s => s.request id

def updateStatusConditional (id : Nat) (expectedStatus nextStatus : ParentRequestStatus) (review : Option Review) :
    Sql (Option ParentRequest) :=
  Prog.returning (.updateStatus id expectedStatus nextStatus review) fun s => s.request id

def setInvoiceId (parentRequestId invoiceId : Nat) : Sql Unit :=
  Prog.insertOr (.setInvoiceId parentRequestId invoiceId) (.parentRequestNotFound parentRequestId)

end ParentRequestRepository

namespace TrustedPersonRepository

def create (tp : Nat → Pickup.TrustedPerson) : Sql Pickup.TrustedPerson := do
  let id ← Prog.uuid
  Prog.insertOr (.insertPerson (tp id)) (.internal "trusted_people")
  pure (tp id)

end TrustedPersonRepository

namespace PickupRequestRepository

def create (pr : Nat → Pickup.PickupRequest) : Sql Pickup.PickupRequest := do
  let id ← Prog.uuid
  Prog.insertOr (.insertPickupRequest (pr id)) (.internal "pickup_requests")
  pure (pr id)

end PickupRequestRepository

/-! ## Permissions -/

/-- `DEFAULT_PERMISSIONS_BY_ROLE`. -/
def defaultPermission : Guardians.GuardianRelation → Guardians.PermissionKey → Bool
  | .primary, _ => true
  | .secondary, key => !key.locked
  | .nanny, key => key == .viewTimeline

/-- `effective(role)`: the defaults of the role under the overrides. -/
def effective (link : Guardians.ChildGuardian) (key : Guardians.PermissionKey) : Bool :=
  (link.permissions.lookup key).getD (defaultPermission link.role key)

/-- `findApprovedActiveByUserAndChild`. -/
def isApprovedActive (childId userId : Nat) (g : Guardians.ChildGuardian) : Bool :=
  g.childId == childId && g.userId == userId && g.status == .approved && g.revokedAt.isNone

namespace Store

def approvedLink (s : Store) (childId userId : Nat) : Option Guardians.ChildGuardian :=
  s.guardians.guardians.find? (isApprovedActive childId userId)

/-- The user may create requests for the child. -/
def mayCreate (s : Store) (childId userId : Nat) : Bool :=
  (s.approvedLink childId userId).any fun link => effective link .createRequests

end Store

/-! ## The service -/

/-- `CallerStaffContext`. -/
structure Caller where
  staffMemberId : Nat
  role : StaffRole
  deriving DecidableEq

/-- What a request of a parent finds outside the database. -/
structure CreateGate where
  rateExceeded : Bool
  /-- The mentor of the child's group; an error where there is no such child. -/
  mentor : Except ParentRequestError (Option Nat)

/-- Half an hour. -/
def pickupRequestTtlMs : Int := 30 * 60 * 1000

namespace ParentRequestService

def assertCreateRequestsAllowed (childId requesterUserId : Nat) : Sql Unit := do
  let link ← Prog.query fun s => s.approvedLink childId requesterUserId
  let link ← Prog.require link .parentRequestForbidden
  Prog.guardOr (effective link .createRequests) .createRequestPermissionRequired

def assertCreateRateLimit (gate : CreateGate) : Sql Unit := Prog.guardOr (!gate.rateExceeded) .otpRateLimited

/-- The mentor of the group, or any admin. -/
def resolveMentorRecipient (gate : CreateGate) : Sql (RecipientType × Option Nat) := do
  let mentor ← Prog.ofExcept gate.mentor
  pure (if mentor.isSome then .mentor else .admin, mentor)

structure CreateTrustedPersonRequestInput where
  childId : Nat
  fullName : String
  phone : String
  iin : Option String
  relation : String
  photoUrl : Option String
  isOneTime : Bool
  createPickupRequest : Bool
  comment : Option String
  deriving DecidableEq

/-- `otp` is what `consumeTrustedPersonOtp` says of the submitted code. -/
def createTrustedPersonRequest (requesterUserId : Nat) (input : CreateTrustedPersonRequestInput)
    (gate : CreateGate) (otp : Except ParentRequestError Unit) : Sql ParentRequest := do
  assertCreateRequestsAllowed input.childId requesterUserId
  assertCreateRateLimit gate
  Prog.ofExcept otp
  ParentRequestRepository.create
    { childId := input.childId
      requesterUserId := requesterUserId
      requestType := .trustedPerson
      dateFrom := none
      dateTo := none
      details :=
        [("full_name", .text input.fullName), ("phone", .text input.phone), ("iin", .nullable input.iin),
          ("relation", .text input.relation), ("photo_url", .nullable input.photoUrl),
          ("is_one_time", .flag input.isOneTime), ("create_pickup_request", .flag input.createPickupRequest),
          ("comment", .nullable input.comment)]
      recipientType := some .admin
      recipientStaffId := none }

/-- A Saturday or a Sunday. -/
def isWeekendDay (day : Int) : Bool := decide (6 ≤ isoWeekdayOf (midnight day))

/-- One or two days of one weekend, none in the past. -/
def validateWeekendDates (today : Int) (days : List Int) : Except ParentRequestError Unit :=
  if days.isEmpty || decide (2 < days.length) then .error (.internal "parent_request_weekend_dates_count_invalid")
  else if days.any fun d => decide (d < today) then .error (.internal "parent_request_weekend_date_in_past")
  else if days.any fun d => !isWeekendDay d then .error (.internal "parent_request_weekend_date_not_weekend")
  else if (days.map fun d => startOfIsoWeek (midnight d)).dedup.length = 1 then .ok ()
  else .error (.internal "parent_request_weekend_dates_different_weeks")

def createDayOffRequest (now : Int) (requesterUserId childId : Nat) (weekendDates : List Int)
    (comment : Option String) (gate : CreateGate) : Sql ParentRequest := do
  assertCreateRequestsAllowed childId requesterUserId
  assertCreateRateLimit gate
  Prog.ofExcept (validateWeekendDates (formatDateInTimezone now) weekendDates)
  let recipient ← resolveMentorRecipient gate
  ParentRequestRepository.create
    { childId := childId
      requesterUserId := requesterUserId
      requestType := .dayOff
      dateFrom := none
      dateTo := none
      details := [("weekend_dates", .dates weekendDates), ("comment", .nullable comment)]
      recipientType := some recipient.1
      recipientStaffId := recipient.2 }

def createVacationRequest (now : Int) (requesterUserId childId : Nat) (dateFrom dateTo : Int)
    (comment : Option String) (gate : CreateGate) : Sql ParentRequest := do
  assertCreateRequestsAllowed childId requesterUserId
  assertCreateRateLimit gate
  Prog.guardOr (decide (formatDateInTimezone now ≤ dateFrom)) (.internal "parent_request_date_from_in_past")
  Prog.guardOr (decide (dateFrom ≤ dateTo)) (.internal "parent_request_date_range_invalid")
  let recipient ← resolveMentorRecipient gate
  ParentRequestRepository.create
    { childId := childId
      requesterUserId := requesterUserId
      requestType := .vacation
      dateFrom := some dateFrom
      dateTo := some dateTo
      details := [("comment", .nullable comment)]
      recipientType := some recipient.1
      recipientStaffId := recipient.2 }

/-- `expectedTime` is one that `TIME_REGEX` accepts. -/
def createLatePickupRequest (now : Int) (requesterUserId childId : Nat) (date : Int) (expectedTime : String)
    (comment : Option String) (gate : CreateGate) : Sql ParentRequest := do
  assertCreateRequestsAllowed childId requesterUserId
  assertCreateRateLimit gate
  Prog.guardOr (decide (formatDateInTimezone now ≤ date)) (.internal "parent_request_date_in_past")
  let recipient ← resolveMentorRecipient gate
  ParentRequestRepository.create
    { childId := childId
      requesterUserId := requesterUserId
      requestType := .latePickup
      dateFrom := some date
      dateTo := none
      details := [("expected_time", .text expectedTime), ("comment", .nullable comment)]
      recipientType := some recipient.1
      recipientStaffId := recipient.2 }

/-- `recipient` is the one that the checks on the named member of staff let through. -/
def createOpenRequest (requesterUserId childId : Nat) (recipient : Except ParentRequestError (RecipientType × Option Nat))
    (subject message : String) (attachments : Option (List String)) (gate : CreateGate) : Sql ParentRequest := do
  assertCreateRequestsAllowed childId requesterUserId
  assertCreateRateLimit gate
  let recipient ← Prog.ofExcept recipient
  ParentRequestRepository.create
    { childId := childId
      requesterUserId := requesterUserId
      requestType := .openRequest
      dateFrom := none
      dateTo := none
      details :=
        [("subject", .text subject), ("message", .text message),
          ("attachments", attachments.elim .null DetailValue.texts)]
      recipientType := some recipient.1
      recipientStaffId := recipient.2 }

def requireRequest (parentRequestId : Nat) : Sql ParentRequest := do
  let existing ← ParentRequestRepository.findById parentRequestId
  Prog.require existing (.parentRequestNotFound parentRequestId)

/-- An admin, or the mentor or specialist the request is routed to. -/
def canReview (pr : ParentRequest) (caller : Caller) : Bool :=
  match caller.role with
  | .admin => true
  | .mentor | .specialist => pr.recipientStaffId == some caller.staffMemberId
  | .reception => false

/-- The flip from `pending`; the loser of a race is told so. -/
def flip (parentRequestId : Nat) (nextStatus : ParentRequestStatus) (review : Option Review) : Sql ParentRequest := do
  let updated ← ParentRequestRepository.updateStatusConditional parentRequestId .pending nextStatus review
  Prog.require updated (.parentRequestAlreadyProcessed parentRequestId)

def cancelRequest (requesterUserId parentRequestId : Nat) : Sql ParentRequest := do
  let existing ← requireRequest parentRequestId
  Prog.guardOr (existing.requesterUserId == requesterUserId) .parentRequestForbidden
  flip parentRequestId .cancelled none

def rejectRequest (now : Int) (caller : Caller) (parentRequestId : Nat) (reviewNote : Option String) :
    Sql ParentRequest := do
  let existing ← requireRequest parentRequestId
  Prog.guardOr (canReview existing caller) .parentRequestForbidden
  flip parentRequestId .rejected (some ⟨caller.staffMemberId, now, reviewNote⟩)

/-- The paired pickup request, credited to the requester. -/
def pairedPickupRequest (now : Int) (pr : ParentRequest) (tp : Pickup.TrustedPerson) (id : Nat) :
    Pickup.PickupRequest where
  id := id
  childId := pr.childId
  requestedByUserId := pr.requesterUserId
  trustedPersonId := some tp.id
  trustedPersonPhone := tp.phone
  trustedPersonName := tp.fullName
  trustedPersonIin := tp.iin
  otpRef := none
  status := .otpSent
  validatedBy := none
  validatedAt := none
  attendanceEventId := none
  parentRequestId := some pr.id
  expiresAt := now + pickupRequestTtlMs

/-- The person that the details name, added by the requester. -/
def namedPerson (pr : ParentRequest) (id : Nat) : Pickup.TrustedPerson where
  id := id
  childId := pr.childId
  addedByUserId := pr.requesterUserId
  fullName := pr.details.stringDetail "full_name" ""
  phone := pr.details.stringDetail "phone" ""
  iin := pr.details.nullableStringDetail "iin"
  relation := pr.details.stringDetail "relation" "guardian"
  photoUrl := pr.details.nullableStringDetail "photo_url"
  isActive := true
  isOneTime := pr.details.booleanDetail "is_one_time" false
  usedAt := none
  revokedAt := none

def createsPickupRequest (pr : ParentRequest) : Bool := pr.details.booleanDetail "create_pickup_request" false

def createPairedPickupRequest (now : Int) (pr : ParentRequest) (tp : Pickup.TrustedPerson) : Sql Unit :=
  if createsPickupRequest pr then do
    let _ ← PickupRequestRepository.create (pairedPickupRequest now pr tp)
    pure ()
  else pure ()

def applyTrustedPersonAcceptSideEffects (now : Int) (pr : ParentRequest) : Sql Unit := do
  Prog.guardOr (pr.details.stringDetail "full_name" "" != "" && pr.details.stringDetail "phone" "" != "")
    (.internal "parent_request_trusted_person_details_invalid")
  let tp ← TrustedPersonRepository.create (namedPerson pr)
  createPairedPickupRequest now pr tp

/-- The invoice, linked back to the request. -/
def applyLatePickupAcceptSideEffects (now : Int) (pr : ParentRequest) : Sql ParentRequest := do
  let invoice ← Prog.within billingPart (Billing.InvoiceService.generateLatePickupInvoice now
    ⟨pr.childId, pr.dateFrom.getD (utcDay now), pr.details.numberDetail "tariff_amount_kzt"⟩)
  ParentRequestRepository.setInvoiceId pr.id invoice.id
  pure (pr.linked invoice.id)

/-- The side effects of the type. -/
def applySideEffects (now : Int) (updated : ParentRequest) : Sql ParentRequest :=
  match updated.requestType with
  | .trustedPerson => do
      applyTrustedPersonAcceptSideEffects now updated
      pure updated
  | .latePickup => applyLatePickupAcceptSideEffects now updated
  | .dayOff | .vacation | .openRequest => pure updated

def acceptRequest (now : Int) (caller : Caller) (parentRequestId : Nat) (reviewNote : Option String) :
    Sql ParentRequest := do
  let existing ← requireRequest parentRequestId
  Prog.guardOr (canReview existing caller) .parentRequestForbidden
  let updated ← flip parentRequestId .accepted (some ⟨caller.staffMemberId, now, reviewNote⟩)
  applySideEffects now updated

end ParentRequestService

/-! ## Requests -/

inductive Op
  | createTrustedPerson (requesterUserId : Nat) (input : ParentRequestService.CreateTrustedPersonRequestInput)
      (gate : CreateGate) (otp : Except ParentRequestError Unit)
  | createDayOff (now : Int) (requesterUserId childId : Nat) (weekendDates : List Int) (comment : Option String)
      (gate : CreateGate)
  | createVacation (now : Int) (requesterUserId childId : Nat) (dateFrom dateTo : Int) (comment : Option String)
      (gate : CreateGate)
  | createLatePickup (now : Int) (requesterUserId childId : Nat) (date : Int) (expectedTime : String)
      (comment : Option String) (gate : CreateGate)
  | createOpen (requesterUserId childId : Nat) (recipient : Except ParentRequestError (RecipientType × Option Nat))
      (subject message : String) (attachments : Option (List String)) (gate : CreateGate)
  | cancel (requesterUserId parentRequestId : Nat)
  | accept (now : Int) (caller : Caller) (parentRequestId : Nat) (reviewNote : Option String)
  | reject (now : Int) (caller : Caller) (parentRequestId : Nat) (reviewNote : Option String)
  /-- A request on the guardians. -/
  | guardian (op : Guardians.Op)

inductive Response
  | request (pr : ParentRequest)
  | guardian (g : Guardians.ChildGuardian)
  deriving DecidableEq

namespace Op

def answer {A : Type} (f : A → Response) (p : Sql A) : Sql Response := Prog.bind p fun a => .ret (f a)

def prog : Op → Sql Response
  | createTrustedPerson u input gate otp =>
      answer .request (ParentRequestService.createTrustedPersonRequest u input gate otp)
  | createDayOff now u c days comment gate =>
      answer .request (ParentRequestService.createDayOffRequest now u c days comment gate)
  | createVacation now u c source stop comment gate =>
      answer .request (ParentRequestService.createVacationRequest now u c source stop comment gate)
  | createLatePickup now u c date time comment gate =>
      answer .request (ParentRequestService.createLatePickupRequest now u c date time comment gate)
  | createOpen u c recipient subject message attachments gate =>
      answer .request (ParentRequestService.createOpenRequest u c recipient subject message attachments gate)
  | cancel u r => answer .request (ParentRequestService.cancelRequest u r)
  | accept now caller r note => answer .request (ParentRequestService.acceptRequest now caller r note)
  | reject now caller r note => answer .request (ParentRequestService.rejectRequest now caller r note)
  | guardian op => answer .guardian (Prog.within guardianPart op.prog)

end Op

abbrev System (n : Nat) := Transactions.System Store Key Write ParentRequestError Op Response n

abbrev Schedule (n : Nat) := List (Choice Op n)

abbrev ParentRequestCommit := Commit Store Key Write Op Response

def init {n : Nat} (s : Store) : System n := System.init s

def run {n : Nat} (s : Store) (cs : Schedule n) : Option (System n) := (init s).exec Op.prog cs

end ParentRequests
