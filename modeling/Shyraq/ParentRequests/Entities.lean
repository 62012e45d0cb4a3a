import Shyraq.Billing.InvoiceGeneration
import Shyraq.Guardians.Services
import Shyraq.Kernel.Calendar
import Shyraq.Pickup.Entities
import Shyraq.Transactions.Statements

/-!
# Parent requests

The table `parent_requests` of one kindergarten, with the tables that accepting a request writes
(`trusted_people`, `pickup_requests`, those of billing) and the guardians, whose permissions creating one reads.
A `date` column is a day number.  The columns `created_at` and `updated_at` are left out.
-/

namespace ParentRequests

open Kernel Transactions

inductive ParentRequestType
  | trustedPerson | dayOff | vacation | latePickup | openRequest
  deriving DecidableEq, Repr

inductive ParentRequestStatus
  | pending | accepted | rejected | cancelled
  deriving DecidableEq, Repr

inductive RecipientType
  | admin | mentor | specialist
  deriving DecidableEq, Repr

inductive StaffRole
  | admin | mentor | specialist | reception
  deriving DecidableEq, Repr

inductive ParentRequestError
  | createRequestPermissionRequired
  | parentRequestForbidden
  | parentRequestNotFound (id : Nat)
  | parentRequestAlreadyProcessed (id : Nat)
  | childNotFound (id : Nat)
  | staffMemberNotFound (id : Nat)
  | otpLocked
  | otpExpired
  | otpInvalid
  | otpRateLimited
  | billing (e : Billing.BillingError)
  | guardian (e : Guardians.GuardianError)
  /-- An `InvariantViolationError`, or what the driver throws on a violated constraint. -/
  | internal (message : String)

/-! ## Details -/

/-- A value of the `details` object. -/
inductive DetailValue
  | text (value : String)
  | flag (value : Bool)
  | number (value : Decimal)
  | texts (values : List String)
  | dates (days : List Int)
  | null
  deriving DecidableEq

abbrev Details := List (String × DetailValue)

namespace Details

variable (details : Details)

def nullableStringDetail (key : String) : Option String :=
  match details.lookup key with
  | some (.text v) => if v = "" then none else some v
  | _ => none

def stringDetail (key fallback : String) : String := (details.nullableStringDetail key).getD fallback

def booleanDetail (key : String) (fallback : Bool) : Bool :=
  match details.lookup key with
  | some (.flag v) => v
  | _ => fallback

def numberDetail (key : String) : Option Decimal :=
  match details.lookup key with
  | some (.number v) => some v
  | _ => none

end Details

/-- `null` for an absent value. -/
def DetailValue.nullable : Option String → DetailValue
  | none => .null
  | some v => .text v

/-! ## Rows -/

structure ParentRequest where
  id : Nat
  childId : Nat
  requesterUserId : Nat
  requestType : ParentRequestType
  status : ParentRequestStatus
  dateFrom : Option Int
  dateTo : Option Int
  details : Details
  recipientType : Option RecipientType
  recipientStaffId : Option Nat
  reviewedBy : Option Nat
  reviewedAt : Option Int
  reviewNote : Option String
  invoiceId : Option Nat
  deriving DecidableEq

instance : Row ParentRequest := ⟨ParentRequest.id⟩

/-- What `updateStatusConditional` writes beside the status; `none` leaves the columns alone. -/
structure Review where
  reviewedBy : Nat
  reviewedAt : Int
  reviewNote : Option String
  deriving DecidableEq

namespace ParentRequest

variable (pr : ParentRequest)

def moved (nextStatus : ParentRequestStatus) : Option Review → ParentRequest
  | none => { pr with status := nextStatus }
  | some review =>
      { pr with
        status := nextStatus
        reviewedBy := some review.reviewedBy
        reviewedAt := some review.reviewedAt
        reviewNote := review.reviewNote }

def linked (invoiceId : Nat) : ParentRequest := { pr with invoiceId := some invoiceId }

end ParentRequest

/-! ## The tables -/

structure Store where
  requests : List ParentRequest
  people : List Pickup.TrustedPerson
  pickupRequests : List Pickup.PickupRequest
  billing : Billing.Store
  guardians : Guardians.Store

inductive Key
  | row (id : Nat)
  | billing (k : Billing.Key)
  | guardian (k : Guardians.Key)
  deriving DecidableEq

inductive Write
  | insertRequest (pr : ParentRequest)
  /-- Where the status is still the expected one. -/
  | updateStatus (id : Nat) (expectedStatus nextStatus : ParentRequestStatus) (review : Option Review)
  | setInvoiceId (id invoiceId : Nat)
  | insertPerson (tp : Pickup.TrustedPerson)
  | insertPickupRequest (pr : Pickup.PickupRequest)
  | billing (w : Billing.Write)
  | guardian (w : Guardians.Write)

namespace Store

def request (s : Store) (i : Nat) : Option ParentRequest := Table.find s.requests i

def person (s : Store) (i : Nat) : Option Pickup.TrustedPerson := Table.find s.people i

def pickupRequest (s : Store) (i : Nat) : Option Pickup.PickupRequest := Table.find s.pickupRequests i

def keys : Write → List Key
  | .insertRequest pr => [.row pr.id]
  | .updateStatus i _ _ _ | .setInvoiceId i _ => [.row i]
  | .insertPerson tp => [.row tp.id]
  | .insertPickupRequest pr => [.row pr.id]
  | .billing w => (Relational.keys Billing.Store w).map Key.billing
  | .guardian w => (Relational.keys Guardians.Store w).map Key.guardian

/-- `varchar(20)` and `char(12)`. -/
def fits (phone : String) (iin : Option String) : Bool :=
  decide (phone.length ≤ 20) && iin.all fun i => decide (i.length ≤ 12)

def hit (s : Store) : Write → Bool
  | .insertRequest pr => (s.request pr.id).isNone
  | .updateStatus i e _ _ => (s.request i).any fun row => row.status == e
  | .setInvoiceId i _ => (s.request i).isSome
  | .insertPerson tp => (s.person tp.id).isNone && fits tp.phone tp.iin
  | .insertPickupRequest pr => (s.pickupRequest pr.id).isNone && fits pr.trustedPersonPhone pr.trustedPersonIin
  | .billing w => Relational.hit s.billing w
  | .guardian w => Relational.hit s.guardians w

def apply (s : Store) : Write → Store
  | .insertRequest pr => { s with requests := s.requests ++ [pr] }
  | .updateStatus i e next review => { s with
      requests := Table.updateWhere s.requests i (fun row => row.status == e) fun row => row.moved next review }
  | .setInvoiceId i invoiceId => { s with
      requests := Table.updateWhere s.requests i (fun _ => true) fun row => row.linked invoiceId }
  | .insertPerson tp => { s with people := s.people ++ [tp] }
  | .insertPickupRequest pr => { s with pickupRequests := s.pickupRequests ++ [pr] }
  | .billing w => { s with billing := Relational.apply s.billing w }
  | .guardian w => { s with guardians := Relational.apply s.guardians w }

end Store

instance : Relational Store Key Write where
  keys := Store.keys
  hit := Store.hit
  apply := Store.apply
  rowKey := Key.row
  absent s i := (s.request i).isNone && (s.person i).isNone && (s.pickupRequest i).isNone &&
    Relational.absent s.billing i && Relational.absent s.guardians i

def billingPart : Part Billing.Store Billing.Key Billing.Write Billing.BillingError
    Store Key Write ParentRequestError where
  get := Store.billing
  key := .billing
  write := .billing
  error := .billing

def guardianPart : Part Guardians.Store Guardians.Key Guardians.Write Guardians.GuardianError
    Store Key Write ParentRequestError where
  get := Store.guardians
  key := .guardian
  write := .guardian
  error := .guardian

end ParentRequests
