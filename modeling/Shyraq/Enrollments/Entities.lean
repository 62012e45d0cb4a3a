import Shyraq.Children.Entities
import Shyraq.Guardians.Entities

/-!
# Enrollments and their status log

The lead of a future child, the audit log of its status, and the two tables that a new card is
written to: `children` and `child_guardians`.  The id of a log row and the columns `created_at` and
`updated_at` are left out.
-/

namespace Enrollments

open Kernel Transactions Children Guardians

inductive EnrollmentStatus
  | new | inProcessing | waitlist | cardCreated | cancelled | archive
  deriving DecidableEq, Repr

namespace EnrollmentStatus

/-- `TRANSITIONS`. -/
def transitions : EnrollmentStatus → List EnrollmentStatus
  | new => [inProcessing]
  | inProcessing => [waitlist, cardCreated, cancelled]
  | waitlist => [inProcessing]
  | cardCreated => [archive]
  | cancelled => [archive]
  | archive => []

def canTransitionTo (status next : EnrollmentStatus) : Bool := status.transitions.contains next

def isTerminal (status : EnrollmentStatus) : Bool := status == archive

/-- `LOCKED_STATUSES`. -/
def locked : EnrollmentStatus → Bool
  | cardCreated | cancelled | archive => true
  | new | inProcessing | waitlist => false

end EnrollmentStatus

inductive EnrollmentError
  | enrollmentNotFound (id : Nat)
  | staffNotFound (id : Nat)
  | groupNotFound (id : Nat)
  | enrollmentMissingRequiredFields (missing : List String)
  | invalidEnrollmentStatusTransition (source target : EnrollmentStatus)
  | enrollmentAlreadyConverted (id childId : Nat)
  | enrollmentLocked (status : EnrollmentStatus)
  | enrollmentTransitionConflict (id : Nat) (expected target : EnrollmentStatus)
  | child (e : ChildError)
  | duplicateGuardian (childId userId : Nat)
  /-- The first invoice fails for another reason than a missing tariff. -/
  | firstInvoice
  /-- An `InvariantViolationError`, or what the driver throws. -/
  | internal (message : String)
  deriving DecidableEq

/-- `Phone.parse`: `^\\+[1-9]\\d{1,14}$`. -/
def parsePhone (raw : String) : Except EnrollmentError String :=
  match raw.toList with
  | '+' :: d :: ds =>
      if d.isDigit ∧ d ≠ '0' ∧ 1 ≤ ds.length ∧ ds.length ≤ 14 ∧ ds.all Char.isDigit then .ok raw
      else .error (.internal "phone must be E.164")
  | _ => .error (.internal "phone must be E.164")

/-! ## The lead -/

structure Enrollment where
  id : Nat
  childId : Option Nat
  contactName : String
  contactPhone : String
  childName : Option String
  childDob : Option Int
  childIin : Option String
  status : EnrollmentStatus
  source : Option String
  notes : Option String
  assignedTo : Option Nat
  statusChangedAt : Int
  deriving DecidableEq

instance : Row Enrollment := ⟨Enrollment.id⟩

/-- `none` leaves the field alone. -/
structure UpdateEnrollmentPatch where
  contactName : Option String
  contactPhone : Option String
  childName : Option String
  childDob : Option Int
  childIin : Option String
  source : Option String
  notes : Option String
  assignedTo : Option Nat

structure EnrollmentStatusLogEntry where
  enrollmentId : Nat
  fromStatus : EnrollmentStatus
  toStatus : EnrollmentStatus
  changedBy : Nat
  comment : Option String
  createdAt : Int
  deriving DecidableEq

def isBlankString (v : Option String) : Bool := v.all fun s => textLength (trim s) == 0

namespace Enrollment

variable (e : Enrollment)

/-- What a card needs of the lead, in the order of the checks. -/
def missingFields : List String :=
  (if isBlankString e.childName then ["childName"] else []) ++
  (if e.childDob.isNone then ["childDob"] else []) ++
  (if isBlankString (some e.contactName) then ["contactName"] else []) ++
  (if isBlankString (some e.contactPhone) then ["contactPhone"] else [])

/-- The lead can become a card. -/
def checkCard : Except EnrollmentError Unit :=
  match e.childId with
  | some childId => .error (.enrollmentAlreadyConverted e.id childId)
  | none =>
      if e.missingFields ≠ [] then .error (.enrollmentMissingRequiredFields e.missingFields)
      else .ok ()

def transitionTo (next : EnrollmentStatus) (by' : Nat) (comment : Option String) (now : Int) :
    Except EnrollmentError (Enrollment × EnrollmentStatusLogEntry) :=
  if ¬ e.status.canTransitionTo next then .error (.invalidEnrollmentStatusTransition e.status next)
  else (if next = .cardCreated then e.checkCard else .ok ()).map fun _ =>
    ({ e with status := next, statusChangedAt := now }, ⟨e.id, e.status, next, by', comment, now⟩)

def assignChild (childId : Nat) : Enrollment := { e with childId := some childId }

def assignTo (staffMemberId : Nat) : Except EnrollmentError Enrollment :=
  if e.status.isTerminal then .error (.enrollmentLocked e.status)
  else .ok { e with assignedTo := some staffMemberId }

def update (patch : UpdateEnrollmentPatch) : Except EnrollmentError Enrollment :=
  if e.status.locked then .error (.enrollmentLocked e.status)
  else .ok { e with
    contactName := patch.contactName.getD e.contactName
    contactPhone := patch.contactPhone.getD e.contactPhone
    childName := patch.childName.or e.childName
    childDob := patch.childDob.or e.childDob
    childIin := patch.childIin.or e.childIin
    source := patch.source.or e.source
    notes := patch.notes.or e.notes
    assignedTo := patch.assignedTo.or e.assignedTo }

/-- An UPDATE writes all columns but the key. -/
def saved (row : Enrollment) : Enrollment := { e with id := row.id }

end Enrollment

/-! ## Tables -/

structure Store where
  enrollments : List Enrollment
  /-- In the order of the inserts. -/
  statusLog : List EnrollmentStatusLogEntry
  children : List Child
  guardians : List ChildGuardian

inductive Key
  | row (id : Nat)
  /-- `idx_children_iin_kindergarten`. -/
  | iin (iin : String)
  /-- `idx_child_guardians_child_user_unique`. -/
  | childUser (childId userId : Nat)
  deriving DecidableEq

inductive Write
  /-- The full row, whatever is there. -/
  | update (e : Enrollment)
  /-- The full row, where the status is still this one. -/
  | updateWithExpectedStatus (e : Enrollment) (expectedOldStatus : EnrollmentStatus)
  | appendLog (l : EnrollmentStatusLogEntry)
  | createChild (c : Child)
  | createGuardian (g : ChildGuardian)

namespace Store

def enrollment (s : Store) (i : Nat) : Option Enrollment := Table.find s.enrollments i

/-- The log of one lead, in the order of the inserts. -/
def logOf (s : Store) (enrollmentId : Nat) : List EnrollmentStatusLogEntry :=
  s.statusLog.filter fun l => l.enrollmentId == enrollmentId

def keys : Write → List Key
  | .update e | .updateWithExpectedStatus e _ => [.row e.id]
  | .appendLog _ => []
  | .createChild c => .row c.id :: c.iin.toList.map .iin
  | .createGuardian g => [.row g.id, .childUser g.childId g.userId]

def hit (s : Store) : Write → Bool
  | .update e => (s.enrollment e.id).isSome
  | .updateWithExpectedStatus e old => (s.enrollment e.id).any fun q => q.status == old
  | .appendLog _ => true
  | .createChild c => (Table.find s.children c.id).isNone &&
      (c.iin.isNone || s.children.all fun q => q.iin != c.iin)
  | .createGuardian g => (Table.find s.guardians g.id).isNone && s.guardians.all fun q =>
      q.childId != g.childId || q.userId != g.userId || q.status == .revoked

def apply (s : Store) : Write → Store
  | .update e => { s with enrollments := Table.updateWhere s.enrollments e.id (fun _ => true) e.saved }
  | .updateWithExpectedStatus e old =>
      { s with enrollments := Table.updateWhere s.enrollments e.id (fun q => q.status == old) e.saved }
  | .appendLog l => { s with statusLog := s.statusLog ++ [l] }
  | .createChild c => { s with children := s.children ++ [c] }
  | .createGuardian g => { s with guardians := s.guardians ++ [g] }

end Store

instance : Relational Store Key Write where
  keys := Store.keys
  hit := Store.hit
  apply := Store.apply
  rowKey := Key.row
  absent s i := (s.enrollment i).isNone && (Table.find s.children i).isNone &&
    (Table.find s.guardians i).isNone

end Enrollments
