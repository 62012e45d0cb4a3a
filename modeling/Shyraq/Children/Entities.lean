import Shyraq.Kernel.Digits
import Shyraq.Transactions.Statements
import Shyraq.Transactions.Table
import Shyraq.Transactions.Runs

/-!
# Children and their status history

The tables `children`, `child_status_history` and `child_group_history` of one kindergarten.
Dates are the instants of the domain objects.  The columns `created_at` and `updated_at` are left
out.
-/

namespace Children

open Kernel Transactions

inductive ChildStatus
  | cardCreated | active | archived
  deriving DecidableEq, Repr

inductive Gender
  | male | female
  deriving DecidableEq, Repr

inductive ChildError
  | childNotFound (id : Nat)
  | groupNotFound (id : Nat)
  | childIinAlreadyExists (iin : String)
  | invalidChildProfile (field : String)
  | archivedChildNotTransferable (id : Nat)
  | groupTransferToSelf
  | archiveReasonRequired (id : Nat)
  | childAlreadyArchived (id : Nat)
  | childNotArchived (id : Nat)
  | childActivationRequiresTariff (id : Nat)
  | invalidChildStatusTransition (source target : ChildStatus)
  | childStatusHistoryInvalidTransition (previousStatus newStatus : ChildStatus)
  | childStatusHistoryMissingArchiveReason
  /-- An `InvariantViolationError`, or what the driver throws on a violated constraint. -/
  | internal (message : String)
  deriving DecidableEq

/-- `Iin.parse`. -/
def parseIin (raw : String) : Except ChildError String :=
  if raw.toList.length = 12 ∧ raw.toList.all Char.isDigit then .ok raw
  else .error (.internal "iin must be 12 digits")

/-! ## The card of a child -/

structure Child where
  id : Nat
  iin : Option String
  fullName : String
  dateOfBirth : Int
  gender : Option Gender
  photoUrl : Option String
  status : ChildStatus
  currentGroupId : Option Nat
  enrollmentDate : Option Int
  archivedAt : Option Int
  archiveReason : Option String
  medicalNotes : Option String
  allergyNotes : Option String
  deriving DecidableEq

instance : Row Child := ⟨Child.id⟩

/-- `UpdateChildProfilePatch`; `none` leaves the field alone. -/
structure UpdateChildProfilePatch where
  fullName : Option String
  iin : Option (Option String)
  dateOfBirth : Option Int
  gender : Option (Option Gender)
  photoUrl : Option (Option String)
  medicalNotes : Option (Option String)
  allergyNotes : Option (Option String)

/-- What `createChild` is given; the group is a known one. -/
structure CreateChildInput where
  id : Nat
  fullName : String
  iin : Option String
  dateOfBirth : Int
  currentGroupId : Option Nat

namespace Child

@[irreducible] def createNew (input : CreateChildInput) (now : Int) : Except ChildError Child :=
  if textLength (trim input.fullName) = 0 then .error (.invalidChildProfile "full_name")
  else if now < input.dateOfBirth then .error (.invalidChildProfile "date_of_birth")
  else .ok
    { id := input.id
      iin := input.iin
      fullName := input.fullName
      dateOfBirth := input.dateOfBirth
      gender := none
      photoUrl := none
      status := .cardCreated
      currentGroupId := input.currentGroupId
      enrollmentDate := none
      archivedAt := none
      archiveReason := none
      medicalNotes := none
      allergyNotes := none }

variable (c : Child)

def updateProfile (patch : UpdateChildProfilePatch) (now : Int) : Except ChildError Child :=
  if patch.fullName.any fun name => decide (textLength (trim name) = 0) then
    .error (.invalidChildProfile "full_name")
  else if patch.dateOfBirth.any fun dob => decide (now < dob) then
    .error (.invalidChildProfile "date_of_birth")
  else .ok { c with
    fullName := patch.fullName.getD c.fullName
    dateOfBirth := patch.dateOfBirth.getD c.dateOfBirth
    iin := patch.iin.getD c.iin
    gender := patch.gender.getD c.gender
    photoUrl := patch.photoUrl.getD c.photoUrl
    medicalNotes := patch.medicalNotes.getD c.medicalNotes
    allergyNotes := patch.allergyNotes.getD c.allergyNotes }

def updatePhoto (photoUrl : Option String) : Except ChildError Child := .ok { c with photoUrl := photoUrl }

def assignToGroup (groupId : Nat) : Except ChildError Child := .ok { c with currentGroupId := some groupId }

def unassignFromGroup : Except ChildError Child := .ok { c with currentGroupId := none }

def transferToGroup (toGroupId : Nat) : Except ChildError Child :=
  if c.status = .archived then .error (.archivedChildNotTransferable c.id)
  else if c.currentGroupId = some toGroupId then .error .groupTransferToSelf
  else .ok { c with currentGroupId := some toGroupId }

/-- `update` writes all columns but the key. -/
def saved (row : Child) : Child := { c with id := row.id }

/-! ### The conditional UPDATEs -/

def archived (at' : Int) (reason : String) : Child :=
  { c with status := .archived, archivedAt := some at', archiveReason := some reason }

def reactivated : Child := { c with status := .active, archivedAt := none, archiveReason := none }

def activated (at' : Int) : Child := { c with status := .active, enrollmentDate := some at' }

end Child

/-! ## Histories -/

structure ChildStatusHistory where
  id : Nat
  childId : Nat
  previousStatus : ChildStatus
  newStatus : ChildStatus
  previousArchiveReason : Option String
  archiveReason : Option String
  changedByUserId : Nat
  changedAt : Int
  deriving DecidableEq

namespace ChildStatusHistory

/-- `ALLOWED_TRANSITIONS`. -/
def allowedTransitions : List (ChildStatus × ChildStatus) :=
  [(.active, .archived), (.archived, .active), (.cardCreated, .active)]

/-- An archive reason is missing when it is `null` or empty. -/
def record (h : ChildStatusHistory) : Except ChildError ChildStatusHistory :=
  if ¬ allowedTransitions.contains (h.previousStatus, h.newStatus) then
    .error (.childStatusHistoryInvalidTransition h.previousStatus h.newStatus)
  else if h.newStatus = .archived ∧ (h.archiveReason.getD "").isEmpty then
    .error .childStatusHistoryMissingArchiveReason
  else .ok h

theorem record_eq_ok {h h' : ChildStatusHistory} (hr : h.record = .ok h') : h' = h := by
  unfold record at hr
  repeat' split at hr
  all_goals cases hr
  rfl

end ChildStatusHistory

/-- A row of `child_group_history`. -/
structure GroupTransfer where
  childId : Nat
  fromGroupId : Option Nat
  toGroupId : Nat
  transferredByStaffId : Nat
  reason : Option String
  transferredAt : Int
  deriving DecidableEq

/-! ## Tables -/

structure Store where
  children : List Child
  /-- In the order of the inserts. -/
  statusHistory : List ChildStatusHistory
  groupHistory : List GroupTransfer

inductive Key
  | row (id : Nat)
  /-- `idx_children_iin_kindergarten`. -/
  | iin (iin : String)
  deriving DecidableEq

inductive Write
  /-- The full row, whatever is there. -/
  | update (c : Child)
  | archive (id : Nat) (at' : Int) (reason : String)
  | reactivate (id : Nat)
  | activate (id : Nat) (at' : Int)
  | recordStatusChange (h : ChildStatusHistory)
  | recordGroupTransfer (g : GroupTransfer)

namespace Store

def child? (s : Store) (i : Nat) : Option Child := Table.find s.children i

/-- The history of one child, in the order of the inserts. -/
def historyOf (s : Store) (childId : Nat) : List ChildStatusHistory :=
  s.statusHistory.filter fun h => h.childId == childId

def keys : Write → List Key
  | .update c => .row c.id :: c.iin.toList.map .iin
  | .archive i _ _ | .reactivate i | .activate i _ => [.row i]
  | .recordStatusChange h => [.row h.id]
  | .recordGroupTransfer _ => []

def hit (s : Store) : Write → Bool
  | .update c => (s.child? c.id).isSome &&
      (c.iin.isNone || s.children.all fun q => q.id == c.id || q.iin != c.iin)
  | .archive i _ _ => (s.child? i).any fun c => c.status == .active
  | .reactivate i => (s.child? i).any fun c => c.status == .archived
  | .activate i _ => (s.child? i).any fun c => c.status == .cardCreated
  | .recordStatusChange h => s.statusHistory.all fun q => q.id != h.id
  | .recordGroupTransfer _ => true

def apply (s : Store) : Write → Store
  | .update c => { s with children := Table.updateWhere s.children c.id (fun _ => true) c.saved }
  | .archive i at' reason => { s with
      children := Table.updateWhere s.children i (fun c => c.status == .active) fun c => c.archived at' reason }
  | .reactivate i => { s with
      children := Table.updateWhere s.children i (fun c => c.status == .archived) Child.reactivated }
  | .activate i at' => { s with
      children := Table.updateWhere s.children i (fun c => c.status == .cardCreated) fun c => c.activated at' }
  | .recordStatusChange h => { s with statusHistory := s.statusHistory ++ [h] }
  | .recordGroupTransfer g => { s with groupHistory := s.groupHistory ++ [g] }

end Store

instance : Relational Store Key Write where
  keys := Store.keys
  hit := Store.hit
  apply := Store.apply
  rowKey := Key.row
  absent s i := (s.child? i).isNone && s.statusHistory.all fun h => h.id != i

end Children
