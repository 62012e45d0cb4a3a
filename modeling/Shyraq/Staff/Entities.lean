import Shyraq.Kernel.Calendar
import Shyraq.Kernel.Digits
import Shyraq.Transactions.Runs
import Shyraq.Transactions.Statements
import Shyraq.Transactions.Table

/-!
# Staff members, groups and mentor slots

The tables `staff_members`, `groups` and `group_mentors` of one kindergarten.  Of a group only `archived_at` is read.
A `date` column is a day number.  The columns `user_id`, `created_at` and `updated_at` are left out.
-/

namespace Staff

open Kernel Transactions

inductive StaffRole
  | admin | mentor | specialist | reception
  deriving DecidableEq, Repr

def StaffRole.value : StaffRole → String
  | admin => "admin"
  | mentor => "mentor"
  | specialist => "specialist"
  | reception => "reception"

inductive StaffError
  | staffNotFound (id : Nat)
  | staffArchived (id : Nat)
  | specialistTypeUnknown (code : String)
  | groupNotFound (id : Nat)
  | groupArchived (id : Nat)
  | mentorNotEligible (staffMemberId : Nat)
  | mentorAlreadyActive (groupId : Nat)
  /-- An `InvariantViolationError`, or what `findOneOrFail` throws. -/
  | internal (message : String)
  deriving DecidableEq

/-! ## Staff members -/

structure StaffMember where
  id : Nat
  fullName : Option String
  phone : Option String
  role : StaffRole
  specialistType : Option String
  isActive : Bool
  hiredAt : Option Int
  firedAt : Option Int
  archivedAt : Option Int
  deriving DecidableEq

instance : Row StaffMember := ⟨StaffMember.id⟩

/-- `UpdateStaffInput`; `none` leaves the field alone. -/
structure UpdateStaffInput where
  fullName : Option String
  role : Option StaffRole
  specialistType : Option (Option String)
  hiredAt : Option (Option Int)
  firedAt : Option (Option Int)
  deriving DecidableEq

namespace StaffMember

/-- A specialist carries a code, the others do not. -/
def validateRoleMatrix (role : StaffRole) (specialistType : Option String) : Except StaffError Unit :=
  match role, specialistType with
  | .specialist, none => .error (.internal "role=specialist requires specialist_type")
  | .specialist, some code =>
      if textLength (trim code) = 0 then .error (.internal "role=specialist requires specialist_type") else .ok ()
  | _, none => .ok ()
  | role, some _ => .error (.internal ("role=" ++ role.value ++ " forbids specialist_type"))

variable (m : StaffMember)

def hydrate : Except StaffError StaffMember := do
  validateRoleMatrix m.role m.specialistType
  pure m

def isArchived : Bool := m.archivedAt.isSome

def deactivate (now : Int) : StaffMember :=
  if m.isActive then { m with isActive := false, firedAt := some (utcDay now) } else m

def activate : StaffMember := if m.isActive then m else { m with isActive := true, firedAt := none }

def archive (now : Int) : StaffMember :=
  if m.isArchived then m else { m with archivedAt := some now, isActive := false }

def restore : StaffMember := if m.isArchived then { m with archivedAt := none, isActive := true } else m

/-- The columns that `update` writes. -/
def changed (changes : UpdateStaffInput) : StaffMember :=
  { m with
    fullName := changes.fullName.elim m.fullName some
    role := changes.role.getD m.role
    specialistType := changes.specialistType.getD m.specialistType
    hiredAt := (changes.hiredAt.map fun day => day.map utcDay).getD m.hiredAt
    firedAt := (changes.firedAt.map fun day => day.map utcDay).getD m.firedAt }

/-- Fit to be a mentor: active, not archived, of the role `mentor`. -/
def eligible : Bool := m.isActive && !m.isArchived && m.role == .mentor

end StaffMember

/-- No key is set. -/
def UpdateStaffInput.isEmpty (changes : UpdateStaffInput) : Bool :=
  changes.fullName.isNone && changes.role.isNone && changes.specialistType.isNone && changes.hiredAt.isNone &&
    changes.firedAt.isNone

/-! ## Groups and their mentors -/

structure Group where
  id : Nat
  archivedAt : Option Int
  deriving DecidableEq

instance : Row Group := ⟨Group.id⟩

def Group.isArchived (g : Group) : Bool := g.archivedAt.isSome

structure GroupMentor where
  id : Nat
  groupId : Nat
  staffMemberId : Nat
  isPrimary : Bool
  assignedAt : Int
  unassignedAt : Option Int
  deriving DecidableEq

instance : Row GroupMentor := ⟨GroupMentor.id⟩

namespace GroupMentor

variable (m : GroupMentor)

def active : Bool := m.unassignedAt.isNone

def closed (now : Int) : GroupMentor := { m with unassignedAt := some now }

/-- The active mentor of this group. -/
def occupies (groupId : Nat) : Bool := m.groupId == groupId && m.active

end GroupMentor

/-! ## The tables -/

structure Store where
  staff : List StaffMember
  groups : List Group
  mentors : List GroupMentor
  deriving DecidableEq

inductive Key
  | row (id : Nat)
  /-- `idx_group_mentors_one_active`. -/
  | activeMentor (groupId : Nat)
  deriving DecidableEq

inductive Write
  | updateStaff (id : Nat) (changes : UpdateStaffInput)
  /-- Every column. -/
  | saveStaff (member : StaffMember)
  | insertMentor (row : GroupMentor)
  /-- `SET unassigned_at = now WHERE id = … AND unassigned_at IS NULL`: one row of a batch. -/
  | closeActive (id : Nat) (now : Int)
  /-- `SET unassigned_at = now WHERE id = …`. -/
  | close (id : Nat) (now : Int)

namespace Store

def staffAt (s : Store) (i : Nat) : Option StaffMember := Table.find s.staff i

def groupAt (s : Store) (i : Nat) : Option Group := Table.find s.groups i

def mentorAt (s : Store) (i : Nat) : Option GroupMentor := Table.find s.mentors i

def keys : Write → List Key
  | .updateStaff i _ | .closeActive i _ | .close i _ => [.row i]
  | .saveStaff member => [.row member.id]
  | .insertMentor row => [.row row.id, .activeMentor row.groupId]

def hit (s : Store) : Write → Bool
  | .updateStaff i _ => (s.staffAt i).isSome
  | .saveStaff member => (s.staffAt member.id).isSome
  | .insertMentor row => (s.mentorAt row.id).isNone && !s.mentors.any fun m => m.occupies row.groupId
  | .closeActive i _ => (s.mentorAt i).any GroupMentor.active
  | .close i _ => (s.mentorAt i).isSome

def apply (s : Store) : Write → Store
  | .updateStaff i changes => { s with
      staff := Table.updateWhere s.staff i (fun _ => true) fun row => row.changed changes }
  | .saveStaff member => { s with
      staff := Table.updateWhere s.staff member.id (fun _ => true) fun row => { member with id := row.id } }
  | .insertMentor row => { s with mentors := s.mentors ++ [row] }
  | .closeActive i now => { s with
      mentors := Table.updateWhere s.mentors i GroupMentor.active fun m => m.closed now }
  | .close i now => { s with mentors := Table.updateWhere s.mentors i (fun _ => true) fun m => m.closed now }

end Store

instance : Relational Store Key Write where
  keys := Store.keys
  hit := Store.hit
  apply := Store.apply
  rowKey := Key.row
  absent s i := (s.staffAt i).isNone && (s.groupAt i).isNone && (s.mentorAt i).isNone

end Staff
