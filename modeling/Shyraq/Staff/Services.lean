import Shyraq.Staff.Entities

/-!
# StaffService and GroupService

Each request is one transaction with one clock reading.  Whether a specialist code can be used is part of the request.
-/

namespace Staff

open Kernel Transactions

abbrev Sql (A : Type) := Prog Store Key Write StaffError A

/-! ## Repositories -/

/-- `row ? StaffMemberMapper.toDomain(row) : null`. -/
def toDomain : Option StaffMember → Sql (Option StaffMember)
  | none => pure none
  | some row => do
      let member ← Prog.ofExcept row.hydrate
      pure (some member)

namespace StaffMemberRepository

def findById (id : Nat) : Sql (Option StaffMember) := do
  let row ← Prog.query fun s => s.staffAt id
  toDomain row

/-- Without a key to set there is no UPDATE. -/
def updateRow (id : Nat) (changes : UpdateStaffInput) : Sql Bool :=
  if changes.isEmpty then pure true else Prog.update (.updateStaff id changes)

def update (id : Nat) (changes : UpdateStaffInput) : Sql (Option StaffMember) := do
  let affected ← updateRow id changes
  if affected then findById id else pure none

def save (member : StaffMember) : Sql StaffMember := do
  let _ ← Prog.update (.saveStaff member)
  let fresh ← findById member.id
  Prog.require fresh (.internal "EntityNotFoundError")

end StaffMemberRepository

namespace GroupRepository

def findById (id : Nat) : Sql (Option Group) := Prog.query fun s => s.groupAt id

/-- A batch UPDATE: the rows its snapshot matches, each checked again under its lock. -/
def closeWhere (now : Int) (p : GroupMentor → Bool) : Sql Nat := do
  let matched ← Prog.query fun s => (s.mentors.filter fun m => p m && m.active).map GroupMentor.id
  Prog.forEach (fun i => do
    let _ ← Prog.update (.closeActive i now)
    pure ()) matched
  pure matched.length

def findOneOrFail (id : Nat) : Sql GroupMentor := do
  let row ← Prog.query fun s => s.mentorAt id
  Prog.require row (.internal "EntityNotFoundError")

def assignMentor (groupId staffMemberId : Nat) (now : Int) : Sql GroupMentor := do
  let _ ← closeWhere now fun m => m.groupId == groupId
  let id ← Prog.uuid
  Prog.insertOr (.insertMentor ⟨id, groupId, staffMemberId, true, now, none⟩) (.mentorAlreadyActive groupId)
  findOneOrFail id

def unassignMentor (groupId : Nat) (now : Int) : Sql (Option GroupMentor) := do
  let activeRow ← Prog.query fun s => s.mentors.find? fun m => m.occupies groupId
  match activeRow with
  | none => pure none
  | some row => do
      let _ ← Prog.update (.close row.id now)
      let fresh ← findOneOrFail row.id
      pure (some fresh)

/-- One member may be the active mentor of many groups. -/
def unassignMentorByStaffMember (staffMemberId : Nat) (now : Int) : Sql Nat :=
  closeWhere now fun m => m.staffMemberId == staffMemberId

end GroupRepository

/-! ## StaffService -/

namespace StaffService

def requireStaff (id : Nat) : Sql StaffMember := do
  let current ← StaffMemberRepository.findById id
  Prog.require current (.staffNotFound id)

/-- A code that changes, or comes with a role that changes, must be in use. -/
def assertUsableCode (patch : UpdateStaffInput) (role : StaffRole) (specialistType : Option String)
    (usable : Bool) : Sql Unit :=
  match specialistType with
  | none => pure ()
  | some code => Prog.guardOr (usable || role != .specialist || textLength code == 0 ||
      patch.specialistType.isNone && patch.role.isNone) (.specialistTypeUnknown code)

def update (id : Nat) (patch : UpdateStaffInput) (usable : Bool) : Sql StaffMember := do
  let current ← requireStaff id
  Prog.guardOr (!current.isArchived) (.staffArchived id)
  let mergedRole := patch.role.getD current.role
  let mergedSpecialist := patch.specialistType.getD current.specialistType
  Prog.ofExcept (StaffMember.validateRoleMatrix mergedRole mergedSpecialist)
  assertUsableCode patch mergedRole mergedSpecialist usable
  let updated ← StaffMemberRepository.update id patch
  Prog.require updated (.staffNotFound id)

/-- `save`, then the mentor rows of the member are closed. -/
def saveAndUnassign (now : Int) (member : StaffMember) : Sql StaffMember := do
  let saved ← StaffMemberRepository.save member
  let _ ← GroupRepository.unassignMentorByStaffMember member.id now
  pure saved

def deactivate (now : Int) (id : Nat) : Sql StaffMember := do
  let current ← requireStaff id
  Prog.guardOr (!current.isArchived) (.staffArchived id)
  if current.isActive then saveAndUnassign now (current.deactivate now) else pure current

def activate (id : Nat) : Sql StaffMember := do
  let current ← requireStaff id
  Prog.guardOr (!current.isArchived) (.staffArchived id)
  if current.isActive then pure current else StaffMemberRepository.save current.activate

def archive (now : Int) (id : Nat) : Sql StaffMember := do
  let current ← requireStaff id
  if current.isArchived then pure current else saveAndUnassign now (current.archive now)

def restore (id : Nat) : Sql StaffMember := do
  let current ← requireStaff id
  if current.isArchived then StaffMemberRepository.save current.restore else pure current

end StaffService

/-! ## GroupService -/

namespace GroupService

def assignMentor (now : Int) (groupId staffMemberId : Nat) : Sql GroupMentor := do
  let group ← GroupRepository.findById groupId
  let group ← Prog.require group (.groupNotFound groupId)
  Prog.guardOr (!group.isArchived) (.groupArchived groupId)
  let staff ← StaffMemberRepository.findById staffMemberId
  let staff ← Prog.require staff (.staffNotFound staffMemberId)
  Prog.guardOr (staff.isActive && !staff.isArchived) (.mentorNotEligible staffMemberId)
  Prog.guardOr (staff.role == .mentor) (.mentorNotEligible staffMemberId)
  GroupRepository.assignMentor groupId staffMemberId now

def unassignMentor (now : Int) (groupId : Nat) : Sql (Option GroupMentor) := do
  let group ← GroupRepository.findById groupId
  let _ ← Prog.require group (.groupNotFound groupId)
  GroupRepository.unassignMentor groupId now

end GroupService

/-! ## Requests -/

inductive Op
  | update (id : Nat) (patch : UpdateStaffInput) (usable : Bool)
  | deactivate (now : Int) (id : Nat)
  | activate (id : Nat)
  | archive (now : Int) (id : Nat)
  | restore (id : Nat)
  | assignMentor (now : Int) (groupId staffMemberId : Nat)
  | unassignMentor (now : Int) (groupId : Nat)
  deriving DecidableEq

inductive Response
  | staff (m : StaffMember)
  | mentor (m : Option GroupMentor)
  deriving DecidableEq

namespace Op

def answer {A : Type} (f : A → Response) (p : Sql A) : Sql Response := Prog.bind p fun a => .ret (f a)

def prog : Op → Sql Response
  | update id patch usable => answer .staff (StaffService.update id patch usable)
  | deactivate now id => answer .staff (StaffService.deactivate now id)
  | activate id => answer .staff (StaffService.activate id)
  | archive now id => answer .staff (StaffService.archive now id)
  | restore id => answer .staff (StaffService.restore id)
  | assignMentor now groupId staffMemberId =>
      answer (fun m => .mentor (some m)) (GroupService.assignMentor now groupId staffMemberId)
  | unassignMentor now groupId => answer .mentor (GroupService.unassignMentor now groupId)

end Op

abbrev System (n : Nat) := Transactions.System Store Key Write StaffError Op Response n

abbrev Schedule (n : Nat) := List (Choice Op n)

abbrev StaffCommit := Commit Store Key Write Op Response

def run {n : Nat} (s : Store) (cs : Schedule n) : Option (System n) := (System.init s).exec Op.prog cs

end Staff
