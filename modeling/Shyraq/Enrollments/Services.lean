import Shyraq.Enrollments.Entities

/-!
# EnrollmentService

`update`, `assign` and `transition`, each one transaction.  What the other modules answer is part of
the request: whether the staff member and the group exist, who has the phone, whether the first
invoice fails.  The notifications are left out.
-/

namespace Enrollments

open Kernel Transactions Children Guardians

abbrev Sql (A : Type) := Prog Store Key Write EnrollmentError A

/-- An error of the module `child`. -/
def ofChild {A : Type} : Except ChildError A → Except EnrollmentError A := Except.mapError .child

namespace EnrollmentRepository

def findById (id : Nat) : Sql (Option Enrollment) := Prog.query fun s => s.enrollment id

def update (enrollment : Enrollment) : Sql Enrollment := do
  let _ ← Prog.update (.update enrollment)
  let row ← findById enrollment.id
  Prog.require row (.internal "enrollment_update_readback_failed")

def updateWithExpectedStatus (enrollment : Enrollment) (expectedOldStatus : EnrollmentStatus) : Sql Bool :=
  Prog.update (.updateWithExpectedStatus enrollment expectedOldStatus)

def appendLog (draft : EnrollmentStatusLogEntry) : Sql Unit :=
  Prog.insertOr (.appendLog draft) (.internal "enrollment_status_log_insert_no_id")

end EnrollmentRepository

/-- `TransitionEnrollmentInput`, and what the other modules answer to it. -/
structure TransitionEnrollmentInput where
  toStatus : EnrollmentStatus
  comment : Option String
  currentGroupId : Option Nat
  callerUserId : Nat
  /-- The staff member of the caller. -/
  callerStaffId : Option Nat
  groupExists : Bool
  /-- Who has the phone of the contact. -/
  userId : Nat
  firstInvoiceFails : Bool

structure TransitionEnrollmentResult where
  enrollment : Enrollment
  child : Option Child
  deriving DecidableEq

namespace ChildService

def checkIin : Option String → Sql Unit
  | none => pure ()
  | some iin => do
      let existing ← Prog.query fun s => s.children.find? fun c => c.iin == some iin
      Prog.guardOr existing.isNone (.child (.childIinAlreadyExists iin))

/-- The card under a new id. -/
def insertChild (createNew : Nat → Except ChildError Child) : Sql Child := do
  let id ← Prog.uuid
  let child ← Prog.ofExcept (ofChild (createNew id))
  Prog.insertOr (.createChild child) (.child (.childIinAlreadyExists (child.iin.getD "")))
  pure child

def createChild (now : Int) (enrollment : Enrollment) (currentGroupId : Option Nat) (groupExists : Bool) :
    Sql Child := do
  let iin ← Prog.ofExcept (ofChild (enrollment.childIin.mapM parseIin))
  Prog.guardOr (currentGroupId.isNone || groupExists) (.groupNotFound (currentGroupId.getD 0))
  checkIin iin
  insertChild fun id => Child.createNew
    ⟨id, enrollment.childName.getD "", iin, enrollment.childDob.getD 0, currentGroupId⟩ now

/-- A primary guardian who may pick up, by phone. -/
def inviteGuardian (child : Child) (userPhone : String) (userId : Nat) : Sql Unit := do
  let found ← Prog.query fun s => Table.find s.children child.id
  let child ← Prog.require found (.child (.childNotFound child.id))
  let _ ← Prog.ofExcept (parsePhone userPhone)
  let dup ← Prog.query fun s => s.guardians.find? fun g =>
    g.childId == child.id && g.userId == userId && g.status != .revoked
  Prog.guardOr dup.isNone (.duplicateGuardian child.id userId)
  let id ← Prog.uuid
  Prog.insertOr (.createGuardian (ChildGuardian.createPending id child.id userId .primary (some true)))
    (.internal "idx_child_guardians_child_user_unique")

end ChildService

namespace EnrollmentService

def getEnrollment (id : Nat) : Sql Enrollment := do
  let found ← EnrollmentRepository.findById id
  Prog.require found (.enrollmentNotFound id)

def update (id : Nat) (patch : UpdateEnrollmentPatch) (staffExists : Bool) : Sql Enrollment := do
  let enrollment ← getEnrollment id
  Prog.guardOr (patch.assignedTo.isNone || staffExists) (.staffNotFound (patch.assignedTo.getD 0))
  let updated ← Prog.ofExcept (enrollment.update patch)
  EnrollmentRepository.update updated

def assign (id assignedTo : Nat) (staffExists : Bool) : Sql Enrollment := do
  let enrollment ← getEnrollment id
  Prog.guardOr staffExists (.staffNotFound assignedTo)
  let assigned ← Prog.ofExcept (enrollment.assignTo assignedTo)
  EnrollmentRepository.update assigned

def validateCardCreatedPayload (enrollment : Enrollment) (input : TransitionEnrollmentInput) :
    Except EnrollmentError Unit :=
  let missing := enrollment.missingFields ++
    (if input.currentGroupId.isNone then ["currentGroupId"] else [])
  if missing ≠ [] then .error (.enrollmentMissingRequiredFields missing) else .ok ()

/-- Before the lead is moved: does it have what a card needs, and is the group a known one? -/
def checkPayload (enrollment : Enrollment) (input : TransitionEnrollmentInput) : Except EnrollmentError Unit :=
  if input.toStatus = .cardCreated then do
    validateCardCreatedPayload enrollment input
    if input.groupExists then .ok () else .error (.groupNotFound (input.currentGroupId.getD 0))
  else .ok ()

/-- The card, its first guardian and the first invoice; the lead with the new child. -/
def createCard (now : Int) (enrollment : Enrollment) (input : TransitionEnrollmentInput) :
    Sql (Enrollment × Option Child) := do
  let child ← ChildService.createChild now enrollment input.currentGroupId input.groupExists
  ChildService.inviteGuardian child enrollment.contactPhone input.userId
  Prog.guardOr (!input.firstInvoiceFails) .firstInvoice
  pure (enrollment.assignChild child.id, some child)

/-- Only the edge to `card_created` carries side effects. -/
def sideEffects (now : Int) (enrollment : Enrollment) (input : TransitionEnrollmentInput) :
    Sql (Enrollment × Option Child) :=
  if input.toStatus = .cardCreated then createCard now enrollment input else pure (enrollment, none)

def transition (now : Int) (id : Nat) (input : TransitionEnrollmentInput) : Sql TransitionEnrollmentResult := do
  let enrollment ← getEnrollment id
  let callerStaffId ← Prog.require input.callerStaffId (.staffNotFound input.callerUserId)
  Prog.ofExcept (checkPayload enrollment input)
  let moved ← Prog.ofExcept (enrollment.transitionTo input.toStatus callerStaffId input.comment now)
  let carried ← sideEffects now moved.1 input
  let written ← EnrollmentRepository.updateWithExpectedStatus carried.1 enrollment.status
  Prog.guardOr written (.enrollmentTransitionConflict enrollment.id enrollment.status input.toStatus)
  EnrollmentRepository.appendLog moved.2
  let updated ← EnrollmentRepository.findById enrollment.id
  let updated ← Prog.require updated (.enrollmentNotFound enrollment.id)
  pure ⟨updated, carried.2⟩

end EnrollmentService

/-! ## Requests -/

inductive Op
  | update (id : Nat) (patch : UpdateEnrollmentPatch) (staffExists : Bool)
  | assign (id assignedTo : Nat) (staffExists : Bool)
  | transition (now : Int) (id : Nat) (input : TransitionEnrollmentInput)

def Op.enrollmentId : Op → Nat
  | .update id _ _ | .assign id _ _ | .transition _ id _ => id

def Op.prog : Op → Sql TransitionEnrollmentResult
  | .update id patch found => .bind (EnrollmentService.update id patch found) fun e => .ret ⟨e, none⟩
  | .assign id staff found => .bind (EnrollmentService.assign id staff found) fun e => .ret ⟨e, none⟩
  | .transition now id input => EnrollmentService.transition now id input

/-- Up to `n` transactions at once. -/
abbrev System (n : Nat) := Transactions.System Store Key Write EnrollmentError Op TransitionEnrollmentResult n

abbrev Schedule (n : Nat) := List (Choice Op n)

abbrev EnrollmentCommit := Commit Store Key Write Op TransitionEnrollmentResult

def run {n : Nat} (s : Store) (cs : Schedule n) : Option (System n) :=
  (System.init s).exec Op.prog cs

end Enrollments
