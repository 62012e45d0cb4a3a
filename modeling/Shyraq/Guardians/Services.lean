import Shyraq.Guardians.Entities

/-!
# ChildService, the guardian requests

The requests of the admin and of the parents, and the OTP hook of `AuthService`.  Each is one
transaction.  Lookups of the child and the user, and the notifications, are left out.
-/

namespace Guardians

open Transactions

abbrev Sql (A : Type) := Prog Store Key Write GuardianError A

namespace ChildGuardianRepository

def create (guardian : ChildGuardian) : Sql Unit :=
  Prog.insertOr (.insert guardian) (.uniqueViolation "idx_child_guardians_child_user_unique")

def findById (id : Nat) : Sql (Option ChildGuardian) := Prog.query fun s => s.guardian? id

def findActiveByChildAndUser (childId userId : Nat) : Sql (Option ChildGuardian) :=
  Prog.query fun s => s.guardians.find? fun g =>
    g.childId == childId && g.userId == userId && g.status != .revoked

def findPendingPrimaryByUserIdCrossTenant (userId : Nat) : Sql (List ChildGuardian) :=
  Prog.query fun s => s.guardians.filter fun g =>
    g.userId == userId && g.role == .primary && g.status == .pendingApproval

/-- A row that was read is still there, so only the index can refuse it. -/
def update (guardian : ChildGuardian) : Sql Unit :=
  Prog.insertOr (.update guardian) (.uniqueViolation "idx_child_guardians_child_user_unique")

def updateWithExpectedStatus (guardian : ChildGuardian) (expectedStatus : GuardianStatus) : Sql Bool :=
  Prog.update (.updateWithExpectedStatus guardian expectedStatus)

end ChildGuardianRepository

/-- Approved, with the right to approve, on this child. -/
def ChildGuardian.countedFor (childId : Nat) (g : ChildGuardian) : Bool :=
  g.childId == childId && g.holdsRights

def Store.approvalRights (s : Store) (childId : Nat) : Nat :=
  s.guardians.countP (ChildGuardian.countedFor childId)

namespace ChildGuardianRepository

def countApprovalRights (childId : Nat) : Sql Nat := Prog.query fun s => s.approvalRights childId

def acquireApprovalRightsLock (childId : Nat) : Sql Unit := Prog.acquire (.approvalRights childId)

end ChildGuardianRepository

namespace ChildService

def assertCallerIsApprovedPrimary (childId primaryUserId : Nat) : Sql Unit := do
  let caller ← ChildGuardianRepository.findActiveByChildAndUser childId primaryUserId
  Prog.guardOr (caller.any fun c => c.role == .primary && c.status == .approved)
    (.notPrimaryGuardian primaryUserId childId)

/-- The cap of two, read and checked under the lock of the child. -/
def checkApprovalRightsCap (needed : Bool) (childId : Nat) : Sql Unit :=
  if needed then do
    ChildGuardianRepository.acquireApprovalRightsLock childId
    let current ← ChildGuardianRepository.countApprovalRights childId
    Prog.guardOr (decide (current < 2)) (.maxApprovalRightsExceeded childId)
  else
    pure ()

/-- The new state is written where the status is still the one that was read. -/
def saveExpected (guardian : ChildGuardian) (next : Except GuardianError ChildGuardian) :
    Sql ChildGuardian := do
  let guardian' ← Prog.ofExcept next
  let ok ← ChildGuardianRepository.updateWithExpectedStatus guardian' guardian.status
  Prog.guardOr ok (.childGuardianStatusConflict guardian.id guardian.status)
  pure guardian'

/-- The new state is written whatever the row is by now. -/
def save (next : Except GuardianError ChildGuardian) : Sql ChildGuardian := do
  let guardian ← Prog.ofExcept next
  ChildGuardianRepository.update guardian
  pure guardian

/-- A guardian of the child in the path of the request. -/
def findOfChild (childId guardianId : Nat) : Sql ChildGuardian := do
  let found ← ChildGuardianRepository.findById guardianId
  let guardian ← Prog.require found (.guardianNotFound guardianId)
  Prog.guardOr (guardian.childId == childId) (.guardianNotFound guardianId)
  pure guardian

/-- A guardian whose child the caller is an approved primary of. -/
def findAsPrimary (primaryUserId guardianId : Nat) : Sql ChildGuardian := do
  let found ← ChildGuardianRepository.findById guardianId
  let guardian ← Prog.require found (.guardianNotFound guardianId)
  assertCallerIsApprovedPrimary guardian.childId primaryUserId
  pure guardian

/-! ### Admin -/

def inviteGuardian (childId userId : Nat) (role : GuardianRelation) (canPickup : Option Bool) :
    Sql ChildGuardian := do
  let dup ← ChildGuardianRepository.findActiveByChildAndUser childId userId
  Prog.guardOr dup.isNone (.duplicateGuardian childId userId)
  let id ← Prog.uuid
  let guardian := ChildGuardian.createPending id childId userId role canPickup
  ChildGuardianRepository.create guardian
  pure guardian

def updateGuardianRoleAndPickup (childId guardianId : Nat) (role : Option GuardianRelation)
    (canPickup : Option Bool) : Sql ChildGuardian := do
  let guardian ← findOfChild childId guardianId
  save (guardian.updateRoleAndPickup role canPickup)

def revokeGuardianByAdmin (now : Int) (childId guardianId revokedByUserId : Nat) :
    Sql ChildGuardian := do
  let guardian ← findOfChild childId guardianId
  saveExpected guardian (guardian.revoke revokedByUserId now)

def approveGuardianByAdmin (now : Int) (childId guardianId approvedByUserId : Nat)
    (grantApprovalRights : Bool) : Sql ChildGuardian := do
  let guardian ← findOfChild childId guardianId
  let isPrimary := guardian.role == .primary
  let grant := isPrimary || grantApprovalRights
  checkApprovalRightsCap (grant && !isPrimary) guardian.childId
  saveExpected guardian (guardian.approve approvedByUserId now grant)

def rejectGuardianByAdmin (childId guardianId : Nat) : Sql ChildGuardian := do
  let guardian ← findOfChild childId guardianId
  saveExpected guardian guardian.reject

/-! ### Parents -/

def approveGuardian (now : Int) (primaryUserId guardianId : Nat) (grantApprovalRights : Bool) :
    Sql ChildGuardian := do
  let guardian ← findAsPrimary primaryUserId guardianId
  checkApprovalRightsCap grantApprovalRights guardian.childId
  saveExpected guardian (guardian.approve primaryUserId now grantApprovalRights)

def rejectGuardian (primaryUserId guardianId : Nat) : Sql ChildGuardian := do
  let guardian ← findAsPrimary primaryUserId guardianId
  saveExpected guardian guardian.reject

def revokeGuardianByPrimary (now : Int) (primaryUserId guardianId : Nat) : Sql ChildGuardian := do
  let guardian ← findAsPrimary primaryUserId guardianId
  Prog.guardOr (guardian.userId != primaryUserId) (.primaryCannotSelfRevoke primaryUserId)
  saveExpected guardian (guardian.revoke primaryUserId now)

def selfUnlinkFromChild (now : Int) (callerUserId childId : Nat) : Sql ChildGuardian := do
  let found ← ChildGuardianRepository.findActiveByChildAndUser childId callerUserId
  let guardian ← Prog.require found (.childAccessDenied callerUserId childId)
  Prog.guardOr (guardian.status == .approved) (.childAccessDenied callerUserId childId)
  saveExpected guardian (guardian.revokeBySelf now)

def toggleGuardianApprovalRights (primaryUserId guardianId : Nat) (grant : Bool) :
    Sql ChildGuardian := do
  let guardian ← findAsPrimary primaryUserId guardianId
  checkApprovalRightsCap (grant && !guardian.hasApprovalRights) guardian.childId
  save (guardian.toggleApprovalRights grant)

def updateGuardianPermissions (now : Int) (primaryUserId guardianId : Nat)
    (permissions : List (String × Bool)) : Sql ChildGuardian := do
  let patch ← Prog.ofExcept (GuardianPermissions.fromObject permissions)
  let guardian ← findAsPrimary primaryUserId guardianId
  save (guardian.applyPermissionsPatch patch primaryUserId now)

def resetGuardianPermissions (now : Int) (primaryUserId guardianId : Nat) : Sql ChildGuardian := do
  let guardian ← findAsPrimary primaryUserId guardianId
  save (guardian.resetPermissions primaryUserId now)

end ChildService

/-- `autoApprovePendingPrimaries`, the turn of one row: it is updated in a transaction of its
own, from the list that was read before. -/
def AuthService.autoApprovePendingPrimary (now : Int) (userId guardianId : Nat) : Sql ChildGuardian := do
  let pending ← ChildGuardianRepository.findPendingPrimaryByUserIdCrossTenant userId
  let guardian ← Prog.require (Table.find pending guardianId) (.guardianNotFound guardianId)
  ChildService.save (guardian.autoApproveAsPrimary now)

/-! ## Requests -/

inductive Op
  | inviteGuardian (childId userId : Nat) (role : GuardianRelation) (canPickup : Option Bool)
  | updateGuardianRoleAndPickup (childId guardianId : Nat) (role : Option GuardianRelation)
      (canPickup : Option Bool)
  | revokeGuardianByAdmin (now : Int) (childId guardianId revokedByUserId : Nat)
  | approveGuardianByAdmin (now : Int) (childId guardianId approvedByUserId : Nat)
      (grantApprovalRights : Bool)
  | rejectGuardianByAdmin (childId guardianId : Nat)
  | approveGuardian (now : Int) (primaryUserId guardianId : Nat) (grantApprovalRights : Bool)
  | rejectGuardian (primaryUserId guardianId : Nat)
  | revokeGuardianByPrimary (now : Int) (primaryUserId guardianId : Nat)
  | selfUnlinkFromChild (now : Int) (callerUserId childId : Nat)
  | toggleGuardianApprovalRights (primaryUserId guardianId : Nat) (grant : Bool)
  | updateGuardianPermissions (now : Int) (primaryUserId guardianId : Nat)
      (permissions : List (String × Bool))
  | resetGuardianPermissions (now : Int) (primaryUserId guardianId : Nat)
  | autoApprovePendingPrimary (now : Int) (userId guardianId : Nat)

def Op.prog : Op → Sql ChildGuardian
  | inviteGuardian c u role pickup => ChildService.inviteGuardian c u role pickup
  | updateGuardianRoleAndPickup c g role pickup => ChildService.updateGuardianRoleAndPickup c g role pickup
  | revokeGuardianByAdmin now c g u => ChildService.revokeGuardianByAdmin now c g u
  | approveGuardianByAdmin now c g u grant => ChildService.approveGuardianByAdmin now c g u grant
  | rejectGuardianByAdmin c g => ChildService.rejectGuardianByAdmin c g
  | approveGuardian now u g grant => ChildService.approveGuardian now u g grant
  | rejectGuardian u g => ChildService.rejectGuardian u g
  | revokeGuardianByPrimary now u g => ChildService.revokeGuardianByPrimary now u g
  | selfUnlinkFromChild now u c => ChildService.selfUnlinkFromChild now u c
  | toggleGuardianApprovalRights u g grant => ChildService.toggleGuardianApprovalRights u g grant
  | updateGuardianPermissions now u g p => ChildService.updateGuardianPermissions now u g p
  | resetGuardianPermissions now u g => ChildService.resetGuardianPermissions now u g
  | autoApprovePendingPrimary now u g => AuthService.autoApprovePendingPrimary now u g

/-- Up to `n` guardian transactions at once. -/
abbrev System (n : Nat) := Transactions.System Store Key Write GuardianError Op ChildGuardian n

abbrev Schedule (n : Nat) := List (Choice Op n)

abbrev GuardianCommit := Commit Store Key Write Op ChildGuardian

/-- The state after a schedule, from a committed store. -/
def run {n : Nat} (s : Store) (cs : Schedule n) : Option (System n) :=
  (System.init s).exec Op.prog cs

end Guardians
