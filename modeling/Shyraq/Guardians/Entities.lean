import Shyraq.Transactions.Statements
import Shyraq.Transactions.Table
import Shyraq.Transactions.Runs

/-!
# Guardians of a child

The table `child_guardians` of one kindergarten and the transitions of a row.  The columns
`created_at` and `updated_at` are left out.
-/

namespace Guardians

open Transactions

inductive GuardianRelation
  | primary | secondary | nanny
  deriving DecidableEq, Repr

inductive GuardianStatus
  | pendingApproval | approved | rejected | revoked
  deriving DecidableEq, Repr

/-- `rejected` and `revoked`. -/
def GuardianStatus.terminal : GuardianStatus → Bool
  | .rejected | .revoked => true
  | .pendingApproval | .approved => false

/-! ## Permissions -/

inductive PermissionKey
  | viewTimeline | viewPayments | payInvoices | viewDiagnostics | viewContent | viewCctv
  | receivePushNonPickup | createRequests | prepayment | trustedPeopleManage
  deriving DecidableEq, Repr

namespace PermissionKey

/-- `ALL_PERMISSION_KEYS`. -/
def all : List PermissionKey :=
  [viewTimeline, viewPayments, payInvoices, viewDiagnostics, viewContent, viewCctv,
    receivePushNonPickup, createRequests, prepayment, trustedPeopleManage]

def value : PermissionKey → String
  | viewTimeline => "view_timeline"
  | viewPayments => "view_payments"
  | payInvoices => "pay_invoices"
  | viewDiagnostics => "view_diagnostics"
  | viewContent => "view_content"
  | viewCctv => "view_cctv"
  | receivePushNonPickup => "receive_push_non_pickup"
  | createRequests => "create_requests"
  | prepayment => "prepayment"
  | trustedPeopleManage => "trusted_people_manage"

def fromString (key : String) : Option PermissionKey := all.find? fun k => k.value == key

/-- `LOCKED_PERMISSION_KEYS`. -/
def locked : PermissionKey → Bool
  | prepayment | trustedPeopleManage => true
  | _ => false

end PermissionKey

inductive GuardianError
  | guardianNotFound (id : Nat)
  | duplicateGuardian (childId userId : Nat)
  | notPrimaryGuardian (userId childId : Nat)
  | childAccessDenied (userId childId : Nat)
  | primaryCannotSelfRevoke (userId : Nat)
  | primaryCannotSelfUnlink (childId userId : Nat)
  | guardianNotApproved (id : Nat) (status : GuardianStatus)
  | invalidGuardianStatusTransition (source : GuardianStatus) (target : String)
  | childGuardianStatusConflict (id : Nat) (expectedStatus : GuardianStatus)
  | maxApprovalRightsExceeded (childId : Nat)
  | unknownPermissionKey (key : String)
  | lockedPermissionKey (key : PermissionKey)
  /-- What the driver throws on a violated index. -/
  | uniqueViolation (index : String)
  deriving DecidableEq

/-- The overrides of a row, in the order of their keys. -/
abbrev GuardianPermissions := List (PermissionKey × Bool)

namespace GuardianPermissions

def fromObject : List (String × Bool) → Except GuardianError GuardianPermissions
  | [] => .ok []
  | (key, value) :: entries =>
      match PermissionKey.fromString key with
      | none => .error (.unknownPermissionKey key)
      | some k => (fromObject entries).map fun out => (k, value) :: out

/-- `{ ...overrides, ...patch }`. -/
def spread (overrides patch : GuardianPermissions) : GuardianPermissions :=
  (overrides.map fun o => (o.1, (patch.lookup o.1).getD o.2)) ++
    patch.filter fun p => (overrides.lookup p.1).isNone

def merge (overrides patch : GuardianPermissions) : Except GuardianError GuardianPermissions :=
  match patch.find? fun p => p.1.locked with
  | some p => .error (.lockedPermissionKey p.1)
  | none => .ok (spread overrides patch)

end GuardianPermissions

/-! ## Rows -/

structure ChildGuardian where
  id : Nat
  childId : Nat
  userId : Nat
  role : GuardianRelation
  status : GuardianStatus
  hasApprovalRights : Bool
  approvedBy : Option Nat
  approvedAt : Option Int
  revokedBy : Option Nat
  revokedAt : Option Int
  canPickup : Bool
  permissions : GuardianPermissions
  permissionsUpdatedBy : Option Nat
  permissionsUpdatedAt : Option Int
  deriving DecidableEq

instance : Row ChildGuardian := ⟨ChildGuardian.id⟩

namespace ChildGuardian

def createPending (id childId userId : Nat) (role : GuardianRelation) (canPickup : Option Bool) :
    ChildGuardian where
  id := id
  childId := childId
  userId := userId
  role := role
  status := .pendingApproval
  hasApprovalRights := false
  approvedBy := none
  approvedAt := none
  revokedBy := none
  revokedAt := none
  canPickup := canPickup.getD true
  permissions := []
  permissionsUpdatedBy := none
  permissionsUpdatedAt := none

variable (g : ChildGuardian)

def approve (approver : Nat) (now : Int) (grantApprovalRights : Bool) :
    Except GuardianError ChildGuardian :=
  if g.status = .pendingApproval then
    .ok { g with
      status := .approved
      approvedAt := some now
      approvedBy := some approver
      hasApprovalRights := grantApprovalRights || g.hasApprovalRights }
  else .error (.invalidGuardianStatusTransition g.status "approved")

def reject : Except GuardianError ChildGuardian :=
  if g.status = .pendingApproval then .ok { g with status := .rejected }
  else .error (.invalidGuardianStatusTransition g.status "rejected")

def revoke (revoker : Nat) (now : Int) : Except GuardianError ChildGuardian :=
  if g.status = .pendingApproval ∨ g.status = .approved then
    .ok { g with status := .revoked, revokedAt := some now, revokedBy := some revoker }
  else .error (.invalidGuardianStatusTransition g.status "revoked")

def autoApproveAsPrimary (now : Int) : Except GuardianError ChildGuardian :=
  if g.role ≠ .primary then .error (.invalidGuardianStatusTransition g.status "approved")
  else if g.status ≠ .pendingApproval then
    .error (.invalidGuardianStatusTransition g.status "approved")
  else
    .ok { g with
      status := .approved
      approvedAt := some now
      approvedBy := some g.userId
      hasApprovalRights := true }

def revokeBySelf (now : Int) : Except GuardianError ChildGuardian :=
  if g.role = .primary then .error (.primaryCannotSelfUnlink g.childId g.userId)
  else if g.status ≠ .approved then .error (.invalidGuardianStatusTransition g.status "revoked")
  else .ok { g with status := .revoked, revokedAt := some now, revokedBy := some g.userId }

def updateRoleAndPickup (role : Option GuardianRelation) (canPickup : Option Bool) :
    Except GuardianError ChildGuardian :=
  if g.status = .revoked then .error (.invalidGuardianStatusTransition g.status "role_or_pickup_update")
  else .ok { g with role := role.getD g.role, canPickup := canPickup.getD g.canPickup }

def applyPermissionsPatch (patch : GuardianPermissions) (updater : Nat) (now : Int) :
    Except GuardianError ChildGuardian :=
  if g.status ≠ .approved then .error (.guardianNotApproved g.id g.status)
  else (g.permissions.merge patch).map fun merged =>
    { g with
      permissions := merged
      permissionsUpdatedAt := some now
      permissionsUpdatedBy := some updater }

def resetPermissions (updater : Nat) (now : Int) : Except GuardianError ChildGuardian :=
  if g.status ≠ .approved then .error (.guardianNotApproved g.id g.status)
  else .ok { g with
    permissions := []
    permissionsUpdatedAt := some now
    permissionsUpdatedBy := some updater }

def toggleApprovalRights (grant : Bool) : Except GuardianError ChildGuardian :=
  if g.status ≠ .approved then .error (.guardianNotApproved g.id g.status)
  else .ok { g with hasApprovalRights := grant }

/-- Counts against the cap of its child. -/
def holdsRights : Bool := g.status == .approved && g.hasApprovalRights

/-- An UPDATE writes all columns but the key columns. -/
def saved (row : ChildGuardian) : ChildGuardian :=
  { g with id := row.id, childId := row.childId, userId := row.userId }

end ChildGuardian

/-! ## The table -/

structure Store where
  guardians : List ChildGuardian

inductive Key
  | row (id : Nat)
  /-- `idx_child_guardians_child_user_unique`. -/
  | childUser (childId userId : Nat)
  /-- `approval-rights:<kg>:<childId>`. -/
  | approvalRights (childId : Nat)
  deriving DecidableEq

inductive Write
  | insert (g : ChildGuardian)
  /-- The full row, whatever is there. -/
  | update (g : ChildGuardian)
  /-- The full row, where the status is still this one. -/
  | updateWithExpectedStatus (g : ChildGuardian) (expectedStatus : GuardianStatus)

namespace Store

def guardian? (s : Store) (i : Nat) : Option ChildGuardian := Table.find s.guardians i

/-- The partial unique index admits the row: no other row of this child and user is live. -/
def indexable (s : Store) (g : ChildGuardian) : Bool :=
  g.status == .revoked || s.guardians.all fun q =>
    q.id == g.id || q.childId != g.childId || q.userId != g.userId || q.status == .revoked

def keys : Write → List Key
  | .insert g | .update g | .updateWithExpectedStatus g _ => [.row g.id, .childUser g.childId g.userId]

def hit (s : Store) : Write → Bool
  | .insert g => (s.guardian? g.id).isNone && s.indexable g
  | .update g => (s.guardian? g.id).isSome && s.indexable g
  | .updateWithExpectedStatus g e => ((s.guardian? g.id).any fun q => q.status == e) && s.indexable g

def apply (s : Store) : Write → Store
  | .insert g => { s with
      guardians := if (s.guardian? g.id).isNone then s.guardians ++ [g] else s.guardians }
  | .update g => { s with
      guardians := Table.updateWhere s.guardians g.id (fun _ => true) g.saved }
  | .updateWithExpectedStatus g e => { s with
      guardians := Table.updateWhere s.guardians g.id (fun q => q.status == e) g.saved }

end Store

instance : Relational Store Key Write where
  keys := Store.keys
  hit := Store.hit
  apply := Store.apply
  rowKey := Key.row
  absent s i := (s.guardian? i).isNone

end Guardians
