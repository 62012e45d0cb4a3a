import Shyraq.Children.Entities

/-!
# ChildService, the card of a child

Each request is one transaction.  What other modules answer is part of the request: whether the
group exists, whether a tariff covers the day.  The closing of tariff assignments, the
notifications and the queue are left out.
-/

namespace Children

open Kernel Transactions

abbrev Sql (A : Type) := Prog Store Key Write ChildError A

namespace ChildRepository

def findById (id : Nat) : Sql (Option Child) := Prog.query fun s => s.child? id

def findByKindergartenAndIin (iin : String) : Sql (Option Child) :=
  Prog.query fun s => s.children.find? fun c => c.iin == some iin

/-- A row that was read is still there, so only the index on the IIN can refuse it. -/
def update (child : Child) : Sql Unit :=
  Prog.insertOr (.update child) (.childIinAlreadyExists (child.iin.getD ""))

/-- No row had the status: is there no child, or one in another status? -/
def discriminate (id : Nat) (wrongStatus : ChildError) : Sql Child := do
  let existing ← findById id
  Prog.guardOr existing.isSome (.childNotFound id)
  .throw wrongStatus

/-- A conditional UPDATE and its row. -/
def transition (w : Write) (id : Nat) (wrongStatus : ChildError) : Sql Child := do
  let row ← Prog.returning w fun s => s.child? id
  match row with
  | some child => pure child
  | none => discriminate id wrongStatus

def archive (id : Nat) (archivedAt : Int) (archiveReason : String) : Sql Child :=
  transition (.archive id archivedAt archiveReason) id (.childAlreadyArchived id)

def reactivate (id : Nat) : Sql Child := transition (.reactivate id) id (.childNotArchived id)

/-- The error of a lost race names the status that was read before. -/
def activate (id : Nat) (activatedAt : Int) (existing : Child) : Sql Child :=
  transition (.activate id activatedAt) id (.invalidChildStatusTransition existing.status .active)

def recordGroupTransfer (g : GroupTransfer) : Sql Unit := do
  let _ ← Prog.update (.recordGroupTransfer g)
  pure ()

def recordStatusChange (h : ChildStatusHistory) : Sql Unit :=
  Prog.insertOr (.recordStatusChange h) (.internal "child_status_history")

end ChildRepository

namespace ChildService

def getChild (id : Nat) : Sql Child := do
  let found ← ChildRepository.findById id
  Prog.require found (.childNotFound id)

/-- The new card is written whatever the row is by now. -/
def save (next : Except ChildError Child) : Sql Child := do
  let child ← Prog.ofExcept next
  ChildRepository.update child
  pure child

/-- A new IIN must be well formed and free. -/
def checkIin (id : Nat) (iin : Option (Option String)) : Sql Unit :=
  match iin with
  | some (some raw) => do
      let parsed ← Prog.ofExcept (parseIin raw)
      let conflict ← ChildRepository.findByKindergartenAndIin parsed
      Prog.guardOr (conflict.all fun c => c.id == id) (.childIinAlreadyExists parsed)
  | _ => pure ()

def updateChildProfile (now : Int) (id : Nat) (patch : UpdateChildProfilePatch) : Sql Child := do
  let child ← getChild id
  checkIin child.id patch.iin
  save (child.updateProfile patch now)

def updateChildPhoto (id : Nat) (photoUrl : Option String) : Sql Child := do
  let child ← getChild id
  save (child.updatePhoto photoUrl)

def assignChildToGroup (id groupId : Nat) (groupExists : Bool) : Sql Child := do
  let child ← getChild id
  Prog.guardOr groupExists (.groupNotFound groupId)
  save (child.assignToGroup groupId)

def unassignChildFromGroup (id : Nat) : Sql Child := do
  let child ← getChild id
  save child.unassignFromGroup

def transferChildToGroup (now : Int) (id toGroupId : Nat) (groupExists : Bool)
    (transferredByStaffId : Nat) (reason : Option String) : Sql Child := do
  let child ← getChild id
  Prog.guardOr groupExists (.groupNotFound toGroupId)
  let saved ← save (child.transferToGroup toGroupId)
  ChildRepository.recordGroupTransfer
    ⟨id, child.currentGroupId, toGroupId, transferredByStaffId, reason, now⟩
  pure saved

/-! ### Status transitions -/

/-- The audit row, in the transaction of the transition. -/
def recordTransition (childId : Nat) (previousStatus newStatus : ChildStatus)
    (previousArchiveReason archiveReason : Option String) (changedByUserId : Nat) (changedAt : Int) :
    Sql Unit := do
  let id ← Prog.uuid
  let historyRecord ← Prog.ofExcept (ChildStatusHistory.record
    ⟨id, childId, previousStatus, newStatus, previousArchiveReason, archiveReason, changedByUserId,
      changedAt⟩)
  ChildRepository.recordStatusChange historyRecord

def archiveChild (now : Int) (id : Nat) (reason : String) (changedByUserId : Nat) : Sql Child := do
  let trimmedReason := trim reason
  Prog.guardOr (decide (0 < textLength trimmedReason ∧ textLength trimmedReason ≤ 500))
    (.archiveReasonRequired id)
  let child ← ChildRepository.archive id now trimmedReason
  recordTransition id .active .archived none (some trimmedReason) changedByUserId now
  pure child

def reactivateChild (now : Int) (id changedByUserId : Nat) : Sql Child := do
  let before ← ChildRepository.findById id
  let child ← ChildRepository.reactivate id
  recordTransition id .archived .active (before.bind Child.archiveReason) none changedByUserId now
  pure child

def activateChild (now : Int) (id : Nat) (hasTariff : Bool) (changedByUserId : Nat) : Sql Child := do
  let existing ← getChild id
  Prog.guardOr (existing.status == .cardCreated)
    (.invalidChildStatusTransition existing.status .active)
  Prog.guardOr hasTariff (.childActivationRequiresTariff id)
  let child ← ChildRepository.activate id now existing
  recordTransition id .cardCreated .active none none changedByUserId now
  pure child

end ChildService

/-! ## Requests -/

inductive Op
  | updateChildProfile (now : Int) (id : Nat) (patch : UpdateChildProfilePatch)
  | updateChildPhoto (id : Nat) (photoUrl : Option String)
  | assignChildToGroup (id groupId : Nat) (groupExists : Bool)
  | unassignChildFromGroup (id : Nat)
  | transferChildToGroup (now : Int) (id toGroupId : Nat) (groupExists : Bool)
      (transferredByStaffId : Nat) (reason : Option String)
  | archiveChild (now : Int) (id : Nat) (reason : String) (changedByUserId : Nat)
  | reactivateChild (now : Int) (id changedByUserId : Nat)
  | activateChild (now : Int) (id : Nat) (hasTariff : Bool) (changedByUserId : Nat)

def Op.prog : Op → Sql Child
  | updateChildProfile now id patch => ChildService.updateChildProfile now id patch
  | updateChildPhoto id photoUrl => ChildService.updateChildPhoto id photoUrl
  | assignChildToGroup id g found => ChildService.assignChildToGroup id g found
  | unassignChildFromGroup id => ChildService.unassignChildFromGroup id
  | transferChildToGroup now id g found staff reason =>
      ChildService.transferChildToGroup now id g found staff reason
  | archiveChild now id reason u => ChildService.archiveChild now id reason u
  | reactivateChild now id u => ChildService.reactivateChild now id u
  | activateChild now id hasTariff u => ChildService.activateChild now id hasTariff u

/-- Up to `n` transactions at once. -/
abbrev System (n : Nat) := Transactions.System Store Key Write ChildError Op Child n

abbrev Schedule (n : Nat) := List (Choice Op n)

abbrev ChildCommit := Commit Store Key Write Op Child

/-- The state after a schedule, from a committed store. -/
def run {n : Nat} (s : Store) (cs : Schedule n) : Option (System n) :=
  (System.init s).exec Op.prog cs

end Children
