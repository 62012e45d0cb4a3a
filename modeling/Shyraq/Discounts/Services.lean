import Mathlib.Data.Rat.Floor
import Shyraq.Discounts.Entities
import Shyraq.Transactions.Runs
import Shyraq.Transactions.Statements

/-!
# CustomDiscountService

The writes to the catalogue.  A CHECK that a statement violates is found in the row that it returns.  Which children a
discount targets is part of a request.
-/

namespace Discounts

open Kernel Transactions
open Billing (CustomDiscountStatus)
open Diagnostics (Json)

abbrev Sql A := Prog Store Key Write DiscountError A

/-- What a `numeric(10,2)` column keeps of a number: a half goes away from zero. -/
def toNumeric (n : Decimal) : Int := if 0 ≤ n then ⌊n * 100 + 1 / 2⌋ else -⌊-n * 100 + 1 / 2⌋

namespace CustomDiscountRepository

/-- A row that was found is hydrated. -/
def hydrate : Option CustomDiscount → Sql (Option CustomDiscount)
  | none => pure none
  | some row => do
      let discount ← Prog.ofExcept row.toDomain
      pure (some discount)

def findById (id : Nat) : Sql (Option CustomDiscount) := do
  let row ← Prog.query fun s => s.discount id
  hydrate row

def findByIdForUpdate (id : Nat) : Sql (Option CustomDiscount) := do
  Prog.acquire (.row id)
  findById id

/-- The row that a statement returns meets its CHECKs. -/
def checkReturned (id : Nat) : Sql Unit := do
  let row ← Prog.query fun s => s.discount id
  Prog.guardOr (row.all CustomDiscount.meetsChecks) .checkViolated

def newRow (id : Nat) (input : CreateCustomDiscountInput) (amount : Int) (createdBy : Option Nat) : CustomDiscount :=
  { id := id
    name := input.name
    description := input.description
    discountType := input.discountType
    amount := amount
    conditions := input.conditions
    targetType := input.targetType
    targetIds := input.targetIds
    validFrom := input.validFrom
    validUntil := input.validUntil
    maxUsesPerChild := input.maxUsesPerChild
    totalMaxUses := input.totalMaxUses
    usedCount := 0
    priority := input.priority.getD 100
    stackable := input.stackable.getD false
    notifyOnActivation := input.notifyOnActivation.getD true
    notificationTitle := input.notificationTitle
    notificationBody := input.notificationBody
    status := .draft
    createdBy := createdBy }

/-- The row of a statement that has matched, read back. -/
def reload (id : Nat) : Sql (Option CustomDiscount) := do
  checkReturned id
  findById id

def create (input : CreateCustomDiscountInput) (createdBy : Option Nat) : Sql CustomDiscount := do
  let id ← Prog.uuid
  let row := newRow id input (toNumeric input.amount) createdBy
  Prog.insertOr (.insert { row with conditions := orElse row.conditions (.obj []) }) (.internal "duplicate key")
  let discount ← reload id
  Prog.require discount (.internal "custom_discount_create_failed_to_rehydrate")

def readBack (id : Nat) (matched : Bool) : Sql (Option CustomDiscount) := if matched then reload id else pure none

def update (id : Nat) (patch : UpdateCustomDiscountPatch) (expected : CustomDiscountStatus) :
    Sql (Option CustomDiscount) := do
  let matched ← Prog.update (.update id patch expected)
  readBack id matched

def transitionStatus (id : Nat) (expected : List CustomDiscountStatus) (toStatus : CustomDiscountStatus) :
    Sql (Option CustomDiscount) := do
  let matched ← Prog.update (.transition id expected toStatus)
  readBack id matched

def overdueIds (now : Int) (s : Store) : List Nat := (s.discounts.filter (Store.expires now)).map CustomDiscount.id

/-- One row after the other; a row that no longer qualifies is passed over. -/
def expireEach (now : Int) : List Nat → List Nat → Sql (List Nat)
  | expired, [] => pure expired
  | expired, id :: ids => do
      let matched ← Prog.update (.expire id now)
      expireEach now (if matched then expired ++ [id] else expired) ids

def markExpiredBatch (now : Int) : Sql (List Nat) := do
  let ids ← Prog.query (overdueIds now)
  expireEach now [] ids

end CustomDiscountRepository

namespace CustomDiscountService

def create (input : CreateCustomDiscountInput) (createdBy : Option Nat) : Sql CustomDiscount := do
  let _ ← Prog.ofExcept (CustomDiscountRepository.newRow 0 input (MoneyKzt.fromKzt input.amount) createdBy).fromState
  CustomDiscountRepository.create input createdBy

/-- The columns that the constructor looks at. -/
def revalidates (patch : UpdateCustomDiscountPatch) : Bool :=
  patch.conditions.isSome || patch.targetType.isSome || patch.targetIds.isSome || patch.amount.isSome ||
    patch.validFrom.isSome || patch.validUntil.isSome

def checkMerged (existing : CustomDiscount) (patch : UpdateCustomDiscountPatch) : Except DiscountError Unit :=
  if revalidates patch then (existing.merged patch).fromState.map fun _ => () else .ok ()

/-- No row has matched: read again for the error. -/
def refuse (id : Nat) (attempted : String) : Sql CustomDiscount := do
  let fresh ← CustomDiscountRepository.findById id
  let fresh ← Prog.require fresh (.notFound id)
  .throw (.statusInvalid fresh.status attempted)

/-- The answer, or why there is none. -/
def orRefuse (id : Nat) (attempted : String) : Option CustomDiscount → Sql CustomDiscount
  | some discount => pure discount
  | none => refuse id attempted

def update (id : Nat) (patch : UpdateCustomDiscountPatch) : Sql CustomDiscount := do
  let existing ← CustomDiscountRepository.findById id
  let existing ← Prog.require existing (.notFound id)
  Prog.guardOr (existing.status == .draft) (.statusInvalid existing.status "update")
  Prog.ofExcept (checkMerged existing patch)
  let updated ← CustomDiscountRepository.update id patch .draft
  orRefuse id "update" updated

/-- `resolveTargetChildIds` answers `none` where it throws. -/
def notifyActivated (resolve : CustomDiscount → Option (List Nat)) (flipped : CustomDiscount) : Sql Unit :=
  match flipped.notifyOnActivation, flipped.notificationTitle, flipped.notificationBody with
  | true, some title, some body => do
      let targetChildIds ← Prog.require (resolve flipped) .targetsUnresolved
      if targetChildIds.isEmpty then pure ()
      else Prog.insertOr (.enqueue ⟨flipped.id, flipped.name, targetChildIds, title, body⟩) (.internal "outbox")
  | _, _, _ => pure ()

def activate (resolve : CustomDiscount → Option (List Nat)) (id : Nat) : Sql CustomDiscount := do
  Prog.acquire (.activation id)
  let locked ← CustomDiscountRepository.findByIdForUpdate id
  let locked ← Prog.require locked (.notFound id)
  Prog.guardOr (locked.status == .draft) (.statusInvalid locked.status "activate")
  let flipped ← CustomDiscountRepository.transitionStatus id [.draft] .active
  let flipped ← Prog.require flipped (.statusInvalid locked.status "activate")
  notifyActivated resolve flipped
  pure flipped

def simpleTransition (id : Nat) (fromStatus : List CustomDiscountStatus) (toStatus : CustomDiscountStatus)
    (op : String) : Sql CustomDiscount := do
  let flipped ← CustomDiscountRepository.transitionStatus id fromStatus toStatus
  orRefuse id op flipped

def pause (id : Nat) : Sql CustomDiscount := simpleTransition id [.active] .paused "pause"

def resume (id : Nat) : Sql CustomDiscount := simpleTransition id [.paused] .active "resume"

def cancel (id : Nat) : Sql CustomDiscount := simpleTransition id [.draft, .active, .paused] .cancelled "cancel"

def expireOverdue (now : Int) : Sql (List Nat) := CustomDiscountRepository.markExpiredBatch now

end CustomDiscountService

/-! ## Requests -/

inductive Op
  | create (input : CreateCustomDiscountInput) (createdBy : Option Nat)
  | update (id : Nat) (patch : UpdateCustomDiscountPatch)
  | activate (resolve : CustomDiscount → Option (List Nat)) (id : Nat)
  | pause (id : Nat)
  | resume (id : Nat)
  | cancel (id : Nat)
  | expireOverdue (now : Int)

inductive Answer
  | discount (discount : CustomDiscount)
  | expired (ids : List Nat)

def answered (p : Sql CustomDiscount) : Sql Answer := do
  let discount ← p
  pure (.discount discount)

def Op.prog : Op → Sql Answer
  | create input createdBy => answered (CustomDiscountService.create input createdBy)
  | update id patch => answered (CustomDiscountService.update id patch)
  | activate resolve id => answered (CustomDiscountService.activate resolve id)
  | pause id => answered (CustomDiscountService.pause id)
  | resume id => answered (CustomDiscountService.resume id)
  | cancel id => answered (CustomDiscountService.cancel id)
  | expireOverdue now => do
      let ids ← CustomDiscountService.expireOverdue now
      pure (.expired ids)

abbrev System (n : Nat) := Transactions.System Store Key Write DiscountError Op Answer n
abbrev Schedule (n : Nat) := List (Choice Op n)
abbrev Commit := Transactions.Commit Store Key Write Op Answer

def run {n : Nat} (s : Store) (cs : Schedule n) : Option (System n) := (System.init s).exec Op.prog cs

end Discounts
