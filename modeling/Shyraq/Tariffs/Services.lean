import Shyraq.Tariffs.Entities

/-!
# TariffPlanService and TariffAssignmentService

The admin requests on the catalogue, and `closeActiveForChild`, which the archive of a child
calls.  Each is one transaction.
-/

namespace Tariffs

open Kernel Transactions

inductive TariffError
  | tariffPlanNotFound (id : Nat)
  | tariffPlanOverlap (type : TariffType) (appliesTo : TariffAppliesTo) (groupId : Option Nat)
  | tariffAssignmentNotFound (id : Nat)
  | tariffAssignmentOverlap (childId : Nat)
  /-- A plain `Error`: what a constructor throws, a violated constraint. -/
  | internal (message : String)
  deriving DecidableEq

abbrev Sql (A : Type) := Prog Store Key Write TariffError A

/-- A constructor that throws. -/
def orThrow {A : Type} : Except String A → Sql A
  | .ok a => .ret a
  | .error message => .throw (.internal message)

/-- A row, if there is one, as a domain object: a row that does not hydrate throws. -/
def toDomain {A : Type} (fromState : A → Except String A) : Option A → Sql (Option A)
  | none => .ret none
  | some row => do
      let a ← orThrow (fromState row)
      pure (some a)

/-! ## Plans -/

/-- `existsOverlap` looks at the active plans of the type; a group plan collides with plans of
its own group, all others with their own kind. -/
def TariffPlan.collides (type : TariffType) (appliesTo : TariffAppliesTo) (groupId : Option Nat)
    (p : TariffPlan) : Bool :=
  p.tariffType == type && p.isActive && p.appliesTo == appliesTo &&
    (appliesTo != .group || p.groupId == groupId)

namespace TariffPlanRepository

def findById (id : Nat) : Sql (Option TariffPlan) := do
  let row ← Prog.query fun s => s.plan? id
  toDomain TariffPlan.fromState row

def create (plan : TariffPlan) : Sql TariffPlan := do
  Prog.insertOr (.insertPlan plan) (.internal "tariff_plans")
  pure plan

def update (id : Nat) (patch : UpdateTariffPlanPatch) : Sql (Option TariffPlan) := do
  let row ← Prog.returning (.updatePlan id patch) fun s => s.plan? id
  toDomain TariffPlan.fromState row

def save (plan : TariffPlan) : Sql TariffPlan := do
  let _ ← Prog.update (.savePlan plan)
  pure plan

def existsOverlap (type : TariffType) (appliesTo : TariffAppliesTo) (groupId : Option Nat)
    (proposed : Window Int) (excludeId : Option Nat) : Sql Bool :=
  if appliesTo = .individual then .ret false
  else Prog.query fun s => s.plans.any fun p =>
    p.collides type appliesTo groupId && proposed.overlaps p.window && some p.id != excludeId

def acquireOverlapAdvisoryLock (type : TariffType) (appliesTo : TariffAppliesTo)
    (groupId : Option Nat) : Sql Unit := Prog.acquire (.overlap type appliesTo groupId)

end TariffPlanRepository

/-- `CreateTariffPlanInput`; the dates are instants. -/
structure CreateTariffPlanInput where
  name : String
  description : List (String × String)
  tariffType : TariffType
  amount : Decimal
  appliesTo : TariffAppliesTo
  groupId : Option Nat
  ageMinMonths : Option Nat
  ageMaxMonths : Option Nat
  validFrom : Int
  validUntil : Option Int
  discountRules : DiscountRules

namespace TariffPlanService

/-- The new aggregate, its dates still instants. -/
def newState (id : Nat) (input : CreateTariffPlanInput) : TariffPlan where
  id := id
  name := input.name
  description := input.description
  tariffType := input.tariffType
  amount := MoneyKzt.fromKzt input.amount
  appliesTo := input.appliesTo
  groupId := input.groupId
  ageMinMonths := input.ageMinMonths
  ageMaxMonths := input.ageMaxMonths
  isActive := true
  validFrom := input.validFrom
  validUntil := input.validUntil
  discountRules := input.discountRules

/-- `toIsoDate` of both dates, as the row is written. -/
def toRow (state : TariffPlan) : TariffPlan :=
  { state with validFrom := utcDay state.validFrom, validUntil := state.validUntil.map utcDay }

def create (input : CreateTariffPlanInput) : Sql TariffPlan := do
  TariffPlanRepository.acquireOverlapAdvisoryLock input.tariffType input.appliesTo input.groupId
  let overlaps ← TariffPlanRepository.existsOverlap input.tariffType input.appliesTo input.groupId
    ⟨utcDay input.validFrom, input.validUntil.map utcDay⟩ none
  Prog.guardOr (!overlaps) (.tariffPlanOverlap input.tariffType input.appliesTo input.groupId)
  let id ← Prog.uuid
  let plan ← orThrow (newState id input).fromState
  TariffPlanRepository.create (toRow plan)

/-- The window after the patch. -/
def newWindow (existing : TariffPlan) (patch : UpdateTariffPlanPatch) : Window Int :=
  ⟨(patch.validFrom.map utcDay).getD existing.validFrom,
    (patch.validUntil.map fun u => u.map utcDay).getD existing.validUntil⟩

def update (id : Nat) (patch : UpdateTariffPlanPatch) : Sql TariffPlan := do
  let needsOverlapCheck := patch.validFrom.isSome || patch.validUntil.isSome
  if needsOverlapCheck then do
    let found ← TariffPlanRepository.findById id
    let existing ← Prog.require found (.tariffPlanNotFound id)
    TariffPlanRepository.acquireOverlapAdvisoryLock existing.tariffType existing.appliesTo existing.groupId
    let overlaps ← TariffPlanRepository.existsOverlap existing.tariffType existing.appliesTo
      existing.groupId (newWindow existing patch) (some id)
    Prog.guardOr (!overlaps)
      (.tariffPlanOverlap existing.tariffType existing.appliesTo existing.groupId)
    let updated ← TariffPlanRepository.update id patch
    Prog.require updated (.tariffPlanNotFound id)
  else do
    let updated ← TariffPlanRepository.update id patch
    Prog.require updated (.tariffPlanNotFound id)

def deactivate (now : Int) (id : Nat) : Sql TariffPlan := do
  let found ← TariffPlanRepository.findById id
  let plan ← Prog.require found (.tariffPlanNotFound id)
  TariffPlanRepository.save (plan.deactivate now)

end TariffPlanService

/-! ## Assignments -/

namespace TariffAssignmentRepository

def findById (id : Nat) : Sql (Option TariffAssignment) := do
  let row ← Prog.query fun s => s.assignment? id
  toDomain TariffAssignment.fromState row

/-- The saved row is hydrated once it is inserted. -/
def create (a : TariffAssignment) : Sql TariffAssignment := do
  Prog.insertOr (.insertAssignment a) (.internal "tariff_assignments")
  orThrow a.fromState

def update (id : Nat) (patch : UpdateTariffAssignmentPatch) : Sql (Option TariffAssignment) := do
  let row ← Prog.returning (.updateAssignment id patch) fun s => s.assignment? id
  toDomain TariffAssignment.fromState row

def save (a : TariffAssignment) : Sql TariffAssignment := do
  let _ ← Prog.update (.saveAssignment a)
  pure a

def existsOverlap (childId : Nat) (proposed : Window Int) (excludeId : Option Nat) : Sql Bool :=
  Prog.query fun s => s.assignments.any fun a =>
    a.childId == childId && proposed.overlaps a.window && some a.id != excludeId

def acquireAssignChildAdvisoryLock (childId : Nat) : Sql Unit := Prog.acquire (.assignChild childId)

/-- The bulk UPDATE: the rows its snapshot finds, one after the other, each checked again. -/
def clampAll (childId : Nat) (validUntil : Int) : List TariffAssignment → Sql Nat
  | [] => .ret 0
  | a :: rows => do
      let matched ← Prog.update (.clampAssignment a.id childId validUntil)
      let closedCount ← clampAll childId validUntil rows
      pure (if matched then closedCount + 1 else closedCount)

/-- `validUntil` is an instant. -/
def closeActiveForChild (childId : Nat) (validUntil : Int) : Sql Nat := do
  let rows ← Prog.query fun s => s.assignments.filter (TariffAssignment.openAfter childId (utcDay validUntil))
  clampAll childId (utcDay validUntil) rows

end TariffAssignmentRepository

/-- `AssignTariffInput`; the dates are instants. -/
structure AssignTariffInput where
  childId : Nat
  tariffPlanId : Nat
  customAmount : Option Decimal
  customReason : Option String
  validFrom : Int
  validUntil : Option Int

namespace TariffAssignmentService

/-- The row of a new assignment. -/
def newRow (id : Nat) (input : AssignTariffInput) : TariffAssignment where
  id := id
  childId := input.childId
  tariffPlanId := input.tariffPlanId
  customAmount := input.customAmount.map MoneyKzt.fromKzt
  customReason := input.customReason
  validFrom := utcDay input.validFrom
  validUntil := input.validUntil.map utcDay

def assign (input : AssignTariffInput) : Sql TariffAssignment := do
  let found ← TariffPlanRepository.findById input.tariffPlanId
  let _ ← Prog.require found (.tariffPlanNotFound input.tariffPlanId)
  TariffAssignmentRepository.acquireAssignChildAdvisoryLock input.childId
  let overlap ← TariffAssignmentRepository.existsOverlap input.childId
    ⟨utcDay input.validFrom, input.validUntil.map utcDay⟩ none
  Prog.guardOr (!overlap) (.tariffAssignmentOverlap input.childId)
  let id ← Prog.uuid
  TariffAssignmentRepository.create (newRow id input)

/-- A new plan must be one of this kindergarten. -/
def checkPlan (existing : TariffAssignment) (patch : UpdateTariffAssignmentPatch) : Sql Unit :=
  match patch.tariffPlanId with
  | none => pure ()
  | some planId =>
      if planId = existing.tariffPlanId then pure ()
      else do
        let plan ← TariffPlanRepository.findById planId
        Prog.guardOr plan.isSome (.tariffPlanNotFound planId)

/-- The window after the patch. -/
def newWindow (existing : TariffAssignment) (patch : UpdateTariffAssignmentPatch) : Window Int :=
  ⟨(patch.validFrom.map utcDay).getD existing.validFrom,
    (patch.validUntil.map fun u => u.map utcDay).getD existing.validUntil⟩

/-- A patch of the window is checked under the lock of the child. -/
def checkWindow (id : Nat) (existing : TariffAssignment) (patch : UpdateTariffAssignmentPatch) : Sql Unit :=
  if patch.validFrom.isSome || patch.validUntil.isSome then do
    TariffAssignmentRepository.acquireAssignChildAdvisoryLock existing.childId
    let overlap ← TariffAssignmentRepository.existsOverlap existing.childId (newWindow existing patch)
      (some id)
    Prog.guardOr (!overlap) (.tariffAssignmentOverlap existing.childId)
  else
    pure ()

def update (id : Nat) (patch : UpdateTariffAssignmentPatch) : Sql TariffAssignment := do
  let found ← TariffAssignmentRepository.findById id
  let existing ← Prog.require found (.tariffAssignmentNotFound id)
  checkPlan existing patch
  checkWindow id existing patch
  let updated ← TariffAssignmentRepository.update id patch
  Prog.require updated (.tariffAssignmentNotFound id)

def close (now : Int) (id : Nat) : Sql TariffAssignment := do
  let found ← TariffAssignmentRepository.findById id
  let existing ← Prog.require found (.tariffAssignmentNotFound id)
  TariffAssignmentRepository.save (existing.close now)

end TariffAssignmentService

/-! ## Requests -/

inductive Op
  | createPlan (input : CreateTariffPlanInput)
  | updatePlan (id : Nat) (dto : UpdateTariffPlanDto)
  | deactivatePlan (now : Int) (id : Nat)
  | assign (input : AssignTariffInput)
  | updateAssignment (id : Nat) (dto : UpdateTariffAssignmentDto)
  | closeAssignment (now : Int) (id : Nat)
  | closeActiveForChild (childId : Nat) (validUntil : Int)

inductive Answer
  | plan (p : TariffPlan)
  | assignment (a : TariffAssignment)
  | closed (closedCount : Nat)

def Op.prog : Op → Sql Answer
  | createPlan input => do
      let r ← TariffPlanService.create input
      pure (.plan r)
  | updatePlan id dto => do
      let r ← TariffPlanService.update id dto.patch
      pure (.plan r)
  | deactivatePlan now id => do
      let r ← TariffPlanService.deactivate now id
      pure (.plan r)
  | assign input => do
      let r ← TariffAssignmentService.assign input
      pure (.assignment r)
  | updateAssignment id dto => do
      let r ← TariffAssignmentService.update id dto.patch
      pure (.assignment r)
  | closeAssignment now id => do
      let r ← TariffAssignmentService.close now id
      pure (.assignment r)
  | closeActiveForChild childId validUntil => do
      let r ← TariffAssignmentRepository.closeActiveForChild childId validUntil
      pure (.closed r)

/-- Up to `n` tariff transactions at once. -/
abbrev System (n : Nat) := Transactions.System Store Key Write TariffError Op Answer n

abbrev Schedule (n : Nat) := List (Choice Op n)

abbrev TariffCommit := Commit Store Key Write Op Answer

/-- The state after a schedule, from a committed store. -/
def run {n : Nat} (s : Store) (cs : Schedule n) : Option (System n) :=
  (System.init s).exec Op.prog cs

end Tariffs
