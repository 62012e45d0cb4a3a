import Mathlib.Data.List.Sort
import Shyraq.Meals.Entities
import Shyraq.Transactions.Runs
import Shyraq.Transactions.Statements

/-!
# MealService

`copyWeekMenuToNext`, the one operation on a week of menus.
-/

namespace Meals

open Kernel Transactions

inductive MealError
  | internal (constraint : String)

abbrev Sql A := Prog Store Key Write MealError A

structure ListMealPlansFilter where
  dateFrom : Int
  dateTo : Int

structure CopyWeekSummary where
  plansCreated : Nat
  plansSkipped : Nat
  deriving DecidableEq

def ListMealPlansFilter.covers (filter : ListMealPlansFilter) (date : Int) : Bool :=
  decide (filter.dateFrom ≤ date ∧ date ≤ filter.dateTo)

namespace MealPlanRepository

def acquireWeekCopyLock (weekStart : Int) : Sql Unit := Prog.acquire (.weekCopy weekStart)

/-- The plans of a range of days, each with its items, `ORDER BY date, position`. -/
def rows (filter : ListMealPlansFilter) (s : Store) : List MealPlan :=
  ((s.plans.filter fun plan => filter.covers plan.date).insertionSort fun p q => p.date ≤ q.date).map fun plan =>
    ⟨plan, (s.itemsOf plan.id).insertionSort fun i j => i.position ≤ j.position⟩

def list (filter : ListMealPlansFilter) : Sql (List MealPlan) := Prog.query (rows filter)

def listOccupiedSlotsInRange (dateFrom dateTo : Int) : Sql (List Slot) :=
  Prog.query fun s => (s.plans.filter fun plan => decide (dateFrom ≤ plan.date ∧ plan.date ≤ dateTo)).map
    MealPlanEntity.slot

def insert (plan : MealPlan) : Sql Unit := do
  Prog.insertOr (.insertPlan plan.toMealPlanEntity) (.internal "meal_plans")
  if plan.items.isEmpty then pure () else Prog.insertOr (.insertItems plan.items) (.internal "meal_items")

/-- A violated constraint is counted as skipped, but the transaction that it leaves behind can only roll back. -/
def batchCreate (plans : List MealPlan) : Sql CopyWeekSummary := do
  Prog.forEach insert plans
  pure ⟨plans.length, 0⟩

end MealPlanRepository

namespace MealService

/-- `addDaysUtc` on a day. -/
def addDaysUtc (t : Int) (days : Int) : Int := t + days * msPerDay

/-- A source plan and the day that it is copied to. -/
structure Projected where
  src : MealPlan
  targetDate : Int

def project (src : MealPlan) : Projected := ⟨src, utcDay (addDaysUtc (midnight src.date) 7)⟩

def copyItem (newPlanId : Nat) (item : MealItem) : Sql MealItem := do
  let id ← Prog.uuid
  pure { item with id := id, mealPlanId := newPlanId }

def copyPlan (source : MealPlanSource) (p : Projected) : Sql MealPlan := do
  let newPlanId ← Prog.uuid
  let items ← Prog.collect (copyItem newPlanId) p.src.items
  pure {
    id := newPlanId
    date := p.targetDate
    groupId := p.src.groupId
    isPublished := p.src.isPublished
    notes := p.src.notes
    source := if source = .cron then .cron else .copied
    copiedFrom := some p.src.id
    createdBy := p.src.createdBy
    items := items }

/-- The rest of `copyWeekMenuToNext`, once there are plans to copy. -/
def copyFree (targetMonday targetSunday : Int) (source : MealPlanSource) (sourcePlans : List MealPlan) :
    Sql CopyWeekSummary := do
  let occupied ← MealPlanRepository.listOccupiedSlotsInRange targetMonday targetSunday
  let projected := sourcePlans.map project
  let copyable := projected.filter fun p => !occupied.contains (slotKey p.targetDate p.src.groupId)
  let plansSkipped := projected.length - copyable.length
  if copyable.isEmpty then pure ⟨0, plansSkipped⟩
  else do
    let newPlans ← Prog.collect (copyPlan source) copyable
    let result ← MealPlanRepository.batchCreate newPlans
    pure ⟨result.plansCreated, plansSkipped + result.plansSkipped⟩

def copyWeekMenuToNext (fromMonday : Int) (source : MealPlanSource) : Sql CopyWeekSummary := do
  let fromStart := utcDay fromMonday
  let fromEnd := utcDay (addDaysUtc fromMonday 6)
  let targetMonday := addDaysUtc fromMonday 7
  MealPlanRepository.acquireWeekCopyLock (utcDay targetMonday)
  let sourcePlans ← MealPlanRepository.list ⟨fromStart, fromEnd⟩
  if sourcePlans.isEmpty then pure ⟨0, 0⟩
  else copyFree (utcDay targetMonday) (utcDay (addDaysUtc targetMonday 6)) source sourcePlans

end MealService

/-! ## Requests -/

/-- `copyWeekMenuToNext`, by hand or by the weekly rollout. -/
structure Op where
  fromMonday : Int
  source : MealPlanSource
  deriving DecidableEq

def Op.prog (op : Op) : Sql CopyWeekSummary := MealService.copyWeekMenuToNext op.fromMonday op.source

abbrev System (n : Nat) := Transactions.System Store Key Write MealError Op CopyWeekSummary n
abbrev Schedule (n : Nat) := List (Choice Op n)
abbrev Commit := Transactions.Commit Store Key Write Op CopyWeekSummary

def run {n : Nat} (s : Store) (cs : Schedule n) : Option (System n) := (System.init s).exec Op.prog cs

end Meals
