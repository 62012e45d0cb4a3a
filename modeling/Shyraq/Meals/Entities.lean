import Shyraq.Kernel.Calendar
import Shyraq.Transactions.Program
import Shyraq.Transactions.Table

/-!
# Meal plans

The menus of one kindergarten.  A date is its UTC calendar day; the ISO text stands for nothing else.  The columns
`created_at` and `updated_at` are left out.
-/

namespace Meals

open Kernel Transactions

inductive MealType
  | breakfast | snackAm | lunch | snackPm | dinner
  deriving DecidableEq

structure MultiLangText where
  ru : String
  kk : Option String
  en : Option String
  deriving DecidableEq

/-- What is served, whichever plan it belongs to. -/
structure MealItemInput where
  mealType : MealType
  dishName : MultiLangText
  description : Option MultiLangText
  allergens : Option (List String)
  photoUrl : Option String
  calories : Option Int
  serveTime : Option String
  position : Int
  deriving DecidableEq

structure MealItem extends MealItemInput where
  id : Nat
  mealPlanId : Nat
  deriving DecidableEq

instance : Row MealItem := ⟨MealItem.id⟩

inductive MealPlanSource
  | manual | cron | copied
  deriving DecidableEq

/-- A row of `meal_plans`. -/
structure MealPlanEntity where
  id : Nat
  date : Int
  /-- `none` is the plan of the whole kindergarten. -/
  groupId : Option Nat
  isPublished : Bool
  notes : Option MultiLangText
  source : MealPlanSource
  copiedFrom : Option Nat
  createdBy : Option Nat
  deriving DecidableEq

instance : Row MealPlanEntity := ⟨MealPlanEntity.id⟩

/-- The pair that the two partial unique indexes are about. -/
abbrev Slot := Int × Option Nat

def slotKey (date : Int) (groupId : Option Nat) : Slot := (date, groupId)

def MealPlanEntity.slot (plan : MealPlanEntity) : Slot := slotKey plan.date plan.groupId

/-- The aggregate: a plan with its items. -/
structure MealPlan extends MealPlanEntity where
  items : List MealItem
  deriving DecidableEq

/-! ## The tables -/

structure Store where
  plans : List MealPlanEntity
  items : List MealItem
  deriving DecidableEq

inductive Key
  | row (id : Nat)
  /-- `idx_meal_plans_unique_group` and `idx_meal_plans_unique_kg`. -/
  | slot (slot : Slot)
  /-- `meal-copy:…:targetMonday`. -/
  | weekCopy (targetMonday : Int)
  deriving DecidableEq

inductive Write
  | insertPlan (plan : MealPlanEntity)
  /-- One INSERT of several rows. -/
  | insertItems (items : List MealItem)

namespace Store

variable (s : Store)

def plan (id : Nat) : Option MealPlanEntity := Table.find s.plans id
def item (id : Nat) : Option MealItem := Table.find s.items id

/-- In any order: the table has none. -/
def itemsOf (planId : Nat) : List MealItem := s.items.filter fun item => item.mealPlanId == planId

def occupies (slot : Slot) : Bool := s.plans.any fun plan => plan.slot == slot

def keys : Write → List Key
  | .insertPlan plan => [.row plan.id, .slot plan.slot]
  | .insertItems items => items.map fun item => .row item.id

/-- The keys that a new row must not find taken, and those that it points to. -/
def hit : Write → Bool
  | .insertPlan plan =>
      (s.plan plan.id).isNone && !s.occupies plan.slot && plan.copiedFrom.all fun from_ => (s.plan from_).isSome
  | .insertItems items =>
      (items.all fun item => (s.item item.id).isNone && (s.plan item.mealPlanId).isSome) &&
        decide (items.map MealItem.id).Nodup

/-- A statement that violates a constraint inserts nothing. -/
def apply (w : Write) : Store :=
  if s.hit w then
    match w with
    | .insertPlan plan => { s with plans := s.plans ++ [plan] }
    | .insertItems items => { s with items := s.items ++ items }
  else s

end Store

instance : Relational Store Key Write where
  keys := Store.keys
  hit := Store.hit
  apply := Store.apply
  rowKey := Key.row
  absent s i := (s.plan i).isNone && (s.item i).isNone

end Meals
