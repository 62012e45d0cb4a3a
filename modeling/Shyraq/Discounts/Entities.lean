import Shyraq.Billing.Entities
import Shyraq.Discounts.Conditions
import Shyraq.Kernel.MoneyKzt
import Shyraq.Transactions.Program
import Shyraq.Transactions.Table

/-!
# Custom discounts

The catalogue of one kindergarten, with the raw JSON of its conditions, and the outbox of its notifications.  The
columns `created_at` and `updated_at` are left out.
-/

namespace Discounts

open Kernel Transactions
open Billing (CustomDiscountStatus CustomDiscountType)
open Diagnostics (Json)

abbrev LocalisedText := List (String × String)

/-- A row, and the state of the aggregate that is read from it. -/
structure CustomDiscount where
  id : Nat
  name : LocalisedText
  description : Option LocalisedText
  discountType : CustomDiscountType
  amount : Int
  conditions : Json
  targetType : String
  targetIds : Option (List Nat)
  validFrom : Int
  validUntil : Option Int
  maxUsesPerChild : Option Int
  totalMaxUses : Option Int
  usedCount : Int
  priority : Int
  stackable : Bool
  notifyOnActivation : Bool
  notificationTitle : Option LocalisedText
  notificationBody : Option LocalisedText
  status : CustomDiscountStatus
  createdBy : Option Nat

instance : Row CustomDiscount := ⟨CustomDiscount.id⟩

structure CreateCustomDiscountInput where
  name : LocalisedText
  description : Option LocalisedText
  discountType : CustomDiscountType
  /-- As it came, in tenge. -/
  amount : Decimal
  conditions : Json
  targetType : String
  targetIds : Option (List Nat)
  validFrom : Int
  validUntil : Option Int
  maxUsesPerChild : Option Int
  totalMaxUses : Option Int
  priority : Option Int
  stackable : Option Bool
  notifyOnActivation : Option Bool
  notificationTitle : Option LocalisedText
  notificationBody : Option LocalisedText

/-- `none` leaves the column alone. -/
structure UpdateCustomDiscountPatch where
  name : Option LocalisedText
  description : Option (Option LocalisedText)
  discountType : Option CustomDiscountType
  amount : Option Decimal
  conditions : Option Json
  targetType : Option String
  targetIds : Option (Option (List Nat))
  validFrom : Option Int
  validUntil : Option (Option Int)
  maxUsesPerChild : Option (Option Int)
  totalMaxUses : Option (Option Int)
  priority : Option Int
  stackable : Option Bool
  notifyOnActivation : Option Bool
  notificationTitle : Option (Option LocalisedText)
  notificationBody : Option (Option LocalisedText)

inductive TargetInvalidReason
  | targetIdsRequired | targetIdsMustBeEmpty | unknownTargetType
  deriving DecidableEq

inductive DiscountError
  | amountInvalid (amount : Int)
  | validityInvalid (validFrom validUntil : Int)
  | invariantViolation (code : String)
  | targetInvalid (targetType : String) (reason : TargetInvalidReason)
  | conditionsInvalid (e : ConditionsInvalid)
  | notFound (id : Nat)
  | statusInvalid (currentStatus : CustomDiscountStatus) (attemptedTransition : String)
  /-- What the driver throws. -/
  | checkViolated
  | targetsUnresolved
  | internal (message : String)

def check (c : Bool) (e : DiscountError) : Except DiscountError Unit := if c then .ok () else .error e

def knownTargetTypes : List String := ["all", "groups", "children", "tariff_types", "age_range"]

/-- The target shape rules. -/
def checkTarget (targetType : String) (targetIds : Option (List Nat)) : Except DiscountError Unit :=
  if targetType = "all" then
    check ((targetIds.getD []).isEmpty) (.targetInvalid targetType .targetIdsMustBeEmpty)
  else if targetType ∈ ["groups", "children", "tariff_types"] then
    check (!(targetIds.getD []).isEmpty) (.targetInvalid targetType .targetIdsRequired)
  else .ok ()

def isNull : Json → Bool
  | .null => true
  | _ => false

/-- `??` -/
def orElse (v other : Json) : Json := if isNull v then other else v

namespace CustomDiscount

/-- The constructor: the state with its conditions normalised. -/
def fromState (state : CustomDiscount) : Except DiscountError CustomDiscount := do
  check (0 < state.amount) (.amountInvalid state.amount)
  check (state.validUntil.all fun validUntil => decide (state.validFrom < validUntil))
    (.validityInvalid state.validFrom (state.validUntil.getD 0))
  check (0 ≤ state.usedCount) (.invariantViolation "custom_discount_used_count_invalid")
  check (0 ≤ state.priority) (.invariantViolation "custom_discount_priority_invalid")
  check (knownTargetTypes.contains state.targetType) (.targetInvalid state.targetType .unknownTargetType)
  checkTarget state.targetType state.targetIds
  let conditions ← (validateConditionsSchema state.conditions).mapError .conditionsInvalid
  pure { state with conditions := conditions }

/-- `CustomDiscountMapper.toDomain`: the conditions are validated before the constructor does it again. -/
def toDomain (row : CustomDiscount) : Except DiscountError CustomDiscount := do
  let conditions ← (validateConditionsSchema row.conditions).mapError .conditionsInvalid
  fromState { row with conditions := conditions }

/-- `chk_custom_discounts_…`, and `conditions` is not NULL. -/
def meetsChecks (row : CustomDiscount) : Bool :=
  decide (0 < row.amount) && row.validUntil.all (fun validUntil => decide (row.validFrom < validUntil)) &&
    decide (0 ≤ row.usedCount) && decide (0 ≤ row.priority) && !isNull row.conditions

/-- The columns that an UPDATE by patch sets. -/
def patched (row : CustomDiscount) (patch : UpdateCustomDiscountPatch) : CustomDiscount :=
  { row with
    name := patch.name.getD row.name
    description := patch.description.getD row.description
    discountType := patch.discountType.getD row.discountType
    amount := (patch.amount.map MoneyKzt.fromKzt).getD row.amount
    conditions := patch.conditions.getD row.conditions
    targetType := patch.targetType.getD row.targetType
    targetIds := patch.targetIds.getD row.targetIds
    validFrom := patch.validFrom.getD row.validFrom
    validUntil := patch.validUntil.getD row.validUntil
    maxUsesPerChild := patch.maxUsesPerChild.getD row.maxUsesPerChild
    totalMaxUses := patch.totalMaxUses.getD row.totalMaxUses
    priority := patch.priority.getD row.priority
    stackable := patch.stackable.getD row.stackable
    notifyOnActivation := patch.notifyOnActivation.getD row.notifyOnActivation
    notificationTitle := patch.notificationTitle.getD row.notificationTitle
    notificationBody := patch.notificationBody.getD row.notificationBody }

/-- The state that `update` validates before it writes. -/
def merged (state : CustomDiscount) (patch : UpdateCustomDiscountPatch) : CustomDiscount :=
  { state with
    name := patch.name.getD state.name
    description := patch.description.getD state.description
    discountType := patch.discountType.getD state.discountType
    amount := (patch.amount.map MoneyKzt.fromKzt).getD state.amount
    conditions := orElse (patch.conditions.getD .null) state.conditions
    targetType := patch.targetType.getD state.targetType
    targetIds := patch.targetIds.getD state.targetIds
    validFrom := patch.validFrom.getD state.validFrom
    validUntil := patch.validUntil.getD state.validUntil }

/-- The window has ended. -/
def overdue (row : CustomDiscount) (now : Int) : Bool := row.validUntil.any fun validUntil => decide (validUntil ≤ now)

end CustomDiscount

structure DiscountActivated where
  discountId : Nat
  discountName : LocalisedText
  targetChildIds : List Nat
  notificationTitle : LocalisedText
  notificationBody : LocalisedText

/-! ## The tables -/

structure Store where
  discounts : List CustomDiscount
  outbox : List DiscountActivated

inductive Key
  | row (id : Nat)
  /-- `discount:activation:{kg}:{id}`. -/
  | activation (id : Nat)
  deriving DecidableEq

inductive Write
  | insert (row : CustomDiscount)
  /-- `UPDATE … WHERE id AND status = $expected`. -/
  | update (id : Nat) (patch : UpdateCustomDiscountPatch) (expected : CustomDiscountStatus)
  /-- `UPDATE … SET status WHERE id AND status IN ($expected)`. -/
  | transition (id : Nat) (expected : List CustomDiscountStatus) (toStatus : CustomDiscountStatus)
  /-- One row of `markExpiredBatch`. -/
  | expire (id : Nat) (now : Int)
  | enqueue (event : DiscountActivated)

namespace Store

variable (s : Store)

def discount (id : Nat) : Option CustomDiscount := Table.find s.discounts id

/-- `WHERE` of `markExpiredBatch`. -/
def expires (now : Int) (row : CustomDiscount) : Bool :=
  [CustomDiscountStatus.active, .paused].contains row.status && row.overdue now

def keys : Write → List Key
  | .insert row => [.row row.id]
  | .update id .. | .transition id .. | .expire id _ => [.row id]
  | .enqueue _ => []

def hit : Write → Bool
  | .insert row => (s.discount row.id).isNone
  | .update id _ expected => (s.discount id).any fun row => row.status == expected
  | .transition id expected _ => (s.discount id).any fun row => expected.contains row.status
  | .expire id now => (s.discount id).any (expires now)
  | .enqueue _ => true

def apply : Write → Store
  | .insert row => { s with discounts := if (s.discount row.id).isNone then s.discounts ++ [row] else s.discounts }
  | .update id patch expected => { s with
      discounts := Table.updateWhere s.discounts id (fun row => row.status == expected) fun row => row.patched patch }
  | .transition id expected toStatus => { s with
      discounts := Table.updateWhere s.discounts id (fun row => expected.contains row.status)
        fun row => { row with status := toStatus } }
  | .expire id now => { s with
      discounts := Table.updateWhere s.discounts id (expires now) fun row => { row with status := .expired } }
  | .enqueue event => { s with outbox := s.outbox ++ [event] }

end Store

instance : Relational Store Key Write where
  keys := Store.keys
  hit := Store.hit
  apply := Store.apply
  rowKey := Key.row
  absent s i := (s.discount i).isNone

end Discounts
