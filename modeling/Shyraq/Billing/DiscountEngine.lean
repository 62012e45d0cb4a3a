import Shyraq.Billing.Repositories

/-!
# The discount engine

`evaluateConditions` over the conditions AST, the targeting of custom discounts, and the
engine itself: basic rules, matching, priority and stacking, amounts.
-/

namespace Billing

open Kernel Transactions

/-! ## Conditions -/

/-- `EvalContext`, with the fields that billing fills. -/
structure EvalContext where
  invoiceType : InvoiceType
  periodStart : Int
  birthDate : Int
  ageInMonths : Int
  benefitCategory : Option BenefitCategory
  siblingsInKgCount : Nat
  isFirstInvoiceForChild : Bool
  method : Option PaymentMethodCode
  prepaymentMonths : Option Nat
  paidEarlyDays : Option Nat

def compare (op : ComparisonOp) (lhs rhs : Nat) : Bool :=
  match op with
  | .gte => decide (rhs ≤ lhs)
  | .eq => lhs == rhs

def maxDepth : Nat := 3

mutual

/-- `none` where the evaluator throws. -/
def evaluateConditions (ctx : EvalContext) (depth : Nat) : DiscountCondition → Option Bool
  | .always => if maxDepth < depth then none else some true
  | .allOf cs => if maxDepth < depth then none else evaluateEvery ctx (depth + 1) cs
  | .anyOf cs => if maxDepth < depth then none else evaluateSome ctx (depth + 1) cs
  | .prepaymentMonths op value =>
      if maxDepth < depth then none
      else some (ctx.prepaymentMonths.any fun m => compare op m value)
  | .siblingsCount op value =>
      if maxDepth < depth then none else some (compare op ctx.siblingsInKgCount value)
  | .ageRange fromMonths toMonths =>
      if maxDepth < depth then none
      else some (decide ((fromMonths : Int) ≤ ctx.ageInMonths) && decide (ctx.ageInMonths ≤ toMonths))
  | .benefitCategory cats =>
      if maxDepth < depth then none else some (ctx.benefitCategory.any cats.contains)
  | .paymentMethod methods =>
      if maxDepth < depth then none else some (ctx.method.any methods.contains)
  | .earlyPayment daysBeforeDue =>
      if maxDepth < depth then none
      else some (ctx.paidEarlyDays.any fun d => decide (daysBeforeDue ≤ d))
  | .birthdayMonth =>
      if maxDepth < depth then none else some (utcMonth ctx.birthDate == utcMonth ctx.periodStart)
  | .dateRange fromDay toDay =>
      if maxDepth < depth then none
      else some (decide (fromDay ≤ ctx.periodStart) && decide (ctx.periodStart ≤ toDay))
  | .firstInvoice => if maxDepth < depth then none else some ctx.isFirstInvoiceForChild
  | .tariffTypes types =>
      if maxDepth < depth then none else some (types.contains ctx.invoiceType)

/-- `Array.every`, left to right until the first `false`. -/
def evaluateEvery (ctx : EvalContext) (depth : Nat) : List DiscountCondition → Option Bool
  | [] => some true
  | c :: cs =>
      match evaluateConditions ctx depth c with
      | some true => evaluateEvery ctx depth cs
      | r => r

/-- `Array.some`, left to right until the first `true`. -/
def evaluateSome (ctx : EvalContext) (depth : Nat) : List DiscountCondition → Option Bool
  | [] => some false
  | c :: cs =>
      match evaluateConditions ctx depth c with
      | some false => evaluateSome ctx depth cs
      | r => r

end

/-! ## Targeting -/

namespace DiscountTargetResolver

mutual

/-- The bounds of the first `age_range` leaf. -/
def walkForAgeRange (depth : Nat) : DiscountCondition → Option (Nat × Nat)
  | .allOf cs | .anyOf cs => if maxDepth < depth then none else walkList (depth + 1) cs
  | .ageRange fromMonths toMonths =>
      if maxDepth < depth then none else some (fromMonths, toMonths)
  | _ => none

def walkList (depth : Nat) : List DiscountCondition → Option (Nat × Nat)
  | [] => none
  | c :: cs =>
      match walkForAgeRange depth c with
      | some r => some r
      | none => walkList depth cs

end

def activeIds (s : Store) (p : Child → Bool) : List Nat :=
  (s.reference.children.filter fun c => c.status != .archived && p c).map Child.id

/-- `resolveByTargetType`. -/
def resolveByTargetType (now : Int) (snap : CustomDiscount) (s : Store) : List Nat :=
  match snap.targetType with
  | .all => activeIds s fun _ => true
  | .groups => activeIds s fun c => c.currentGroupId.any (snap.targetIds.getD []).contains
  | .children => activeIds s fun c => (snap.targetIds.getD []).contains c.id
  | .tariffTypes =>
      ((s.reference.tariffAssignments.filter fun a =>
        (snap.targetIds.getD []).contains a.tariffPlanId && a.activeAt (utcDay now)).map
          TariffAssignment.childId).dedup
  | .ageRange =>
      match walkForAgeRange 0 snap.conditions with
      | none => []
      | some (fromMonths, toMonths) => activeIds s fun c =>
          let age := wholeMonths c.dateOfBirth (utcDay now)
          decide ((fromMonths : Int) ≤ age) && decide (age ≤ toMonths)

/-- One SELECT for each snapshot. -/
def filterDiscountsForChild (now : Int) (childId : Nat) : List CustomDiscount → Sql (List CustomDiscount)
  | [] => pure []
  | snap :: rest => do
      let targets ← Prog.query (resolveByTargetType now snap)
      let out ← filterDiscountsForChild now childId rest
      pure (if targets.contains childId then snap :: out else out)

end DiscountTargetResolver

/-! ## Evaluation -/

namespace DiscountEngine

/-- `familyContext` and `childContext`, when the child exists. -/
structure ChildContext where
  birthDate : Int
  ageInMonths : Int
  siblingsInKgCount : Nat
  isFirstInvoiceForChild : Bool

structure Input where
  invoiceType : InvoiceType
  amountDue : Decimal
  periodStart : Int
  discountRules : DiscountRules
  prepaymentMonths : Option PrepaymentMonths
  customDiscounts : List CustomDiscount
  siblingsInKgCount : Nat
  child : Option ChildContext

inductive AppliedRule
  | sibling
  | prepay (months : PrepaymentMonths)
  | custom (id : Nat)
  deriving DecidableEq

structure CustomApplication where
  customDiscountId : Nat
  amountApplied : Int
  reason : String
  deriving DecidableEq

structure Result where
  discountPct : Option Decimal
  discountReason : Option String
  appliedRules : List AppliedRule
  customApplicationsToWrite : List CustomApplication
  customDiscountAmount : Option Int
  deriving DecidableEq

def prepayPct (rules : DiscountRules) : PrepaymentMonths → Option Decimal
  | .m3 => rules.prepay3mPct
  | .m6 => rules.prepay6mPct
  | .m12 => rules.prepay12mPct
  | .m24 => rules.prepay24mPct

def prepayReason : PrepaymentMonths → String
  | .m3 => "prepay_3m"
  | .m6 => "prepay_6m"
  | .m12 => "prepay_12m"
  | .m24 => "prepay_24m"

/-- The sibling and the prepay rule, with what each takes off. -/
def basicRules (input : Input) : List (Decimal × String × AppliedRule) :=
  (match input.discountRules.siblingDiscountPct with
    | some pct =>
        if 1 < input.siblingsInKgCount ∧ 0 < pct then [(pct, "sibling_discount", .sibling)] else []
    | none => []) ++
  (match input.prepaymentMonths with
    | some months =>
        match prepayPct input.discountRules months with
        | some pct => if 0 < pct then [(pct, prepayReason months, .prepay months)] else []
        | none => []
    | none => [])

/-- The snapshots whose conditions hold; without a child context there are none. -/
def matchCustomDiscounts (input : Input) : List CustomDiscount :=
  match input.child with
  | none => []
  | some child =>
      let ctx : EvalContext :=
        { invoiceType := input.invoiceType
          periodStart := input.periodStart
          birthDate := child.birthDate
          ageInMonths := child.ageInMonths
          benefitCategory := none
          siblingsInKgCount := child.siblingsInKgCount
          isFirstInvoiceForChild := child.isFirstInvoiceForChild
          method := none
          prepaymentMonths := input.prepaymentMonths.map PrepaymentMonths.count
          paidEarlyDays := none }
      input.customDiscounts.filter fun snap => evaluateConditions ctx 0 snap.conditions == some true

/-- `priority DESC, createdAt ASC`. -/
def precedes (a b : CustomDiscount) : Bool :=
  if a.priority ≠ b.priority then decide (b.priority ≤ a.priority)
  else decide (a.createdAt ≤ b.createdAt)

/-- A non-stackable on top wins alone; otherwise the stackable prefix. -/
def winners (sorted : List CustomDiscount) : List CustomDiscount :=
  match sorted with
  | [] => []
  | top :: _ => if top.stackable then sorted.takeWhile CustomDiscount.stackable else [top]

/-- What each winner takes off what is left. -/
def applyAmounts (amountDue : Decimal) (alreadyStacked : Decimal) :
    List CustomDiscount → List (CustomDiscount × Decimal)
  | [] => []
  | snap :: rest =>
      let remaining := amountDue - alreadyStacked
      if remaining ≤ 0 then []
      else
        let wanted := match snap.discountType with
          | .percentage => amountDue * MoneyKzt.toDecimal snap.amount / 100
          | .fixedAmount => MoneyKzt.toDecimal snap.amount
        let amountApplied := min wanted remaining
        if amountApplied ≤ 0 then applyAmounts amountDue alreadyStacked rest
        else (snap, amountApplied) :: applyAmounts amountDue (alreadyStacked + amountApplied) rest

def applyStackingAndAmounts (amountDue : Decimal) (ms : List CustomDiscount) :
    List (CustomDiscount × Decimal) :=
  applyAmounts amountDue 0 (winners (orderBy precedes ms))

/-- `evaluate`. -/
def evaluate (input : Input) : Result :=
  let basic := basicRules input
  let custom := applyStackingAndAmounts input.amountDue (matchCustomDiscounts input)
  if basic.isEmpty && custom.isEmpty then
    { discountPct := none
      discountReason := none
      appliedRules := []
      customApplicationsToWrite := []
      customDiscountAmount := none }
  else
    let basicPct := min 100 ((basic.map fun b => b.1).sum)
    let customKzt := (custom.map fun c => c.2).sum
    let customPct :=
      if 0 < input.amountDue then
        MoneyKzt.toDecimal (MoneyKzt.round
          (customKzt * 100 / MoneyKzt.toDecimal (MoneyKzt.round input.amountDue)))
      else 0
    let totalPct := min 100 (basicPct + customPct)
    { discountPct := if 0 < totalPct then some totalPct else none
      discountReason := some (String.intercalate ","
        (basic.map (fun b => b.2.1) ++ custom.map fun c => c.1.name))
      appliedRules := basic.map (fun b => b.2.2) ++ custom.map fun c => .custom c.1.id
      customApplicationsToWrite := custom.map fun c =>
        { customDiscountId := c.1.id, amountApplied := MoneyKzt.round c.2, reason := c.1.name }
      customDiscountAmount := if 0 < customKzt then some (MoneyKzt.round customKzt) else none }

end DiscountEngine

/-- `Invoice.computeAmountAfterDiscount`: the absolute amount wins over the percentage. -/
def computeAmountAfterDiscount (amountDue : Decimal) (discountPct : Option Decimal)
    (absoluteDiscount : Option Int) : Decimal :=
  match absoluteDiscount with
  | some a =>
      if 0 < a ∧ 0 < amountDue then max (amountDue - MoneyKzt.toDecimal a) 0
      else amountDue * (100 - discountPct.getD 0) / 100
  | none => amountDue * (100 - discountPct.getD 0) / 100

end Billing
