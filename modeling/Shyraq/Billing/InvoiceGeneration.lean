import Shyraq.Billing.Settlement
import Shyraq.Billing.DiscountEngine

/-!
# InvoiceService: the creation of invoices

One-off invoices, late-pickup fees, the monthly run, the first invoice of a new child and
prepayments, with the custom-discount slots that creation reserves.
-/

namespace Billing

open Kernel Transactions

/-! ## Reference reads -/

namespace TariffAssignmentRepository

/-- `ORDER BY child_id ASC, valid_from DESC`. -/
def listed (a b : TariffAssignment) : Bool :=
  decide (a.childId < b.childId) || (a.childId == b.childId && decide (b.validFrom ≤ a.validFrom))

def findAllActiveAtDate (d : Int) : Sql (List TariffAssignment) :=
  Prog.query fun s => orderBy listed (s.reference.tariffAssignments.filter fun a => a.activeAt d)

def findActiveForChild (childId : Nat) (d : Int) : Sql (Option TariffAssignment) :=
  Prog.query fun s => (orderBy listed (s.reference.tariffAssignments.filter fun a =>
    a.childId == childId && a.activeAt d)).head?

end TariffAssignmentRepository

namespace TariffPlanRepository

def findById (id : Nat) : Sql (Option TariffPlan) :=
  Prog.query fun s => Table.find s.reference.tariffPlans id

/-- The latest active plan of a type. -/
def findActiveByType (type : InvoiceType) (d : Int) : Sql (Option TariffPlan) :=
  Prog.query fun s => (orderBy (fun a b => decide (b.validFrom ≤ a.validFrom))
    (s.reference.tariffPlans.filter fun p =>
      p.tariffType == type && p.isActive && decide (p.validFrom ≤ d) &&
      p.validUntil.all fun u => decide (d ≤ u))).head?

end TariffPlanRepository

/-- `countNonBillableInRange`. -/
def countNonBillableInRange (start stop : Int) : Sql Int :=
  Prog.query fun s => ((s.reference.holidays.filter fun h =>
    !h.isBillable && decide (start ≤ h.date) && decide (h.date ≤ stop)).length : Int)

/-- Other children that are not archived and share an approved guardian. -/
def Store.siblingsInKg (s : Store) (childId : Nat) : Nat :=
  let approved := s.reference.childGuardians.filter fun g => g.approved && !g.revoked
  let users := (approved.filter fun g => g.childId == childId).map ChildGuardian.userId
  (((approved.filter fun g => users.contains g.userId && g.childId != childId).map
    ChildGuardian.childId).filter fun c =>
      (s.child? c).any fun child => child.status != .archived).dedup.length

/-- The ledger rows of a child and a discount, less those of void invoices; an orphan row
counts. -/
def Store.usesByChild (s : Store) (childId discountId : Nat) : Nat :=
  (s.applications.filter fun a => a.childId == childId && a.customDiscountId == discountId &&
    (s.invoice? a.invoiceId).all fun i => i.status.live).length

namespace InvoiceService

/-! ## Custom-discount inputs -/

/-- The per-child cap: a reserving caller serialises on it first. -/
def belowChildCap (reserve : Bool) (childId : Nat) (snap : CustomDiscount) : Sql Bool := do
  match snap.maxUsesPerChild with
  | none => pure true
  | some cap => do
      if reserve then Prog.acquire (.discountApply childId snap.id) else pure ()
      let used ← Prog.query fun s => s.usesByChild childId snap.id
      pure (decide (used < cap))

/-- The total cap: a slot is taken, or in a preview only looked at.  Answers whether the
snapshot goes on and whether it holds a slot. -/
def takeSlot (reserve : Bool) (snap : CustomDiscount) : Sql (Bool × Bool) := do
  match snap.totalMaxUses with
  | none => pure (true, false)
  | some cap =>
      if reserve then do
        let reserved ← Prog.update (.tryReserveUsage snap.id)
        pure (reserved, reserved)
      else
        pure (decide (snap.usedCount < cap), false)

/-- The loop of `buildCustomDiscountInputs`: the eligible snapshots, and the ids that
hold a slot. -/
def admitSnapshots (reserve : Bool) (childId : Nat) :
    List CustomDiscount → Sql (List CustomDiscount × List Nat)
  | [] => pure ([], [])
  | snap :: rest => do
      let below ← belowChildCap reserve childId snap
      if below then do
        let slot ← takeSlot reserve snap
        let others ← admitSnapshots reserve childId rest
        pure (if slot.1 then snap :: others.1 else others.1,
          if slot.2 then snap.id :: others.2 else others.2)
      else
        admitSnapshots reserve childId rest

structure CustomDiscountInputs where
  customDiscounts : List CustomDiscount
  child : Option DiscountEngine.ChildContext
  siblingsInKgCount : Nat
  reservedDiscountIds : List Nat

def buildCustomDiscountInputs (now : Int) (childId : Nat) (reserve : Bool) :
    Sql CustomDiscountInputs := do
  let active ← Prog.query fun s => orderBy DiscountEngine.precedes
    (s.customDiscounts.filter fun d => d.status == .active && decide (d.validFrom ≤ now) &&
      d.validUntil.all fun u => decide (now < u))
  let targeted ← DiscountTargetResolver.filterDiscountsForChild now childId active
  let admitted ← admitSnapshots reserve childId targeted
  let child ← Prog.query fun s => s.child? childId
  match child with
  | none => pure ⟨admitted.1, none, 0, admitted.2⟩
  | some child => do
      let priors ← InvoiceRepository.findByChildId childId
      let siblings ← Prog.query fun s => s.siblingsInKg childId
      pure
        { customDiscounts := admitted.1
          child := some
            { birthDate := child.dateOfBirth
              ageInMonths := max 0 (wholeMonths child.dateOfBirth (utcDay now))
              siblingsInKgCount := siblings
              isFirstInvoiceForChild := priors.all fun p => p.status == .cancelled }
          siblingsInKgCount := siblings
          reservedDiscountIds := admitted.2 }

/-- The slots of snapshots that the engine dropped. -/
def releaseUnusedReservations (reservedDiscountIds : List Nat) (discount : DiscountEngine.Result) :
    Sql Unit :=
  Prog.forEach (fun id => do
    if discount.customApplicationsToWrite.any fun a => a.customDiscountId == id then
      pure ()
    else do
      let _ ← Prog.update (.releaseUsage id)) reservedDiscountIds

/-- One ledger row for each custom discount applied. -/
def persistCustomDiscountApplications (now : Int) (invoice : Invoice) (lineItemId : Nat)
    (result : DiscountEngine.Result) : Sql Unit :=
  Prog.forEach (fun (app : DiscountEngine.CustomApplication) => do
    let id ← Prog.uuid
    insertOr (.insertApplication
      { id := id
        customDiscountId := app.customDiscountId
        invoiceId := invoice.id
        invoiceLineItemId := some lineItemId
        childId := invoice.childId
        amountApplied := app.amountApplied
        appliedAt := now }) (.internal "custom_discount_applications"))
    result.customApplicationsToWrite

def emitInvoiceCreated (i : Invoice) : Sql Unit :=
  notify (.invoiceCreated i.id i.childId i.invoiceType i.amountAfterDiscount i.dueDate
    i.periodStart i.periodEnd)

/-! ## One-off invoices -/

structure LineItemInput where
  quantity : Decimal
  unitPrice : Decimal
  tariffPlanId : Option Nat

structure CreateOneOffInvoiceInput where
  childId : Nat
  invoiceType : InvoiceType
  amountDue : Decimal
  dueDate : Int
  periodStart : Int
  periodEnd : Int
  lineItems : List LineItemInput
  discountPct : Option Decimal
  discountReason : Option String
  tariffPlanId : Option Nat

def newLineItem (id invoiceId : Nat) (tariffPlanId : Option Nat) (quantity : Decimal)
    (unitPrice createdAt : Int) : InvoiceLineItem where
  id := id
  invoiceId := invoiceId
  tariffPlanId := tariffPlanId
  quantity := quantity
  unitPrice := unitPrice
  lineTotal := MoneyKzt.round (MoneyKzt.toDecimal unitPrice * quantity)
  createdAt := createdAt

def newLineItems (now : Int) (invoiceId : Nat) : List LineItemInput → Sql (List InvoiceLineItem)
  | [] => pure []
  | li :: rest => do
      let id ← Prog.uuid
      let others ← newLineItems now invoiceId rest
      pure (newLineItem id invoiceId li.tariffPlanId li.quantity (MoneyKzt.fromKzt li.unitPrice) now
        :: others)

def createOneOff (now : Int) (input : CreateOneOffInvoiceInput) : Sql Invoice := do
  let account ← PaymentAccountService.ensureForChild input.childId
  let amountDue := MoneyKzt.fromKzt input.amountDue
  let amountAfter := MoneyKzt.roundToWholeKzt
    (computeAmountAfterDiscount (MoneyKzt.toDecimal amountDue) input.discountPct none)
  let id ← Prog.uuid
  let lineItems ← newLineItems now id input.lineItems
  let persisted ← InvoiceRepository.create
    { id := id
      childId := input.childId
      paymentAccountId := account.id
      tariffPlanId := input.tariffPlanId
      invoiceType := input.invoiceType
      periodStart := input.periodStart
      periodEnd := input.periodEnd
      amountDue := amountDue
      discountPct := input.discountPct
      discountReason := input.discountReason
      amountAfterDiscount := amountAfter
      status := .pending
      dueDate := input.dueDate
      proratedForDays := none
      createdAt := now } lineItems
  emitInvoiceCreated persisted
  pure persisted

/-- `LATE_PICKUP_DUE_DAYS`. -/
def latePickupDueDays : Int := 7

structure GenerateLatePickupInvoiceInput where
  childId : Nat
  date : Int
  lateFeeAmountKzt : Option Decimal

def generateLatePickupInvoice (now : Int) (input : GenerateLatePickupInvoiceInput) : Sql Invoice := do
  let tariffPlan ← TariffPlanRepository.findActiveByType .latePickupFee input.date
  let fee ← require
    ((tariffPlan.map fun p => (p.amount, some p.id)).orElse fun _ =>
      input.lateFeeAmountKzt.map fun a => (MoneyKzt.fromKzt a, none))
    (.tariffPlanOfTypeNotFound .latePickupFee)
  let account ← PaymentAccountService.ensureForChild input.childId
  let id ← Prog.uuid
  let lineId ← Prog.uuid
  let persisted ← InvoiceRepository.create
    { id := id
      childId := input.childId
      paymentAccountId := account.id
      tariffPlanId := fee.2
      invoiceType := .latePickupFee
      periodStart := input.date
      periodEnd := input.date
      amountDue := fee.1
      discountPct := none
      discountReason := none
      amountAfterDiscount := fee.1
      status := .pending
      dueDate := input.date + latePickupDueDays
      proratedForDays := none
      createdAt := now } [newLineItem lineId id fee.2 1 fee.1 now]
  emitInvoiceCreated persisted
  pure persisted

/-! ## Monthly and first invoices -/

structure GenerateArgs where
  assignment : TariffAssignment
  tariffPlan : TariffPlan
  periodStart : Int
  periodEnd : Int
  dueDate : Int
  totalDays : Int
  nonBillableHolidays : Int
  proratedBillableDays : Option Int

/-- `DEFAULT_DUE_DAY`: the 10th of the period's month. -/
def defaultDueDate (periodStart : Int) : Int := monthStart (monthOf periodStart) + 9

def engineInput (args : GenerateArgs) (custom : CustomDiscountInputs) : DiscountEngine.Input where
  invoiceType := .monthly
  amountDue := MoneyKzt.toDecimal (args.assignment.effectiveAmount args.tariffPlan)
  periodStart := args.periodStart
  discountRules := args.tariffPlan.discountRules
  prepaymentMonths := none
  customDiscounts := custom.customDiscounts
  siblingsInKgCount := custom.siblingsInKgCount
  child := custom.child

/-- Billable days left of a period, `none` when it is billed in full. -/
def prorated (args : GenerateArgs) : Option Int :=
  let billableDays := args.proratedBillableDays.getD args.totalDays
  let effectiveBillableDays := max 0 (billableDays - args.nonBillableHolidays)
  if effectiveBillableDays ≠ args.totalDays ∧ 0 < args.totalDays then some effectiveBillableDays
  else none

/-- The invoice row that a run builds. -/
def newMonthlyInvoice (id accountId : Nat) (now : Int) (args : GenerateArgs)
    (discount : DiscountEngine.Result) : Invoice :=
  let baseAmount := args.assignment.effectiveAmount args.tariffPlan
  let discounted := computeAmountAfterDiscount (MoneyKzt.toDecimal baseAmount)
    discount.discountPct discount.customDiscountAmount
  let amountAfter := match prorated args with
    | some days => discounted * days / args.totalDays
    | none => discounted
  { id := id
    childId := args.assignment.childId
    paymentAccountId := accountId
    tariffPlanId := some args.tariffPlan.id
    invoiceType := .monthly
    periodStart := args.periodStart
    periodEnd := args.periodEnd
    amountDue := baseAmount
    discountPct := discount.discountPct
    discountReason := discount.discountReason
    amountAfterDiscount := MoneyKzt.roundToWholeKzt amountAfter
    status := .pending
    dueDate := args.dueDate
    proratedForDays := prorated args
    createdAt := now }

def generateAndPersistInvoice (now : Int) (args : GenerateArgs) : Sql Invoice := do
  let childId := args.assignment.childId
  let account ← PaymentAccountService.ensureForChild childId
  let custom ← buildCustomDiscountInputs now childId true
  let discount := DiscountEngine.evaluate (engineInput args custom)
  releaseUnusedReservations custom.reservedDiscountIds discount
  let id ← Prog.uuid
  let lineId ← Prog.uuid
  let stillActive ← Prog.update (.lockActiveChild childId)
  guardOr stillActive (.childArchivedDuringRun childId)
  let invoice := newMonthlyInvoice id account.id now args discount
  let persisted ← InvoiceRepository.create invoice
    [newLineItem lineId id (some args.tariffPlan.id) 1 invoice.amountDue now]
  persistCustomDiscountApplications now persisted lineId discount
  emitInvoiceCreated persisted
  pure persisted

structure GenerateMonthlyResult where
  generated : Nat
  skipped : Nat
  deriving DecidableEq

/-- One assignment of the run: `true` when an invoice was made. -/
def billAssignment (now periodStart periodEnd totalDays nonBillableHolidays : Int)
    (covered : List Nat) (assignment : TariffAssignment) : Sql Bool := do
  if covered.contains assignment.childId then
    pure false
  else do
    let child ← Prog.query fun s => s.child? assignment.childId
    if child.all fun c => c.status == .archived then
      pure false
    else do
      let plan ← TariffPlanRepository.findById assignment.tariffPlanId
      match plan with
      | none => pure false
      | some tariffPlan =>
          Prog.tryCatch
            (fun
              | .childArchivedDuringRun _ => pure false
              | e => Prog.throw e)
            (do
              let _ ← generateAndPersistInvoice now
                { assignment := assignment
                  tariffPlan := tariffPlan
                  periodStart := periodStart
                  periodEnd := periodEnd
                  dueDate := defaultDueDate periodStart
                  totalDays := totalDays
                  nonBillableHolidays := nonBillableHolidays
                  proratedBillableDays := none }
              pure true)

/-- The loop of the run. -/
def billAssignments (bill : TariffAssignment → Sql Bool) :
    List TariffAssignment → Sql GenerateMonthlyResult
  | [] => pure ⟨0, 0⟩
  | a :: rest => do
      let made ← bill a
      let r ← billAssignments bill rest
      pure (if made then { r with generated := r.generated + 1 } else { r with skipped := r.skipped + 1 })

def generateMonthly (now periodStart : Int) : Sql GenerateMonthlyResult := do
  InvoiceRepository.acquireMonthlyGenerationAdvisoryLock periodStart
  let assignments ← TariffAssignmentRepository.findAllActiveAtDate periodStart
  if assignments.isEmpty then
    pure ⟨0, 0⟩
  else do
    let exists_ ← InvoiceRepository.existsMonthlyForPeriod periodStart
    if exists_ then
      pure ⟨0, assignments.length⟩
    else do
      let periodEnd := endOfMonth periodStart
      let totalDays := daysBetweenInclusive (midnight periodStart) (midnight periodEnd)
      let nonBillableHolidays ← countNonBillableInRange periodStart periodEnd
      let covered ← InvoiceRepository.listChildIdsWithPaidPrepaymentCovering periodStart
      billAssignments (billAssignment now periodStart periodEnd totalDays nonBillableHolidays covered)
        assignments

/-- `enrollmentDate` is an instant; the stored period starts on its UTC day and ends with
its local month. -/
def generateFirstInvoice (now : Int) (childId : Nat) (enrollmentDate : Int) : Sql Invoice := do
  let found ← TariffAssignmentRepository.findActiveForChild childId (utcDay enrollmentDate)
  let assignment ← require found (.tariffAssignmentNotFound childId)
  let plan ← TariffPlanRepository.findById assignment.tariffPlanId
  let tariffPlan ← require plan (.tariffPlanNotFound assignment.tariffPlanId)
  let periodStart := firstOfMonthInTimezone enrollmentDate
  let periodEnd := endOfMonth periodStart
  let nonBillableHolidays ← countNonBillableInRange (utcDay enrollmentDate) periodEnd
  generateAndPersistInvoice now
    { assignment := assignment
      tariffPlan := tariffPlan
      periodStart := utcDay enrollmentDate
      periodEnd := periodEnd
      dueDate := defaultDueDate periodStart
      totalDays := daysBetweenInclusive (midnight periodStart) (midnight periodEnd)
      nonBillableHolidays := nonBillableHolidays
      proratedBillableDays := some (daysBetweenInclusive enrollmentDate (midnight periodEnd)) }

/-! ## Prepayments -/

/-- Remainder of the unsettled non-prepayment invoices; `none` when there are none. -/
def computeOutstandingDebt (childId : Nat) : Sql (Option Int) := do
  let unpaid ← InvoiceRepository.findUnpaidNonPrepaymentByChild childId
  if unpaid.isEmpty then
    pure none
  else do
    let paidSums ← InvoiceRepository.getPaidSumsForInvoices
    pure (some (unpaid.map fun i => max 0 (i.amountAfterDiscount - paidSums i.id)).sum)

/-- The first stale prepayment that holds money. -/
def findMoneyHoldingPrepayment (stale : List Invoice) : Sql (Option (Invoice × Int)) := do
  if stale.isEmpty then
    pure none
  else do
    let paidSums ← InvoiceRepository.getPaidSumsForInvoices
    pure ((stale.find? fun i => decide (0 < paidSums i.id)).map fun i => (i, paidSums i.id))

/-- The months that paid prepayments cover. -/
def coveredMonthKeys (paid : List Invoice) : List Int :=
  paid.flatMap fun p => (monthsOfWindow p.periodStart p.periodEnd).map monthOf

/-- `while (covered.has(monthKey(w))) w = addMonthsUtc(w, 1)`. -/
def shiftWindow (covered : List Int) : Nat → Int → Int
  | 0, w => w
  | fuel + 1, w =>
      if covered.contains (monthOf w) then shiftWindow covered fuel (addMonthsUtc w 1) else w

structure QuoteMonth where
  periodStart : Int
  periodEnd : Int
  baseAmount : Decimal
  holidayDays : Int
  weight : Decimal

/-- Base amount and billable-day fraction of each month of the window. -/
def quoteMonths (monthlyAmount : Int) (windowStart : Int) : List Nat → Sql (List QuoteMonth)
  | [] => pure []
  | i :: rest => do
      let mStart := addMonthsUtc windowStart i
      let mEnd := endOfMonth mStart
      let totalDays := daysBetweenInclusive (midnight mStart) (midnight mEnd)
      let holidayDays ← countNonBillableInRange mStart mEnd
      let effectiveDays := max 0 (totalDays - holidayDays)
      let others ← quoteMonths monthlyAmount windowStart rest
      pure
        ({ periodStart := mStart
           periodEnd := mEnd
           baseAmount := MoneyKzt.toDecimal monthlyAmount * effectiveDays / totalDays
           holidayDays := holidayDays
           weight := (effectiveDays : Decimal) / totalDays } :: others)

/-- One tenge more for each of the first `leftover` indices. -/
def topUp (order : List Nat) (leftover : Nat) (i : Nat) : Int :=
  if (order.take leftover).contains i then 1 else 0

/-- Largest-remainder shares of a whole-tenge total, in tenge. -/
def distributeWholeTenge (totalKzt : Int) (weights : List Decimal) : List Int :=
  let weightSum := weights.sum
  if weightSum = 0 ∨ totalKzt = 0 then weights.map fun _ => 0
  else
    let raws := weights.map fun w => w * totalKzt / weightSum
    let floors := raws.map fun r => ⌊r⌋
    let leftover := totalKzt - floors.sum
    let order := (orderBy (fun (a b : Decimal × Nat) => decide (b.1 < a.1) ||
      (a.1 == b.1 && decide (a.2 ≤ b.2))) (raws.map fun r => r - (⌊r⌋ : Decimal)).zipIdx).map Prod.snd
    floors.zipIdx.map fun f => f.1 + topUp order leftover.toNat f.2

inductive BlockedReason
  | outstandingDebt (amount : Int)
  | partialPrepaymentExists (invoiceId : Nat) (paidAmount : Int)
  | windowOverlapsCovered (months : List Int)
  deriving DecidableEq

structure PrepaymentQuote where
  windowStart : Int
  windowEnd : Int
  months : List QuoteMonth
  shares : List Int
  discount : DiscountEngine.Result
  baseTotal : Decimal
  total : Int
  tariffPlan : TariffPlan

/-- The window of a quote: the next month on, past the covered ones. -/
def quoteWindow (now : Int) (paid : List Invoice) : Int :=
  let covered := coveredMonthKeys paid
  shiftWindow covered (covered.length + 1) (addMonthsUtc (firstOfMonthInTimezone now) 1)

/-- The months of the window that are covered all the same. -/
def overlappingCovered (paid : List Invoice) (windowStart : Int) (months : Nat) : List Int :=
  ((List.range months).map fun i => monthOf (addMonthsUtc windowStart i)).filter
    (coveredMonthKeys paid).contains

/-- The priced quote of a window. -/
def priceQuote (now : Int) (childId : Nat) (months : PrepaymentMonths) (reserve : Bool)
    (assignment : TariffAssignment) (tariffPlan : TariffPlan) (windowStart : Int) :
    Sql PrepaymentQuote := do
  let entries ← quoteMonths (assignment.effectiveAmount tariffPlan) windowStart
    (List.range months.count)
  let baseTotal := (entries.map QuoteMonth.baseAmount).sum
  let custom ← buildCustomDiscountInputs now childId reserve
  let discount := DiscountEngine.evaluate
    { invoiceType := .prepayment months
      amountDue := baseTotal
      periodStart := windowStart
      discountRules := tariffPlan.discountRules
      prepaymentMonths := some months
      customDiscounts := custom.customDiscounts
      siblingsInKgCount := custom.siblingsInKgCount
      child := custom.child }
  releaseUnusedReservations custom.reservedDiscountIds discount
  let amountAfter := computeAmountAfterDiscount baseTotal discount.discountPct
    discount.customDiscountAmount
  let total := MoneyKzt.roundToWholeKzt amountAfter
  let shares := (distributeWholeTenge (roundHalfEven amountAfter)
    (entries.map QuoteMonth.weight)).map (100 * ·)
  guardOr (shares.sum == total) (.internal "prepayment_share_sum_mismatch")
  pure
    { windowStart := windowStart
      windowEnd := endOfMonth (addMonthsUtc windowStart ((months.count : Int) - 1))
      months := entries
      shares := shares
      discount := discount
      baseTotal := baseTotal
      total := total
      tariffPlan := tariffPlan }

def computePrepaymentQuote (now : Int) (childId : Nat) (months : PrepaymentMonths) (reserve : Bool) :
    Sql (BlockedReason ⊕ PrepaymentQuote) := do
  let found ← TariffAssignmentRepository.findActiveForChild childId (utcDay now)
  let assignment ← require found (.tariffAssignmentNotFound childId)
  let plan ← TariffPlanRepository.findById assignment.tariffPlanId
  let tariffPlan ← require plan (.tariffPlanNotFound assignment.tariffPlanId)
  guardOr (DiscountEngine.prepayPct tariffPlan.discountRules months).isSome
    .prepaymentHorizonNotConfigured
  let outstanding ← computeOutstandingDebt childId
  match outstanding with
  | some amount => pure (.inl (.outstandingDebt amount))
  | none => do
      let stale ← InvoiceRepository.findUnpaidPrepaymentsByChild childId
      let holding ← findMoneyHoldingPrepayment stale
      match holding with
      | some (i, paid) => pure (.inl (.partialPrepaymentExists i.id paid))
      | none => do
          let paid ← InvoiceRepository.findPaidPrepaymentsByChild childId
            (addMonthsUtc (firstOfMonthInTimezone now) 1)
          let windowStart := quoteWindow now paid
          let overlapping := overlappingCovered paid windowStart months.count
          if overlapping.isEmpty then do
            let quote ← priceQuote now childId months reserve assignment tariffPlan windowStart
            pure (.inr quote)
          else
            pure (.inl (.windowOverlapsCovered overlapping))

/-- A retry cancels the child's stale zero-paid prepayments, with no notification. -/
def cancelStalePrepayment (old : Invoice) : Sql Unit := do
  let cancelled ← InvoiceRepository.markCancelledConditional old.id
  match cancelled with
  | none => pure ()
  | some _ => releaseCustomDiscountUsagesForInvoice old.id

/-- The error of a blocked quote. -/
def blockedError : BlockedReason → BillingError
  | .outstandingDebt amount => .prepaymentBlockedOutstandingDebt amount
  | .partialPrepaymentExists id paid => .prepaymentBlockedPartialPrepayment id paid
  | .windowOverlapsCovered months => .prepaymentBlockedWindowOverlap months

/-- The months of a quote with their shares, as line items a millisecond apart. -/
def prepaymentLineItems (now : Int) (invoiceId planId : Nat) : Nat → List Int → Sql (List InvoiceLineItem)
  | _, [] => pure []
  | i, share :: rest => do
      let id ← Prog.uuid
      let others ← prepaymentLineItems now invoiceId planId (i + 1) rest
      pure (newLineItem id invoiceId (some planId) 1 share (now + i) :: others)

/-- The INSERT of a quoted prepayment. -/
def persistPrepayment (now : Int) (childId : Nat) (months : PrepaymentMonths)
    (quote : PrepaymentQuote) : Sql Invoice := do
  let account ← PaymentAccountService.ensureForChild childId
  let id ← Prog.uuid
  let lineItems ← prepaymentLineItems now id quote.tariffPlan.id 0 quote.shares
  let persisted ← InvoiceRepository.create
    { id := id
      childId := childId
      paymentAccountId := account.id
      tariffPlanId := some quote.tariffPlan.id
      invoiceType := .prepayment months
      periodStart := quote.windowStart
      periodEnd := quote.windowEnd
      amountDue := MoneyKzt.round quote.baseTotal
      discountPct := quote.discount.discountPct
      discountReason := quote.discount.discountReason
      amountAfterDiscount := quote.total
      status := .pending
      dueDate := utcDay now + 7
      proratedForDays := none
      createdAt := now } lineItems
  persistCustomDiscountApplications now persisted ((lineItems.head?.map InvoiceLineItem.id).getD 0)
    quote.discount
  emitInvoiceCreated persisted
  pure persisted

def prepayInvoice (now : Int) (childId : Nat) (months : PrepaymentMonths) : Sql Invoice := do
  InvoiceRepository.acquireChildPrepaymentAdvisoryLock childId
  let outstanding ← computeOutstandingDebt childId
  match outstanding with
  | some amount => Prog.throw (.prepaymentBlockedOutstandingDebt amount)
  | none => do
      let stale ← InvoiceRepository.findUnpaidPrepaymentsByChild childId
      let holding ← findMoneyHoldingPrepayment stale
      match holding with
      | some (i, paid) => Prog.throw (.prepaymentBlockedPartialPrepayment i.id paid)
      | none => do
          Prog.forEach cancelStalePrepayment stale
          let quote ← computePrepaymentQuote now childId months true
          match quote with
          | .inl reason => Prog.throw (blockedError reason)
          | .inr quote => persistPrepayment now childId months quote

end InvoiceService

end Billing
