import Shyraq.Billing.InvoiceGeneration
import Shyraq.Transactions.Alone

/-!
# What a prepayment costs

The answer of the preview as a function of the store, part by part: the tariff, what blocks the
quote, the window, the custom discounts that are on offer, the price.
-/

namespace Billing

open Kernel Transactions

namespace Store

/-! ## The parts of a quote -/

/-- The assignment and the plan, with a percentage for the horizon. -/
def tariffFor (s : Store) (now : Int) (childId : Nat) (months : PrepaymentMonths) :
    Except BillingError (TariffAssignment × TariffPlan) :=
  match (orderBy TariffAssignmentRepository.listed (s.reference.tariffAssignments.filter fun a =>
    a.childId == childId && a.activeAt (utcDay now))).head? with
  | none => .error (.tariffAssignmentNotFound childId)
  | some assignment =>
      match Table.find s.reference.tariffPlans assignment.tariffPlanId with
      | none => .error (.tariffPlanNotFound assignment.tariffPlanId)
      | some tariffPlan =>
          if (DiscountEngine.prepayPct tariffPlan.discountRules months).isSome then
            .ok (assignment, tariffPlan)
          else .error .prepaymentHorizonNotConfigured

/-- The unsettled invoices of a child, prepayments apart. -/
def debts (s : Store) (childId : Nat) : List Invoice :=
  s.invoices.filter fun i => i.childId == childId && i.status.unpaid && !i.invoiceType.isPrepayment

def outstandingDebt (s : Store) (childId : Nat) : Option Int :=
  if (s.debts childId).isEmpty then none
  else some ((s.debts childId).map fun i => max 0 (i.amountAfterDiscount - s.paidSum i.id)).sum

/-- The unsettled prepayments of a child, the oldest first. -/
def stalePrepayments (s : Store) (childId : Nat) : List Invoice :=
  orderBy (fun a b => decide (a.createdAt ≤ b.createdAt))
    (s.invoices.filter fun i => i.childId == childId && i.invoiceType.isPrepayment && i.status.unpaid)

def moneyHolding (s : Store) (childId : Nat) : Option (Invoice × Int) :=
  ((s.stalePrepayments childId).find? fun i => decide (0 < s.paidSum i.id)).map fun i => (i, s.paidSum i.id)

/-- Debt, or money on a stale prepayment. -/
def blocked (s : Store) (childId : Nat) : Option InvoiceService.BlockedReason :=
  match s.outstandingDebt childId with
  | some amount => some (.outstandingDebt amount)
  | none => (s.moneyHolding childId).map fun h => .partialPrepaymentExists h.1.id h.2

/-- The paid prepayments that reach into the next month, or past it. -/
def paidPrepayments (s : Store) (now : Int) (childId : Nat) : List Invoice :=
  orderBy (fun a b => decide (a.periodStart ≤ b.periodStart)) (s.invoices.filter fun i =>
    i.childId == childId && i.invoiceType.isPrepayment && i.status == .paid &&
    decide (addMonthsUtc (firstOfMonthInTimezone now) 1 ≤ i.periodEnd))

def prepaymentWindow (s : Store) (now : Int) (childId : Nat) : Int :=
  InvoiceService.quoteWindow now (s.paidPrepayments now childId)

/-- One month of a window. -/
def quoteMonth (s : Store) (monthlyAmount windowStart : Int) (i : Nat) : InvoiceService.QuoteMonth :=
  let mStart := addMonthsUtc windowStart i
  let mEnd := endOfMonth mStart
  let totalDays := daysBetweenInclusive (midnight mStart) (midnight mEnd)
  let holidayDays := ((s.reference.holidays.filter fun h =>
    !h.isBillable && decide (mStart ≤ h.date) && decide (h.date ≤ mEnd)).length : Int)
  let effectiveDays := max 0 (totalDays - holidayDays)
  { periodStart := mStart
    periodEnd := mEnd
    baseAmount := MoneyKzt.toDecimal monthlyAmount * effectiveDays / totalDays
    holidayDays := holidayDays
    weight := (effectiveDays : Decimal) / totalDays }

/-! ## Custom discounts -/

/-- The discounts that are on and target the child. -/
def targeted (s : Store) (now : Int) (childId : Nat) : List CustomDiscount :=
  (orderBy DiscountEngine.precedes (s.customDiscounts.filter fun d => d.status == .active &&
    decide (d.validFrom ≤ now) && d.validUntil.all fun u => decide (now < u))).filter fun d =>
      (DiscountTargetResolver.resolveByTargetType now d s).contains childId

/-- Neither cap is reached. -/
def belowCaps (s : Store) (childId : Nat) (d : CustomDiscount) : Bool :=
  (d.maxUsesPerChild.all fun cap => decide (s.usesByChild childId d.id < cap)) && hasCapacity d

def offered (s : Store) (now : Int) (childId : Nat) : List CustomDiscount :=
  (s.targeted now childId).filter (s.belowCaps childId)

def childContext (s : Store) (now : Int) (childId : Nat) : Option DiscountEngine.ChildContext :=
  (s.child? childId).map fun child =>
    { birthDate := child.dateOfBirth
      ageInMonths := max 0 (wholeMonths child.dateOfBirth (utcDay now))
      siblingsInKgCount := s.siblingsInKg childId
      isFirstInvoiceForChild :=
        (s.invoices.filter fun i => i.childId == childId).all fun p => p.status == .cancelled }

def discountInputs (s : Store) (now : Int) (childId : Nat) : InvoiceService.CustomDiscountInputs where
  customDiscounts := s.offered now childId
  child := s.childContext now childId
  siblingsInKgCount := if (s.child? childId).isSome then s.siblingsInKg childId else 0
  reservedDiscountIds := []

/-! ## The quote -/

/-- The months of a window of this length. -/
def windowMonths (s : Store) (assignment : TariffAssignment) (tariffPlan : TariffPlan) (windowStart : Int)
    (months : PrepaymentMonths) : List InvoiceService.QuoteMonth :=
  (List.range months.count).map (s.quoteMonth (assignment.effectiveAmount tariffPlan) windowStart)

/-- What the engine is asked. -/
def engineInput (entries : List InvoiceService.QuoteMonth) (months : PrepaymentMonths) (windowStart : Int)
    (tariffPlan : TariffPlan) (custom : InvoiceService.CustomDiscountInputs) : DiscountEngine.Input where
  invoiceType := .prepayment months
  amountDue := (entries.map InvoiceService.QuoteMonth.baseAmount).sum
  periodStart := windowStart
  discountRules := tariffPlan.discountRules
  prepaymentMonths := some months
  customDiscounts := custom.customDiscounts
  siblingsInKgCount := custom.siblingsInKgCount
  child := custom.child

/-- The price of a window, from its months and the discounts on them. -/
def priced (entries : List InvoiceService.QuoteMonth) (months : PrepaymentMonths) (windowStart : Int)
    (tariffPlan : TariffPlan) (discount : DiscountEngine.Result) :
    Except BillingError InvoiceService.PrepaymentQuote :=
  let baseTotal := (entries.map InvoiceService.QuoteMonth.baseAmount).sum
  let amountAfter := computeAmountAfterDiscount baseTotal discount.discountPct discount.customDiscountAmount
  let total := MoneyKzt.roundToWholeKzt amountAfter
  let shares := (InvoiceService.distributeWholeTenge (roundHalfEven amountAfter)
    (entries.map InvoiceService.QuoteMonth.weight)).map (100 * ·)
  if shares.sum == total then
    .ok
      { windowStart := windowStart
        windowEnd := endOfMonth (addMonthsUtc windowStart ((months.count : Int) - 1))
        months := entries
        shares := shares
        discount := discount
        baseTotal := baseTotal
        total := total
        tariffPlan := tariffPlan }
  else .error (.internal "prepayment_share_sum_mismatch")

/-- The discounts on the window that a quote would have. -/
def prepaymentDiscount (s : Store) (now : Int) (childId : Nat) (months : PrepaymentMonths)
    (assignment : TariffAssignment) (tariffPlan : TariffPlan) : DiscountEngine.Result :=
  let windowStart := s.prepaymentWindow now childId
  DiscountEngine.evaluate (engineInput (s.windowMonths assignment tariffPlan windowStart months) months
    windowStart tariffPlan (s.discountInputs now childId))

/-- The quote of a child with a tariff that nothing blocks so far. -/
def openQuote (s : Store) (now : Int) (childId : Nat) (months : PrepaymentMonths)
    (assignment : TariffAssignment) (tariffPlan : TariffPlan) :
    Except BillingError (InvoiceService.BlockedReason ⊕ InvoiceService.PrepaymentQuote) :=
  let windowStart := s.prepaymentWindow now childId
  let overlapping :=
    InvoiceService.overlappingCovered (s.paidPrepayments now childId) windowStart months.count
  if overlapping.isEmpty then
    (priced (s.windowMonths assignment tariffPlan windowStart months) months windowStart tariffPlan
      (s.prepaymentDiscount now childId months assignment tariffPlan)).map .inr
  else .ok (.inl (.windowOverlapsCovered overlapping))

/-- What the preview answers. -/
def quote (s : Store) (now : Int) (childId : Nat) (months : PrepaymentMonths) :
    Except BillingError (InvoiceService.BlockedReason ⊕ InvoiceService.PrepaymentQuote) :=
  match s.tariffFor now childId months with
  | .error e => .error e
  | .ok (assignment, tariffPlan) =>
      match s.blocked childId with
      | some reason => .ok (.inl reason)
      | none => s.openQuote now childId months assignment tariffPlan

end Store

/-! ## The preview -/

section Reads

variable {A B : Type}

theorem reads_guardOr_ret (s : Store) (c : Bool) (e : BillingError) (a : A) :
    (Prog.bind (guardOr c e) fun _ => Prog.ret a).reads s = some (if c then .ok a else .error e) := by
  cases c <;> rfl

namespace InvoiceService

theorem reads_computeOutstandingDebt (s : Store) (childId : Nat) :
    (computeOutstandingDebt childId).reads s = some (.ok (s.outstandingDebt childId)) := by
  show Prog.reads s (if (s.debts childId).isEmpty then _ else _) = _
  unfold Store.outstandingDebt
  split <;> rfl

theorem reads_findMoneyHolding (s : Store) (childId : Nat) :
    (findMoneyHoldingPrepayment (s.stalePrepayments childId)).reads s = some (.ok (s.moneyHolding childId)) := by
  unfold findMoneyHoldingPrepayment Store.moneyHolding
  split
  · next h =>
    rw [List.isEmpty_iff.1 h]
    rfl
  · rfl

theorem reads_quoteMonths (s : Store) (monthlyAmount windowStart : Int) (l : List Nat) :
    (quoteMonths monthlyAmount windowStart l).reads s =
      some (.ok (l.map (s.quoteMonth monthlyAmount windowStart))) := by
  induction l with
  | nil => rfl
  | cons i l ih =>
    show Prog.reads s (Prog.bind (quoteMonths monthlyAmount windowStart l) fun others => _) = _
    rw [Prog.reads_bind ih]
    rfl

theorem reads_filterDiscountsForChild (s : Store) (now : Int) (childId : Nat) (l : List CustomDiscount) :
    (DiscountTargetResolver.filterDiscountsForChild now childId l).reads s = some (.ok (l.filter fun d =>
      (DiscountTargetResolver.resolveByTargetType now d s).contains childId)) := by
  induction l with
  | nil => rfl
  | cons d l ih =>
    show Prog.reads s (Prog.bind (DiscountTargetResolver.filterDiscountsForChild now childId l) fun out => _) = _
    rw [Prog.reads_bind ih, List.filter_cons]
    rfl

theorem reads_belowChildCap (s : Store) (reserve : Bool) (childId : Nat) (d : CustomDiscount) :
    (belowChildCap reserve childId d).reads s =
      some (.ok (d.maxUsesPerChild.all fun cap => decide (s.usesByChild childId d.id < cap))) := by
  unfold belowChildCap
  cases d.maxUsesPerChild with
  | none => rfl
  | some cap => cases reserve <;> rfl

theorem reads_takeSlot (s : Store) (d : CustomDiscount) :
    (takeSlot false d).reads s = some (.ok (Store.hasCapacity d, false)) := by
  unfold takeSlot Store.hasCapacity
  cases d.totalMaxUses <;> rfl

theorem reads_admitSnapshots (s : Store) (childId : Nat) (l : List CustomDiscount) :
    (admitSnapshots false childId l).reads s = some (.ok (l.filter (s.belowCaps childId), [])) := by
  induction l with
  | nil => rfl
  | cons d l ih =>
    unfold admitSnapshots
    refine (Prog.reads_bind (reads_belowChildCap s false childId d)).trans ?_
    rw [List.filter_cons]
    split
    · next hbelow =>
      refine (Prog.reads_bind (reads_takeSlot s d)).trans ((Prog.reads_bind ih).trans ?_)
      have hcaps : s.belowCaps childId d = Store.hasCapacity d := by
        unfold Store.belowCaps
        rw [hbelow, Bool.true_and]
      rw [hcaps]
      rfl
    · next hbelow =>
      have hcaps : ¬ s.belowCaps childId d = true := by
        unfold Store.belowCaps
        simp [hbelow]
      rw [if_neg hcaps, ih]

theorem reads_buildCustomDiscountInputs (s : Store) (now : Int) (childId : Nat) :
    (buildCustomDiscountInputs now childId false).reads s = some (.ok (s.discountInputs now childId)) := by
  unfold buildCustomDiscountInputs
  refine (Prog.reads_bind (Prog.reads_query s _)).trans ?_
  refine (Prog.reads_bind (reads_filterDiscountsForChild s now childId _)).trans ?_
  refine (Prog.reads_bind (reads_admitSnapshots s childId _)).trans ?_
  refine (Prog.reads_bind (Prog.reads_query s _)).trans ?_
  unfold Store.discountInputs Store.childContext
  cases s.child? childId <;> rfl

theorem reads_priceQuote (s : Store) (now : Int) (childId : Nat) (months : PrepaymentMonths)
    (assignment : TariffAssignment) (tariffPlan : TariffPlan) :
    (priceQuote now childId months false assignment tariffPlan (s.prepaymentWindow now childId)).reads s =
      some (Store.priced (s.windowMonths assignment tariffPlan (s.prepaymentWindow now childId) months) months
        (s.prepaymentWindow now childId) tariffPlan
        (s.prepaymentDiscount now childId months assignment tariffPlan)) := by
  unfold priceQuote
  refine (Prog.reads_bind (reads_quoteMonths s _ _ _)).trans ?_
  refine (Prog.reads_bind (reads_buildCustomDiscountInputs s now childId)).trans ?_
  exact reads_guardOr_ret s _ _ _

theorem reads_open (s : Store) (now : Int) (childId : Nat) (months : PrepaymentMonths)
    (assignment : TariffAssignment) (tariffPlan : TariffPlan) :
    (if (overlappingCovered (s.paidPrepayments now childId) (s.prepaymentWindow now childId)
        months.count).isEmpty then
      Prog.bind (priceQuote now childId months false assignment tariffPlan (s.prepaymentWindow now childId))
        fun quote => Prog.ret (.inr quote)
    else Prog.ret (.inl (.windowOverlapsCovered (overlappingCovered (s.paidPrepayments now childId)
      (s.prepaymentWindow now childId) months.count))) : Sql (BlockedReason ⊕ PrepaymentQuote)).reads s =
      some (s.openQuote now childId months assignment tariffPlan) := by
  unfold Store.openQuote
  simp only
  split
  · have h := reads_priceQuote s now childId months assignment tariffPlan
    cases hp : Store.priced (s.windowMonths assignment tariffPlan (s.prepaymentWindow now childId) months) months
        (s.prepaymentWindow now childId) tariffPlan
        (s.prepaymentDiscount now childId months assignment tariffPlan) with
    | error e =>
      rw [hp] at h
      exact Prog.reads_bind_error h
    | ok quote =>
      rw [hp] at h
      exact Prog.reads_bind h
  · rfl

/-- **The preview** answers the quote of the store, and writes nothing. -/
theorem reads_computePrepaymentQuote (s : Store) (now : Int) (childId : Nat) (months : PrepaymentMonths) :
    (computePrepaymentQuote now childId months false).reads s = some (s.quote now childId months) := by
  unfold computePrepaymentQuote Store.quote Store.tariffFor
  refine (Prog.reads_bind (Prog.reads_query s _)).trans ?_
  generalize (orderBy _ _).head? = found
  cases found with
  | none => rfl
  | some assignment =>
    refine (Prog.reads_bind (Prog.reads_query s _)).trans ?_
    dsimp only
    show Prog.reads s (Prog.bind (require (Table.find s.reference.tariffPlans assignment.tariffPlanId) _) _) = _
    cases Table.find s.reference.tariffPlans assignment.tariffPlanId with
    | none => rfl
    | some tariffPlan =>
      dsimp only
      show Prog.reads s (Prog.bind (guardOr (DiscountEngine.prepayPct _ _).isSome _) _) = _
      cases (DiscountEngine.prepayPct tariffPlan.discountRules months).isSome with
      | false => rfl
      | true =>
        refine (Prog.reads_bind (reads_computeOutstandingDebt s childId)).trans ?_
        rw [if_pos rfl]
        dsimp only
        unfold Store.blocked
        cases s.outstandingDebt childId with
        | some amount => rfl
        | none =>
          refine (Prog.reads_bind (Prog.reads_query s _)).trans ?_
          refine (Prog.reads_bind (reads_findMoneyHolding s childId)).trans ?_
          cases s.moneyHolding childId with
          | some h => rfl
          | none =>
            refine (Prog.reads_bind (Prog.reads_query s _)).trans ?_
            exact reads_open s now childId months assignment tariffPlan

end InvoiceService

end Reads

end Billing
