import Shyraq.Billing.Settlement
import Shyraq.Billing.InvoiceGeneration

/-!
# RefundService

A refund is requested, approved or rejected, and processed.  `process` moves the money:
refund, payment, invoice and account in one transaction, after the provider call.
-/

namespace Billing

open Kernel Transactions

namespace RefundService

/-- `BCC_REFUND_WINDOW_MS`. -/
def bccRefundWindowMs : Int := 30 * 86400000

structure CreateRefundInput where
  paymentId : Nat
  amount : Decimal
  reason : String

def create (now : Int) (input : CreateRefundInput) : Sql Refund := do
  let found ← PaymentRepository.findById input.paymentId
  let payment ← require found (.paymentNotFound input.paymentId)
  guardOr (payment.status == .completed) (.paymentStatusInvalid payment.status "create_refund")
  let amount := MoneyKzt.fromKzt input.amount
  guardOr (MoneyKzt.isPositive amount) (.invariantViolation "refund_amount_invalid")
  guardOr (decide (amount ≤ payment.amount)) (.invariantViolation "refund_amount_invalid")
  guardOr (!(payment.provider == .bcc &&
      payment.paidAt.any fun paidAt => decide (bccRefundWindowMs < now - paidAt)))
    (.invariantViolation "bcc_refund_window_expired")
  let id ← Prog.uuid
  RefundRepository.create
    { id := id
      paymentId := payment.id
      invoiceId := some payment.invoiceId
      amount := amount
      reason := input.reason
      status := .pending
      processedBy := none
      providerRef := none
      createdAt := now }

/-- Why a flip of this refund was refused. -/
def refused (id : Nat) (existing : Option Refund) (operation : String) : BillingError :=
  match existing with
  | none => .refundNotFound id
  | some r => .refundAlreadyProcessed r.status operation

def approve (refundId processedBy : Nat) : Sql Refund := do
  let updated ← RefundRepository.markApprovedConditional refundId processedBy
  match updated with
  | some r => pure r
  | none => do
      let existing ← RefundRepository.findById refundId
      Prog.throw (refused refundId existing "approve")

def reject (refundId : Nat) (reason : String) : Sql Refund := do
  let updated ← RefundRepository.markRejectedConditional refundId reason
  match updated with
  | some r => pure r
  | none => do
      let existing ← RefundRepository.findById refundId
      Prog.throw (refused refundId existing "reject")

/-- What the provider's refund call does: a failure, or its reference. -/
abbrev ProviderRefund := Option (Option Nat)

/-- The invoice after a refund: unwound, or with a balance due again. -/
def unwindInvoice (invoice : Invoice) (effectiveNet : Int) : Sql Unit := do
  if effectiveNet ≤ 0 then do
    let _ ← InvoiceRepository.markRefundedConditional invoice.id
  else if effectiveNet < invoice.amountAfterDiscount then do
    let _ ← InvoiceRepository.markPartialConditional invoice.id
  else
    pure ()

/-- The writes of `process`, once the provider has paid the money back.  A payment that
could not flip, like an invoice that could not, is only logged. -/
def settleRefund (refund : Refund) (payment : Payment) (providerRefundId : Option Nat) :
    Sql Refund := do
  let flipped ← RefundRepository.markProcessedConditional refund.id providerRefundId
  let processed ← require flipped (.refundAlreadyProcessed refund.status "process")
  let _ ← PaymentRepository.markRefundedConditional payment.id processed.id
  let found ← InvoiceRepository.findById payment.invoiceId
  let invoice ← require found (.invoiceNotFound payment.invoiceId)
  let paidSum ← InvoiceRepository.getPaidSumForInvoice invoice.id
  let refundedSum ← RefundRepository.getProcessedRefundsSumForInvoice invoice.id
  unwindInvoice invoice (paidSum - refundedSum)
  PaymentAccountService.debitForRefund invoice.paymentAccountId processed.amount
  notify (.refundProcessed processed.id payment.id invoice.childId invoice.id processed.amount
    processed.processedBy)
  notify (.paymentRefunded payment.id invoice.childId invoice.id processed.amount processed.id)
  pure processed

def process (refundId : Nat) (acknowledgeKaspiHistoryChecked : Bool) (provider : ProviderRefund) :
    Sql Refund := do
  let found ← RefundRepository.findById refundId
  let refund ← require found (.refundNotFound refundId)
  guardOr (refund.status == .approved) (.refundAlreadyProcessed refund.status "process")
  RefundRepository.acquireRefundProcessAdvisoryLock refund.id
  let found ← RefundRepository.findById refund.id
  let lockedRefund ← require found (.refundNotFound refund.id)
  guardOr (lockedRefund.status == .approved)
    (.refundAlreadyProcessed lockedRefund.status "process")
  let found ← PaymentRepository.findById refund.paymentId
  let payment ← require found (.paymentNotFound refund.paymentId)
  guardOr (payment.status == .completed) (.paymentStatusInvalid payment.status "process_refund")
  guardOr (!(payment.provider == .kaspiPay && !acknowledgeKaspiHistoryChecked))
    .kaspiRefundHistoryAckRequired
  let providerRefundId ← require provider (.paymentProvider payment.provider)
  settleRefund refund payment providerRefundId

end RefundService

/-! ## ProRataRefundProcessor

The queue job that files a refund for the rest of the current period when a child has been
archived.  The amount is a share of the invoice; the payment is the latest completed one.
-/

/-- `findCurrentInvoiceForChildAt`. -/
def Store.currentInvoiceForChildAt (s : Store) (childId : Nat) (atDate : Int) : Option Invoice :=
  (orderBy (fun a b => decide (b.periodStart ≤ a.periodStart)) (s.invoices.filter fun i =>
    i.childId == childId && decide (i.periodStart ≤ utcDay atDate) &&
      decide (utcDay atDate ≤ i.periodEnd) && i.status.unpaid)).head?

namespace ProRataRefundProcessor

/-- `PRO_RATA_COMMIT_GRACE_MS`. -/
def proRataCommitGraceMs : Int := 60000

/-- `PRO_RATA_REFUND_REASON`. -/
def proRataRefundReason : String := "pro_rata_archive"

inductive ProRataSkipReason
  | childNotArchived
  | refundAlreadyExists
  | noCurrentInvoice
  | noBillableDaysAfterArchive
  | computedAmountZeroOrNegative
  | noPaymentOnInvoice
  deriving DecidableEq

inductive ProRataRefundOutcome
  | created (refundId : Nat) (amountKzt : Int) (invoiceId : Nat)
  | skipped (reason : ProRataSkipReason)
  deriving DecidableEq

/-- `findPendingProRataForChildSinceArchive`, whatever the status. -/
def proRataSinceArchive (childId : Nat) (since : Int) (s : Store) : List Refund :=
  s.refunds.filter fun r =>
    r.reason == proRataRefundReason && decide (since ≤ r.createdAt) &&
      r.invoiceId.any fun i => (s.invoice? i).any fun inv => inv.childId == childId

/-- Days of the period up to the archive day, that day included. -/
def archivedDays (periodStart periodEnd archivedLocal : Int) : Int :=
  max 0 (min (periodEnd - periodStart + 1) (archivedLocal - periodStart + 1))

structure BillableDays where
  totalBillableDays : Int
  refundableDays : Int
  deriving DecidableEq

/-- The day counts, from the holidays that are not billable. -/
def billableDays (periodStart periodEnd archivedLocal nonBillableTotal nonBillableBeforeArchive : Int) :
    BillableDays :=
  let totalBillableDays := max 0 (periodEnd - periodStart + 1 - nonBillableTotal)
  let archivedBillableDays :=
    max 0 (archivedDays periodStart periodEnd archivedLocal - nonBillableBeforeArchive)
  ⟨totalBillableDays, max 0 (totalBillableDays - archivedBillableDays)⟩

/-- `computeBillableDays`. -/
def computeBillableDays (periodStart periodEnd archivedLocal : Int) : Sql BillableDays := do
  let nonBillableTotal ← countNonBillableInRange periodStart periodEnd
  let nonBillableBeforeArchive ←
    if 0 < archivedDays periodStart periodEnd archivedLocal then
      countNonBillableInRange periodStart archivedLocal
    else
      pure 0
  pure (billableDays periodStart periodEnd archivedLocal nonBillableTotal nonBillableBeforeArchive)

/-- `amountAfterDiscount.mul(refundableDays).div(totalBillableDays)`. -/
def refundShare (amountAfterDiscount : Int) (days : BillableDays) : Decimal :=
  MoneyKzt.toDecimal amountAfterDiscount * days.refundableDays / days.totalBillableDays

/-- The last step: the refund of a share, on the latest completed payment. -/
def attachRefund (now : Int) (invoice : Invoice) (refundAmount : Decimal) : Sql ProRataRefundOutcome := do
  let payments ← PaymentRepository.findByInvoiceId invoice.id
  match payments.find? fun p => p.status == .completed with
  | none => pure (.skipped .noPaymentOnInvoice)
  | some targetPayment => do
      let refundId ← Prog.uuid
      let _ ← RefundRepository.create
        { id := refundId
          paymentId := targetPayment.id
          invoiceId := some invoice.id
          amount := MoneyKzt.round refundAmount
          reason := proRataRefundReason
          status := .pending
          processedBy := none
          providerRef := none
          createdAt := now }
      pure (.created refundId (MoneyKzt.round refundAmount) invoice.id)

/-- The refund for one invoice. -/
def refundInvoice (now archivedAt : Int) (invoice : Invoice) : Sql ProRataRefundOutcome := do
  let days ← computeBillableDays invoice.periodStart invoice.periodEnd (formatDateInTimezone archivedAt)
  if days.totalBillableDays ≤ 0 then
    pure (.skipped .noBillableDaysAfterArchive)
  else if refundShare invoice.amountAfterDiscount days ≤ 0 then
    pure (.skipped .computedAmountZeroOrNegative)
  else
    attachRefund now invoice (refundShare invoice.amountAfterDiscount days)

/-- `computeAndCreate`, the transaction of the job. -/
def computeAndCreate (now : Int) (childId : Nat) (archivedAt : Int) : Sql ProRataRefundOutcome := do
  Prog.acquire (.proRata childId)
  let child ← Prog.query fun s => s.child? childId
  if child.all fun c => c.status != .archived then
    if max 0 (now - archivedAt) < proRataCommitGraceMs then
      -- the archiving transaction may not have committed yet: retried
      Prog.throw (.childNotYetArchived childId)
    else
      pure (.skipped .childNotArchived)
  else do
    let existing ← Prog.query (proRataSinceArchive childId archivedAt)
    if existing.isEmpty then do
      let invoice ← Prog.query fun s => s.currentInvoiceForChildAt childId archivedAt
      match invoice with
      | none => pure (.skipped .noCurrentInvoice)
      | some invoice => refundInvoice now archivedAt invoice
    else
      pure (.skipped .refundAlreadyExists)

end ProRataRefundProcessor

end Billing
