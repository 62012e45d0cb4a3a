import Shyraq.Billing.Settlement

/-!
# InvoiceService: the state flips

Cash receipts (`manualMarkPaid`), the admin cancel and the nightly overdue run.
-/

namespace Billing

open Kernel Transactions

namespace InvoiceService

/-- `ManualMarkPaidInput`; no `amount` means full settlement. -/
structure ManualMarkPaidInput where
  amount : Option Decimal
  payerUserId : Option Nat
  paidAt : Option Int

def cancelCoveredMonthliesForPrepayment (prepayment : Invoice) : Sql Unit :=
  cancelCoveredMonthlies prepayment

/-- The covered monthlies of a prepayment that this receipt has just settled. -/
def cancelIfPrepayment (updated : Invoice) : Sql Unit :=
  if updated.invoiceType.isPrepayment then cancelCoveredMonthliesForPrepayment updated else pure ()

/-- The synthetic row of a cash receipt. -/
def cashPayment (id : Nat) (now : Int) (input : ManualMarkPaidInput) (invoice : Invoice)
    (amount : Int) : Payment where
  id := id
  invoiceId := invoice.id
  childId := invoice.childId
  payerUserId := input.payerUserId
  amount := amount
  provider := .cash
  providerTxnId := none
  idempotencyKey := .cash invoice.id now
  status := .completed
  paidAt := some (input.paidAt.getD now)
  refundId := none
  nextReconciliationAt := none
  manualReviewRequiredAt := none
  refundRequired := false
  refundReason := none
  duplicateOfPaymentId := none
  createdAt := now

/-- Why a flip of this row was refused. -/
def refused (id : Nat) (existing : Option Invoice) (operation : String) : BillingError :=
  match existing with
  | none => .invoiceNotFound id
  | some i =>
      if i.status = .paid then .invoiceAlreadyPaid id else .invoiceStatusInvalid i.status operation

/-- The credit of a receipt, if any. -/
def creditReceipt (accountId : Nat) : Option Int → Sql Unit
  | some amount => PaymentAccountService.creditFromPayment accountId amount
  | none => pure ()

/-- The INSERT of the receipt, the credit if any, and the event. -/
def recordCash (now : Int) (input : ManualMarkPaidInput) (invoice : Invoice) (amount : Int)
    (credit : Option Int) : Sql Unit := do
  let id ← Prog.uuid
  let payment := cashPayment id now input invoice amount
  PaymentRepository.create payment
  creditReceipt invoice.paymentAccountId credit
  notify (.paymentCompleted payment.id invoice.childId invoice.id payment.amount .cash
    (input.paidAt.getD now))

/-- The flip of a part-paid invoice; `partial` already is what is wanted. -/
def flipPartial (invoice : Invoice) : Sql Invoice := do
  if invoice.status = .partial_ then
    pure invoice
  else do
    let flipped ← InvoiceRepository.markPartialConditional invoice.id
    match flipped with
    | some i => pure i
    | none => do
        let found ← InvoiceRepository.findById invoice.id
        let reread ← require found (.invoiceNotFound invoice.id)
        guardOr (reread.status == .partial_) (refused invoice.id (some reread) "manualMarkPaid")
        pure reread

/-- Nothing residual: the receipt is still written, over the whole amount and with no
credit. -/
def recordResidual (now : Int) (input : ManualMarkPaidInput) (invoice : Invoice) (residual : Int) :
    Sql Unit :=
  if 0 < residual then recordCash now input invoice residual (some residual)
  else recordCash now input invoice invoice.amountAfterDiscount none

def recordPartialCashPayment (now : Int) (invoice : Invoice) (amount : Int)
    (input : ManualMarkPaidInput) : Sql Invoice := do
  let updated ← flipPartial invoice
  recordCash now input updated amount (some amount)
  pure updated

/-- Full settlement of what was residual when it was read. -/
def recordFullCashPayment (now : Int) (invoiceId : Nat) (residual : Int)
    (input : ManualMarkPaidInput) : Sql Invoice := do
  let flipped ← InvoiceRepository.markPaidConditional invoiceId
  match flipped with
  | none => do
      let existing ← InvoiceRepository.findById invoiceId
      Prog.throw (refused invoiceId existing "manualMarkPaid")
  | some updated => do
      cancelIfPrepayment updated
      recordResidual now input updated residual
      notify (.invoicePaid updated.id updated.childId updated.amountAfterDiscount
        (input.paidAt.getD now))
      pure updated

/-- The checks on an explicit amount. -/
def checkCashAmount (invoice : Invoice) (residual inputAmount : Int) : Sql Unit := do
  guardOr invoice.status.unpaid (refused invoice.id (some invoice) "manualMarkPaid")
  guardOr (MoneyKzt.isPositive inputAmount && decide (inputAmount ≤ residual))
    (.invoiceStatusInvalid invoice.status "amount_mismatch_partial")
  guardOr (!(invoice.invoiceType.isPrepayment && inputAmount != residual))
    (.prepaymentPartialNotAllowed invoice.id invoice.invoiceType residual)

/-- The two receipts, once the residual is read. -/
def receiveCash (now : Int) (existing : Invoice) (priorPaidSum : Int) (input : ManualMarkPaidInput) :
    Sql Invoice := do
  let residual := existing.amountAfterDiscount - priorPaidSum
  match input.amount with
  | none => recordFullCashPayment now existing.id residual input
  | some amount => do
      let inputAmount := MoneyKzt.fromKzt amount
      checkCashAmount existing residual inputAmount
      if inputAmount = residual then
        recordFullCashPayment now existing.id residual input
      else
        recordPartialCashPayment now existing inputAmount input

def manualMarkPaid (now : Int) (invoiceId : Nat) (input : ManualMarkPaidInput) : Sql Invoice := do
  let found ← InvoiceRepository.findById invoiceId
  let existing ← require found (.invoiceNotFound invoiceId)
  lockPrepaymentOf existing
  let priorPaidSum ← InvoiceRepository.getPaidSumForInvoice invoiceId
  receiveCash now existing priorPaidSum input

def cancel (invoiceId : Nat) (reason : Option String) : Sql Invoice := do
  let flipped ← InvoiceRepository.markCancelledConditional invoiceId
  match flipped with
  | none => do
      let existing ← InvoiceRepository.findById invoiceId
      Prog.throw (refused invoiceId existing "cancel")
  | some updated => do
      releaseCustomDiscountUsagesForInvoice updated.id
      notify (.invoiceCancelled updated.id updated.childId reason)
      pure updated

end InvoiceService

namespace OverdueInvoiceProcessor

/-- The per-kindergarten transaction of the nightly run. -/
def runForKindergarten (now : Int) : Sql (List Nat) := do
  let today := formatDateInTimezone now
  InvoiceRepository.acquireOverdueRunAdvisoryLock today
  let flipped ← InvoiceRepository.markOverdueBatch today
  Prog.forEach (fun (i : Invoice) =>
    notify (.invoiceOverdue i.id i.childId i.amountAfterDiscount i.dueDate)) flipped
  pure (flipped.map Invoice.id)

end OverdueInvoiceProcessor

end Billing
