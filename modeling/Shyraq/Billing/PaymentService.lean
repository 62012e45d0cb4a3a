import Shyraq.Billing.Settlement

/-!
# PaymentService

`initiate`, and the settlement of what a provider reports about a payment: through a
webhook, the Kaspi poller or the BCC reconciliation.
-/

namespace Billing

open Kernel Transactions

/-- `VerifyWebhookResult.status`. -/
inductive ProviderStatus
  | processing | completed | failed
  deriving DecidableEq, Repr

/-- `VerifyWebhookResult`, less the raw payload. -/
structure VerifyWebhookResult where
  providerPaymentId : Nat
  status : ProviderStatus
  failureReason : Option String
  deriving DecidableEq

namespace PaymentService

def cancelMonthliesCoveredByPrepayment (prepayment : Invoice) : Sql Unit :=
  cancelCoveredMonthlies prepayment

def notifyRefundRequiredToAdmins (payment : Payment) (duplicateOfPaymentId : Option Nat)
    (reason : RefundReason) : Sql Unit := do
  let admins ← Prog.query fun s => s.reference.admins
  let recipientUserIds := admins.dedup
  if recipientUserIds.isEmpty then
    pure ()
  else
    notify (.paymentRefundRequired payment.id duplicateOfPaymentId payment.invoiceId
      payment.childId payment.amount reason recipientUserIds)

/-- Money settled into an invoice that is void by now. -/
def escalateSettleIntoVoidInvoice (payment : Payment) (invoiceId : Nat) : Sql Unit := do
  let reread ← InvoiceRepository.findById invoiceId
  match reread with
  | none => pure ()
  | some i =>
      if i.status.live then pure ()
      else notifyRefundRequiredToAdmins payment none .settledIntoCancelledInvoice

/-- The invoice side of a completed payment: paid in full, in part, or void. -/
def flipInvoice (payment : Payment) (invoice : Invoice) (paidSum : Int) : Sql (Option Invoice) := do
  if invoice.amountAfterDiscount ≤ paidSum then do
    lockPrepaymentOf invoice
    let paidFlip ← InvoiceRepository.markPaidConditional invoice.id
    match paidFlip with
    | some i => pure (some i)
    | none => do
        escalateSettleIntoVoidInvoice payment invoice.id
        pure none
  else if 0 < paidSum ∧ (invoice.status = .pending ∨ invoice.status = .overdue) then do
    let flipped ← InvoiceRepository.markPartialConditional invoice.id
    match flipped with
    | some _ => pure none
    | none => do
        escalateSettleIntoVoidInvoice payment invoice.id
        pure none
  else if 0 < paidSum ∧ (invoice.status = .cancelled ∨ invoice.status = .refunded) then do
    escalateSettleIntoVoidInvoice payment invoice.id
    pure none
  else
    pure none

/-- A second settlement of one invoice is flagged for a manual refund. -/
def detectDoublePayment (payment : Payment) : Sql Unit := do
  let siblings ← PaymentRepository.findByInvoiceId payment.invoiceId
  let earlierCompleted := (orderBy (fun a b => decide (a.createdAt ≤ b.createdAt))
    (siblings.filter fun p => p.id != payment.id && p.status == .completed)).head?
  match earlierCompleted with
  | none => pure ()
  | some e => do
      let _ ← PaymentRepository.markRefundRequired payment.id .doublePayment e.id
      notifyRefundRequiredToAdmins payment (some e.id) .doublePayment

/-- The covered monthlies of a prepayment that this payment has just settled. -/
def cancelIfPrepayment (paidFlip : Option Invoice) (invoice : Invoice) : Sql Unit :=
  if paidFlip.isSome ∧ invoice.invoiceType.isPrepayment then
    cancelMonthliesCoveredByPrepayment invoice
  else
    pure ()

/-- The double-payment check and the events.  The fiscal receipt is an outside call that
is never waited for. -/
def announceCompleted (now : Int) (updated : Payment) (invoice : Invoice) (paidSum : Int) :
    Sql Unit := do
  detectDoublePayment updated
  notify (.paymentCompleted updated.id invoice.childId invoice.id updated.amount
    updated.provider (updated.paidAt.getD now))
  if invoice.amountAfterDiscount ≤ paidSum then
    notify (.invoicePaid invoice.id invoice.childId invoice.amountAfterDiscount
      (updated.paidAt.getD now))
  else
    pure ()

/-- What follows once the payment row is `completed`: the invoice, the account, the
alerts. -/
def settle (now : Int) (updated : Payment) : Sql Unit := do
  let found ← InvoiceRepository.findById updated.invoiceId
  let invoice ← require found (.invoiceNotFound updated.invoiceId)
  let paidSum ← InvoiceRepository.getPaidSumForInvoice updated.invoiceId
  let paidFlip ← flipInvoice updated invoice paidSum
  cancelIfPrepayment paidFlip invoice
  PaymentAccountService.creditFromPayment invoice.paymentAccountId updated.amount
  announceCompleted now updated invoice paidSum

def applyCompletedPayment (now : Int) (paymentId : Nat) (verified : VerifyWebhookResult) :
    Sql Payment := do
  let found ← PaymentRepository.findById paymentId
  let current ← require found (.paymentNotFound paymentId)
  PaymentRepository.acquirePaymentAdvisoryLock current.invoiceId
  let found ← PaymentRepository.findById paymentId
  let reread ← require found (.paymentNotFound paymentId)
  if reread.status = .completed ∨ reread.status = .refunded then do
    let touched ← PaymentRepository.updateProviderPayload paymentId
    pure (touched.getD reread)
  else do
    let updated ← PaymentRepository.markCompletedConditional paymentId verified.providerPaymentId now
    match updated with
    | none => do
        -- race lost: another writer made the row terminal
        let after ← PaymentRepository.findById paymentId
        require after (.paymentNotFound paymentId)
    | some updated => do
        settle now updated
        pure updated

def applyFailedPayment (paymentId : Nat) (verified : VerifyWebhookResult) : Sql Payment := do
  let found ← PaymentRepository.findById paymentId
  let current ← require found (.paymentNotFound paymentId)
  PaymentRepository.acquirePaymentAdvisoryLock current.invoiceId
  let found ← PaymentRepository.findById paymentId
  let reread ← require found (.paymentNotFound paymentId)
  if reread.status = .failed ∨ reread.status = .completed ∨ reread.status = .refunded then
    pure reread
  else do
    let updated ← PaymentRepository.markFailedConditional paymentId
    match updated with
    | none => do
        let after ← PaymentRepository.findById paymentId
        require after (.paymentNotFound paymentId)
    | some updated => do
        notify (.paymentFailed updated.id updated.childId updated.invoiceId updated.amount
          updated.provider (verified.failureReason.getD "webhook_failed"))
        pure updated

def applyProviderObservation (paymentId : Nat) : Sql Payment := do
  let found ← PaymentRepository.findById paymentId
  let payment ← require found (.paymentNotFound paymentId)
  PaymentRepository.acquirePaymentAdvisoryLock payment.invoiceId
  let found ← PaymentRepository.findById paymentId
  let reread ← require found (.paymentNotFound paymentId)
  if reread.status = .initiated ∨ reread.status = .processing then do
    let touched ← PaymentRepository.updateProviderPayload paymentId
    pure (touched.getD reread)
  else
    pure reread

/-- The transaction of `processWebhook`, once the signature is verified and the payment
found by `(provider, provider_txn_id)`. -/
def processWebhook (now : Int) (paymentId : Nat) (verified : VerifyWebhookResult) : Sql Payment :=
  if verified.status = .failed then
    applyFailedPayment paymentId verified
  else if verified.status = .processing then
    applyProviderObservation paymentId
  else
    applyCompletedPayment now paymentId verified

def settleFromKaspiPoller (now : Int) (paymentId : Nat) (terminal : VerifyWebhookResult) :
    Sql Payment :=
  if terminal.status = .failed then applyFailedPayment paymentId terminal
  else applyCompletedPayment now paymentId terminal

def settleFromBccReconciliation (now : Int) (paymentId : Nat) (terminal : VerifyWebhookResult) :
    Sql Payment :=
  settleFromKaspiPoller now paymentId terminal

/-- The in-flight Kaspi requests of one payer on one invoice. -/
def supersedable (payerUserId : Nat) (prev : Payment) : Bool :=
  prev.status.inFlight && prev.provider == .kaspiPay && prev.payerUserId == some payerUserId

/-- A re-initiate fails the payer's earlier Kaspi requests.  Cancelling them at Kaspi is a
best-effort outside call. -/
def recallInFlightKaspiForPayer (invoiceId payerUserId : Nat) : Sql Unit := do
  let existing ← PaymentRepository.findByInvoiceId invoiceId
  Prog.forEach (fun prev => do
    if supersedable payerUserId prev then do
      let _ ← PaymentRepository.markFailedConditional prev.id
    else pure ()) existing

inductive PaymentMode
  | full | partial_
  deriving DecidableEq

/-- What `createPayment` of the provider does. -/
inductive ProviderOutcome
  | throws
  | completed (providerPaymentId : Nat)
  | failed
  | initiated (providerPaymentId : Nat)
  deriving DecidableEq

structure InitiatePaymentInput where
  invoiceId : Nat
  amount : Decimal
  paymentMode : PaymentMode
  provider : PaymentProvider
  idempotencyKey : IdempotencyKey
  payerUserId : Option Nat
  /-- `PAYMENT_PROVIDERS` lists the provider. -/
  providerEnabled : Bool
  bccActive : Bool

/-- The checks on the invoice and the amount before any provider call. -/
def checkInitiate (input : InitiatePaymentInput) (invoice : Invoice) (paidSum : Int) : Sql Unit := do
  guardOr (invoice.status != .paid && invoice.status != .refunded) (.invoiceAlreadyPaid invoice.id)
  guardOr invoice.status.unpaid (.invoiceStatusInvalid invoice.status "initiate_payment")
  let remaining := invoice.amountAfterDiscount - paidSum
  let inputAmount := MoneyKzt.fromKzt input.amount
  guardOr (MoneyKzt.isPositive remaining) (.invoiceAlreadyPaid invoice.id)
  guardOr (!(input.paymentMode == .partial_ && invoice.invoiceType.isPrepayment))
    (.prepaymentPartialNotAllowed invoice.id invoice.invoiceType remaining)
  match input.paymentMode with
  | .full =>
      guardOr (inputAmount == remaining)
        (.invoiceStatusInvalid invoice.status "amount_mismatch_full")
  | .partial_ =>
      guardOr (MoneyKzt.isPositive inputAmount && decide (inputAmount ≤ remaining))
        (.invoiceStatusInvalid invoice.status "amount_mismatch_partial")

/-- The row that `initiate` persists before the provider call. -/
def newPayment (id : Nat) (now : Int) (input : InitiatePaymentInput) (invoice : Invoice) : Payment where
  id := id
  invoiceId := invoice.id
  childId := invoice.childId
  payerUserId := input.payerUserId
  amount := MoneyKzt.fromKzt input.amount
  provider := input.provider
  providerTxnId := none
  idempotencyKey := input.idempotencyKey
  status := .initiated
  paidAt := none
  refundId := none
  nextReconciliationAt := none
  manualReviewRequiredAt := none
  refundRequired := false
  refundReason := none
  duplicateOfPaymentId := none
  createdAt := now

/-- `BCC_RECONCILIATION_INITIAL_DELAY_MS`, as it is by default. -/
def bccReconciliationInitialDelayMs : Int := 300000

/-- What `initiate` makes of the provider's answer.  The poll and reconciliation jobs it
enqueues run as requests of their own. -/
def afterProviderCall (now : Int) (input : InitiatePaymentInput) (payment : Payment) :
    ProviderOutcome → Sql Payment
  | .throws => do
      let _ ← PaymentRepository.markFailedConditional payment.id
      Prog.throw (.paymentProvider input.provider)
  | .completed txn => applyCompletedPayment now payment.id ⟨txn, .completed, none⟩
  | .failed => do
      let failed ← PaymentRepository.markFailedConditional payment.id
      pure (failed.getD payment)
  | .initiated txn => do
      let _ ← PaymentRepository.markProcessingConditional payment.id (some txn)
      let refreshed ← PaymentRepository.findById payment.id
      let payment := refreshed.getD payment
      if input.provider = .bcc then do
        let scheduled ← PaymentRepository.scheduleBccReconciliation payment.id
          (payment.createdAt + bccReconciliationInitialDelayMs)
        pure (scheduled.getD payment)
      else
        pure payment

/-- The recall is for Kaspi, and for a payer who is known. -/
def recallBefore (input : InitiatePaymentInput) (invoice : Invoice) : Sql Unit :=
  match input.provider, input.payerUserId with
  | .kaspiPay, some payer => recallInFlightKaspiForPayer invoice.id payer
  | _, _ => pure ()

/-- A lost race for the idempotency key answers the row that won. -/
def createOrWinner (payment : Payment) : Sql (Option Payment) :=
  Prog.tryCatch
    (fun
      | .paymentIdempotencyConflict key => do
          let winner ← PaymentRepository.findByIdempotencyKey key
          let winner ← require winner (.paymentIdempotencyConflict key)
          pure (some winner)
      | e => Prog.throw e)
    (do
      PaymentRepository.create payment
      pure none)

/-- A new payment on a checked invoice: recall, INSERT, provider call. -/
def openPayment (now : Int) (input : InitiatePaymentInput) (outcome : ProviderOutcome)
    (invoice : Invoice) : Sql Payment := do
  recallBefore input invoice
  let paymentId ← Prog.uuid
  let payment := newPayment paymentId now input invoice
  let winner ← createOrWinner payment
  match winner with
  | some winner => pure winner
  | none => afterProviderCall now input payment outcome

def initiate (now : Int) (input : InitiatePaymentInput) (outcome : ProviderOutcome) : Sql Payment := do
  let existing ← PaymentRepository.findByIdempotencyKey input.idempotencyKey
  match existing with
  | some existing => pure existing
  | none => do
      guardOr input.providerEnabled (.providerUnavailable input.provider)
      guardOr (input.provider != .bcc || input.bccActive) .bccNotConnected
      let found ← InvoiceRepository.findById input.invoiceId
      let invoice ← require found (.invoiceNotFound input.invoiceId)
      let paidSum ← InvoiceRepository.getPaidSumForInvoice invoice.id
      checkInitiate input invoice paidSum
      openPayment now input outcome invoice

end PaymentService

end Billing
