import Mathlib.Data.List.Sort
import Shyraq.Billing.Store

/-!
# The repositories

The SELECTs, conditional UPDATEs and advisory locks of the billing repositories, as
transaction programs.  A conditional UPDATE answers the re-read row, or `none` when no
row matched.
-/

namespace Billing

open Kernel Transactions

/-- The errors that billing throws. -/
inductive BillingError
  | invoiceNotFound (id : Nat)
  | invoiceAlreadyPaid (id : Nat)
  | invoiceStatusInvalid (status : InvoiceStatus) (operation : String)
  | paymentNotFound (id : Nat)
  | paymentStatusInvalid (status : PaymentStatus) (operation : String)
  | paymentIdempotencyConflict (key : IdempotencyKey)
  | paymentProvider (provider : PaymentProvider)
  | providerUnavailable (provider : PaymentProvider)
  | bccNotConnected
  | prepaymentPartialNotAllowed (id : Nat) (invoiceType : InvoiceType) (remaining : Int)
  | prepaymentBlockedOutstandingDebt (outstanding : Int)
  | prepaymentBlockedPartialPrepayment (id : Nat) (paidAmount : Int)
  | prepaymentBlockedWindowOverlap (coveredMonths : List Int)
  | prepaymentHorizonNotConfigured
  | tariffAssignmentNotFound (childId : Nat)
  | tariffPlanNotFound (id : Nat)
  | tariffPlanOfTypeNotFound (type : InvoiceType)
  | childArchivedDuringRun (childId : Nat)
  | childNotYetArchived (childId : Nat)
  | paymentAccountNotFound (id : Nat)
  | refundNotFound (id : Nat)
  | refundAlreadyProcessed (status : RefundStatus) (operation : String)
  | kaspiRefundHistoryAckRequired
  | invariantViolation (code : String)
  /-- A plain `Error`: a violated constraint, a non-positive ledger amount, a mismatch. -/
  | internal (message : String)

/-- A billing transaction, or a part of one. -/
abbrev Sql (A : Type) := Prog Store Key Write BillingError A

/-- `if (!c) throw e`. -/
def guardOr (c : Bool) (e : BillingError) : Sql Unit := if c then .ret () else .throw e

/-- `if (!o) throw e`. -/
def require {A : Type} (o : Option A) (e : BillingError) : Sql A :=
  match o with
  | some a => .ret a
  | none => .throw e

/-- An INSERT; a violated constraint throws. -/
def insertOr (w : Write) (e : BillingError) : Sql Unit := do
  let inserted ← Prog.update w
  guardOr inserted e

/-- A conditional UPDATE, then the row read back. -/
def returning {R : Type} (w : Write) (row : Store → Option R) : Sql (Option R) := do
  let matched ← Prog.update w
  if matched then Prog.query row else pure none

/-- `ORDER BY`, ties in table order. -/
def orderBy {R : Type} (le : R → R → Bool) (rows : List R) : List R :=
  rows.insertionSort fun a b => le a b = true

/-! ## What a SELECT finds -/

namespace Store

/-- `SUM(amount)` of the completed payments of an invoice. -/
def paidSum (s : Store) (invoiceId : Nat) : Int :=
  Table.total Payment.amount
    (s.payments.filter fun p => p.invoiceId == invoiceId && p.status == .completed)

/-- `SUM(amount)` of the processed refunds of an invoice. -/
def processedRefundsSum (s : Store) (invoiceId : Nat) : Int :=
  Table.total Refund.amount
    (s.refunds.filter fun r => r.invoiceId == some invoiceId && r.status == .processed)

def invoice? (s : Store) (id : Nat) : Option Invoice := Table.find s.invoices id
def payment? (s : Store) (id : Nat) : Option Payment := Table.find s.payments id
def refund? (s : Store) (id : Nat) : Option Refund := Table.find s.refunds id
def account? (s : Store) (id : Nat) : Option PaymentAccount := Table.find s.accounts id
def child? (s : Store) (id : Nat) : Option Child := Table.find s.reference.children id

def accountOfChild (s : Store) (childId : Nat) : Option PaymentAccount :=
  s.accounts.find? fun a => a.childId == childId

def paymentByKey (s : Store) (key : IdempotencyKey) : Option Payment :=
  s.payments.find? fun p => p.idempotencyKey == key

end Store

namespace InvoiceRepository

def findById (id : Nat) : Sql (Option Invoice) := Prog.query fun s => s.invoice? id

/-- The INSERT of an invoice and of its line items. -/
def create (invoice : Invoice) (lineItems : List InvoiceLineItem) : Sql Invoice := do
  insertOr (.insertInvoice invoice) (.internal "invoices")
  Prog.forEach (fun li => insertOr (.insertLineItem li) (.internal "invoice_line_items")) lineItems
  pure invoice

/-- `period_start = P AND invoice_type = 'monthly'`, over the whole kindergarten. -/
def existsMonthlyForPeriod (periodStart : Int) : Sql Bool :=
  Prog.query fun s => s.invoices.any fun i =>
    i.periodStart == periodStart && i.invoiceType == .monthly

def getPaidSumForInvoice (id : Nat) : Sql Int := Prog.query fun s => s.paidSum id

/-- One SELECT for many invoices; an invoice without completed payments reads 0. -/
def getPaidSumsForInvoices : Sql (Nat → Int) := Prog.query fun s => s.paidSum

def markConditional (id : Nat) (flip : InvoiceFlip) : Sql (Option Invoice) :=
  returning (.markInvoice id flip) fun s => s.invoice? id

def markPaidConditional (id : Nat) : Sql (Option Invoice) := markConditional id .paid
def markPartialConditional (id : Nat) : Sql (Option Invoice) := markConditional id .partial_
def markCancelledConditional (id : Nat) : Sql (Option Invoice) := markConditional id .cancelled
def markRefundedConditional (id : Nat) : Sql (Option Invoice) := markConditional id .refunded

def markOverdueRows (today : Int) : List Invoice → Sql (List Invoice)
  | [] => pure []
  | i :: rest => do
      let flipped ← Prog.update (.markInvoice i.id (.overdue today))
      let others ← markOverdueRows today rest
      pure (if flipped then i :: others else others)

/-- The batch UPDATE: the rows its snapshot matches, each checked again under its lock.
The flipped rows are returned. -/
def markOverdueBatch (today : Int) : Sql (List Invoice) := do
  let due ← Prog.query fun s => s.invoices.filter (InvoiceFlip.overdue today).accepts
  markOverdueRows today due

def acquireMonthlyGenerationAdvisoryLock (periodStart : Int) : Sql Unit :=
  Prog.acquire (.monthly (monthOf periodStart))

def acquireOverdueRunAdvisoryLock (today : Int) : Sql Unit := Prog.acquire (.overdue today)

def acquireChildPrepaymentAdvisoryLock (childId : Nat) : Sql Unit :=
  Prog.acquire (.prepayment childId)

def findByChildId (childId : Nat) : Sql (List Invoice) :=
  Prog.query fun s => s.invoices.filter fun i => i.childId == childId

def findUnpaidNonPrepaymentByChild (childId : Nat) : Sql (List Invoice) :=
  Prog.query fun s => s.invoices.filter fun i =>
    i.childId == childId && i.status.unpaid && !i.invoiceType.isPrepayment

def findPaidPrepaymentsByChild (childId : Nat) (periodEndFrom : Int) : Sql (List Invoice) :=
  Prog.query fun s => orderBy (fun a b => decide (a.periodStart ≤ b.periodStart))
    (s.invoices.filter fun i =>
      i.childId == childId && i.invoiceType.isPrepayment && i.status == .paid &&
      decide (periodEndFrom ≤ i.periodEnd))

def listChildIdsWithPaidPrepaymentCovering (periodStart : Int) : Sql (List Nat) :=
  Prog.query fun s => ((s.invoices.filter fun i =>
    i.invoiceType.isPrepayment && i.status == .paid && decide (i.periodStart ≤ periodStart) &&
    decide (periodStart ≤ i.periodEnd)).map Invoice.childId).dedup

def findMonthlyInWindow (childId : Nat) (windowStart windowEnd : Int) : Sql (List Invoice) :=
  Prog.query fun s => orderBy (fun a b => decide (a.periodStart ≤ b.periodStart))
    (s.invoices.filter fun i =>
      i.childId == childId && i.invoiceType == .monthly && i.status.live &&
      decide (windowStart ≤ i.periodStart) && decide (i.periodStart ≤ windowEnd))

def findUnpaidPrepaymentsByChild (childId : Nat) : Sql (List Invoice) :=
  Prog.query fun s => orderBy (fun a b => decide (a.createdAt ≤ b.createdAt))
    (s.invoices.filter fun i => i.childId == childId && i.invoiceType.isPrepayment && i.status.unpaid)

end InvoiceRepository

namespace PaymentRepository

def acquirePaymentAdvisoryLock (invoiceId : Nat) : Sql Unit := Prog.acquire (.payment invoiceId)

/-- The INSERT, inside a savepoint; a taken idempotency key throws. -/
def create (payment : Payment) : Sql Unit :=
  insertOr (.insertPayment payment) (.paymentIdempotencyConflict payment.idempotencyKey)

def findById (id : Nat) : Sql (Option Payment) := Prog.query fun s => s.payment? id

def findByIdempotencyKey (key : IdempotencyKey) : Sql (Option Payment) :=
  Prog.query fun s => s.paymentByKey key

/-- `ORDER BY created_at DESC`. -/
def findByInvoiceId (invoiceId : Nat) : Sql (List Payment) :=
  Prog.query fun s => orderBy (fun a b => decide (b.createdAt ≤ a.createdAt))
    (s.payments.filter fun p => p.invoiceId == invoiceId)

def findByProviderTxnId (provider : PaymentProvider) (txn : Nat) : Sql (Option Payment) :=
  Prog.query fun s => s.payments.find? fun p => p.provider == provider && p.providerTxnId == some txn

def markConditional (id : Nat) (patch : PaymentPatch) : Sql (Option Payment) :=
  returning (.markPayment id patch) fun s => s.payment? id

def markCompletedConditional (id : Nat) (txn : Nat) (paidAt : Int) : Sql (Option Payment) :=
  markConditional id (.completed txn paidAt)

def markFailedConditional (id : Nat) : Sql (Option Payment) := markConditional id .failed

def markProcessingConditional (id : Nat) (txn : Option Nat) : Sql (Option Payment) :=
  markConditional id (.processing txn)

def markRefundedConditional (id : Nat) (refundId : Nat) : Sql (Option Payment) :=
  markConditional id (.refunded refundId)

def updateProviderPayload (id : Nat) : Sql (Option Payment) :=
  returning (.touchPayment id) fun s => s.payment? id

def markRefundRequired (id : Nat) (reason : RefundReason) (duplicateOf : Nat) :
    Sql (Option Payment) :=
  returning (.markRefundRequired id reason duplicateOf) fun s => s.payment? id

def scheduleBccReconciliation (id : Nat) (nextAt : Int) : Sql (Option Payment) :=
  returning (.scheduleBccReconciliation id nextAt) fun s => s.payment? id

end PaymentRepository

namespace RefundRepository

def create (refund : Refund) : Sql Refund := do
  insertOr (.insertRefund refund) (.internal "refunds")
  pure refund

def findById (id : Nat) : Sql (Option Refund) := Prog.query fun s => s.refund? id

def acquireRefundProcessAdvisoryLock (id : Nat) : Sql Unit := Prog.acquire (.refund id)

def getProcessedRefundsSumForInvoice (invoiceId : Nat) : Sql Int :=
  Prog.query fun s => s.processedRefundsSum invoiceId

def markConditional (id : Nat) (patch : RefundPatch) : Sql (Option Refund) :=
  returning (.markRefund id patch) fun s => s.refund? id

def markApprovedConditional (id processedBy : Nat) : Sql (Option Refund) :=
  markConditional id (.approved processedBy)

def markRejectedConditional (id : Nat) (reason : String) : Sql (Option Refund) :=
  markConditional id (.rejected reason)

def markProcessedConditional (id : Nat) (providerRef : Option Nat) : Sql (Option Refund) :=
  markConditional id (.processed providerRef)

end RefundRepository

namespace PaymentAccountRepository

/-- `INSERT … ON CONFLICT DO NOTHING` between two reads. -/
def findOrCreateForChild (childId : Nat) : Sql PaymentAccount := do
  let existing ← Prog.query fun s => s.accountOfChild childId
  match existing with
  | some a => pure a
  | none => do
      let id ← Prog.uuid
      let _ ← Prog.update (.insertAccount ⟨id, childId, 0⟩)
      let after ← Prog.query fun s => s.accountOfChild childId
      require after (.internal "payment_account_readback_failed")

def findById (id : Nat) : Sql (Option PaymentAccount) := Prog.query fun s => s.account? id

def save (a : PaymentAccount) : Sql Unit := do
  let _ ← Prog.update (.saveAccount a.id a.balance)

def acquireBalanceAdvisoryLock (id : Nat) : Sql Unit := Prog.acquire (.balance id)

end PaymentAccountRepository

/-- `NotificationPort`: an outbox row in the same transaction. -/
def notify (n : Notification) : Sql Unit := do
  let _ ← Prog.update (.notify n)

end Billing
