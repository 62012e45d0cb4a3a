import Shyraq.Transactions.Runs
import Shyraq.Billing.Entities

/-!
# The billing tables of one kindergarten

Every query of the repositories is scoped to one kindergarten, so a `Store` holds one
kindergarten's rows.  `Write` lists the single-row statements that billing issues; `hit`
and `apply` give their WHERE clauses, the CHECK, UNIQUE and foreign-key constraints, and
the new rows.  The columns `updated_at` and `provider_payload` are left out.
-/

namespace Billing

open Kernel Transactions

/-- `payment.refund_required` reasons. -/
inductive RefundReason
  | doublePayment
  | settledIntoCancelledInvoice
  deriving DecidableEq, Repr

/-- Rows of the notification outbox. -/
inductive Notification
  | paymentCompleted (paymentId childId invoiceId : Nat) (amount : Int)
      (provider : PaymentProvider) (paidAt : Int)
  | invoicePaid (invoiceId childId : Nat) (amountAfterDiscount : Int) (paidAt : Int)
  | paymentFailed (paymentId childId invoiceId : Nat) (amount : Int)
      (provider : PaymentProvider) (failureReason : String)
  | paymentRefundRequired (paymentId : Nat) (duplicateOfPaymentId : Option Nat)
      (invoiceId childId : Nat) (amount : Int) (reason : RefundReason)
      (recipientUserIds : List Nat)
  | invoiceCreated (invoiceId childId : Nat) (invoiceType : InvoiceType)
      (amountAfterDiscount : Int) (dueDate periodStart periodEnd : Int)
  | invoiceCancelled (invoiceId childId : Nat) (reason : Option String)
  | invoiceOverdue (invoiceId childId : Nat) (amountAfterDiscount : Int) (dueDate : Int)
  | refundProcessed (refundId paymentId childId invoiceId : Nat) (amount : Int)
      (processedBy : Option Nat)
  | paymentRefunded (paymentId childId invoiceId : Nat) (amount : Int) (refundId : Nat)
  deriving DecidableEq

/-- What billing reads and other services write. -/
structure Reference where
  children : List Child
  childGuardians : List ChildGuardian
  tariffPlans : List TariffPlan
  tariffAssignments : List TariffAssignment
  holidays : List Holiday
  /-- `user_id`s of the active admins. -/
  admins : List Nat

structure Store where
  reference : Reference
  accounts : List PaymentAccount
  invoices : List Invoice
  lineItems : List InvoiceLineItem
  payments : List Payment
  refunds : List Refund
  customDiscounts : List CustomDiscount
  applications : List CustomDiscountApplication
  outbox : List Notification

/-- Row locks, entries of unique indexes and the advisory locks. -/
inductive Key
  | row (id : Nat)
  | idempotency (key : IdempotencyKey)
  | accountOf (childId : Nat)
  /-- `billing:payment:<kg>:<invoiceId>`. -/
  | payment (invoiceId : Nat)
  /-- `billing:refund:<kg>:<refundId>`. -/
  | refund (refundId : Nat)
  /-- `billing:account:<accountId>`. -/
  | balance (accountId : Nat)
  /-- `billing:prepayment:<kg>:<childId>`. -/
  | prepayment (childId : Nat)
  /-- `billing:monthly:<kg>:<month>`. -/
  | monthly (month : Int)
  /-- `billing:overdue:<kg>:<today>`. -/
  | overdue (today : Int)
  /-- `discount:apply:<kg>:<childId>:<discountId>`. -/
  | discountApply (childId discountId : Nat)
  /-- `billing:pro-rata:<kg>:<childId>`. -/
  | proRata (childId : Nat)
  deriving DecidableEq

/-- What a reconciliation tick does to a payment that waits for BCC. -/
inductive ReconciliationPatch
  | claim (now leaseUntil : Int)
  | manualReview (now : Int)
  deriving DecidableEq

inductive Write
  | insertAccount (a : PaymentAccount)
  | saveAccount (id : Nat) (balance : Int)
  | insertInvoice (i : Invoice)
  | insertLineItem (li : InvoiceLineItem)
  | markInvoice (id : Nat) (flip : InvoiceFlip)
  | insertPayment (p : Payment)
  | markPayment (id : Nat) (patch : PaymentPatch)
  /-- `updateProviderPayload`: the payload is left out, the row lock is not. -/
  | touchPayment (id : Nat)
  | markRefundRequired (id : Nat) (reason : RefundReason) (duplicateOf : Nat)
  | scheduleBccReconciliation (id : Nat) (nextAt : Int)
  | reconcile (id : Nat) (patch : ReconciliationPatch)
  | insertRefund (r : Refund)
  | markRefund (id : Nat) (patch : RefundPatch)
  | tryReserveUsage (id : Nat)
  | releaseUsage (id : Nat)
  | insertApplication (a : CustomDiscountApplication)
  /-- `SELECT … FOR UPDATE` of a child that is not archived. -/
  | lockActiveChild (id : Nat)
  | notify (n : Notification)
  /-- Other services committed changes to what billing only reads. -/
  | setReference (r : Reference)

namespace ReconciliationPatch

def set (f : ReconciliationPatch) (p : Payment) : Payment :=
  match f with
  | claim _ leaseUntil =>
      { p with
        reconciliationAttempts := p.reconciliationAttempts + 1
        nextReconciliationAt := some leaseUntil }
  | manualReview now => { p with manualReviewRequiredAt := some now, nextReconciliationAt := none }

@[simp] theorem id_set (f : ReconciliationPatch) (p : Payment) : (f.set p).id = p.id := by
  cases f <;> rfl

theorem step (f : ReconciliationPatch) (p : Payment) : Payment.Step p (f.set p) := by
  cases f <;> exact ⟨rfl, rfl, rfl, rfl, rfl, rfl, rfl, p.status.reaches_refl⟩

end ReconciliationPatch

namespace RefundReason

def text : RefundReason → String
  | doublePayment => "double_payment"
  | settledIntoCancelledInvoice => "settled_into_cancelled_invoice"

end RefundReason

namespace Store

/-- A random UUID that no row has yet. -/
def absent (s : Store) (i : Nat) : Bool :=
  (Table.find s.accounts i).isNone && (Table.find s.invoices i).isNone &&
  (Table.find s.lineItems i).isNone && (Table.find s.payments i).isNone &&
  (Table.find s.refunds i).isNone && (Table.find s.customDiscounts i).isNone &&
  (Table.find s.applications i).isNone && (Table.find s.reference.children i).isNone &&
  (Table.find s.reference.tariffPlans i).isNone &&
  (Table.find s.reference.tariffAssignments i).isNone

def hasChild (s : Store) (c : Nat) : Bool := (Table.find s.reference.children c).isSome
def hasInvoice (s : Store) (i : Nat) : Bool := (Table.find s.invoices i).isSome
def hasPayment (s : Store) (p : Nat) : Bool := (Table.find s.payments p).isSome

/-- The constraints of `payment_accounts`. -/
def admitsAccount (s : Store) (a : PaymentAccount) : Bool :=
  (Table.find s.accounts a.id).isNone &&
  !s.accounts.any fun b => b.childId == a.childId

/-- The constraints of `invoices`. -/
def admitsInvoice (s : Store) (i : Invoice) : Bool :=
  (Table.find s.invoices i.id).isNone &&
  (Table.find s.accounts i.paymentAccountId).isSome &&
  decide (0 ≤ i.amountDue) && decide (0 ≤ i.amountAfterDiscount) &&
  decide (i.periodStart ≤ i.periodEnd) &&
  i.discountPct.all fun p => decide (0 ≤ p) && decide (p ≤ 100)

/-- The constraints of `invoice_line_items`. -/
def admitsLineItem (s : Store) (li : InvoiceLineItem) : Bool :=
  (Table.find s.lineItems li.id).isNone && s.hasInvoice li.invoiceId &&
  decide (0 < li.quantity) && decide (0 ≤ li.unitPrice) && decide (0 ≤ li.lineTotal)

/-- The constraints of `payments`. -/
def admitsPayment (s : Store) (p : Payment) : Bool :=
  (Table.find s.payments p.id).isNone && s.hasInvoice p.invoiceId &&
  decide (0 < p.amount) && !s.payments.any fun q => q.idempotencyKey == p.idempotencyKey

/-- The constraints of `refunds`. -/
def admitsRefund (s : Store) (r : Refund) : Bool :=
  (Table.find s.refunds r.id).isNone && s.hasPayment r.paymentId &&
  r.invoiceId.all s.hasInvoice && decide (0 < r.amount)

/-- The constraints of `custom_discount_applications`. -/
def admitsApplication (s : Store) (a : CustomDiscountApplication) : Bool :=
  (Table.find s.applications a.id).isNone &&
  (Table.find s.customDiscounts a.customDiscountId).isSome && s.hasInvoice a.invoiceId &&
  decide (0 < a.amountApplied)

/-- `total_max_uses IS NULL OR used_count < total_max_uses`. -/
def hasCapacity (d : CustomDiscount) : Bool := d.totalMaxUses.all fun m => decide (d.usedCount < m)

/-- `provider = 'bcc' AND status = 'processing' AND manual_review_required_at IS NULL`. -/
def bccSchedulable (p : Payment) : Bool :=
  p.provider == .bcc && p.status == .processing && p.manualReviewRequiredAt.isNone

/-- The WHERE clause of the tick's statement. -/
def reconcilable (f : ReconciliationPatch) (p : Payment) : Bool :=
  bccSchedulable p &&
  match f with
  | .claim now _ => p.nextReconciliationAt.any fun due => decide (due ≤ now)
  | .manualReview _ => true

/-- Does the statement match a row?  `children` rows are never deleted, so their foreign
keys are checked here only and not again when the write lands. -/
def hit (s : Store) : Write → Bool
  | .insertAccount a => s.admitsAccount a && s.hasChild a.childId
  | .saveAccount i _ => (Table.find s.accounts i).isSome
  | .insertInvoice i => s.admitsInvoice i && s.hasChild i.childId
  | .insertLineItem li => s.admitsLineItem li
  | .markInvoice i f => (Table.find s.invoices i).any f.accepts
  | .insertPayment p => s.admitsPayment p && s.hasChild p.childId
  | .markPayment i f => (Table.find s.payments i).any f.accepts
  | .touchPayment i => s.hasPayment i
  | .markRefundRequired i _ _ => s.hasPayment i
  | .scheduleBccReconciliation i _ => (Table.find s.payments i).any bccSchedulable
  | .reconcile i f => (Table.find s.payments i).any (reconcilable f)
  | .insertRefund r => s.admitsRefund r
  | .markRefund i f => (Table.find s.refunds i).any f.accepts
  | .tryReserveUsage i => (Table.find s.customDiscounts i).any hasCapacity
  | .releaseUsage i => (Table.find s.customDiscounts i).isSome
  | .insertApplication a => s.admitsApplication a
  | .lockActiveChild i => (Table.find s.reference.children i).any fun c => c.status != .archived
  | .notify _ => true
  | .setReference _ => true

def apply (s : Store) : Write → Store
  | .insertAccount a => { s with
      accounts := if s.admitsAccount a then s.accounts ++ [a] else s.accounts }
  | .saveAccount i b => { s with
      accounts := Table.updateWhere s.accounts i (fun _ => true) fun a => { a with balance := b } }
  | .insertInvoice i => { s with
      invoices := if s.admitsInvoice i then s.invoices ++ [i] else s.invoices }
  | .insertLineItem li => { s with
      lineItems := if s.admitsLineItem li then s.lineItems ++ [li] else s.lineItems }
  | .markInvoice i f => { s with invoices := Table.updateWhere s.invoices i f.accepts f.set }
  | .insertPayment p => { s with
      payments := if s.admitsPayment p then s.payments ++ [p] else s.payments }
  | .markPayment i f => { s with payments := Table.updateWhere s.payments i f.accepts f.set }
  | .touchPayment _ => s
  | .markRefundRequired i reason dup => { s with
      payments := Table.updateWhere s.payments i (fun _ => true) fun p =>
        { p with refundRequired := true, refundReason := some reason.text, duplicateOfPaymentId := some dup } }
  | .scheduleBccReconciliation i at_ => { s with
      payments := Table.updateWhere s.payments i bccSchedulable fun p =>
        { p with nextReconciliationAt := some at_ } }
  | .reconcile i f => { s with payments := Table.updateWhere s.payments i (reconcilable f) f.set }
  | .insertRefund r => { s with
      refunds := if s.admitsRefund r then s.refunds ++ [r] else s.refunds }
  | .markRefund i f => { s with refunds := Table.updateWhere s.refunds i f.accepts f.set }
  | .tryReserveUsage i => { s with
      customDiscounts := Table.updateWhere s.customDiscounts i hasCapacity fun d =>
        { d with usedCount := d.usedCount + 1 } }
  | .releaseUsage i => { s with
      -- GREATEST(used_count - 1, 0)
      customDiscounts := Table.updateWhere s.customDiscounts i (fun _ => true) fun d =>
        { d with usedCount := d.usedCount - 1 } }
  | .insertApplication a => { s with
      applications := if s.admitsApplication a then s.applications ++ [a] else s.applications }
  | .lockActiveChild _ => s
  | .notify n => { s with outbox := s.outbox ++ [n] }
  | .setReference r => { s with reference := r }

def keys : Write → List Key
  | .insertAccount a => [.row a.id, .accountOf a.childId]
  | .saveAccount i _ => [.row i]
  | .insertInvoice i => [.row i.id]
  | .insertLineItem li => [.row li.id]
  | .markInvoice i _ => [.row i]
  | .insertPayment p => [.row p.id, .idempotency p.idempotencyKey]
  | .markPayment i _ | .touchPayment i | .markRefundRequired i _ _
  | .scheduleBccReconciliation i _ | .reconcile i _ => [.row i]
  | .insertRefund r => [.row r.id]
  | .markRefund i _ => [.row i]
  | .tryReserveUsage i | .releaseUsage i => [.row i]
  | .insertApplication a => [.row a.id]
  | .lockActiveChild i => [.row i]
  | .notify _ | .setReference _ => []

instance : Relational Store Key Write where
  keys := keys
  hit := hit
  apply := apply
  rowKey := .row
  absent := absent

end Store

/-- One table per write. -/
inductive TableName
  | accounts | invoices | lineItems | payments | refunds | customDiscounts | applications
  | outbox | reference
  deriving DecidableEq

def Write.table : Write → TableName
  | insertAccount _ | saveAccount .. => .accounts
  | insertInvoice _ | markInvoice .. => .invoices
  | insertLineItem _ => .lineItems
  | insertPayment _ | markPayment .. | touchPayment _ | markRefundRequired ..
  | scheduleBccReconciliation .. | reconcile .. => .payments
  | insertRefund _ | markRefund .. => .refunds
  | tryReserveUsage _ | releaseUsage _ => .customDiscounts
  | insertApplication _ => .applications
  | notify _ => .outbox
  | lockActiveChild _ | setReference _ => .reference

namespace Store

variable (s : Store) (w : Write)

theorem accounts_apply (h : w.table ≠ .accounts) : (s.apply w).accounts = s.accounts := by
  cases w <;> first | rfl | exact absurd rfl h

theorem invoices_apply (h : w.table ≠ .invoices) : (s.apply w).invoices = s.invoices := by
  cases w <;> first | rfl | exact absurd rfl h

theorem payments_apply (h : w.table ≠ .payments) : (s.apply w).payments = s.payments := by
  cases w <;> first | rfl | exact absurd rfl h

theorem refunds_apply (h : w.table ≠ .refunds) : (s.apply w).refunds = s.refunds := by
  cases w <;> first | rfl | exact absurd rfl h

end Store

end Billing
