import Shyraq.Billing.PaymentService
import Shyraq.Billing.InvoiceService
import Shyraq.Billing.RefundService

/-!
# The requests of billing

Each `Op` is one request, one cron tick or one queue job: a transaction of its own, under
READ COMMITTED.  `Op.prog` is its program, `Billing.System` what runs any number of them
at once.
-/

namespace Billing

open Kernel Transactions

/-- Where a provider observation comes from. -/
inductive Entry
  | processWebhook
  | settleFromKaspiPoller
  | settleFromBccReconciliation
  deriving DecidableEq

inductive Op
  /-- A provider observation about a payment. -/
  | deliver (entry : Entry) (now : Int) (paymentId : Nat) (verified : VerifyWebhookResult)
  | initiate (now : Int) (input : PaymentService.InitiatePaymentInput)
      (outcome : PaymentService.ProviderOutcome)
  | manualMarkPaid (now : Int) (invoiceId : Nat) (input : InvoiceService.ManualMarkPaidInput)
  | cancel (invoiceId : Nat) (reason : Option String)
  | markOverdue (now : Int)
  | createRefund (now : Int) (input : RefundService.CreateRefundInput)
  | approveRefund (refundId processedBy : Nat)
  | rejectRefund (refundId : Nat) (reason : String)
  | processRefund (refundId : Nat) (acknowledgeKaspiHistoryChecked : Bool)
      (provider : RefundService.ProviderRefund)
  | proRataRefund (now : Int) (childId : Nat) (archivedAt : Int)
  | createOneOff (now : Int) (input : InvoiceService.CreateOneOffInvoiceInput)
  | generateLatePickup (now : Int) (input : InvoiceService.GenerateLatePickupInvoiceInput)
  | generateMonthly (now periodStart : Int)
  | generateFirstInvoice (now : Int) (childId : Nat) (enrollmentDate : Int)
  | prepayInvoice (now : Int) (childId : Nat) (months : PrepaymentMonths)
  /-- Another service changes what billing only reads. -/
  | elsewhere (reference : Reference)

/-- What a request answers. -/
inductive Answer
  | payment (p : Payment)
  | invoice (i : Invoice)
  | refund (r : Refund)
  | overdue (ids : List Nat)
  | monthly (r : InvoiceService.GenerateMonthlyResult)
  | proRata (r : ProRataRefundProcessor.ProRataRefundOutcome)
  | done

/-- An observation arrives through one of the three entry points. -/
def deliver (now : Int) (paymentId : Nat) (verified : VerifyWebhookResult) : Entry → Sql Payment
  | .processWebhook => PaymentService.processWebhook now paymentId verified
  | .settleFromKaspiPoller => PaymentService.settleFromKaspiPoller now paymentId verified
  | .settleFromBccReconciliation => PaymentService.settleFromBccReconciliation now paymentId verified

def Op.prog : Op → Sql Answer
  | deliver entry now p v => do
      let r ← Billing.deliver now p v entry
      pure (.payment r)
  | initiate now input outcome => do
      let r ← PaymentService.initiate now input outcome
      pure (.payment r)
  | manualMarkPaid now i input => do
      let r ← InvoiceService.manualMarkPaid now i input
      pure (.invoice r)
  | cancel i reason => do
      let r ← InvoiceService.cancel i reason
      pure (.invoice r)
  | markOverdue now => do
      let r ← OverdueInvoiceProcessor.runForKindergarten now
      pure (.overdue r)
  | createRefund now input => do
      let r ← RefundService.create now input
      pure (.refund r)
  | approveRefund id staff => do
      let r ← RefundService.approve id staff
      pure (.refund r)
  | rejectRefund id reason => do
      let r ← RefundService.reject id reason
      pure (.refund r)
  | processRefund id ack provider => do
      let r ← RefundService.process id ack provider
      pure (.refund r)
  | proRataRefund now c archivedAt => do
      let r ← ProRataRefundProcessor.computeAndCreate now c archivedAt
      pure (.proRata r)
  | createOneOff now input => do
      let r ← InvoiceService.createOneOff now input
      pure (.invoice r)
  | generateLatePickup now input => do
      let r ← InvoiceService.generateLatePickupInvoice now input
      pure (.invoice r)
  | generateMonthly now p => do
      let r ← InvoiceService.generateMonthly now p
      pure (.monthly r)
  | generateFirstInvoice now c d => do
      let r ← InvoiceService.generateFirstInvoice now c d
      pure (.invoice r)
  | prepayInvoice now c months => do
      let r ← InvoiceService.prepayInvoice now c months
      pure (.invoice r)
  | elsewhere r => do
      let _ ← Prog.update (.setReference r)
      pure .done

/-- Up to `n` billing transactions at once. -/
abbrev System (n : Nat) := Transactions.System Store Key Write BillingError Op Answer n

/-- A schedule of billing requests. -/
abbrev Schedule (n : Nat) := List (Choice Op n)

abbrev BillingCommit := Commit Store Key Write Op Answer

/-- The state after a schedule, from a committed store. -/
def run {n : Nat} (s : Store) (cs : Schedule n) : Option (System n) :=
  (System.init s).exec Op.prog cs

/-! ## Schedules by hand -/

/-- `k` statements of session `i`, which draws `id` when it asks for one. -/
def steps {n : Nat} (i : Fin n) (k id : Nat) : Schedule n := List.replicate k (.step i id)

/-- A request that runs through with nothing in between. -/
def request {n : Nat} (i : Fin n) (op : Op) (k id : Nat) : Schedule n := .start i op :: steps i k id

section
variable {n : Nat} {Allowed : Op → Prop} {s : Store} {cs cs' : Schedule n}

theorem starts_nil : System.Starts Allowed ([] : Schedule n) := fun _ _ h => absurd h List.not_mem_nil

theorem starts_steps (i : Fin n) (k id : Nat) (h : System.Starts Allowed cs) :
    System.Starts Allowed (steps i k id ++ cs) := by
  intro j op hm
  rcases List.mem_append.1 hm with hm | hm
  · cases List.eq_of_mem_replicate hm
  · exact h j op hm

theorem starts_cons (i : Fin n) {op : Op} (hop : Allowed op) (h : System.Starts Allowed cs) :
    System.Starts Allowed (.start i op :: cs) := by
  intro j op' hm
  rcases List.mem_cons.1 hm with he | hm
  · cases he
    exact hop
  · exact h j op' hm

theorem starts_request (i : Fin n) {op : Op} (k id : Nat) (hop : Allowed op)
    (h : System.Starts Allowed cs) : System.Starts Allowed (request i op k id ++ cs) :=
  starts_cons i hop (starts_steps i k id h)

end

/-- A kindergarten without any rows. -/
def Store.empty : Store where
  reference := ⟨[], [], [], [], [], []⟩
  accounts := []
  invoices := []
  lineItems := []
  payments := []
  refunds := []
  customDiscounts := []
  applications := []
  outbox := []

/-- One child with its account and one open invoice, and one admin. -/
def Store.oneInvoice (invoiceType : InvoiceType) (amount : Int) : Store :=
  { Store.empty with
    reference := ⟨[⟨1, .active, 0, none⟩], [], [], [], [], [90]⟩
    accounts := [⟨10, 1, 0⟩]
    invoices := [⟨20, 1, 10, none, invoiceType, 0, 30, amount, none, none, amount, .pending, 100, none, 0⟩] }

/-- A gateway payment on that invoice, under way. -/
def gatewayPayment (id : Nat) (amount : Int) : Payment where
  id := id
  invoiceId := 20
  childId := 1
  payerUserId := some 2
  amount := amount
  provider := .kaspiPay
  providerTxnId := some id
  idempotencyKey := .client id
  status := .processing
  paidAt := none
  refundId := none
  nextReconciliationAt := none
  manualReviewRequiredAt := none
  refundRequired := false
  refundReason := none
  duplicateOfPaymentId := none
  createdAt := 0

/-- An invoice of 1000, paid by these payments. -/
def Store.paidInvoice (payments : List Payment) : Store :=
  { Store.oneInvoice .other 1000 with
    accounts := [⟨10, 1, 1000⟩]
    invoices := [⟨20, 1, 10, none, .other, 0, 30, 1000, none, none, 1000, .paid, 100, none, 0⟩]
    payments := payments }

def completedPayment (id amount : Nat) : Payment :=
  { gatewayPayment id amount with status := .completed, paidAt := some 5 }

/-- A refund of the payment, approved, and the rest of the schedule. -/
def approvedRefund {n : Nat} (i : Fin n) (id paymentId : Nat) (amount : Decimal) (cs : Schedule n) :
    Schedule n :=
  request i (.createRefund 6 ⟨paymentId, amount, "returned"⟩) 4 id ++
    (request i (.approveRefund id 90) 3 0 ++ cs)

theorem starts_approvedRefund {n : Nat} {Allowed : Op → Prop} (i : Fin n) (id paymentId : Nat)
    (amount : Decimal) (hc : ∀ now input, Allowed (.createRefund now input))
    (ha : ∀ id staff, Allowed (.approveRefund id staff)) {cs : Schedule n}
    (h : System.Starts Allowed cs) : System.Starts Allowed (approvedRefund i id paymentId amount cs) :=
  starts_request i 4 id (hc _ _) (starts_request i 3 0 (ha _ _) h)

end Billing
