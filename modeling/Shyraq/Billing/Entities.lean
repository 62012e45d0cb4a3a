import Shyraq.Kernel.Calendar
import Shyraq.Kernel.MoneyKzt
import Shyraq.Transactions.Table

/-!
# Billing rows and their state machines

The columns that billing reads.  Money columns are whole tiyn, `date` columns UTC days,
timestamps milliseconds.  Ids of users, texts chosen by people and provider references
are opaque numbers.

Each conditional status UPDATE of the repositories is a member of `InvoiceFlip`,
`PaymentPatch` or `RefundPatch`, with the source statuses it accepts.
-/

namespace Billing

open Kernel Transactions

/-! ## Invoices -/

inductive PrepaymentMonths
  | m3 | m6 | m12 | m24
  deriving DecidableEq, Repr

def PrepaymentMonths.count : PrepaymentMonths → Nat
  | m3 => 3
  | m6 => 6
  | m12 => 12
  | m24 => 24

inductive InvoiceType
  | monthly
  | prepayment (months : PrepaymentMonths)
  | additionalService
  | latePickupFee
  | other
  deriving DecidableEq, Repr

/-- `invoiceType.startsWith('prepayment_')`. -/
def InvoiceType.isPrepayment : InvoiceType → Bool
  | prepayment _ => true
  | _ => false

inductive InvoiceStatus
  | pending | partial_ | paid | overdue | refunded | cancelled
  deriving DecidableEq, Repr

structure Invoice where
  id : Nat
  childId : Nat
  paymentAccountId : Nat
  tariffPlanId : Option Nat
  invoiceType : InvoiceType
  periodStart : Int
  periodEnd : Int
  amountDue : Int
  discountPct : Option Decimal
  discountReason : Option String
  amountAfterDiscount : Int
  status : InvoiceStatus
  dueDate : Int
  proratedForDays : Option Int
  createdAt : Int
  deriving DecidableEq

instance : Row Invoice := ⟨Invoice.id⟩

structure InvoiceLineItem where
  id : Nat
  invoiceId : Nat
  tariffPlanId : Option Nat
  quantity : Decimal
  unitPrice : Int
  lineTotal : Int
  createdAt : Int
  deriving DecidableEq

instance : Row InvoiceLineItem := ⟨InvoiceLineItem.id⟩

/-- `status IN ('pending', 'partial', 'overdue')`. -/
def InvoiceStatus.unpaid : InvoiceStatus → Bool
  | .pending | .partial_ | .overdue => true
  | _ => false

/-- `status NOT IN ('cancelled', 'refunded')`. -/
def InvoiceStatus.live : InvoiceStatus → Bool
  | .cancelled | .refunded => false
  | _ => true

inductive InvoiceFlip
  | paid
  | partial_
  | cancelled
  | refunded
  /-- One row of `markOverdueBatch`, with the local calendar day. -/
  | overdue (today : Int)
  deriving DecidableEq

namespace InvoiceFlip

def next : InvoiceFlip → InvoiceStatus
  | paid => .paid
  | partial_ => .partial_
  | cancelled => .cancelled
  | refunded => .refunded
  | overdue _ => .overdue

/-- The WHERE clause of the flip. -/
def accepts (f : InvoiceFlip) (i : Invoice) : Bool :=
  match f with
  | paid | cancelled => i.status.unpaid
  | partial_ => i.status == .pending || i.status == .overdue
  | refunded => i.status == .paid || i.status == .partial_
  | overdue today => (i.status == .pending || i.status == .partial_) && decide (i.dueDate < today)

def set (f : InvoiceFlip) (i : Invoice) : Invoice := { i with status := f.next }

end InvoiceFlip

/-- What the flips can make of a status, one after the other. -/
def InvoiceStatus.reaches : InvoiceStatus → InvoiceStatus → Bool
  | .pending, _ => true
  | .partial_, .pending | .overdue, .pending => false
  | .partial_, _ | .overdue, _ => true
  | .paid, .paid | .paid, .refunded => true
  | .paid, _ => false
  | .refunded, .refunded | .cancelled, .cancelled => true
  | .refunded, _ | .cancelled, _ => false

theorem InvoiceStatus.reaches_refl (a : InvoiceStatus) : a.reaches a = true := by
  cases a <;> rfl

theorem InvoiceStatus.reaches_trans {a b c : InvoiceStatus} (h₁ : a.reaches b = true)
    (h₂ : b.reaches c = true) : a.reaches c = true := by
  revert h₁ h₂
  cases a <;> cases b <;> cases c <;> simp [reaches]

theorem InvoiceFlip.reaches_next {f : InvoiceFlip} {i : Invoice} (h : f.accepts i = true) :
    i.status.reaches f.next = true := by
  cases f <;> cases hs : i.status <;> simp [accepts, hs, InvoiceStatus.unpaid] at h <;> rfl

/-- An invoice row as it may be later: only its status moves. -/
def Invoice.Step (i i' : Invoice) : Prop :=
  i' = { i with status := i'.status } ∧ i.status.reaches i'.status = true

theorem Invoice.Step.refl (i : Invoice) : Invoice.Step i i := ⟨rfl, i.status.reaches_refl⟩

theorem Invoice.Step.trans {a b c : Invoice} (h₁ : Invoice.Step a b) (h₂ : Invoice.Step b c) : Invoice.Step a c := by
  refine ⟨?_, InvoiceStatus.reaches_trans h₁.2 h₂.2⟩
  rw [h₂.1, h₁.1]

theorem InvoiceFlip.step {f : InvoiceFlip} {i : Invoice} (h : f.accepts i = true) :
    Invoice.Step i (f.set i) := ⟨rfl, reaches_next h⟩

/-! ## Payments -/

inductive PaymentProvider
  | mock | halykEpay | kaspiPay | tiptoppay | freedomPay | bcc | cash
  deriving DecidableEq, Repr

inductive PaymentStatus
  | initiated | processing | completed | failed | refunded
  deriving DecidableEq, Repr

/-- Keys chosen by clients, and the `cash:<invoiceId>:<isoTimestamp>` keys. -/
inductive IdempotencyKey
  | client (key : Nat)
  | cash (invoiceId : Nat) (now : Int)
  deriving DecidableEq, Repr

structure Payment where
  id : Nat
  invoiceId : Nat
  childId : Nat
  payerUserId : Option Nat
  amount : Int
  provider : PaymentProvider
  providerTxnId : Option Nat
  idempotencyKey : IdempotencyKey
  status : PaymentStatus
  paidAt : Option Int
  refundId : Option Nat
  nextReconciliationAt : Option Int
  manualReviewRequiredAt : Option Int
  refundRequired : Bool
  refundReason : Option String
  duplicateOfPaymentId : Option Nat
  createdAt : Int
  reconciliationAttempts : Nat := 0
  deriving DecidableEq

instance : Row Payment := ⟨Payment.id⟩

/-- `status IN ('initiated', 'processing')`. -/
def PaymentStatus.inFlight : PaymentStatus → Bool
  | .initiated | .processing => true
  | _ => false

inductive PaymentPatch
  | completed (providerTxnId : Nat) (paidAt : Int)
  | failed
  | processing (providerTxnId : Option Nat)
  | refunded (refundId : Nat)
  deriving DecidableEq

namespace PaymentPatch

def next : PaymentPatch → PaymentStatus
  | completed .. => .completed
  | failed => .failed
  | processing _ => .processing
  | refunded _ => .refunded

def accepts (f : PaymentPatch) (p : Payment) : Bool :=
  match f with
  | completed .. | failed => p.status.inFlight
  | processing _ => p.status == .initiated
  | refunded _ => p.status == .completed

def set (f : PaymentPatch) (p : Payment) : Payment :=
  match f with
  | completed txn paidAt =>
      { p with
        status := .completed
        providerTxnId := some txn
        paidAt := some paidAt
        nextReconciliationAt := none }
  | failed => { p with status := .failed, nextReconciliationAt := none }
  | processing txn => { p with status := .processing, providerTxnId := txn.orElse fun _ => p.providerTxnId }
  | refunded r => { p with status := .refunded, refundId := some r }

end PaymentPatch

def PaymentStatus.reaches : PaymentStatus → PaymentStatus → Bool
  | .initiated, _ => true
  | .processing, .initiated => false
  | .processing, _ => true
  | .completed, .completed | .completed, .refunded => true
  | .completed, _ => false
  | .failed, .failed | .refunded, .refunded => true
  | .failed, _ | .refunded, _ => false

theorem PaymentStatus.reaches_refl (a : PaymentStatus) : a.reaches a = true := by
  cases a <;> rfl

theorem PaymentStatus.reaches_trans {a b c : PaymentStatus} (h₁ : a.reaches b = true)
    (h₂ : b.reaches c = true) : a.reaches c = true := by
  revert h₁ h₂
  cases a <;> cases b <;> cases c <;> simp [reaches]

theorem inFlight_of_reaches {a b : PaymentStatus} (h : a.reaches b = true)
    (ha : a.inFlight = false) : b.inFlight = false := by
  revert h ha
  cases a <;> cases b <;> simp [PaymentStatus.reaches, PaymentStatus.inFlight]

/-- A payment row as it may be later. -/
structure Payment.Step (p p' : Payment) : Prop where
  id : p'.id = p.id
  invoiceId : p'.invoiceId = p.invoiceId
  childId : p'.childId = p.childId
  amount : p'.amount = p.amount
  provider : p'.provider = p.provider
  idempotencyKey : p'.idempotencyKey = p.idempotencyKey
  createdAt : p'.createdAt = p.createdAt
  status : p.status.reaches p'.status = true

theorem Payment.Step.refl (p : Payment) : Payment.Step p p :=
  ⟨rfl, rfl, rfl, rfl, rfl, rfl, rfl, p.status.reaches_refl⟩

theorem Payment.Step.trans {a b c : Payment} (h₁ : Payment.Step a b) (h₂ : Payment.Step b c) :
    Payment.Step a c :=
  ⟨h₂.id.trans h₁.id, h₂.invoiceId.trans h₁.invoiceId, h₂.childId.trans h₁.childId,
    h₂.amount.trans h₁.amount, h₂.provider.trans h₁.provider,
    h₂.idempotencyKey.trans h₁.idempotencyKey, h₂.createdAt.trans h₁.createdAt,
    PaymentStatus.reaches_trans h₁.status h₂.status⟩

@[simp] theorem PaymentPatch.id_set (f : PaymentPatch) (p : Payment) : (f.set p).id = p.id := by
  cases f <;> rfl

@[simp] theorem PaymentPatch.status_set (f : PaymentPatch) (p : Payment) : (f.set p).status = f.next := by
  cases f <;> rfl

theorem PaymentPatch.step {f : PaymentPatch} {p : Payment} (h : f.accepts p = true) : Payment.Step p (f.set p) := by
  have hr : p.status.reaches f.next = true := by
    cases f <;> cases hs : p.status <;> simp [accepts, hs, PaymentStatus.inFlight] at h <;> rfl
  rw [← f.status_set p] at hr
  cases f <;> exact ⟨rfl, rfl, rfl, rfl, rfl, rfl, rfl, hr⟩

/-! ## Refunds -/

inductive RefundStatus
  | pending | approved | rejected | processed
  deriving DecidableEq, Repr

structure Refund where
  id : Nat
  paymentId : Nat
  invoiceId : Option Nat
  amount : Int
  reason : String
  status : RefundStatus
  processedBy : Option Nat
  providerRef : Option Nat
  createdAt : Int
  deriving DecidableEq

instance : Row Refund := ⟨Refund.id⟩

inductive RefundPatch
  | approved (processedBy : Nat)
  | rejected (reason : String)
  | processed (providerRef : Option Nat)
  deriving DecidableEq

namespace RefundPatch

def next : RefundPatch → RefundStatus
  | approved _ => .approved
  | rejected _ => .rejected
  | processed _ => .processed

def accepts (f : RefundPatch) (r : Refund) : Bool :=
  match f with
  | approved _ | rejected _ => r.status == .pending
  | processed _ => r.status == .approved

def set (f : RefundPatch) (r : Refund) : Refund :=
  match f with
  | approved staff => { r with status := .approved, processedBy := some staff }
  | rejected reason => { r with status := .rejected, reason := reason }
  | processed ref => { r with status := .processed, providerRef := ref }

end RefundPatch

def RefundStatus.reaches : RefundStatus → RefundStatus → Bool
  | .pending, _ => true
  | .approved, .approved | .approved, .processed => true
  | .approved, _ => false
  | .rejected, .rejected | .processed, .processed => true
  | .rejected, _ | .processed, _ => false

theorem RefundStatus.reaches_refl (a : RefundStatus) : a.reaches a = true := by
  cases a <;> rfl

theorem RefundStatus.reaches_trans {a b c : RefundStatus} (h₁ : a.reaches b = true)
    (h₂ : b.reaches c = true) : a.reaches c = true := by
  revert h₁ h₂
  cases a <;> cases b <;> cases c <;> simp [reaches]

/-- A refund row as it may be later. -/
structure Refund.Step (r r' : Refund) : Prop where
  id : r'.id = r.id
  paymentId : r'.paymentId = r.paymentId
  invoiceId : r'.invoiceId = r.invoiceId
  amount : r'.amount = r.amount
  status : r.status.reaches r'.status = true

theorem Refund.Step.refl (r : Refund) : Refund.Step r r :=
  ⟨rfl, rfl, rfl, rfl, r.status.reaches_refl⟩

theorem Refund.Step.trans {a b c : Refund} (h₁ : Refund.Step a b) (h₂ : Refund.Step b c) :
    Refund.Step a c :=
  ⟨h₂.id.trans h₁.id, h₂.paymentId.trans h₁.paymentId, h₂.invoiceId.trans h₁.invoiceId,
    h₂.amount.trans h₁.amount, RefundStatus.reaches_trans h₁.status h₂.status⟩

@[simp] theorem RefundPatch.id_set (f : RefundPatch) (r : Refund) : (f.set r).id = r.id := by
  cases f <;> rfl

@[simp] theorem RefundPatch.status_set (f : RefundPatch) (r : Refund) : (f.set r).status = f.next := by
  cases f <;> rfl

theorem RefundPatch.step {f : RefundPatch} {r : Refund} (h : f.accepts r = true) : Refund.Step r (f.set r) := by
  have hr : r.status.reaches f.next = true := by
    cases f <;> cases hs : r.status <;> simp [accepts, hs] at h <;> rfl
  rw [← f.status_set r] at hr
  cases f <;> exact ⟨rfl, rfl, rfl, rfl, hr⟩

/-! ## Accounts -/

/-- The running balance of one child. -/
structure PaymentAccount where
  id : Nat
  childId : Nat
  balance : Int
  deriving DecidableEq

instance : Row PaymentAccount := ⟨PaymentAccount.id⟩

def PaymentAccount.Step (a a' : PaymentAccount) : Prop := a'.id = a.id ∧ a'.childId = a.childId

/-! ## Reference data -/

inductive ChildStatus
  | cardCreated | active | archived
  deriving DecidableEq, Repr

structure Child where
  id : Nat
  status : ChildStatus
  dateOfBirth : Int
  currentGroupId : Option Nat
  deriving DecidableEq

instance : Row Child := ⟨Child.id⟩

/-- A `child_guardians` row. -/
structure ChildGuardian where
  childId : Nat
  userId : Nat
  approved : Bool
  revoked : Bool
  deriving DecidableEq

structure DiscountRules where
  siblingDiscountPct : Option Decimal
  prepay3mPct : Option Decimal
  prepay6mPct : Option Decimal
  prepay12mPct : Option Decimal
  prepay24mPct : Option Decimal
  deriving DecidableEq

/-- `tariffType` ranges over the invoice types. -/
structure TariffPlan where
  id : Nat
  tariffType : InvoiceType
  amount : Int
  isActive : Bool
  validFrom : Int
  validUntil : Option Int
  discountRules : DiscountRules
  deriving DecidableEq

instance : Row TariffPlan := ⟨TariffPlan.id⟩

structure TariffAssignment where
  id : Nat
  childId : Nat
  tariffPlanId : Nat
  customAmount : Option Int
  validFrom : Int
  validUntil : Option Int
  deriving DecidableEq

instance : Row TariffAssignment := ⟨TariffAssignment.id⟩

structure Holiday where
  date : Int
  isBillable : Bool
  deriving DecidableEq

/-- `effectiveAmount`: the override wins over the plan's price. -/
def TariffAssignment.effectiveAmount (a : TariffAssignment) (plan : TariffPlan) : Int :=
  a.customAmount.getD plan.amount

/-- `valid_from <= d AND (valid_until IS NULL OR valid_until >= d)`. -/
def TariffAssignment.activeAt (a : TariffAssignment) (d : Int) : Bool :=
  decide (a.validFrom ≤ d) && a.validUntil.all fun u => decide (d ≤ u)

/-! ## Custom discounts -/

inductive ComparisonOp
  | gte | eq
  deriving DecidableEq

inductive BenefitCategory
  | multiChild | disability | singleMother | motherHeroine
  deriving DecidableEq

inductive PaymentMethodCode
  | kaspiPay | halykEpay | bcc | cash | bankTransfer
  deriving DecidableEq

/-- The conditions AST; `always` is the empty object. -/
inductive DiscountCondition
  | always
  | allOf (cs : List DiscountCondition)
  | anyOf (cs : List DiscountCondition)
  | prepaymentMonths (op : ComparisonOp) (value : Nat)
  | siblingsCount (op : ComparisonOp) (value : Nat)
  | ageRange (fromMonths toMonths : Nat)
  | benefitCategory (cats : List BenefitCategory)
  | paymentMethod (methods : List PaymentMethodCode)
  | earlyPayment (daysBeforeDue : Nat)
  | birthdayMonth
  | dateRange (fromDay toDay : Int)
  | firstInvoice
  | tariffTypes (types : List InvoiceType)

inductive CustomDiscountType
  | percentage | fixedAmount
  deriving DecidableEq

inductive CustomDiscountTargetType
  | all | groups | children | tariffTypes | ageRange
  deriving DecidableEq

inductive CustomDiscountStatus
  | draft | active | paused | expired | cancelled
  deriving DecidableEq

structure CustomDiscount where
  id : Nat
  name : String
  discountType : CustomDiscountType
  amount : Int
  conditions : DiscountCondition
  targetType : CustomDiscountTargetType
  targetIds : Option (List Nat)
  validFrom : Int
  validUntil : Option Int
  maxUsesPerChild : Option Nat
  totalMaxUses : Option Nat
  usedCount : Nat
  priority : Nat
  stackable : Bool
  status : CustomDiscountStatus
  createdAt : Int

instance : Row CustomDiscount := ⟨CustomDiscount.id⟩

structure CustomDiscountApplication where
  id : Nat
  customDiscountId : Nat
  invoiceId : Nat
  invoiceLineItemId : Option Nat
  childId : Nat
  amountApplied : Int
  appliedAt : Int
  deriving DecidableEq

instance : Row CustomDiscountApplication := ⟨CustomDiscountApplication.id⟩

end Billing
