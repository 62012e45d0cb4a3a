import Shyraq.Billing.Coverage
import Shyraq.Billing.InvoiceGeneration

/-!
# What the creation of invoices writes

Inserts, slots of capped discounts and events: nothing that is already there changes, apart
from the counters of the discounts.
-/

namespace Billing

open Kernel Transactions

/-- The statements of a creation; a new invoice satisfies `φ`. -/
def Creates (φ : Invoice → Prop) : Write → Prop
  | .insertInvoice i => φ i
  | .insertAccount _ | .insertLineItem _ | .insertApplication _ => True
  | .tryReserveUsage _ | .releaseUsage _ | .lockActiveChild _ | .notify _ => True
  | _ => False

theorem Creates.plain {φ : Invoice → Prop} {w : Write} (h : Creates φ w) : w.Plain := by
  rintro i b rfl
  exact h

theorem Creates.table_ne {φ : Invoice → Prop} {w : Write} (h : Creates φ w) {T : TableName}
    (hT : T = .payments ∨ T = .refunds) : w.table ≠ T := by
  rcases hT with rfl | rfl <;> cases w <;> first
    | exact TableName.noConfusion
    | exact h.elim

section

variable {φ : Invoice → Prop}

theorem creates_ensureForChild (childId : Nat) :
    Prog.OnlyWrites (Creates φ) (PaymentAccountService.ensureForChild childId) := by
  refine .query fun found => ?_
  cases found with
  | some a => trivial
  | none => exact fun id => (onlyWrites_update trivial).bind fun _ _ => onlyWrites_require

theorem creates_create {i : Invoice} (h : φ i) (lineItems : List InvoiceLineItem) :
    Prog.OnlyWrites (Creates φ) (InvoiceRepository.create i lineItems) := by
  refine Prog.OnlyWrites.bind (onlyWrites_insertOr h) fun _ => ?_
  exact Prog.OnlyWrites.bind (.forEach _ fun li _ => onlyWrites_insertOr trivial) fun _ => trivial

namespace InvoiceService

theorem creates_filterDiscountsForChild (now : Int) (childId : Nat) (snaps : List CustomDiscount) :
    Prog.OnlyWrites (Creates φ) (DiscountTargetResolver.filterDiscountsForChild now childId snaps) := by
  induction snaps with
  | nil => trivial
  | cons snap rest ih => exact fun _ => ih.bind fun _ => trivial

theorem creates_belowChildCap (reserve : Bool) (childId : Nat) (snap : CustomDiscount) :
    Prog.OnlyWrites (Creates φ) (belowChildCap reserve childId snap) := by
  unfold belowChildCap
  split
  · trivial
  · cases reserve <;> exact fun _ => trivial

theorem creates_takeSlot (reserve : Bool) (snap : CustomDiscount) :
    Prog.OnlyWrites (Creates φ) (takeSlot reserve snap) := by
  unfold takeSlot
  split
  · trivial
  · split
    · exact (onlyWrites_update trivial).bind fun _ => trivial
    · trivial

theorem creates_admitSnapshots (reserve : Bool) (childId : Nat) (snaps : List CustomDiscount) :
    Prog.OnlyWrites (Creates φ) (admitSnapshots reserve childId snaps) := by
  induction snaps with
  | nil => trivial
  | cons snap rest ih =>
    refine (creates_belowChildCap reserve childId snap).bind fun below => ?_
    split
    · exact (creates_takeSlot reserve snap).bind fun _ => ih.bind fun _ => trivial
    · exact ih

theorem creates_buildCustomDiscountInputs (now : Int) (childId : Nat) (reserve : Bool) :
    Prog.OnlyWrites (Creates φ) (buildCustomDiscountInputs now childId reserve) := by
  refine fun _ => (creates_filterDiscountsForChild now childId _).bind fun targeted =>
    (creates_admitSnapshots reserve childId targeted).bind fun admitted => .query fun child => ?_
  cases child with
  | none => trivial
  | some child => exact fun _ _ => trivial

theorem creates_releaseUnusedReservations (ids : List Nat) (discount : DiscountEngine.Result) :
    Prog.OnlyWrites (Creates φ) (releaseUnusedReservations ids discount) := by
  refine .forEach _ fun id _ => ?_
  split
  · trivial
  · exact (onlyWrites_update trivial).bind fun _ => trivial

theorem creates_persistCustomDiscountApplications (now : Int) (invoice : Invoice) (lineItemId : Nat)
    (result : DiscountEngine.Result) : Prog.OnlyWrites (Creates φ)
      (persistCustomDiscountApplications now invoice lineItemId result) :=
  .forEach _ fun _ _ _ => onlyWrites_insertOr trivial

theorem creates_emitInvoiceCreated (i : Invoice) : Prog.OnlyWrites (Creates φ) (emitInvoiceCreated i) :=
  onlyWrites_notify trivial

/-! ## The monthly run -/

theorem creates_generateAndPersistInvoice (now : Int) (args : GenerateArgs)
    (h : ∀ id accountId discount, φ (newMonthlyInvoice id accountId now args discount)) :
    Prog.OnlyWrites (Creates φ) (generateAndPersistInvoice now args) := by
  refine (creates_ensureForChild _).bind fun account => ?_
  refine (creates_buildCustomDiscountInputs now _ true).bind fun custom => ?_
  refine (creates_releaseUnusedReservations _ _).bind fun _ id lineId => ?_
  refine (onlyWrites_update trivial).bind fun _ => onlyWrites_guardOr.bind fun _ => ?_
  refine (creates_create (h id account.id _) _).bind fun persisted => ?_
  exact (creates_persistCustomDiscountApplications now _ _ _).bind fun _ =>
    (creates_emitInvoiceCreated _).bind fun _ => trivial

theorem creates_billAssignment (now periodStart periodEnd totalDays holidays : Int)
    (covered : List Nat) (a : TariffAssignment) (h : a.childId ∉ covered → ∀ tariffPlan id accountId discount,
      φ (newMonthlyInvoice id accountId now ⟨a, tariffPlan, periodStart, periodEnd,
        defaultDueDate periodStart, totalDays, holidays, none⟩ discount)) : Prog.OnlyWrites (Creates φ)
      (billAssignment now periodStart periodEnd totalDays holidays covered a) := by
  unfold billAssignment
  split
  · trivial
  · next hc =>
    have hc : a.childId ∉ covered := by simpa using hc
    intro s
    show Prog.OnlyWrites _ (if _ then _ else _)
    split
    · trivial
    · refine .query fun plan => ?_
      cases plan with
      | none => trivial
      | some tariffPlan =>
        refine .tryCatch ?_ fun e => ?_
        · exact (creates_generateAndPersistInvoice now _ (h hc tariffPlan)).bind fun _ => trivial
        · split <;> trivial

theorem creates_billAssignments {bill : TariffAssignment → Sql Bool}
    (h : ∀ a, Prog.OnlyWrites (Creates φ) (bill a)) (as : List TariffAssignment) :
    Prog.OnlyWrites (Creates φ) (billAssignments bill as) := by
  induction as with
  | nil => trivial
  | cons a rest ih => exact (h a).bind fun _ => ih.bind fun _ => trivial

/-! ## A prepayment -/

theorem creates_countNonBillableInRange (a b : Int) :
    Prog.OnlyWrites (Creates φ) (countNonBillableInRange a b) := fun _ => trivial

theorem creates_quoteMonths (monthlyAmount windowStart : Int) (l : List Nat) :
    Prog.OnlyWrites (Creates φ) (quoteMonths monthlyAmount windowStart l) := by
  induction l with
  | nil => trivial
  | cons i l ih => exact (creates_countNonBillableInRange _ _).bind fun _ => ih.bind fun _ => trivial

theorem creates_computeOutstandingDebt (childId : Nat) :
    Prog.OnlyWrites (Creates φ) (computeOutstandingDebt childId) := by
  intro s
  show Prog.OnlyWrites _ (if _ then _ else _)
  split
  · trivial
  · exact fun _ => trivial

theorem creates_findMoneyHoldingPrepayment (stale : List Invoice) :
    Prog.OnlyWrites (Creates φ) (findMoneyHoldingPrepayment stale) := by
  unfold findMoneyHoldingPrepayment
  split
  · trivial
  · exact fun _ => trivial

theorem creates_priceQuote (now : Int) (childId : Nat) (months : PrepaymentMonths) (reserve : Bool)
    (assignment : TariffAssignment) (tariffPlan : TariffPlan) (windowStart : Int) :
    Prog.OnlyWrites (Creates φ) (priceQuote now childId months reserve assignment tariffPlan windowStart) := by
  refine (creates_quoteMonths _ _ _).bind fun entries => ?_
  refine (creates_buildCustomDiscountInputs now childId reserve).bind fun custom => ?_
  exact (creates_releaseUnusedReservations _ _).bind fun _ => onlyWrites_guardOr.bind fun _ => trivial

theorem creates_computePrepaymentQuote (now : Int) (childId : Nat) (months : PrepaymentMonths) (reserve : Bool) :
    Prog.OnlyWrites (Creates φ) (computePrepaymentQuote now childId months reserve) := by
  refine fun _ => onlyWrites_require.bind fun assignment _ => onlyWrites_require.bind fun tariffPlan => ?_
  refine onlyWrites_guardOr.bind fun _ => (creates_computeOutstandingDebt childId).bind fun outstanding => ?_
  split
  · trivial
  · refine fun _ => (creates_findMoneyHoldingPrepayment _).bind fun holding => ?_
    split
    · trivial
    · intro s
      show Prog.OnlyWrites _ (if _ then _ else _)
      split
      · exact (creates_priceQuote _ _ _ _ _ _ _).bind fun _ => trivial
      · trivial

theorem creates_prepaymentLineItems (now : Int) (invoiceId planId i : Nat) (shares : List Int) :
    Prog.OnlyWrites (Creates φ) (prepaymentLineItems now invoiceId planId i shares) := by
  induction shares generalizing i with
  | nil => trivial
  | cons share shares ih => exact fun _ => (ih (i + 1)).bind fun _ => trivial

end InvoiceService

end

end Billing
