import Shyraq.Billing.Repositories

/-!
# Ledger and settlement hooks

`PaymentAccountService`, and what both settlement paths (gateway and cash) do around an
invoice flip: the covered monthlies of a settled prepayment, and the capped discount
slots of a cancelled invoice.
-/

namespace Billing

open Kernel Transactions

namespace PaymentAccountService

def ensureForChild (childId : Nat) : Sql PaymentAccount :=
  PaymentAccountRepository.findOrCreateForChild childId

/-- The read-modify-write of a balance, under the account's advisory lock. -/
def moveBalance (accountId : Nat) (amount delta : Int) (error : String) : Sql Unit := do
  PaymentAccountRepository.acquireBalanceAdvisoryLock accountId
  let found ← PaymentAccountRepository.findById accountId
  let account ← require found (.paymentAccountNotFound accountId)
  guardOr (MoneyKzt.isPositive amount) (.internal error)
  PaymentAccountRepository.save { account with balance := account.balance + delta }

def creditFromPayment (accountId : Nat) (amount : Int) : Sql Unit :=
  moveBalance accountId amount amount "PaymentAccount.credit: amount must be > 0"

def debitForRefund (accountId : Nat) (amount : Int) : Sql Unit :=
  moveBalance accountId amount (-amount) "PaymentAccount.debit: amount must be > 0"

end PaymentAccountService

/-- Releases one slot of a discount that has a cap. -/
def releaseIfCapped (app : CustomDiscountApplication) : Sql Unit := do
  let discount ← Prog.query fun s => Table.find s.customDiscounts app.customDiscountId
  match discount with
  | none => pure ()
  | some d =>
      if d.totalMaxUses.isNone then pure ()
      else do
        let _ ← Prog.update (.releaseUsage app.customDiscountId)

/-- The slots that a cancelled invoice held are free again. -/
def releaseCustomDiscountUsagesForInvoice (invoiceId : Nat) : Sql Unit := do
  let apps ← Prog.query fun s => s.applications.filter fun a => a.invoiceId == invoiceId
  Prog.forEach releaseIfCapped apps

/-- `for (m = start; m <= end; m = addMonthsUtc(m, 1))`. -/
def monthsFrom (fuel : Nat) (start stop : Int) : List Int :=
  match fuel with
  | 0 => []
  | fuel + 1 => if start ≤ stop then start :: monthsFrom fuel (addMonthsUtc start 1) stop else []

/-- The month anchors of a window; a month has 28 days at least. -/
def monthsOfWindow (start stop : Int) : List Int :=
  monthsFrom (((stop - start) / 28).toNat + 1) start stop

/-- One monthly covered by a settled prepayment: cancelled, unless money came in. -/
def cancelCoveredMonthly (paidSums : Nat → Int) (monthly : Invoice) : Sql Unit := do
  if monthly.status = .paid ∨ monthly.status = .partial_ ∨ 0 < paidSums monthly.id then
    pure ()
  else do
    let cancelled ← InvoiceRepository.markCancelledConditional monthly.id
    match cancelled with
    | none => do
        -- only logged
        let _ ← InvoiceRepository.findById monthly.id
    | some _ => do
        releaseCustomDiscountUsagesForInvoice monthly.id
        notify (.invoiceCancelled monthly.id monthly.childId (some "covered_by_prepayment"))

/-- Both settlement paths serialise on the child before they flip a prepayment. -/
def lockPrepaymentOf (invoice : Invoice) : Sql Unit :=
  if invoice.invoiceType.isPrepayment then
    InvoiceRepository.acquireChildPrepaymentAdvisoryLock invoice.childId
  else
    pure ()

/-- A prepayment that has just become `paid` supersedes the unpaid monthlies of its
window. -/
def cancelCoveredMonthlies (prepayment : Invoice) : Sql Unit := do
  InvoiceRepository.acquireChildPrepaymentAdvisoryLock prepayment.childId
  Prog.forEach InvoiceRepository.acquireMonthlyGenerationAdvisoryLock
    (monthsOfWindow prepayment.periodStart prepayment.periodEnd)
  let overlapped ← InvoiceRepository.findMonthlyInWindow prepayment.childId
    prepayment.periodStart prepayment.periodEnd
  if overlapped.isEmpty then
    pure ()
  else do
    let paidSums ← InvoiceRepository.getPaidSumsForInvoices
    Prog.forEach (cancelCoveredMonthly paidSums) overlapped

end Billing
