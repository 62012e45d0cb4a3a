import Shyraq.Billing.Sums

/-!
# Rows only move on, and a refund is debited once

Every statement of billing re-checks the status it starts from, so no row goes or moves back, however requests
interleave.  A refund leaves `approved` for `processed` in the transaction that takes its amount from an account.
-/

namespace Billing

open Kernel Transactions

/-! ## Rows -/

/-- The rows of `s` are in `s'`, each as it was or further on. -/
structure Advances (s s' : Store) : Prop where
  accounts : ∀ i a, s.account? i = some a → ∃ a', s'.account? i = some a' ∧ PaymentAccount.Step a a'
  invoices : ∀ i r, s.invoice? i = some r → ∃ r', s'.invoice? i = some r' ∧ Invoice.Step r r'
  payments : ∀ i p, s.payment? i = some p → ∃ p', s'.payment? i = some p' ∧ Payment.Step p p'
  refunds : ∀ i r, s.refund? i = some r → ∃ r', s'.refund? i = some r' ∧ Refund.Step r r'

theorem Moves.advances {held : List Key} {s s' : Store} (h : Moves held s s') : Advances s s' where
  accounts i a ha := (h.accounts.row i a ha).imp fun _ hr => ⟨hr.1, hr.2.1⟩
  invoices i r hr := (h.invoices.row i r hr).imp fun _ hr => ⟨hr.1, hr.2.1⟩
  payments i p hp := (h.payments.row i p hp).imp fun _ hr => ⟨hr.1, hr.2.1⟩
  refunds i r hr := (h.refunds.row i r hr).imp fun _ hr => ⟨hr.1, hr.2.1⟩

/-- **Rows only move on.**  Whatever state the system is in, with whatever requests under way, and however it goes on:
no row is lost, what was agreed in it stays, and its status only moves along its edges. -/
theorem rows_advance {n : Nat} {σ σ' : System n} {cs : Schedule n} (h : σ.exec Op.prog cs = some σ') :
    Advances σ.db σ'.db :=
  (System.db_exec (Moves.refl []) (fun _ _ _ => Moves.trans) moves_view h).advances

/-! ## Debits -/

def Store.balances (s : Store) : Int := Table.total PaymentAccount.balance s.accounts

/-- What the accounts lose to the processing of this refund. -/
def debitOf (refundId : Nat) (s : Store) (c : BillingCommit) : Int :=
  match c.op with
  | .processRefund id _ _ => if id = refundId then s.balances - (c.tx.view s).balances else 0
  | _ => 0

/-- The amount of the refund, once it is processed. -/
def Store.processedOf (refundId : Nat) (s : Store) : Int := s.sumRefunds fun r => r.id == refundId

theorem Committed.debitOf {s : Store} {c : BillingCommit} (h : Committed locks Op.MovesMoney s c) (id : Nat) :
    debitOf id s c = (c.tx.view s).processedOf id - s.processedOf id := by
  obtain ⟨-, -, hout⟩ := h
  have hm := hout.refundsMove
  obtain ⟨op, t, a⟩ := c
  cases hout with
  | @processed _ ack provider _ r providerRef p taken invoice effectiveNet flip hid hr =>
    subst hid
    have hsum : (t.view s).processedOf id = s.processedOf id + if r.id == id then r.amount else 0 :=
      sumRefunds_processed (q := fun r => r.id == id) hr rfl
    obtain ⟨account, hmoved⟩ := hr.accounts
    have htotal := hmoved.total PaymentAccount.balance
    show (if r.id = id then s.balances - (t.view s).balances else 0) = _
    by_cases hid : r.id = id
    · rw [if_pos hid, hsum, if_pos (by simpa using hid)]
      unfold Store.balances
      dsimp only at htotal
      omega
    · rw [if_neg hid, hsum, if_neg (by simpa using hid)]
      omega
  | _ =>
    have hkept : (t.view s).processedOf id = s.processedOf id := by
      cases hm with
      | same he => exact sumRefunds_congr he
      | requested p r hr => exact sumRefunds_requested hr
      | decided id' patch r hp hd => exact sumRefunds_decided hp hd
    show (0 : Int) = (t.view s).processedOf id - s.processedOf id
    omega

/-- **A refund is debited once.**  In every interleaving the accounts lose its amount if the run has processed it, and
nothing otherwise. -/
theorem refund_debited_once {n : Nat} {s : Store} {cs : Schedule n} {σ : System n} (refundId : Nat) (hs : s.WF)
    (hcs : System.Starts Op.MovesMoney cs) (hrun : run s cs = some σ) :
    tally (debitOf refundId) s σ.log = σ.db.processedOf refundId - s.processedOf refundId := by
  have hchain := chain_outcomes (fun _ h => h) hs hcs hrun
  have h := hchain.invLog
    (fun log s' => replay s log = s' ∧ tally (debitOf refundId) s log = s'.processedOf refundId - s.processedOf refundId)
    ⟨rfl, (Int.sub_self _).symm⟩ fun log s' c ih hc => ⟨by rw [replay_snoc, ih.1], ?_⟩
  · exact h.2
  · rw [tally_snoc, ih.1, ih.2, hc.debitOf]
    omega

/-- An invoice of 1000, paid by one payment. -/
def paidOnce : Store := Store.paidInvoice [completedPayment 30 1000]

/-- Two workers process the same refund: the second finds it processed. -/
def processTwice : Schedule 2 :=
  approvedRefund 0 50 30 6 (request 0 (.processRefund 50 true (some none)) 3 0 ++
    (.start 1 (.processRefund 50 true (some none)) :: (steps 0 16 0 ++ (steps 1 2 0 ++ []))))

theorem refund_debited_once_processTwice : ∃ σ : System 2, run paidOnce processTwice = some σ ∧
    σ.db.processedOf 50 = 600 ∧ tally (debitOf 50) paidOnce σ.log = σ.db.processedOf 50 - paidOnce.processedOf 50 := by
  obtain ⟨σ, hrun, h⟩ := run_shows run paidOnce processTwice
    (fun σ => decide (σ.db.processedOf 50 = 600)) (by decide +kernel)
  refine ⟨σ, hrun, of_decide_eq_true h, refund_debited_once 50 (by decide) ?_ hrun⟩
  exact starts_approvedRefund 0 50 30 6 (fun _ _ => trivial) (fun _ _ => trivial)
    (starts_request 0 3 0 trivial (starts_cons 1 trivial (starts_steps 0 16 0 (starts_steps 1 2 0 starts_nil))))

theorem rows_advance_processTwice : ∃ σ : System 2, run paidOnce processTwice = some σ ∧ Advances paidOnce σ.db := by
  obtain ⟨σ, hrun, -⟩ := run_shows run paidOnce processTwice (fun _ => true) (by decide +kernel)
  exact ⟨σ, hrun, rows_advance (σ := System.init paidOnce) hrun⟩

end Billing
