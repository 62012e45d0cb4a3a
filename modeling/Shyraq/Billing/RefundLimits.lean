import Shyraq.Billing.Sums

/-!
# Refunds of one payment

`create` checks each refund against the payment on its own, and `process` is serialised per
refund.  Two approved refunds of one payment can therefore both be processed: the second
finds the payment taken, and only logs it.
-/

namespace Billing

open Kernel Transactions

/-- The processed refunds of a payment. -/
def Store.refundedOf (s : Store) (paymentId : Nat) : Int :=
  s.sumRefunds fun r => r.paymentId == paymentId

/-- The request processes a refund of this payment. -/
def Op.processes (paymentId : Nat) (s : Store) : Op → Bool
  | .processRefund id _ _ => (s.refund? id).any fun r => r.paymentId == paymentId
  | _ => false

/-- What the account loses to a refund of the payment. -/
def debitFor (paymentId : Nat) (s : Store) (c : BillingCommit) : Int :=
  if c.op.processes paymentId s then
    match (c.tx.view s).accountFor paymentId with
    | some a => s.balanceOf a - (c.tx.view s).balanceOf a
    | none => 0
  else 0

/-- A processed refund finds its payment completed, right before it commits. -/
def StillCompleted (paymentId : Nat) (s : Store) (c : BillingCommit) : Prop :=
  c.op.processes paymentId s = true →
    (s.payment? paymentId).all (fun p => p.status == .completed) = true

instance (paymentId : Nat) (s : Store) (c : BillingCommit) : Decidable (StillCompleted paymentId s c) :=
  inferInstanceAs (Decidable (_ → _))

/-- What a run keeps: no refund exceeds its payment, and only a refunded payment has been
refunded. -/
structure Limited (id : Nat) (s₀ : Store) (log : List BillingCommit) (s : Store) : Prop where
  replay : replay s₀ log = s
  bound : ∀ i r, s.refund? i = some r → r.paymentId = id →
    ∃ p, s.payment? id = some p ∧ r.amount ≤ p.amount
  debits : tally (debitFor id) s₀ log = s.refundedOf id
  sum : s.refundedOf id = 0 ∨
    ∃ p, s.payment? id = some p ∧ p.status = .refunded ∧ s.refundedOf id ≤ p.amount

variable {id : Nat} {s₀ s : Store} {log : List BillingCommit} {c : BillingCommit}

theorem Limited.bound_view (h : Limited id s₀ log s) {D : Discipline Store Key Write}
    {t : Tx Store Key Write} {op : Op} (hm : RefundsMove D t s op) {i : Nat} {r : Refund}
    (hr : (t.view s).refund? i = some r) (hid : r.paymentId = id) :
    ∃ p, (t.view s).payment? id = some p ∧ r.amount ≤ p.amount := by
  have old : ∃ p, s.payment? id = some p ∧ r.amount ≤ p.amount := by
    rcases hm.before hr with ⟨r₀, hr₀, hstep⟩ | ⟨p, hreq⟩
    · obtain ⟨p, hp, hle⟩ := h.bound i r₀ hr₀ (hstep.paymentId.symm.trans hid)
      exact ⟨p, hp, by rw [hstep.amount]; exact hle⟩
    · obtain ⟨q, hq, hstep⟩ := hreq.payment
      have hpid : p.id = id := hreq.paymentId.symm.trans hid
      rw [hpid] at hq
      exact ⟨q, hq, by rw [hstep.amount]; exact hreq.amount⟩
  obtain ⟨p, hp, hle⟩ := old
  obtain ⟨p', hp', hamount, -⟩ := payment_view (t := t) hp
  exact ⟨p', hp', by rw [hamount]; exact hle⟩

theorem Limited.skip (h : Limited id s₀ log s) {D : Discipline Store Key Write}
    (hm : RefundsMove D c.tx s c.op) (hsum : (c.tx.view s).refundedOf id = s.refundedOf id)
    (hdebit : debitFor id s c = 0) : Limited id s₀ (log ++ [c]) (c.tx.view s) where
  replay := by rw [replay_snoc, h.replay]
  bound _ _ hr hid := h.bound_view hm hr hid
  debits := by
    rw [tally_snoc, h.replay, hdebit, h.debits, hsum]
    omega
  sum := by
    rw [hsum]
    rcases h.sum with hz | ⟨p, hp, hst, hle⟩
    · exact .inl hz
    · obtain ⟨p', hp', hamount, hst'⟩ := payment_view (t := c.tx) hp
      exact .inr ⟨p', hp', hst' hst, by rw [hamount]; exact hle⟩

theorem debitFor_of_not (h : c.op.processes id s = false) : debitFor id s c = 0 := by
  unfold debitFor
  rw [h]
  rfl

theorem Limited.step (h : Limited id s₀ log s) (hc : Committed locks Op.MovesMoney s c)
    (hmeets : StillCompleted id s c) : Limited id s₀ (log ++ [c]) (c.tx.view s) := by
  obtain ⟨hs, -, hout⟩ := hc
  have hm := hout.refundsMove
  obtain ⟨op, t, a⟩ := c
  have quiet : (t.view s).refundedOf id = s.refundedOf id → op.processes id s = false →
      Limited id s₀ (log ++ [⟨op, t, a⟩]) (t.view s) :=
    fun hsum hop => h.skip hm hsum (debitFor_of_not hop)
  cases hout with
  | @processed _ ack provider _ r providerRef p taken invoice effectiveNet flip hid hr =>
    subst hid
    have hrow : s.refund? r.id = some r := hr.refunds.before
    have hproc : Op.processes id s (.processRefund r.id ack provider) = (r.paymentId == id) := by
      show Option.any (fun r => r.paymentId == id) (s.refund? r.id) = _
      rw [hrow]
      rfl
    have hsum : (t.view s).refundedOf id = s.refundedOf id + if r.paymentId == id then r.amount else 0 :=
      sumRefunds_processed (q := fun r => r.paymentId == id) hr rfl
    by_cases hpid : r.paymentId = id
    · subst hpid
      obtain ⟨q, hq, hstep, htaken⟩ := hr.payment
      rw [← hr.paymentId] at hq
      have hst : q.status = .completed := by
        have := hmeets (by rw [hproc]; simp)
        rw [hq] at this
        simpa using this
      -- the payment was completed, so this refund has taken it, and is the first to do so
      have hzero : s.refundedOf r.paymentId = 0 := by
        rcases h.sum with hz | ⟨p', hp', hst', -⟩
        · exact hz
        · rw [hq] at hp'
          cases hp'
          rw [hst] at hst'
          cases hst'
      obtain ⟨q₀, hq₀, hle⟩ := h.bound r.id r hrow rfl
      rw [hq] at hq₀
      cases hq₀
      have htrue : taken = true := by
        cases taken with
        | true => rfl
        | false => exact absurd (hst.symm.trans (show q.status = .refunded from htaken)) (by decide)
      subst htrue
      obtain ⟨q', -, hrep⟩ := hr.payments
      rw [← hr.paymentId] at hrep
      have hq' : q' = q := Option.some.inj (hrep.before.symm.trans hq)
      subst hq'
      have hnew : (t.view s).payment? r.paymentId = some ((PaymentPatch.refunded r.id).set q') :=
        hrep.find_self
      have hamount : (t.view s).refundedOf r.paymentId = r.amount := by
        rw [hsum, hzero]
        simp
      refine ⟨by rw [replay_snoc, h.replay], fun _ _ hr' hid' => h.bound_view hm hr' hid', ?_, ?_⟩
      · have hdebit : debitFor r.paymentId s ⟨.processRefund r.id ack provider, t, a⟩ = r.amount := by
          have hacc := accountFor_view hnew
            (hstep.invoiceId.trans hr.invoiceId.symm) hr.stillThere
          have hbal : (t.view s).balanceOf invoice.paymentAccountId =
              s.balanceOf invoice.paymentAccountId + -r.amount := hr.accounts.balanceOf
          unfold debitFor
          rw [if_pos (by rw [hproc]; simp), hacc]
          show s.balanceOf _ - (t.view s).balanceOf _ = _
          omega
        rw [tally_snoc, h.replay, h.debits, hzero, hdebit]
        show (0 : Int) + r.amount = (t.view s).refundedOf r.paymentId
        omega
      · exact .inr ⟨_, hnew, rfl, by rw [hamount]; exact hle⟩
    · have hne : (r.paymentId == id) = false := by simp [hpid]
      refine quiet ?_ (hproc.trans hne)
      rw [hsum, hne]
      simp
  | _ =>
    refine quiet ?_ rfl
    cases hm with
    | same he => exact sumRefunds_congr he
    | requested p r hr => exact sumRefunds_requested hr
    | decided id' patch r hp hd => exact sumRefunds_decided hp hd

/-- **A payment is refunded once.**  In every interleaving in which each processed refund finds
its payment still completed, the processed refunds of a payment stay within its amount, and so
do the debits for it. -/
theorem refunds_within_payment {n : Nat} {s : Store} {cs : Schedule n} {σ : System n}
    (paymentId : Nat) (hs : s.WF) (hnone : ∀ r ∈ s.refunds, r.paymentId ≠ paymentId)
    (hcs : System.Starts Op.MovesMoney cs) (hrun : run s cs = some σ)
    (hmeets : AtEach (StillCompleted paymentId) s σ.log) :
    ∀ p, σ.db.payment? paymentId = some p → σ.db.refundedOf paymentId ≤ p.amount ∧
      tally (debitFor paymentId) s σ.log ≤ p.amount := by
  have hzero : s.refundedOf paymentId = 0 := by
    have hshare : ∀ r ∈ s.refunds, (r.share fun r => r.paymentId == paymentId) = 0 := by
      intro r hr
      simp [Refund.share, hnone r hr]
    calc s.refundedOf paymentId
        = Table.total (fun _ => 0) s.refunds := Table.total_congr hshare
      _ = 0 := by simp [Table.total]
  have h₀ : Limited paymentId s [] s := by
    refine ⟨rfl, ?_, hzero.symm, .inl hzero⟩
    intro i r hr hid
    exact absurd hid (hnone r (Table.mem_of_find hr))
  have hchain := (chain_outcomes (fun _ h => h) hs hcs hrun).and hmeets
  have h := hchain.invLog (Limited paymentId s) h₀ fun l s c h hc => h.step hc.1 hc.2
  have hwf : σ.db.WF := hchain.inv Store.WF hs fun s c hs _ => hs.view c.tx
  intro p hp
  have hpos : 0 < p.amount := hwf.paymentAmounts p (Table.mem_of_find hp)
  rw [h.debits]
  rcases h.sum with hz | ⟨q, hq, -, hle⟩
  · omega
  · rw [hp] at hq
    cases hq
    omega

/-! ## Two refunds at once -/

/-- One refund of 600, processed. -/
def oneRefund : Schedule 2 :=
  approvedRefund 0 50 30 6 (request 0 (.processRefund 50 true (some none)) 19 0 ++ [])

/-- Two refunds of 600, processed at once: each finds the payment completed, and only then does
the other commit. -/
def twoRefunds : Schedule 2 :=
  approvedRefund 0 50 30 6 (approvedRefund 0 51 30 6
    (request 0 (.processRefund 50 true (some none)) 5 0 ++
      (request 1 (.processRefund 51 true (some none)) 19 0 ++ (steps 0 12 0 ++ []))))

theorem refunds_within_payment_oneRefund : ∃ σ : System 2,
    run (Store.paidInvoice [completedPayment 30 1000]) oneRefund = some σ ∧
    ∀ p, σ.db.payment? 30 = some p → σ.db.refundedOf 30 ≤ p.amount ∧
      tally (debitFor 30) (Store.paidInvoice [completedPayment 30 1000]) σ.log ≤ p.amount := by
  obtain ⟨σ, hrun, h⟩ := run_shows run (Store.paidInvoice [completedPayment 30 1000]) oneRefund
    (fun σ => decide (AtEach (StillCompleted 30) (Store.paidInvoice [completedPayment 30 1000]) σ.log))
    (by decide +kernel)
  refine ⟨σ, hrun, refunds_within_payment 30 (by decide) (fun _ hr => absurd hr List.not_mem_nil) ?_ hrun
    (by simpa using h)⟩
  exact starts_approvedRefund 0 50 30 6 (fun _ _ => trivial) (fun _ _ => trivial)
    (starts_request 0 19 0 trivial starts_nil)

theorem twoRefunds_exceed_payment : ∃ σ : System 2,
    (Store.paidInvoice [completedPayment 30 1000]).WF ∧
    (∀ r ∈ (Store.paidInvoice [completedPayment 30 1000]).refunds, r.paymentId ≠ 30) ∧
    System.Starts Op.MovesMoney twoRefunds ∧
    run (Store.paidInvoice [completedPayment 30 1000]) twoRefunds = some σ ∧
    ∃ p, σ.db.payment? 30 = some p ∧ p.amount < σ.db.refundedOf 30 ∧
      p.amount < tally (debitFor 30) (Store.paidInvoice [completedPayment 30 1000]) σ.log := by
  obtain ⟨σ, hrun, h⟩ := run_shows run (Store.paidInvoice [completedPayment 30 1000]) twoRefunds
    (fun σ => (σ.db.payment? 30).any fun p => decide (p.amount < σ.db.refundedOf 30 ∧
      p.amount < tally (debitFor 30) (Store.paidInvoice [completedPayment 30 1000]) σ.log))
    (by decide +kernel)
  obtain ⟨p, hp, h⟩ := (Option.any_eq_true _ _).1 h
  refine ⟨σ, by decide, fun _ hr => absurd hr List.not_mem_nil, ?_, hrun, p, hp, by simpa using h⟩
  exact starts_approvedRefund 0 50 30 6 (fun _ _ => trivial) (fun _ _ => trivial)
    (starts_approvedRefund 0 51 30 6 (fun _ _ => trivial) (fun _ _ => trivial)
      (starts_request 0 5 0 trivial (starts_request 1 19 0 trivial (starts_steps 0 12 0 starts_nil))))

end Billing
