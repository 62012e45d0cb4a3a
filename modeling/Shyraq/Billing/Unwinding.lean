import Shyraq.Billing.Sums

/-!
# Unwinding an invoice

Refunds of the payments of one invoice, one after the other.  `process` subtracts from the
paid sum what a refunded payment no longer adds to it, so a payment that is refunded in part
counts twice; and its downgrade to `partial` never matches a paid invoice.
-/

namespace Billing

open Kernel Transactions

/-- The payments of an invoice that ever completed. -/
def Store.receivedFor (s : Store) (invoiceId : Nat) : Int :=
  s.sumPayments (fun p => p.invoiceId == invoiceId) fun st => st == .completed || st == .refunded

/-- What was received for an invoice, less what was refunded. -/
def Store.netOf (s : Store) (invoiceId : Nat) : Int :=
  s.receivedFor invoiceId - s.processedRefundsSum invoiceId

/-- The refund that a request processes, its payment and its invoice. -/
def Op.unwinding (s : Store) : Op → Option (Refund × Payment × Invoice)
  | .processRefund id _ _ => do
      let r ← s.refund? id
      let p ← s.payment? r.paymentId
      let i ← s.invoice? p.invoiceId
      pure (r, p, i)
  | _ => none

/-- A refund flips its invoice to `refunded` only if nothing is kept of it, and does not leave
it `paid` if too little is. -/
def UnwindsRight (s : Store) (c : BillingCommit) : Prop :=
  match c.op.unwinding s with
  | none => True
  | some (_, _, i) =>
      let net := (c.tx.view s).netOf i.id
      let status := ((c.tx.view s).invoice? i.id).map Invoice.status
      (i.status ≠ .refunded → status = some .refunded → net ≤ 0) ∧
        (0 < net → net < i.amountAfterDiscount → status ≠ some .paid)

/-- The refund returns the last that was received for the invoice; or the other completed
payments exceed all refunds, and a paid invoice stays covered.  Invoices neither paid nor
partial are left alone. -/
def CountsOnce (s : Store) (c : BillingCommit) : Prop :=
  match c.op.unwinding s with
  | none => True
  | some (r, p, i) =>
      let others := s.paidSum i.id - p.amount
      let refunded := s.processedRefundsSum i.id + r.amount
      let received := s.receivedFor i.id
      match i.status with
      | .paid => received ≤ refunded ∨ (refunded < others ∧ i.amountAfterDiscount ≤ received - refunded)
      | .partial_ => received ≤ refunded ∨ refunded < others
      | _ => True

instance (s : Store) (c : BillingCommit) : Decidable (UnwindsRight s c) := by
  unfold UnwindsRight
  split <;> infer_instance

instance (s : Store) (c : BillingCommit) : Decidable (CountsOnce s c) := by
  unfold CountsOnce
  split
  · infer_instance
  · dsimp only
    split <;> infer_instance

/-- Each refund is on the invoice of its payment. -/
def Filed (s : Store) : Prop :=
  ∀ i r, s.refund? i = some r → ∃ p, s.payment? r.paymentId = some p ∧ r.invoiceId = some p.invoiceId

variable {s : Store} {t : Tx Store Key Write}

theorem counting_receivedFor (invoiceId : Nat) :
    Counting (fun p => p.invoiceId == invoiceId) fun st => st == .completed || st == .refunded where
  stable h := by rw [h.invoiceId]
  inFlight st h := by cases st <;> first | rfl | cases h
  failed := rfl
  completed := rfl

theorem Filed.view (h : Filed s) {D : Discipline Store Key Write} {op : Op} (hm : RefundsMove D t s op) :
    Filed (t.view s) := by
  have old : ∀ {r : Refund}, (∃ p, s.payment? r.paymentId = some p ∧ r.invoiceId = some p.invoiceId) →
      ∃ p, (t.view s).payment? r.paymentId = some p ∧ r.invoiceId = some p.invoiceId := by
    rintro r ⟨p, hp, hi⟩
    obtain ⟨p', hp', hstep, -⟩ := (moves_view t s).payments.row _ p hp
    exact ⟨p', hp', by rw [hstep.invoiceId]; exact hi⟩
  intro i r hr
  rcases hm.before hr with ⟨r₀, hr₀, hstep⟩ | ⟨p, hreq⟩
  · obtain ⟨p, hp, hi⟩ := h i r₀ hr₀
    refine old ⟨p, ?_, ?_⟩
    · rw [hstep.paymentId]
      exact hp
    · rw [hstep.invoiceId]
      exact hi
  · obtain ⟨q, hq, hstep⟩ := hreq.payment
    refine old ⟨q, ?_, ?_⟩
    · rw [hreq.paymentId]
      exact hq
    · rw [hreq.invoiceId, hstep.invoiceId]

/-! ## One refund -/

/-- The status that the unwinding leaves. -/
def unwoundStatus (i : Invoice) (effectiveNet : Int) : InvoiceStatus :=
  match unwindFlip i effectiveNet with
  | some f => if f.accepts i then f.next else i.status
  | none => i.status

theorem unwoundStatus_iff (i : Invoice) (others refunded received : Int) :
    ((i.status ≠ .refunded → unwoundStatus i (others - refunded) = .refunded → received - refunded ≤ 0) ∧
      (0 < received - refunded → received - refunded < i.amountAfterDiscount →
        unwoundStatus i (others - refunded) ≠ .paid)) ↔ match i.status with
    | .paid => received ≤ refunded ∨ (refunded < others ∧ i.amountAfterDiscount ≤ received - refunded)
    | .partial_ => received ≤ refunded ∨ refunded < others | _ => True := by
  unfold unwoundStatus unwindFlip
  by_cases h₀ : others - refunded ≤ 0
  · rw [if_pos h₀]
    cases hst : i.status <;> simp [InvoiceFlip.accepts, InvoiceFlip.next, hst] <;> omega
  · rw [if_neg h₀]
    by_cases h₁ : others - refunded < i.amountAfterDiscount
    · rw [if_pos h₁]
      cases hst : i.status <;> simp [InvoiceFlip.accepts, InvoiceFlip.next, hst] <;> omega
    · rw [if_neg h₁]
      cases hst : i.status <;> simp <;> omega

section Serial

variable {r : Refund} {providerRef : Option Nat} {p : Payment} {taken : Bool} {invoice : Invoice}
  {effectiveNet : Int} {flip : Option InvoiceFlip}

theorem Refunded.payment_eq (h : Refunded Discipline.serial r providerRef p taken invoice effectiveNet flip t s) :
    s.payment? p.id = some p ∧ taken = true := by
  obtain ⟨v, hv, hp⟩ := h.read
  rw [show s = v from hv]
  refine ⟨hp, ?_⟩
  obtain ⟨q, hq, -, hk⟩ := h.payment
  rw [show s = v from hv, hp] at hq
  cases hq
  cases taken with
  | true => rfl
  | false => exact absurd (h.completed.symm.trans (show p.status = .refunded from hk)) (by decide)

theorem Refunded.status_eq (h : Refunded Discipline.serial r providerRef p taken invoice effectiveNet flip t s) :
    ∃ i, s.invoice? p.invoiceId = some i ∧ i.id = invoice.id ∧
      ((t.view s).invoice? i.id).map Invoice.status = some (unwoundStatus i effectiveNet) := by
  obtain ⟨i, hi, hstep⟩ := h.stillThere
  have hid : i.id = invoice.id := by rw [hstep.1]
  have haad : i.amountAfterDiscount = invoice.amountAfterDiscount := by rw [hstep.1]
  have hflip : unwindFlip i effectiveNet = unwindFlip invoice effectiveNet := by
    unfold unwindFlip
    rw [haad]
  refine ⟨i, by rw [← h.invoiceId]; exact hi, hid, ?_⟩
  obtain ⟨v, hv, hof⟩ := h.unwound
  rw [← show s = v from hv] at hof
  have hinv := h.invoices
  have unflipped : flip = none → ((t.view s).invoice? i.id).map Invoice.status = some i.status := by
    rintro rfl
    unfold Store.invoice?
    rw [show (t.view s).invoices = s.invoices from hinv, hid]
    show Option.map _ (s.invoice? invoice.id) = _
    rw [hi]
    rfl
  unfold unwoundStatus
  rw [hflip]
  rcases hof with he | ⟨hnone, hmiss⟩
  · cases hf : unwindFlip invoice effectiveNet with
    | none => exact unflipped (he.trans hf)
    | some f =>
      rw [he, hf] at hinv
      obtain ⟨i', ha, hrep⟩ := hinv
      have hi' : i' = i := Option.some.inj (hrep.before.symm.trans hi)
      subst hi'
      have hnew : (t.view s).invoice? i'.id = some (f.set i') := by
        rw [hid]
        exact hrep.find_self
      simp only [hnew, ha, if_true]
      rfl
  · rw [unflipped hnone]
    cases hf : unwindFlip invoice effectiveNet with
    | none => rfl
    | some f =>
      have hna := hmiss f hf
      rw [hi] at hna
      simp [show f.accepts i = false from hna]

theorem Refunded.sums_eq (hfiled : Filed s)
    (h : Refunded Discipline.serial r providerRef p taken invoice effectiveNet flip t s) :
    effectiveNet = s.paidSum invoice.id - p.amount - (s.processedRefundsSum invoice.id + r.amount) ∧
      (t.view s).netOf invoice.id =
        s.receivedFor invoice.id - (s.processedRefundsSum invoice.id + r.amount) := by
  obtain ⟨hp, htaken⟩ := h.payment_eq
  subst htaken
  obtain ⟨q, hst, hrep⟩ := h.payments
  have hq : q = p := Option.some.inj (hrep.before.symm.trans hp)
  subst hq
  obtain ⟨v₁, v₂, hv₁, hv₂, hsums⟩ := h.sums
  rw [← show s = v₁ from hv₁, ← show s = v₂ from hv₂] at hsums
  have hrefund : r.invoiceId = some invoice.id := by
    obtain ⟨q', hq', hi⟩ := hfiled r.id r h.refunds.before
    rw [h.paymentId, hp] at hq'
    cases hq'
    rw [hi, h.invoiceId]
  have hpaid : (t.view s).paidSum invoice.id = s.paidSum invoice.id - q.amount := by
    have := (counting_paidSum invoice.id).sum_refunded hrep hst
    rw [← paidSum_eq, ← paidSum_eq] at this
    simpa [h.invoiceId] using this
  have hrefunded : (t.view s).processedRefundsSum invoice.id =
      s.processedRefundsSum invoice.id + r.amount := by
    have := sumRefunds_processed (q := fun r => r.invoiceId == some invoice.id) h rfl
    rw [← processedRefundsSum_eq, ← processedRefundsSum_eq] at this
    simpa [hrefund] using this
  have hreceived : (t.view s).receivedFor invoice.id = s.receivedFor invoice.id := by
    have := (counting_receivedFor invoice.id).sum_refunded hrep hst
    simpa [Store.receivedFor] using this
  constructor
  · rw [hsums, hpaid, hrefunded]
  · unfold Store.netOf
    rw [hreceived, hrefunded]

end Serial

theorem unwindsRight_iff_countsOnce {Allowed : Op → Prop} {c : BillingCommit} (hfiled : Filed s)
    (hc : Committed Discipline.serial Allowed s c) : UnwindsRight s c ↔ CountsOnce s c := by
  obtain ⟨-, -, hout⟩ := hc
  obtain ⟨op, t, a⟩ := c
  unfold UnwindsRight CountsOnce
  cases hout with
  | @processed _ ack provider _ r providerRef p taken invoice effectiveNet flip hid hr =>
    subst hid
    obtain ⟨hp, -⟩ := hr.payment_eq
    obtain ⟨i, hi, hiid, hstatus⟩ := hr.status_eq
    obtain ⟨heff, hnet⟩ := hr.sums_eq hfiled
    have hrow : s.refund? r.id = some r := hr.refunds.before
    have hun : Op.unwinding s (.processRefund r.id ack provider) = some (r, p, i) := by
      unfold Op.unwinding
      simp only [hrow, Option.bind_eq_bind, Option.bind_some, hr.paymentId, hp, hi]
      rfl
    rw [← hiid] at heff hnet
    simp only [hun, hstatus, hnet, Option.some.injEq, ne_eq]
    rw [heff]
    exact unwoundStatus_iff i (s.paidSum i.id - p.amount) _ _
  | _ => exact Iff.rfl

/-- **Refund unwinding.**  In every sequence of requests, every processed refund unwinds its
invoice as it should if and only if none meets an invoice whose refunded payments it would
count twice, or a paid one that it should downgrade. -/
theorem unwinding_iff {cs : Schedule 1} {σ : System 1} (hs : s.WF) (hfiled : Filed s)
    (hcs : System.Starts Op.MovesMoney cs) (hrun : run s cs = some σ) :
    AtEach UnwindsRight s σ.log ↔ AtEach CountsOnce s σ.log := by
  have hchain := (chain_serial (fun _ h => h) hs hcs hrun).before Filed hfiled
    fun s c h hc => h.view hc.outcome.refundsMove
  exact AtEach.congr (hchain.mono fun s c h => unwindsRight_iff_countsOnce h.1 h.2).atEach

/-! ## Split payments -/

/-- A payment of 1000 is returned in full. -/
def wholeRefund : Schedule 1 :=
  approvedRefund 0 50 30 10 (request 0 (.processRefund 50 true (some none)) 19 0 ++ [])

/-- Of two payments of 500, the first is returned: the invoice keeps 500 and is `refunded`. -/
def halfRefund : Schedule 1 :=
  approvedRefund 0 50 30 5 (request 0 (.processRefund 50 true (some none)) 19 0 ++ [])

theorem filed_of_no_refunds (h : s.refunds = []) : Filed s := by
  intro i r hr
  unfold Store.refund? at hr
  rw [h] at hr
  cases hr

theorem unwinding_iff_wholeRefund : ∃ σ : System 1,
    run (Store.paidInvoice [completedPayment 30 1000]) wholeRefund = some σ ∧
    AtEach CountsOnce (Store.paidInvoice [completedPayment 30 1000]) σ.log ∧
    AtEach UnwindsRight (Store.paidInvoice [completedPayment 30 1000]) σ.log := by
  obtain ⟨σ, hrun, h⟩ := run_shows run (Store.paidInvoice [completedPayment 30 1000]) wholeRefund
    (fun σ => decide (AtEach CountsOnce (Store.paidInvoice [completedPayment 30 1000]) σ.log))
    (by decide +kernel)
  have h : AtEach CountsOnce (Store.paidInvoice [completedPayment 30 1000]) σ.log := by simpa using h
  refine ⟨σ, hrun, h, (unwinding_iff (by decide) (filed_of_no_refunds rfl) ?_ hrun).2 h⟩
  exact starts_approvedRefund 0 50 30 10 (fun _ _ => trivial) (fun _ _ => trivial)
    (starts_request 0 19 0 trivial starts_nil)

theorem halfRefund_unwinds_wrong : ∃ σ : System 1,
    (Store.paidInvoice [completedPayment 30 500, completedPayment 31 500]).WF ∧
    Filed (Store.paidInvoice [completedPayment 30 500, completedPayment 31 500]) ∧
    System.Starts Op.MovesMoney halfRefund ∧
    run (Store.paidInvoice [completedPayment 30 500, completedPayment 31 500]) halfRefund = some σ ∧
    ¬ AtEach UnwindsRight (Store.paidInvoice [completedPayment 30 500, completedPayment 31 500]) σ.log := by
  obtain ⟨σ, hrun, h⟩ := run_shows run
    (Store.paidInvoice [completedPayment 30 500, completedPayment 31 500]) halfRefund
    (fun σ => decide (¬ AtEach UnwindsRight
      (Store.paidInvoice [completedPayment 30 500, completedPayment 31 500]) σ.log)) (by decide +kernel)
  refine ⟨σ, by decide, filed_of_no_refunds rfl, ?_, hrun, by simpa using h⟩
  exact starts_approvedRefund 0 50 30 5 (fun _ _ => trivial) (fun _ _ => trivial)
    (starts_request 0 19 0 trivial starts_nil)

end Billing
