import Shyraq.Billing.Outcomes

/-!
# Sums over payments and refunds

How the sums that billing reads, or is judged by, move with each request: the payments of
one kind (`q`) that count in their status (`counts`), and the processed refunds of one kind.
-/

namespace Billing

open Kernel Transactions

/-- A payment's part of a sum. -/
def Payment.share (q : Payment → Bool) (counts : PaymentStatus → Bool) (p : Payment) : Int :=
  if q p && counts p.status then p.amount else 0

def Store.sumPayments (s : Store) (q : Payment → Bool) (counts : PaymentStatus → Bool) : Int :=
  Table.total (Payment.share q counts) s.payments

/-- The kind of a payment never changes, and what is not settled does not count. -/
structure Counting (q : Payment → Bool) (counts : PaymentStatus → Bool) : Prop where
  stable : ∀ {p p' : Payment}, Payment.Step p p' → q p' = q p
  inFlight : ∀ st : PaymentStatus, st.inFlight = true → counts st = false
  failed : counts .failed = false
  completed : counts .completed = true

variable {q : Payment → Bool} {counts : PaymentStatus → Bool} {s s' : Store}

theorem share_nonneg (hs : s.WF) : ∀ p ∈ s.payments, 0 ≤ Payment.share q counts p := by
  intro p hp
  have := hs.paymentAmounts p hp
  unfold Payment.share
  split <;> omega

variable {p : Payment}

theorem Counting.share_open (C : Counting q counts) (hp : p.Open) : Payment.share q counts p = 0 := by
  have h : counts p.status = false := by
    cases hst : p.status with
    | initiated => exact C.inFlight _ rfl
    | processing => exact C.inFlight _ rfl
    | failed => exact C.failed
    | completed => exact absurd hst hp.1
    | refunded => exact absurd hst hp.2
  simp [Payment.share, h]

theorem Counting.share_inFlight (C : Counting q counts)
    (hp : p.status.inFlight = true) : Payment.share q counts p = 0 := by
  simp [Payment.share, C.inFlight _ hp]

theorem Counting.share_completed (C : Counting q counts) (hp : p.status = .completed) :
    Payment.share q counts p = if q p then p.amount else 0 := by
  simp [Payment.share, hp, C.completed]

theorem Counting.recalled (C : Counting q counts) {p' : Payment} (h : Payment.Recalled p p') :
    Payment.share q counts p' = Payment.share q counts p := by
  rcases h with rfl | ⟨hp, rfl⟩
  · rfl
  · rw [C.share_inFlight hp, C.share_open (by constructor <;> simp [PaymentPatch.set])]

theorem Counting.sum_quiet (C : Counting q counts) (hs : s.WF) (hs' : s'.WF)
    (h : Table.Rewrites Payment.Recalled s.payments s'.payments) :
    s'.sumPayments q counts = s.sumPayments q counts :=
  h.total_eq hs.paymentIds hs'.paymentIds (fun _ _ hr => C.recalled hr) (share_nonneg hs)
    (share_nonneg hs')

theorem sumPayments_congr (h : s'.payments = s.payments) : s'.sumPayments q counts = s.sumPayments q counts := by
  unfold Store.sumPayments
  rw [h]

theorem Counting.sum_opened (C : Counting q counts) {t : Tx Store Key Write} (hs : s.WF) (h : Opening t s p) :
    (t.view s).sumPayments q counts = s.sumPayments q counts + Payment.share q counts p := by
  obtain ⟨v, hv, hrec, hadd⟩ := h.payments
  rw [← C.sum_quiet hs hv hrec]
  exact hadd.total _

theorem Counting.sum_completed (C : Counting q counts) {id : Nat} {p' : Payment}
    (h : Table.Replaced s.payments s'.payments id p p') (hp : p.status.inFlight = true)
    (hp' : p'.status = .completed) (hstep : Payment.Step p p') :
    s'.sumPayments q counts = s.sumPayments q counts + if q p then p.amount else 0 := by
  have ht := h.total (Payment.share q counts)
  rw [C.share_inFlight hp, C.share_completed hp', C.stable hstep, hstep.amount] at ht
  unfold Store.sumPayments
  omega

/-- A payment that is refunded counts no more, unless refunded payments do. -/
theorem Counting.sum_refunded (C : Counting q counts) {id refundId : Nat}
    (h : Table.Replaced s.payments s'.payments id p ((PaymentPatch.refunded refundId).set p))
    (hp : p.status = .completed) : s'.sumPayments q counts =
      s.sumPayments q counts - if q p && !counts .refunded then p.amount else 0 := by
  have hstep : Payment.Step p ((PaymentPatch.refunded refundId).set p) :=
    PaymentPatch.step (by simp [PaymentPatch.accepts, hp])
  have ht := h.total (Payment.share q counts)
  rw [C.share_completed hp] at ht
  have hnew : Payment.share q counts ((PaymentPatch.refunded refundId).set p) =
      if q p && counts .refunded then p.amount else 0 := by
    unfold Payment.share
    rw [C.stable hstep]
    rfl
  rw [hnew] at ht
  unfold Store.sumPayments
  cases hq : q p <;> cases hc : counts .refunded <;> simp [hq, hc] at ht ⊢ <;> omega

/-! ## The sum that billing reads -/

theorem paidSum_eq (s : Store) (id : Nat) :
    s.paidSum id = s.sumPayments (fun p => p.invoiceId == id) (fun st => st == .completed) :=
  Table.total_filter _ _ _

theorem counting_paidSum (id : Nat) : Counting (fun p => p.invoiceId == id) (fun st => st == .completed) where
  stable h := by rw [h.invoiceId]
  inFlight st h := by cases st <;> first | rfl | cases h
  failed := rfl
  completed := rfl

/-! ## Refunds -/

/-- A refund's part of a sum of processed refunds. -/
def Refund.share (q : Refund → Bool) (r : Refund) : Int :=
  if q r && r.status == .processed then r.amount else 0

def Store.sumRefunds (s : Store) (q : Refund → Bool) : Int := Table.total (Refund.share q) s.refunds

theorem processedRefundsSum_eq (s : Store) (id : Nat) :
    s.processedRefundsSum id = s.sumRefunds fun r => r.invoiceId == some id :=
  Table.total_filter _ _ _

section

variable {q : Refund → Bool} {t : Tx Store Key Write}

theorem sumRefunds_congr (h : s'.refunds = s.refunds) : s'.sumRefunds q = s.sumRefunds q := by
  unfold Store.sumRefunds
  rw [h]

theorem sumRefunds_requested {r : Refund} (h : Requested p r t s) : (t.view s).sumRefunds q = s.sumRefunds q := by
  have ht := h.refunds.total (Refund.share q)
  have hz : Refund.share q r = 0 := by simp [Refund.share, h.status]
  unfold Store.sumRefunds
  omega

theorem sumRefunds_decided {id : Nat} {patch : RefundPatch} {r : Refund}
    (hpatch : ∀ ref, patch ≠ .processed ref) (h : Decided id patch r t s) :
    (t.view s).sumRefunds q = s.sumRefunds q := by
  have ht := h.refunds.total (Refund.share q)
  have hpend : r.status = .pending := by
    have ha := h.accepts
    cases patch with
    | processed ref => exact absurd rfl (hpatch ref)
    | approved staff => simpa [RefundPatch.accepts] using ha
    | rejected reason => simpa [RefundPatch.accepts] using ha
  have hz : Refund.share q r = 0 := by simp [Refund.share, hpend]
  have hz' : Refund.share q (patch.set r) = 0 := by
    cases patch with
    | processed ref => exact absurd rfl (hpatch ref)
    | approved staff => simp [Refund.share, RefundPatch.set]
    | rejected reason => simp [Refund.share, RefundPatch.set]
  unfold Store.sumRefunds
  omega

theorem sumRefunds_processed {D : Discipline Store Key Write} {r : Refund} {providerRef : Option Nat}
    {taken : Bool} {invoice : Invoice} {effectiveNet : Int} {flip : Option InvoiceFlip}
    (h : Refunded D r providerRef p taken invoice effectiveNet flip t s)
    (hq : q ((RefundPatch.processed providerRef).set r) = q r) :
    (t.view s).sumRefunds q = s.sumRefunds q + if q r then r.amount else 0 := by
  have ht := h.refunds.total (Refund.share q)
  have hz : Refund.share q r = 0 := by simp [Refund.share, h.approved]
  have hz' : Refund.share q ((RefundPatch.processed providerRef).set r) = if q r then r.amount else 0 := by
    unfold Refund.share
    rw [hq]
    simp [RefundPatch.set]
  unfold Store.sumRefunds
  omega

end

/-- What a request makes of the refunds. -/
inductive RefundsMove (D : Discipline Store Key Write) (t : Tx Store Key Write) (s : Store) : Op → Prop
  | same {op} (h : (t.view s).refunds = s.refunds) : RefundsMove D t s op
  | requested {op} (p : Payment) (r : Refund) (h : Requested p r t s) : RefundsMove D t s op
  | decided {op} (id : Nat) (patch : RefundPatch) (r : Refund) (hp : ∀ ref, patch ≠ .processed ref)
      (h : Decided id patch r t s) : RefundsMove D t s op
  | processed {ack provider} (r : Refund) (providerRef : Option Nat) (p : Payment) (taken : Bool)
      (invoice : Invoice) (effectiveNet : Int) (flip : Option InvoiceFlip)
      (h : Refunded D r providerRef p taken invoice effectiveNet flip t s) :
      RefundsMove D t s (.processRefund r.id ack provider)

variable {D : Discipline Store Key Write} {t : Tx Store Key Write} {op : Op} {a : Answer}

theorem Outcome.refundsMove (h : Outcome D t s op a) : RefundsMove D t s op := by
  cases h with
  | delivered h =>
    cases h with
    | noted h => exact .same (by rw [view_of_touches h.1]; rfl)
    | completed p p' invoice paidSum flip hs hp h =>
      obtain ⟨t₁, txn, paidAt, v₁, v₂, v₃, hw, hseen, hset⟩ := h.settled
      refine .same ?_
      rw [hset.refunds, view_of_writes hw]
      rfl
    | failed p hs h =>
      obtain ⟨t₁, hw, he⟩ := h.writes
      refine .same ?_
      rw [refunds_of_extends he fun w h => h.table_ne (by decide), view_of_writes hw]
      rfl
    | processing hs he h => exact .same (by rw [view_of_touches h]; rfl)
  | initiated h =>
    cases h with
    | answered h => exact .same (refunds_of_extends h (fun w h => h.table_ne (by decide)) s)
    | opened p h status accounts invoices => exact .same h.refunds
    | settled p p₀ t₁ invoice paidSum flip h id status step hset => exact .same h.refunds
  | received invoice paidSum flip p credit h => exact .same h.refunds
  | cancelled h => exact .same h.refunds
  | overdue h => exact .same h.refunds
  | requested p r h => exact .requested p r h
  | approved r h => exact .decided _ _ r (by simp) h
  | rejected r h => exact .decided _ _ r (by simp) h
  | processed r providerRef p taken invoice effectiveNet flip hid h =>
    subst hid
    exact .processed r providerRef p taken invoice effectiveNet flip h

theorem RefundsMove.before (h : RefundsMove D t s op) {i : Nat} {r : Refund} (hr : (t.view s).refund? i = some r) :
    (∃ r₀, s.refund? i = some r₀ ∧ Refund.Step r₀ r) ∨ ∃ p, Requested p r t s := by
  cases h₀ : s.refund? i with
  | some r₀ =>
    obtain ⟨r', hr', hstep, -⟩ := (moves_view t s).refunds.row i r₀ h₀
    have he : r' = r := Option.some.inj (hr'.symm.trans hr)
    exact .inl ⟨r₀, rfl, he ▸ hstep⟩
  | none =>
    have replaced : ∀ {j r₁ r₂}, Table.Replaced s.refunds (t.view s).refunds j r₁ r₂ → False := by
      intro j r₁ r₂ hrep
      unfold Store.refund? at h₀ hr
      rw [hrep.after] at hr
      split at hr
      · next he =>
        rw [he, hrep.before] at h₀
        cases h₀
      · rw [h₀] at hr
        cases hr
    cases h with
    | same he =>
      unfold Store.refund? at h₀ hr
      rw [he, h₀] at hr
      cases hr
    | requested p r' h =>
      unfold Store.refund? at hr
      rw [h.refunds.after] at hr
      split at hr
      · cases hr
        exact .inr ⟨p, h⟩
      · exact absurd (h₀.symm.trans hr) (by simp)
    | decided id patch r' hp h => exact (replaced h.refunds).elim
    | processed r' providerRef p taken invoice effectiveNet flip h => exact (replaced h.refunds).elim

theorem payment_view {id : Nat} (hp : s.payment? id = some p) :
    ∃ p', (t.view s).payment? id = some p' ∧ p'.amount = p.amount ∧
      (p.status = .refunded → p'.status = .refunded) := by
  obtain ⟨p', hp', hstep, -⟩ := (moves_view t s).payments.row id p hp
  refine ⟨p', hp', hstep.amount, ?_⟩
  intro hst
  have hreach := hstep.status
  rw [hst] at hreach
  cases h' : p'.status <;> rw [h'] at hreach <;> first | rfl | cases hreach

/-! ## The account of a payment -/

/-- The account that money for a payment goes to: the one of its invoice. -/
def Store.accountFor (s : Store) (paymentId : Nat) : Option Nat :=
  (s.payment? paymentId).bind fun p => (s.invoice? p.invoiceId).map Invoice.paymentAccountId

theorem accountFor_view {id : Nat} {invoice : Invoice}
    (hp : (t.view s).payment? id = some p) (hid : p.invoiceId = invoice.id)
    (hst : StillThere invoice s) : (t.view s).accountFor id = some invoice.paymentAccountId := by
  obtain ⟨i, hi, hstep⟩ := hst
  obtain ⟨i', hi', hstep', -⟩ := (moves_view t s).invoices.row _ i hi
  unfold Store.accountFor
  rw [hp, Option.bind_some, hid]
  show Option.map _ (Table.find (t.view s).invoices invoice.id) = _
  rw [hi', Option.map_some, (hstep.trans hstep').1]

end Billing
