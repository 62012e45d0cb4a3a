import Shyraq.Billing.Sums

/-!
# Ledger conservation

The balance of a child's account against its receipts and refunds: gateway settlements,
cash receipts and refunds in any interleaving.  A full cash settlement that finds nothing
residual still writes a receipt, and credits nothing.
-/

namespace Billing

open Kernel Transactions

/-- The completed and refunded payments of a child. -/
def Store.receivedFrom (s : Store) (childId : Nat) : Int :=
  s.sumPayments (fun p => p.childId == childId) fun st => st == .completed || st == .refunded

/-- The refund is of a payment of this child. -/
def Store.refundsChild (s : Store) (childId : Nat) (r : Refund) : Bool :=
  (s.payment? r.paymentId).any fun p => p.childId == childId

/-- The processed refunds of a child. -/
def Store.refundedTo (s : Store) (childId : Nat) : Int := s.sumRefunds (s.refundsChild childId)

theorem counting_received (childId : Nat) :
    Counting (fun p => p.childId == childId) fun st => st == .completed || st == .refunded where
  stable h := by rw [h.childId]
  inFlight st h := by cases st <;> first | rfl | cases h
  failed := rfl
  completed := rfl

/-- The invoices of this child, and no others, have this account. -/
def Linked (childId accountId : Nat) (s : Store) : Prop :=
  ∀ i r, s.invoice? i = some r → (r.childId = childId ↔ r.paymentAccountId = accountId)

/-- A full cash settlement finds something residual when it reads the paid sum. -/
def ResidualLeft (_ : Store) (c : BillingCommit) : Prop :=
  match c.op, c.tx.seen with
  | .manualMarkPaid _ id _, v₀ :: v :: _ =>
      (v₀.invoice? id).all (fun i => decide (v.paidSum id < i.amountAfterDiscount)) = true
  | _, _ => True

instance (s : Store) (c : BillingCommit) : Decidable (ResidualLeft s c) := by
  obtain ⟨op, ⟨writes, held, seen⟩, a⟩ := c
  apply Op.casesOn (motive := fun op => Decidable (ResidualLeft s ⟨op, ⟨writes, held, seen⟩, a⟩)) op <;> intros <;>
    rcases seen with _ | ⟨v₀, _ | ⟨v, vs⟩⟩ <;> dsimp only [ResidualLeft] <;> infer_instance

/-- What ties the rows together, and the balance to them. -/
structure Conserved (childId accountId : Nat) (s : Store) : Prop where
  linked : Linked childId accountId s
  payments : ∀ i p, s.payment? i = some p →
    ∃ inv, s.invoice? p.invoiceId = some inv ∧ inv.childId = p.childId
  refunds : ∀ i r, s.refund? i = some r → ∃ p, s.payment? r.paymentId = some p
  balance : s.balanceOf accountId = s.receivedFrom childId - s.refundedTo childId

theorem BalanceMoved.balanceOf_at {s s' : Store} {id other : Nat} {delta : Int}
    (h : BalanceMoved s.accounts s'.accounts id delta) :
    s'.balanceOf other = s.balanceOf other + if id = other then delta else 0 := by
  by_cases he : id = other
  · subst he
    rw [if_pos rfl]
    exact h.balanceOf
  · obtain ⟨a, hr⟩ := h
    have hf : s'.account? other = s.account? other := hr.find_of_ne (Ne.symm he)
    rw [if_neg he]
    unfold Store.balanceOf
    rw [hf]
    omega

variable {childId accountId : Nat} {s : Store} {t : Tx Store Key Write}

theorem refundsChild_view {r : Refund} (h : ∃ p, s.payment? r.paymentId = some p) :
    (t.view s).refundsChild childId r = s.refundsChild childId r := by
  obtain ⟨p, hp⟩ := h
  obtain ⟨p', hp', hstep, -⟩ := (moves_view t s).payments.row _ p hp
  have hp' : (t.view s).payment? r.paymentId = some p' := hp'
  unfold Store.refundsChild
  rw [hp, hp']
  show (p'.childId == childId) = (p.childId == childId)
  rw [hstep.childId]

theorem refundedTo_view (hs : (t.view s).WF)
    (h : ∀ i r, (t.view s).refund? i = some r → ∃ p, s.payment? r.paymentId = some p) :
    (t.view s).refundedTo childId = (t.view s).sumRefunds (s.refundsChild childId) := by
  unfold Store.refundedTo Store.sumRefunds
  refine Table.total_congr fun r hr => ?_
  have hfind : (t.view s).refund? r.id = some r := Table.find_of_mem hs.refundIds hr
  unfold Refund.share
  rw [refundsChild_view (h _ r hfind)]

namespace Conserved

variable {invoice : Invoice} {D : Discipline Store Key Write}

theorem account (h : Conserved childId accountId s) (hst : StillThere invoice s) :
    invoice.childId = childId ↔ invoice.paymentAccountId = accountId := by
  obtain ⟨i, hi, hstep⟩ := hst
  have hl := h.linked _ i hi
  rw [hstep.1] at hl
  exact hl

theorem owner (h : Conserved childId accountId s) {id : Nat} {p : Payment}
    (hp : s.payment? id = some p) (hst : StillThere invoice s) (hid : invoice.id = p.invoiceId) :
    p.childId = invoice.childId := by
  obtain ⟨i, hi, hstep⟩ := hst
  obtain ⟨inv, hinv, hc⟩ := h.payments id p hp
  rw [hid, hinv] at hi
  cases hi
  rw [← hc, hstep.1]

theorem of_links (h : Conserved childId accountId s) (hs : s.WF)
    (hinv : ∀ i, s.invoice? i = none → (t.view s).invoice? i = none)
    (hpay : ∀ i p, s.payment? i = none → (t.view s).payment? i = some p →
      ∃ inv, StillThere inv s ∧ inv.id = p.invoiceId ∧ inv.childId = p.childId)
    (href : ∀ i r, s.refund? i = none → (t.view s).refund? i = some r →
      ∃ p, s.payment? r.paymentId = some p) (hbal : (t.view s).balanceOf accountId = s.balanceOf accountId +
      ((t.view s).receivedFrom childId - s.receivedFrom childId) -
      ((t.view s).sumRefunds (s.refundsChild childId) - s.sumRefunds (s.refundsChild childId))) :
    Conserved childId accountId (t.view s) := by
  have hm := moves_view t s
  have refunds' : ∀ i r, (t.view s).refund? i = some r → ∃ p, s.payment? r.paymentId = some p := by
    intro i r hr
    cases h₀ : s.refund? i with
    | none => exact href i r h₀ hr
    | some r₀ =>
      obtain ⟨r', hr', hstep, -⟩ := hm.refunds.row i r₀ h₀
      have he : r' = r := Option.some.inj (hr'.symm.trans hr)
      obtain ⟨p, hp⟩ := h.refunds i r₀ h₀
      exact ⟨p, by rw [← he, hstep.paymentId]; exact hp⟩
  refine ⟨?_, ?_, ?_, ?_⟩
  · intro i r hr
    cases h₀ : s.invoice? i with
    | none =>
      rw [hinv i h₀] at hr
      cases hr
    | some r₀ =>
      obtain ⟨r', hr', hstep, -⟩ := hm.invoices.row i r₀ h₀
      have he : r' = r := Option.some.inj (hr'.symm.trans hr)
      have hl := h.linked i r₀ h₀
      rw [← he, hstep.1]
      exact hl
  · intro i p hp
    have hrow : ∃ inv, s.invoice? p.invoiceId = some inv ∧ inv.childId = p.childId := by
      cases h₀ : s.payment? i with
      | none =>
        obtain ⟨inv, ⟨j, hj, hstep⟩, hid, hc⟩ := hpay i p h₀ hp
        exact ⟨j, by rw [← hid]; exact hj, by rw [hstep.1]; exact hc⟩
      | some p₀ =>
        obtain ⟨p', hp', hstep, -⟩ := hm.payments.row i p₀ h₀
        have he : p' = p := Option.some.inj (hp'.symm.trans hp)
        obtain ⟨inv, hinv, hc⟩ := h.payments i p₀ h₀
        rw [← he, hstep.invoiceId, hstep.childId]
        exact ⟨inv, hinv, hc⟩
    obtain ⟨inv, hinv, hc⟩ := hrow
    obtain ⟨inv', hinv', hstep, -⟩ := hm.invoices.row _ inv hinv
    exact ⟨inv', hinv', by rw [hstep.1]; exact hc⟩
  · intro i r hr
    obtain ⟨p, hp⟩ := refunds' i r hr
    obtain ⟨p', hp', -, -⟩ := hm.payments.row _ p hp
    exact ⟨p', hp'⟩
  · rw [refundedTo_view (hs.view t) refunds']
    have hb := h.balance
    unfold Store.refundedTo at hb
    omega

theorem still (h : Conserved childId accountId s) (hs : s.WF)
    (hinv : ∀ i, s.invoice? i = none → (t.view s).invoice? i = none)
    (hacc : (t.view s).accounts = s.accounts) (hpay : (t.view s).payments = s.payments)
    (href : (t.view s).refunds = s.refunds) : Conserved childId accountId (t.view s) := by
  refine h.of_links hs hinv ?_ ?_ ?_
  · intro i p h₀ hp
    unfold Store.payment? at h₀ hp
    rw [hpay, h₀] at hp
    cases hp
  · intro i r h₀ hr
    unfold Store.refund? at h₀ hr
    rw [href, h₀] at hr
    cases hr
  · have hb : (t.view s).balanceOf accountId = s.balanceOf accountId := by
      unfold Store.balanceOf Store.account?
      rw [hacc]
    have hr : (t.view s).receivedFrom childId = s.receivedFrom childId := sumPayments_congr hpay
    rw [hb, hr, sumRefunds_congr href]
    omega

theorem settled (h : Conserved childId accountId s) (hs : s.WF) {p : Payment} {paidSum : Int}
    {flip : Option InvoiceFlip} {t₁ : Tx Store Key Write} (hset : Settled D p invoice paidSum flip t₁ t s)
    (hinv : ∀ i, s.invoice? i = none → (t.view s).invoice? i = none)
    (hpay : ∀ i p, s.payment? i = none → (t.view s).payment? i = some p →
      ∃ inv, StillThere inv s ∧ inv.id = p.invoiceId ∧ inv.childId = p.childId)
    (href : (t.view s).refunds = s.refunds) (howner : p.childId = invoice.childId)
    (hsum : (t.view s).receivedFrom childId = s.receivedFrom childId + if p.childId = childId then p.amount else 0) :
    Conserved childId accountId (t.view s) := by
  refine h.of_links hs hinv hpay ?_ ?_
  · intro i r h₀ hr
    unfold Store.refund? at h₀ hr
    rw [href, h₀] at hr
    cases hr
  · have hacc := h.account hset.stillThere
    rw [hset.accounts.balanceOf_at, hsum, sumRefunds_congr href]
    by_cases hc : invoice.childId = childId
    · rw [if_pos (hacc.1 hc), if_pos (howner.trans hc)]
      omega
    · rw [if_neg fun ha => hc (hacc.2 ha), if_neg fun hp => hc (howner.symm.trans hp)]
      omega

theorem delivered (h : Conserved childId accountId s) (hs : s.WF) {entry : Entry} {status : ProviderStatus} {id : Nat}
    (hinv : ∀ i, s.invoice? i = none → (t.view s).invoice? i = none)
    (hd : Delivered D entry status id t s) : Conserved childId accountId (t.view s) := by
  have C := counting_received childId
  cases hd with
  | noted hn =>
    rw [show t.view s = s from view_of_touches hn.1 s]
    exact h
  | processing hst he ht =>
    rw [show t.view s = s from view_of_touches ht s]
    exact h
  | failed p hst hf =>
    obtain ⟨t₁, hw, he⟩ := hf.writes
    have hrest : (t.view s).accounts = s.accounts ∧ (t.view s).refunds = s.refunds := by
      rw [accounts_of_extends he fun w h => h.table_ne (by decide),
        refunds_of_extends he fun w h => h.table_ne (by decide), view_of_writes hw]
      exact ⟨rfl, rfl⟩
    have hquiet : Table.Rewrites Payment.Recalled s.payments (t.view s).payments :=
      hf.payments.rewrites Payment.Recalled.refl (.inr ⟨hf.inFlight, rfl⟩)
    refine h.of_links hs hinv ?_ ?_ ?_
    · intro i p h₀ hp
      rw [show (t.view s).payment? i = none from hquiet.absent h₀] at hp
      cases hp
    · intro i r h₀ hr
      unfold Store.refund? at h₀ hr
      rw [hrest.2, h₀] at hr
      cases hr
    · have hb : (t.view s).balanceOf accountId = s.balanceOf accountId :=
        balanceOf_congr hrest.1 accountId
      have hr : (t.view s).receivedFrom childId = s.receivedFrom childId :=
        C.sum_quiet hs (hs.view t) hquiet
      rw [hb, hr, sumRefunds_congr hrest.2]
      omega
  | completed p p' invoice paidSum flip hst hproc hc =>
    obtain ⟨t₁, txn, paidAt, v₁, v₂, v₃, hw, hseen, hset⟩ := hc.settled
    have hp : s.payment? id = some p := hc.payments.before
    have hreplaced : Table.Replaced s.payments (t.view s).payments id p p' := hc.payments
    have howner : p.childId = invoice.childId := h.owner hp hset.stillThere hset.id
    refine h.settled hs hset hinv ?_ ?_ howner ?_
    · intro i q h₀ hq
      have hsame : (t.view s).payment? i = none := by
        unfold Store.payment? at h₀ ⊢
        rw [hreplaced.after]
        split
        · next he =>
          rw [he, hreplaced.before] at h₀
          cases h₀
        · exact h₀
      rw [hsame] at hq
      cases hq
    · rw [hset.refunds, view_of_writes hw]
      rfl
    · have hsum : (t.view s).receivedFrom childId = _ :=
        C.sum_completed hreplaced hc.inFlight hc.status hc.step
      rw [hsum]
      simp only [beq_iff_eq]
      rfl

theorem initiated (h : Conserved childId accountId s) (hs : s.WF)
    {answer : Payment} (hinv : ∀ i, s.invoice? i = none → (t.view s).invoice? i = none)
    (hi : Initiated D t s answer) : Conserved childId accountId (t.view s) := by
  have C := counting_received childId
  -- the only new row is on an invoice of its child
  have hnew : ∀ {q : Payment}, Opening t s q → ∀ i p, s.payment? i = none →
      (t.view s).payment? i = some p →
      ∃ inv, StillThere inv s ∧ inv.id = p.invoiceId ∧ inv.childId = p.childId := by
    intro q hopen i p h₀ hp
    by_cases hne : i = q.id
    · subst hne
      rw [hopen.self] at hp
      cases hp
      exact hopen.invoice
    · rw [hopen.absent h₀ hne] at hp
      cases hp
  cases hi with
  | answered hext =>
    have hquiet : Table.Rewrites Payment.Recalled s.payments (t.view s).payments := by
      obtain ⟨ws, he, hw⟩ := hext.writes
      rw [view_of_writes he]
      exact recalled_foldl hw s
    have hacc : (t.view s).accounts = s.accounts :=
      accounts_of_extends hext (fun w h => h.table_ne (by decide)) s
    have href : (t.view s).refunds = s.refunds :=
      refunds_of_extends hext (fun w h => h.table_ne (by decide)) s
    refine h.of_links hs hinv ?_ ?_ ?_
    · intro i p h₀ hp
      rw [show (t.view s).payment? i = none from hquiet.absent h₀] at hp
      cases hp
    · intro i r h₀ hr
      unfold Store.refund? at h₀ hr
      rw [href, h₀] at hr
      cases hr
    · have hr : (t.view s).receivedFrom childId = s.receivedFrom childId :=
        C.sum_quiet hs (hs.view t) hquiet
      rw [balanceOf_congr hacc, hr, sumRefunds_congr href]
      omega
  | opened q hopen hst hacc hinvoices =>
    refine h.of_links hs hinv (hnew hopen) ?_ ?_
    · intro i r h₀ hr
      unfold Store.refund? at h₀ hr
      rw [hopen.refunds, h₀] at hr
      cases hr
    · have hr : (t.view s).receivedFrom childId = s.receivedFrom childId + _ := C.sum_opened hs hopen
      rw [C.share_open hst] at hr
      rw [balanceOf_congr hacc, hr, sumRefunds_congr hopen.refunds]
      omega
  | settled q q₀ t₁ invoice paidSum flip hopen hid hst hstep hset =>
    have howner : q₀.childId = invoice.childId := by
      obtain ⟨i, hi, hiid, hic⟩ := hopen.invoice
      obtain ⟨j, hj, hjstep⟩ := hi
      obtain ⟨k, hk, hkstep⟩ := hset.stillThere
      have hsame : i.id = invoice.id := by rw [hiid, hstep.invoiceId, hset.id]
      rw [hsame, hk] at hj
      cases hj
      rw [← hstep.childId, ← hic]
      have h₁ := congrArg Invoice.childId hjstep.1
      have h₂ := congrArg Invoice.childId hkstep.1
      exact h₁.symm.trans h₂
    refine h.settled hs hset hinv (hnew hopen) hopen.refunds howner ?_
    have hr : (t.view s).receivedFrom childId = s.receivedFrom childId + _ := C.sum_opened hs hopen
    rw [hr, C.share_completed hst]
    simp only [beq_iff_eq]
    rw [hstep.childId, hstep.amount]

theorem received (h : Conserved childId accountId s) (hs : s.WF)
    {id : Nat} {input : InvoiceService.ManualMarkPaidInput} {paidSum : Int} {flip : Option InvoiceFlip} {p : Payment}
    {credit : Option Int} (hinv : ∀ i, s.invoice? i = none → (t.view s).invoice? i = none)
    (hc : CashReceipt D id input invoice paidSum flip p credit t s) (hcredit : credit = some p.amount) :
    Conserved childId accountId (t.view s) := by
  have C := counting_received childId
  have href : (t.view s).refunds = s.refunds := hc.refunds
  refine h.of_links hs hinv ?_ ?_ ?_
  · intro i q h₀ hq
    unfold Store.payment? at h₀ hq
    rw [hc.payments.after] at hq
    split at hq
    · cases hq
      exact ⟨invoice, hc.stillThere, hc.invoiceId.symm, hc.childId.symm⟩
    · rw [h₀] at hq
      cases hq
  · intro i r h₀ hr
    unfold Store.refund? at h₀ hr
    rw [href, h₀] at hr
    cases hr
  · have hsum : (t.view s).receivedFrom childId =
        s.receivedFrom childId + if p.childId = childId then p.amount else 0 := by
      have ht := hc.payments.total (Payment.share (fun p => p.childId == childId)
        fun st => st == .completed || st == .refunded)
      rw [C.share_completed hc.status] at ht
      simp only [beq_iff_eq] at ht
      exact ht
    have hmoved : BalanceMoved s.accounts (t.view s).accounts invoice.paymentAccountId p.amount := by
      have hacc := hc.accounts
      rw [hcredit] at hacc
      exact hacc.2
    have hacc := h.account hc.stillThere
    rw [hmoved.balanceOf_at, hsum, sumRefunds_congr href, hc.childId]
    by_cases hch : invoice.childId = childId
    · rw [if_pos (hacc.1 hch), if_pos hch]
      omega
    · rw [if_neg fun ha => hch (hacc.2 ha), if_neg hch]
      omega

theorem reflagged (h : Conserved childId accountId s) (hs : s.WF) {f : InvoiceFlip}
    (hinv : ∀ i, s.invoice? i = none → (t.view s).invoice? i = none) (hr : Reflagged f t s) :
    Conserved childId accountId (t.view s) := h.still hs hinv hr.accounts hr.payments hr.refunds

theorem filed (h : Conserved childId accountId s) (hs : s.WF)
    (hinv : ∀ i, s.invoice? i = none → (t.view s).invoice? i = none)
    (hacc : (t.view s).accounts = s.accounts) (hpay : (t.view s).payments = s.payments)
    (href : ∀ i r, s.refund? i = none → (t.view s).refund? i = some r →
      ∃ p, s.payment? r.paymentId = some p)
    (hsum : (t.view s).sumRefunds (s.refundsChild childId) = s.sumRefunds (s.refundsChild childId)) :
    Conserved childId accountId (t.view s) := by
  refine h.of_links hs hinv ?_ href ?_
  · intro i p h₀ hp
    unfold Store.payment? at h₀ hp
    rw [hpay, h₀] at hp
    cases hp
  · have hr : (t.view s).receivedFrom childId = s.receivedFrom childId := sumPayments_congr hpay
    rw [balanceOf_congr hacc, hr, hsum]
    omega

theorem decided (h : Conserved childId accountId s) (hs : s.WF) {id : Nat} {patch : RefundPatch}
    {r : Refund} (hinv : ∀ i, s.invoice? i = none → (t.view s).invoice? i = none)
    (hpatch : ∀ ref, patch ≠ .processed ref) (hd : Decided id patch r t s) :
    Conserved childId accountId (t.view s) := by
  refine h.filed hs hinv hd.accounts hd.payments ?_ (sumRefunds_decided hpatch hd)
  intro i r' h₀ hr
  unfold Store.refund? at h₀ hr
  rw [hd.refunds.after] at hr
  split at hr
  · next he =>
    rw [he, hd.refunds.before] at h₀
    cases h₀
  · rw [h₀] at hr
    cases hr

theorem processed (h : Conserved childId accountId s) (hs : s.WF)
    {r : Refund} {providerRef : Option Nat} {p : Payment} {taken : Bool}
    {effectiveNet : Int} {flip : Option InvoiceFlip} (hinv : ∀ i, s.invoice? i = none → (t.view s).invoice? i = none)
    (hr : Refunded D r providerRef p taken invoice effectiveNet flip t s) :
    Conserved childId accountId (t.view s) := by
  have C := counting_received childId
  obtain ⟨q, hq, hstep, -⟩ := hr.payment
  have howner : q.childId = invoice.childId :=
    h.owner hq hr.stillThere (hr.invoiceId.trans hstep.invoiceId.symm)
  have hchild : s.refundsChild childId r = (invoice.childId == childId) := by
    unfold Store.refundsChild
    rw [hr.paymentId, hq, ← howner]
    rfl
  refine h.of_links hs hinv ?_ ?_ ?_
  · intro i p' h₀ hp'
    have hnone : (t.view s).payment? i = none := by
      have hpay := hr.payments
      unfold Store.payment? at h₀ ⊢
      cases taken with
      | false =>
        rw [show (t.view s).payments = s.payments from hpay]
        exact h₀
      | true =>
        obtain ⟨q', -, hrep⟩ := hpay
        rw [hrep.after]
        split
        · next he =>
          rw [he, hrep.before] at h₀
          cases h₀
        · exact h₀
    rw [hnone] at hp'
    cases hp'
  · intro i r' h₀ hr'
    unfold Store.refund? at h₀ hr'
    rw [hr.refunds.after] at hr'
    split at hr'
    · next he =>
      rw [he, hr.refunds.before] at h₀
      cases h₀
    · rw [h₀] at hr'
      cases hr'
  · have hsum : (t.view s).receivedFrom childId = s.receivedFrom childId := by
      have hpay := hr.payments
      cases taken with
      | false => exact sumPayments_congr hpay
      | true =>
        obtain ⟨q', hst, hrep⟩ := hpay
        have hs' : (t.view s).receivedFrom childId = s.receivedFrom childId - _ :=
          C.sum_refunded hrep hst
        simpa using hs'
    have hout := sumRefunds_processed (q := s.refundsChild childId) hr rfl
    have hacc := h.account hr.stillThere
    rw [hr.accounts.balanceOf_at, hsum, hout, hchild]
    simp only [beq_iff_eq]
    by_cases hc : invoice.childId = childId
    · rw [if_pos (hacc.1 hc), if_pos hc]
      omega
    · rw [if_neg fun ha => hc (hacc.2 ha), if_neg hc]
      omega

theorem step (h : Conserved childId accountId s) {c : BillingCommit}
    (hc : Committed locks Op.MovesMoney s c) (hmeets : ResidualLeft s c) :
    Conserved childId accountId (c.tx.view s) := by
  obtain ⟨hs, -, hout⟩ := hc
  obtain ⟨op, t, a⟩ := c
  have hinv : ∀ i, s.invoice? i = none → (t.view s).invoice? i = none :=
    fun i hn => hout.invoices.absent hn
  cases hout with
  | delivered hd => exact h.delivered hs hinv hd
  | initiated hi => exact h.initiated hs hinv hi
  | received invoice paidSum flip p credit hr =>
    refine h.received hs hinv hr ?_
    have hkind := hr.kind
    generalize hamount : p.amount = amount at hkind
    rcases hkind with hlt | hle | ⟨flip, amount, hf, hlt⟩
    · rfl
    · -- the receipt read a sum that left nothing residual
      exfalso
      obtain ⟨v, v₁, -, -, hread, hi, hseen⟩ := hr.read
      obtain ⟨rest, hrest⟩ := hseen
      have hrest : t.seen = v₁ :: v :: rest := hrest.symm
      unfold ResidualLeft at hmeets
      simp only [hrest, hi, Option.all_some, decide_eq_true_eq] at hmeets
      rw [hread, hr.id] at hle
      omega
    · rfl
  | cancelled hr => exact h.reflagged hs hinv hr
  | overdue hr => exact h.reflagged hs hinv hr
  | requested p r hr =>
    refine h.filed hs hinv hr.accounts hr.payments ?_ (sumRefunds_requested hr)
    intro i r' h₀ hr'
    unfold Store.refund? at h₀ hr'
    rw [hr.refunds.after] at hr'
    split at hr'
    · cases hr'
      obtain ⟨q, hq, -⟩ := hr.payment
      exact ⟨q, by rw [hr.paymentId]; exact hq⟩
    · rw [h₀] at hr'
      cases hr'
  | approved r hd => exact h.decided hs hinv (by simp) hd
  | rejected r hd => exact h.decided hs hinv (by simp) hd
  | processed r providerRef p taken invoice effectiveNet flip hid hr => exact h.processed hs hinv hr

end Conserved

/-- **Ledger conservation.**  From an empty ledger, in every interleaving in which no full cash
settlement finds its invoice covered already, the balance is what was received less what was
refunded. -/
theorem ledger_conserved {n : Nat} {s : Store} {cs : Schedule n} {σ : System n}
    (childId accountId : Nat) (hs : s.WF) (hlinked : Linked childId accountId s)
    (hpayments : s.payments = []) (hrefunds : s.refunds = []) (hbalance : s.balanceOf accountId = 0)
    (hcs : System.Starts Op.MovesMoney cs) (hrun : run s cs = some σ) (hmeets : AtEach ResidualLeft s σ.log) :
    σ.db.balanceOf accountId = σ.db.receivedFrom childId - σ.db.refundedTo childId := by
  have h₀ : Conserved childId accountId s := by
    refine ⟨hlinked, ?_, ?_, ?_⟩
    · intro i p hp
      unfold Store.payment? at hp
      rw [hpayments] at hp
      cases hp
    · intro i r hr
      unfold Store.refund? at hr
      rw [hrefunds] at hr
      cases hr
    · unfold Store.receivedFrom Store.refundedTo Store.sumPayments Store.sumRefunds
      rw [hpayments, hrefunds, hbalance]
      rfl
  exact (((chain_outcomes (fun _ h => h) hs hcs hrun).and hmeets).inv (Conserved childId accountId) h₀
    fun s c h hc => h.step hc.1 hc.2).balance

/-! ## A receipt that is not credited -/

/-- Two cash receipts of one half each, at once: both flip the invoice to `partial` only. -/
def twoHalves : Schedule 2 :=
  request 0 (.manualMarkPaid 1 20 ⟨some 5, none, none⟩) 4 40 ++
  (request 1 (.manualMarkPaid 2 20 ⟨some 5, none, none⟩) 2 41 ++
  (steps 0 7 40 ++ (steps 1 9 41 ++ [])))

/-- Then the desk marks the rest as paid, and there is no rest. -/
def twoHalvesThenFull : Schedule 2 :=
  request 0 (.manualMarkPaid 1 20 ⟨some 5, none, none⟩) 4 40 ++
  (request 1 (.manualMarkPaid 2 20 ⟨some 5, none, none⟩) 2 41 ++
  (steps 0 7 40 ++ (steps 1 9 41 ++ (request 0 (.manualMarkPaid 3 20 ⟨none, none, none⟩) 9 42 ++ []))))

theorem linked_oneInvoice : Linked 1 10 (Store.oneInvoice .other 1000) := by
  intro i r hr
  have hm := Table.mem_of_find hr
  simp only [Store.oneInvoice, List.mem_singleton] at hm
  subst hm
  simp

theorem ledger_conserved_twoHalves : ∃ σ : System 2,
    run (Store.oneInvoice .other 1000) twoHalves = some σ ∧
    σ.db.balanceOf 10 = σ.db.receivedFrom 1 - σ.db.refundedTo 1 := by
  obtain ⟨σ, hrun, h⟩ := run_shows run (Store.oneInvoice .other 1000) twoHalves
    (fun σ => decide (AtEach ResidualLeft (Store.oneInvoice .other 1000) σ.log)) (by decide +kernel)
  refine ⟨σ, hrun, ledger_conserved 1 10 (by decide) linked_oneInvoice rfl rfl (by decide) ?_ hrun
    (by simpa using h)⟩
  exact starts_request 0 4 40 trivial (starts_request 1 2 41 trivial
    (starts_steps 0 7 40 (starts_steps 1 9 41 starts_nil)))

theorem twoHalvesThenFull_not_conserved : ∃ σ : System 2, (Store.oneInvoice .other 1000).WF ∧
    Linked 1 10 (Store.oneInvoice .other 1000) ∧ (Store.oneInvoice .other 1000).payments = [] ∧
    (Store.oneInvoice .other 1000).refunds = [] ∧ (Store.oneInvoice .other 1000).balanceOf 10 = 0 ∧
    System.Starts Op.MovesMoney twoHalvesThenFull ∧
    run (Store.oneInvoice .other 1000) twoHalvesThenFull = some σ ∧
    σ.db.balanceOf 10 ≠ σ.db.receivedFrom 1 - σ.db.refundedTo 1 := by
  obtain ⟨σ, hrun, h⟩ := run_shows run (Store.oneInvoice .other 1000) twoHalvesThenFull
    (fun σ => decide (σ.db.balanceOf 10 = 1000 ∧ σ.db.receivedFrom 1 = 2000 ∧ σ.db.refundedTo 1 = 0))
    (by decide +kernel)
  simp only [decide_eq_true_eq] at h
  refine ⟨σ, by decide, linked_oneInvoice, rfl, rfl, by decide, ?_, hrun, by omega⟩
  exact starts_request 0 4 40 trivial (starts_request 1 2 41 trivial
    (starts_steps 0 7 40 (starts_steps 1 9 41 (starts_request 0 9 42 trivial starts_nil))))

end Billing
