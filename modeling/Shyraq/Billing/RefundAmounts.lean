import Shyraq.Billing.Sums

/-!
# How large a refund is

`create` checks a refund against its payment.  The archive job does not: it takes its share
from the whole invoice, and files it on the latest completed payment, which may have paid for
a part of the invoice only.
-/

namespace Billing

open Kernel Transactions

/-! ## The share of an invoice -/

/-- Holidays of this range that are not billable. -/
def Store.nonBillableInRange (s : Store) (start stop : Int) : Int :=
  ((s.reference.holidays.filter fun h =>
    !h.isBillable && decide (start ≤ h.date) && decide (h.date ≤ stop)).length : Int)

/-- The latest completed payment of an invoice. -/
def Store.latestCompleted (s : Store) (invoiceId : Nat) : Option Payment :=
  (orderBy (fun a b => decide (b.createdAt ≤ a.createdAt))
    (s.payments.filter fun p => p.invoiceId == invoiceId)).find? fun p => p.status == .completed

/-- The payment is no smaller than the share, rounded half to even. -/
def CoversShare (amountAfterDiscount : Int) (days : ProRataRefundProcessor.BillableDays) (amount : Int) :
    Prop :=
  2 * (amountAfterDiscount * days.refundableDays) < (2 * amount + 1) * days.totalBillableDays ∨
    (2 * (amountAfterDiscount * days.refundableDays) = (2 * amount + 1) * days.totalBillableDays ∧
      amount % 2 = 0)

instance (a : Int) (days : ProRataRefundProcessor.BillableDays) (amount : Int) :
    Decidable (CoversShare a days amount) := inferInstanceAs (Decidable (_ ∨ _))

namespace ProRataRefundProcessor

theorem round_refundShare_le_iff {amountAfterDiscount amount : Int} {days : BillableDays}
    (h : 0 < days.totalBillableDays) : MoneyKzt.round (refundShare amountAfterDiscount days) ≤ amount ↔
      CoversShare amountAfterDiscount days amount := by
  have hpos : (0 : ℚ) < days.totalBillableDays := by exact_mod_cast h
  have hq : refundShare amountAfterDiscount days * 100 =
      (amountAfterDiscount * days.refundableDays : Int) / (days.totalBillableDays : ℚ) := by
    unfold refundShare MoneyKzt.toDecimal
    push_cast
    ring
  have hhalf : (amount : ℚ) + 1 / 2 = (2 * amount + 1) / 2 := by ring
  unfold MoneyKzt.round MoneyKzt.fromKzt CoversShare
  rw [roundHalfEven_le_iff, hq, hhalf, div_lt_div_iff₀ hpos two_pos, div_eq_div_iff hpos.ne' two_ne_zero]
  refine or_congr ?_ (and_congr_left fun _ => ?_)
  · rw [mul_comm _ (2 : ℚ)]
    exact_mod_cast Iff.rfl
  · rw [mul_comm _ (2 : ℚ)]
    exact_mod_cast Iff.rfl

/-- The day counts of an invoice, from the two committed states that the holidays are read in. -/
def daysOf (i : Invoice) (archivedLocal : Int) (atTotal atArchive : Store) : BillableDays :=
  billableDays i.periodStart i.periodEnd archivedLocal
    (atTotal.nonBillableInRange i.periodStart i.periodEnd)
    (if 0 < archivedDays i.periodStart i.periodEnd archivedLocal then
      atArchive.nonBillableInRange i.periodStart archivedLocal else 0)

/-- What the job found, when it came as far as the payments: the SELECTs of `computeAndCreate`
in order are the child, the earlier refunds, the invoice, the holidays of the period, those up
to the archive day if there are any such days, and the payments. -/
def found (childId : Nat) (archivedAt : Int) : List Store → Option (Invoice × BillableDays × Payment)
  | _ :: _ :: atInvoice :: atTotal :: rest => do
      let i ← atInvoice.currentInvoiceForChildAt childId archivedAt
      let archivedLocal := formatDateInTimezone archivedAt
      if 0 < archivedDays i.periodStart i.periodEnd archivedLocal then
        match rest with
        | [atArchive, atPayments] =>
            (atPayments.latestCompleted i.id).map fun p => (i, daysOf i archivedLocal atTotal atArchive, p)
        | _ => none
      else
        match rest with
        | [atPayments] =>
            (atPayments.latestCompleted i.id).map fun p => (i, daysOf i archivedLocal atTotal atTotal, p)
        | _ => none
  | _ => none

end ProRataRefundProcessor

/-- What a pro-rata job found. -/
def Op.foundShare (seen : List Store) :
    Op → Option (Invoice × ProRataRefundProcessor.BillableDays × Payment)
  | .proRataRefund _ childId archivedAt => ProRataRefundProcessor.found childId archivedAt seen
  | _ => none

/-- The job finds a payment that covers the share, if it finds one at all. -/
def ShareCovered (_ : Store) (c : BillingCommit) : Prop :=
  ∀ f ∈ c.op.foundShare c.tx.seen, CoversShare f.1.amountAfterDiscount f.2.1 f.2.2.amount

instance (s : Store) (c : BillingCommit) : Decidable (ShareCovered s c) :=
  inferInstanceAs (Decidable (∀ _ ∈ _, _))

/-! ## One request -/

namespace ProRataRefundProcessor

/-- A refund of the share is on file. -/
structure ShareFiled (i : Invoice) (days : BillableDays) (p : Payment) (r : Refund) (t : Tx Store Key Write)
    (s : Store) : Prop where
  someDays : 0 < days.totalBillableDays
  paymentId : r.paymentId = p.id
  amount : r.amount = MoneyKzt.round (refundShare i.amountAfterDiscount days)
  payment : PaymentThere p s
  refunds : Table.Added s.refunds (t.view s).refunds r

/-- What the job has done when it commits. -/
inductive JobOutcome (childId : Nat) (archivedAt : Int) (t : Tx Store Key Write) (s : Store) : Prop
  | skipped (writes : t.writes = []) (found : found childId archivedAt t.seen = none)
  | filed (i : Invoice) (days : BillableDays) (p : Payment) (r : Refund)
      (found : found childId archivedAt t.seen = some (i, days, p)) (h : ShareFiled i days p r t s)

variable {D : Discipline Store Key Write} {J : Store → Prop} {X : BillingError → Prop}
  {t : Tx Store Key Write} {s : Store} {childId : Nat} {archivedAt : Int}

theorem safe_skip (a : ProRataRefundOutcome) (hw : t.writes = [])
    (hf : found childId archivedAt t.seen = none) :
    Prog.Safe D J X (fun t s (_ : ProRataRefundOutcome) => JobOutcome childId archivedAt t s)
      (Prog.ret a) t s := fun _ _ _ => .skipped hw hf

theorem safe_attachRefund (S : Setting D J X) (now : Int) {i : Invoice} {days : BillableDays}
    (hdays : 0 < days.totalBillableDays) (hw : t.writes = []) (hf : ∀ v, found childId archivedAt (t.seen ++ [v]) =
      (v.latestCompleted i.id).map fun p => (i, days, p)) :
    Prog.Safe D J X (fun t s (_ : ProRataRefundOutcome) => JobOutcome childId archivedAt t s)
      (attachRefund now i (refundShare i.amountAfterDiscount days)) t s := by
  unfold attachRefund
  refine Prog.Safe.query fun s₁ _ hj₁ => ?_
  have hview : t.view s₁ = s₁ := Tx.view_of_unwritten hw s₁
  have hseen : (t.saw s₁).seen = t.seen ++ [s₁] := by rw [Tx.seen_saw, hview]
  rw [hview]
  generalize hp : List.find? _ _ = latest
  have hp : s₁.latestCompleted i.id = latest := hp
  cases latest with
  | none =>
    refine safe_skip _ hw ?_
    rw [hseen, hf, hp]
    rfl
  | some p =>
    have hmem : p ∈ s₁.payments := by
      have := List.mem_of_find?_eq_some hp
      exact List.mem_of_mem_filter ((List.perm_insertionSort _ _).mem_iff.1 this)
    have hthere : PaymentThere p s₁ := ⟨p, Table.find_of_mem (S.wf hj₁).paymentIds hmem, .refl p⟩
    refine Prog.Safe.keep (PaymentThere p) [] (by simp)
      (fun _ _ hr _ _ h => keep_paymentThere (S.moves hr) h) hj₁ hthere ?_
    refine Prog.Safe.uuid fun s₂ id _ hj₂ _ _ => ?_
    unfold RefundRepository.create
    simp only [Prog.bind_eq, Prog.bind_assoc]
    refine safe_insertOr S.throws fun s₃ _ hj₃ hh => ?_
    generalize hr : (Refund.mk id p.id (some i.id) (MoneyKzt.round (refundShare i.amountAfterDiscount days))
      proRataRefundReason .pending none none now) = r at hh ⊢
    have hin : s₃.admitsRefund r = true := by
      have hv : ((t.saw s₁).locked (Key.row id)).view s₃ = s₃ := Tx.view_of_unwritten (by exact hw) s₃
      exact hv ▸ hh
    have hrow : ∀ t : Tx Store Key Write, Key.row r.id ∈ (t.wrote (.insertRefund r)).held :=
      fun t => List.mem_append_left _ List.mem_cons_self
    refine Prog.Safe.keep (fun s => s.admitsRefund r = true) _ (List.Subset.refl _)
      (fun _ _ hm _ _ h => keep_admitsRefund (hrow _) (S.moves hm) h) hj₃ hin ?_
    intro s' _ hj'
    have hview' : (((t.saw s₁).locked (Relational.rowKey Store id)).wrote (.insertRefund r)).view s' =
        s'.apply (.insertRefund r) := by
      rw [Tx.view_wrote, Tx.view_of_unwritten (by exact hw)]
      rfl
    have hadd := added_of_admitsRefund hj'.2
    rw [← hview'] at hadd
    refine .filed i days p r ?_ ?_
    · show found childId archivedAt (t.saw s₁).seen = _
      rw [hseen, hf, hp]
      rfl
    · subst hr
      exact ⟨hdays, rfl, rfl, hj'.1.2, hadd⟩

theorem safe_refundInvoice (S : Setting D J X) (now : Int) {i : Invoice} (v₁ v₂ : Store) {v₃ : Store}
    (hw : t.writes = []) (hseen : t.seen = [v₁, v₂, v₃])
    (hi : v₃.currentInvoiceForChildAt childId archivedAt = some i) :
    Prog.Safe D J X (fun t s (_ : ProRataRefundOutcome) => JobOutcome childId archivedAt t s)
      (refundInvoice now archivedAt i) t s := by
  -- the holidays are read once or twice
  have close : ∀ {t : Tx Store Key Write} {s : Store} (days : BillableDays), t.writes = [] →
      found childId archivedAt t.seen = none →
      (∀ v, found childId archivedAt (t.seen ++ [v]) =
        (v.latestCompleted i.id).map fun p => (i, days, p)) →
      Prog.Safe D J X (fun t s (_ : ProRataRefundOutcome) => JobOutcome childId archivedAt t s)
        (if days.totalBillableDays ≤ 0 then Prog.ret (.skipped .noBillableDaysAfterArchive)
          else if refundShare i.amountAfterDiscount days ≤ 0 then
            Prog.ret (.skipped .computedAmountZeroOrNegative)
          else attachRefund now i (refundShare i.amountAfterDiscount days)) t s := by
    intro t s days hw hnone hf
    split
    · exact safe_skip _ hw hnone
    · split
      · exact safe_skip _ hw hnone
      · exact safe_attachRefund S now (by omega) hw hf
  unfold refundInvoice computeBillableDays
  simp only [Prog.bind_eq, Prog.bind_assoc]
  refine Prog.Safe.query fun s₄ _ hj₄ => ?_
  have hview₄ : t.view s₄ = s₄ := Tx.view_of_unwritten hw s₄
  by_cases hd : 0 < archivedDays i.periodStart i.periodEnd (formatDateInTimezone archivedAt)
  · rw [if_pos hd]
    refine Prog.Safe.query fun s₅ _ hj₅ => ?_
    have hseen₅ : ((t.saw s₄).saw s₅).seen = [v₁, v₂, v₃, s₄, s₅] := by
      rw [Tx.seen_saw, Tx.seen_saw, hseen, Tx.view_saw, Tx.view_of_unwritten hw, Tx.view_of_unwritten hw]
      rfl
    have hdays : daysOf i (formatDateInTimezone archivedAt) s₄ s₅ = billableDays i.periodStart i.periodEnd
        (formatDateInTimezone archivedAt) (s₄.nonBillableInRange i.periodStart i.periodEnd)
        (s₅.nonBillableInRange i.periodStart (formatDateInTimezone archivedAt)) := by
      unfold daysOf
      rw [if_pos hd]
    rw [Tx.view_saw, hview₄, Tx.view_of_unwritten hw]
    refine close _ hw ?_ ?_
    · rw [hseen₅]
      simp [found, hi, hd]
    · intro v
      rw [hseen₅]
      simp only [found, hi, hd, hdays, List.cons_append, List.nil_append, Option.bind_eq_bind,
        Option.bind_some, if_true]
      rfl
  · rw [if_neg hd]
    have hseen₄ : (t.saw s₄).seen = [v₁, v₂, v₃, s₄] := by
      rw [Tx.seen_saw, hseen, hview₄]
      rfl
    have hdays : daysOf i (formatDateInTimezone archivedAt) s₄ s₄ = billableDays i.periodStart i.periodEnd
        (formatDateInTimezone archivedAt) (s₄.nonBillableInRange i.periodStart i.periodEnd) 0 := by
      unfold daysOf
      rw [if_neg hd]
    rw [hview₄]
    refine close _ hw ?_ ?_
    · rw [hseen₄]
      simp [found, hi]
    · intro v
      rw [hseen₄]
      simp only [found, hi, hd, hdays, List.cons_append, List.nil_append, Option.bind_eq_bind,
        Option.bind_some, if_false]
      rfl

theorem safe_computeAndCreate (S : Setting D J X) (now : Int) (childId : Nat) (archivedAt : Int) :
    Prog.Safe D J X (fun t s (_ : ProRataRefundOutcome) => JobOutcome childId archivedAt t s)
      (computeAndCreate now childId archivedAt) .start s := by
  unfold computeAndCreate
  refine Prog.Safe.acquire fun s₀ _ hj₀ => ?_
  refine Prog.Safe.query fun s₁ _ hj₁ => ?_
  split
  · split
    · exact S.throws _
    · exact safe_skip _ rfl rfl
  · refine Prog.Safe.query fun s₂ _ hj₂ => ?_
    split
    · refine Prog.Safe.query fun s₃ _ hj₃ => ?_
      have hview : (((Tx.start.locked (Key.proRata childId)).saw s₁).saw s₂).view s₃ = s₃ := rfl
      rw [hview]
      cases hi : s₃.currentInvoiceForChildAt childId archivedAt with
      | none =>
        refine safe_skip _ ?_ ?_
        · rfl
        · rfl
      | some i =>
        refine safe_refundInvoice S now s₁ s₂ ?_ ?_ hi
        · rfl
        · rfl
    · exact safe_skip _ rfl rfl

theorem covered_attachRefund (now : Int) (i : Invoice) (amount : Decimal) :
    IsCovered (attachRefund now i amount) := by
  unfold attachRefund
  refine .bind (.query _) fun payments => ?_
  split
  · exact .ret _
  · refine .bind .uuid fun id => .bind ?_ fun _ => .ret _
    exact .bind (.insertOr (by simp [Write.Plain])) fun _ => .ret _

theorem covered_refundInvoice (now archivedAt : Int) (i : Invoice) : IsCovered (refundInvoice now archivedAt i) := by
  have days : ∀ a b c, IsCovered (computeBillableDays a b c) := by
    intro a b c
    unfold computeBillableDays
    refine .bind (.query _) fun _ => ?_
    dsimp only
    split
    · exact .bind (.query _) fun _ => .ret _
    · exact .ret _
  unfold refundInvoice
  refine .bind (days _ _ _) fun d => ?_
  split
  · exact .ret _
  · split
    · exact .ret _
    · exact covered_attachRefund now i _

theorem covered_computeAndCreate (now : Int) (childId : Nat) (archivedAt : Int) :
    IsCovered (computeAndCreate now childId archivedAt) := by
  unfold computeAndCreate
  refine .bind (.acquire _) fun _ => .bind (.query _) fun child => ?_
  split
  · split
    · exact .throw _
    · exact .ret _
  · refine .bind (.query _) fun existing => ?_
    split
    · refine .bind (.query _) fun invoice => ?_
      cases invoice with
      | none => exact .ret _
      | some i => exact covered_refundInvoice now archivedAt i
    · exact .ret _

end ProRataRefundProcessor

/-! ## Every refund and its payment -/

/-- No refund row exceeds its payment. -/
def Store.RefundsBounded (s : Store) : Prop :=
  ∀ i r, s.refund? i = some r → ∃ p, s.payment? r.paymentId = some p ∧ r.amount ≤ p.amount

/-- Every refund row has its payment on file. -/
def Store.RefundsOnFile (s : Store) : Prop :=
  ∀ i r, s.refund? i = some r → ∃ p, s.payment? r.paymentId = some p

/-- The requests that money moves with, and the archive job. -/
def Op.FilesRefunds (op : Op) : Prop :=
  op.MovesMoney ∨ ∃ now childId archivedAt, op = .proRataRefund now childId archivedAt

/-- What a commit makes of the refunds. -/
inductive RefundStep (s : Store) (c : BillingCommit) : Prop
  | moved (hop : c.op.MovesMoney) (h : RefundsMove locks c.tx s c.op)
  | job (now : Int) (childId : Nat) (archivedAt : Int) (hop : c.op = .proRataRefund now childId archivedAt)
      (h : ProRataRefundProcessor.JobOutcome childId archivedAt c.tx s)

section

variable {s : Store} {c : BillingCommit} {t : Tx Store Key Write}

theorem foundShare_of_movesMoney {op : Op} {seen : List Store} (h : op.MovesMoney) : op.foundShare seen = none := by
  cases op <;> first | rfl | exact h.elim

theorem shareCovered_of_movesMoney (h : c.op.MovesMoney) : ShareCovered s c := by
  intro f hf
  rw [foundShare_of_movesMoney h] at hf
  cases hf

/-- The payment of a new refund, and whether it is large enough. -/
structure NewRefund (s : Store) (c : BillingCommit) (r : Refund) (p : Payment) : Prop where
  row : (c.tx.view s).refund? r.id = some r
  payment : s.payment? r.paymentId = some p
  covered : ShareCovered s c ↔ r.amount ≤ p.amount

theorem newRefund_filed {now archivedAt : Int} {childId : Nat} {i : Invoice}
    {days : ProRataRefundProcessor.BillableDays} {p : Payment} {r : Refund}
    (hop : c.op = .proRataRefund now childId archivedAt)
    (hf : ProRataRefundProcessor.found childId archivedAt c.tx.seen = some (i, days, p))
    (h : ProRataRefundProcessor.ShareFiled i days p r c.tx s) : ∃ q, NewRefund s c r q := by
  obtain ⟨q, hq, hstep⟩ := h.payment
  rw [← h.paymentId] at hq
  refine ⟨q, ?_, hq, ?_⟩
  · unfold Store.refund?
    rw [h.refunds.after]
    exact if_pos rfl
  · have hshare : MoneyKzt.round (ProRataRefundProcessor.refundShare i.amountAfterDiscount days) ≤
        p.amount ↔ CoversShare i.amountAfterDiscount days p.amount :=
      ProRataRefundProcessor.round_refundShare_le_iff h.someDays
    rw [hstep.amount, h.amount, hshare]
    have hfound : c.op.foundShare c.tx.seen = some (i, days, p) := by
      rw [hop]
      exact hf
    unfold ShareCovered
    rw [hfound]
    simp

theorem RefundStep.before (h : RefundStep s c) {i : Nat} {r : Refund} (hr : (c.tx.view s).refund? i = some r) :
    (∃ r₀, s.refund? i = some r₀ ∧ Refund.Step r₀ r) ∨ ∃ p, NewRefund s c r p := by
  have hid : r.id = i := Table.id_of_find hr
  cases h with
  | moved hop h =>
    rcases h.before hr with hold | ⟨p, hreq⟩
    · exact .inl hold
    · obtain ⟨q, hq, hstep⟩ := hreq.payment
      rw [← hreq.paymentId] at hq
      refine .inr ⟨q, hid ▸ hr, hq, iff_of_true (shareCovered_of_movesMoney hop) ?_⟩
      rw [hstep.amount]
      exact hreq.amount
  | job now childId archivedAt hop h =>
    cases h with
    | skipped hw hf =>
      rw [Tx.view_of_unwritten hw] at hr
      exact .inl ⟨r, hr, .refl r⟩
    | filed inv days p r' hf h =>
      unfold Store.refund? at hr
      rw [h.refunds.after] at hr
      split at hr
      · cases hr
        exact .inr (newRefund_filed hop hf h)
      · exact .inl ⟨r, hr, .refl r⟩

theorem RefundStep.covered_or_new (h : RefundStep s c) : ShareCovered s c ∨ ∃ r p, NewRefund s c r p := by
  cases h with
  | moved hop h => exact .inl (shareCovered_of_movesMoney hop)
  | job now childId archivedAt hop h =>
    cases h with
    | skipped hw hnone =>
      refine .inl fun f hf => ?_
      rw [hop] at hf
      have : (none : Option _) = some f := hnone.symm.trans hf
      cases this
    | filed i days p r hf h =>
      obtain ⟨q, hq⟩ := newRefund_filed hop hf h
      exact .inr ⟨r, q, hq⟩

theorem RefundStep.onFile (h : RefundStep s c) (hs : s.RefundsOnFile) : (c.tx.view s).RefundsOnFile := by
  intro i r hr
  have old : ∃ p, s.payment? r.paymentId = some p := by
    rcases h.before hr with ⟨r₀, hr₀, hstep⟩ | ⟨p, hnew⟩
    · rw [hstep.paymentId]
      exact hs i r₀ hr₀
    · exact ⟨p, hnew.payment⟩
  obtain ⟨p, hp⟩ := old
  obtain ⟨p', hp', -⟩ := payment_view (t := c.tx) hp
  exact ⟨p', hp'⟩

theorem refundsBounded_of_view (hs : s.RefundsOnFile) (h : (t.view s).RefundsBounded) : s.RefundsBounded := by
  intro i r hr
  obtain ⟨r', hr', hstep, -⟩ := (moves_view t s).refunds.row i r hr
  obtain ⟨p, hp⟩ := hs i r hr
  obtain ⟨p', hp', hamount, -⟩ := payment_view (t := t) hp
  obtain ⟨q, hq, hle⟩ := h i r' hr'
  rw [hstep.paymentId, hp'] at hq
  cases hq
  exact ⟨p, hp, by rw [← hamount, ← hstep.amount]; exact hle⟩

/-- A commit keeps the bound exactly when the job, if it is one, finds a payment large enough. -/
theorem RefundStep.bounded_iff (h : RefundStep s c) (hfile : s.RefundsOnFile) :
    (c.tx.view s).RefundsBounded ↔ s.RefundsBounded ∧ ShareCovered s c := by
  constructor
  · intro hb
    refine ⟨refundsBounded_of_view hfile hb, ?_⟩
    rcases h.covered_or_new with hcov | ⟨r, p, hnew⟩
    · exact hcov
    · obtain ⟨p', hp', hamount, -⟩ := payment_view (t := c.tx) hnew.payment
      obtain ⟨q, hq, hle⟩ := hb r.id r hnew.row
      rw [hp'] at hq
      cases hq
      rw [hamount] at hle
      exact hnew.covered.2 hle
  · rintro ⟨hb, hcov⟩ i r hr
    have old : ∃ p, s.payment? r.paymentId = some p ∧ r.amount ≤ p.amount := by
      rcases h.before hr with ⟨r₀, hr₀, hstep⟩ | ⟨p, hnew⟩
      · obtain ⟨p, hp, hle⟩ := hb i r₀ hr₀
        exact ⟨p, by rw [hstep.paymentId]; exact hp, by rw [hstep.amount]; exact hle⟩
      · exact ⟨p, hnew.payment, hnew.covered.1 hcov⟩
    obtain ⟨p, hp, hle⟩ := old
    obtain ⟨p', hp', hamount, -⟩ := payment_view (t := c.tx) hp
    exact ⟨p', hp', by rw [hamount]; exact hle⟩

end

/-! ## Runs -/

theorem safe_refundStep {s : Store} (hs : s.WF) (op : Op) (hop : op.FilesRefunds) :
    Prog.Safe locks Store.WF (fun _ => True) (fun t s a => RefundStep s ⟨op, t, a⟩) op.prog .start s := by
  rcases hop with hop | ⟨now, childId, archivedAt, rfl⟩
  · exact (safe_prog setting_locks hs op hop).mono fun _ _ _ _ h => .moved hop h.refundsMove
  · exact (ProRataRefundProcessor.safe_computeAndCreate setting_locks now childId archivedAt).map
      fun _ _ _ _ h => .job now childId archivedAt rfl h

theorem covered_filesRefunds (op : Op) (hop : op.FilesRefunds) : IsCovered op.prog := by
  rcases hop with hop | ⟨now, childId, archivedAt, rfl⟩
  · exact covered_prog op hop
  · exact (ProRataRefundProcessor.covered_computeAndCreate now childId archivedAt).bind fun _ => .ret _

theorem chain_refundSteps {n : Nat} {s : Store} {cs : Schedule n} {σ : System n} (hs : s.WF)
    (hcs : System.Starts Op.FilesRefunds cs) (hrun : run s cs = some σ) :
    Chain (fun s c => s.WF ∧ RefundStep s c) s σ.log σ.db :=
  chain_of_covered (D := locks) covered_filesRefunds (fun op _ hop hs => safe_refundStep hs op hop)
    (fun _ c hs _ => hs.view c.tx) (fun s _ _ _ hcov => guarantee_locks hcov s) hs hcs hrun

/-- **A refund is bounded by its payment** in a run exactly when each archive job of it finds a
payment that covers the share of the invoice. -/
theorem refundsBounded_iff {n : Nat} {s : Store} {cs : Schedule n} {σ : System n} (hs : s.WF)
    (hbound : ∀ r ∈ s.refunds, ∃ p, s.payment? r.paymentId = some p ∧ r.amount ≤ p.amount)
    (hcs : System.Starts Op.FilesRefunds cs) (hrun : run s cs = some σ) :
    (∀ r ∈ σ.db.refunds, 0 < r.amount ∧ ∃ p, σ.db.payment? r.paymentId = some p ∧ r.amount ≤ p.amount) ↔
      AtEach ShareCovered s σ.log := by
  have h₀ : s.RefundsBounded := fun i r hr => hbound r (Table.mem_of_find hr)
  have hfile : s.RefundsOnFile := by
    intro i r hr
    obtain ⟨p, hp, -⟩ := h₀ i r hr
    exact ⟨p, hp⟩
  have hchain := chain_refundSteps hs hcs hrun
  have hwf : σ.db.WF := hchain.inv Store.WF hs fun s c hs _ => hs.view c.tx
  have hfiled := hchain.before Store.RefundsOnFile hfile fun s c hf hc => hc.2.onFile hf
  have hiff := hfiled.inv_iff Store.RefundsBounded h₀ fun s c hc => hc.2.2.bounded_iff hc.1
  rw [← hiff]
  constructor
  · intro h i r hr
    exact (h r (Table.mem_of_find hr)).2
  · intro h r hr
    exact ⟨hwf.refundAmounts r hr, h r.id r (Table.find_of_mem hwf.refundIds hr)⟩

/-! ## A payment of a part -/

/-- The child has left; its invoice of 1000 for days 0 to 30 is paid in part. -/
def Store.archivedChild (paid : Nat) : Store :=
  { Store.oneInvoice .monthly 1000 with
    reference := ⟨[⟨1, .archived, 0, none⟩], [], [], [], [], [90]⟩
    invoices := [⟨20, 1, 10, none, .monthly, 0, 30, 1000, none, none, 1000, .partial_, 100, none, 0⟩]
    payments := [completedPayment 30 paid] }

/-- The job for a child archived on day 10. -/
def archiveJob : Schedule 1 := request 0 (.proRataRefund 900000000 1 864000000) 10 50 ++ []

theorem starts_archiveJob : System.Starts Op.FilesRefunds archiveJob :=
  starts_request 0 10 50 (.inr ⟨_, _, _, rfl⟩) starts_nil

theorem refundsBounded_iff_largePart : ∃ σ : System 1,
    run (Store.archivedChild 900) archiveJob = some σ ∧ σ.db.refunds ≠ [] ∧
    ∀ r ∈ σ.db.refunds, 0 < r.amount ∧ ∃ p, σ.db.payment? r.paymentId = some p ∧ r.amount ≤ p.amount := by
  obtain ⟨σ, hrun, h⟩ := run_shows run (Store.archivedChild 900) archiveJob
    (fun σ => decide (σ.db.refunds ≠ [] ∧ AtEach ShareCovered (Store.archivedChild 900) σ.log))
    (by decide +kernel)
  obtain ⟨hne, hcov⟩ : σ.db.refunds ≠ [] ∧ AtEach ShareCovered (Store.archivedChild 900) σ.log := by
    simpa using h
  refine ⟨σ, hrun, hne, (refundsBounded_iff (by decide) ?_ starts_archiveJob hrun).2 hcov⟩
  exact fun _ hr => absurd hr List.not_mem_nil

/-- A share of 645 of the invoice, refunded from a payment of 100. -/
theorem smallPart_refunded_beyond : ∃ σ : System 1,
    (Store.archivedChild 100).WF ∧ (Store.archivedChild 100).refunds = [] ∧
    System.Starts Op.FilesRefunds archiveJob ∧ run (Store.archivedChild 100) archiveJob = some σ ∧
    ∃ r ∈ σ.db.refunds, ∃ p, σ.db.payment? r.paymentId = some p ∧ r.amount = 645 ∧ p.amount = 100 := by
  obtain ⟨σ, hrun, h⟩ := run_shows run (Store.archivedChild 100) archiveJob
    (fun σ => σ.db.refunds.any fun r => (σ.db.payment? r.paymentId).any fun (p : Payment) =>
      decide (r.amount = 645 ∧ p.amount = 100)) (by decide +kernel)
  obtain ⟨r, hr, h⟩ := List.any_eq_true.1 h
  obtain ⟨p, hp, h⟩ := (Option.any_eq_true _ _).1 h
  exact ⟨σ, by decide, rfl, starts_archiveJob, hrun, r, hr, p, hp, by simpa using h⟩

end Billing
