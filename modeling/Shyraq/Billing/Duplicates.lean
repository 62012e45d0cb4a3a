import Shyraq.Billing.Announcing

/-!
# When a settlement is flagged as a duplicate

`detectDoublePayment` looks for another completed payment of the invoice.  What it reads it reads under
the lock of the invoice, so that the answer is the same when the settlement commits.
-/

namespace Billing

open Kernel Transactions

/-! ## The discipline of the payment locks -/

/-- Money stays on its invoice; and under the lock of an invoice no first payment of it completes. -/
structure PaymentMoves (held : List Key) (s s' : Store) : Prop extends Moves held s s' where
  money : ∀ id, s.hasMoney id = true → s'.hasMoney id = true
  first : ∀ id, Key.payment id ∈ held → s'.hasMoney id = true → s.hasMoney id = true

def paymentLocks : Discipline Store Key Write where
  rely := PaymentMoves
  refl held s := { Moves.refl held s with money := fun _ h => h, first := fun _ _ h => h }
  trans h₁ h₂ :=
    { h₁.toMoves.trans h₂.toMoves with
      money := fun id h => h₂.money id (h₁.money id h)
      first := fun id hk h => h₁.first id hk (h₂.first id hk h) }
  mono hs h := { h.toMoves.mono hs with money := h.money, first := fun id hk => h.first id (hs hk) }

theorem PaymentMoves.hasMoney_eq {held : List Key} {s s' : Store} (h : PaymentMoves held s s') {id : Nat}
    (hk : Key.payment id ∈ held) : s'.hasMoney id = s.hasMoney id :=
  Bool.eq_iff_iff.2 ⟨h.first id hk, h.money id⟩

/-! ## The flag -/

/-- Flagged for a manual refund as a second payment of its invoice. -/
def Payment.isDuplicate (p : Payment) : Bool :=
  p.refundRequired && p.refundReason == some RefundReason.doublePayment.text

/-- Another payment of the invoice is completed. -/
def Store.hasOther (s : Store) (p : Payment) : Bool :=
  s.payments.any fun q => q.invoiceId == p.invoiceId && q.id != p.id && q.status == .completed

/-- The row after the check: flagged where it duplicates another, and otherwise as it was. -/
def Payment.Checked (duplicate : Bool) (p p' : Payment) : Prop :=
  if duplicate then ∃ d, p' = { p with
    refundRequired := true, refundReason := some RefundReason.doublePayment.text, duplicateOfPaymentId := some d }
  else p' = p

variable {p : Payment}

theorem Payment.Checked.isDuplicate {duplicate : Bool} {p' : Payment} (h : p.Checked duplicate p')
    (hp : p.refundRequired = false) : p'.isDuplicate = duplicate := by
  cases duplicate with
  | false =>
    rw [show p' = p from h]
    simp [Payment.isDuplicate, hp]
  | true =>
    obtain ⟨d, rfl⟩ := h
    simp [Payment.isDuplicate]

theorem Payment.Checked.status {duplicate : Bool} {p' : Payment} (h : p.Checked duplicate p') :
    p'.status = p.status ∧ p'.invoiceId = p.invoiceId := by
  cases duplicate with
  | false =>
    rw [show p' = p from h]
    exact ⟨rfl, rfl⟩
  | true =>
    obtain ⟨d, rfl⟩ := h
    exact ⟨rfl, rfl⟩

variable {D : Discipline Store Key Write} {J : Store → Prop} {X : BillingError → Prop}
  {t t' : Tx Store Key Write} {s s' : Store}

/-- What is not about payments. -/
def Write.Elsewhere (w : Write) : Prop := w.table ≠ .payments

theorem payments_elsewhere (h : Tx.Extends Write.Elsewhere t t') (s : Store) :
    (t'.view s).payments = (t.view s).payments := payments_of_extends h (fun _ h => h) s

theorem payment?_elsewhere (h : Tx.Extends Write.Elsewhere t t') (s : Store) (id : Nat) :
    (t'.view s).payment? id = (t.view s).payment? id := by
  unfold Store.payment?
  rw [payments_elsewhere h]

theorem elsewhere_flipInvoice (payment : Payment) (invoice : Invoice) (paidSum : Int) :
    Prog.OnlyWrites Write.Elsewhere (PaymentService.flipInvoice payment invoice paidSum) :=
  onlyWrites_flipInvoice (by simp [Write.Elsewhere, Write.table]) (by simp [Write.Elsewhere, Write.table])
    fun n _ => by simp [Write.Elsewhere, Write.table]

theorem elsewhere_cancelIfPrepayment (paidFlip : Option Invoice) (invoice : Invoice) :
    Prog.OnlyWrites Write.Elsewhere (PaymentService.cancelIfPrepayment paidFlip invoice) := by
  unfold PaymentService.cancelIfPrepayment
  split
  · exact onlyWrites_cancelCoveredMonthlies (by simp [Write.Elsewhere, Write.table])
      (by simp [Write.Elsewhere, Write.table]) fun n _ => by simp [Write.Elsewhere, Write.table]
  · trivial

theorem elsewhere_notify (n : Notification) : Prog.OnlyWrites Write.Elsewhere (notify n) :=
  onlyWrites_notify (by simp [Write.Elsewhere, Write.table])

theorem hasOther_updated {v v' : Store} {q q' : Payment} {c : Payment → Bool} {f : Payment → Payment}
    (hid : q'.id = q.id) (hinvoice : q'.invoiceId = q.invoiceId)
    (hv : v'.payments = Table.updateWhere v.payments q.id c f) (hf : ∀ r, (f r).id = r.id) :
    v'.hasOther q' = v.hasOther q := by
  unfold Store.hasOther
  rw [hv, hid, hinvoice]
  unfold Table.updateWhere
  rw [List.any_map]
  refine List.any_congr rfl fun r => ?_
  by_cases hhit : (Row.id r == q.id && c r) = true
  · have hr : r.id = q.id := by
      rw [Bool.and_eq_true, beq_iff_eq] at hhit
      exact hhit.1
    have hsame : (f r).id = q.id := (hf r).trans hr
    simp only [Function.comp_apply, if_pos hhit]
    simp [hsame, hr]
  · simp only [Function.comp_apply, if_neg hhit]

theorem head_others {le le' : Payment → Payment → Bool} :
    ((orderBy le ((orderBy le' (s.payments.filter fun q => q.invoiceId == p.invoiceId)).filter
      fun q => q.id != p.id && q.status == .completed)).head?).isSome = s.hasOther p := by
  generalize hl : orderBy le _ = l
  have hmem : ∀ q, q ∈ l ↔ q ∈ s.payments ∧ q.invoiceId = p.invoiceId ∧ q.id ≠ p.id ∧ q.status = .completed := by
    intro q
    rw [← hl]
    unfold orderBy
    rw [List.mem_insertionSort, List.mem_filter, List.mem_insertionSort, List.mem_filter]
    simp only [Bool.and_eq_true, beq_iff_eq, bne_iff_ne]
    tauto
  have hother : s.hasOther p = true ↔ ∃ q, q ∈ l := by
    unfold Store.hasOther
    rw [List.any_eq_true]
    refine exists_congr fun q => ?_
    rw [hmem q]
    simp only [Bool.and_eq_true, beq_iff_eq, bne_iff_ne]
    tauto
  rw [Bool.eq_iff_iff, hother]
  cases l with
  | nil => simp
  | cons q l => exact ⟨fun _ => ⟨q, List.mem_cons_self⟩, fun _ => rfl⟩

/-- The check on a payment that the transaction sees, and what follows it. -/
theorem safe_detect {A : Type} {Q : Tx Store Key Write → Store → A → Prop} {f : Unit → Sql A}
    (S : Setting D J X) (hrow : ∀ s, J s → (t.view s).payment? p.id = some p)
    (rest : ∀ t' s' v, J v → D.rely t.held v s' → J s' → t.held ⊆ t'.held →
      (∀ s, J s → ∃ p', (t'.view s).payment? p.id = some p' ∧ p.Checked ((t.view v).hasOther p) p') →
      Prog.Safe D J X Q (f ()) t' s') :
    Prog.Safe D J X Q (Prog.bind (PaymentService.detectDoublePayment p) f) t s := by
  unfold PaymentService.detectDoublePayment
  simp only [Prog.bind_eq, Prog.bind_assoc]
  refine Prog.Safe.query fun v _ hv => ?_
  have hhead : (Option.isSome (List.head? (orderBy (fun a b => decide (a.createdAt ≤ b.createdAt))
      ((orderBy (fun a b => decide (b.createdAt ≤ a.createdAt))
        ((t.view v).payments.filter fun q => q.invoiceId == p.invoiceId)).filter
          fun q => q.id != p.id && q.status == .completed)))) = (t.view v).hasOther p := head_others
  generalize List.head? _ = earlier at hhead ⊢
  cases earlier with
  | none =>
    refine rest (t.saw v) v v hv (D.refl _ _) hv (List.Subset.refl _) fun s hj => ⟨p, hrow s hj, ?_⟩
    rw [← hhead]
    rfl
  | some e =>
    show Prog.Safe D J X Q (Prog.bind (Prog.bind (PaymentRepository.markRefundRequired p.id .doublePayment e.id)
      fun _ => PaymentService.notifyRefundRequiredToAdmins p (some e.id) .doublePayment) f) _ _
    rw [Prog.bind_assoc]
    refine safe_returning ?_ ?_
    · intro s₁ hr₁ hj₁ _
      refine Prog.Safe.query fun s₂ hr₂ hj₂ => ?_
      let t₂ := ((t.saw v).wrote (.markRefundRequired p.id .doublePayment e.id)).saw s₂
      have hnote : Prog.OnlyWrites Write.Elsewhere
          (PaymentService.notifyRefundRequiredToAdmins p (some e.id) .doublePayment) :=
        onlyWrites_notifyRefundRequiredToAdmins fun n _ => by simp [Write.Elsewhere, Write.table]
      refine Prog.Safe.bind_frame hnote S.throws hj₂ fun _ t₃ s₃ he₃ hr₃ hj₃ => ?_
      have hheld : t.held ⊆ t₂.held := fun k hk => List.mem_append_right _ hk
      have hrely : D.rely t.held v s₃ := D.trans hr₁ (D.trans (D.mono hheld hr₂) (D.mono hheld hr₃))
      refine rest t₃ s₃ v hv hrely hj₃ (List.Subset.trans hheld he₃.held) fun s hj => ?_
      refine ⟨_, ?_, (?_ : p.Checked _ { p with
        refundRequired := true, refundReason := some RefundReason.doublePayment.text, duplicateOfPaymentId := some e.id })⟩
      · rw [payment?_elsewhere he₃]
        have hrep : Table.Replaced (t.view s).payments (t₂.view s).payments p.id p { p with
            refundRequired := true, refundReason := some RefundReason.doublePayment.text,
            duplicateOfPaymentId := some e.id } := by
          rw [Tx.view_saw, Tx.view_wrote]
          exact .updateWhere (p := fun _ => true) ((S.wf hj).view t).paymentIds (fun _ => rfl) (hrow s hj) rfl
        exact hrep.find_self
      · rw [← hhead]
        exact ⟨e.id, rfl⟩
    · intro s₁ _ hj₁ hmiss
      have hthere : (Table.find (t.view s₁).payments p.id).isSome = false := hmiss
      rw [show Table.find (t.view s₁).payments p.id = some p from hrow s₁ hj₁] at hthere
      cases hthere

theorem safe_settleChecked (S : Setting D J X) (hrow : ∀ s, J s → (t.view s).payment? p.id = some p) (now : Int) :
    Prog.Safe D J X (fun t' s' _ => t.held ⊆ t'.held ∧ ∃ v p', J v ∧ D.rely t.held v s' ∧
        (t'.view s').payment? p.id = some p' ∧ p.Checked ((t.view v).hasOther p) p')
      (PaymentService.settle now p) t s := by
  unfold PaymentService.settle
  refine Prog.Safe.query fun s₁ _ hj₁ => safe_require S.throws fun invoice _ => ?_
  refine Prog.Safe.query fun s₂ _ hj₂ => ?_
  refine Prog.Safe.bind_frame (elsewhere_flipInvoice _ _ _) S.throws hj₂ fun res t₁ s₃ he₁ _ hj₃ => ?_
  refine Prog.Safe.bind_frame (elsewhere_cancelIfPrepayment _ _) S.throws hj₃ fun _ t₂ s₄ he₂ _ hj₄ => ?_
  have hcredit : Prog.OnlyWrites Write.Elsewhere
      (PaymentAccountService.creditFromPayment invoice.paymentAccountId p.amount) :=
    onlyWrites_moveBalance fun _ _ => by simp [Write.Elsewhere, Write.table]
  refine Prog.Safe.bind_frame hcredit S.throws hj₄ fun _ t₃ s₅ he₃ _ hj₅ => ?_
  have he : Tx.Extends Write.Elsewhere t t₃ := (((Tx.Extends.refl t).saw s₁).saw s₂).trans (he₁.trans (he₂.trans he₃))
  unfold PaymentService.announceCompleted
  refine safe_detect S (fun s hj => by rw [payment?_elsewhere he, hrow s hj]) fun t₄ s₆ v hv hr₄ hj₆ hh₄ hchecked => ?_
  have hlast : Prog.OnlyWrites Write.Elsewhere (Prog.bind (notify (.paymentCompleted p.id invoice.childId invoice.id
      p.amount p.provider (p.paidAt.getD now))) fun _ =>
      if invoice.amountAfterDiscount ≤ Store.paidSum (Tx.view (t.saw s₁) s₂) p.invoiceId then
        notify (.invoicePaid invoice.id invoice.childId invoice.amountAfterDiscount (p.paidAt.getD now))
      else pure ()) := by
    refine (elsewhere_notify _).bind fun _ => ?_
    split
    · exact elsewhere_notify _
    · trivial
  refine (Prog.Safe.of_onlyWrites hlast S.throws hj₆).mono fun t' s' _ hj' h => ?_
  obtain ⟨he', hr'⟩ := h
  obtain ⟨p', hp', hcheck⟩ := hchecked s' hj'
  have hother : (t₃.view v).hasOther p = (t.view v).hasOther p := by
    unfold Store.hasOther
    rw [payments_elsewhere he]
  refine ⟨List.Subset.trans he.held (List.Subset.trans hh₄ he'.held), v, p', hv, ?_, ?_, hother ▸ hcheck⟩
  · exact D.mono he.held (D.trans hr₄ (D.mono hh₄ hr'))
  · rw [payment?_elsewhere he', hp']

/-- The payment as the transaction sees it, on this invoice. -/
def VisibleOn (t : Tx Store Key Write) (id invoiceId : Nat) (s : Store) : Prop :=
  ∃ p, (t.view s).payment? id = some p ∧ p.invoiceId = invoiceId

theorem safe_observeLocked {A : Type} {Q : Tx Store Key Write → Store → A → Prop} (S : Setting D J X) {id : Nat}
    {f : Payment → Sql A} (B : Base J t id)
    (h : ∀ t₁ s₁ p, t₁.writes = t.writes → t.held ⊆ t₁.held → Key.payment p.invoiceId ∈ t₁.held → J s₁ →
      (t.view s₁).payment? id = some p → Prog.Safe D J X Q (f p) t₁ s₁) : Prog.Safe D J X Q (do
      let found ← PaymentRepository.findById id
      let current ← require found (.paymentNotFound id)
      PaymentRepository.acquirePaymentAdvisoryLock current.invoiceId
      let found ← PaymentRepository.findById id
      let reread ← require found (.paymentNotFound id)
      f reread) t s := by
  refine Prog.Safe.query fun s₁ _ hj₁ => safe_require S.throws fun current hcurrent => ?_
  refine Prog.Safe.acquire fun s₂ hr₂ hj₂ => Prog.Safe.query fun s₃ hr₃ hj₃ => ?_
  refine safe_require S.throws fun p hp => ?_
  have hmoves : Moves [] s₁ s₃ := ((S.moves hr₂).mono (List.nil_subset _)).trans ((S.moves hr₃).mono (List.nil_subset _))
  obtain ⟨p', hp', hstep, -⟩ := B.step hmoves hj₁ hj₃ hcurrent
  obtain rfl := Option.some.inj (hp'.symm.trans hp)
  refine h _ s₃ p' rfl (fun k hk => List.mem_cons_of_mem _ hk) ?_ hj₃ hp
  rw [hstep.invoiceId]
  exact List.mem_cons_self

/-- A payment that completes, checked against what was committed under the lock of its invoice. -/
structure Completes (D : Discipline Store Key Write) (J : Store → Prop) (t t' : Tx Store Key Write) (id : Nat)
    (s : Store) (q p' : Payment) : Prop where
  before : (t.view s).payment? id = some q
  inFlight : q.status.inFlight = true
  lock : Key.payment q.invoiceId ∈ t'.held
  after : (t'.view s).payment? id = some p'
  checked : ∃ v txn paidAt, J v ∧ D.rely [.payment q.invoiceId] v s ∧ (t.view v).payment? id = some q ∧
    ((PaymentPatch.completed txn paidAt).set q).Checked ((t.view v).hasOther q) p'

theorem safe_applyCompletedChecked (S : Setting D J X) (now : Int) (id : Nat) (verified : VerifyWebhookResult)
    (B : Base J t id) : Prog.Safe D J X (fun t' s' _ => Past t id s' ∨ ∃ q p', Completes D J t t' id s' q p')
      (PaymentService.applyCompletedPayment now id verified) t s := by
  unfold PaymentService.applyCompletedPayment
  refine safe_observeLocked S B fun t₁ s₁ p hw hh hlock hj₁ hp => ?_
  split
  · next hdone =>
    have hpast : Past t id s₁ := by
      refine ⟨p, hp, ?_⟩
      rcases hdone with h | h <;> rw [h] <;> rfl
    refine safe_keepPast S B hj₁ hpast ?_
    exact (Prog.Safe.of_onlyWrites (Prog.OnlyWrites.any _) S.throws ⟨hj₁, hpast⟩).mono fun _ _ _ hj' _ => .inl hj'.2
  · have hvisible : VisibleOn t id p.invoiceId s₁ := ⟨p, hp, rfl⟩
    refine Prog.Safe.keep (VisibleOn t id p.invoiceId) [] (by simp) ?_ hj₁ hvisible ?_
    · rintro s s' hr hj hj' ⟨q, hq, hinvoice⟩
      obtain ⟨q', hq', hstep, -⟩ := B.step (S.moves hr) hj hj' hq
      exact ⟨q', hq', hstep.invoiceId.trans hinvoice⟩
    have S₁ := S.and (VisibleOn t id p.invoiceId)
    have B₁ := (B.and (VisibleOn t id p.invoiceId)).of_writes hw
    refine safe_markPayment S₁ B₁ (fun s hj => ?_) ?_ ?_
    · rw [view_of_writes_eq hw]
      obtain ⟨q, hq, -⟩ := hj.2
      exact ⟨q, hq⟩
    · intro s₂ q hj₂ hq ha
      rw [view_of_writes_eq hw] at hq
      have hinvoice : q.invoiceId = p.invoiceId := by
        obtain ⟨q', hq', h⟩ := hj₂.2
        rwa [Option.some.inj (hq.symm.trans hq')]
      let patch := PaymentPatch.completed verified.providerPaymentId now
      let t₂ := (t₁.wrote (.markPayment id patch)).saw s₂
      have hw₂ : t₂.writes = t.writes ++ [.markPayment id patch] := by simp [t₂, hw]
      have hid : (patch.set q).id = id := (patch.id_set q).trans (Table.id_of_find hq)
      have hmark : ∀ s, J s → (t.view s).payment? id = some q →
          Table.Replaced (t.view s).payments (t₂.view s).payments id q (patch.set q) := by
        intro s hj hqs
        rw [view_of_writes hw₂]
        exact .updateWhere ((S.wf hj).view t).paymentIds patch.id_set hqs ha
      have hseen : ∀ s, (J s ∧ VisibleOn t id p.invoiceId s) ∧ (t₁.view s).payment? id = some q →
          (t₂.view s).payment? (patch.set q).id = some (patch.set q) := by
        rintro s ⟨⟨hj, -⟩, hqs⟩
        rw [view_of_writes_eq hw] at hqs
        rw [hid]
        exact (hmark s hj hqs).find_self
      have hlock₂ : Key.payment q.invoiceId ∈ t₂.held := by
        rw [hinvoice]
        exact List.mem_append_right _ hlock
      refine (safe_settleChecked (S₁.and _) hseen now).map ?_
      rintro t' s' _ ⟨-, hq'⟩ ⟨hheld, v, p', hv, hrely, hp', hchecked⟩
      rw [view_of_writes_eq hw] at hq'
      have hqv := hv.2
      rw [view_of_writes_eq hw] at hqv
      refine .inr ⟨q, p', hq', ha, hheld hlock₂, hid ▸ hp', v, verified.providerPaymentId,
        now, hv.1.1, ?_, hqv, ?_⟩
      · exact D.mono (List.cons_subset.2 ⟨hlock₂, List.nil_subset _⟩) hrely
      · have hqid : q.id = id := Table.id_of_find hqv
        have hupdated : (t₂.view v).payments = Table.updateWhere (t.view v).payments q.id patch.accepts patch.set := by
          rw [view_of_writes hw₂, hqid]
          rfl
        rwa [hasOther_updated (patch.id_set q) rfl hupdated patch.id_set] at hchecked
    · intro s₂ q hj₂ hq ha
      rw [view_of_writes_eq hw] at hq
      refine safe_keepPast S₁ (B.and _) hj₂ ⟨q, hq, ha⟩ ?_
      exact (Prog.Safe.of_onlyWrites (Prog.OnlyWrites.any _) S₁.throws ⟨hj₂, ⟨q, hq, ha⟩⟩).mono
        fun _ _ _ hj' _ => .inl hj'.2

/-! ## The requests -/

theorem safe_deliverChecked (S : Setting D J X) (hj : J s) (now : Int) (id : Nat) (verified : VerifyWebhookResult)
    (entry : Entry) : Prog.Safe D J X (fun t s _ => Settling entry verified.status → Past .start id s ∨
        ∃ q p', Completes D J .start t id s q p')
      (deliver now id verified entry) .start s := by
  have other : ∀ prog : Sql Payment, ¬Settling entry verified.status → Prog.Safe D J X
      (fun t s _ => Settling entry verified.status → Past .start id s ∨ ∃ q p', Completes D J .start t id s q p')
      prog .start s := fun prog hnot =>
    (Prog.Safe.of_onlyWrites (Prog.OnlyWrites.any prog) S.throws hj).mono fun _ _ _ _ _ h => absurd h hnot
  have completed : Prog.Safe D J X
      (fun t s _ => Settling entry verified.status → Past .start id s ∨ ∃ q p', Completes D J .start t id s q p')
      (PaymentService.applyCompletedPayment now id verified) .start s :=
    (safe_applyCompletedChecked S now id verified (.of_start J id rfl)).mono fun _ _ _ _ h _ => h
  have poller : Prog.Safe D J X
      (fun t s _ => Settling entry verified.status → Past .start id s ∨ ∃ q p', Completes D J .start t id s q p')
      (PaymentService.settleFromKaspiPoller now id verified) .start s := by
    unfold PaymentService.settleFromKaspiPoller
    split
    · next hf => exact other _ fun h => h.1 hf
    · exact completed
  cases entry with
  | processWebhook =>
    show Prog.Safe D J X _ (PaymentService.processWebhook now id verified) _ _
    unfold PaymentService.processWebhook
    split
    · next hf => exact other _ fun h => h.1 hf
    · split
      · next hp => exact other _ fun h => h.2 hp rfl
      · exact completed
  | settleFromKaspiPoller => exact poller
  | settleFromBccReconciliation => exact poller

/-- The row that `initiate` has opened for this input, within what was to be paid. -/
structure OpenedFor (input : PaymentService.InitiatePaymentInput) (s : Store) (p : Payment) : Prop where
  key : p.idempotencyKey = input.idempotencyKey
  invoice : p.invoiceId = input.invoiceId
  amount : p.amount = MoneyKzt.fromKzt input.amount
  unflagged : p.refundRequired = false
  within : ∃ r, s.invoice? p.invoiceId = some r ∧ p.amount ≤ r.amountAfterDiscount

/-- Its transaction up to the INSERT. -/
structure Inserted (t₁ : Tx Store Key Write) (p : Payment) (s : Store) : Prop where
  recalls : Tx.Extends Recall .start t₁
  status : p.status = .initiated
  fresh : Fresh t₁ p s

theorem paidSum_nonneg (hs : s.WF) (id : Nat) : 0 ≤ s.paidSum id :=
  Table.total_nonneg fun q hq => Int.le_of_lt (hs.paymentAmounts q (List.mem_of_mem_filter hq))

/-- The new row `p` as the provider's answer leaves it, short of a completion. -/
structure Payment.Waits (p p' : Payment) : Prop where
  unflagged : p'.refundRequired = false
  status : p'.status ≠ .completed
  invoiceId : p'.invoiceId = p.invoiceId
  amount : p'.amount = p.amount

theorem waits_foldl {ws : List Write} {id : Nat} {v : Store} {q : Payment} (hw : ∀ w ∈ ws, OnNewRow id w)
    (hq : v.payment? id = some q) (hwaits : p.Waits q) :
    ∃ p', (ws.foldl Store.apply v).payment? id = some p' ∧ p.Waits p' := by
  induction ws generalizing v q with
  | nil => exact ⟨q, hq, hwaits⟩
  | cons w ws ih =>
    have updated : ∀ (c : Payment → Bool) (f : Payment → Payment), (∀ r, (f r).id = r.id) → p.Waits (f q) →
        ∃ q₁, Table.find (Table.updateWhere v.payments id c f) id = some q₁ ∧ p.Waits q₁ := by
      intro c f hid hkeep
      rw [Table.find_updateWhere _ _ _ _ hid, show Table.find v.payments id = some q from hq]
      refine ⟨_, rfl, ?_⟩
      dsimp only
      split
      · exact hkeep
      · exact hwaits
    obtain ⟨q₁, h₁, hwaits₁⟩ : ∃ q₁, (v.apply w).payment? id = some q₁ ∧ p.Waits q₁ := by
      rcases hw w List.mem_cons_self with rfl | ⟨txn, rfl⟩ | ⟨nextAt, rfl⟩
      · exact updated _ _ (PaymentPatch.id_set .failed) { hwaits with status := by simp [PaymentPatch.set] }
      · exact updated _ _ (PaymentPatch.id_set (.processing txn)) { hwaits with status := by simp [PaymentPatch.set] }
      · exact updated _ _ (fun _ => rfl) { hwaits with }
    exact ih (fun w' hw' => hw w' (List.mem_cons_of_mem w hw')) h₁ hwaits₁

/-- What `initiate` leaves: an answer for a key that is known, or a new row that the provider's answer has
completed or has not. -/
def Initiation (D : Discipline Store Key Write) (J : Store → Prop) (input : PaymentService.InitiatePaymentInput)
    (outcome : PaymentService.ProviderOutcome) (t : Tx Store Key Write) (s : Store) : Prop :=
  (s.paymentByKey input.idempotencyKey).isSome = true ∧ Tx.Extends Recall .start t ∨
  ∃ p t₁, OpenedFor input s p ∧ Inserted t₁ p s ∧
    ((∃ txn, outcome = .completed txn) ∧
        (∃ p', Completes D (fun v => J v ∧ Inserted t₁ p v) (t₁.wrote (.insertPayment p)) t p.id s p p') ∨
      (¬∃ txn, outcome = .completed txn) ∧ ∃ p', (t.view s).payment? p.id = some p' ∧ p.Waits p')

theorem safe_initiateChecked (S : Setting D J X) (now : Int) (input : PaymentService.InitiatePaymentInput)
    (outcome : PaymentService.ProviderOutcome) : Prog.Safe D J X (fun t s _ => Initiation D J input outcome t s)
      (PaymentService.initiate now input outcome) .start s := by
  refine safe_initiating S now input outcome (fun t' s' _ he hknown => .inl ⟨hknown, he⟩) ?_
  rintro invoice t₁ s₁ p ⟨v, hv, hpayable⟩ hrec ⟨id, hnew⟩ hj₁ hthere hf
  have hst : p.status = .initiated := by
    rw [hnew]
    rfl
  have hunflagged : p.refundRequired = false := by
    rw [hnew]
    rfl
  have S₁ := (S.and (StillThere invoice)).and (Fresh t₁ p)
  have hj : (J s₁ ∧ StillThere invoice s₁) ∧ Fresh t₁ p s₁ := ⟨⟨hj₁, hthere⟩, hf⟩
  have hrow : ∀ s, Fresh t₁ p s → ((t₁.wrote (.insertPayment p)).view s).payment? p.id = some p :=
    fun s h => (h.added.after p.id).trans (if_pos rfl)
  have hinvoice : p.invoiceId = invoice.id := by
    rw [hnew]
    rfl
  have hamount : p.amount = MoneyKzt.fromKzt input.amount := by
    rw [hnew]
    rfl
  have opened : ∀ s', StillThere invoice s' → OpenedFor input s' p := by
    rintro s' ⟨r, hr, hstep⟩
    refine ⟨?_, hinvoice.trans hpayable.id, hamount, hunflagged, r, hinvoice ▸ hr, ?_⟩
    · rw [hnew]
      rfl
    · have hasked : r.amountAfterDiscount = invoice.amountAfterDiscount := by rw [hstep.1]
      have hwithin := hpayable.within
      have hsum := paidSum_nonneg (S.wf hv) invoice.id
      omega
  by_cases hout : ∃ txn, outcome = .completed txn
  · obtain ⟨txn, rfl⟩ := hout
    refine (safe_applyCompletedChecked S₁ now p.id ⟨txn, .completed, none⟩ (Fresh.base hrec) (s := s₁)).mono ?_
    rintro t' s' _ ⟨⟨-, hthere'⟩, hf'⟩ (⟨q, hq, hpast⟩ | ⟨q, p', hc⟩)
    · -- the row has just been opened, so it is not past anything
      obtain rfl := Option.some.inj ((hrow s' hf').symm.trans hq)
      rw [hst] at hpast
      cases hpast
    · obtain rfl := Option.some.inj ((hrow s' hf').symm.trans hc.before)
      refine .inr ⟨p, t₁, opened s' hthere', ⟨hrec, hst, hf'⟩, .inl ⟨⟨txn, rfl⟩, p', ?_⟩⟩
      obtain ⟨v, txn', paidAt, hjv, hrely, hpv, hchecked⟩ := hc.checked
      exact { hc with checked := ⟨v, txn', paidAt, ⟨hjv.1.1, hrec, hst, hjv.2⟩, hrely, hpv, hchecked⟩ }
  · have hnew' : Prog.OnlyWrites (OnNewRow p.id) (PaymentService.afterProviderCall now input p outcome) :=
      onlyWrites_afterProviderCall fun txn h => hout ⟨txn, h⟩
    refine (Prog.Safe.of_onlyWrites hnew' S₁.throws hj).mono ?_
    rintro t' s' _ ⟨⟨-, hthere'⟩, hf'⟩ ⟨he, -⟩
    obtain ⟨ws, hw, hws⟩ := he.writes
    refine .inr ⟨p, t₁, opened s' hthere', ⟨hrec, hst, hf'⟩, .inr ⟨hout, ?_⟩⟩
    rw [view_of_writes hw]
    exact waits_foldl hws (hrow s' hf') ⟨hunflagged, by rw [hst]; decide, rfl, rfl⟩

/-! ## Money before the completion -/

theorem hasOther_of_inFlight {q : Payment} (hs : s.WF) (hq : s.payment? q.id = some q)
    (hin : q.status.inFlight = true) : s.hasOther q = s.hasMoney q.invoiceId := by
  rw [Bool.eq_iff_iff, hasMoney_iff]
  unfold Store.hasOther
  rw [List.any_eq_true]
  refine exists_congr fun r => and_congr_right fun hr => ?_
  simp only [Bool.and_eq_true, beq_iff_eq, bne_iff_ne]
  constructor
  · rintro ⟨⟨hinvoice, -⟩, hst⟩
    exact ⟨hinvoice, hst⟩
  · rintro ⟨hinvoice, hst⟩
    refine ⟨⟨hinvoice, fun hid => ?_⟩, hst⟩
    have hfind := Table.find_of_mem hs.paymentIds hr
    rw [show Row.id r = q.id from hid] at hfind
    obtain rfl := Option.some.inj (hfind.symm.trans hq)
    rw [hst] at hin
    cases hin

theorem hasMoney_inserted {t₁ : Tx Store Key Write} (hs : s.WF) (h : Inserted t₁ p s) (id : Nat) :
    ((t₁.wrote (.insertPayment p)).view s).hasMoney id = s.hasMoney id := by
  obtain ⟨hrec, hst, hf⟩ := h
  obtain ⟨ws, he, hw⟩ := hrec.writes
  have hws : t₁.writes = ws := by rw [he]; rfl
  rw [Bool.eq_iff_iff]
  constructor
  · refine hasMoney_of_view fun w hmem => ?_
    rw [Tx.writes_wrote, hws] at hmem
    rcases List.mem_append.1 hmem with hmem | hmem
    · obtain ⟨i, rfl⟩ := hw w hmem
      trivial
    · obtain rfl := List.mem_singleton.1 hmem
      show p.status ≠ .completed
      rw [hst]
      decide
  · refine hasMoney_of_rows hs.paymentIds fun i q hq hcompleted => ?_
    have hrows : Table.Rewrites Payment.Recalled s.payments (t₁.view s).payments := by
      rw [view_of_writes he]
      exact recalled_foldl hw s
    obtain ⟨q', hq', hr⟩ := hrows.row hq
    rw [hr.completed hcompleted] at hq'
    refine ⟨q, ?_, rfl, hcompleted⟩
    have hne : i ≠ p.id := by
      rintro rfl
      rw [show Table.find (t₁.view s).payments p.id = none from hf.added.before] at hq'
      cases hq'
    exact ((hf.added.after i).trans (if_neg hne)).trans hq'

end Billing
