import Shyraq.Billing.Outcomes
import Shyraq.Billing.Reconciliation

/-!
# No BCC payment is left behind

A tick claims its payment for the time of a lease, and lets go of it when it asks again later.  A payment under way has
its next check or its manual review set, and every tick goes on, settles or escalates.

A tick that outlives its lease lets go of a payment that another has claimed since.
-/

namespace Billing

open Kernel Transactions

/-! ## What is claimed -/

/-- Under way with exactly one of the next check and the manual review set, or terminal. -/
def Payment.tracked (p : Payment) : Bool :=
  match p.status with
  | .initiated => false
  | .processing => p.nextReconciliationAt.isSome != p.manualReviewRequiredAt.isSome
  | _ => true

def AllTracked (s : Store) : Prop := ∀ p ∈ s.payments, p.provider = .bcc → p.tracked = true

/-- Terminal, or in manual review. -/
def Payment.closed (p : Payment) : Bool := !p.status.inFlight || p.manualReviewRequiredAt.isSome

/-- Each tick of a BCC payment has enqueued a further one, or leaves the payment closed. -/
def TicksOn (ended : List (Ended Store Processed BccReconciliationJobData)) (s : Store) : Prop :=
  ∀ e ∈ ended, ∀ p ∈ e.began.payments, p.id = e.job.paymentId → p.provider = .bcc →
    (e.result.result.outcome = .reschedule ∧ e.result.result.nextAt.isSome = true ∧
      e.result.enqueued = some ⟨e.job.paymentId, e.job.tick + 1⟩) ∨
    ∃ p' ∈ s.payments, p'.id = p.id ∧ p'.closed = true

structure Claim where
  payment : Payment
  now : Int
  leaseUntil : Int
  deriving DecidableEq

/-- The claim that this transaction has made. -/
def claim? (c : TickCommit) : Option Claim :=
  match c.op, c.result with
  | .claim _ now leaseUntil, .payment (some p) => some ⟨p, now, leaseUntil⟩
  | _, _ => none

/-- The claimed payment that this transaction lets go of. -/
def released? (c : TickCommit) : Option Payment :=
  match c.op with
  | .reschedule payment _ _ => some payment
  | _ => none

/-- Who has claimed the payment before has let go of it, or its lease is over. -/
def ClaimsAlone (before : List TickCommit) (c : TickCommit) : Prop :=
  ∀ d ∈ before, ∀ x ∈ claim? d, ∀ y ∈ claim? c, x.payment.id = y.payment.id →
    x.leaseUntil ≤ y.now ∨ ∃ e ∈ before, released? e = some x.payment

/-- No two ticks hold the claim of one payment during the same lease. -/
def Exclusive (log : List TickCommit) : Prop := ∀ p c, p ++ [c] <+: log → ClaimsAlone p c

/-- A payment in manual review is not claimed again. -/
def ReviewsAreFinal (s : Store) (log : List TickCommit) : Prop :=
  ∀ p c, p ++ [c] <+: log → ∀ q, q <+: p → ∀ r ∈ (replay s q).payments, r.manualReviewRequiredAt.isSome = true →
    ∀ y ∈ claim? c, y.payment.id ≠ r.id

/-- A tick lets go of the payment only while no other has claimed it since. -/
def StillHeld (s : Store) (c : TickCommit) : Prop :=
  match c.op with
  | .reschedule payment _ _ => ∀ r ∈ s.payments, r.id = payment.id → Store.bccSchedulable r = true →
      r.reconciliationAttempts = payment.reconciliationAttempts
  | _ => True

instance (s : Store) (c : TickCommit) : Decidable (StillHeld s c) := by
  unfold StillHeld
  split <;> infer_instance

instance (s : Store) : Decidable (AllTracked s) := by
  unfold AllTracked
  infer_instance

instance (before : List TickCommit) (c : TickCommit) : Decidable (ClaimsAlone before c) := by
  unfold ClaimsAlone
  infer_instance

instance (log : List TickCommit) : Decidable (Exclusive log) :=
  decidable_of_iff _ (forall_snoc_prefix_iff (P := ClaimsAlone)).symm

/-- Beside the ticks: an `initiate`, and what a provider reports. -/
def TickOp.ordinary : TickOp → Bool
  | billing (.deliver ..) | billing (.initiate ..) => true
  | _ => false

/-! ## Rows that go on -/

/-- A payment row as it may be later; what is closed stays so. -/
def Payment.Onward (p p' : Payment) : Prop := Payment.Step p p' ∧ (p.closed = true → p'.closed = true)

theorem Payment.Onward.refl (p : Payment) : Payment.Onward p p := ⟨.refl p, fun h => h⟩

theorem Payment.Onward.trans {a b c : Payment} (h₁ : Payment.Onward a b) (h₂ : Payment.Onward b c) :
    Payment.Onward a c :=
  ⟨h₁.1.trans h₂.1, fun h => h₂.2 (h₁.2 h)⟩

def Onward (s s' : Store) : Prop :=
  ∀ i p, s.payment? i = some p → ∃ p', s'.payment? i = some p' ∧ Payment.Onward p p'

theorem Onward.refl (s : Store) : Onward s s := fun _ p hp => ⟨p, hp, .refl p⟩

theorem Onward.trans {s₁ s₂ s₃ : Store} (h₁ : Onward s₁ s₂) (h₂ : Onward s₂ s₃) : Onward s₁ s₃ := by
  intro i p hp
  obtain ⟨q, hq, hpq⟩ := h₁ i p hp
  obtain ⟨r, hr, hqr⟩ := h₂ i q hq
  exact ⟨r, hr, hpq.trans hqr⟩

/-- The locks of billing; and nobody reopens a payment. -/
def careful : Discipline Store Key Write where
  rely held s s' := Moves held s s' ∧ Onward s s'
  refl held s := ⟨Moves.refl held s, .refl s⟩
  trans h₁ h₂ := ⟨h₁.1.trans h₂.1, h₁.2.trans h₂.2⟩
  mono hs h := ⟨h.1.mono hs, h.2⟩

/-- What a request makes of the payments: a row is as it was, or terminal; a new BCC payment under way waits for its
first check. -/
structure Tended (s s' : Store) : Prop where
  rows : ∀ i p, s.payment? i = some p → ∃ p', s'.payment? i = some p' ∧ (p' = p ∨ p'.status.inFlight = false)
  new : ∀ i p', s.payment? i = none → s'.payment? i = some p' → p'.provider = .bcc →
    p'.status.inFlight = false ∨
      p'.status = .processing ∧ p'.nextReconciliationAt.isSome = true ∧ p'.manualReviewRequiredAt = none

variable {p : Payment}

theorem closed_of_past (h : p.status.inFlight = false) : p.closed = true := by
  unfold Payment.closed
  rw [h]
  rfl

theorem tracked_of_past (h : p.status.inFlight = false) : p.tracked = true := by
  unfold Payment.tracked
  cases hs : p.status with
  | initiated => rw [hs] at h; cases h
  | processing => rw [hs] at h; cases h
  | _ => rfl

theorem closed_of_tracked (h : p.tracked = true)
    (hno : ¬(p.status = .processing ∧ p.nextReconciliationAt.isSome = true)) : p.closed = true := by
  unfold Payment.tracked at h
  unfold Payment.closed
  cases hs : p.status with
  | initiated =>
    rw [hs] at h
    cases h
  | processing =>
    rw [hs] at h
    have hnext : p.nextReconciliationAt.isSome = false := by
      cases hn : p.nextReconciliationAt.isSome with
      | false => rfl
      | true => exact absurd ⟨hs, hn⟩ hno
    rw [hnext] at h
    cases hm : p.manualReviewRequiredAt.isSome with
    | true => rfl
    | false =>
      rw [hm] at h
      cases h
  | _ => rfl

theorem schedulable_iff : Store.bccSchedulable p = true ↔
    p.provider = .bcc ∧ p.status = .processing ∧ p.manualReviewRequiredAt = none := by
  unfold Store.bccSchedulable
  simp only [Bool.and_eq_true, beq_iff_eq, Option.isNone_iff_eq_none, and_assoc]

theorem not_closed (h : Store.bccSchedulable p = true) : p.closed = false := by
  obtain ⟨-, hstatus, hmanual⟩ := schedulable_iff.1 h
  unfold Payment.closed
  rw [hstatus, hmanual]
  rfl

theorem Tended.tracked {s s' : Store} (hs' : s'.WF) (ht : AllTracked s) (h : Tended s s') : AllTracked s' := by
  intro p' hp' hbcc
  have hfind : s'.payment? p'.id = some p' := Table.find_of_mem hs'.paymentIds hp'
  cases hrow : s.payment? p'.id with
  | none =>
    rcases h.new _ _ hrow hfind hbcc with hpast | ⟨hstatus, hnext, hmanual⟩
    · exact tracked_of_past hpast
    · unfold Payment.tracked
      rw [hstatus, hnext, hmanual]
      rfl
  | some p =>
    obtain ⟨q, hq, hsame⟩ := h.rows _ _ hrow
    obtain rfl := Option.some.inj (hfind.symm.trans hq)
    rcases hsame with rfl | hpast
    · exact ht p' (Table.mem_of_find hrow) hbcc
    · exact tracked_of_past hpast

theorem Tended.onward {s s' : Store} (hm : Moves [] s s') (h : Tended s s') : Onward s s' := by
  intro i p hp
  obtain ⟨p', hp', hsame⟩ := h.rows i p hp
  obtain ⟨q, hq, hstep, -⟩ := hm.payments.row i p hp
  obtain rfl := Option.some.inj (hq.symm.trans hp')
  refine ⟨q, hq, hstep, fun hclosed => ?_⟩
  rcases hsame with rfl | hpast
  · exact hclosed
  · exact closed_of_past hpast

theorem tended_of_eq {s s' : Store} (h : s'.payments = s.payments) : Tended s s' := by
  have hsame : ∀ i, s'.payment? i = s.payment? i := fun i => by
    unfold Store.payment?
    rw [h]
  refine ⟨fun i p hp => ⟨p, (hsame i).trans hp, .inl rfl⟩, fun i p' hn hp' _ => ?_⟩
  rw [hsame i, hn] at hp'
  cases hp'

theorem tended_of_replaced {s s' : Store} {id : Nat} {p' : Payment}
    (h : Table.Replaced s.payments s'.payments id p p') (hp' : p'.status.inFlight = false) : Tended s s' := by
  constructor
  · intro i q hq
    by_cases hi : i = id
    · subst hi
      exact ⟨p', h.find_self, .inr hp'⟩
    · exact ⟨q, (h.find_of_ne hi).trans hq, .inl rfl⟩
  · intro i q hn hq
    have hi : i ≠ id := by
      rintro rfl
      cases (show s.payment? i = some p from h.before).symm.trans hn
    cases (show s'.payment? i = _ from h.find_of_ne hi).symm.trans hq |>.symm.trans hn

/-! ## What the requests do -/

section

variable {D : Discipline Store Key Write} {J : Store → Prop} {X : BillingError → Prop} {t t₁ t' : Tx Store Key Write}
  {s : Store}

theorem tended_of_recalls (h : Tx.Extends Recall .start t) : Tended s (t.view s) := by
  obtain ⟨ws, he, hw⟩ := h.writes
  have hrows := recalled_foldl hw s
  rw [show ws.foldl Store.apply s = t.view s from (view_of_writes he s).symm] at hrows
  constructor
  · intro i p hp
    obtain ⟨p', hp', hrecalled⟩ := hrows.row hp
    refine ⟨p', hp', ?_⟩
    rcases hrecalled with rfl | ⟨-, rfl⟩
    · exact .inl rfl
    · exact .inr rfl
  · intro i p' hn hp'
    have hnone : (t.view s).payment? i = none := hrows.absent hn
    cases hnone.symm.trans hp'

theorem tended_of_added (h : Tx.Extends Recall .start t₁) {p' : Payment}
    (hadd : Table.Added (t₁.view s).payments (t'.view s).payments p')
    (hnew : p'.provider = .bcc → p'.status.inFlight = false ∨
      p'.status = .processing ∧ p'.nextReconciliationAt.isSome = true ∧ p'.manualReviewRequiredAt = none) :
    Tended s (t'.view s) := by
  have hrecalls : Tended s (t₁.view s) := tended_of_recalls h
  have hafter : ∀ i, (t'.view s).payment? i = if i = p'.id then some p' else (t₁.view s).payment? i := hadd.after
  constructor
  · intro i p hp
    obtain ⟨q, hq, hsame⟩ := hrecalls.rows i p hp
    have hne : i ≠ p'.id := by
      rintro rfl
      cases (show (t₁.view s).payment? p'.id = none from hadd.before).symm.trans hq
    exact ⟨q, by rw [hafter, if_neg hne, hq], hsame⟩
  · intro i q hn hq hbcc
    rw [hafter] at hq
    by_cases hi : i = p'.id
    · rw [if_pos hi] at hq
      obtain rfl := Option.some.inj hq
      exact hnew hbcc
    · rw [if_neg hi] at hq
      exact hrecalls.new i q hn hq hbcc

theorem tended_of_delivered {entry : Entry} {status : ProviderStatus} {id : Nat} (h : Delivered D entry status id t s) :
    Tended s (t.view s) := by
  cases h with
  | noted h => exact tended_of_eq (by rw [view_of_touches h.1]; rfl)
  | completed p p' invoice paidSum flip hstatus hp h =>
    refine tended_of_replaced h.payments ?_
    rw [h.status]
    rfl
  | failed p hstatus h => exact tended_of_replaced h.payments rfl
  | processing hstatus hentry h => exact tended_of_eq (by rw [view_of_touches h]; rfl)

theorem past_of_delivered {entry : Entry} {status : ProviderStatus} {id : Nat} (hstatus : status ≠ .processing)
    (h : Delivered D entry status id t s) : ∃ p, (t.view s).payment? id = some p ∧ p.status.inFlight = false := by
  cases h with
  | noted h =>
    obtain ⟨p, hp, hpast⟩ := h.2
    rw [view_of_touches h.1]
    exact ⟨p, hp, hpast⟩
  | completed p p' invoice paidSum flip hs hp h =>
    refine ⟨p', h.payments.find_self, ?_⟩
    rw [h.status]
    rfl
  | failed p hs h => exact ⟨_, h.payments.find_self, rfl⟩
  | processing hs hentry h => exact absurd hs hstatus

theorem replaced_mark {v : Store} (hv : v.WF) {id : Nat} {f : PaymentPatch}
    (hp : v.payment? id = some p) (hf : f.accepts p = true) :
    Table.Replaced v.payments (v.apply (.markPayment id f)).payments id p (f.set p) :=
  .updateWhere hv.paymentIds f.id_set hp hf

theorem replaced_schedule {v : Store} (hv : v.WF) {id : Nat} {nextAt : Int}
    (hp : v.payment? id = some p) (hf : Store.bccSchedulable p = true) :
    Table.Replaced v.payments (v.apply (.scheduleBccReconciliation id nextAt)).payments id p
      { p with nextReconciliationAt := some nextAt } :=
  .updateWhere (f := fun p : Payment => { p with nextReconciliationAt := some nextAt }) hv.paymentIds (fun _ => rfl) hp hf

theorem safe_afterInitiated (S : Setting D J X) {now : Int} {input : PaymentService.InitiatePaymentInput}
    {txn : Nat} (hrec : Tx.Extends Recall .start t₁) (hstatus : p.status = .initiated)
    (hprovider : p.provider = input.provider) (hmanual : p.manualReviewRequiredAt = none) :
    Prog.Safe D (fun s => J s ∧ Fresh t₁ p s) X (fun t s _ => Tended s (t.view s))
      (PaymentService.afterProviderCall now input p (.initiated txn)) (t₁.wrote (.insertPayment p)) s := by
  have S₁ := S.and (Fresh t₁ p)
  let p₁ := (PaymentPatch.processing (some txn)).set p
  have hrow : ∀ s, J s ∧ Fresh t₁ p s → ((t₁.wrote (.insertPayment p)).view s).payment? p.id = some p :=
    fun s hs => (hs.2.added.after p.id).trans (if_pos rfl)
  refine safe_markPayment S₁ (Fresh.base hrec) (fun s hs => ⟨p, hrow s hs⟩) (fun s₁ q hj₁ hq _ => ?_)
    fun s₁ q hj₁ hq hno => ?_
  · obtain rfl := Option.some.inj ((hrow s₁ hj₁).symm.trans hq)
    let t₂ := ((t₁.wrote (.insertPayment p)).wrote (.markPayment p.id (.processing (some txn)))).saw s₁
    -- the row that the commit leaves, after the mark
    have hadd : ∀ s, J s ∧ Fresh t₁ p s → Table.Added (t₁.view s).payments (t₂.view s).payments p₁ := by
      intro s hs
      show Table.Added _ (Tx.view (Tx.saw _ _) s).payments _
      rw [Tx.view_saw, Tx.view_wrote]
      exact hs.2.added.replaced (replaced_mark ((S.wf hs.1).view _) (hrow s hs) (beq_iff_eq.2 hstatus)) rfl
    have hread : ∀ s, J s ∧ Fresh t₁ p s → (t₂.view s).payment? p.id = some p₁ :=
      fun s hs => ((hadd s hs).after p.id).trans (if_pos rfl)
    refine Prog.Safe.query fun s₂ _ hj₂ => ?_
    rw [hread s₂ hj₂.1]
    show Prog.Safe D _ X _ (if input.provider = .bcc then _ else _) _ _
    split
    · next hbcc =>
      have hschedulable : Store.bccSchedulable p₁ = true :=
        schedulable_iff.2 ⟨hprovider.trans hbcc, rfl, hmanual⟩
      refine safe_returning (fun s₃ _ hj₃ _ s₄ _ hj₄ s₅ _ hj₅ => ?_) fun s₃ _ hj₃ hmiss => ?_
      · let nextAt := p.createdAt + PaymentService.bccReconciliationInitialDelayMs
        have hadd' : Table.Added (t₁.view s₅).payments
            ((t₂.view s₅).apply (.scheduleBccReconciliation p.id nextAt)).payments
            { p₁ with nextReconciliationAt := some nextAt } :=
          (hadd s₅ hj₅.1).replaced (replaced_schedule ((S.wf hj₅.1.1).view t₂) (hread s₅ hj₅.1) hschedulable) rfl
        refine tended_of_added hrec (?_ : Table.Added _ _ { p₁ with nextReconciliationAt := some nextAt })
          fun _ => .inr ⟨rfl, rfl, hmanual⟩
        rw [Tx.view_saw, Tx.view_wrote, Tx.view_saw]
        exact hadd'
      · have hmiss : ((t₂.view s₃).payment? p.id).any Store.bccSchedulable = false := hmiss
        rw [hread s₃ hj₃.1] at hmiss
        cases hschedulable.symm.trans hmiss
    · next hbcc =>
      intro s₃ _ hj₃
      exact tended_of_added hrec (hadd s₃ hj₃.1) fun h => absurd (hprovider.symm.trans h) hbcc
  · obtain rfl := Option.some.inj ((hrow s₁ hj₁).symm.trans hq)
    have hyes : (PaymentPatch.processing (some txn)).accepts p = true := beq_iff_eq.2 hstatus
    cases hyes.symm.trans hno

theorem safe_initiateTended (S : Setting D J X) (now : Int) (input : PaymentService.InitiatePaymentInput)
    (outcome : PaymentService.ProviderOutcome) :
    Prog.Safe D J X (fun t s _ => Tended s (t.view s)) (PaymentService.initiate now input outcome) .start s := by
  refine safe_initiating S now input outcome (fun t' s' _ h _ => tended_of_recalls h) ?_
  rintro invoice t₁ s₁ p - hrec ⟨id, hnew⟩ hj₁ hthere hf
  have hstatus : p.status = .initiated := by
    rw [hnew]
    rfl
  have S₁ := S.and (StillThere invoice)
  have hrow : ∀ s, (J s ∧ StillThere invoice s) ∧ Fresh t₁ p s →
      ((t₁.wrote (.insertPayment p)).view s).payment? p.id = some p :=
    fun s hs => (hs.2.added.after p.id).trans (if_pos rfl)
  cases outcome with
  | throws => exact fun s₂ _ _ => ⟨fun _ s₃ _ _ => S.throws _, fun _ => S.throws _⟩
  | completed txn =>
    refine (safe_applyCompletedPayment (S₁.and (Fresh t₁ p)) now p.id ⟨txn, .completed, none⟩ (Fresh.base hrec)).mono ?_
    rintro t' s' answer ⟨hj', hf'⟩ (⟨-, q, hq, hpast⟩ | ⟨hid, q, q', invoice, paidSum, flip, hc⟩)
    · rw [← Option.some.inj ((hrow s' ⟨hj', hf'⟩).symm.trans hq), hstatus] at hpast
      cases hpast
    · obtain rfl := Option.some.inj (hc.payments.before.symm.trans (hrow s' ⟨hj', hf'⟩))
      refine tended_of_added hrec (hf'.added.replaced hc.payments hc.step.id) fun _ => .inl ?_
      rw [hc.status]
      rfl
  | failed =>
    refine safe_markPayment (S₁.and (Fresh t₁ p)) (Fresh.base hrec) (fun s hs => ⟨p, hrow s hs⟩)
      (fun s₂ q hj₂ hq _ s₃ _ hj₃ => ?_) fun s₂ q hj₂ hq hno => ?_
    · have hcount : (PaymentPatch.failed).accepts p = true := by
        show p.status.inFlight = true
        rw [hstatus]
        rfl
      refine tended_of_added hrec (?_ : Table.Added _ _ ((PaymentPatch.failed).set p)) fun _ => .inl rfl
      rw [Tx.view_saw, Tx.view_wrote]
      exact hj₃.1.2.added.replaced (replaced_mark ((S₁.wf hj₃.1.1).view _) (hrow s₃ hj₃.1) hcount) rfl
    · obtain rfl := Option.some.inj ((hrow s₂ hj₂).symm.trans hq)
      have hno : p.status.inFlight = false := hno
      rw [hstatus] at hno
      cases hno
  | initiated txn =>
    refine safe_afterInitiated S₁ hrec hstatus ?_ ?_
    · rw [hnew]
      rfl
    · rw [hnew]
      rfl

end

/-! ## What the transactions of a tick do -/

/-- What a commit has done. -/
inductive TickEffect (d : ReconciliationDelays) : TickOp → Tx Store Key Write → Store → TickAnswer → Prop
  | billing {op t s a} (h : Tended s (t.view s)) : TickEffect d (.billing op) t s (.billing a)
  | found {id t s o} (h : t.writes = []) : TickEffect d (.find id) t s (.payment o)
  | unclaimed {id now leaseUntil t s} (h : t.writes = []) : TickEffect d (.claim id now leaseUntil) t s (.payment none)
  | claimed {id now leaseUntil t s} (p : Payment) (h : t.writes = [.reconcile id (.claim now leaseUntil)])
      (row : s.payment? id = some p) (due : Store.reconcilable (.claim now leaseUntil) p = true) :
      TickEffect d (.claim id now leaseUntil) t s (.payment (some ((ReconciliationPatch.claim now leaseUntil).set p)))
  | rescheduled {payment hardCapAt now t s b}
      (h : t.writes = [] ∨ t.writes = [.scheduleBccReconciliation payment.id (nextCheckAt d payment hardCapAt now)]) :
      TickEffect d (.reschedule payment hardCapAt now) t s (.flag b)
  | reviewed {id now t s b} (h : t.writes = [] ∨ t.writes = [.reconcile id (.manualReview now)]) :
      TickEffect d (.manualReview id now) t s (.flag b)

theorem setting_careful {J : Store → Prop} (h : ∀ s, J s → s.WF) : Setting careful J fun _ => True where
  moves h := h.1
  wf := fun hj => h _ hj
  throws _ := trivial

section

variable {J : Store → Prop} {s : Store} {d : ReconciliationDelays}

theorem safe_tick (hJ : ∀ s, J s → s.WF) (op : TickOp) (hop : ∀ o, op = .billing o → op.ordinary = true) :
    Prog.Safe careful J (fun _ => True) (TickEffect d op) (op.prog d) .start s := by
  have S := setting_careful hJ
  cases op with
  | billing op =>
    cases op with
    | deliver entry now id v =>
      have hsafe : Prog.Safe careful J (fun _ => True) (fun t s _ => Tended s (t.view s))
          (Op.deliver entry now id v).prog .start s :=
        (safe_deliver S now id v entry).map fun _ _ _ _ h => tended_of_delivered h
      exact hsafe.map fun _ _ _ _ h => .billing h
    | initiate now input outcome =>
      have hsafe : Prog.Safe careful J (fun _ => True) (fun t s _ => Tended s (t.view s))
          (Op.initiate now input outcome).prog .start s :=
        (safe_initiateTended S now input outcome).map fun _ _ _ _ h => h
      exact hsafe.map fun _ _ _ _ h => .billing h
    | _ => cases hop _ rfl
  | find id => exact fun s₁ _ _ s₂ _ _ => .found rfl
  | claim id now leaseUntil =>
    refine safe_returning (fun s₁ _ hj₁ hhit s₂ hr₂ hj₂ s₃ hr₃ _ => ?_) fun s₁ _ _ _ s₂ _ _ => .unclaimed rfl
    -- the row is locked: the SELECT and the commit find it as the UPDATE did
    have hheld : Key.row id ∈ (Tx.start.wrote (.reconcile id (.claim now leaseUntil)) : Tx Store Key Write).held :=
      List.mem_cons_self
    obtain ⟨p, hp, hdue⟩ := (Option.any_eq_true _ _).1 (show (s₁.payment? id).any _ = true from hhit)
    have hrow₂ : s₂.payment? id = some p := (hr₂.1.payments.find_eq hheld).trans hp
    have hrow₃ : s₃.payment? id = some p := (hr₃.1.payments.find_eq hheld).trans hrow₂
    have hanswer : ((Tx.start.wrote (.reconcile id (.claim now leaseUntil)) : Tx Store Key Write).view s₂).payment? id =
        some ((ReconciliationPatch.claim now leaseUntil).set p) := by
      have hrep : Table.Replaced s₂.payments (s₂.apply (.reconcile id (.claim now leaseUntil))).payments id p _ :=
        .updateWhere (hJ s₂ hj₂).paymentIds (ReconciliationPatch.id_set _) hrow₂ hdue
      exact hrep.find_self
    show TickEffect d _ _ _ (.payment (((Tx.start.wrote _ : Tx Store Key Write).view s₂).payment? id))
    rw [hanswer]
    exact .claimed p rfl hrow₃ hdue
  | reschedule payment hardCapAt now =>
    exact fun s₁ _ _ => ⟨fun _ s₂ _ _ => .rescheduled (.inr rfl), fun _ s₂ _ _ => .rescheduled (.inl rfl)⟩
  | manualReview id now =>
    exact fun s₁ _ _ => ⟨fun _ s₂ _ _ => .reviewed (.inr rfl), fun _ s₂ _ _ => .reviewed (.inl rfl)⟩

theorem covered_tick (op : TickOp) (hop : ∀ o, op = .billing o → op.ordinary = true) : IsCovered (op.prog d) := by
  cases op with
  | billing op =>
    have hmoney : op.MovesMoney := by
      cases op with
      | deliver | initiate => trivial
      | _ => cases hop _ rfl
    exact (covered_prog op hmoney).bind fun _ => .ret _
  | find id => exact (IsCovered.query _).bind fun _ => .ret _
  | claim id now leaseUntil => exact (IsCovered.returning (by simp [Write.Plain])).bind fun _ => .ret _
  | reschedule payment hardCapAt now =>
    exact (IsCovered.of_plain (onlyWrites_update (by simp [Write.Plain]))).bind fun _ => .ret _
  | manualReview id now =>
    exact (IsCovered.of_plain (onlyWrites_update (by simp [Write.Plain]))).bind fun _ => .ret _

end

/-! ## What a commit leaves -/

section

variable {d : ReconciliationDelays} {op : TickOp} {t : Tx Store Key Write} {s : Store} {a : TickAnswer}

theorem view_of_single {w : Write} (h : t.writes = [w]) (s : Store) : t.view s = s.apply w := by
  unfold Tx.view
  rw [h]
  rfl

/-- A statement of a tick is about a payment that waits, and leaves it tracked. -/
structure Attends (c : Payment → Bool) (f : Payment → Payment) : Prop where
  waits : ∀ p, c p = true → Store.bccSchedulable p = true
  step : ∀ p, Payment.Step p (f p)
  tracked : ∀ p, Store.bccSchedulable p = true → (f p).tracked = true

theorem attends_reconcile (f : ReconciliationPatch) : Attends (Store.reconcilable f) f.set where
  waits p h := (Bool.and_eq_true_iff.1 h).1
  step := f.step
  tracked p h := by
    obtain ⟨-, hstatus, hmanual⟩ := schedulable_iff.1 h
    cases f with
    | claim now leaseUntil =>
      show Payment.tracked { p with
        reconciliationAttempts := p.reconciliationAttempts + 1, nextReconciliationAt := some leaseUntil } = true
      unfold Payment.tracked
      simp only [hstatus, hmanual]
      rfl
    | manualReview now =>
      show Payment.tracked { p with manualReviewRequiredAt := some now, nextReconciliationAt := none } = true
      unfold Payment.tracked
      simp only [hstatus]
      rfl

theorem attends_schedule (nextAt : Int) :
    Attends Store.bccSchedulable fun p => { p with nextReconciliationAt := some nextAt } where
  waits _ h := h
  step p := ⟨rfl, rfl, rfl, rfl, rfl, rfl, rfl, p.status.reaches_refl⟩
  tracked p h := by
    obtain ⟨-, hstatus, hmanual⟩ := schedulable_iff.1 h
    unfold Payment.tracked
    simp only [hstatus, hmanual]
    rfl

theorem Attends.onward {c : Payment → Bool} {f : Payment → Payment} (h : Attends c f) (s : Store) (i : Nat) :
    Onward s { s with payments := Table.updateWhere s.payments i c f } := by
  have hrows : Table.Rewrites Payment.Onward s.payments (Table.updateWhere s.payments i c f) := by
    refine .updateWhere Payment.Onward.refl (fun p => (h.step p).id) fun p _ hc => ⟨h.step p, fun hclosed => ?_⟩
    rw [not_closed (h.waits p hc)] at hclosed
    cases hclosed
  exact fun j p hp => hrows.row hp

theorem Attends.keeps {c : Payment → Bool} {f : Payment → Payment} (h : Attends c f) (hs : AllTracked s) (i : Nat) :
    AllTracked { s with payments := Table.updateWhere s.payments i c f } := by
  intro p hp hbcc
  unfold Table.updateWhere at hp
  obtain ⟨q, hq, rfl⟩ := List.mem_map.1 hp
  split at hbcc
  · next hc =>
    rw [if_pos hc]
    exact h.tracked q (h.waits q (Bool.and_eq_true_iff.1 hc).2)
  · next hc =>
    rw [if_neg hc]
    exact hs q hq hbcc

theorem TickEffect.onward (h : TickEffect d op t s a) : Onward s (t.view s) := by
  have unwritten : t.writes = [] → Onward s (t.view s) := fun h => by
    rw [Tx.view_of_unwritten h]
    exact .refl s
  have reconciled : ∀ i f, t.writes = [.reconcile i f] → Onward s (t.view s) := fun i f h => by
    rw [view_of_single h]
    exact (attends_reconcile f).onward s i
  cases h with
  | billing h => exact h.onward (moves_view t s)
  | found h => exact unwritten h
  | unclaimed h => exact unwritten h
  | claimed p h => exact reconciled _ _ h
  | rescheduled h =>
    rcases h with h | h
    · exact unwritten h
    · rw [view_of_single h]
      exact (attends_schedule _).onward s _
  | reviewed h =>
    rcases h with h | h
    · exact unwritten h
    · exact reconciled _ _ h

theorem TickEffect.tracked (hs : s.WF) (ht : AllTracked s) (h : TickEffect d op t s a) : AllTracked (t.view s) := by
  have unwritten : t.writes = [] → AllTracked (t.view s) := fun h => by
    rwa [Tx.view_of_unwritten h]
  have reconciled : ∀ i f, t.writes = [.reconcile i f] → AllTracked (t.view s) := fun i f h => by
    rw [view_of_single h]
    exact (attends_reconcile f).keeps ht i
  cases h with
  | billing h => exact h.tracked (hs.view t) ht
  | found h => exact unwritten h
  | unclaimed h => exact unwritten h
  | claimed p h => exact reconciled _ _ h
  | rescheduled h =>
    rcases h with h | h
    · exact unwritten h
    · rw [view_of_single h]
      exact (attends_schedule _).keeps ht _
  | reviewed h =>
    rcases h with h | h
    · exact unwritten h
    · exact reconciled _ _ h

end

end Billing
