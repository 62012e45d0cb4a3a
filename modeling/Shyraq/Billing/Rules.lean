import Shyraq.Billing.Discipline

/-!
# Rules for the statements of the repositories

`Setting` is what every proof about a billing transaction assumes of its surroundings.  The
`safe_` rules run one repository call and leave the rest of the transaction as the goal;
the `onlyWrites_` rules say what a helper may write.
-/

namespace Billing

open Kernel Transactions

/-- Others move the store along `Moves`, committed stores are well formed, and a request
that throws is of no interest. -/
structure Setting (D : Discipline Store Key Write) (J : Store → Prop) (X : BillingError → Prop) :
    Prop where
  moves : ∀ {held s s'}, D.rely held s s' → Moves held s s'
  wf : ∀ {s}, J s → s.WF
  throws : ∀ e, X e

/-- Facts kept by the held keys may be added to what is known of each committed store. -/
theorem Setting.and {D : Discipline Store Key Write} {J : Store → Prop} {X : BillingError → Prop}
    (S : Setting D J X) (φ : Store → Prop) : Setting D (fun s => J s ∧ φ s) X where
  moves := S.moves
  wf h := S.wf h.1
  throws := S.throws

variable {e : BillingError}

section Rules

variable {D : Discipline Store Key Write} {J : Store → Prop} {X : BillingError → Prop}
  {A B R : Type} {Q : Tx Store Key Write → Store → B → Prop} {t : Tx Store Key Write} {s : Store}

theorem safe_require {o : Option A} {f : A → Sql B} (hX : ∀ e, X e)
    (h : ∀ a, o = some a → Prog.Safe D J X Q (f a) t s) : Prog.Safe D J X Q (Prog.bind (require o e) f) t s := by
  cases o with
  | none => exact hX e
  | some a => exact h a rfl

theorem safe_guardOr {c : Bool} {f : Unit → Sql B} (hX : ∀ e, X e) (h : c = true → Prog.Safe D J X Q (f ()) t s) :
    Prog.Safe D J X Q (Prog.bind (guardOr c e) f) t s := by
  cases c with
  | false => exact hX e
  | true => exact h rfl

theorem safe_insertOr {w : Write} {f : Unit → Sql B} (hX : ∀ e, X e)
    (h : ∀ s₁, D.rely t.held s s₁ → J s₁ → Store.hit (t.view s₁) w = true → Prog.Safe D J X Q (f ()) (t.wrote w) s₁) :
    Prog.Safe D J X Q (Prog.bind (insertOr w e) f) t s := by
  intro s₁ hr hj
  constructor
  · intro hh
    exact h s₁ hr hj hh
  · intro _
    exact hX e

theorem safe_returning {w : Write} {row : Store → Option R} {f : Option R → Sql B}
    (hit : ∀ s₁, D.rely t.held s s₁ → J s₁ → Store.hit (t.view s₁) w = true →
      Prog.Safe D J X Q (Prog.bind (Prog.query row) f) (t.wrote w) s₁)
    (miss : ∀ s₁, D.rely t.held s s₁ → J s₁ → Store.hit (t.view s₁) w = false →
      Prog.Safe D J X Q (f none) t s₁) :
    Prog.Safe D J X Q (Prog.bind (returning w row) f) t s :=
  fun s₁ hr hj => ⟨hit s₁ hr hj, miss s₁ hr hj⟩

end Rules

/-! ## What the helpers write -/

/-- The event says that this invoice is paid. -/
def Notification.saysPaid (id : Nat) : Notification → Bool
  | .invoicePaid i .. => i == id
  | _ => false

/-- The event says of no invoice that it is paid. -/
def Notification.Unpaid (n : Notification) : Prop := ∀ id, n.saysPaid id = false

section Writes

variable {A B R : Type} {P : Write → Prop}

theorem onlyWrites_require {o : Option A} : Prog.OnlyWrites P (require o e : Sql A) := by
  cases o <;> trivial

theorem onlyWrites_guardOr {c : Bool} : Prog.OnlyWrites P (guardOr c e) := by
  cases c <;> trivial

theorem onlyWrites_update {w : Write} (h : P w) : Prog.OnlyWrites P (Prog.update w : Sql Bool) :=
  ⟨h, fun _ => trivial⟩

theorem onlyWrites_insertOr {w : Write} (h : P w) : Prog.OnlyWrites P (insertOr w e) :=
  (onlyWrites_update h).bind fun _ => onlyWrites_guardOr

theorem onlyWrites_returning {w : Write} {row : Store → Option R} (h : P w) :
    Prog.OnlyWrites P (returning w row) := by
  refine (onlyWrites_update h).bind fun b => ?_
  cases b
  · trivial
  · exact fun _ => trivial

theorem onlyWrites_notify {n : Notification} (h : P (.notify n)) : Prog.OnlyWrites P (notify n) :=
  (onlyWrites_update h).bind fun _ => trivial

theorem onlyWrites_releaseIfCapped {app : CustomDiscountApplication}
    (h : ∀ i, P (.releaseUsage i)) : Prog.OnlyWrites P (releaseIfCapped app) := by
  refine .query fun discount => ?_
  cases discount with
  | none => trivial
  | some d =>
    dsimp only
    split
    · trivial
    · exact (onlyWrites_update (h _)).bind fun _ => trivial

theorem onlyWrites_releaseUsages {invoiceId : Nat} (h : ∀ i, P (.releaseUsage i)) :
    Prog.OnlyWrites P (releaseCustomDiscountUsagesForInvoice invoiceId) := by
  intro s
  exact Prog.OnlyWrites.forEach _ fun _ _ => onlyWrites_releaseIfCapped h

theorem onlyWrites_lockPrepaymentOf {i : Invoice} : Prog.OnlyWrites P (lockPrepaymentOf i) := by
  unfold lockPrepaymentOf
  split <;> trivial

theorem onlyWrites_cancelCoveredMonthly {paidSums : Nat → Int} {monthly : Invoice}
    (hc : P (.markInvoice monthly.id .cancelled)) (hr : ∀ i, P (.releaseUsage i)) (hn : ∀ n, n.Unpaid → P (.notify n)) :
    Prog.OnlyWrites P (cancelCoveredMonthly paidSums monthly) := by
  unfold cancelCoveredMonthly
  split
  · trivial
  · refine (onlyWrites_returning hc).bind fun cancelled => ?_
    cases cancelled with
    | none => exact fun _ => trivial
    | some i => exact (onlyWrites_releaseUsages hr).bind fun _ => onlyWrites_notify (hn _ fun _ => rfl)

theorem onlyWrites_cancelCoveredMonthlies {prepayment : Invoice} (hc : ∀ i, P (.markInvoice i .cancelled))
    (hr : ∀ i, P (.releaseUsage i)) (hn : ∀ n, n.Unpaid → P (.notify n)) :
    Prog.OnlyWrites P (cancelCoveredMonthlies prepayment) := by
  unfold cancelCoveredMonthlies
  refine Prog.OnlyWrites.bind trivial fun _ => ?_
  refine Prog.OnlyWrites.bind (.forEach _ fun _ _ => trivial) fun _ => ?_
  refine .query fun overlapped => ?_
  split
  · trivial
  · exact .query fun paidSums => Prog.OnlyWrites.forEach _ fun m _ => onlyWrites_cancelCoveredMonthly (hc _) hr hn

theorem onlyWrites_moveBalance {accountId : Nat} {amount delta : Int} {error : String}
    (h : ∀ i b, P (.saveAccount i b)) :
    Prog.OnlyWrites P (PaymentAccountService.moveBalance accountId amount delta error) := by
  intro s
  show Prog.OnlyWrites P (Prog.bind (require _ _) _)
  refine onlyWrites_require.bind fun account => onlyWrites_guardOr.bind fun _ => ?_
  exact (onlyWrites_update (h _ _)).bind fun _ => trivial

theorem onlyWrites_notifyRefundRequiredToAdmins {p : Payment} {d : Option Nat} {r : RefundReason}
    (h : ∀ n, n.Unpaid → P (.notify n)) : Prog.OnlyWrites P (PaymentService.notifyRefundRequiredToAdmins p d r) := by
  intro s
  show Prog.OnlyWrites P (if _ then _ else _)
  split
  · trivial
  · exact onlyWrites_notify (h _ fun _ => rfl)

theorem onlyWrites_escalate {p : Payment} {invoiceId : Nat} (h : ∀ n, n.Unpaid → P (.notify n)) :
    Prog.OnlyWrites P (PaymentService.escalateSettleIntoVoidInvoice p invoiceId) := by
  refine .query fun reread => ?_
  cases reread with
  | none => trivial
  | some i =>
    dsimp only
    split
    · trivial
    · exact onlyWrites_notifyRefundRequiredToAdmins h

theorem onlyWrites_flipInvoice {payment : Payment} {invoice : Invoice} {paidSum : Int}
    (hp : P (.markInvoice invoice.id .paid)) (hq : P (.markInvoice invoice.id .partial_))
    (hn : ∀ n, n.Unpaid → P (.notify n)) : Prog.OnlyWrites P (PaymentService.flipInvoice payment invoice paidSum) := by
  have escalated : Prog.OnlyWrites P (Prog.bind (PaymentService.escalateSettleIntoVoidInvoice payment invoice.id)
      fun _ => Prog.ret (none : Option Invoice)) := (onlyWrites_escalate hn).bind fun _ => trivial
  unfold PaymentService.flipInvoice
  split
  · refine onlyWrites_lockPrepaymentOf.bind fun _ => (onlyWrites_returning hp).bind fun flipped => ?_
    cases flipped with
    | some i => trivial
    | none => exact escalated
  · split
    · refine (onlyWrites_returning hq).bind fun flipped => ?_
      cases flipped with
      | some i => trivial
      | none => exact escalated
    · split
      · exact escalated
      · trivial

theorem onlyWrites_detectDoublePayment {p : Payment} (hm : ∀ r d, P (.markRefundRequired p.id r d))
    (hn : ∀ n, n.Unpaid → P (.notify n)) : Prog.OnlyWrites P (PaymentService.detectDoublePayment p) := by
  unfold PaymentService.detectDoublePayment
  refine Prog.OnlyWrites.bind (fun _ => trivial) fun siblings => ?_
  dsimp only
  split
  · trivial
  · exact (onlyWrites_returning (hm _ _)).bind fun _ => onlyWrites_notifyRefundRequiredToAdmins hn

/-! ### Whole requests -/

theorem onlyWrites_observe {id : Nat} {f : Payment → Sql A} (h : ∀ p, Prog.OnlyWrites P (f p)) : Prog.OnlyWrites P (do
      let found ← PaymentRepository.findById id
      let current ← require found (.paymentNotFound id)
      PaymentRepository.acquirePaymentAdvisoryLock current.invoiceId
      let found ← PaymentRepository.findById id
      let reread ← require found (.paymentNotFound id)
      f reread : Sql A) := by
  intro s
  show Prog.OnlyWrites P (Prog.bind (require _ _) _)
  refine onlyWrites_require.bind fun current => ?_
  intro s'
  show Prog.OnlyWrites P (Prog.bind (require _ _) f)
  exact onlyWrites_require.bind h

theorem onlyWrites_applyFailedPayment {id : Nat} {verified : VerifyWebhookResult} (hm : ∀ patch, P (.markPayment id patch))
    (hn : ∀ n, n.Unpaid → P (.notify n)) : Prog.OnlyWrites P (PaymentService.applyFailedPayment id verified) := by
  unfold PaymentService.applyFailedPayment
  refine onlyWrites_observe fun p => ?_
  split
  · trivial
  · refine (onlyWrites_returning (hm _)).bind fun updated => ?_
    cases updated with
    | none => exact fun _ => onlyWrites_require
    | some p => exact (onlyWrites_notify (hn _ fun _ => rfl)).bind fun _ => trivial

theorem onlyWrites_applyProviderObservation {id : Nat} (hm : P (.touchPayment id)) :
    Prog.OnlyWrites P (PaymentService.applyProviderObservation id) := by
  unfold PaymentService.applyProviderObservation
  refine onlyWrites_observe fun p => ?_
  split
  · exact Prog.OnlyWrites.bind (onlyWrites_returning hm) fun _ => trivial
  · trivial

theorem onlyWrites_recordCash {now : Int} {input : InvoiceService.ManualMarkPaidInput} {invoice : Invoice} {amount : Int}
    {credit : Option Int} (hp : ∀ p, P (.insertPayment p)) (ha : ∀ i b, P (.saveAccount i b))
    (hn : ∀ n, n.Unpaid → P (.notify n)) :
    Prog.OnlyWrites P (InvoiceService.recordCash now input invoice amount credit) := by
  intro id
  refine (onlyWrites_insertOr (hp _)).bind fun _ => ?_
  refine Prog.OnlyWrites.bind ?_ fun _ => onlyWrites_notify (hn _ fun _ => rfl)
  cases credit with
  | none => trivial
  | some amount => exact onlyWrites_moveBalance ha

theorem onlyWrites_flipPartial {invoice : Invoice} (hm : P (.markInvoice invoice.id .partial_)) :
    Prog.OnlyWrites P (InvoiceService.flipPartial invoice) := by
  unfold InvoiceService.flipPartial
  split
  · trivial
  · refine (onlyWrites_returning hm).bind fun flipped => ?_
    cases flipped with
    | some i => trivial
    | none => exact fun _ => onlyWrites_require.bind fun _ => onlyWrites_guardOr.bind fun _ => trivial

theorem onlyWrites_cancel {invoiceId : Nat} {reason : Option String} (hm : P (.markInvoice invoiceId .cancelled))
    (hr : ∀ i, P (.releaseUsage i)) (hn : ∀ n, n.Unpaid → P (.notify n)) :
    Prog.OnlyWrites P (InvoiceService.cancel invoiceId reason) := by
  unfold InvoiceService.cancel
  refine (onlyWrites_returning hm).bind fun flipped => ?_
  cases flipped with
  | none => exact fun _ => trivial
  | some updated =>
    refine (onlyWrites_releaseUsages hr).bind fun _ => ?_
    exact (onlyWrites_notify (hn _ fun _ => rfl)).bind fun _ => trivial

theorem onlyWrites_markOverdueRows {today : Int} (hm : ∀ i, P (.markInvoice i (.overdue today))) (rows : List Invoice) :
    Prog.OnlyWrites P (InvoiceRepository.markOverdueRows today rows) := by
  induction rows with
  | nil => trivial
  | cons i rest ih => exact (onlyWrites_update (hm i.id)).bind fun _ => ih.bind fun _ => trivial

theorem onlyWrites_runForKindergarten {now : Int} (hm : ∀ i, P (.markInvoice i (.overdue (formatDateInTimezone now))))
    (hn : ∀ n, n.Unpaid → P (.notify n)) : Prog.OnlyWrites P (OverdueInvoiceProcessor.runForKindergarten now) := by
  unfold OverdueInvoiceProcessor.runForKindergarten
  refine Prog.OnlyWrites.bind trivial fun _ => Prog.OnlyWrites.bind ?_ fun flipped => ?_
  · exact fun _ => onlyWrites_markOverdueRows hm _
  · exact Prog.OnlyWrites.bind (.forEach _ fun i _ => onlyWrites_notify (hn _ fun _ => rfl)) fun _ => trivial

end Writes

end Billing
