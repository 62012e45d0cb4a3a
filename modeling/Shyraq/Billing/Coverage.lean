import Shyraq.Billing.Rules

/-!
# Every statement is covered

Only the ledger saves accounts, and it does so under the balance lock; every other
statement needs no more than the locks it takes itself.
-/

namespace Billing

open Kernel Transactions

/-- A statement that needs no lock besides its own. -/
def Write.Plain (w : Write) : Prop := ∀ i b, w ≠ .saveAccount i b

theorem covered_of_plain (held : List Key) (w : Write) (h : w.Plain) :
    Covered (Store.keys w ++ held) w :=
  ⟨List.subset_append_left _ _, fun i b he => absurd he (h i b)⟩

/-- Every statement of the program is covered, whatever is held before. -/
def IsCovered {A : Type} (p : Sql A) : Prop := ∀ held, Prog.EachWrite Covered p held

namespace IsCovered

variable {A B R : Type}

theorem bind {p : Sql A} {f : A → Sql B} (h : IsCovered p) (hf : ∀ a, IsCovered (f a)) :
    IsCovered (Prog.bind p f) := fun held => (h held).bind covered_mono fun a => hf a held

theorem of_plain {p : Sql A} (h : Prog.OnlyWrites Write.Plain p) : IsCovered p :=
  fun _ => h.eachWrite covered_of_plain

theorem query (g : Store → A) : IsCovered (Prog.query g : Sql A) := fun _ _ => trivial

theorem acquire (k : Key) : IsCovered (Prog.acquire k : Sql Unit) := fun _ => trivial

theorem uuid : IsCovered (Prog.uuid : Sql Nat) := fun _ _ => trivial

theorem ret (a : A) : IsCovered (Prog.ret a : Sql A) := fun _ => trivial

theorem throw (e : BillingError) : IsCovered (Prog.throw e : Sql A) := fun _ => trivial

theorem require {o : Option A} {e : BillingError} : IsCovered (Billing.require o e) :=
  of_plain onlyWrites_require

theorem guardOr {c : Bool} {e : BillingError} : IsCovered (Billing.guardOr c e) :=
  of_plain onlyWrites_guardOr

theorem insertOr {w : Write} {e : BillingError} (h : w.Plain) : IsCovered (Billing.insertOr w e) :=
  of_plain (onlyWrites_insertOr h)

theorem returning {w : Write} {row : Store → Option R} (h : w.Plain) :
    IsCovered (Billing.returning w row) := of_plain (onlyWrites_returning h)

theorem notify {n : Notification} : IsCovered (Billing.notify n) :=
  of_plain (onlyWrites_notify (by simp [Write.Plain]))

theorem forEach {body : A → Sql Unit} (l : List A) (h : ∀ a, IsCovered (body a)) :
    IsCovered (Prog.forEach body l) :=
  fun held => Prog.EachWrite.forEach covered_mono l fun a => h a held

theorem tryCatch {handler : BillingError → Sql A} {p : Sql A} (h : IsCovered p)
    (hh : ∀ e, IsCovered (handler e)) : IsCovered (Prog.tryCatch handler p) :=
  fun held => (h held).tryCatch covered_mono fun e => hh e held

end IsCovered

/-! ## The ledger and the settlement hooks -/

theorem covered_moveBalance (accountId : Nat) (amount delta : Int) (error : String) :
    IsCovered (PaymentAccountService.moveBalance accountId amount delta error) := by
  intro held s
  show Prog.EachWrite Covered (Prog.bind (require (Store.account? s accountId) _) _) _
  cases ha : s.account? accountId with
  | none => trivial
  | some a =>
    show Prog.EachWrite Covered (Prog.bind (guardOr _ _) _) _
    cases MoneyKzt.isPositive amount with
    | false => trivial
    | true =>
      refine ⟨⟨List.subset_append_left _ _, ?_⟩, trivial, trivial⟩
      rintro i b ⟨⟩
      have hid : a.id = accountId := Table.id_of_find ha
      show Key.balance a.id ∈ _
      rw [hid]
      simp

theorem covered_cancelCoveredMonthlies (prepayment : Invoice) : IsCovered (cancelCoveredMonthlies prepayment) :=
  .of_plain (onlyWrites_cancelCoveredMonthlies (by simp [Write.Plain]) (by simp [Write.Plain]) (by simp [Write.Plain]))

theorem covered_lockPrepaymentOf (i : Invoice) : IsCovered (lockPrepaymentOf i) :=
  .of_plain onlyWrites_lockPrepaymentOf

/-! ## Payments -/

namespace PaymentService

theorem covered_flipInvoice (payment : Payment) (invoice : Invoice) (paidSum : Int) :
    IsCovered (flipInvoice payment invoice paidSum) :=
  .of_plain (onlyWrites_flipInvoice (by simp [Write.Plain]) (by simp [Write.Plain]) (by simp [Write.Plain]))

theorem covered_settle (now : Int) (p : Payment) : IsCovered (settle now p) := by
  unfold settle
  refine .bind (.query _) fun _ => .bind .require fun invoice => .bind (.query _) fun paidSum =>
    .bind (covered_flipInvoice _ _ _) fun flip => .bind ?_ fun _ =>
    .bind (covered_moveBalance _ _ _ _) fun _ => ?_
  · unfold cancelIfPrepayment
    split
    · exact covered_cancelCoveredMonthlies _
    · exact .ret _
  · unfold announceCompleted
    refine .bind (.of_plain (onlyWrites_detectDoublePayment (by simp [Write.Plain])
      (by simp [Write.Plain]))) fun _ => .bind .notify fun _ => ?_
    split
    · exact .notify
    · exact .ret _

theorem covered_observe {A : Type} {id : Nat} {f : Payment → Sql A} (h : ∀ p, IsCovered (f p)) :
    IsCovered (do
      let found ← PaymentRepository.findById id
      let current ← require found (.paymentNotFound id)
      PaymentRepository.acquirePaymentAdvisoryLock current.invoiceId
      let found ← PaymentRepository.findById id
      let reread ← require found (.paymentNotFound id)
      f reread) :=
  .bind (.query _) fun _ => .bind .require fun _ => .bind (.acquire _) fun _ =>
    .bind (.query _) fun _ => .bind .require h

theorem covered_applyCompletedPayment (now : Int) (id : Nat) (verified : VerifyWebhookResult) :
    IsCovered (applyCompletedPayment now id verified) := by
  unfold applyCompletedPayment
  refine covered_observe fun p => ?_
  split
  · exact .bind (.returning (by simp [Write.Plain])) fun _ => .ret _
  · refine .bind (.returning (by simp [Write.Plain])) fun updated => ?_
    cases updated with
    | none => exact .bind (.query _) fun _ => .require
    | some p => exact .bind (covered_settle _ _) fun _ => .ret _

theorem covered_applyFailedPayment (id : Nat) (verified : VerifyWebhookResult) :
    IsCovered (applyFailedPayment id verified) :=
  .of_plain (onlyWrites_applyFailedPayment (by simp [Write.Plain]) (by simp [Write.Plain]))

theorem covered_applyProviderObservation (id : Nat) : IsCovered (applyProviderObservation id) :=
  .of_plain (onlyWrites_applyProviderObservation (by simp [Write.Plain]))

theorem covered_deliver (now : Int) (id : Nat) (verified : VerifyWebhookResult) (entry : Entry) :
    IsCovered (deliver now id verified entry) := by
  have poller : IsCovered (settleFromKaspiPoller now id verified) := by
    unfold settleFromKaspiPoller
    split
    · exact covered_applyFailedPayment _ _
    · exact covered_applyCompletedPayment _ _ _
  cases entry with
  | processWebhook =>
    show IsCovered (processWebhook now id verified)
    unfold processWebhook
    split
    · exact covered_applyFailedPayment _ _
    · split
      · exact covered_applyProviderObservation _
      · exact covered_applyCompletedPayment _ _ _
  | settleFromKaspiPoller => exact poller
  | settleFromBccReconciliation => exact poller

theorem covered_recallBefore (input : InitiatePaymentInput) (invoice : Invoice) :
    IsCovered (recallBefore input invoice) := by
  unfold recallBefore
  split
  · refine .bind (.query _) fun existing => .forEach _ fun prev => ?_
    split
    · exact .bind (.returning (by simp [Write.Plain])) fun _ => .ret _
    · exact .ret _
  · exact .ret _

theorem covered_createOrWinner (payment : Payment) : IsCovered (createOrWinner payment) := by
  unfold createOrWinner
  refine .tryCatch (.bind (.insertOr (by simp [Write.Plain])) fun _ => .ret _) fun e => ?_
  split
  · exact .bind (.query _) fun _ => .bind .require fun _ => .ret _
  · exact .throw _

theorem covered_afterProviderCall (now : Int) (input : InitiatePaymentInput) (payment : Payment)
    (outcome : ProviderOutcome) : IsCovered (afterProviderCall now input payment outcome) := by
  cases outcome with
  | throws => exact .bind (.returning (by simp [Write.Plain])) fun _ => .throw _
  | completed txn => exact covered_applyCompletedPayment _ _ _
  | failed => exact .bind (.returning (by simp [Write.Plain])) fun _ => .ret _
  | initiated txn =>
    refine .bind (.returning (by simp [Write.Plain])) fun _ => .bind (.query _) fun _ => ?_
    show IsCovered (if _ then _ else _)
    split
    · exact .bind (.returning (by simp [Write.Plain])) fun _ => .ret _
    · exact .ret _

theorem covered_initiate (now : Int) (input : InitiatePaymentInput) (outcome : ProviderOutcome) :
    IsCovered (initiate now input outcome) := by
  unfold initiate
  refine .bind (.query _) fun existing => ?_
  cases existing with
  | some p => exact .ret _
  | none =>
    refine .bind .guardOr fun _ => .bind .guardOr fun _ => .bind (.query _) fun _ =>
      .bind .require fun invoice => .bind (.query _) fun paidSum => .bind ?_ fun _ => ?_
    · unfold checkInitiate
      refine .bind .guardOr fun _ => .bind .guardOr fun _ => .bind .guardOr fun _ =>
        .bind .guardOr fun _ => ?_
      split <;> exact .guardOr
    · unfold openPayment
      refine .bind (covered_recallBefore _ _) fun _ => .bind .uuid fun id =>
        .bind (covered_createOrWinner _) fun winner => ?_
      cases winner with
      | some p => exact .ret _
      | none => exact covered_afterProviderCall _ _ _ _

end PaymentService

/-! ## Cash, cancels and the overdue run -/

namespace InvoiceService

theorem covered_recordCash (now : Int) (input : ManualMarkPaidInput) (invoice : Invoice)
    (amount : Int) (credit : Option Int) : IsCovered (recordCash now input invoice amount credit) := by
  unfold recordCash
  refine .bind .uuid fun id => .bind (.insertOr (by simp [Write.Plain])) fun _ =>
    .bind ?_ fun _ => .notify
  cases credit with
  | none => exact .ret _
  | some c => exact covered_moveBalance _ _ _ _

theorem covered_flipPartial (invoice : Invoice) : IsCovered (flipPartial invoice) :=
  .of_plain (onlyWrites_flipPartial (by simp [Write.Plain]))

theorem covered_recordFullCashPayment (now : Int) (invoiceId : Nat) (residual : Int) (input : ManualMarkPaidInput) :
    IsCovered (recordFullCashPayment now invoiceId residual input) := by
  unfold recordFullCashPayment
  refine .bind (.returning (by simp [Write.Plain])) fun flipped => ?_
  cases flipped with
  | none => exact .bind (.query _) fun _ => .throw _
  | some updated =>
    refine .bind ?_ fun _ => .bind ?_ fun _ => .bind .notify fun _ => .ret _
    · unfold cancelIfPrepayment
      split
      · exact covered_cancelCoveredMonthlies _
      · exact .ret _
    · unfold recordResidual
      split <;> exact covered_recordCash _ _ _ _ _

theorem covered_manualMarkPaid (now : Int) (invoiceId : Nat) (input : ManualMarkPaidInput) :
    IsCovered (manualMarkPaid now invoiceId input) := by
  unfold manualMarkPaid
  refine .bind (.query _) fun _ => .bind .require fun existing =>
    .bind (covered_lockPrepaymentOf _) fun _ => .bind (.query _) fun paidSum => ?_
  unfold receiveCash
  cases input.amount with
  | none => exact covered_recordFullCashPayment _ _ _ _
  | some amount =>
    refine .bind (.bind .guardOr fun _ => .bind .guardOr fun _ => .guardOr) fun _ => ?_
    split
    · exact covered_recordFullCashPayment _ _ _ _
    · exact .bind (covered_flipPartial _) fun _ => .bind (covered_recordCash _ _ _ _ _) fun _ => .ret _

theorem covered_cancel (invoiceId : Nat) (reason : Option String) : IsCovered (cancel invoiceId reason) :=
  .of_plain (onlyWrites_cancel (by simp [Write.Plain]) (by simp [Write.Plain]) (by simp [Write.Plain]))

end InvoiceService

theorem covered_runForKindergarten (now : Int) : IsCovered (OverdueInvoiceProcessor.runForKindergarten now) :=
  .of_plain (onlyWrites_runForKindergarten (by simp [Write.Plain]) (by simp [Write.Plain]))

/-! ## Refunds -/

namespace RefundService

theorem covered_create (now : Int) (input : CreateRefundInput) : IsCovered (create now input) :=
  .bind (.query _) fun _ => .bind .require fun _ => .bind .guardOr fun _ => .bind .guardOr fun _ =>
    .bind .guardOr fun _ => .bind .guardOr fun _ => .bind .uuid fun _ =>
    .bind (.insertOr (by simp [Write.Plain])) fun _ => .ret _

theorem covered_approve (id staff : Nat) : IsCovered (approve id staff) := by
  unfold approve
  refine .bind (.returning (by simp [Write.Plain])) fun updated => ?_
  cases updated with
  | none => exact .bind (.query _) fun _ => .throw _
  | some r => exact .ret _

theorem covered_reject (id : Nat) (reason : String) : IsCovered (reject id reason) := by
  unfold reject
  refine .bind (.returning (by simp [Write.Plain])) fun updated => ?_
  cases updated with
  | none => exact .bind (.query _) fun _ => .throw _
  | some r => exact .ret _

theorem covered_process (id : Nat) (ack : Bool) (provider : ProviderRefund) :
    IsCovered (process id ack provider) := by
  unfold process
  refine .bind (.query _) fun _ => .bind .require fun _ => .bind .guardOr fun _ =>
    .bind (.acquire _) fun _ => .bind (.query _) fun _ => .bind .require fun _ =>
    .bind .guardOr fun _ => .bind (.query _) fun _ => .bind .require fun _ => .bind .guardOr fun _ =>
    .bind .guardOr fun _ => .bind .require fun _ => ?_
  unfold settleRefund
  refine .bind (.returning (by simp [Write.Plain])) fun _ => .bind .require fun _ =>
    .bind (.returning (by simp [Write.Plain])) fun _ => .bind (.query _) fun _ =>
    .bind .require fun _ => .bind (.query _) fun _ => .bind (.query _) fun _ => .bind ?_ fun _ =>
    .bind (covered_moveBalance _ _ _ _) fun _ => .bind .notify fun _ => .bind .notify fun _ => .ret _
  unfold unwindInvoice
  split
  · exact .bind (.returning (by simp [Write.Plain])) fun _ => .ret _
  · split
    · exact .bind (.returning (by simp [Write.Plain])) fun _ => .ret _
    · exact .ret _

end RefundService

end Billing
