import Shyraq.Billing.DoublePayments
import Shyraq.Billing.PrepaymentRequests
import Shyraq.Billing.RefundAmounts
import Shyraq.Billing.RefundLimits
import Shyraq.Kernel.Digits

/-!
# What Kaspi charges and what is credited

The adapter sends whole tenge, the ledger keeps tiyn.  In every run, what is charged for a payment is what its account
gains, and what is returned for a refund is what the account loses, exactly when the amount is whole.
-/

namespace Billing

open Kernel Transactions

/-! ## The adapter -/

namespace KaspiPaymentProvider

/-- `CreatePaymentInput`, as the adapter reads it. -/
structure CreatePaymentInput where
  invoiceId : Nat
  amountKzt : Decimal
  phoneNumber : Option String
  comment : Option String

/-- The body of `remote/create`.  Without a label the comment is the id of the invoice. -/
structure RemoteCreate where
  phoneNumber : String
  amount : Int
  comment : String ⊕ Nat
  deriving DecidableEq

/-- `RefundInput`, as the adapter reads it. -/
structure RefundInput where
  providerPaymentId : Nat
  amountKzt : Decimal

/-- The body of `kaspi-qr/history-pos-return`. -/
structure HistoryPosReturn where
  qrOperationId : Nat
  returnAmount : Int
  deviceInterface : String

/-- `Math.round`: halves go up. -/
def mathRound (q : Decimal) : Int := ⌊q + 1 / 2⌋

/-- What `createPayment` posts; without a phone number it throws. -/
def createPayment (input : CreatePaymentInput) : Option RemoteCreate :=
  let phone := trim (input.phoneNumber.getD "")
  let label := trim (input.comment.getD "")
  if phone = "" then none
  else some ⟨phone, mathRound input.amountKzt, if label = "" then .inr input.invoiceId else .inl label⟩

/-- What `refund` posts. -/
def refund (input : RefundInput) : HistoryPosReturn := ⟨input.providerPaymentId, mathRound input.amountKzt, "Pos"⟩

end KaspiPaymentProvider

open KaspiPaymentProvider

/-- What `initiate` asks the provider for, with the amount of the row that it has persisted. -/
def PaymentService.createPaymentInput (input : PaymentService.InitiatePaymentInput)
    (kaspiPhoneNumber comment : Option String) : CreatePaymentInput where
  invoiceId := input.invoiceId
  amountKzt := MoneyKzt.toDecimal (MoneyKzt.fromKzt input.amount)
  phoneNumber := kaspiPhoneNumber
  comment := comment

/-- What `process` asks the provider for. -/
def RefundService.refundInput (refund : Refund) (payment : Payment) : RefundInput where
  providerPaymentId := payment.providerTxnId.getD payment.id
  amountKzt := MoneyKzt.toDecimal refund.amount

/-! ## Whole tenge -/

def WholeTenge (amount : Int) : Prop := 100 ∣ amount

instance (amount : Int) : Decidable (WholeTenge amount) := inferInstanceAs (Decidable (100 ∣ amount))

theorem mathRound_toDecimal (amount : Int) : mathRound (MoneyKzt.toDecimal amount) = (amount + 50) / 100 := by
  unfold mathRound MoneyKzt.toDecimal
  rw [Int.floor_eq_iff]
  have hdiv : 100 * ((amount + 50) / 100) ≤ amount + 50 ∧ amount + 50 < 100 * ((amount + 50) / 100) + 100 := by omega
  obtain ⟨hlow, hhigh⟩ := hdiv
  generalize (amount + 50) / 100 = whole at hlow hhigh
  have hlow : (100 * whole : ℚ) ≤ amount + 50 := by exact_mod_cast hlow
  have hhigh : (amount + 50 : ℚ) < 100 * whole + 100 := by exact_mod_cast hhigh
  constructor <;> linarith

theorem eq_mathRound_iff (amount : Int) :
    amount = 100 * mathRound (MoneyKzt.toDecimal amount) ↔ WholeTenge amount := by
  rw [mathRound_toDecimal]
  unfold WholeTenge
  omega

/-! ## What is claimed -/

/-- What the account of the payment gains. -/
def gainFor (paymentId : Nat) (s : Store) (c : BillingCommit) : Int :=
  match (c.tx.view s).accountFor paymentId with
  | some a => (c.tx.view s).balanceOf a - s.balanceOf a
  | none => 0

/-- The request has opened this payment at Kaspi. -/
structure OpensAtKaspi (input : PaymentService.InitiatePaymentInput) (paymentId : Nat) (s : Store)
    (c : BillingCommit) : Prop where
  initiate : ∃ now outcome, c.op = .initiate now input outcome
  provider : input.provider = .kaspiPay
  absent : s.payment? paymentId = none
  row : ((c.tx.view s).payment? paymentId).isSome = true

/-- The payment completes with this commit. -/
def CompletesHere (paymentId : Nat) (s : Store) (c : BillingCommit) : Prop :=
  ∃ p, (c.tx.view s).payment? paymentId = some p ∧ p.CompletedSince s

/-- When the payment completes, its account gains what was charged. -/
def CreditsCharge (paymentId : Nat) (charged : RemoteCreate) (s : Store) (c : BillingCommit) : Prop :=
  CompletesHere paymentId s c → gainFor paymentId s c = 100 * charged.amount

/-- The refund of a Kaspi payment that the request processes. -/
def ProcessesAtKaspi (r : Refund) (p : Payment) (s : Store) (c : BillingCommit) : Prop :=
  (∃ ack provider, c.op = .processRefund r.id ack provider) ∧ s.refund? r.id = some r ∧
    s.payment? r.paymentId = some p ∧ p.provider = .kaspiPay

/-! ## What is aside -/

/-- A statement that touches neither payments nor balances. -/
def Write.Aside (w : Write) : Prop := w.table ≠ .payments ∧ w.Plain

theorem aside_of_prepays {w : Write} (h : Prepays w) : w.Aside := ⟨h.table_ne, h.plain⟩

theorem aside_of_creates {φ : Invoice → Prop} {w : Write} (h : Creates φ w) : w.Aside := ⟨h.table_ne (.inl rfl), h.plain⟩

theorem creates_newLineItems {φ : Invoice → Prop} (now : Int) (invoiceId : Nat)
    (items : List InvoiceService.LineItemInput) :
    Prog.OnlyWrites (Creates φ) (InvoiceService.newLineItems now invoiceId items) := by
  induction items with
  | nil => trivial
  | cons li items ih => exact fun _ => ih.bind fun _ => trivial

theorem creates_createOneOff (now : Int) (input : InvoiceService.CreateOneOffInvoiceInput) :
    Prog.OnlyWrites (Creates fun _ => True) (InvoiceService.createOneOff now input) := by
  unfold InvoiceService.createOneOff
  refine (creates_ensureForChild _).bind fun account id => (creates_newLineItems _ _ _).bind fun lineItems => ?_
  exact (creates_create trivial _).bind fun persisted =>
    (InvoiceService.creates_emitInvoiceCreated persisted).bind fun _ => trivial

theorem creates_generateLatePickupInvoice (now : Int) (input : InvoiceService.GenerateLatePickupInvoiceInput) :
    Prog.OnlyWrites (Creates fun _ => True) (InvoiceService.generateLatePickupInvoice now input) := by
  unfold InvoiceService.generateLatePickupInvoice
  refine .query fun tariffPlan => onlyWrites_require.bind fun fee => ?_
  refine (creates_ensureForChild _).bind fun account id lineId => ?_
  exact (creates_create trivial _).bind fun persisted =>
    (InvoiceService.creates_emitInvoiceCreated persisted).bind fun _ => trivial

theorem creates_generateFirstInvoice (now : Int) (childId : Nat) (enrollmentDate : Int) :
    Prog.OnlyWrites (Creates fun _ => True) (InvoiceService.generateFirstInvoice now childId enrollmentDate) := by
  unfold InvoiceService.generateFirstInvoice
  refine .query fun found => onlyWrites_require.bind fun assignment => ?_
  refine .query fun plan => onlyWrites_require.bind fun tariffPlan => .query fun holidays => ?_
  exact InvoiceService.creates_generateAndPersistInvoice now _ fun _ _ _ => trivial

theorem aside_computeAndCreate (now : Int) (childId : Nat) (archivedAt : Int) :
    Prog.OnlyWrites Write.Aside (ProRataRefundProcessor.computeAndCreate now childId archivedAt) := by
  have attach : ∀ i amount, Prog.OnlyWrites Write.Aside (ProRataRefundProcessor.attachRefund now i amount) := by
    intro i amount
    unfold ProRataRefundProcessor.attachRefund
    refine .query fun payments => ?_
    split
    · trivial
    · have hinsert : ∀ r, Write.Aside (.insertRefund r) := fun r => ⟨by simp [Write.table], by simp [Write.Plain]⟩
      intro id
      refine Prog.OnlyWrites.bind (P := Write.Aside) (p := RefundRepository.create _) ?_ fun _ => trivial
      exact (onlyWrites_insertOr (hinsert _)).bind fun _ => trivial
  have days : ∀ a b c, Prog.OnlyWrites Write.Aside (ProRataRefundProcessor.computeBillableDays a b c) := by
    intro a b c
    unfold ProRataRefundProcessor.computeBillableDays
    refine .query fun _ => ?_
    dsimp only
    split
    · exact fun _ => trivial
    · trivial
  unfold ProRataRefundProcessor.computeAndCreate
  refine Prog.OnlyWrites.bind trivial fun _ => .query fun child => ?_
  split
  · split <;> trivial
  · refine .query fun existing => ?_
    split
    · refine .query fun invoice => ?_
      cases invoice with
      | none => trivial
      | some i =>
        unfold ProRataRefundProcessor.refundInvoice
        refine (days _ _ _).bind fun d => ?_
        split
        · trivial
        · split
          · trivial
          · exact attach i _
    · trivial

theorem aside_prog (op : Op) (hop : ¬op.MovesMoney) : Prog.OnlyWrites Write.Aside op.prog := by
  have creates : ∀ {A : Type} {p : Sql A} {f : A → Sql Answer}, Prog.OnlyWrites (Creates fun _ => True) p →
      (∀ a, Prog.OnlyWrites Write.Aside (f a)) → Prog.OnlyWrites Write.Aside (Prog.bind p f) :=
    fun hp hf => (hp.mono fun _ => aside_of_creates).bind hf
  cases op with
  | proRataRefund now c archivedAt => exact (aside_computeAndCreate now c archivedAt).bind fun _ => trivial
  | createOneOff now input => exact creates (creates_createOneOff now input) fun _ => trivial
  | generateLatePickup now input => exact creates (creates_generateLatePickupInvoice now input) fun _ => trivial
  | generateMonthly now p => exact creates (creates_generateMonthly now p) fun _ => trivial
  | generateFirstInvoice now c d => exact creates (creates_generateFirstInvoice now c d) fun _ => trivial
  | prepayInvoice now c months =>
    exact ((prepays_prepayInvoice now c months).mono fun _ => aside_of_prepays).bind fun _ => trivial
  | elsewhere r => exact (onlyWrites_update ⟨by simp [Write.table], by simp [Write.Plain]⟩).bind fun _ => trivial
  | _ => exact absurd trivial hop

theorem covered_op (op : Op) : IsCovered op.prog := by
  by_cases hop : op.MovesMoney
  · exact covered_prog op hop
  · exact .of_plain ((aside_prog op hop).mono fun _ h => h.2)

/-! ## The amount of a new payment -/

/-- A payment that is inserted has this amount, with this provider. -/
def Write.Inserts (amount : Int) (provider : PaymentProvider) (w : Write) : Prop :=
  ∀ p, w = .insertPayment p → p.amount = amount ∧ p.provider = provider

section

variable {amount : Int} {provider : PaymentProvider}

theorem inserts_of_not {w : Write} (h : ∀ p, w ≠ .insertPayment p) : w.Inserts amount provider :=
  fun p hp => absurd hp (h p)

theorem inserts_of_elsewhere {w : Write} (h : w.Elsewhere) : w.Inserts amount provider :=
  inserts_of_not fun p hp => h (by rw [hp]; rfl)

theorem inserts_settle (now : Int) (p : Payment) :
    Prog.OnlyWrites (Write.Inserts amount provider) (PaymentService.settle now p) := by
  unfold PaymentService.settle
  refine .query fun found => onlyWrites_require.bind fun invoice => .query fun paidSum => ?_
  refine ((elsewhere_flipInvoice p invoice paidSum).mono fun _ => inserts_of_elsewhere).bind fun paidFlip => ?_
  refine ((elsewhere_cancelIfPrepayment paidFlip invoice).mono fun _ => inserts_of_elsewhere).bind fun _ => ?_
  refine (onlyWrites_moveBalance fun _ _ => inserts_of_not fun _ => by simp).bind fun _ => ?_
  refine onlyWrites_announceCompleted.mono fun w hw => inserts_of_not ?_
  rintro q rfl
  rcases hw with ⟨n, hw⟩ | ⟨r, d, hw⟩ <;> cases hw

theorem inserts_applyCompletedPayment (now : Int) (id : Nat) (verified : VerifyWebhookResult) :
    Prog.OnlyWrites (Write.Inserts amount provider) (PaymentService.applyCompletedPayment now id verified) := by
  have other : ∀ {w : Write}, (∀ p, w ≠ .insertPayment p) → w.Inserts amount provider := inserts_of_not
  unfold PaymentService.applyCompletedPayment
  refine .query fun found => onlyWrites_require.bind fun current => ?_
  refine Prog.OnlyWrites.bind (p := PaymentRepository.acquirePaymentAdvisoryLock _) trivial fun _ => ?_
  refine .query fun found => onlyWrites_require.bind fun reread => ?_
  split
  · exact (onlyWrites_returning (other fun _ => by simp)).bind fun _ => trivial
  · refine (onlyWrites_returning (other fun _ => by simp)).bind fun updated => ?_
    cases updated with
    | none => exact fun _ => onlyWrites_require
    | some updated => exact (inserts_settle now updated).bind fun _ => trivial

theorem inserts_afterProviderCall (now : Int) (input : PaymentService.InitiatePaymentInput) (payment : Payment)
    (outcome : PaymentService.ProviderOutcome) :
    Prog.OnlyWrites (Write.Inserts amount provider) (PaymentService.afterProviderCall now input payment outcome) := by
  have other : ∀ {w : Write}, (∀ p, w ≠ .insertPayment p) → w.Inserts amount provider := inserts_of_not
  cases outcome with
  | throws => exact (onlyWrites_returning (other fun _ => by simp)).bind fun _ => trivial
  | completed txn => exact inserts_applyCompletedPayment _ _ _
  | failed => exact (onlyWrites_returning (other fun _ => by simp)).bind fun _ => trivial
  | initiated txn =>
    refine (onlyWrites_returning (other fun _ => by simp)).bind fun _ => .query fun _ => ?_
    show Prog.OnlyWrites _ (if _ then _ else _)
    split
    · exact (onlyWrites_returning (other fun _ => by simp)).bind fun _ => trivial
    · trivial

theorem inserts_initiate (now : Int) (input : PaymentService.InitiatePaymentInput)
    (outcome : PaymentService.ProviderOutcome) :
    Prog.OnlyWrites (Write.Inserts (MoneyKzt.fromKzt input.amount) input.provider)
      (PaymentService.initiate now input outcome) := by
  unfold PaymentService.initiate
  refine .query fun existing => ?_
  cases existing with
  | some p => trivial
  | none =>
    refine onlyWrites_guardOr.bind fun _ => onlyWrites_guardOr.bind fun _ => .query fun _ => ?_
    refine onlyWrites_require.bind fun invoice => .query fun paidSum => Prog.OnlyWrites.bind ?_ fun _ => ?_
    · unfold PaymentService.checkInitiate
      refine onlyWrites_guardOr.bind fun _ => onlyWrites_guardOr.bind fun _ => onlyWrites_guardOr.bind fun _ =>
        onlyWrites_guardOr.bind fun _ => ?_
      split <;> exact onlyWrites_guardOr
    · unfold PaymentService.openPayment
      have recalls : ∀ w, Recall w → w.Inserts (MoneyKzt.fromKzt input.amount) input.provider := by
        rintro w ⟨i, rfl⟩
        exact inserts_of_not fun _ => by simp
      refine (onlyWrites_recallBefore.mono recalls).bind fun _ id => ?_
      refine Prog.OnlyWrites.bind (p := PaymentService.createOrWinner _) ?_ fun winner => ?_
      · unfold PaymentService.createOrWinner
        refine .tryCatch ?_ fun e => ?_
        · refine Prog.OnlyWrites.bind (p := PaymentRepository.create _) (onlyWrites_insertOr ?_) fun _ => trivial
          intro p hp
          obtain rfl := Write.insertPayment.inj hp
          exact ⟨rfl, rfl⟩
        · split
          · exact .query fun winner => onlyWrites_require.bind fun _ => trivial
          · trivial
      · cases winner with
        | some p => trivial
        | none => exact inserts_afterProviderCall _ _ _ _

theorem Write.Inserts.row {w : Write} (hw : w.Inserts amount provider) {v : Store} {p : Payment}
    (hp : p ∈ (v.apply w).payments) :
    (∃ q ∈ v.payments, q.id = p.id ∧ q.amount = p.amount ∧ q.provider = p.provider) ∨
      (p.amount = amount ∧ p.provider = provider) := by
  have updated : ∀ {i : Nat} {c : Payment → Bool} {f : Payment → Payment},
      p ∈ Table.updateWhere v.payments i c f →
      (∀ q, (f q).id = q.id ∧ (f q).amount = q.amount ∧ (f q).provider = q.provider) →
      ∃ q ∈ v.payments, q.id = p.id ∧ q.amount = p.amount ∧ q.provider = p.provider := by
    intro i c f hmem hf
    rcases Store.WF.mem_updateWhere hmem with hmem | ⟨q, hq, rfl⟩
    · exact ⟨p, hmem, rfl, rfl, rfl⟩
    · exact ⟨q, hq, (hf q).1.symm, (hf q).2.1.symm, (hf q).2.2.symm⟩
  cases w with
  | insertPayment q =>
    change p ∈ (if v.admitsPayment q then v.payments ++ [q] else v.payments) at hp
    split at hp
    · rcases List.mem_append.1 hp with hp | hp
      · exact .inl ⟨p, hp, rfl, rfl, rfl⟩
      · rw [List.mem_singleton.1 hp]
        exact .inr (hw q rfl)
    · exact .inl ⟨p, hp, rfl, rfl, rfl⟩
  | markPayment i f => exact .inl (updated hp fun q => by cases f <;> exact ⟨rfl, rfl, rfl⟩)
  | markRefundRequired i reason d => exact .inl (updated hp fun _ => ⟨rfl, rfl, rfl⟩)
  | scheduleBccReconciliation i nextAt => exact .inl (updated hp fun _ => ⟨rfl, rfl, rfl⟩)
  | reconcile i f => exact .inl (updated hp fun q => by cases f <;> exact ⟨rfl, rfl, rfl⟩)
  | _ => exact .inl ⟨p, hp, rfl, rfl, rfl⟩

theorem inserts_rows {ws : List Write} (hw : ∀ w ∈ ws, w.Inserts amount provider) {v : Store} {p : Payment}
    (hp : p ∈ (ws.foldl Store.apply v).payments) :
    (∃ q ∈ v.payments, q.id = p.id ∧ q.amount = p.amount ∧ q.provider = p.provider) ∨
      (p.amount = amount ∧ p.provider = provider) := by
  induction ws generalizing v with
  | nil => exact .inl ⟨p, hp, rfl, rfl, rfl⟩
  | cons w ws ih =>
    rcases ih (fun u hu => hw u (List.mem_cons_of_mem _ hu)) hp with ⟨q, hq, hid, hamount, hprovider⟩ | hnew
    · rcases (hw w List.mem_cons_self).row hq with ⟨r, hr, hid', hamount', hprovider'⟩ | ⟨hamount', hprovider'⟩
      · exact .inl ⟨r, hr, hid'.trans hid, hamount'.trans hamount, hprovider'.trans hprovider⟩
      · exact .inr ⟨hamount ▸ hamount', hprovider ▸ hprovider'⟩
    · exact .inr hnew

end

/-! ## One commit -/

section

variable {s : Store} {t : Tx Store Key Write} {op : Op} {a : Answer}

theorem gain_of_settled {D : Discipline Store Key Write} {p p' : Payment} {invoice : Invoice} {paidSum : Int}
    {flip : Option InvoiceFlip} {t₁ : Tx Store Key Write} {id : Nat} (h : Settled D p invoice paidSum flip t₁ t s)
    (hrow : (t.view s).payment? id = some p') (hinvoice : p'.invoiceId = p.invoiceId) (hamount : p'.amount = p.amount) :
    gainFor id s ⟨op, t, a⟩ = p'.amount := by
  have hbalance : (t.view s).balanceOf invoice.paymentAccountId = s.balanceOf invoice.paymentAccountId + p.amount :=
    h.accounts.balanceOf
  unfold gainFor
  rw [accountFor_view hrow (hinvoice.trans h.id.symm) h.stillThere]
  show (t.view s).balanceOf _ - s.balanceOf _ = _
  omega

theorem gain_of_outcome (hs : s.WF) (h : Outcome locks t s op a) {p : Payment} (hp : p ∈ (t.view s).payments)
    (hkaspi : p.provider = .kaspiPay) (hsince : p.CompletedSince s) : gainFor p.id s ⟨op, t, a⟩ = p.amount := by
  have hrow : (t.view s).payment? p.id = some p := Table.find_of_mem (hs.view t).paymentIds hp
  have same : (t.view s).payments = s.payments → gainFor p.id s ⟨op, t, a⟩ = p.amount := fun hsame =>
    absurd hsince (none_of_recalled hs (by rw [hsame]; exact .refl Payment.Recalled.refl _) p hp)
  cases h with
  | @delivered entry now id v a h =>
    cases h with
    | noted h => exact absurd hsince (none_of_view hs (view_of_touches h.1 s) p hp)
    | failed q hst h => exact absurd hsince (none_of_failed hs h.payments p hp)
    | processing hst he h => exact absurd hsince (none_of_view hs (view_of_touches h s) p hp)
    | completed q q' invoice paidSum flip hst hpr h =>
      by_cases hid : p.id = id
      · obtain ⟨t₁, txn, paidAt, v₁, v₂, v₃, hw, hseen, hset⟩ := h.settled
        have hself : (t.view s).payment? id = some q' := h.payments.find_self
        rw [← hid, hrow] at hself
        obtain rfl := Option.some.inj hself
        exact gain_of_settled hset hrow h.step.invoiceId h.step.amount
      · exact absurd hsince (not_since_of_row ((h.payments.find_of_ne hid).symm.trans hrow))
  | initiated h =>
    cases h with
    | answered h =>
      refine absurd hsince (none_of_recalled hs ?_ p hp)
      obtain ⟨ws, he, hw⟩ := h.writes
      rw [show t.view s = ws.foldl Store.apply s from view_of_writes he s]
      exact recalled_foldl hw s
    | opened q h hopen haccounts hinvoices =>
      obtain rfl := since_of_opening hs h hp hsince
      exact absurd hsince.1 hopen.1
    | settled q q₀ t₁ invoice paidSum flip h hid hst hstep hset =>
      obtain rfl := since_of_opening hs h hp hsince
      exact gain_of_settled hset hrow hstep.invoiceId hstep.amount
  | received invoice paidSum flip q credit h =>
    by_cases hid : p.id = q.id
    · have hself : (t.view s).payment? q.id = some q := (h.payments.after q.id).trans (if_pos rfl)
      rw [← hid, hrow] at hself
      obtain rfl := Option.some.inj hself
      rw [h.provider] at hkaspi
      cases hkaspi
    · have hother : (t.view s).payment? p.id = s.payment? p.id := (h.payments.after p.id).trans (if_neg hid)
      exact absurd hsince (not_since_of_row (hother.symm.trans hrow))
  | cancelled h => exact same h.payments
  | overdue h => exact same h.payments
  | requested q r h => exact same h.payments
  | approved r h => exact same h.payments
  | rejected r h => exact same h.payments
  | processed r providerRef q taken invoice effectiveNet flip hid h =>
    have htaken := h.payments
    cases taken with
    | false => exact same htaken
    | true =>
      obtain ⟨q', hst, hrep⟩ := htaken
      by_cases hid' : p.id = q.id
      · have hself : (t.view s).payment? q.id = some _ := hrep.find_self
        rw [← hid', hrow] at hself
        have hstatus := hsince.1
        rw [Option.some.inj hself] at hstatus
        cases hstatus
      · exact absurd hsince (not_since_of_row ((hrep.find_of_ne hid').symm.trans hrow))

theorem debit_of_refunded {D : Discipline Store Key Write} {r : Refund} {providerRef : Option Nat} {p : Payment}
    {taken : Bool} {invoice : Invoice} {effectiveNet : Int} {flip : Option InvoiceFlip} {ack : Bool}
    {provider : RefundService.ProviderRefund} (h : Refunded D r providerRef p taken invoice effectiveNet flip t s) :
    s.refund? r.id = some r ∧ debitFor r.paymentId s ⟨.processRefund r.id ack provider, t, a⟩ = r.amount := by
  have hrefund : s.refund? r.id = some r := h.refunds.before
  obtain ⟨q, hq, hstep, -⟩ := h.payment
  obtain ⟨q', hq', hstep', -⟩ := (moves_view t s).payments.row _ q hq
  have hrow : (t.view s).payment? r.paymentId = some q' := by
    rw [h.paymentId]
    exact hq'
  have hinvoice : q'.invoiceId = invoice.id := (hstep.trans hstep').invoiceId.trans h.invoiceId.symm
  have hbalance : (t.view s).balanceOf invoice.paymentAccountId = s.balanceOf invoice.paymentAccountId + -r.amount :=
    h.accounts.balanceOf
  have hprocesses : Op.processes r.paymentId s (.processRefund r.id ack provider) = true := by
    unfold Op.processes
    dsimp only
    rw [hrefund, Option.any_some, beq_self_eq_true]
  refine ⟨hrefund, ?_⟩
  unfold debitFor
  rw [if_pos hprocesses, accountFor_view hrow hinvoice h.stillThere]
  show s.balanceOf _ - (t.view s).balanceOf _ = _
  omega

end

/-- What a commit owes the ledger. -/
structure LedgerCommit (s : Store) (c : BillingCommit) : Prop where
  opened : ∀ now input outcome, c.op = .initiate now input outcome → ∀ p ∈ (c.tx.view s).payments,
    s.payment? p.id = none → p.amount = MoneyKzt.fromKzt input.amount ∧ p.provider = input.provider
  completed : ∀ p ∈ (c.tx.view s).payments, p.provider = .kaspiPay → p.CompletedSince s → gainFor p.id s c = p.amount
  processed : ∀ id ack provider, c.op = .processRefund id ack provider →
    ∃ r, s.refund? id = some r ∧ debitFor r.paymentId s c = r.amount

/-- Only an initiated payment is bound to the amount that was asked for. -/
def InsertsAsked (op : Op) (t : Tx Store Key Write) : Prop :=
  ∀ now input outcome, op = .initiate now input outcome →
    Tx.Extends (Write.Inserts (MoneyKzt.fromKzt input.amount) input.provider) .start t

variable {s : Store} {input : PaymentService.InitiatePaymentInput}

theorem ledgerCommit_of_outcome {t : Tx Store Key Write} {op : Op} {a : Answer} (hs : s.WF)
    (h : Outcome locks t s op a) (hinserts : InsertsAsked op t) : LedgerCommit s ⟨op, t, a⟩ where
  opened now input outcome hop p hp hnone := by
    obtain ⟨ws, he, hw⟩ := (hinserts now input outcome hop).writes
    rw [show t.view s = ws.foldl Store.apply s from view_of_writes he s] at hp
    rcases inserts_rows hw hp with ⟨q, hq, hid, -⟩ | hnew
    · rw [← hid, show s.payment? q.id = some q from Table.find_of_mem hs.paymentIds hq] at hnone
      cases hnone
    · exact hnew
  completed p hp hkaspi hsince := gain_of_outcome hs h hp hkaspi hsince
  processed id ack provider hop := by
    obtain rfl : op = .processRefund id ack provider := hop
    cases h with
    | processed r providerRef q taken invoice effectiveNet flip hid h =>
      subst hid
      exact ⟨r, debit_of_refunded h⟩

theorem ledgerCommit_of_aside {t : Tx Store Key Write} {op : Op} {a : Answer} (hs : s.WF)
    (hop : ¬op.MovesMoney) (h : Tx.Extends Write.Aside .start t) : LedgerCommit s ⟨op, t, a⟩ where
  opened now input outcome hinitiate := by
    obtain rfl : op = .initiate now input outcome := hinitiate
    exact absurd trivial hop
  completed p hp hkaspi hsince := by
    have hsame : (t.view s).payments = s.payments := payments_of_extends h (fun _ h => h.1) s
    exact absurd hsince (none_of_recalled hs (by rw [hsame]; exact .refl Payment.Recalled.refl _) p hp)
  processed id ack provider hprocess := by
    obtain rfl : op = .processRefund id ack provider := hprocess
    exact absurd trivial hop

theorem safe_inserts (hs : s.WF) (op : Op) (hop : op.MovesMoney) :
    Prog.Safe locks Store.WF (fun _ => True) (fun t _ _ => InsertsAsked op t) op.prog .start s := by
  by_cases hinitiate : ∃ now input outcome, op = .initiate now input outcome
  · obtain ⟨now, input, outcome, rfl⟩ := hinitiate
    have hp : Prog.OnlyWrites (Write.Inserts (MoneyKzt.fromKzt input.amount) input.provider)
        (Op.prog (.initiate now input outcome)) := (inserts_initiate now input outcome).bind fun _ => trivial
    refine (Prog.Safe.of_onlyWrites hp (fun _ => trivial) hs).mono ?_
    rintro t' s' a - ⟨he, -⟩ now' input' outcome' hop'
    obtain ⟨rfl, rfl, rfl⟩ := Op.initiate.inj hop'
    exact he
  · refine (safe_prog setting_locks hs op hop).mono ?_
    intro t' s' a _ _ now input outcome hop'
    exact absurd ⟨now, input, outcome, hop'⟩ hinitiate

theorem safe_ledger (hs : s.WF) (op : Op) : Prog.Safe locks Store.WF (fun _ => True)
    (fun t s a => LedgerCommit s ⟨op, t, a⟩) op.prog .start s := by
  by_cases hop : op.MovesMoney
  · exact ((safe_prog setting_locks hs op hop).and (safe_inserts hs op hop)).mono fun _ _ _ hj h =>
      ledgerCommit_of_outcome hj h.1 h.2
  · exact (Prog.Safe.of_onlyWrites (aside_prog op hop) (fun _ => trivial) hs).mono fun _ _ _ hj h =>
      ledgerCommit_of_aside hj hop h.1

/-! ## Every run -/

theorem chain_ledger {n : Nat} {cs : Schedule n} {σ : System n} (hs : s.WF) (hrun : run s cs = some σ) :
    Chain (fun s c => s.WF ∧ LedgerCommit s c) s σ.log σ.db :=
  chain_of_covered (D := locks) (fun op _ => covered_op op) (fun op _ (_ : True) hs => safe_ledger hs op)
    (fun _ c hs _ => hs.view c.tx) (fun s _ _ _ hcov => guarantee_locks hcov s) hs (fun _ _ _ => trivial) hrun

/-- The payment is there, at Kaspi, with this amount. -/
def HasKaspiPayment (id : Nat) (amount : Int) (s : Store) : Prop :=
  ∃ p, s.payment? id = some p ∧ p.amount = amount ∧ p.provider = .kaspiPay

theorem HasKaspiPayment.view {id : Nat} {amount : Int} (h : HasKaspiPayment id amount s)
    (t : Tx Store Key Write) : HasKaspiPayment id amount (t.view s) := by
  obtain ⟨p, hp, hamount, hprovider⟩ := h
  obtain ⟨p', hp', hstep, -⟩ := (moves_view t s).payments.row id p hp
  exact ⟨p', hp', hstep.amount.trans hamount, hstep.provider.trans hprovider⟩

theorem LedgerCommit.gains {id : Nat} {amount : Int} {c : BillingCommit} (h : LedgerCommit s c)
    (hrow : HasKaspiPayment id amount (c.tx.view s)) (hcompletes : CompletesHere id s c) :
    gainFor id s c = amount := by
  obtain ⟨p, hp, hsince⟩ := hcompletes
  obtain ⟨p', hp', hamount, hprovider⟩ := hrow
  obtain rfl := Option.some.inj (hp.symm.trans hp')
  obtain rfl : p.id = id := Table.id_of_find hp
  rw [h.completed p (Table.mem_of_find hp) hprovider hsince, hamount]

theorem OpensAtKaspi.has {id : Nat} {c : BillingCommit} (h : OpensAtKaspi input id s c) (hledger : LedgerCommit s c) :
    HasKaspiPayment id (MoneyKzt.fromKzt input.amount) (c.tx.view s) := by
  obtain ⟨now, outcome, hop⟩ := h.initiate
  obtain ⟨p, hp⟩ := Option.isSome_iff_exists.1 h.row
  obtain rfl : p.id = id := Table.id_of_find hp
  have hopened := hledger.opened now input outcome hop p (Table.mem_of_find hp) h.absent
  exact ⟨p, hp, hopened.1, hopened.2.trans h.provider⟩

/-- From the request that opens a payment on, it completes with the amount that was asked for. -/
theorem gains_after_opening {id : Nat} {c : BillingCommit}
    {after : List BillingCommit} (h : OpensAtKaspi input id s c) (hlog : AtEach LedgerCommit s (c :: after)) :
    AtEach (fun s c => CompletesHere id s c → gainFor id s c = MoneyKzt.fromKzt input.amount) s (c :: after) := by
  have hrow := h.has hlog.1
  refine ⟨hlog.1.gains hrow, ?_⟩
  refine (hlog.2.before (HasKaspiPayment id (MoneyKzt.fromKzt input.amount)) ?_ hrow).mono ?_
  · exact fun s c h _ => h.view c.tx
  · exact fun s c h => h.2.gains (h.1.view c.tx)

theorem createPayment_amount {input : CreatePaymentInput} {body : RemoteCreate} (h : createPayment input = some body) :
    body.amount = mathRound input.amountKzt := by
  unfold createPayment at h
  dsimp only at h
  split at h
  · cases h
  · rw [← Option.some.inj h]

/-- Every processed refund of a Kaspi payment takes what was returned. -/
def DebitsReturn (s : Store) (c : BillingCommit) : Prop :=
  ∀ r p, ProcessesAtKaspi r p s c →
    debitFor r.paymentId s c = 100 * (refund (RefundService.refundInput r p)).returnAmount

/-- **Whole tenge.**  In every run, a payment opened at Kaspi is credited with what was charged exactly when it was
opened for whole tenge or does not complete, and the refunds processed there are debited with what was returned
exactly when they are whole. -/
theorem creditsCharge_iff_wholeTenge {n : Nat} {s : Store} {cs : Schedule n} {σ : System n} (hs : s.WF)
    (hrun : run s cs = some σ) :
    (∀ before c after input id phone comment body, σ.log = before ++ c :: after →
      OpensAtKaspi input id (replay s before) c →
      createPayment (PaymentService.createPaymentInput input phone comment) = some body →
      (AtEach (CreditsCharge id body) (replay s before) (c :: after) ↔
        AtEach (fun s c => CompletesHere id s c → WholeTenge (MoneyKzt.fromKzt input.amount))
          (replay s before) (c :: after))) ∧
      (AtEach DebitsReturn s σ.log ↔
        AtEach (fun s c => ∀ r p, ProcessesAtKaspi r p s c → WholeTenge r.amount) s σ.log) := by
  have hlog : AtEach LedgerCommit s σ.log := (chain_ledger hs hrun).atEach.mono fun s c h => h.2
  constructor
  · intro before c after input id phone comment body hsplit hopens hbody
    rw [hsplit, atEach_append] at hlog
    refine AtEach.congr ((gains_after_opening hopens hlog.2).mono fun s c hgains => ?_)
    refine forall_congr' fun hcompletes => ?_
    rw [hgains hcompletes, createPayment_amount hbody]
    exact eq_mathRound_iff _
  · refine AtEach.congr (hlog.mono fun s c h => ?_)
    refine forall_congr' fun r => forall_congr' fun p => forall_congr' fun hprocesses => ?_
    obtain ⟨⟨ack, provider, hop⟩, hrow, -⟩ := hprocesses
    obtain ⟨r', hrow', hdebit⟩ := h.processed r.id ack provider hop
    obtain rfl := Option.some.inj (hrow.symm.trans hrow')
    rw [hdebit]
    exact eq_mathRound_iff _

/-! ## Five tenge, and five and a half -/

instance (id : Nat) (s : Store) (c : BillingCommit) : Decidable (CompletesHere id s c) :=
  decidable_of_iff (((c.tx.view s).payment? id).any fun p => decide (p.CompletedSince s)) (by
    simp only [CompletesHere, Option.any_eq_true, decide_eq_true_eq])

instance (id : Nat) (charged : RemoteCreate) (s : Store) (c : BillingCommit) : Decidable (CreditsCharge id charged s c) :=
  inferInstanceAs (Decidable (_ → _))

deriving instance DecidableEq for PaymentService.InitiatePaymentInput

def Op.initiates (input : PaymentService.InitiatePaymentInput) : Op → Bool
  | .initiate _ input' _ => decide (input' = input)
  | _ => false

theorem Op.initiates_iff {op : Op} : op.initiates input = true ↔ ∃ now outcome, op = .initiate now input outcome := by
  cases op with
  | initiate now input' outcome => simp [Op.initiates]
  | _ => simp [Op.initiates]

instance (input : PaymentService.InitiatePaymentInput) (id : Nat) (s : Store) (c : BillingCommit) :
    Decidable (OpensAtKaspi input id s c) :=
  decidable_of_iff (c.op.initiates input = true ∧ input.provider = .kaspiPay ∧ s.payment? id = none ∧
    ((c.tx.view s).payment? id).isSome = true)
    ⟨fun h => ⟨Op.initiates_iff.1 h.1, h.2.1, h.2.2.1, h.2.2.2⟩,
      fun h => ⟨Op.initiates_iff.2 h.initiate, h.provider, h.absent, h.row⟩⟩

/-- A part of an invoice of 1000. -/
def payPart (amount : Decimal) : PaymentService.InitiatePaymentInput where
  invoiceId := 20
  amount := amount
  paymentMode := .partial_
  provider := .kaspiPay
  idempotencyKey := .client 1
  payerUserId := some 2
  providerEnabled := true
  bccActive := true

/-- The part is paid, and some of it is returned. -/
def paysAndReturns (amount returned : Decimal) : Schedule 1 :=
  request 0 (.initiate 1 (payPart amount) (.initiated 70)) 10 30 ++
  (request 0 (.deliver .settleFromKaspiPoller 5 30 ⟨70, .completed, none⟩) 15 0 ++
  approvedRefund 0 50 30 returned (request 0 (.processRefund 50 true (some none)) 19 0 ++ []))

/-- The first commit opens the payment. -/
def OpensFirst (input : PaymentService.InitiatePaymentInput) (paymentId : Nat) (s : Store) : List BillingCommit → Bool
  | [] => false
  | c :: _ => decide (OpensAtKaspi input paymentId s c)

theorem opens_of_first {id : Nat} {log : List BillingCommit}
    (h : OpensFirst input id s log = true) : ∃ c after, log = c :: after ∧ OpensAtKaspi input id s c := by
  cases log with
  | nil => cases h
  | cons c after => exact ⟨c, after, rfl, of_decide_eq_true h⟩

theorem creditsCharge_iff_wholeTenge_five : ∃ σ : System 1,
    run (Store.oneInvoice .other 1000) (paysAndReturns 5 2) = some σ ∧
    ¬AtEach (fun s c => ¬CompletesHere 30 s c) (Store.oneInvoice .other 1000) σ.log ∧
    ∃ c after, σ.log = c :: after ∧ OpensAtKaspi (payPart 5) 30 (Store.oneInvoice .other 1000) c ∧
      AtEach (CreditsCharge 30 ⟨"7701", 5, .inr 20⟩) (Store.oneInvoice .other 1000) σ.log ∧
      AtEach DebitsReturn (Store.oneInvoice .other 1000) σ.log := by
  obtain ⟨σ, hrun, h⟩ := run_shows run (Store.oneInvoice .other 1000) (paysAndReturns 5 2) (fun σ =>
    OpensFirst (payPart 5) 30 (Store.oneInvoice .other 1000) σ.log &&
      decide (AtEach (fun (s : Store) (_ : BillingCommit) => ∀ r ∈ s.refunds, WholeTenge r.amount)
        (Store.oneInvoice .other 1000) σ.log) &&
      !decide (AtEach (fun s c => ¬CompletesHere 30 s c) (Store.oneInvoice .other 1000) σ.log))
    (by decide +kernel)
  rw [Bool.and_eq_true, Bool.and_eq_true, Bool.not_eq_true', decide_eq_false_iff_not, decide_eq_true_eq] at h
  obtain ⟨⟨hfirst, hwhole⟩, hcompletes⟩ := h
  obtain ⟨c, after, hlog, hopens⟩ := opens_of_first hfirst
  have hiff := creditsCharge_iff_wholeTenge (by decide) hrun
  refine ⟨σ, hrun, hcompletes, c, after, hlog, hopens, ?_, ?_⟩
  · rw [hlog]
    refine (hiff.1 [] c after (payPart 5) 30 (some "7701") none _ hlog hopens (by decide +kernel)).2 ?_
    exact AtEach.of_forall fun _ _ _ => by decide +kernel
  · refine hiff.2.2 (hwhole.mono fun s c hwhole r p hprocesses => ?_)
    exact hwhole r (Table.mem_of_find hprocesses.2.1)

/-- For five and a half tenge Kaspi takes six, and the account gains five and a half. -/
theorem half_tenge_not_credited : ∃ σ : System 1, (Store.oneInvoice .other 1000).WF ∧
    run (Store.oneInvoice .other 1000) (paysAndReturns (11 / 2) 2) = some σ ∧
    (∃ c after, σ.log = c :: after ∧ OpensAtKaspi (payPart (11 / 2)) 30 (Store.oneInvoice .other 1000) c) ∧
    createPayment (PaymentService.createPaymentInput (payPart (11 / 2)) (some "7701") none) =
      some ⟨"7701", 6, .inr 20⟩ ∧
    ¬AtEach (CreditsCharge 30 ⟨"7701", 6, .inr 20⟩) (Store.oneInvoice .other 1000) σ.log := by
  obtain ⟨σ, hrun, h⟩ := run_shows run (Store.oneInvoice .other 1000) (paysAndReturns (11 / 2) 2) (fun σ =>
    OpensFirst (payPart (11 / 2)) 30 (Store.oneInvoice .other 1000) σ.log &&
      !decide (AtEach (CreditsCharge 30 ⟨"7701", 6, .inr 20⟩) (Store.oneInvoice .other 1000) σ.log))
    (by decide +kernel)
  rw [Bool.and_eq_true, Bool.not_eq_true', decide_eq_false_iff_not] at h
  exact ⟨σ, by decide, hrun, opens_of_first h.1, by decide +kernel, h.2⟩

end Billing
