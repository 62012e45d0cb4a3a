import Shyraq.Billing.Creations
import Shyraq.Billing.KaspiRequests

/-!
# Prepayment requests under one idempotency key

The request looks its key up before the child's lock is taken.  What commits in between is found
by the second lookup only, when an invoice has been created already.
-/

namespace Billing

open Kernel Transactions

namespace ParentPaymentController

/-- `InitiatePrepaymentDto` with the invoice of the path and the payer.  What the guardian's rights
and the payer's details come to is an input, as the text of what they throw. -/
structure InitiatePrepaymentInput where
  invoiceId : Nat
  months : PrepaymentMonths
  provider : PaymentProvider
  idempotencyKey : IdempotencyKey
  payerUserId : Nat
  /-- `assertCanPay`. -/
  forbidden : Option String
  providerEnabled : Bool
  /-- `kaspi_phone_required`, and what `prepareBccBillingDetails` throws. -/
  rejected : Option String
  bccActive : Bool

/-- The redirect and the deeplink are the provider's and are left out. -/
structure InitiatePrepaymentResponse where
  invoiceId : Nat
  paymentId : Nat
  baseAmount : Int
  discountPct : Decimal
  finalAmount : Int
  coversFrom : Int
  coversTo : Int
  deriving DecidableEq

def throwIf (text : Option String) : Sql Unit :=
  match text with
  | none => pure ()
  | some message => Prog.throw (.internal message)

def getInvoice (id : Nat) : Sql Invoice := do
  let found ← InvoiceRepository.findById id
  require found (.invoiceNotFound id)

/-- The invoice of the payment that the key already has, or a new one. -/
def prepaymentInvoice (now : Int) (input : InitiatePrepaymentInput) (childId : Nat) : Option Payment → Sql Invoice
  | some existing => getInvoice existing.invoiceId
  | none => InvoiceService.prepayInvoice now childId input.months

def initiateInput (input : InitiatePrepaymentInput) (invoice : Invoice) : PaymentService.InitiatePaymentInput where
  invoiceId := invoice.id
  amount := MoneyKzt.toDecimal invoice.amountAfterDiscount
  paymentMode := .full
  provider := input.provider
  idempotencyKey := input.idempotencyKey
  payerUserId := some input.payerUserId
  providerEnabled := input.providerEnabled
  bccActive := input.bccActive

def response (invoice : Invoice) (payment : Payment) : InitiatePrepaymentResponse where
  invoiceId := invoice.id
  paymentId := payment.id
  baseAmount := invoice.amountDue
  discountPct := invoice.discountPct.getD 0
  finalAmount := invoice.amountAfterDiscount
  coversFrom := invoice.periodStart
  coversTo := invoice.periodEnd

def initiatePrepayment (now : Int) (input : InitiatePrepaymentInput) (outcome : PaymentService.ProviderOutcome) :
    Sql InitiatePrepaymentResponse := do
  let original ← getInvoice input.invoiceId
  throwIf input.forbidden
  guardOr input.providerEnabled (.providerUnavailable input.provider)
  throwIf input.rejected
  let existingPayment ← PaymentRepository.findByIdempotencyKey input.idempotencyKey
  let invoice ← prepaymentInvoice now input original.childId existingPayment
  let payment ← PaymentService.initiate now (initiateInput input invoice) outcome
  pure (response invoice payment)

end ParentPaymentController

open ParentPaymentController

/-- One request, with the provider's answer to it. -/
structure PrepaymentOp where
  now : Int
  input : InitiatePrepaymentInput
  outcome : PaymentService.ProviderOutcome

def PrepaymentOp.prog (op : PrepaymentOp) : Sql InitiatePrepaymentResponse :=
  initiatePrepayment op.now op.input op.outcome

/-- Up to `n` prepayment requests at once. -/
abbrev PrepaymentSystem (n : Nat) :=
  Transactions.System Store Key Write BillingError PrepaymentOp InitiatePrepaymentResponse n

abbrev PrepaymentSchedule (n : Nat) := List (Choice PrepaymentOp n)

abbrev PrepaymentCommit := Commit Store Key Write PrepaymentOp InitiatePrepaymentResponse

def runPrepayments {n : Nat} (s : Store) (cs : PrepaymentSchedule n) : Option (PrepaymentSystem n) :=
  (System.init s).exec PrepaymentOp.prog cs

/-! ## What is claimed -/

/-- The payment of the response is one of its invoice. -/
def PaysFor (s : Store) (r : InitiatePrepaymentResponse) : Prop :=
  (s.payment? r.paymentId).any (fun p => p.invoiceId == r.invoiceId) = true

instance (s : Store) (r : InitiatePrepaymentResponse) : Decidable (PaysFor s r) := by
  unfold PaysFor
  infer_instance

/-- The requests of one key are answered alike, and none cancels the invoice they name. -/
structure AnsweredAlike (s : Store) (log : List PrepaymentCommit) : Prop where
  paysFor : AtEach (fun s c => PaysFor (c.tx.view s) c.result) s log
  one : ∀ c ∈ log, ∀ c' ∈ log, c'.result.paymentId = c.result.paymentId ∧ c'.result.invoiceId = c.result.invoiceId
  stands : ∀ c ∈ log, ∀ c' ∈ log, .markInvoice c.result.invoiceId .cancelled ∉ c'.tx.writes

/-- The lookup before the lock, the second SELECT of the request, has found a payment. -/
def foundFirst (key : IdempotencyKey) (t : Tx Store Key Write) : Bool :=
  (t.seen[1]?).any fun v => (v.paymentByKey key).isSome

/-- It has found one, or there is none when the request commits. -/
def LooksOnce (s : Store) (c : PrepaymentCommit) : Prop :=
  foundFirst c.op.input.idempotencyKey c.tx = true ∨ s.paymentByKey c.op.input.idempotencyKey = none

instance (s : Store) (c : PrepaymentCommit) : Decidable (LooksOnce s c) := by
  unfold LooksOnce
  infer_instance

/-! ## Keys and invoices of payments -/

/-- A key has one payment, and a payment has its invoice. -/
structure Store.Linked (s : Store) : Prop where
  keys : (s.payments.map Payment.idempotencyKey).Nodup
  invoices : ∀ p ∈ s.payments, s.hasInvoice p.invoiceId = true

instance (s : Store) : Decidable s.Linked :=
  decidable_of_iff ((s.payments.map Payment.idempotencyKey).Nodup ∧ ∀ p ∈ s.payments, s.hasInvoice p.invoiceId = true)
    ⟨fun h => ⟨h.1, h.2⟩, fun h => ⟨h.keys, h.invoices⟩⟩

variable {s : Store} {i : Invoice} {t : Tx Store Key Write} {key : IdempotencyKey}

theorem Store.Linked.byKey (h : s.Linked) {p : Payment} (hp : p ∈ s.payments) :
    s.paymentByKey p.idempotencyKey = some p := by
  unfold Store.paymentByKey
  cases hfind : s.payments.find? fun q => q.idempotencyKey == p.idempotencyKey with
  | none =>
    have hno := List.find?_eq_none.1 hfind p hp
    simp at hno
  | some q =>
    have hkey := beq_iff_eq.1 (List.find?_some (p := fun q : Payment => q.idempotencyKey == p.idempotencyKey) hfind)
    rw [List.inj_on_of_nodup_map h.keys (List.mem_of_find?_eq_some hfind) hp hkey]

theorem mem_of_byKey {p : Payment} (h : s.paymentByKey key = some p) : p ∈ s.payments ∧ p.idempotencyKey = key :=
  ⟨List.mem_of_find?_eq_some h, beq_iff_eq.1 (List.find?_some (p := fun q : Payment => q.idempotencyKey == key) h)⟩

theorem Store.Linked.apply (h : s.Linked) (w : Write) : (s.apply w).Linked := by
  have hinvoice : ∀ i, s.hasInvoice i = true → (s.apply w).hasInvoice i = true :=
    fun i hi => (moves_foldl [w] s).hasInvoice hi
  have updated : ∀ {i : Nat} {c : Payment → Bool} {f : Payment → Payment},
      (∀ q, (f q).idempotencyKey = q.idempotencyKey) → (∀ q, (f q).invoiceId = q.invoiceId) →
      Store.Linked { s with payments := Table.updateWhere s.payments i c f } := by
    intro i c f hkey hinv
    constructor
    · show ((Table.updateWhere s.payments i c f).map Payment.idempotencyKey).Nodup
      rw [updateWhere_keys hkey]
      exact h.keys
    · intro q hq
      rcases Store.WF.mem_updateWhere hq with hq | ⟨q₀, hq₀, rfl⟩
      · exact h.invoices q hq
      · rw [hinv]
        exact h.invoices q₀ hq₀
  cases w with
  | insertPayment p =>
    unfold Store.apply
    by_cases hin : s.admitsPayment p = true
    · simp only [hin, if_true]
      simp only [Store.admitsPayment, Bool.and_eq_true, Bool.not_eq_true', List.any_eq_false, beq_iff_eq] at hin
      constructor
      · show ((s.payments ++ [p]).map Payment.idempotencyKey).Nodup
        rw [List.map_append, List.nodup_append]
        refine ⟨h.keys, List.nodup_singleton _, fun k hk k' hk' => ?_⟩
        obtain ⟨q, hq, rfl⟩ := List.mem_map.1 hk
        rw [List.mem_singleton.1 hk']
        exact hin.2 q hq
      · intro q hq
        rcases List.mem_append.1 hq with hq | hq
        · exact h.invoices q hq
        · rw [List.mem_singleton.1 hq]
          exact hin.1.1.2
    · simp only [hin]
      exact h
  | markPayment i f => exact updated (fun q => by cases f <;> rfl) (fun q => by cases f <;> rfl)
  | markRefundRequired i reason d => exact updated (fun _ => rfl) fun _ => rfl
  | scheduleBccReconciliation i nextAt => exact updated (fun _ => rfl) fun _ => rfl
  | reconcile i f => exact updated (fun q => by cases f <;> rfl) (fun q => by cases f <;> rfl)
  | insertInvoice i => exact ⟨h.keys, fun q hq => hinvoice _ (h.invoices q hq)⟩
  | markInvoice i f => exact ⟨h.keys, fun q hq => hinvoice _ (h.invoices q hq)⟩
  | _ => exact ⟨h.keys, h.invoices⟩

theorem Store.Linked.view (h : s.Linked) (t : Tx Store Key Write) : (t.view s).Linked := by
  show (t.writes.foldl Store.apply s).Linked
  generalize t.writes = ws
  induction ws generalizing s with
  | nil => exact h
  | cons w ws ih => exact ih (h.apply w)

/-! ## The invoice that a request creates -/

/-- Up to the INSERT of its invoice a prepayment cancels the stale ones. -/
def Prepays (w : Write) : Prop := Creates (fun _ => True) w ∨ ∃ i, w = .markInvoice i .cancelled

theorem Prepays.table_ne {w : Write} (h : Prepays w) : w.table ≠ .payments := by
  rcases h with h | ⟨i, rfl⟩
  · exact h.table_ne (.inl rfl)
  · exact TableName.noConfusion

theorem Prepays.plain {w : Write} (h : Prepays w) : w.Plain := by
  rcases h with h | ⟨i, rfl⟩
  · exact h.plain
  · exact fun i b h => by cases h

theorem prepays_cancelStalePrepayment (old : Invoice) :
    Prog.OnlyWrites Prepays (InvoiceService.cancelStalePrepayment old) := by
  refine (onlyWrites_returning (.inr ⟨old.id, rfl⟩)).bind fun cancelled => ?_
  cases cancelled with
  | none => trivial
  | some i => exact onlyWrites_releaseUsages fun _ => .inl trivial

theorem prepays_of_creates {A : Type} {p : Sql A} (h : Prog.OnlyWrites (Creates fun _ => True) p) :
    Prog.OnlyWrites Prepays p := h.mono fun _ hw => .inl hw

/-- It does not cancel this invoice. -/
def Spares (id : Nat) (w : Write) : Prop := w ≠ .markInvoice id .cancelled

theorem spares_of_creates {φ : Invoice → Prop} {id : Nat} {w : Write} (h : Creates φ w) : Spares id w := by
  rintro rfl
  exact h

/-- The transaction has created this prepayment, and has not cancelled it since. -/
structure Created (t : Tx Store Key Write) (i : Invoice) : Prop where
  writes : ∃ ws ws', t.writes = ws ++ .insertInvoice i :: ws' ∧ ∀ w ∈ ws', Spares i.id w
  prepayment : i.invoiceType.isPrepayment = true

theorem Created.mem (h : Created t i) : .insertInvoice i ∈ t.writes := by
  obtain ⟨ws, ws', hws, -⟩ := h.writes
  rw [hws]
  exact List.mem_append_right _ List.mem_cons_self

theorem Created.extends {t' : Tx Store Key Write} (h : Created t i)
    (he : Tx.Extends (Spares i.id) t t') : Created t' i := by
  obtain ⟨ws, ws', hws, hspare⟩ := h.writes
  obtain ⟨vs, hvs, hvspare⟩ := he.writes
  refine ⟨⟨ws, ws' ++ vs, by rw [hvs, hws, List.append_assoc, List.cons_append], fun w hw => ?_⟩, h.prepayment⟩
  rcases List.mem_append.1 hw with hw | hw
  · exact hspare w hw
  · exact hvspare w hw

theorem Created.spares (h : Created t i) (hl : t.Lands Store.lets s) : .markInvoice i.id .cancelled ∉ t.writes := by
  obtain ⟨ws, ws', hws, hspare⟩ := h.writes
  have hlanded := hl.landed
  rw [hws] at hlanded ⊢
  intro hm
  rcases List.mem_append.1 hm with hm | hm
  · exact unmarked_before hlanded hm
  · rcases List.mem_cons.1 hm with hm | hm
    · cases hm
    · exact hspare _ hm rfl

section

variable {D : Discipline Store Key Write} {J : Store → Prop} {X : BillingError → Prop}
  {t : Tx Store Key Write} {s : Store}

/-- A prepayment that has not touched the payments. -/
structure Prepared (t₀ t : Tx Store Key Write) (i : Invoice) : Prop where
  created : Created t i
  payments : ∀ w ∈ t.writes, w.table ≠ .payments
  seen : t₀.seen <+: t.seen

theorem prepays_writes {t' : Tx Store Key Write} (ht : ∀ w ∈ t.writes, w.table ≠ .payments)
    (he : Tx.Extends Prepays t t') : ∀ w ∈ t'.writes, w.table ≠ .payments := by
  obtain ⟨ws, hws, hw⟩ := he.writes
  intro w hm
  rw [hws] at hm
  rcases List.mem_append.1 hm with hm | hm
  · exact ht w hm
  · exact (hw w hm).table_ne

theorem safe_persistPrepayment_prepares (hX : ∀ e, X e) (hj : J s) {t₀ : Tx Store Key Write} (now : Int) (childId : Nat)
    (months : PrepaymentMonths) (quote : InvoiceService.PrepaymentQuote)
    (ht : ∀ w ∈ t.writes, w.table ≠ .payments) (hseen : t₀.seen <+: t.seen) :
    Prog.Safe D J X (fun t' _ i => Prepared t₀ t' i) (InvoiceService.persistPrepayment now childId months quote) t s := by
  unfold InvoiceService.persistPrepayment
  refine Prog.Safe.bind_frame (P := Prepays) (prepays_of_creates (creates_ensureForChild childId)) hX hj
    fun account t₁ s₁ he₁ _ _ => ?_
  refine Prog.Safe.uuid fun s₂ id _ hj₂ _ _ => ?_
  refine Prog.Safe.bind_frame (P := Prepays)
    (prepays_of_creates (InvoiceService.creates_prepaymentLineItems now id quote.tariffPlan.id 0 quote.shares)) hX hj₂
    fun lineItems t₃ s₃ he₃ _ hj₃ => ?_
  have he := he₁.trans ((Tx.Extends.refl t₁).locked _ |>.trans he₃)
  have hpay := prepays_writes ht he
  unfold InvoiceRepository.create
  simp only [Prog.bind_eq, Prog.bind_assoc]
  refine safe_insertOr hX fun s₄ _ hj₄ _ => ?_
  generalize hi : ({ id := id, childId := childId, .. } : Invoice) = i
  have hprepay : i.invoiceType.isPrepayment = true := by
    rw [← hi]
    rfl
  have hcreated : Created (t₃.wrote (.insertInvoice i)) i :=
    ⟨⟨t₃.writes, [], rfl, fun w hw => absurd hw List.not_mem_nil⟩, hprepay⟩
  refine Prog.Safe.bind_frame (P := Creates fun _ => False) (.forEach _ fun li _ => onlyWrites_insertOr trivial) hX hj₄
    fun _ t₅ s₅ he₅ _ hj₅ => ?_
  refine Prog.Safe.pure_bind ?_
  refine Prog.Safe.bind_frame (P := Creates fun _ => False)
    (InvoiceService.creates_persistCustomDiscountApplications now i _ quote.discount) hX hj₅ fun _ t₆ s₆ he₆ _ hj₆ => ?_
  refine Prog.Safe.bind_frame (P := Creates fun _ => False) (InvoiceService.creates_emitInvoiceCreated i) hX hj₆
    fun _ t₇ s₇ he₇ _ _ s₈ _ _ => ?_
  have hafter := (he₅.trans he₆).trans he₇
  refine ⟨hcreated.extends (hafter.mono fun w hw => spares_of_creates hw), fun w hm => ?_, ?_⟩
  · obtain ⟨ws, hws, hw⟩ := hafter.writes
    rw [hws, Tx.writes_wrote] at hm
    rcases List.mem_append.1 hm with hm | hm
    · rcases List.mem_append.1 hm with hm | hm
      · exact hpay w hm
      · rw [List.mem_singleton.1 hm]
        exact TableName.noConfusion
    · exact (hw w hm).table_ne (.inl rfl)
  · exact (hseen.trans he.seen).trans hafter.seen

theorem safe_prepayInvoice_prepares (hX : ∀ e, X e) (ht : ∀ w ∈ t.writes, w.table ≠ .payments) (now : Int)
    (childId : Nat) (months : PrepaymentMonths) :
    Prog.Safe D J X (fun t' _ i => Prepared t t' i) (InvoiceService.prepayInvoice now childId months) t s := by
  unfold InvoiceService.prepayInvoice InvoiceRepository.acquireChildPrepaymentAdvisoryLock
    InvoiceRepository.findUnpaidPrepaymentsByChild
  refine Prog.Safe.acquire fun s₁ _ hj₁ => ?_
  refine Prog.Safe.bind_frame (P := Prepays) (prepays_of_creates (InvoiceService.creates_computeOutstandingDebt childId))
    hX hj₁ fun outstanding t₂ s₂ he₂ _ _ => ?_
  cases outstanding with
  | some amount => exact hX _
  | none =>
    refine Prog.Safe.query fun s₃ _ hj₃ => ?_
    refine Prog.Safe.bind_frame (P := Prepays) (prepays_of_creates (InvoiceService.creates_findMoneyHoldingPrepayment _))
      hX hj₃ fun holding t₄ s₄ he₄ _ hj₄ => ?_
    cases holding with
    | some h => exact hX _
    | none =>
      refine Prog.Safe.bind_frame (P := Prepays) (.forEach _ fun old _ => prepays_cancelStalePrepayment old)
        hX hj₄ fun _ t₅ s₅ he₅ _ hj₅ => ?_
      refine Prog.Safe.bind_frame (P := Prepays)
        (prepays_of_creates (InvoiceService.creates_computePrepaymentQuote now childId months true))
        hX hj₅ fun quote t₆ s₆ he₆ _ hj₆ => ?_
      cases quote with
      | inl reason => exact hX _
      | inr quote =>
        have he : Tx.Extends Prepays t t₆ :=
          ((((Tx.Extends.refl t).locked _).trans he₂).saw s₃).trans ((he₄.trans he₅).trans he₆)
        exact safe_persistPrepayment_prepares hX hj₆ now childId months quote (prepays_writes ht he) he.seen

end

/-! ## The payment of that invoice -/

/-- The row of a prepayment. -/
structure SeesPrepayment (id : Nat) (v : Store) : Prop where
  unique : Table.Unique v.invoices
  row : ∃ i, v.invoice? id = some i ∧ i.invoiceType.isPrepayment = true

theorem Created.sees (h : Created t i) (hl : t.Lands Store.lets s) (hs : s.WF) : SeesPrepayment i.id (t.view s) := by
  obtain ⟨-, i', hi', hstep⟩ := invoice_of_lands hl h.mem
  refine ⟨(hs.view t).invoiceIds, i', hi', ?_⟩
  rw [hstep.1]
  exact h.prepayment

section

variable {id : Nat}

theorem abides_cancelCoveredMonthlies (prepayment : Invoice) :
    Prog.Abides (SeesPrepayment id) (Spares id) (fun _ => True) (cancelCoveredMonthlies prepayment) := by
  unfold cancelCoveredMonthlies InvoiceRepository.findMonthlyInWindow InvoiceRepository.getPaidSumsForInvoices
  have hlock : Prog.OnlyWrites (Spares id)
      (InvoiceRepository.acquireChildPrepaymentAdvisoryLock prepayment.childId) := trivial
  refine Prog.Abides.bind hlock.abides fun _ _ => ?_
  have hlocks : ∀ months, Prog.OnlyWrites (Spares id)
      (Prog.forEach InvoiceRepository.acquireMonthlyGenerationAdvisoryLock months) :=
    fun months => .forEach months fun _ _ => trivial
  refine Prog.Abides.bind (hlocks _).abides fun _ _ => ?_
  refine Prog.Abides.query fun v hv => ?_
  split
  · trivial
  · refine Prog.Abides.query fun v' _ => (Prog.OnlyWrites.forEach _ fun monthly hm => ?_).abides
    refine onlyWrites_cancelCoveredMonthly ?_ (fun i h => by cases h) fun n _ h => by cases h
    rw [orderBy, List.mem_insertionSort, List.mem_filter] at hm
    obtain ⟨i, hi, hprepay⟩ := hv.row
    intro hsame
    have hid : monthly.id = id := by
      injection hsame
    have hfind := Table.find_of_mem hv.unique hm.1
    rw [show Row.id monthly = id from hid, show Table.find v.invoices id = some i from hi] at hfind
    obtain rfl := Option.some.inj hfind
    have htype := hm.2
    simp only [Bool.and_eq_true, beq_iff_eq] at htype
    rw [htype.1.1.1.2] at hprepay
    cases hprepay

namespace PaymentService

theorem abides_settle (now : Int) (payment : Payment) :
    Prog.Abides (SeesPrepayment id) (Spares id) (fun _ => True) (settle now payment) := by
  unfold settle InvoiceRepository.findById InvoiceRepository.getPaidSumForInvoice
  refine Prog.Abides.query fun v _ => ?_
  refine Prog.Abides.bind (onlyWrites_require (e := .invoiceNotFound payment.invoiceId)).abides fun invoice _ => ?_
  refine Prog.Abides.query fun v' _ => ?_
  have hflip : ∀ paidSum, Prog.OnlyWrites (Spares id) (flipInvoice payment invoice paidSum) := fun _ =>
    onlyWrites_flipInvoice (fun h => by cases h) (fun h => by cases h) fun n _ h => by cases h
  refine Prog.Abides.bind (hflip _).abides fun paidFlip _ => ?_
  refine Prog.Abides.bind (R := fun _ => True) ?_ fun _ _ => ?_
  · unfold cancelIfPrepayment
    split
    · exact abides_cancelCoveredMonthlies invoice
    · trivial
  · refine Prog.Abides.bind (onlyWrites_moveBalance fun i b h => by cases h).abides fun _ _ => ?_
    refine (onlyWrites_announceCompleted.mono fun w hw => ?_).abides
    rcases hw with ⟨n, rfl⟩ | ⟨r, d, rfl⟩
    · exact fun h => by cases h
    · exact fun h => by cases h

variable {paymentId : Nat}

theorem abides_returning {B : Type} {R : B → Prop} {w : Write} {f : Option Payment → Sql B}
    (hw : Spares id w) (h : ∀ o : Option Payment, (∀ q, o = some q → q.id = paymentId) →
      Prog.Abides (SeesPrepayment id) (Spares id) R (f o)) : Prog.Abides (SeesPrepayment id) (Spares id) R
      (Prog.bind (returning w fun s => s.payment? paymentId) f) := by
  refine ⟨hw, fun b => ?_⟩
  cases b with
  | false => exact h none fun q hq => by cases hq
  | true => exact fun s _ => h (s.payment? paymentId) fun q hq => Table.id_of_find hq

theorem abides_require {B : Type} {R : B → Prop} {f : Payment → Sql B} {e : BillingError}
    (h : ∀ q, q.id = paymentId → Prog.Abides (SeesPrepayment id) (Spares id) R (f q)) (s : Store) :
    Prog.Abides (SeesPrepayment id) (Spares id) R (Prog.bind (require (s.payment? paymentId) e) f) := by
  cases hq : s.payment? paymentId with
  | none => trivial
  | some q => exact h q (Table.id_of_find hq)

theorem abides_reread {e : BillingError} (s : Store) :
    Prog.Abides (SeesPrepayment id) (Spares id) (fun q : Payment => q.id = paymentId) (require (s.payment? paymentId) e) := by
  cases hq : s.payment? paymentId with
  | none => trivial
  | some q => exact (Table.id_of_find hq : q.id = paymentId)

theorem getD_id {o : Option Payment} {q : Payment} (ho : ∀ q, o = some q → q.id = paymentId)
    (hq : q.id = paymentId) : (o.getD q).id = paymentId := by
  cases o with
  | none => exact hq
  | some r => exact ho r rfl

theorem abides_applyCompletedPayment (now : Int) (paymentId : Nat) (verified : VerifyWebhookResult) :
    Prog.Abides (SeesPrepayment id) (Spares id) (fun q => q.id = paymentId)
      (applyCompletedPayment now paymentId verified) := by
  unfold applyCompletedPayment
  intro s₁ _
  refine abides_require (fun current _ => ?_) s₁
  intro s₂ _
  refine abides_require (fun reread hreread => ?_) s₂
  split
  · exact abides_returning (fun h => by cases h) fun o ho => getD_id ho hreread
  · refine abides_returning (fun h => by cases h) fun o ho => ?_
    cases o with
    | none => exact fun s₃ _ => abides_reread s₃
    | some updated => exact (abides_settle now updated).bind fun _ _ => ho updated rfl

theorem abides_afterProviderCall (now : Int) (input : InitiatePaymentInput) (payment : Payment)
    (outcome : ProviderOutcome) : Prog.Abides (SeesPrepayment id) (Spares id) (fun q => q.id = payment.id)
      (afterProviderCall now input payment outcome) := by
  cases outcome with
  | throws => exact abides_returning (fun h => by cases h) fun _ _ => trivial
  | completed txn => exact abides_applyCompletedPayment now payment.id ⟨txn, .completed, none⟩
  | failed => exact abides_returning (fun h => by cases h) fun o ho => getD_id ho rfl
  | initiated txn =>
    refine abides_returning (fun h => by cases h) fun _ _ s _ => ?_
    have hrow : ((s.payment? payment.id).getD payment).id = payment.id :=
      getD_id (fun q hq => Table.id_of_find hq) rfl
    show Prog.Abides _ _ _ (if _ then _ else _)
    split
    · exact abides_returning (fun h => by cases h) fun o ho => getD_id (fun q hq => (ho q hq).trans hrow) hrow
    · exact hrow

end PaymentService

end

/-! ## What a request has done -/

/-- The key has this payment, on this invoice. -/
def Store.Keyed (s : Store) (key : IdempotencyKey) (paymentId invoiceId : Nat) : Prop :=
  ∃ q, s.paymentByKey key = some q ∧ q.id = paymentId ∧ q.invoiceId = invoiceId

/-- What is known of every committed store. -/
def Store.Sound (s : Store) : Prop := s.WF ∧ s.Linked

theorem Payment.Step.keyed (hs : s.Linked) {q q' : Payment} (hq' : q' ∈ s.payments)
    (h : Payment.Step q q') : s.Keyed q.idempotencyKey q.id q.invoiceId :=
  ⟨q', h.idempotencyKey ▸ hs.byKey hq', h.id, h.invoiceId⟩

theorem keep_keyed {held : List Key} {s' : Store} (hm : Moves held s s') (hs : s.WF) (hs' : s'.Linked)
    {paymentId invoiceId : Nat} (h : s.Keyed key paymentId invoiceId) : s'.Keyed key paymentId invoiceId := by
  obtain ⟨q, hq, rfl, rfl⟩ := h
  obtain ⟨hmem, rfl⟩ := mem_of_byKey hq
  obtain ⟨q', hq', hstep, -⟩ := hm.payments.row _ _ (Table.find_of_mem hs.paymentIds hmem)
  exact hstep.keyed hs' (Table.mem_of_find hq')

inductive PrepaymentStep (key : IdempotencyKey) (t : Tx Store Key Write) (s : Store)
    (r : InitiatePrepaymentResponse) : Prop
  /-- The payment of the key, and its invoice. -/
  | again (found : foundFirst key t = true) (unwritten : t.writes = []) (keyed : s.Keyed key r.paymentId r.invoiceId)
  /-- A new invoice with a new payment. -/
  | opened (i : Invoice) (p : Payment) (lands : t.Lands Store.lets s) (created : Created t i)
      (payment : .insertPayment p ∈ t.writes) (key : p.idempotencyKey = key) (invoice : p.invoiceId = i.id)
      (paymentId : r.paymentId = p.id) (invoiceId : r.invoiceId = i.id)
  /-- A new invoice with the payment of another. -/
  | mismatched (unfound : foundFirst key t = false) (invoiceId : Nat) (keyed : s.Keyed key r.paymentId invoiceId)
      (other : invoiceId ≠ r.invoiceId)

section

variable {X : BillingError → Prop} {t : Tx Store Key Write} {s : Store}

/-- What the key reads beside a new invoice is the payment of another one. -/
theorem keyed_beside {q : Payment} (hs : s.Sound) (hl : t.Lands Store.lets s)
    (hcreated : Created t i) (hpay : ∀ p, .insertPayment p ∉ t.writes) (hq : (t.view s).paymentByKey key = some q) :
    s.Keyed key q.id q.invoiceId ∧ q.invoiceId ≠ i.id := by
  obtain ⟨hmem, rfl⟩ := mem_of_byKey hq
  rcases payment_origin hmem with ⟨p, hp, -⟩ | ⟨p, hp, hstep⟩
  · exact absurd hp (hpay p)
  · constructor
    · rw [hstep.idempotencyKey, hstep.id, hstep.invoiceId]
      exact (Payment.Step.refl p).keyed hs.2 hp
    · intro hsame
      have hthere := hs.2.invoices p hp
      rw [← hstep.invoiceId, hsame] at hthere
      unfold Store.hasInvoice at hthere
      rw [show Table.find s.invoices i.id = none from (invoice_of_lands hl hcreated.mem).1] at hthere
      cases hthere

theorem foundFirst_later {t' : Tx Store Key Write} (h : t.seen <+: t'.seen)
    (hlength : 1 < t.seen.length) : foundFirst key t' = foundFirst key t := by
  obtain ⟨rest, hrest⟩ := h
  unfold foundFirst
  rw [← hrest, List.getElem?_append_left hlength]

theorem safe_payCreated (hX : ∀ e, X e) {p : Payment} (hl : t.Lands Store.lets s)
    (hcreated : Created t i) (hp : .insertPayment p ∈ t.writes) (hinvoice : p.invoiceId = i.id) (now : Int)
    (input : PaymentService.InitiatePaymentInput) (outcome : PaymentService.ProviderOutcome) :
    Prog.Safe locks Store.Sound X (fun t s q => PrepaymentStep p.idempotencyKey t s (response i q))
      (PaymentService.afterProviderCall now input p outcome) t s := by
  have hsees : ∀ t' s', Tx.Extends (Spares i.id) t t' → t'.Lands Store.lets s' → s'.Sound →
      SeesPrepayment i.id (t'.view s') := fun t' s' he hl' hj => (hcreated.extends he).sees hl' hj.1
  refine (Prog.Safe.of_abides keeps_locks hX hsees
    (PaymentService.abides_afterProviderCall now input p outcome) hl).mono fun t' s' q _ h => ?_
  obtain ⟨he, hl', hid⟩ := h
  refine .opened i p hl' (hcreated.extends he) ?_ rfl hinvoice hid rfl
  obtain ⟨ws, hws, -⟩ := he.writes
  rw [hws]
  exact List.mem_append_left _ hp

theorem safe_initiateCreated (hX : ∀ e, X e) {input : PaymentService.InitiatePaymentInput}
    (hl : t.Lands Store.lets s) (hcreated : Created t i) (hpay : ∀ w ∈ t.writes, w.table ≠ .payments)
    (hlength : 1 < t.seen.length) (hunfound : foundFirst input.idempotencyKey t = false) (hid : input.invoiceId = i.id)
    (now : Int) (outcome : PaymentService.ProviderOutcome) :
    Prog.Safe locks Store.Sound X (fun t s q => PrepaymentStep input.idempotencyKey t s (response i q))
      (PaymentService.initiate now input outcome) t s := by
  have nobody : ∀ {t' : Tx Store Key Write} (ws : List Write), t'.writes = t.writes ++ ws → (∀ w ∈ ws, Recall w) →
      ∀ p, .insertPayment p ∉ t'.writes := by
    intro t' ws hws hrecall p hp
    rw [hws] at hp
    rcases List.mem_append.1 hp with hp | hp
    · exact hpay _ hp rfl
    · obtain ⟨j, hj⟩ := hrecall _ hp
      cases hj
  unfold PaymentService.initiate PaymentRepository.findByIdempotencyKey InvoiceRepository.findById
    InvoiceRepository.getPaidSumForInvoice
  refine Prog.Safe.query fun s₁ hr₁ hj₁ => ?_
  have hl₁ := hl.later keeps_locks hr₁
  cases hexisting : (t.view s₁).paymentByKey input.idempotencyKey with
  | some q =>
    intro s₂ hr₂ hj₂
    obtain ⟨hkeyed, hother⟩ := keyed_beside hj₁ hl₁ hcreated
      (nobody [] (List.append_nil _).symm fun w hw => absurd hw List.not_mem_nil) hexisting
    refine .mismatched ?_ q.invoiceId (keep_keyed hr₂ hj₁.1 hj₂.2 hkeyed) hother
    rw [foundFirst_later (List.prefix_append _ _) hlength]
    exact hunfound
  | none =>
    refine safe_guardOr hX fun _ => safe_guardOr hX fun _ => Prog.Safe.query fun s₂ hr₂ hj₂ => ?_
    refine safe_require hX fun invoice hinvoice => Prog.Safe.query fun s₃ hr₃ hj₃ => ?_
    have hinvoiceId : invoice.id = i.id := (Table.id_of_find hinvoice).trans hid
    refine safe_checkInitiate hX (Table.id_of_find hinvoice) fun _ => ?_
    have hl₃ := ((hl₁.saw s₁).later keeps_locks hr₂ |>.saw s₂).later keeps_locks hr₃ |>.saw s₃
    have hsame : ∀ t' : Tx Store Key Write, t.seen <+: t'.seen → foundFirst input.idempotencyKey t' = false :=
      fun t' h => (foundFirst_later h hlength).trans hunfound
    unfold PaymentService.openPayment
    refine Prog.Safe.bind hj₃ ((Prog.Safe.of_abides (I := fun _ => True) keeps_locks hX (fun _ _ _ _ _ => trivial)
      onlyWrites_recallBefore.abides hl₃).mono fun t₄ s₄ _ hj₄ h => ?_)
    obtain ⟨he₄, hl₄, -⟩ := h
    have hseen₄ : t.seen <+: t₄.seen :=
      ((List.prefix_append _ _).trans ((List.prefix_append _ _).trans (List.prefix_append _ _))).trans he₄.seen
    have hspares₄ : Tx.Extends (Spares i.id) t t₄ := by
      refine ⟨he₄.writes.imp fun ws hws => ⟨hws.1, fun w hw => ?_⟩, he₄.held, hseen₄⟩
      obtain ⟨j, rfl⟩ := hws.2 w hw
      exact fun h => by cases h
    have hcreated₄ := hcreated.extends hspares₄
    refine Prog.Safe.uuid fun s₅ id hr₅ hj₅ _ _ => ?_
    generalize hp : PaymentService.newPayment id now input invoice = p
    have hkey : p.idempotencyKey = input.idempotencyKey := by
      rw [← hp]
      rfl
    let t₅ := t₄.locked (Relational.rowKey Store id)
    have hl₅ : t₅.Lands Store.lets s₅ := (hl₄.later keeps_locks hr₅).locked _
    have hcreated₅ : Created t₅ i := ⟨hcreated₄.writes, hcreated₄.prepayment⟩
    intro s₆ hr₆ hj₆
    have hl₆ := hl₅.later keeps_locks hr₆
    refine ⟨fun hhit => ?_, fun _ s₇ hr₇ hj₇ => ?_⟩
    · rw [← hkey]
      refine safe_payCreated hX (hl₆.wrote (lets_of_hit hhit)) (hcreated₅.extends ?_)
        (List.mem_append_right _ (List.mem_singleton.2 rfl)) ?_ now input outcome
      · exact (Tx.Extends.refl t₅).wrote fun h => by cases h
      · rw [← hp]
        exact hinvoiceId
    · show Prog.Safe locks Store.Sound X _ (Prog.bind (Prog.bind
        (require ((t₅.view s₇).paymentByKey p.idempotencyKey) _) _) _) _ _
      have hl₇ := hl₆.later keeps_locks hr₇
      cases hwinner : (t₅.view s₇).paymentByKey p.idempotencyKey with
      | none => exact hX _
      | some q =>
        intro s₈ hr₈ hj₈
        obtain ⟨ws, hws, hrecall⟩ := he₄.writes
        obtain ⟨hkeyed, hother⟩ := keyed_beside hj₇ hl₇ hcreated₅ (nobody ws hws hrecall) hwinner
        rw [hkey] at hkeyed
        exact .mismatched (hsame _ (hseen₄.trans (List.prefix_append _ _))) q.invoiceId
          (keep_keyed hr₈ hj₇.1 hj₈.2 hkeyed) hother

theorem safe_throwIf {B : Type} {D : Discipline Store Key Write} {J : Store → Prop}
    {Q : Tx Store Key Write → Store → B → Prop} {text : Option String} {f : Unit → Sql B} (hX : ∀ e, X e)
    (h : Prog.Safe D J X Q (f ()) t s) : Prog.Safe D J X Q (Prog.bind (throwIf text) f) t s := by
  cases text with
  | none => exact h
  | some message => exact hX _

theorem safe_initiatePrepayment (hX : ∀ e, X e) (op : PrepaymentOp) (s : Store) :
    Prog.Safe locks Store.Sound X (fun t s r => PrepaymentStep op.input.idempotencyKey t s r) op.prog .start s := by
  unfold PrepaymentOp.prog initiatePrepayment getInvoice InvoiceRepository.findById
    PaymentRepository.findByIdempotencyKey
  simp only [Prog.bind_eq, Prog.bind_assoc]
  refine Prog.Safe.query fun s₁ _ hj₁ => ?_
  refine safe_require hX fun original _ => ?_
  refine safe_throwIf hX ?_
  refine safe_guardOr hX fun _ => ?_
  refine safe_throwIf hX ?_
  refine Prog.Safe.query fun s₂ hr₂ hj₂ => ?_
  let t₂ : Tx Store Key Write := ((Tx.start : Tx Store Key Write).saw s₁).saw s₂
  have hfound : foundFirst op.input.idempotencyKey t₂ = (s₂.paymentByKey op.input.idempotencyKey).isSome := rfl
  have hlength : 1 < t₂.seen.length := Nat.lt_succ_self 1
  show Prog.Safe locks Store.Sound X _ (Prog.bind (prepaymentInvoice op.now op.input original.childId
    (s₂.paymentByKey op.input.idempotencyKey)) _) t₂ s₂
  cases hexisting : s₂.paymentByKey op.input.idempotencyKey with
  | some p =>
    rw [hexisting] at hfound
    have hkeyed : s₂.Keyed op.input.idempotencyKey p.id p.invoiceId := ⟨p, hexisting, rfl, rfl⟩
    refine Prog.Safe.keep (fun s => s.Keyed op.input.idempotencyKey p.id p.invoiceId) [] (List.nil_subset _)
      (fun s s' hr hj hj' h => keep_keyed hr hj.1 hj'.2 h) hj₂ hkeyed ?_
    unfold prepaymentInvoice getInvoice InvoiceRepository.findById
    simp only [Prog.bind_eq, Prog.bind_assoc]
    refine Prog.Safe.query fun s₃ _ hj₃ => safe_require hX fun i hi => ?_
    unfold PaymentService.initiate PaymentRepository.findByIdempotencyKey
    simp only [Prog.bind_eq, Prog.bind_assoc]
    refine Prog.Safe.query fun s₄ _ hj₄ => ?_
    obtain ⟨q, hq, hqid, hqinvoice⟩ := hj₄.2
    have hread : ((t₂.saw s₃).view s₄).paymentByKey (initiateInput op.input i).idempotencyKey = some q := hq
    rw [hread]
    intro s₅ _ hj₅
    refine .again ((foundFirst_later ?_ hlength).trans hfound) rfl ?_
    · exact (List.prefix_append _ _).trans (List.prefix_append _ _)
    · have hid : i.id = p.invoiceId := Table.id_of_find hi
      show s₅.Keyed _ q.id i.id
      rw [hqid, hid]
      exact hj₅.2
  | none =>
    rw [hexisting] at hfound
    have hunwritten : ∀ w ∈ t₂.writes, w.table ≠ .payments := fun w hw => absurd hw List.not_mem_nil
    refine Prog.Safe.bind hj₂ (((safe_prepayInvoice_prepares hX hunwritten op.now original.childId op.input.months).and
      (Prog.Safe.lands keeps_locks hX _ ⟨trivial, fun w hw => absurd hw List.not_mem_nil⟩)).mono fun t₃ s₃ i hj₃ h => ?_)
    obtain ⟨hprepared, hl⟩ := h
    have hlength₃ : 1 < t₃.seen.length := Nat.lt_of_lt_of_le hlength hprepared.seen.length_le
    have hunfound : foundFirst (initiateInput op.input i).idempotencyKey t₃ = false :=
      (foundFirst_later hprepared.seen hlength).trans hfound
    exact (safe_initiateCreated hX hl hprepared.created hprepared.payments hlength₃ hunfound rfl op.now op.outcome).map
      fun _ _ _ _ h => h

end

/-! ## Every statement takes its locks -/

theorem prepays_prepayInvoice (now : Int) (childId : Nat) (months : PrepaymentMonths) :
    Prog.OnlyWrites Prepays (InvoiceService.prepayInvoice now childId months) := by
  unfold InvoiceService.prepayInvoice
  refine Prog.OnlyWrites.bind (p := InvoiceRepository.acquireChildPrepaymentAdvisoryLock childId) trivial fun _ => ?_
  refine (prepays_of_creates (InvoiceService.creates_computeOutstandingDebt childId)).bind fun outstanding => ?_
  cases outstanding with
  | some amount => trivial
  | none =>
    intro s
    refine (prepays_of_creates (InvoiceService.creates_findMoneyHoldingPrepayment _)).bind fun holding => ?_
    cases holding with
    | some h => trivial
    | none =>
      refine (Prog.OnlyWrites.forEach _ fun old _ => prepays_cancelStalePrepayment old).bind fun _ => ?_
      refine (prepays_of_creates (InvoiceService.creates_computePrepaymentQuote now childId months true)).bind fun quote => ?_
      cases quote with
      | inl reason => trivial
      | inr quote =>
        refine prepays_of_creates ((creates_ensureForChild childId).bind fun account id => ?_)
        refine (InvoiceService.creates_prepaymentLineItems now id _ 0 quote.shares).bind fun lineItems => ?_
        refine (creates_create trivial lineItems).bind fun persisted => ?_
        exact (InvoiceService.creates_persistCustomDiscountApplications now persisted _ quote.discount).bind fun _ =>
          (InvoiceService.creates_emitInvoiceCreated persisted).bind fun _ => trivial

theorem covered_throwIf (text : Option String) : IsCovered (throwIf text) := by
  cases text with
  | none => exact .ret ()
  | some message => exact .throw _

theorem covered_getInvoice (id : Nat) : IsCovered (getInvoice id) := .bind (.query _) fun _ => .require

theorem covered_initiatePrepayment (op : PrepaymentOp) : IsCovered op.prog := by
  refine .bind (covered_getInvoice _) fun original => .bind (covered_throwIf _) fun _ => .bind .guardOr fun _ => ?_
  refine .bind (covered_throwIf _) fun _ => .bind (.query _) fun existing => .bind ?_ fun invoice => ?_
  · cases existing with
    | some p => exact covered_getInvoice p.invoiceId
    | none => exact .of_plain ((prepays_prepayInvoice _ _ _).mono fun w hw => hw.plain)
  · exact .bind (PaymentService.covered_initiate _ _ _) fun _ => .ret _

theorem Store.Sound.view (h : s.Sound) (t : Tx Store Key Write) : (t.view s).Sound :=
  ⟨h.1.view t, h.2.view t⟩

theorem chain_prepayments {Allowed : PrepaymentOp → Prop} {n : Nat} {cs : PrepaymentSchedule n}
    {σ : PrepaymentSystem n} (hs : s.Sound) (hcs : System.Starts Allowed cs) (hrun : runPrepayments s cs = some σ) :
    Chain (fun s c => s.Sound ∧ Allowed c.op ∧ PrepaymentStep c.op.input.idempotencyKey c.tx s c.result) s σ.log
      σ.db := by
  let Q : PrepaymentOp → Tx Store Key Write → Store → InitiatePrepaymentResponse → Prop := fun op t s r =>
    (Allowed op ∧ PrepaymentStep op.input.idempotencyKey t s r) ∧ ∀ w ∈ t.writes, Covered t.held w
  have hP : ∀ (op : PrepaymentOp) (s : Store), Allowed op → s.Sound →
      op.prog.Safe locks Store.Sound (fun _ => True) (Q op) .start s := fun op s hop _ =>
    ((safe_initiatePrepayment (fun _ => trivial) op s).mono fun _ _ _ _ h => ⟨hop, h⟩).and
      (Prog.Safe.of_eachWrite covered_mono (covered_initiatePrepayment op _) (fun _ => trivial)
        fun w hw => absurd hw List.not_mem_nil)
  have h := System.exec_chain hs hP (fun op t s a hs _ => hs.view t) (fun op t s a _ h => guarantee_locks h.2 s) hcs hrun
  exact h.mono fun s c hc => ⟨hc.1, hc.2.1⟩

/-! ## Runs -/

section

variable {key : IdempotencyKey} {t : Tx Store Key Write} {s : Store} {r : InitiatePrepaymentResponse}

theorem paysFor_iff : PaysFor s r ↔ ∃ p, s.payment? r.paymentId = some p ∧ p.invoiceId = r.invoiceId := by
  unfold PaysFor
  rw [Option.any_eq_true]
  simp only [beq_iff_eq]

theorem Store.Keyed.row {paymentId invoiceId : Nat} (hs : s.WF) (h : s.Keyed key paymentId invoiceId) :
    ∃ p, s.payment? paymentId = some p ∧ p.invoiceId = invoiceId := by
  obtain ⟨q, hq, rfl, rfl⟩ := h
  exact ⟨q, Table.find_of_mem hs.paymentIds (mem_of_byKey hq).1, rfl⟩

theorem Store.Keyed.unique {a b a' b' : Nat} (h : s.Keyed key a b) (h' : s.Keyed key a' b') : a' = a ∧ b' = b := by
  obtain ⟨q, hq, rfl, rfl⟩ := h
  obtain ⟨q', hq', rfl, rfl⟩ := h'
  obtain rfl := Option.some.inj (hq.symm.trans hq')
  exact ⟨rfl, rfl⟩

theorem Store.Keyed.not_free {a b : Nat} (h : s.Keyed key a b) : s.paymentByKey key ≠ none := by
  obtain ⟨q, hq, -⟩ := h
  rw [hq]
  exact Option.some_ne_none q

/-- A response is about one invoice exactly when the key was looked up once. -/
theorem PrepaymentStep.paysFor_iff (hs : s.Sound) (h : PrepaymentStep key t s r) :
    PaysFor (t.view s) r ↔ foundFirst key t = true ∨ s.paymentByKey key = none := by
  cases h with
  | again found unwritten keyed =>
    refine iff_of_true ?_ (.inl found)
    rw [Tx.view_of_unwritten unwritten]
    exact Billing.paysFor_iff.2 (keyed.row hs.1)
  | opened i p lands created payment hkey invoice paymentId invoiceId =>
    obtain ⟨hfree, p', hp', hstep⟩ := payment_of_lands hs.1 lands payment
    rw [hkey] at hfree
    refine iff_of_true (Billing.paysFor_iff.2 ⟨p', by rw [paymentId]; exact hp', ?_⟩) (.inr hfree)
    rw [hstep.invoiceId, invoice, invoiceId]
  | mismatched unfound invoiceId keyed other =>
    refine iff_of_false (fun hpays => ?_) ?_
    · obtain ⟨p, hp, hinvoice⟩ := Billing.paysFor_iff.1 hpays
      obtain ⟨q, hq, hq'⟩ := (keep_keyed (moves_view t s) hs.1 (hs.2.view t) keyed).row (hs.1.view t)
      obtain rfl := Option.some.inj (hp.symm.trans hq)
      exact other (hq'.symm.trans hinvoice)
    · rintro (found | hfree)
      · rw [unfound] at found
        cases found
      · exact keyed.not_free hfree

/-- The requests so far were answered with the payment of the key, and its invoice stands. -/
def Alike (key : IdempotencyKey) (log : List PrepaymentCommit) (s : Store) : Prop :=
  ∀ c ∈ log, s.Keyed key c.result.paymentId c.result.invoiceId ∧
    ∀ c' ∈ log, .markInvoice c.result.invoiceId .cancelled ∉ c'.tx.writes

theorem Alike.step {log : List PrepaymentCommit} {c : PrepaymentCommit} (hs : s.Sound) (h : Alike key log s)
    (hc : PrepaymentStep key c.tx s c.result) (hmeets : foundFirst key c.tx = true ∨ s.paymentByKey key = none) :
    Alike key (log ++ [c]) (c.tx.view s) := by
  cases hc with
  | again found unwritten keyed =>
    rw [Tx.view_of_unwritten unwritten]
    have hnone : ∀ w, w ∉ c.tx.writes := by
      rw [unwritten]
      exact fun w => List.not_mem_nil
    intro c₁ hc₁
    rcases List.mem_append.1 hc₁ with hc₁ | hc₁
    · refine ⟨(h c₁ hc₁).1, fun c' hc' => ?_⟩
      rcases List.mem_append.1 hc' with hc' | hc'
      · exact (h c₁ hc₁).2 c' hc'
      · rw [List.mem_singleton.1 hc']
        exact hnone _
    · rw [List.mem_singleton.1 hc₁]
      refine ⟨keyed, fun c' hc' => ?_⟩
      rcases List.mem_append.1 hc' with hc' | hc'
      · rw [← (keyed.unique (h c' hc').1).2]
        exact (h c' hc').2 c' hc'
      · rw [List.mem_singleton.1 hc']
        exact hnone _
  | opened i p lands created payment hkey invoice paymentId invoiceId =>
    obtain ⟨hfree, p', hp', hstep⟩ := payment_of_lands hs.1 lands payment
    rw [hkey] at hfree
    have hfirst : log = [] := by
      cases log with
      | nil => rfl
      | cons c' log => exact absurd hfree (h c' List.mem_cons_self).1.not_free
    have hkeyed : (c.tx.view s).Keyed key c.result.paymentId c.result.invoiceId := by
      rw [paymentId, invoiceId, ← invoice, ← hkey]
      exact hstep.keyed (hs.2.view c.tx) (Table.mem_of_find hp')
    rw [hfirst, List.nil_append]
    intro c₁ hc₁
    rw [List.mem_singleton.1 hc₁]
    refine ⟨hkeyed, fun c' hc' => ?_⟩
    rw [List.mem_singleton.1 hc', invoiceId]
    exact created.spares lands
  | mismatched unfound invoiceId keyed other =>
    rcases hmeets with found | hfree
    · rw [unfound] at found
      cases found
    · exact absurd hfree keyed.not_free

end

/-- **The requests of one key are answered alike** exactly when each has found the payment of the key before it takes
the child's lock, or commits while the key has none. -/
theorem answeredAlike_iff {n : Nat} {s : Store} {cs : PrepaymentSchedule n} {σ : PrepaymentSystem n} (hs : s.WF)
    (hlinked : s.Linked) (key : IdempotencyKey) (hcs : System.Starts (fun op => op.input.idempotencyKey = key) cs)
    (hrun : runPrepayments s cs = some σ) : AnsweredAlike s σ.log ↔ AtEach LooksOnce s σ.log := by
  have hchain := chain_prepayments ⟨hs, hlinked⟩ hcs hrun
  constructor
  · intro h
    refine (hchain.and h.paysFor).atEach.mono fun s c hc => ?_
    obtain ⟨⟨hsound, -, hstep⟩, hpays⟩ := hc
    exact (hstep.paysFor_iff hsound).1 hpays
  · intro hmeets
    have hall := hchain.and hmeets
    have halike : Alike key σ.log σ.db := by
      refine hall.invLog (Alike key) (fun c hc => absurd hc List.not_mem_nil) fun l v c hl hc => ?_
      obtain ⟨⟨hsound, hkey, hstep⟩, hlook⟩ := hc
      unfold LooksOnce at hlook
      rw [hkey] at hstep hlook
      exact hl.step hsound hstep hlook
    refine ⟨hall.atEach.mono fun s c hc => ?_, fun c hc c' hc' => ?_, fun c hc => (halike c hc).2⟩
    · obtain ⟨⟨hsound, -, hstep⟩, hlook⟩ := hc
      exact (hstep.paysFor_iff hsound).2 hlook
    · exact (halike c hc).1.unique (halike c' hc').1

/-! ## Two requests of one key -/

/-- A child with a tariff, and the paid invoice from which its prepayments are asked for. -/
def Store.prepayable : Store :=
  { Store.empty with
    reference :=
      { children := [⟨1, .active, 0, none⟩]
        childGuardians := []
        tariffPlans := [⟨5, .monthly, 100000, true, 0, none, ⟨none, some 5, none, none, none⟩⟩]
        tariffAssignments := [⟨6, 1, 5, none, 0, none⟩]
        holidays := []
        admins := [90] }
    accounts := [⟨10, 1, 0⟩]
    invoices := [⟨20, 1, 10, some 5, .monthly, monthStart 24312, monthStart 24313 - 1, 100000, none, none, 100000,
      .paid, 20600, none, 0⟩] }

/-- Payer 2 asks for three months under key 7. -/
def askPrepayment (txn : Nat) : PrepaymentOp :=
  ⟨1770000000000, ⟨20, .m3, .halykEpay, .client 7, 2, none, true, none, false⟩, .initiated txn⟩

/-- `k` statements of one session, which draws these ids on. -/
def drawing {n : Nat} (i : Fin n) (k id : Nat) : PrepaymentSchedule n := (List.range k).map fun j => .step i (id + j)

/-- The second finds the payment of the first. -/
def prepayInTurn : PrepaymentSchedule 2 :=
  .start 0 (askPrepayment 70) :: (drawing 0 36 30 ++ (.start 1 (askPrepayment 80) :: drawing 1 5 0))

/-- The first has looked its key up before the second comes, and waits for the child's lock behind it. -/
def prepayAtOnce : PrepaymentSchedule 2 :=
  .start 0 (askPrepayment 70) :: (drawing 0 2 0 ++ (.start 1 (askPrepayment 80) :: (drawing 1 36 30 ++ drawing 0 31 100)))

theorem answeredAlike_inTurn : ∃ σ : PrepaymentSystem 2, runPrepayments Store.prepayable prepayInTurn = some σ ∧
    σ.log.length = 2 ∧ AnsweredAlike Store.prepayable σ.log := by
  have hruns : (runPrepayments Store.prepayable prepayInTurn).any (fun σ =>
      decide (σ.log.length = 2 ∧ AtEach LooksOnce Store.prepayable σ.log)) = true := by
    decide +kernel
  obtain ⟨σ, hrun, h⟩ := (Option.any_eq_true _ _).1 hruns
  obtain ⟨hlength, hmeets⟩ := of_decide_eq_true h
  exact ⟨σ, hrun, hlength, (answeredAlike_iff (by decide) (by decide) (.client 7) (by decide) hrun).2 hmeets⟩

/-- The first is answered with a new invoice and the payment of the one that it has cancelled. -/
theorem prepayAtOnce_mismatch : ∃ σ : PrepaymentSystem 2, Store.prepayable.WF ∧ Store.prepayable.Linked ∧
    System.Starts (fun op => op.input.idempotencyKey = .client 7) prepayAtOnce ∧
    runPrepayments Store.prepayable prepayAtOnce = some σ ∧ ¬AnsweredAlike Store.prepayable σ.log := by
  have hruns : (runPrepayments Store.prepayable prepayAtOnce).any (fun σ =>
      decide (¬AtEach (fun s c => PaysFor (c.tx.view s) c.result) Store.prepayable σ.log)) = true := by
    decide +kernel
  obtain ⟨σ, hrun, h⟩ := (Option.any_eq_true _ _).1 hruns
  exact ⟨σ, by decide, by decide, by decide, hrun, fun halike => of_decide_eq_true h halike.paysFor⟩

end Billing
