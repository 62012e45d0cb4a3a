import Shyraq.Billing.Settling

/-!
# What a refund does

A refund is a row of its own until it is processed.  `process` flips the refund and tries
to flip its payment and its invoice; what could not flip is only logged.  The account is
debited in any case.
-/

namespace Billing

open Kernel Transactions

variable {D : Discipline Store Key Write} {J : Store → Prop} {X : BillingError → Prop}
  {t : Tx Store Key Write} {s : Store}

/-! ## The refund row -/

variable {s' : Store} {held : List Key}

theorem keep_refund {id : Nat} {r : Refund}
    (hk : Key.row id ∈ held) (hm : Moves held s s') (h : s.refund? id = some r) : s'.refund? id = some r := by
  obtain ⟨r', hr', -, he⟩ := hm.refunds.row id r h
  rw [he hk] at hr'
  exact hr'

/-- A conditional statement on a refund row, first thing in its transaction. -/
theorem safe_markRefund {A : Type} {Q : Tx Store Key Write → Store → A → Prop} (S : Setting D J X)
    {id : Nat} {patch : RefundPatch} {f : Option Refund → Sql A} (ht : t.writes = [])
    (hit : ∀ s₁ r, J s₁ → s₁.refund? id = some r → patch.accepts r = true →
      Prog.Safe D (fun s => J s ∧ s.refund? id = some r) X Q (f (some (patch.set r)))
        ((t.wrote (.markRefund id patch)).saw s₁) s₁) (miss : ∀ s₁, J s₁ → Prog.Safe D J X Q (f none) t s₁) :
    Prog.Safe D J X Q (Prog.bind (RefundRepository.markConditional id patch) f) t s := by
  have hv : ∀ s, t.view s = s := fun s => view_of_writes_eq (t := Tx.start) ht s
  refine safe_returning ?_ fun s₁ _ hj₁ _ => miss s₁ hj₁
  intro s₁ _ hj₁ hh
  have hany : (s₁.refund? id).any patch.accepts = true := by
    rw [hv] at hh
    exact hh
  obtain ⟨r, hr, ha⟩ := (Option.any_eq_true _ _).1 hany
  let t₁ := t.wrote (.markRefund id patch)
  have hheld : Key.row id ∈ t₁.held := List.mem_append_left _ List.mem_cons_self
  refine Prog.Safe.keep (fun s => s.refund? id = some r) t₁.held (List.Subset.refl _)
    (fun _ _ hm _ _ h => keep_refund hheld (S.moves hm) h) hj₁ hr ?_
  refine Prog.Safe.query fun s₂ _ hj₂ => ?_
  have hrep : Table.Replaced s₂.refunds (Table.updateWhere s₂.refunds id patch.accepts patch.set) id r
      (patch.set r) := .updateWhere (S.wf hj₂.1).refundIds patch.id_set hj₂.2 ha
  have hread : (t₁.view s₂).refund? id = some (patch.set r) := by
    rw [Tx.view_wrote, hv]
    exact hrep.find_self
  rw [hread]
  exact hit s₂ r hj₂.1 hj₂.2 ha

/-- A refund is approved or rejected. -/
structure Decided (id : Nat) (patch : RefundPatch) (r : Refund) (t : Tx Store Key Write) (s : Store) :
    Prop where
  refunds : Table.Replaced s.refunds (t.view s).refunds id r (patch.set r)
  accepts : patch.accepts r = true
  accounts : (t.view s).accounts = s.accounts
  payments : (t.view s).payments = s.payments
  invoices : (t.view s).invoices = s.invoices

theorem safe_decide (S : Setting D J X) (id : Nat) (patch : RefundPatch) (operation : String) :
    Prog.Safe D J X (fun t s _ => ∃ r, Decided id patch r t s) (do
      let updated ← RefundRepository.markConditional id patch
      match updated with
      | some r => pure r
      | none => do
          let existing ← RefundRepository.findById id
          Prog.throw (RefundService.refused id existing operation)) .start s := by
  refine safe_markRefund S rfl ?_ ?_
  · intro s₁ r _ _ ha s' _ hj'
    refine ⟨r, ?_⟩
    exact
      { refunds := .updateWhere (S.wf hj'.1).refundIds patch.id_set hj'.2 ha
        accepts := ha, accounts := rfl, payments := rfl, invoices := rfl }
  · exact fun _ _ _ _ _ => S.throws _

theorem safe_approve (S : Setting D J X) (refundId processedBy : Nat) :
    Prog.Safe D J X (fun t s _ => ∃ r, Decided refundId (.approved processedBy) r t s)
      (RefundService.approve refundId processedBy) .start s := safe_decide S _ _ "approve"

theorem safe_reject (S : Setting D J X) (refundId : Nat) (reason : String) :
    Prog.Safe D J X (fun t s _ => ∃ r, Decided refundId (.rejected reason) r t s)
      (RefundService.reject refundId reason) .start s := safe_decide S _ _ "reject"

/-! ## A new refund -/

/-- The payment row is still there, further along. -/
def PaymentThere (p : Payment) (s : Store) : Prop :=
  ∃ q, s.payment? p.id = some q ∧ Payment.Step p q

theorem keep_paymentThere {p : Payment} (hm : Moves held s s') (h : PaymentThere p s) : PaymentThere p s' := by
  obtain ⟨q, hq, hs⟩ := h
  obtain ⟨q', hq', hs', -⟩ := hm.payments.row _ _ hq
  exact ⟨q', hq', hs.trans hs'⟩

/-- The payment as it was read, in a committed state that others have moved on from. -/
def PaymentRead (D : Discipline Store Key Write) (p : Payment) (s : Store) : Prop :=
  ∃ v, D.rely [] v s ∧ v.payment? p.id = some p

theorem PaymentRead.there (S : Setting D J X) {p : Payment} (h : PaymentRead D p s) : PaymentThere p s := by
  obtain ⟨v, hr, hp⟩ := h
  exact keep_paymentThere (S.moves hr) ⟨p, hp, .refl p⟩

/-- A refund of payment `p` is on file. -/
structure Requested (p : Payment) (r : Refund) (t : Tx Store Key Write) (s : Store) : Prop where
  payment : PaymentThere p s
  completed : p.status = .completed
  paymentId : r.paymentId = p.id
  invoiceId : r.invoiceId = some p.invoiceId
  amount : r.amount ≤ p.amount
  status : r.status = .pending
  refunds : Table.Added s.refunds (t.view s).refunds r
  accounts : (t.view s).accounts = s.accounts
  payments : (t.view s).payments = s.payments
  invoices : (t.view s).invoices = s.invoices

theorem keep_admitsRefund {r : Refund} (hrow : Key.row r.id ∈ held)
    (hm : Moves held s s') (h : s.admitsRefund r = true) : s'.admitsRefund r = true := by
  simp only [Store.admitsRefund, Store.hasPayment, Bool.and_eq_true, Option.isNone_iff_eq_none,
    decide_eq_true_eq] at h ⊢
  obtain ⟨⟨⟨hid, hpay⟩, hinv⟩, hpos⟩ := h
  refine ⟨⟨⟨hm.refunds.new _ hrow hid, ?_⟩, ?_⟩, hpos⟩
  · obtain ⟨p, hp⟩ := Option.isSome_iff_exists.1 hpay
    obtain ⟨p', hp', -⟩ := hm.payments.row _ p hp
    rw [hp']
    rfl
  · cases hi : r.invoiceId with
    | none => rfl
    | some i =>
      rw [hi] at hinv
      obtain ⟨j, hj⟩ := Option.isSome_iff_exists.1 (show (Table.find s.invoices i).isSome = true from hinv)
      obtain ⟨j', hj', -⟩ := hm.invoices.row _ j hj
      show (Table.find s'.invoices i).isSome = true
      rw [hj']
      rfl

theorem added_of_admitsRefund {r : Refund} (h : s.admitsRefund r = true) :
    Table.Added s.refunds (s.apply (.insertRefund r)).refunds r := by
  show Table.Added _ (if s.admitsRefund r then _ else _) r
  rw [if_pos h]
  refine .append ?_
  simp only [Store.admitsRefund, Bool.and_eq_true, Option.isNone_iff_eq_none] at h
  exact h.1.1.1

theorem safe_createRefund (S : Setting D J X) (now : Int) (input : RefundService.CreateRefundInput) :
    Prog.Safe D J X (fun t s _ => ∃ p r, Requested p r t s) (RefundService.create now input) .start s := by
  unfold RefundService.create
  refine Prog.Safe.query fun s₁ _ hj₁ => safe_require S.throws fun p hp => ?_
  have hid : p.id = input.paymentId := Table.id_of_find hp
  have hthere : PaymentThere p s₁ := ⟨p, by rw [hid]; exact hp, .refl p⟩
  refine Prog.Safe.keep (PaymentThere p) [] (by simp)
    (fun _ _ hr _ _ h => keep_paymentThere (S.moves hr) h) hj₁ hthere ?_
  refine safe_guardOr S.throws fun hst => safe_guardOr S.throws fun _ => ?_
  refine safe_guardOr S.throws fun hle => safe_guardOr S.throws fun _ => ?_
  refine Prog.Safe.uuid fun s₂ id _ hj₂ _ _ => ?_
  unfold RefundRepository.create
  refine safe_insertOr S.throws fun s₃ _ hj₃ hh => ?_
  generalize hr : (Refund.mk id p.id (some p.invoiceId) (MoneyKzt.fromKzt input.amount) input.reason
    .pending none none now) = r at hh ⊢
  have hin : s₃.admitsRefund r = true := hh
  have hrow : ∀ t : Tx Store Key Write, Key.row r.id ∈ (t.wrote (.insertRefund r)).held :=
    fun t => List.mem_append_left _ List.mem_cons_self
  refine Prog.Safe.keep (fun s => s.admitsRefund r = true) _ (List.Subset.refl _)
    (fun _ _ hm _ _ h => keep_admitsRefund (hrow _) (S.moves hm) h) hj₃ hin ?_
  intro s' _ hj'
  refine ⟨p, r, ?_⟩
  have hadd := added_of_admitsRefund hj'.2
  subst hr
  exact
    { payment := hj'.1.2, completed := by simpa using hst, paymentId := rfl, invoiceId := rfl
      amount := by simpa using hle
      status := rfl, refunds := hadd, accounts := rfl, payments := rfl, invoices := rfl }

/-! ## The payment of a processed refund -/

/-- The payment row once its flip has been tried: it has flipped and is locked, or it was
refunded already. -/
def Taken (held : List Key) (p : Payment) (taken : Bool) (s : Store) : Prop :=
  ∃ q, s.payment? p.id = some q ∧ Payment.Step p q ∧
    if taken then q.status = .completed ∧ Key.row p.id ∈ held else q.status = .refunded

theorem keep_taken {p : Payment} {taken : Bool}
    (hm : Moves held s s') (h : Taken held p taken s) : Taken held p taken s' := by
  obtain ⟨q, hq, hs, hk⟩ := h
  obtain ⟨q', hq', hs', he⟩ := hm.payments.row _ _ hq
  refine ⟨q', hq', hs.trans hs', ?_⟩
  cases taken with
  | true =>
    have hk' : q.status = .completed ∧ Key.row p.id ∈ held := hk
    rw [he hk'.2]
    exact hk
  | false =>
    have hst : q.status = .refunded := hk
    have hreach := hs'.status
    rw [hst] at hreach
    show q'.status = .refunded
    cases hq' : q'.status <;> rw [hq'] at hreach <;> first | rfl | cases hreach

/-- The statements of the flip. -/
def takenWrites (paymentId refundId : Nat) : Bool → List Write
  | true => [.markPayment paymentId (.refunded refundId)]
  | false => []

theorem safe_takePayment {A : Type} {Q : Tx Store Key Write → Store → A → Prop} (S : Setting D J X)
    {p : Payment} {refundId : Nat} {f : Option Payment → Sql A}
    (hpay : ∀ s, (t.view s).payments = s.payments) (hp : p.status = .completed) (hthere : ∀ s, J s → PaymentThere p s)
    (h : ∀ taken o t₁ s₁, t₁.writes = t.writes ++ takenWrites p.id refundId taken →
      t.held ⊆ t₁.held → t.seen <+: t₁.seen → J s₁ → Taken t₁.held p taken s₁ →
      Prog.Safe D (fun s => J s ∧ Taken t₁.held p taken s) X Q (f o) t₁ s₁) :
    Prog.Safe D J X Q (Prog.bind (PaymentRepository.markRefundedConditional p.id refundId) f) t s := by
  let patch : PaymentPatch := .refunded refundId
  have hv : ∀ s, (t.view s).payment? p.id = s.payment? p.id := by
    intro s
    unfold Store.payment?
    rw [hpay]
  refine safe_returning ?_ ?_
  · intro s₁ _ hj₁ hh
    obtain ⟨q, hq, hs⟩ := hthere s₁ hj₁
    have ha : q.status = .completed := by
      have hany : ((t.view s₁).payment? p.id).any patch.accepts = true := hh
      rw [hv, hq] at hany
      simpa [patch, PaymentPatch.accepts] using hany
    let t₁ := t.wrote (.markPayment p.id patch)
    have hheld : Key.row p.id ∈ t₁.held := List.mem_append_left _ List.mem_cons_self
    have htaken : Taken t₁.held p true s₁ := ⟨q, hq, hs, ha, hheld⟩
    refine Prog.Safe.keep (Taken t₁.held p true) t₁.held (List.Subset.refl _)
      (fun _ _ hm _ _ h => keep_taken (S.moves hm) h) hj₁ htaken ?_
    refine Prog.Safe.query fun s₂ _ hj₂ => ?_
    refine h true _ (t₁.saw s₂) s₂ rfl ?_ (List.prefix_append _ _) hj₂.1 hj₂.2
    exact fun k hk => List.mem_append_right _ hk
  · intro s₁ _ hj₁ hm
    obtain ⟨q, hq, hs⟩ := hthere s₁ hj₁
    have hst : q.status = .refunded := by
      have hany : ((t.view s₁).payment? p.id).any patch.accepts = false := hm
      rw [hv, hq] at hany
      have hne : q.status ≠ .completed := by simpa [patch, PaymentPatch.accepts] using hany
      have hreach := hs.status
      rw [hp] at hreach
      cases hq' : q.status <;> rw [hq'] at hreach hne <;> first
        | rfl
        | exact absurd rfl hne
        | cases hreach
    have htaken : Taken t.held p false s₁ := ⟨q, hq, hs, hst⟩
    refine Prog.Safe.keep (Taken t.held p false) t.held (List.Subset.refl _)
      (fun _ _ hm _ _ h => keep_taken (S.moves hm) h) hj₁ htaken ?_
    exact h false none t s₁ (by simp [takenWrites]) (List.Subset.refl _) List.prefix_rfl hj₁ htaken

/-! ## The invoice of a processed refund -/

/-- The flip that `unwindInvoice` tries. -/
def unwindFlip (invoice : Invoice) (effectiveNet : Int) : Option InvoiceFlip :=
  if effectiveNet ≤ 0 then some .refunded
  else if effectiveNet < invoice.amountAfterDiscount then some .partial_
  else none

/-- The row that flipped is locked. -/
def Unwound (held : List Key) (invoice : Invoice) (flip : Option InvoiceFlip) (s : Store) : Prop :=
  ∀ f, flip = some f → ∃ i, s.invoice? invoice.id = some i ∧ f.accepts i = true ∧
    Key.row invoice.id ∈ held

theorem keep_unwound {invoice : Invoice} {flip : Option InvoiceFlip}
    (hm : Moves held s s') (h : Unwound held invoice flip s) : Unwound held invoice flip s' := by
  intro f hf
  obtain ⟨i, hi, ha, hk⟩ := h f hf
  obtain ⟨i', hi', -, he⟩ := hm.invoices.row _ _ hi
  rw [he hk] at hi'
  exact ⟨i, hi', ha, hk⟩

/-- The flip that was tried has happened, or the row did not match it at `v`. -/
def UnwindOf (invoice : Invoice) (effectiveNet : Int) (flip : Option InvoiceFlip) (v : Store) : Prop :=
  flip = unwindFlip invoice effectiveNet ∨
    flip = none ∧ ∀ f, unwindFlip invoice effectiveNet = some f →
      (v.invoice? invoice.id).any f.accepts = false

theorem safe_unwindInvoice {A : Type} {Q : Tx Store Key Write → Store → A → Prop} (S : Setting D J X)
    {invoice : Invoice} {effectiveNet : Int} {f : Unit → Sql A}
    (hinv : ∀ s, (t.view s).invoices = s.invoices) (hrow : ∀ s, J s → StillThere invoice s) (hj : J s)
    (h : ∀ flip t₁ s₁, t₁.writes = t.writes ++ flipWrites invoice.id flip → t.held ⊆ t₁.held →
      t.seen <+: t₁.seen → J s₁ → Unwound t₁.held invoice flip s₁ → UnwindOf invoice effectiveNet flip s₁ →
      Prog.Safe D (fun s => J s ∧ Unwound t₁.held invoice flip s) X Q (f ()) t₁ s₁) :
    Prog.Safe D J X Q (Prog.bind (RefundService.unwindInvoice invoice effectiveNet) f) t s := by
  have left : ∀ s₁, J s₁ → UnwindOf invoice effectiveNet none s₁ → Prog.Safe D J X Q (f ()) t s₁ := by
    intro s₁ hj₁ hof
    have hnone : Unwound t.held invoice none s₁ := by
      intro g hg
      cases hg
    refine Prog.Safe.keep (Unwound t.held invoice none) t.held (List.Subset.refl _)
      (fun _ _ hm _ _ h => keep_unwound (S.moves hm) h) hj₁ hnone ?_
    exact h none t s₁ (by simp [flipWrites]) (List.Subset.refl _) List.prefix_rfl hj₁ hnone hof
  have mark : ∀ g, unwindFlip invoice effectiveNet = some g → Prog.Safe D J X Q
      (Prog.bind (InvoiceRepository.markConditional invoice.id g) fun _ => f ()) t s := by
    intro g hg
    refine safe_flip 0 S hinv hrow ?_ ?_
    · intro s₁ i hj₁ hf₁ _ _
      let t₁ := (t.wrote (.markInvoice invoice.id g)).saw s₁
      have hun : ∀ s, Flipped t₁.held invoice 0 (some g) s → Unwound t₁.held invoice (some g) s := by
        intro s hf g' hg'
        cases hg'
        obtain ⟨j, hj, -, ha, hk⟩ := hf
        exact ⟨j, hj, ha, hk⟩
      refine (h (some g) t₁ s₁ rfl ?_ (List.prefix_append _ _) hj₁ (hun s₁ hf₁) (.inl hg.symm)).weaken
        (fun _ _ _ hr => hr) (fun s h => ⟨h.1, hun s h.2⟩) fun _ _ _ _ hq => hq
      exact fun k hk => List.mem_append_right _ hk
    · intro s₁ i _ hj₁ hi _ ha
      refine left s₁ hj₁ (.inr ⟨rfl, ?_⟩)
      intro g' hg'
      rw [hg] at hg'
      cases hg'
      rw [hi]
      exact ha
  unfold RefundService.unwindInvoice
  unfold unwindFlip at mark left
  split
  · next h₀ => exact mark .refunded (if_pos h₀)
  · next h₀ =>
    split
    · next h₁ =>
      refine mark .partial_ ?_
      rw [if_neg h₀, if_pos h₁]
    · next h₁ =>
      refine left s hj (.inl ?_)
      unfold unwindFlip
      rw [if_neg h₀, if_neg h₁]

/-! ## The whole of `process` -/

/-- The payment that the refund tried to take. -/
def TakenFrom (l l' : List Payment) (paymentId refundId : Nat) : Bool → Prop
  | true => ∃ q, q.status = .completed ∧
      Table.Replaced l l' paymentId q ((PaymentPatch.refunded refundId).set q)
  | false => l' = l

/-- Refund `r` of payment `p` has been processed.  `effectiveNet` is what it read, with its
own flips of the refund and the payment in view. -/
structure Refunded (D : Discipline Store Key Write) (r : Refund) (providerRef : Option Nat)
    (p : Payment) (taken : Bool) (invoice : Invoice) (effectiveNet : Int) (flip : Option InvoiceFlip)
    (t : Tx Store Key Write) (s : Store) : Prop where
  refunds : Table.Replaced s.refunds (t.view s).refunds r.id r
    ((RefundPatch.processed providerRef).set r)
  approved : r.status = .approved
  paymentId : r.paymentId = p.id
  completed : p.status = .completed
  read : PaymentRead D p s
  payment : Taken t.held p taken s
  payments : TakenFrom s.payments (t.view s).payments p.id r.id taken
  invoiceId : invoice.id = p.invoiceId
  stillThere : StillThere invoice s
  sums : ∃ v₁ v₂, D.rely [] v₁ s ∧ D.rely [] v₂ s ∧ effectiveNet =
    (t.view v₁).paidSum invoice.id - (t.view v₂).processedRefundsSum invoice.id
  unwound : ∃ v, D.rely [] v s ∧ UnwindOf invoice effectiveNet flip v
  positive : 0 < r.amount
  accounts : BalanceMoved s.accounts (t.view s).accounts invoice.paymentAccountId (-r.amount)
  invoices : Flips s.invoices (t.view s).invoices invoice.id flip

/-- The refund row is still there, further along. -/
def RefundThere (refund : Refund) (s : Store) : Prop :=
  ∃ r, s.refund? refund.id = some r ∧ Refund.Step refund r

theorem keep_refundThere {refund : Refund} (hm : Moves held s s')
    (h : RefundThere refund s) : RefundThere refund s' := by
  obtain ⟨r, hr, hs⟩ := h
  obtain ⟨r', hr', hs', -⟩ := hm.refunds.row _ _ hr
  exact ⟨r', hr', hs.trans hs'⟩

theorem paidSum_congr (h : s'.payments = s.payments) (id : Nat) : s'.paidSum id = s.paidSum id := by
  unfold Store.paidSum
  rw [h]

theorem processedRefundsSum_congr (h : s'.refunds = s.refunds) (id : Nat) :
    s'.processedRefundsSum id = s.processedRefundsSum id := by
  unfold Store.processedRefundsSum
  rw [h]

theorem Refunded.of_parts {r : Refund} {providerRef : Option Nat} {p : Payment} {taken : Bool}
    {invoice : Invoice} {effectiveNet : Int} {flip : Option InvoiceFlip}
    {t₁ t₂ t₃ t₄ t' : Tx Store Key Write} {v₁ v₂ v₃ : Store} {a : PaymentAccount} (hs : s.WF)
    (hr : s.refund? r.id = some r) (ha : r.status = .approved) (hpid : r.paymentId = p.id)
    (hst : p.status = .completed) (hread : PaymentRead D p s)
    (hw₁ : t₁.writes = [.markRefund r.id (.processed providerRef)])
    (hw₂ : t₂.writes = t₁.writes ++ takenWrites p.id r.id taken)
    (htaken : Taken t₂.held p taken s) (hid : invoice.id = p.invoiceId) (hthere : StillThere invoice s)
    (hv₁ : D.rely [] v₁ s) (hv₂ : D.rely [] v₂ s)
    (hsums : effectiveNet = (t₂.view v₁).paidSum invoice.id - (t₂.view v₂).processedRefundsSum invoice.id)
    (hw₃ : t₃.writes = t₂.writes ++ flipWrites invoice.id flip) (hh₃ : t₂.held ⊆ t₃.held)
    (hun : Unwound t₃.held invoice flip s) (hv₃ : D.rely [] v₃ s)
    (hof : UnwindOf invoice effectiveNet flip v₃) (hpos : 0 < r.amount)
    (hdebit : LedgerEntry t₃ t₄ s invoice.paymentAccountId (-r.amount) a) (htail : Tx.Extends Notice t₄ t') :
    Refunded D r providerRef p taken invoice effectiveNet flip t' s := by
  -- nothing after the flips touches the payments or the refunds
  have payments' : ∀ v, (t'.view v).payments = (t₂.view v).payments := by
    intro v
    rw [payments_of_extends htail fun w h => h.table_ne (by decide), view_of_writes hdebit.writes]
    show (t₃.view v).payments = _
    rw [view_of_writes hw₃]
    cases flip <;> rfl
  have refunds' : ∀ v, (t'.view v).refunds = (t₁.view v).refunds := by
    intro v
    rw [refunds_of_extends htail fun w h => h.table_ne (by decide), view_of_writes hdebit.writes]
    show (t₃.view v).refunds = _
    rw [view_of_writes hw₃, view_of_writes hw₂]
    cases flip <;> cases taken <;> rfl
  have refunds₂ : ∀ v, (t₂.view v).refunds = (t₁.view v).refunds := by
    intro v
    rw [view_of_writes hw₂]
    cases taken <;> rfl
  have view₁ : ∀ v, t₁.view v = v.apply (.markRefund r.id (.processed providerRef)) := by
    intro v
    unfold Tx.view
    rw [hw₁]
    rfl
  refine
    { approved := ha, paymentId := hpid, completed := hst, read := hread, invoiceId := hid, stillThere := hthere, positive := hpos
      unwound := ⟨v₃, hv₃, hof⟩, refunds := ?_, payment := ?_, payments := ?_, sums := ?_
      accounts := ?_, invoices := ?_ }
  · rw [refunds', view₁]
    exact .updateWhere hs.refundIds (RefundPatch.id_set _) hr (by simp [RefundPatch.accepts, ha])
  · obtain ⟨q, hq, hstep, hk⟩ := htaken
    refine ⟨q, hq, hstep, ?_⟩
    cases taken with
    | true => exact ⟨hk.1, htail.held (hdebit.held (hh₃ hk.2))⟩
    | false => exact hk
  · have hpay₁ : (t₁.view s).payments = s.payments := by
      rw [view₁]
      rfl
    rw [payments', view_of_writes hw₂]
    cases taken with
    | true =>
      obtain ⟨q, hq, hstep, hk⟩ := htaken
      refine ⟨q, hk.1, ?_⟩
      show Table.Replaced s.payments (Table.updateWhere (t₁.view s).payments p.id _ _) _ _ _
      rw [hpay₁]
      exact .updateWhere hs.paymentIds (PaymentPatch.id_set _) hq (by simp [PaymentPatch.accepts, hk.1])
    | false => exact hpay₁
  · refine ⟨v₁, v₂, hv₁, hv₂, ?_⟩
    rw [hsums, paidSum_congr (payments' v₁),
      processedRefundsSum_congr ((refunds' v₂).trans (refunds₂ v₂).symm)]
  · have hacc : (t₃.view s).accounts = s.accounts := by
      rw [view_of_writes hw₃, view_of_writes hw₂, view₁]
      cases flip <;> cases taken <;> rfl
    have h := hdebit.balanceMoved hs hacc
    rwa [← accounts_of_extends htail fun w h => h.table_ne (by decide)] at h
  · have hinv : (t₂.view s).invoices = s.invoices := by
      rw [view_of_writes hw₂, view₁]
      cases taken <;> rfl
    have hlast : (t'.view s).invoices = (t₃.view s).invoices := by
      rw [invoices_of_extends htail fun w h => h.table_ne (by decide), view_of_writes hdebit.writes]
      rfl
    rw [hlast, ← hinv]
    refine invoices_of_flipWrites hw₃ (hs.view t₂) fun g hg => ?_
    obtain ⟨i, hi, hacc, -⟩ := hun g hg
    refine ⟨i, ?_, hacc⟩
    show Table.find (t₂.view s).invoices invoice.id = some i
    rw [hinv]
    exact hi

/-- The postcondition of `process`. -/
def ProcessPost (D : Discipline Store Key Write) (refundId : Nat) (t : Tx Store Key Write)
    (s : Store) : Prop :=
  ∃ r providerRef p taken invoice effectiveNet flip, r.id = refundId ∧
    Refunded D r providerRef p taken invoice effectiveNet flip t s

/-- From the refund and the payment on: the invoice, the account, the events. -/
theorem safe_settleRefund (S : Setting D J X) (ht : t.writes = []) (refund : Refund) (p : Payment)
    (providerRef : Option Nat) (hrefund : ∀ s, J s → RefundThere refund s)
    (hpay : ∀ s, J s → PaymentRead D p s) (hst : p.status = .completed) (hpid : p.id = refund.paymentId) :
    Prog.Safe D J X (fun t s _ => ProcessPost D refund.id t s)
      (RefundService.settleRefund refund p providerRef) t s := by
  have hv : ∀ s, t.view s = s := fun s => view_of_writes_eq (t := Tx.start) ht s
  unfold RefundService.settleRefund
  refine safe_markRefund S ht ?_ fun _ _ => S.throws _
  intro s₁ r hj₁ hr ha
  have hrid : r.id = refund.id := Table.id_of_find hr
  let patch : RefundPatch := .processed providerRef
  let t₁ := (t.wrote (.markRefund refund.id patch)).saw s₁
  have hw₁ : t₁.writes = [.markRefund r.id patch] := by
    show t.writes ++ [.markRefund refund.id patch] = _
    rw [ht, hrid]
    rfl
  have view₁ : ∀ v, t₁.view v = v.apply (.markRefund r.id patch) := by
    intro v
    unfold Tx.view
    rw [hw₁]
    rfl
  have S₁ := S.and fun s => s.refund? refund.id = some r
  refine safe_require S.throws fun processed hp => ?_
  cases hp
  have hpid' : (patch.set r).id = r.id := patch.id_set r
  refine safe_takePayment S₁ (fun s => by rw [view₁]; rfl) hst
    (fun s h => (hpay s h.1).there S) fun taken _ t₂ s₂ hw₂ _ _ _ _ => ?_
  rw [hpid'] at hw₂
  have S₂ := S₁.and (Taken t₂.held p taken)
  have hinv₂ : ∀ v, (t₂.view v).invoices = v.invoices := by
    intro v
    rw [view_of_writes hw₂, view₁]
    cases taken <;> rfl
  refine Prog.Safe.query fun s₃ _ hj₃ => safe_require S.throws fun invoice hi => ?_
  have hi₃ : Table.find s₃.invoices p.invoiceId = some invoice := by
    rw [← hinv₂]
    exact hi
  have hid : invoice.id = p.invoiceId := Table.id_of_find hi₃
  have hthere : StillThere invoice s₃ := ⟨invoice, by rw [hid]; exact hi₃, .refl _⟩
  refine Prog.Safe.keep (StillThere invoice) [] (by simp)
    (fun _ _ hm _ _ h => keep_stillThere (S.moves hm) h) hj₃ hthere ?_
  -- the committed states in which the two sums are read
  refine Prog.Safe.query fun v₁ _ hv₁ => ?_
  refine Prog.Safe.keep (D.rely [] v₁) [] (by simp) (fun _ _ hm _ _ h => D.trans h hm) hv₁
    (D.refl _ _) ?_
  refine Prog.Safe.query fun v₂ _ hv₂ => ?_
  refine Prog.Safe.keep (D.rely [] v₂) [] (by simp) (fun _ _ hm _ _ h => D.trans h hm) hv₂
    (D.refl _ _) ?_
  have S₃ := ((S₂.and (StillThere invoice)).and (D.rely [] v₁)).and (D.rely [] v₂)
  refine safe_unwindInvoice S₃ hinv₂ (fun s h => h.1.1.2) ⟨hv₂, D.refl _ _⟩
    fun flip t₃ s₄ hw₃ hh₃ _ hj₄ hun₄ hof => ?_
  refine Prog.Safe.keep (D.rely [] s₄) [] (by simp) (fun _ _ hm _ _ h => D.trans h hm) ⟨hj₄, hun₄⟩
    (D.refl _ _) ?_
  have S₄ := (S₃.and (Unwound t₃.held invoice flip)).and (D.rely [] s₄)
  have hacc : ∀ v, (t₃.view v).accounts = v.accounts := by
    intro v
    have hw : t₃.writes = t₂.writes ++ flipWrites invoice.id flip := hw₃
    rw [view_of_writes hw, view_of_writes hw₂, view₁]
    cases flip <;> cases taken <;> rfl
  refine Prog.Safe.bind ⟨⟨hj₄, hun₄⟩, D.refl _ _⟩ ((safe_debitForRefund S₄ hacc
    invoice.paymentAccountId (patch.set r).amount).mono fun t₄ s₅ _ hj₅ h => ?_)
  obtain ⟨hpos, a, hdebit⟩ := h
  refine Prog.Safe.keep (fun s => s.account? invoice.paymentAccountId = some a) t₄.held
    (List.Subset.refl _) (fun _ _ hm _ _ h => keep_account hdebit.balance (S.moves hm) h) hj₅
    hdebit.account ?_
  have hlast : ∀ n₁ n₂, Prog.OnlyWrites Notice (Prog.bind (notify n₁) fun _ =>
      Prog.bind (notify n₂) fun _ => Prog.ret (patch.set r)) := fun n₁ n₂ =>
    (onlyWrites_notify ⟨_, rfl⟩).bind fun _ =>
      (onlyWrites_notify ⟨_, rfl⟩).bind fun _ => trivial
  refine (Prog.Safe.of_onlyWrites (hlast _ _) S.throws ⟨hj₅, hdebit.account⟩).mono ?_
  rintro t' s' _ hj' ⟨htail, -⟩
  obtain ⟨⟨⟨hj₆, hun⟩, hv₃⟩, hacct⟩ := hj'
  obtain ⟨⟨⟨⟨⟨hj', hrow⟩, htaken⟩, hthere'⟩, hv₁'⟩, hv₂'⟩ := hj₆
  refine ⟨r, providerRef, p, taken, invoice,
    (t₂.view v₁).paidSum invoice.id - (t₂.view v₂).processedRefundsSum invoice.id, flip, hrid, ?_⟩
  exact .of_parts (S.wf hj') (by rw [hrid]; exact hrow) (by simpa [RefundPatch.accepts] using ha)
    (by
      obtain ⟨r', hr', hs'⟩ := hrefund s₁ hj₁
      rw [Option.some.inj (hr.symm.trans hr'), hs'.paymentId, hpid])
    hst (hpay _ hj') hw₁ hw₂ htaken hid hthere' hv₁' hv₂' rfl hw₃ hh₃ hun hv₃ hof hpos { hdebit with account := hacct }
    htail

theorem safe_process (S : Setting D J X) (refundId : Nat) (acknowledged : Bool)
    (provider : RefundService.ProviderRefund) : Prog.Safe D J X (fun t s _ => ProcessPost D refundId t s)
      (RefundService.process refundId acknowledged provider) .start s := by
  unfold RefundService.process
  refine Prog.Safe.query fun s₁ _ hj₁ => safe_require S.throws fun refund hr => ?_
  have hid : refund.id = refundId := Table.id_of_find hr
  have hthere : RefundThere refund s₁ := ⟨refund, by rw [hid]; exact hr, .refl _⟩
  refine Prog.Safe.keep (RefundThere refund) [] (by simp)
    (fun _ _ hm _ _ h => keep_refundThere (S.moves hm) h) hj₁ hthere ?_
  refine safe_guardOr S.throws fun _ => Prog.Safe.acquire fun s₂ _ _ => ?_
  refine Prog.Safe.query fun s₃ _ _ => safe_require S.throws fun _ _ => ?_
  refine safe_guardOr S.throws fun _ => ?_
  refine Prog.Safe.query fun s₄ _ hj₄ => safe_require S.throws fun p hp => ?_
  have hpid : p.id = refund.paymentId := Table.id_of_find hp
  have hread : PaymentRead D p s₄ := ⟨s₄, D.refl _ _, by rw [hpid]; exact hp⟩
  refine Prog.Safe.keep (PaymentRead D p) [] (by simp)
    (fun _ _ hm _ _ ⟨v, hr, hv⟩ => ⟨v, D.trans hr hm, hv⟩) hj₄ hread ?_
  refine safe_guardOr S.throws fun hst => safe_guardOr S.throws fun _ => ?_
  refine safe_require S.throws fun providerRef _ => ?_
  have S₁ := (S.and (RefundThere refund)).and (PaymentRead D p)
  rw [← hid]
  exact safe_settleRefund S₁ rfl refund p providerRef (fun s h => h.1.2) (fun s h => h.2)
    (by simpa using hst) hpid

end Billing
