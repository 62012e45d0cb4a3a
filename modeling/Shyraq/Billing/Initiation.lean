import Shyraq.Billing.Deliveries

/-!
# What an initiate does

`initiate` answers a payment that is already there, or fails the payer's earlier Kaspi
requests and opens a new payment, which the provider may settle at once.
-/

namespace Billing

open Kernel Transactions

variable {D : Discipline Store Key Write} {J : Store → Prop} {X : BillingError → Prop}
  {t : Tx Store Key Write} {s : Store}

/-- A superseded request has failed. -/
def Payment.Recalled (p p' : Payment) : Prop :=
  p' = p ∨ p.status.inFlight = true ∧ p' = PaymentPatch.failed.set p

theorem Payment.Recalled.refl (p : Payment) : Payment.Recalled p p := .inl rfl

theorem Payment.Recalled.trans {a b c : Payment} (h₁ : Payment.Recalled a b)
    (h₂ : Payment.Recalled b c) : Payment.Recalled a c := by
  rcases h₁ with rfl | ⟨ha, rfl⟩
  · exact h₂
  · rcases h₂ with rfl | ⟨hb, -⟩
    · exact .inr ⟨ha, rfl⟩
    · cases hb

variable {p : Payment} {t₁ : Tx Store Key Write} {input : PaymentService.InitiatePaymentInput}

theorem Payment.Recalled.step {p' : Payment} (h : Payment.Recalled p p') : Payment.Step p p' := by
  rcases h with rfl | ⟨hp, rfl⟩
  · exact .refl _
  · exact PaymentPatch.step (f := .failed) hp

/-- The statements of the recall. -/
def Recall (w : Write) : Prop := ∃ i, w = .markPayment i .failed

theorem Recall.table_ne {w : Write} (h : Recall w) {T : TableName} (hT : T ≠ .payments) : w.table ≠ T := by
  obtain ⟨i, rfl⟩ := h
  exact hT.symm

theorem recalled_foldl {ws : List Write} (hw : ∀ w ∈ ws, Recall w) (v : Store) :
    Table.Rewrites Payment.Recalled v.payments (ws.foldl Store.apply v).payments := by
  induction ws generalizing v with
  | nil => exact .refl Payment.Recalled.refl _
  | cons w ws ih =>
    obtain ⟨i, rfl⟩ := hw w List.mem_cons_self
    have h₁ : Table.Rewrites Payment.Recalled v.payments
        (v.apply (.markPayment i .failed)).payments :=
      .updateWhere Payment.Recalled.refl (PaymentPatch.id_set .failed) fun r _ hp => .inr ⟨hp, rfl⟩
    exact h₁.trans (fun _ _ _ h h' => h.trans h') (ih (fun w' hw' => hw w' (List.mem_cons_of_mem _ hw')) _)

/-! ## The new row -/

theorem keep_known {held : List Key} {s' : Store} (hm : Moves held s s') {key : IdempotencyKey}
    (h : (s.paymentByKey key).isSome = true) (hs : s.WF) : (s'.paymentByKey key).isSome = true := by
  obtain ⟨q, hq⟩ := Option.isSome_iff_exists.1 h
  unfold Store.paymentByKey at hq ⊢
  have hkey : (q.idempotencyKey == key) = true := List.find?_some (p := fun p : Payment => p.idempotencyKey == key) hq
  obtain ⟨q', hq', hstep, -⟩ := hm.payments.row _ _ (Table.find_of_mem hs.paymentIds (List.mem_of_find?_eq_some hq))
  refine List.find?_isSome.2 ⟨q', Table.mem_of_find hq', ?_⟩
  rw [hstep.idempotencyKey]
  exact hkey

theorem known_of_view (h : Tx.Extends Recall .start t) (hs : s.WF)
    {key : IdempotencyKey} (hknown : ((t.view s).paymentByKey key).isSome = true) :
    (s.paymentByKey key).isSome = true := by
  obtain ⟨ws, he, hw⟩ := h.writes
  have hview : t.view s = ws.foldl Store.apply s := view_of_writes he s
  have hrows := recalled_foldl hw s
  rw [← hview] at hrows
  obtain ⟨q, hq⟩ := Option.isSome_iff_exists.1 hknown
  unfold Store.paymentByKey at hq ⊢
  have hkey : (q.idempotencyKey == key) = true := List.find?_some (p := fun p : Payment => p.idempotencyKey == key) hq
  obtain ⟨r, hr, hrq⟩ := hrows.row_before (Table.find_of_mem (hs.view t).paymentIds (List.mem_of_find?_eq_some hq))
  refine List.find?_isSome.2 ⟨r, Table.mem_of_find hr, ?_⟩
  rw [← hrq.step.idempotencyKey]
  exact hkey

theorem admits_of_recalls (h : Tx.Extends Recall .start t) (s : Store)
    (p : Payment) : (t.view s).admitsPayment p = s.admitsPayment p := by
  have hinv : (t.view s).invoices = s.invoices :=
    invoices_of_extends h (fun w h => h.table_ne (by decide)) s
  have hids : (t.view s).payments.map Payment.id = s.payments.map Payment.id := by
    refine h.view_eq (fun s => s.payments.map Payment.id) (fun s w hw => ?_) s
    obtain ⟨i, rfl⟩ := hw
    show (Table.updateWhere _ _ _ _).map Payment.id = _
    unfold Table.updateWhere
    rw [List.map_map]
    refine List.map_congr_left fun q _ => ?_
    show Payment.id (if _ then _ else _) = _
    split
    · exact PaymentPatch.id_set _ q
    · rfl
  have hkeys : (t.view s).payments.map Payment.idempotencyKey =
      s.payments.map Payment.idempotencyKey := by
    refine h.view_eq (fun s => s.payments.map Payment.idempotencyKey) (fun s w hw => ?_) s
    obtain ⟨i, rfl⟩ := hw
    show (Table.updateWhere _ _ _ _).map Payment.idempotencyKey = _
    unfold Table.updateWhere
    rw [List.map_map]
    refine List.map_congr_left fun q _ => ?_
    show Payment.idempotencyKey (if _ then _ else _) = _
    split <;> rfl
  have hfind : ∀ l : List Payment,
      (Table.find l p.id).isNone = !((l.map Payment.id).contains p.id) := by
    intro l
    rw [Bool.eq_iff_iff, Option.isNone_iff_eq_none, Table.find_eq_none]
    simp [Row.id]
  have hany : ∀ l : List Payment, (l.any fun q => q.idempotencyKey == p.idempotencyKey) =
      (l.map Payment.idempotencyKey).contains p.idempotencyKey := by
    intro l
    rw [Bool.eq_iff_iff, List.any_eq_true, List.contains_iff_mem, List.mem_map]
    simp only [beq_iff_eq]
  unfold Store.admitsPayment Store.hasInvoice
  rw [hfind, hfind, hany, hany, hids, hkeys, hinv]

/-- Statements on the new row: it fails, or its request is under way. -/
def OnNewRow (id : Nat) (w : Write) : Prop :=
  w = .markPayment id .failed ∨ (∃ txn, w = .markPayment id (.processing txn)) ∨
    ∃ nextAt, w = .scheduleBccReconciliation id nextAt

/-- A new row that is not settled. -/
def Payment.Open (p : Payment) : Prop := p.status ≠ .completed ∧ p.status ≠ .refunded

theorem added_foldl {l : List Payment} {ws : List Write} {v : Store}
    (hw : ∀ w ∈ ws, OnNewRow p.id w) (hu : v.WF) (h : Table.Added l v.payments p) (ho : p.Open) :
    ∃ p', Table.Added l (ws.foldl Store.apply v).payments p' ∧ Payment.Step p p' ∧ p'.Open := by
  induction ws generalizing v p with
  | nil => exact ⟨p, h, .refl p, ho⟩
  | cons w ws ih =>
    have hrest := fun w' hw' => hw w' (List.mem_cons_of_mem w hw')
    have hfind : Table.find v.payments p.id = some p := (h.after p.id).trans (if_pos rfl)
    -- either the row matches and changes in place, or nothing does
    have one : ∀ (c : Payment → Bool) (f : Payment → Payment), (∀ q, (f q).id = q.id) →
        (c p = true → Payment.Step p (f p) ∧ (f p).Open) →
        ∃ p₁, Table.Added l (Table.updateWhere v.payments p.id c f) p₁ ∧ Payment.Step p p₁ ∧
          p₁.Open ∧ p₁.id = p.id := by
      intro c f hid hstep
      by_cases hc : c p = true
      · exact ⟨f p, h.replaced (.updateWhere hu.paymentIds hid hfind hc) (hid p), (hstep hc).1,
          (hstep hc).2, hid p⟩
      · refine ⟨p, ?_, .refl p, ho, rfl⟩
        rw [Table.updateWhere_of_not]
        · exact h
        · intro q hq he
          have := Table.find_of_mem hu.paymentIds hq
          rw [he] at this
          rw [Option.some.inj (this.symm.trans hfind)]
          simpa using hc
    have next : ∃ p₁, Table.Added l (v.apply w).payments p₁ ∧ Payment.Step p p₁ ∧ p₁.Open ∧
        p₁.id = p.id := by
      rcases hw w List.mem_cons_self with rfl | ⟨txn, rfl⟩ | ⟨at_, rfl⟩
      · exact one _ _ (PaymentPatch.id_set .failed) fun hc =>
          ⟨PaymentPatch.step hc, by simp [Payment.Open, PaymentPatch.set]⟩
      · exact one _ _ (PaymentPatch.id_set (.processing txn)) fun hc =>
          ⟨PaymentPatch.step hc, by simp [Payment.Open, PaymentPatch.set]⟩
      · refine one _ _ (fun _ => rfl) fun _ => ⟨?_, ho⟩
        exact ⟨rfl, rfl, rfl, rfl, rfl, rfl, rfl, p.status.reaches_refl⟩
    obtain ⟨p₁, h₁, hs₁, ho₁, hid₁⟩ := next
    obtain ⟨p', h', hs', ho'⟩ := ih (hid₁ ▸ hrest) (hu.apply w) h₁ ho₁
    exact ⟨p', h', hs₁.trans hs', ho'⟩

/-! ## The request -/

/-- A payment row is new, on an invoice that is there; earlier requests may have failed. -/
structure Opening (t : Tx Store Key Write) (s : Store) (p : Payment) : Prop where
  payments : ∃ v : Store, v.WF ∧ Table.Rewrites Payment.Recalled s.payments v.payments ∧
    Table.Added v.payments (t.view s).payments p
  amount : 0 < p.amount
  invoice : ∃ i, StillThere i s ∧ i.id = p.invoiceId ∧ i.childId = p.childId
  refunds : (t.view s).refunds = s.refunds

theorem Opening.row {q : Payment} (h : Opening t s q) {id : Nat} (hp : s.payment? id = some p) :
    id ≠ q.id ∧ ∃ p', (t.view s).payment? id = some p' ∧ Payment.Recalled p p' := by
  obtain ⟨v, -, hrec, hadd⟩ := h.payments
  obtain ⟨p', hp', hr⟩ := hrec.row hp
  have hne : id ≠ q.id := by
    rintro rfl
    have hnone : Table.find v.payments q.id = none := hadd.before
    rw [hnone] at hp'
    cases hp'
  exact ⟨hne, p', by rw [← hp']; exact (hadd.after id).trans (if_neg hne), hr⟩

theorem Opening.absent {q : Payment} (h : Opening t s q) {id : Nat}
    (hn : s.payment? id = none) (hne : id ≠ q.id) : (t.view s).payment? id = none := by
  obtain ⟨v, -, hrec, hadd⟩ := h.payments
  exact ((hadd.after id).trans (if_neg hne)).trans (hrec.absent hn)

theorem Opening.self {q : Payment} (h : Opening t s q) : (t.view s).payment? q.id = some q := by
  obtain ⟨v, -, -, hadd⟩ := h.payments
  exact (hadd.after q.id).trans (if_pos rfl)

/-- What `initiate` makes of the store. -/
inductive Initiated (D : Discipline Store Key Write) (t : Tx Store Key Write) (s : Store)
    (answer : Payment) : Prop
  | answered (h : Tx.Extends Recall .start t)
  | opened (p : Payment) (h : Opening t s p) (status : p.Open)
      (accounts : (t.view s).accounts = s.accounts) (invoices : (t.view s).invoices = s.invoices)
  | settled (p p₀ : Payment) (t₁ : Tx Store Key Write) (invoice : Invoice) (paidSum : Int)
      (flip : Option InvoiceFlip) (h : Opening t s p) (id : answer.id = p.id)
      (status : p.status = .completed) (step : Payment.Step p₀ p)
      (settled : Settled D p₀ invoice paidSum flip t₁ t s)

theorem safe_createOrWinner {A : Type} {Q : Tx Store Key Write → Store → A → Prop}
    {f : Option Payment → Sql A} (S : Setting D J X) (hit : ∀ s₁, J s₁ → (t.view s₁).admitsPayment p = true →
      Prog.Safe D J X Q (f none) (t.wrote (.insertPayment p)) s₁)
    (miss : ∀ t₁ s₁ q, t₁.writes = t.writes → J s₁ → (t.view s₁).paymentByKey p.idempotencyKey = some q →
      Prog.Safe D J X Q (f (some q)) t₁ s₁) :
    Prog.Safe D J X Q (Prog.bind (PaymentService.createOrWinner p) f) t s := by
  intro s₁ _ hj₁
  refine ⟨fun hh => ?_, fun _ => ?_⟩
  · have hin : ((t.view s₁).admitsPayment p && (t.view s₁).hasChild p.childId) = true := hh
    rw [Bool.and_eq_true] at hin
    exact hit s₁ hj₁ hin.1
  · intro s₂ _ hj₂
    show Prog.Safe D J X Q (Prog.bind (Prog.bind
      (require ((t.view s₂).paymentByKey p.idempotencyKey) _) _) f) _ _
    cases hq : (t.view s₂).paymentByKey p.idempotencyKey with
    | none => exact S.throws _
    | some q => exact miss _ s₂ q rfl hj₂ hq

/-- The facts behind `Opening`, while the new row is only in this transaction. -/
structure Fresh (t₁ : Tx Store Key Write) (p : Payment) (s : Store) : Prop where
  admitted : (t₁.view s).admitsPayment p = true
  invoice : ∃ i, StillThere i s ∧ i.id = p.invoiceId ∧ i.childId = p.childId

theorem Fresh.added (h : Fresh t₁ p s) :
    Table.Added (t₁.view s).payments ((t₁.wrote (.insertPayment p)).view s).payments p := by
  rw [Tx.view_wrote]
  exact added_of_admits h.admitted

theorem Fresh.opening {t' : Tx Store Key Write} {p' : Payment}
    (h : Fresh t₁ p s) (hs : s.WF) (hrec : Tx.Extends Recall .start t₁) (hstep : Payment.Step p p')
    (hadd : Table.Added (t₁.view s).payments (t'.view s).payments p')
    (href : (t'.view s).refunds = s.refunds) : Opening t' s p' where
  payments := by
    obtain ⟨ws, he, hw⟩ := hrec.writes
    refine ⟨t₁.view s, hs.view t₁, ?_, hadd⟩
    rw [view_of_writes he]
    exact recalled_foldl hw s
  amount := by
    rw [hstep.amount]
    exact pos_of_admits h.admitted
  invoice := by
    obtain ⟨i, hi, hid, hchild⟩ := h.invoice
    exact ⟨i, hi, hid.trans hstep.invoiceId.symm, hchild.trans hstep.childId.symm⟩
  refunds := href

theorem Fresh.base (hrec : Tx.Extends Recall .start t₁) :
    Base (fun s => J s ∧ Fresh t₁ p s) (t₁.wrote (.insertPayment p)) p.id where
  writes := by
    obtain ⟨ws, he, hw⟩ := hrec.writes
    intro w h
    rw [Tx.writes_wrote, he] at h
    rcases List.mem_append.1 h with h | h
    · obtain ⟨i, rfl⟩ := hw w (by simpa [Tx.start] using h)
      rfl
    · rw [List.mem_singleton.1 h]
      rfl
  step := by
    intro held s s' q _ hj hj' hq
    have hrow : ∀ s, Fresh t₁ p s →
        ((t₁.wrote (.insertPayment p)).view s).payment? p.id = some p := by
      intro s h
      exact (h.added.after p.id).trans (if_pos rfl)
    rw [show q = p from Option.some.inj (hq.symm.trans (hrow s hj.2))]
    exact ⟨p, hrow s' hj'.2, .refl p, fun _ => rfl⟩

theorem onlyWrites_afterProviderCall {now : Int} {payment : Payment} {outcome : PaymentService.ProviderOutcome}
    (h : ∀ txn, outcome ≠ .completed txn) : Prog.OnlyWrites (OnNewRow payment.id)
      (PaymentService.afterProviderCall now input payment outcome) := by
  cases outcome with
  | throws => exact (onlyWrites_returning (.inl rfl)).bind fun _ => trivial
  | completed txn => exact absurd rfl (h txn)
  | failed => exact (onlyWrites_returning (.inl rfl)).bind fun _ => trivial
  | initiated txn =>
    refine (onlyWrites_returning (.inr (.inl ⟨some txn, rfl⟩))).bind fun _ s => ?_
    have hid : ∀ o : Option Payment, (∀ q, o = some q → q.id = payment.id) →
        (o.getD payment).id = payment.id := by
      intro o ho
      cases o with
      | none => rfl
      | some q => exact ho q rfl
    have hrow := hid (s.payment? payment.id) fun q hq => Table.id_of_find hq
    show Prog.OnlyWrites _ (if _ then _ else _)
    split
    · refine (onlyWrites_returning ?_).bind fun _ => trivial
      rw [hrow]
      exact .inr (.inr ⟨_, rfl⟩)
    · trivial

theorem safe_afterProviderCall (S : Setting D J X) (hrec : Tx.Extends Recall .start t₁) (hst : p.status = .initiated)
    (hj : J s) (hf : Fresh t₁ p s) (now : Int) (input : PaymentService.InitiatePaymentInput)
    (outcome : PaymentService.ProviderOutcome) :
    Prog.Safe D (fun s => J s ∧ Fresh t₁ p s) X (fun t' s' answer => Initiated D t' s' answer)
      (PaymentService.afterProviderCall now input p outcome) (t₁.wrote (.insertPayment p)) s := by
  have S₁ := S.and (Fresh t₁ p)
  by_cases hout : ∃ txn, outcome = .completed txn
  · obtain ⟨txn, rfl⟩ := hout
    refine (safe_applyCompletedPayment S₁ now p.id ⟨txn, .completed, none⟩ (Fresh.base hrec)).mono ?_
    rintro t' s' answer ⟨hj', hf'⟩ (⟨-, q, hq, hpast⟩ | ⟨hid, q, q', invoice, paidSum, flip, hc⟩)
    · -- the row has just been opened, so it is not past anything
      rw [show q = p from Option.some.inj (hq.symm.trans ((hf'.added.after p.id).trans (if_pos rfl))),
        hst] at hpast
      cases hpast
    · have hqp : q = p := Option.some.inj
        (hc.payments.before.symm.trans ((hf'.added.after p.id).trans (if_pos rfl)))
      subst hqp
      obtain ⟨t₂, txn', paidAt, v₁, v₂, v₃, hw, hs, hset⟩ := hc.settled
      have hrefunds : (t'.view s').refunds = s'.refunds := by
        rw [hset.refunds]
        refine refunds_of_start (fun w h => ?_) s'
        rw [hw] at h
        rcases List.mem_append.1 h with h | h
        · rw [(Fresh.base (J := J) hrec).writes w h]
          decide
        · rw [List.mem_singleton.1 h]
          simp [Write.table]
      refine .settled q' _ t₂ invoice paidSum flip (hf'.opening (S.wf hj') hrec hc.step ?_ hrefunds)
        (hid.trans hc.step.id.symm) hc.status ?_ hset
      · exact hf'.added.replaced hc.payments hc.step.id
      · exact ⟨hc.step.id, hc.step.invoiceId, hc.step.childId, hc.step.amount, hc.step.provider,
          hc.step.idempotencyKey, hc.step.createdAt, by rw [hc.status]; rfl⟩
  · have hnew : Prog.OnlyWrites (OnNewRow p.id)
        (PaymentService.afterProviderCall now input p outcome) :=
      onlyWrites_afterProviderCall fun txn h => hout ⟨txn, h⟩
    refine (Prog.Safe.of_onlyWrites hnew S.throws ⟨hj, hf⟩).mono ?_
    rintro t' s' answer ⟨hj', hf'⟩ ⟨hext, -⟩
    obtain ⟨ws, he, hw⟩ := hext.writes
    obtain ⟨p', hadd, hstep, hopen⟩ := added_foldl (l := (t₁.view s').payments) hw
      ((S.wf hj').view _) hf'.added ⟨by rw [hst]; decide, by rw [hst]; decide⟩
    rw [← view_of_writes he] at hadd
    have htable : ∀ w ∈ t'.writes, w.table = .payments := by
      intro w h
      rw [he] at h
      rcases List.mem_append.1 h with h | h
      · exact (Fresh.base (J := J) hrec).writes w h
      · rcases hw w h with rfl | ⟨txn, rfl⟩ | ⟨nextAt, rfl⟩ <;> rfl
    refine .opened p' (hf'.opening (S.wf hj') hrec hstep hadd ?_) hopen ?_ ?_
    · exact refunds_of_start (fun w h => by rw [htable w h]; decide) s'
    · exact accounts_of_start (fun w h => by rw [htable w h]; decide) s'
    · exact invoices_of_start (fun w h => by rw [htable w h]; decide) s'

theorem onlyWrites_recallBefore {invoice : Invoice} :
    Prog.OnlyWrites Recall (PaymentService.recallBefore input invoice) := by
  unfold PaymentService.recallBefore
  split
  · refine Prog.OnlyWrites.bind (fun _ => trivial) fun existing => .forEach _ fun prev _ => ?_
    split
    · exact (onlyWrites_returning ⟨_, rfl⟩).bind fun _ => trivial
    · trivial
  · trivial

/-- What the checks have found: the amount is within what is still to be paid. -/
structure Payable (input : PaymentService.InitiatePaymentInput) (invoice : Invoice) (paidSum : Int) : Prop where
  id : invoice.id = input.invoiceId
  unpaid : invoice.status.unpaid = true
  positive : 0 < MoneyKzt.fromKzt input.amount
  within : paidSum + MoneyKzt.fromKzt input.amount ≤ invoice.amountAfterDiscount

theorem safe_checkInitiate {B : Type} {Q : Tx Store Key Write → Store → B → Prop} {f : Unit → Sql B}
    {invoice : Invoice} {paidSum : Int} (hX : ∀ e, X e) (hid : invoice.id = input.invoiceId)
    (h : Payable input invoice paidSum → Prog.Safe D J X Q (f ()) t s) :
    Prog.Safe D J X Q (Prog.bind (PaymentService.checkInitiate input invoice paidSum) f) t s := by
  unfold PaymentService.checkInitiate
  simp only [Prog.bind_eq, Prog.bind_assoc]
  refine safe_guardOr hX fun _ => safe_guardOr hX fun hunpaid => ?_
  refine safe_guardOr hX fun hpos => safe_guardOr hX fun _ => ?_
  have hpos : 0 < invoice.amountAfterDiscount - paidSum := by simpa [MoneyKzt.isPositive] using hpos
  cases input.paymentMode with
  | full =>
    refine safe_guardOr hX fun hall => h ⟨hid, hunpaid, ?_, ?_⟩
    · rw [eq_of_beq hall]
      exact hpos
    · rw [eq_of_beq hall]
      omega
  | partial_ =>
    refine safe_guardOr hX fun hpart => ?_
    obtain ⟨hamount, hle⟩ := Bool.and_eq_true_iff.1 hpart
    have hamount : 0 < MoneyKzt.fromKzt input.amount := by simpa [MoneyKzt.isPositive] using hamount
    have hle := of_decide_eq_true hle
    exact h ⟨hid, hunpaid, hamount, by omega⟩

/-- Up to the provider call: a payment that is already there is answered, or a row is opened. -/
theorem safe_opening {Q : Tx Store Key Write → Store → Payment → Prop} (S : Setting D J X)
    (ht : t.writes = []) (now : Int) (input : PaymentService.InitiatePaymentInput)
    (outcome : PaymentService.ProviderOutcome) (invoice : Invoice) (hj : J s)
    (hthere : ∀ s, J s → StillThere invoice s)
    (answered : ∀ t' s' q, Tx.Extends Recall .start t' → (s'.paymentByKey input.idempotencyKey).isSome = true →
      Q t' s' q)
    (opened : ∀ t₁ s₁ p, Tx.Extends Recall .start t₁ → (∃ id, p = PaymentService.newPayment id now input invoice) →
      J s₁ → Fresh t₁ p s₁ →
      Prog.Safe D (fun s => J s ∧ Fresh t₁ p s) X Q
        (PaymentService.afterProviderCall now input p outcome) (t₁.wrote (.insertPayment p)) s₁) :
    Prog.Safe D J X Q (PaymentService.openPayment now input outcome invoice) t s := by
  unfold PaymentService.openPayment
  refine Prog.Safe.bind_frame onlyWrites_recallBefore S.throws hj fun _ t₁ s₁ he _ _ => ?_
  refine Prog.Safe.uuid fun s₂ id _ _ _ _ => ?_
  generalize hp : PaymentService.newPayment id now input invoice = p
  let t₂ := t₁.locked (Relational.rowKey Store id)
  have hrec : Tx.Extends Recall .start t₂ := by
    refine .of_start fun w hw => ?_
    obtain ⟨ws, hws, hr⟩ := he.writes
    have hw' : w ∈ t₁.writes := hw
    rw [hws, ht, List.nil_append] at hw'
    exact hr w hw'
  refine safe_createOrWinner S ?_ ?_
  · intro s₃ hj₃ hin
    have hfresh : Fresh t₂ p s₃ := by
      refine ⟨hin, invoice, hthere s₃ hj₃, ?_, ?_⟩
      · rw [← hp]
        rfl
      · rw [← hp]
        rfl
    have hheld : Key.row p.id ∈ (t₂.wrote (.insertPayment p)).held ∧
        Key.idempotency p.idempotencyKey ∈ (t₂.wrote (.insertPayment p)).held := by
      constructor <;> exact List.mem_append_left _ (by simp [Relational.keys, Store.keys])
    refine Prog.Safe.keep (Fresh t₂ p) (t₂.wrote (.insertPayment p)).held
      (List.Subset.refl _) ?_ hj₃ hfresh ?_
    · intro s s' hr _ _ h
      refine ⟨?_, ?_⟩
      · rw [admits_of_recalls hrec]
        exact keep_admitsPayment hheld.1 hheld.2 (S.moves hr) (admits_of_recalls hrec s p ▸ h.admitted)
      · obtain ⟨i, hi, h₁, h₂⟩ := h.invoice
        exact ⟨i, keep_stillThere (S.moves hr) hi, h₁, h₂⟩
    · exact opened t₂ s₃ p hrec ⟨id, hp.symm⟩ hj₃ hfresh
  · intro t₃ s₃ q hw hj₃ hq s₄ hr₄ hj₄
    have hkey : p.idempotencyKey = input.idempotencyKey := by
      rw [← hp]
      rfl
    have hknown : (s₃.paymentByKey input.idempotencyKey).isSome = true :=
      known_of_view hrec (S.wf hj₃) (by rw [← hkey, hq]; rfl)
    refine answered t₃ s₄ q (.of_start fun w h => ?_) (keep_known (S.moves hr₄) hknown (S.wf hj₃))
    rw [hw] at h
    obtain ⟨ws, hws, hr⟩ := hrec.writes
    rw [hws] at h
    exact hr w (by simpa [Tx.start] using h)

/-- The whole request, by what the provider's answer does to the row it opens. -/
theorem safe_initiating {Q : Tx Store Key Write → Store → Payment → Prop} (S : Setting D J X) (now : Int)
    (input : PaymentService.InitiatePaymentInput) (outcome : PaymentService.ProviderOutcome)
    (answered : ∀ t' s' q, Tx.Extends Recall .start t' → (s'.paymentByKey input.idempotencyKey).isSome = true →
      Q t' s' q) (opened : ∀ invoice t₁ s₁ p, (∃ v, J v ∧ Payable input invoice (v.paidSum invoice.id)) →
      Tx.Extends Recall .start t₁ → (∃ id, p = PaymentService.newPayment id now input invoice) → J s₁ →
      StillThere invoice s₁ → Fresh t₁ p s₁ →
      Prog.Safe D (fun s => (J s ∧ StillThere invoice s) ∧ Fresh t₁ p s) X Q
        (PaymentService.afterProviderCall now input p outcome) (t₁.wrote (.insertPayment p)) s₁) :
    Prog.Safe D J X Q (PaymentService.initiate now input outcome) .start s := by
  unfold PaymentService.initiate
  refine Prog.Safe.query fun s₁ _ hj₁ => ?_
  cases hexisting : (Tx.start.view s₁).paymentByKey input.idempotencyKey with
  | some p =>
    intro s' hr hj'
    refine answered _ s' p (.of_start (by simp [Tx.start])) (keep_known (S.moves hr) ?_ (S.wf hj₁))
    rw [Tx.view_start] at hexisting
    rw [hexisting]
    rfl
  | none =>
    refine safe_guardOr S.throws fun _ => safe_guardOr S.throws fun _ => ?_
    refine Prog.Safe.query fun s₂ _ hj₂ => safe_require S.throws fun invoice hi => ?_
    have hid : invoice.id = input.invoiceId := Table.id_of_find hi
    refine Prog.Safe.keep (StillThere invoice) [] (by simp)
      (fun _ _ hr _ _ h => keep_stillThere (S.moves hr) h) hj₂
      ⟨invoice, by rw [hid]; exact hi, .refl _⟩ ?_
    refine Prog.Safe.query fun s₃ _ hj₃ => safe_checkInitiate S.throws hid fun hadm => ?_
    have hread : ∃ v, J v ∧ Payable input invoice (v.paidSum invoice.id) := ⟨s₃, hj₃.1, hadm⟩
    refine safe_opening (S.and _) rfl now input outcome invoice hj₃ (fun s h => h.2) answered ?_
    exact fun t₁ s₅ p hrec hnew hj₅ hf => opened invoice t₁ s₅ p hread hrec hnew hj₅.1 hj₅.2 hf

theorem safe_initiate (S : Setting D J X) (now : Int) (input : PaymentService.InitiatePaymentInput)
    (outcome : PaymentService.ProviderOutcome) :
    Prog.Safe D J X (fun t' s' answer => Initiated D t' s' answer)
      (PaymentService.initiate now input outcome) .start s :=
  safe_initiating S now input outcome (fun _ _ _ h _ => .answered h) fun _ _ _ _ _ hrec ⟨_, hnew⟩ hj hthere hf =>
    safe_afterProviderCall (S.and _) hrec (hnew ▸ rfl) ⟨hj, hthere⟩ hf now input outcome

/-! ## What is left in flight -/

/-- What is in flight was there as it is. -/
def Flown (s s' : Store) : Prop := ∀ p ∈ s'.payments, p.status.inFlight = true → p ∈ s.payments

theorem flown_of_eq {s' : Store} (h : s'.payments = s.payments) : Flown s s' := by
  intro p hp _
  rwa [h] at hp

theorem flown_of_replaced {s' : Store} {id : Nat} {p' : Payment} (hu : Table.Unique s'.payments)
    (h : Table.Replaced s.payments s'.payments id p p') (hp' : p'.status.inFlight = false) : Flown s s' := by
  intro q hq hflight
  have hfind := Table.find_of_mem hu hq
  by_cases hid : q.id = id
  · rw [show Row.id q = id from hid, h.find_self] at hfind
    rw [← Option.some.inj hfind, hp'] at hflight
    cases hflight
  · exact Table.mem_of_find ((h.find_of_ne hid).symm.trans hfind)

theorem flown_of_recalls (hs : s.WF) (h : Tx.Extends Recall .start t) : Flown s (t.view s) := by
  obtain ⟨ws, he, hw⟩ := h.writes
  have hrows := recalled_foldl hw s
  have hview : t.view s = ws.foldl Store.apply s := view_of_writes he s
  rw [← hview] at hrows
  intro p hp hflight
  obtain ⟨q, hq, hqp⟩ := hrows.row_before (Table.find_of_mem (hs.view t).paymentIds hp)
  rcases hqp with rfl | ⟨-, rfl⟩
  · exact Table.mem_of_find hq
  · cases hflight

theorem flown_of_delivered {entry : Entry} {status : ProviderStatus} {id : Nat}
    (hs : s.WF) (h : Delivered D entry status id t s) : Flown s (t.view s) := by
  cases h with
  | noted h => exact flown_of_eq (by rw [view_of_touches h.1]; rfl)
  | completed p p' invoice paidSum flip hstatus hp h =>
    refine flown_of_replaced (hs.view t).paymentIds h.payments ?_
    rw [h.status]
    rfl
  | failed p hstatus h => exact flown_of_replaced (hs.view t).paymentIds h.payments rfl
  | processing hstatus hentry h => exact flown_of_eq (by rw [view_of_touches h]; rfl)

end Billing
