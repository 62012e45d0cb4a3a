import Shyraq.Billing.Settling

/-!
# What a provider observation does

An observation about a payment completes it, fails it, or finds it past that.  The
specifications are relative to the transaction that the observation is applied in, which
need not be new: `initiate` applies the answer of the provider in its own transaction.
-/

namespace Billing

open Kernel Transactions

variable {D : Discipline Store Key Write} {J : Store → Prop} {X : BillingError → Prop}
  {t : Tx Store Key Write} {s : Store}

/-- What has to hold of the transaction that an observation about payment `id` is applied
in: it has only written payments so far, and it sees the row of `id` move as payments do. -/
structure Base (J : Store → Prop) (t : Tx Store Key Write) (id : Nat) : Prop where
  writes : ∀ w ∈ t.writes, w.table = .payments
  step : ∀ {held s s' p}, Moves held s s' → J s → J s' → (t.view s).payment? id = some p →
    ∃ p', (t.view s').payment? id = some p' ∧ Payment.Step p p' ∧ (Key.row id ∈ held → p' = p)

theorem Base.of_start (J : Store → Prop) (id : Nat) (h : t.writes = []) : Base J t id where
  writes w hw := by
    rw [h] at hw
    cases hw
  step := by
    intro held s s' p hm _ _ hp
    have hv : ∀ s, t.view s = s := fun s => view_of_writes_eq (t := Tx.start) h s
    rw [hv] at hp ⊢
    exact hm.payments.row id p hp

variable {id : Nat} {t' t₁ : Tx Store Key Write}

theorem Base.and (h : Base J t id) (φ : Store → Prop) : Base (fun s => J s ∧ φ s) t id where
  writes := h.writes
  step hm hj hj' := h.step hm hj.1 hj'.1

theorem Base.of_writes (h : Base J t id) (hw : t'.writes = t.writes) : Base J t' id where
  writes := by
    rw [hw]
    exact h.writes
  step hm hj hj' hp := by
    rw [view_of_writes_eq hw] at hp ⊢
    exact h.step hm hj hj' hp

/-- The payment is past any settlement. -/
def Past (t : Tx Store Key Write) (id : Nat) (s : Store) : Prop :=
  ∃ p, (t.view s).payment? id = some p ∧ p.status.inFlight = false

theorem Base.keep_past (h : Base J t id) {held : List Key} {s' : Store}
    (hm : Moves held s s') (hj : J s) (hj' : J s') (hp : Past t id s) : Past t id s' := by
  obtain ⟨p, hf, hs⟩ := hp
  obtain ⟨p', hf', hstep, -⟩ := h.step hm hj hj' hf
  exact ⟨p', hf', inFlight_of_reaches hstep.status hs⟩

/-- Writes that change no column. -/
def Touch (w : Write) : Prop := ∃ i, w = .touchPayment i

theorem view_of_touches (h : Tx.Extends Touch t t') (s : Store) : t'.view s = t.view s :=
  h.view_eq id (fun s w hw => by obtain ⟨i, rfl⟩ := hw; rfl) s

/-- Nothing was applied. -/
def Noted (id : Nat) (t t' : Tx Store Key Write) (s : Store) : Prop :=
  Tx.Extends Touch t t' ∧ Past t id s

/-- The payment has become `completed`, and is settled. -/
structure Completion (D : Discipline Store Key Write) (id : Nat) (t t' : Tx Store Key Write)
    (s : Store) (p p' : Payment) (invoice : Invoice) (paidSum : Int) (flip : Option InvoiceFlip) :
    Prop where
  inFlight : p.status.inFlight = true
  payments : Table.Replaced (t.view s).payments (t'.view s).payments id p p'
  step : Payment.Step p p'
  status : p'.status = .completed
  row : Key.row id ∈ t'.held
  settled : ∃ t₁ txn paidAt v₁ v₂ v₃, t₁.writes = t.writes ++ [.markPayment id (.completed txn paidAt)] ∧
    t₁.seen = t.seen ++ [v₁, v₂, v₃] ∧
    Settled D ((PaymentPatch.completed txn paidAt).set p) invoice paidSum flip t₁ t' s

/-- The payment has become `failed`. -/
structure Failure (id : Nat) (t t' : Tx Store Key Write) (s : Store) (p : Payment) : Prop where
  inFlight : p.status.inFlight = true
  payments : Table.Replaced (t.view s).payments (t'.view s).payments id p (PaymentPatch.failed.set p)
  writes : ∃ t₁, t₁.writes = t.writes ++ [.markPayment id .failed] ∧ Tx.Extends Notice t₁ t'

theorem safe_observe {A : Type} {Q : Tx Store Key Write → Store → A → Prop} (S : Setting D J X) {f : Payment → Sql A}
    (h : ∀ t₁ s₁ v₁ v₂ p, t₁.writes = t.writes → t.held ⊆ t₁.held → t₁.seen = t.seen ++ [v₁, v₂] → J s₁ →
      (t.view s₁).payment? id = some p → Prog.Safe D J X Q (f p) t₁ s₁) : Prog.Safe D J X Q (do
      let found ← PaymentRepository.findById id
      let current ← require found (.paymentNotFound id)
      PaymentRepository.acquirePaymentAdvisoryLock current.invoiceId
      let found ← PaymentRepository.findById id
      let reread ← require found (.paymentNotFound id)
      f reread) t s := by
  refine Prog.Safe.query fun s₁ _ _ => safe_require S.throws fun current _ => ?_
  refine Prog.Safe.acquire fun s₂ _ _ => Prog.Safe.query fun s₃ _ hj₃ => ?_
  refine safe_require S.throws fun p hp => ?_
  exact h _ s₃ (t.view s₁) (t.view s₃) p rfl (fun k hk => List.mem_cons_of_mem _ hk) (by simp) hj₃ hp

theorem safe_markPayment {A : Type} {Q : Tx Store Key Write → Store → A → Prop} (S : Setting D J X)
    {patch : PaymentPatch} {f : Option Payment → Sql A} (B : Base J t id)
    (hrow : ∀ s, J s → ∃ p, (t.view s).payment? id = some p)
    (hit : ∀ s₁ p, J s₁ → (t.view s₁).payment? id = some p → patch.accepts p = true →
      Prog.Safe D (fun s => J s ∧ (t.view s).payment? id = some p) X Q (f (some (patch.set p)))
        ((t.wrote (.markPayment id patch)).saw s₁) s₁)
    (miss : ∀ s₁ p, J s₁ → (t.view s₁).payment? id = some p → patch.accepts p = false →
      Prog.Safe D J X Q (f none) t s₁) :
    Prog.Safe D J X Q (Prog.bind (PaymentRepository.markConditional id patch) f) t s := by
  refine safe_returning ?_ ?_
  · intro s₁ _ hj₁ hh
    obtain ⟨p, hp⟩ := hrow s₁ hj₁
    have ha : patch.accepts p = true := by
      have : ((t.view s₁).payment? id).any patch.accepts = true := hh
      rwa [hp] at this
    have hheld : Key.row id ∈ (t.wrote (.markPayment id patch)).held :=
      List.mem_append_left _ List.mem_cons_self
    refine Prog.Safe.keep (fun s => (t.view s).payment? id = some p)
      (t.wrote (.markPayment id patch)).held (List.Subset.refl _) ?_ hj₁ hp ?_
    · intro s s' hr hj hj' h
      obtain ⟨p', hp', -, he⟩ := B.step (S.moves hr) hj hj' h
      rw [hp', he hheld]
    · refine Prog.Safe.query fun s₂ _ hj₂ => ?_
      have hrep : Table.Replaced (t.view s₂).payments
          (Table.updateWhere (t.view s₂).payments id patch.accepts patch.set) id p (patch.set p) :=
        .updateWhere ((S.wf hj₂.1).view t).paymentIds patch.id_set hj₂.2 ha
      have hread : ((t.wrote (.markPayment id patch)).view s₂).payment? id = some (patch.set p) := by
        rw [Tx.view_wrote]
        exact hrep.find_self
      rw [hread]
      exact hit s₂ p hj₂.1 hj₂.2 ha
  · intro s₁ _ hj₁ hm
    obtain ⟨p, hp⟩ := hrow s₁ hj₁
    refine miss s₁ p hj₁ hp ?_
    have : ((t.view s₁).payment? id).any patch.accepts = false := hm
    rwa [hp] at this

/-- The row of the payment stays visible. -/
def Visible (t : Tx Store Key Write) (id : Nat) (s : Store) : Prop :=
  ∃ p, (t.view s).payment? id = some p

theorem safe_keepVisible {A : Type} {Q : Tx Store Key Write → Store → A → Prop} (S : Setting D J X)
    {p : Payment} {prog : Sql A} (B : Base J t id) (hj : J s) (hp : (t.view s).payment? id = some p)
    (h : Prog.Safe D (fun s => J s ∧ Visible t id s) X Q prog t₁ s) : Prog.Safe D J X Q prog t₁ s := by
  refine Prog.Safe.keep (Visible t id) [] (by simp) ?_ hj ⟨p, hp⟩ h
  rintro s s' hr hj hj' ⟨q, hq⟩
  obtain ⟨q', hq', -⟩ := B.step (S.moves hr) hj hj' hq
  exact ⟨q', hq'⟩

theorem safe_keepPast {A : Type} {Q : Tx Store Key Write → Store → A → Prop} (S : Setting D J X)
    {prog : Sql A} (B : Base J t id) (hj : J s)
    (hp : Past t id s) (h : Prog.Safe D (fun s => J s ∧ Past t id s) X Q prog t₁ s) : Prog.Safe D J X Q prog t₁ s :=
  Prog.Safe.keep (Past t id) [] (by simp)
    (fun _ _ hr hj hj' h => B.keep_past (S.moves hr) hj hj' h) hj hp h

theorem safe_noted {A : Type} (S : Setting D J X) {prog : Sql A}
    (B : Base J t id) (hw : Prog.OnlyWrites Touch prog) (he : Tx.Extends Touch t t₁) (hj : J s)
    (hp : Past t id s) : Prog.Safe D J X (fun t' s' _ => Noted id t t' s') prog t₁ s :=
  safe_keepPast S B hj hp
    ((Prog.Safe.of_onlyWrites hw S.throws ⟨hj, hp⟩).mono fun _ _ _ hj' h => ⟨he.trans h.1, hj'.2⟩)

theorem onlyWrites_updateProviderPayload : Prog.OnlyWrites Touch (PaymentRepository.updateProviderPayload id) :=
  onlyWrites_returning ⟨id, rfl⟩

theorem extends_of_writes {P : Write → Prop} (hw : t'.writes = t.writes)
    (hh : t.held ⊆ t'.held) (hs : t.seen <+: t'.seen) : Tx.Extends P t t' :=
  ⟨⟨[], by simpa using hw, by simp⟩, hh, hs⟩

/-! ## The three observations -/

theorem safe_applyCompletedPayment (S : Setting D J X) (now : Int) (id : Nat)
    (verified : VerifyWebhookResult) (B : Base J t id) : Prog.Safe D J X
      (fun t' s' answer => Noted id t t' s' ∨ answer.id = id ∧
        ∃ p p' invoice paidSum flip, Completion D id t t' s' p p' invoice paidSum flip)
      (PaymentService.applyCompletedPayment now id verified) t s := by
  unfold PaymentService.applyCompletedPayment
  refine safe_observe S fun t₁ s₁ v₁ v₂ p hw hh hs hj₁ hp => ?_
  have he : Tx.Extends Touch t t₁ := extends_of_writes hw hh (hs ▸ List.prefix_append _ _)
  split
  · next hdone =>
    have hpast : Past t id s₁ := by
      refine ⟨p, hp, ?_⟩
      rcases hdone with h | h <;> rw [h] <;> rfl
    have hnone : Prog.OnlyWrites Touch (Prog.bind (PaymentRepository.updateProviderPayload id)
        fun touched => Prog.ret (touched.getD p)) := onlyWrites_updateProviderPayload.bind fun _ => trivial
    exact (safe_noted S B hnone he hj₁ hpast).mono fun _ _ _ _ h => .inl h
  · refine safe_keepVisible S B hj₁ hp ?_
    have S₁ := S.and (Visible t id)
    have B₁ := (B.and (Visible t id)).of_writes hw
    refine safe_markPayment S₁ B₁ (fun s hj => ?_) ?_ ?_
    · rw [view_of_writes_eq hw]
      exact hj.2
    · intro s₂ q hj₂ hq ha
      rw [view_of_writes_eq hw] at hq
      let patch := PaymentPatch.completed verified.providerPaymentId now
      let t₂ := (t₁.wrote (.markPayment id patch)).saw s₂
      have hw₂ : t₂.writes = t.writes ++ [.markPayment id patch] := by simp [t₂, hw]
      have htable : ∀ w ∈ t₂.writes, w.table = .payments := by
        intro w h
        rw [hw₂] at h
        rcases List.mem_append.1 h with h | h
        · exact B.writes w h
        · rw [List.mem_singleton.1 h]
          rfl
      refine (safe_settle (S₁.and _) htable now (patch.set q)).map ?_
      rintro t' s' _ ⟨hj', hq'⟩ ⟨invoice, paidSum, flip, hset⟩
      rw [view_of_writes_eq hw] at hq'
      have hid : (patch.set q).id = id := (patch.id_set q).trans (Table.id_of_find hq')
      refine .inr ⟨hid, q, ?_⟩
      have hmark : Table.Replaced (t.view s').payments (t₂.view s').payments id q (patch.set q) := by
        rw [view_of_writes hw₂]
        exact .updateWhere ((S.wf hj'.1).view t).paymentIds patch.id_set hq' ha
      have hmark' : Table.Replaced (t.view s').payments (t₂.view s').payments (patch.set q).id q
          (patch.set q) := by rwa [hid]
      obtain ⟨q', hrep, hflag⟩ := hset.payments hmark'
      rw [hid] at hrep
      refine ⟨q', invoice, paidSum, flip, ?_⟩
      exact
        { inFlight := ha
          payments := hrep
          step := (PaymentPatch.step ha).trans hflag.toStep
          status := hflag.same
          row := hset.held (List.mem_append_left _ List.mem_cons_self)
          settled := ⟨t₂, _, _, v₁, v₂, (t₁.wrote (.markPayment id patch)).view s₂, hw₂,
            by simp [t₂, hs], hset⟩ }
    · intro s₂ q hj₂ hq ha
      rw [view_of_writes_eq hw] at hq
      have hnone : Prog.OnlyWrites Touch (Prog.bind (PaymentRepository.findById id)
          fun after => require after (.paymentNotFound id)) := fun _ => onlyWrites_require
      exact (safe_noted S₁ (B.and _) hnone he hj₂ ⟨q, hq, ha⟩).mono fun _ _ _ _ h => .inl h

theorem Failure.of_parts {p : Payment}
    (hs : s.WF) (hp : (t.view s).payment? id = some p) (ha : p.status.inFlight = true)
    (hw : t₁.writes = t.writes ++ [.markPayment id .failed]) (he : Tx.Extends Notice t₁ t') :
    Failure id t t' s p where
  inFlight := ha
  payments := by
    rw [payments_of_extends he fun w h => h.table_ne (by decide), view_of_writes hw]
    exact .updateWhere (hs.view t).paymentIds (PaymentPatch.id_set .failed) hp ha
  writes := ⟨t₁, hw, he⟩

theorem safe_applyFailedPayment (S : Setting D J X) (id : Nat) (verified : VerifyWebhookResult) (B : Base J t id) :
    Prog.Safe D J X (fun t' s' _ => Noted id t t' s' ∨ ∃ p, Failure id t t' s' p)
      (PaymentService.applyFailedPayment id verified) t s := by
  unfold PaymentService.applyFailedPayment
  refine safe_observe S fun t₁ s₁ v₁ v₂ p hw hh hs hj₁ hp => ?_
  have he : Tx.Extends Touch t t₁ := extends_of_writes hw hh (hs ▸ List.prefix_append _ _)
  split
  · next hdone =>
    have hpast : Past t id s₁ := by
      refine ⟨p, hp, ?_⟩
      rcases hdone with h | h | h <;> rw [h] <;> rfl
    have hnone : Prog.OnlyWrites Touch (Prog.ret p : Sql Payment) := trivial
    exact (safe_noted S B hnone he hj₁ hpast).mono fun _ _ _ _ h => .inl h
  · refine safe_keepVisible S B hj₁ hp ?_
    have S₁ := S.and (Visible t id)
    have B₁ := (B.and (Visible t id)).of_writes hw
    refine safe_markPayment S₁ B₁ (fun s hj => ?_) ?_ ?_
    · rw [view_of_writes_eq hw]
      exact hj.2
    · intro s₂ q hj₂ hq ha
      have hnote : ∀ n, Prog.OnlyWrites Notice (Prog.bind (notify n) fun _ =>
          Prog.ret (PaymentPatch.failed.set q)) := fun n =>
        (onlyWrites_notify ⟨_, rfl⟩).bind fun _ => trivial
      refine (Prog.Safe.of_onlyWrites (hnote _) S.throws ⟨hj₂, hq⟩).mono ?_
      rintro t' s' _ ⟨hj', hq'⟩ ⟨hext, -⟩
      rw [view_of_writes_eq hw] at hq'
      exact .inr ⟨q, .of_parts (S.wf hj'.1) hq' ha (by simp [hw]) hext⟩
    · intro s₂ q hj₂ hq ha
      rw [view_of_writes_eq hw] at hq
      have hnone : Prog.OnlyWrites Touch (Prog.bind (PaymentRepository.findById id)
          fun after => require after (.paymentNotFound id)) := fun _ => onlyWrites_require
      exact (safe_noted S₁ (B.and _) hnone he hj₂ ⟨q, hq, ha⟩).mono fun _ _ _ _ h => .inl h

theorem safe_applyProviderObservation (S : Setting D J X) (id : Nat) :
    Prog.Safe D J X (fun t' _ _ => Tx.Extends Touch t t')
      (PaymentService.applyProviderObservation id) t s := by
  unfold PaymentService.applyProviderObservation
  refine safe_observe S fun t₁ s₁ v₁ v₂ p hw hh hs hj₁ _ => ?_
  have he : Tx.Extends Touch t t₁ := extends_of_writes hw hh (hs ▸ List.prefix_append _ _)
  have hnone : Prog.OnlyWrites Touch (if p.status = .initiated ∨ p.status = .processing then
      Prog.bind (PaymentRepository.updateProviderPayload id) fun touched => Prog.ret (touched.getD p)
      else Prog.ret p) := by
    split
    · exact onlyWrites_updateProviderPayload.bind fun _ => trivial
    · trivial
  exact (Prog.Safe.of_onlyWrites hnone S.throws hj₁).mono fun _ _ _ _ h => he.trans h.1

/-- What an observation does, by what it says.  The pollers take everything but a failure
for a completion. -/
inductive Delivered (D : Discipline Store Key Write) (entry : Entry) (status : ProviderStatus)
    (id : Nat) (t : Tx Store Key Write) (s : Store) : Prop
  | noted (h : Noted id .start t s)
  | completed (p p' : Payment) (invoice : Invoice) (paidSum : Int) (flip : Option InvoiceFlip)
      (hs : status ≠ .failed) (hp : status = .processing → entry ≠ .processWebhook)
      (h : Completion D id .start t s p p' invoice paidSum flip)
  | failed (p : Payment) (hs : status = .failed) (h : Failure id .start t s p)
  | processing (hs : status = .processing) (he : entry = .processWebhook)
      (h : Tx.Extends Touch .start t)

theorem safe_deliver (S : Setting D J X) (now : Int) (id : Nat) (verified : VerifyWebhookResult) (entry : Entry) :
    Prog.Safe D J X (fun t s _ => Delivered D entry verified.status id t s)
      (deliver now id verified entry) .start s := by
  have B : Base J (.start : Tx Store Key Write) id := .of_start J id rfl
  have failed : verified.status = .failed → Prog.Safe D J X
      (fun t s _ => Delivered D entry verified.status id t s)
      (PaymentService.applyFailedPayment id verified) .start s := by
    intro hf
    refine (safe_applyFailedPayment S id verified B).mono ?_
    rintro t' s' _ _ (h | ⟨p, h⟩)
    · exact .noted h
    · exact .failed p hf h
  have completed : verified.status ≠ .failed →
      (verified.status = .processing → entry ≠ .processWebhook) → Prog.Safe D J X
      (fun t s _ => Delivered D entry verified.status id t s)
      (PaymentService.applyCompletedPayment now id verified) .start s := by
    intro hf hp
    refine (safe_applyCompletedPayment S now id verified B).mono ?_
    rintro t' s' _ _ (h | ⟨-, p, p', invoice, paidSum, flip, h⟩)
    · exact .noted h
    · exact .completed p p' invoice paidSum flip hf hp h
  have poller : entry ≠ .processWebhook → Prog.Safe D J X
      (fun t s _ => Delivered D entry verified.status id t s)
      (PaymentService.settleFromKaspiPoller now id verified) .start s := by
    intro he
    unfold PaymentService.settleFromKaspiPoller
    split
    · next hf => exact failed hf
    · next hf => exact completed hf fun _ => he
  cases entry with
  | processWebhook =>
    show Prog.Safe D J X _ (PaymentService.processWebhook now id verified) _ _
    unfold PaymentService.processWebhook
    split
    · next hf => exact failed hf
    · next hf =>
      split
      · next hp =>
        exact (safe_applyProviderObservation S id).mono fun _ _ _ _ h => .processing hp rfl h
      · next hp => exact completed hf fun h => absurd h hp
  | settleFromKaspiPoller => exact poller (by decide)
  | settleFromBccReconciliation => exact poller (by decide)

end Billing
