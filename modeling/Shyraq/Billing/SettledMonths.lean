import Shyraq.Billing.Superseding

/-!
# The hook in both settlement paths

Webhook, pollers, `initiate` and cash: whichever transaction marks a prepayment `paid` has
superseded the monthlies of its window by the time it commits.
-/

namespace Billing

open Kernel Transactions

variable {D : Discipline Store Key Write} {J : Store → Prop} {X : BillingError → Prop}
  {old : Nat → Prop} {t t' : Tx Store Key Write} {s s' : Store}

/-- Marks nothing as `paid`. -/
def Quiet (w : Write) : Prop := ∀ id, w ≠ .markInvoice id .paid

theorem Quiet.of_table {w : Write} (h : w.table ≠ .invoices) : Quiet w := by
  rintro id rfl
  exact h rfl

/-- The prepayments that the transaction marks as `paid` have superseded their monthlies. -/
def Supersedes (old : Nat → Prop) (t : Tx Store Key Write) (s : Store) : Prop :=
  ∀ id, .markInvoice id .paid ∈ t.writes → ∃ p, s.invoice? id = some p ∧
    (p.invoiceType.isPrepayment = true → p.Anchored ∧ Superseded old p t s)

theorem supersedes_of_quiet (h : ∀ w ∈ t.writes, Quiet w) : Supersedes old t s :=
  fun id hid => absurd rfl (h _ hid id)

theorem Supersedes.extends {P : Write → Prop} (hP : ∀ w, P w → Quiet w) (h : Supersedes old t s)
    (he : Tx.Extends P t t') : Supersedes old t' s := by
  intro id hid
  obtain ⟨ws, hw, hws⟩ := he.writes
  rw [hw] at hid
  rcases List.mem_append.1 hid with hid | hid
  · obtain ⟨p, hp, hsup⟩ := h id hid
    exact ⟨p, hp, fun ht => ⟨(hsup ht).1, (hsup ht).2.extends he⟩⟩
  · exact absurd rfl (hP _ (hws _ hid) id)

theorem Superseded.of_step {p p' : Invoice} (h : Superseded old p t s) (hs : Invoice.Step p p') :
    Superseded old p' t s := by
  have hlocked : p'.lockedMonths = p.lockedMonths := by
    unfold Invoice.lockedMonths
    rw [hs.1]
  refine ⟨hlocked ▸ h.locked, fun i m hi ho => h.closed i m hi ⟨ho.monthly, ?_, ho.aligned, ?_⟩⟩
  · rw [ho.child, hs.1]
  · exact (hs.covers m.periodStart).1 ho.covered

theorem keep_supersedes (hm : MonthMoves t.held s s') (h : Supersedes old t s) : Supersedes old t s' := by
  intro id hid
  obtain ⟨p, hp, hsup⟩ := h id hid
  obtain ⟨p', hp', hs, -⟩ := hm.invoices.row id p hp
  refine ⟨p', hp', fun ht => ?_⟩
  have ht' : p.invoiceType.isPrepayment = true := by
    rwa [hs.1] at ht
  obtain ⟨ha, h⟩ := hsup ht'
  exact ⟨Anchored.of_step ha hs, (keep_superseded ha (List.Subset.refl _) hm h).of_step hs⟩

theorem safe_quiet {A : Type} {p : Sql A} (M : MonthSetting D J X old) (hj : J s)
    (hq : Prog.OnlyWrites Quiet p) (h : Supersedes old t s) :
    Prog.Safe D J X (fun t' s' _ => Supersedes old t' s') p t s := by
  refine Prog.Safe.keep (Supersedes old t) t.held (List.Subset.refl _)
    (fun _ _ hr _ _ h => keep_supersedes (M.months hr) h) hj h ?_
  refine (Prog.Safe.of_onlyWrites hq M.throws ⟨hj, h⟩).mono fun t' s' _ hj' he => ?_
  exact hj'.2.extends (fun _ h => h) he.1

/-! ## What marks nothing -/

theorem quiet_moveBalance (accountId : Nat) (amount delta : Int) (error : String) :
    Prog.OnlyWrites Quiet (PaymentAccountService.moveBalance accountId amount delta error) :=
  onlyWrites_moveBalance fun _ _ _ => by simp

theorem quiet_announceCompleted (now : Int) (p : Payment) (invoice : Invoice) (paidSum : Int) :
    Prog.OnlyWrites Quiet (PaymentService.announceCompleted now p invoice paidSum) :=
  onlyWrites_announceCompleted.mono fun w h => .of_table (h.table_ne (by decide))

theorem quiet_recordCash (now : Int) (input : InvoiceService.ManualMarkPaidInput) (invoice : Invoice)
    (amount : Int) (credit : Option Int) :
    Prog.OnlyWrites Quiet (InvoiceService.recordCash now input invoice amount credit) :=
  onlyWrites_recordCash (fun p id => by simp) (fun i b id => by simp) fun n _ id => by simp

theorem quiet_recordPartialCashPayment (now : Int) (invoice : Invoice) (amount : Int)
    (input : InvoiceService.ManualMarkPaidInput) :
    Prog.OnlyWrites Quiet (InvoiceService.recordPartialCashPayment now invoice amount input) :=
  (onlyWrites_flipPartial fun id => by simp).bind fun _ => (quiet_recordCash _ _ _ _ _).bind fun _ => trivial

theorem quiet_applyFailedPayment (id : Nat) (verified : VerifyWebhookResult) :
    Prog.OnlyWrites Quiet (PaymentService.applyFailedPayment id verified) :=
  onlyWrites_applyFailedPayment (fun patch id => by simp) fun n _ id => by simp

/-! ## The hook -/

theorem Superseded.of_status {p : Invoice} {st st' : InvoiceStatus}
    (h : Superseded old { p with status := st } t s) : Superseded old { p with status := st' } t s :=
  ⟨h.locked, fun i m hi ho => h.closed i m hi ⟨ho.monthly, ho.child, ho.aligned, ho.covered⟩⟩

/-- The hook over a prepayment that this transaction has marked, as the caller has its row. -/
theorem safe_hook (M : MonthSetting D J X old) {invoice : Invoice} (st : InvoiceStatus)
    (hpre : invoice.invoiceType.isPrepayment = true) (ha : invoice.Anchored)
    (hthere : ∀ s, J s → StillThere invoice s) (hinserts : ∀ w ∈ t.writes, ∀ i, w ≠ .insertInvoice i)
    (hmarks : ∀ i f, .markInvoice i f ∈ t.writes → i = invoice.id)
    (hmoney : ∀ s, J s → ∀ i, i ≠ invoice.id → (t.view s).hasMoney i = true → s.hasMoney i = true) :
    Prog.Safe D J X (fun t' s' _ => Supersedes old t' s')
      (cancelCoveredMonthlies { invoice with status := st }) t s := by
  have settled : JustSettled J { invoice with status := st } t := by
    refine ⟨hinserts, hmarks, fun s hj m hm hmonthly => ?_, hmoney⟩
    obtain ⟨i, hi, hs⟩ := hthere s hj
    obtain rfl := Option.some.inj (hi.symm.trans hm)
    rw [hs.1] at hmonthly
    have hmonthly : invoice.invoiceType = .monthly := hmonthly
    rw [hmonthly] at hpre
    cases hpre
  refine (safe_supersede M (p := { invoice with status := st }) ha settled).mono ?_
  rintro t' s' _ hj' ⟨⟨ids, hvoid⟩, hsup⟩ id hmem
  obtain ⟨i, hi, hs⟩ := hthere s' hj'
  have hid : id = invoice.id := by
    obtain ⟨ws, he, hv⟩ := hvoid.writes
    rw [he] at hmem
    rcases List.mem_append.1 hmem with hmem | hmem
    · exact hmarks _ _ hmem
    · rcases hv _ hmem with ⟨n, h⟩ | ⟨j, h⟩ | ⟨j, -, h⟩ <;> cases h
  refine ⟨i, hid ▸ hi, fun _ => ⟨Anchored.of_step ha hs, ?_⟩⟩
  rw [hs.1]
  exact hsup.of_status

/-! ## Settlement through a provider -/

/-- The settlement of a payment, in a transaction that has written payments only, and whose
own money is for that invoice. -/
theorem safe_settleMonths (M : MonthSetting D J X old) (hw : ∀ w ∈ t.writes, w.table = .payments)
    (p : Payment) (hmoney : ∀ s, J s → ∀ i, i ≠ p.invoiceId → (t.view s).hasMoney i = true →
      s.hasMoney i = true) (now : Int) :
    Prog.Safe D J X (fun t' s' _ => Supersedes old t' s') (PaymentService.settle now p) t s := by
  have hinv : ∀ s, (t.view s).invoices = s.invoices :=
    invoices_of_start fun w h => by rw [hw w h]; decide
  unfold PaymentService.settle
  refine Prog.Safe.query fun s₁ _ hj₁ => safe_require M.throws fun invoice hi => ?_
  have hi₁ : Table.find s₁.invoices p.invoiceId = some invoice := by
    rw [← hinv]
    exact hi
  have hid : invoice.id = p.invoiceId := Table.id_of_find hi₁
  have hthere : StillThere invoice s₁ := ⟨invoice, by rw [hid]; exact hi₁, .refl _⟩
  refine Prog.Safe.keep (StillThere invoice) [] (by simp)
    (fun _ _ hr _ _ h => keep_stillThere (M.moves hr) h) hj₁ hthere ?_
  have M₁ := M.and (StillThere invoice)
  refine Prog.Safe.query fun v _ hv => ?_
  refine Prog.Safe.bind hv ((safe_flipInvoice M₁.toSetting hv (fun s => ?_) p invoice _ hv.2).mono
    fun t₁ s₂ res hj₂ h => ?_)
  · rw [Tx.view_saw, Tx.view_saw, hinv]
  obtain ⟨flip, hres, hflip⟩ := h
  obtain ⟨tf, hfw, hext⟩ := hflip.writes
  -- what is marked so far
  have hmarks : ∀ i f, .markInvoice i f ∈ t₁.writes → i = invoice.id ∧ flip = some f := by
    intro i f hmem
    obtain ⟨ws, he, hn⟩ := hext.writes
    rw [he, hfw] at hmem
    rcases List.mem_append.1 hmem with hmem | hmem
    · rcases List.mem_append.1 hmem with hmem | hmem
      · have := hw _ hmem
        cases this
      · cases flip with
        | none => cases hmem
        | some g =>
          have he := List.mem_singleton.1 hmem
          injection he with h₁ h₂
          exact ⟨h₁, congrArg some h₂.symm⟩
    · obtain ⟨n, h⟩ := hn _ hmem
      cases h
  have hinserts : ∀ w ∈ t₁.writes, ∀ i, w ≠ .insertInvoice i := by
    obtain ⟨ws, he, hn⟩ := hext.writes
    intro w hmem i
    rw [he, hfw] at hmem
    rcases List.mem_append.1 hmem with hmem | hmem
    · rcases List.mem_append.1 hmem with hmem | hmem
      · rintro rfl
        have := hw _ hmem
        cases this
      · obtain ⟨g, rfl⟩ := table_of_flipWrites hmem
        simp
    · obtain ⟨n, rfl⟩ := hn _ hmem
      simp
  -- the hook, where the flip calls for it
  have hook : Prog.Safe D (fun s => J s ∧ StillThere invoice s) X (fun t' s' _ => Supersedes old t' s')
      (PaymentService.cancelIfPrepayment res invoice) t₁ s₂ := by
    unfold PaymentService.cancelIfPrepayment
    split
    · next hpre =>
      obtain ⟨hsome, hpre⟩ := hpre
      have hpaid : flip = some .paid := hres.1 hsome
      have hanchored : invoice.Anchored := by
        obtain ⟨i, hi, hs, hk⟩ := hflip.row
        rw [hpaid] at hk
        have ha := M.anchorage hj₂.1 _ i hi (by rw [hs.1]; exact hpre) hk.1
        rw [hs.1] at ha
        exact ha
      refine safe_hook M₁ invoice.status hpre hanchored (fun s h => h.2) hinserts
        (fun i f hmem => (hmarks i f hmem).1) fun s hj i hi hhas => hmoney s hj.1 i (hid ▸ hi) ?_
      rw [hasMoney_congr] at hhas
      · exact hhas
      · rw [payments_of_extends hext fun w h => h.table_ne (by decide), view_of_writes hfw]
        cases flip <;> rfl
    · next hpre =>
      rintro s₃ hr hj₃ id hmem
      obtain ⟨hidi, hpaid⟩ := hmarks _ _ hmem
      obtain ⟨i, hi, hs⟩ := hj₃.2
      refine ⟨i, hidi ▸ hi, fun ht => absurd ⟨hres.2 hpaid, ?_⟩ hpre⟩
      rw [hs.1] at ht
      exact ht
  refine Prog.Safe.bind hj₂ (hook.mono fun t₂ s₃ _ hj₃ hsup => ?_)
  have hrest : Prog.OnlyWrites Quiet (Prog.bind
      (PaymentAccountService.creditFromPayment invoice.paymentAccountId p.amount)
      fun _ => PaymentService.announceCompleted now p invoice ((Tx.view (t.saw s₁) v).paidSum p.invoiceId)) :=
    (quiet_moveBalance _ _ _ _).bind fun _ => quiet_announceCompleted _ _ _ _
  exact safe_quiet M₁ hj₃ hrest hsup

/-- A completed payment in the transaction is one that was committed, or the one it completes. -/
theorem hasMoney_of_completed {id i : Nat} {q : Payment} {txn : Nat} {paidAt : Int} (hs : s.WF)
    (hmoney : ∀ w ∈ t.writes, w.MakesNoMoney) (hq : (t.view s).payment? id = some q) (hi : i ≠ q.invoiceId)
    (h : ((t.view s).apply (.markPayment id (.completed txn paidAt))).hasMoney i = true) : s.hasMoney i = true := by
  refine hasMoney_of_view hmoney (t := t) ?_
  rw [hasMoney_iff] at h ⊢
  obtain ⟨r, hr, hinv, hstatus⟩ := h
  have hr : r ∈ Table.updateWhere (t.view s).payments id (PaymentPatch.completed txn paidAt).accepts
      (PaymentPatch.completed txn paidAt).set := hr
  obtain ⟨r₀, hr₀, rfl⟩ := List.mem_map.1 hr
  split at hinv
  · next hhit =>
    rw [Bool.and_eq_true, beq_iff_eq] at hhit
    have hfind := Table.find_of_mem (hs.view t).paymentIds hr₀
    rw [hhit.1] at hfind
    obtain rfl := Option.some.inj (hfind.symm.trans hq)
    exact absurd hinv.symm hi
  · next hhit =>
    rw [if_neg hhit] at hstatus
    exact ⟨r₀, hr₀, hinv, hstatus⟩

theorem safe_applyCompletedMonths (M : MonthSetting D J X old) (now : Int) (id : Nat)
    (verified : VerifyWebhookResult) (B : Base J t id) (hmoney : ∀ w ∈ t.writes, w.MakesNoMoney) :
    Prog.Safe D J X (fun t' s' _ => Supersedes old t' s')
      (PaymentService.applyCompletedPayment now id verified) t s := by
  have hquiet : ∀ {t₁ : Tx Store Key Write} {s₁}, t₁.writes = t.writes → Supersedes old t₁ s₁ := by
    intro t₁ s₁ hw
    refine supersedes_of_quiet fun w hmem => .of_table ?_
    rw [B.writes w (hw ▸ hmem)]
    decide
  unfold PaymentService.applyCompletedPayment
  refine safe_observe M.toSetting fun t₁ s₁ v₁ v₂ p hw hh hs hj₁ hp => ?_
  split
  · have hnone : Prog.OnlyWrites Quiet (Prog.bind (PaymentRepository.updateProviderPayload id)
        fun touched => Prog.ret (touched.getD p)) :=
      (onlyWrites_returning fun id => by simp).bind fun _ => trivial
    exact safe_quiet M hj₁ hnone (hquiet hw)
  · refine safe_keepVisible M.toSetting B hj₁ hp ?_
    have M₁ := M.and (Visible t id)
    have B₁ := (B.and (Visible t id)).of_writes hw
    refine safe_markPayment M₁.toSetting B₁ (fun s hj => ?_) ?_ ?_
    · rw [view_of_writes_eq hw]
      exact hj.2
    · intro s₂ q hj₂ hq ha
      let patch := PaymentPatch.completed verified.providerPaymentId now
      have htable : ∀ w ∈ ((t₁.wrote (.markPayment id patch)).saw s₂).writes, w.table = .payments := by
        intro w hmem
        rw [Tx.writes_saw, Tx.writes_wrote, hw] at hmem
        rcases List.mem_append.1 hmem with hmem | hmem
        · exact B.writes w hmem
        · rw [List.mem_singleton.1 hmem]
          rfl
      refine (safe_settleMonths (M₁.and _) htable (patch.set q) ?_ now).map fun _ _ _ _ h => h
      intro s hj i hi hhas
      rw [Tx.view_saw, Tx.view_wrote] at hhas
      exact hasMoney_of_completed (M.wf hj.1.1) (hw ▸ hmoney) hj.2 hi hhas
    · intro s₂ q hj₂ hq ha
      have hnone : Prog.OnlyWrites Quiet (Prog.bind (PaymentRepository.findById id)
          fun after => require after (.paymentNotFound id)) := fun _ => onlyWrites_require
      exact safe_quiet M₁ hj₂ hnone (hquiet hw)

theorem supersedes_start : Supersedes old .start s := fun _ h => nomatch h

theorem safe_deliverMonths (M : MonthSetting D J X old) (hj : J s) (now : Int) (id : Nat)
    (verified : VerifyWebhookResult) (entry : Entry) :
    Prog.Safe D J X (fun t' s' _ => Supersedes old t' s') (deliver now id verified entry) .start s := by
  have completed : Prog.Safe D J X (fun t' s' _ => Supersedes old t' s')
      (PaymentService.applyCompletedPayment now id verified) .start s :=
    safe_applyCompletedMonths M now id verified (.of_start J id rfl) (fun _ h => nomatch h)
  have failed := safe_quiet M hj (quiet_applyFailedPayment id verified) supersedes_start
  have poller : Prog.Safe D J X (fun t' s' _ => Supersedes old t' s')
      (PaymentService.settleFromKaspiPoller now id verified) .start s := by
    unfold PaymentService.settleFromKaspiPoller
    split
    · exact failed
    · exact completed
  cases entry with
  | processWebhook =>
    show Prog.Safe D J X _ (PaymentService.processWebhook now id verified) _ _
    unfold PaymentService.processWebhook
    split
    · exact failed
    · split
      · exact safe_quiet M hj (onlyWrites_applyProviderObservation fun id => by simp) supersedes_start
      · exact completed
  | settleFromKaspiPoller => exact poller
  | settleFromBccReconciliation => exact poller

theorem safe_initiateMonths (M : MonthSetting D J X old) (now : Int)
    (input : PaymentService.InitiatePaymentInput) (outcome : PaymentService.ProviderOutcome) :
    Prog.Safe D J X (fun t' s' _ => Supersedes old t' s')
      (PaymentService.initiate now input outcome) .start s := by
  have hrecall : ∀ {t₁ : Tx Store Key Write}, Tx.Extends Recall .start t₁ →
      ∀ w ∈ t₁.writes, Recall w := by
    intro t₁ he w hmem
    obtain ⟨ws, hw, hr⟩ := he.writes
    rw [hw] at hmem
    exact hr w (by simpa [Tx.start] using hmem)
  refine safe_initiating M.toSetting now input outcome (fun t' s' _ he _ => ?_) ?_
  · exact supersedes_of_quiet fun w hmem => .of_table ((hrecall he w hmem).table_ne (by decide))
  rintro invoice t₁ s₁ p - hrec ⟨id, hnew⟩ hj₁ hthere hf
  have hst : p.status = .initiated := by
    rw [hnew]
    rfl
  have M₁ := (M.and (StillThere invoice)).and (Fresh t₁ p)
  have hj : (J s₁ ∧ StillThere invoice s₁) ∧ Fresh t₁ p s₁ := ⟨⟨hj₁, hthere⟩, hf⟩
  have B : Base (fun s => (J s ∧ StillThere invoice s) ∧ Fresh t₁ p s) (t₁.wrote (.insertPayment p)) p.id :=
    Fresh.base hrec
  have hquiet : Supersedes old (t₁.wrote (.insertPayment p)) s₁ :=
    supersedes_of_quiet fun w hmem => .of_table (by rw [B.writes w hmem]; decide)
  by_cases hout : ∃ txn, outcome = .completed txn
  · obtain ⟨txn, rfl⟩ := hout
    refine safe_applyCompletedMonths M₁ now p.id ⟨txn, .completed, none⟩ B fun w hmem => ?_
    rcases List.mem_append.1 hmem with hmem | hmem
    · obtain ⟨i, rfl⟩ := hrecall hrec w hmem
      trivial
    · rw [List.mem_singleton.1 hmem]
      show p.status ≠ .completed
      rw [hst]
      decide
  · refine safe_quiet M₁ hj ((onlyWrites_afterProviderCall fun txn h => hout ⟨txn, h⟩).mono ?_) hquiet
    rintro w (rfl | ⟨txn, rfl⟩ | ⟨nextAt, rfl⟩) <;> exact .of_table (by simp [Write.table])

/-! ## Settlement in cash -/

theorem safe_recordFullMonths (M : MonthSetting D J X old) (ht : t.writes = []) (now : Int)
    (invoice : Invoice) (residual : Int) (input : InvoiceService.ManualMarkPaidInput)
    (hthere : ∀ s, J s → StillThere invoice s) : Prog.Safe D J X (fun t' s' _ => Supersedes old t' s')
      (InvoiceService.recordFullCashPayment now invoice.id residual input) t s := by
  have hv : ∀ s, t.view s = s := fun s => Tx.view_of_unwritten ht s
  unfold InvoiceService.recordFullCashPayment
  refine safe_flip 0 M.toSetting (fun s => by rw [hv]) hthere ?_ ?_
  · intro s₁ i hj₁ hf₁ hstep ha
    let t₁ := (t.wrote (.markInvoice invoice.id .paid)).saw s₁
    let updated := InvoiceFlip.paid.set i
    have hwrites : t₁.writes = [.markInvoice invoice.id .paid] := by
      show t.writes ++ _ = _
      rw [ht]
      rfl
    have M₁ := M.and (Flipped (t.wrote (.markInvoice invoice.id .paid)).held invoice 0 (some .paid))
    -- the row that flipped, as it is committed
    have hrow : ∀ s, Flipped (t.wrote (.markInvoice invoice.id .paid)).held invoice 0 (some .paid) s →
        ∃ r, s.invoice? invoice.id = some r ∧ Invoice.Step invoice r ∧ r.status.unpaid = true := by
      rintro s ⟨r, hr, hs, hk⟩
      exact ⟨r, hr, hs, hk.1⟩
    have hook : Prog.Safe D (fun s => J s ∧
        Flipped (t.wrote (.markInvoice invoice.id .paid)).held invoice 0 (some .paid) s) X
        (fun t' s' _ => Supersedes old t' s') (InvoiceService.cancelIfPrepayment updated) t₁ s₁ := by
      unfold InvoiceService.cancelIfPrepayment
      split
      · next hpre =>
        have hpre' : invoice.invoiceType.isPrepayment = true := by
          have : i.invoiceType.isPrepayment = true := hpre
          rwa [hstep.1] at this
        have hanchored : invoice.Anchored := by
          obtain ⟨r, hr, hs, hu⟩ := hrow s₁ hf₁
          have ha := M.anchorage hj₁ _ r hr (by rw [hs.1]; exact hpre') hu
          rw [hs.1] at ha
          exact ha
        have hupdated : updated = { invoice with status := .paid } := by
          show { i with status := .paid } = _
          rw [hstep.1]
        rw [hupdated]
        refine safe_hook M₁ .paid hpre' hanchored (fun s h => hthere s h.1) (fun w hmem j => ?_)
          (fun j f hmem => ?_) fun s _ j _ hhas => ?_
        · rw [hwrites] at hmem
          rw [List.mem_singleton.1 hmem]
          simp
        · rw [hwrites] at hmem
          have he := List.mem_singleton.1 hmem
          injection he
        · refine hasMoney_of_view (t := t₁) (fun w hmem => ?_) hhas
          rw [hwrites] at hmem
          rw [List.mem_singleton.1 hmem]
          trivial
      · next hpre =>
        intro s₂ _ hj₂ id hmem
        rw [hwrites] at hmem
        have he := List.mem_singleton.1 hmem
        injection he with h₁ h₂
        obtain ⟨r, hr, hs, -⟩ := hrow s₂ hj₂.2
        refine ⟨r, h₁ ▸ hr, fun htype => absurd ?_ hpre⟩
        show i.invoiceType.isPrepayment = true
        rw [hs.1] at htype
        rw [hstep.1]
        exact htype
    refine Prog.Safe.bind ⟨hj₁, hf₁⟩ (hook.mono fun t₂ s₂ _ hj₂ hsup => ?_)
    have hrest : Prog.OnlyWrites Quiet (Prog.bind (InvoiceService.recordResidual now input updated residual)
        fun _ => Prog.bind (notify (.invoicePaid updated.id updated.childId updated.amountAfterDiscount
          (input.paidAt.getD now))) fun _ => Prog.ret updated) := by
      refine Prog.OnlyWrites.bind ?_ fun _ => (onlyWrites_notify fun id => by simp).bind fun _ => trivial
      unfold InvoiceService.recordResidual
      split <;> exact quiet_recordCash _ _ _ _ _
    exact safe_quiet M₁ hj₂ hrest hsup
  · intro s₁ i _ _ _ _ _ s₂ _ _
    exact M.throws _

theorem safe_manualMarkPaidMonths (M : MonthSetting D J X old) (now : Int) (invoiceId : Nat)
    (input : InvoiceService.ManualMarkPaidInput) : Prog.Safe D J X (fun t' s' _ => Supersedes old t' s')
      (InvoiceService.manualMarkPaid now invoiceId input) .start s := by
  unfold InvoiceService.manualMarkPaid
  refine Prog.Safe.query fun s₁ _ hj₁ => safe_require M.throws fun invoice hi => ?_
  have hid : invoice.id = invoiceId := Table.id_of_find hi
  have hthere : StillThere invoice s₁ := ⟨invoice, by rw [hid]; exact hi, .refl _⟩
  refine Prog.Safe.keep (StillThere invoice) [] (by simp)
    (fun _ _ hr _ _ h => keep_stillThere (M.moves hr) h) hj₁ hthere ?_
  have M₁ := M.and (StillThere invoice)
  refine safe_lockPrepaymentOf ⟨hj₁, hthere⟩ fun t₁ s₂ hw _ _ _ _ hj₂ => ?_
  refine Prog.Safe.query fun v _ hv => ?_
  have full := fun residual => safe_recordFullMonths M₁ (t := t₁.saw v) (s := v) hw now invoice residual input
    fun s h => h.2
  unfold InvoiceService.receiveCash
  cases input.amount with
  | none => exact full _
  | some amount =>
    unfold InvoiceService.checkCashAmount
    simp only [Prog.bind_eq, Prog.bind_assoc]
    refine safe_guardOr M.throws fun _ => safe_guardOr M.throws fun _ => safe_guardOr M.throws fun _ => ?_
    split
    · exact full _
    · refine safe_quiet M₁ hv (quiet_recordPartialCashPayment _ _ _ _) ?_
      refine supersedes_of_quiet fun w hmem => ?_
      rw [Tx.writes_saw, hw] at hmem
      cases hmem

end Billing
