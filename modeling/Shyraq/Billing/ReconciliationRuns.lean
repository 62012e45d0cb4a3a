import Shyraq.Billing.Reconciling

/-!
# Runs of reconciliation ticks

What each tick ends with, beside any other ticks, initiates and settlements; and when two of them never hold the claim of
one payment at once.
-/

namespace Billing

open Kernel Transactions

/-- A tick claims for the time of one lease, and lets go only of what it has claimed, before the hard cap. -/
def Orderly (d : ReconciliationDelays) (before : List TickCommit) (c : TickCommit) : Prop :=
  match c.op with
  | .claim _ now leaseUntil => leaseUntil = now + d.max
  | .reschedule payment hardCapAt now =>
      now < hardCapAt ∧ ∃ e ∈ before, claim? e = some ⟨payment, now, now + d.max⟩
  | _ => True

/-- Committed stores are well formed, and no BCC payment under way is out of track. -/
def reconciliation (d : ReconciliationDelays) (s : Store) :
    Contract Store Key Write BillingError TickOp TickAnswer where
  prog := TickOp.prog d
  s₀ := s
  D := careful
  J s := s.WF ∧ AllTracked s
  X _ := True
  Q op t s a := TickEffect d op t s a ∧ ∀ w ∈ t.writes, Covered t.held w
  Ok := Orderly d

section

variable {d : ReconciliationDelays} {s₀ : Store} {l l' : List TickCommit} {A B R : Type}
  {Post : List TickCommit → R → Prop}

theorem onward_later (h : Later (reconciliation d s₀) l l') :
    Onward ((reconciliation d s₀).after l) ((reconciliation d s₀).after l') :=
  h.rel Onward.refl (fun _ _ _ h h' => h.trans h') fun _ _ _ hQ => hQ.1.onward

/-! ## The calls of a tick -/

/-- What a tick knows of a row that it has read. -/
def ReadBetween (s s' : Store) (id : Nat) (o : Option Payment) : Prop :=
  ∃ v : Store, AllTracked v ∧ v.WF ∧ Onward s v ∧ Onward v s' ∧ o = v.payment? id

theorem safe_call (d : ReconciliationDelays) (s₀ : Store) (op : TickOp) (hop : ∀ o, op = .billing o → op.ordinary = true) (s : Store) :
    ((reconciliation d s₀).prog op).Safe careful (reconciliation d s₀).J (fun _ => True)
      ((reconciliation d s₀).Q op) .start s := by
  have hcovered : Prog.Safe careful (reconciliation d s₀).J (fun _ => True) (fun t _ _ => ∀ w ∈ t.writes, Covered t.held w)
      (op.prog d) .start s :=
    Prog.Safe.of_eachWrite covered_mono (covered_tick op hop _) (fun _ => trivial) fun w hw => absurd hw List.not_mem_nil
  exact (safe_tick (fun s h => h.1) op hop).and hcovered

theorem safe_find {id : Nat} {f : Option Payment → Tick R} (h : ∀ l' o, Later (reconciliation d s₀) l l' →
      ReadBetween ((reconciliation d s₀).after l) ((reconciliation d s₀).after l') id o →
      (f o).Safe (reconciliation d s₀) Post l') :
    Flow.Safe (reconciliation d s₀) Post (Flow.bind (BccReconciliationService.paymentOr (.find id)) f) l := by
  intro l₁ hl₁
  refine ⟨safe_call d s₀ _ (fun o he => by cases he) _, fun t s a => ∃ o, a = .payment o ∧
    ReadBetween ((reconciliation d s₀).after l₁) s id o, ?_, fun l₂ hl₂ => ⟨trivial, fun c hop hQ hP => ⟨?_, fun hlater => ?_⟩⟩⟩
  · intro s₁ hr₁ hj₁ s₂ hr₂ hj₂
    exact ⟨_, rfl, s₁, hj₁.2, hj₁.1, hr₁.2, hr₂.2, rfl⟩
  · show Orderly d l₂ c
    unfold Orderly
    rw [hop]
    trivial
  · obtain ⟨o, ho, v, htracked, hwf, hbefore, hafter, hread⟩ := hP
    rw [ho]
    refine h _ o (hl₁.trans (hl₂.trans hlater)) ⟨v, htracked, hwf, (onward_later hl₁).trans hbefore, ?_, hread⟩
    exact hafter.trans (onward_later hlater)

theorem safe_claimCall {id : Nat} {now : Int} {f : Option Payment → Tick R}
    (missed : ∀ l', Later (reconciliation d s₀) l l' → (f none).Safe (reconciliation d s₀) Post l')
    (claimed : ∀ l' q, Later (reconciliation d s₀) l l' → q.id = id →
      (∃ e ∈ l', claim? e = some ⟨q, now, now + d.max⟩) → (f (some q)).Safe (reconciliation d s₀) Post l') :
    Flow.Safe (reconciliation d s₀) Post
      (Flow.bind (BccReconciliationService.paymentOr (.claim id now (now + d.max))) f) l := by
  intro l₁ hl₁
  have hsafe := safe_call d s₀ (.claim id now (now + d.max)) (fun o he => by cases he)
    ((reconciliation d s₀).after l₁)
  refine ⟨hsafe, _, hsafe, fun l₂ hl₂ => ⟨trivial, ?_⟩⟩
  rintro ⟨op, t, a⟩ hop ⟨hQ, -⟩ -
  obtain rfl : op = .claim id now (now + d.max) := hop
  refine ⟨rfl, fun hlater => ?_⟩
  have hl := hl₁.trans (hl₂.trans hlater)
  cases hQ with
  | unclaimed => exact missed _ hl
  | claimed p hw hrow hdue =>
    have hid : p.id = id := Table.id_of_find hrow
    exact claimed _ _ hl hid ⟨_, List.mem_append_right _ List.mem_cons_self, rfl⟩

theorem safe_rescheduleCall {payment : Payment} {hardCapAt now : Int} {f : Bool → Tick R} (hcap : now < hardCapAt)
    (hclaim : ∃ e ∈ l, claim? e = some ⟨payment, now, now + d.max⟩)
    (h : ∀ l' b, Later (reconciliation d s₀) l l' → (f b).Safe (reconciliation d s₀) Post l') :
    Flow.Safe (reconciliation d s₀) Post
      (Flow.bind (BccReconciliationService.flagOr (.reschedule payment hardCapAt now)) f) l := by
  intro l₁ hl₁
  have hsafe := safe_call d s₀ (.reschedule payment hardCapAt now) (fun o he => by cases he)
    ((reconciliation d s₀).after l₁)
  refine ⟨hsafe, _, hsafe, fun l₂ hl₂ => ⟨trivial, ?_⟩⟩
  rintro ⟨op, t, a⟩ hop ⟨hQ, -⟩ -
  obtain rfl : op = .reschedule payment hardCapAt now := hop
  refine ⟨⟨hcap, ?_⟩, fun hlater => ?_⟩
  · obtain ⟨e, he, hclaim⟩ := hclaim
    exact ⟨e, (hl₁.trans hl₂).1.subset he, hclaim⟩
  · cases hQ
    exact h _ _ (hl₁.trans (hl₂.trans hlater))

theorem closed_of_unschedulable {p : Payment} (htracked : p.tracked = true) (hbcc : p.provider = .bcc)
    (hno : Store.bccSchedulable p = false) : p.closed = true := by
  by_contra hopen
  have hmanual : p.manualReviewRequiredAt = none := by
    unfold Payment.closed at hopen
    cases hm : p.manualReviewRequiredAt with
    | none => rfl
    | some at_ =>
      rw [hm] at hopen
      simp at hopen
  have hstatus : p.status = .processing := by
    by_contra hs
    exact hopen (closed_of_tracked htracked fun h => hs h.1)
  cases (schedulable_iff.2 ⟨hbcc, hstatus, hmanual⟩).symm.trans hno

/-- The payment is a BCC one, of which this is known. -/
def RowClosed (s : Store) (id : Nat) : Prop := ∃ p, s.payment? id = some p ∧ p.closed = true

theorem RowClosed.onward {s s' : Store} {id : Nat} (h : RowClosed s id) (ho : Onward s s') : RowClosed s' id := by
  obtain ⟨p, hp, hclosed⟩ := h
  obtain ⟨p', hp', honward⟩ := ho id p hp
  exact ⟨p', hp', honward.2 hclosed⟩

theorem safe_manualReviewCall {id : Nat} {now : Int} {f : Bool → Tick R}
    (h : ∀ l' b, Later (reconciliation d s₀) l l' →
      (∀ p, ((reconciliation d s₀).after l).payment? id = some p → p.provider = .bcc →
        RowClosed ((reconciliation d s₀).after l') id) → (f b).Safe (reconciliation d s₀) Post l') :
    Flow.Safe (reconciliation d s₀) Post (Flow.bind (BccReconciliationService.flagOr (.manualReview id now)) f) l := by
  intro l₁ hl₁
  have hsafe := safe_call d s₀ (.manualReview id now) (fun o he => by cases he)
    ((reconciliation d s₀).after l₁)
  refine ⟨hsafe, fun t s _ => ∀ p, ((reconciliation d s₀).after l₁).payment? id = some p → p.provider = .bcc →
    RowClosed (t.view s) id, ?_, fun l₂ hl₂ => ⟨trivial, ?_⟩⟩
  · intro s₁ hr₁ hj₁
    constructor
    · intro _ s₂ hr₂ hj₂ p hp hbcc
      obtain ⟨p₂, hp₂, hstep⟩ := (hr₁.2.trans hr₂.2) id p hp
      have hbcc₂ : p₂.provider = .bcc := hstep.1.provider.trans hbcc
      have hfind : ((s₂.apply (.reconcile id (.manualReview now))).payment? id) =
          some (if Store.reconcilable (.manualReview now) p₂ = true then
            (ReconciliationPatch.manualReview now).set p₂ else p₂) := by
        show Table.find (Table.updateWhere s₂.payments id _ (ReconciliationPatch.manualReview now).set) id = _
        rw [Table.find_updateWhere _ _ _ (ReconciliationPatch.manualReview now).set (ReconciliationPatch.id_set _),
          show Table.find s₂.payments id = some p₂ from hp₂]
        simp
      refine ⟨_, hfind, ?_⟩
      split
      · show (_ || Option.isSome (some now)) = true
        simp
      · next hno =>
        refine closed_of_unschedulable (hj₂.2 p₂ (Table.mem_of_find hp₂) hbcc₂) hbcc₂ ?_
        unfold Store.reconcilable at hno
        simpa using hno
    · intro hmiss s₂ hr₂ hj₂ p hp hbcc
      obtain ⟨p₁, hp₁, hstep⟩ := hr₁.2 id p hp
      have hbcc₁ : p₁.provider = .bcc := hstep.1.provider.trans hbcc
      have hno : (s₁.payment? id).any (Store.reconcilable (.manualReview now)) = false := hmiss
      rw [hp₁] at hno
      have hclosed : RowClosed s₁ id := by
        refine ⟨p₁, hp₁, closed_of_unschedulable (hj₁.2 p₁ (Table.mem_of_find hp₁) hbcc₁) hbcc₁ ?_⟩
        unfold Store.reconcilable at hno
        simpa using hno
      exact hclosed.onward hr₂.2
  · rintro ⟨op, t, a⟩ hop ⟨hQ, -⟩ hP
    obtain rfl : op = .manualReview id now := hop
    refine ⟨trivial, fun hlater => ?_⟩
    cases hQ with
    | reviewed hw =>
      refine h _ _ (hl₁.trans (hl₂.trans hlater)) fun p hp hbcc => ?_
      obtain ⟨p₁, hp₁, hstep⟩ := onward_later hl₁ id p hp
      rw [Contract.after_snoc]
      exact hP p₁ hp₁ (hstep.1.provider.trans hbcc)

theorem safe_settleCall {id : Nat} {now : Int} {v : VerifyWebhookResult} {f : Option TickAnswer → Tick R}
    (hv : v.status ≠ .processing) (thrown : ∀ l', Later (reconciliation d s₀) l l' → (f none).Safe (reconciliation d s₀) Post l')
    (settled : ∀ l' a, Later (reconciliation d s₀) l l' → RowClosed ((reconciliation d s₀).after l') id →
      (f (some a)).Safe (reconciliation d s₀) Post l') : Flow.Safe (reconciliation d s₀) Post
      (Flow.bind (Flow.transaction (.billing (.deliver .settleFromBccReconciliation now id v))) f) l := by
  intro l₁ hl₁
  have hsafe := safe_call d s₀ (.billing (.deliver .settleFromBccReconciliation now id v))
    (fun o he => rfl) ((reconciliation d s₀).after l₁)
  refine ⟨hsafe, fun t s _ => RowClosed (t.view s) id, ?_, fun l₂ hl₂ => ⟨thrown _ (hl₁.trans hl₂), ?_⟩⟩
  · have hdeliver : Prog.Safe careful (reconciliation d s₀).J (fun _ => True) (fun t s _ => RowClosed (t.view s) id)
        (Op.deliver .settleFromBccReconciliation now id v).prog .start ((reconciliation d s₀).after l₁) := by
      have S : Setting careful (reconciliation d s₀).J fun _ => True := setting_careful fun s h => h.1
      refine (safe_deliver S now id v .settleFromBccReconciliation).map fun t s _ _ h => ?_
      obtain ⟨p, hp, hpast⟩ := past_of_delivered hv h
      exact ⟨p, hp, closed_of_past hpast⟩
    exact hdeliver.map fun _ _ _ _ h => h
  · rintro ⟨op, t, a⟩ hop ⟨hQ, -⟩ hP
    obtain rfl : op = .billing _ := hop
    refine ⟨trivial, fun hlater => settled _ _ (hl₁.trans (hl₂.trans hlater)) ?_⟩
    rw [Contract.after_snoc]
    exact hP

end

/-! ## The tick -/

/-- It asks again, or leaves the BCC payment closed that was there when it began. -/
def TickPost (d : ReconciliationDelays) (s₀ : Store) (id : Nat) (s : Store) (l : List TickCommit)
    (r : ReconciliationResult) : Prop :=
  ∀ p, s.payment? id = some p → p.provider = .bcc →
    (r.outcome = .reschedule ∧ r.nextAt.isSome = true) ∨ RowClosed ((reconciliation d s₀).after l) id

section

variable {d : ReconciliationDelays} {s₀ s : Store} {l l' : List TickCommit} {id : Nat}

theorem TickPost.later {r : ReconciliationResult} (h : TickPost d s₀ id s l r) (hl : Later (reconciliation d s₀) l l') :
    TickPost d s₀ id s l' r := by
  intro p hp hbcc
  rcases h p hp hbcc with h | h
  · exact .inl h
  · exact .inr (h.onward (onward_later hl))

theorem safe_closed {r : ReconciliationResult} (h : RowClosed ((reconciliation d s₀).after l) id) :
    (Flow.done r : Tick ReconciliationResult).Safe (reconciliation d s₀) (TickPost d s₀ id s) l :=
  fun _ hl _ _ _ => .inr (h.onward (onward_later hl))

theorem safe_asksAgain (nextAt : Int) :
    (Flow.done ⟨.reschedule, some nextAt⟩ : Tick ReconciliationResult).Safe (reconciliation d s₀)
      (TickPost d s₀ id s) l :=
  fun _ _ _ _ _ => .inl ⟨rfl, rfl⟩

namespace BccReconciliationService

variable {claimed : Payment} {hardCapAt now : Int}

theorem safe_reschedule (hcap : now < hardCapAt) (hclaim : ∃ e ∈ l, claim? e = some ⟨claimed, now, now + d.max⟩) :
    (reschedule d claimed hardCapAt now).Safe (reconciliation d s₀) (TickPost d s₀ id s) l :=
  safe_rescheduleCall hcap hclaim fun _ _ _ => safe_asksAgain _

theorem safe_settleOrReschedule (hcap : now < hardCapAt)
    (hclaim : ∃ e ∈ l, claim? e = some ⟨claimed, now, now + d.max⟩) (hid : claimed.id = id) {v : VerifyWebhookResult}
    (hv : v.status ≠ .processing) (outcome : ReconciliationOutcome) :
    (settleOrReschedule d claimed hardCapAt now v outcome).Safe (reconciliation d s₀) (TickPost d s₀ id s) l := by
  subst hid
  intro x
  refine safe_settleCall hv (fun l₁ hl₁ => ?_) fun l₁ a hl₁ hclosed => safe_closed hclosed
  obtain ⟨e, he, hclaim⟩ := hclaim
  exact safe_reschedule hcap ⟨e, hl₁.1.subset he, hclaim⟩

theorem safe_applyStatus (hcap : now < hardCapAt)
    (hclaim : ∃ e ∈ l, claim? e = some ⟨claimed, now, now + d.max⟩) (hid : claimed.id = id) (r : BccGatewayResponse) :
    (applyStatus d claimed hardCapAt now r).Safe (reconciliation d s₀) (TickPost d s₀ id s) l := by
  unfold applyStatus
  split
  · exact safe_reschedule hcap hclaim
  · split
    · exact safe_settleOrReschedule hcap hclaim hid (by simp) .settled
    · split
      · exact safe_settleOrReschedule hcap hclaim hid (by simp) .failed
      · exact safe_reschedule hcap hclaim

theorem safe_checkStatus (hcap : now < hardCapAt)
    (hclaim : ∃ e ∈ l, claim? e = some ⟨claimed, now, now + d.max⟩) (hid : claimed.id = id) :
    (checkStatus d claimed hardCapAt now).Safe (reconciliation d s₀) (TickPost d s₀ id s) l := by
  rintro ⟨at_, status⟩
  cases status with
  | none => exact safe_reschedule hcap hclaim
  | some r => exact safe_applyStatus hcap hclaim hid r

theorem safe_unclaimed (hs : Onward s ((reconciliation d s₀).after l)) :
    (unclaimed id).Safe (reconciliation d s₀) (TickPost d s₀ id s) l := by
  refine safe_find fun l₁ o hl₁ hread => ?_
  obtain ⟨v, htracked, hwf, hbefore, hafter, rfl⟩ := hread
  have hv : Onward s v := hs.trans hbefore
  cases hrow : v.payment? id with
  | none =>
    intro l₂ hl₂ p hp _
    obtain ⟨q, hq, -⟩ := hv id p hp
    cases hrow.symm.trans hq
  | some p₁ =>
    show Flow.Safe _ _ (if _ then _ else _) l₁
    split
    · next hnext =>
      intro l₂ _ p _ _
      exact .inl ⟨rfl, hnext.2.2⟩
    · next hno =>
      intro l₂ hl₂ p hp hbcc
      obtain ⟨q, hq, hstep⟩ := hv id p hp
      obtain rfl := Option.some.inj (hrow.symm.trans hq)
      have hbcc₁ : p₁.provider = .bcc := hstep.1.provider.trans hbcc
      have hclosed : RowClosed v id := by
        refine ⟨p₁, hrow, closed_of_tracked (htracked p₁ (Table.mem_of_find hrow) hbcc₁) fun h => ?_⟩
        exact hno ⟨hbcc₁, h.1, h.2⟩
      exact .inr (hclosed.onward (hafter.trans (onward_later hl₂)))

theorem safe_claimAndCheck (hcap : now < hardCapAt) (hs : Onward s ((reconciliation d s₀).after l)) :
    (claimAndCheck d id hardCapAt now).Safe (reconciliation d s₀) (TickPost d s₀ id s) l := by
  refine safe_claimCall (fun l₁ hl₁ => ?_) fun l₁ q _ hid hclaim => safe_checkStatus hcap hclaim hid
  exact safe_unclaimed (hs.trans (onward_later hl₁))

theorem safe_reconcileProcessing (payment : Payment) (hs : Onward s ((reconciliation d s₀).after l)) :
    (reconcileProcessing d payment id).Safe (reconciliation d s₀) (TickPost d s₀ id s) l := by
  intro x
  show Flow.Safe _ _ (if _ then _ else _) l
  split
  · refine safe_manualReviewCall fun l₁ _ hl₁ hclosed l₂ hl₂ p hp hbcc => ?_
    obtain ⟨p₁, hp₁, hstep⟩ := hs id p hp
    exact .inr ((hclosed p₁ hp₁ (hstep.1.provider.trans hbcc)).onward (onward_later hl₂))
  · next hcap => exact safe_claimAndCheck (by omega) hs

/-- **A tick** asks again, or leaves its payment closed. -/
theorem safe_reconcileOnce (id : Nat) (l : List TickCommit) :
    (reconcileOnce d id).Safe (reconciliation d s₀) (TickPost d s₀ id ((reconciliation d s₀).after l)) l := by
  refine safe_find fun l₁ o hl₁ hread => ?_
  obtain ⟨v, htracked, hwf, hbefore, hafter, rfl⟩ := hread
  cases hrow : v.payment? id with
  | none =>
    intro l₂ hl₂ p hp _
    obtain ⟨q, hq, -⟩ := hbefore id p hp
    cases hrow.symm.trans hq
  | some p₁ =>
    show Flow.Safe _ _ (if _ then _ else _) l₁
    split
    · next hno =>
      intro l₂ hl₂ p hp hbcc
      obtain ⟨q, hq, hstep⟩ := hbefore id p hp
      obtain rfl := Option.some.inj (hrow.symm.trans hq)
      have hbcc₁ : p₁.provider = .bcc := hstep.1.provider.trans hbcc
      have hclosed : RowClosed v id := by
        refine ⟨p₁, hrow, closed_of_tracked (htracked p₁ (Table.mem_of_find hrow) hbcc₁) fun h => ?_⟩
        rcases hno with hno | hno
        · exact hno hbcc₁
        · exact hno h.1
      exact .inr (hclosed.onward (hafter.trans (onward_later hl₂)))
    · exact safe_reconcileProcessing p₁ (onward_later hl₁)

end BccReconciliationService

/-- What the processor ends with. -/
def JobPost (d : ReconciliationDelays) (s₀ : Store) (job : BccReconciliationJobData) (s : Store) (l : List TickCommit)
    (r : Processed) : Prop :=
  s.WF ∧ TickPost d s₀ job.paymentId s l r.result ∧ r.enqueued = BccReconciliationProcessor.furtherTick job r.result

theorem safe_processTick (job : BccReconciliationJobData) (hl : History (reconciliation d s₀) l) :
    (BccReconciliationProcessor.process d job).Safe (reconciliation d s₀)
      (JobPost d s₀ job ((reconciliation d s₀).after l)) l := by
  refine Flow.Safe.bind hl ((BccReconciliationService.safe_reconcileOnce job.paymentId l).mono fun l₁ r _ hpost => ?_)
  exact fun l₂ hl₂ => ⟨hl.inv.1, hpost.later hl₂, rfl⟩

theorem setting_reconciliation (hs : s₀.WF) (ht : AllTracked s₀) :
    Jobs.Setting (BccReconciliationProcessor.process d) (reconciliation d s₀) (fun op => op.ordinary = true)
      (JobPost d s₀) where
  start := ⟨hs, ht⟩
  inv s c hj hQ := ⟨hj.1.view c.tx, hQ.1.tracked hj.1 hj.2⟩
  guarantee s c _ hQ held hfree := ⟨guarantee_locks hQ.2 s held hfree, hQ.1.onward⟩
  request op s hop hj := safe_call d s₀ op (fun o ho => ho ▸ hop) s
  requested l c hop := by
    obtain ⟨op, t, a⟩ := c
    cases op with
    | billing op => trivial
    | _ => cases hop
  job job l hl := safe_processTick job hl
  lasts job s l l' r hl h := ⟨h.1, h.2.1.later hl, h.2.2⟩

end

end Billing
