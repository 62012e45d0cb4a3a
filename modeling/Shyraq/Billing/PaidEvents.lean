import Shyraq.Billing.Announcing
import Shyraq.Billing.ExactlyOnce

/-!
# `invoice.paid`, once per transition

In any interleaving of gateway settlements, receipts in cash and cancellations the event goes out
exactly when the invoice becomes `paid`, unless a payment completes on an invoice that is paid or void
by then and whose payments reach its amount.
-/

namespace Billing

open Kernel Transactions

/-- The invoice has become `paid`. -/
def BecamePaid (id : Nat) (s s' : Store) : Prop := s.isPaid id = false ∧ s'.isPaid id = true

instance (id : Nat) (s s' : Store) : Decidable (BecamePaid id s s') :=
  inferInstanceAs (Decidable (_ ∧ _))

/-- The commit announces the invoice as paid once if it has become so, and otherwise not. -/
def AnnouncesPaid (id : Nat) (s : Store) (c : BillingCommit) : Prop :=
  (c.tx.view s).paidEvents id = s.paidEvents id + if BecamePaid id s (c.tx.view s) then 1 else 0

instance (id : Nat) (s : Store) (c : BillingCommit) : Decidable (AnnouncesPaid id s c) :=
  inferInstanceAs (Decidable (_ = _))

/-- The invoice is paid or void, and with this amount its completed payments reach what it asks for. -/
def Store.overpaidBy (s : Store) (invoiceId : Nat) (amount : Int) : Bool :=
  (s.invoice? invoiceId).any fun i =>
    !i.status.unpaid && decide (i.amountAfterDiscount ≤ s.paidSum invoiceId + amount)

/-- No payment completes on an invoice that it overpays. -/
def OnTime (s : Store) (c : BillingCommit) : Prop :=
  match c.op with
  | .deliver entry _ id v => Settling entry v.status →
      (s.payment? id).all (fun p => !(p.status.inFlight && s.overpaidBy p.invoiceId p.amount)) = true
  | .initiate _ input outcome => (∃ txn, outcome = .completed txn) → s.paymentByKey input.idempotencyKey = none →
      s.overpaidBy input.invoiceId (MoneyKzt.fromKzt input.amount) = false
  | _ => True

instance (s : Store) (c : BillingCommit) : Decidable (OnTime s c) := by
  obtain ⟨op, tx, a⟩ := c
  apply Op.casesOn (motive := fun op => Decidable (OnTime s ⟨op, tx, a⟩)) op <;> intros <;>
    dsimp only [OnTime] <;> infer_instance

/-! ## Payments gather -/

/-- The locks of billing; and a completed payment stays as it is. -/
def gathering : Discipline Store Key Write where
  rely held s s' := Moves held s s' ∧
    ∀ i q, s.payment? i = some q → q.status = .completed → s'.payment? i = some q
  refl held s := ⟨Moves.refl held s, fun _ _ h _ => h⟩
  trans h₁ h₂ := ⟨h₁.1.trans h₂.1, fun i q hq hst => h₂.2 i q (h₁.2 i q hq hst) hst⟩
  mono hs h := ⟨h.1.mono hs, h.2⟩

theorem setting_gathering : Setting gathering Store.WF (fun _ => True) where
  moves h := h.1
  wf h := h
  throws _ := trivial

variable {s s' : Store} {t : Tx Store Key Write} {c : BillingCommit}

theorem paidSum_le (hs : s.WF) (hs' : s'.WF)
    (h : ∀ i q, s.payment? i = some q → q.status = .completed → s'.payment? i = some q) (id : Nat) :
    s.paidSum id ≤ s'.paidSum id := by
  have hpos : ∀ {l : List Payment} {p : Payment → Bool}, (∀ q ∈ l, 0 < q.amount) →
      ∀ q ∈ l.filter p, 0 ≤ q.amount := fun hl q hq => Int.le_of_lt (hl q (List.mem_of_mem_filter hq))
  refine Table.total_le_total (Table.unique_filter hs.paymentIds _) (Table.unique_filter hs'.paymentIds _) ?_
    (hpos hs'.paymentAmounts)
  intro i q hq
  obtain ⟨hq, hp⟩ := (Table.find_filter hs.paymentIds).1 hq
  have hst : q.status = .completed := by
    rw [Bool.and_eq_true, beq_iff_eq, beq_iff_eq] at hp
    exact hp.2
  exact ⟨q, (Table.find_filter hs'.paymentIds).2 ⟨h i q hq hst, hp⟩, Int.le_refl _⟩

/-! ## One commit -/

/-- What the request has said, and what it had the right to. -/
def ToldBy (t : Tx Store Key Write) (s : Store) : Op → Prop
  | .deliver entry _ id v => Faithful t.writes ∨ Settling entry v.status ∧ ∃ q, s.payment? id = some q ∧
      q.status.inFlight = true ∧ ToldOf gathering Store.WF (fun v => v) q [] t.writes s
  | .initiate _ input outcome => Faithful t.writes ∨ (∃ txn, outcome = .completed txn) ∧ ∃ p,
      .insertPayment p ∈ t.writes ∧ p.idempotencyKey = input.idempotencyKey ∧ p.invoiceId = input.invoiceId ∧
      p.amount = MoneyKzt.fromKzt input.amount ∧ ToldOf gathering Store.WF (fun v => v) p [] t.writes s
  | _ => Faithful t.writes

theorem safe_told (hs : s.WF) (op : Op) (hop : op.Settles) :
    Prog.Safe gathering Store.WF (fun _ => True) (fun t s _ => ToldBy t s op) op.prog .start s := by
  cases op with
  | deliver entry now id v =>
    exact (safe_deliverTold setting_gathering hs now id v entry).map fun _ _ _ _ h => h
  | initiate now input outcome =>
    exact (safe_initiateTold setting_gathering now input outcome).map fun _ _ _ _ h => h
  | manualMarkPaid now id input =>
    exact (safe_manualMarkPaidTold setting_gathering now id input).map fun _ _ _ _ h => h
  | cancel id reason =>
    exact (safe_faithful setting_gathering hs (mute_cancel id reason) faithful_start).map
      fun _ _ _ _ h => h
  | markOverdue now =>
    exact (safe_faithful setting_gathering hs (mute_runForKindergarten now) faithful_start).map
      fun _ _ _ _ h => h
  | _ => exact hop.elim

theorem paidEvents_of_told {extra : Nat → Nat} (htold : Told extra t.writes) (hl : t.Lands Store.lets s) (id : Nat) :
    (t.view s).paidEvents id =
      s.paidEvents id + (if BecamePaid id s (t.view s) then 1 else 0) + extra id := by
  have hmarks : (s.isPaid id).toNat + t.writes.countP (Write.marksPaid id) = ((t.view s).isPaid id).toNat :=
    marks_of_landed htold.tame hl.landed id
  have hcount : t.writes.countP (Write.marksPaid id) = if BecamePaid id s (t.view s) then 1 else 0 := by
    have hle := Bool.toNat_le ((t.view s).isPaid id)
    by_cases hb : s.isPaid id = true
    · rw [hb, Bool.toNat_true] at hmarks
      rw [if_neg fun h : BecamePaid _ _ _ => Bool.false_ne_true (h.1.symm.trans hb)]
      omega
    · rw [Bool.not_eq_true] at hb
      rw [hb, Bool.toNat_false] at hmarks
      by_cases ha : (t.view s).isPaid id = true
      · rw [ha, Bool.toNat_true] at hmarks
        rw [if_pos (show BecamePaid _ _ _ from ⟨hb, ha⟩)]
        omega
      · rw [if_neg fun h : BecamePaid _ _ _ => ha h.2]
        rw [Bool.not_eq_true] at ha
        rw [ha, Bool.toNat_false] at hmarks
        omega
  rw [paidEvents_view, htold.count id, hcount]
  omega

theorem overTold_eq_zero {p : Payment} {r : Invoice} {paidSum : Int} (hr : s.invoice? p.invoiceId = some r)
    (hle : paidSum ≤ s.paidSum p.invoiceId + p.amount) (h : s.overpaidBy p.invoiceId p.amount = false) (id : Nat) :
    r.overTold paidSum id = 0 := by
  unfold Invoice.overTold
  refine if_neg ?_
  rintro ⟨-, hpast, hcovers⟩
  unfold Store.overpaidBy at h
  rw [hr, Option.any_some, hpast] at h
  simp only [Bool.not_false, Bool.true_and, decide_eq_false_iff_not] at h
  omega

theorem faithful_of_told {p : Payment} {ws : List Write} (hs : s.WF)
    (h : ToldOf gathering Store.WF (fun v => v) p [] ws s) (hover : s.overpaidBy p.invoiceId p.amount = false) :
    Faithful ws := by
  obtain ⟨r, v, hr, hv, hrely, htold⟩ := h
  have hle : v.paidSum p.invoiceId + p.amount ≤ s.paidSum p.invoiceId + p.amount :=
    Int.add_le_add_right (paidSum_le hv hs hrely.2 p.invoiceId) _
  refine ⟨htold.tame, fun id => ?_⟩
  rw [htold.count id, overTold_eq_zero hr hle hover id]

theorem faithful_of_onTime (hs : s.WF) (hl : c.tx.Lands Store.lets s) (htold : ToldBy c.tx s c.op)
    (hop : c.op.Settles) (h : OnTime s c) : Faithful c.tx.writes := by
  obtain ⟨op, t, a⟩ := c
  cases op with
  | deliver entry now id v =>
    rcases htold with hf | ⟨hsettling, q, hq, hin, htold⟩
    · exact hf
    · refine faithful_of_told hs htold ?_
      have hall : (s.payment? id).all (fun p => !(p.status.inFlight && s.overpaidBy p.invoiceId p.amount)) = true :=
        h hsettling
      rw [hq, Option.all_some, hin] at hall
      simpa using hall
  | initiate now input outcome =>
    rcases htold with hf | ⟨hout, p, hp, hkey, hinvoice, hamount, htold⟩
    · exact hf
    · refine faithful_of_told hs htold ?_
      have hfree := (payment_of_lands hs hl hp).1
      rw [hkey] at hfree
      rw [hinvoice, hamount]
      exact h hout hfree
  | manualMarkPaid now id input => exact htold
  | cancel id reason => exact htold
  | markOverdue now => exact htold
  | _ => exact hop.elim

/-! ## Every run -/

/-- A commit of a settlement, with what it has said. -/
structure Announcement (s : Store) (c : BillingCommit) : Prop where
  wf : s.WF
  settles : c.op.Settles
  lands : c.tx.Lands Store.lets s
  told : ToldBy c.tx s c.op

theorem chain_announcements {n : Nat} {cs : Schedule n} {σ : System n} (hs : s.WF)
    (hcs : System.Starts Op.Settles cs) (hrun : run s cs = some σ) : Chain Announcement s σ.log σ.db := by
  have h := chain_of_covered (D := gathering)
    (R := fun s c => Committed gathering Op.Settles s c ∧ c.tx.Lands Store.lets s ∧ ToldBy c.tx s c.op)
    (fun op hop => covered_prog op hop.movesMoney) (fun op s hop hs => ?_) (fun s c hj _ => hj.view c.tx)
    (fun s c _ h hcov held hd =>
      ⟨guarantee_locks hcov s held hd, (h.1.outcome.shows h.1.allowed).completed⟩) hs hcs hrun
  · exact h.mono fun s c h => ⟨h.1, h.2.1.allowed, h.2.2.1, h.2.2.2⟩
  · have hlands : Prog.Safe gathering Store.WF (fun _ => True) (fun t s _ => t.Lands Store.lets s) op.prog .start s :=
      (Prog.Safe.lands keeps_locks (fun _ => trivial) op.prog Tx.Lands.start).weaken (fun _ _ _ h => h.1)
        (fun _ hj => hj) fun _ _ _ _ hq => hq
    refine (((safe_prog setting_gathering hs op hop.movesMoney).and hlands).and (safe_told hs op hop)).mono ?_
    intro t s a hj h
    exact ⟨⟨hj, hop, h.1.1⟩, h.1.2, h.2⟩

/-- **`invoice.paid`, once per transition.**  In every interleaving of gateway settlements, receipts in cash
and cancellations in which no payment completes on an invoice that it overpays, each commit announces an
invoice as paid exactly when that invoice has become so in it. -/
theorem announcesPaid_of_onTime {n : Nat} {s : Store} {cs : Schedule n} {σ : System n} (hs : s.WF)
    (hcs : System.Starts Op.Settles cs) (hrun : run s cs = some σ) (htime : AtEach OnTime s σ.log) (id : Nat) :
    AtEach (AnnouncesPaid id) s σ.log := by
  refine (((chain_announcements hs hcs hrun).and htime).mono fun s c h => ?_).atEach
  have hfaithful := faithful_of_onTime h.1.wf h.1.lands h.1.told h.1.settles h.2
  exact paidEvents_of_told hfaithful h.1.lands id

/-- One invoice of 1000, and two payments under way that each cover it. -/
def twoUnderWay : Store :=
  { Store.oneInvoice .other 1000 with payments := [gatewayPayment 30 1000, gatewayPayment 31 1000] }

/-- Both are completed, one after the other. -/
def bothCompleted : Schedule 1 :=
  request 0 (.deliver .processWebhook 5 30 ⟨30, .completed, none⟩) 16 0 ++
  (request 0 (.deliver .processWebhook 6 31 ⟨31, .completed, none⟩) 20 0 ++ [])

/-- The second completion announces once more an invoice that is paid already. -/
theorem bothCompleted_not_announcesPaid : ∃ σ : System 1, twoUnderWay.WF ∧
    System.Starts Op.Settles bothCompleted ∧ run twoUnderWay bothCompleted = some σ ∧
    ¬AtEach (AnnouncesPaid 20) twoUnderWay σ.log := by
  obtain ⟨σ, hrun, h⟩ := run_shows run twoUnderWay bothCompleted
    (fun σ => !decide (AtEach (AnnouncesPaid 20) twoUnderWay σ.log)) (by decide +kernel)
  refine ⟨σ, by decide, ?_, hrun, fun hat => ?_⟩
  · exact starts_request 0 16 0 trivial (starts_request 0 20 0 trivial starts_nil)
  · rw [decide_eq_true hat] at h
    cases h

/-- A payment of 400 under way on an invoice of 1000. -/
def partUnderWay : Store := { Store.oneInvoice .other 1000 with payments := [gatewayPayment 30 400] }

/-- The rest is received in cash while the webhook of the payment waits. -/
def cashMeanwhile : Schedule 2 :=
  request 0 (.deliver .processWebhook 5 30 ⟨30, .completed, none⟩) 4 0 ++
  (request 1 (.manualMarkPaid 1 20 ⟨some 6, none, none⟩) 11 40 ++ (steps 0 16 0 ++ []))

theorem announcesPaid_of_onTime_cashMeanwhile : ∃ σ : System 2, run partUnderWay cashMeanwhile = some σ ∧
    σ.db.paidEvents 20 = 1 ∧ AtEach (AnnouncesPaid 20) partUnderWay σ.log := by
  obtain ⟨σ, hrun, h⟩ := run_shows run partUnderWay cashMeanwhile
    (fun σ => decide (σ.db.paidEvents 20 = 1) && decide (AtEach OnTime partUnderWay σ.log)) (by decide +kernel)
  rw [Bool.and_eq_true, decide_eq_true_eq, decide_eq_true_eq] at h
  refine ⟨σ, hrun, h.1, announcesPaid_of_onTime (by decide) ?_ hrun h.2 20⟩
  exact starts_request 0 4 0 trivial (starts_request 1 11 40 trivial (starts_steps 0 16 0 starts_nil))

end Billing
