import Shyraq.Billing.Sums

/-!
# Exactly-once settlement

Any number of observations about payments, through the webhook and both pollers, in any
interleaving: the first terminal one to commit decides the status of the payment, and the
account is credited once or never.
-/

namespace Billing

open Kernel Transactions

/-- The request is about this payment: an observation of it, or the `initiate` that
answered it. -/
def Commit.about (c : BillingCommit) (paymentId : Nat) : Bool :=
  match c.op, c.result with
  | .deliver _ _ id _, _ => id == paymentId
  | .initiate .., .payment p => p.id == paymentId
  | _, _ => false

/-- What the account of the payment gains from a request about that payment. -/
def creditFor (paymentId : Nat) (s : Store) (c : BillingCommit) : Int :=
  if Commit.about c paymentId then
    match (c.tx.view s).accountFor paymentId with
    | some a => (c.tx.view s).balanceOf a - s.balanceOf a
    | none => 0
  else 0

/-- A credit counts once. -/
def creditsFor (paymentId : Nat) (s : Store) (c : BillingCommit) : Int :=
  if creditFor paymentId s c = 0 then 0 else 1

/-- The terminal outcome that a request reports about a payment. -/
def Op.terminal (paymentId : Nat) : Op → Option ProviderStatus
  | .deliver _ _ id v => if id = paymentId ∧ v.status ≠ .processing then some v.status else none
  | _ => none

/-- The first terminal observation applied, in the order of the commits. -/
def firstTerminal (paymentId : Nat) (log : List BillingCommit) : Option ProviderStatus :=
  (log.filterMap fun c => c.op.terminal paymentId).head?

/-- What a terminal observation makes of a payment in flight. -/
def settledStatus (before : PaymentStatus) : Option ProviderStatus → PaymentStatus
  | some .completed => .completed
  | some .failed => .failed
  | some .processing | none => before

/-- An observation.  The pollers settle terminal outcomes only. -/
def Op.Observation : Op → Prop
  | .deliver entry _ _ v => v.status = .processing → entry = .processWebhook
  | _ => False

theorem firstTerminal_snoc (paymentId : Nat) (log : List BillingCommit) (c : BillingCommit) :
    firstTerminal paymentId (log ++ [c]) =
      (firstTerminal paymentId log).or (c.op.terminal paymentId) := by
  unfold firstTerminal
  rw [List.filterMap_append, List.head?_append]
  congr 1
  cases h : c.op.terminal paymentId <;> simp [h]

/-! ## One observation -/

variable {s : Store} {p : Payment} {D : Discipline Store Key Write}

theorem Delivered.other {entry : Entry} {status : ProviderStatus}
    {id other : Nat} {t : Tx Store Key Write} (h : Delivered D entry status id t s)
    (hne : other ≠ id) : (t.view s).payment? other = s.payment? other := by
  cases h with
  | noted h =>
    rw [view_of_touches h.1]
    rfl
  | completed p p' invoice paidSum flip hs hp h => exact h.payments.find_of_ne hne
  | failed p hs h => exact h.payments.find_of_ne hne
  | processing hs he h =>
    rw [view_of_touches h]
    rfl

theorem Settled.credit {id : Nat} {t t' : Tx Store Key Write}
    {p' : Payment} {invoice : Invoice} {paidSum : Int} {flip : Option InvoiceFlip}
    (h : Settled D p invoice paidSum flip t t' s) (hp' : (t'.view s).payment? id = some p')
    (hid : p'.invoiceId = invoice.id) :
    ∃ a, (t'.view s).accountFor id = some a ∧ (t'.view s).balanceOf a = s.balanceOf a + p.amount :=
  ⟨invoice.paymentAccountId, accountFor_view hp' hid h.stillThere, h.accounts.balanceOf⟩

theorem Completion.credit {id : Nat} {t : Tx Store Key Write}
    {p' : Payment} {invoice : Invoice} {paidSum : Int} {flip : Option InvoiceFlip}
    (h : Completion D id .start t s p p' invoice paidSum flip) :
    ∃ a, (t.view s).accountFor id = some a ∧ (t.view s).balanceOf a = s.balanceOf a + p.amount ∧ 0 < p.amount := by
  obtain ⟨t₁, txn, paidAt, v₁, v₂, v₃, hw, hs, hset⟩ := h.settled
  obtain ⟨a, ha, hb⟩ := hset.credit h.payments.find_self (h.step.invoiceId.trans hset.id.symm)
  exact ⟨a, ha, hb, hset.positive⟩

/-! ## Every interleaving -/

/-- The commit of an observation. -/
def ObservationCommit (s : Store) (c : BillingCommit) : Prop :=
  ∃ entry now id v, c.op = .deliver entry now id v ∧
    (v.status = .processing → entry = .processWebhook) ∧ Delivered locks entry v.status id c.tx s

theorem chain_observations {n : Nat} {cs : Schedule n} {σ : System n} (hs : s.WF)
    (hcs : System.Starts Op.Observation cs) (hrun : run s cs = some σ) : Chain ObservationCommit s σ.log σ.db := by
  have hA : ∀ op, Op.Observation op → op.MovesMoney := by
    intro op hop
    cases op with
    | deliver => trivial
    | _ => exact hop.elim
  refine (chain_outcomes hA hs hcs hrun).mono ?_
  rintro s c ⟨-, hop, hout⟩
  cases hc : c.op with
  | deliver entry now id v =>
    rw [hc] at hop hout
    cases hout with
    | delivered h => exact ⟨entry, now, id, v, hc, hop, h⟩
  | _ =>
    rw [hc] at hop
    exact hop.elim

/-- What a run of observations has made of one payment. -/
structure Once (p : Payment) (s₀ : Store) (log : List BillingCommit) (s : Store) : Prop where
  replay : replay s₀ log = s
  row : ∃ q, s.payment? p.id = some q ∧ Payment.Step p q ∧
    q.status = settledStatus p.status (firstTerminal p.id log)
  credit : tally (creditFor p.id) s₀ log =
    if firstTerminal p.id log = some .completed then p.amount else 0
  credits : tally (creditsFor p.id) s₀ log =
    if firstTerminal p.id log = some .completed then 1 else 0

theorem creditFor_of_balances {id : Nat} {c : BillingCommit}
    (h : ∀ a, (c.tx.view s).balanceOf a = s.balanceOf a) : creditFor id s c = 0 := by
  unfold creditFor
  split
  · split
    · rw [h]
      omega
    · rfl
  · rfl

theorem Once.skip {s₀ : Store} {log : List BillingCommit} {c : BillingCommit}
    (h : Once p s₀ log s) (hrow : (c.tx.view s).payment? p.id = s.payment? p.id) (hcredit : creditFor p.id s c = 0)
    (hfirst : firstTerminal p.id (log ++ [c]) = firstTerminal p.id log) : Once p s₀ (log ++ [c]) (c.tx.view s) where
  replay := by rw [replay_snoc, h.replay]
  row := by
    rw [hrow, hfirst]
    exact h.row
  credit := by
    rw [tally_snoc, h.replay, hcredit, hfirst, h.credit]
    omega
  credits := by
    rw [tally_snoc, h.replay, hfirst, h.credits, creditsFor, if_pos hcredit]
    omega

theorem settledStatus_inFlight {first : Option ProviderStatus} (h : (settledStatus p.status first).inFlight = true) :
    first = none ∨ first = some .processing := by
  rcases first with _ | ⟨_ | _ | _⟩
  · exact .inl rfl
  · exact .inr rfl
  · cases h
  · cases h

theorem firstTerminal_ne_processing (id : Nat) (log : List BillingCommit) :
    firstTerminal id log ≠ some .processing := by
  intro h
  have hm := List.mem_of_head? (show _ = some ProviderStatus.processing from h)
  obtain ⟨c, -, hc⟩ := List.mem_filterMap.1 hm
  cases ho : c.op with
  | deliver entry now i v =>
    rw [ho] at hc
    simp only [Op.terminal] at hc
    split at hc
    · next hv =>
      exact hv.2 (Option.some.inj hc)
    · cases hc
  | _ =>
    rw [ho] at hc
    cases hc

theorem Once.settle {s₀ : Store} {log : List BillingCommit} {c : BillingCommit}
    (h : Once p s₀ log s) {q q' : Payment} (status : ProviderStatus)
    (hterminal : c.op.terminal p.id = some status) (hq : s.payment? p.id = some q)
    (hin : q.status.inFlight = true) (hq' : (c.tx.view s).payment? p.id = some q')
    (hstep : Payment.Step q q') (hstatus : q'.status = settledStatus p.status (some status))
    (hcredit : creditFor p.id s c = if status = .completed then q.amount else 0)
    (hpos : status = .completed → 0 < q.amount) : Once p s₀ (log ++ [c]) (c.tx.view s) := by
  obtain ⟨q₀, hq₀, hs₀, hst⟩ := h.row
  rw [hq] at hq₀
  cases hq₀
  have hnone : firstTerminal p.id log = none := by
    rw [hst] at hin
    rcases settledStatus_inFlight hin with h | h
    · exact h
    · exact absurd h (firstTerminal_ne_processing _ _)
  have hfirst : firstTerminal p.id (log ++ [c]) = some status := by
    rw [firstTerminal_snoc, hnone, hterminal]
    rfl
  have hamount : q.amount = p.amount := hs₀.amount
  refine
    { replay := by rw [replay_snoc, h.replay]
      row := ⟨q', hq', hs₀.trans hstep, by rw [hstatus, hfirst]⟩
      credit := ?_, credits := ?_ }
  · rw [tally_snoc, h.replay, h.credit, hnone, hfirst, hcredit, hamount]
    by_cases hc : status = .completed <;> simp [hc]
  · rw [tally_snoc, h.replay, h.credits, hnone, hfirst, creditsFor, hcredit]
    by_cases hc : status = .completed
    · have := hpos hc
      simp [hc]
      omega
    · simp [hc]

theorem Once.step {s₀ : Store} {log : List BillingCommit} {c : BillingCommit}
    (hp : p.status.inFlight = true) (h : Once p s₀ log s) (hc : ObservationCommit s c) :
    Once p s₀ (log ++ [c]) (c.tx.view s) := by
  obtain ⟨entry, now, id, v, hop, hobs, hd⟩ := hc
  by_cases hid : id = p.id
  · subst hid
    have hterminal : c.op.terminal p.id = if v.status ≠ .processing then some v.status else none := by
      rw [hop]
      simp [Op.terminal]
    cases hd with
    | noted hn =>
      have hview : c.tx.view s = s := view_of_touches hn.1 s
      obtain ⟨q, hq, -, hst⟩ := h.row
      obtain ⟨q', hq', hpast⟩ := hn.2
      rw [show q' = q from Option.some.inj (hq'.symm.trans hq), hst] at hpast
      refine h.skip (by rw [hview]) (creditFor_of_balances fun a => by rw [hview]) ?_
      rw [firstTerminal_snoc]
      cases hf : firstTerminal p.id log with
      | some x => rfl
      | none =>
        rw [hf] at hpast
        cases hp.symm.trans hpast
    | completed q q' invoice paidSum flip hs hproc hcomp =>
      have hcompleted : v.status = .completed := by
        cases hv : v.status with
        | completed => rfl
        | failed => exact absurd hv hs
        | processing => exact absurd (hobs hv) (hproc hv)
      obtain ⟨a, ha, hbal, hpos⟩ := hcomp.credit
      refine h.settle .completed ?_ hcomp.payments.before hcomp.inFlight
        hcomp.payments.find_self hcomp.step hcomp.status ?_ fun _ => hpos
      · rw [hterminal, hcompleted]
        rfl
      · unfold creditFor
        rw [if_pos (by simp [Commit.about, hop]), ha]
        show (c.tx.view s).balanceOf a - s.balanceOf a = _
        rw [hbal]
        simp
    | failed q hf hfail =>
      obtain ⟨t₁, hw, he⟩ := hfail.writes
      have haccounts : (c.tx.view s).accounts = s.accounts := by
        rw [accounts_of_extends he fun w h => h.table_ne (by decide), view_of_writes hw]
        rfl
      refine h.settle .failed ?_ hfail.payments.before hfail.inFlight
        hfail.payments.find_self (PaymentPatch.step hfail.inFlight) rfl ?_ nofun
      · rw [hterminal, hf]
        rfl
      · rw [creditFor_of_balances fun a => balanceOf_congr haccounts a]
        rfl
    | processing hproc he htouch =>
      have hview : c.tx.view s = s := view_of_touches htouch s
      refine h.skip (by rw [hview]) (creditFor_of_balances fun a => by rw [hview]) ?_
      rw [firstTerminal_snoc, hterminal, hproc]
      cases firstTerminal p.id log <;> rfl
  · have hterminal : c.op.terminal p.id = none := by
      rw [hop]
      simp [Op.terminal, hid]
    refine h.skip (hd.other (Ne.symm hid)) ?_ ?_
    · unfold creditFor
      rw [if_neg (by simp [Commit.about, hop, hid])]
    · rw [firstTerminal_snoc, hterminal, Option.or_none]

/-- **Exactly-once settlement.**  After any interleaving of observations, the status of a
payment that was in flight is that of the first terminal observation applied; its account
has been credited with its amount if that was `completed`, and not at all otherwise. -/
theorem settled_exactly_once {n : Nat} {s : Store} {cs : Schedule n} {σ : System n} {p : Payment}
    (hs : s.WF) (hp : s.payment? p.id = some p) (hflight : p.status.inFlight = true)
    (hcs : System.Starts Op.Observation cs) (hrun : run s cs = some σ) :
    (∃ q, σ.db.payment? p.id = some q ∧ q.amount = p.amount ∧
      q.status = settledStatus p.status (firstTerminal p.id σ.log)) ∧
    tally (creditFor p.id) s σ.log =
      (if firstTerminal p.id σ.log = some .completed then p.amount else 0) ∧
    tally (creditsFor p.id) s σ.log =
      (if firstTerminal p.id σ.log = some .completed then 1 else 0) := by
  have h₀ : Once p s [] s :=
    { replay := rfl, row := ⟨p, hp, .refl p, rfl⟩, credit := rfl, credits := rfl }
  have h := (chain_observations hs hcs hrun).invLog (Once p s) h₀
    fun l s c h hc => h.step hflight hc
  obtain ⟨q, hq, hstep, hst⟩ := h.row
  exact ⟨⟨q, hq, hstep.amount, hst⟩, h.credit, h.credits⟩

/-- One payment under way, on an invoice over its amount. -/
def oneUnderWay : Store := { Store.oneInvoice .other 1000 with payments := [gatewayPayment 30 1000] }

/-- The webhook reports a completion while the poller's failure waits for the lock. -/
def webhookAgainstPoller : Schedule 2 :=
  request 0 (.deliver .processWebhook 5 30 ⟨30, .completed, none⟩) 2 0 ++
  (request 1 (.deliver .settleFromKaspiPoller 5 30 ⟨30, .failed, none⟩) 1 0 ++
  (steps 0 14 0 ++ (steps 1 3 0 ++ [])))

theorem settled_exactly_once_webhookAgainstPoller : ∃ σ : System 2,
    run oneUnderWay webhookAgainstPoller = some σ ∧
    (∃ q, σ.db.payment? 30 = some q ∧ q.amount = 1000 ∧
      q.status = settledStatus .processing (firstTerminal 30 σ.log)) ∧
    tally (creditFor 30) oneUnderWay σ.log =
      (if firstTerminal 30 σ.log = some .completed then 1000 else 0) ∧
    tally (creditsFor 30) oneUnderWay σ.log =
      (if firstTerminal 30 σ.log = some .completed then 1 else 0) := by
  obtain ⟨σ, hrun, -⟩ := run_shows run oneUnderWay webhookAgainstPoller (fun _ => true) (by decide +kernel)
  refine ⟨σ, hrun, settled_exactly_once (p := gatewayPayment 30 1000) (by decide) rfl rfl ?_ hrun⟩
  exact starts_request 0 2 0 (by simp [Op.Observation])
    (starts_request 1 1 0 (by simp [Op.Observation]) (starts_steps 0 14 0 (starts_steps 1 3 0 starts_nil)))

end Billing
