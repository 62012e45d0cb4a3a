import Shyraq.Billing.ExactlyOnce

/-!
# Money that arrives late

A payment that billing itself has failed (hard cap, supersede) may still be paid at the
provider.  The late `completed` then meets a terminal row and is only logged.
-/

namespace Billing

open Kernel Transactions

/-- Observations of payments, and the requests that supersede payments. -/
def Op.Gateway : Op → Prop
  | .deliver .. | .initiate .. => True
  | _ => False

/-- Counts the observations that report the payment as completed. -/
def completedReport (paymentId : Nat) (_ : Store) (c : BillingCommit) : Int :=
  match c.op with
  | .deliver _ _ id v => if id = paymentId ∧ v.status = .completed then 1 else 0
  | _ => 0

/-- An admin has been alerted that the payment has to be refunded by hand. -/
def Store.refundRequired (s : Store) (paymentId : Nat) : Bool :=
  s.outbox.any fun
    | .paymentRefundRequired id .. => id == paymentId
    | _ => false

/-- The payment is completed and its account has gained its amount since `s₀`, or an alert
has been raised for it. -/
def Accounted {n : Nat} (paymentId : Nat) (s₀ : Store) (σ : System n) : Prop :=
  (∃ p, σ.db.payment? paymentId = some p ∧ p.status = .completed ∧
    tally (creditFor paymentId) s₀ σ.log = p.amount) ∨ σ.db.refundRequired paymentId = true

/-- A report of completion does not find the payment failed. -/
def NotFailedBefore (paymentId : Nat) (s : Store) (c : BillingCommit) : Prop :=
  match c.op with
  | .deliver _ _ id v => id = paymentId → v.status = .completed →
      (s.payment? paymentId).all (fun p => p.status != .failed) = true
  | _ => True

instance (paymentId : Nat) (s : Store) (c : BillingCommit) : Decidable (NotFailedBefore paymentId s c) := by
  obtain ⟨op, tx, a⟩ := c
  apply Op.casesOn (motive := fun op => Decidable (NotFailedBefore paymentId s ⟨op, tx, a⟩)) op <;> intros <;> dsimp only [NotFailedBefore] <;>
    infer_instance

/-! ## What a run keeps -/

/-- A payment is credited with its amount once it is completed, and not before; only a
completed payment has been reported as one. -/
structure Tracked (id : Nat) (s₀ : Store) (log : List BillingCommit) (s : Store) : Prop where
  replay : replay s₀ log = s
  absent : s.payment? id = none →
    tally (creditFor id) s₀ log = 0 ∧ tally (completedReport id) s₀ log = 0
  row : ∀ p, s.payment? id = some p → p.status ≠ .refunded ∧
    (p.status = .completed → tally (creditFor id) s₀ log = p.amount) ∧
    (p.status ≠ .completed →
      tally (creditFor id) s₀ log = 0 ∧ tally (completedReport id) s₀ log = 0)

variable {id : Nat} {s₀ s : Store} {log : List BillingCommit} {c : BillingCommit}

/-- A commit that credits nothing and reports nothing new of the payment. -/
theorem Tracked.skip (h : Tracked id s₀ log s) (habsent : s.payment? id = none → (c.tx.view s).payment? id = none ∨
      ∃ p, (c.tx.view s).payment? id = some p ∧ p.Open) (hrow : ∀ p, s.payment? id = some p →
      ∃ p', (c.tx.view s).payment? id = some p' ∧ Payment.Recalled p p')
    (hcredit : creditFor id s c = 0) (hreport : completedReport id s c = 0) :
    Tracked id s₀ (log ++ [c]) (c.tx.view s) := by
  have hc : tally (creditFor id) s₀ (log ++ [c]) = tally (creditFor id) s₀ log := by
    rw [tally_snoc, h.replay, hcredit]
    omega
  have hr : tally (completedReport id) s₀ (log ++ [c]) = tally (completedReport id) s₀ log := by
    rw [tally_snoc, h.replay, hreport]
    omega
  have hreplay : Transactions.replay s₀ (log ++ [c]) = c.tx.view s := by rw [replay_snoc, h.replay]
  cases hp : s.payment? id with
  | none =>
    obtain ⟨h₁, h₂⟩ := h.absent hp
    refine ⟨hreplay, fun _ => ⟨by rw [hc, h₁], by rw [hr, h₂]⟩, ?_⟩
    intro p' hp'
    rcases habsent hp with hn | ⟨q, hq, ho⟩
    · rw [hn] at hp'
      cases hp'
    · rw [hq] at hp'
      cases hp'
      exact ⟨ho.2, fun hst => absurd hst ho.1, fun _ => ⟨by rw [hc, h₁], by rw [hr, h₂]⟩⟩
  | some p =>
    obtain ⟨p', hp', hrec⟩ := hrow p hp
    obtain ⟨h₁, h₂, h₃⟩ := h.row p hp
    refine ⟨hreplay, ?_, ?_⟩
    · intro hn
      rw [hn] at hp'
      cases hp'
    · intro q hq
      rw [hp'] at hq
      cases hq
      rw [hc, hr]
      rcases hrec with rfl | ⟨hin, rfl⟩
      · exact ⟨h₁, h₂, h₃⟩
      · have hne : p.status ≠ .completed := by
          intro hst
          rw [hst] at hin
          cases hin
        refine ⟨by simp [PaymentPatch.set], ?_, fun _ => h₃ hne⟩
        intro hst
        simp [PaymentPatch.set] at hst

theorem Tracked.same (h : Tracked id s₀ log s) (hrow : (c.tx.view s).payment? id = s.payment? id)
    (hcredit : creditFor id s c = 0) (hreport : completedReport id s c = 0) :
    Tracked id s₀ (log ++ [c]) (c.tx.view s) :=
  h.skip (fun hn => .inl (by rw [hrow, hn])) (fun p hp => ⟨p, by rw [hrow, hp], .refl p⟩) hcredit
    hreport

theorem Tracked.complete (h : Tracked id s₀ log s) {p' : Payment}
    (hbefore : ∀ p, s.payment? id = some p → p.status ≠ .completed)
    (hp' : (c.tx.view s).payment? id = some p') (hst : p'.status = .completed)
    (hcredit : creditFor id s c = p'.amount) : Tracked id s₀ (log ++ [c]) (c.tx.view s) := by
  have h₀ : tally (creditFor id) s₀ log = 0 := by
    cases hp : s.payment? id with
    | none => exact (h.absent hp).1
    | some p => exact ((h.row p hp).2.2 (hbefore p hp)).1
  refine ⟨by rw [replay_snoc, h.replay], ?_, ?_⟩
  · intro hn
    rw [hn] at hp'
    cases hp'
  · intro q hq
    rw [hp'] at hq
    cases hq
    refine ⟨by rw [hst]; decide, fun _ => ?_, fun hne => absurd hst hne⟩
    rw [tally_snoc, h.replay, h₀, hcredit]
    omega

theorem completedReport_of_other {entry : Entry} {now : Int} {other : Nat} {v : VerifyWebhookResult}
    (hop : c.op = .deliver entry now other v) (h : ¬(other = id ∧ v.status = .completed)) :
    completedReport id s c = 0 := by
  unfold completedReport
  rw [hop]
  exact if_neg h

theorem creditFor_of_not_about (h : Commit.about c id = false) : creditFor id s c = 0 := by
  unfold creditFor
  rw [if_neg (by simp [h])]

theorem creditFor_of_accounts (h : (c.tx.view s).accounts = s.accounts) : creditFor id s c = 0 :=
  creditFor_of_balances fun a => balanceOf_congr h a

theorem Tracked.delivered (h : Tracked id s₀ log s) {entry : Entry} {now : Int} {other : Nat}
    {v : VerifyWebhookResult} (hop : c.op = .deliver entry now other v) (hmeets : NotFailedBefore id s c)
    (hd : Delivered locks entry v.status other c.tx s) : Tracked id s₀ (log ++ [c]) (c.tx.view s) := by
  by_cases hid : other = id
  · subst hid
    cases hd with
    | noted hn =>
      have hview : c.tx.view s = s := view_of_touches hn.1 s
      have hcredit : creditFor other s c = 0 := creditFor_of_accounts (by rw [hview])
      by_cases hv : v.status = .completed
      · -- the row is terminal, and not failed: it is completed already
        obtain ⟨p, hp, hpast⟩ := hn.2
        have hp : s.payment? other = some p := hp
        obtain ⟨h₁, h₂, -⟩ := h.row p hp
        have hfailed : p.status ≠ .failed := by
          unfold NotFailedBefore at hmeets
          rw [hop] at hmeets
          have := hmeets rfl hv
          rw [hp] at this
          simpa using this
        have hst : p.status = .completed := by
          cases hs : p.status with
          | completed => rfl
          | failed => exact absurd hs hfailed
          | refunded => exact absurd hs h₁
          | initiated =>
            rw [hs] at hpast
            cases hpast
          | processing =>
            rw [hs] at hpast
            cases hpast
        refine ⟨by rw [replay_snoc, h.replay], ?_, ?_⟩
        · intro hn
          rw [hview, hp] at hn
          cases hn
        · intro q hq
          rw [hview, hp] at hq
          cases hq
          refine ⟨h₁, fun _ => ?_, fun hne => absurd hst hne⟩
          rw [tally_snoc, h.replay, hcredit, h₂ hst]
          omega
      · exact h.same (by rw [hview]) hcredit (completedReport_of_other hop fun hc => hv hc.2)
    | completed p p' invoice paidSum flip hs hproc hcomp =>
      obtain ⟨a, ha, hbal, -⟩ := hcomp.credit
      have hp : s.payment? other = some p := hcomp.payments.before
      refine h.complete ?_ hcomp.payments.find_self hcomp.status ?_
      · intro q hq
        rw [hp] at hq
        cases hq
        intro hst
        have hin := hcomp.inFlight
        rw [hst] at hin
        cases hin
      · unfold creditFor
        rw [if_pos (by simp [Commit.about, hop]), ha]
        show (c.tx.view s).balanceOf a - s.balanceOf a = _
        rw [hbal, hcomp.step.amount]
        omega
    | failed p hf hfail =>
      obtain ⟨t₁, hw, he⟩ := hfail.writes
      have haccounts : (c.tx.view s).accounts = s.accounts := by
        rw [accounts_of_extends he fun w h => h.table_ne (by decide), view_of_writes hw]
        rfl
      have hp : s.payment? other = some p := hfail.payments.before
      refine h.skip ?_ ?_ (creditFor_of_accounts haccounts) ?_
      · intro hn
        rw [hp] at hn
        cases hn
      · intro q hq
        rw [hp] at hq
        cases hq
        exact ⟨_, hfail.payments.find_self, .inr ⟨hfail.inFlight, rfl⟩⟩
      · refine completedReport_of_other hop fun hc => ?_
        rw [hf] at hc
        cases hc.2
    | processing hproc he htouch =>
      have hview : c.tx.view s = s := view_of_touches htouch s
      refine h.same (by rw [hview]) (creditFor_of_accounts (by rw [hview])) ?_
      refine completedReport_of_other hop fun hc => ?_
      rw [hproc] at hc
      cases hc.2
  · refine h.same (hd.other (Ne.symm hid)) ?_ (completedReport_of_other hop fun hc => hid hc.1)
    exact creditFor_of_not_about (by simp [Commit.about, hop, hid])

theorem Tracked.initiated (h : Tracked id s₀ log s) {now : Int}
    {input : PaymentService.InitiatePaymentInput} {outcome : PaymentService.ProviderOutcome}
    {answer : Payment} (hop : c.op = .initiate now input outcome) (hres : c.result = .payment answer)
    (hi : Initiated locks c.tx s answer) : Tracked id s₀ (log ++ [c]) (c.tx.view s) := by
  have hreport : completedReport id s c = 0 := by
    unfold completedReport
    rw [hop]
  cases hi with
  | answered hext =>
    have hrec : Table.Rewrites Payment.Recalled s.payments (c.tx.view s).payments := by
      obtain ⟨ws, he, hw⟩ := hext.writes
      rw [view_of_writes he]
      exact recalled_foldl hw s
    have hacc : (c.tx.view s).accounts = s.accounts :=
      accounts_of_extends hext (fun w h => h.table_ne (by decide)) s
    exact h.skip (fun hn => .inl (hrec.absent hn)) (fun p hp => hrec.row hp)
      (creditFor_of_accounts hacc) hreport
  | opened q hopen hst hacc hinv =>
    refine h.skip ?_ (fun p hp => (hopen.row hp).2) (creditFor_of_accounts hacc) hreport
    intro hn
    by_cases hne : id = q.id
    · subst hne
      exact .inr ⟨q, hopen.self, hst⟩
    · exact .inl (hopen.absent hn hne)
  | settled q q₀ t₁ invoice paidSum flip hopen hid hst hstep hset =>
    by_cases hne : id = q.id
    · subst hne
      refine h.complete ?_ hopen.self hst ?_
      · intro p hp
        exact absurd rfl (hopen.row hp).1
      · obtain ⟨a, ha, hbal⟩ := hset.credit hopen.self (hstep.invoiceId.trans hset.id.symm)
        unfold creditFor
        rw [if_pos (by simp [Commit.about, hop, hres, hid]), ha]
        show (c.tx.view s).balanceOf a - s.balanceOf a = _
        rw [hbal, hstep.amount]
        omega
    · refine h.skip (fun hn => .inl (hopen.absent hn hne)) (fun p hp => (hopen.row hp).2) ?_ hreport
      exact creditFor_of_not_about (by simp [Commit.about, hop, hres, hid, Ne.symm hne])

theorem Tracked.step (h : Tracked id s₀ log s) (hc : Committed locks Op.Gateway s c)
    (hmeets : NotFailedBefore id s c) : Tracked id s₀ (log ++ [c]) (c.tx.view s) := by
  obtain ⟨-, hop, hout⟩ := hc
  obtain ⟨op, t, result⟩ := c
  cases hout with
  | delivered hd => exact h.delivered rfl hmeets hd
  | initiated hi => exact h.initiated rfl rfl hi
  | _ => exact hop.elim

/-- **No lost money.**  In every interleaving of observations and re-initiates in which no
report of completion finds the payment failed, a payment that has been reported as completed
is completed and credited (or an admin has been alerted). -/
theorem accounted_of_notFailed {n : Nat} {s : Store} {cs : Schedule n} {σ : System n}
    (paymentId : Nat) (hs : s.WF) (hopen : ∀ p, s.payment? paymentId = some p → p.Open)
    (hcs : System.Starts Op.Gateway cs) (hrun : run s cs = some σ)
    (hmeets : AtEach (NotFailedBefore paymentId) s σ.log)
    (hreported : 0 < tally (completedReport paymentId) s σ.log) : Accounted paymentId s σ := by
  have hA : ∀ op, Op.Gateway op → op.MovesMoney := by
    intro op hop
    cases op with
    | deliver => trivial
    | initiate => trivial
    | _ => exact hop.elim
  have h₀ : Tracked paymentId s [] s := by
    refine ⟨rfl, fun _ => ⟨rfl, rfl⟩, ?_⟩
    intro p hp
    have ho := hopen p hp
    exact ⟨ho.2, fun hst => absurd hst ho.1, fun _ => ⟨rfl, rfl⟩⟩
  have h := ((chain_outcomes hA hs hcs hrun).and hmeets).invLog (Tracked paymentId s) h₀
    fun l s c h hc => h.step hc.1 hc.2
  cases hp : σ.db.payment? paymentId with
  | none =>
    have := (h.absent hp).2
    omega
  | some p =>
    obtain ⟨-, h₂, h₃⟩ := h.row p hp
    by_cases hst : p.status = .completed
    · exact .inl ⟨p, hp, hst, h₂ hst⟩
    · have := (h₃ hst).2
      omega

/-! ## The late report -/

/-- The poller gives the payment up before the provider reports it as paid. -/
def failedThenPaid : Schedule 1 :=
  request 0 (.deliver .settleFromKaspiPoller 5 30 ⟨30, .failed, none⟩) 7 0 ++
  (request 0 (.deliver .processWebhook 6 30 ⟨30, .completed, none⟩) 6 0 ++ [])

theorem failedThenPaid_not_accounted : ∃ σ : System 1, oneUnderWay.WF ∧
    (∀ p, oneUnderWay.payment? 30 = some p → p.Open) ∧ System.Starts Op.Gateway failedThenPaid ∧
    run oneUnderWay failedThenPaid = some σ ∧
    0 < tally (completedReport 30) oneUnderWay σ.log ∧ ¬Accounted 30 oneUnderWay σ := by
  obtain ⟨σ, hrun, h⟩ := run_shows run oneUnderWay failedThenPaid
    (fun σ => decide (0 < tally (completedReport 30) oneUnderWay σ.log) &&
      (σ.db.payment? 30).all (fun p => p.status == .failed) && !σ.db.refundRequired 30)
    (by decide +kernel)
  simp only [Bool.and_eq_true, decide_eq_true_eq, Bool.not_eq_true'] at h
  refine ⟨σ, by decide, ?_, ?_, hrun, h.1.1, ?_⟩
  · intro p hp
    cases hp
    exact ⟨by decide, by decide⟩
  · exact starts_request 0 7 0 trivial
      (starts_request 0 6 0 trivial starts_nil)
  · rintro (⟨p, hp, hst, -⟩ | halert)
    · have hf := h.1.2
      rw [hp] at hf
      simp [hst] at hf
    · rw [h.2] at halert
      cases halert

theorem accounted_of_notFailed_webhookAgainstPoller : ∃ σ : System 2,
    run oneUnderWay webhookAgainstPoller = some σ ∧ Accounted 30 oneUnderWay σ := by
  obtain ⟨σ, hrun, h⟩ := run_shows run oneUnderWay webhookAgainstPoller
    (fun σ => decide (AtEach (NotFailedBefore 30) oneUnderWay σ.log) &&
      decide (0 < tally (completedReport 30) oneUnderWay σ.log)) (by decide +kernel)
  simp only [Bool.and_eq_true, decide_eq_true_eq] at h
  refine ⟨σ, hrun, accounted_of_notFailed 30 (by decide) ?_ ?_ hrun h.1 h.2⟩
  · intro p hp
    cases hp
    exact ⟨by decide, by decide⟩
  · exact starts_request 0 2 0 trivial (starts_request 1 1 0 trivial
      (starts_steps 0 14 0 (starts_steps 1 3 0 starts_nil)))

end Billing
