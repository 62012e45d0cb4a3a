import Shyraq.Billing.Duplicates
import Shyraq.Billing.LatePayments

/-!
# The flag and the sum

A settlement is flagged exactly when its invoice has money already, whatever the sums.  Where a second
payment is the rest of a split the flag is wrong: it is right exactly when no second payment completes
within what is still to be paid.
-/

namespace Billing

open Kernel Transactions

/-- The payment is completed and was not before. -/
def Payment.CompletedSince (s : Store) (p : Payment) : Prop :=
  p.status = .completed ∧ (s.payment? p.id).all (fun q => q.status != .completed) = true

instance (s : Store) (p : Payment) : Decidable (p.CompletedSince s) := inferInstanceAs (Decidable (_ ∧ _))

/-- A payment that the commit completes on a live invoice is flagged as a double payment exactly when the
completed payments of the invoice, itself among them, exceed what it asks for. -/
def FlagsExcess (s : Store) (c : BillingCommit) : Prop :=
  ∀ p ∈ (c.tx.view s).payments, p.CompletedSince s → ∀ r ∈ s.invoice? p.invoiceId, r.status.live = true →
    (p.isDuplicate = true ↔ r.amountAfterDiscount < (c.tx.view s).paidSum p.invoiceId)

instance (s : Store) (c : BillingCommit) : Decidable (FlagsExcess s c) :=
  inferInstanceAs (Decidable (∀ p ∈ (c.tx.view s).payments, _))

/-- If this amount comes second to a live invoice, it exceeds what the invoice asks for. -/
def Store.secondExceeds (s : Store) (invoiceId : Nat) (amount : Int) : Bool :=
  (s.invoice? invoiceId).all fun r =>
    !r.status.live || !s.hasMoney invoiceId || decide (r.amountAfterDiscount < s.paidSum invoiceId + amount)

/-- No payment completes second within what its invoice asks for. -/
def SecondsExceed (s : Store) (c : BillingCommit) : Prop :=
  match c.op with
  | .deliver entry _ id v => Settling entry v.status →
      (s.payment? id).all (fun p => !p.status.inFlight || s.secondExceeds p.invoiceId p.amount) = true
  | .initiate _ input outcome => (∃ txn, outcome = .completed txn) → s.paymentByKey input.idempotencyKey = none →
      s.secondExceeds input.invoiceId (MoneyKzt.fromKzt input.amount) = true
  | _ => True

instance (s : Store) (c : BillingCommit) : Decidable (SecondsExceed s c) := by
  obtain ⟨op, tx, a⟩ := c
  apply Op.casesOn (motive := fun op => Decidable (SecondsExceed s ⟨op, tx, a⟩)) op <;> intros <;>
    dsimp only [SecondsExceed] <;> infer_instance

/-- As `initiate` opens payments: unflagged, and within what the invoice asks for. -/
def Store.Fits (s : Store) (p : Payment) : Prop :=
  p.refundRequired = false ∧ ∀ r ∈ s.invoice? p.invoiceId, p.amount ≤ r.amountAfterDiscount

/-- Every payment in flight is so. -/
def Store.Fit (s : Store) : Prop := ∀ p ∈ s.payments, p.status.inFlight = true → s.Fits p

instance (s : Store) : Decidable s.Fit := by
  unfold Store.Fit Store.Fits
  infer_instance

/-! ## One commit -/

variable {s s' : Store} {t : Tx Store Key Write} {c : BillingCommit}

/-- Nothing completes. -/
def NoneCompletes (s : Store) (t : Tx Store Key Write) : Prop := ∀ p ∈ (t.view s).payments, ¬p.CompletedSince s

/-- Payment `q` is the one that completes, and its row `p'` is flagged if the invoice has money. -/
structure Completing (s : Store) (t : Tx Store Key Write) (q p' : Payment) : Prop where
  status : p'.status = .completed
  invoiceId : p'.invoiceId = q.invoiceId
  row : p' ∈ (t.view s).payments
  since : p'.CompletedSince s
  only : ∀ p ∈ (t.view s).payments, p.CompletedSince s → p = p'
  lock : Key.payment q.invoiceId ∈ t.held
  checked : ∃ txn paidAt, ((PaymentPatch.completed txn paidAt).set q).Checked (s.hasMoney q.invoiceId) p'
  sum : (t.view s).paidSum q.invoiceId = s.paidSum q.invoiceId + q.amount

variable {p : Payment}

theorem not_since_of_row (h : s.payment? p.id = some p) : ¬p.CompletedSince s := by
  rintro ⟨hst, hall⟩
  rw [h, Option.all_some, hst] at hall
  cases hall

theorem none_of_recalled (hs : s.WF) (h : Table.Rewrites Payment.Recalled s.payments (t.view s).payments) :
    NoneCompletes s t := by
  intro p hp hsince
  obtain ⟨q, hq, hqp⟩ := h.row_before (Table.find_of_mem (hs.view t).paymentIds hp)
  rcases hqp with rfl | ⟨-, rfl⟩
  · exact not_since_of_row (show s.payment? p.id = some p from hq) hsince
  · cases hsince.1

theorem none_of_view (hs : s.WF) (h : t.view s = s) : NoneCompletes s t :=
  none_of_recalled hs (by rw [h]; exact .refl Payment.Recalled.refl _)

theorem none_of_failed {id : Nat} (hs : s.WF)
    (h : Table.Replaced s.payments (t.view s).payments id p (PaymentPatch.failed.set p)) : NoneCompletes s t := by
  intro q hq hsince
  have hfind : (t.view s).payment? q.id = some q := Table.find_of_mem (hs.view t).paymentIds hq
  by_cases hid : q.id = id
  · rw [hid, show (t.view s).payment? id = some _ from h.find_self] at hfind
    rw [← Option.some.inj hfind] at hsince
    cases hsince.1
  · exact not_since_of_row ((h.find_of_ne hid).symm.trans hfind) hsince

/-- What was committed under the lock shows the money that is there at the commit. -/
theorem hasMoney_of_rely {v : Store} {id : Nat} (h : paymentLocks.rely [.payment id] v s) :
    v.hasMoney id = s.hasMoney id := (PaymentMoves.hasMoney_eq h List.mem_cons_self).symm

theorem completing_of_delivered {id : Nat} {p' q q' : Payment} {invoice : Invoice} {paidSum : Int}
    {flip : Option InvoiceFlip} (hs : s.WF) (h : Completion paymentLocks id .start t s p p' invoice paidSum flip)
    (hc : Completes paymentLocks Store.WF .start t id s q q') : Completing s t q q' ∧ s.payment? id = some q := by
  have hq : s.payment? id = some q := hc.before
  obtain rfl : p = q := Option.some.inj ((show s.payment? id = some p from h.payments.before).symm.trans hq)
  obtain rfl : p' = q' :=
    Option.some.inj ((show (t.view s).payment? id = some p' from h.payments.find_self).symm.trans hc.after)
  have hid : p'.id = id := Table.id_of_find hc.after
  obtain ⟨v, txn, paidAt, hv, hrely, hpv, hchecked⟩ := hc.checked
  have hself : v.payment? p.id = some p := by
    rw [show p.id = id from Table.id_of_find hq]
    exact hpv
  have hother : v.hasOther p = s.hasMoney p.invoiceId :=
    (hasOther_of_inFlight hv hself h.inFlight).trans (hasMoney_of_rely hrely)
  refine ⟨⟨h.status, h.step.invoiceId, Table.mem_of_find hc.after, ⟨h.status, ?_⟩, ?_, hc.lock,
    ⟨txn, paidAt, hother ▸ hchecked⟩, ?_⟩, hq⟩
  · rw [hid, hq, Option.all_some]
    have hin := h.inFlight
    cases hst : p.status <;> rw [hst] at hin <;> first | rfl | cases hin
  · intro r hr hsince
    have hfind : (t.view s).payment? r.id = some r := Table.find_of_mem (hs.view t).paymentIds hr
    by_cases hrid : r.id = id
    · rw [hrid, hc.after] at hfind
      exact (Option.some.inj hfind).symm
    · exact absurd hsince (not_since_of_row ((h.payments.find_of_ne hrid).symm.trans hfind))
  · have hsum := (counting_paidSum p.invoiceId).sum_completed h.payments h.inFlight h.status h.step
    rw [← paidSum_eq, ← paidSum_eq] at hsum
    rw [hsum]
    simp [Tx.view_start]

theorem Inserted.absent {t₁ : Tx Store Key Write} (h : Inserted t₁ p s) : s.payment? p.id = none := by
  obtain ⟨ws, he, hw⟩ := h.recalls.writes
  have hrows : Table.Rewrites Payment.Recalled s.payments (t₁.view s).payments := by
    rw [view_of_writes he]
    exact recalled_foldl hw s
  cases hp : s.payment? p.id with
  | none => rfl
  | some q =>
    obtain ⟨q', hq', -⟩ := hrows.row hp
    cases (show (t₁.view s).payment? p.id = none from h.fresh.added.before).symm.trans hq'

theorem Inserted.free {t₁ : Tx Store Key Write} (h : Inserted t₁ p s) : s.paymentByKey p.idempotencyKey = none := by
  have hadmits := h.fresh.admitted
  rw [admits_of_recalls h.recalls] at hadmits
  simp only [Store.admitsPayment, Bool.and_eq_true, Bool.not_eq_true', List.any_eq_false, beq_iff_eq] at hadmits
  exact paymentByKey_eq_none.2 hadmits.2

theorem since_of_opening {q : Payment} (hs : s.WF) (h : Opening t s q) (hp : p ∈ (t.view s).payments)
    (hsince : p.CompletedSince s) : p = q := by
  have hfind : (t.view s).payment? p.id = some p := Table.find_of_mem (hs.view t).paymentIds hp
  cases hbefore : s.payment? p.id with
  | some r =>
    obtain ⟨-, r', hr', hrecalled⟩ := h.row hbefore
    obtain rfl := Option.some.inj (hr'.symm.trans hfind)
    rcases hrecalled with rfl | ⟨-, rfl⟩
    · exact absurd hsince (not_since_of_row hbefore)
    · cases hsince.1
  | none =>
    have hid : p.id = q.id := by
      by_contra hne
      cases (h.absent hbefore hne).symm.trans hfind
    rw [hid, h.self] at hfind
    exact (Option.some.inj hfind).symm

theorem opening_of_new {p' : Payment} {answer : Payment} (hi : Initiated paymentLocks t s answer)
    (habsent : s.payment? p.id = none) (hrow : (t.view s).payment? p.id = some p') : Opening t s p' := by
  have same : ∀ {q}, Opening t s q → Opening t s p' := by
    intro q h
    have hid : p.id = q.id := by
      by_contra hne
      cases (h.absent habsent hne).symm.trans hrow
    rw [hid, h.self] at hrow
    exact Option.some.inj hrow ▸ h
  cases hi with
  | answered h =>
    obtain ⟨ws, he, hw⟩ := h.writes
    have hrows := recalled_foldl hw s
    rw [show ws.foldl Store.apply s = t.view s from (view_of_writes he s).symm] at hrows
    cases (show (t.view s).payment? p.id = none from hrows.absent habsent).symm.trans hrow
  | opened q h => exact same h
  | settled q q₀ t₁ invoice paidSum flip h => exact same h

theorem completing_of_initiated {t₁ : Tx Store Key Write} {p' answer : Payment} (hs : s.WF)
    (hi : Initiated paymentLocks t s answer) (hins : Inserted t₁ p s)
    (hc : Completes paymentLocks (fun v => v.WF ∧ Inserted t₁ p v) (t₁.wrote (.insertPayment p)) t p.id s p p') :
    Completing s t p p' := by
  have hopen : Opening t s p' := opening_of_new hi hins.absent hc.after
  obtain ⟨v, txn, paidAt, hv, hrely, hpv, hchecked⟩ := hc.checked
  have hother : ((t₁.wrote (.insertPayment p)).view v).hasOther p = s.hasMoney p.invoiceId :=
    (hasOther_of_inFlight (hv.1.view _) hpv hc.inFlight).trans
      ((hasMoney_inserted hv.1 hv.2 p.invoiceId).trans (hasMoney_of_rely hrely))
  have hstatus : p'.status = .completed ∧ p'.invoiceId = p.invoiceId := hchecked.status
  have hamount : p'.amount = p.amount ∧ p'.id = p.id := by
    rcases Bool.eq_false_or_eq_true (((t₁.wrote (.insertPayment p)).view v).hasOther p) with h | h <;>
      rw [h] at hchecked
    · obtain ⟨d, rfl⟩ := hchecked
      exact ⟨rfl, rfl⟩
    · rw [show p' = _ from hchecked]
      exact ⟨rfl, rfl⟩
  refine ⟨hstatus.1, hstatus.2, Table.mem_of_find hc.after, ⟨hstatus.1, ?_⟩, fun r hr hsince =>
    since_of_opening hs hopen hr hsince, hc.lock, ⟨txn, paidAt, hother ▸ hchecked⟩, ?_⟩
  · rw [hamount.2, hins.absent]
    rfl
  · have hsum := (counting_paidSum p.invoiceId).sum_opened hs hopen
    rw [← paidSum_eq, ← paidSum_eq, (counting_paidSum p.invoiceId).share_completed hstatus.1, hstatus.2, hamount.1]
      at hsum
    simpa using hsum

/-- What the request has checked. -/
def CheckedBy (t : Tx Store Key Write) (s : Store) : Op → Prop
  | .deliver entry _ id v => Settling entry v.status → Past .start id s ∨
      ∃ q p', Completes paymentLocks Store.WF .start t id s q p'
  | .initiate _ input outcome => Initiation paymentLocks Store.WF input outcome t s
  | _ => True

/-- A commit completes nothing, or one payment, and that one fits if the payments in flight do. -/
inductive Completed (s : Store) (c : BillingCommit) : Prop
  | none (h : NoneCompletes s c.tx) (condition : SecondsExceed s c)
  | one (q p' : Payment) (h : Completing s c.tx q p') (fits : s.Fit → s.Fits q)
      (condition : SecondsExceed s c ↔ s.secondExceeds q.invoiceId q.amount = true)

theorem completed_of_committed (hc : Committed paymentLocks Op.Gateway s c) (h : CheckedBy c.tx s c.op) :
    Completed s c := by
  obtain ⟨op, t, a⟩ := c
  obtain ⟨hs, hop, hout⟩ := hc
  cases hout with
  | @delivered entry now id v a hd =>
    have past : (∃ q, s.payment? id = some q ∧ q.status.inFlight = false) →
        SecondsExceed s ⟨.deliver entry now id v, t, a⟩ := by
      rintro ⟨q, hq, hpast⟩ -
      rw [hq, Option.all_some, hpast]
      rfl
    by_cases hset : Settling entry v.status
    · rcases h hset with hpast | ⟨q, q', hcompletes⟩
      · refine .none ?_ (past hpast)
        obtain ⟨q, hq, hflight⟩ := hpast
        have hq : s.payment? id = some q := hq
        have absurdly : ∀ {p : Payment}, s.payment? id = some p → p.status.inFlight = true → False := by
          intro p hp hin
          rw [Option.some.inj (hp.symm.trans hq), hflight] at hin
          cases hin
        cases hd with
        | noted h => exact none_of_view hs (view_of_touches h.1 s)
        | completed p p' invoice paidSum flip hst hpr h => exact (absurdly h.payments.before h.inFlight).elim
        | failed p hst h => exact absurd hst hset.1
        | processing hst he h => exact absurd he (hset.2 hst)
      · cases hd with
        | noted h =>
          obtain ⟨p, hp, hpast⟩ := h.2
          rw [Option.some.inj (hp.symm.trans hcompletes.before), hcompletes.inFlight] at hpast
          cases hpast
        | completed p p' invoice paidSum flip hst hpr h =>
          obtain ⟨hcompleting, hq⟩ := completing_of_delivered hs h hcompletes
          refine .one q q' hcompleting (fun hfit => hfit q (Table.mem_of_find hq) hcompletes.inFlight) ?_
          constructor
          · intro hcond
            have hall : (s.payment? id).all (fun p => !p.status.inFlight || s.secondExceeds p.invoiceId p.amount) = true :=
              hcond hset
            rw [hq, Option.all_some, hcompletes.inFlight] at hall
            exact hall
          · intro hexceeds _
            rw [hq, Option.all_some, hexceeds, Bool.or_true]
        | failed p hst h => exact absurd hst hset.1
        | processing hst he h => exact absurd he (hset.2 hst)
    · refine .none ?_ fun h => absurd h hset
      cases hd with
      | noted h => exact none_of_view hs (view_of_touches h.1 s)
      | completed p p' invoice paidSum flip hst hpr h => exact absurd ⟨hst, hpr⟩ hset
      | failed p hst h => exact none_of_failed hs h.payments
      | processing hst he h => exact none_of_view hs (view_of_touches h s)
  | @initiated now input outcome answer hi =>
    rcases h with ⟨hknown, hext⟩ | ⟨p, t₁, hopened, hins, ⟨hcompleted, p', hcompletes⟩ | ⟨hnot, p', hrow, hwaits⟩⟩
    · refine .none ?_ fun _ hfree => ?_
      · obtain ⟨ws, he, hw⟩ := hext.writes
        refine none_of_recalled hs ?_
        rw [show t.view s = ws.foldl Store.apply s from view_of_writes he s]
        exact recalled_foldl hw s
      · rw [hfree] at hknown
        cases hknown
    · refine .one p p' (completing_of_initiated hs hi hins hcompletes) (fun _ => ⟨hopened.unflagged, ?_⟩) ?_
      · obtain ⟨r, hr, hwithin⟩ := hopened.within
        intro r' hr'
        rwa [Option.some.inj (hr'.symm.trans hr)]
      · rw [hopened.invoice, hopened.amount]
        refine ⟨fun hcond => hcond hcompleted (hopened.key ▸ hins.free), fun hexceeds _ _ => hexceeds⟩
    · refine .none (fun r hr hsince => ?_) fun hcompleted => absurd hcompleted hnot
      rw [since_of_opening hs (opening_of_new hi hins.absent hrow) hr hsince] at hsince
      exact hwaits.status hsince.1
  | _ => exact hop.elim

theorem flagsExcess_iff_of_completing {q p' : Payment} (h : Completing s c.tx q p') (hfits : s.Fits q) :
    FlagsExcess s c ↔ s.secondExceeds q.invoiceId q.amount = true := by
  obtain ⟨txn, paidAt, hchecked⟩ := h.checked
  have hflag : p'.isDuplicate = s.hasMoney q.invoiceId := hchecked.isDuplicate hfits.1
  have hone : FlagsExcess s c ↔ ∀ r ∈ s.invoice? q.invoiceId, r.status.live = true →
      (s.hasMoney q.invoiceId = true ↔ r.amountAfterDiscount < s.paidSum q.invoiceId + q.amount) := by
    rw [← hflag, ← h.sum, ← h.invoiceId]
    constructor
    · exact fun hall => hall p' h.row h.since
    · intro hp' p hp hsince
      obtain rfl := h.only p hp hsince
      exact hp'
  rw [hone]
  unfold Store.secondExceeds
  cases hr : s.invoice? q.invoiceId with
  | none => simp
  | some r =>
    have hwithin : q.amount ≤ r.amountAfterDiscount := hfits.2 r hr
    cases hlive : r.status.live with
    | false => simp [hlive]
    | true =>
      cases hmoney : s.hasMoney q.invoiceId with
      | true => simp [hlive]
      | false =>
        -- nothing is paid yet, and the payment is within what is asked for
        have hnone : s.paidSum q.invoiceId ≤ 0 := by
          by_contra hpos
          rw [hasMoney_of_paidSum (by omega)] at hmoney
          cases hmoney
        have hle : s.paidSum q.invoiceId + q.amount ≤ r.amountAfterDiscount := by omega
        simpa [hlive] using hle

theorem flagsExcess_iff (hfit : s.Fit) (h : Completed s c) : FlagsExcess s c ↔ SecondsExceed s c := by
  cases h with
  | none h condition => exact iff_of_true (fun p hp hsince => absurd hsince (h p hp)) condition
  | one q p' h fits condition => exact (flagsExcess_iff_of_completing h (fits hfit)).trans condition.symm

/-! ## Payments go on fitting -/

theorem Store.Fits.of_invoices (h : s.Fits p)
    (hinv : Table.Rewrites Invoice.Step s.invoices s'.invoices) : s'.Fits p := by
  refine ⟨h.1, fun r' hr' => ?_⟩
  obtain ⟨r, hr, hstep⟩ := hinv.row_before hr'
  rw [show r'.amountAfterDiscount = r.amountAfterDiscount by rw [hstep.1]]
  exact h.2 r hr

theorem fit_of_opening {p' : Payment} (hs : s.WF) (hfit : s.Fit) (h : Opening t s p')
    (hinv : Table.Rewrites Invoice.Step s.invoices (t.view s).invoices)
    (hp' : p'.status.inFlight = true → (t.view s).Fits p') : (t.view s).Fit := by
  intro q hq hin
  have hfind : (t.view s).payment? q.id = some q := Table.find_of_mem (hs.view t).paymentIds hq
  cases hbefore : s.payment? q.id with
  | some r =>
    obtain ⟨-, r', hr', hrecalled⟩ := h.row hbefore
    obtain rfl := Option.some.inj (hr'.symm.trans hfind)
    rcases hrecalled with rfl | ⟨-, rfl⟩
    · exact (hfit r' (Table.mem_of_find hbefore) hin).of_invoices hinv
    · cases hin
  | none =>
    have hid : q.id = p'.id := by
      by_contra hne
      cases (h.absent hbefore hne).symm.trans hfind
    rw [hid, h.self] at hfind
    obtain rfl := Option.some.inj hfind
    exact hp' hin

theorem fit_of_committed (hfit : s.Fit) (hc : Committed paymentLocks Op.Gateway s c) (h : CheckedBy c.tx s c.op) :
    (c.tx.view s).Fit := by
  have hinv := hc.outcome.invoices
  have hs := hc.wf
  have flown : Flown s (c.tx.view s) → (c.tx.view s).Fit := fun hflown q hq hin =>
    (hfit q (hflown q hq hin) hin).of_invoices hinv
  obtain ⟨op, t, a⟩ := c
  obtain ⟨-, hop, hout⟩ := hc
  cases hout with
  | delivered hd => exact flown (flown_of_delivered hs hd)
  | @initiated now input outcome answer hi =>
    rcases h with ⟨-, hext⟩ | ⟨p, t₁, hopened, hins, ⟨-, p', hcompletes⟩ | ⟨-, p', hrow, hwaits⟩⟩
    · exact flown (flown_of_recalls hs hext)
    · refine fit_of_opening hs hfit (opening_of_new hi hins.absent hcompletes.after) hinv fun hin => ?_
      rw [(completing_of_initiated hs hi hins hcompletes).status] at hin
      cases hin
    · refine fit_of_opening hs hfit (opening_of_new hi hins.absent hrow) hinv fun _ => ?_
      have hfits : s.Fits p' := by
        refine ⟨hwaits.unflagged, fun r' hr' => ?_⟩
        obtain ⟨r, hr, hwithin⟩ := hopened.within
        rw [hwaits.invoiceId] at hr'
        rw [hwaits.amount, Option.some.inj (hr'.symm.trans hr)]
        exact hwithin
      exact hfits.of_invoices hinv
  | _ => exact hop.elim

/-! ## Every run -/

theorem Op.Gateway.settles {op : Op} (h : op.Gateway) : op.Settles := by
  cases op with
  | deliver => trivial
  | initiate => trivial
  | _ => exact h.elim

theorem guarantee_paymentLocks (hc : Committed paymentLocks Op.Gateway s c) (h : CheckedBy c.tx s c.op)
    (hcov : ∀ w ∈ c.tx.writes, Covered c.tx.held w) : paymentLocks.Guarantee c.tx s := by
  have hs := hc.wf
  have hshows := hc.outcome.shows hc.allowed.settles
  intro held hd
  refine { guarantee_locks hcov s held hd with money := fun id => hshows.money hs, first := fun id hk hmoney => ?_ }
  obtain ⟨p, hp, hinvoice, hst⟩ := hasMoney_iff.1 hmoney
  -- money that has come since has come under the lock
  by_cases hsince : p.CompletedSince s
  · cases completed_of_committed hc h with
    | none h _ => exact absurd hsince (h p hp)
    | one q p' h _ _ =>
      obtain rfl := h.only p hp hsince
      have hlock := h.lock
      rw [← h.invoiceId, hinvoice] at hlock
      exact (hd hlock hk).elim
  · have hrow : ∃ r, s.payment? p.id = some r ∧ r.status = .completed := by
      cases hr : s.payment? p.id with
      | none => exact absurd ⟨hst, by rw [hr]; rfl⟩ hsince
      | some r =>
        refine ⟨r, rfl, ?_⟩
        by_contra hne
        exact hsince ⟨hst, by rw [hr, Option.all_some, bne_iff_ne]; exact hne⟩
    obtain ⟨r, hr, hcompleted⟩ := hrow
    have hstays := hshows.completed p.id r hr hcompleted
    rw [show (c.tx.view s).payment? p.id = some p from Table.find_of_mem (hs.view c.tx).paymentIds hp] at hstays
    rw [← hinvoice, Option.some.inj hstays]
    exact hasMoney_of_row hr hcompleted

theorem setting_paymentLocks : Setting paymentLocks Store.WF (fun _ => True) where
  moves h := h.toMoves
  wf h := h
  throws _ := trivial

theorem safe_checked (hs : s.WF) (op : Op) (hop : op.Gateway) :
    Prog.Safe paymentLocks Store.WF (fun _ => True) (fun t s _ => CheckedBy t s op) op.prog .start s := by
  cases op with
  | deliver entry now id v =>
    exact (safe_deliverChecked setting_paymentLocks hs now id v entry).map fun _ _ _ _ h => h
  | initiate now input outcome =>
    exact (safe_initiateChecked setting_paymentLocks now input outcome).map fun _ _ _ _ h => h
  | _ => exact hop.elim

/-- A commit of a gateway request, with what it has checked. -/
structure Checked (s : Store) (c : BillingCommit) : Prop where
  committed : Committed paymentLocks Op.Gateway s c
  checked : CheckedBy c.tx s c.op

theorem chain_checked {n : Nat} {cs : Schedule n} {σ : System n} (hs : s.WF) (hcs : System.Starts Op.Gateway cs)
    (hrun : run s cs = some σ) : Chain Checked s σ.log σ.db := by
  have h := chain_of_covered (R := Checked) (D := paymentLocks) (fun op hop => covered_prog op hop.settles.movesMoney)
    (fun op s hop hs => ?_) (fun s c hj _ => hj.view c.tx)
    (fun s c _ h hcov => guarantee_paymentLocks h.committed h.checked hcov) hs hcs hrun
  · exact h.mono fun s c h => h.2
  · refine ((safe_prog setting_paymentLocks hs op hop.settles.movesMoney).and (safe_checked hs op hop)).mono ?_
    intro t s a hj h
    exact ⟨⟨hj, hop, h.1⟩, h.2⟩

/-- **Double payments.**  In every interleaving of gateway payments that are opened and completed, each is
flagged exactly when the completed payments exceed what its invoice asks for, if and only if no payment
completes second within what the invoice asks for. -/
theorem flagsExcess_iff_secondsExceed {n : Nat} {s : Store} {cs : Schedule n} {σ : System n} (hs : s.WF)
    (hfit : s.Fit) (hcs : System.Starts Op.Gateway cs) (hrun : run s cs = some σ) :
    AtEach FlagsExcess s σ.log ↔ AtEach SecondsExceed s σ.log := by
  have hchain := (chain_checked hs hcs hrun).before Store.Fit hfit fun s c hfit h =>
    fit_of_committed hfit h.committed h.checked
  refine AtEach.congr (hchain.mono fun s c h => ?_).atEach
  exact flagsExcess_iff h.1 (completed_of_committed h.2.committed h.2.checked)

/-- One half of an invoice of 1000, paid by this payer. -/
def payHalf (key payerUserId : Nat) : PaymentService.InitiatePaymentInput where
  invoiceId := 20
  amount := 5
  paymentMode := .partial_
  provider := .kaspiPay
  idempotencyKey := .client key
  payerUserId := some payerUserId
  providerEnabled := true
  bccActive := true

/-- Two parents pay one half each, one after the other. -/
def halfEach : Schedule 1 :=
  request 0 (.initiate 1 (payHalf 1 2) (.initiated 70)) 10 30 ++
  (request 0 (.deliver .processWebhook 5 30 ⟨70, .completed, none⟩) 15 0 ++
  (request 0 (.initiate 6 (payHalf 2 3) (.initiated 71)) 10 31 ++
  (request 0 (.deliver .processWebhook 7 31 ⟨71, .completed, none⟩) 20 0 ++ [])))

/-- The second half is flagged as a double payment. -/
theorem halfEach_not_flagsExcess : ∃ σ : System 1, (Store.oneInvoice .other 1000).WF ∧
    (Store.oneInvoice .other 1000).Fit ∧ System.Starts Op.Gateway halfEach ∧
    run (Store.oneInvoice .other 1000) halfEach = some σ ∧
    ¬AtEach FlagsExcess (Store.oneInvoice .other 1000) σ.log := by
  obtain ⟨σ, hrun, h⟩ := run_shows run (Store.oneInvoice .other 1000) halfEach
    (fun σ => !decide (AtEach FlagsExcess (Store.oneInvoice .other 1000) σ.log)) (by decide +kernel)
  refine ⟨σ, by decide, by decide, ?_, hrun, fun hat => ?_⟩
  · exact starts_request 0 10 30 trivial (starts_request 0 15 0 trivial
      (starts_request 0 10 31 trivial (starts_request 0 20 0 trivial starts_nil)))
  · rw [decide_eq_true hat] at h
    cases h

/-- Two payments under way that together exceed the invoice. -/
def beyondUnderWay : Store :=
  { Store.oneInvoice .other 1000 with payments := [gatewayPayment 30 1000, gatewayPayment 31 700] }

/-- The second report waits for the settlement of the first. -/
def beyondCompleted : Schedule 2 :=
  request 0 (.deliver .processWebhook 5 30 ⟨30, .completed, none⟩) 4 0 ++
  (request 1 (.deliver .settleFromKaspiPoller 6 31 ⟨31, .completed, none⟩) 1 0 ++
  (steps 0 12 0 ++ (steps 1 19 0 ++ [])))

theorem flagsExcess_iff_secondsExceed_beyondCompleted : ∃ σ : System 2,
    run beyondUnderWay beyondCompleted = some σ ∧ σ.log.length = 2 ∧ AtEach FlagsExcess beyondUnderWay σ.log := by
  obtain ⟨σ, hrun, h⟩ := run_shows run beyondUnderWay beyondCompleted
    (fun σ => decide (σ.log.length = 2) && decide (AtEach SecondsExceed beyondUnderWay σ.log)) (by decide +kernel)
  rw [Bool.and_eq_true, decide_eq_true_eq, decide_eq_true_eq] at h
  refine ⟨σ, hrun, h.1, (flagsExcess_iff_secondsExceed (by decide) (by decide) ?_ hrun).2 h.2⟩
  exact starts_request 0 4 0 trivial (starts_request 1 1 0 trivial
    (starts_steps 0 12 0 (starts_steps 1 19 0 starts_nil)))

end Billing
