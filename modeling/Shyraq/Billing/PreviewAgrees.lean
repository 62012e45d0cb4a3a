import Shyraq.Billing.Prepaying
import Shyraq.Billing.Requests

/-!
# Preview and create

The preview quotes the store as it is, the create path the store after the retry.  Both come to
the same where the retry leaves the winning discounts as they are, the tariff is there whatever
blocks the child, and no discount comes to nothing.
-/

namespace Billing

open Kernel Transactions InvoiceService

/-- The preview tells how the request ends: its blocking reason, or the invoice. -/
def Agrees (childId : Nat) (months : PrepaymentMonths) :
    Except BillingError ((BlockedReason ⊕ PrepaymentQuote) × Tx Store Key Write) →
    Except BillingError (Invoice × Tx Store Key Write) → Store → Prop
  | .ok (.inl reason, _), .error e, _ => e = blockedError reason
  | .ok (.inr quote, _), .ok (i, t), s => Persists childId months quote (t.view s) i
  | .error e, .error e', _ => e' = e
  | .ok (.inl _, _), .ok _, _ | .ok (.inr _, _), .error _, _ | .error _, .ok _, _ => False

/-! ## What decides -/

namespace Store

variable (s : Store) (now : Int) (childId : Nat) (months : PrepaymentMonths)

/-- Whatever blocks the child, its tariff has a percentage for the horizon. -/
def configured : Bool :=
  (s.blocked childId).isNone || (match s.tariffFor now childId months with
    | .ok _ => true
    | .error _ => false)

/-- The request comes to a price: a tariff, nothing that blocks, a window of its own. -/
structure Open (assignment : TariffAssignment) (tariffPlan : TariffPlan) : Prop where
  tariff : s.tariffFor now childId months = .ok (assignment, tariffPlan)
  unblocked : s.blocked childId = none
  window : overlappingCovered (s.paidPrepayments now childId) (s.prepaymentWindow now childId) months.count = []

/-- The custom discounts on the window, with what each takes off. -/
def takenOff (assignment : TariffAssignment) (tariffPlan : TariffPlan) : List (CustomDiscount × Decimal) :=
  DiscountEngine.applyAmounts
    ((s.windowMonths assignment tariffPlan (s.prepaymentWindow now childId) months).map QuoteMonth.baseAmount).sum 0
    (s.winning now childId months)

/-- What each discount takes off rounds to an amount that the ledger admits. -/
def recordable : Bool :=
  match s.tariffFor now childId months with
  | .error _ => true
  | .ok (assignment, tariffPlan) =>
      (s.blocked childId).isSome ||
      !(overlappingCovered (s.paidPrepayments now childId) (s.prepaymentWindow now childId) months.count).isEmpty ||
      ((s.afterRetry childId).takenOff now childId months assignment tariffPlan).all fun x =>
        decide (0 < MoneyKzt.round x.2)

/-- The retry changes no discount that wins. -/
def SameWinners : Prop :=
  ((s.afterRetry childId).winning now childId months).map CustomDiscount.unspent =
    (s.winning now childId months).map CustomDiscount.unspent

/-- Percentage and price of the window. -/
def price (assignment : TariffAssignment) (tariffPlan : TariffPlan) : Option Decimal × Int :=
  let discount := s.prepaymentDiscount now childId months assignment tariffPlan
  (discount.discountPct, MoneyKzt.roundToWholeKzt (computeAmountAfterDiscount
    ((s.windowMonths assignment tariffPlan (s.prepaymentWindow now childId) months).map QuoteMonth.baseAmount).sum
    discount.discountPct discount.customDiscountAmount))

/-- The retry leaves the price as it is. -/
def SamePrice : Prop :=
  ∀ assignment tariffPlan, s.Open now childId months assignment tariffPlan →
    (s.afterRetry childId).price now childId months assignment tariffPlan =
      s.price now childId months assignment tariffPlan

end Store

variable {s : Store} {now : Int} {childId : Nat} {months : PrepaymentMonths} {assignment : TariffAssignment}
  {tariffPlan : TariffPlan}

theorem quote_open (h : s.Open now childId months assignment tariffPlan) :
    ∃ quote, s.quote now childId months = .ok (.inr quote) ∧
      quote.discount = s.prepaymentDiscount now childId months assignment tariffPlan ∧
      (quote.discount.discountPct, quote.total) = s.price now childId months assignment tariffPlan := by
  obtain ⟨quote, hq⟩ := @Store.priced_ok s assignment tariffPlan (s.prepaymentWindow now childId) months
    (s.prepaymentDiscount now childId months assignment tariffPlan)
  refine ⟨quote, ?_, ?_⟩
  · unfold Store.quote Store.openQuote
    rw [h.tariff]
    dsimp only
    rw [h.unblocked]
    dsimp only
    rw [h.window]
    exact (if_pos rfl).trans (by rw [hq]; rfl)
  · unfold Store.priced at hq
    dsimp only at hq
    split at hq
    · cases hq
      exact ⟨rfl, rfl⟩
    · cases hq

theorem open_of_quote {quote : PrepaymentQuote} (h : s.quote now childId months = .ok (.inr quote)) :
    ∃ assignment tariffPlan, s.Open now childId months assignment tariffPlan := by
  unfold Store.quote at h
  cases ht : s.tariffFor now childId months with
  | error e =>
    rw [ht] at h
    cases h
  | ok pair =>
    rw [ht] at h
    dsimp only at h
    cases hb : s.blocked childId with
    | some reason =>
      rw [hb] at h
      cases h
    | none =>
      rw [hb] at h
      unfold Store.openQuote at h
      dsimp only at h
      split at h
      · next hw => exact ⟨pair.1, pair.2, ht, hb, List.isEmpty_iff.1 hw⟩
      · cases h

theorem open_afterRetry (hs : Table.Unique s.invoices) (h : s.Open now childId months assignment tariffPlan) :
    (s.afterRetry childId).Open now childId months assignment tariffPlan where
  tariff := (tariffFor_afterRetry now months).trans h.tariff
  unblocked := blocked_afterRetry hs h.unblocked
  window := by
    rw [paidPrepayments_afterRetry hs, prepaymentWindow_afterRetry hs]
    exact h.window

theorem recordable_iff (h : s.Open now childId months assignment tariffPlan) :
    s.recordable now childId months = true ↔
      Recordable ((s.afterRetry childId).prepaymentDiscount now childId months assignment tariffPlan) := by
  have hbool : s.recordable now childId months =
      ((s.afterRetry childId).takenOff now childId months assignment tariffPlan).all fun x =>
        decide (0 < MoneyKzt.round x.2) := by
    unfold Store.recordable
    rw [h.tariff]
    dsimp only
    rw [h.unblocked, h.window]
    rfl
  have hrows : ((s.afterRetry childId).prepaymentDiscount now childId months assignment
      tariffPlan).customApplicationsToWrite = ((s.afterRetry childId).takenOff now childId months assignment
        tariffPlan).map fun x => ⟨x.1.id, MoneyKzt.round x.2, x.1.name⟩ := DiscountEngine.applications_eq _
  rw [hbool, List.all_eq_true]
  unfold Recordable
  rw [hrows]
  simp only [List.mem_map, forall_exists_index, and_imp, forall_apply_eq_imp_iff₂, decide_eq_true_eq]

/-- Before the price nothing depends on the discounts; with the same winners the price does not either. -/
theorem quote_afterRetry (hs : Table.Unique s.invoices) (hb : s.blocked childId = none)
    (hwin : s.SameWinners now childId months) :
    (s.afterRetry childId).quote now childId months = s.quote now childId months := by
  unfold Store.quote
  rw [tariffFor_afterRetry, hb, blocked_afterRetry hs hb]
  cases s.tariffFor now childId months with
  | error e => rfl
  | ok pair =>
    dsimp only
    unfold Store.openQuote
    dsimp only
    rw [paidPrepayments_afterRetry hs, prepaymentWindow_afterRetry hs, windowMonths_afterRetry,
      prepaymentDiscount_afterRetry hs hwin]

/-! ## The two requests -/

section

variable {ids ids' : List Nat} {previewed : Except BillingError ((BlockedReason ⊕ PrepaymentQuote) × Tx Store Key Write)}
  {created : Except BillingError (Invoice × Tx Store Key Write)}

theorem previewed_eq (h : (computePrepaymentQuote now childId months false).alone s ids .start = some previewed) :
    ∃ t, t.writes = [] ∧ previewed = (s.quote now childId months).map fun r => (r, t) := by
  obtain ⟨t, ht, halone⟩ := Prog.alone_of_reads ids (t := Tx.start)
    (reads_computePrepaymentQuote s now childId months)
  exact ⟨t, ht, Option.some.inj (h.symm.trans halone)⟩

theorem created_ends (hs : s.Constrained)
    (h : (prepayInvoice now childId months).alone s ids .start = some created) :
    Prog.Ends (Refuses s now childId months)
      (fun t i => ∃ quote, InvoiceService.Prepays s now childId months quote (t.view s) i) created :=
  Prog.Safe.alone (safe_prepayInvoice (J := fun _ => True) trivial hs now childId months) trivial h

theorem agrees_of_sameWinners (hs : s.Constrained)
    (hprev : (computePrepaymentQuote now childId months false).alone s ids .start = some previewed)
    (hnew : (prepayInvoice now childId months).alone s ids' .start = some created)
    (hconf : s.configured now childId months = true) (hwin : s.SameWinners now childId months)
    (hrec : s.recordable now childId months = true) : Agrees childId months previewed created s := by
  obtain ⟨t, -, rfl⟩ := previewed_eq hprev
  have hends := created_ends hs hnew
  cases hb : s.blocked childId with
  | some reason =>
    -- the tariff is there, so the preview gets as far as the reason
    obtain ⟨pair, ht⟩ : ∃ pair, s.tariffFor now childId months = .ok pair := by
      unfold Store.configured at hconf
      rw [hb] at hconf
      cases ht : s.tariffFor now childId months with
      | error e =>
        rw [ht] at hconf
        cases hconf
      | ok pair => exact ⟨pair, rfl⟩
    have hq : s.quote now childId months = .ok (.inl reason) := by
      unfold Store.quote
      rw [ht]
      dsimp only
      rw [hb]
    rw [hq]
    cases created with
    | error e =>
      cases hends with
      | blocked h => exact congrArg blockedError (Option.some.inj (h.symm.trans hb))
      | quote h => cases h.symm.trans hb
      | overlap h => cases h.symm.trans hb
      | ledger h => cases h.symm.trans hb
    | ok made =>
      obtain ⟨quote, hp⟩ := hends
      cases hp.unblocked.symm.trans hb
  | none =>
    have hquote := quote_afterRetry hs.invoices hb hwin
    cases created with
    | error e =>
      cases hends with
      | blocked h => cases h.symm.trans hb
      | quote _ h =>
        rw [← hquote, h]
        exact rfl
      | overlap _ h =>
        rw [← hquote, h]
        exact rfl
      | ledger _ h hno =>
        obtain ⟨assignment, tariffPlan, hopen⟩ := open_of_quote (hquote.symm.trans h)
        obtain ⟨quote, hq, hd, -⟩ := quote_open (open_afterRetry hs.invoices hopen)
        have hsame := Sum.inr.inj (Except.ok.inj (h.symm.trans hq))
        rw [hsame, hd] at hno
        exact absurd ((recordable_iff hopen).1 hrec) hno
    | ok made =>
      obtain ⟨quote, hp⟩ := hends
      rw [← hquote, hp.quoted]
      exact hp.persists

theorem quote_error_ne {e : BillingError} (h : s.quote now childId months = .error e) (reason : BlockedReason) :
    e ≠ blockedError reason := by
  have htariff : s.tariffFor now childId months = .error e := by
    unfold Store.quote at h
    cases ht : s.tariffFor now childId months with
    | error e' =>
      rw [ht] at h
      cases h
      rfl
    | ok pair =>
      rw [ht] at h
      dsimp only at h
      split at h
      · cases h
      · unfold Store.openQuote at h
        dsimp only at h
        split at h
        · obtain ⟨quote, hq⟩ := @Store.priced_ok s pair.1 pair.2 (s.prepaymentWindow now childId) months
            (s.prepaymentDiscount now childId months pair.1 pair.2)
          rw [hq] at h
          cases h
        · cases h
  unfold Store.tariffFor at htariff
  intro he
  subst he
  split at htariff
  · cases reason <;> cases htariff
  · split at htariff
    · cases reason <;> cases htariff
    · split at htariff
      · cases htariff
      · cases reason <;> cases htariff

/-- Where preview and create agree, the tariff is there, the ledger admits the discounts, and the
retry has left the price. -/
theorem decides_of_agrees (hs : s.Constrained)
    (hprev : (computePrepaymentQuote now childId months false).alone s ids .start = some previewed)
    (hnew : (prepayInvoice now childId months).alone s ids' .start = some created)
    (h : Agrees childId months previewed created s) :
    s.configured now childId months = true ∧ s.recordable now childId months = true ∧
      s.SamePrice now childId months := by
  obtain ⟨t, -, rfl⟩ := previewed_eq hprev
  have hends := created_ends hs hnew
  by_cases hopen : ∃ assignment tariffPlan, s.Open now childId months assignment tariffPlan
  · obtain ⟨assignment, tariffPlan, hopen⟩ := hopen
    obtain ⟨quote, hq, hd, hprice⟩ := quote_open hopen
    obtain ⟨quote', hq', hd', hprice'⟩ := quote_open (open_afterRetry hs.invoices hopen)
    rw [hq] at h
    cases created with
    | error e => exact h.elim
    | ok made =>
      obtain ⟨quote'', hp⟩ := hends
      obtain rfl := Sum.inr.inj (Except.ok.inj (hp.quoted.symm.trans hq'))
      have hpersists : Persists childId months quote (made.2.view s) made.1 := h
      have hsame : (s.afterRetry childId).price now childId months assignment tariffPlan =
          s.price now childId months assignment tariffPlan := by
        rw [← hprice, ← hprice', ← hp.persists.discountPct, ← hp.persists.total, hpersists.discountPct,
          hpersists.total]
      refine ⟨?_, (recordable_iff hopen).2 (hd' ▸ hp.recordable), fun a p hap => ?_⟩
      · unfold Store.configured
        rw [hopen.unblocked]
        rfl
      · obtain ⟨rfl, rfl⟩ := Prod.mk.inj (Except.ok.inj (hap.tariff.symm.trans hopen.tariff))
        exact hsame
  · have hsame : s.SamePrice now childId months := fun a p hap => absurd ⟨a, p, hap⟩ hopen
    have hconf : s.configured now childId months = true := by
      unfold Store.configured
      cases hb : s.blocked childId with
      | none => rfl
      | some reason =>
        cases ht : s.tariffFor now childId months with
        | ok pair => rfl
        | error e =>
          have hq : s.quote now childId months = .error e := by
            unfold Store.quote
            rw [ht]
          rw [hq] at h
          cases created with
          | ok made => exact h.elim
          | error e' =>
            have he : e' = e := h
            subst he
            cases hends with
            | blocked => exact absurd rfl (quote_error_ne hq _)
            | quote hfree => cases hfree.symm.trans hb
            | overlap hfree => cases hfree.symm.trans hb
            | ledger hfree => cases hfree.symm.trans hb
    have hrec : s.recordable now childId months = true := by
      unfold Store.recordable
      cases ht : s.tariffFor now childId months with
      | error e => rfl
      | ok pair =>
        dsimp only
        cases hb : s.blocked childId with
        | some reason => rfl
        | none =>
          cases hw : overlappingCovered (s.paidPrepayments now childId) (s.prepaymentWindow now childId)
              months.count with
          | nil => exact absurd ⟨pair.1, pair.2, ht, hb, hw⟩ hopen
          | cons k ks => rfl
    exact ⟨hconf, hrec, hsame⟩

end

/-! ## A slot that a stale prepayment holds -/

/-- A child with a tariff and a stale prepayment that took a use of a discount with this cap. -/
def heldSlot (cap : Option Nat) : Store :=
  { Store.empty with
    reference :=
      { children := [⟨1, .active, 0, none⟩]
        childGuardians := []
        tariffPlans := [⟨5, .monthly, 100000, true, 0, none, ⟨none, some 5, none, none, none⟩⟩]
        tariffAssignments := [⟨6, 1, 5, none, 0, none⟩]
        holidays := []
        admins := [90] }
    accounts := [⟨10, 1, 0⟩]
    invoices := [⟨20, 1, 10, some 5, .prepayment .m3, monthStart 24313, monthStart 24316 - 1, 300000, none, none,
      290000, .pending, 20600, none, 0⟩]
    customDiscounts :=
      [{ id := 70
         name := "spring"
         discountType := .fixedAmount
         amount := 10000
         conditions := .always
         targetType := .all
         targetIds := none
         validFrom := 0
         validUntil := none
         maxUsesPerChild := none
         totalMaxUses := cap
         usedCount := 1
         priority := 0
         stackable := false
         status := .active
         createdAt := 0 }]
    applications := [⟨80, 70, 20, none, 1, 10000, 0⟩] }

theorem constrained_heldSlot (cap : Option Nat) : (heldSlot cap).Constrained := by
  refine ⟨?_, ?_, ?_, ?_, ?_, ?_⟩
  · show ([20] : List Nat).Nodup
    decide
  · show ([70] : List Nat).Nodup
    decide
  · exact fun li hli => absurd hli List.not_mem_nil
  · intro a ha
    rw [List.mem_singleton.1 ha]
    rfl
  · intro p hp
    rw [List.mem_singleton.1 hp]
    decide
  · intro a ha amount hamount
    rw [List.mem_singleton.1 ha] at hamount
    cases hamount

end Billing
