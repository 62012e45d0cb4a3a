import Shyraq.Billing.Reserving

/-!
# The retry of a prepayment

What the cancellation of the stale prepayments makes of the store: their rows are cancelled, slots
of capped discounts are free again, and all else that a quote reads is as before.
-/

namespace Billing

open Kernel Transactions

/-! ## The store that the create path quotes -/

namespace Store

/-- The slot of one ledger row. -/
def releaseSlot (s : Store) (app : CustomDiscountApplication) : Store :=
  match Table.find s.customDiscounts app.customDiscountId with
  | none => s
  | some d => if d.totalMaxUses.isNone then s else s.apply (.releaseUsage app.customDiscountId)

def releaseSlots (s : Store) (apps : List CustomDiscountApplication) : Store := apps.foldl releaseSlot s

def cancelStale (s : Store) (old : Invoice) : Store :=
  (s.apply (.markInvoice old.id .cancelled)).releaseSlots
    (s.applications.filter fun a => a.invoiceId == old.id)

/-- With the stale prepayments of the child cancelled. -/
def afterRetry (s : Store) (childId : Nat) : Store := (s.stalePrepayments childId).foldl cancelStale s

end Store

/-- A discount, whatever was used of it. -/
def CustomDiscount.unspent (d : CustomDiscount) : CustomDiscount := { d with usedCount := 0 }

/-- A store with other invoices, and other slots. -/
structure Released (s v : Store) : Prop where
  store : ∃ is ds, v = { s with invoices := is, customDiscounts := ds }
  discounts : v.customDiscounts.map CustomDiscount.unspent = s.customDiscounts.map CustomDiscount.unspent

namespace Released

variable {s v w : Store}

theorem refl (s : Store) : Released s s := ⟨⟨s.invoices, s.customDiscounts, rfl⟩, rfl⟩

theorem trans (h₁ : Released s v) (h₂ : Released v w) : Released s w := by
  obtain ⟨is, ds, rfl⟩ := h₁.store
  obtain ⟨is', ds', rfl⟩ := h₂.store
  exact ⟨⟨is', ds', rfl⟩, h₂.discounts.trans h₁.discounts⟩

theorem reference (h : Released s v) : v.reference = s.reference := by
  obtain ⟨is, ds, rfl⟩ := h.store
  rfl

theorem payments (h : Released s v) : v.payments = s.payments := by
  obtain ⟨is, ds, rfl⟩ := h.store
  rfl

theorem accounts (h : Released s v) : v.accounts = s.accounts := by
  obtain ⟨is, ds, rfl⟩ := h.store
  rfl

theorem applications (h : Released s v) : v.applications = s.applications := by
  obtain ⟨is, ds, rfl⟩ := h.store
  rfl

theorem paidSum (h : Released s v) : v.paidSum = s.paidSum := by
  unfold Store.paidSum
  rw [h.payments]

theorem ids (h : Released s v) : v.customDiscounts.map CustomDiscount.id = s.customDiscounts.map CustomDiscount.id := by
  have := congrArg (List.map CustomDiscount.id) h.discounts
  rwa [List.map_map, List.map_map] at this

theorem unique (h : Released s v) (hu : Table.Unique s.customDiscounts) : Table.Unique v.customDiscounts := by
  have : (v.customDiscounts.map CustomDiscount.id).Nodup := by
    rw [h.ids]
    exact hu
  exact this

theorem release (s : Store) (i : Nat) : Released s (s.apply (.releaseUsage i)) where
  store := ⟨s.invoices, _, rfl⟩
  discounts := by
    show (Table.updateWhere s.customDiscounts i _ _).map CustomDiscount.unspent = _
    unfold Table.updateWhere
    rw [List.map_map]
    refine List.map_congr_left fun d _ => ?_
    show CustomDiscount.unspent (if _ then _ else _) = _
    split <;> rfl

theorem releaseSlots (s : Store) (apps : List CustomDiscountApplication) : Released s (s.releaseSlots apps) := by
  induction apps generalizing s with
  | nil => exact refl s
  | cons app apps ih =>
    refine trans ?_ (ih (s.releaseSlot app))
    unfold Store.releaseSlot
    split
    · exact refl s
    · split
      · exact refl s
      · exact release s _

theorem cancelStale (s : Store) (old : Invoice) : Released s (s.cancelStale old) := by
  have hmark : Released s (s.apply (.markInvoice old.id .cancelled)) := ⟨⟨_, s.customDiscounts, rfl⟩, rfl⟩
  exact hmark.trans (releaseSlots _ _)

end Released

theorem releaseSlots_invoices (s : Store) (apps : List CustomDiscountApplication) :
    (s.releaseSlots apps).invoices = s.invoices := by
  induction apps generalizing s with
  | nil => rfl
  | cons app apps ih =>
    refine (ih (s.releaseSlot app)).trans ?_
    unfold Store.releaseSlot
    split
    · rfl
    · split <;> rfl

/-! ## The rows -/

/-- An unsettled prepayment of the child, cancelled. -/
def Invoice.retire (childId : Nat) (i : Invoice) : Invoice :=
  if i.childId = childId ∧ i.invoiceType.isPrepayment = true ∧ i.status.unpaid = true then
    InvoiceFlip.cancelled.set i
  else i

variable {s : Store} {childId : Nat}

theorem mem_stalePrepayments {i : Invoice} : i ∈ s.stalePrepayments childId ↔
    i ∈ s.invoices ∧ i.childId = childId ∧ i.invoiceType.isPrepayment = true ∧ i.status.unpaid = true := by
  unfold Store.stalePrepayments orderBy
  rw [List.mem_insertionSort, List.mem_filter]
  simp only [Bool.and_eq_true, beq_iff_eq, and_assoc]

/-- The rows after the loop: those of the list that were unpaid are cancelled. -/
theorem cancelStale_rows (l : List Invoice) (s : Store) :
    Released s (l.foldl Store.cancelStale s) ∧ (l.foldl Store.cancelStale s).invoices = s.invoices.map fun i =>
      if i.id ∈ l.map Invoice.id ∧ i.status.unpaid = true then InvoiceFlip.cancelled.set i else i := by
  induction l generalizing s with
  | nil => exact ⟨.refl s, by simp⟩
  | cons old l ih =>
    obtain ⟨hr, hrows⟩ := ih (s.cancelStale old)
    refine ⟨(Released.cancelStale s old).trans hr, hrows.trans ?_⟩
    have hone : (s.cancelStale old).invoices = Table.updateWhere s.invoices old.id
        InvoiceFlip.cancelled.accepts InvoiceFlip.cancelled.set := releaseSlots_invoices _ _
    rw [hone]
    unfold Table.updateWhere
    rw [List.map_map]
    refine List.map_congr_left fun i _ => ?_
    rw [Function.comp_apply]
    by_cases hu : i.status.unpaid = true
    · by_cases hid : i.id = old.id
      · have hc : (Row.id i == old.id && InvoiceFlip.cancelled.accepts i) = true := by
          simp [Row.id, hid, InvoiceFlip.accepts, hu]
        have hmem : i.id ∈ (old :: l).map Invoice.id := by simp [hid]
        have hset : ¬ (InvoiceFlip.cancelled.set i).status.unpaid = true := by
          simp [InvoiceFlip.set, InvoiceFlip.next, InvoiceStatus.unpaid]
        rw [if_pos hc, if_neg fun h => hset h.2, if_pos ⟨hmem, hu⟩]
      · have hc : (Row.id i == old.id && InvoiceFlip.cancelled.accepts i) = false := by
          simp [Row.id, hid]
        simp [hc, hid, hu]
    · have hc : (Row.id i == old.id && InvoiceFlip.cancelled.accepts i) = false := by
        simp [InvoiceFlip.accepts, hu]
      simp [hc, hu]

theorem afterRetry_rows (hs : Table.Unique s.invoices) :
    (s.afterRetry childId).invoices = s.invoices.map (Invoice.retire childId) := by
  refine (cancelStale_rows _ s).2.trans (List.map_congr_left fun i hi => ?_)
  unfold Invoice.retire
  refine if_congr ⟨?_, ?_⟩ rfl rfl
  · rintro ⟨hmem, hu⟩
    obtain ⟨q, hq, hid⟩ := List.mem_map.1 hmem
    obtain ⟨hq, hc, ht, -⟩ := mem_stalePrepayments.1 hq
    have : q = i := by
      have h₁ := Table.find_of_mem hs hq
      have h₂ := Table.find_of_mem hs hi
      have hid : Row.id q = Row.id i := hid
      rw [hid] at h₁
      exact Option.some.inj (h₁.symm.trans h₂)
    subst this
    exact ⟨hc, ht, hu⟩
  · rintro ⟨hc, ht, hu⟩
    exact ⟨List.mem_map_of_mem (mem_stalePrepayments.2 ⟨hi, hc, ht, hu⟩), hu⟩

theorem released_afterRetry (s : Store) (childId : Nat) : Released s (s.afterRetry childId) :=
  (cancelStale_rows _ s).1

theorem filter_retire (l : List Invoice) {p : Invoice → Bool}
    (hp : ∀ i, p (i.retire childId) = p i) (hsame : ∀ i, p i = true → i.retire childId = i) :
    (l.map (Invoice.retire childId)).filter p = l.filter p := by
  induction l with
  | nil => rfl
  | cons i l ih =>
    rw [List.map_cons, List.filter_cons, List.filter_cons, hp, ih]
    split
    · next h => rw [hsame i h]
    · rfl

section Quotes

variable (hs : Table.Unique s.invoices)
include hs

theorem debts_afterRetry : (s.afterRetry childId).debts childId = s.debts childId := by
  unfold Store.debts
  rw [afterRetry_rows hs]
  refine filter_retire _ (fun i => ?_) fun i h => ?_
  · unfold Invoice.retire
    split
    · next h => simp [InvoiceFlip.set, InvoiceFlip.next, InvoiceStatus.unpaid, h.2.1]
    · rfl
  · unfold Invoice.retire
    rw [if_neg]
    rintro ⟨-, ht, -⟩
    simp [ht] at h

theorem outstandingDebt_afterRetry : (s.afterRetry childId).outstandingDebt childId = s.outstandingDebt childId := by
  unfold Store.outstandingDebt
  rw [debts_afterRetry hs, (released_afterRetry s childId).paidSum]

theorem stale_afterRetry : (s.afterRetry childId).stalePrepayments childId = [] := by
  unfold Store.stalePrepayments
  have : ((s.afterRetry childId).invoices.filter fun i =>
      i.childId == childId && i.invoiceType.isPrepayment && i.status.unpaid) = [] := by
    rw [afterRetry_rows hs, List.filter_eq_nil_iff]
    intro i hi
    obtain ⟨q, -, rfl⟩ := List.mem_map.1 hi
    unfold Invoice.retire
    split
    · simp [InvoiceFlip.set, InvoiceFlip.next, InvoiceStatus.unpaid]
    · next h =>
      intro hc
      simp only [Bool.and_eq_true, beq_iff_eq] at hc
      exact h ⟨hc.1.1, hc.1.2, hc.2⟩
  rw [this]
  rfl

theorem paidPrepayments_afterRetry (now : Int) :
    (s.afterRetry childId).paidPrepayments now childId = s.paidPrepayments now childId := by
  unfold Store.paidPrepayments
  rw [afterRetry_rows hs, filter_retire _ (fun i => ?_) fun i h => ?_]
  · unfold Invoice.retire
    split
    · next h =>
      have : (i.status == .paid) = false := by
        have := h.2.2
        cases hst : i.status <;> rw [hst] at this <;> first | rfl | cases this
      simp [InvoiceFlip.set, InvoiceFlip.next, this]
    · rfl
  · unfold Invoice.retire
    rw [if_neg]
    rintro ⟨-, -, hu⟩
    simp only [Bool.and_eq_true, beq_iff_eq] at h
    rw [h.1.2] at hu
    cases hu

end Quotes

/-! ## The discounts -/

/-- The custom discounts on offer whose conditions hold. -/
def Store.matching (s : Store) (now : Int) (childId : Nat) (months : PrepaymentMonths) : List CustomDiscount :=
  DiscountEngine.matchCustomDiscounts
    { invoiceType := .prepayment months
      amountDue := 0
      periodStart := s.prepaymentWindow now childId
      discountRules := ⟨none, none, none, none, none⟩
      prepaymentMonths := some months
      customDiscounts := s.offered now childId
      siblingsInKgCount := 0
      child := s.childContext now childId }

/-- Those of them that the engine applies, in its order. -/
def Store.winning (s : Store) (now : Int) (childId : Nat) (months : PrepaymentMonths) : List CustomDiscount :=
  DiscountEngine.winners (orderBy DiscountEngine.precedes (s.matching now childId months))

theorem applyAmounts_unspent (amountDue : Decimal) {l l' : List CustomDiscount}
    (h : l.map CustomDiscount.unspent = l'.map CustomDiscount.unspent) (already : Decimal) :
    (DiscountEngine.applyAmounts amountDue already l).map (fun x => (x.1.unspent, x.2)) =
      (DiscountEngine.applyAmounts amountDue already l').map fun x => (x.1.unspent, x.2) := by
  induction l generalizing l' already with
  | nil =>
    cases l' with
    | nil => rfl
    | cons d' l' => cases h
  | cons d l ih =>
    cases l' with
    | nil => cases h
    | cons d' l' =>
      rw [List.map_cons, List.map_cons, List.cons.injEq] at h
      obtain ⟨hd, hl⟩ := h
      have htype : d.unspent.discountType = d'.unspent.discountType := by rw [hd]
      have hamount : d.unspent.amount = d'.unspent.amount := by rw [hd]
      have htype : d.discountType = d'.discountType := htype
      have hamount : d.amount = d'.amount := hamount
      unfold DiscountEngine.applyAmounts
      rw [htype, hamount]
      dsimp only
      split
      · rfl
      · generalize min _ (amountDue - already) = applied
        split
        · exact ih hl already
        · rw [List.map_cons, List.map_cons, ih hl, hd]

theorem evaluate_congr {a b : DiscountEngine.Input} (hamount : a.amountDue = b.amountDue)
    (hbasic : DiscountEngine.basicRules a = DiscountEngine.basicRules b)
    (hwin : (DiscountEngine.winners (orderBy DiscountEngine.precedes
        (DiscountEngine.matchCustomDiscounts a))).map CustomDiscount.unspent =
      (DiscountEngine.winners (orderBy DiscountEngine.precedes
        (DiscountEngine.matchCustomDiscounts b))).map CustomDiscount.unspent) :
    DiscountEngine.evaluate a = DiscountEngine.evaluate b := by
  have h := applyAmounts_unspent b.amountDue hwin 0
  unfold DiscountEngine.evaluate DiscountEngine.applyStackingAndAmounts
  rw [hamount, hbasic]
  generalize DiscountEngine.applyAmounts b.amountDue 0 (DiscountEngine.winners (orderBy DiscountEngine.precedes
    (DiscountEngine.matchCustomDiscounts a))) = x at h ⊢
  generalize DiscountEngine.applyAmounts b.amountDue 0 (DiscountEngine.winners (orderBy DiscountEngine.precedes
    (DiscountEngine.matchCustomDiscounts b))) = y at h ⊢
  -- the result is made of columns that both lists share
  have columns : ∀ {A : Type} (g : CustomDiscount × Decimal → A),
      (∀ d q, g (CustomDiscount.unspent d, q) = g (d, q)) → x.map g = y.map g := by
    intro A g hg
    have hx : ∀ z : List (CustomDiscount × Decimal),
        (z.map fun x => (x.1.unspent, x.2)).map g = z.map g := by
      intro z
      rw [List.map_map]
      exact List.map_congr_left fun p _ => hg p.1 p.2
    rw [← hx x, h, hx y]
  have hempty : x.isEmpty = y.isEmpty := by
    have hlen : x.length = y.length := by simpa using congrArg List.length h
    cases x <;> cases y <;> first | rfl | cases hlen
  have hsum := columns (fun c => c.2) fun _ _ => rfl
  have hname := columns (fun c => c.1.name) fun _ _ => rfl
  have hrule := columns (fun c => DiscountEngine.AppliedRule.custom c.1.id) fun _ _ => rfl
  have happ := columns (fun c => (⟨c.1.id, MoneyKzt.round c.2, c.1.name⟩ : DiscountEngine.CustomApplication))
    fun _ _ => rfl
  dsimp only
  rw [hempty, hsum, hname, hrule, happ]

theorem windowMonths_afterRetry (assignment : TariffAssignment) (tariffPlan : TariffPlan) (windowStart : Int)
    (months : PrepaymentMonths) : (s.afterRetry childId).windowMonths assignment tariffPlan windowStart months =
      s.windowMonths assignment tariffPlan windowStart months := by
  unfold Store.windowMonths Store.quoteMonth
  rw [(released_afterRetry s childId).reference]

theorem tariffFor_afterRetry (now : Int) (months : PrepaymentMonths) :
    (s.afterRetry childId).tariffFor now childId months = s.tariffFor now childId months := by
  unfold Store.tariffFor
  rw [(released_afterRetry s childId).reference]

section

variable (hs : Table.Unique s.invoices)
include hs

theorem prepaymentWindow_afterRetry (now : Int) :
    (s.afterRetry childId).prepaymentWindow now childId = s.prepaymentWindow now childId := by
  unfold Store.prepaymentWindow
  rw [paidPrepayments_afterRetry hs]

theorem blocked_afterRetry (h : s.blocked childId = none) : (s.afterRetry childId).blocked childId = none := by
  unfold Store.blocked at h ⊢
  rw [outstandingDebt_afterRetry hs]
  cases hdebt : s.outstandingDebt childId with
  | some amount =>
    rw [hdebt] at h
    cases h
  | none =>
    unfold Store.moneyHolding
    rw [stale_afterRetry hs]
    rfl

theorem prepaymentDiscount_afterRetry {now : Int} {months : PrepaymentMonths}
    (hwin : ((s.afterRetry childId).winning now childId months).map CustomDiscount.unspent =
      (s.winning now childId months).map CustomDiscount.unspent)
    (assignment : TariffAssignment) (tariffPlan : TariffPlan) :
    (s.afterRetry childId).prepaymentDiscount now childId months assignment tariffPlan =
      s.prepaymentDiscount now childId months assignment tariffPlan := by
  unfold Store.prepaymentDiscount
  refine evaluate_congr ?_ ?_ hwin
  · unfold Store.engineInput
    rw [prepaymentWindow_afterRetry hs, windowMonths_afterRetry]
  · have hr := (released_afterRetry s childId).reference
    have hsiblings : (s.afterRetry childId).siblingsInKg childId = s.siblingsInKg childId := by
      unfold Store.siblingsInKg Store.child?
      rw [hr]
    have hchild : (s.afterRetry childId).child? childId = s.child? childId := by
      unfold Store.child?
      rw [hr]
    unfold DiscountEngine.basicRules Store.engineInput Store.discountInputs
    rw [hsiblings, hchild]

end

end Billing
