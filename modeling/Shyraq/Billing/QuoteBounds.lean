import Mathlib.Algebra.BigOperators.Ring.List
import Shyraq.Billing.Quoting

/-!
# What every quote satisfies

Its amounts are not negative, its percentage is one, its window is not empty: the constraints of
the tables admit the rows that persist it.
-/

namespace Billing

open Kernel Transactions

/-! ## Amounts -/

theorem computeAmountAfterDiscount_nonneg {amountDue : Decimal} {discountPct : Option Decimal}
    (absolute : Option Int) (h : 0 ≤ amountDue) (hpct : ∀ p ∈ discountPct, p ≤ 100) :
    0 ≤ computeAmountAfterDiscount amountDue discountPct absolute := by
  have hpart : 0 ≤ amountDue * (100 - discountPct.getD 0) / 100 := by
    have : 0 ≤ 100 - discountPct.getD 0 := by
      cases discountPct with
      | none => norm_num
      | some p =>
        have := hpct p rfl
        simp only [Option.getD_some]
        linarith
    positivity
  unfold computeAmountAfterDiscount
  cases absolute with
  | none => exact hpart
  | some a =>
    dsimp only
    split
    · exact le_max_right _ _
    · exact hpart

namespace DiscountEngine

theorem mem_applyAmounts {amountDue already : Decimal} {l : List CustomDiscount} {x : CustomDiscount × Decimal}
    (h : x ∈ applyAmounts amountDue already l) : x.1 ∈ l ∧ 0 < x.2 := by
  induction l generalizing already with
  | nil => cases h
  | cons d l ih =>
    unfold applyAmounts at h
    extract_lets remaining wanted amountApplied at h
    split at h
    · cases h
    · split at h
      · exact ⟨List.mem_cons_of_mem _ (ih h).1, (ih h).2⟩
      · next hpos =>
        rcases List.mem_cons.1 h with rfl | h
        · exact ⟨List.mem_cons_self, lt_of_not_ge hpos⟩
        · exact ⟨List.mem_cons_of_mem _ (ih h).1, (ih h).2⟩

theorem winners_sub (l : List CustomDiscount) : ∀ d ∈ winners l, d ∈ l := by
  intro d hd
  unfold winners at hd
  split at hd
  · cases hd
  · split at hd
    · exact (List.takeWhile_sublist _).subset hd
    · rw [List.mem_singleton.1 hd]
      exact List.mem_cons_self

theorem matchCustomDiscounts_sub (input : Input) : ∀ d ∈ matchCustomDiscounts input, d ∈ input.customDiscounts := by
  intro d hd
  unfold matchCustomDiscounts at hd
  split at hd
  · cases hd
  · exact (List.mem_filter.1 hd).1

theorem applied_offered {input : Input} {x : CustomDiscount × Decimal}
    (h : x ∈ applyStackingAndAmounts input.amountDue (matchCustomDiscounts input)) : x.1 ∈ input.customDiscounts := by
  have hw := winners_sub _ _ (mem_applyAmounts h).1
  unfold orderBy at hw
  rw [List.mem_insertionSort] at hw
  exact matchCustomDiscounts_sub _ _ hw

theorem discountPct_range (input : Input) : ∀ p ∈ (evaluate input).discountPct, 0 ≤ p ∧ p ≤ 100 := by
  have hcases : (evaluate input).discountPct = none ∨
      ∃ q, (evaluate input).discountPct = if 0 < min 100 q then some (min 100 q) else none := by
    unfold evaluate
    extract_lets basic custom
    split
    · exact .inl rfl
    · exact .inr ⟨_, rfl⟩
  intro p hp
  rcases hcases with h | ⟨q, h⟩
  · rw [h] at hp
    cases hp
  · rw [h] at hp
    split at hp
    · next hpos =>
      cases hp
      exact ⟨le_of_lt hpos, min_le_left _ _⟩
    · cases hp

theorem applications_eq (input : Input) : (evaluate input).customApplicationsToWrite =
    (applyStackingAndAmounts input.amountDue (matchCustomDiscounts input)).map fun c =>
      ⟨c.1.id, MoneyKzt.round c.2, c.1.name⟩ := by
  unfold evaluate
  extract_lets basic custom
  split
  · next h =>
    rw [Bool.and_eq_true] at h
    have hnone : custom = [] := List.isEmpty_iff.1 h.2
    show [] = custom.map _
    rw [hnone]
    rfl
  · rfl

theorem applications_offered (input : Input) : ∀ a ∈ (evaluate input).customApplicationsToWrite,
    ∃ d ∈ input.customDiscounts, a.customDiscountId = d.id := by
  intro a ha
  rw [applications_eq] at ha
  obtain ⟨x, hx, rfl⟩ := List.mem_map.1 ha
  exact ⟨x.1, applied_offered hx, rfl⟩

end DiscountEngine

/-! ## Shares -/

theorem mem_zipIdx_fst {A : Type} {l : List A} {x : A × Nat} (h : x ∈ l.zipIdx) : x.1 ∈ l := by
  have := List.mem_map_of_mem (f := Prod.fst) h
  rwa [List.zipIdx_map_fst] at this

theorem distributeWholeTenge_nonneg {total : Int} {weights : List Decimal} (ht : 0 ≤ total)
    (hw : ∀ w ∈ weights, 0 ≤ w) : ∀ x ∈ InvoiceService.distributeWholeTenge total weights, 0 ≤ x := by
  intro x hx
  unfold InvoiceService.distributeWholeTenge at hx
  dsimp only at hx
  split at hx
  · obtain ⟨w, -, rfl⟩ := List.mem_map.1 hx
    exact le_refl 0
  · obtain ⟨f, hf, rfl⟩ := List.mem_map.1 hx
    have hfloor : 0 ≤ f.1 := by
      obtain ⟨r, hr, hf'⟩ := List.mem_map.1 (mem_zipIdx_fst hf)
      obtain ⟨w, hw', rfl⟩ := List.mem_map.1 hr
      rw [← hf']
      have hsum := List.sum_nonneg hw
      have hone := hw w hw'
      have htot : (0 : ℚ) ≤ total := by exact_mod_cast ht
      exact Int.floor_nonneg.2 (by positivity)
    have htop : ∀ order leftover, 0 ≤ InvoiceService.topUp order leftover f.2 := by
      intro order leftover
      unfold InvoiceService.topUp
      split <;> decide
    exact Int.add_nonneg hfloor (htop _ _)

theorem sum_floor_bounds (l : List Decimal) :
    (((l.map fun r => ⌊r⌋).sum : Int) : ℚ) ≤ l.sum ∧ l.sum ≤ ((l.map fun r => ⌊r⌋).sum : Int) + l.length := by
  induction l with
  | nil => simp
  | cons r l ih =>
    have h₁ := Int.floor_le r
    have h₂ := Int.lt_floor_add_one r
    rw [List.map_cons, List.sum_cons, List.sum_cons, List.length_cons, Int.cast_add, Nat.cast_add, Nat.cast_one]
    constructor
    · linarith [ih.1]
    · linarith [ih.2]

theorem sum_topUp {order : List Nat} {n leftover : Nat} (horder : order.Perm (List.range n)) (h : leftover ≤ n) :
    ((List.range n).map (InvoiceService.topUp order leftover)).sum = leftover := by
  have hnodup : order.Nodup := horder.nodup_iff.2 List.nodup_range
  have hlen : order.length = n := by rw [horder.length_eq, List.length_range]
  rw [← (horder.map (InvoiceService.topUp order leftover)).sum_eq]
  have hsplit : order.map (InvoiceService.topUp order leftover) =
      (order.take leftover).map (fun _ => (1 : Int)) ++ (order.drop leftover).map fun _ => (0 : Int) := by
    conv_lhs => rw [← List.take_append_drop leftover order, List.map_append]
    rw [List.take_append_drop]
    congr 1
    · refine List.map_congr_left fun i hi => ?_
      unfold InvoiceService.topUp
      rw [if_pos (List.contains_iff_mem.2 hi)]
    · refine List.map_congr_left fun i hi => ?_
      have hdisj : List.Disjoint (order.take leftover) (order.drop leftover) := by
        rw [← List.take_append_drop leftover order] at hnodup
        exact (List.nodup_append'.1 hnodup).2.2
      unfold InvoiceService.topUp
      rw [if_neg]
      exact fun hc => hdisj (List.contains_iff_mem.1 hc) hi
  rw [hsplit, List.sum_append]
  simp [hlen, h]

/-- **The shares sum to the total.** -/
theorem distributeWholeTenge_sum {total : Int} {weights : List Decimal} (h : weights.sum = 0 → total = 0) :
    (InvoiceService.distributeWholeTenge total weights).sum = total := by
  unfold InvoiceService.distributeWholeTenge
  extract_lets weightSum raws floors leftover order
  split
  · next h0 =>
    have htotal : total = 0 := by
      rcases h0 with h0 | h0
      · exact h h0
      · exact h0
    rw [htotal]
    simp
  · next hne =>
    rw [not_or] at hne
    have hraws : raws.sum = total := by
      have hone : raws = weights.map fun w => w * (total / weightSum) :=
        List.map_congr_left fun w _ => mul_div_assoc _ _ _
      rw [hone, List.sum_map_mul_right, List.map_id']
      exact mul_div_cancel₀ _ hne.1
    have hlenr : raws.length = weights.length := by simp [raws]
    have hbounds := sum_floor_bounds raws
    rw [hraws] at hbounds
    have hlo : floors.sum ≤ total := by exact_mod_cast hbounds.1
    have hhi : total ≤ floors.sum + weights.length := by
      rw [← hlenr]
      exact_mod_cast hbounds.2
    have hlenf : floors.length = weights.length := by simp [floors, hlenr]
    have horder : order.Perm (List.range weights.length) := by
      refine ((List.perm_insertionSort _ _).map Prod.snd).trans ?_
      rw [List.zipIdx_map_snd, List.length_map, hlenr, ← List.range_eq_range']
    have htop := sum_topUp horder (show leftover.toNat ≤ weights.length by omega)
    have hsum : (floors.zipIdx.map fun f => f.1 + InvoiceService.topUp order leftover.toNat f.2).sum =
        floors.sum + ((List.range weights.length).map (InvoiceService.topUp order leftover.toNat)).sum := by
      have hsnd : floors.zipIdx.map (fun f => InvoiceService.topUp order leftover.toNat f.2) =
          (List.range weights.length).map (InvoiceService.topUp order leftover.toNat) := by
        rw [List.range_eq_range', ← hlenf, ← List.zipIdx_map_snd, List.map_map]
        rfl
      rw [List.sum_map_add, hsnd, List.zipIdx_map_fst]
    rw [hsum, htop]
    omega
/-! ## The window -/

namespace InvoiceService

theorem shiftWindow_monthStart (covered : List Int) (fuel : Nat) (k : Int) :
    ∃ j, shiftWindow covered fuel (monthStart k) = monthStart j ∧ k ≤ j := by
  induction fuel generalizing k with
  | zero => exact ⟨k, rfl, le_refl k⟩
  | succ fuel ih =>
    unfold shiftWindow
    split
    · rw [addMonthsUtc_monthStart]
      obtain ⟨j, hj, hle⟩ := ih (k + 1)
      exact ⟨j, hj, by omega⟩
    · exact ⟨k, rfl, le_refl k⟩

theorem quoteWindow_monthStart (now : Int) (paid : List Invoice) :
    ∃ k, quoteWindow now paid = monthStart k ∧ monthOf (formatDateInTimezone now) < k := by
  unfold quoteWindow firstOfMonthInTimezone
  dsimp only
  rw [addMonthsUtc_monthStart]
  obtain ⟨j, hj, hle⟩ := shiftWindow_monthStart (coveredMonthKeys paid) ((coveredMonthKeys paid).length + 1)
    (monthOf (formatDateInTimezone now) + 1)
  exact ⟨j, hj, by omega⟩

end InvoiceService

namespace Store

/-- The constraints of the tables that a quote reads. -/
structure Constrained (s : Store) : Prop where
  /-- Primary keys. -/
  invoices : Table.Unique s.invoices
  customDiscounts : Table.Unique s.customDiscounts
  /-- `invoice_line_items.invoice_id REFERENCES invoices`. -/
  lineItems : ∀ li ∈ s.lineItems, s.hasInvoice li.invoiceId = true
  /-- `tariff_assignments.child_id REFERENCES children`. -/
  assigned : ∀ a ∈ s.reference.tariffAssignments, s.hasChild a.childId = true
  /-- `CHECK (amount >= 0)`. -/
  planAmount : ∀ p ∈ s.reference.tariffPlans, 0 ≤ p.amount
  /-- `CHECK (custom_amount IS NULL OR custom_amount >= 0)`. -/
  customAmount : ∀ a ∈ s.reference.tariffAssignments, ∀ amount ∈ a.customAmount, 0 ≤ amount

variable {s : Store} {now : Int} {childId : Nat} {months : PrepaymentMonths}
  {assignment : TariffAssignment} {tariffPlan : TariffPlan}

theorem tariffFor_mem (h : s.tariffFor now childId months = .ok (assignment, tariffPlan)) :
    assignment ∈ s.reference.tariffAssignments ∧ assignment.childId = childId ∧
      tariffPlan ∈ s.reference.tariffPlans := by
  unfold tariffFor at h
  generalize hfound : (orderBy _ _).head? = found at h
  cases found with
  | none => cases h
  | some a =>
    dsimp only at h
    cases hplan : Table.find s.reference.tariffPlans a.tariffPlanId with
    | none =>
      rw [hplan] at h
      cases h
    | some p =>
      rw [hplan] at h
      dsimp only at h
      split at h
      · obtain ⟨rfl, rfl⟩ := Prod.mk.inj (Except.ok.inj h)
        have hmem := List.mem_of_head? hfound
        unfold orderBy at hmem
        rw [List.mem_insertionSort, List.mem_filter] at hmem
        simp only [Bool.and_eq_true, beq_iff_eq] at hmem
        exact ⟨hmem.1, hmem.2.1, Table.mem_of_find hplan⟩
      · cases h

theorem effectiveAmount_nonneg (hs : s.Constrained)
    (h : s.tariffFor now childId months = .ok (assignment, tariffPlan)) :
    0 ≤ assignment.effectiveAmount tariffPlan := by
  obtain ⟨ha, -, hp⟩ := tariffFor_mem h
  unfold TariffAssignment.effectiveAmount
  cases hc : assignment.customAmount with
  | none => exact hs.planAmount _ hp
  | some amount => exact hs.customAmount _ ha amount hc

theorem monthDays_pos (k : Int) :
    0 < daysBetweenInclusive (midnight (monthStart k)) (midnight (endOfMonth (monthStart k))) := by
  have := monthStart_succ k
  rw [endOfMonth_monthStart]
  unfold daysBetweenInclusive midnight msPerDay
  omega

theorem quoteMonth_nonneg {monthlyAmount : Int} (h : 0 ≤ monthlyAmount) (k : Int) (i : Nat) :
    0 ≤ (s.quoteMonth monthlyAmount (monthStart k) i).baseAmount ∧
      0 ≤ (s.quoteMonth monthlyAmount (monthStart k) i).weight := by
  unfold quoteMonth
  dsimp only
  rw [addMonthsUtc_monthStart]
  have hd : (0 : ℚ) < daysBetweenInclusive (midnight (monthStart (k + i)))
      (midnight (endOfMonth (monthStart (k + i)))) := by exact_mod_cast monthDays_pos (k + i)
  have hm := MoneyKzt.toDecimal_nonneg h
  have he : ∀ n : Int, (0 : ℚ) ≤ ((max 0 n : Int) : ℚ) := by
    intro n
    exact_mod_cast le_max_left 0 n
  constructor
  · have := he (daysBetweenInclusive (midnight (monthStart (k + i))) (midnight (endOfMonth (monthStart (k + i)))) -
      ((s.reference.holidays.filter fun h => !h.isBillable && decide (monthStart (k + i) ≤ h.date) &&
        decide (h.date ≤ endOfMonth (monthStart (k + i)))).length : Int))
    positivity
  · exact div_nonneg (he _) hd.le

end Store

namespace Store

variable {s : Store} {assignment : TariffAssignment} {tariffPlan : TariffPlan}

theorem windowMonths_baseTotal (windowStart : Int) (months : PrepaymentMonths) :
    ((s.windowMonths assignment tariffPlan windowStart months).map InvoiceService.QuoteMonth.baseAmount).sum =
      MoneyKzt.toDecimal (assignment.effectiveAmount tariffPlan) *
        ((s.windowMonths assignment tariffPlan windowStart months).map InvoiceService.QuoteMonth.weight).sum := by
  unfold windowMonths
  rw [List.map_map, List.map_map, ← List.sum_map_mul_left]
  congr 1
  refine List.map_congr_left fun i _ => ?_
  show _ * _ / _ = _ * (_ / _)
  rw [mul_div_assoc]

theorem priced_ok (windowStart : Int) (months : PrepaymentMonths) (discount : DiscountEngine.Result) :
    ∃ quote, priced (s.windowMonths assignment tariffPlan windowStart months) months windowStart tariffPlan discount =
      .ok quote := by
  unfold priced
  extract_lets baseTotal amountAfter total shares
  have hsum : shares.sum = total := by
    show (List.map (100 * ·) _).sum = 100 * roundHalfEven amountAfter
    rw [List.sum_map_mul_left, List.map_id', distributeWholeTenge_sum]
    intro h
    have hbase : baseTotal = 0 := by
      show (List.map _ _).sum = 0
      rw [windowMonths_baseTotal, h, mul_zero]
    have hafter : amountAfter = 0 := by
      show computeAmountAfterDiscount baseTotal _ _ = 0
      rw [hbase]
      unfold computeAmountAfterDiscount
      split <;> simp
    rw [hafter, roundHalfEven_zero]
  rw [hsum]
  exact ⟨_, if_pos (beq_self_eq_true total)⟩

end Store

/-! ## The quote -/

/-- What the tables admit of a quote. -/
structure Admissible (s : Store) (quote : InvoiceService.PrepaymentQuote) : Prop where
  window : quote.windowStart ≤ quote.windowEnd
  baseTotal : 0 ≤ MoneyKzt.round quote.baseTotal
  total : 0 ≤ quote.total
  discountPct : ∀ p ∈ quote.discount.discountPct, 0 ≤ p ∧ p ≤ 100
  shares : ∀ share ∈ quote.shares, 0 ≤ share
  applied : ∀ a ∈ quote.discount.customApplicationsToWrite, ∃ d ∈ s.customDiscounts, a.customDiscountId = d.id

namespace Store

variable {s : Store} {now : Int} {childId : Nat} {months : PrepaymentMonths} {quote : InvoiceService.PrepaymentQuote}

theorem quote_priced (h : s.quote now childId months = .ok (.inr quote)) :
    ∃ assignment tariffPlan, s.tariffFor now childId months = .ok (assignment, tariffPlan) ∧
      priced (s.windowMonths assignment tariffPlan (s.prepaymentWindow now childId) months) months
        (s.prepaymentWindow now childId) tariffPlan
        (s.prepaymentDiscount now childId months assignment tariffPlan) = .ok quote := by
  unfold Store.quote at h
  cases ht : s.tariffFor now childId months with
  | error e =>
    rw [ht] at h
    cases h
  | ok pair =>
    obtain ⟨assignment, tariffPlan⟩ := pair
    rw [ht] at h
    dsimp only at h
    refine ⟨assignment, tariffPlan, rfl, ?_⟩
    cases hb : s.blocked childId with
    | some reason =>
      rw [hb] at h
      cases h
    | none =>
      rw [hb] at h
      unfold openQuote at h
      dsimp only at h
      split at h
      · generalize priced _ _ _ _ _ = r at h
        cases r with
        | error e => cases h
        | ok q =>
          cases h
          rfl
      · cases h

/-- **Every quote is admissible.** -/
theorem admissible_quote (hs : s.Constrained) (h : s.quote now childId months = .ok (.inr quote)) :
    Admissible s quote := by
  obtain ⟨assignment, tariffPlan, ht, hp⟩ := quote_priced h
  have hamount := effectiveAmount_nonneg hs ht
  obtain ⟨k, hk, -⟩ := InvoiceService.quoteWindow_monthStart now (s.paidPrepayments now childId)
  have hwindow : s.prepaymentWindow now childId = monthStart k := hk
  have hmonths : ∀ q ∈ s.windowMonths assignment tariffPlan (s.prepaymentWindow now childId) months,
      0 ≤ q.baseAmount ∧ 0 ≤ q.weight := by
    intro q hq
    obtain ⟨i, -, rfl⟩ := List.mem_map.1 hq
    rw [hwindow]
    exact quoteMonth_nonneg hamount k i
  have hbase : 0 ≤ ((s.windowMonths assignment tariffPlan (s.prepaymentWindow now childId) months).map
      InvoiceService.QuoteMonth.baseAmount).sum := by
    refine List.sum_nonneg fun x hx => ?_
    obtain ⟨q, hq, rfl⟩ := List.mem_map.1 hx
    exact (hmonths q hq).1
  have hpct : ∀ p ∈ (s.prepaymentDiscount now childId months assignment tariffPlan).discountPct, 0 ≤ p ∧ p ≤ 100 :=
    DiscountEngine.discountPct_range _
  have hafter := computeAmountAfterDiscount_nonneg
    (s.prepaymentDiscount now childId months assignment tariffPlan).customDiscountAmount hbase fun p h => (hpct p h).2
  unfold priced at hp
  dsimp only at hp
  split at hp
  · cases hp
    refine ⟨?_, MoneyKzt.round_nonneg hbase, ?_, hpct, ?_, ?_⟩
    · dsimp only
      rw [hwindow, addMonthsUtc_monthStart, endOfMonth_monthStart]
      have hcount : 1 ≤ months.count := by cases months <;> decide
      have := monthStart_le (show k ≤ k + ((months.count : Int) - 1) by omega)
      have := monthStart_succ (k + ((months.count : Int) - 1))
      omega
    · have := roundHalfEven_nonneg hafter
      show 0 ≤ MoneyKzt.roundToWholeKzt _
      unfold MoneyKzt.roundToWholeKzt
      omega
    · intro share hshare
      obtain ⟨x, hx, rfl⟩ := List.mem_map.1 hshare
      have := distributeWholeTenge_nonneg (roundHalfEven_nonneg hafter) (fun w hw => by
        obtain ⟨q, hq, rfl⟩ := List.mem_map.1 hw
        exact (hmonths q hq).2) x hx
      omega
    · intro a ha
      obtain ⟨d, hd, hid⟩ := DiscountEngine.applications_offered _ a ha
      refine ⟨d, ?_, hid⟩
      have htargeted : d ∈ s.targeted now childId := (List.mem_filter.1 hd).1
      unfold targeted at htargeted
      rw [List.mem_filter, orderBy, List.mem_insertionSort, List.mem_filter] at htargeted
      exact htargeted.1.1
  · cases hp

end Store

end Billing
