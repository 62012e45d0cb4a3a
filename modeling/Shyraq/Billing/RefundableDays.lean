import Mathlib.Data.Int.Interval
import Mathlib.Order.Interval.Finset.Basic
import Shyraq.Billing.RefundAmounts
import Shyraq.Transactions.Alone

/-!
# The days that are refunded

The invoice is selected by the UTC day of the archive instant and the days are counted from the local one, which may
be the first day after the period.  The days of the period are capped there, the holidays are not: when that day is a
holiday, one day is refunded that is not left.
-/

namespace Billing

open Kernel Transactions

/-! ## Days without holidays -/

/-- A holiday that is not billed. -/
def Store.nonBillableOn (s : Store) (d : Int) : Bool :=
  s.reference.holidays.any fun h => !h.isBillable && h.date == d

/-- A day has one holiday at most. -/
def Store.HolidayDates (s : Store) : Prop := (s.reference.holidays.map Holiday.date).Nodup

instance (s : Store) : Decidable s.HolidayDates := inferInstanceAs (Decidable (List.Nodup _))

variable {s : Store} {a b d : Int}

section

-- of the orders of the integers, the one that can be evaluated
local instance (priority := 2000) evaluatedOrder : Preorder Int := Int.instLinearOrder.toPreorder

/-- The billable days from `start` to `stop`. -/
def Store.billableDaysIn (s : Store) (start stop : Int) : Finset Int :=
  (Finset.Icc start stop).filter fun d => s.nonBillableOn d = false

theorem mem_billableDaysIn {x : Int} : x ∈ s.billableDaysIn a b ↔ (a ≤ x ∧ x ≤ b) ∧ s.nonBillableOn x = false := by
  unfold Store.billableDaysIn
  rw [Finset.mem_filter, Finset.mem_Icc]

theorem nonBillableInRange_eq (hs : s.HolidayDates) (a b : Int) :
    s.nonBillableInRange a b = (((Finset.Icc a b).filter fun d => s.nonBillableOn d = true).card : Int) := by
  have hdates : ((s.reference.holidays.filter fun h =>
      !h.isBillable && decide (a ≤ h.date) && decide (h.date ≤ b)).map Holiday.date).Nodup :=
    hs.sublist (List.filter_sublist.map _)
  unfold Store.nonBillableInRange
  rw [← List.length_map (f := Holiday.date), ← List.toFinset_card_of_nodup hdates]
  congr 2
  ext x
  unfold Store.nonBillableOn
  simp only [List.mem_toFinset, List.mem_map, List.mem_filter, Finset.mem_filter, Finset.mem_Icc, List.any_eq_true,
    Bool.and_eq_true, decide_eq_true_eq, Bool.not_eq_true', beq_iff_eq]
  constructor
  · rintro ⟨h, ⟨hmem, ⟨hbillable, hle⟩, hle'⟩, rfl⟩
    exact ⟨⟨hle, hle'⟩, h, hmem, hbillable, rfl⟩
  · rintro ⟨⟨hle, hle'⟩, h, hmem, hbillable, rfl⟩
    exact ⟨h, ⟨hmem, ⟨hbillable, hle⟩, hle'⟩, rfl⟩

theorem card_billableDaysIn (hs : s.HolidayDates) (h : a ≤ b + 1) :
    ((s.billableDaysIn a b).card : Int) = b - a + 1 - s.nonBillableInRange a b := by
  have hsplit := Finset.card_filter_add_card_filter_not (s := Finset.Icc a b) fun d => s.nonBillableOn d = true
  simp only [Bool.not_eq_true] at hsplit
  have hcard : ((Finset.Icc a b).card : Int) = b + 1 - a := by
    rw [Int.card_Icc]
    omega
  rw [nonBillableInRange_eq hs]
  unfold Store.billableDaysIn
  omega

end

theorem card_billableDaysIn_split (hd : a ≤ d + 1) (hd' : d ≤ b) :
    (s.billableDaysIn a b).card = (s.billableDaysIn a d).card + (s.billableDaysIn (d + 1) b).card := by
  rw [← Finset.card_union_of_disjoint]
  · congr 1
    ext x
    rw [Finset.mem_union, mem_billableDaysIn, mem_billableDaysIn, mem_billableDaysIn]
    constructor
    · rintro ⟨⟨hle, hle'⟩, hday⟩
      by_cases hx : x ≤ d
      · exact .inl ⟨⟨hle, hx⟩, hday⟩
      · exact .inr ⟨⟨by omega, hle'⟩, hday⟩
    · rintro (⟨⟨hle, hle'⟩, hday⟩ | ⟨⟨hle, hle'⟩, hday⟩)
      · exact ⟨⟨hle, by omega⟩, hday⟩
      · exact ⟨⟨by omega, hle'⟩, hday⟩
  · rw [Finset.disjoint_left]
    intro x hx hx'
    rw [mem_billableDaysIn] at hx hx'
    omega

theorem nonBillableInRange_succ (hs : s.HolidayDates) (h : a ≤ b + 1) :
    s.nonBillableInRange a (b + 1) = s.nonBillableInRange a b + if s.nonBillableOn (b + 1) = true then 1 else 0 := by
  have hsplit := card_billableDaysIn_split (s := s) (a := a) (d := b) (b := b + 1) h (by omega)
  have h₁ := card_billableDaysIn hs (a := a) (b := b + 1) (by omega)
  have h₂ := card_billableDaysIn hs h
  have hone : s.billableDaysIn (b + 1) (b + 1) =
      if s.nonBillableOn (b + 1) = false then {b + 1} else ∅ := by
    unfold Store.billableDaysIn
    rw [Finset.Icc_self, Finset.filter_singleton]
  cases hday : s.nonBillableOn (b + 1) with
  | true =>
    rw [hone, if_neg (by rw [hday]; decide), Finset.card_empty] at hsplit
    rw [if_pos rfl]
    omega
  | false =>
    rw [hone, if_pos hday, Finset.card_singleton] at hsplit
    rw [if_neg Bool.false_ne_true]
    omega

/-! ## What the processor counts -/

/-- The billable days of the period that are left after the archive day. -/
def Store.daysLeft (s : Store) (i : Invoice) (archiveDay : Int) : Int :=
  ((s.billableDaysIn i.periodStart i.periodEnd).filter fun d => archiveDay < d).card

/-- The refund is for the days that are left, which are among those of the period, and is no more than was billed. -/
structure RefundsDaysLeft (s : Store) (i : Invoice) (archivedAt : Int) (days : ProRataRefundProcessor.BillableDays) :
    Prop where
  daysLeft : days.refundableDays = s.daysLeft i (formatDateInTimezone archivedAt)
  nonneg : 0 ≤ days.refundableDays
  le_total : days.refundableDays ≤ days.totalBillableDays
  billed : 0 < ProRataRefundProcessor.refundShare i.amountAfterDiscount days →
    MoneyKzt.round (ProRataRefundProcessor.refundShare i.amountAfterDiscount days) ≤ i.amountAfterDiscount

/-- The local archive day is past the period and a holiday, and the period has a billable day. -/
def Store.HolidayBeyond (s : Store) (i : Invoice) (archivedAt : Int) : Prop :=
  i.periodEnd < formatDateInTimezone archivedAt ∧ s.nonBillableOn (formatDateInTimezone archivedAt) = true ∧
    0 < (s.billableDaysIn i.periodStart i.periodEnd).card

instance (s : Store) (i : Invoice) (archivedAt : Int) : Decidable (s.HolidayBeyond i archivedAt) :=
  inferInstanceAs (Decidable (_ ∧ _))

variable {i : Invoice} {childId : Nat} {archivedAt : Int}

theorem daysLeft_inside (ha : i.periodStart ≤ d + 1) :
    s.daysLeft i d = ((s.billableDaysIn (d + 1) i.periodEnd).card : Int) := by
  unfold Store.daysLeft
  congr 2
  ext x
  rw [Finset.mem_filter, mem_billableDaysIn, mem_billableDaysIn]
  constructor
  · rintro ⟨⟨⟨-, hle⟩, hday⟩, hlt⟩
    exact ⟨⟨by omega, hle⟩, hday⟩
  · rintro ⟨⟨hle, hle'⟩, hday⟩
    exact ⟨⟨⟨by omega, hle'⟩, hday⟩, by omega⟩

theorem daysLeft_beyond (hb : i.periodEnd ≤ d) : s.daysLeft i d = 0 := by
  unfold Store.daysLeft
  rw [Finset.filter_false_of_mem]
  · rfl
  · intro x hx hlt
    rw [mem_billableDaysIn] at hx
    omega

/-- The selection is by the UTC day, so the local day is in the period or the one after it. -/
theorem archiveDay_of_selected (hi : s.currentInvoiceForChildAt childId archivedAt = some i) :
    i.periodStart ≤ formatDateInTimezone archivedAt ∧ formatDateInTimezone archivedAt ≤ i.periodEnd + 1 ∧
      i.periodStart ≤ i.periodEnd := by
  have hmem : i ∈ s.invoices.filter fun i => i.childId == childId && decide (i.periodStart ≤ utcDay archivedAt) &&
      decide (utcDay archivedAt ≤ i.periodEnd) && i.status.unpaid := by
    unfold Store.currentInvoiceForChildAt orderBy at hi
    exact (List.perm_insertionSort _ _).mem_iff.1 (List.mem_of_mem_head? hi)
  obtain ⟨-, h⟩ := List.mem_filter.1 hmem
  simp only [Bool.and_eq_true, decide_eq_true_eq] at h
  have hstart := h.1.1.2
  have hend := h.1.2
  have hday : formatDateInTimezone archivedAt = utcDay archivedAt ∨
      formatDateInTimezone archivedAt = utcDay archivedAt + 1 := by
    unfold formatDateInTimezone utcDay almatyOffsetMs msPerDay
    omega
  omega

namespace ProRataRefundProcessor

theorem reads_computeBillableDays (hd : i.periodStart ≤ d) (hstart : i.periodStart ≤ i.periodEnd) :
    (computeBillableDays i.periodStart i.periodEnd d).reads s = some (.ok (daysOf i d s s)) := by
  have hdays : 0 < archivedDays i.periodStart i.periodEnd d := by
    unfold archivedDays
    omega
  unfold computeBillableDays daysOf
  simp only [if_pos hdays]
  rfl

theorem bounds_billableDays (a b d n m : Int) : 0 ≤ (billableDays a b d n m).refundableDays ∧
      (billableDays a b d n m).refundableDays ≤ (billableDays a b d n m).totalBillableDays := by
  unfold billableDays
  dsimp only
  omega

theorem round_refundShare_le {amount : Int} {days : BillableDays} (hnonneg : 0 ≤ days.refundableDays)
    (hle : days.refundableDays ≤ days.totalBillableDays) (hpos : 0 < refundShare amount days) :
    MoneyKzt.round (refundShare amount days) ≤ amount := by
  have htotal : 0 < days.totalBillableDays := by
    by_contra hno
    have hzero : days.totalBillableDays = 0 := by omega
    unfold refundShare at hpos
    rw [hzero, Int.cast_zero, div_zero] at hpos
    exact absurd hpos (lt_irrefl _)
  have hamount : 0 ≤ amount := by
    by_contra hneg
    have hle : refundShare amount days ≤ 0 := by
      unfold refundShare MoneyKzt.toDecimal
      refine div_nonpos_of_nonpos_of_nonneg (mul_nonpos_of_nonpos_of_nonneg ?_ ?_) ?_
      · refine div_nonpos_of_nonpos_of_nonneg ?_ (by norm_num)
        exact_mod_cast (show amount ≤ 0 by omega)
      · exact_mod_cast hnonneg
      · exact_mod_cast htotal.le
    exact absurd hpos (not_lt.2 hle)
  refine (round_refundShare_le_iff htotal).2 (.inl ?_)
  have hmul : amount * days.refundableDays ≤ amount * days.totalBillableDays := Int.mul_le_mul_of_nonneg_left hle hamount
  have hexpand : (2 * amount + 1) * days.totalBillableDays =
      2 * (amount * days.totalBillableDays) + days.totalBillableDays := by ring
  omega

theorem refundableDays_inside (hs : s.HolidayDates) (hd : i.periodStart ≤ d) (hd' : d ≤ i.periodEnd) :
    (daysOf i d s s).refundableDays = s.daysLeft i d := by
  have hdays : archivedDays i.periodStart i.periodEnd d = d - i.periodStart + 1 := by
    unfold archivedDays
    omega
  have htotal := card_billableDaysIn hs (a := i.periodStart) (b := i.periodEnd) (by omega)
  have hbefore := card_billableDaysIn hs (a := i.periodStart) (b := d) (by omega)
  have hsplit := card_billableDaysIn_split (s := s) (a := i.periodStart) (d := d) (b := i.periodEnd) (by omega) hd'
  rw [daysLeft_inside (by omega)]
  unfold daysOf billableDays
  rw [hdays, if_pos (by omega)]
  dsimp only
  omega

/-- The day after the period takes its holiday from the days of the period. -/
theorem refundableDays_beyond (hs : s.HolidayDates) (hstart : i.periodStart ≤ i.periodEnd)
    (hd : d = i.periodEnd + 1) : (daysOf i d s s).refundableDays =
      if s.nonBillableOn d = true ∧ 0 < (s.billableDaysIn i.periodStart i.periodEnd).card then 1 else 0 := by
  have hdays : archivedDays i.periodStart i.periodEnd d = i.periodEnd - i.periodStart + 1 := by
    unfold archivedDays
    omega
  have htotal := card_billableDaysIn hs (a := i.periodStart) (b := i.periodEnd) (by omega)
  have hnext := nonBillableInRange_succ hs (a := i.periodStart) (b := i.periodEnd) (by omega)
  unfold daysOf billableDays
  rw [hdays, if_pos (by omega)]
  subst hd
  rw [hnext]
  dsimp only
  by_cases hholiday : s.nonBillableOn (i.periodEnd + 1) = true
  · rw [if_pos hholiday]
    by_cases hsome : 0 < (s.billableDaysIn i.periodStart i.periodEnd).card
    · rw [if_pos ⟨hholiday, hsome⟩]
      omega
    · rw [if_neg fun h => hsome h.2]
      omega
  · rw [if_neg hholiday, if_neg fun h => hholiday h.1]
    omega

/-- **Refundable days.**  For every invoice that the processor selects, the days that it refunds are the billable
days of the period after the local archive day, within the bounds, exactly when that day is not a holiday past the
period (or the period has no billable day). -/
theorem refundsDaysLeft_iff {s : Store} {i : Invoice} {childId : Nat} {archivedAt : Int} (hs : s.HolidayDates)
    (hi : s.currentInvoiceForChildAt childId archivedAt = some i) :
    ∃ days, (computeBillableDays i.periodStart i.periodEnd (formatDateInTimezone archivedAt)).reads s =
        some (.ok days) ∧
      (RefundsDaysLeft s i archivedAt days ↔ ¬s.HolidayBeyond i archivedAt) := by
  obtain ⟨hday, hday', hstart⟩ := archiveDay_of_selected hi
  refine ⟨_, reads_computeBillableDays hday hstart, ?_⟩
  obtain ⟨hnonneg, hle⟩ := bounds_billableDays i.periodStart i.periodEnd (formatDateInTimezone archivedAt)
    (s.nonBillableInRange i.periodStart i.periodEnd)
    (if 0 < archivedDays i.periodStart i.periodEnd (formatDateInTimezone archivedAt) then
      s.nonBillableInRange i.periodStart (formatDateInTimezone archivedAt) else 0)
  have hiff : (daysOf i (formatDateInTimezone archivedAt) s s).refundableDays =
      s.daysLeft i (formatDateInTimezone archivedAt) ↔ ¬s.HolidayBeyond i archivedAt := by
    by_cases hin : formatDateInTimezone archivedAt ≤ i.periodEnd
    · exact iff_of_true (refundableDays_inside hs hday hin) fun h => absurd h.1 (by omega)
    · rw [refundableDays_beyond hs hstart (by omega), daysLeft_beyond (by omega)]
      unfold Store.HolidayBeyond
      constructor
      · intro hzero h
        rw [if_pos h.2] at hzero
        cases hzero
      · intro hnot
        exact if_neg fun h => hnot ⟨by omega, h⟩
  rw [← hiff]
  exact ⟨fun h => h.daysLeft, fun h => ⟨h, hnonneg, hle, round_refundShare_le hnonneg hle⟩⟩

end ProRataRefundProcessor

/-! ## A holiday after the period -/

/-- Days 20 and 31 are holidays; the invoice is for days 0 to 30. -/
def Store.holidayAfterPeriod : Store :=
  { Store.archivedChild 1000 with
    reference := { (Store.archivedChild 1000).reference with holidays := [⟨20, false⟩, ⟨31, false⟩] } }

/-- Archived at 01:00 on day 31, which in UTC is day 30: no day is left and one is refunded. -/
theorem holidayAfterPeriod_not_refundsDaysLeft : Store.holidayAfterPeriod.HolidayDates ∧
    ∃ i days, Store.holidayAfterPeriod.currentInvoiceForChildAt 1 2664000000 = some i ∧
      (ProRataRefundProcessor.computeBillableDays i.periodStart i.periodEnd (formatDateInTimezone 2664000000)).reads
        Store.holidayAfterPeriod = some (.ok days) ∧
      Store.holidayAfterPeriod.daysLeft i (formatDateInTimezone 2664000000) = 0 ∧ days.refundableDays = 1 ∧
      ¬RefundsDaysLeft Store.holidayAfterPeriod i 2664000000 days := by
  have hleft : ∀ i ∈ Store.holidayAfterPeriod.currentInvoiceForChildAt 1 2664000000,
      Store.holidayAfterPeriod.daysLeft i (formatDateInTimezone 2664000000) = 0 := by decide +kernel
  refine ⟨by decide, _, ⟨30, 1⟩, rfl, by rfl, hleft _ rfl, rfl, fun h => ?_⟩
  have hdays := h.daysLeft
  rw [hleft _ rfl] at hdays
  cases hdays

/-- Archived on day 10: of the twenty days that are left one is a holiday. -/
theorem refundsDaysLeft_iff_holidayAfterPeriod : ∃ i days,
    Store.holidayAfterPeriod.currentInvoiceForChildAt 1 864000000 = some i ∧
    (ProRataRefundProcessor.computeBillableDays i.periodStart i.periodEnd (formatDateInTimezone 864000000)).reads
      Store.holidayAfterPeriod = some (.ok days) ∧ RefundsDaysLeft Store.holidayAfterPeriod i 864000000 days := by
  have hinside : ∀ i ∈ Store.holidayAfterPeriod.currentInvoiceForChildAt 1 864000000,
      ¬Store.holidayAfterPeriod.HolidayBeyond i 864000000 := by decide +kernel
  have hselected : Store.holidayAfterPeriod.currentInvoiceForChildAt 1 864000000 = some _ := rfl
  obtain ⟨days, hreads, hiff⟩ := ProRataRefundProcessor.refundsDaysLeft_iff (by decide) hselected
  exact ⟨_, days, rfl, hreads, hiff.2 (hinside _ rfl)⟩

end Billing
