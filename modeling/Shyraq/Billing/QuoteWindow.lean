import Shyraq.Billing.PreviewAgrees
import Shyraq.Billing.MonthLocks
import Mathlib.Order.Bounds.Basic

/-!
# The window of a quote

A quote looks for the first month after the current one that no paid prepayment of the child covers,
and takes whole months from there.  The walk over the covered months ends: there is always a month
past them.  A covered month further on, inside the window, blocks the quote.
-/

namespace Billing

open Kernel Transactions InvoiceService

/-- A paid prepayment of the child walks over the month. -/
def Store.Covered (s : Store) (childId : Nat) (k : Int) : Prop :=
  ∃ p ∈ s.invoices, p.childId = childId ∧ p.invoiceType.isPrepayment = true ∧ p.status = .paid ∧ k ∈ p.lockedMonths

/-- The first month after the current one in Almaty that is not covered. -/
def Store.FirstFree (s : Store) (now : Int) (childId : Nat) (k : Int) : Prop :=
  IsLeast {k | monthOf (formatDateInTimezone now) < k ∧ ¬ s.Covered childId k} k

/-- The months from `k` on that a window has. -/
def windowFrom (k : Int) (months : PrepaymentMonths) : List Int := (List.range months.count).map fun i : Nat => k + (i : Int)

/-- A quote over exactly these months, with sums that add up. -/
structure Quoted (k : Int) (months : PrepaymentMonths) (quote : PrepaymentQuote) : Prop where
  windowStart : quote.windowStart = monthStart k
  windowEnd : quote.windowEnd = monthStart (k + months.count) - 1
  months : quote.months.map (fun m => (m.periodStart, m.periodEnd)) =
    (windowFrom k months).map fun j => (monthStart j, monthStart (j + 1) - 1)
  baseTotal : quote.baseTotal = (quote.months.map QuoteMonth.baseAmount).sum
  shares : quote.shares.sum = quote.total

/-- What a quote answers about its window. -/
structure Windowed (s : Store) (now : Int) (childId : Nat) (months : PrepaymentMonths) (k : Int)
    (answer : Except BillingError (BlockedReason ⊕ PrepaymentQuote)) : Prop where
  quoted : ∀ quote, answer = .ok (.inr quote) →
    (∀ j ∈ windowFrom k months, ¬ s.Covered childId j) ∧ Quoted k months quote
  overlaps : ∀ covered, answer = .ok (.inl (.windowOverlapsCovered covered)) →
    covered ≠ [] ∧ covered.Pairwise (· < ·) ∧ ∀ j, j ∈ covered ↔ j ∈ windowFrom k months ∧ s.Covered childId j
  /-- Unless something else stops the quote, the window decides. -/
  decides : ∀ pair, s.tariffFor now childId months = .ok pair → s.blocked childId = none →
    ((∃ quote, answer = .ok (.inr quote)) ↔ ∀ j ∈ windowFrom k months, ¬ s.Covered childId j) ∧
    ((∃ covered, answer = .ok (.inl (.windowOverlapsCovered covered))) ↔
      ∃ j ∈ windowFrom k months, s.Covered childId j)

/-! ## The walk over a window -/

variable {s : Store} {now : Int} {childId : Nat} {months : PrepaymentMonths}

theorem le_of_mem_monthsFrom {fuel : Nat} {start stop d : Int} (h : d ∈ monthsFrom fuel start stop) : d ≤ stop := by
  induction fuel generalizing start with
  | zero => cases h
  | succ fuel ih =>
    unfold monthsFrom at h
    split at h
    · rcases List.mem_cons.1 h with rfl | h
      · assumption
      · exact ih h
    · cases h

variable {k : Int}

theorem eq_monthStart_of_mem {fuel : Nat} {stop d : Int} (h : d ∈ monthsFrom fuel (monthStart k) stop) :
    ∃ j, k ≤ j ∧ d = monthStart j := by
  induction fuel generalizing k with
  | zero => cases h
  | succ fuel ih =>
    unfold monthsFrom at h
    split at h
    · rcases List.mem_cons.1 h with rfl | h
      · exact ⟨k, Int.le_refl k, rfl⟩
      · rw [addMonthsUtc_monthStart] at h
        obtain ⟨j, hj, rfl⟩ := ih h
        exact ⟨j, by omega, rfl⟩
    · cases h

/-- A window that begins with a month covers the months that it has a day of. -/
theorem mem_lockedMonths_iff {i : Invoice} {j : Int} (h : i.periodStart = monthStart k) :
    j ∈ i.lockedMonths ↔ ∃ d, monthOf d = j ∧ i.covers d := by
  constructor
  · intro hj
    obtain ⟨d, hd, rfl⟩ := List.mem_map.1 hj
    refine ⟨d, rfl, ?_, le_of_mem_monthsFrom hd⟩
    unfold monthsOfWindow at hd
    rw [h] at hd ⊢
    obtain ⟨i, hi, rfl⟩ := eq_monthStart_of_mem hd
    exact monthStart_le hi
  · rintro ⟨d, rfl, hstart, hstop⟩
    obtain ⟨hfirst, hlast⟩ := monthOf_spec d
    refine anchored_of_monthStart h (monthOf d) ⟨?_, by omega⟩
    rw [h] at hstart ⊢
    refine monthStart_le ?_
    by_contra hlt
    have := monthStart_le (show monthOf d + 1 ≤ k by omega)
    omega

/-- A window that ends before a month does not cover it, nor a later one. -/
theorem monthStart_le_periodEnd {i : Invoice} (h : k ∈ i.lockedMonths) : monthStart k ≤ i.periodEnd := by
  obtain ⟨d, hd, rfl⟩ := List.mem_map.1 h
  have := le_of_mem_monthsFrom hd
  have := (monthOf_spec d).1
  omega

theorem mem_coveredMonthKeys_iff (hk : monthOf (formatDateInTimezone now) < k) :
    k ∈ coveredMonthKeys (s.paidPrepayments now childId) ↔ s.Covered childId k := by
  unfold coveredMonthKeys Store.paidPrepayments
  rw [List.mem_flatMap]
  constructor
  · rintro ⟨p, hp, hkp⟩
    rw [orderBy, List.mem_insertionSort, List.mem_filter] at hp
    simp only [Bool.and_eq_true, beq_iff_eq] at hp
    exact ⟨p, hp.1, hp.2.1.1.1, hp.2.1.1.2, hp.2.1.2, hkp⟩
  · rintro ⟨p, hp, hchild, htype, hpaid, hkp⟩
    refine ⟨p, ?_, hkp⟩
    have hend : addMonthsUtc (firstOfMonthInTimezone now) 1 ≤ p.periodEnd := by
      unfold firstOfMonthInTimezone
      rw [addMonthsUtc_monthStart]
      have := monthStart_le (show monthOf (formatDateInTimezone now) + 1 ≤ k by omega)
      have := monthStart_le_periodEnd hkp
      omega
    rw [orderBy, List.mem_insertionSort, List.mem_filter]
    simp [hp, hchild, htype, hpaid, hend]

/-! ## The search -/

/-- The walk stops at the first month that is not covered, or where its fuel ends. -/
theorem shiftWindow_spec (covered : List Int) (fuel : Nat) (k : Int) :
    ∃ j, k ≤ j ∧ shiftWindow covered fuel (monthStart k) = monthStart j ∧ (∀ i, k ≤ i → i < j → i ∈ covered) ∧
      (j ∉ covered ∨ j = k + fuel) := by
  induction fuel generalizing k with
  | zero => exact ⟨k, Int.le_refl k, rfl, fun i h₁ h₂ => by omega, .inr (by simp)⟩
  | succ fuel ih =>
    unfold shiftWindow
    rw [monthOf_monthStart, addMonthsUtc_monthStart]
    by_cases hk : covered.contains k = true
    · rw [if_pos hk]
      obtain ⟨j, hkj, hj, hbetween, hstop⟩ := ih (k + 1)
      refine ⟨j, by omega, hj, ?_, ?_⟩
      · intro i h₁ h₂
        by_cases hik : i = k
        · rw [hik]
          exact List.contains_iff_mem.1 hk
        · exact hbetween i (by omega) h₂
      · rcases hstop with hstop | hstop
        · exact .inl hstop
        · exact .inr (by omega)
    · rw [if_neg hk]
      exact ⟨k, Int.le_refl k, rfl, fun i h₁ h₂ => by omega, .inl fun h => hk (List.contains_iff_mem.2 h)⟩

/-- As many months in a row cannot be covered as there are keys, and one more. -/
theorem exists_uncovered (covered : List Int) (k : Int) {fuel : Nat} (hfuel : covered.length < fuel) :
    ¬ ∀ i, k ≤ i → i < k + fuel → i ∈ covered := by
  intro hall
  have hnodup : ((List.range fuel).map fun i : Nat => k + (i : Int)).Nodup :=
    List.nodup_range.map fun a b (h : k + (a : Int) = k + b) => by omega
  have hsub : ((List.range fuel).map fun i : Nat => k + (i : Int)) ⊆ covered := by
    intro j hj
    obtain ⟨i, hi, rfl⟩ := List.mem_map.1 hj
    rw [List.mem_range] at hi
    exact hall _ (by omega) (by omega)
  have := (hnodup.subperm hsub).length_le
  rw [List.length_map, List.length_range] at this
  omega

theorem shiftWindow_ends (covered : List Int) (k : Int) {fuel : Nat} (hfuel : covered.length < fuel) :
    ∃ j, shiftWindow covered fuel (monthStart k) = monthStart j ∧ IsLeast {i | k ≤ i ∧ i ∉ covered} j := by
  obtain ⟨j, hkj, hj, hbetween, hstop⟩ := shiftWindow_spec covered fuel k
  have hfree : j ∉ covered := by
    rcases hstop with h | rfl
    · exact h
    · exact absurd hbetween (exists_uncovered covered k hfuel)
  refine ⟨j, hj, ⟨hkj, hfree⟩, ?_⟩
  rintro i ⟨hki, hi⟩
  by_contra hlt
  exact hi (hbetween i hki (by omega))

theorem shiftWindow_fuel (covered : List Int) (k : Int) {fuel fuel' : Nat} (h : covered.length < fuel)
    (h' : covered.length < fuel') :
    shiftWindow covered fuel' (monthStart k) = shiftWindow covered fuel (monthStart k) := by
  obtain ⟨j, hj, hleast⟩ := shiftWindow_ends covered k h
  obtain ⟨j', hj', hleast'⟩ := shiftWindow_ends covered k h'
  rw [hj, hj', hleast.unique hleast']

theorem firstFree_quoteWindow (s : Store) (now : Int) (childId : Nat) :
    ∃ k, s.FirstFree now childId k ∧ s.prepaymentWindow now childId = monthStart k := by
  obtain ⟨k, hk, ⟨hafter, hfree⟩, hleast⟩ := shiftWindow_ends (coveredMonthKeys (s.paidPrepayments now childId))
    (monthOf (formatDateInTimezone now) + 1) (Nat.lt_succ_self _)
  have hnext : monthOf (formatDateInTimezone now) < k := by omega
  refine ⟨k, ⟨⟨hnext, ?_⟩, ?_⟩, ?_⟩
  · exact fun hc => hfree ((mem_coveredMonthKeys_iff hnext).2 hc)
  · rintro i ⟨hi, hifree⟩
    exact hleast ⟨by omega, fun hc => hifree ((mem_coveredMonthKeys_iff hi).1 hc)⟩
  · unfold Store.prepaymentWindow quoteWindow firstOfMonthInTimezone
    dsimp only
    rw [addMonthsUtc_monthStart, hk]

/-! ## The quote -/

theorem mem_windowFrom {j : Int} : j ∈ windowFrom k months ↔ k ≤ j ∧ j < k + months.count := by
  unfold windowFrom
  rw [List.mem_map]
  constructor
  · rintro ⟨i, hi, rfl⟩
    rw [List.mem_range] at hi
    omega
  · rintro ⟨h₁, h₂⟩
    exact ⟨(j - k).toNat, List.mem_range.2 (by omega), by omega⟩

theorem windowFrom_pairwise (k : Int) (months : PrepaymentMonths) : (windowFrom k months).Pairwise (· < ·) := by
  unfold windowFrom
  rw [List.pairwise_map]
  exact List.pairwise_lt_range.imp fun h => by omega

theorem overlapping_eq {paid : List Invoice} : overlappingCovered paid (monthStart k) months.count =
      (windowFrom k months).filter (coveredMonthKeys paid).contains := by
  unfold overlappingCovered windowFrom
  rw [bind_pure_comp, List.map_eq_map, List.map_map]
  congr 1
  refine List.map_congr_left fun i _ => ?_
  show monthOf (addMonthsUtc (monthStart k) i) = _
  rw [addMonthsUtc_monthStart, monthOf_monthStart]

theorem mem_overlapping {j : Int} (hk : monthOf (formatDateInTimezone now) < k) :
    j ∈ overlappingCovered (s.paidPrepayments now childId) (monthStart k) months.count ↔
      j ∈ windowFrom k months ∧ s.Covered childId j := by
  rw [overlapping_eq, List.mem_filter]
  refine and_congr_right fun hj => ?_
  rw [List.contains_iff_mem]
  exact mem_coveredMonthKeys_iff (by have := (mem_windowFrom.1 hj).1; omega)

theorem quoted_of_priced {entries : List QuoteMonth} {tariffPlan : TariffPlan}
    {discount : DiscountEngine.Result} {quote : PrepaymentQuote} {assignment : TariffAssignment}
    (hentries : entries = s.windowMonths assignment tariffPlan (monthStart k) months)
    (h : Store.priced entries months (monthStart k) tariffPlan discount = .ok quote) : Quoted k months quote := by
  unfold Store.priced at h
  dsimp only at h
  split at h
  · next hsum =>
    cases h
    refine ⟨rfl, ?_, ?_, rfl, beq_iff_eq.1 hsum⟩
    · dsimp only
      have he : k + ((months.count : Int) - 1) + 1 = k + months.count := by omega
      rw [addMonthsUtc_monthStart, endOfMonth_monthStart, he]
    · dsimp only
      rw [hentries]
      unfold Store.windowMonths windowFrom
      rw [List.map_map, List.map_map]
      refine List.map_congr_left fun i _ => ?_
      show (addMonthsUtc (monthStart k) i, endOfMonth (addMonthsUtc (monthStart k) i)) = _
      rw [addMonthsUtc_monthStart, endOfMonth_monthStart]
      rfl
  · cases h

theorem openQuote_window (hk : monthOf (formatDateInTimezone now) < k)
    (hwindow : s.prepaymentWindow now childId = monthStart k) (assignment : TariffAssignment)
    (tariffPlan : TariffPlan) :
    (∃ quote, s.openQuote now childId months assignment tariffPlan = .ok (.inr quote) ∧ Quoted k months quote ∧
      ∀ j ∈ windowFrom k months, ¬ s.Covered childId j) ∨
    (∃ covered, s.openQuote now childId months assignment tariffPlan = .ok (.inl (.windowOverlapsCovered covered)) ∧
      covered ≠ [] ∧ covered.Pairwise (· < ·) ∧
      ∀ j, j ∈ covered ↔ j ∈ windowFrom k months ∧ s.Covered childId j) := by
  have hmem : ∀ j, j ∈ overlappingCovered (s.paidPrepayments now childId) (monthStart k) months.count ↔
      j ∈ windowFrom k months ∧ s.Covered childId j := fun j => mem_overlapping hk
  have hsorted : (overlappingCovered (s.paidPrepayments now childId) (monthStart k) months.count).Pairwise
      (· < ·) := by
    rw [overlapping_eq]
    exact (windowFrom_pairwise k months).filter _
  unfold Store.openQuote
  dsimp only
  rw [hwindow]
  generalize overlappingCovered (s.paidPrepayments now childId) (monthStart k) months.count = covered at hmem hsorted
  cases covered with
  | nil =>
    obtain ⟨quote, hq⟩ := @Store.priced_ok s assignment tariffPlan (monthStart k) months
      (s.prepaymentDiscount now childId months assignment tariffPlan)
    refine .inl ⟨quote, ?_, quoted_of_priced rfl hq, ?_⟩
    · rw [hq]
      rfl
    · intro j hj hc
      exact List.not_mem_nil ((hmem j).2 ⟨hj, hc⟩)
  | cons first rest => exact .inr ⟨first :: rest, rfl, List.cons_ne_nil _ _, hsorted, hmem⟩

theorem blocked_ne_overlap (covered : List Int) : s.blocked childId ≠ some (.windowOverlapsCovered covered) := by
  unfold Store.blocked
  cases s.outstandingDebt childId with
  | some amount => simp
  | none => cases s.moneyHolding childId <;> simp

theorem windowed_quote (hk : monthOf (formatDateInTimezone now) < k)
    (hwindow : s.prepaymentWindow now childId = monthStart k) :
    Windowed s now childId months k (s.quote now childId months) := by
  unfold Store.quote
  cases ht : s.tariffFor now childId months with
  | error e =>
    refine ⟨?_, ?_, ?_⟩
    · rintro quote ⟨⟩
    · rintro covered ⟨⟩
    · intro pair hpair
      rw [ht] at hpair
      cases hpair
  | ok pair =>
    dsimp only
    cases hb : s.blocked childId with
    | some reason =>
      refine ⟨?_, ?_, ?_⟩
      · rintro quote ⟨⟩
      · intro covered he
        cases he
        exact absurd hb (blocked_ne_overlap covered)
      · intro _ _ hnone
        rw [hb] at hnone
        cases hnone
    | none =>
      dsimp only
      have hopen : (∃ quote, s.openQuote now childId months pair.1 pair.2 = .ok (.inr quote) ∧ _) ∨ _ :=
        openQuote_window hk hwindow pair.1 pair.2
      rcases hopen with
        ⟨quote, hq, hquoted, hfree⟩ | ⟨covered, hq, hne, hsorted, hmem⟩
      · rw [hq]
        refine ⟨?_, ?_, fun _ _ _ => ⟨⟨fun _ => hfree, fun _ => ⟨quote, rfl⟩⟩, ⟨?_, ?_⟩⟩⟩
        · intro quote' he
          cases he
          exact ⟨hfree, hquoted⟩
        · rintro covered ⟨⟩
        · rintro ⟨covered, ⟨⟩⟩
        · rintro ⟨j, hj, hc⟩
          exact absurd hc (hfree j hj)
      · obtain ⟨first, hfirst⟩ := List.exists_mem_of_ne_nil _ hne
        obtain ⟨hin, hcov⟩ := (hmem first).1 hfirst
        rw [hq]
        refine ⟨?_, ?_, fun _ _ _ => ⟨⟨?_, ?_⟩, ⟨fun _ => ⟨first, hin, hcov⟩, fun _ => ⟨covered, rfl⟩⟩⟩⟩
        · rintro quote ⟨⟩
        · intro covered' he
          cases he
          exact ⟨hne, hsorted, hmem⟩
        · rintro ⟨quote, ⟨⟩⟩
        · intro hfree
          exact absurd hcov (hfree first hin)

theorem computePrepaymentQuote_alone (hu : Table.Unique s.customDiscounts) {reserve : Bool} {ids : List Nat}
    {result : Except BillingError ((BlockedReason ⊕ PrepaymentQuote) × Tx Store Key Write)}
    (h : (computePrepaymentQuote now childId months reserve).alone s ids .start = some result) :
    result.map Prod.fst = s.quote now childId months := by
  cases reserve with
  | false =>
    obtain ⟨t, -, rfl⟩ := previewed_eq h
    cases s.quote now childId months <;> rfl
  | true =>
    have hends := Prog.Safe.alone (safe_computePrepaymentQuote (J := fun _ => True)
      (X := fun e => s.quote now childId months = .error e) (t := Tx.start) (s := s) trivial hu now childId months
      fun _ he => he) trivial h
    cases result with
    | error e => exact hends.symm
    | ok r => exact hends.2.2.symm

/-- In February, with a prepayment that covers March to May. -/
def paidSpring : Store :=
  { heldSlot none with
    invoices := [⟨20, 1, 10, some 5, .prepayment .m3, monthStart 24314, monthStart 24317 - 1, 300000, none, none,
      290000, .paid, 20600, none, 0⟩] }

/-- From June on. -/
example : paidSpring.prepaymentWindow 1770000000000 1 = monthStart 24317 := by decide +kernel

end Billing
