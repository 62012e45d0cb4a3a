import Shyraq.Billing.Stacking
import Shyraq.Billing.QuoteBounds
import Shyraq.Billing.Requests
import Shyraq.Kernel.RoundingError

/-!
# Ledger rows against the invoice

The invoice takes off the sum of the shares, rounded once; the ledger has a row for each share,
rounded by itself.

    the rows add up to what is taken off, and none of them is 0.00 ↔
      every share that is not zero is more than half a tiyn, and the errors of rounding them
      vanish when added up                                                  (ledger_agrees_iff)
-/

namespace Billing.DiscountEngine

open Kernel Transactions

/-- The rows of an evaluation add up to what the invoice takes off, and every one of them is worth
something. -/
structure LedgerAgrees (input : Input) : Prop where
  sum : ((evaluate input).customApplicationsToWrite.map CustomApplication.amountApplied).sum =
    (evaluate input).customDiscountAmount.getD 0
  positive : ∀ app ∈ (evaluate input).customApplicationsToWrite, 0 < app.amountApplied

/-- What the chosen snapshots ask for. -/
def asked (input : Input) : List Decimal :=
  (winners (orderBy precedes (matchCustomDiscounts input))).map fun snap => max 0 (wanted input.amountDue snap)

/-- What each of them gets of the amount due. -/
def shares (input : Input) : List Decimal := pour (max 0 input.amountDue) 0 (asked input)

/-- In tiyn, no share is rounded to nothing, and the errors of rounding vanish together. -/
structure RoundsTogether (shares : List Decimal) : Prop where
  each : ∀ share ∈ shares, share = 0 ∨ 1 / 2 < share * 100
  errors : Vanishes (shares.map fun share => roundingError (share * 100)).sum (shares.map MoneyKzt.round).sum

/-! ## The rows and the shares -/

theorem shares_nonneg (input : Input) : ∀ share ∈ shares input, 0 ≤ share := pour_nonneg wanted_nonneg

theorem served_shares (input : Input) :
    (served input.amountDue (winners (orderBy precedes (matchCustomDiscounts input)))).map (fun c => c.2) =
      shares input := by
  unfold served shares asked
  exact List.map_snd_zip (by simp)

theorem applied_eq (input : Input) : applyStackingAndAmounts input.amountDue (matchCustomDiscounts input) =
    (served input.amountDue (winners (orderBy precedes (matchCustomDiscounts input)))).filter
      fun c => decide (0 < c.2) := applyAmounts_served _ _

theorem sum_filter_pos {l : List (CustomDiscount × Decimal)} {A : Type} [AddCommMonoid A] (f : Decimal → A)
    (hf : f 0 = 0) (hl : ∀ c ∈ l, 0 ≤ c.2) :
    ((l.filter fun c => decide (0 < c.2)).map fun c => f c.2).sum = (l.map fun c => f c.2).sum := by
  induction l with
  | nil => rfl
  | cons c rest ih =>
    have hrest := ih fun x hx => hl x (List.mem_cons_of_mem c hx)
    by_cases hc : 0 < c.2
    · rw [List.filter_cons_of_pos (by simpa using hc), List.map_cons, List.map_cons, List.sum_cons, List.sum_cons,
        hrest]
    · have hz : c.2 = 0 := le_antisymm (not_lt.1 hc) (hl c List.mem_cons_self)
      rw [List.filter_cons_of_neg (by simpa using hc), hrest, List.map_cons, List.sum_cons, hz, hf, zero_add]

theorem sum_applied {A : Type} [AddCommMonoid A] (input : Input) (f : Decimal → A) (hf : f 0 = 0) :
    ((applyStackingAndAmounts input.amountDue (matchCustomDiscounts input)).map fun c => f c.2).sum =
      ((shares input).map f).sum := by
  rw [applied_eq, sum_filter_pos f hf, ← served_shares, List.map_map]
  · rfl
  · intro c hc
    refine shares_nonneg input c.2 ?_
    rw [← served_shares]
    exact List.mem_map_of_mem (f := fun x : CustomDiscount × Decimal => x.2) hc

theorem customSum_shares (input : Input) : customSum input = (shares input).sum := by
  have h := sum_applied input (fun share => share) rfl
  rwa [List.map_id'] at h

theorem customDiscountAmount_eq (input : Input) :
    (evaluate input).customDiscountAmount.getD 0 = MoneyKzt.round (shares input).sum := by
  have hnn : 0 ≤ customSum input := by
    rw [customSum_shares]
    exact List.sum_nonneg (shares_nonneg input)
  rw [← customSum_shares]
  unfold customSum at *
  unfold evaluate
  extract_lets basic custom
  split
  · next h =>
    rw [Bool.and_eq_true] at h
    have hnone : custom = [] := List.isEmpty_iff.1 h.2
    show 0 = MoneyKzt.round (custom.map _).sum
    rw [hnone]
    simp
  · show Option.getD (if 0 < (custom.map fun c => c.2).sum then _ else none) 0 = _
    by_cases hpos : 0 < (custom.map fun c => c.2).sum
    · rw [if_pos hpos]
      rfl
    · rw [if_neg hpos, le_antisymm (not_lt.1 hpos) hnn]
      simp

theorem rows_sum (input : Input) :
    ((evaluate input).customApplicationsToWrite.map CustomApplication.amountApplied).sum =
      ((shares input).map MoneyKzt.round).sum := by
  rw [applications_eq, List.map_map]
  exact sum_applied input MoneyKzt.round MoneyKzt.round_zero

theorem rows_positive_iff (input : Input) :
    (∀ app ∈ (evaluate input).customApplicationsToWrite, 0 < app.amountApplied) ↔
      ∀ share ∈ shares input, share = 0 ∨ 1 / 2 < share * 100 := by
  rw [applications_eq, applied_eq]
  constructor
  · intro h share hshare
    rcases lt_or_eq_of_le (shares_nonneg input share hshare) with hpos | hz
    · right
      rw [← served_shares] at hshare
      obtain ⟨c, hc, rfl⟩ := List.mem_map.1 hshare
      have hc' : c ∈ (served input.amountDue (winners (orderBy precedes (matchCustomDiscounts input)))).filter
          fun x => decide (0 < x.2) := List.mem_filter.2 ⟨hc, decide_eq_true hpos⟩
      exact (roundHalfEven_pos_iff _).1 (h _ (List.mem_map_of_mem hc'))
    · exact .inl hz.symm
  · intro h app happ
    obtain ⟨c, hc, rfl⟩ := List.mem_map.1 happ
    obtain ⟨hc, hpos⟩ := List.mem_filter.1 hc
    have hmem : c.2 ∈ shares input := by
      rw [← served_shares]
      exact List.mem_map_of_mem (f := fun x : CustomDiscount × Decimal => x.2) hc
    rcases h c.2 hmem with hz | hhalf
    · exact absurd hz (of_decide_eq_true hpos).ne'
    · exact (roundHalfEven_pos_iff _).2 hhalf

/-- **The ledger agrees with the invoice exactly when the rounding errors vanish**, and no share
is lost to them. -/
theorem ledger_agrees_iff (input : Input) : LedgerAgrees input ↔ RoundsTogether (shares input) := by
  have hsum : ((shares input).map MoneyKzt.round).sum = MoneyKzt.round (shares input).sum ↔
      Vanishes ((shares input).map fun share => roundingError (share * 100)).sum
        ((shares input).map MoneyKzt.round).sum := by
    have h := sum_roundHalfEven_iff ((shares input).map fun share => share * 100)
    rw [List.map_map, List.map_map, List.sum_map_mul_right, List.map_id'] at h
    exact h
  constructor
  · rintro ⟨hs, hp⟩
    rw [rows_sum, customDiscountAmount_eq] at hs
    exact ⟨(rows_positive_iff input).1 hp, hsum.1 hs⟩
  · rintro ⟨heach, herrors⟩
    refine ⟨?_, (rows_positive_iff input).2 heach⟩
    rw [rows_sum, customDiscountAmount_eq]
    exact hsum.2 herrors

/-! ## Half a tiyn, twice -/

/-- Five percent for every child, on top of others. -/
def fivePercent (id : Nat) : CustomDiscount :=
  { fixedDiscount id 0 500 true with discountType := .percentage, createdAt := id }

/-- A child with a tariff of 200.10 tenge, and two discounts of 10.005 tenge each. -/
def twoFives : Store :=
  { Store.empty with
    reference :=
      { children := [⟨1, .active, 0, none⟩]
        childGuardians := []
        tariffPlans := [⟨5, .monthly, 20010, true, 0, none, ⟨none, none, none, none, none⟩⟩]
        tariffAssignments := [⟨6, 1, 5, none, 0, none⟩]
        holidays := []
        admins := [90] }
    accounts := [⟨10, 1, 0⟩]
    customDiscounts := [fivePercent 70, fivePercent 71] }

/-- The engine's input when that child's first invoice is made. -/
def twoFivesInput : Input where
  invoiceType := .monthly
  amountDue := MoneyKzt.toDecimal 20010
  periodStart := 0
  discountRules := ⟨none, none, none, none, none⟩
  prepaymentMonths := none
  customDiscounts := twoFives.customDiscounts
  siblingsInKgCount := 0
  child := some ⟨0, 0, 0, true⟩

/-- The first invoice of the child, with an id for each row. -/
def firstInvoice : Schedule 1 :=
  .start 0 (.generateFirstInvoice 0 1 0) :: (steps 0 11 20 ++ (steps 0 4 21 ++ (steps 0 2 22 ++ steps 0 4 23)))

/-- Two rows of 10.00, and 20.01 taken off. -/
theorem rows_short_of_invoice : ¬ LedgerAgrees twoFivesInput ∧
    (evaluate twoFivesInput).customDiscountAmount = some 2001 ∧
    ∃ σ, run twoFives firstInvoice = some σ ∧ σ.db.invoices.map Invoice.amountDue = [20010] ∧
      σ.db.applications.map CustomDiscountApplication.amountApplied = [1000, 1000] := by
  have hrows : ((evaluate twoFivesInput).customApplicationsToWrite.map CustomApplication.amountApplied).sum ≠
      (evaluate twoFivesInput).customDiscountAmount.getD 0 := by decide +kernel
  refine ⟨fun h => hrows h.sum, by decide +kernel, ?_⟩
  obtain ⟨σ, hrun, hσ⟩ := run_shows run twoFives firstInvoice (fun σ =>
    decide (σ.db.invoices.map Invoice.amountDue = [20010] ∧
      σ.db.applications.map CustomDiscountApplication.amountApplied = [1000, 1000])) (by decide +kernel)
  exact ⟨σ, hrun, of_decide_eq_true hσ⟩

end Billing.DiscountEngine
