import Shyraq.Billing.DiscountEngine
import Mathlib.Tactic.FieldSimp

/-!
# More discounts, smaller invoices

What an invoice is created with, as a function of two numbers: the sum of the basic
percentages and what the custom discounts take off.  It falls in both, with two exceptions.
A newcomer that is not stackable, or that outranks one that is not, takes the place of
snapshots that won before it; and the first absolute amount replaces the basic percentages.
-/

namespace Billing.DiscountEngine

open Kernel Transactions

/-! ## What the custom discounts take off -/

/-- What a snapshot asks for. -/
def wanted (amountDue : Decimal) (snap : CustomDiscount) : Decimal :=
  match snap.discountType with
  | .percentage => amountDue * MoneyKzt.toDecimal snap.amount / 100
  | .fixedAmount => MoneyKzt.toDecimal snap.amount

/-- What they ask for together; a snapshot that asks for less than nothing is passed over. -/
def wantedSum (amountDue : Decimal) (snaps : List CustomDiscount) : Decimal :=
  (snaps.map fun snap => max 0 (wanted amountDue snap)).sum

theorem wantedSum_nonneg (amountDue : Decimal) (snaps : List CustomDiscount) : 0 ≤ wantedSum amountDue snaps := by
  refine List.sum_nonneg ?_
  intro x hx
  obtain ⟨snap, -, rfl⟩ := List.mem_map.1 hx
  exact le_max_left _ _

theorem applyAmounts_sum (amountDue : Decimal) (snaps : List CustomDiscount) (already : Decimal)
    (h : already ≤ amountDue) : ((applyAmounts amountDue already snaps).map fun c => c.2).sum =
      min (amountDue - already) (wantedSum amountDue snaps) := by
  induction snaps generalizing already with
  | nil =>
    have hz : (0 : Decimal) ≤ amountDue - already := by linarith
    simp [applyAmounts, wantedSum, hz]
  | cons snap rest ih =>
    have hrest := wantedSum_nonneg amountDue rest
    have hcons : wantedSum amountDue (snap :: rest) =
        max 0 (wanted amountDue snap) + wantedSum amountDue rest := rfl
    rw [hcons]
    unfold applyAmounts
    dsimp only
    change (List.map (fun c => c.2) (if amountDue - already ≤ 0 then [] else
      if min (wanted amountDue snap) (amountDue - already) ≤ 0 then applyAmounts amountDue already rest
      else (snap, min (wanted amountDue snap) (amountDue - already)) ::
        applyAmounts amountDue (already + min (wanted amountDue snap) (amountDue - already)) rest)).sum = _
    generalize wanted amountDue snap = w
    by_cases hrem : amountDue - already ≤ 0
    · rw [if_pos hrem]
      have hz : amountDue - already = 0 := by linarith
      have hsum : 0 ≤ max 0 w + wantedSum amountDue rest := by
        have := le_max_left 0 w
        linarith
      rw [hz, min_eq_left hsum]
      rfl
    · rw [if_neg hrem]
      rw [not_le] at hrem
      by_cases hw : min w (amountDue - already) ≤ 0
      · have hw₀ : w ≤ 0 := by
          rcases min_le_iff.1 hw with h₀ | h₀
          · exact h₀
          · linarith
        rw [if_pos hw, ih already h, max_eq_left hw₀, zero_add]
      · rw [if_neg hw]
        rw [not_le, lt_min_iff] at hw
        have hle : already + min w (amountDue - already) ≤ amountDue := by
          have := min_le_right w (amountDue - already)
          linarith
        rw [List.map_cons, List.sum_cons, ih _ hle, max_eq_right hw.1.le]
        rcases le_total w (amountDue - already) with hc | hc
        · rw [min_eq_left hc, ← sub_sub, ← min_add_add_left]
          congr 1
          linarith
        · have hz : amountDue - (already + (amountDue - already)) = 0 := by ring
          have hfull : amountDue - already ≤ w + wantedSum amountDue rest := by linarith
          rw [min_eq_right hc, hz, min_eq_left hrest, min_eq_left hfull, add_zero]

/-- What the custom discounts take off, in all. -/
def customSum (input : Input) : Decimal :=
  ((applyStackingAndAmounts input.amountDue (matchCustomDiscounts input)).map fun c => c.2).sum

/-- The sum of the basic percentages. -/
def basicSum (input : Input) : Decimal := ((basicRules input).map fun b => b.1).sum

/-- Every snapshot that wins `before` still wins `after`. -/
def KeepsWinners (before after : List CustomDiscount) : Prop :=
  (winners (orderBy precedes before)).Subperm (winners (orderBy precedes after))

variable {amountDue custom : Decimal}

theorem wantedSum_subperm {l l' : List CustomDiscount} (h : l.Subperm l') :
    wantedSum amountDue l ≤ wantedSum amountDue l' := by
  obtain ⟨m, hperm, hsub⟩ := h
  have he : wantedSum amountDue l = wantedSum amountDue m := (hperm.map _).sum_eq.symm
  rw [he]
  refine (hsub.map _).sum_le_sum ?_
  intro x hx
  obtain ⟨snap, -, rfl⟩ := List.mem_map.1 hx
  exact le_max_left _ _

theorem customSum_eq (input : Input) (hA : 0 ≤ input.amountDue) : customSum input = min input.amountDue
      (wantedSum input.amountDue (winners (orderBy precedes (matchCustomDiscounts input)))) := by
  have h := applyAmounts_sum input.amountDue (winners (orderBy precedes (matchCustomDiscounts input))) 0 hA
  rw [sub_zero] at h
  exact h

theorem customSum_nonneg {input : Input} (hA : 0 ≤ input.amountDue) : 0 ≤ customSum input := by
  rw [customSum_eq input hA]
  exact le_min hA (wantedSum_nonneg _ _)

/-! ## The payable amount -/

/-- What the invoice is created with. -/
def payable (input : Input) : Decimal :=
  computeAmountAfterDiscount input.amountDue (evaluate input).discountPct
    (evaluate input).customDiscountAmount

/-- The custom sum as a percentage of the amount due. -/
def customPct (amountDue custom : Decimal) : Decimal :=
  if 0 < amountDue then
    MoneyKzt.toDecimal (MoneyKzt.round (custom * 100 / MoneyKzt.toDecimal (MoneyKzt.round amountDue)))
  else 0

/-- The payable amount, from the basic percentages and the custom sum. -/
def payableOf (amountDue basic custom : Decimal) : Decimal :=
  if 0 < MoneyKzt.round custom ∧ 0 < amountDue then
    max (amountDue - MoneyKzt.toDecimal (MoneyKzt.round custom)) 0
  else amountDue * (100 - max 0 (min 100 (min 100 basic + customPct amountDue custom))) / 100

theorem payable_eq (input : Input) (hA : 0 ≤ input.amountDue) :
    payable input = payableOf input.amountDue (basicSum input) (customSum input) := by
  have hx := customSum_nonneg hA
  unfold payable evaluate
  generalize hc : applyStackingAndAmounts input.amountDue (matchCustomDiscounts input) = custom
  generalize hb : basicRules input = basic
  have hcs : customSum input = (custom.map fun c => c.2).sum := by
    unfold customSum
    rw [hc]
  have hbs : basicSum input = (basic.map fun b => b.1).sum := by
    unfold basicSum
    rw [hb]
  dsimp only
  split
  · -- nothing applies
    next he =>
    rw [Bool.and_eq_true, List.isEmpty_iff, List.isEmpty_iff] at he
    rw [hcs, hbs, he.1, he.2]
    simp [computeAmountAfterDiscount, payableOf, customPct, MoneyKzt.toDecimal]
  · rw [← hcs, ← hbs]
    -- a percentage that is not positive is left out
    have hpct : ∀ total : Decimal, (if 0 < total then some total else none).getD 0 = max 0 total := by
      intro total
      split
      · next h => exact (max_eq_right h.le).symm
      · next h => exact (max_eq_left (not_lt.1 h)).symm
    unfold payableOf computeAmountAfterDiscount
    by_cases hpos : 0 < customSum input
    · rw [if_pos hpos]
      dsimp only
      rw [hpct]
      rfl
    · have hzero : customSum input = 0 := le_antisymm (not_lt.1 hpos) hx
      rw [if_neg hpos]
      dsimp only
      have hnot : ¬ ((0 : Int) < 0 ∧ 0 < input.amountDue) := fun h => absurd h.1 (lt_irrefl 0)
      rw [hpct, hzero, MoneyKzt.round_zero, if_neg hnot]
      rfl

/-! ## It falls in both -/

theorem customPct_nonneg (amountDue : Decimal) (hx : 0 ≤ custom) : 0 ≤ customPct amountDue custom := by
  unfold customPct
  split
  · next hA =>
    refine MoneyKzt.toDecimal_nonneg (MoneyKzt.round_nonneg ?_)
    exact div_nonneg (by linarith) (MoneyKzt.toDecimal_nonneg (MoneyKzt.round_nonneg hA.le))
  · exact le_refl 0

theorem customPct_mono {custom' : Decimal} (h : custom ≤ custom') :
    customPct amountDue custom ≤ customPct amountDue custom' := by
  unfold customPct
  split
  · next hA =>
    refine MoneyKzt.toDecimal_le (MoneyKzt.round_mono ?_)
    refine div_le_div_of_nonneg_right (by linarith) ?_
    exact MoneyKzt.toDecimal_nonneg (MoneyKzt.round_nonneg hA.le)
  · exact le_refl 0

theorem payableOf_basic {basic basic' : Decimal} (hA : 0 ≤ amountDue)
    (h : basic ≤ basic') : payableOf amountDue basic' custom ≤ payableOf amountDue basic custom := by
  unfold payableOf
  split
  · exact le_refl _
  · have hpct : max 0 (min 100 (min 100 basic + customPct amountDue custom)) ≤
        max 0 (min 100 (min 100 basic' + customPct amountDue custom)) :=
      max_le_max_left 0 (min_le_min_left 100 (add_le_add_left (min_le_min_left 100 h) _))
    have := mul_le_mul_of_nonneg_left hpct hA
    linarith

/-- The whole numbers behind `customPct_le_tiyn`: `N` tiyn are due, `k` hundredths of a percent
come off. -/
theorem pct_of_half_tiyn {N k : Int} (hN : 0 < N) (hk : 0 < k) (h : (2 * k - 1) * N ≤ 10000)
    (htie : k = 1 → N ≠ 10000) : (2 * N + 1) * k ≤ 20000 := by
  by_cases hk₁ : k = 1
  · have := htie hk₁
    subst hk₁
    omega
  · have hk₂ : 2 ≤ k := by omega
    have hN₃ : 3 * N ≤ 10000 := by nlinarith
    have hk₅ : 2 * k - 1 ≤ 10000 := by nlinarith
    nlinarith

/-- A custom sum that rounds to nothing takes off at most a tiyn as a percentage. -/
theorem customPct_le_tiyn (hA : 0 < amountDue) (hx : 0 ≤ custom)
    (hz : MoneyKzt.round custom = 0) : amountDue * customPct amountDue custom ≤ 1 := by
  unfold customPct
  rw [if_pos hA]
  have hsmall : custom * 100 ≤ 1 / 2 := by
    have := le_roundHalfEven_add (custom * 100)
    rw [show roundHalfEven (custom * 100) = 0 from hz] at this
    simpa using this
  have hdue := le_roundHalfEven_add (amountDue * 100)
  have hN : 0 ≤ roundHalfEven (amountDue * 100) := roundHalfEven_nonneg (by linarith)
  unfold MoneyKzt.toDecimal MoneyKzt.round MoneyKzt.fromKzt
  generalize roundHalfEven (amountDue * 100) = N at hdue hN ⊢
  have hv : 0 ≤ custom * 100 / ((N : ℚ) / 100) * 100 := by
    have : (0 : ℚ) ≤ N := by exact_mod_cast hN
    positivity
  have hk₀ := roundHalfEven_nonneg hv
  have hk₁ := roundHalfEven_le_add (custom * 100 / ((N : ℚ) / 100) * 100)
  have htie : N = 10000 → roundHalfEven (custom * 100 / ((N : ℚ) / 100) * 100) ≤ 0 := by
    rintro rfl
    have hle : custom * 100 / (((10000 : Int) : ℚ) / 100) * 100 ≤ 1 / 2 := by
      push_cast
      linarith
    refine le_trans (roundHalfEven_mono hle) ?_
    norm_num [roundHalfEven]
  generalize roundHalfEven (custom * 100 / ((N : ℚ) / 100) * 100) = k at hk₀ hk₁ htie ⊢
  rcases Int.lt_or_eq_of_le hk₀ with hk | rfl
  · rcases Int.lt_or_eq_of_le hN with hN' | rfl
    · have hNq : (0 : ℚ) < N := by exact_mod_cast hN'
      have hmul : (k : ℚ) * N ≤ custom * 1000000 + N / 2 := by
        have heq : custom * 100 / ((N : ℚ) / 100) * 100 * N = custom * 1000000 := by
          field_simp
          ring
        nlinarith
      have hint : (2 * k - 1) * N ≤ 10000 := by
        have : ((2 * k - 1) * N : ℚ) ≤ 10000 := by linarith
        exact_mod_cast this
      have hbound := pct_of_half_tiyn hN' hk hint fun h he => by
        have := htie he
        omega
      have hbq : (2 * N + 1) * (k : ℚ) ≤ 20000 := by exact_mod_cast hbound
      have hkq : (0 : ℚ) < k := by exact_mod_cast hk
      nlinarith
    · -- an amount that rounds to nothing itself
      have : (k : ℚ) ≤ 1 / 2 := by simpa using hk₁
      have hk' : k < 1 := by
        have : (k : ℚ) < 1 := by linarith
        exact_mod_cast this
      omega
  · simp

theorem payableOf_custom {basic custom' : Decimal} (hA : 0 ≤ amountDue)
    (hx : 0 ≤ custom) (h : custom ≤ custom') (hbasic : basic = 0 ∨ 0 < MoneyKzt.round custom) :
    payableOf amountDue basic custom' ≤ payableOf amountDue basic custom := by
  have hround := MoneyKzt.round_mono h
  unfold payableOf
  by_cases h₁ : 0 < MoneyKzt.round custom ∧ 0 < amountDue
  · rw [if_pos h₁, if_pos ⟨by omega, h₁.2⟩]
    have := MoneyKzt.toDecimal_le hround
    exact max_le_max_right 0 (by linarith)
  · rw [if_neg h₁]
    by_cases h₂ : 0 < MoneyKzt.round custom' ∧ 0 < amountDue
    · -- the first absolute amount, of at least a tiyn
      rw [if_pos h₂]
      have hz : MoneyKzt.round custom = 0 := by
        have := MoneyKzt.round_nonneg hx
        have : ¬ 0 < MoneyKzt.round custom := fun hp => h₁ ⟨hp, h₂.2⟩
        omega
      have hb : basic = 0 := by
        rcases hbasic with hb | hp
        · exact hb
        · omega
      have hpct := customPct_le_tiyn h₂.2 hx hz
      have hnn := customPct_nonneg amountDue hx
      have htiyn : (1 : ℚ) / 100 ≤ MoneyKzt.toDecimal (MoneyKzt.round custom') := by
        have h1 : (1 : ℚ) ≤ MoneyKzt.round custom' := by exact_mod_cast h₂.1
        unfold MoneyKzt.toDecimal
        linarith
      have hmin : max 0 (min 100 (min 100 basic + customPct amountDue custom)) ≤
          customPct amountDue custom := by
        rw [hb]
        refine max_le hnn ((min_le_right _ _).trans ?_)
        simp
      have hcap : max 0 (min 100 (min 100 basic + customPct amountDue custom)) ≤ 100 :=
        max_le (by norm_num) (min_le_left _ _)
      have hmul := mul_le_mul_of_nonneg_left hmin hA
      have hmul' := mul_le_mul_of_nonneg_left hcap hA
      refine max_le ?_ ?_ <;> linarith
    · rw [if_neg h₂]
      have hpct : max 0 (min 100 (min 100 basic + customPct amountDue custom)) ≤
          max 0 (min 100 (min 100 basic + customPct amountDue custom')) :=
        max_le_max_left 0 (min_le_min_left 100 (add_le_add_right (customPct_mono h) _))
      have := mul_le_mul_of_nonneg_left hpct hA
      linarith

/-! ## One discount more -/

/-- A percentage that was in force is as it was. -/
def pctStays (pct pct' : Option Decimal) : Prop := ∀ v, pct = some v → 0 < v → pct' = pct

/-- Percentages of the basic rules are turned on; none in force is changed. -/
structure TurnsOn (rules rules' : DiscountRules) : Prop where
  sibling : pctStays rules.siblingDiscountPct rules'.siblingDiscountPct
  prepay : ∀ months, pctStays (prepayPct rules months) (prepayPct rules' months)

/-- What one basic rule adds to the sum. -/
def pctOf (pct : Option Decimal) : Decimal := max 0 (pct.getD 0)

theorem pctOf_le {pct pct' : Option Decimal} (h : pctStays pct pct') : pctOf pct ≤ pctOf pct' := by
  unfold pctOf
  cases pct with
  | none => exact max_le (le_max_left _ _) (le_max_left _ _)
  | some v =>
    by_cases hv : 0 < v
    · rw [h v rfl hv]
    · exact max_le (le_max_left _ _) ((not_lt.1 hv).trans (le_max_left _ _))

theorem sum_rule {pct : Option Decimal} {reason : String} {rule : AppliedRule} : (((match pct with
      | some v => if 0 < v then [(v, reason, rule)] else []
      | none => []) : List (Decimal × String × AppliedRule)).map fun b => b.1).sum = pctOf pct := by
  unfold pctOf
  cases pct with
  | none => simp
  | some v =>
    by_cases hv : 0 < v
    · simp [hv, hv.le]
    · simp [hv, not_lt.1 hv]

theorem basicSum_eq (input : Input) :
    basicSum input = (if 1 < input.siblingsInKgCount then pctOf input.discountRules.siblingDiscountPct else 0) +
      (match input.prepaymentMonths with
        | some months => pctOf (prepayPct input.discountRules months)
        | none => 0) := by
  unfold basicSum basicRules
  rw [List.map_append, List.sum_append]
  congr 1
  · by_cases hs : 1 < input.siblingsInKgCount
    · simp only [hs, true_and, if_true]
      exact sum_rule
    · simp only [hs, false_and, if_false]
      cases input.discountRules.siblingDiscountPct <;> rfl
  · cases input.prepaymentMonths with
    | none => rfl
    | some months => exact sum_rule

theorem basicSum_mono {input : Input} {rules' : DiscountRules} (h : TurnsOn input.discountRules rules') :
    basicSum input ≤ basicSum { input with discountRules := rules' } := by
  rw [basicSum_eq, basicSum_eq]
  refine add_le_add ?_ ?_
  · dsimp only
    split
    · exact pctOf_le h.sibling
    · exact le_refl 0
  · dsimp only
    cases input.prepaymentMonths with
    | none => exact le_refl 0
    | some months => exact pctOf_le (h.prepay months)

theorem basicSum_of_empty {input : Input} (h : basicRules input = []) : basicSum input = 0 := by
  unfold basicSum
  rw [h]
  rfl

theorem round_of_customDiscountAmount {input : Input} {a : Int}
    (h : (evaluate input).customDiscountAmount = some a) : a = MoneyKzt.round (customSum input) := by
  unfold evaluate at h
  dsimp only at h
  split at h
  · cases h
  · dsimp only at h
    split at h
    · exact (Option.some.inj h).symm
    · cases h

/-- **A discount more never makes an invoice dearer**, as long as every snapshot that won
still wins, and no basic percentage gives way to a first absolute amount. -/
theorem payable_antitone (input : Input) (hA : 0 ≤ input.amountDue) :
    (∀ rules', TurnsOn input.discountRules rules' →
      payable { input with discountRules := rules' } ≤ payable input) ∧
    ∀ before snap after, input.customDiscounts = before ++ after →
      KeepsWinners (matchCustomDiscounts input)
        (matchCustomDiscounts { input with customDiscounts := before ++ snap :: after }) →
      (basicRules input = [] ∨ ∃ a, (evaluate input).customDiscountAmount = some a ∧ 0 < a) →
      payable { input with customDiscounts := before ++ snap :: after } ≤ payable input := by
  constructor
  · intro rules' hrules
    rw [payable_eq { input with discountRules := rules' } hA, payable_eq input hA]
    exact payableOf_basic hA (basicSum_mono hrules)
  · intro before snap after _ hkeep hbasic
    rw [payable_eq { input with customDiscounts := before ++ snap :: after } hA, payable_eq input hA]
    refine payableOf_custom hA (customSum_nonneg hA) ?_ ?_
    · rw [customSum_eq input hA, customSum_eq { input with customDiscounts := before ++ snap :: after } hA]
      exact min_le_min_left _ (wantedSum_subperm hkeep)
    · rcases hbasic with he | ⟨a, ha, hpos⟩
      · exact .inl (basicSum_of_empty he)
      · rw [round_of_customDiscountAmount ha] at hpos
        exact .inr hpos

/-! ## Snapshots side by side -/

/-- A fixed discount for every child. -/
def fixedDiscount (id priority : Nat) (amount : Int) (stackable : Bool) : CustomDiscount where
  id := id
  name := "fixed"
  discountType := .fixedAmount
  amount := amount
  conditions := .always
  targetType := .all
  targetIds := none
  validFrom := 0
  validUntil := none
  maxUsesPerChild := none
  totalMaxUses := none
  usedCount := 0
  priority := priority
  stackable := stackable
  status := .active
  createdAt := 0

/-- A monthly invoice over 1000 tenge, for a second child. -/
def monthlyInput (customDiscounts : List CustomDiscount) : Input where
  invoiceType := .monthly
  amountDue := 1000
  periodStart := 0
  discountRules := ⟨none, none, none, none, none⟩
  prepaymentMonths := none
  customDiscounts := customDiscounts
  siblingsInKgCount := 2
  child := some ⟨0, 40, 2, false⟩

theorem payable_antitone_second :
    payable { monthlyInput [] with discountRules := ⟨some 10, none, none, none, none⟩ } ≤
        payable (monthlyInput []) ∧
      payable (monthlyInput [fixedDiscount 1 1 50000 true, fixedDiscount 2 0 10000 true]) ≤
        payable (monthlyInput [fixedDiscount 1 1 50000 true]) := by
  constructor
  · refine (payable_antitone (monthlyInput []) (by decide)).1 _ ⟨?_, ?_⟩
    · intro v hv
      cases hv
    · intro months v hv
      cases months <;> cases hv
  · refine (payable_antitone (monthlyInput [fixedDiscount 1 1 50000 true]) (by decide)).2
      [fixedDiscount 1 1 50000 true] (fixedDiscount 2 0 10000 true) [] rfl ?_ (.inl rfl)
    have hone : winners (orderBy precedes (matchCustomDiscounts
        (monthlyInput [fixedDiscount 1 1 50000 true]))) = [fixedDiscount 1 1 50000 true] := by rfl
    have htwo : winners (orderBy precedes (matchCustomDiscounts
        (monthlyInput [fixedDiscount 1 1 50000 true, fixedDiscount 2 0 10000 true]))) =
        [fixedDiscount 1 1 50000 true, fixedDiscount 2 0 10000 true] := by rfl
    unfold KeepsWinners
    rw [hone]
    exact List.Sublist.subperm (by
      show List.Sublist _ (winners (orderBy precedes (matchCustomDiscounts
        (monthlyInput [fixedDiscount 1 1 50000 true, fixedDiscount 2 0 10000 true]))))
      rw [htwo]
      simp)

/-- A non-stackable snapshot on top wins alone, though it takes off less. -/
theorem nonStackable_costs_more :
    payable (monthlyInput [fixedDiscount 1 1 50000 true]) <
      payable (monthlyInput [fixedDiscount 1 1 50000 true, fixedDiscount 2 2 10000 false]) := by
  decide +kernel

end Billing.DiscountEngine
