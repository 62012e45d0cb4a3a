import Shyraq.Billing.Requests

/-!
# Targeting by age

`age_range` targeting takes the window of the first `age_range` leaf of the tree.  The children that it resolves are
those who would get the discount only where the tree confines the age to this window: on one branch of an `all_of`,
on every branch of an `any_of`.
-/

namespace Billing

open Kernel Transactions

/-- Whoever satisfies the tree is of an age in the window. -/
inductive Confines (lower upper : Nat) : DiscountCondition → Prop
  | ageRange {fromMonths toMonths : Nat} :
      lower ≤ fromMonths → toMonths ≤ upper → Confines lower upper (.ageRange fromMonths toMonths)
  | allOf {c : DiscountCondition} {cs : List DiscountCondition} :
      c ∈ cs → Confines lower upper c → Confines lower upper (.allOf cs)
  | anyOf {cs : List DiscountCondition} :
      (∀ c ∈ cs, Confines lower upper c) → Confines lower upper (.anyOf cs)

/-- The age of a child in a context that is made at this time. -/
def ageAt (now : Int) (child : Child) : Int := max 0 (wholeMonths child.dateOfBirth (utcDay now))

/-- Every active child whom the conditions let through is a target. -/
def TargetsEligible (s : Store) (now : Int) (d : CustomDiscount) : Prop :=
  ∀ child ∈ s.reference.children, child.status ≠ .archived → child.dateOfBirth ≤ utcDay now →
    ∀ ctx : EvalContext, ctx.ageInMonths = ageAt now child → evaluateConditions ctx 0 d.conditions = some true →
      child.id ∈ DiscountTargetResolver.resolveByTargetType now d s

section

variable {s : Store} {now : Int} {d : CustomDiscount} {ctx : EvalContext} {depth : Nat} {c : DiscountCondition}
  {cs : List DiscountCondition}

theorem evaluate_of_every (h : evaluateEvery ctx depth cs = some true) (hc : c ∈ cs) :
    evaluateConditions ctx depth c = some true := by
  induction cs with
  | nil => cases hc
  | cons c' cs ih =>
    unfold evaluateEvery at h
    split at h
    · next htrue =>
      rcases List.mem_cons.1 hc with rfl | hc
      · exact htrue
      · exact ih h hc
    · next hno => exact absurd h hno

theorem evaluate_of_some (h : evaluateSome ctx depth cs = some true) :
    ∃ c ∈ cs, evaluateConditions ctx depth c = some true := by
  induction cs with
  | nil => cases h
  | cons c cs ih =>
    unfold evaluateSome at h
    split at h
    · obtain ⟨c', hc', he⟩ := ih h
      exact ⟨c', List.mem_cons_of_mem c hc', he⟩
    · exact ⟨c, List.mem_cons_self, h⟩

theorem Confines.age {lower upper : Nat} (h : Confines lower upper c)
    (he : evaluateConditions ctx depth c = some true) :
    (lower : Int) ≤ ctx.ageInMonths ∧ ctx.ageInMonths ≤ upper := by
  induction h generalizing depth with
  | ageRange hlower hupper =>
    unfold evaluateConditions at he
    split at he
    · cases he
    · have hage := Option.some.inj he
      simp only [Bool.and_eq_true, decide_eq_true_eq] at hage
      omega
  | allOf hmem _ ih =>
    unfold evaluateConditions at he
    split at he
    · cases he
    · exact ih (evaluate_of_every he hmem)
  | anyOf _ ih =>
    unfold evaluateConditions at he
    split at he
    · cases he
    · obtain ⟨c', hc', he'⟩ := evaluate_of_some he
      exact ih c' hc' he'

theorem mem_resolve_ageRange (htype : d.targetType = .ageRange) {lower upper : Nat}
    (hwalk : DiscountTargetResolver.walkForAgeRange 0 d.conditions = some (lower, upper)) {child : Child}
    (hmem : child ∈ s.reference.children) (hactive : child.status ≠ .archived)
    (hlower : (lower : Int) ≤ wholeMonths child.dateOfBirth (utcDay now))
    (hupper : wholeMonths child.dateOfBirth (utcDay now) ≤ upper) :
    child.id ∈ DiscountTargetResolver.resolveByTargetType now d s := by
  unfold DiscountTargetResolver.resolveByTargetType
  rw [htype]
  dsimp only
  rw [hwalk]
  refine List.mem_map_of_mem (List.mem_filter.2 ⟨hmem, ?_⟩)
  simp only [Bool.and_eq_true, bne_iff_ne, ne_eq, decide_eq_true_eq]
  exact ⟨hactive, hlower, hupper⟩

theorem wholeMonths_nonneg {start stop : Int} (h : start ≤ stop) : 0 ≤ wholeMonths start stop := by
  have hstart := monthOf_spec start
  have hstop := monthOf_spec stop
  have hmonths : monthOf start ≤ monthOf stop := by
    by_contra hlt
    have := monthStart_le (show monthOf stop + 1 ≤ monthOf start by omega)
    omega
  unfold wholeMonths
  dsimp only
  split
  · next hday =>
    -- in the same month the day of the month would be later
    have hne : monthOf start ≠ monthOf stop := by
      intro heq
      unfold dayOfMonth at hday
      rw [heq] at hday
      omega
    omega
  · omega

/-- **Targeting by age.**  A tree that confines the age to its first window has among its targets every active child
that satisfies it. -/
theorem targetsEligible_of_confines {s : Store} {now : Int} {d : CustomDiscount} (htype : d.targetType = .ageRange)
    {lower upper : Nat} (hwalk : DiscountTargetResolver.walkForAgeRange 0 d.conditions = some (lower, upper))
    (hconfines : Confines lower upper d.conditions) : TargetsEligible s now d := by
  intro child hmem hactive hborn ctx hage he
  have hbounds := hconfines.age he
  have hnonneg := wholeMonths_nonneg hborn
  have hage' : ctx.ageInMonths = wholeMonths child.dateOfBirth (utcDay now) := by
    rw [hage]
    unfold ageAt
    omega
  rw [hage'] at hbounds
  exact mem_resolve_ageRange htype hwalk hmem hactive hbounds.1 hbounds.2

end

/-! ## Two windows -/

/-- Ten percent for everybody of an age, under these conditions. -/
def tenPercentByAge (conditions : DiscountCondition) : CustomDiscount where
  id := 7
  name := "by age"
  discountType := .percentage
  amount := 1000
  conditions := conditions
  targetType := .ageRange
  targetIds := none
  validFrom := 0
  validUntil := none
  maxUsesPerChild := none
  totalMaxUses := none
  usedCount := 0
  priority := 0
  stackable := true
  status := .active
  createdAt := 0

/-- A child born on the first of January 1970. -/
def Store.oneChild : Store :=
  { Store.empty with reference := { Store.empty.reference with children := [⟨1, .active, 0, none⟩] } }

/-- The child at thirty months, on a bill of that month. -/
def atThirtyMonths : EvalContext where
  invoiceType := .monthly
  periodStart := 912
  birthDate := 0
  ageInMonths := 30
  benefitCategory := none
  siblingsInKgCount := 0
  isFirstInvoiceForChild := false
  method := none
  prepaymentMonths := none
  paidEarlyDays := none

/-- Up to one year or from two to three: the child of thirty months is let through and is no target. -/
theorem twoWindows_not_targetsEligible :
    ¬TargetsEligible Store.oneChild (midnight 920) (tenPercentByAge (.anyOf [.ageRange 0 12, .ageRange 24 36])) := by
  intro h
  have htarget := h ⟨1, .active, 0, none⟩ (by decide) (by decide) (by decide) atThirtyMonths (by decide) (by decide)
  exact absurd htarget (by decide)

/-- Up to three years, with a sibling or for the first invoice. -/
theorem targetsEligible_of_confines_bothBranches :
    TargetsEligible Store.oneChild (midnight 920) (tenPercentByAge
      (.anyOf [.allOf [.siblingsCount .gte 1, .ageRange 0 36], .allOf [.ageRange 12 24, .firstInvoice]])) := by
  have hwalk : DiscountTargetResolver.walkForAgeRange 0
      (.anyOf [.allOf [.siblingsCount .gte 1, .ageRange 0 36], .allOf [.ageRange 12 24, .firstInvoice]]) =
      some (0, 36) := by decide
  refine targetsEligible_of_confines rfl hwalk (.anyOf fun c hc => ?_)
  rcases List.mem_cons.1 hc with rfl | hc
  · exact .allOf (List.mem_cons_of_mem _ List.mem_cons_self) (.ageRange (by decide) (by decide))
  · obtain rfl := List.mem_singleton.1 hc
    exact .allOf List.mem_cons_self (.ageRange (by decide) (by decide))

end Billing
