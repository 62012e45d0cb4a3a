import Shyraq.Billing.DiscountMonotone
import Shyraq.Kernel.Ranking
import Shyraq.Kernel.Pouring

/-!
# What the stacking rule selects

The snapshots are ranked by priority, the older first among equals.  If the first is not
stackable it applies alone; otherwise those apply that have only stackable ones before them, the
greatest part of the ranking that the rule admits.  They are served in that order, each up
to what is left of the amount due.  No list order matters as long as no two snapshots tie.
-/

namespace Billing.DiscountEngine

open Kernel

/-- Ranks before: a higher priority, or the same one and created earlier. -/
def Outranks (a b : CustomDiscount) : Prop :=
  b.priority < a.priority ∨ (a.priority = b.priority ∧ a.createdAt < b.createdAt)

/-- No two have the same priority and creation time. -/
def Distinct (snaps : List CustomDiscount) : Prop :=
  (snaps.map fun snap => (snap.priority, snap.createdAt)).Nodup

/-- The chosen part of `snaps`, as the rule has it. -/
structure Stacked (snaps chosen : List CustomDiscount) : Prop where
  ranked : chosen.Pairwise Outranks
  listed : ∀ snap ∈ chosen, snap ∈ snaps
  alone : ∀ top ∈ snaps, (∀ snap ∈ snaps, snap ≠ top → Outranks top snap) → top.stackable = false →
    chosen = [top]
  admits : ∀ top ∈ snaps, (∀ snap ∈ snaps, snap ≠ top → Outranks top snap) → top.stackable = true →
    IsGreatest {part | Leading Outranks snaps CustomDiscount.stackable part} {snap | snap ∈ chosen}

/-- What the chosen ones get, in their order. -/
def served (amountDue : Decimal) (chosen : List CustomDiscount) : List (CustomDiscount × Decimal) :=
  chosen.zip (pour (max 0 amountDue) 0 (chosen.map fun snap => max 0 (wanted amountDue snap)))

/-! ## The ranking -/

theorem Outranks.asymm {a b : CustomDiscount} (h : Outranks a b) : ¬ Outranks b a := by
  unfold Outranks at *
  omega

theorem Outranks.trans {a b c : CustomDiscount} (h : Outranks a b) (h' : Outranks b c) : Outranks a c := by
  unfold Outranks at *
  omega

theorem precedes_iff {a b : CustomDiscount} :
    precedes a b = true ↔ b.priority < a.priority ∨ (a.priority = b.priority ∧ a.createdAt ≤ b.createdAt) := by
  unfold precedes
  split <;> rw [decide_eq_true_eq] <;> omega

instance precedes_total : Std.Total fun a b : CustomDiscount => precedes a b = true where
  total a b := by
    rw [precedes_iff, precedes_iff]
    omega

instance precedes_trans : IsTrans CustomDiscount fun a b => precedes a b = true where
  trans a b c h h' := by
    rw [precedes_iff] at *
    omega

variable {snaps snaps' : List CustomDiscount}

theorem Distinct.eq (hd : Distinct snaps) {a b : CustomDiscount} (ha : a ∈ snaps) (hb : b ∈ snaps)
    (hp : a.priority = b.priority) (hc : a.createdAt = b.createdAt) : a = b :=
  List.inj_on_of_nodup_map hd ha hb (Prod.ext hp hc)

theorem Distinct.untied (hd : Distinct snaps) : Untied (fun a b : CustomDiscount => precedes a b = true) snaps := by
  intro a ha b hb h h'
  rw [precedes_iff] at h h'
  exact hd.eq ha hb (by omega) (by omega)

theorem Distinct.ranked (hd : Distinct snaps) : (orderBy precedes snaps).Pairwise Outranks := by
  have hperm : (orderBy precedes snaps).Perm snaps := List.perm_insertionSort _ snaps
  have hnodup : ((orderBy precedes snaps).map fun snap => (snap.priority, snap.createdAt)).Nodup :=
    (hperm.map _).nodup_iff.2 hd
  have hsorted : (orderBy precedes snaps).Pairwise fun a b => precedes a b = true :=
    List.pairwise_insertionSort _ snaps
  refine (hsorted.and (List.pairwise_map.1 hnodup)).imp ?_
  rintro a b ⟨hle, hne⟩
  rw [precedes_iff] at hle
  unfold Outranks
  by_cases hp : a.priority = b.priority
  · have hc : a.createdAt ≠ b.createdAt := fun hc => hne (Prod.ext hp hc)
    omega
  · omega

/-! ## The chosen ones -/

theorem winners_sublist (sorted : List CustomDiscount) : (winners sorted).Sublist sorted := by
  unfold winners
  cases sorted with
  | nil => exact List.Sublist.refl _
  | cons top rest =>
    dsimp only
    split
    · exact List.takeWhile_sublist _
    · exact (List.nil_sublist rest).cons_cons top

theorem stacked_winners (hd : Distinct snaps) : Stacked snaps (winners (orderBy precedes snaps)) := by
  have hranked := hd.ranked
  have hmem : ∀ snap, snap ∈ orderBy precedes snaps ↔ snap ∈ snaps := fun snap =>
    List.mem_insertionSort _
  -- the first of the ranking is the top
  have htop : ∀ top ∈ snaps, (∀ snap ∈ snaps, snap ≠ top → Outranks top snap) →
      ∃ rest, orderBy precedes snaps = top :: rest := by
    intro top hin hall
    generalize orderBy precedes snaps = sorted at hranked hmem
    cases sorted with
    | nil => exact absurd ((hmem top).2 hin) List.not_mem_nil
    | cons first rest =>
      by_cases he : first = top
      · exact ⟨rest, by rw [he]⟩
      · have hout := hall first ((hmem first).1 List.mem_cons_self) he
        rw [List.pairwise_cons] at hranked
        rcases List.mem_cons.1 ((hmem top).2 hin) with rfl | hrest
        · exact absurd rfl he
        · exact absurd hout (hranked.1 top hrest).asymm
  constructor
  · exact hranked.sublist (winners_sublist _)
  · intro snap h
    exact (hmem snap).1 ((winners_sublist _).subset h)
  · intro top hin hall hns
    obtain ⟨rest, he⟩ := htop top hin hall
    rw [he]
    simp [winners, hns]
  · intro top hin hall hs
    obtain ⟨rest, he⟩ := htop top hin hall
    have hwin : winners (orderBy precedes snaps) = (orderBy precedes snaps).takeWhile CustomDiscount.stackable := by
      rw [he]
      simp [winners, hs]
    rw [hwin]
    exact isGreatest_takeWhile hranked (fun _ _ => Outranks.asymm) (fun _ _ _ => Outranks.trans) hmem

/-! ## What they get -/

theorem wanted_nonneg {amountDue : Decimal} {chosen : List CustomDiscount} :
    ∀ ask ∈ chosen.map fun snap => max 0 (wanted amountDue snap), (0 : Decimal) ≤ ask := by
  intro ask h
  obtain ⟨snap, -, rfl⟩ := List.mem_map.1 h
  exact le_max_left _ _

theorem applyAmounts_cons (amountDue already : Decimal) (snap : CustomDiscount) (rest : List CustomDiscount) :
    applyAmounts amountDue already (snap :: rest) =
      if amountDue - already ≤ 0 then []
      else if min (wanted amountDue snap) (amountDue - already) ≤ 0 then applyAmounts amountDue already rest
      else (snap, min (wanted amountDue snap) (amountDue - already)) ::
        applyAmounts amountDue (already + min (wanted amountDue snap) (amountDue - already)) rest := rfl

theorem applyAmounts_eq {amountDue : Decimal} (chosen : List CustomDiscount) {before : Decimal} :
    applyAmounts amountDue (min amountDue before) chosen =
      (chosen.zip (pour amountDue before (chosen.map fun snap => max 0 (wanted amountDue snap)))).filter
        fun c => decide (0 < c.2) := by
  induction chosen generalizing before with
  | nil => rfl
  | cons snap rest ih =>
    rw [applyAmounts_cons, List.map_cons, pour, List.zip_cons_cons]
    by_cases hfull : amountDue - min amountDue before ≤ 0
    · -- nothing is left, and the rest gets nothing
      have hle : amountDue ≤ before := by
        rcases le_total amountDue before with h | h
        · exact h
        · rw [min_eq_right h] at hfull
          linarith
      have hask : 0 ≤ max 0 (wanted amountDue snap) := le_max_left _ _
      have hzero : ∀ c ∈ rest.zip (pour amountDue (before + max 0 (wanted amountDue snap))
          (rest.map fun snap => max 0 (wanted amountDue snap))), c.2 = 0 := by
        intro c hc
        exact pour_full (by linarith) wanted_nonneg c.2 (List.of_mem_zip hc).2
      rw [if_pos hfull, min_eq_left hle, min_eq_left (by linarith), sub_self]
      symm
      rw [List.filter_eq_nil_iff]
      intro c hc
      rcases List.mem_cons.1 hc with rfl | hc
      · simp
      · simp [hzero c hc]
    · rw [if_neg hfull]
      have hroom : before ≤ amountDue := by
        by_contra h
        rw [min_eq_left (not_le.1 h).le] at hfull
        linarith
      rw [min_eq_right hroom] at hfull ⊢
      by_cases hw : min (wanted amountDue snap) (amountDue - before) ≤ 0
      · have hw₀ : wanted amountDue snap ≤ 0 := by
          rcases min_le_iff.1 hw with h | h
          · exact h
          · exact absurd h hfull
        rw [if_pos hw, max_eq_left hw₀, add_zero, min_eq_right hroom, sub_self]
        rw [List.filter_cons_of_neg (by simp)]
        have hrest : applyAmounts amountDue (min amountDue before) rest = _ := ih
        rwa [min_eq_right hroom] at hrest
      · have hpos := not_le.1 hw
        have hw₀ : 0 < wanted amountDue snap := (lt_min_iff.1 hpos).1
        have hrise : min amountDue (before + wanted amountDue snap) - before = _ :=
          rise_eq (wanted amountDue snap)
        rw [if_neg hw, max_eq_right hw₀.le, hrise]
        rw [List.filter_cons_of_pos (by simpa using hpos)]
        have hnext : before + min (wanted amountDue snap) (amountDue - before) =
            min amountDue (before + wanted amountDue snap) := by
          rw [← hrise]
          ring
        rw [hnext, ih]

theorem applyAmounts_served (amountDue : Decimal) (chosen : List CustomDiscount) :
    applyAmounts amountDue 0 chosen = (served amountDue chosen).filter fun c => decide (0 < c.2) := by
  unfold served
  by_cases hA : 0 ≤ amountDue
  · have h : applyAmounts amountDue (min amountDue 0) chosen = _ := applyAmounts_eq chosen
    rw [min_eq_right hA] at h
    rw [h, max_eq_right hA]
  · -- a negative amount leaves no room
    have hneg : max 0 amountDue ≤ 0 := by
      rw [max_eq_left (not_le.1 hA).le]
    have hnil : (chosen.zip (pour (max 0 amountDue) 0
        (chosen.map fun snap => max 0 (wanted amountDue snap)))).filter (fun c => decide (0 < c.2)) = [] := by
      rw [List.filter_eq_nil_iff]
      intro c hc
      have := pour_full hneg wanted_nonneg c.2 (List.of_mem_zip hc).2
      simp [this]
    rw [hnil]
    cases chosen with
    | nil => rfl
    | cons snap rest =>
      rw [applyAmounts_cons, if_pos]
      have := not_le.1 hA
      linarith

theorem applyAmounts_within {amountDue : Decimal} (chosen : List CustomDiscount) {already : Decimal}
    {before after : List (CustomDiscount × Decimal)} {c : CustomDiscount × Decimal}
    (h : applyAmounts amountDue already chosen = before ++ c :: after) :
    already + ((before ++ [c]).map fun x => x.2).sum ≤ amountDue := by
  induction chosen generalizing already before with
  | nil => exact absurd (congrArg List.length h) (by simp [applyAmounts])
  | cons snap rest ih =>
    rw [applyAmounts_cons] at h
    split at h
    · exact absurd (congrArg List.length h) (by simp)
    · split at h
      · exact ih h
      · cases before with
        | nil =>
          rw [List.nil_append, List.cons.injEq] at h
          have := min_le_right (wanted amountDue snap) (amountDue - already)
          rw [← h.1]
          simp only [List.nil_append, List.map_cons, List.map_nil, List.sum_cons, List.sum_nil]
          linarith
        | cons first before =>
          rw [List.cons_append, List.cons.injEq] at h
          have := ih h.2
          rw [← h.1, List.cons_append, List.map_cons, List.sum_cons, ← add_assoc]
          exact this

/-! ## The engine -/

theorem applyStackingAndAmounts_perm (amountDue : Decimal) (hd : Distinct snaps) (hp : snaps.Perm snaps') :
    applyStackingAndAmounts amountDue snaps' = applyStackingAndAmounts amountDue snaps := by
  have hsort : orderBy precedes snaps = orderBy precedes snaps' := insertionSort_congr hd.untied hp
  unfold applyStackingAndAmounts
  rw [hsort]

theorem matchCustomDiscounts_sublist (input : Input) :
    (matchCustomDiscounts input).Sublist input.customDiscounts := by
  unfold matchCustomDiscounts
  cases input.child with
  | none => exact List.nil_sublist _
  | some child => exact List.filter_sublist

theorem matchCustomDiscounts_perm (input : Input) (hp : input.customDiscounts.Perm snaps') :
    (matchCustomDiscounts input).Perm (matchCustomDiscounts { input with customDiscounts := snaps' }) := by
  unfold matchCustomDiscounts
  cases input.child with
  | none => exact List.Perm.refl _
  | some child => exact hp.filter _

theorem Distinct.sublist (hd : Distinct snaps') (h : snaps.Sublist snaps') : Distinct snaps :=
  List.Nodup.sublist (h.map _) hd

theorem evaluate_perm (input : Input) (hd : Distinct input.customDiscounts) (hp : input.customDiscounts.Perm snaps') :
    evaluate { input with customDiscounts := snaps' } = evaluate input := by
  have happlied := applyStackingAndAmounts_perm input.amountDue
    (hd.sublist (matchCustomDiscounts_sublist input)) (matchCustomDiscounts_perm input hp)
  unfold evaluate
  dsimp only
  rw [happlied]
  rfl

/-- **The stacking rule**: whatever the order of the list, the chosen ones are the top alone or
the greatest part that stacks, and each is served in rank order. -/
theorem stacking (amountDue : Decimal) (snaps : List CustomDiscount) (hd : Distinct snaps) :
    (∀ snaps', snaps.Perm snaps' →
      applyStackingAndAmounts amountDue snaps' = applyStackingAndAmounts amountDue snaps) ∧
    (∀ input : Input, input.customDiscounts = snaps → ∀ snaps', snaps.Perm snaps' →
      evaluate { input with customDiscounts := snaps' } = evaluate input) ∧
    (∃ chosen, Stacked snaps chosen ∧
      applyStackingAndAmounts amountDue snaps = (served amountDue chosen).filter fun c => decide (0 < c.2)) ∧
    (∀ c ∈ applyStackingAndAmounts amountDue snaps, 0 < c.2) ∧
    ∀ before c after, applyStackingAndAmounts amountDue snaps = before ++ c :: after →
      ((before ++ [c]).map fun x => x.2).sum ≤ amountDue := by
  have hserved := applyAmounts_served amountDue (winners (orderBy precedes snaps))
  refine ⟨?_, ?_, ?_, ?_, ?_⟩
  · intro snaps' hp
    exact applyStackingAndAmounts_perm amountDue hd hp
  · rintro input rfl snaps' hp
    exact evaluate_perm input hd hp
  · exact ⟨_, stacked_winners hd, hserved⟩
  · intro c hc
    unfold applyStackingAndAmounts at hc
    rw [hserved] at hc
    exact of_decide_eq_true (List.mem_filter.1 hc).2
  · intro before c after h
    have := applyAmounts_within _ h
    rwa [zero_add] at this

/-- A stackable one on top, and a gate that keeps out the third. -/
theorem stacking_gate :
    applyStackingAndAmounts 1000 [fixedDiscount 3 0 10000 true, fixedDiscount 2 1 20000 false,
        fixedDiscount 1 2 50000 true] =
      applyStackingAndAmounts 1000 [fixedDiscount 1 2 50000 true, fixedDiscount 2 1 20000 false,
        fixedDiscount 3 0 10000 true] ∧
    (applyStackingAndAmounts 1000 [fixedDiscount 1 2 50000 true, fixedDiscount 2 1 20000 false,
        fixedDiscount 3 0 10000 true]).map (fun c => (c.1.id, c.2)) = [(1, 500)] := by
  have hd : Distinct [fixedDiscount 1 2 50000 true, fixedDiscount 2 1 20000 false,
      fixedDiscount 3 0 10000 true] := by
    unfold Distinct
    decide
  refine ⟨(stacking 1000 _ hd).1 _ ?_, by decide +kernel⟩
  exact (List.reverse_perm _).symm

end Billing.DiscountEngine
