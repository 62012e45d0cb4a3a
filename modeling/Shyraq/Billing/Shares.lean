import Shyraq.Billing.QuoteBounds

/-!
# Whole-tenge shares

`distributeWholeTenge` as it runs: the floors first, then one tenge at a time down the remainders, then its own check.
Wherever a month has a day to bill the shares are those of the largest remainders; with no day to bill in any month they
are all zero, whatever the total is.

    a weight is positive, or total = 0 → distributeOrThrow total weights = ok shares and Apportioned …
                                                                                        (distributeOrThrow_apportions)
-/

namespace Billing

open Kernel

/-- The days of a month, and those of them that are billed. -/
structure MonthDays where
  effectiveDays : Nat
  totalDays : Nat
  pos : 0 < totalDays

def MonthDays.weight (m : MonthDays) : Decimal := (m.effectiveDays : Decimal) / m.totalDays

theorem MonthDays.weight_nonneg (m : MonthDays) : 0 ≤ m.weight := by
  unfold MonthDays.weight
  positivity

namespace InvoiceService

/-- `for (const { i } of order) { if (leftover <= 0) break; floors[i] += 1; leftover -= 1; }` -/
def addRemainders : List Nat → Int → List Int → List Int
  | [], _, floors => floors
  | i :: order, leftover, floors =>
      if leftover ≤ 0 then floors else addRemainders order (leftover - 1) (floors.modify i (· + 1))

def exactShare (totalKzt : Int) (weights : List Decimal) (w : Decimal) : Decimal := w * totalKzt / weights.sum

/-- Descending by the fraction, then by the month. -/
def comesFirst (a b : Decimal × Nat) : Bool := decide (b.1 < a.1) || (a.1 == b.1 && decide (a.2 ≤ b.2))

/-- The months with their fractions, the first to get a tenge in front. -/
def ranked (raws : List Decimal) : List (Decimal × Nat) :=
  orderBy comesFirst (raws.map fun r => r - (⌊r⌋ : Decimal)).zipIdx

/-- `distributeWholeTenge` with its throw. -/
def distributeOrThrow (totalKzt : Int) (weights : List Decimal) : Except BillingError (List Int) :=
  if weights.sum = 0 ∨ totalKzt = 0 then .ok (weights.map fun _ => 0)
  else
    let raws := weights.map (exactShare totalKzt weights)
    let floors := raws.map fun r => ⌊r⌋
    let shares := addRemainders ((ranked raws).map Prod.snd) (totalKzt - floors.sum) floors
    if shares.sum = totalKzt then .ok shares else .error (.internal "prepayment_share_sum_mismatch")

end InvoiceService

open InvoiceService

/-- What the largest remainders give. -/
structure Apportioned (totalKzt : Int) (weights : List Decimal) (shares : List Int) : Prop where
  length : shares.length = weights.length
  sum : shares.sum = totalKzt
  nonneg : ∀ x ∈ shares, 0 ≤ x
  near : ∀ (i : Nat) w x, weights[i]? = some w → shares[i]? = some x → |(x : ℚ) - exactShare totalKzt weights w| < 1
  zero : ∀ (i : Nat) x, weights[i]? = some 0 → shares[i]? = some x → x = 0
  /-- Who got a tenge more comes before who did not. -/
  largest : ∀ (i j : Nat) v w x y, weights[i]? = some v → weights[j]? = some w → shares[i]? = some x → shares[j]? = some y →
    ⌊exactShare totalKzt weights v⌋ < x → y ≤ ⌊exactShare totalKzt weights w⌋ →
    Int.fract (exactShare totalKzt weights w) < Int.fract (exactShare totalKzt weights v) ∨
      Int.fract (exactShare totalKzt weights v) = Int.fract (exactShare totalKzt weights w) ∧ i < j

variable {totalKzt leftover : Int} {weights raws : List Decimal} {order : List Nat} {floors : List Int}

/-! ## The loop -/

theorem addRemainders_getElem? (hnodup : order.Nodup) (i : Nat) :
    (addRemainders order leftover floors)[i]? = floors[i]?.map (· + topUp order leftover.toNat i) := by
  induction order generalizing leftover floors with
  | nil => simp [addRemainders, topUp]
  | cons j order ih =>
    obtain ⟨hj, hnodup⟩ := List.nodup_cons.1 hnodup
    unfold addRemainders
    by_cases hle : leftover ≤ 0
    · rw [if_pos hle, Int.toNat_of_nonpos hle]
      simp [topUp]
    · obtain ⟨k, hk⟩ : ∃ k, leftover.toNat = k + 1 := ⟨leftover.toNat - 1, by omega⟩
      have hk' : (leftover - 1).toNat = k := by omega
      rw [if_neg hle, ih hnodup, hk', hk, List.getElem?_modify]
      by_cases hij : j = i
      · subst hij
        have hnot : topUp order k j = 0 :=
          if_neg fun hc => hj (List.mem_of_mem_take (List.contains_iff_mem.1 hc))
        have hfirst : topUp (j :: order) (k + 1) j = 1 := if_pos (by simp)
        rw [hnot, hfirst]
        simp [Function.comp_def]
      · have hsame : topUp (j :: order) (k + 1) i = topUp order k i := by
          unfold topUp
          rw [List.take_succ_cons, List.contains_cons]
          simp [Ne.symm hij]
        simp [hij, hsame]

theorem addRemainders_eq (hnodup : order.Nodup) (floors : List Int) (leftover : Int) :
    addRemainders order leftover floors = floors.zipIdx.map fun f => f.1 + topUp order leftover.toNat f.2 := by
  apply List.ext_getElem?
  intro i
  rw [addRemainders_getElem? hnodup, List.getElem?_map, List.getElem?_zipIdx, Option.map_map]
  simp only [Function.comp_def, Nat.zero_add]

/-! ## The ranking -/

theorem comesFirst_iff {a b : Decimal × Nat} : comesFirst a b = true ↔ b.1 < a.1 ∨ a.1 = b.1 ∧ a.2 ≤ b.2 := by
  unfold comesFirst
  simp only [Bool.or_eq_true, Bool.and_eq_true, decide_eq_true_eq, beq_iff_eq]

instance total_comesFirst : Std.Total fun a b : Decimal × Nat => comesFirst a b = true where
  total a b := by
    simp only [comesFirst_iff]
    rcases lt_trichotomy a.1 b.1 with h | h | h
    · exact .inr (.inl h)
    · rcases Nat.le_total a.2 b.2 with h' | h'
      · exact .inl (.inr ⟨h, h'⟩)
      · exact .inr (.inr ⟨h.symm, h'⟩)
    · exact .inl (.inl h)

instance trans_comesFirst : IsTrans (Decimal × Nat) fun a b => comesFirst a b = true where
  trans a b c hab hbc := by
    simp only [comesFirst_iff] at *
    rcases hab with hab | ⟨hab, hab'⟩ <;> rcases hbc with hbc | ⟨hbc, hbc'⟩
    · exact .inl (hbc.trans hab)
    · exact .inl (hbc ▸ hab)
    · exact .inl (hab ▸ hbc)
    · exact .inr ⟨hab.trans hbc, hab'.trans hbc'⟩

theorem pairwise_ranked (raws : List Decimal) : (ranked raws).Pairwise fun a b => comesFirst a b = true :=
  List.pairwise_insertionSort _ _

theorem perm_ranked (raws : List Decimal) : (ranked raws).Perm (raws.map Int.fract).zipIdx := by
  unfold ranked orderBy
  exact List.perm_insertionSort _ _

theorem mem_ranked {r : Decimal} {i : Nat} : (r, i) ∈ ranked raws ↔ (raws.map Int.fract)[i]? = some r := by
  rw [(perm_ranked raws).mem_iff, List.mem_zipIdx_iff_getElem?]

theorem perm_order (raws : List Decimal) : ((ranked raws).map Prod.snd).Perm (List.range raws.length) := by
  refine ((perm_ranked raws).map Prod.snd).trans ?_
  rw [List.zipIdx_map_snd, List.length_map, ← List.range_eq_range']

theorem fract_of_ranked {p : Decimal × Nat} (h : p ∈ ranked raws) : 0 ≤ p.1 ∧ p.1 < 1 := by
  have hmem := (perm_ranked raws).mem_iff.1 h
  obtain ⟨r, -, hr⟩ := List.mem_map.1 (mem_zipIdx_fst hmem)
  rw [← hr]
  exact ⟨Int.fract_nonneg r, Int.fract_lt_one r⟩

theorem sum_ranked (raws : List Decimal) : ((ranked raws).map Prod.fst).sum = (raws.map Int.fract).sum := by
  rw [((perm_ranked raws).map Prod.fst).sum_eq, List.zipIdx_map_fst]

theorem topUp_pos {k i : Nat} (h : 0 < topUp ((ranked raws).map Prod.snd) k i) :
    ∃ r, (raws.map Int.fract)[i]? = some r ∧ (r, i) ∈ (ranked raws).take k := by
  unfold topUp at h
  split at h
  · next hc =>
    rw [← List.map_take] at hc
    obtain ⟨⟨r, j⟩, hmem, rfl⟩ := List.mem_map.1 (List.contains_iff_mem.1 hc)
    exact ⟨r, mem_ranked.1 (List.mem_of_mem_take hmem), hmem⟩
  · exact absurd h (lt_irrefl 0)

theorem topUp_nonpos {k i : Nat} {r : Decimal} (hr : (raws.map Int.fract)[i]? = some r)
    (h : topUp ((ranked raws).map Prod.snd) k i ≤ 0) : (r, i) ∈ (ranked raws).drop k := by
  have hmem : (r, i) ∈ (ranked raws).take k ++ (ranked raws).drop k := by
    rw [List.take_append_drop]
    exact mem_ranked.2 hr
  rcases List.mem_append.1 hmem with htake | hdrop
  · have hc : (((ranked raws).map Prod.snd).take k).contains i = true := by
      rw [← List.map_take]
      exact List.contains_iff_mem.2 (List.mem_map_of_mem htake)
    unfold topUp at h
    rw [if_pos hc] at h
    omega
  · exact hdrop

theorem sum_lt_length {l : List ℚ} (hne : l ≠ []) (h : ∀ r ∈ l, r < 1) : l.sum < l.length := by
  induction l with
  | nil => exact absurd rfl hne
  | cons r l ih =>
    have hr := h r List.mem_cons_self
    rw [List.sum_cons, List.length_cons, Nat.cast_succ]
    by_cases hl : l = []
    · subst hl
      simpa using hr
    · have := ih hl fun r' hr' => h r' (List.mem_cons_of_mem _ hr')
      linarith

/-- The fractions sum to what is left over, so each month that gets a tenge more has one. -/
theorem fract_pos_of_topUp {k i : Nat} (hk : ((k : Int) : ℚ) = (raws.map Int.fract).sum)
    (h : 0 < topUp ((ranked raws).map Prod.snd) k i) : ∃ r, (raws.map Int.fract)[i]? = some r ∧ 0 < r := by
  obtain ⟨r, hr, hmem⟩ := topUp_pos h
  refine ⟨r, hr, ?_⟩
  by_contra hzero
  have hsplit : (ranked raws).take k ++ (ranked raws).drop k = ranked raws := List.take_append_drop k _
  have hafter : ∀ p ∈ (ranked raws).drop k, p.1 = 0 := by
    intro p hp
    have hfirst : comesFirst (r, i) p = true := by
      have hpair := pairwise_ranked raws
      rw [← hsplit, List.pairwise_append] at hpair
      exact hpair.2.2 _ hmem _ hp
    have hrange := (fract_of_ranked (List.mem_of_mem_drop hp)).1
    rcases comesFirst_iff.1 hfirst with hlt | ⟨heq, -⟩
    · exact le_antisymm (le_of_lt (hlt.trans_le (not_lt.1 hzero))) hrange
    · exact le_antisymm (heq ▸ not_lt.1 hzero) hrange
  have hdrop : (((ranked raws).drop k).map Prod.fst).sum = 0 :=
    List.sum_eq_zero fun x hx => by
      obtain ⟨p, hp, rfl⟩ := List.mem_map.1 hx
      exact hafter p hp
  have htake : (((ranked raws).take k).map Prod.fst).sum < (((ranked raws).take k).map Prod.fst).length := by
    refine sum_lt_length ?_ ?_
    · intro hnil
      rw [List.map_eq_nil_iff] at hnil
      rw [hnil] at hmem
      cases hmem
    · intro x hx
      obtain ⟨p, hp, rfl⟩ := List.mem_map.1 hx
      exact (fract_of_ranked (List.mem_of_mem_take hp)).2
  have hsum := sum_ranked raws
  rw [← hsplit, List.map_append, List.sum_append, hdrop, add_zero, ← hk] at hsum
  have hlen : ((((ranked raws).take k).map Prod.fst).length : ℚ) ≤ k := by
    rw [List.length_map]
    exact_mod_cast List.length_take_le k _
  rw [hsum] at htake
  push_cast at htake
  linarith

/-! ## The shares -/

theorem sum_exactShare (hsum : weights.sum ≠ 0) : (weights.map (exactShare totalKzt weights)).sum = totalKzt := by
  have hone : weights.map (exactShare totalKzt weights) = weights.map fun w => w * (totalKzt / weights.sum) :=
    List.map_congr_left fun w _ => mul_div_assoc _ _ _
  rw [hone, List.sum_map_mul_right, List.map_id']
  exact mul_div_cancel₀ _ hsum

theorem sum_fract (raws : List Decimal) :
    (raws.map Int.fract).sum = raws.sum - ((raws.map fun r => ⌊r⌋).sum : Int) := by
  induction raws with
  | nil => simp
  | cons r raws ih =>
    rw [List.map_cons, List.sum_cons, ih, List.map_cons, List.sum_cons, List.sum_cons, Int.fract]
    push_cast
    ring

/-- The loop does what the model of the quote says, and the check that follows it passes. -/
theorem distributeOrThrow_eq (h : weights.sum = 0 → totalKzt = 0) :
    distributeOrThrow totalKzt weights = .ok (distributeWholeTenge totalKzt weights) := by
  have hsum := distributeWholeTenge_sum h
  unfold distributeOrThrow
  unfold distributeWholeTenge at hsum ⊢
  by_cases hzero : weights.sum = 0 ∨ totalKzt = 0
  · rw [if_pos hzero, if_pos hzero]
  · rw [if_neg hzero] at hsum ⊢
    rw [if_neg hzero]
    dsimp only
    have hnodup : ((ranked (weights.map (exactShare totalKzt weights))).map Prod.snd).Nodup :=
      (perm_order _).nodup_iff.2 List.nodup_range
    rw [addRemainders_eq hnodup]
    exact if_pos hsum

variable {shares : List Int}

theorem share_eq (hzero : ¬(weights.sum = 0 ∨ totalKzt = 0)) : ∃ k : Nat,
    ((k : Int) : ℚ) = ((weights.map (exactShare totalKzt weights)).map Int.fract).sum ∧
      ∀ (i : Nat) w x, weights[i]? = some w → (distributeWholeTenge totalKzt weights)[i]? = some x →
        x = ⌊exactShare totalKzt weights w⌋ +
          topUp ((ranked (weights.map (exactShare totalKzt weights))).map Prod.snd) k i := by
  have hsum := sum_fract (weights.map (exactShare totalKzt weights))
  rw [sum_exactShare (fun h => hzero (.inl h))] at hsum
  have hpos : 0 ≤ ((weights.map (exactShare totalKzt weights)).map Int.fract).sum :=
    List.sum_nonneg fun r hr => by
      obtain ⟨q, -, rfl⟩ := List.mem_map.1 hr
      exact Int.fract_nonneg q
  have hleft : 0 ≤ totalKzt - ((weights.map (exactShare totalKzt weights)).map fun r => ⌊r⌋).sum := by
    have : ((0 : Int) : ℚ) ≤ (totalKzt - ((weights.map (exactShare totalKzt weights)).map fun r => ⌊r⌋).sum : Int) := by
      push_cast at hsum ⊢
      linarith
    exact_mod_cast this
  refine ⟨(totalKzt - ((weights.map (exactShare totalKzt weights)).map fun r => ⌊r⌋).sum).toNat, ?_, ?_⟩
  · rw [Int.toNat_of_nonneg hleft, hsum]
    push_cast
    rfl
  · intro i w x hw hx
    unfold distributeWholeTenge at hx
    rw [if_neg hzero] at hx
    have hfloor : (((weights.map (exactShare totalKzt weights)).map fun r => ⌊r⌋).zipIdx)[i]? =
        some (⌊exactShare totalKzt weights w⌋, i) := by
      simp [List.getElem?_zipIdx, hw]
    change ((((weights.map (exactShare totalKzt weights)).map fun r => ⌊r⌋).zipIdx).map _)[i]? = some x at hx
    rw [List.getElem?_map, hfloor, Option.map_some, Option.some.injEq] at hx
    exact hx.symm

theorem topUp_range (order : List Nat) (k i : Nat) : topUp order k i = 0 ∨ topUp order k i = 1 := by
  unfold topUp
  split
  · exact .inr rfl
  · exact .inl rfl

theorem apportioned_of_pos (ht : 0 ≤ totalKzt) (hw : ∀ w ∈ weights, 0 ≤ w)
    (hzero : ¬(weights.sum = 0 ∨ totalKzt = 0)) :
    Apportioned totalKzt weights (distributeWholeTenge totalKzt weights) := by
  obtain ⟨k, hk, hshare⟩ := share_eq hzero
  have hfract : ∀ (i : Nat) w, weights[i]? = some w →
      ((weights.map (exactShare totalKzt weights)).map Int.fract)[i]? =
        some (Int.fract (exactShare totalKzt weights w)) := by
    intro i w hi
    rw [List.getElem?_map, List.getElem?_map, hi]
    rfl
  constructor
  case length =>
    unfold distributeWholeTenge
    rw [if_neg hzero]
    simp
  case sum => exact distributeWholeTenge_sum fun h => absurd (.inl h) hzero
  case nonneg => exact distributeWholeTenge_nonneg ht hw
  case near =>
    intro i w x hi hx
    obtain rfl := hshare i w x hi hx
    have hlt := Int.fract_lt_one (exactShare totalKzt weights w)
    have hnonneg := Int.fract_nonneg (exactShare totalKzt weights w)
    have hfloor := Int.floor_add_fract (exactShare totalKzt weights w)
    rw [abs_lt]
    rcases topUp_range ((ranked (weights.map (exactShare totalKzt weights))).map Prod.snd) k i with htop | htop
    · rw [htop]
      push_cast
      constructor <;> linarith
    · obtain ⟨r, hr, hpos⟩ := fract_pos_of_topUp hk (htop ▸ one_pos)
      rw [hfract i w hi, Option.some.injEq] at hr
      rw [htop]
      push_cast
      constructor <;> linarith
  case zero =>
    intro i x hi hx
    have heq := hshare i 0 x hi hx
    have hexact : exactShare totalKzt weights 0 = 0 := by
      unfold exactShare
      simp
    rcases topUp_range ((ranked (weights.map (exactShare totalKzt weights))).map Prod.snd) k i with htop | htop
    · rw [htop, hexact] at heq
      simpa using heq
    · obtain ⟨r, hr, hpos⟩ := fract_pos_of_topUp hk (htop ▸ one_pos)
      rw [hfract i 0 hi, hexact, Int.fract_zero, Option.some.injEq] at hr
      exact absurd hpos (hr ▸ lt_irrefl 0)
  case largest =>
    intro i j v w x y hi hj hx hy hmore hless
    have hx' := hshare i v x hi hx
    have hy' := hshare j w y hj hy
    have hpos : 0 < topUp ((ranked (weights.map (exactShare totalKzt weights))).map Prod.snd) k i := by omega
    obtain ⟨r, hr, hfirst⟩ := topUp_pos hpos
    rw [hfract i v hi, Option.some.injEq] at hr
    subst hr
    have hlater := topUp_nonpos (k := k) (hfract j w hj) (by omega)
    have hpair := pairwise_ranked (weights.map (exactShare totalKzt weights))
    rw [← List.take_append_drop k (ranked (weights.map (exactShare totalKzt weights))), List.pairwise_append] at hpair
    rcases comesFirst_iff.1 (hpair.2.2 _ hfirst _ hlater) with hlt | ⟨heq, hle⟩
    · exact .inl hlt
    · refine .inr ⟨heq, lt_of_le_of_ne hle ?_⟩
      rintro rfl
      rw [hi, Option.some.injEq] at hj
      subst hj
      omega

theorem apportioned_zero : Apportioned 0 weights (weights.map fun _ => 0) := by
  have hexact : ∀ w, exactShare 0 weights w = 0 := by
    intro w
    unfold exactShare
    simp
  have hshare : ∀ (i : Nat) x, (weights.map fun _ => (0 : Int))[i]? = some x → x = 0 := by
    intro i x hx
    obtain ⟨w, -, hw⟩ := List.mem_map.1 (List.mem_of_getElem? hx)
    exact hw.symm
  constructor
  case length => simp
  case sum => simp
  case nonneg =>
    intro x hx
    obtain ⟨w, -, rfl⟩ := List.mem_map.1 hx
    exact le_refl 0
  case near =>
    intro i w x _ hx
    rw [hshare i x hx, hexact]
    simp
  case zero =>
    intro i x _ hx
    exact hshare i x hx
  case largest =>
    intro i j v w x y _ _ hx _ hmore
    rw [hshare i x hx, hexact] at hmore
    simp at hmore

/-- **The shares of the months** are those of the largest remainders wherever a month has a day to bill, and the check of
their sum never throws there. -/
theorem distributeOrThrow_apportions (totalKzt : Nat) (months : List MonthDays)
    (h : (∃ m ∈ months, 0 < m.effectiveDays) ∨ totalKzt = 0) :
    ∃ shares, distributeOrThrow totalKzt (months.map MonthDays.weight) = .ok shares ∧
      Apportioned totalKzt (months.map MonthDays.weight) shares := by
  have hweights : ∀ w ∈ months.map MonthDays.weight, 0 ≤ w := by
    intro w hw
    obtain ⟨m, -, rfl⟩ := List.mem_map.1 hw
    exact m.weight_nonneg
  by_cases ht : (totalKzt : Int) = 0
  · refine ⟨(months.map MonthDays.weight).map fun _ => 0, if_pos (.inr ht), ?_⟩
    rw [ht]
    exact apportioned_zero
  · have hsum : (months.map MonthDays.weight).sum ≠ 0 := by
      obtain ⟨m, hm, hpos⟩ := h.resolve_right (by omega)
      have hone : 0 < m.weight := by
        have h₁ : (0 : ℚ) < m.effectiveDays := by exact_mod_cast hpos
        have h₂ : (0 : ℚ) < m.totalDays := by exact_mod_cast m.pos
        unfold MonthDays.weight
        positivity
      have hle := List.single_le_sum hweights _ (List.mem_map_of_mem hm)
      exact ne_of_gt (lt_of_lt_of_le hone hle)
    refine ⟨_, distributeOrThrow_eq fun hzero => absurd hzero hsum, ?_⟩
    exact apportioned_of_pos (by omega) hweights (by tauto)

/-- 31 and 28 days, of which the second has 14 holidays. -/
theorem distributeOrThrow_apportions_two :
    (∃ m ∈ [(⟨31, 31, by decide⟩ : MonthDays), ⟨14, 28, by decide⟩], 0 < m.effectiveDays) ∧
      ∃ shares, distributeOrThrow (100 : Nat) ([⟨31, 31, by decide⟩, ⟨14, 28, by decide⟩].map MonthDays.weight) = .ok shares ∧
        Apportioned (100 : Nat) ([⟨31, 31, by decide⟩, ⟨14, 28, by decide⟩].map MonthDays.weight) shares :=
  ⟨⟨_, List.mem_cons_self, by decide⟩, distributeOrThrow_apportions 100 _ (.inl ⟨_, List.mem_cons_self, by decide⟩)⟩

/-- A month with nothing to bill gets nothing, so its share is not the total. -/
theorem allHoliday_not_apportioned :
    distributeOrThrow (1 : Nat) ([⟨0, 28, by decide⟩].map MonthDays.weight) = .ok [0] ∧
      ¬Apportioned (1 : Nat) ([⟨0, 28, by decide⟩].map MonthDays.weight) [0] := by
  constructor
  · exact if_pos (.inl (by simp [MonthDays.weight]))
  · intro h
    exact absurd h.sum (by decide)

end Billing
