import Mathlib.Data.List.TakeDrop
import Shyraq.Kernel.Paging

/-!
# The newest rows

`WHERE … ORDER BY key DESC LIMIT n`, and when two conditions select the same rows.

    newest key n (rows.filter q) = newest key n (rows.filter p) ↔
      each row on which p and q differ has n rows of q ahead of it       (newest_filter_eq_iff)
-/

namespace Kernel

variable {R K : Type}

theorem take_cons_eq_take_iff {y : R} {l m : List R} (hy : y ∉ m) (n : Nat) : (y :: l).take n = m.take n ↔ n = 0 := by
  cases n with
  | zero => exact iff_of_true rfl rfl
  | succ n =>
    refine iff_of_false (fun h => ?_) (Nat.succ_ne_zero n)
    rw [List.take_succ_cons] at h
    exact hy (List.mem_of_mem_take (h ▸ List.mem_cons_self))

/-- Two conditions leave the same `n` rows at the front exactly when neither reaches a row on which they differ. -/
theorem take_filter_eq_iff {p q : R → Bool} {l : List R} (hl : l.Nodup) (n : Nat) :
    (l.filter q).take n = (l.filter p).take n ↔
      ∀ a x b, l = a ++ x :: b → p x ≠ q x → n ≤ (a.filter q).length := by
  induction l generalizing n with
  | nil =>
    refine iff_of_true rfl fun a x b h => ?_
    cases a <;> cases h
  | cons y l ih =>
    obtain ⟨hy, hl⟩ := List.nodup_cons.1 hl
    -- the row may be `y` or one of `l`
    have hsplit : (∀ a x b, y :: l = a ++ x :: b → p x ≠ q x → n ≤ (a.filter q).length) ↔
        (p y ≠ q y → n = 0) ∧
          ∀ a x b, l = a ++ x :: b → p x ≠ q x → n ≤ ((y :: a).filter q).length := by
      constructor
      · intro h
        refine ⟨fun hne => Nat.le_zero.1 (h [] y l rfl hne), fun a x b hab hne => ?_⟩
        exact h (y :: a) x b (congrArg (y :: ·) hab) hne
      · rintro ⟨hhead, htail⟩ a x b hab hne
        cases a with
        | nil =>
          obtain ⟨rfl, rfl⟩ := List.cons.inj hab
          exact Nat.le_of_eq (hhead hne)
        | cons z a =>
          obtain ⟨hz, hl'⟩ := List.cons.inj hab
          rw [← hz]
          exact htail a x b hl' hne
    have hnot : ∀ r : R → Bool, y ∉ l.filter r := fun r h => hy (List.mem_filter.1 h).1
    have hdiffers : p y ≠ q y → (((p y ≠ q y → n = 0) ∧
        ∀ a x b, l = a ++ x :: b → p x ≠ q x → n ≤ ((y :: a).filter q).length) ↔ n = 0) := by
      refine fun hne => ⟨fun h => h.1 hne, fun h => ⟨fun _ => h, fun _ _ _ _ _ => ?_⟩⟩
      rw [h]
      exact Nat.zero_le _
    rw [hsplit]
    cases hp : p y <;> cases hq : q y
    case true.false =>
      rw [hp, hq] at hdiffers
      rw [hdiffers Bool.noConfusion, List.filter_cons_of_pos hp, List.filter_cons_of_neg (by rw [hq]; decide), eq_comm]
      exact take_cons_eq_take_iff (hnot q) n
    case false.true =>
      rw [hp, hq] at hdiffers
      rw [hdiffers Bool.noConfusion, List.filter_cons_of_pos hq, List.filter_cons_of_neg (by rw [hp]; decide)]
      exact take_cons_eq_take_iff (hnot p) n
    case true.true =>
      simp only [List.filter_cons_of_pos hq, List.filter_cons_of_pos hp, ne_eq, not_true_eq_false, false_implies,
        true_and, List.length_cons]
      cases n with
      | zero => simp
      | succ n =>
        rw [List.take_succ_cons, List.take_succ_cons, List.cons_inj_right, ih hl n]
        simp only [ne_eq, Nat.add_le_add_iff_right]
    case false.false =>
      have hneg : ∀ {r : R → Bool}, r y = false → ¬r y = true := fun h => by rw [h]; decide
      simp only [List.filter_cons_of_neg (hneg hq), List.filter_cons_of_neg (hneg hp), ne_eq, not_true_eq_false,
        false_implies, true_and]
      exact ih hl n

/-! ## Sorted by a key -/

/-- No two rows have one key. -/
structure Keyed (key : R → K) (rows : List R) : Prop where
  nodup : rows.Nodup
  inj : ∀ a ∈ rows, ∀ b ∈ rows, key a = key b → a = b

variable {key : R → K} {rows : List R}

/-- A key that ends in a primary key. -/
theorem Keyed.of_ids {I : Type} {ident : R → I} (h : (rows.map ident).Nodup)
    (hkey : ∀ a b, key a = key b → ident a = ident b) : Keyed key rows where
  nodup := h.of_map
  inj a ha b hb hab := List.inj_on_of_nodup_map h ha hb (hkey a b hab)

variable [LinearOrder K]

/-- `ORDER BY key DESC`. -/
def newestFirst (key : R → K) (rows : List R) : List R := rows.insertionSort fun a b => key b ≤ key a

/-- `ORDER BY key DESC LIMIT n`. -/
def newest (key : R → K) (n : Nat) (rows : List R) : List R := (newestFirst key rows).take n

/-- How many rows of `p` are newer than this one. -/
def ahead (key : R → K) (p : R → Bool) (rows : List R) (x : R) : Nat :=
  (rows.filter fun y => p y && decide (key x < key y)).length

theorem perm_newestFirst : (newestFirst key rows).Perm rows := List.perm_insertionSort _ _

theorem nodup_newestFirst (h : Keyed key rows) : (newestFirst key rows).Nodup := perm_newestFirst.nodup_iff.2 h.nodup

theorem mem_newestFirst {x : R} : x ∈ newestFirst key rows ↔ x ∈ rows := perm_newestFirst.mem_iff

theorem mem_newest {n : Nat} {x : R} (h : x ∈ newest key n rows) : x ∈ rows :=
  mem_newestFirst.1 (List.mem_of_mem_take h)

instance total_key : Std.Total fun a b : R => key b ≤ key a := ⟨fun a b => le_total (key b) (key a)⟩

instance trans_key : IsTrans R fun a b : R => key b ≤ key a := ⟨fun _ _ _ hab hbc => hbc.trans hab⟩

theorem newestFirst_filter (h : Keyed key rows) (p : R → Bool) :
    newestFirst key (rows.filter p) = (newestFirst key rows).filter p :=
  (filter_insertionSort (fun a ha b hb hab hba => h.inj a ha b hb (le_antisymm hba hab)) p).symm

/-- The keys go down. -/
theorem pairwise_newestFirst (h : Keyed key rows) : (newestFirst key rows).Pairwise fun a b => key b < key a := by
  have hle : (newestFirst key rows).Pairwise fun a b => key b ≤ key a := List.pairwise_insertionSort _ _
  have hne : (newestFirst key rows).Pairwise (· ≠ ·) := nodup_newestFirst h
  refine (hle.and hne).imp_of_mem fun {a b} ha hb hab => lt_of_le_of_ne hab.1 fun heq => hab.2 ?_
  exact h.inj a (mem_newestFirst.1 ha) b (mem_newestFirst.1 hb) heq.symm

/-- What is listed before a row are the rows ahead of it. -/
theorem ahead_eq (h : Keyed key rows) {p : R → Bool} {a b : List R} {x : R} (hab : newestFirst key rows = a ++ x :: b) :
    ahead key p rows x = (a.filter p).length := by
  have hsorted := pairwise_newestFirst h
  rw [hab, List.pairwise_append, List.pairwise_cons] at hsorted
  obtain ⟨-, ⟨hb, -⟩, ha⟩ := hsorted
  have hperm : (newestFirst key rows).Perm rows := perm_newestFirst
  have hperm := hperm.filter fun y => p y && decide (key x < key y)
  unfold ahead
  rw [← hperm.length_eq, hab, List.filter_append]
  have hbefore : a.filter (fun y => p y && decide (key x < key y)) = a.filter p := by
    refine List.filter_congr fun y hy => ?_
    rw [decide_eq_true (ha y hy x List.mem_cons_self), Bool.and_true]
  have hafter : (x :: b).filter (fun y => p y && decide (key x < key y)) = [] := by
    refine List.filter_eq_nil_iff.2 fun y hy => ?_
    have hnot : ¬key x < key y := by
      rcases List.mem_cons.1 hy with rfl | hy
      · exact lt_irrefl _
      · exact lt_asymm (hb y hy)
    rw [decide_eq_false hnot, Bool.and_false]
    exact Bool.false_ne_true
  rw [hbefore, hafter, List.append_nil]

/-- Two conditions select the same newest rows exactly when each row on which they differ is too far behind. -/
theorem newest_filter_eq_iff (h : Keyed key rows) (p q : R → Bool) (n : Nat) :
    newest key n (rows.filter q) = newest key n (rows.filter p) ↔
      ∀ x ∈ rows, p x ≠ q x → n ≤ ahead key q rows x := by
  unfold newest
  rw [newestFirst_filter h, newestFirst_filter h, take_filter_eq_iff (nodup_newestFirst h)]
  constructor
  · intro hall x hx hne
    have hx : x ∈ newestFirst key rows := mem_newestFirst.2 hx
    obtain ⟨a, b, hab⟩ := List.append_of_mem hx
    rw [ahead_eq h hab]
    exact hall a x b hab hne
  · intro hall a x b hab hne
    have hx : x ∈ newestFirst key rows := by
      rw [hab]
      exact List.mem_append_right a List.mem_cons_self
    rw [← ahead_eq h hab]
    exact hall x (mem_newestFirst.1 hx) hne

/-- A limit that is not positive is replaced by a default. -/
def capOf (limit : Int) (default : Nat) : Nat := if 0 < limit then limit.toNat else default

theorem newest_capped_eq_iff (h : Keyed key rows) (p q : R → Bool) (limit : Int) {default : Nat} (hd : 0 < default) :
    newest key (capOf limit default) (rows.filter q) = newest key limit.toNat (rows.filter p) ↔
      (limit ≤ 0 → ∀ x ∈ rows, q x = false) ∧ ∀ x ∈ rows, p x ≠ q x → limit.toNat ≤ ahead key q rows x := by
  unfold capOf
  by_cases hlimit : 0 < limit
  · rw [if_pos hlimit, newest_filter_eq_iff h]
    exact ⟨fun hall => ⟨fun hle => absurd hlimit (not_lt.2 hle), hall⟩, And.right⟩
  · rw [if_neg hlimit, Int.toNat_of_nonpos (not_lt.1 hlimit)]
    constructor
    · intro heq
      refine ⟨fun _ x hx => ?_, fun _ _ _ => Nat.zero_le _⟩
      have hnil : newestFirst key (rows.filter q) = [] := by
        rcases List.take_eq_nil_iff.1 heq with hzero | hnil
        · exact absurd hzero (Nat.pos_iff_ne_zero.1 hd)
        · exact hnil
      have hperm : (newestFirst key (rows.filter q)).Perm (rows.filter q) := perm_newestFirst
      rw [hnil] at hperm
      have hempty : rows.filter q = [] := hperm.nil_eq.symm
      exact Bool.eq_false_iff.2 (List.filter_eq_nil_iff.1 hempty x hx)
    · rintro ⟨hnone, -⟩
      have hempty : rows.filter q = [] :=
        List.filter_eq_nil_iff.2 fun x hx => Bool.eq_false_iff.1 (hnone (not_lt.1 hlimit) x hx)
      rw [hempty]
      exact List.take_nil

/-- Without a limit the rows are the newest exactly when there are no more of them. -/
theorem newestFirst_eq_newest_iff {n : Nat} : newestFirst key rows = newest key n rows ↔ rows.length ≤ n := by
  have hlength : (newestFirst key rows).length = rows.length := perm_newestFirst.length_eq
  rw [← hlength]
  exact List.take_self_eq_iff _

end Kernel
