import Mathlib.Data.List.Sort
import Mathlib.Order.Bounds.Defs

/-!
# Ranking

Rows sorted by an order in which no two of them tie, and the parts of a ranking that pass no
one over.

    Untied le l → l ~ l' → l.insertionSort le = l'.insertionSort le       (insertionSort_congr)
    l is ranked → l.takeWhile p is the greatest part that passes no one over and
      keeps to p                                                       (isGreatest_takeWhile)
-/

namespace Kernel

variable {R : Type} {l l' : List R}

section Sorting

variable {le : R → R → Prop}

/-- No two rows of the list tie. -/
def Untied (le : R → R → Prop) (l : List R) : Prop := ∀ a ∈ l, ∀ b ∈ l, le a b → le b a → a = b

variable [DecidableRel le] [Std.Total le] [IsTrans R le]

/-- The sorted rows do not depend on how they were listed. -/
theorem insertionSort_congr (hu : Untied le l) (hp : l.Perm l') : l.insertionSort le = l'.insertionSort le := by
  refine List.Perm.eq_of_pairwise ?_ (List.pairwise_insertionSort le l) (List.pairwise_insertionSort le l') ?_
  · intro a b ha hb
    have ha' := (List.mem_insertionSort le).1 ha
    have hb' := hp.mem_iff.2 ((List.mem_insertionSort le).1 hb)
    exact hu a ha' b hb'
  · exact (List.perm_insertionSort le l).trans (hp.trans (List.perm_insertionSort le l').symm)

end Sorting

/-! ## Parts that pass no one over -/

variable {before : R → R → Prop} {p : R → Bool}

/-- Some of the rows, all of them `p`, and with each one every row before it. -/
structure Leading (before : R → R → Prop) (l : List R) (p : R → Bool) (part : Set R) : Prop where
  listed : ∀ r ∈ part, r ∈ l
  ranked : ∀ r ∈ part, ∀ r' ∈ l, before r' r → r' ∈ part
  keeps : ∀ r ∈ part, p r = true

/-- The rows of the longest prefix are those whose predecessors are all `p`. -/
theorem mem_takeWhile_iff (hl : l.Pairwise before) (hasymm : ∀ a b, before a b → ¬ before b a) {x : R} :
    x ∈ l.takeWhile p ↔ x ∈ l ∧ p x = true ∧ ∀ y ∈ l, before y x → p y = true := by
  induction l with
  | nil => simp
  | cons a rest ih =>
    rw [List.pairwise_cons] at hl
    by_cases ha : p a = true
    · rw [List.takeWhile_cons_of_pos ha, List.mem_cons, ih hl.2]
      constructor
      · rintro (rfl | ⟨hx, hp, hall⟩)
        · refine ⟨List.mem_cons_self, ha, ?_⟩
          intro y hy hyx
          rcases List.mem_cons.1 hy with rfl | hy
          · exact ha
          · exact absurd hyx (hasymm _ _ (hl.1 y hy))
        · refine ⟨List.mem_cons_of_mem a hx, hp, ?_⟩
          intro y hy hyx
          rcases List.mem_cons.1 hy with rfl | hy
          · exact ha
          · exact hall y hy hyx
      · rintro ⟨hx, hp, hall⟩
        rcases List.mem_cons.1 hx with rfl | hx
        · exact .inl rfl
        · exact .inr ⟨hx, hp, fun y hy => hall y (List.mem_cons_of_mem a hy)⟩
    · rw [List.takeWhile_cons_of_neg ha]
      constructor
      · intro h
        cases h
      · rintro ⟨hx, hp, hall⟩
        -- the first row is `x` itself or before it
        rcases List.mem_cons.1 hx with rfl | hx
        · exact absurd hp ha
        · exact absurd (hall a List.mem_cons_self (hl.1 x hx)) ha

theorem isGreatest_takeWhile (hl : l.Pairwise before) (hasymm : ∀ a b, before a b → ¬ before b a)
    (htrans : ∀ a b c, before a b → before b c → before a c) (hmem : ∀ r, r ∈ l ↔ r ∈ l') :
    IsGreatest {part | Leading before l' p part} {r | r ∈ l.takeWhile p} := by
  have hiff := fun x => mem_takeWhile_iff (p := p) (x := x) hl hasymm
  constructor
  · constructor
    · intro r hr
      exact (hmem r).1 ((hiff r).1 hr).1
    · intro r hr r' hr' hbefore
      obtain ⟨-, -, hall⟩ := (hiff r).1 hr
      have hl' := (hmem r').2 hr'
      refine (hiff r').2 ⟨hl', hall r' hl' hbefore, ?_⟩
      intro y hy hy'
      exact hall y hy (htrans y r' r hy' hbefore)
    · intro r hr
      exact ((hiff r).1 hr).2.1
  · intro part hpart r hr
    refine (hiff r).2 ⟨(hmem r).2 (hpart.listed r hr), hpart.keeps r hr, ?_⟩
    intro y hy hyr
    exact hpart.keeps y (hpart.ranked r hr y ((hmem y).1 hy) hyr)

end Kernel
