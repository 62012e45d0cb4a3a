import Shyraq.Kernel.MoneyKzt
import Mathlib.Algebra.BigOperators.Group.List.Basic

/-!
# The error of rounding

What rounding half to even takes off a number, and when a sum that is rounded once agrees with
the sum of its rounded terms: exactly if the errors of the terms add up to less than half, or to
half when the sum is even.
-/

namespace Kernel

/-- What rounding takes off. -/
def roundingError (q : ℚ) : ℚ := q - roundHalfEven q

/-- Close enough to zero to be rounded away, next to the whole number `n`. -/
def Vanishes (error : ℚ) (n : Int) : Prop := |error| < 1 / 2 ∨ (|error| = 1 / 2 ∧ n % 2 = 0)

theorem roundHalfEven_eq_iff (q : ℚ) (n : Int) : roundHalfEven q = n ↔ Vanishes (q - n) n := by
  have hle := roundHalfEven_le_iff q n
  have hlt := roundHalfEven_le_iff q (n - 1)
  have hcast : ((n - 1 : Int) : ℚ) + 1 / 2 = n - 1 / 2 := by
    push_cast
    ring
  rw [hcast] at hlt
  have heq : roundHalfEven q = n ↔ roundHalfEven q ≤ n ∧ ¬ roundHalfEven q ≤ n - 1 := by omega
  rw [heq, hle, hlt]
  unfold Vanishes
  constructor
  · rintro ⟨hup, hdown⟩
    rw [not_or, not_lt] at hdown
    rcases hup with hup | ⟨hup, heven⟩
    · rcases lt_or_eq_of_le hdown.1 with hd | hd
      · refine .inl (abs_lt.2 ⟨?_, ?_⟩) <;> linarith
      · -- a tie from below, which an odd neighbour leaves to `n`
        have hodd : ¬ (n - 1) % 2 = 0 := fun h => hdown.2 ⟨hd.symm, h⟩
        refine .inr ⟨?_, by omega⟩
        have he : q - n = -(1 / 2) := by linarith
        rw [he, abs_neg]
        norm_num
    · refine .inr ⟨?_, heven⟩
      have he : q - n = 1 / 2 := by linarith
      rw [he]
      norm_num
  · rintro (h | ⟨h, heven⟩)
    · obtain ⟨hl, hu⟩ := abs_lt.1 h
      refine ⟨.inl (by linarith), ?_⟩
      rintro (hd | ⟨hd, -⟩) <;> linarith
    · rcases (abs_eq (by norm_num)).1 h with he | he
      · refine ⟨.inr ⟨by linarith, heven⟩, ?_⟩
        rintro (hd | ⟨hd, -⟩) <;> linarith
      · refine ⟨.inl (by linarith), ?_⟩
        rintro (hd | ⟨-, hd⟩)
        · linarith
        · omega

/-- A sum of errors is the error against the sum of the rounded terms. -/
theorem sum_roundingError (l : List ℚ) : (l.map roundingError).sum = l.sum - ((l.map roundHalfEven).sum : Int) := by
  induction l with
  | nil => simp
  | cons q rest ih =>
    rw [List.map_cons, List.map_cons, List.sum_cons, List.sum_cons, List.sum_cons, ih]
    unfold roundingError
    push_cast
    ring

theorem sum_roundHalfEven_iff (l : List ℚ) : (l.map roundHalfEven).sum = roundHalfEven l.sum ↔
      Vanishes (l.map roundingError).sum (l.map roundHalfEven).sum := by
  rw [sum_roundingError, ← roundHalfEven_eq_iff]
  exact eq_comm

/-- More than half is needed to round to something. -/
theorem roundHalfEven_pos_iff (q : ℚ) : 0 < roundHalfEven q ↔ 1 / 2 < q := by
  have h := roundHalfEven_le_iff q 0
  have hnot : 0 < roundHalfEven q ↔ ¬ roundHalfEven q ≤ 0 := by omega
  rw [hnot, h]
  constructor
  · intro hn
    rw [not_or, not_lt] at hn
    have hne : q ≠ 1 / 2 := fun he => hn.2 ⟨by rw [he]; norm_num, rfl⟩
    have hge : 1 / 2 ≤ q := by
      have := hn.1
      push_cast at this
      linarith
    exact lt_of_le_of_ne hge hne.symm
  · intro hq
    rintro (hlt | ⟨he, -⟩)
    · push_cast at hlt
      linarith
    · push_cast at he
      linarith

end Kernel
