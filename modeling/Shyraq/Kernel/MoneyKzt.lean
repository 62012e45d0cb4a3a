import Mathlib.Data.Rat.Floor
import Mathlib.Tactic.Linarith
import Mathlib.Tactic.Positivity

/-!
# Money

An amount at rest, in a `numeric(12,2)` column or on the wire, is a whole number of tiyn,
an `Int`.  Chained arithmetic runs at full precision, in tenge, as a `Decimal`, and is
rounded once, half to even, at the sink.
-/

namespace Kernel

/-- A full-precision amount, in tenge. -/
abbrev Decimal := ℚ

/-- `ROUND_HALF_EVEN` to an integer. -/
def roundHalfEven (q : ℚ) : Int :=
  let f := ⌊q⌋
  if q - f < 1 / 2 then f
  else if 1 / 2 < q - f then f + 1
  else if f % 2 = 0 then f else f + 1

theorem roundHalfEven_le_add (q : ℚ) : (roundHalfEven q : ℚ) ≤ q + 1 / 2 := by
  have h₁ : (⌊q⌋ : ℚ) ≤ q := Int.floor_le q
  unfold roundHalfEven
  dsimp only
  split
  · linarith
  · split
    · push_cast
      linarith
    · split
      · linarith
      · push_cast
        linarith

theorem le_roundHalfEven_add (q : ℚ) : q ≤ (roundHalfEven q : ℚ) + 1 / 2 := by
  have h₂ : q < ⌊q⌋ + 1 := Int.lt_floor_add_one q
  unfold roundHalfEven
  dsimp only
  split
  · linarith
  · split
    · push_cast
      linarith
    · split
      · linarith
      · push_cast
        linarith

/-- Rounding keeps the order: a tie goes to the same even neighbour from both sides. -/
theorem roundHalfEven_mono {p q : ℚ} (h : p ≤ q) : roundHalfEven p ≤ roundHalfEven q := by
  have hf : ⌊p⌋ ≤ ⌊q⌋ := Int.floor_le_floor h
  have hp := Int.lt_floor_add_one p
  have hq := Int.floor_le q
  rcases Int.lt_or_eq_of_le hf with hlt | heq
  · -- a whole number lies between
    have h₁ : roundHalfEven p ≤ ⌊p⌋ + 1 := by
      unfold roundHalfEven
      dsimp only
      split_ifs <;> omega
    have h₂ : ⌊q⌋ ≤ roundHalfEven q := by
      unfold roundHalfEven
      dsimp only
      split_ifs <;> omega
    omega
  · unfold roundHalfEven
    rw [heq]
    dsimp only
    split_ifs <;> first | omega | (exfalso; linarith)

/-- A tie is rounded down to `n` only when `n` is even. -/
theorem roundHalfEven_le_iff (q : ℚ) (n : Int) :
    roundHalfEven q ≤ n ↔ q < n + 1 / 2 ∨ (q = n + 1 / 2 ∧ n % 2 = 0) := by
  by_cases htie : q = n + 1 / 2
  · have hf : ⌊q⌋ = n := by
      rw [Int.floor_eq_iff]
      constructor <;> linarith
    have hr : roundHalfEven q = if n % 2 = 0 then n else n + 1 := by
      have hd : q - n = 1 / 2 := by linarith
      simp [roundHalfEven, hf, hd]
    rw [hr]
    constructor
    · intro h
      by_cases he : n % 2 = 0
      · exact .inr ⟨htie, he⟩
      · rw [if_neg he] at h
        omega
    · rintro (h | ⟨-, he⟩)
      · linarith
      · rw [if_pos he]
  · constructor
    · intro h
      have h' : (roundHalfEven q : ℚ) ≤ n := by exact_mod_cast h
      have := le_roundHalfEven_add q
      exact .inl (lt_of_le_of_ne (by linarith) htie)
    · rintro (h | ⟨h, -⟩)
      · have hle := roundHalfEven_le_add q
        have hlt : (roundHalfEven q : ℚ) < ((n + 1 : Int) : ℚ) := by
          push_cast
          linarith
        have hlt' : roundHalfEven q < n + 1 := by exact_mod_cast hlt
        omega
      · exact absurd h htie

@[simp] theorem roundHalfEven_zero : roundHalfEven 0 = 0 := by simp [roundHalfEven]

theorem roundHalfEven_nonneg {q : ℚ} (h : 0 ≤ q) : 0 ≤ roundHalfEven q := by
  have := roundHalfEven_mono h
  rwa [roundHalfEven_zero] at this

theorem roundHalfEven_intCast (n : Int) : roundHalfEven (n : ℚ) = n := by
  unfold roundHalfEven
  simp

namespace MoneyKzt

/-- `MoneyKzt.fromKzt`: the wire number rounded to 2dp. -/
def fromKzt (n : Decimal) : Int := roundHalfEven (n * 100)

def toDecimal (m : Int) : Decimal := (m : ℚ) / 100

/-- `MoneyKzt.round`, and what a `numeric(12,2)` column keeps. -/
def round (d : Decimal) : Int := fromKzt d

/-- `MoneyKzt.roundToWholeKzt`. -/
def roundToWholeKzt (d : Decimal) : Int := 100 * roundHalfEven d

def isPositive (m : Int) : Bool := decide (0 < m)

/-- An amount at rest is rounded already. -/
theorem round_toDecimal (m : Int) : round (toDecimal m) = m := by
  have h : toDecimal m * 100 = (m : ℚ) := by
    unfold toDecimal
    ring
  unfold round fromKzt
  rw [h, roundHalfEven_intCast]

theorem round_mono {a b : Decimal} (h : a ≤ b) : round a ≤ round b :=
  roundHalfEven_mono (by linarith)

theorem round_nonneg {a : Decimal} (h : 0 ≤ a) : 0 ≤ round a :=
  roundHalfEven_nonneg (by linarith)

@[simp] theorem round_zero : round 0 = 0 := by simp [round, fromKzt]

theorem toDecimal_le {a b : Int} (h : a ≤ b) : toDecimal a ≤ toDecimal b := by
  have h' : (a : ℚ) ≤ b := by exact_mod_cast h
  unfold toDecimal
  linarith

theorem toDecimal_nonneg {a : Int} (h : 0 ≤ a) : 0 ≤ toDecimal a := by
  have h' : (0 : ℚ) ≤ a := by exact_mod_cast h
  unfold toDecimal
  positivity

end MoneyKzt

end Kernel
