import Mathlib.Tactic.IntervalCases

/-!
# Days and months

All three are integers: a day is a UTC calendar day counted from 1970-01-01, an instant a
number of milliseconds since then, a month the number `12 * year + (month - 1)`.  Years
are counted from March inside `monthStart`, so that the leap day ends the year.  Weeks are
ISO weeks, anchored in UTC.
-/

namespace Kernel

def msPerDay : Int := 86400000

/-- First day of a month. -/
def monthStart (k : Int) : Int :=
  let y := (k - 2) / 12
  let m := (k - 2) % 12
  365 * y + y / 4 - y / 100 + y / 400 + (153 * m + 2) / 5 - 719468

/-- The month a day falls in: a linear estimate, one off at most. -/
def monthOf (d : Int) : Int :=
  let k := (4800 * (d + 719468)) / 146097 + 2
  if d < monthStart k then k - 1
  else if monthStart (k + 1) ≤ d then k + 1
  else k

/-- Days of the month already gone by. -/
def dayOfMonth (d : Int) : Int := d - monthStart (monthOf d)

/-- `getUTCMonth`. -/
def utcMonth (d : Int) : Int := monthOf d % 12

/-- The UTC day of an instant, `toISOString().slice(0, 10)`. -/
def utcDay (t : Int) : Int := t / msPerDay

/-- `Asia/Almaty`, UTC+5 all year round. -/
def almatyOffsetMs : Int := 18000000

/-- `formatDateInTimezone`. -/
def formatDateInTimezone (t : Int) : Int := (t + almatyOffsetMs) / msPerDay

/-- `firstOfMonthInTimezone`: the local month, as a UTC-midnight anchor. -/
def firstOfMonthInTimezone (t : Int) : Int := monthStart (monthOf (formatDateInTimezone t))

def endOfMonth (d : Int) : Int := monthStart (monthOf d + 1) - 1

/-- `Date.UTC(y, m + months, day)`: a day past the end of the month runs over. -/
def addMonthsUtc (d : Int) (months : Int) : Int := monthStart (monthOf d + months) + dayOfMonth d

/-- `Math.round` of the distance of two instants in days, both ends counted. -/
def daysBetweenInclusive (start stop : Int) : Int :=
  (2 * (stop - start) + msPerDay) / (2 * msPerDay) + 1

/-- The UTC midnight that starts a day. -/
def midnight (d : Int) : Int := d * msPerDay

/-- Whole months from one day to another, negative before it. -/
def wholeMonths (start stop : Int) : Int :=
  let months := monthOf stop - monthOf start
  if dayOfMonth stop < dayOfMonth start then months - 1 else months

/-- Leap days up to year `y`, counted from March. -/
theorem leapDays_succ (y : Int) : y / 4 - y / 100 + y / 400 ≤ (y + 1) / 4 - (y + 1) / 100 + (y + 1) / 400 ∧
    (y + 1) / 4 - (y + 1) / 100 + (y + 1) / 400 ≤ y / 4 - y / 100 + y / 400 + 1 := by
  have h100 : ∀ z : Int, z / 100 = z / 4 / 25 := fun z => by omega
  have h400 : ∀ z : Int, z / 400 = z / 4 / 25 / 4 := fun z => by omega
  rw [h100, h100 (y + 1), h400, h400 (y + 1)]
  omega

theorem monthStart_eq (y m : Int) (h0 : 0 ≤ m) (h1 : m < 12) : monthStart (12 * y + m + 2) =
      365 * y + (y / 4 - y / 100 + y / 400) + (153 * m + 2) / 5 - 719468 := by
  have hy : (12 * y + m + 2 - 2) / 12 = y := by omega
  have hm : (12 * y + m + 2 - 2) % 12 = m := by omega
  unfold monthStart
  simp only [hy, hm]
  omega

/-- A month has 28 to 31 days. -/
theorem monthStart_succ (k : Int) :
    monthStart k + 28 ≤ monthStart (k + 1) ∧ monthStart (k + 1) ≤ monthStart k + 31 := by
  obtain ⟨y, m, h0, h1, rfl⟩ : ∃ y m : Int, 0 ≤ m ∧ m < 12 ∧ k = 12 * y + m + 2 :=
    ⟨(k - 2) / 12, (k - 2) % 12, by omega, by omega, by omega⟩
  rw [monthStart_eq y m h0 h1]
  by_cases hm : m = 11
  · -- February: the year counted from March ends here
    have hk : 12 * y + m + 2 + 1 = 12 * (y + 1) + 0 + 2 := by omega
    rw [hk, monthStart_eq (y + 1) 0 (by omega) (by omega)]
    have := leapDays_succ y
    omega
  · have hk : 12 * y + m + 2 + 1 = 12 * y + (m + 1) + 2 := by omega
    rw [hk, monthStart_eq y (m + 1) (by omega) (by omega)]
    omega

theorem monthStart_lt {j k : Int} (h : j < k) : monthStart j < monthStart k := by
  obtain ⟨n, rfl⟩ : ∃ n : Nat, k = j + 1 + n := ⟨(k - j - 1).toNat, by omega⟩
  induction n with
  | zero =>
    have := monthStart_succ j
    have hz : j + 1 + ((0 : Nat) : Int) = j + 1 := by omega
    rw [hz]
    omega
  | succ n ih =>
    have h₁ := ih (by omega)
    have h₂ := monthStart_succ (j + 1 + n)
    have hn : j + 1 + ((n + 1 : Nat) : Int) = j + 1 + n + 1 := by omega
    rw [hn]
    omega

theorem monthStart_le {j k : Int} (h : j ≤ k) : monthStart j ≤ monthStart k := by
  rcases Int.lt_or_eq_of_le h with h | h
  · have := monthStart_lt h
    omega
  · rw [h]

/-- The day 0 of month `k` is within two days of the average month length. -/
theorem monthStart_bounds (k : Int) : 146097 * (k - 2) ≤ 4800 * (monthStart k + 719468) + 14400 ∧
    4800 * (monthStart k + 719468) ≤ 146097 * (k - 2) + 14400 := by
  obtain ⟨y, m, h0, h1, rfl⟩ : ∃ y m : Int, 0 ≤ m ∧ m < 12 ∧ k = 12 * y + m + 2 :=
    ⟨(k - 2) / 12, (k - 2) % 12, by omega, by omega, by omega⟩
  rw [monthStart_eq y m h0 h1]
  omega

/-- `monthOf` finds the month of a day. -/
theorem monthOf_spec (d : Int) : monthStart (monthOf d) ≤ d ∧ d < monthStart (monthOf d + 1) := by
  unfold monthOf
  simp only
  generalize hk : (4800 * (d + 719468)) / 146097 + 2 = k
  have b₀ := monthStart_bounds (k - 1)
  have b₁ := monthStart_bounds (k + 2)
  split
  · have hk1 : k - 1 + 1 = k := by omega
    rw [hk1]
    omega
  · split
    · have hk2 : k + 1 + 1 = k + 2 := by omega
      rw [hk2]
      omega
    · omega

theorem monthOf_eq {d : Int} {k : Int} (h0 : monthStart k ≤ d) (h1 : d < monthStart (k + 1)) : monthOf d = k := by
  obtain ⟨h2, h3⟩ := monthOf_spec d
  by_contra hne
  rcases Int.lt_or_gt_of_ne hne with h | h
  · have := monthStart_le (show monthOf d + 1 ≤ k by omega)
    omega
  · have := monthStart_le (show k + 1 ≤ monthOf d by omega)
    omega

@[simp] theorem monthOf_monthStart (k : Int) : monthOf (monthStart k) = k :=
  monthOf_eq (Int.le_refl _) (monthStart_lt (by omega))

theorem endOfMonth_monthStart (k : Int) : endOfMonth (monthStart k) = monthStart (k + 1) - 1 := by
  unfold endOfMonth
  rw [monthOf_monthStart]

theorem dayOfMonth_monthStart (k : Int) : dayOfMonth (monthStart k) = 0 := by
  unfold dayOfMonth
  rw [monthOf_monthStart]
  omega

theorem addMonthsUtc_monthStart (k n : Int) : addMonthsUtc (monthStart k) n = monthStart (k + n) := by
  unfold addMonthsUtc
  rw [dayOfMonth_monthStart, monthOf_monthStart]
  omega

theorem monthStart_add (k : Int) (n : Nat) : monthStart k + 28 * n ≤ monthStart (k + n) := by
  induction n with
  | zero => simp
  | succ n ih =>
    have := monthStart_succ (k + n)
    have hn : k + ((n + 1 : Nat) : Int) = k + n + 1 := by omega
    rw [hn]
    omega

example : monthStart (12 * 2026 + 1) = utcDay 1769904000000 := by decide

/-! ## ISO weeks

Instants in milliseconds, weeks anchored in UTC.  A wall-clock time is its seconds since midnight; a text
that is no time of day is a number from 86400 on.
-/

def startOfUtcDay (t : Int) : Int := midnight (utcDay t)

/-- `isoWeekdayOf(t, 'UTC')`: 1970-01-01 was a Thursday. -/
def isoWeekdayOf (t : Int) : Int := (utcDay t + 3) % 7 + 1

/-- The Monday of the ISO week. -/
def startOfIsoWeek (t : Int) : Int :=
  let dayStart := startOfUtcDay t
  dayStart - (isoWeekdayOf dayStart - 1) * msPerDay

def msPerWeek : Int := 7 * msPerDay

/-- The nearest Monday. -/
def normalizeSnapshotWeekStart (t : Int) : Int :=
  let mondayAtOrBefore := startOfIsoWeek t
  let followingMonday := mondayAtOrBefore + msPerWeek
  if t - mondayAtOrBefore ≤ followingMonday - t then mondayAtOrBefore else followingMonday

/-- `combineDateAndTimeInTimezone`: a wall clock on the local day of an instant. -/
def combineDateAndTime (date : Int) (time : Nat) : Int :=
  midnight (formatDateInTimezone date) + time * 1000 - almatyOffsetMs

/-- The UTC midnight of a Monday. -/
def IsMonday (t : Int) : Prop := t % msPerWeek = 4 * msPerDay

instance (t : Int) : Decidable (IsMonday t) := inferInstanceAs (Decidable (_ = _))

/-! ## The length of a month

`monthStart` against the leap year rule as the source writes it.
-/

/-- `(y % 4 === 0 && y % 100 !== 0) || y % 400 === 0`. -/
def isLeapYear (y : Int) : Bool := (y % 4 == 0 && y % 100 != 0) || y % 400 == 0

/-- Months count from 1. -/
def daysInMonth (y m : Int) : Int :=
  if m = 2 then if isLeapYear y then 29 else 28
  else if m = 4 ∨ m = 6 ∨ m = 9 ∨ m = 11 then 30
  else 31

/-- The leap days up to the years counted from March: one more after a leap February. -/
theorem isLeapYear_iff (y : Int) : isLeapYear y = true ↔
    y / 4 - y / 100 + y / 400 = (y - 1) / 4 - (y - 1) / 100 + (y - 1) / 400 + 1 := by
  unfold isLeapYear
  simp only [Bool.or_eq_true, Bool.and_eq_true, beq_iff_eq, bne_iff_ne]
  omega

theorem leapDays_of_not_leap {y : Int} (h : isLeapYear y = false) :
    y / 4 - y / 100 + y / 400 = (y - 1) / 4 - (y - 1) / 100 + (y - 1) / 400 := by
  have hno : ¬isLeapYear y = true := by simp [h]
  rw [isLeapYear_iff] at hno
  have hsucc := leapDays_succ (y - 1)
  have hy : y - 1 + 1 = y := by omega
  rw [hy] at hsucc
  omega

/-- From March on the lengths are those of the linear term in `monthStart`. -/
theorem length_fromMarch (y m : Int) (h₁ : 3 ≤ m) (h₂ : m ≤ 12) :
    (153 * (m - 2) + 2) / 5 = (153 * (m - 3) + 2) / 5 + daysInMonth y m := by
  interval_cases m <;> rfl

/-- The months 1 to 12 of year `y`. -/
theorem monthLength (y m : Int) (h₁ : 1 ≤ m) (h₂ : m ≤ 12) :
    monthStart (12 * y + (m - 1) + 1) = monthStart (12 * y + (m - 1)) + daysInMonth y m := by
  by_cases hm : 3 ≤ m
  · have hk : 12 * y + (m - 1) = 12 * y + (m - 3) + 2 := by omega
    have hk' : 12 * y + (m - 3) + 2 + 1 = 12 * y + (m - 2) + 2 := by omega
    rw [hk, hk', monthStart_eq y (m - 3) (by omega) (by omega), monthStart_eq y (m - 2) (by omega) (by omega)]
    have := length_fromMarch y m hm h₂
    omega
  · -- January and February end the year counted from March
    have hk : 12 * y + (m - 1) = 12 * (y - 1) + (m + 9) + 2 := by omega
    rw [hk, monthStart_eq (y - 1) (m + 9) (by omega) (by omega)]
    by_cases hfeb : m = 2
    · have hk' : 12 * (y - 1) + (m + 9) + 2 + 1 = 12 * y + 0 + 2 := by omega
      rw [hk', monthStart_eq y 0 (by omega) (by omega)]
      unfold daysInMonth
      rw [if_pos hfeb]
      cases hleap : isLeapYear y with
      | true =>
        have := (isLeapYear_iff y).1 hleap
        simp only [if_true]
        omega
      | false =>
        have := leapDays_of_not_leap hleap
        simp only [Bool.false_eq_true, if_false]
        omega
    · have hjan : m = 1 := by omega
      subst hjan
      have hk' : 12 * (y - 1) + (1 + 9) + 2 + 1 = 12 * (y - 1) + 11 + 2 := by omega
      rw [hk', monthStart_eq (y - 1) 11 (by omega) (by omega)]
      have hlen : daysInMonth y 1 = 31 := rfl
      rw [hlen]
      omega

end Kernel
