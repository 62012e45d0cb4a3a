import Shyraq.Kernel.DateTimeInput

/-!
# Where the zone arithmetic holds

The day of a text without a zone is taken from what the zone shows at noon UTC.  Half a day ahead of
UTC that is the next day, and more than half a day behind it the day before.
-/

namespace Kernel

/-- A time of the day as the source takes it, and its seconds. -/
def WallClock (time : List Char) (seconds : Int) : Prop :=
  ∃ hours minutes secs : Nat, matchWallClock time = some (hours, minutes, secs) ∧ hours ≤ 23 ∧ minutes ≤ 59 ∧
    secs ≤ 59 ∧ seconds = hours * 3600 + minutes * 60 + secs

namespace Zone

variable (z : Zone)

/-- The instant that is found reads the day of `date` and the time of the day, to the millisecond. -/
def Combined (date : Int) (time : List Char) (seconds : Int) : Prop :=
  ∃ r, z.combineDateAndTimeInTimezone date time = .ok r ∧ r % 1000 = 0 ∧
    z.wallOf r = 86400 * z.dayAt date + seconds

def WholeMinutes : Prop := ∀ s, z.offsetAt s % 60 = 0

/-- The text of an instant without its zone is read as an instant with the same wall clock. -/
def ParsesBack (t : Int) : Prop :=
  ∃ r, z.parseDateTimeInput (z.zonelessText t) = .ok r ∧ r % 1000 = 0 ∧ z.wallOf r = z.wallOf t

/-- The zone shows the day `d` at noon UTC of it. -/
def NoonInside (d : Int) : Prop :=
  -43200 ≤ z.offsetAt (86400 * d + 43200) ∧ z.offsetAt (86400 * d + 43200) < 43200

variable {z}

theorem wallOf_ofSeconds (s : Int) : z.wallOf (1000 * s) = z.wall s := by
  unfold wallOf
  rw [Int.mul_ediv_cancel_left _ (by decide)]

/-- Where a wall clock is shown at all, the day and the time find it, in every year from 101 on. -/
theorem combined_of_shown {date seconds : Int} {time : List Char} (htime : WallClock time seconds)
    (hshown : ∃ u, z.wallOf u = 86400 * z.dayAt date + seconds) (hyear : 101 ≤ yearOf (z.dayAt date)) :
    z.Combined date time seconds := by
  obtain ⟨hours, minutes, secs, hmatch, hh, hm, hs, rfl⟩ := htime
  obtain ⟨u, hu⟩ := hshown
  refine ⟨_, combineDateAndTimeInTimezone_eq hmatch hh hm hs hyear, by omega, ?_⟩
  rw [wallOf_ofSeconds]
  exact wall_solve hu

/-- A two-digit year is read as one of the twentieth century. -/
theorem not_combined {date seconds : Int} {time : List Char} (htime : WallClock time seconds)
    (h₀ : 1 ≤ yearOf (z.dayAt date)) (h₁ : yearOf (z.dayAt date) < 100) : ¬z.Combined date time seconds := by
  obtain ⟨hours, minutes, secs, hmatch, hh, hm, hs, rfl⟩ := htime
  rintro ⟨r, hr, -, hwall⟩
  have hvalid : ¬(hours > 23 ∨ minutes > 59 ∨ secs > 59) := by omega
  have hyears : intlYear (yearOf (z.dayAt date)) = yearOf (z.dayAt date) := if_pos (by omega)
  have htwo : 0 ≤ yearOf (z.dayAt date) ∧ yearOf (z.dayAt date) ≤ 99 := by omega
  have hm := utcMonth_bounds (z.dayAt date)
  have hd := dayOfMonth_bounds (z.dayAt date)
  have hspec := monthOf_spec (z.dayAt date)
  have hlate : monthStart 22800 ≤ monthStart (12 * (1900 + yearOf (z.dayAt date)) + (utcMonth (z.dayAt date) + 1 - 1)) :=
    monthStart_le (by omega)
  have hearly : monthStart (monthOf (z.dayAt date) + 1) ≤ monthStart 1200 := by
    refine monthStart_le ?_
    unfold yearOf at h₁
    omega
  have hgap : monthStart 1212 ≤ monthStart 22800 ∧ monthStart 1200 + 10 ≤ monthStart 22800 := by decide
  generalize hL : dateUTC (intlYear (yearOf (z.dayAt date))) (utcMonth (z.dayAt date) + 1)
    (dayOfMonth (z.dayAt date) + 1) (hours * 3600 + minutes * 60 + secs) = L at *
  have hlow : 86400 * monthStart 22800 ≤ L := by
    rw [← hL, hyears]
    unfold dateUTC dayOf
    rw [if_pos htwo]
    omega
  unfold combineDateAndTimeInTimezone at hr
  rw [hmatch] at hr
  dsimp only at hr
  rw [if_neg hvalid, hL, solved (by omega)] at hr
  cases hr
  rw [wallOf_ofSeconds] at hwall
  have b₀ := z.bounded L
  have b₁ := z.bounded (L - z.offsetAt L)
  have b₂ := z.bounded (z.solve L)
  unfold wall solve at hwall
  unfold solve at b₂
  omega

theorem parsesBack_of_noonInside {t : Int} (h₀ : 1000 ≤ yearOf (z.dayAt t)) (h₁ : yearOf (z.dayAt t) ≤ 9999)
    (hnoon : z.NoonInside (z.dayAt t)) : z.ParsesBack t := by
  refine ⟨_, parseDateTimeInput_zonelessText h₀ h₁, by omega, ?_⟩
  have hday : z.wall (86400 * z.dayAt t + 43200) / 86400 = z.dayAt t := by
    obtain ⟨hlow, hhigh⟩ := hnoon
    unfold wall
    omega
  have hwhole : 86400 * z.dayAt t + z.wallOf t % 86400 = z.wallOf t := by
    unfold dayAt
    omega
  rw [hday, hwhole, wallOf_ofSeconds]
  exact wall_solve rfl

theorem noonInside_of_parsesBack (hz : z.SpacedBy 180000) {t : Int} (h₀ : 1000 ≤ yearOf (z.dayAt t))
    (h₁ : yearOf (z.dayAt t) ≤ 9999) (h : z.ParsesBack t) : z.NoonInside (z.dayAt t) := by
  obtain ⟨r, hr, -, hwall⟩ := h
  rw [parseDateTimeInput_zonelessText h₀ h₁] at hr
  cases hr
  rw [wallOf_ofSeconds] at hwall
  have hb := z.bounded (86400 * z.dayAt t + 43200)
  have hwhole : 86400 * z.dayAt t + z.wallOf t % 86400 = z.wallOf t := by
    unfold dayAt
    omega
  have hnear : z.wallOf t - 43200 < 86400 * z.dayAt t + 43200 ∧ 86400 * z.dayAt t + 43200 ≤ z.wallOf t + 43200 := by
    omega
  by_contra hout
  unfold NoonInside at hout
  by_cases hahead : 43200 ≤ z.offsetAt (86400 * z.dayAt t + 43200)
  · have hday : z.wall (86400 * z.dayAt t + 43200) / 86400 = z.dayAt t + 1 := by
      unfold wall
      omega
    have hnext : 86400 * (z.dayAt t + 1) + z.wallOf t % 86400 = z.wallOf t + 86400 := by omega
    rw [hday, hnext] at hwall
    exact wall_solve_dayAfter hz hnear.1 hnear.2 hahead hwall
  · have hday : z.wall (86400 * z.dayAt t + 43200) / 86400 = z.dayAt t - 1 := by
      unfold wall
      omega
    have hprev : 86400 * (z.dayAt t - 1) + z.wallOf t % 86400 = z.wallOf t - 86400 := by omega
    rw [hday, hprev] at hwall
    exact wall_solve_dayBefore hz hnear.1 hnear.2 (by omega) hwall

/-- `Asia/Almaty`. -/
def almaty : Zone := fixed 18000 (by decide)

/-- `Pacific/Tongatapu`, 13 hours ahead of UTC. -/
def tongatapu : Zone := fixed 46800 (by decide)

end Zone

end Kernel
