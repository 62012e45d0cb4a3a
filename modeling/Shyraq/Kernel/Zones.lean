import Mathlib.Data.Int.Basic
import Mathlib.Tactic.ByContra

/-!
# Time zones

A zone gives every second its offset from UTC; the offset is at most 14 hours and changes at moments
that lie more than 48 hours apart.  `solve` looks for the second with a given wall clock: one guess
and one refinement find it wherever there is one.

    z.wall u = wall → z.wall (z.solve wall) = wall                                   (Zone.wall_solve)
-/

namespace Kernel

/-- Seconds since the epoch, and seconds east of Greenwich. -/
structure Zone where
  offsetAt : Int → Int
  bounded : ∀ s, -50400 ≤ offsetAt s ∧ offsetAt s ≤ 50400
  spaced : ∀ s u, s < u → offsetAt (s - 1) ≠ offsetAt s → offsetAt (u - 1) ≠ offsetAt u → 172800 < u - s

namespace Zone

/-- The same offset all the time. -/
def fixed (offset : Int) (h : -50400 ≤ offset ∧ offset ≤ 50400) : Zone where
  offsetAt := fun _ => offset
  bounded := fun _ => h
  spaced := fun _ _ _ hs => absurd rfl hs

variable (z : Zone)

/-- The wall clock at a second, read as if it were UTC. -/
def wall (s : Int) : Int := s + z.offsetAt s

/-- The wall clock minus the offset at that second, and once more with the offset found there. -/
def solve (wall : Int) : Int := wall - z.offsetAt (wall - z.offsetAt wall)

/-- No two changes within so many seconds. -/
def SpacedBy (n : Int) : Prop :=
  ∀ s u, s < u → z.offsetAt (s - 1) ≠ z.offsetAt s → z.offsetAt (u - 1) ≠ z.offsetAt u → n < u - s

variable {z} {n lo hi : Int}

/-- Without a change in between, the offset stays. -/
theorem offsetAt_eq {s u : Int} (hsu : s ≤ u) (h : ∀ v, s < v → v ≤ u → z.offsetAt (v - 1) = z.offsetAt v) :
    z.offsetAt u = z.offsetAt s := by
  obtain ⟨k, rfl⟩ := Int.le.dest hsu
  induction k with
  | zero => simp
  | succ k ih =>
    have hlast := h (s + (k + 1 : Nat)) (by omega) (Int.le_refl _)
    have hprev := ih (by omega) fun v hv hv' => h v hv (by omega)
    have hpred : s + ((k + 1 : Nat) : Int) - 1 = s + (k : Int) := by omega
    rw [← hlast, hpred, hprev]

/-- In a short window the offset changes at most once. -/
theorem SpacedBy.two_sided (hz : z.SpacedBy n) (hwindow : hi - lo ≤ n) :
    ∃ c a b, ∀ v, lo ≤ v → v ≤ hi → (v < c ∧ z.offsetAt v = a) ∨ (c ≤ v ∧ z.offsetAt v = b) := by
  by_cases hchange : ∃ c, lo < c ∧ c ≤ hi ∧ z.offsetAt (c - 1) ≠ z.offsetAt c
  · obtain ⟨c, hlow, hhigh, hc⟩ := hchange
    have honly : ∀ v, lo < v → v ≤ hi → v ≠ c → z.offsetAt (v - 1) = z.offsetAt v := by
      intro v hv hv' hne
      by_contra hd
      rcases Int.lt_or_gt_of_ne hne with hlt | hgt
      · have := hz v c hlt hd hc
        omega
      · have := hz c v hgt hc hd
        omega
    refine ⟨c, z.offsetAt (c - 1), z.offsetAt c, fun v hv hv' => ?_⟩
    by_cases hside : v < c
    · refine .inl ⟨hside, ?_⟩
      have hkeep : z.offsetAt (c - 1) = z.offsetAt v :=
        offsetAt_eq (by omega) fun w hw hw' => honly w (by omega) (by omega) (by omega)
      exact hkeep.symm
    · refine .inr ⟨by omega, ?_⟩
      exact offsetAt_eq (by omega) fun w hw hw' => honly w (by omega) (by omega) (by omega)
  · refine ⟨lo, z.offsetAt lo, z.offsetAt lo, fun v hv hv' => .inr ⟨hv, ?_⟩⟩
    refine offsetAt_eq hv fun w hw hw' => ?_
    by_contra hd
    exact hchange ⟨w, hw, by omega, hd⟩

theorem spacedBy (z : Zone) : z.SpacedBy 172800 := z.spaced

/-- What some second shows, `solve` finds. -/
theorem wall_solve {u wall : Int} (h : z.wall u = wall) : z.wall (z.solve wall) = wall := by
  unfold Zone.wall at h
  unfold Zone.wall solve
  have hu := z.bounded u
  have h₀ := z.bounded wall
  have h₁ := z.bounded (wall - z.offsetAt wall)
  have hwindow : wall + 50400 - (wall - 50400) ≤ 172800 := by omega
  obtain ⟨c, a, b, hc⟩ := z.spacedBy.two_sided hwindow
  have su := hc u (by omega) (by omega)
  have s₀ := hc wall (by omega) (by omega)
  have s₁ := hc (wall - z.offsetAt wall) (by omega) (by omega)
  have s₂ := hc (wall - z.offsetAt (wall - z.offsetAt wall)) (by omega) (by omega)
  -- of the offsets at `u`, at the wall clock and at the guess, two agree
  omega

/-- Where the zone is half a day ahead or more near a wall clock, the same time of the day after is
shown at another wall clock. -/
theorem wall_solve_dayAfter (hz : z.SpacedBy 180000) {wall noon : Int} (hnear : wall - 43200 < noon)
    (hnear' : noon ≤ wall + 43200) (hahead : 43200 ≤ z.offsetAt noon) : z.wall (z.solve (wall + 86400)) ≠ wall := by
  unfold Zone.wall solve
  have h := z.bounded (wall + 86400)
  have h₀ := z.bounded (wall + 86400 - z.offsetAt (wall + 86400))
  have h₁ := z.bounded (wall + 86400 - z.offsetAt (wall + 86400 - z.offsetAt (wall + 86400)))
  have hwindow : wall + 136800 - (wall - 43200) ≤ 180000 := by omega
  obtain ⟨c, a, b, hc⟩ := hz.two_sided hwindow
  intro hback
  have sn := hc noon (by omega) (by omega)
  have s := hc (wall + 86400) (by omega) (by omega)
  have s₀ := hc (wall + 86400 - z.offsetAt (wall + 86400)) (by omega) (by omega)
  have s₁ := hc (wall + 86400 - z.offsetAt (wall + 86400 - z.offsetAt (wall + 86400))) (by omega) (by omega)
  omega

/-- Where it is more than half a day behind, the same time of the day before is. -/
theorem wall_solve_dayBefore (hz : z.SpacedBy 180000) {wall noon : Int} (hnear : wall - 43200 < noon)
    (hnear' : noon ≤ wall + 43200) (hbehind : z.offsetAt noon < -43200) : z.wall (z.solve (wall - 86400)) ≠ wall := by
  unfold Zone.wall solve
  have h := z.bounded (wall - 86400)
  have h₀ := z.bounded (wall - 86400 - z.offsetAt (wall - 86400))
  have h₁ := z.bounded (wall - 86400 - z.offsetAt (wall - 86400 - z.offsetAt (wall - 86400)))
  have hwindow : wall + 43200 - (wall - 136800) ≤ 180000 := by omega
  obtain ⟨c, a, b, hc⟩ := hz.two_sided hwindow
  intro hback
  have sn := hc noon (by omega) (by omega)
  have s := hc (wall - 86400) (by omega) (by omega)
  have s₀ := hc (wall - 86400 - z.offsetAt (wall - 86400)) (by omega) (by omega)
  have s₁ := hc (wall - 86400 - z.offsetAt (wall - 86400 - z.offsetAt (wall - 86400))) (by omega) (by omega)
  omega

end Zone

end Kernel
