import Mathlib.Algebra.Order.BigOperators.Group.List
import Mathlib.Algebra.Order.Group.MinMax
import Mathlib.Tactic.Linarith
import Mathlib.Tactic.Ring

/-!
# Pouring

Amounts are poured one after the other into a room.  Each gets what it asks for, up to what
is left: the rise of the level `min room ·` from what was asked before it to what has been
asked with it.
-/

namespace Kernel

variable {K : Type} [Field K] [LinearOrder K]

/-- What each of `asks` gets, when `before` has been asked for already. -/
def pour (room before : K) : List K → List K
  | [] => []
  | ask :: rest => (min room (before + ask) - min room before) :: pour room (before + ask) rest

variable {room before : K} {asks : List K}

@[simp] theorem length_pour : (pour room before asks).length = asks.length := by
  induction asks generalizing before with
  | nil => rfl
  | cons ask rest ih => simp [pour, ih]

variable [IsStrictOrderedRing K]

theorem pour_nonneg (hasks : ∀ ask ∈ asks, 0 ≤ ask) : ∀ got ∈ pour room before asks, 0 ≤ got := by
  induction asks generalizing before with
  | nil => intro got h; cases h
  | cons ask rest ih =>
    intro got h
    rcases List.mem_cons.1 h with rfl | h
    · have hask := hasks ask List.mem_cons_self
      exact sub_nonneg.2 (min_le_min_left room (by linarith))
    · exact ih (fun a ha => hasks a (List.mem_cons_of_mem ask ha)) got h

/-- A full room takes nothing more. -/
theorem pour_full (hfull : room ≤ before) (hasks : ∀ ask ∈ asks, 0 ≤ ask) :
    ∀ got ∈ pour room before asks, got = 0 := by
  induction asks generalizing before with
  | nil => intro got h; cases h
  | cons ask rest ih =>
    intro got h
    have hask := hasks ask List.mem_cons_self
    rcases List.mem_cons.1 h with rfl | h
    · rw [min_eq_left (by linarith), min_eq_left hfull, sub_self]
    · exact ih (by linarith) (fun a ha => hasks a (List.mem_cons_of_mem ask ha)) got h

theorem rise_eq (ask : K) : min room (before + ask) - before = min ask (room - before) := by
  rw [min_comm, ← min_sub_sub_right, add_sub_cancel_left]

end Kernel
