import Mathlib.Order.Basic
import Mathlib.Logic.Function.Basic

/-!
# A key space whose keys expire

Strings with their values and deadlines, the deadline the time from which on a key is gone.  What a reader will be
answered later, if nobody writes, is known already, and the rules are about that.
-/

namespace Kernel

variable {A B : Type}

/-- Without a deadline the value stays. -/
structure Expiring (A : Type) where
  value : A
  expiresAt : Option Nat
  deriving DecidableEq

namespace Expiring

def alive (e : Expiring A) (now : Nat) : Bool := e.expiresAt.all fun t => decide (now < t)

/-- What a reader is answered. -/
def live (now : Nat) (o : Option (Expiring A)) : Option A := (o.filter fun e => e.alive now).map Expiring.value

theorem live_some {now : Nat} {o : Option (Expiring A)} {a : A} (h : live now o = some a) :
    ∃ e, o = some e ∧ e.alive now = true ∧ e.value = a := by
  simp only [live, Option.map_eq_some_iff, Option.filter_eq_some_iff] at h
  obtain ⟨e, ⟨he, halive⟩, ha⟩ := h
  exact ⟨e, he, halive, ha⟩

theorem live_of_alive {now : Nat} {e : Expiring A} (h : e.alive now = true) : live now (some e) = some e.value := by
  simp only [live, Option.filter_some, h, if_true, Option.map_some]

/-- Nothing comes back to life. -/
theorem alive_of_later {e : Expiring A} {now later : Nat} (hle : now ≤ later) (h : e.alive later = true) :
    e.alive now = true := by
  cases ht : e.expiresAt with
  | none => simp only [alive, ht, Option.all_none]
  | some t =>
    simp only [alive, ht, Option.all_some, decide_eq_true_eq] at h ⊢
    omega

/-- As long as `e` is there, so is `e'`. -/
def OutlivedBy (e : Expiring A) (e' : Expiring B) : Prop := ∀ now, e.alive now = true → e'.alive now = true

theorem outlivedBy_of_le {e : Expiring A} {e' : Expiring B} {t t' : Nat} (h : e.expiresAt = some t)
    (h' : e'.expiresAt = some t') (hle : t ≤ t') : e.OutlivedBy e' := by
  intro now halive
  simp only [alive, h, h', Option.all_some, decide_eq_true_eq] at halive ⊢
  omega

end Expiring

structure KeySpace (V : Type) where
  now : Nat
  keys : String → Option (Expiring V)

namespace KeySpace

variable {V : Type} (r : KeySpace V)

def empty (now : Nat) : KeySpace V := ⟨now, fun _ => none⟩

/-- What `GET` answers after a while, if nobody writes the key. -/
def getAfter (ms : Nat) (k : String) : Option V := Expiring.live (r.now + ms) (r.keys k)

/-- `GET`. -/
def get (k : String) : Option V := r.getAfter 0 k

/-- `EXISTS`. -/
def has (k : String) : Bool := (r.get k).isSome

/-- `SET`, with the time to live. -/
def set (k : String) (v : V) (ttl : Nat) : KeySpace V :=
  { r with keys := Function.update r.keys k (some ⟨v, some (r.now + ttl)⟩) }

/-- `DEL`. -/
def del (k : String) : KeySpace V := { r with keys := Function.update r.keys k none }

/-- `GETDEL`. -/
def getdel (k : String) : KeySpace V × Option V := (r.del k, r.get k)

def pass (ms : Nat) : KeySpace V := { r with now := r.now + ms }

/-- A key whose time is over is removed, sooner or later. -/
def expire (k : String) : KeySpace V := if r.has k then r else r.del k

variable {r} {k k' : String} {v : V} {ms d ttl : Nat}

@[simp] theorem getAfter_set_self : (r.set k v ttl).getAfter ms k = if ms < ttl then some v else none := by
  unfold getAfter set
  dsimp only
  rw [Function.update_self]
  by_cases h : ms < ttl
  · rw [if_pos h]
    exact Expiring.live_of_alive (by simpa [Expiring.alive] using h)
  · rw [if_neg h]
    simp [Expiring.live, Expiring.alive, h]

theorem getAfter_set_of_ne (h : k' ≠ k) : (r.set k v ttl).getAfter ms k' = r.getAfter ms k' := by
  unfold getAfter set
  dsimp only
  rw [Function.update_of_ne h]

@[simp] theorem getAfter_del_self : (r.del k).getAfter ms k = none := by
  unfold getAfter del
  dsimp only
  rw [Function.update_self]
  rfl

theorem getAfter_del_of_ne (h : k' ≠ k) : (r.del k).getAfter ms k' = r.getAfter ms k' := by
  unfold getAfter del
  dsimp only
  rw [Function.update_of_ne h]

@[simp] theorem getAfter_pass : (r.pass d).getAfter ms k = r.getAfter (d + ms) k := by
  unfold getAfter pass
  rw [Nat.add_assoc]

/-- Nothing comes back to life. -/
theorem getAfter_of_later (hle : d ≤ ms) (h : r.getAfter ms k = some v) : r.getAfter d k = some v := by
  obtain ⟨e, he, halive, rfl⟩ := Expiring.live_some h
  unfold getAfter
  rw [he]
  exact Expiring.live_of_alive (Expiring.alive_of_later (by omega) halive)

theorem getAfter_eq_none_of_later (hle : d ≤ ms) (h : r.getAfter d k = none) : r.getAfter ms k = none := by
  cases hlater : r.getAfter ms k with
  | none => rfl
  | some v =>
    rw [getAfter_of_later hle hlater] at h
    cases h

@[simp] theorem getAfter_expire : (r.expire k).getAfter ms k' = r.getAfter ms k' := by
  unfold expire
  by_cases hhas : r.has k = true
  · rw [if_pos hhas]
  · rw [if_neg hhas]
    by_cases hk : k' = k
    · subst hk
      have hnone : r.getAfter 0 k' = none := by simpa [has, get] using hhas
      rw [getAfter_del_self, getAfter_eq_none_of_later (Nat.zero_le ms) hnone]
    · exact getAfter_del_of_ne hk

theorem has_iff : r.has k = true ↔ ∃ v, r.get k = some v := Option.isSome_iff_exists

theorem has_eq_false_iff : r.has k = false ↔ r.get k = none := by
  unfold has
  rw [← Bool.not_eq_true, Option.not_isSome_iff_eq_none]

end KeySpace

end Kernel
