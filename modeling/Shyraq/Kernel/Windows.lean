import Mathlib.Order.Lattice
import Mathlib.Data.Option.Basic

/-!
# Validity windows

A window runs from `start` to `stop`, both included; without a `stop` it is open-ended.
-/

namespace Kernel

structure Window (α : Type) where
  start : α
  stop : Option α
  deriving DecidableEq

namespace Window

variable {α : Type} [LinearOrder α]

/-- The point lies in the window. -/
def Covers (w : Window α) (d : α) : Prop := w.start ≤ d ∧ ∀ u ∈ w.stop, d ≤ u

/-- The window does not end before it starts. -/
def Ordered (w : Window α) : Prop := ∀ u ∈ w.stop, w.start ≤ u

instance (w : Window α) : Decidable w.Ordered := inferInstanceAs (Decidable (∀ _ ∈ _, _))

/-- No point lies in both. -/
def Apart (a b : Window α) : Prop := ∀ d, a.Covers d → ¬ b.Covers d

variable {a b : Window α}

theorem Apart.symm (h : Apart a b) : Apart b a := fun d hb ha => h d ha hb

/-- `a1 <= b2 AND b1 <= a2`, with no end as the largest one. -/
def overlaps (a b : Window α) : Bool :=
  b.stop.all (fun u => decide (a.start ≤ u)) && a.stop.all fun u => decide (b.start ≤ u)

theorem overlaps_iff : a.overlaps b = true ↔ (∀ u ∈ b.stop, a.start ≤ u) ∧ ∀ u ∈ a.stop, b.start ≤ u := by
  simp only [overlaps, Bool.and_eq_true, Option.all_eq_true, decide_eq_true_eq, Option.mem_def]

/-- A common point makes them overlap. -/
theorem overlaps_of_covers {d : α} (ha : a.Covers d) (hb : b.Covers d) : a.overlaps b = true := by
  rw [overlaps_iff]
  constructor
  · intro u hu
    exact ha.1.trans (hb.2 u hu)
  · intro u hu
    exact hb.1.trans (ha.2 u hu)

theorem apart_of_overlaps (h : a.overlaps b = false) : Apart a b := by
  intro d ha hb
  rw [overlaps_of_covers ha hb] at h
  cases h

/-- The one ends no later than the other. -/
def endsBy (stop stop' : Option α) : Prop := ∀ u' ∈ stop', ∃ u ∈ stop, u ≤ u'

theorem endsBy_refl (stop : Option α) : endsBy stop stop := fun u hu => ⟨u, hu, le_refl u⟩

theorem endsBy_trans {s₁ s₂ s₃ : Option α} (h₁ : endsBy s₁ s₂) (h₂ : endsBy s₂ s₃) : endsBy s₁ s₃ := by
  intro u₃ hu₃
  obtain ⟨u₂, hu₂, hle₂⟩ := h₂ u₃ hu₃
  obtain ⟨u₁, hu₁, hle₁⟩ := h₁ u₂ hu₂
  exact ⟨u₁, hu₁, hle₁.trans hle₂⟩

/-- Part of the other window, cut off at its end. -/
structure Within (a b : Window α) : Prop where
  start : a.start = b.start
  stop : endsBy a.stop b.stop

theorem Within.refl (a : Window α) : Within a a := ⟨rfl, endsBy_refl _⟩

theorem Within.trans {c : Window α} (h₁ : Within a b) (h₂ : Within b c) : Within a c :=
  ⟨h₁.start.trans h₂.start, endsBy_trans h₁.stop h₂.stop⟩

theorem Within.covers (h : Within a b) {d : α} (hd : a.Covers d) : b.Covers d := by
  refine ⟨h.start ▸ hd.1, fun u hu => ?_⟩
  obtain ⟨v, hv, hle⟩ := h.stop u hu
  exact (hd.2 v hv).trans hle

/-- What is apart from a window is apart from each part of it. -/
theorem Apart.within {a' b' : Window α} (h : Apart a b) (ha : Within a' a) (hb : Within b' b) :
    Apart a' b' := fun d hd hd' => h d (ha.covers hd) (hb.covers hd')

end Window

end Kernel
