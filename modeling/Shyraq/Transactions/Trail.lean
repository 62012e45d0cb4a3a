import Mathlib.Data.List.Chain
import Shyraq.Transactions.Table

/-!
# Trails of changes

An entry says what a row was and what it has become.  The trail of a row is told truly when each entry
goes on where the one before has ended, and the last one has ended in the row as it is stored.
-/

namespace Transactions

variable {T V R : Type} {before after : T → V}

def Trail (before after : T → V) (l : List T) (stored : V) : Prop :=
  l.IsChain (fun a b => before b = after a) ∧ ∀ a ∈ l.getLast?, after a = stored

instance [DecidableEq V] (l : List T) (stored : V) : Decidable (Trail before after l stored) :=
  inferInstanceAs (Decidable (l.IsChain (fun a b => before b = after a) ∧ ∀ a ∈ l.getLast?, after a = stored))

theorem trail_nil (stored : V) : Trail before after [] stored :=
  ⟨List.isChain_nil, fun _ h => by cases h⟩

theorem trail_snoc {l : List T} {a : T} {stored : V} :
    Trail before after (l ++ [a]) stored ↔ Trail before after l (before a) ∧ after a = stored := by
  unfold Trail
  rw [List.isChain_append]
  constructor
  · rintro ⟨⟨hl, -, hjoin⟩, hlast⟩
    refine ⟨⟨hl, fun b hb => ?_⟩, hlast a (by simp)⟩
    exact (hjoin b hb a (by simp)).symm
  · rintro ⟨⟨hl, hjoin⟩, hlast⟩
    refine ⟨⟨hl, List.isChain_singleton a, fun b hb c hc => ?_⟩, fun c hc => ?_⟩
    · obtain rfl : a = c := by simpa using hc
      exact (hjoin b hb).symm
    · obtain rfl : a = c := by simpa using hc
      exact hlast

/-- What the row is turned into without an entry. -/
theorem Trail.untold {l : List T} {stored stored' : V} (h : Trail before after l stored) :
    Trail before after l stored' ↔ l = [] ∨ stored' = stored := by
  constructor
  · intro h'
    by_cases hl : l = []
    · exact .inl hl
    · have hlast := List.getLast?_eq_some_getLast hl
      exact .inr ((h'.2 _ hlast).symm.trans (h.2 _ hlast))
  · rintro (rfl | rfl)
    · exact trail_nil stored'
    · exact h

namespace Table

variable [Row R]

/-- Every row of the table has its trail. -/
def Trailed (before after : T → V) (trail : Nat → List T) (stored : R → V) (l : List R) : Prop :=
  ∀ i r, find l i = some r → Trail before after (trail i) (stored r)

variable {trail trail' : Nat → List T} {stored : R → V} {l l' : List R} {i : Nat} {r r' : R} {a : T}

theorem trailed_iff (hu : Unique l) :
    Trailed before after trail stored l ↔ ∀ r ∈ l, Trail before after (trail (Row.id r)) (stored r) := by
  constructor
  · exact fun h r hr => h _ r (find_of_mem hu hr)
  · intro h i r hr
    rw [← id_of_find hr]
    exact h r (mem_of_find hr)

/-- A new row begins its trail. -/
theorem Trailed.added (h : Trailed before after trail stored l) (hl : Added l l' r)
    (hnew : trail (Row.id r) = []) (ht : ∀ i, trail' i = if i = Row.id r then trail i ++ [a] else trail i)
    (hafter : after a = stored r) : Trailed before after trail' stored l' := by
  intro i q hq
  rw [hl.after] at hq
  rw [ht]
  by_cases hi : i = Row.id r
  · subst hi
    rw [if_pos rfl] at hq
    obtain rfl := Option.some.inj hq
    rw [if_pos rfl, trail_snoc, hnew]
    exact ⟨trail_nil _, hafter⟩
  · rw [if_neg hi] at hq
    rw [if_neg hi]
    exact h i q hq

/-- A row that changes with its entry. -/
theorem Trailed.replaced (h : Trailed before after trail stored l) (hl : Replaced l l' i r r')
    (ht : ∀ j, trail' j = if j = i then trail j ++ [a] else trail j) (hbefore : before a = stored r)
    (hafter : after a = stored r') : Trailed before after trail' stored l' := by
  intro j q hq
  rw [hl.after] at hq
  rw [ht]
  by_cases hj : j = i
  · subst hj
    rw [if_pos rfl] at hq
    obtain rfl := Option.some.inj hq
    rw [if_pos rfl, trail_snoc, hbefore]
    exact ⟨h j r hl.before, hafter⟩
  · rw [if_neg hj] at hq
    rw [if_neg hj]
    exact h j q hq

end Table

end Transactions
