import Mathlib.Data.List.Basic
import Mathlib.Data.List.Nodup
import Mathlib.Algebra.Ring.Int.Defs
import Mathlib.Algebra.BigOperators.Group.List.Basic

/-!
# Tables as lists of rows

A table is a list of rows with an id column.  `updateWhere` is the conditional UPDATE of
one row by id; an INSERT appends.  `Evolves` is what other transactions may do to a table
while some of its ids are locked: rows stay, change only along `step`, and the locked
ones not at all.
-/

namespace Transactions

/-- Rows with a primary key. -/
class Row (R : Type) where
  id : R → Nat

namespace Table

section Sums

variable {R : Type}

/-- `SUM` of a column over the whole table. -/
def total (g : R → Int) (l : List R) : Int := (l.map g).sum

@[simp] theorem total_nil (g : R → Int) : total g ([] : List R) = 0 := rfl

theorem total_cons (g : R → Int) (r : R) (l : List R) : total g (r :: l) = g r + total g l := by
  simp [total]

theorem total_append (g : R → Int) (l : List R) (r : R) : total g (l ++ [r]) = total g l + g r := by
  simp [total]

theorem total_nonneg {g : R → Int} {l : List R} (h : ∀ r ∈ l, 0 ≤ g r) : 0 ≤ total g l := by
  induction l with
  | nil => simp
  | cons a l ih =>
    rw [total_cons]
    have ha := h a List.mem_cons_self
    have hl := ih fun r hr => h r (List.mem_cons_of_mem _ hr)
    omega

theorem total_congr {g g' : R → Int} {l : List R} (h : ∀ r ∈ l, g r = g' r) : total g l = total g' l := by
  unfold total
  rw [List.map_congr_left h]

/-- The sum over the matching rows is the sum of a column that is 0 elsewhere. -/
theorem total_filter (q : R → Bool) (g : R → Int) (l : List R) :
    total g (l.filter q) = total (fun r => if q r then g r else 0) l := by
  induction l with
  | nil => rfl
  | cons a l ih =>
    rw [total_cons, ← ih, List.filter_cons]
    by_cases h : q a = true
    · simp [h, total_cons]
    · simp [h]

theorem total_countP (p : R → Bool) (l : List R) : total (fun r => if p r then 1 else 0) l = l.countP p := by
  induction l with
  | nil => rfl
  | cons a l ih =>
    rw [total_cons, ih, List.countP_cons]
    split <;> push_cast <;> omega

end Sums

variable {R : Type} [Row R]

def find (l : List R) (i : Nat) : Option R := l.find? fun r => Row.id r == i

/-- `UPDATE … SET f WHERE id = i AND p`. -/
def updateWhere (l : List R) (i : Nat) (p : R → Bool) (f : R → R) : List R :=
  l.map fun r => if Row.id r == i && p r then f r else r

/-- The primary-key constraint. -/
def Unique (l : List R) : Prop := (l.map Row.id).Nodup

variable {l l' : List R} {i : Nat} {r : R} {p : R → Bool} {ρ : R → R → Prop}

theorem id_of_find (h : find l i = some r) : Row.id r = i := by
  have := List.find?_some h
  simpa using this

theorem mem_of_find (h : find l i = some r) : r ∈ l :=
  List.mem_of_find?_eq_some h

@[simp] theorem find_nil (i : Nat) : find ([] : List R) i = none := rfl

theorem find_cons (r : R) (l : List R) (i : Nat) : find (r :: l) i = if Row.id r = i then some r else find l i := by
  unfold find
  by_cases h : Row.id r = i
  · rw [List.find?_cons_of_pos (by simpa using h), if_pos h]
  · rw [List.find?_cons_of_neg (by simpa using h), if_neg h]

theorem unique_cons : Unique (r :: l) ↔ (∀ r' ∈ l, Row.id r' ≠ Row.id r) ∧ Unique l := by
  unfold Unique
  rw [List.map_cons, List.nodup_cons, List.mem_map]
  constructor
  · rintro ⟨h, hu⟩
    exact ⟨fun r' hr' he => h ⟨r', hr', he⟩, hu⟩
  · rintro ⟨h, hu⟩
    exact ⟨fun ⟨r', hr', he⟩ => h r' hr' he, hu⟩

/-- With unique ids, a row of the table is the one its id finds. -/
theorem find_of_mem (hu : Unique l) (h : r ∈ l) : find l (Row.id r) = some r := by
  induction l with
  | nil => cases h
  | cons a l ih =>
    rw [find_cons]
    rw [unique_cons] at hu
    rcases List.mem_cons.1 h with rfl | h
    · simp
    · rw [if_neg fun he => hu.1 r h he.symm]
      exact ih hu.2 h

theorem find_eq_none : find l i = none ↔ ∀ r ∈ l, Row.id r ≠ i := by
  unfold find
  simp

/-! ### The two statements -/

theorem find_updateWhere (l : List R) (i : Nat) (p : R → Bool) (f : R → R)
    (hf : ∀ r, Row.id (f r) = Row.id r) (j : Nat) : find (updateWhere l i p f) j =
      (find l j).map fun r => if j = i ∧ p r = true then f r else r := by
  induction l with
  | nil => rfl
  | cons a l ih =>
    simp only [updateWhere, List.map_cons] at ih ⊢
    rw [find_cons, find_cons, ih]
    by_cases hp : (Row.id a == i && p a) = true
    · rw [if_pos hp, hf]
      simp only [Bool.and_eq_true, beq_iff_eq] at hp
      by_cases hj : Row.id a = j
      · simp [hj, hp.2, ← hp.1]
      · simp [hj]
    · rw [if_neg hp]
      by_cases hj : Row.id a = j
      · subst hj
        simp only [Bool.and_eq_true, beq_iff_eq] at hp
        simp [hp]
      · simp [hj]

theorem find_updateWhere_of_ne {j : Nat} {f : R → R} (hf : ∀ r, Row.id (f r) = Row.id r) (hj : j ≠ i) :
    find (updateWhere l i p f) j = find l j := by
  rw [find_updateWhere l i p f hf]
  simp [hj]

theorem find_append (l : List R) (r : R) (j : Nat) :
    find (l ++ [r]) j = (find l j).or (if Row.id r = j then some r else none) := by
  unfold find
  rw [List.find?_append]
  by_cases h : Row.id r = j <;> simp [h]

theorem unique_updateWhere (hu : Unique l) (i : Nat) (p : R → Bool) (f : R → R)
    (hf : ∀ r, Row.id (f r) = Row.id r) : Unique (updateWhere l i p f) := by
  unfold Unique updateWhere at *
  rw [List.map_map]
  have : (Row.id ∘ fun r : R => if (Row.id r == i && p r) = true then f r else r) = Row.id := by
    funext r
    simp only [Function.comp]
    split
    · exact hf r
    · rfl
  rwa [this]

theorem unique_append (hu : Unique l) (h : find l (Row.id r) = none) : Unique (l ++ [r]) := by
  rw [find_eq_none] at h
  unfold Unique at *
  rw [List.map_append, List.nodup_append]
  refine ⟨hu, by simp, ?_⟩
  intro a ha b hb
  obtain ⟨r', hr', rfl⟩ := List.mem_map.1 ha
  simp only [List.map_cons, List.map_nil, List.mem_singleton] at hb
  rw [hb]
  exact h r' hr'

/-- No row matches, nothing changes. -/
theorem updateWhere_of_not {f : R → R} (h : ∀ r ∈ l, Row.id r = i → p r = false) : updateWhere l i p f = l := by
  unfold updateWhere
  conv_rhs => rw [← List.map_id l]
  refine List.map_congr_left fun r hr => ?_
  by_cases hi : Row.id r = i
  · simp [h r hr hi]
  · simp [hi]

/-- A conditional UPDATE moves a sum by the change of the one row it matches. -/
theorem total_updateWhere (hu : Unique l) {f : R → R} (hr : find l i = some r) (hp : p r = true) (g : R → Int) :
    total g (updateWhere l i p f) = total g l - g r + g (f r) := by
  induction l with
  | nil => cases hr
  | cons a l ih =>
    rw [unique_cons] at hu
    rw [find_cons] at hr
    by_cases ha : Row.id a = i
    · rw [if_pos ha, Option.some.injEq] at hr
      subst hr
      have hrest : updateWhere l i p f = l :=
        updateWhere_of_not fun r' hr' he => absurd (he.trans ha.symm) (hu.1 r' hr')
      have : updateWhere (a :: l) i p f = f a :: updateWhere l i p f := by
        simp [updateWhere, ha, hp]
      rw [this, hrest, total_cons, total_cons]
      omega
    · rw [if_neg ha] at hr
      have : updateWhere (a :: l) i p f = a :: updateWhere l i p f := by
        simp [updateWhere, ha]
      rw [this, total_cons, total_cons, ih hu.2 hr]
      omega

/-- One row of the table has changed. -/
structure Replaced (l l' : List R) (i : Nat) (r r' : R) : Prop where
  before : find l i = some r
  after : ∀ j, find l' j = if j = i then some r' else find l j
  total : ∀ g, total g l' = total g l - g r + g r'

theorem Replaced.updateWhere (hu : Unique l) {f : R → R}
    (hf : ∀ r, Row.id (f r) = Row.id r) (hr : find l i = some r) (hp : p r = true) :
    Replaced l (updateWhere l i p f) i r (f r) where
  before := hr
  after j := by
    rw [find_updateWhere l i p f hf]
    by_cases hj : j = i
    · subst hj
      simp [hr, hp]
    · simp [hj]
  total g := total_updateWhere hu hr hp g

/-- One row of the table is new. -/
structure Added (l l' : List R) (r : R) : Prop where
  before : find l (Row.id r) = none
  after : ∀ j, find l' j = if j = Row.id r then some r else find l j
  total : ∀ g, total g l' = total g l + g r

theorem Added.append (h : find l (Row.id r) = none) : Added l (l ++ [r]) r where
  before := h
  after j := by
    rw [find_append]
    by_cases hj : j = Row.id r
    · subst hj
      simp [h]
    · simp [hj, Ne.symm hj]
  total g := total_append g l r

/-- A new row that changes at once is a new row. -/
theorem Added.replaced {l₁ l₂ l₃ : List R} {r' : R} (h₁ : Added l₁ l₂ r)
    (h₂ : Replaced l₂ l₃ (Row.id r) r r') (hid : Row.id r' = Row.id r) : Added l₁ l₃ r' where
  before := by rw [hid]; exact h₁.before
  after j := by
    rw [h₂.after, h₁.after, hid]
    split <;> rfl
  total g := by
    rw [h₂.total, h₁.total]
    omega

/-! ### Rows rewritten in place -/

/-- The same ids, each row `ρ`-related to what it was. -/
def Rewrites (ρ : R → R → Prop) (l l' : List R) : Prop :=
  ∀ i, Option.Rel ρ (find l i) (find l' i)

theorem Rewrites.refl (hρ : ∀ r, ρ r r) (l : List R) : Rewrites ρ l l := by
  intro i
  cases find l i with
  | none => exact .none
  | some r => exact .some (hρ r)

theorem Rewrites.trans (hρ : ∀ a b c, ρ a b → ρ b c → ρ a c) {l₁ l₂ l₃ : List R}
    (h₁ : Rewrites ρ l₁ l₂) (h₂ : Rewrites ρ l₂ l₃) : Rewrites ρ l₁ l₃ := by
  intro i
  have h₁ := h₁ i
  have h₂ := h₂ i
  revert h₁ h₂
  generalize find l₁ i = a, find l₂ i = b, find l₃ i = c
  rintro (@⟨a, b, hab⟩ | _) h₂
  · cases h₂ with
    | some hbc => exact .some (hρ _ _ _ hab hbc)
  · cases h₂
    exact .none

theorem Rewrites.mono {ρ' : R → R → Prop} (hρ : ∀ a b, ρ a b → ρ' a b) (h : Rewrites ρ l l') : Rewrites ρ' l l' := by
  intro i
  have := h i
  revert this
  generalize find l i = a, find l' i = b
  rintro (⟨hab⟩ | _)
  · exact .some (hρ _ _ hab)
  · exact .none

theorem Rewrites.row (h : Rewrites ρ l l') (hr : find l i = some r) : ∃ r', find l' i = some r' ∧ ρ r r' := by
  have := h i
  rw [hr] at this
  cases hf : find l' i with
  | none =>
    rw [hf] at this
    cases this
  | some r' =>
    rw [hf] at this
    cases this with
    | some h => exact ⟨r', rfl, h⟩

theorem Rewrites.row_before (h : Rewrites ρ l l') {r' : R}
    (hr : find l' i = some r') : ∃ r, find l i = some r ∧ ρ r r' := by
  have := h i
  rw [hr] at this
  cases hf : find l i with
  | none =>
    rw [hf] at this
    cases this
  | some r =>
    rw [hf] at this
    cases this with
    | some h => exact ⟨r, rfl, h⟩

theorem Rewrites.absent (h : Rewrites ρ l l') (hr : find l i = none) : find l' i = none := by
  have := h i
  rw [hr] at this
  cases hf : find l' i with
  | none => rfl
  | some r' =>
    rw [hf] at this
    cases this

theorem Rewrites.updateWhere (hρ : ∀ r, ρ r r) {f : R → R} (hf : ∀ r, Row.id (f r) = Row.id r)
    (hs : ∀ r, find l i = some r → p r = true → ρ r (f r)) : Rewrites ρ l (updateWhere l i p f) := by
  intro j
  rw [find_updateWhere l i p f hf]
  cases hr : find l j with
  | none => exact .none
  | some r =>
    refine .some ?_
    show ρ r (if j = i ∧ p r = true then f r else r)
    by_cases hc : j = i ∧ p r = true
    · rw [if_pos hc]
      exact hs r (hc.1 ▸ hr) hc.2
    · rw [if_neg hc]
      exact hρ r

theorem Replaced.rewrites (hρ : ∀ r, ρ r r) {r' : R} (h : Replaced l l' i r r') (hr : ρ r r') : Rewrites ρ l l' := by
  intro j
  rw [h.after]
  by_cases hj : j = i
  · rw [if_pos hj, hj, h.before]
    exact .some hr
  · rw [if_neg hj]
    exact Rewrites.refl hρ l j

/-- Another row than the replaced one is as it was. -/
theorem Replaced.find_of_ne {j : Nat} {r' : R} (h : Replaced l l' i r r')
    (hj : j ≠ i) : find l' j = find l j := by rw [h.after, if_neg hj]

theorem Replaced.find_self {r' : R} (h : Replaced l l' i r r') : find l' i = some r' := by rw [h.after, if_pos rfl]

/-- A row that changes twice has changed. -/
theorem Replaced.trans {l₁ l₂ l₃ : List R} {r₁ r₂ r₃ : R} (h₁ : Replaced l₁ l₂ i r₁ r₂)
    (h₂ : Replaced l₂ l₃ i r₂ r₃) : Replaced l₁ l₃ i r₁ r₃ where
  before := h₁.before
  after j := by
    rw [h₂.after, h₁.after]
    split <;> rfl
  total g := by
    rw [h₂.total, h₁.total]
    omega

/-! ### Sums over a table that moves -/

theorem unique_filter (hu : Unique l) (q : R → Bool) : Unique (l.filter q) :=
  hu.sublist (List.filter_sublist.map _)

/-- The row of an id and the rest of the table. -/
theorem total_split (hu : Unique l) (hr : find l i = some r)
    (g : R → Int) : total g l = g r + total g (l.filter fun r => Row.id r != i) := by
  have hd := total_updateWhere (p := fun _ => true) (f := fun r => r) hu hr rfl
  induction l with
  | nil => cases hr
  | cons a l ih =>
    rw [unique_cons] at hu
    rw [find_cons] at hr
    by_cases ha : Row.id a = i
    · rw [if_pos ha, Option.some.injEq] at hr
      subst hr
      have hrest : l.filter (fun r => Row.id r != i) = l := by
        rw [List.filter_eq_self]
        intro r hr
        simpa [← ha] using hu.1 r hr
      rw [List.filter_cons_of_neg (by simp [ha]), hrest, total_cons]
    · rw [if_neg ha] at hr
      rw [List.filter_cons_of_pos (by simpa using ha), total_cons, total_cons,
        ih hu.2 hr (total_updateWhere hu.2 hr rfl)]
      omega

theorem find_filter_ne {j : Nat} (hj : j ≠ i) : find (l.filter fun r => Row.id r != i) j = find l j := by
  induction l with
  | nil => rfl
  | cons a l ih =>
    by_cases ha : Row.id a = i
    · rw [List.filter_cons_of_neg (by simp [ha]), ih, find_cons, if_neg]
      rintro rfl
      exact hj ha
    · rw [List.filter_cons_of_pos (by simpa using ha), find_cons, find_cons, ih]

/-- A sum of nonnegative entries grows with its rows. -/
theorem total_le_total {g g' : R → Int} (hu : Unique l) (hu' : Unique l')
    (h : ∀ i r, find l i = some r → ∃ r', find l' i = some r' ∧ g r ≤ g' r')
    (hg : ∀ r ∈ l', 0 ≤ g' r) : total g l ≤ total g' l' := by
  induction l generalizing l' with
  | nil => exact total_nonneg hg
  | cons a l ih =>
    rw [unique_cons] at hu
    obtain ⟨a', ha', hle⟩ := h (Row.id a) a (by rw [find_cons, if_pos rfl])
    rw [total_cons, total_split hu' ha' g']
    have hrest : total g l ≤ total g' (l'.filter fun r => Row.id r != Row.id a) := by
      refine ih hu.2 (unique_filter hu' _) ?_ fun r hr => hg r (List.mem_of_mem_filter hr)
      intro i r hr
      have hi : i ≠ Row.id a := by
        have := hu.1 r (mem_of_find hr)
        rwa [id_of_find hr] at this
      rw [find_filter_ne hi]
      exact h i r (by rw [find_cons, if_neg hi.symm, hr])
    omega

/-! ### Counting rows -/

theorem find_filter (hu : Unique l) : find (l.filter p) i = some r ↔ find l i = some r ∧ p r = true := by
  constructor
  · intro h
    obtain ⟨hm, hp⟩ := List.mem_filter.1 (mem_of_find h)
    have hid : Row.id r = i := id_of_find h
    exact ⟨hid ▸ find_of_mem hu hm, hp⟩
  · rintro ⟨h, hp⟩
    have hid : Row.id r = i := id_of_find h
    exact hid ▸ find_of_mem (unique_filter hu p) (List.mem_filter.2 ⟨mem_of_find h, hp⟩)

/-- Every counted row is counted in the other table. -/
theorem countP_le_countP {p' : R → Bool} (hu : Unique l) (hu' : Unique l')
    (h : ∀ i r, find l i = some r → p r = true → ∃ r', find l' i = some r' ∧ p' r' = true) :
    l.countP p ≤ l'.countP p' := by
  have hle : total (fun _ => 1) (l.filter p) ≤ total (fun _ => 1) (l'.filter p') := by
    refine total_le_total (unique_filter hu p) (unique_filter hu' p') ?_ fun _ _ => by decide
    intro i r hr
    obtain ⟨hr, hp⟩ := (find_filter hu).1 hr
    obtain ⟨r', hr', hp'⟩ := h i r hr hp
    exact ⟨r', (find_filter hu').2 ⟨hr', hp'⟩, Int.le_refl _⟩
  rw [total_filter, total_filter, total_countP, total_countP] at hle
  omega

/-- One row changes: the count moves by that row. -/
theorem Replaced.countP {r' : R} (h : Replaced l l' i r r') (p : R → Bool) :
    (l'.countP p : Int) = l.countP p - (if p r then 1 else 0) + (if p r' then 1 else 0) := by
  rw [← total_countP, ← total_countP, h.total]

theorem Added.countP (h : Added l l' r) (p : R → Bool) :
    (l'.countP p : Int) = l.countP p + (if p r then 1 else 0) := by
  rw [← total_countP, ← total_countP, h.total]

/-- A rewrite that keeps a column keeps its sum. -/
theorem Rewrites.total_eq (h : Rewrites ρ l l') (hu : Unique l)
    (hu' : Unique l') {g : R → Int} (hg : ∀ r r', ρ r r' → g r' = g r) (hpos : ∀ r ∈ l, 0 ≤ g r)
    (hpos' : ∀ r ∈ l', 0 ≤ g r) : total g l' = total g l := by
  have h₁ : total g l ≤ total g l' := by
    refine total_le_total hu hu' ?_ hpos'
    intro i r hr
    obtain ⟨r', hr', hρ⟩ := h.row hr
    exact ⟨r', hr', Int.le_of_eq (hg r r' hρ).symm⟩
  have h₂ : total g l' ≤ total g l := by
    refine total_le_total hu' hu ?_ hpos
    intro i r' hr'
    obtain ⟨r, hr, hρ⟩ := h.row_before hr'
    exact ⟨r, hr, Int.le_of_eq (hg r r' hρ)⟩
  omega

/-! ### What others may do to a table -/

/-- Rows stay and change only along `step`; the locked ids do not change at all. -/
structure Evolves (step : R → R → Prop) (locked : Nat → Prop) (l l' : List R) : Prop where
  row : ∀ i r, find l i = some r → ∃ r', find l' i = some r' ∧ step r r' ∧ (locked i → r' = r)
  new : ∀ i, locked i → find l i = none → find l' i = none

variable {step : R → R → Prop} {locked locked' : Nat → Prop}

theorem Evolves.refl (hs : ∀ r, step r r) (l : List R) : Evolves step locked l l where
  row _ r h := ⟨r, h, hs r, fun _ => rfl⟩
  new _ _ h := h

theorem Evolves.trans (hs : ∀ r₁ r₂ r₃, step r₁ r₂ → step r₂ r₃ → step r₁ r₃) {l₁ l₂ l₃ : List R}
    (h₁ : Evolves step locked l₁ l₂) (h₂ : Evolves step locked l₂ l₃) : Evolves step locked l₁ l₃ where
  row i r h := by
    obtain ⟨r₂, hf₂, hs₂, he₂⟩ := h₁.row i r h
    obtain ⟨r₃, hf₃, hs₃, he₃⟩ := h₂.row i r₂ hf₂
    exact ⟨r₃, hf₃, hs _ _ _ hs₂ hs₃, fun hl => (he₃ hl).trans (he₂ hl)⟩
  new i hl h := h₂.new i hl (h₁.new i hl h)

theorem Evolves.mono (hl : ∀ i, locked' i → locked i) (h : Evolves step locked l l') : Evolves step locked' l l' where
  row i r hr := by
    obtain ⟨r', hf, hs, he⟩ := h.row i r hr
    exact ⟨r', hf, hs, fun hi => he (hl i hi)⟩
  new i hi hr := h.new i (hl i hi) hr

/-- A locked id reads the same later. -/
theorem Evolves.find_eq (h : Evolves step locked l l') (hi : locked i) : find l' i = find l i := by
  cases hr : find l i with
  | none => exact h.new i hi hr
  | some r =>
    obtain ⟨r', hf, -, he⟩ := h.row i r hr
    rw [hf, he hi]

theorem Evolves.updateWhere {f : R → R} (hf : ∀ r, Row.id (f r) = Row.id r) (hs : ∀ r, step r r)
    (hu : ∀ r, find l i = some r → p r = true → step r (f r) ∧ ¬locked i) :
    Evolves step locked l (updateWhere l i p f) where
  row j r hr := by
    rw [find_updateWhere l i p f hf, hr, Option.map_some]
    by_cases hc : j = i ∧ p r = true
    · obtain ⟨rfl, hp⟩ := hc
      rw [if_pos ⟨rfl, hp⟩]
      exact ⟨_, rfl, (hu r hr hp).1, fun hl => absurd hl (hu r hr hp).2⟩
    · rw [if_neg hc]
      exact ⟨_, rfl, hs r, fun _ => rfl⟩
  new j _ hr := by
    rw [find_updateWhere l i p f hf, hr, Option.map_none]

theorem Evolves.append (hs : ∀ r, step r r) (hl : ¬locked (Row.id r)) : Evolves step locked l (l ++ [r]) where
  row j r' hr := ⟨r', by rw [find_append, hr, Option.some_or], hs r', fun _ => rfl⟩
  new j hj hr := by
    rw [find_append, hr, Option.none_or, if_neg]
    rintro rfl
    exact hl hj

/-- One UPDATE of a locked id on both sides. -/
theorem Evolves.both_updateWhere (hs : ∀ r, step r r) (h : Evolves step locked l l')
    (hi : locked i) {f : R → R} (hf : ∀ r, Row.id (f r) = Row.id r) :
    Evolves step locked (Table.updateWhere l i p f) (Table.updateWhere l' i p f) where
  row j r hr := by
    by_cases hj : j = i
    · subst hj
      refine ⟨r, ?_, hs r, fun _ => rfl⟩
      rwa [find_updateWhere l' j p f hf, h.find_eq hi, ← find_updateWhere l j p f hf]
    · rw [find_updateWhere_of_ne hf hj] at hr ⊢
      exact h.row j r hr
  new j hj hr := by
    rw [find_updateWhere _ _ _ _ hf, Option.map_eq_none_iff] at hr ⊢
    exact h.new j hj hr

/-- One INSERT under a locked id on both sides. -/
theorem Evolves.both_append (hs : ∀ r, step r r) (h : Evolves step locked l l')
    (hr : locked (Row.id r)) (hfree : find l (Row.id r) = none) : Evolves step locked (l ++ [r]) (l' ++ [r]) where
  row j q hq := by
    have hfree' := h.new _ hr hfree
    rw [find_append] at hq ⊢
    by_cases hj : Row.id r = j
    · subst hj
      rw [hfree, Option.none_or] at hq
      exact ⟨q, by rw [hfree', Option.none_or, hq], hs q, fun _ => rfl⟩
    · rw [if_neg hj, Option.or_none] at hq ⊢
      exact h.row j q hq
  new j hj hq := by
    rw [find_append, Option.or_eq_none_iff] at hq ⊢
    exact ⟨h.new j hj hq.1, hq.2⟩

theorem Replaced.evolves {r' : R} (h : Replaced l l' i r r')
    (hs : ∀ r, step r r) (hstep : step r r') (hl : ¬locked i) : Evolves step locked l l' where
  row j q hq := by
    rw [h.after]
    by_cases hj : j = i
    · subst hj
      have hqr : q = r := Option.some.inj (hq.symm.trans h.before)
      subst hqr
      rw [if_pos rfl]
      exact ⟨r', rfl, hstep, fun hj => absurd hj hl⟩
    · rw [if_neg hj]
      exact ⟨q, hq, hs q, fun _ => rfl⟩
  new j hj hq := by
    rw [h.after, if_neg]
    · exact hq
    · rintro rfl
      exact hl hj

theorem Added.evolves (h : Added l l' r) (hs : ∀ r, step r r)
    (hl : ¬locked (Row.id r)) : Evolves step locked l l' where
  row j q hq := by
    rw [h.after, if_neg]
    · exact ⟨q, hq, hs q, fun _ => rfl⟩
    · rintro rfl
      rw [h.before] at hq
      cases hq
  new j hj hq := by
    rw [h.after, if_neg]
    · exact hq
    · rintro rfl
      exact hl hj

end Table

end Transactions
