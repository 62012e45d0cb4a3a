import Shyraq.Discounts.Services

/-!
# The catalogue of custom discounts

Every row that is written is read back and hydrated before its transaction ends, under the lock of the row.  What was
read back is what is committed, whatever the patch was validated against.
-/

namespace Discounts

open Kernel Transactions
open Billing (CustomDiscountStatus)
open Diagnostics (Json)

/-! ## What is claimed -/

/-- What hydrating a row asks of it. -/
structure CustomDiscount.Valid (row : CustomDiscount) : Prop where
  amount : 0 < row.amount
  window : ∀ validUntil, row.validUntil = some validUntil → row.validFrom < validUntil
  usedCount : 0 ≤ row.usedCount
  priority : 0 ≤ row.priority
  target : row.targetType = "all" ∧ row.targetIds.getD [] = [] ∨
    row.targetType ∈ ["groups", "children", "tariff_types"] ∧ row.targetIds.getD [] ≠ [] ∨ row.targetType = "age_range"
  conditions : ∃ c, validateConditionsSchema row.conditions = .ok c

def CustomDiscount.hydrates (row : CustomDiscount) : Bool := row.toDomain.isOk

/-- The life cycle. -/
def follows : CustomDiscountStatus → CustomDiscountStatus → Bool
  | .draft, .active | .active, .paused | .paused, .active => true
  | .draft, .cancelled | .active, .cancelled | .paused, .cancelled => true
  | .active, .expired | .paused, .expired => true
  | _, _ => false

/-- Every column but the status. -/
def CustomDiscount.catalogue (row : CustomDiscount) : CustomDiscount := { row with status := .draft }

/-- From one committed state to the next: no row goes, a new one is a draft, and a status takes one step of the cycle. -/
structure Advances (s s' : Store) : Prop where
  stays : ∀ row ∈ s.discounts, (s'.discount row.id).isSome = true
  fresh : ∀ row ∈ s'.discounts, s.discount row.id = none → row.status = .draft
  moves : ∀ row ∈ s'.discounts, ∀ old, s.discount row.id = some old →
    row.status = old.status ∨ follows old.status row.status = true

/-- The row is out of draft, with these catalogue fields. -/
def Frozen (id : Nat) (catalogue : CustomDiscount) (s : Store) : Prop :=
  ∃ row ∈ s.discounts, row.id = id ∧ row.status ≠ .draft ∧ row.catalogue = catalogue

/-! ## Hydration -/

section

variable {row : CustomDiscount} {A : Type}

theorem check_ok {c : Bool} {e : DiscountError} {u : Unit} (h : check c e = .ok u) : c = true := by
  cases c with
  | false => cases h
  | true => rfl

theorem mapError_ok {a : Checked A} {f : ConditionsInvalid → DiscountError} {x : A} (h : a.mapError f = .ok x) :
    a = .ok x := by
  cases a with
  | error e => cases h
  | ok y =>
    cases h
    rfl

theorem step_ok {B : Type} {a : Except DiscountError A} {f : A → Except DiscountError B} {b : B}
    (h : (a >>= f) = .ok b) : ∃ x, a = .ok x ∧ f x = .ok b := by
  cases a with
  | error e => cases h
  | ok x => exact ⟨x, rfl, h⟩

theorem checkTarget_iff {targetType : String} {targetIds : Option (List Nat)} :
    knownTargetTypes.contains targetType = true ∧ checkTarget targetType targetIds = .ok () ↔
      targetType = "all" ∧ targetIds.getD [] = [] ∨
        targetType ∈ ["groups", "children", "tariff_types"] ∧ targetIds.getD [] ≠ [] ∨ targetType = "age_range" := by
  unfold checkTarget
  constructor
  · rintro ⟨hknown, h⟩
    by_cases hall : targetType = "all"
    · rw [if_pos hall] at h
      exact .inl ⟨hall, List.isEmpty_iff.1 (check_ok h)⟩
    · rw [if_neg hall] at h
      by_cases hlisted : targetType ∈ ["groups", "children", "tariff_types"]
      · rw [if_pos hlisted] at h
        refine .inr (.inl ⟨hlisted, fun hempty => ?_⟩)
        have hfull := check_ok h
        rw [hempty] at hfull
        cases hfull
      · refine .inr (.inr ?_)
        unfold knownTargetTypes at hknown
        simp only [List.mem_cons, List.not_mem_nil, or_false, not_or] at hlisted
        simp only [List.contains_iff_mem, List.mem_cons, List.not_mem_nil, or_false] at hknown
        rcases hknown with h | h | h | h | h
        · exact absurd h hall
        · exact absurd h hlisted.1
        · exact absurd h hlisted.2.1
        · exact absurd h hlisted.2.2
        · exact h
  · rintro (⟨rfl, hempty⟩ | ⟨hlisted, hfull⟩ | rfl)
    · exact ⟨by decide, by rw [if_pos rfl, hempty]; rfl⟩
    · have hall : targetType ≠ "all" := by
        rintro rfl
        exact absurd hlisted (by decide)
      have hnonempty : (!(targetIds.getD []).isEmpty) = true := by
        rw [Bool.not_eq_true', List.isEmpty_eq_false_iff]
        exact hfull
      refine ⟨?_, by rw [if_neg hall, if_pos hlisted, hnonempty]; rfl⟩
      unfold knownTargetTypes
      rw [List.contains_iff_mem]
      exact List.mem_cons_of_mem _ (List.mem_append_left ["age_range"] hlisted)
    · exact ⟨by decide, rfl⟩

theorem fromState_ok {d : CustomDiscount} (h : row.fromState = .ok d) : row.Valid := by
  obtain ⟨_, hamount, h⟩ := step_ok h
  obtain ⟨_, hwindow, h⟩ := step_ok h
  obtain ⟨_, husedCount, h⟩ := step_ok h
  obtain ⟨_, hpriority, h⟩ := step_ok h
  obtain ⟨_, hknown, h⟩ := step_ok h
  obtain ⟨_, htarget, h⟩ := step_ok h
  obtain ⟨c, hconditions, h⟩ := step_ok h
  exact {
    amount := of_decide_eq_true (check_ok hamount)
    window := fun validUntil hv => by
      have hall := check_ok hwindow
      rw [hv] at hall
      exact of_decide_eq_true hall
    usedCount := of_decide_eq_true (check_ok husedCount)
    priority := of_decide_eq_true (check_ok hpriority)
    target := checkTarget_iff.1 ⟨check_ok hknown, htarget⟩
    conditions := ⟨c, mapError_ok hconditions⟩ }

theorem fromState_of_valid {c : Json} (h : row.Valid) (hc : validateConditionsSchema row.conditions = .ok c) :
    row.fromState = .ok { row with conditions := c } := by
  have hwindow : (row.validUntil.all fun validUntil => decide (row.validFrom < validUntil)) = true := by
    cases hv : row.validUntil with
    | none => rfl
    | some validUntil => exact decide_eq_true (h.window validUntil hv)
  obtain ⟨hknown, htarget⟩ := checkTarget_iff.2 h.target
  unfold CustomDiscount.fromState
  rw [decide_eq_true h.amount, hwindow, decide_eq_true h.usedCount, decide_eq_true h.priority, hknown, htarget, hc]
  rfl

/-- **A row hydrates exactly when it is valid.** -/
theorem hydrates_iff : row.hydrates = true ↔ row.Valid := by
  unfold CustomDiscount.hydrates CustomDiscount.toDomain
  constructor
  · intro h
    cases hc : validateConditionsSchema row.conditions with
    | error e =>
      rw [hc] at h
      cases h
    | ok c =>
      rw [hc] at h
      cases hd : CustomDiscount.fromState { row with conditions := c } with
      | error e =>
        dsimp only [Except.mapError, bind, Except.bind] at h
        rw [hd] at h
        cases h
      | ok d =>
        have hvalid := fromState_ok hd
        exact ⟨hvalid.amount, hvalid.window, hvalid.usedCount, hvalid.priority, hvalid.target, c, hc⟩
  · intro h
    obtain ⟨c, hc⟩ := h.conditions
    have hvalid : CustomDiscount.Valid { row with conditions := c } :=
      ⟨h.amount, h.window, h.usedCount, h.priority, h.target, c, validateConditionsSchema_again hc⟩
    rw [hc]
    dsimp only [Except.mapError, bind, Except.bind]
    rw [fromState_of_valid hvalid (validateConditionsSchema_again hc)]
    rfl

theorem CustomDiscount.Valid.withStatus (h : row.Valid) (status : CustomDiscountStatus) :
    CustomDiscount.Valid { row with status := status } :=
  ⟨h.amount, h.window, h.usedCount, h.priority, h.target, h.conditions⟩

end

/-! ## One row at a time -/

/-- What a statement does to the row of an id. -/
def Write.effect (i : Nat) (o : Option CustomDiscount) : Write → Option CustomDiscount
  | .insert row => o.or (if row.id = i then some row else none)
  | .update id patch expected => o.map fun row => if i = id ∧ (row.status == expected) = true then row.patched patch else row
  | .transition id expected toStatus =>
      o.map fun row => if i = id ∧ expected.contains row.status = true then { row with status := toStatus } else row
  | .expire id now =>
      o.map fun row => if i = id ∧ Store.expires now row = true then { row with status := .expired } else row
  | .enqueue _ => o

/-- A committed row and the row of the same id after one commit. -/
inductive RowStep : Option CustomDiscount → Option CustomDiscount → Prop
  | same (o : Option CustomDiscount) : RowStep o o
  | created {row : CustomDiscount} (draft : row.status = .draft) (valid : row.Valid) : RowStep none (some row)
  | patched {old row : CustomDiscount} (was : old.status = .draft) (draft : row.status = .draft) (valid : row.Valid) :
      RowStep (some old) (some row)
  | moved {old : CustomDiscount} {toStatus : CustomDiscountStatus} (h : follows old.status toStatus = true) :
      RowStep (some old) (some { old with status := toStatus })

section

variable {s s' : Store} {t : Tx Store Key Write} {w : Write} {i : Nat}

theorem discount_apply (s : Store) (w : Write) (i : Nat) : (Relational.apply s w).discount i = w.effect i (s.discount i) := by
  cases w with
  | insert row =>
    show Table.find (if (s.discount row.id).isNone then s.discounts ++ [row] else s.discounts) i = _
    by_cases hfree : (s.discount row.id).isNone = true
    · rw [if_pos hfree, Table.find_append]
      rfl
    · rw [if_neg hfree]
      by_cases hi : row.id = i
      · obtain ⟨old, hold⟩ := Option.ne_none_iff_exists'.1 fun h => hfree (Option.isNone_iff_eq_none.2 h)
        rw [hi] at hold
        show s.discount i = (s.discount i).or _
        rw [hold]
        rfl
      · show s.discount i = (s.discount i).or (if row.id = i then some row else none)
        rw [if_neg hi, Option.or_none]
  | update id patch expected => exact Table.find_updateWhere s.discounts id _ (fun row => row.patched patch) (fun _ => rfl) i
  | transition id expected toStatus =>
    exact Table.find_updateWhere s.discounts id _ (fun row => { row with status := toStatus }) (fun _ => rfl) i
  | expire id now =>
    exact Table.find_updateWhere s.discounts id _ (fun row => { row with status := .expired }) (fun _ => rfl) i
  | enqueue event => rfl

theorem effect_of_ne (h : Key.row i ∉ Relational.keys Store w) (o : Option CustomDiscount) : w.effect i o = o := by
  have hne : ∀ id, Key.row i ∉ [Key.row id] → i ≠ id := by
    intro id hid hi
    exact hid (hi ▸ List.mem_cons_self)
  cases w with
  | insert row =>
    show o.or (if row.id = i then some row else none) = o
    rw [if_neg fun hi => hne row.id h hi.symm, Option.or_none]
  | enqueue event => rfl
  | _ =>
    cases o with
    | none => rfl
    | some row => exact congrArg some (if_neg fun hi => hne _ h hi.1)

theorem discount_view (t : Tx Store Key Write) (s : Store) (i : Nat) :
    (t.view s).discount i = t.writes.foldl (fun o w => w.effect i o) (s.discount i) := by
  unfold Tx.view
  induction t.writes generalizing s with
  | nil => rfl
  | cons w ws ih => rw [List.foldl_cons, List.foldl_cons, ih, discount_apply]

theorem discount_view_of_not_held (hkeys : ∀ w ∈ t.writes, Relational.keys Store w ⊆ t.held) (h : Key.row i ∉ t.held)
    (s : Store) : (t.view s).discount i = s.discount i := by
  rw [discount_view]
  generalize s.discount i = o
  have hall : ∀ w ∈ t.writes, Key.row i ∉ Relational.keys Store w := fun w hw hi => h (hkeys w hw hi)
  generalize t.writes = ws at hall
  induction ws with
  | nil => rfl
  | cons w ws ih =>
    rw [List.foldl_cons, effect_of_ne (hall w List.mem_cons_self)]
    exact ih fun w' hw' => hall w' (List.mem_cons_of_mem w hw')

theorem unique_view (h : Table.Unique s.discounts) (t : Tx Store Key Write) : Table.Unique (t.view s).discounts := by
  unfold Tx.view
  induction t.writes generalizing s with
  | nil => exact h
  | cons w ws ih =>
    refine ih ?_
    cases w with
    | insert row =>
      show Table.Unique (if (s.discount row.id).isNone then s.discounts ++ [row] else s.discounts)
      by_cases hfree : (s.discount row.id).isNone = true
      · rw [if_pos hfree]
        exact Table.unique_append h (Option.isNone_iff_eq_none.1 hfree)
      · rw [if_neg hfree]
        exact h
    | update id patch expected => exact Table.unique_updateWhere h id _ _ fun _ => rfl
    | transition id expected toStatus => exact Table.unique_updateWhere h id _ _ fun _ => rfl
    | expire id now => exact Table.unique_updateWhere h id _ _ fun _ => rfl
    | enqueue event => exact h

end

/-! ## The requests -/

/-- A row whose key is held stays as it is. -/
def rowLocks : Discipline Store Key Write where
  rely held s s' := ∀ i, Key.row i ∈ held → s'.discount i = s.discount i
  refl _ _ _ _ := rfl
  trans h₁ h₂ i hi := (h₂ i hi).trans (h₁ i hi)
  mono hs h i hi := h i (hs hi)

/-- Every row takes at most one step. -/
def Outcome (t : Tx Store Key Write) (s : Store) : Prop := ∀ i, RowStep (s.discount i) ((t.view s).discount i)

/-- The transaction turns one row into another, and leaves the others alone. -/
structure Changes (i : Nat) (o o' : Option CustomDiscount) (t : Tx Store Key Write) : Prop where
  held : Key.row i ∈ t.held
  row : ∀ s, s.discount i = o → (t.view s).discount i = o'
  others : ∀ s j, j ≠ i → (t.view s).discount j = s.discount j

section

variable {J : Store → Prop} {X : DiscountError → Prop} {B : Type} {Q : Tx Store Key Write → Store → B → Prop}
  {t : Tx Store Key Write} {s : Store} {i : Nat} {o o' : Option CustomDiscount}

theorem Changes.saw (h : Changes i o o' t) (v : Store) : Changes i o o' (t.saw v) := ⟨h.held, h.row, h.others⟩

theorem Changes.outcome (h : Changes i o o' t) (hs : s.discount i = o) (hstep : RowStep o o') : Outcome t s := by
  intro j
  by_cases hj : j = i
  · subst hj
    rw [hs, h.row s hs]
    exact hstep
  · rw [h.others s j hj]
    exact .same _

theorem Changes.first {w : Write} (hw : t.writes = []) (hkeys : Relational.keys Store w = [Key.row i])
    (ho : w.effect i o = o') : Changes i o o' (t.wrote w) where
  held := by
    rw [Tx.held_wrote, hkeys]
    exact List.mem_cons_self
  row s hs := by rw [Tx.view_wrote, Tx.view_of_unwritten hw, discount_apply, hs, ho]
  others s j hj := by
    rw [Tx.view_wrote, Tx.view_of_unwritten hw, discount_apply]
    refine effect_of_ne ?_ _
    rw [hkeys, List.mem_singleton]
    exact fun h => hj (Key.row.inj h)

theorem Changes.extends {t' : Tx Store Key Write} (h : Changes i o o' t)
    (he : Tx.Extends (fun w => ∃ event, w = .enqueue event) t t') : Changes i o o' t' where
  held := he.held h.held
  row s hs := by
    have hsame := he.view_eq (fun s => s.discount i) (fun s w hw => by obtain ⟨event, rfl⟩ := hw; rfl) s
    exact hsame.trans (h.row s hs)
  others s j hj := by
    have hsame := he.view_eq (fun s => s.discount j) (fun s w hw => by obtain ⟨event, rfl⟩ := hw; rfl) s
    exact hsame.trans (h.others s j hj)

/-! ### Reading -/

theorem onlyWrites_findById (id : Nat) {P : Write → Prop} : Prog.OnlyWrites P (CustomDiscountRepository.findById id) := by
  intro v
  show Prog.OnlyWrites P (CustomDiscountRepository.hydrate (v.discount id))
  cases v.discount id with
  | none => trivial
  | some row => exact .ofExcept fun _ => trivial

theorem safe_refuse (hX : ∀ e, X e) {A : Type} {Q : Tx Store Key Write → Store → A → Prop} (id : Nat) (attempted : String)
    (f : CustomDiscount → Sql A) (hj : J s) :
    Prog.Safe rowLocks J X Q (Prog.bind (CustomDiscountService.refuse id attempted) f) t s := by
  unfold CustomDiscountService.refuse
  simp only [Prog.bind_eq, Prog.bind_assoc]
  refine Prog.Safe.bind_frame (onlyWrites_findById (P := fun _ => False) id) hX hj fun fresh t' s' _ _ _ => ?_
  exact Prog.Safe.require hX fun _ _ => hX _

variable {f : Option CustomDiscount → Sql B}

/-- The row that this transaction has written is read back, and found valid. -/
theorem safe_reload {row : CustomDiscount} (hX : ∀ e, X e)
    (hJ : ∀ s, J s → s.discount i = o) (hc : Changes i o (some row) t)
    (h : ∀ t' s' d, Changes i o (some row) t' → row.Valid → J s' → Prog.Safe rowLocks J X Q (f (some d)) t' s') :
    Prog.Safe rowLocks J X Q (Prog.bind (CustomDiscountRepository.reload i) f) t s := by
  unfold CustomDiscountRepository.reload CustomDiscountRepository.checkReturned CustomDiscountRepository.findById
  simp only [Prog.bind_eq, Prog.bind_assoc]
  refine Prog.Safe.query fun s₁ _ _ => Prog.Safe.guardOr hX fun _ => Prog.Safe.query fun s₂ _ hj₂ => ?_
  rw [Tx.view_saw, hc.row s₂ (hJ s₂ hj₂)]
  unfold CustomDiscountRepository.hydrate
  simp only [Prog.bind_eq, Prog.bind_assoc]
  refine Prog.Safe.ofExcept hX fun d hd => ?_
  have hvalid : row.hydrates = true := by
    unfold CustomDiscount.hydrates
    rw [hd]
    rfl
  exact h _ s₂ d ((hc.saw s₁).saw s₂) (hydrates_iff.1 hvalid) hj₂

/-! ### Writing -/

theorem safe_holding {A : Type} {Q : Tx Store Key Write → Store → A → Prop} {p : Sql A} (hheld : Key.row i ∈ t.held)
    (hj : J s) (hs : s.discount i = o)
    (h : Prog.Safe rowLocks (fun s => J s ∧ s.discount i = o) X Q p t s) : Prog.Safe rowLocks J X Q p t s :=
  Prog.Safe.keep (fun s => s.discount i = o) [Key.row i] (List.cons_subset.2 ⟨hheld, List.nil_subset _⟩)
    (fun _ _ hr _ _ hs => (hr i List.mem_cons_self).trans hs) hj hs h

theorem safe_update {id : Nat} {patch : UpdateCustomDiscountPatch} (hX : ∀ e, X e) (hw : t.writes = [])
    (hit : ∀ t' s' old d, Changes id (some old) (some (old.patched patch)) t' → old.status = .draft →
      (old.patched patch).Valid → J s' → s'.discount id = some old →
      Prog.Safe rowLocks (fun s => J s ∧ s.discount id = some old) X Q (f (some d)) t' s')
    (miss : ∀ s', J s' → Prog.Safe rowLocks J X Q (f none) t s') :
    Prog.Safe rowLocks J X Q (Prog.bind (CustomDiscountRepository.update id patch .draft) f) t s := by
  unfold CustomDiscountRepository.update
  simp only [Prog.bind_eq, Prog.bind_assoc]
  refine Prog.Safe.update (fun s₁ _ hj₁ hh => ?_) fun s₁ _ hj₁ _ => miss s₁ hj₁
  rw [Tx.view_of_unwritten hw] at hh
  have hany : (s₁.discount id).any (fun row => row.status == .draft) = true := hh
  obtain ⟨old, hold, hstatus⟩ := (Option.any_eq_true _ _).1 hany
  have hc : Changes id (some old) (some (old.patched patch)) (t.wrote (.update id patch .draft)) :=
    .first hw rfl (congrArg some (if_pos ⟨rfl, hstatus⟩))
  refine safe_holding hc.held hj₁ hold ?_
  exact safe_reload hX (fun s hj => hj.2) hc fun t₂ s₂ d hc₂ hvalid hj₂ =>
    hit t₂ s₂ old d hc₂ (beq_iff_eq.1 hstatus) hvalid hj₂.1 hj₂.2

theorem safe_transitionStatus {id : Nat} {expected : List CustomDiscountStatus} {toStatus : CustomDiscountStatus}
    (hX : ∀ e, X e) (hw : t.writes = [])
    (hit : ∀ t' s' old d, Changes id (some old) (some { old with status := toStatus }) t' →
      expected.contains old.status = true → J s' → s'.discount id = some old →
      Prog.Safe rowLocks (fun s => J s ∧ s.discount id = some old) X Q (f (some d)) t' s')
    (miss : ∀ s', J s' → Prog.Safe rowLocks J X Q (f none) t s') :
    Prog.Safe rowLocks J X Q (Prog.bind (CustomDiscountRepository.transitionStatus id expected toStatus) f) t s := by
  unfold CustomDiscountRepository.transitionStatus
  simp only [Prog.bind_eq, Prog.bind_assoc]
  refine Prog.Safe.update (fun s₁ _ hj₁ hh => ?_) fun s₁ _ hj₁ _ => miss s₁ hj₁
  rw [Tx.view_of_unwritten hw] at hh
  have hany : (s₁.discount id).any (fun row => expected.contains row.status) = true := hh
  obtain ⟨old, hold, hstatus⟩ := (Option.any_eq_true _ _).1 hany
  have hc : Changes id (some old) (some { old with status := toStatus }) (t.wrote (.transition id expected toStatus)) :=
    .first hw rfl (congrArg some (if_pos ⟨rfl, hstatus⟩))
  refine safe_holding hc.held hj₁ hold ?_
  exact safe_reload hX (fun s hj => hj.2) hc fun t₂ s₂ d hc₂ _ hj₂ => hit t₂ s₂ old d hc₂ hstatus hj₂.1 hj₂.2

theorem safe_simpleTransition {id : Nat} {expected : List CustomDiscountStatus} {toStatus : CustomDiscountStatus}
    {op : String} (hX : ∀ e, X e)
    (hcycle : ∀ status, expected.contains status = true → follows status toStatus = true) :
    Prog.Safe rowLocks J X (fun t s _ => Outcome t s)
      (answered (CustomDiscountService.simpleTransition id expected toStatus op)) .start s := by
  unfold answered CustomDiscountService.simpleTransition
  simp only [Prog.bind_eq, Prog.bind_assoc]
  refine safe_transitionStatus hX rfl (fun t' s' old d hc hstatus hj hold => ?_) fun s' hj => safe_refuse hX id op _ hj
  intro s₂ _ hj₂
  exact hc.outcome hj₂.2 (.moved (hcycle old.status hstatus))

theorem safe_create (hX : ∀ e, X e) (input : CreateCustomDiscountInput) (createdBy : Option Nat) :
    Prog.Safe rowLocks J X (fun t s _ => Outcome t s) (Op.create input createdBy).prog .start s := by
  unfold Op.prog answered CustomDiscountService.create CustomDiscountRepository.create
  simp only [Prog.bind_eq, Prog.bind_assoc]
  refine Prog.Safe.ofExcept hX fun _ _ => Prog.Safe.uuid fun s₁ id _ hj₁ habsent _ => ?_
  refine safe_holding (i := id) List.mem_cons_self hj₁ (Option.isNone_iff_eq_none.1 habsent) ?_
  refine Prog.Safe.insertOr hX fun s₂ _ hj₂ _ => ?_
  generalize hrow : ({ CustomDiscountRepository.newRow id input (toNumeric input.amount) createdBy with
    conditions := orElse (CustomDiscountRepository.newRow id input (toNumeric input.amount) createdBy).conditions
      (.obj []) } : CustomDiscount) = row
  have hid : row.id = id := by rw [← hrow]; rfl
  have hdraft : row.status = .draft := by rw [← hrow]; rfl
  have hc : Changes id none (some row) ((Tx.start.locked (Key.row id)).wrote (.insert row)) := by
    refine .first rfl (congrArg (fun i => [Key.row i]) hid) ?_
    show Option.or none (if row.id = id then some row else none) = some row
    rw [if_pos hid]
    rfl
  refine safe_reload hX (fun s hj => hj.2) hc fun t₃ s₃ d hc₃ hvalid _ => ?_
  exact Prog.Safe.require hX fun _ _ s₄ _ hj₄ => hc₃.outcome hj₄.2 (.created hdraft hvalid)

theorem safe_updateOp (hX : ∀ e, X e) (id : Nat) (patch : UpdateCustomDiscountPatch) (hj : J s) :
    Prog.Safe rowLocks J X (fun t s _ => Outcome t s) (Op.update id patch).prog .start s := by
  unfold Op.prog answered CustomDiscountService.update
  simp only [Prog.bind_eq, Prog.bind_assoc]
  refine Prog.Safe.bind_frame (onlyWrites_findById (P := fun _ => False) id) hX hj fun existing t₁ s₁ he _ _ => ?_
  refine Prog.Safe.require hX fun existing _ => Prog.Safe.guardOr hX fun _ => Prog.Safe.ofExcept hX fun _ _ => ?_
  refine safe_update hX he.unwritten (fun t' s' old d hc hstatus hvalid hj hold => ?_)
    fun s' hj => safe_refuse hX id "update" _ hj
  intro s₂ _ hj₂
  exact hc.outcome hj₂.2 (.patched hstatus hstatus hvalid)

theorem onlyWrites_notifyActivated (resolve : CustomDiscount → Option (List Nat)) (flipped : CustomDiscount) :
    Prog.OnlyWrites (fun w => ∃ event, w = .enqueue event) (CustomDiscountService.notifyActivated resolve flipped) := by
  unfold CustomDiscountService.notifyActivated
  split
  · refine .require fun targets => ?_
    by_cases hempty : targets.isEmpty = true
    · rw [if_pos hempty]
      trivial
    · rw [if_neg hempty]
      refine ⟨⟨_, rfl⟩, fun inserted => ?_⟩
      cases inserted <;> trivial
  · trivial

theorem safe_activate (hX : ∀ e, X e) (resolve : CustomDiscount → Option (List Nat)) (id : Nat) :
    Prog.Safe rowLocks J X (fun t s _ => Outcome t s) (Op.activate resolve id).prog .start s := by
  unfold Op.prog answered CustomDiscountService.activate CustomDiscountRepository.findByIdForUpdate
  simp only [Prog.bind_eq, Prog.bind_assoc]
  refine Prog.Safe.acquire fun s₁ _ hj₁ => Prog.Safe.acquire fun s₂ _ hj₂ => ?_
  refine Prog.Safe.bind_frame (onlyWrites_findById (P := fun _ => False) id) hX hj₂ fun locked t₁ s₁ he _ _ => ?_
  refine Prog.Safe.require hX fun locked _ => Prog.Safe.guardOr hX fun _ => ?_
  refine safe_transitionStatus hX he.unwritten (fun t' s' old d hc hstatus hj' hold => ?_)
    fun _ _ => Prog.Safe.require hX fun _ ha => (nomatch ha)
  refine Prog.Safe.require hX fun flipped _ => ?_
  refine Prog.Safe.bind_frame (onlyWrites_notifyActivated resolve flipped) hX ⟨hj', hold⟩ fun _ t₃ s₃ he₃ _ _ => ?_
  intro s₄ _ hj₄
  refine (hc.extends he₃).outcome hj₄.2 (.moved ?_)
  have hdraft : old.status = .draft := by simpa using hstatus
  rw [hdraft]
  rfl

/-! ### The batch -/

/-- A row is as it was, or has been expired. -/
structure Expiring (t : Tx Store Key Write) (s : Store) : Prop where
  keys : ∀ w ∈ t.writes, Relational.keys Store w ⊆ t.held
  row : ∀ i, (t.view s).discount i = s.discount i ∨ ∃ old, s.discount i = some old ∧
    follows old.status .expired = true ∧ (t.view s).discount i = some { old with status := .expired }

theorem Expiring.rely {s' : Store} (h : Expiring t s) (hr : rowLocks.rely t.held s s') : Expiring t s' := by
  refine ⟨h.keys, fun i => ?_⟩
  by_cases hi : Key.row i ∈ t.held
  · have hsame := hr i hi
    have hview : (t.view s').discount i = (t.view s).discount i := by rw [discount_view, discount_view, hsame]
    rw [hview, hsame]
    exact h.row i
  · exact .inl (discount_view_of_not_held h.keys hi s')

theorem Expiring.outcome (h : Expiring t s) : Outcome t s := by
  intro i
  rcases h.row i with hsame | ⟨old, hold, hfollows, hnew⟩
  · rw [hsame]
    exact .same _
  · rw [hold, hnew]
    exact .moved hfollows

theorem Expiring.wrote {id : Nat} {now : Int} (h : Expiring t s)
    (hit : Relational.hit (t.view s) (Write.expire id now) = true) : Expiring (t.wrote (.expire id now)) s := by
  have hany : ((t.view s).discount id).any (Store.expires now) = true := hit
  obtain ⟨row, hrow, hexpires⟩ := (Option.any_eq_true _ _).1 hany
  have hstatus : [CustomDiscountStatus.active, .paused].contains row.status = true :=
    (Bool.and_eq_true_iff.1 hexpires).1
  have hview : ∀ i, ((t.wrote (.expire id now)).view s).discount i =
      (Write.expire id now).effect i ((t.view s).discount i) := fun i => by rw [Tx.view_wrote, discount_apply]
  refine ⟨fun w hw => ?_, fun i => ?_⟩
  · rcases List.mem_append.1 hw with hw | hw
    · exact List.Subset.trans (h.keys w hw) (List.subset_append_right _ _)
    · rw [List.mem_singleton.1 hw]
      exact List.subset_append_left _ _
  · rw [hview]
    by_cases hi : i = id
    · subst hi
      rw [hrow]
      rcases h.row i with hsame | ⟨old, hold, hfollows, hnew⟩
      · refine .inr ⟨row, hsame.symm.trans hrow, ?_, congrArg some (if_pos ⟨rfl, hexpires⟩)⟩
        cases hs : row.status with
        | active => rfl
        | paused => rfl
        | _ =>
          rw [hs] at hstatus
          exact absurd hstatus (by decide)
      · have hrow' : row = { old with status := .expired } := Option.some.inj (hrow.symm.trans hnew)
        rw [hrow'] at hstatus
        have hexpired : [CustomDiscountStatus.active, .paused].contains CustomDiscountStatus.expired = true := hstatus
        exact absurd hexpired (by decide)
    · rw [effect_of_ne fun hmem => hi (Key.row.inj (List.mem_singleton.1 hmem))]
      exact h.row i

theorem safe_expireEach (now : Int) (expired ids : List Nat) (h : Expiring t s) :
    Prog.Safe rowLocks J X (fun t s _ => Expiring t s) (CustomDiscountRepository.expireEach now expired ids) t s := by
  induction ids generalizing expired t s with
  | nil => exact fun s' hr _ => h.rely hr
  | cons id ids ih =>
    unfold CustomDiscountRepository.expireEach
    exact Prog.Safe.update (fun s' hr _ hit => ih _ ((h.rely hr).wrote hit)) fun s' hr _ _ => ih _ (h.rely hr)

theorem safe_expireOverdue (now : Int) :
    Prog.Safe rowLocks J X (fun t s _ => Outcome t s) (Op.expireOverdue now).prog .start s := by
  refine Prog.Safe.map (Q := fun t s _ => Expiring t s) ?_ fun _ _ _ _ h => h.outcome
  unfold CustomDiscountService.expireOverdue CustomDiscountRepository.markExpiredBatch
  simp only [Prog.bind_eq]
  refine Prog.Safe.query fun v _ _ => safe_expireEach now [] _ ⟨fun _ hw => absurd hw List.not_mem_nil, fun i => .inl ?_⟩
  rw [Tx.view_saw, Tx.view_start]

theorem safe_prog (op : Op) (hj : J s) :
    Prog.Safe rowLocks J (fun _ => True) (fun t s _ => Outcome t s) op.prog .start s := by
  have hX : ∀ e : DiscountError, (fun _ => True) e := fun _ => trivial
  cases op with
  | create input createdBy => exact safe_create hX input createdBy
  | update id patch => exact safe_updateOp hX id patch hj
  | activate resolve id => exact safe_activate hX resolve id
  | pause id =>
    refine safe_simpleTransition hX fun status h => ?_
    cases status <;> first | rfl | exact absurd h (by decide)
  | resume id =>
    refine safe_simpleTransition hX fun status h => ?_
    cases status <;> first | rfl | exact absurd h (by decide)
  | cancel id =>
    refine safe_simpleTransition hX fun status h => ?_
    cases status <;> first | rfl | exact absurd h (by decide)
  | expireOverdue now => exact safe_expireOverdue now

end

/-! ## Commits -/

section

variable {t : Tx Store Key Write} {s : Store}

theorem guarantee_of_keys (hkeys : ∀ w ∈ t.writes, Relational.keys Store w ⊆ t.held) : rowLocks.Guarantee t s := by
  intro held hd i hi
  exact discount_view_of_not_held hkeys (fun hmine => hd hmine hi) s

theorem RowStep.valid {o o' : Option CustomDiscount} (h : RowStep o o') (ho : ∀ row, o = some row → row.Valid) :
    ∀ row, o' = some row → row.Valid := by
  intro row hrow
  cases h with
  | same => exact ho row hrow
  | created draft valid => exact Option.some.inj hrow ▸ valid
  | patched was draft valid => exact Option.some.inj hrow ▸ valid
  | @moved old toStatus hfollows => exact Option.some.inj hrow ▸ (ho old rfl).withStatus toStatus

theorem Outcome.valid (h : Outcome t s) (hu : Table.Unique s.discounts) (hs : ∀ row ∈ s.discounts, row.Valid) :
    ∀ row ∈ (t.view s).discounts, row.Valid := by
  intro row hrow
  have hfind : (t.view s).discount row.id = some row := Table.find_of_mem (unique_view hu t) hrow
  exact (h row.id).valid (fun old hold => hs old (Table.mem_of_find hold)) row hfind

theorem Outcome.advances (h : Outcome t s) (hu : Table.Unique s.discounts) : Advances s (t.view s) := by
  have hfound : ∀ row ∈ (t.view s).discounts, (t.view s).discount row.id = some row := fun row hrow =>
    Table.find_of_mem (unique_view hu t) hrow
  refine ⟨fun row hrow => ?_, fun row hrow hnone => ?_, fun row hrow old hold => ?_⟩
  · have hfind : s.discount row.id = some row := Table.find_of_mem hu hrow
    have hstep := h row.id
    rw [hfind] at hstep
    generalize (t.view s).discount row.id = o at hstep
    cases hstep <;> rfl
  · have hstep := h row.id
    rw [hnone, hfound row hrow] at hstep
    cases hstep with
    | created draft valid => exact draft
  · have hstep := h row.id
    rw [hold, hfound row hrow] at hstep
    cases hstep with
    | same => exact .inl rfl
    | patched was draft valid => exact .inl (draft.trans was.symm)
    | moved hfollows => exact .inr hfollows

theorem Outcome.frozen (h : Outcome t s) (hu : Table.Unique s.discounts) {id : Nat} {catalogue : CustomDiscount}
    (hs : Frozen id catalogue s) : Frozen id catalogue (t.view s) := by
  obtain ⟨row, hrow, rfl, hstatus, rfl⟩ := hs
  have hfind : s.discount row.id = some row := Table.find_of_mem hu hrow
  have hstep := h row.id
  rw [hfind] at hstep
  generalize hnew : (t.view s).discount row.id = o at hstep
  cases hstep with
  | same => exact ⟨row, Table.mem_of_find hnew, rfl, hstatus, rfl⟩
  | patched was draft valid => exact absurd was hstatus
  | @moved _ toStatus hfollows =>
    refine ⟨_, Table.mem_of_find hnew, rfl, ?_, rfl⟩
    rintro rfl
    cases hs : row.status <;> rw [hs] at hfollows <;> cases hfollows

end

/-! ## Runs -/

/-- **The catalogue.**  Every committed row hydrates, statuses follow the life cycle, and a row that has left draft keeps
its catalogue fields. -/
theorem catalogue_stays_valid {n : Nat} {s : Store} {cs : Schedule n} {σ : System n} (hu : Table.Unique s.discounts)
    (hs : ∀ row ∈ s.discounts, row.hydrates = true) (hrun : run s cs = some σ) :
    Always (fun s => ∀ row ∈ s.discounts, row.hydrates = true ∧ row.Valid) s σ.log ∧
      AtEach (fun s c => Advances s (c.tx.view s)) s σ.log ∧
      ∀ id catalogue, Lasting (Frozen id catalogue) s σ.log := by
  have hvalid : ∀ row ∈ s.discounts, row.Valid := fun row hrow => hydrates_iff.1 (hs row hrow)
  have hops : System.Starts (fun _ => True) cs := fun _ _ _ => trivial
  have hchain := System.exec_chain (D := rowLocks) (J := fun s => Table.Unique s.discounts) (X := fun _ => True)
    (Q := fun _ t s _ => Outcome t s ∧ ∀ w ∈ t.writes, Relational.keys Store w ⊆ t.held) hu
    (fun op s _ hj => (safe_prog op hj).withKeys fun _ => trivial) (fun _ t _ _ hj _ => unique_view hj t)
    (fun _ _ _ _ _ h => guarantee_of_keys h.2) hops hrun
  refine ⟨?_, hchain.atEach.mono fun s c h => h.2.1.advances h.1, fun id catalogue => ?_⟩
  · refine (hchain.always (fun s => ∀ row ∈ s.discounts, row.Valid) hvalid fun s c hrows h => h.2.1.valid h.1 hrows).mono
      fun s c h row hrow => ⟨hydrates_iff.2 (h row hrow), h row hrow⟩
  · exact lasting_iff.2 (hchain.atEach.mono fun s c h => h.2.1.frozen h.1)

/-! ## Two patches of one draft -/

/-- A draft for an age, until day 10. -/
def springDiscount : CustomDiscount :=
  { id := 1, name := [("ru", "Весна")], description := none, discountType := .percentage, amount := 1500
    conditions := .obj [("type", .str "age_range"), ("from_months", .num 12), ("to_months", .num 36)]
    targetType := "age_range", targetIds := none, validFrom := 0, validUntil := some 10, maxUsesPerChild := some 1
    totalMaxUses := none, usedCount := 0, priority := 100, stackable := false, notifyOnActivation := true
    notificationTitle := some [("ru", "Скидка")], notificationBody := some [("ru", "15%")], status := .draft
    createdBy := none }

def noPatch : UpdateCustomDiscountPatch :=
  ⟨none, none, none, none, none, none, none, none, none, none, none, none, none, none, none, none⟩

/-- One patch names a group, the other one drops the target; then the discount is activated, and expires. -/
def patchedTwice : Schedule 2 :=
  .start 0 (.update 1 { noPatch with targetIds := some (some [4]) }) :: Choice.steps 0 1 0 ++
    .start 1 (.update 1 { noPatch with targetType := some "all" }) :: Choice.steps 1 1 0 ++ Choice.steps 0 4 0 ++
    Choice.steps 1 4 0 ++ Choice.request 0 (.activate (fun _ => some [7]) 1) 8 0 ++
    Choice.request 1 (.expireOverdue 20) 3 0

theorem catalogue_stays_valid_patchedTwice : ∃ σ : System 2, run ⟨[springDiscount], []⟩ patchedTwice = some σ ∧
    σ.log.length = 3 ∧ σ.db.discounts.map CustomDiscount.status = [.expired] ∧
    σ.db.discounts.map CustomDiscount.targetType = ["age_range"] ∧
    Always (fun s => ∀ row ∈ s.discounts, row.hydrates = true ∧ row.Valid) ⟨[springDiscount], []⟩ σ.log ∧
      AtEach (fun s c => Advances s (c.tx.view s)) ⟨[springDiscount], []⟩ σ.log ∧
      ∀ id catalogue, Lasting (Frozen id catalogue) ⟨[springDiscount], []⟩ σ.log := by
  obtain ⟨σ, hrun, h⟩ := run_shows run ⟨[springDiscount], []⟩ patchedTwice (fun σ : System 2 =>
    decide (σ.log.length = 3 ∧ σ.db.discounts.map CustomDiscount.status = [.expired] ∧
      σ.db.discounts.map CustomDiscount.targetType = ["age_range"])) (by decide +kernel)
  have h := of_decide_eq_true h
  exact ⟨σ, hrun, h.1, h.2.1, h.2.2,
    catalogue_stays_valid (by unfold Table.Unique; decide) (by decide +kernel) hrun⟩

end Discounts
