import Shyraq.Meals.Services
import Shyraq.Transactions.Serial

/-!
# Copying a week

Whoever holds the lock of the target week is the only one to write to it: the call runs as if alone.  The first one
to commit takes every free slot, the others find none.
-/

namespace Meals

open Kernel Transactions

/-! ## What is claimed -/

/-- The plans of the week that starts on day `w`. -/
def Store.sourcePlans (s : Store) (w : Int) : List MealPlanEntity :=
  s.plans.filter fun plan => decide (w ≤ plan.date ∧ plan.date ≤ w + 6)

/-- The slot that a plan is copied to. -/
def MealPlanEntity.nextSlot (plan : MealPlanEntity) : Slot := slotKey (plan.date + 7) plan.groupId

/-- Those whose slot a week later is free. -/
def Store.copyable (s : Store) (w : Int) : List MealPlanEntity :=
  (s.sourcePlans w).filter fun plan => !s.occupies plan.nextSlot

def Store.dishes (s : Store) (planId : Nat) : List MealItemInput := (s.itemsOf planId).map MealItem.toMealItemInput

/-- The same menu a week later. -/
structure CopyOf (s s' : Store) (src copy : MealPlanEntity) : Prop where
  row : copy = { src with
    id := copy.id, date := src.date + 7, source := copy.source, copiedFrom := some src.id }
  dishes : (s'.dishes copy.id).Perm (s.dishes src.id)

/-- From `s` to `s'` the week has been copied: one copy of each plan whose slot was free, and nothing else. -/
structure WeekCopied (w : Int) (s s' : Store) (copies : List MealPlanEntity) : Prop where
  plans : s'.plans = s.plans ++ copies
  copied : ∃ sources, sources.Perm (s.copyable w) ∧ List.Forall₂ (CopyOf s s') sources copies
  items : ∃ added, s'.items = s.items ++ added ∧ ∀ item ∈ added, ∃ copy ∈ copies, item.mealPlanId = copy.id
  unchanged : ∀ plan ∈ s.plans, s'.itemsOf plan.id = s.itemsOf plan.id

/-- The foreign key of an item. -/
def Store.WF (s : Store) : Prop := ∀ item ∈ s.items, ∃ plan ∈ s.plans, plan.id = item.mealPlanId

instance (s : Store) : Decidable s.WF := inferInstanceAs (Decidable (∀ _ ∈ _, _))

/-! ## Inserting the copies -/

def MealPlan.Owned (plan : MealPlan) : Prop := ∀ item ∈ plan.items, item.mealPlanId = plan.id

variable {plan : MealPlan}

section

variable {v v' : Store} {u : Unit}

theorem hit_insertPlan {plan : MealPlanEntity} (h : v.hit (.insertPlan plan) = true) :
    v.plan plan.id = none ∧ v.occupies plan.slot = false := by
  simp only [Store.hit, Bool.and_eq_true, Bool.not_eq_true', Option.isNone_iff_eq_none] at h
  exact h.1

theorem yields_insert (h : (MealPlanRepository.insert plan).Yields v u v') :
    v.plan plan.id = none ∧ v'.plans = v.plans ++ [plan.toMealPlanEntity] ∧ v'.items = v.items ++ plan.items := by
  unfold MealPlanRepository.insert at h
  simp only [Prog.bind_eq, Prog.pure_eq, Prog.yields_bind, Prog.yields_insertOr] at h
  obtain ⟨_, v₁, ⟨hplan, rfl⟩, hitems⟩ := h
  have happly : Relational.apply v (Write.insertPlan plan.toMealPlanEntity) =
      { v with plans := v.plans ++ [plan.toMealPlanEntity] } := if_pos hplan
  rw [happly] at hitems
  refine ⟨(hit_insertPlan hplan).1, ?_⟩
  by_cases hempty : plan.items.isEmpty = true
  · rw [if_pos hempty] at hitems
    obtain ⟨-, rfl⟩ := hitems
    rw [List.isEmpty_iff.1 hempty, List.append_nil]
    exact ⟨rfl, rfl⟩
  · rw [if_neg hempty] at hitems
    obtain ⟨hhit, rfl⟩ := Prog.yields_insertOr.1 hitems
    have happly : Relational.apply { v with plans := v.plans ++ [plan.toMealPlanEntity] }
        (Write.insertItems plan.items) =
        ⟨v.plans ++ [plan.toMealPlanEntity], v.items ++ plan.items⟩ := if_pos hhit
    rw [happly]
    exact ⟨rfl, rfl⟩

theorem yields_inserts {plans : List MealPlan} (h : (Prog.forEach MealPlanRepository.insert plans).Yields v u v') :
    v'.plans = v.plans ++ plans.map MealPlan.toMealPlanEntity ∧ v'.items = v.items ++ plans.flatMap MealPlan.items ∧
      (∀ plan ∈ plans, v.plan plan.id = none) ∧ (plans.map fun plan => plan.id).Nodup := by
  induction plans generalizing v with
  | nil =>
    obtain rfl := Prog.yields_forEach_nil.1 h
    simp
  | cons plan plans ih =>
    obtain ⟨v₁, hfirst, hrest⟩ := Prog.yields_forEach_cons.1 h
    obtain ⟨hnone, hplans, hitems⟩ := yields_insert hfirst
    obtain ⟨hplans', hitems', hnones, hnodup⟩ := ih hrest
    -- the plans that follow find neither the earlier rows nor this one
    have hlater : ∀ next ∈ plans, v.plan next.id = none ∧ next.id ≠ plan.id := by
      intro next hnext
      have hfind : Table.find v₁.plans next.id = none := hnones next hnext
      rw [Table.find_eq_none, hplans] at hfind
      refine ⟨Table.find_eq_none.2 fun r hr => hfind r (List.mem_append_left _ hr), fun heq => ?_⟩
      exact hfind _ (List.mem_append_right _ List.mem_cons_self) heq.symm
    refine ⟨?_, ?_, ?_, ?_⟩
    · rw [hplans', hplans, List.map_cons, List.append_assoc, List.singleton_append]
    · rw [hitems', hitems, List.flatMap_cons, List.append_assoc]
    · intro next hnext
      rcases List.mem_cons.1 hnext with rfl | hnext
      · exact hnone
      · exact (hlater next hnext).1
    · rw [List.map_cons, List.nodup_cons]
      refine ⟨fun hmem => ?_, hnodup⟩
      obtain ⟨next, hnext, heq⟩ := List.mem_map.1 hmem
      exact (hlater next hnext).2 heq

end

theorem filter_owned {id : Nat} (h : plan.Owned) :
    (plan.items.filter fun item => item.mealPlanId == id) = if plan.id = id then plan.items else [] := by
  split
  · next heq =>
    refine List.filter_eq_self.2 fun item hitem => ?_
    rw [h item hitem, heq, beq_self_eq_true]
  · next hne =>
    refine List.filter_eq_nil_iff.2 fun item hitem heq => ?_
    rw [h item hitem] at heq
    exact hne (beq_iff_eq.1 heq)

theorem itemsOf_inserted {plans : List MealPlan} (howned : ∀ plan ∈ plans, plan.Owned)
    (hnodup : (plans.map fun plan => plan.id).Nodup) (hplan : plan ∈ plans) :
    ((plans.flatMap MealPlan.items).filter fun item => item.mealPlanId == plan.id) = plan.items := by
  induction plans with
  | nil => cases hplan
  | cons first plans ih =>
    rw [List.map_cons, List.nodup_cons] at hnodup
    have hrest : ∀ next ∈ plans, next.Owned := fun next hnext => howned next (List.mem_cons_of_mem _ hnext)
    rw [List.flatMap_cons, List.filter_append, filter_owned (howned first List.mem_cons_self)]
    rcases List.mem_cons.1 hplan with rfl | hplan
    · -- none of the others is this plan's
      have hnone : ((plans.flatMap MealPlan.items).filter fun item => item.mealPlanId == plan.id) = [] := by
        refine List.filter_eq_nil_iff.2 fun item hitem heq => ?_
        obtain ⟨next, hnext, hitem⟩ := List.mem_flatMap.1 hitem
        rw [hrest next hnext item hitem] at heq
        exact hnodup.1 (List.mem_map.2 ⟨next, hnext, beq_iff_eq.1 heq⟩)
      rw [if_pos rfl, hnone, List.append_nil]
    · have hne : first.id ≠ plan.id := fun heq => hnodup.1 (List.mem_map.2 ⟨plan, hplan, heq.symm⟩)
      rw [if_neg hne, List.nil_append, ih hrest hnodup.2 hplan]

/-! ## One call -/

theorem exists_of_mem_right {A B : Type} {ρ : A → B → Prop} {l : List A} {l' : List B} (h : List.Forall₂ ρ l l') {b : B}
    (hb : b ∈ l') : ∃ a ∈ l, ρ a b := by
  induction h with
  | nil => cases hb
  | cons hρ _ ih =>
    rcases List.mem_cons.1 hb with rfl | hb
    · exact ⟨_, List.mem_cons_self, hρ⟩
    · obtain ⟨a, ha, hab⟩ := ih hb
      exact ⟨a, List.mem_cons_of_mem _ ha, hab⟩

/-- What the projection of a plan is turned into. -/
structure Projected.Becomes (source : MealPlanSource) (p : MealService.Projected) (plan : MealPlan) : Prop where
  row : plan.toMealPlanEntity = { p.src.toMealPlanEntity with
    id := plan.id, date := p.targetDate, source := plan.source, copiedFrom := some p.src.id }
  owned : plan.Owned
  dishes : plan.items.map MealItem.toMealItemInput = p.src.items.map MealItem.toMealItemInput

section

variable {v v' : Store}

theorem yields_copyItem {newPlanId : Nat} {item copy : MealItem}
    (h : (MealService.copyItem newPlanId item).Yields v copy v') :
    v' = v ∧ copy.mealPlanId = newPlanId ∧ copy.toMealItemInput = item.toMealItemInput := by
  unfold MealService.copyItem at h
  simp only [Prog.bind_eq, Prog.pure_eq, Prog.yields_bind, Prog.yields_uuid, Prog.yields_ret] at h
  obtain ⟨id, u, ⟨-, rfl⟩, rfl, rfl⟩ := h
  exact ⟨rfl, rfl, rfl⟩

theorem yields_copyPlan {source : MealPlanSource} {p : MealService.Projected}
    (h : (MealService.copyPlan source p).Yields v plan v') : v' = v ∧ Projected.Becomes source p plan := by
  unfold MealService.copyPlan at h
  simp only [Prog.bind_eq, Prog.pure_eq, Prog.yields_bind, Prog.yields_uuid, Prog.yields_ret] at h
  obtain ⟨newPlanId, _, ⟨-, rfl⟩, items, _, hitems, rfl, rfl⟩ := h
  obtain ⟨rfl, hcopies⟩ := Prog.yields_collect
    (ρ := fun item copy : MealItem => copy.mealPlanId = newPlanId ∧ copy.toMealItemInput = item.toMealItemInput)
    (fun item _ s copy s' => yields_copyItem) hitems
  refine ⟨rfl, rfl, fun copy hcopy => ?_, ?_⟩
  · obtain ⟨_, -, hid, -⟩ := exists_of_mem_right hcopies hcopy
    exact hid
  · have hdishes : List.Forall₂ (fun item copy : MealItem => item.toMealItemInput = copy.toMealItemInput)
        p.src.items items := hcopies.imp fun _ _ h => h.2.symm
    have hmap := List.forall₂_map_right_iff.2 (List.forall₂_map_left_iff.2 hdishes)
    rw [List.forall₂_eq_eq_eq] at hmap
    exact hmap.symm

end

/-! ## What is copied -/

theorem targetDate_project (src : MealPlan) : (MealService.project src).targetDate = src.date + 7 := by
  show utcDay (midnight src.date + 7 * msPerDay) = src.date + 7
  unfold utcDay midnight msPerDay
  omega

theorem utcDay_addDaysUtc (t days : Int) : utcDay (MealService.addDaysUtc t days) = utcDay t + days := by
  unfold MealService.addDaysUtc utcDay msPerDay
  omega

/-- The range of the occupied slots takes in every slot that is asked for. -/
theorem contains_occupied (s : Store) {a b : Int} (slot : Slot) (ha : a ≤ slot.1) (hb : slot.1 ≤ b) :
    ((s.plans.filter fun plan => decide (a ≤ plan.date ∧ plan.date ≤ b)).map MealPlanEntity.slot).contains slot =
      s.occupies slot := by
  rw [Bool.eq_iff_iff, List.contains_iff_mem, List.mem_map]
  unfold Store.occupies
  rw [List.any_eq_true]
  constructor
  · rintro ⟨plan, hplan, heq⟩
    exact ⟨plan, List.mem_of_mem_filter hplan, beq_iff_eq.2 heq⟩
  · rintro ⟨plan, hplan, heq⟩
    have heq := beq_iff_eq.1 heq
    have hdate : plan.date = slot.1 := congrArg Prod.fst heq
    refine ⟨plan, List.mem_filter.2 ⟨hplan, decide_eq_true ?_⟩, heq⟩
    omega

/-- The rows that are read are those of the week, each with its own items. -/
theorem rows_perm (s : Store) (w : Int) :
    ((MealPlanRepository.rows ⟨w, w + 6⟩ s).map MealPlan.toMealPlanEntity).Perm (s.sourcePlans w) := by
  unfold MealPlanRepository.rows
  rw [List.map_map]
  show (List.map id _).Perm _
  rw [List.map_id]
  exact List.perm_insertionSort _ _

theorem items_of_mem_rows {s : Store} {filter : ListMealPlansFilter}
    (h : plan ∈ MealPlanRepository.rows filter s) : plan.items.Perm (s.itemsOf plan.id) := by
  obtain ⟨row, -, rfl⟩ := List.mem_map.1 h
  exact List.perm_insertionSort _ _

/-- The projections that are kept. -/
def kept (s : Store) (w : Int) : List MealService.Projected :=
  ((MealPlanRepository.rows ⟨w, w + 6⟩ s).map MealService.project).filter fun p =>
    !((s.plans.filter fun plan => decide (w + 7 ≤ plan.date ∧ plan.date ≤ w + 13)).map MealPlanEntity.slot).contains
      (slotKey p.targetDate p.src.groupId)

theorem kept_perm (s : Store) (w : Int) : ((kept s w).map fun p => p.src.toMealPlanEntity).Perm (s.copyable w) := by
  unfold kept Store.copyable
  rw [List.filter_map, List.map_map]
  refine List.Perm.trans (List.Perm.of_eq ?_) ((rows_perm s w).filter _)
  rw [List.filter_map]
  show List.map MealPlan.toMealPlanEntity _ = _
  refine congrArg (List.map MealPlan.toMealPlanEntity) (List.filter_congr fun plan hplan => ?_)
  have hrow : plan.toMealPlanEntity ∈ s.sourcePlans w :=
    (rows_perm s w).mem_iff.1 (List.mem_map_of_mem hplan)
  have hweek := of_decide_eq_true (List.mem_filter.1 hrow).2
  show (!List.contains _ (slotKey (MealService.project plan).targetDate plan.groupId)) = !s.occupies _
  rw [targetDate_project]
  congr 1
  exact contains_occupied s (slotKey (plan.date + 7) plan.groupId)
    (show w + 7 ≤ plan.date + 7 by omega) (show plan.date + 7 ≤ w + 13 by omega)

theorem kept_length (s : Store) (w : Int) : (kept s w).length ≤ (s.sourcePlans w).length := by
  have hkept := (kept_perm s w).length_eq
  rw [List.length_map] at hkept
  rw [hkept]
  exact List.length_filter_le _ _

section

variable {v v' : Store} {w : Int} {plans : List MealPlan}

theorem dishes_append {added : List MealItem} (h : v'.items = v.items ++ added) (id : Nat) :
    v'.itemsOf id = v.itemsOf id ++ added.filter fun item => item.mealPlanId == id := by
  unfold Store.itemsOf
  rw [h, List.filter_append]

theorem itemsOf_absent {id : Nat} (hwf : v.WF) (h : v.plan id = none) : v.itemsOf id = [] := by
  refine List.filter_eq_nil_iff.2 fun item hitem heq => ?_
  obtain ⟨plan, hplan, hid⟩ := hwf item hitem
  exact Table.find_eq_none.1 h plan hplan (hid.trans (beq_iff_eq.1 heq))

theorem weekCopied_of_inserts {source : MealPlanSource} (hwf : v.WF)
    (hbecome : List.Forall₂ (Projected.Becomes source) (kept v w) plans)
    (h : (Prog.forEach MealPlanRepository.insert plans).Yields v () v') :
    WeekCopied w v v' (plans.map MealPlan.toMealPlanEntity) := by
  obtain ⟨hplans, hitems, hnone, hnodup⟩ := yields_inserts h
  have howned : ∀ plan ∈ plans, plan.Owned := fun plan hplan => by
    obtain ⟨_, -, hp⟩ := exists_of_mem_right hbecome hplan
    exact hp.owned
  refine ⟨hplans, ⟨_, kept_perm v w, ?_⟩, ⟨_, hitems, fun item hitem => ?_⟩, fun old hold => ?_⟩
  · refine List.forall₂_map_left_iff.2 (List.forall₂_map_right_iff.2 ?_)
    have hmem : ∀ p ∈ kept v w, p.targetDate = p.src.date + 7 ∧ p.src.items.Perm (v.itemsOf p.src.id) := by
      intro p hp
      obtain ⟨src, hsrc, rfl⟩ := List.mem_map.1 (List.mem_of_mem_filter hp)
      exact ⟨targetDate_project src, items_of_mem_rows hsrc⟩
    refine List.forall₂_iff_zip.2 ⟨hbecome.length_eq, fun {p plan} hzip => ?_⟩
    have hp := List.forall₂_zip hbecome hzip
    obtain ⟨hdate, hperm⟩ := hmem p (List.of_mem_zip hzip).1
    have hplan : plan ∈ plans := (List.of_mem_zip hzip).2
    refine ⟨?_, ?_⟩
    · rw [← hdate]
      exact hp.row
    · -- the copy has no other items than those inserted with it
      have hcopied : v'.itemsOf plan.id = plan.items := by
        rw [dishes_append hitems, itemsOf_absent hwf (hnone plan hplan), List.nil_append,
          itemsOf_inserted howned hnodup hplan]
      show ((v'.itemsOf plan.id).map MealItem.toMealItemInput).Perm ((v.itemsOf p.src.id).map MealItem.toMealItemInput)
      rw [hcopied, hp.dishes]
      exact hperm.map _
  · obtain ⟨plan, hplan, hitem⟩ := List.mem_flatMap.1 hitem
    exact ⟨plan.toMealPlanEntity, List.mem_map_of_mem hplan, howned plan hplan item hitem⟩
  · rw [dishes_append hitems]
    have hnothing : ((plans.flatMap MealPlan.items).filter fun item => item.mealPlanId == old.id) = [] := by
      refine List.filter_eq_nil_iff.2 fun item hitem heq => ?_
      obtain ⟨plan, hplan, hitem⟩ := List.mem_flatMap.1 hitem
      rw [howned plan hplan item hitem] at heq
      exact Table.find_eq_none.1 (hnone plan hplan) old hold (beq_iff_eq.1 heq).symm
    rw [hnothing, List.append_nil]

theorem weekCopied_of_none (h : kept v w = []) : WeekCopied w v v [] where
  plans := (List.append_nil _).symm
  copied := by
    have hperm := kept_perm v w
    rw [h] at hperm
    exact ⟨[], hperm, .nil⟩
  items := ⟨[], (List.append_nil _).symm, fun _ hitem => absurd hitem List.not_mem_nil⟩
  unchanged _ _ := rfl

/-- **One call.** -/
theorem yields_copyWeekMenuToNext {op : Op} {a : CopyWeekSummary} (hwf : v.WF) (h : op.prog.Yields v a v') :
    (∃ copies, WeekCopied (utcDay op.fromMonday) v v' copies) ∧
      a.plansCreated + a.plansSkipped = (v.sourcePlans (utcDay op.fromMonday)).length := by
  unfold Op.prog MealService.copyWeekMenuToNext MealPlanRepository.acquireWeekCopyLock MealPlanRepository.list at h
  simp only [Prog.bind_eq, Prog.pure_eq, Prog.yields_bind, Prog.yields_acquire, Prog.yields_query,
    utcDay_addDaysUtc] at h
  generalize utcDay op.fromMonday = w at h ⊢
  obtain ⟨_, u₁, hlocked, sourcePlans, u₂, ⟨rfl, hlisted⟩, h⟩ := h
  rw [hlisted, hlocked] at h
  have hlength : (MealPlanRepository.rows ⟨w, w + 6⟩ v).length = (v.sourcePlans w).length := by
    rw [← (rows_perm v w).length_eq, List.length_map]
  by_cases hempty : (MealPlanRepository.rows ⟨w, w + 6⟩ v).isEmpty = true
  · rw [if_pos hempty] at h
    obtain ⟨rfl, rfl⟩ := h
    have hnil := List.isEmpty_iff.1 hempty
    rw [hnil] at hlength
    refine ⟨⟨[], weekCopied_of_none ?_⟩, hlength⟩
    unfold kept
    rw [hnil]
    rfl
  rw [if_neg hempty] at h
  unfold MealService.copyFree MealPlanRepository.listOccupiedSlotsInRange at h
  simp only [Prog.bind_eq, Prog.pure_eq, Prog.yields_bind, Prog.yields_query] at h
  obtain ⟨_, u₃, ⟨rfl, hprobed⟩, h⟩ := h
  have hsunday : w + 7 + 6 = w + 13 := by omega
  rw [hprobed, hsunday, List.length_map, hlength] at h
  change Prog.Yields (if (kept v w).isEmpty then _ else _) _ _ _ at h
  by_cases hnone : (kept v w).isEmpty = true
  · rw [if_pos hnone] at h
    obtain ⟨rfl, hend⟩ := h
    have hnil := List.isEmpty_iff.1 hnone
    rw [hend]
    refine ⟨⟨[], weekCopied_of_none hnil⟩, ?_⟩
    show 0 + ((v.sourcePlans w).length - (kept v w).length) = _
    rw [hnil, List.length_nil]
    omega
  · rw [if_neg hnone] at h
    unfold MealPlanRepository.batchCreate at h
    simp only [Prog.bind_eq, Prog.pure_eq, Prog.yields_bind, Prog.yields_ret] at h
    obtain ⟨plans, u₄, hplans, _, _, ⟨_, _, hinserts, rfl, rfl⟩, rfl, rfl⟩ := h
    obtain ⟨hdrawn, hbecome⟩ := Prog.yields_collect (fun p _ s plan s' => yields_copyPlan) hplans
    rw [hdrawn] at hinserts
    refine ⟨⟨_, weekCopied_of_inserts hwf hbecome hinserts⟩, ?_⟩
    have hcount := kept_length v w
    have hall : (kept v w).length = plans.length := hbecome.length_eq
    show plans.length + ((v.sourcePlans w).length - (kept v w).length + 0) = _
    omega

end

/-! ## Any number of calls -/

/-- While the lock of the target week is held, nobody else gets further than asking for it. -/
def oneWeek (w : Int) : Discipline Store Key Write where
  rely held s s' := Key.weekCopy w ∈ held → s' = s
  refl _ _ _ := rfl
  trans h₁ h₂ hk := (h₂ hk).trans (h₁ hk)
  mono hs h hk := h (hs hk)

theorem safe_copyWeek {w : Int} {op : Op} {s : Store} (hop : utcDay op.fromMonday = w) :
    Prog.Safe (oneWeek (w + 7)) Store.WF (fun _ => True)
      (fun t s a => Key.weekCopy (w + 7) ∈ t.held ∧ (∃ copies, WeekCopied w s (t.view s) copies) ∧
        a.plansCreated + a.plansSkipped = (s.sourcePlans w).length) op.prog .start s := by
  have hkey : utcDay (MealService.addDaysUtc op.fromMonday 7) = w + 7 := by rw [utcDay_addDaysUtc, hop]
  intro s' _ hwf
  have hheld : Key.weekCopy (w + 7) ∈ (Tx.start.locked
      (.weekCopy (utcDay (MealService.addDaysUtc op.fromMonday 7))) : Tx Store Key Write).held := by
    rw [hkey]
    exact List.mem_cons_self
  refine Prog.Safe.still_of_yields hwf (fun s₁ hr => hr hheld) fun a t' hkeys hy => ⟨hkeys hheld, ?_⟩
  have hy : op.prog.Yields s' a (t'.view s') := hy
  exact hop ▸ yields_copyWeekMenuToNext hwf hy

section

variable {w : Int} {s v v' : Store} {copies copies' : List MealPlanEntity}

theorem WeekCopied.wf (h : WeekCopied w s v copies) (hwf : s.WF) : v.WF := by
  obtain ⟨added, hitems, hadded⟩ := h.items
  intro item hitem
  rw [hitems] at hitem
  rw [h.plans]
  rcases List.mem_append.1 hitem with hitem | hitem
  · obtain ⟨plan, hplan, hid⟩ := hwf item hitem
    exact ⟨plan, List.mem_append_left _ hplan, hid⟩
  · obtain ⟨copy, hcopy, hid⟩ := hadded item hitem
    exact ⟨copy, List.mem_append_right _ hcopy, hid.symm⟩

theorem WeekCopied.date (h : WeekCopied w s v copies) {copy : MealPlanEntity} (hcopy : copy ∈ copies) :
    w + 7 ≤ copy.date := by
  obtain ⟨sources, hperm, hcopies⟩ := h.copied
  obtain ⟨src, hsrc, hrow⟩ := exists_of_mem_right hcopies hcopy
  have hweek : src ∈ s.sourcePlans w := List.mem_of_mem_filter (hperm.mem_iff.1 hsrc)
  have hdate := of_decide_eq_true (List.mem_filter.1 hweek).2
  rw [hrow.row]
  show w + 7 ≤ src.date + 7
  omega

theorem WeekCopied.sourcePlans (h : WeekCopied w s v copies) : v.sourcePlans w = s.sourcePlans w := by
  unfold Store.sourcePlans
  rw [h.plans, List.filter_append]
  have hnone : (copies.filter fun plan => decide (w ≤ plan.date ∧ plan.date ≤ w + 6)) = [] := by
    refine List.filter_eq_nil_iff.2 fun copy hcopy hin => ?_
    have := h.date hcopy
    have := of_decide_eq_true hin
    omega
  rw [hnone, List.append_nil]

theorem WeekCopied.copyable (h : WeekCopied w s v copies) : v.copyable w = [] := by
  refine List.filter_eq_nil_iff.2 fun plan hplan hfree => ?_
  rw [h.sourcePlans] at hplan
  have hfree : v.occupies plan.nextSlot = false := by simpa using hfree
  have hany : ∀ other ∈ s.plans ++ copies, other.slot ≠ plan.nextSlot := by
    intro other hother heq
    have hall := List.any_eq_false.1 hfree other (h.plans ▸ hother)
    exact hall (beq_iff_eq.2 heq)
  have hcopyable : plan ∈ s.copyable w := by
    have hbefore : s.occupies plan.nextSlot = false := List.any_eq_false.2 fun other hother heq =>
      hany other (List.mem_append_left _ hother) (beq_iff_eq.1 heq)
    exact List.mem_filter.2 ⟨hplan, by rw [hbefore]; rfl⟩
  obtain ⟨sources, hperm, hcopies⟩ := h.copied
  obtain ⟨copy, hcopy, hrow⟩ := exists_of_mem_right hcopies.flip (hperm.mem_iff.2 hcopyable)
  refine hany copy (List.mem_append_right _ hcopy) ?_
  have hslot : ({ plan with
      id := copy.id, date := plan.date + 7, source := copy.source, copiedFrom := some plan.id }).slot =
      plan.nextSlot := rfl
  exact (congrArg MealPlanEntity.slot hrow.row).trans hslot

theorem WeekCopied.again (h : WeekCopied w s v copies) (h' : WeekCopied w v v' copies') : v' = v := by
  obtain ⟨sources, hperm, hcopies⟩ := h'.copied
  rw [h.copyable] at hperm
  obtain rfl := hperm.eq_nil
  obtain rfl := List.forall₂_nil_left_iff.1 hcopies
  obtain ⟨added, hitems, hadded⟩ := h'.items
  have hnone : added = [] := List.eq_nil_iff_forall_not_mem.2 fun item hitem => by
    obtain ⟨_, hcopy, -⟩ := hadded item hitem
    cases hcopy
  have hplans := h'.plans
  rw [List.append_nil] at hplans
  rw [hnone, List.append_nil] at hitems
  cases v
  cases v'
  simp_all

end

/-- **Menu week copy.** -/
theorem menu_week_copied {n : Nat} {s : Store} {cs : Schedule n} {σ : System n} {w : Int} (hs : s.WF)
    (hops : System.Starts (fun op => utcDay op.fromMonday = w) cs) (hrun : run s cs = some σ) :
    (σ.log = [] → σ.db = s) ∧ (σ.log ≠ [] → ∃ copies, WeekCopied w s σ.db copies) ∧
      ∀ c ∈ σ.log, c.result.plansCreated + c.result.plansSkipped = (s.sourcePlans w).length := by
  have hchain := System.exec_chain (D := oneWeek (w + 7)) hs (fun op s hop _ => safe_copyWeek hop)
    (fun op t s a hwf h => by
      obtain ⟨copies, hcopied⟩ := h.2.1
      exact hcopied.wf hwf)
    (fun op t s a _ h held hd hk => absurd hk fun hk => hd h.1 hk) hops hrun
  refine hchain.invLog (fun log db => (log = [] → db = s) ∧ (log ≠ [] → ∃ copies, WeekCopied w s db copies) ∧
    ∀ c ∈ log, c.result.plansCreated + c.result.plansSkipped = (s.sourcePlans w).length) ?_ ?_
  · exact ⟨fun _ => rfl, fun h => absurd rfl h, fun _ hc => absurd hc List.not_mem_nil⟩
  · rintro log db c ⟨hfirst, hlater, hcounts⟩ ⟨-, -, ⟨copies, hcopied⟩, hcount⟩
    refine ⟨fun h => absurd h (by simp), fun _ => ?_, ?_⟩
    · by_cases hlog : log = []
      · rw [hfirst hlog] at hcopied ⊢
        exact ⟨copies, hcopied⟩
      · obtain ⟨earlier, hearlier⟩ := hlater hlog
        rw [hearlier.again hcopied]
        exact ⟨earlier, hearlier⟩
    · have hsources : db.sourcePlans w = s.sourcePlans w := by
        by_cases hlog : log = []
        · rw [hfirst hlog]
        · obtain ⟨earlier, hearlier⟩ := hlater hlog
          exact hearlier.sourcePlans
      intro d hd
      rcases List.mem_append.1 hd with hd | hd
      · exact hcounts d hd
      · obtain rfl := List.mem_singleton.1 hd
        rw [hcount, hsources]

/-! ## The rollout while an admin copies -/

/-- The last week of 2026: Monday the 28th has a menu for all, Thursday one for group 3. -/
def yearEnd : Store :=
  let porridge : MealItemInput := ⟨.breakfast, ⟨"Каша", none, none⟩, none, some ["milk"], none, some 180, some "08:30", 0⟩
  let soup : MealItemInput := ⟨.lunch, ⟨"Суп", some "Сорпа", none⟩, none, none, none, none, none, 1⟩
  { plans := [⟨1, 20815, none, true, none, .manual, none, some 9⟩,
      ⟨2, 20818, some 3, false, some ⟨"Без молока", none, none⟩, .manual, none, none⟩,
      ⟨3, 20825, some 3, true, none, .manual, none, none⟩]
    items := [⟨soup, 11, 1⟩, ⟨porridge, 12, 1⟩, ⟨porridge, 13, 2⟩, ⟨soup, 14, 3⟩] }

def rollout : Op := ⟨midnight 20815, .cron⟩
def byHand : Op := ⟨midnight 20815, .manual⟩

/-- The admin waits for the lock. -/
def rolloutWhileCopying : Schedule 2 :=
  .start 0 rollout :: .start 1 byHand :: Choice.steps 0 3 0 ++
    [.step 0 100, .step 0 101, .step 0 102] ++ Choice.steps 0 3 0 ++ Choice.steps 1 4 0

theorem menu_week_copied_rollout : ∃ σ : System 2, run yearEnd rolloutWhileCopying = some σ ∧
    σ.db.plans.length = 4 ∧ σ.db.items.length = 6 ∧
    σ.log.map (fun c => c.result) = [⟨1, 1⟩, ⟨0, 2⟩] ∧
    ∃ copies, WeekCopied 20815 yearEnd σ.db copies := by
  obtain ⟨σ, hrun, h⟩ := run_shows run yearEnd rolloutWhileCopying (fun σ : System 2 =>
    decide (σ.db.plans.length = 4 ∧ σ.db.items.length = 6 ∧ σ.log.map (fun c => c.result) = [⟨1, 1⟩, ⟨0, 2⟩]))
    (by decide +kernel)
  obtain ⟨hplans, hitems, hanswers⟩ := of_decide_eq_true h
  have hlog : σ.log ≠ [] := fun hnil => by
    rw [hnil] at hanswers
    cases hanswers
  exact ⟨σ, hrun, hplans, hitems, hanswers, (menu_week_copied (by decide) (by decide) hrun).2.1 hlog⟩

end Meals
