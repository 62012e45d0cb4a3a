import Shyraq.Tariffs.Rules

/-!
# The windows of the plan catalogue

`create` and `update` check overlap under the lock of the plan's scope, so the active plans of
one scope stay apart.  `deactivate` writes the day it runs as the end of the plan, also into a
plan that has not started; such a row does not hydrate any more.
-/

namespace Tariffs

open Kernel Transactions

/-! ## What others may do to the plans -/

/-- A plan row as it may be later. -/
structure TariffPlan.Step (p p' : TariffPlan) : Prop where
  id : p'.id = p.id
  tariffType : p'.tariffType = p.tariffType
  appliesTo : p'.appliesTo = p.appliesTo
  groupId : p'.groupId = p.groupId
  ageMinMonths : p'.ageMinMonths = p.ageMinMonths
  ageMaxMonths : p'.ageMaxMonths = p.ageMaxMonths
  validFrom : p'.validFrom = p.validFrom
  active : p'.isActive = true → p.isActive = true

variable {p : TariffPlan}

namespace TariffPlan

theorem Step.refl (p : TariffPlan) : Step p p := ⟨rfl, rfl, rfl, rfl, rfl, rfl, rfl, fun h => h⟩

theorem Step.trans {q r : TariffPlan} (h₁ : Step p q) (h₂ : Step q r) : Step p r where
  id := h₂.id.trans h₁.id
  tariffType := h₂.tariffType.trans h₁.tariffType
  appliesTo := h₂.appliesTo.trans h₁.appliesTo
  groupId := h₂.groupId.trans h₁.groupId
  ageMinMonths := h₂.ageMinMonths.trans h₁.ageMinMonths
  ageMaxMonths := h₂.ageMaxMonths.trans h₁.ageMaxMonths
  validFrom := h₂.validFrom.trans h₁.validFrom
  active h := h₁.active (h₂.active h)

/-- The lock of the scope. -/
def scope (p : TariffPlan) : Key := .overlap p.tariffType p.appliesTo p.groupId

theorem Step.scope {p' : TariffPlan} (h : Step p p') : p'.scope = p.scope := by
  unfold TariffPlan.scope
  rw [h.tariffType, h.appliesTo, h.groupId]

end TariffPlan

/-- Rows stay; under the lock of a scope, its active plans are as before, or fewer. -/
structure PlanMoves (held : List Key) (s s' : Store) : Prop where
  plans : Table.Evolves TariffPlan.Step (fun i => Key.row i ∈ held) s.plans s'.plans
  scopes : ∀ i p', s'.plan? i = some p' → p'.isActive = true → p'.scope ∈ held →
    ∃ p, s.plan? i = some p ∧ TariffPlan.Step p p' ∧ p'.window = p.window

/-- The locks of the catalogue. -/
def planLocks : Discipline Store Key Write where
  rely := PlanMoves
  refl held s := by
    refine ⟨.refl TariffPlan.Step.refl _, ?_⟩
    intro i p' hp' _ _
    exact ⟨p', hp', .refl p', rfl⟩
  trans h₁ h₂ := by
    refine ⟨h₁.plans.trans (fun _ _ _ h h' => h.trans h') h₂.plans, ?_⟩
    intro i p₃ hp₃ ha hk
    obtain ⟨p₂, hp₂, hs₂, hw₂⟩ := h₂.scopes i p₃ hp₃ ha hk
    obtain ⟨p₁, hp₁, hs₁, hw₁⟩ := h₁.scopes i p₂ hp₂ (hs₂.active ha) (hs₂.scope ▸ hk)
    exact ⟨p₁, hp₁, hs₁.trans hs₂, hw₂.trans hw₁⟩
  mono hs h := ⟨h.plans.mono fun _ hi => hs hi, fun i p' hp' ha hk => h.scopes i p' hp' ha (hs hk)⟩

/-! ## What each request does -/

/-- The window meets no active plan of the scope but the excluded one. -/
def Clear (excludeId : Option Nat) (scope : Key) (w : Window Int) (s : Store) : Prop :=
  ∀ i q, some i ≠ excludeId → s.plan? i = some q → q.isActive = true → q.scope = scope →
    Window.Apart w q.window

theorem keep_clear {held : List Key} {excludeId : Option Nat} {scope : Key} {w : Window Int}
    {s s' : Store} (hk : scope ∈ held) (hm : PlanMoves held s s') (h : Clear excludeId scope w s) :
    Clear excludeId scope w s' := by
  intro i q' hi hq' ha hs
  obtain ⟨q, hq, hstep, hwin⟩ := hm.scopes i q' hq' ha (hs ▸ hk)
  rw [hwin]
  exact h i q hi hq (hstep.active ha) (hstep.scope ▸ hs)

/-- A new plan. -/
structure PlanCreated (p : TariffPlan) (t : Tx Store Key Write) (s : Store) : Prop where
  plans : Table.Added s.plans (t.view s).plans p
  row : Key.row p.id ∈ t.held
  scope : p.scope ∈ t.held
  hydrates : p.fromState = .ok p
  clear : p.appliesTo ≠ .individual → Clear none p.scope p.window s

/-- A patched plan: its window is as it was, or checked. -/
structure PlanUpdated (p p' : TariffPlan) (t : Tx Store Key Write) (s : Store) : Prop where
  plans : Table.Replaced s.plans (t.view s).plans p.id p p'
  row : Key.row p.id ∈ t.held
  step : TariffPlan.Step p p'
  hydrates : p'.fromState = .ok p'
  window : p'.window = p.window ∨
    (p.scope ∈ t.held ∧ (p.appliesTo ≠ .individual → Clear (some p.id) p.scope p'.window s))

/-- A closed plan. -/
structure PlanDeactivated (now : Int) (p p' : TariffPlan) (t : Tx Store Key Write) (s : Store) : Prop where
  plans : Table.Replaced s.plans (t.view s).plans p.id p p'
  row : Key.row p.id ∈ t.held
  step : TariffPlan.Step p p'
  inactive : p'.isActive = false
  validUntil : p'.validUntil = some (utcDay now)
  bounds : p'.Scoped

inductive PlanOutcome (t : Tx Store Key Write) (s : Store) : Op → Prop
  | created {input} (p : TariffPlan) (h : PlanCreated p t s) : PlanOutcome t s (.createPlan input)
  | updated {id dto} (p p' : TariffPlan) (h : PlanUpdated p p' t s) : PlanOutcome t s (.updatePlan id dto)
  | deactivated {now id} (p p' : TariffPlan) (hid : p.id = id) (h : PlanDeactivated now p p' t s) :
      PlanOutcome t s (.deactivatePlan now id)
  | assigned {input} (h : (t.view s).plans = s.plans) : PlanOutcome t s (.assign input)
  | assignmentUpdated {id dto} (h : (t.view s).plans = s.plans) : PlanOutcome t s (.updateAssignment id dto)
  | assignmentClosed {now id} (h : (t.view s).plans = s.plans) : PlanOutcome t s (.closeAssignment now id)
  | closedForChild {c u} (h : (t.view s).plans = s.plans) : PlanOutcome t s (.closeActiveForChild c u)

section

variable {t : Tx Store Key Write} {s : Store}

theorem guarantee_added (h : PlanCreated p t s) : planLocks.Guarantee t s := by
  intro held hd
  refine ⟨h.plans.evolves TariffPlan.Step.refl fun hk => hd h.row hk, ?_⟩
  intro i q' hq' ha hk
  unfold Store.plan? at hq'
  rw [h.plans.after] at hq'
  split at hq'
  · cases hq'
    exact (hd h.scope hk).elim
  · exact ⟨q', hq', .refl q', rfl⟩

theorem guarantee_replaced {p' : TariffPlan} (h : Table.Replaced s.plans (t.view s).plans p.id p p')
    (hrow : Key.row p.id ∈ t.held) (hstep : TariffPlan.Step p p')
    (hw : p'.isActive = true → p'.window = p.window ∨ p.scope ∈ t.held) : planLocks.Guarantee t s := by
  intro held hd
  refine ⟨h.evolves TariffPlan.Step.refl hstep fun hk => hd hrow hk, ?_⟩
  intro i q' hq' ha hk
  unfold Store.plan? at hq'
  rw [h.after] at hq'
  split at hq'
  · next hi =>
    cases hq'
    rcases hw ha with hw | hscope
    · exact ⟨p, hi ▸ h.before, hstep, hw⟩
    · rw [hstep.scope] at hk
      exact (hd hscope hk).elim
  · exact ⟨q', hq', .refl q', rfl⟩

theorem guarantee_same (h : (t.view s).plans = s.plans) : planLocks.Guarantee t s := by
  intro held _
  refine ⟨h ▸ .refl TariffPlan.Step.refl _, ?_⟩
  intro i q' hq' _ _
  unfold Store.plan? at hq'
  rw [h] at hq'
  exact ⟨q', hq', .refl q', rfl⟩

theorem PlanOutcome.guarantee {op : Op} (h : PlanOutcome t s op) : planLocks.Guarantee t s := by
  cases h with
  | created p h => exact guarantee_added h
  | updated p p' h =>
    refine guarantee_replaced h.plans h.row h.step fun _ => ?_
    rcases h.window with hw | ⟨hscope, -⟩
    · exact .inl hw
    · exact .inr hscope
  | deactivated p p' hid h =>
    refine guarantee_replaced h.plans h.row h.step fun ha => ?_
    rw [h.inactive] at ha
    cases ha
  | assigned h => exact guarantee_same h
  | assignmentUpdated h => exact guarantee_same h
  | assignmentClosed h => exact guarantee_same h
  | closedForChild h => exact guarantee_same h

end

/-! ## The requests one by one -/

section

variable {J : Store → Prop} {X : TariffError → Prop} {B : Type}
  {Q : Tx Store Key Write → Store → B → Prop} {t : Tx Store Key Write} {s : Store}

theorem clear_of_existsOverlap {type : TariffType} {appliesTo : TariffAppliesTo} {groupId : Option Nat}
    {w : Window Int} {excludeId : Option Nat} (h : (s.plans.any fun p =>
      p.collides type appliesTo groupId && w.overlaps p.window && some p.id != excludeId) = false) :
    Clear excludeId (.overlap type appliesTo groupId) w s := by
  intro i q hi hq ha hs
  have hid : q.id = i := Table.id_of_find hq
  have hno := List.any_eq_false.1 h q (Table.mem_of_find hq)
  obtain ⟨htype, happlies, hgroup⟩ : q.tariffType = type ∧ q.appliesTo = appliesTo ∧ q.groupId = groupId := by
    simpa [TariffPlan.scope] using hs
  have hc : q.collides type appliesTo groupId = true := by
    simp [TariffPlan.collides, htype, happlies, hgroup, ha]
  have hne : (some q.id != excludeId) = true := by
    rw [hid]
    simpa using hi
  rw [hc, hne, Bool.true_and, Bool.and_true] at hno
  exact Window.apart_of_overlaps (by simpa using hno)

/-- The overlap check, made before anything is written: the rest runs with a clear window. -/
theorem safe_checkOverlap {type : TariffType} {appliesTo : TariffAppliesTo} {groupId : Option Nat}
    {w : Window Int} {excludeId : Option Nat} {e : TariffError} {f : Unit → Sql B} (hX : ∀ e, X e)
    (hj : J s) (hwrites : t.writes = []) (hlock : Key.overlap type appliesTo groupId ∈ t.held)
    (h : ∀ t' s', t'.writes = [] → t'.held = t.held → planLocks.rely t.held s s' → J s' →
      Prog.Safe planLocks
        (fun s => J s ∧ (appliesTo ≠ .individual → Clear excludeId (.overlap type appliesTo groupId) w s))
        X Q (f ()) t' s') : Prog.Safe planLocks J X Q
      (Prog.bind (TariffPlanRepository.existsOverlap type appliesTo groupId w excludeId)
        fun overlaps => Prog.bind (Prog.guardOr (!overlaps) e) f) t s := by
  have keep : ∀ t' s', t'.writes = [] → t'.held = t.held → planLocks.rely t.held s s' → J s' →
      (appliesTo ≠ .individual → Clear excludeId (.overlap type appliesTo groupId) w s') →
      Prog.Safe planLocks J X Q (f ()) t' s' := by
    intro t' s' hw' hh' hr' hj' hclear
    refine Prog.Safe.keep _ [Key.overlap type appliesTo groupId] ?_ ?_ hj' hclear (h t' s' hw' hh' hr' hj')
    · simpa [hh'] using hlock
    · intro s₁ s₂ hr _ _ hc hi
      exact keep_clear List.mem_cons_self hr (hc hi)
  unfold TariffPlanRepository.existsOverlap
  by_cases hi : appliesTo = .individual
  · rw [if_pos hi]
    exact keep t s hwrites rfl (planLocks.refl _ _) hj fun hn => absurd hi hn
  · rw [if_neg hi]
    refine Prog.Safe.query fun s₁ hr₁ hj₁ => Prog.Safe.guardOr hX fun hno => ?_
    rw [Tx.view_of_unwritten hwrites, Bool.not_eq_true'] at hno
    exact keep (t.saw s₁) s₁ hwrites rfl hr₁ hj₁ fun _ => clear_of_existsOverlap hno

end

theorem ordered_utcDay {start : Int} {stop : Option Int} (h : (Window.mk start stop).Ordered) :
    (Window.mk (utcDay start) (stop.map utcDay)).Ordered := by
  intro u hu
  obtain ⟨v, hv, rfl⟩ := Option.mem_map.1 hu
  exact Int.ediv_le_ediv (by decide) (h v hv)

theorem hydrates_toRow {q : TariffPlan} (h : p.fromState = .ok q) :
    (TariffPlanService.toRow q).fromState = .ok (TariffPlanService.toRow q) := by
  rw [TariffPlan.fromState_eq_ok_iff] at h
  obtain ⟨rfl, hb, ho⟩ := h
  rw [TariffPlan.fromState_eq_ok_iff]
  exact ⟨rfl, ⟨hb.group, hb.ages⟩, ordered_utcDay ho⟩

section

variable {X : TariffError → Prop} {s : Store}

theorem safe_createPlan (hX : ∀ e, X e) (input : CreateTariffPlanInput) :
    Prog.Safe planLocks Store.WF X (fun t s _ => ∃ p, PlanCreated p t s)
      (TariffPlanService.create input) .start s := by
  unfold TariffPlanService.create
  refine Prog.Safe.acquire fun s₁ _ hj₁ => ?_
  refine safe_checkOverlap hX hj₁ rfl List.mem_cons_self fun t₂ s₂ hw₂ hh₂ _ _ => ?_
  refine Prog.Safe.uuid fun s₃ id _ hj₃ _ _ => safe_orThrow hX fun plan hplan => ?_
  have hrow := hydrates_toRow hplan
  obtain ⟨rfl, -, -⟩ := TariffPlan.fromState_eq_ok_iff.1 hplan
  unfold TariffPlanRepository.create
  generalize hp : TariffPlanService.toRow (TariffPlanService.newState id input) = p at hrow ⊢
  refine Prog.Safe.insertOr hX fun s₄ _ hj₄ hh => ?_
  have hw : (t₂.locked (Relational.rowKey Store id)).writes = [] := hw₂
  have hnone : s₄.plan? p.id = none := by
    rw [Tx.view_of_unwritten hw] at hh
    exact Option.isNone_iff_eq_none.1 hh
  refine Prog.Safe.keepAt (k := .row p.id) (φ := fun s => s.plan? p.id) (List.mem_append_left _ List.mem_cons_self)
    (fun _ _ _ hk hr => hr.plans.find_eq hk) hj₄ hnone ?_
  intro s₅ _ hj₅
  have hview : ((t₂.locked (Relational.rowKey Store id)).wrote (.insertPlan p)).view s₅ =
      { s₅ with plans := s₅.plans ++ [p] } := by
    rw [Tx.view_wrote, Tx.view_of_unwritten hw]
    show ({ s₅ with plans := _ } : Store) = _
    rw [hj₅.2]
    rfl
  refine ⟨p, ?_⟩
  have hscope : p.scope = .overlap input.tariffType input.appliesTo input.groupId := by
    rw [← hp]
    rfl
  exact
    { plans := by
        rw [hview]
        exact .append hj₅.2
      row := List.mem_append_left _ List.mem_cons_self
      scope := by
        rw [hscope]
        exact List.mem_append_right _ (List.mem_cons_of_mem _ (hh₂ ▸ List.mem_cons_self))
      hydrates := hrow
      clear := by
        intro hi
        rw [hscope]
        subst hp
        exact hj₅.1.2 hi }

/-- The row is still there, further along. -/
def PlanThere (p : TariffPlan) (s : Store) : Prop := ∃ q, s.plan? p.id = some q ∧ TariffPlan.Step p q

theorem keep_planThere {held : List Key} {s' : Store} (hm : PlanMoves held s s')
    (h : PlanThere p s) : PlanThere p s' := by
  obtain ⟨q, hq, hs⟩ := h
  obtain ⟨q', hq', hs', -⟩ := hm.plans.row _ _ hq
  exact ⟨q', hq', hs.trans hs'⟩

theorem step_patch (dto : UpdateTariffPlanDto) (p : TariffPlan) : TariffPlan.Step p (dto.patch.set p) :=
  ⟨rfl, rfl, rfl, rfl, rfl, rfl, rfl, fun h => h⟩

/-- A patch without an end leaves the window alone; with one, the window is the checked one. -/
theorem window_patch (dto : UpdateTariffPlanDto) {q : TariffPlan} (h : TariffPlan.Step p q) :
    (dto.patch.set q).window = q.window ∨ (dto.validUntil.isSome = true ∧
        (dto.patch.set q).window = TariffPlanService.newWindow p dto.patch) := by
  have hfrom : q.validFrom = p.validFrom := h.validFrom
  cases hu : dto.validUntil with
  | none =>
    left
    simp [TariffPlan.window, UpdateTariffPlanPatch.set, UpdateTariffPlanDto.patch, hu]
  | some u =>
    right
    simp [TariffPlan.window, UpdateTariffPlanPatch.set, UpdateTariffPlanDto.patch,
      TariffPlanService.newWindow, hu, hfrom]

theorem safe_patchPlan {J : Store → Prop} (hJ : ∀ s, J s → s.WF) (hX : ∀ e, X e) {t : Tx Store Key Write}
    (hw : t.writes = []) (id : Nat) (patch : UpdateTariffPlanPatch) (e : TariffError) : Prog.Safe planLocks J X
      (fun t' s' _ => J s' ∧ t.held ⊆ t'.held ∧ Key.row id ∈ t'.held ∧
        ∃ p, Table.Replaced s'.plans (t'.view s').plans id p (patch.set p) ∧
          (patch.set p).fromState = .ok (patch.set p))
      (Prog.bind (TariffPlanRepository.update id patch) fun updated => Prog.require updated e) t s := by
  unfold TariffPlanRepository.update
  simp only [Prog.bind_eq, Prog.bind_assoc]
  refine Prog.Safe.returning (fun s₁ _ hj₁ hh => ?_) fun _ _ _ _ => hX _
  rw [Tx.view_of_unwritten hw] at hh
  obtain ⟨p, hp⟩ := Option.isSome_iff_exists.1 (show (s₁.plan? id).isSome = true from hh)
  refine Prog.Safe.keepAt (k := .row id) (φ := fun s => s.plan? id) (List.mem_append_left _ List.mem_cons_self)
    (fun _ _ _ hk hr => hr.plans.find_eq hk) hj₁ hp ?_
  refine Prog.Safe.query fun s₂ _ hj₂ => ?_
  have hview : ∀ s : Store, ((t.wrote (.updatePlan id patch)).view s).plans =
      Table.updateWhere s.plans id (fun _ => true) patch.set := by
    intro s
    rw [Tx.view_wrote, Tx.view_of_unwritten hw]
    rfl
  have hrow : ((t.wrote (.updatePlan id patch)).view s₂).plan? id = some (patch.set p) := by
    unfold Store.plan?
    rw [hview, Table.find_updateWhere s₂.plans id (fun _ => true) patch.set (fun _ => rfl)]
    simp [show Table.find s₂.plans id = some p from hj₂.2]
  rw [hrow]
  show Prog.Safe planLocks _ X _
    (Prog.bind (Prog.bind (orThrow (patch.set p).fromState) fun a => Prog.ret (some a))
      fun updated => Prog.require updated e) _ _
  cases hok : (patch.set p).fromState with
  | error m => exact hX _
  | ok a =>
    intro s₃ _ hj₃
    obtain ⟨rfl, -, -⟩ := TariffPlan.fromState_eq_ok_iff.1 hok
    refine ⟨hj₃.1, ?_, List.mem_append_left _ List.mem_cons_self, p, ?_, hok⟩
    · exact fun k hk => List.mem_append_right _ hk
    · rw [Tx.view_saw, hview]
      exact .updateWhere (hJ _ hj₃.1).planIds (fun _ => rfl) hj₃.2 rfl

theorem safe_updatePlan (hX : ∀ e, X e) (id : Nat) (dto : UpdateTariffPlanDto) :
    Prog.Safe planLocks Store.WF X (fun t s _ => ∃ p p', PlanUpdated p p' t s)
      (TariffPlanService.update id dto.patch) .start s := by
  unfold TariffPlanService.update
  dsimp only
  by_cases hn : (dto.patch.validFrom.isSome || dto.patch.validUntil.isSome) = true
  · rw [if_pos hn]
    unfold TariffPlanRepository.findById
    simp only [Prog.bind_eq, Prog.bind_assoc]
    refine Prog.Safe.query fun s₁ _ hj₁ => safe_found hX fun e e' he hok => ?_
    have he : s₁.plan? id = some e := he
    obtain ⟨rfl, -, -⟩ := TariffPlan.fromState_eq_ok_iff.1 hok
    have hid : e'.id = id := Table.id_of_find he
    have hthere : PlanThere e' s₁ := ⟨e', hid ▸ he, .refl e'⟩
    refine Prog.Safe.keep (PlanThere e') [] (by simp) (fun _ _ hr _ _ h => keep_planThere hr h) hj₁ hthere ?_
    refine Prog.Safe.acquire fun s₂ _ hj₂ => ?_
    refine safe_checkOverlap hX hj₂ rfl List.mem_cons_self fun t₃ s₃ hw₃ hh₃ _ _ => ?_
    refine (safe_patchPlan (fun _ h => h.1.1) hX hw₃ id dto.patch (.tariffPlanNotFound id)).mono ?_
    rintro t s _ - ⟨⟨⟨-, p₀, hp₀, hstep⟩, hclear⟩, hheld, hrow, p, hrep, hok⟩
    have hpp : p₀ = p := Option.some.inj (hp₀.symm.trans (hid ▸ hrep.before))
    subst hpp
    have hpid : p₀.id = id := hstep.id.trans hid
    subst hpid
    refine ⟨p₀, dto.patch.set p₀, ⟨hrep, hrow, step_patch dto p₀, hok, ?_⟩⟩
    rcases window_patch dto hstep with hw | ⟨-, hw⟩
    · exact .inl hw
    · refine .inr ⟨?_, fun hi => ?_⟩
      · rw [hstep.scope]
        exact hheld (hh₃ ▸ List.mem_cons_self)
      · rw [hw, hstep.scope]
        rw [hstep.appliesTo] at hi
        exact hclear hi
  · rw [if_neg hn]
    refine (safe_patchPlan (fun _ h => h) hX rfl id dto.patch (.tariffPlanNotFound id)).mono ?_
    rintro t s _ - ⟨-, -, hrow, p, hrep, hok⟩
    have hid : p.id = id := Table.id_of_find hrep.before
    subst hid
    refine ⟨p, dto.patch.set p, ⟨hrep, hrow, step_patch dto p, hok, ?_⟩⟩
    rcases window_patch dto (.refl p) with hw | ⟨hu, -⟩
    · exact .inl hw
    · exact absurd (by simp [UpdateTariffPlanDto.patch, hu]) hn

theorem safe_deactivatePlan (hX : ∀ e, X e) (now : Int) (id : Nat) :
    Prog.Safe planLocks Store.WF X (fun t s _ => ∃ p p', p.id = id ∧ PlanDeactivated now p p' t s)
      (TariffPlanService.deactivate now id) .start s := by
  unfold TariffPlanService.deactivate TariffPlanRepository.findById
  simp only [Prog.bind_eq, Prog.bind_assoc]
  refine Prog.Safe.query fun s₁ _ hj₁ => safe_found hX fun e e' he hok => ?_
  have he : s₁.plan? id = some e := he
  obtain ⟨rfl, hbounds, -⟩ := TariffPlan.fromState_eq_ok_iff.1 hok
  have hid : e'.id = id := Table.id_of_find he
  have hthere : PlanThere e' s₁ := ⟨e', hid ▸ he, .refl e'⟩
  refine Prog.Safe.keep (PlanThere e') [] (by simp) (fun _ _ hr _ _ h => keep_planThere hr h) hj₁ hthere ?_
  unfold TariffPlanRepository.save
  have hrowid : (e'.deactivate now).id = id := hid
  refine Prog.Safe.update (fun s₂ _ hj₂ _ => ?_) fun s₂ _ hj₂ hmiss => ?_
  · obtain ⟨p, hp, hstep⟩ := hj₂.2
    rw [hid] at hp
    refine Prog.Safe.keepAt (k := .row id) (φ := fun s => s.plan? id)
      (List.mem_append_left _ (hrowid ▸ List.mem_cons_self)) (fun _ _ _ hk hr => hr.plans.find_eq hk) hj₂ hp ?_
    intro s₃ _ hj₃
    have hpid : p.id = id := hstep.id.trans hid
    refine ⟨p, (e'.deactivate now).saved p, hpid, ?_⟩
    have hsaved : TariffPlan.Step p ((e'.deactivate now).saved p) :=
      ⟨rfl, rfl, hstep.appliesTo.symm, hstep.groupId.symm, hstep.ageMinMonths.symm,
        hstep.ageMaxMonths.symm, hstep.validFrom.symm, fun h => by cases h⟩
    refine ⟨?_, ?_, hsaved, rfl, rfl, ⟨hbounds.group, hbounds.ages⟩⟩
    · rw [hpid]
      show Table.Replaced s₃.plans (Table.updateWhere s₃.plans e'.id _ _) id p _
      rw [hid]
      exact .updateWhere hj₃.1.1.planIds (fun _ => rfl) hj₃.2 rfl
    · rw [hpid]
      exact List.mem_append_left _ (hrowid ▸ List.mem_cons_self)
  · obtain ⟨p, hp, -⟩ := hj₂.2
    have hno : (s₂.plan? e'.id).isSome = false := hmiss
    rw [hp] at hno
    cases hno

end

/-! ### Requests that leave the plans alone -/

theorem onlyWrites_assign (input : AssignTariffInput) :
    Prog.OnlyWrites Write.OfAssignments (TariffAssignmentService.assign input) := by
  unfold TariffAssignmentService.assign
  refine (onlyWrites_findPlan _).bind fun found => onlyWrites_require.bind fun _ => ?_
  refine Prog.OnlyWrites.bind trivial fun _ => Prog.OnlyWrites.bind (fun _ => trivial) fun overlap => ?_
  refine onlyWrites_guardOr.bind fun _ => Prog.OnlyWrites.bind (fun _ => trivial) fun id => ?_
  refine (onlyWrites_insertOr trivial).bind fun _ => ?_
  cases (TariffAssignmentService.newRow id input).fromState <;> trivial

theorem onlyWrites_updateAssignment (id : Nat) (patch : UpdateTariffAssignmentPatch) :
    Prog.OnlyWrites Write.OfAssignments (TariffAssignmentService.update id patch) := by
  unfold TariffAssignmentService.update
  refine (onlyWrites_findAssignment id).bind fun found => onlyWrites_require.bind fun existing => ?_
  refine Prog.OnlyWrites.bind ?_ fun _ => Prog.OnlyWrites.bind ?_ fun _ => ?_
  · unfold TariffAssignmentService.checkPlan
    split
    · trivial
    · split
      · trivial
      · exact (onlyWrites_findPlan _).bind fun _ => onlyWrites_guardOr
  · unfold TariffAssignmentService.checkWindow
    split
    · exact Prog.OnlyWrites.bind trivial fun _ =>
        Prog.OnlyWrites.bind (fun _ => trivial) fun _ => onlyWrites_guardOr
    · trivial
  · refine Prog.OnlyWrites.bind ?_ fun _ => onlyWrites_require
    exact (onlyWrites_returning trivial).bind fun _ => onlyWrites_toDomain

theorem onlyWrites_closeAssignment (now : Int) (id : Nat) :
    Prog.OnlyWrites Write.OfAssignments (TariffAssignmentService.close now id) := by
  unfold TariffAssignmentService.close
  refine (onlyWrites_findAssignment id).bind fun found => onlyWrites_require.bind fun existing => ?_
  exact ⟨trivial, fun _ => trivial⟩

theorem onlyWrites_clampAll (childId : Nat) (validUntil : Int) (rows : List TariffAssignment) :
    Prog.OnlyWrites Write.OfAssignments
      (TariffAssignmentRepository.clampAll childId validUntil rows) := by
  induction rows with
  | nil => trivial
  | cons a rows ih => exact ⟨trivial, fun _ => ih.bind fun _ => trivial⟩

theorem onlyWrites_closeActiveForChild (childId : Nat) (validUntil : Int) :
    Prog.OnlyWrites Write.OfAssignments
      (TariffAssignmentRepository.closeActiveForChild childId validUntil) :=
  fun _ => onlyWrites_clampAll _ _ _

theorem safe_plansAlone {J : Store → Prop} {A : Type} {p : Sql A} {s : Store} (hj : J s)
    (h : Prog.OnlyWrites Write.OfAssignments p) :
    Prog.Safe planLocks J (fun _ => True) (fun t s _ => (t.view s).plans = s.plans) p .start s := by
  refine (Prog.Safe.of_onlyWrites h (fun _ => trivial) hj).mono ?_
  rintro t s _ - ⟨hext, -⟩
  exact hext.view_eq Store.plans (fun _ _ => plans_apply) s

theorem safe_planOutcome {s : Store} (hs : s.WF) (op : Op) :
    Prog.Safe planLocks Store.WF (fun _ => True) (fun t s _ => PlanOutcome t s op) op.prog .start s := by
  cases op with
  | createPlan input =>
    refine (safe_createPlan (fun _ => trivial) input).map ?_
    rintro t s _ - ⟨p, h⟩
    exact .created p h
  | updatePlan id dto =>
    refine (safe_updatePlan (fun _ => trivial) id dto).map ?_
    rintro t s _ - ⟨p, p', h⟩
    exact .updated p p' h
  | deactivatePlan now id =>
    refine (safe_deactivatePlan (fun _ => trivial) now id).map ?_
    rintro t s _ - ⟨p, p', hid, h⟩
    exact .deactivated p p' hid h
  | assign input => exact (safe_plansAlone hs (onlyWrites_assign input)).map fun _ _ _ _ h => .assigned h
  | updateAssignment id dto =>
    exact (safe_plansAlone hs (onlyWrites_updateAssignment id _)).map fun _ _ _ _ h => .assignmentUpdated h
  | closeAssignment now id =>
    exact (safe_plansAlone hs (onlyWrites_closeAssignment now id)).map fun _ _ _ _ h => .assignmentClosed h
  | closeActiveForChild c u =>
    exact (safe_plansAlone hs (onlyWrites_closeActiveForChild c u)).map fun _ _ _ _ h => .closedForChild h

/-! ## The catalogue, all along -/

/-- Active plans of one scope share no day. -/
def Store.ScopesApart (s : Store) : Prop :=
  ∀ p ∈ s.plans, ∀ q ∈ s.plans, p.id ≠ q.id → p.isActive = true → q.isActive = true →
    p.scope = q.scope → p.appliesTo ≠ .individual → Window.Apart p.window q.window

/-- Every row hydrates. -/
def Store.PlansHydrate (s : Store) : Prop := ∀ p ∈ s.plans, p.fromState = .ok p

def Op.deactivation : Op → Option (Int × Nat)
  | .deactivatePlan now id => some (now, id)
  | _ => none

/-- The plan that is deactivated, if the request does that, has started. -/
def StartedBefore (s : Store) (c : TariffCommit) : Prop :=
  ∀ d ∈ c.op.deactivation, ∀ p ∈ s.plan? d.2, p.validFrom ≤ utcDay d.1

instance (s : Store) (c : TariffCommit) : Decidable (StartedBefore s c) :=
  inferInstanceAs (Decidable (∀ _ ∈ _, _))

section

variable {t : Tx Store Key Write} {s : Store} {op : Op}

/-- One row at most is not as it was; its window is, or it meets no other. -/
structure OneChanged (id : Nat) (t : Tx Store Key Write) (s : Store) : Prop where
  others : ∀ i q, i ≠ id → (t.view s).plan? i = some q → s.plan? i = some q
  row : ∀ q, (t.view s).plan? id = some q → q.isActive = true → q.appliesTo ≠ .individual →
    (∃ p, s.plan? id = some p ∧ TariffPlan.Step p q ∧ q.window = p.window) ∨
      Clear (some id) q.scope q.window s

theorem oneChanged_replaced {p' : TariffPlan} (h : Table.Replaced s.plans (t.view s).plans p.id p p')
    (hstep : TariffPlan.Step p p') (hw : p'.isActive = true → p'.window = p.window ∨
      (p.appliesTo ≠ .individual → Clear (some p.id) p.scope p'.window s)) : OneChanged p.id t s where
  others i q hi hq := by
    unfold Store.plan? at hq ⊢
    rwa [h.after, if_neg hi] at hq
  row q hq ha hi := by
    unfold Store.plan? at hq
    rw [h.after, if_pos rfl] at hq
    cases hq
    rcases hw ha with hw | hc
    · exact .inl ⟨p, h.before, hstep, hw⟩
    · rw [hstep.scope]
      rw [hstep.appliesTo] at hi
      exact .inr (hc hi)

theorem PlanOutcome.oneChanged (h : PlanOutcome t s op) : ∃ id, OneChanged id t s := by
  have same : (t.view s).plans = s.plans → ∃ id, OneChanged id t s := by
    intro he
    have hfind : ∀ i, (t.view s).plan? i = s.plan? i := by
      intro i
      unfold Store.plan?
      rw [he]
    refine ⟨0, fun i q _ hq => hfind i ▸ hq, fun q hq _ _ => ?_⟩
    exact .inl ⟨q, hfind 0 ▸ hq, .refl q, rfl⟩
  cases h with
  | created p h =>
    refine ⟨p.id, fun i q hi hq => ?_, fun q hq _ hi => ?_⟩
    · unfold Store.plan? at hq ⊢
      rwa [h.plans.after, if_neg (show i ≠ Row.id p from hi)] at hq
    · unfold Store.plan? at hq
      rw [h.plans.after, if_pos (show p.id = Row.id p from rfl)] at hq
      cases hq
      exact .inr fun i r _ hr => h.clear hi i r (by simp) hr
  | updated p p' h =>
    refine ⟨p.id, oneChanged_replaced h.plans h.step fun _ => ?_⟩
    rcases h.window with hw | ⟨-, hc⟩
    · exact .inl hw
    · exact .inr hc
  | deactivated p p' hid h =>
    refine ⟨p.id, oneChanged_replaced h.plans h.step fun ha => ?_⟩
    rw [h.inactive] at ha
    cases ha
  | assigned h => exact same h
  | assignmentUpdated h => exact same h
  | assignmentClosed h => exact same h
  | closedForChild h => exact same h

theorem OneChanged.apart {id : Nat} (h : OneChanged id t s) (hs : s.ScopesApart) {q : TariffPlan}
    (hp : (t.view s).plan? id = some p) (hq : s.plan? q.id = some q) (hne : q.id ≠ id)
    (hpa : p.isActive = true) (hqa : q.isActive = true) (hscope : p.scope = q.scope)
    (hi : p.appliesTo ≠ .individual) : Window.Apart p.window q.window := by
  rcases h.row p hp hpa hi with ⟨p₀, hp₀, hstep, hw⟩ | hc
  · rw [hw]
    have hid : p₀.id = id := Table.id_of_find hp₀
    refine hs p₀ (Table.mem_of_find hp₀) q (Table.mem_of_find hq) (by omega) (hstep.active hpa) hqa ?_ ?_
    · rw [← hstep.scope, hscope]
    · rw [← hstep.appliesTo]
      exact hi
  · exact hc q.id q (by simpa using hne) hq hqa hscope.symm

theorem PlanOutcome.scopesApart (h : PlanOutcome t s op) (hwf : s.WF) (hs : s.ScopesApart) :
    (t.view s).ScopesApart := by
  obtain ⟨id, hone⟩ := h.oneChanged
  have hfind : ∀ p ∈ (t.view s).plans, (t.view s).plan? p.id = some p := fun p hp =>
    Table.find_of_mem (hwf.view t).planIds hp
  intro p hp q hq hne hpa hqa hscope hi
  have hp' := hfind p hp
  have hq' := hfind q hq
  by_cases hpid : p.id = id
  · rw [hpid] at hp'
    have hqid : q.id ≠ id := by omega
    exact hone.apart hs hp' (hone.others q.id q hqid hq') hqid hpa hqa hscope hi
  · have hp₀ := hone.others p.id p hpid hp'
    by_cases hqid : q.id = id
    · rw [hqid] at hq'
      have hi' : q.appliesTo ≠ .individual := by
        have : q.appliesTo = p.appliesTo := by
          simp only [TariffPlan.scope, Key.overlap.injEq] at hscope
          exact hscope.2.1.symm
        rwa [this]
      exact (hone.apart hs hq' hp₀ hpid hqa hpa hscope.symm hi').symm
    · have hq₀ := hone.others q.id q hqid hq'
      exact hs p (Table.mem_of_find hp₀) q (Table.mem_of_find hq₀) hne hpa hqa hscope hi

theorem hydrate_of_replaced {p' : TariffPlan} (h : Table.Replaced s.plans (t.view s).plans p.id p p')
    (hwf : s.WF) (hs : s.PlansHydrate) : (t.view s).PlansHydrate ↔ p'.fromState = .ok p' := by
  constructor
  · intro hv
    have hp' : Table.find (t.view s).plans p.id = some p' := by rw [h.after, if_pos rfl]
    exact hv p' (Table.mem_of_find hp')
  · intro hok q hq
    have hq' := Table.find_of_mem (hwf.view t).planIds hq
    rw [h.after] at hq'
    split at hq'
    · cases hq'
      exact hok
    · exact hs q (Table.mem_of_find hq')

end

theorem PlanOutcome.hydrate_iff {s : Store} {c : TariffCommit} (h : PlanOutcome c.tx s c.op)
    (hwf : s.WF) (hs : s.PlansHydrate) : (c.tx.view s).PlansHydrate ↔ StartedBefore s c := by
  obtain ⟨op, t, a⟩ := c
  have trivially : op.deactivation = none → StartedBefore s ⟨op, t, a⟩ := by
    intro hop d hd
    rw [show (Commit.mk op t a : TariffCommit).op.deactivation = none from hop] at hd
    cases hd
  have same : (t.view s).plans = s.plans → (t.view s).PlansHydrate := by
    intro he p hp
    rw [he] at hp
    exact hs p hp
  cases h with
  | created p h =>
    refine iff_of_true ?_ (trivially rfl)
    intro q hq
    have hq' := Table.find_of_mem (hwf.view t).planIds hq
    rw [h.plans.after] at hq'
    split at hq'
    · cases hq'
      exact h.hydrates
    · exact hs q (Table.mem_of_find hq')
  | updated p p' h =>
    exact iff_of_true ((hydrate_of_replaced h.plans hwf hs).2 h.hydrates) (trivially rfl)
  | @deactivated now id p p' hid h =>
    subst hid
    have hrow : s.plan? p.id = some p := h.plans.before
    have hiff : StartedBefore s ⟨.deactivatePlan now p.id, t, a⟩ ↔ p.validFrom ≤ utcDay now := by
      constructor
      · intro hst
        exact hst (now, p.id) rfl p hrow
      · rintro hle _ ⟨⟩ q hq
        have hqp : p = q := Option.some.inj (hrow.symm.trans hq)
        exact hqp ▸ hle
    rw [hydrate_of_replaced h.plans hwf hs, hiff, TariffPlan.fromState_eq_ok_iff]
    have hord : p'.window.Ordered ↔ p.validFrom ≤ utcDay now := by
      show (∀ u ∈ p'.validUntil, p'.validFrom ≤ u) ↔ _
      rw [h.validUntil, h.step.validFrom]
      simp
    exact ⟨fun hok => hord.1 hok.2.2, fun hle => ⟨rfl, h.bounds, hord.2 hle⟩⟩
  | assigned h => exact iff_of_true (same h) (trivially rfl)
  | assignmentUpdated h => exact iff_of_true (same h) (trivially rfl)
  | assignmentClosed h => exact iff_of_true (same h) (trivially rfl)
  | closedForChild h => exact iff_of_true (same h) (trivially rfl)

theorem chain_plans {n : Nat} {s : Store} {cs : Schedule n} {σ : System n} (hs : s.WF) (hrun : run s cs = some σ) :
    Chain (fun s c => s.WF ∧ PlanOutcome c.tx s c.op) s σ.log σ.db := by
  have hany : System.Starts (fun _ : Op => True) cs := fun _ _ _ => trivial
  exact System.exec_chain hs (fun op _ _ hs => safe_planOutcome hs op) (fun _ t _ _ hs _ => hs.view t)
    (fun _ _ _ _ _ h => h.guarantee) hany hrun

/-- **The plan catalogue.**  The active plans of a scope never share a day; and every plan row
hydrates, all along a run, exactly when no plan is deactivated before it starts. -/
theorem catalogue_iff {n : Nat} {s : Store} {cs : Schedule n} {σ : System n} (hs : s.WF)
    (hapart : s.ScopesApart) (hhydrate : s.PlansHydrate) (hrun : run s cs = some σ) :
    Always Store.ScopesApart s σ.log ∧
      (Always (fun s => s.ScopesApart ∧ s.PlansHydrate) s σ.log ↔ AtEach StartedBefore s σ.log) := by
  have hchain := chain_plans hs hrun
  have happ := hchain.always Store.ScopesApart hapart fun s c h hc => hc.2.scopesApart hc.1 h
  refine ⟨happ, ?_⟩
  refine hchain.always_iff (fun s => s.ScopesApart ∧ s.PlansHydrate) ⟨hapart, hhydrate⟩ ?_
  rintro s c ⟨hwf, hout⟩ ⟨ha, hh⟩
  rw [← hout.hydrate_iff hwf hh]
  exact ⟨fun h => h.2, fun h => ⟨hout.scopesApart hwf ha, h⟩⟩

/-! ## A plan that has not started -/

/-- A monthly plan for all children, from day 10 on. -/
def monthlyPlan (id : Nat) : TariffPlan where
  id := id
  name := "monthly"
  description := []
  tariffType := .monthly
  amount := 12000000
  appliesTo := .allChildren
  groupId := none
  ageMinMonths := none
  ageMaxMonths := none
  isActive := true
  validFrom := 10
  validUntil := none
  discountRules := ⟨none, none, none, none, none⟩

def onePlan : Store := ⟨[monthlyPlan 1], []⟩

theorem onePlan_apart : onePlan.ScopesApart := by
  intro p hp q hq hne
  have hp' : p = monthlyPlan 1 := List.mem_singleton.1 hp
  have hq' : q = monthlyPlan 1 := List.mem_singleton.1 hq
  exact absurd (by rw [hp', hq']) hne

theorem onePlan_hydrates : onePlan.PlansHydrate := by
  intro p hp
  have hp' : p = monthlyPlan 1 := List.mem_singleton.1 hp
  subst hp'
  rfl

/-- The plan is deactivated on this day. -/
def deactivateOn (day : Int) : Schedule 1 := Choice.request 0 (.deactivatePlan (midnight day) 1) 3 0

theorem catalogue_iff_started : ∃ σ : System 1, run onePlan (deactivateOn 12) = some σ ∧
    σ.log ≠ [] ∧ Always (fun s => s.ScopesApart ∧ s.PlansHydrate) onePlan σ.log := by
  obtain ⟨σ, hrun, h⟩ := run_shows run onePlan (deactivateOn 12)
    (fun σ : System 1 => decide (AtEach StartedBefore onePlan σ.log) && !σ.log.isEmpty)
    (by decide +kernel)
  simp only [Bool.and_eq_true, decide_eq_true_eq, Bool.not_eq_true', List.isEmpty_eq_false_iff] at h
  exact ⟨σ, hrun, h.2,
    (catalogue_iff (by decide) onePlan_apart onePlan_hydrates hrun).2.2 h.1⟩

/-- A plan from day 10 on, deactivated on day 5, ends before it starts. -/
theorem deactivated_early_breaks : ∃ σ : System 1, onePlan.WF ∧ onePlan.ScopesApart ∧
    onePlan.PlansHydrate ∧ run onePlan (deactivateOn 5) = some σ ∧
    ∃ p ∈ σ.db.plans, p.validFrom = 10 ∧ p.validUntil = some 5 ∧ p.fromState ≠ .ok p := by
  obtain ⟨σ, hrun, h⟩ := run_shows run onePlan (deactivateOn 5)
    (fun σ : System 1 => σ.db.plans.any fun p => decide (p.validFrom = 10 ∧ p.validUntil = some 5))
    (by decide +kernel)
  obtain ⟨p, hp, h⟩ := List.any_eq_true.1 h
  have h : p.validFrom = 10 ∧ p.validUntil = some 5 := by simpa using h
  refine ⟨σ, by decide, onePlan_apart, onePlan_hydrates, hrun, p, hp, h.1, h.2, fun hok => ?_⟩
  have hord := (TariffPlan.fromState_eq_ok_iff.1 hok).2.2 5 h.2
  rw [show p.window.start = p.validFrom from rfl, h.1] at hord
  omega

end Tariffs
