import Shyraq.Attendance.Effects

/-!
# The daily status follows the check-ins

A correction refreshes the status of the day that the event left and of the day it landed in;
`Settles` says which days a request refreshes.  Run one at a time, the requests refresh every day
whose check-ins they change.
-/

namespace Attendance

open Kernel Transactions

/-- A live check-in of the child on the Almaty day. -/
def AttendanceEvent.checksIn (e : AttendanceEvent) (childId : Nat) (date : Int) : Bool :=
  e.deletedAt.isNone && e.childId == childId && e.eventType == .checkIn && e.day == date

namespace Store

def checkedIn (s : Store) (childId : Nat) (date : Int) : Bool :=
  s.events.any fun e => e.checksIn childId date

def statusAt (s : Store) (childId : Nat) (date : Int) : Option ChildIntradayStatus :=
  (s.dailyStatusAt childId date).map ChildDailyStatus.status

end Store

/-- A row exists where some live check-in falls, and is `present` just there. -/
def DailyStatusFollows (s : Store) : Prop :=
  ∀ childId date,
    (s.checkedIn childId date = true → ∃ row ∈ s.dailyStatuses, row.childId = childId ∧ row.date = date) ∧
    ∀ row ∈ s.dailyStatuses, row.childId = childId → row.date = date →
      (row.status = .present ↔ s.checkedIn childId date = true)

/-- No status was set by hand. -/
def Inferred (s : Store) : Prop := ∀ row ∈ s.dailyStatuses, row.status = .present ∨ row.status = .absent

instance (s : Store) : Decidable (Inferred s) :=
  inferInstanceAs (Decidable (∀ row ∈ s.dailyStatuses, row.status = .present ∨ row.status = .absent))

/-- What the recomputation makes of a status. -/
def refreshed : Bool → Option ChildIntradayStatus → Option ChildIntradayStatus
  | true, none => some .present
  | true, some st => some (if st.isPromotableByCheckIn then .present else st)
  | false, some .present => some .absent
  | false, st => st

theorem refreshed_idem (b : Bool) (st : Option ChildIntradayStatus) :
    refreshed b (refreshed b st) = refreshed b st := by
  cases b with
  | true =>
    cases st with
    | none => rfl
    | some st => cases st <;> rfl
  | false =>
    cases st with
    | none => rfl
    | some st => cases st <;> rfl

/-! ## Statuses under the two statements -/

section

variable {l : List ChildDailyStatus} {c : Nat} {d : Int}

theorem isOf_iff {row : ChildDailyStatus} : row.isOf c d = true ↔ row.childId = c ∧ row.date = d := by
  simp [ChildDailyStatus.isOf]

theorem rowAt_upsertStatus (l : List ChildDailyStatus) (n : ChildDailyStatus) (c : Nat) (d : Int) :
    (Store.upsertStatus l n).find? (·.isOf c d) =
      if c = n.childId ∧ d = n.date then some ((l.find? (·.isOf c d)).elim n n.merged)
      else l.find? (·.isOf c d) := by
  unfold Store.upsertStatus
  by_cases hany : l.any (·.isOf n.childId n.date) = true
  · rw [if_pos hany, List.find?_map]
    have hsame : ((·.isOf c d) ∘ fun row : ChildDailyStatus =>
        if row.isOf n.childId n.date then n.merged row else row) = fun row => row.isOf c d := by
      funext row
      simp only [Function.comp]
      split <;> rfl
    rw [hsame]
    by_cases hkey : c = n.childId ∧ d = n.date
    · rw [if_pos hkey]
      obtain ⟨rfl, rfl⟩ := hkey
      obtain ⟨row, hrow⟩ := Option.isSome_iff_exists.1 (List.find?_isSome.2 (by simpa using hany))
      have hof : row.isOf n.childId n.date = true := by simpa using List.find?_some hrow
      rw [hrow]
      simp [hof]
    · rw [if_neg hkey]
      cases hrow : l.find? (·.isOf c d) with
      | none => rfl
      | some row =>
        have hof : row.childId = c ∧ row.date = d := isOf_iff.1 (by simpa using List.find?_some hrow)
        have hnot : row.isOf n.childId n.date = false := by
          rw [Bool.eq_false_iff]
          exact fun h => hkey ⟨hof.1.symm.trans (isOf_iff.1 h).1, hof.2.symm.trans (isOf_iff.1 h).2⟩
        simp [hnot]
  · rw [if_neg hany, List.find?_append]
    by_cases hkey : c = n.childId ∧ d = n.date
    · rw [if_pos hkey]
      obtain ⟨rfl, rfl⟩ := hkey
      have hnone : l.find? (·.isOf n.childId n.date) = none := by
        rw [List.find?_eq_none]
        intro row hrow h
        exact hany (List.any_eq_true.2 ⟨row, hrow, h⟩)
      rw [hnone]
      simp [ChildDailyStatus.isOf]
    · rw [if_neg hkey]
      have hnot : n.isOf c d = false := by
        rw [Bool.eq_false_iff]
        exact fun h => hkey ⟨(isOf_iff.1 h).1.symm, (isOf_iff.1 h).2.symm⟩
      simp [hnot]

theorem rowAt_promoteStatus (l : List ChildDailyStatus) (c₀ : Nat) (d₀ : Int) (by' c : Nat) (d : Int) :
    (Store.promoteStatus l c₀ d₀ by').find? (·.isOf c d) =
      if c = c₀ ∧ d = d₀ then (l.find? (·.isOf c d)).map
        fun row => if row.status.isPromotableByCheckIn then row.promoted by' else row
      else l.find? (·.isOf c d) := by
  unfold Store.promoteStatus
  rw [List.find?_map]
  have hsame : ((·.isOf c d) ∘ fun row : ChildDailyStatus =>
      if row.isOf c₀ d₀ && row.status.isPromotableByCheckIn then row.promoted by' else row) =
      fun row => row.isOf c d := by
    funext row
    simp only [Function.comp]
    split <;> rfl
  rw [hsame]
  cases hrow : l.find? (·.isOf c d) with
  | none => simp
  | some row =>
    have hof : row.childId = c ∧ row.date = d := isOf_iff.1 (by simpa using List.find?_some hrow)
    by_cases hkey : c = c₀ ∧ d = d₀
    · obtain ⟨rfl, rfl⟩ := hkey
      rw [if_pos ⟨rfl, rfl⟩]
      have hit : row.isOf c d = true := isOf_iff.2 hof
      simp [hit]
    · rw [if_neg hkey]
      have hnot : row.isOf c₀ d₀ = false := by
        rw [Bool.eq_false_iff]
        exact fun h => hkey ⟨hof.1.symm.trans (isOf_iff.1 h).1, hof.2.symm.trans (isOf_iff.1 h).2⟩
      simp [hnot]

theorem find_upsertStatus (l : List ChildDailyStatus) (n : ChildDailyStatus) (c : Nat) (d : Int) :
    ((Store.upsertStatus l n).find? (·.isOf c d)).map ChildDailyStatus.status =
      if c = n.childId ∧ d = n.date then some n.status
      else (l.find? (·.isOf c d)).map ChildDailyStatus.status := by
  rw [rowAt_upsertStatus]
  split
  · cases l.find? (·.isOf c d) <;> rfl
  · rfl

theorem find_promoteStatus (l : List ChildDailyStatus) (c₀ : Nat) (d₀ : Int) (by' c : Nat) (d : Int) :
    ((Store.promoteStatus l c₀ d₀ by').find? (·.isOf c d)).map ChildDailyStatus.status =
      if c = c₀ ∧ d = d₀ then ((l.find? (·.isOf c d)).map ChildDailyStatus.status).map
        fun st => if st.isPromotableByCheckIn then .present else st
      else (l.find? (·.isOf c d)).map ChildDailyStatus.status := by
  rw [rowAt_promoteStatus]
  split
  · cases l.find? (·.isOf c d) with
    | none => rfl
    | some row => cases hp : row.status.isPromotableByCheckIn <;> simp [hp, ChildDailyStatus.promoted]
  · rfl

end

/-! ## The Almaty day as a window of instants -/

theorem day_window (t d : Int) :
    almatyDayStartUtc d 0 ≤ t ∧ t < almatyDayStartUtc d 1 ↔ formatDateInTimezone t = d := by
  unfold almatyDayStartUtc formatDateInTimezone midnight almatyOffsetMs msPerDay
  omega

theorem liveIn_eq (c : Nat) (d : Int) (e : AttendanceEvent) :
    e.liveIn c (almatyDayStartUtc d 0) (almatyDayStartUtc d 1) .checkIn = e.checksIn c d := by
  have hday : (decide (almatyDayStartUtc d 0 ≤ e.recordedAt) && decide (e.recordedAt < almatyDayStartUtc d 1)) =
      (e.day == d) := by
    rw [Bool.eq_iff_iff]
    simpa [AttendanceEvent.day] using day_window e.recordedAt d
  unfold AttendanceEvent.liveIn AttendanceEvent.checksIn
  rw [← hday]
  simp only [Bool.and_assoc, Bool.and_comm, Bool.and_left_comm]

/-! ## Refreshed days -/

/-- From `v` to `v'` the statuses of these days are recomputed; nothing else happens. -/
structure Refreshed (touched : List (Nat × Int)) (v v' : Store) : Prop where
  events : v'.events = v.events
  entries : v'.entries = v.entries
  status : ∀ c d, v'.statusAt c d =
    if (c, d) ∈ touched then refreshed (v.checkedIn c d) (v.statusAt c d) else v.statusAt c d

theorem Refreshed.refl (v : Store) : Refreshed [] v v := ⟨rfl, rfl, fun _ _ => rfl⟩

theorem Refreshed.cons {b : Nat × Int} {bs : List (Nat × Int)} {v₁ v₂ v₃ : Store}
    (h₁ : Refreshed [b] v₁ v₂) (h₂ : Refreshed bs v₂ v₃) : Refreshed (b :: bs) v₁ v₃ where
  events := h₂.events.trans h₁.events
  entries := h₂.entries.trans h₁.entries
  status c d := by
    have hchecked : v₂.checkedIn c d = v₁.checkedIn c d := by
      unfold Store.checkedIn
      rw [h₁.events]
    rw [h₂.status, h₁.status, hchecked]
    by_cases hb : (c, d) = b
    · by_cases hbs : (c, d) ∈ bs
      · simp [← hb, refreshed_idem, hbs]
      · simp [← hb, hbs]
    · simp [hb]

theorem Refreshed.one {c : Nat} {d : Int} {v v' : Store} (hevents : v'.events = v.events)
    (hentries : v'.entries = v.entries) (hother : ∀ c' d', ¬ (c' = c ∧ d' = d) → v'.statusAt c' d' = v.statusAt c' d')
    (hself : v'.statusAt c d = refreshed (v.checkedIn c d) (v.statusAt c d)) : Refreshed [(c, d)] v v' where
  events := hevents
  entries := hentries
  status c' d' := by
    by_cases h : c' = c ∧ d' = d
    · obtain ⟨rfl, rfl⟩ := h
      rw [if_pos (by simp), hself]
    · rw [if_neg (by simpa using h), hother c' d' h]

theorem statusAt_upsert (v : Store) (n : ChildDailyStatus) (c : Nat) (d : Int) :
    (Relational.apply v (Write.upsertStatus n)).statusAt c d =
      if c = n.childId ∧ d = n.date then some n.status else v.statusAt c d :=
  find_upsertStatus v.dailyStatuses n c d

theorem statusAt_promote (v : Store) (c₀ : Nat) (d₀ : Int) (by' c : Nat) (d : Int) :
    (Relational.apply v (Write.updatePresentIfAbsentOrLate c₀ d₀ by')).statusAt c d =
      if c = c₀ ∧ d = d₀ then (v.statusAt c d).map fun st => if st.isPromotableByCheckIn then .present else st
      else v.statusAt c d :=
  find_promoteStatus v.dailyStatuses c₀ d₀ by' c d

section

variable {J : Store → Prop} {X : AttendanceError → Prop} {B : Type}
  {Q : Tx Store Key Write → Store → B → Prop} {t : Tx Store Key Write} {s : Store}

/-- The transaction goes on; its view is refreshed. -/
structure RefreshedTx (touched : List (Nat × Int)) (s : Store) (t t' : Tx Store Key Write) : Prop where
  view : Refreshed touched (t.view s) (t'.view s)
  held : t.held ⊆ t'.held
  seen : t.seen <+: t'.seen

theorem RefreshedTx.trans {b : Nat × Int} {bs : List (Nat × Int)} {t₁ t₂ t₃ : Tx Store Key Write}
    (h₁ : RefreshedTx [b] s t₁ t₂) (h₂ : RefreshedTx bs s t₂ t₃) : RefreshedTx (b :: bs) s t₁ t₃ :=
  ⟨h₁.view.cons h₂.view, fun _ hk => h₂.held (h₁.held hk), h₁.seen.trans h₂.seen⟩

theorem safe_upsert {n : ChildDailyStatus} {f : ChildDailyStatus → Sql B} (hX : ∀ e, X e)
    (hstatus : some n.status = refreshed ((t.view s).checkedIn n.childId n.date)
      ((t.view s).statusAt n.childId n.date))
    (h : ∀ row t', RefreshedTx [(n.childId, n.date)] s t t' → Prog.Safe .serial J X Q (f row) t' s) :
    Prog.Safe .serial J X Q (Prog.bind (ChildDailyStatusRepository.upsert n) f) t s := by
  unfold ChildDailyStatusRepository.upsert
  simp only [Prog.bind_eq, Prog.bind_assoc]
  refine Prog.Safe.returning (fun s₁ hr₁ _ _ => ?_) fun _ _ _ hmiss => by cases hmiss
  obtain rfl : s₁ = s := hr₁
  refine Prog.Safe.query fun s₂ hr₂ _ => Prog.Safe.require hX fun row _ => ?_
  obtain rfl : s₂ = s₁ := hr₂
  refine h row _ ⟨.one ?_ ?_ (fun c' d' hne => ?_) ?_, List.subset_append_right _ _, List.prefix_append _ _⟩
  · rw [Tx.view_saw, Tx.view_wrote]
    rfl
  · rw [Tx.view_saw, Tx.view_wrote]
    rfl
  · rw [Tx.view_saw, Tx.view_wrote, statusAt_upsert, if_neg hne]
  · rw [Tx.view_saw, Tx.view_wrote, statusAt_upsert, if_pos ⟨rfl, rfl⟩, hstatus]

theorem safe_promote {c : Nat} {d : Int} {staff : Nat} {f : Option ChildDailyStatus → Sql B}
    (hchecked : (t.view s).checkedIn c d = true) (hrow : (t.view s).statusAt c d ≠ none)
    (h : ∀ row t', RefreshedTx [(c, d)] s t t' → Prog.Safe .serial J X Q (f row) t' s) : Prog.Safe .serial J X Q
      (Prog.bind (ChildDailyStatusRepository.updatePresentIfAbsentOrLate c d staff) f) t s := by
  unfold ChildDailyStatusRepository.updatePresentIfAbsentOrLate ChildDailyStatusRepository.findByChildAndDate
  simp only [Prog.bind_eq, Prog.bind_assoc]
  obtain ⟨st, hst⟩ := Option.ne_none_iff_exists'.1 hrow
  refine Prog.Safe.update (fun s₁ hr₁ _ _ => ?_) fun s₁ hr₁ _ hmiss => ?_
  · obtain rfl : s₁ = s := hr₁
    refine Prog.Safe.query fun s₂ hr₂ _ => ?_
    obtain rfl : s₂ = s₁ := hr₂
    refine h _ _ ⟨.one ?_ ?_ (fun c' d' hne => ?_) ?_, List.subset_append_right _ _, List.prefix_append _ _⟩
    · rw [Tx.view_saw, Tx.view_wrote]
      rfl
    · rw [Tx.view_saw, Tx.view_wrote]
      rfl
    · rw [Tx.view_saw, Tx.view_wrote, statusAt_promote, if_neg hne]
    · rw [Tx.view_saw, Tx.view_wrote, statusAt_promote, if_pos ⟨rfl, rfl⟩, hst, hchecked]
      rfl
  · obtain rfl : s₁ = s := hr₁
    refine Prog.Safe.query fun s₂ hr₂ _ => ?_
    obtain rfl : s₂ = s₁ := hr₂
    -- the row has a status that check-ins leave alone
    have hkept : st.isPromotableByCheckIn = false := by
      have hmiss : ((t.view s₂).dailyStatusAt c d).any (fun d => d.status.isPromotableByCheckIn) = false := hmiss
      unfold Store.statusAt at hst
      obtain ⟨row, hfound, rfl⟩ := Option.map_eq_some_iff.1 hst
      rw [hfound] at hmiss
      exact hmiss
    refine h _ _ ⟨.one rfl rfl (fun _ _ _ => rfl) ?_, List.Subset.refl _, List.prefix_append _ _⟩
    rw [Tx.view_saw, hst, hchecked, refreshed, hkept]
    rfl

theorem liveCheckIns_iff (v : Store) (c : Nat) (d : Int) :
    0 < (((v.events.filter (AttendanceEvent.liveIn c (almatyDayStartUtc d 0) (almatyDayStartUtc d 1) .checkIn)).insertionSort
      fun a b => b.recordedAt ≤ a.recordedAt).take 1).length ↔ v.checkedIn c d = true := by
  rw [List.length_take, List.length_insertionSort, Nat.lt_min, List.length_filter_pos_iff]
  unfold Store.checkedIn
  rw [List.any_eq_true]
  simp only [liveIn_eq]
  exact ⟨fun h => h.2, fun h => ⟨Nat.one_pos, h⟩⟩

theorem safe_recompute {c : Nat} {d : Int} {staff : Nat} {f : Unit → Sql B} (hX : ∀ e, X e)
    (h : ∀ t', RefreshedTx [(c, d)] s t t' → Prog.Safe .serial J X Q (f ()) t' s) :
    Prog.Safe .serial J X Q (Prog.bind (AttendanceService.recomputeDailyStatus c d staff) f) t s := by
  unfold AttendanceService.recomputeDailyStatus AttendanceEventRepository.listByChild
    ChildDailyStatusRepository.findByChildAndDate
  simp only [Prog.bind_eq, Prog.bind_assoc]
  refine Prog.Safe.query fun s₁ hr₁ _ => Prog.Safe.query fun s₂ hr₂ _ => ?_
  obtain rfl : s₁ = s := hr₁
  obtain rfl : s₂ = s₁ := hr₂
  have hlater : ∀ t', RefreshedTx [(c, d)] s₂ ((t.saw s₂).saw s₂) t' → Prog.Safe .serial J X Q (f ()) t' s₂ :=
    fun t' ht' => h t' ⟨ht'.view, ht'.held, ((List.prefix_append _ _).trans (List.prefix_append _ _)).trans ht'.seen⟩
  have hstatus : ((t.saw s₂).saw s₂).view s₂ = t.view s₂ := rfl
  rw [Tx.view_saw]
  cases hrow : (t.view s₂).dailyStatusAt c d with
  | none =>
    have hnone : (t.view s₂).statusAt c d = none := by rw [Store.statusAt, hrow]; rfl
    by_cases hchecked : (t.view s₂).checkedIn c d = true
    · rw [if_pos ((liveCheckIns_iff _ c d).2 hchecked)]
      simp only [Prog.bind_assoc, AttendanceService.createStatus, Prog.bind_eq]
      refine Prog.Safe.uuid fun s₃ i hr₃ _ _ _ => ?_
      obtain rfl : s₃ = s₂ := hr₃
      refine safe_upsert hX ?_ fun row t' ht' => hlater t' ⟨ht'.view, ?_, ht'.seen⟩
      · show some ChildIntradayStatus.present = refreshed ((t.view s₃).checkedIn c d) ((t.view s₃).statusAt c d)
        rw [hchecked, hnone]
        rfl
      · exact fun _ hk => ht'.held (List.mem_cons_of_mem _ hk)
    · rw [if_neg fun hlen => hchecked ((liveCheckIns_iff _ c d).1 hlen)]
      refine hlater _ ⟨.one rfl rfl (fun _ _ _ => rfl) ?_, List.Subset.refl _, List.prefix_rfl⟩
      rw [hstatus, hnone, Bool.eq_false_iff.2 hchecked]
      rfl
  | some row =>
    have hsome : (t.view s₂).statusAt c d = some row.status := by rw [Store.statusAt, hrow]; rfl
    by_cases hchecked : (t.view s₂).checkedIn c d = true
    · rw [if_pos ((liveCheckIns_iff _ c d).2 hchecked)]
      simp only [Prog.bind_assoc]
      refine safe_promote hchecked ?_ fun _ t' ht' => hlater t' ht'
      rw [hstatus, hsome]
      exact Option.some_ne_none _
    · rw [if_neg fun hlen => hchecked ((liveCheckIns_iff _ c d).1 hlen)]
      have hchecked := Bool.eq_false_iff.2 hchecked
      by_cases hpresent : row.status = .present
      · simp only [hpresent, if_true, Prog.bind_assoc]
        refine safe_upsert hX ?_ fun _ t' ht' => hlater t' ht'
        show some ChildIntradayStatus.absent = refreshed ((t.view s₂).checkedIn c d) ((t.view s₂).statusAt c d)
        rw [hchecked, hsome, hpresent]
        rfl
      · simp only [hpresent, if_false]
        refine hlater _ ⟨.one rfl rfl (fun _ _ _ => rfl) ?_, List.Subset.refl _, List.prefix_rfl⟩
        rw [hstatus, hchecked, hsome]
        cases hst : row.status <;> first | exact absurd hst hpresent | rfl

theorem safe_recomputeEach {staff : Nat} {f : Unit → Sql B} (hX : ∀ e, X e) (bs : List (Nat × Int))
    (h : ∀ t', RefreshedTx bs s t t' → Prog.Safe .serial J X Q (f ()) t' s) : Prog.Safe .serial J X Q
      (Prog.bind (Prog.forEach (fun b => AttendanceService.recomputeDailyStatus b.1 b.2 staff) bs) f) t s := by
  induction bs generalizing t with
  | nil => exact h t ⟨.refl _, List.Subset.refl _, List.prefix_rfl⟩
  | cons b bs ih =>
    simp only [Prog.forEach, Prog.bind_assoc]
    exact safe_recompute hX fun t₁ h₁ => ih fun t₂ h₂ => h t₂ (h₁.trans h₂)

end

/-! ## The requests -/

/-- Seen from before the request: these days are refreshed, the check-ins of the others are as they
were. -/
structure Settles (touched : List (Nat × Int)) (s s' : Store) : Prop where
  others : ∀ c d, (c, d) ∉ touched → s'.checkedIn c d = s.checkedIn c d
  status : ∀ c d, s'.statusAt c d =
    if (c, d) ∈ touched then refreshed (s'.checkedIn c d) (s.statusAt c d) else s.statusAt c d

/-- What `patchEvent` does to the events and to the statuses once it holds the event. -/
structure PatchSettles (D : Discipline Store Key Write) (i : Nat) (patch : UpdateAttendanceEventPatch)
    (t : Tx Store Key Write) (s : Store) : Prop where
  held : Key.row i ∈ t.held
  read : ∃ v before, D.rely [] v s ∧ v.eventAt i = some before ∧ before.deletedAt = none ∧
    (t.view s).events = Table.updateWhere s.events i (fun _ => true) (before.applyPatch patch).saved ∧
    ∀ c d, (t.view s).statusAt c d =
      if (c, d) ∈ [(before.childId, before.day), ((before.applyPatch patch).childId, (before.applyPatch patch).day)]
      then refreshed ((t.view s).checkedIn c d) (s.statusAt c d) else s.statusAt c d

/-- The timeline without the entry found for the event. -/
def withoutMirror (l : List TimelineEntry) (i : Nat) : List TimelineEntry :=
  match mirrorOf l i with
  | some x => l.filter fun q => q.id != x.id
  | none => l

structure DeleteSettles (D : Discipline Store Key Write) (i : Nat) (t : Tx Store Key Write) (s : Store) :
    Prop where
  held : Key.row i ∈ t.held
  entries : (t.view s).entries = withoutMirror s.entries i
  read : ∃ v before now, D.rely [] v s ∧ v.eventAt i = some before ∧ before.deletedAt = none ∧
    (t.view s).events = Table.updateWhere s.events i (fun _ => true) (before.softDelete now).saved ∧
    ∀ c d, (t.view s).statusAt c d =
      if (c, d) ∈ [(before.childId, before.day)]
      then refreshed ((t.view s).checkedIn c d) (s.statusAt c d) else s.statusAt c d

section

variable {D : Discipline Store Key Write} {J : Store → Prop} {X : AttendanceError → Prop} {s : Store}

/-- A store whose statuses are those of `s` is refreshed as `s` would be. -/
theorem Refreshed.status_of_same {touched : List (Nat × Int)} {v v' : Store} (h : Refreshed touched v v')
    (hsame : v.dailyStatuses = s.dailyStatuses) (c : Nat) (d : Int) : v'.statusAt c d =
      if (c, d) ∈ touched then refreshed (v'.checkedIn c d) (s.statusAt c d) else s.statusAt c d := by
  have hstatus : v.statusAt c d = s.statusAt c d := by
    unfold Store.statusAt Store.dailyStatusAt
    rw [hsame]
  have hchecked : v'.checkedIn c d = v.checkedIn c d := by
    unfold Store.checkedIn
    rw [h.events]
  rw [h.status, hstatus, hchecked]

theorem Cascades.noStatus {before a : AttendanceEvent} {found : Option TimelineEntry}
    {gone : TimelineEntry → Prop} {ws : List Write} (h : Cascades before a found gone ws) (s : Store) :
    (ws.foldl Relational.apply s).dailyStatuses = s.dailyStatuses := by
  cases h <;> rfl

theorem Unmirrors.noStatus {found : Option TimelineEntry} {gone : TimelineEntry → Prop} {ws : List Write}
    (h : Unmirrors found gone ws) (s : Store) : (ws.foldl Relational.apply s).dailyStatuses = s.dailyStatuses := by
  cases h <;> rfl

theorem Unmirrors.entries {i : Nat} {held : List Key} {ws : List Write}
    (h : Unmirrors (mirrorOf s.entries i) (Gone .serial J held s) ws) :
    ws.foldl applyEntries s.entries = withoutMirror s.entries i := by
  unfold withoutMirror
  cases h with
  | unmirrored h =>
    rw [h]
    rfl
  | removed x h =>
    rw [h]
    rfl
  | late x h hgone =>
    obtain ⟨s', -, hr, hnone⟩ := hgone
    obtain rfl : s' = s := hr
    have hmem : x ∈ s'.entries := List.mem_of_find?_eq_some h
    exact absurd rfl (Table.find_eq_none.1 hnone x hmem)

theorem moves_of_serial {held : List Key} {s' : Store} (h : Discipline.serial.rely held s s') : Moves held s s' := by
  obtain rfl : s' = s := h
  exact rowLocks.refl held s'

/-- After the UPDATE of the event nothing moves any more, `i` being held. -/
theorem safe_patch_settles (hX : ∀ e, X e) {i : Nat}
    (hstill : ∀ held s s', Key.row i ∈ held → D.rely held s s' → s' = s) (now : Int) (caller : Caller)
    (patch : UpdateAttendanceEventPatch) (opts : PatchEventOpts) (found allowed : Bool) :
    Prog.Safe D J X (fun t s _ => PatchSettles D i patch t s)
      (Op.patchEvent now i caller patch opts found allowed).prog Tx.start s := by
  refine safe_patch hX fun v before staff _ hv hlive _ => ?_
  obtain rfl : before.id = i := Table.id_of_find hv
  refine safe_updateEvent hX rfl fun s₁ s₂ e _ _ _ _ hj₂ he => ?_
  refine Prog.Safe.still (fun s' hr => hstill _ _ _ List.mem_cons_self hr) ?_
  refine safe_cascade hX (fun _ _ _ => moves_of_serial) (fun _ => rfl) fun s₃ ws t' hr₃ _ hc ha s₄ hr₄ _ _ => ?_
  obtain rfl : s₃ = s₂ := hr₃
  obtain rfl : s₄ = s₃ := hr₄
  refine safe_recomputeEach hX _ fun t₅ h₅ s₅ hr₅ hj₅ => ?_
  obtain rfl : s₅ = s₄ := hr₅
  have hview : t'.view s₅ = ws.foldl Relational.apply (Relational.apply s₅ (Write.updateEvent (before.applyPatch patch))) := by
    unfold Tx.view
    rw [ha.writes]
    rfl
  refine ⟨h₅.held (ha.held List.mem_cons_self), v, before, hj₅.1.2, hv, hlive, ?_, fun c d => ?_⟩
  · rw [h₅.view.events, hview, foldl_apply_events, hc.noEvent]
    rfl
  · have hsame : (t'.view s₅).dailyStatuses = s₅.dailyStatuses := by
      rw [hview, hc.noStatus]
      rfl
    rw [h₅.view.status_of_same hsame]
    simp only [List.mem_dedup]
    rfl

theorem safe_delete_settles (hX : ∀ e, X e) {i : Nat}
    (hstill : ∀ held s s', Key.row i ∈ held → D.rely held s s' → s' = s) (now : Int) (caller : Caller) :
    Prog.Safe D J X (fun t s _ => DeleteSettles D i t s) (Op.deleteEvent now i caller).prog Tx.start s := by
  refine safe_softDelete hX fun v before staff _ hv hlive => ?_
  obtain rfl : before.id = i := Table.id_of_find hv
  refine safe_updateEvent hX rfl fun s₁ s₂ e _ _ _ _ hj₂ he => ?_
  refine Prog.Safe.still (fun s' hr => hstill _ _ _ List.mem_cons_self hr) ?_
  refine safe_unmirror (fun _ => rfl) fun s₃ ws t' s₄ hr₃ _ hu ha hr₄ _ => ?_
  obtain rfl : s₃ = s₂ := hr₃
  obtain rfl : s₄ = s₃ := hr₄
  refine safe_recompute hX fun t₅ h₅ s₅ hr₅ hj₅ => ?_
  obtain rfl : s₅ = s₄ := hr₅
  have hview : t'.view s₅ = ws.foldl Relational.apply (Relational.apply s₅ (Write.updateEvent (before.softDelete now))) := by
    unfold Tx.view
    rw [ha.writes]
    rfl
  refine ⟨h₅.held (ha.held List.mem_cons_self), ?_, v, before, now, hj₅.1.2, hv, hlive, ?_, fun c d => ?_⟩
  · rw [h₅.view.entries, hview, foldl_apply_entries]
    exact hu.entries
  · rw [h₅.view.events, hview, foldl_apply_events, hu.noEvent]
    rfl
  · have hsame : (t'.view s₅).dailyStatuses = s₅.dailyStatuses := by
      rw [hview, hu.noStatus]
      rfl
    exact h₅.view.status_of_same hsame c d

/-! ### One at a time -/

theorem checksIn_false {e : AttendanceEvent} {c : Nat} {d : Int} (h : (c, d) ≠ (e.childId, e.day)) :
    e.checksIn c d = false := by
  rw [Bool.eq_false_iff]
  intro hc
  simp only [AttendanceEvent.checksIn, Bool.and_eq_true, beq_iff_eq] at hc
  exact h (by rw [hc.1.1.2, hc.2])

theorem checkedIn_corrected {s' : Store} {a e : AttendanceEvent} {i : Nat} {c : Nat} {d : Int}
    (hu : Table.Unique s.events) (he : s.eventAt i = some e)
    (hevents : s'.events = Table.updateWhere s.events i (fun _ => true) a.saved)
    (hbefore : (c, d) ≠ (e.childId, e.day)) (hafter : (c, d) ≠ (a.childId, a.day)) :
    s'.checkedIn c d = s.checkedIn c d := by
  have hold := checksIn_false hbefore
  have hnew : (a.saved e).checksIn c d = false := checksIn_false hafter
  have honly : ∀ q ∈ s.events, Row.id q = i → q = e := by
    intro q hq hid
    have hfind := Table.find_of_mem hu hq
    rw [hid] at hfind
    exact Option.some.inj (hfind.symm.trans he)
  unfold Store.checkedIn
  rw [hevents, Bool.eq_iff_iff, List.any_eq_true, List.any_eq_true]
  constructor
  · rintro ⟨q', hq', hc⟩
    obtain ⟨q, hq, rfl⟩ := List.mem_map.1 hq'
    split at hc
    · next hid =>
      have hqe : q = e := honly q hq (by simpa using hid)
      rw [hqe, hnew] at hc
      cases hc
    · exact ⟨q, hq, hc⟩
  · rintro ⟨q, hq, hc⟩
    refine ⟨q, List.mem_map.2 ⟨q, hq, if_neg fun hid => ?_⟩, hc⟩
    rw [honly q hq (by simpa using hid), hold] at hc
    cases hc

theorem Settles.of_same {s' : Store} (hevents : s'.events = s.events)
    (hstatuses : s'.dailyStatuses = s.dailyStatuses) : Settles [] s s' where
  others c d _ := by
    unfold Store.checkedIn
    rw [hevents]
  status c d := by
    unfold Store.statusAt Store.dailyStatusAt
    rw [hstatuses]
    rfl

theorem checkedIn_recorded {s' : Store} {event : AttendanceEvent} (hevents : s'.events = s.events ++ [event])
    {c : Nat} {d : Int} (h : event.checksIn c d = false) : s'.checkedIn c d = s.checkedIn c d := by
  unfold Store.checkedIn
  rw [hevents, List.any_append]
  simp [h]

theorem safe_checkIn_settles (hX : ∀ e, X e) (now : Int) (c : Nat) (caller : Caller) (found : Bool)
    (recordedAt : Option Int) (notes : Option String) :
    Prog.Safe .serial J X (fun t s _ => ∃ touched, Settles touched s (t.view s))
      (Op.checkIn now c caller found recordedAt notes).prog Tx.start s := by
  simp only [Op.prog, AttendanceService.checkIn, AttendanceService.resolveCallerStaffMemberId,
    assertNotFuture, ChildDailyStatusRepository.findByChildAndDate, Prog.bind_eq, Prog.bind_assoc]
  refine Prog.Safe.guardOr hX fun _ => Prog.Safe.require hX fun staff _ => Prog.Safe.guardOr hX fun _ => ?_
  refine safe_record hX (fun _ _ _ => moves_of_serial) rfl fun i j t₁ s₁ ha _ _ hnew => ?_
  refine Prog.Safe.query fun s₂ hr₂ _ => ?_
  obtain rfl : s₂ = s₁ := hr₂
  generalize hevent : AttendanceEvent.createCheckIn i c .manual staff notes (recordedAt.getD now) = event at *
  have hview : t₁.view s₂ = { s₂ with
      events := s₂.events ++ [event], entries := s₂.entries ++ [mirrorEntry j event (some staff)] } := by
    unfold Tx.view
    rw [ha.writes]
    rfl
  have hchecked : (t₁.view s₂).checkedIn c (formatDateInTimezone (recordedAt.getD now)) = true := by
    unfold Store.checkedIn
    rw [hview]
    refine List.any_eq_true.2 ⟨event, List.mem_append_right _ List.mem_cons_self, ?_⟩
    subst hevent
    simp [AttendanceEvent.checksIn, AttendanceEvent.createCheckIn, AttendanceEvent.day]
  have hend : ∀ t₃, RefreshedTx [(c, formatDateInTimezone (recordedAt.getD now))] s₂ (t₁.saw s₂) t₃ →
      ∃ touched, Settles touched s₂ (t₃.view s₂) := by
    intro t₃ h₃
    refine ⟨_, fun c' d' hne => ?_, fun c' d' => h₃.view.status_of_same ?_ c' d'⟩
    · have hevents : (t₃.view s₂).events = s₂.events ++ [event] := by
        rw [h₃.view.events, Tx.view_saw, hview]
      refine checkedIn_recorded hevents (checksIn_false ?_)
      subst hevent
      exact fun he => hne (List.mem_singleton.2 he)
    · rw [Tx.view_saw, hview]
  cases hrow : (t₁.view s₂).dailyStatusAt c (formatDateInTimezone (recordedAt.getD now)) with
  | none =>
    simp only [Prog.bind_assoc, AttendanceService.createStatus, Prog.bind_eq]
    refine Prog.Safe.uuid fun s₃ k hr₃ _ _ _ => ?_
    obtain rfl : s₃ = s₂ := hr₃
    refine safe_upsert hX ?_ fun row t₃ h₃ s₄ hr₄ _ => ?_
    · have hnone : (t₁.view s₃).statusAt c (formatDateInTimezone (recordedAt.getD now)) = none := by
        rw [Store.statusAt, hrow]
        rfl
      show some ChildIntradayStatus.present = refreshed ((t₁.view s₃).checkedIn c _) ((t₁.view s₃).statusAt c _)
      rw [hchecked, hnone]
      rfl
    · obtain rfl : s₄ = s₃ := hr₄
      exact hend t₃ ⟨h₃.view, fun _ hk => h₃.held (List.mem_cons_of_mem _ hk), h₃.seen⟩
  | some row =>
    simp only [Prog.bind_assoc]
    refine safe_promote hchecked ?_ fun _ t₃ h₃ s₄ hr₄ _ => ?_
    · rw [Tx.view_saw, Store.statusAt, hrow]
      exact Option.some_ne_none _
    · obtain rfl : s₄ = s₂ := hr₄
      exact hend t₃ h₃

/-! ### The requests of the timeline -/

def Write.IsEntry : Write → Prop
  | .insertEntry _ | .updateEntry _ | .deleteEntry _ => True
  | _ => False

theorem Write.IsEntry.events {w : Write} (h : w.IsEntry) (s : Store) : (Relational.apply s w).events = s.events := by
  cases w <;> first | exact h.elim | rfl

theorem Write.IsEntry.dailyStatuses {w : Write} (h : w.IsEntry) (s : Store) :
    (Relational.apply s w).dailyStatuses = s.dailyStatuses := by
  cases w <;> first | exact h.elim | rfl

theorem onlyWrites_assertTimelineMetadata {A : Type} (entryType : TimelineEntryType)
    (metadata : Option Metadata) {f : Unit → Sql A} (h : Prog.OnlyWrites Write.IsEntry (f ())) :
    Prog.OnlyWrites Write.IsEntry (Prog.bind (TimelineService.assertTimelineMetadata entryType metadata) f) := by
  have htyped : ∀ e k l x, Prog.OnlyWrites Write.IsEntry
      (Prog.bind (TimelineService.assertTyped metadata e k l x) f) := by
    intro e k l x
    unfold TimelineService.assertTyped
    split
    · exact h
    · exact Prog.OnlyWrites.guardOr h
  unfold TimelineService.assertTimelineMetadata
  split
  · exact htyped _ _ _ _
  · exact htyped _ _ _ _
  · exact h

theorem onlyWrites_assertEditable {A : Type} (entry : TimelineEntry) (caller : Caller)
    (opts : TimelineEntryOpts) {f : Unit → Sql A} (h : Prog.OnlyWrites Write.IsEntry (f ())) :
    Prog.OnlyWrites Write.IsEntry (Prog.bind (TimelineService.assertEditable entry caller opts) f) := by
  unfold TimelineService.assertEditable TimelineService.resolveAuthor TimelineService.resolveStaffMemberId
    TimelineService.assertMentorScope
  simp only [Prog.bind_eq, Prog.bind_assoc]
  have hrest : ∀ author, Prog.OnlyWrites Write.IsEntry
      (Prog.bind (Prog.ofExcept (entry.assertEditableBy author opts.isAdmin)) fun _ =>
        Prog.bind (Prog.guardOr (opts.isAdmin || !opts.isMentor || opts.mentorOfGroup)
          (.mentorScopeViolated entry.childId)) f) := by
    intro author
    cases entry.assertEditableBy author opts.isAdmin with
    | error e => trivial
    | ok u => exact Prog.OnlyWrites.guardOr h
  cases hadmin : opts.isAdmin with
  | true =>
    rw [hadmin] at hrest
    exact hrest none
  | false =>
    rw [hadmin] at hrest
    cases caller.staff with
    | none => trivial
    | some staff => exact hrest (some staff)

theorem onlyWrites_createEntry (now : Int) (c : Nat) (caller : Caller) (dto : CreateTimelineEntryInput)
    (found : Bool) (opts : TimelineEntryOpts) :
    Prog.OnlyWrites Write.IsEntry (Op.createEntry now c caller dto found opts).prog := by
  simp only [Op.prog, TimelineService.createEntry, TimelineService.resolveStaffMemberId, assertNotFuture,
    TimelineService.assertMentorScope, TimelineEntryRepository.create, Prog.insertOr, Prog.bind_eq, Prog.bind_assoc]
  refine Prog.OnlyWrites.guardOr (onlyWrites_assertTimelineMetadata _ _ (Prog.OnlyWrites.require fun staff => ?_))
  refine Prog.OnlyWrites.guardOr (Prog.OnlyWrites.guardOr (Prog.OnlyWrites.guardOr fun i => ⟨trivial, fun b => ?_⟩))
  exact Prog.OnlyWrites.guardOr trivial

theorem onlyWrites_updateEntry (now : Int) (i : Nat) (caller : Caller) (dto : UpdateTimelineEntryInput)
    (opts : TimelineEntryOpts) : Prog.OnlyWrites Write.IsEntry (Op.updateEntry now i caller dto opts).prog := by
  simp only [Op.prog, TimelineService.updateEntry, TimelineService.findEntryOrThrow,
    TimelineEntryRepository.findById, TimelineEntryRepository.update, assertNotFuture, Prog.bind_eq,
    Prog.bind_assoc]
  intro v
  refine Prog.OnlyWrites.require fun y => onlyWrites_assertEditable _ _ _ (Prog.OnlyWrites.guardOr ?_)
  refine onlyWrites_assertTimelineMetadata _ _ ⟨trivial, fun b => ?_⟩
  cases b with
  | false => trivial
  | true => exact fun s => Prog.OnlyWrites.require fun _ => trivial

theorem onlyWrites_deleteEntry (i : Nat) (caller : Caller) (opts : TimelineEntryOpts) :
    Prog.OnlyWrites Write.IsEntry (Op.deleteEntry i caller opts).prog := by
  simp only [Op.prog, TimelineService.deleteEntry, TimelineService.findEntryOrThrow,
    TimelineEntryRepository.findById, TimelineEntryRepository.delete, Prog.bind_eq, Prog.bind_assoc]
  intro v
  exact Prog.OnlyWrites.require fun y => onlyWrites_assertEditable _ _ _ ⟨trivial, fun _ => trivial⟩

theorem safe_settles (hX : ∀ e, X e) (hJ : ∀ s, J s → s.WF) (hj : J s) (op : Op) :
    Prog.Safe .serial J X (fun t s _ => ∃ touched, Settles touched s (t.view s)) op.prog Tx.start s := by
  have hstill : ∀ i : Nat, ∀ held (s s' : Store), Key.row i ∈ held → Discipline.serial.rely held s s' → s' = s :=
    fun _ _ _ _ _ h => h
  -- a request of the timeline
  have hother : Prog.OnlyWrites Write.IsEntry op.prog →
      Prog.Safe .serial J X (fun t s _ => ∃ touched, Settles touched s (t.view s)) op.prog Tx.start s := by
    intro h
    refine (Prog.Safe.of_onlyWrites h hX hj).mono fun t s' _ _ ht => ⟨[], .of_same ?_ ?_⟩
    · exact ht.1.view_eq Store.events (fun _ w hw => hw.events _) s'
    · exact ht.1.view_eq Store.dailyStatuses (fun _ w hw => hw.dailyStatuses _) s'
  cases op with
  | checkIn now c caller found recordedAt notes =>
    exact safe_checkIn_settles hX now c caller found recordedAt notes
  | checkOut now c caller found user request allowed method recordedAt notes =>
    simp only [Op.prog, AttendanceService.checkOut, AttendanceService.resolveCallerStaffMemberId,
      assertNotFuture, Prog.bind_eq, Prog.bind_assoc]
    refine Prog.Safe.guardOr hX fun _ => Prog.Safe.require hX fun staff _ => Prog.Safe.guardOr hX fun _ => ?_
    refine safe_assertCheckOutPickup hX ?_
    refine safe_record hX (fun _ _ _ => moves_of_serial) rfl fun i j t' s' ha _ _ _ s₂ hr₂ _ => ?_
    obtain rfl : s₂ = s' := hr₂
    refine ⟨[], fun c d _ => checkedIn_recorded (by rw [events_view, ha.writes]; rfl) ?_, fun c d => ?_⟩
    · simp [AttendanceEvent.checksIn, AttendanceEvent.createCheckOut]
    · unfold Tx.view
      rw [ha.writes]
      rfl
  | patchEvent now i caller patch opts found allowed =>
    refine (safe_patch_settles hX (hstill i) now caller patch opts found allowed).mono ?_
    rintro t s _ hj ⟨-, v, before, hr, hv, -, hevents, hstatus⟩
    obtain rfl : s = v := hr
    refine ⟨_, fun c d hne => ?_, hstatus⟩
    simp only [List.mem_cons, List.not_mem_nil, or_false, not_or] at hne
    exact checkedIn_corrected (hJ s hj).events hv hevents hne.1 hne.2
  | deleteEvent now i caller =>
    refine (safe_delete_settles hX (hstill i) now caller).mono ?_
    rintro t s _ hj ⟨-, -, v, before, at', hr, hv, -, hevents, hstatus⟩
    obtain rfl : s = v := hr
    refine ⟨_, fun c d hne => ?_, hstatus⟩
    have hne : (c, d) ≠ (before.childId, before.day) := fun h => hne (List.mem_singleton.2 h)
    exact checkedIn_corrected (hJ s hj).events hv hevents hne hne
  | createEntry now c caller dto found opts => exact hother (onlyWrites_createEntry now c caller dto found opts)
  | updateEntry now i caller dto opts => exact hother (onlyWrites_updateEntry now i caller dto opts)
  | deleteEntry i caller opts => exact hother (onlyWrites_deleteEntry i caller opts)

end

/-! ## Every serial run -/

/-- A day with a check-in is `present`; another has no status or is `absent`. -/
structure DayFollows (s : Store) (c : Nat) (d : Int) : Prop where
  checked : s.checkedIn c d = true → s.statusAt c d = some .present
  unchecked : s.checkedIn c d = false → s.statusAt c d = none ∨ s.statusAt c d = some .absent

section

variable {s s' : Store}

theorem dailyStatusAt_of_mem (hs : (s.dailyStatuses.map fun d => (d.childId, d.date)).Nodup)
    {row : ChildDailyStatus} (hrow : row ∈ s.dailyStatuses) : s.dailyStatusAt row.childId row.date = some row := by
  obtain ⟨q, hq⟩ := Option.isSome_iff_exists.1
    (List.find?_isSome.2 ⟨row, hrow, isOf_iff.2 ⟨rfl, rfl⟩⟩ : (s.dailyStatusAt row.childId row.date).isSome)
  have hof := isOf_iff.1 (by simpa using List.find?_some hq : q.isOf row.childId row.date = true)
  have hsame : q = row := List.inj_on_of_nodup_map hs (List.mem_of_find?_eq_some hq) hrow
    (Prod.ext hof.1 hof.2)
  exact hsame ▸ hq

theorem follows_iff (hs : (s.dailyStatuses.map fun d => (d.childId, d.date)).Nodup) :
    DailyStatusFollows s ∧ Inferred s ↔ ∀ c d, DayFollows s c d := by
  constructor
  · rintro ⟨hf, hi⟩ c d
    constructor
    · intro hchecked
      obtain ⟨row, hrow, rfl, rfl⟩ := (hf c d).1 hchecked
      have hpresent := ((hf row.childId row.date).2 row hrow rfl rfl).2 hchecked
      rw [Store.statusAt, dailyStatusAt_of_mem hs hrow, Option.map_some, hpresent]
    · intro hchecked
      unfold Store.statusAt
      cases hrow : s.dailyStatusAt c d with
      | none => exact .inl rfl
      | some row =>
        have hmem : row ∈ s.dailyStatuses := List.mem_of_find?_eq_some hrow
        obtain ⟨rfl, rfl⟩ := isOf_iff.1 (by simpa using List.find?_some hrow : row.isOf c d = true)
        have hnot : row.status ≠ .present := by
          intro h
          rw [((hf row.childId row.date).2 row hmem rfl rfl).1 h] at hchecked
          cases hchecked
        rw [Option.map_some, (hi row hmem).resolve_left hnot]
        exact .inr rfl
  · intro h
    have hstatus : ∀ row ∈ s.dailyStatuses, s.statusAt row.childId row.date = some row.status := by
      intro row hrow
      rw [Store.statusAt, dailyStatusAt_of_mem hs hrow]
      rfl
    refine ⟨fun c d => ⟨fun hchecked => ?_, ?_⟩, fun row hrow => ?_⟩
    · obtain ⟨row, hrow, -⟩ := Option.map_eq_some_iff.1 ((h c d).checked hchecked)
      exact ⟨row, List.mem_of_find?_eq_some hrow,
        isOf_iff.1 (by simpa using List.find?_some hrow : row.isOf c d = true)⟩
    · rintro row hrow rfl rfl
      constructor
      · intro hpresent
        by_contra hnot
        rcases (h row.childId row.date).unchecked (Bool.eq_false_iff.2 hnot) with hnone | habsent
        · rw [hstatus row hrow] at hnone
          cases hnone
        · rw [hstatus row hrow, hpresent] at habsent
          cases habsent
      · intro hchecked
        have hpresent := (h row.childId row.date).checked hchecked
        rw [hstatus row hrow] at hpresent
        exact Option.some.inj hpresent
    · cases hchecked : s.checkedIn row.childId row.date with
      | true =>
        have hpresent := (h row.childId row.date).checked hchecked
        rw [hstatus row hrow] at hpresent
        exact .inl (Option.some.inj hpresent)
      | false =>
        rcases (h row.childId row.date).unchecked hchecked with hnone | habsent
        · rw [hstatus row hrow] at hnone
          cases hnone
        · rw [hstatus row hrow] at habsent
          exact .inr (Option.some.inj habsent)

theorem Settles.follows {touched : List (Nat × Int)} (h : Settles touched s s')
    (hs : ∀ c d, DayFollows s c d) (c : Nat) (d : Int) : DayFollows s' c d := by
  by_cases hmem : (c, d) ∈ touched
  · have hstatus := h.status c d
    rw [if_pos hmem] at hstatus
    have hbefore : s.statusAt c d = none ∨ s.statusAt c d = some .absent ∨ s.statusAt c d = some .present := by
      cases hchecked : s.checkedIn c d with
      | true => exact .inr (.inr ((hs c d).checked hchecked))
      | false =>
        rcases (hs c d).unchecked hchecked with h | h
        · exact .inl h
        · exact .inr (.inl h)
    constructor
    · intro hchecked
      rw [hstatus, hchecked]
      rcases hbefore with h | h | h <;> (rw [h]; rfl)
    · intro hchecked
      rw [hstatus, hchecked]
      rcases hbefore with h | h | h
      · exact .inl (by rw [h]; rfl)
      · exact .inr (by rw [h]; rfl)
      · exact .inr (by rw [h]; rfl)
  · have hstatus := h.status c d
    rw [if_neg hmem] at hstatus
    have hchecked := h.others c d hmem
    exact ⟨fun hc => hstatus.trans ((hs c d).checked (hchecked ▸ hc)),
      fun hc => hstatus ▸ (hs c d).unchecked (hchecked ▸ hc)⟩

end

/-- **The daily status follows attendance.**  Run one at a time, from a state in which no status was
set by hand, the requests keep a row for each day with a live check-in, and a row is `present` just
when there is one. -/
theorem daily_status_follows {s : Store} {cs : Schedule 1} {σ : System 1} (hs : s.WF) (hi : Inferred s)
    (hf : DailyStatusFollows s) (hrun : run s cs = some σ) :
    Always DailyStatusFollows s σ.log ∧ DailyStatusFollows σ.db := by
  have hX : ∀ _ : AttendanceError, True := fun _ => trivial
  have hany : System.Starts (fun _ : Op => True) cs := fun _ _ _ => trivial
  have hstep : ∀ op (t : Tx Store Key Write) (s : Store) (_ : Response), (s.WF ∧ ∀ c d, DayFollows s c d) →
      ((Outcome .serial (fun s => s.WF ∧ ∀ c d, DayFollows s c d) op t s ∧
        ∀ w ∈ t.writes, Store.keys w ⊆ t.held) ∧ ∃ touched, Settles touched s (t.view s)) →
      (t.view s).WF ∧ ∀ c d, DayFollows (t.view s) c d := by
    rintro op t s _ hj ⟨⟨ho, hkeys⟩, touched, ht⟩
    exact ⟨ho.wf hkeys hj.1, ht.follows hj.2⟩
  have hchain := System.exec_chain_serial (X := fun _ => True) ⟨hs, (follows_iff hs.days).1 ⟨hf, hi⟩⟩
    (fun op s _ hj => ((safe_outcome hX (fun _ _ _ => moves_of_serial) op).withKeys hX).and
      (safe_settles hX (fun _ h => h.1) hj op)) hstep hany hrun
  have hlater : ∀ s, (s.WF ∧ ∀ c d, DayFollows s c d) → DailyStatusFollows s :=
    fun s h => ((follows_iff h.1.days).2 h.2).1
  constructor
  · exact hchain.always DailyStatusFollows hf fun s c _ h => hlater _ (hstep _ _ _ c.result h.1 h.2)
  · refine hlater _ (hchain.inv (fun s => s.WF ∧ ∀ c d, DayFollows s c d) ?_ fun s c _ h => hstep _ _ _ c.result h.1 h.2)
    exact ⟨hs, (follows_iff hs.days).1 ⟨hf, hi⟩⟩

/-! ## A check-in, moved to the day before and deleted -/

/-- The ids of the three rows are drawn one after the other. -/
def checkInPatchDelete : Schedule 1 :=
  .start 0 (.checkIn 90000000 7 ⟨900, some 90⟩ true none none) :: (Choice.steps 0 2 1 ++ Choice.steps 0 2 2 ++
    Choice.steps 0 5 3) ++
  .start 0 (.patchEvent 90000000 1 ⟨900, some 90⟩ ⟨some 1000, none, none, none, none⟩ ⟨true, true⟩ true true) ::
    Choice.steps 0 16 4 ++
  Choice.request 0 (.deleteEvent 90000000 1 ⟨900, some 90⟩) 10 5

theorem daily_status_follows_checkInPatchDelete : ∃ σ : System 1, run ⟨[], [], []⟩ checkInPatchDelete = some σ ∧
    σ.log.length = 3 ∧ DailyStatusFollows σ.db := by
  obtain ⟨σ, hrun, h⟩ := run_shows run ⟨[], [], []⟩ checkInPatchDelete
    (fun σ : System 1 => σ.log.length == 3) (by decide +kernel)
  refine ⟨σ, hrun, by simpa using h, (daily_status_follows ?_ ?_ ?_ hrun).2⟩
  · decide
  · decide
  · intro c d
    exact ⟨fun h => absurd h Bool.false_ne_true, fun row hrow => absurd hrow List.not_mem_nil⟩

end Attendance
