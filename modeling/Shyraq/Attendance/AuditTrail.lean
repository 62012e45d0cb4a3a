import Shyraq.Attendance.Auditing
import Shyraq.Attendance.DailyStatus
import Shyraq.Transactions.Serial
import Shyraq.Transactions.Trail

/-!
# Replaying the audit log

The entries of an event tell its whole history.  Those of a daily status do not: check-ins and
corrections rewrite it without an entry.
-/

namespace Attendance

open Kernel Transactions

/-! ## What the log tells -/

namespace AuditedStore

/-- The entries of one row, oldest first. -/
def trail (s : AuditedStore) (entityType : AuditEntityType) (entityId : Nat) : List AuditLogEntry :=
  s.auditLog.filter fun a => a.entityType == entityType && a.entityId == entityId

end AuditedStore

/-- A deleted event reads as absent. -/
def AttendanceEvent.snapshot (e : AttendanceEvent) : Option AuditSnapshot :=
  if e.deletedAt.isNone then some (.event e) else none

def ChildDailyStatus.snapshot (d : ChildDailyStatus) : Option AuditSnapshot := some (.dailyStatus d)

abbrev Told (l : List AuditLogEntry) (stored : Option AuditSnapshot) : Prop :=
  Trail AuditLogEntry.before AuditLogEntry.after l stored

/-- The entries of each row chain and end in the row as it is stored. -/
def AuditReplays (s : AuditedStore) : Prop :=
  (∀ e ∈ s.attendance.events, Told (s.trail .attendanceEvent e.id) e.snapshot) ∧
  ∀ d ∈ s.attendance.dailyStatuses, Told (s.trail .childDailyStatus d.id) d.snapshot

instance (s : AuditedStore) : Decidable (AuditReplays s) :=
  inferInstanceAs (Decidable ((∀ e ∈ s.attendance.events, Told (s.trail .attendanceEvent e.id) e.snapshot) ∧
    ∀ d ∈ s.attendance.dailyStatuses, Told (s.trail .childDailyStatus d.id) d.snapshot))

structure AuditedStore.WF (s : AuditedStore) : Prop where
  events : Table.Unique s.attendance.events
  statuses : Table.Unique s.attendance.dailyStatuses
  /-- `idx_daily_status_child_date`. -/
  days : (s.attendance.dailyStatuses.map fun d => (d.childId, d.date)).Nodup
  /-- No entry is older than its row, and no row ever goes. -/
  eventRows : ∀ a ∈ s.auditLog, a.entityType = .attendanceEvent →
    (Table.find s.attendance.events a.entityId).isSome = true
  statusRows : ∀ a ∈ s.auditLog, a.entityType = .childDailyStatus →
    (Table.find s.attendance.dailyStatuses a.entityId).isSome = true

instance (s : AuditedStore) : Decidable s.WF :=
  decidable_of_iff ((s.attendance.events.map Row.id).Nodup ∧ (s.attendance.dailyStatuses.map Row.id).Nodup ∧
      (s.attendance.dailyStatuses.map fun d => (d.childId, d.date)).Nodup ∧
      (∀ a ∈ s.auditLog, a.entityType = .attendanceEvent →
        (Table.find s.attendance.events a.entityId).isSome = true) ∧
      ∀ a ∈ s.auditLog, a.entityType = .childDailyStatus →
        (Table.find s.attendance.dailyStatuses a.entityId).isSome = true)
    ⟨fun ⟨h₁, h₂, h₃, h₄, h₅⟩ => ⟨h₁, h₂, h₃, h₄, h₅⟩, fun ⟨h₁, h₂, h₃, h₄, h₅⟩ => ⟨h₁, h₂, h₃, h₄, h₅⟩⟩

/-! ## When a commit keeps it -/

/-- The recomputation of the day changes the row that it has. -/
def Store.rewritesDay (v : Store) (c : Nat) (d : Int) : Bool :=
  (v.dailyStatusAt c d).any fun row =>
    if v.checkedIn c d then row.status.isPromotableByCheckIn else row.status == .present

/-- A row that has an entry is left alone by the recomputations of these days, the events being these. -/
def AuditedStore.Spares (s : AuditedStore) (events : List AttendanceEvent) (days : List (Nat × Int)) : Prop :=
  ∀ b ∈ days, ∀ row ∈ s.attendance.dailyStatusAt b.1 b.2, s.trail .childDailyStatus row.id ≠ [] →
    { s.attendance with events := events }.rewritesDay b.1 b.2 = false

/-- The events with this one as it is now. -/
def Store.eventsWith (v : Store) (e : AttendanceEvent) : List AttendanceEvent :=
  Table.updateWhere v.events e.id (fun _ => true) e.saved

/-- A check-in finds no promotable row that has an entry; a correction or a deletion recomputes none that
changes.  `setDailyStatus` writes its own entry, and a check-out leaves the statuses alone. -/
def AuditedOp.SparesAudited (s : AuditedStore) : AuditedOp → Prop
  | .checkIn now c _ _ recordedAt _ =>
      ∀ row ∈ s.attendance.dailyStatusAt c (formatDateInTimezone (recordedAt.getD now)),
        s.trail .childDailyStatus row.id ≠ [] → row.status.isPromotableByCheckIn = false
  | .patchEvent _ i _ patch _ _ _ => ∀ before ∈ s.attendance.eventAt i,
      let after := before.applyPatch patch
      s.Spares (s.attendance.eventsWith after) [(before.childId, before.day), (after.childId, after.day)]
  | .deleteEvent now i _ => ∀ before ∈ s.attendance.eventAt i,
      s.Spares (s.attendance.eventsWith (before.softDelete now)) [(before.childId, before.day)]
  | .checkOut .. | .setDailyStatus .. => True

instance (s : AuditedStore) (events : List AttendanceEvent) (days : List (Nat × Int)) :
    Decidable (s.Spares events days) :=
  inferInstanceAs (Decidable (∀ b ∈ days, ∀ row ∈ s.attendance.dailyStatusAt b.1 b.2,
    s.trail .childDailyStatus row.id ≠ [] → _ = false))

instance (s : AuditedStore) : DecidablePred (AuditedOp.SparesAudited s)
  | .checkIn now c _ _ recordedAt _ =>
      inferInstanceAs (Decidable (∀ row ∈ s.attendance.dailyStatusAt c (formatDateInTimezone (recordedAt.getD now)), _ → _))
  | .patchEvent _ i _ patch _ _ _ => inferInstanceAs (Decidable (∀ before ∈ s.attendance.eventAt i,
      s.Spares (s.attendance.eventsWith (before.applyPatch patch)) _))
  | .deleteEvent now i _ => inferInstanceAs (Decidable (∀ before ∈ s.attendance.eventAt i,
      s.Spares (s.attendance.eventsWith (before.softDelete now)) _))
  | .checkOut .. => .isTrue trivial
  | .setDailyStatus .. => .isTrue trivial

/-- The request of the commit, in the state right before it. -/
def SparesAudited (s : AuditedStore) (c : AuditedCommit) : Prop := c.op.SparesAudited s

instance (s : AuditedStore) (c : AuditedCommit) : Decidable (SparesAudited s c) :=
  inferInstanceAs (Decidable (c.op.SparesAudited s))

/-! ## Days that are recomputed -/

/-- What the row of a day may have become. -/
inductive DayRow (v : Store) (c : Nat) (d : Int) : Option ChildDailyStatus → Prop
  | kept {r : Option ChildDailyStatus} (h : v.rewritesDay c d = false) (hr : r = v.dailyStatusAt c d) :
      DayRow v c d r
  | new (row : ChildDailyStatus) (hnone : v.dailyStatusAt c d = none)
      (hfresh : Table.find v.dailyStatuses row.id = none) : DayRow v c d (some row)
  | rewritten (row row' : ChildDailyStatus) (h : v.rewritesDay c d = true)
      (hrow : v.dailyStatusAt c d = some row) (hid : row'.id = row.id) (hne : row' ≠ row) :
      DayRow v c d (some row')

/-- From `v` to `v'` these days are recomputed. -/
structure DaysStep (days : List (Nat × Int)) (v v' : Store) : Prop where
  events : v'.events = v.events
  unique : Table.Unique v.dailyStatuses → Table.Unique v'.dailyStatuses
  index : (v.dailyStatuses.map fun d => (d.childId, d.date)).Nodup →
    (v'.dailyStatuses.map fun d => (d.childId, d.date)).Nodup
  rows : ∀ i, (Table.find v.dailyStatuses i).isSome = true → (Table.find v'.dailyStatuses i).isSome = true
  others : ∀ c d, (c, d) ∉ days → v'.dailyStatusAt c d = v.dailyStatusAt c d
  days : ∀ c d, (c, d) ∈ days → DayRow v c d (v'.dailyStatusAt c d)

variable {i : Nat} {now : Int} {row : ChildDailyStatus}

section

variable {v v' v₁ v₂ v₃ : Store} {c : Nat} {d : Int} {days : List (Nat × Int)}

theorem DaysStep.refl (v : Store) : DaysStep [] v v :=
  ⟨rfl, id, id, fun _ h => h, fun _ _ _ => rfl, fun _ _ h => absurd h List.not_mem_nil⟩

theorem rewritesDay_congr (hevents : v'.events = v.events) (hrow : v'.dailyStatusAt c d = v.dailyStatusAt c d) :
    v'.rewritesDay c d = v.rewritesDay c d := by
  unfold Store.rewritesDay Store.checkedIn
  rw [hevents, hrow]

theorem DaysStep.cons {b : Nat × Int} (hb : b ∉ days) (h₁ : DaysStep [b] v₁ v₂) (h₂ : DaysStep days v₂ v₃) :
    DaysStep (b :: days) v₁ v₃ where
  events := h₂.events.trans h₁.events
  unique h := h₂.unique (h₁.unique h)
  index h := h₂.index (h₁.index h)
  rows i h := h₂.rows i (h₁.rows i h)
  others c d h := by
    rw [h₂.others c d fun hd => h (List.mem_cons_of_mem b hd),
      h₁.others c d fun hd => h (List.mem_singleton.1 hd ▸ List.mem_cons_self)]
  days c d h := by
    by_cases hbd : (c, d) = b
    · rw [h₂.others c d (hbd ▸ hb)]
      exact h₁.days c d (by rw [hbd]; exact List.mem_cons_self)
    · have hin : (c, d) ∈ days := (List.mem_cons.1 h).resolve_left hbd
      have hsame : v₂.dailyStatusAt c d = v₁.dailyStatusAt c d := h₁.others c d (by simpa using hbd)
      have hrw := rewritesDay_congr h₁.events hsame
      -- what the others make of the day does not depend on `b`
      have hday := h₂.days c d hin
      generalize v₃.dailyStatusAt c d = r at hday ⊢
      cases hday with
      | kept h hr => exact .kept (hrw.symm.trans h) (hr.trans hsame)
      | new row hnone hfresh =>
        refine .new row (hsame.symm.trans hnone) ?_
        cases hfind : Table.find v₁.dailyStatuses row.id with
        | none => rfl
        | some q =>
          have := h₁.rows row.id (by rw [hfind]; rfl)
          rw [hfresh] at this
          cases this
      | rewritten row row' h hrow hid hne =>
        exact .rewritten row row' (hrw.symm.trans h) (hsame.symm.trans hrow) hid hne

theorem DaysStep.one (hevents : v'.events = v.events)
    (hunique : Table.Unique v.dailyStatuses → Table.Unique v'.dailyStatuses)
    (hindex : (v.dailyStatuses.map fun d => (d.childId, d.date)).Nodup →
      (v'.dailyStatuses.map fun d => (d.childId, d.date)).Nodup)
    (hrows : ∀ i, (Table.find v.dailyStatuses i).isSome = true → (Table.find v'.dailyStatuses i).isSome = true)
    (hothers : ∀ c' d', ¬ (c' = c ∧ d' = d) → v'.dailyStatusAt c' d' = v.dailyStatusAt c' d')
    (hself : DayRow v c d (v'.dailyStatusAt c d)) : DaysStep [(c, d)] v v' where
  events := hevents
  unique := hunique
  index := hindex
  rows := hrows
  others c' d' h := hothers c' d' (by simpa using h)
  days c' d' h := by
    obtain ⟨rfl, rfl⟩ : c' = c ∧ d' = d := by simpa using h
    exact hself

theorem DaysStep.idle (h : v.rewritesDay c d = false) : DaysStep [(c, d)] v v :=
  .one rfl id id (fun _ h => h) (fun _ _ _ => rfl) (.kept h rfl)

theorem dailyStatusAt_upsert (v : Store) (n : ChildDailyStatus) (c : Nat) (d : Int) :
    (Relational.apply v (Write.upsertStatus n)).dailyStatusAt c d =
      if c = n.childId ∧ d = n.date then some ((v.dailyStatusAt c d).elim n n.merged)
      else v.dailyStatusAt c d :=
  rowAt_upsertStatus v.dailyStatuses n c d

theorem dailyStatusAt_promote (v : Store) (c₀ : Nat) (d₀ : Int) (by' c : Nat) (d : Int) :
    (Relational.apply v (Write.updatePresentIfAbsentOrLate c₀ d₀ by')).dailyStatusAt c d =
      if c = c₀ ∧ d = d₀ then (v.dailyStatusAt c d).map
        fun row => if row.status.isPromotableByCheckIn then row.promoted by' else row
      else v.dailyStatusAt c d :=
  rowAt_promoteStatus v.dailyStatuses c₀ d₀ by' c d

/-! ### Ids of the rows -/

theorem ids_upsert (l : List ChildDailyStatus) (n : ChildDailyStatus) : (Store.upsertStatus l n).map Row.id =
      if l.any (·.isOf n.childId n.date) then l.map Row.id else l.map Row.id ++ [n.id] := by
  unfold Store.upsertStatus
  split
  · rw [List.map_map]
    refine List.map_congr_left fun row _ => ?_
    simp only [Function.comp]
    split <;> rfl
  · rw [List.map_append]
    rfl

theorem ids_promote (l : List ChildDailyStatus) (c : Nat) (d : Int) (by' : Nat) :
    (Store.promoteStatus l c d by').map Row.id = l.map Row.id := by
  unfold Store.promoteStatus
  rw [List.map_map]
  refine List.map_congr_left fun row _ => ?_
  simp only [Function.comp]
  split <;> rfl

theorem find_isSome_iff {l : List ChildDailyStatus} : (Table.find l i).isSome = true ↔ i ∈ l.map Row.id := by
  cases h : Table.find l i with
  | none =>
    refine iff_of_false (by simp) fun hi => ?_
    obtain ⟨q, hq, hid⟩ := List.mem_map.1 hi
    exact Table.find_eq_none.1 h q hq hid
  | some q => exact iff_of_true rfl (List.mem_map.2 ⟨q, Table.mem_of_find h, Table.id_of_find h⟩)

theorem statusRow_apply (v : Store) (w : Write) (i : Nat) (h : (Table.find v.dailyStatuses i).isSome = true) :
    (Table.find (Relational.apply v w).dailyStatuses i).isSome = true := by
  rw [find_isSome_iff] at h ⊢
  cases w with
  | upsertStatus n =>
    show i ∈ (Store.upsertStatus v.dailyStatuses n).map Row.id
    rw [ids_upsert]
    split
    · exact h
    · exact List.mem_append_left _ h
  | updatePresentIfAbsentOrLate c d by' =>
    show i ∈ (Store.promoteStatus v.dailyStatuses c d by').map Row.id
    rw [ids_promote]
    exact h
  | _ => exact h

theorem unique_upsert {l : List ChildDailyStatus} {n : ChildDailyStatus} (hu : Table.Unique l)
    (h : l.any (·.isOf n.childId n.date) = false → Table.find l n.id = none) :
    Table.Unique (Store.upsertStatus l n) := by
  unfold Table.Unique
  rw [ids_upsert]
  cases hany : l.any (·.isOf n.childId n.date) with
  | true => exact hu
  | false =>
    refine List.Nodup.append hu (List.nodup_singleton _) ?_
    rw [List.disjoint_singleton, ← find_isSome_iff, h hany]
    simp

theorem any_isOf {l : List ChildDailyStatus} : l.any (·.isOf c d) = (l.find? (·.isOf c d)).isSome := by
  rw [Bool.eq_iff_iff, List.find?_isSome, List.any_eq_true]

/-! ### The statements -/

theorem yields_upsert {n : ChildDailyStatus} (h : Prog.Yields (ChildDailyStatusRepository.upsert n) v row v') :
    v' = Relational.apply v (.upsertStatus n) ∧ v'.dailyStatusAt n.childId n.date = some row := by
  simp only [ChildDailyStatusRepository.upsert, Prog.bind_eq, Prog.yields_bind, Prog.yields_returning,
    Prog.yields_require] at h
  obtain ⟨r, u, ⟨-, hr, rfl⟩ | ⟨hmiss, -, -⟩, hrow, rfl⟩ := h
  · exact ⟨rfl, hr.symm.trans hrow⟩
  · cases hmiss

theorem yields_createStatus {st : ChildIntradayStatus} {staff : Nat} (hnone : v.dailyStatusAt c d = none)
    (h : Prog.Yields (AttendanceService.createStatus c d st staff) v row v') : DaysStep [(c, d)] v v' := by
  simp only [AttendanceService.createStatus, Prog.bind_eq, Prog.yields_bind, Prog.yields_uuid] at h
  obtain ⟨i, u, ⟨habsent, rfl⟩, h⟩ := h
  obtain ⟨rfl, -⟩ := yields_upsert h
  have hfresh : Table.find u.dailyStatuses i = none := by
    refine Table.find_eq_none.2 fun q hq hid => ?_
    simp only [Relational.absent, Bool.and_eq_true, List.all_eq_true] at habsent
    have := habsent.2 q hq
    rw [show q.id = i from hid] at this
    simp at this
  refine .one rfl (fun hu => unique_upsert hu fun _ => hfresh) (fun hn => days_apply hn _) (fun i hi => statusRow_apply u _ i hi)
    (fun c' d' hne => ?_) ?_
  · rw [dailyStatusAt_upsert, if_neg hne]
  · rw [dailyStatusAt_upsert, if_pos ⟨rfl, rfl⟩, hnone]
    exact .new _ hnone hfresh

theorem yields_promote {staff : Nat} {r : Option ChildDailyStatus}
    (hrow : v.dailyStatusAt c d = some row) (hchecked : v.checkedIn c d = true)
    (h : Prog.Yields (ChildDailyStatusRepository.updatePresentIfAbsentOrLate c d staff) v r v') :
    DaysStep [(c, d)] v v' := by
  simp only [ChildDailyStatusRepository.updatePresentIfAbsentOrLate,
    ChildDailyStatusRepository.findByChildAndDate, Prog.bind_eq, Prog.yields_bind, Prog.yields_update,
    Prog.yields_query] at h
  have hrewrites : v.rewritesDay c d = row.status.isPromotableByCheckIn := by
    simp [Store.rewritesDay, hrow, hchecked]
  have hhit : Relational.hit v (Write.updatePresentIfAbsentOrLate c d staff) = row.status.isPromotableByCheckIn := by
    show (v.dailyStatusAt c d).any _ = _
    rw [hrow]
    rfl
  obtain ⟨b, u, ⟨hit, -, rfl⟩ | ⟨hmiss, -, rfl⟩, -, rfl⟩ := h
  · rw [hhit] at hit
    refine .one rfl (fun hu => ?_) (fun hn => days_apply hn _) (fun i hi => statusRow_apply v _ i hi) (fun c' d' hne => ?_) ?_
    · unfold Table.Unique
      rw [show (Relational.apply v (Write.updatePresentIfAbsentOrLate c d staff)).dailyStatuses =
        Store.promoteStatus v.dailyStatuses c d staff from rfl, ids_promote]
      exact hu
    · rw [dailyStatusAt_promote, if_neg hne]
    · rw [dailyStatusAt_promote, if_pos ⟨rfl, rfl⟩, hrow]
      simp only [Option.map_some, hit, if_true]
      refine .rewritten row _ (hrewrites.trans hit) hrow rfl fun he => ?_
      -- a promotable status is not `present`
      have : (row.promoted staff).status = row.status := congrArg _ he
      rw [← this] at hit
      cases hit
  · rw [hhit] at hmiss
    exact .idle (hrewrites.trans hmiss)

theorem yields_recompute {staff : Nat}
    (h : Prog.Yields (AttendanceService.recomputeDailyStatus c d staff) v () v') : DaysStep [(c, d)] v v' := by
  simp only [AttendanceService.recomputeDailyStatus, AttendanceEventRepository.listByChild,
    ChildDailyStatusRepository.findByChildAndDate, Prog.bind_eq, Prog.yields_bind, Prog.yields_query] at h
  obtain ⟨_, v, ⟨rfl, rfl⟩, _, v, ⟨rfl, rfl⟩, h⟩ := h
  cases hrow : v.dailyStatusAt c d with
  | none =>
    rw [hrow] at h
    by_cases hchecked : v.checkedIn c d = true
    · rw [if_pos ((liveCheckIns_iff v c d).2 hchecked)] at h
      simp only [Prog.yields_bind] at h
      obtain ⟨row, u, h, -, rfl⟩ := h
      exact yields_createStatus hrow h
    · rw [if_neg fun hlen => hchecked ((liveCheckIns_iff v c d).1 hlen)] at h
      obtain ⟨-, rfl⟩ := h
      exact .idle (by simp [Store.rewritesDay, hrow])
  | some row =>
    rw [hrow] at h
    by_cases hchecked : v.checkedIn c d = true
    · rw [if_pos ((liveCheckIns_iff v c d).2 hchecked)] at h
      simp only [Prog.yields_bind] at h
      obtain ⟨r, u, h, -, rfl⟩ := h
      exact yields_promote hrow hchecked h
    · rw [if_neg fun hlen => hchecked ((liveCheckIns_iff v c d).1 hlen)] at h
      have hrewrites : v.rewritesDay c d = (row.status == .present) := by
        simp [Store.rewritesDay, hrow, hchecked]
      by_cases hpresent : row.status = .present
      · simp only [hpresent, if_true, Prog.yields_bind] at h
        obtain ⟨row', u, h, -, rfl⟩ := h
        obtain ⟨rfl, -⟩ := yields_upsert h
        refine .one rfl (fun hu => unique_upsert hu fun hnone => ?_) (fun hn => days_apply hn _)
          (fun i hi => statusRow_apply v _ i hi) (fun c' d' hne => ?_) ?_
        · rw [any_isOf, show List.find? _ v.dailyStatuses = some row from hrow] at hnone
          cases hnone
        · rw [dailyStatusAt_upsert, if_neg hne]
        · rw [dailyStatusAt_upsert, if_pos ⟨rfl, rfl⟩, hrow]
          refine .rewritten row _ (by rw [hrewrites, hpresent]; rfl) hrow rfl fun he => ?_
          have : ChildIntradayStatus.absent = row.status := congrArg ChildDailyStatus.status he
          rw [hpresent] at this
          cases this
      · simp only [hpresent, if_false] at h
        obtain ⟨-, rfl⟩ := h
        exact .idle (by rw [hrewrites]; simpa using hpresent)

theorem yields_recomputeEach {staff : Nat} (hd : days.Nodup)
    (h : Prog.Yields (Prog.forEach (fun b => AttendanceService.recomputeDailyStatus b.1 b.2 staff) days) v () v') :
    DaysStep days v v' := by
  induction days generalizing v with
  | nil =>
    obtain rfl := Prog.yields_forEach_nil.1 h
    exact .refl _
  | cons b days ih =>
    obtain ⟨v₁, h₁, h₂⟩ := Prog.yields_forEach_cons.1 h
    obtain ⟨hb, hd⟩ := List.nodup_cons.1 hd
    exact (yields_recompute h₁).cons hb (ih hd h₂)

end

/-! ## The attendance tables among the others -/

theorem attendanceTables_lawful : attendanceTables.Lawful where
  apply _ _ := rfl
  hit _ _ := rfl
  absent s i h := by
    simp only [Relational.absent, Bool.and_eq_true] at h ⊢
    exact h.1

section

variable {A : Type} {p : Sql A} {V V' : AuditedStore} {a : A}

theorem yields_attendance (h : Prog.Yields (attendance p) V a V') :
    Prog.Yields p V.attendance a V'.attendance ∧ V'.auditLog = V.auditLog :=
  ⟨h.of_within attendanceTables_lawful, h.rest AuditedStore.auditLog fun _ _ => rfl⟩

theorem yields_reads (hp : Prog.OnlyWrites (fun _ => False) p) (h : Prog.Yields (attendance p) V a V') :
    Prog.Yields p V.attendance a V.attendance ∧ V' = V := by
  obtain rfl := Prog.Yields.unwritten hp h
  exact ⟨(yields_attendance h).1, rfl⟩

theorem yields_record {input : RecordAuditInput} (h : Prog.Yields (AuditService.record now input) V () V') :
    ∃ i, V'.attendance = V.attendance ∧ V'.auditLog = V.auditLog ++ [AuditLogEntry.create i input now] := by
  simp only [AuditService.record, Prog.bind_eq, Prog.yields_bind, Prog.yields_uuid, Prog.yields_insertOr] at h
  obtain ⟨i, V, ⟨-, rfl⟩, -, rfl⟩ := h
  exact ⟨i, rfl, rfl⟩

end

/-! ## What each request does -/

/-- The event of the entry is new, or was what the entry says. -/
inductive EventStep (l l' : List AttendanceEvent) (a : AuditLogEntry) : Prop
  | created (e : AttendanceEvent) (hadd : Table.Added l l' e) (hid : a.entityId = e.id)
      (hafter : a.after = e.snapshot)
  | corrected (e e' : AttendanceEvent) (hrep : Table.Replaced l l' a.entityId e e')
      (hbefore : a.before = e.snapshot) (hafter : a.after = e'.snapshot)

inductive AuditedStep (op : AuditedOp) (s s' : AuditedStore) : Prop
  /-- An event is recorded or corrected, and these days are recomputed. -/
  | event (a : AuditLogEntry) (v : Store) (days : List (Nat × Int)) (htype : a.entityType = .attendanceEvent)
      (hlog : s'.auditLog = s.auditLog ++ [a]) (hevent : EventStep s.attendance.events v.events a)
      (hunique : Table.Unique v.events) (hstatuses : v.dailyStatuses = s.attendance.dailyStatuses)
      (hdays : DaysStep days v s'.attendance) (hspares : op.SparesAudited s ↔ s.Spares v.events days)
  | status (a : AuditLogEntry) (n row : ChildDailyStatus) (htype : a.entityType = .childDailyStatus)
      (hlog : s'.auditLog = s.auditLog ++ [a])
      (hs : s'.attendance = Relational.apply s.attendance (.upsertStatus n))
      (hfresh : Table.find s.attendance.dailyStatuses n.id = none)
      (hrow : s'.attendance.dailyStatusAt n.childId n.date = some row) (hid : a.entityId = row.id)
      (hbefore : a.before = (s.attendance.dailyStatusAt n.childId n.date).map .dailyStatus)
      (hafter : a.after = row.snapshot) (hspares : op.SparesAudited s)

/-! ### A step and the law -/

section

variable {s s' : AuditedStore} {a : AuditLogEntry} {op : AuditedOp}

theorem trail_logged (hlog : s'.auditLog = s.auditLog ++ [a]) (entityType : AuditEntityType) (i : Nat) :
    s'.trail entityType i =
      if entityType = a.entityType ∧ i = a.entityId then s.trail entityType i ++ [a] else s.trail entityType i := by
  unfold AuditedStore.trail
  rw [hlog, List.filter_append, List.filter_singleton]
  by_cases h : entityType = a.entityType ∧ i = a.entityId
  · obtain ⟨rfl, rfl⟩ := h
    simp
  · rw [if_neg h]
    have : (a.entityType == entityType && a.entityId == i) = false := by
      rw [Bool.eq_false_iff]
      intro hb
      simp only [Bool.and_eq_true, beq_iff_eq] at hb
      exact h ⟨hb.1.symm, hb.2.symm⟩
    simp [this]

theorem AuditedStore.WF.trail_event (hs : s.WF) (h : Table.find s.attendance.events i = none) :
    s.trail .attendanceEvent i = [] := by
  refine List.filter_eq_nil_iff.2 fun a ha hb => ?_
  simp only [Bool.and_eq_true, beq_iff_eq] at hb
  have := hs.eventRows a ha hb.1
  rw [hb.2, h] at this
  cases this

theorem AuditedStore.WF.trail_status (hs : s.WF)
    (h : Table.find s.attendance.dailyStatuses i = none) : s.trail .childDailyStatus i = [] := by
  refine List.filter_eq_nil_iff.2 fun a ha hb => ?_
  simp only [Bool.and_eq_true, beq_iff_eq] at hb
  have := hs.statusRows a ha hb.1
  rw [hb.2, h] at this
  cases this

theorem statusesTold_iff (hs : s.WF) :
    (∀ d ∈ s.attendance.dailyStatuses, Told (s.trail .childDailyStatus d.id) d.snapshot) ↔
      ∀ c d row, s.attendance.dailyStatusAt c d = some row →
        Told (s.trail .childDailyStatus row.id) row.snapshot := by
  constructor
  · exact fun h c d row hrow => h row (List.mem_of_find?_eq_some hrow)
  · exact fun h row hrow => h row.childId row.date row (dailyStatusAt_of_mem hs.days hrow)

theorem EventStep.isSome {l l' : List AttendanceEvent} (h : EventStep l l' a)
    (hi : (Table.find l i).isSome = true) : (Table.find l' i).isSome = true := by
  cases h with
  | created e hadd _ _ =>
    rw [hadd.after]
    split
    · rfl
    · exact hi
  | corrected e e' hrep _ _ =>
    rw [hrep.after]
    split
    · rfl
    · exact hi

theorem EventStep.entity {l l' : List AttendanceEvent} (h : EventStep l l' a) :
    (Table.find l' a.entityId).isSome = true := by
  cases h with
  | created e hadd hid _ =>
    rw [hid, hadd.after, if_pos (show e.id = Row.id e from rfl)]
    rfl
  | corrected e e' hrep _ _ =>
    rw [hrep.after, if_pos rfl]
    rfl

theorem EventStep.told {l l' : List AttendanceEvent} {trail trail' : Nat → List AuditLogEntry}
    (h : EventStep l l' a) (hl : Table.Trailed AuditLogEntry.before AuditLogEntry.after trail AttendanceEvent.snapshot l)
    (hnew : ∀ i, Table.find l i = none → trail i = [])
    (ht : ∀ i, trail' i = if i = a.entityId then trail i ++ [a] else trail i) :
    Table.Trailed AuditLogEntry.before AuditLogEntry.after trail' AttendanceEvent.snapshot l' := by
  cases h with
  | created e hadd hid hafter =>
    refine hl.added hadd (hnew _ hadd.before) (fun i => ?_) hafter
    rw [ht, hid]
    rfl
  | corrected e e' hrep hbefore hafter => exact hl.replaced hrep ht hbefore hafter

theorem AuditedStep.wf (hs : s.WF) (h : AuditedStep op s s') : s'.WF := by
  cases h with
  | event a v days htype hlog hevent hunique hstatuses hdays _ =>
    have hst := hs.statuses
    have hix := hs.days
    have hrows := hs.statusRows
    rw [← hstatuses] at hst hix hrows
    refine ⟨hdays.events ▸ hunique, hdays.unique hst, hdays.index hix, ?_, ?_⟩
    · intro b hb hty
      rw [hdays.events]
      rw [hlog, List.mem_append, List.mem_singleton] at hb
      rcases hb with hb | rfl
      · exact hevent.isSome (hs.eventRows b hb hty)
      · exact hevent.entity
    · intro b hb hty
      rw [hlog, List.mem_append, List.mem_singleton] at hb
      rcases hb with hb | rfl
      · exact hdays.rows _ (hrows b hb hty)
      · rw [htype] at hty
        cases hty
  | status a n row htype hlog hs' hfresh hrow hid hbefore hafter _ =>
    refine ⟨hs' ▸ hs.events, hs' ▸ unique_upsert hs.statuses fun _ => hfresh, hs' ▸ days_apply hs.days _, ?_, ?_⟩
    · intro b hb hty
      rw [hlog, List.mem_append, List.mem_singleton] at hb
      rcases hb with hb | rfl
      · rw [hs']
        exact hs.eventRows b hb hty
      · rw [htype] at hty
        cases hty
    · intro b hb hty
      rw [hlog, List.mem_append, List.mem_singleton] at hb
      rcases hb with hb | rfl
      · rw [hs']
        exact statusRow_apply _ _ _ (hs.statusRows b hb hty)
      · rw [hid]
        exact find_isSome_iff.2 (List.mem_map_of_mem (List.mem_of_find?_eq_some hrow))

/-- Days that are recomputed stay told exactly when the rows that have entries are spared. -/
theorem DaysStep.told_iff {v v' : Store} {days : List (Nat × Int)} (h : DaysStep days v v')
    (hs : s.WF) (hstatuses : v.dailyStatuses = s.attendance.dailyStatuses)
    (hl : ∀ c d row, s.attendance.dailyStatusAt c d = some row →
      Told (s.trail .childDailyStatus row.id) row.snapshot) :
    (∀ c d row, v'.dailyStatusAt c d = some row → Told (s.trail .childDailyStatus row.id) row.snapshot) ↔
      s.Spares v.events days := by
  have hat : ∀ c d, v.dailyStatusAt c d = s.attendance.dailyStatusAt c d := by
    intro c d
    unfold Store.dailyStatusAt
    rw [hstatuses]
  have hrw : ∀ c d, { s.attendance with events := v.events }.rewritesDay c d = v.rewritesDay c d :=
    fun c d => rewritesDay_congr rfl (hat c d).symm
  constructor
  · intro h' b hb row hrow htrail
    rw [hrw]
    have hday := h.days b.1 b.2 hb
    have htold := h' b.1 b.2
    generalize v'.dailyStatusAt b.1 b.2 = r at hday htold
    cases hday with
    | kept hkept _ => exact hkept
    | new q hnone _ =>
      rw [hat, hrow] at hnone
      cases hnone
    | rewritten q q' _ hq hid hne =>
      obtain rfl : row = q := Option.some.inj (hrow.symm.trans ((hat b.1 b.2).symm.trans hq))
      have hnow := htold q' rfl
      rw [hid] at hnow
      rcases (hl b.1 b.2 row hrow).untold.1 hnow with hnil | hsame
      · exact absurd hnil htrail
      · exact absurd (AuditSnapshot.dailyStatus.inj (Option.some.inj hsame)) hne
  · intro hspares c d row hrow
    by_cases hb : (c, d) ∈ days
    · have hday := h.days c d hb
      generalize v'.dailyStatusAt c d = r at hday hrow
      cases hday with
      | kept _ hr => exact hl c d row ((hat c d).symm.trans (hr.symm.trans hrow))
      | new q _ hfresh =>
        obtain rfl := Option.some.inj hrow
        rw [hs.trail_status (hstatuses ▸ hfresh)]
        exact trail_nil _
      | rewritten q q' hrewrites hq hid _ =>
        obtain rfl := Option.some.inj hrow
        have hnil : s.trail .childDailyStatus q.id = [] := by
          by_contra htrail
          have := hspares (c, d) hb q ((hat c d).symm.trans hq) htrail
          rw [hrw, hrewrites] at this
          cases this
        rw [hid, hnil]
        exact trail_nil _
    · exact hl c d row ((hat c d).symm.trans ((h.others c d hb).symm.trans hrow))

theorem statusSet_told {n : ChildDailyStatus} (hs : s.WF) (hs'wf : s'.WF)
    (htype : a.entityType = .childDailyStatus) (hlog : s'.auditLog = s.auditLog ++ [a])
    (hs' : s'.attendance = Relational.apply s.attendance (.upsertStatus n))
    (hfresh : Table.find s.attendance.dailyStatuses n.id = none)
    (hrow : s'.attendance.dailyStatusAt n.childId n.date = some row) (hid : a.entityId = row.id)
    (hbefore : a.before = (s.attendance.dailyStatusAt n.childId n.date).map .dailyStatus)
    (hafter : a.after = row.snapshot) (hl : ∀ c d row, s.attendance.dailyStatusAt c d = some row →
      Told (s.trail .childDailyStatus row.id) row.snapshot) (c : Nat) (d : Int) (q : ChildDailyStatus)
    (hq : s'.attendance.dailyStatusAt c d = some q) : Told (s'.trail .childDailyStatus q.id) q.snapshot := by
  rw [trail_logged hlog, htype, hid]
  by_cases hkey : c = n.childId ∧ d = n.date
  · obtain ⟨rfl, rfl⟩ := hkey
    obtain rfl := Option.some.inj (hrow.symm.trans hq)
    rw [if_pos ⟨rfl, rfl⟩]
    refine trail_snoc.2 ⟨?_, hafter⟩
    rw [hbefore]
    rw [hs', dailyStatusAt_upsert, if_pos ⟨rfl, rfl⟩] at hrow
    obtain rfl := Option.some.inj hrow
    cases hprevious : s.attendance.dailyStatusAt n.childId n.date with
    | none =>
      show Told (s.trail .childDailyStatus n.id) none
      rw [hs.trail_status hfresh]
      exact trail_nil _
    | some p => exact hl _ _ p hprevious
  · -- the row of another day has another id
    have hne : q.id ≠ row.id := by
      intro he
      have hq' := List.mem_of_find?_eq_some hq
      have hrow' := List.mem_of_find?_eq_some hrow
      have hsame : q = row := by
        have h₁ := Table.find_of_mem hs'wf.statuses hq'
        have h₂ := Table.find_of_mem hs'wf.statuses hrow'
        rw [show Row.id q = Row.id row from he, h₂] at h₁
        exact (Option.some.inj h₁).symm
      have h₁ := isOf_iff.1 (by simpa using List.find?_some hq : q.isOf c d = true)
      have h₂ := isOf_iff.1 (by simpa using List.find?_some hrow : row.isOf n.childId n.date = true)
      rw [hsame] at h₁
      exact hkey ⟨h₁.1.symm.trans h₂.1, h₁.2.symm.trans h₂.2⟩
    rw [if_neg fun h => hne h.2]
    rw [hs', dailyStatusAt_upsert, if_neg hkey] at hq
    exact hl c d q hq

theorem AuditedStep.replays_iff (hs : s.WF) (hl : AuditReplays s) (h : AuditedStep op s s') :
    AuditReplays s' ↔ op.SparesAudited s := by
  have hs' := h.wf hs
  obtain ⟨hevents, hstatuses⟩ := hl
  rw [statusesTold_iff hs] at hstatuses
  unfold AuditReplays
  rw [statusesTold_iff hs']
  cases h with
  | event a v days htype hlog hevent hunique hsame hdays hspares =>
    have hlog' : ∀ i, s'.trail .childDailyStatus i = s.trail .childDailyStatus i := by
      intro i
      rw [trail_logged hlog, htype, if_neg]
      exact fun h => by cases h.1
    simp only [hlog']
    rw [hdays.told_iff hs hsame hstatuses, hspares, and_iff_right_iff_imp]
    intro _
    refine (Table.trailed_iff hs'.events).1 ?_
    rw [hdays.events]
    refine hevent.told ((Table.trailed_iff hs.events).2 hevents) (fun i hi => hs.trail_event hi) fun i => ?_
    rw [trail_logged hlog, htype]
    simp
  | status a n row htype hlog hafter' hfresh hrow hid hbefore hafter hspares =>
    refine iff_of_true ⟨fun e he => ?_, ?_⟩ hspares
    · have hlog' : s'.trail .attendanceEvent e.id = s.trail .attendanceEvent e.id := by
        rw [trail_logged hlog, htype, if_neg]
        exact fun h => by cases h.1
      rw [hlog']
      rw [hafter'] at he
      exact hevents e he
    · exact statusSet_told hs hs' htype hlog hafter' hfresh hrow hid hbefore hafter hstatuses

end

/-! ### The requests -/

section

variable {v v' : Store} {now : Int} {c : Nat} {caller : Caller} {found : Bool} {recordedAt : Option Int}
  {notes : Option String} {result : AttendanceFlowResult}

/-- A new event, and nothing of the statuses. -/
structure Recorded (v v₁ : Store) (e : AttendanceEvent) : Prop where
  events : v₁.events = v.events ++ [e]
  statuses : v₁.dailyStatuses = v.dailyStatuses
  fresh : Table.find v.events e.id = none
  live : e.deletedAt = none

theorem find_of_absent (h : Relational.absent v i = true) : Table.find v.events i = none := by
  simp only [Relational.absent, Bool.and_eq_true] at h
  exact Option.isNone_iff_eq_none.1 h.1.1

theorem yields_checkIn (h : Prog.Yields (AttendanceService.checkIn now c caller found recordedAt notes) v result v') :
    ∃ v₁, Recorded v v₁ result.event ∧
      result.event.checksIn c (formatDateInTimezone (recordedAt.getD now)) = true ∧
      DaysStep [(c, formatDateInTimezone (recordedAt.getD now))] v₁ v' := by
  simp only [AttendanceService.checkIn, assertNotFuture, AttendanceService.resolveCallerStaffMemberId,
    AttendanceEventRepository.create, TimelineEntryRepository.create,
    ChildDailyStatusRepository.findByChildAndDate, Prog.bind_eq, Prog.yields_bind, Prog.yields_guardOr,
    Prog.yields_require, Prog.yields_uuid, Prog.yields_insertOr, Prog.yields_query] at h
  obtain ⟨_, v, ⟨-, rfl⟩, staff, v, ⟨-, rfl⟩, _, v, ⟨-, rfl⟩, i, v, ⟨hi, rfl⟩, _, v₁, ⟨-, hv₁⟩, j, v₁, ⟨-, rfl⟩, _, v₂,
    ⟨-, hv₂⟩, existing, v₂, ⟨rfl, rfl⟩, h⟩ := h
  have hrecorded : Recorded v v₂
      (AttendanceEvent.createCheckIn i c .manual staff notes (recordedAt.getD now)) := by
    rw [hv₂, hv₁]
    exact ⟨rfl, rfl, find_of_absent hi, rfl⟩
  have hchecks : (AttendanceEvent.createCheckIn i c .manual staff notes (recordedAt.getD now)).checksIn c
      (formatDateInTimezone (recordedAt.getD now)) = true := by
    simp [AttendanceEvent.checksIn, AttendanceEvent.createCheckIn, AttendanceEvent.day]
  have hchecked : v₂.checkedIn c (formatDateInTimezone (recordedAt.getD now)) = true := by
    unfold Store.checkedIn
    rw [hrecorded.events, List.any_append]
    simp [hchecks]
  cases hrow : v₂.dailyStatusAt c (formatDateInTimezone (recordedAt.getD now)) with
  | none =>
    rw [hrow] at h
    simp only [Prog.yields_bind] at h
    obtain ⟨row, u, h, rfl, rfl⟩ := h
    exact ⟨v₂, hrecorded, hchecks, yields_createStatus hrow h⟩
  | some row =>
    rw [hrow] at h
    simp only [Prog.yields_bind] at h
    obtain ⟨r, u, h, rfl, rfl⟩ := h
    exact ⟨v₂, hrecorded, hchecks, yields_promote hrow hchecked h⟩

theorem reads_assertCheckOutPickup (c : Nat) (user request : Option Nat) (allowed : Bool) :
    Prog.OnlyWrites (fun _ => False) (AttendanceService.assertCheckOutPickup c user request allowed) := by
  unfold AttendanceService.assertCheckOutPickup assertPickupAllowed
  cases request with
  | some r => trivial
  | none =>
    cases user with
    | none => trivial
    | some u => cases allowed <;> trivial

theorem yields_checkOut {user request : Option Nat} {allowed : Bool} {method : Option AttendanceMethod}
    (h : Prog.Yields (AttendanceService.checkOut now c caller found user request allowed method recordedAt notes)
      v result v') : Recorded v v' result.event := by
  simp only [AttendanceService.checkOut, assertNotFuture, AttendanceService.resolveCallerStaffMemberId,
    AttendanceEventRepository.create, TimelineEntryRepository.create, Prog.bind_eq, Prog.yields_bind,
    Prog.yields_guardOr, Prog.yields_require, Prog.yields_uuid, Prog.yields_insertOr] at h
  obtain ⟨_, v, ⟨-, rfl⟩, staff, v, ⟨-, rfl⟩, _, v, ⟨-, rfl⟩, _, u, hpickup, i, u, ⟨hi, rfl⟩, _, v₁, ⟨-, hv₁⟩, j, v₁,
    ⟨-, rfl⟩, _, v₂, ⟨-, hv₂⟩, h⟩ := h
  obtain rfl : u = v := hpickup.frame (reads_assertCheckOutPickup c user request allowed) id fun _ _ hw => hw.elim
  obtain ⟨rfl, rfl⟩ := h
  rw [hv₂, hv₁]
  exact ⟨rfl, rfl, find_of_absent hi, rfl⟩

theorem yields_updateEvent {a e : AttendanceEvent} {before : AttendanceEvent} (hbefore : v.eventAt a.id = some before)
    (h : Prog.Yields (AttendanceEventRepository.update a) v e v') :
    v' = Relational.apply v (.updateEvent a) ∧ e = a.saved before := by
  simp only [AttendanceEventRepository.update, Prog.bind_eq, Prog.yields_bind, Prog.yields_returning,
    Prog.yields_require] at h
  obtain ⟨r, u, ⟨-, hr, rfl⟩ | ⟨hmiss, -, -⟩, hrow, rfl⟩ := h
  · rw [eventAt_updateEvent, hbefore] at hr
    exact ⟨rfl, (Option.some.inj (hr.symm.trans hrow)).symm⟩
  · have hmiss : (v.eventAt a.id).isSome = false := hmiss
    rw [hbefore] at hmiss
    cases hmiss

end

theorem onlyWrites_cascade (before updated : AttendanceEvent) :
    Prog.OnlyWrites Write.IsEntry (AttendanceService.cascadeTimeline before updated) := by
  refine .query fun found => ?_
  cases found with
  | none => trivial
  | some entry =>
    dsimp only
    split
    · split
      · trivial
      · refine ⟨trivial, fun b => ?_⟩
        cases b with
        | false => trivial
        | true =>
          intro s
          show Prog.OnlyWrites Write.IsEntry (Prog.bind (Prog.require (s.entryAt _) _) _)
          cases s.entryAt _ <;> trivial
    · refine ⟨trivial, fun _ i => ⟨trivial, fun b => ?_⟩⟩
      cases b <;> trivial

theorem onlyWrites_deleteEntryRow (i : Nat) :
    Prog.OnlyWrites Write.IsEntry (TimelineEntryRepository.delete i) := ⟨trivial, fun _ => trivial⟩

section

variable {s s' : AuditedStore} {r : AuditedResponse}

theorem Recorded.step {v v₁ : Store} {e : AttendanceEvent} (h : Recorded v v₁ e) (hu : Table.Unique v.events)
    {a : AuditLogEntry} (hid : a.entityId = e.id) (hafter : a.after = some (.event e)) :
    EventStep v.events v₁.events a ∧ Table.Unique v₁.events := by
  rw [h.events]
  refine ⟨.created e (.append h.fresh) hid ?_, Table.unique_append hu h.fresh⟩
  rw [hafter, AttendanceEvent.snapshot, h.live]
  rfl

variable {caller : Caller}

theorem step_checkIn {c : Nat} {found : Bool} {recordedAt : Option Int} {notes : Option String} (hs : s.WF)
    (h : Prog.Yields (AuditedOp.checkIn now c caller found recordedAt notes).prog s r s') :
    AuditedStep (.checkIn now c caller found recordedAt notes) s s' := by
  simp only [AuditedOp.prog, AuditedService.checkIn, Prog.bind_eq, Prog.pure_eq, Prog.yields_bind,
    Prog.yields_ret] at h
  obtain ⟨_, _, ⟨result, u, hcheckIn, _, V, hrecord, -, rfl⟩, -, rfl⟩ := h
  obtain ⟨hcheckIn, hlog⟩ := yields_attendance hcheckIn
  obtain ⟨i, hsame, hlog'⟩ := yields_record hrecord
  obtain ⟨v₁, hrecorded, hchecks, hdays⟩ := yields_checkIn hcheckIn
  obtain ⟨hevent, hunique⟩ := hrecorded.step hs.events
    (a := AuditLogEntry.create i (AuditedService.eventCreated caller result.event) now) rfl rfl
  refine .event _ v₁ _ rfl (hlog ▸ hlog') hevent hunique hrecorded.statuses (hsame ▸ hdays) ?_
  -- with the new check-in, what is rewritten is what is promotable
  have hchecked : { s.attendance with events := v₁.events }.checkedIn c
      (formatDateInTimezone (recordedAt.getD now)) = true := by
    unfold Store.checkedIn
    show v₁.events.any _ = true
    rw [hrecorded.events, List.any_append]
    simp [hchecks]
  have hrw : ∀ row, s.attendance.dailyStatusAt c (formatDateInTimezone (recordedAt.getD now)) = some row →
      { s.attendance with events := v₁.events }.rewritesDay c (formatDateInTimezone (recordedAt.getD now)) =
        row.status.isPromotableByCheckIn := by
    intro row hrow
    have hrow' : { s.attendance with events := v₁.events }.dailyStatusAt c
      (formatDateInTimezone (recordedAt.getD now)) = some row := hrow
    simp [Store.rewritesDay, hrow', hchecked]
  constructor
  · intro hop b hb row hrow htrail
    obtain rfl := List.mem_singleton.1 hb
    rw [hrw row hrow]
    exact hop row hrow htrail
  · intro hspares row hrow htrail
    rw [← hrw row hrow]
    exact hspares _ List.mem_cons_self row hrow htrail

theorem step_checkOut {c : Nat} {found : Bool} {user request : Option Nat}
    {allowed : Bool} {method : Option AttendanceMethod} {recordedAt : Option Int} {notes : Option String} (hs : s.WF)
    (h : Prog.Yields (AuditedOp.checkOut now c caller found user request allowed method recordedAt notes).prog s r s') :
    AuditedStep (.checkOut now c caller found user request allowed method recordedAt notes) s s' := by
  simp only [AuditedOp.prog, AuditedService.checkOut, Prog.bind_eq, Prog.pure_eq, Prog.yields_bind,
    Prog.yields_ret] at h
  obtain ⟨_, _, ⟨result, u, hcheckOut, _, V, hrecord, -, rfl⟩, -, rfl⟩ := h
  obtain ⟨hcheckOut, hlog⟩ := yields_attendance hcheckOut
  obtain ⟨i, hsame, hlog'⟩ := yields_record hrecord
  have hrecorded := yields_checkOut hcheckOut
  obtain ⟨hevent, hunique⟩ := hrecorded.step hs.events
    (a := AuditLogEntry.create i (AuditedService.eventCreated caller result.event) now) rfl rfl
  refine .event _ u.attendance [] rfl (hlog ▸ hlog') hevent hunique hrecorded.statuses (hsame ▸ .refl _) ?_
  exact iff_of_true trivial fun b hb => absurd hb List.not_mem_nil

theorem EventStep.of_update {v : Store} {a : AuditLogEntry} {before : AttendanceEvent} (after : AttendanceEvent)
    (hu : Table.Unique v.events) (hbefore : v.eventAt after.id = some before) (hlive : before.deletedAt = none)
    (hsaved : after.saved before = after) (hid : a.entityId = after.id) (hb : a.before = some (.event before))
    (ha : a.after = after.snapshot) :
    EventStep v.events (v.eventsWith after) a ∧ Table.Unique (v.eventsWith after) := by
  have hrep : Table.Replaced v.events (v.eventsWith after) after.id before (after.saved before) :=
    .updateWhere hu (fun _ => rfl) hbefore rfl
  refine ⟨.corrected before after ?_ ?_ ha, Table.unique_updateWhere hu _ _ _ fun _ => rfl⟩
  · rw [hid]
    rw [hsaved] at hrep
    exact hrep
  · rw [hb, AttendanceEvent.snapshot, hlive]
    rfl

theorem yields_entries {A : Type} {p : Sql A} {v v' : Store} {a : A} (hp : Prog.OnlyWrites Write.IsEntry p)
    (h : Prog.Yields p v a v') : v'.events = v.events ∧ v'.dailyStatuses = v.dailyStatuses :=
  ⟨h.frame hp Store.events fun s _ hw => hw.events s, h.frame hp Store.dailyStatuses fun s _ hw => hw.dailyStatuses s⟩

theorem reads_staff (caller : Caller) :
    Prog.OnlyWrites (fun _ => False) (AttendanceService.resolveCallerStaffMemberId caller) := by
  unfold AttendanceService.resolveCallerStaffMemberId
  cases caller.staff <;> trivial

theorem reads_guardOr (b : Bool) (e : AttendanceError) :
    Prog.OnlyWrites (fun _ => False) (Prog.guardOr b e : Sql Unit) := by
  cases b <;> trivial

theorem reads_assertStructural (i : Nat) (patch : UpdateAttendanceEventPatch) (allowed : Bool) :
    Prog.OnlyWrites (fun _ => False) (AttendanceService.assertStructural i patch allowed) :=
  (reads_guardOr _ _).bind fun _ => reads_guardOr _ _

theorem reads_assertPatchedPickup (before : AttendanceEvent) (patch : UpdateAttendanceEventPatch) (allowed : Bool) :
    Prog.OnlyWrites (fun _ => False) (AttendanceService.assertPatchedPickup before patch allowed) := by
  unfold AttendanceService.assertPatchedPickup
  dsimp only
  split
  · exact reads_guardOr _ _
  · trivial
  · split
    · exact reads_guardOr _ _
    · trivial

theorem yields_findById {found : Option AttendanceEvent} {before : AttendanceEvent}
    (h : Prog.Yields (attendance (AttendanceEventRepository.findById i)) s found s') (hfound : found = some before) :
    s' = s ∧ s.attendance.eventAt i = some before ∧ before.deletedAt = none ∧ before.id = i := by
  obtain ⟨⟨hread, -⟩, hsame⟩ := yields_reads (p := AttendanceEventRepository.findById i) (fun _ => trivial) h
  rw [hfound] at hread
  obtain ⟨hat, hlive⟩ := Option.filter_eq_some_iff.1 hread.symm
  exact ⟨hsame, hat, by simpa using hlive, Table.id_of_find hat⟩

theorem step_patchEvent {patch : UpdateAttendanceEventPatch}
    {opts : PatchEventOpts} {found allowed : Bool} (hs : s.WF)
    (h : Prog.Yields (AuditedOp.patchEvent now i caller patch opts found allowed).prog s r s') :
    AuditedStep (.patchEvent now i caller patch opts found allowed) s s' := by
  simp only [AuditedOp.prog, AuditedService.patchEvent, Prog.bind_eq, Prog.pure_eq, Prog.yields_bind,
    Prog.yields_ret, Prog.yields_require, Prog.yields_guardOr] at h
  obtain ⟨_, _, ⟨staff, u₁, hstaff, _, u₂, hfuture, row, u₃, hread, before, u₄, ⟨hfound, rfl⟩, _, u₅, hstruct, _, u₆,
    hwindow, _, u₇, ⟨-, rfl⟩, _, u₈, hpickup, updated, V₁, hupdate, _, V₂, hcascade, _, V₃, hrecompute, _, V₄,
    hrecord, -, rfl⟩, -, rfl⟩ := h
  obtain rfl := (yields_reads (reads_staff caller) hstaff).2
  obtain rfl := (yields_reads (reads_guardOr _ _) hfuture).2
  obtain ⟨rfl, hat, hlive, rfl⟩ := yields_findById hread hfound
  obtain rfl := (yields_reads (reads_assertStructural _ _ _) hstruct).2
  obtain rfl := (yields_reads (reads_guardOr _ _) hwindow).2
  obtain rfl := (yields_reads (reads_assertPatchedPickup _ _ _) hpickup).2
  obtain ⟨hupdate, hlog₁⟩ := yields_attendance hupdate
  obtain ⟨hcascade, hlog₂⟩ := yields_attendance hcascade
  obtain ⟨hrecompute, hlog₃⟩ := yields_attendance hrecompute
  obtain ⟨j, hsame, hlog₄⟩ := yields_record hrecord
  obtain ⟨hV₁, hupdated⟩ := yields_updateEvent (a := before.applyPatch patch) hat hupdate
  -- the row that is read back is the patched event
  obtain rfl : updated = before.applyPatch patch := hupdated
  obtain ⟨hevents, hstatuses⟩ := yields_entries (onlyWrites_cascade _ _) hcascade
  obtain ⟨hevent, hunique⟩ := EventStep.of_update (before.applyPatch patch) hs.events hat hlive rfl
    (a := AuditLogEntry.create j ⟨.attendanceEvent, before.id, .update, some caller.userId, some staff,
      some (.event before), some (.event (before.applyPatch patch))⟩ now) rfl rfl (by
        show some (AuditSnapshot.event (before.applyPatch patch)) = _
        rw [AttendanceEvent.snapshot, show (before.applyPatch patch).deletedAt = none from hlive]
        rfl)
  have hv : V₂.attendance.events = u₈.attendance.eventsWith (before.applyPatch patch) := by
    rw [hevents, hV₁]
    rfl
  have hdays := yields_recomputeEach (List.nodup_dedup _) hrecompute
  refine .event _ V₂.attendance _ rfl ?_ (hv ▸ hevent) (hv ▸ hunique) (by rw [hstatuses, hV₁]; rfl)
    (hsame ▸ hdays) ?_
  · rw [hlog₄, hlog₃, hlog₂, hlog₁]
  · rw [hv]
    simp only [AuditedOp.SparesAudited, AuditedStore.Spares, List.mem_dedup]
    constructor
    · exact fun hop => hop before hat
    · intro hspares q hq
      obtain rfl := Option.some.inj (hat.symm.trans hq)
      exact hspares

theorem step_deleteEvent (hs : s.WF) (h : Prog.Yields (AuditedOp.deleteEvent now i caller).prog s r s') :
    AuditedStep (.deleteEvent now i caller) s s' := by
  simp only [AuditedOp.prog, AuditedService.deleteEvent, Prog.bind_eq, Prog.yields_bind,
    Prog.yields_ret, Prog.yields_require] at h
  obtain ⟨_, _, ⟨staff, u₁, hstaff, row, u₃, hread, before, u₄, ⟨hfound, rfl⟩, updated, V₁, hupdate, entry, u₅, hentry,
    _, V₂, hmirror, _, V₃, hrecompute, hrecord⟩, -, rfl⟩ := h
  obtain rfl := (yields_reads (reads_staff caller) hstaff).2
  obtain ⟨rfl, hat, hlive, rfl⟩ := yields_findById hread hfound
  obtain rfl := (yields_reads (p := TimelineEntryRepository.findBySourceEventId _) (fun _ => trivial) hentry).2
  obtain ⟨hupdate, hlog₁⟩ := yields_attendance hupdate
  obtain ⟨hrecompute, hlog₃⟩ := yields_attendance hrecompute
  obtain ⟨j, hsame, hlog₄⟩ := yields_record hrecord
  obtain ⟨hV₁, -⟩ := yields_updateEvent (a := before.softDelete now) hat hupdate
  have hmirrored : V₂.attendance.events = u₅.attendance.events ∧
      V₂.attendance.dailyStatuses = u₅.attendance.dailyStatuses ∧ V₂.auditLog = u₅.auditLog := by
    cases entry with
    | none =>
      obtain ⟨-, rfl⟩ := hmirror
      exact ⟨rfl, rfl, rfl⟩
    | some x =>
      obtain ⟨hdelete, hlog⟩ := yields_attendance hmirror
      obtain ⟨hevents, hstatuses⟩ := yields_entries (onlyWrites_deleteEntryRow x.id) hdelete
      exact ⟨hevents, hstatuses, hlog⟩
  obtain ⟨hevents, hstatuses, hlog₂⟩ := hmirrored
  obtain ⟨hevent, hunique⟩ := EventStep.of_update (before.softDelete now) hs.events hat hlive rfl
    (a := AuditLogEntry.create j ⟨.attendanceEvent, before.id, .delete, some caller.userId, some staff,
      some (.event before), none⟩ now) rfl rfl (by
        show none = _
        simp [AttendanceEvent.snapshot, AttendanceEvent.softDelete, hlive])
  have hv : V₂.attendance.events = u₄.attendance.eventsWith (before.softDelete now) := by
    rw [hevents, hV₁]
    rfl
  refine .event _ V₂.attendance _ rfl ?_ (hv ▸ hevent) (hv ▸ hunique) (by rw [hstatuses, hV₁]; rfl)
    (hsame ▸ yields_recompute hrecompute) ?_
  · rw [hlog₄, hlog₃, hlog₂, hlog₁]
  · rw [hv]
    constructor
    · exact fun hop => hop before hat
    · intro hspares q hq
      obtain rfl := Option.some.inj (hat.symm.trans hq)
      exact hspares

theorem step_setDailyStatus {input : AuditedService.SetDailyStatusInput}
    {found : Bool} (h : Prog.Yields (AuditedOp.setDailyStatus now caller input found).prog s r s') :
    AuditedStep (.setDailyStatus now caller input found) s s' := by
  simp only [AuditedOp.prog, AuditedService.setDailyStatus, Prog.bind_eq, Prog.pure_eq, Prog.yields_bind,
    Prog.yields_ret, Prog.yields_guardOr, Prog.yields_uuid] at h
  obtain ⟨_, _, ⟨staff, u₁, hstaff, _, u₂, ⟨-, rfl⟩, previous, u₃, hprevious, i, u₄, ⟨hi, rfl⟩, row, V₁, hupsert, _, V₂,
    hrecord, -, rfl⟩, -, rfl⟩ := h
  obtain rfl := (yields_reads (reads_staff caller) hstaff).2
  obtain ⟨⟨hread, -⟩, rfl⟩ := yields_reads (p := ChildDailyStatusRepository.findByChildAndDate _ _)
    (fun _ => trivial) hprevious
  obtain ⟨hupsert, hlog₁⟩ := yields_attendance hupsert
  obtain ⟨j, hsame, hlog₂⟩ := yields_record hrecord
  obtain ⟨hV₁, hrow⟩ := yields_upsert hupsert
  refine .status _ ⟨i, input.childId, input.date, input.status, input.note, some staff⟩ row rfl
    (by rw [hlog₂, hlog₁]) (by rw [hsame, hV₁]) ?_ (by rw [hsame]; exact hrow) rfl ?_ rfl trivial
  · refine Table.find_eq_none.2 fun q hq hid => ?_
    simp only [Relational.absent, Bool.and_eq_true, List.all_eq_true] at hi
    have := hi.1.2 q hq
    rw [show q.id = i from hid] at this
    simp at this
  · show previous.map AuditSnapshot.dailyStatus = _
    rw [hread]

theorem step_of_yields {op : AuditedOp} (hs : s.WF) (h : Prog.Yields op.prog s r s') : AuditedStep op s s' := by
  cases op with
  | checkIn now c caller found recordedAt notes => exact step_checkIn hs h
  | checkOut now c caller found user request allowed method recordedAt notes => exact step_checkOut hs h
  | patchEvent now i caller patch opts found allowed => exact step_patchEvent hs h
  | deleteEvent now i caller => exact step_deleteEvent hs h
  | setDailyStatus now caller input found => exact step_setDailyStatus h

end

/-- **The log replays in every state of a serial run exactly when no request rewrites a daily status
that has an entry.** -/
theorem audit_replays_iff {s : AuditedStore} {cs : AuditedSchedule} {σ : AuditedSystem} (hs : s.WF)
    (hl : AuditReplays s) (h : runAudited s cs = some σ) :
    Always AuditReplays s σ.log ↔ AtEach SparesAudited s σ.log := by
  have hchain := System.exec_yields (fun _ _ _ => trivial) h
  have hwf := hchain.before AuditedStore.WF hs fun s c hwf hc => (step_of_yields hwf hc.2).wf hwf
  exact hwf.always_iff AuditReplays hl fun s c hc hl => (step_of_yields hc.1 hc.2.2).replays_iff hc.1 hl

/-! ### A status set by hand, then a check-in -/

def emptyAudited : AuditedStore := ⟨⟨[], [], []⟩, []⟩

def statusSet (status : ChildIntradayStatus) : AuditedSchedule :=
  .start 0 (.setDailyStatus 0 ⟨900, some 90⟩ ⟨1, 0, status, none⟩ true) :: Choice.steps 0 4 10 ++ Choice.steps 0 3 11

def checkedIn : AuditedSchedule :=
  Choice.request 0 (.checkIn 1000 1 ⟨900, some 90⟩ true none none) 2 20 ++ Choice.steps 0 2 21 ++ Choice.steps 0 6 22

/-- A sick child that comes all the same stays sick. -/
theorem audit_replays_iff_sick : ∃ σ : AuditedSystem,
    runAudited emptyAudited (statusSet .sick ++ checkedIn) = some σ ∧ σ.log.length = 2 ∧
    (Always AuditReplays emptyAudited σ.log ↔ AtEach SparesAudited emptyAudited σ.log) ∧
    AtEach SparesAudited emptyAudited σ.log := by
  obtain ⟨σ, hσ, h⟩ := runAudited_shows emptyAudited (statusSet .sick ++ checkedIn)
    (fun σ => decide (σ.log.length = 2 ∧ AtEach SparesAudited emptyAudited σ.log))
    (by decide +kernel)
  have h := of_decide_eq_true h
  exact ⟨σ, hσ, h.1, audit_replays_iff (by decide) (by decide) hσ, h.2⟩

/-- The absent child is present, and the log still says absent. -/
theorem absentThenPresent_untold : ∃ σ : AuditedSystem, emptyAudited.WF ∧ AuditReplays emptyAudited ∧
    runAudited emptyAudited (statusSet .absent ++ checkedIn) = some σ ∧ σ.log.length = 2 ∧
    σ.db.attendance.dailyStatuses.map ChildDailyStatus.status = [.present] ∧
    (σ.db.trail .childDailyStatus 10).map AuditLogEntry.after =
      [some (.dailyStatus ⟨10, 1, 0, .absent, none, some 90⟩)] ∧ ¬ AuditReplays σ.db := by
  obtain ⟨σ, hσ, h⟩ := runAudited_shows emptyAudited (statusSet .absent ++ checkedIn)
    (fun σ => decide (σ.log.length = 2 ∧
      σ.db.attendance.dailyStatuses.map ChildDailyStatus.status = [.present] ∧
      (σ.db.trail .childDailyStatus 10).map AuditLogEntry.after =
        [some (.dailyStatus ⟨10, 1, 0, .absent, none, some 90⟩)] ∧ ¬ AuditReplays σ.db)) (by decide +kernel)
  exact ⟨σ, by decide, by decide, hσ, of_decide_eq_true h⟩

end Attendance
