import Shyraq.Attendance.Services

/-!
# What the attendance and timeline requests do

`rowLocks` is what a transaction may count on while it holds rows: they stay as they are, and a
locked event gets no entry from anybody else.  `Outcome` lists the writes of each request and
what it has read.
-/

namespace Attendance

open Kernel Transactions

/-! ## Well-formed tables -/

structure Store.WF (s : Store) : Prop where
  events : Table.Unique s.events
  entries : Table.Unique s.entries
  /-- `idx_daily_status_child_date`. -/
  days : (s.dailyStatuses.map fun d => (d.childId, d.date)).Nodup
  /-- The foreign key of `source_event_id`. -/
  sources : ∀ x ∈ s.entries, ∀ i, x.sourceEventId = some i → (s.eventAt i).isSome

/-- No event has two entries. -/
def Store.SingleMirrors (s : Store) : Prop :=
  ∀ x ∈ s.entries, ∀ y ∈ s.entries, ∀ i, x.sourceEventId = some i → y.sourceEventId = some i → x = y

instance (s : Store) : Decidable s.WF :=
  decidable_of_iff ((s.events.map Row.id).Nodup ∧ (s.entries.map Row.id).Nodup ∧
      (s.dailyStatuses.map fun d => (d.childId, d.date)).Nodup ∧
      ∀ x ∈ s.entries, ∀ i ∈ x.sourceEventId, (s.eventAt i).isSome)
    ⟨fun ⟨h₁, h₂, h₃, h₄⟩ => ⟨h₁, h₂, h₃, h₄⟩, fun ⟨h₁, h₂, h₃, h₄⟩ => ⟨h₁, h₂, h₃, h₄⟩⟩

instance (s : Store) : Decidable s.SingleMirrors :=
  decidable_of_iff (∀ x ∈ s.entries, ∀ y ∈ s.entries, x.sourceEventId ≠ none →
      x.sourceEventId = y.sourceEventId → x = y) <| by
    constructor
    · intro h x hx y hy i hxi hyi
      refine h x hx y hy ?_ (hxi.trans hyi.symm)
      rw [hxi]
      exact Option.some_ne_none i
    · intro h x hx y hy hne heq
      obtain ⟨i, hi⟩ := Option.ne_none_iff_exists'.1 hne
      exact h x hx y hy i hi (heq ▸ hi)

/-! ## The effect of the writes on each table -/

/-- A write to `child_daily_status`. -/
def Write.IsStatus : Write → Prop
  | .upsertStatus _ | .updatePresentIfAbsentOrLate .. => True
  | _ => False

def applyEvents (l : List AttendanceEvent) : Write → List AttendanceEvent
  | .insertEvent e => l ++ [e]
  | .updateEvent e => Table.updateWhere l e.id (fun _ => true) e.saved
  | _ => l

def applyEntries (l : List TimelineEntry) : Write → List TimelineEntry
  | .insertEntry x => l ++ [x]
  | .updateEntry x => Table.updateWhere l x.id (fun _ => true) x.saved
  | .deleteEntry i => l.filter fun x => x.id != i
  | _ => l

section

variable {ws : List Write}

theorem foldl_apply_events (ws : List Write) (s : Store) :
    (ws.foldl Relational.apply s).events = ws.foldl applyEvents s.events := by
  induction ws generalizing s with
  | nil => rfl
  | cons w ws ih =>
    rw [List.foldl_cons, List.foldl_cons, ih]
    cases w <;> rfl

theorem foldl_apply_entries (ws : List Write) (s : Store) :
    (ws.foldl Relational.apply s).entries = ws.foldl applyEntries s.entries := by
  induction ws generalizing s with
  | nil => rfl
  | cons w ws ih =>
    rw [List.foldl_cons, List.foldl_cons, ih]
    cases w <;> rfl

theorem events_view (t : Tx Store Key Write) (s : Store) :
    (t.view s).events = t.writes.foldl applyEvents s.events := foldl_apply_events t.writes s

theorem entries_view (t : Tx Store Key Write) (s : Store) :
    (t.view s).entries = t.writes.foldl applyEntries s.entries := foldl_apply_entries t.writes s

theorem foldl_events_status (h : ∀ w ∈ ws, w.IsStatus) (l : List AttendanceEvent) : ws.foldl applyEvents l = l := by
  induction ws with
  | nil => rfl
  | cons w ws ih =>
    rw [List.foldl_cons, show applyEvents l w = l from ?_]
    · exact ih fun w' hw' => h w' (List.mem_cons_of_mem _ hw')
    · have hw := h w List.mem_cons_self
      cases w <;> first | exact hw.elim | rfl

theorem foldl_entries_status (h : ∀ w ∈ ws, w.IsStatus) (l : List TimelineEntry) : ws.foldl applyEntries l = l := by
  induction ws with
  | nil => rfl
  | cons w ws ih =>
    rw [List.foldl_cons, show applyEntries l w = l from ?_]
    · exact ih fun w' hw' => h w' (List.mem_cons_of_mem _ hw')
    · have hw := h w List.mem_cons_self
      cases w <;> first | exact hw.elim | rfl

theorem isSome_find_foldl (ws : List Write) {l : List AttendanceEvent} {i : Nat}
    (h : (Table.find l i).isSome = true) : (Table.find (ws.foldl applyEvents l) i).isSome = true := by
  induction ws generalizing l with
  | nil => exact h
  | cons w ws ih =>
    refine ih ?_
    cases w with
    | insertEvent e =>
      rw [applyEvents, Table.find_append]
      simp [h]
    | updateEvent e =>
      rw [applyEvents, Table.find_updateWhere l e.id _ e.saved fun _ => rfl]
      simpa using h
    | _ => exact h

theorem source_foldl {P : Option Nat → Prop} (ws : List Write) {l : List TimelineEntry}
    (hl : ∀ x ∈ l, P x.sourceEventId) (hnew : ∀ x, Write.insertEntry x ∈ ws → P x.sourceEventId) :
    ∀ x ∈ ws.foldl applyEntries l, P x.sourceEventId := by
  induction ws generalizing l with
  | nil => exact hl
  | cons w ws ih =>
    refine ih ?_ fun x hx => hnew x (List.mem_cons_of_mem _ hx)
    cases w with
    | insertEntry y =>
      intro x hx
      rcases List.mem_append.1 hx with hx | hx
      · exact hl x hx
      · rw [List.mem_singleton.1 hx]
        exact hnew y List.mem_cons_self
    | updateEntry y =>
      intro x hx
      obtain ⟨q, hq, rfl⟩ := List.mem_map.1 hx
      split
      · exact hl q hq
      · exact hl q hq
    | deleteEntry i => exact fun x hx => hl x (List.mem_filter.1 hx).1
    | _ => exact hl

end

/-! ### The unique days -/

theorem map_upsertStatus (l : List ChildDailyStatus) (d : ChildDailyStatus) :
    ((Store.upsertStatus l d).map fun d => (d.childId, d.date)) =
      if l.any (·.isOf d.childId d.date) then l.map fun d => (d.childId, d.date)
      else (l.map fun d => (d.childId, d.date)) ++ [(d.childId, d.date)] := by
  unfold Store.upsertStatus
  split
  · rw [List.map_map]
    refine List.map_congr_left fun row _ => ?_
    simp only [Function.comp]
    split <;> rfl
  · rw [List.map_append]
    rfl

theorem map_promoteStatus (l : List ChildDailyStatus) (c : Nat) (d : Int) (by' : Nat) :
    ((Store.promoteStatus l c d by').map fun d => (d.childId, d.date)) =
      l.map fun d => (d.childId, d.date) := by
  unfold Store.promoteStatus
  rw [List.map_map]
  refine List.map_congr_left fun row _ => ?_
  simp only [Function.comp]
  split <;> rfl

theorem days_apply {s : Store} (h : (s.dailyStatuses.map fun d => (d.childId, d.date)).Nodup)
    (w : Write) : ((Relational.apply s w).dailyStatuses.map fun d => (d.childId, d.date)).Nodup := by
  cases w with
  | upsertStatus d =>
    show ((Store.upsertStatus s.dailyStatuses d).map fun d => (d.childId, d.date)).Nodup
    rw [map_upsertStatus]
    split
    · exact h
    · next hnew =>
      refine List.Nodup.append h (List.nodup_singleton _) ?_
      rw [List.disjoint_singleton]
      rintro hmem
      obtain ⟨row, hrow, heq⟩ := List.mem_map.1 hmem
      refine hnew (List.any_eq_true.2 ⟨row, hrow, ?_⟩)
      simp only [Prod.mk.injEq] at heq
      simp [ChildDailyStatus.isOf, heq.1, heq.2]
  | updatePresentIfAbsentOrLate c d by' =>
    show ((Store.promoteStatus s.dailyStatuses c d by').map fun d => (d.childId, d.date)).Nodup
    rw [map_promoteStatus]
    exact h
  | _ => exact h

theorem days_view {s : Store} (h : (s.dailyStatuses.map fun d => (d.childId, d.date)).Nodup)
    (t : Tx Store Key Write) : ((t.view s).dailyStatuses.map fun d => (d.childId, d.date)).Nodup := by
  unfold Tx.view
  generalize t.writes = ws
  induction ws generalizing s with
  | nil => exact h
  | cons w ws ih => exact ih (days_apply h w)

/-! ## Locks -/

/-- What others may do while these keys are held. -/
structure Moves (held : List Key) (s s' : Store) : Prop where
  /-- Events are never removed. -/
  events : Table.Evolves (fun _ _ => True) (fun i => Key.row i ∈ held) s.events s'.events
  entries : ∀ i, Key.row i ∈ held → s'.entryAt i = s.entryAt i
  mirrors : ∀ i, Key.row i ∈ held → ∀ x ∈ s'.entries, x.sourceEventId = some i →
    ∃ y ∈ s.entries, y.id = x.id ∧ y.sourceEventId = some i

def rowLocks : Discipline Store Key Write where
  rely := Moves
  refl _ s := ⟨.refl (fun _ => trivial) _, fun _ _ => rfl, fun _ _ x hx h => ⟨x, hx, rfl, h⟩⟩
  trans h₁ h₂ :=
    { events := h₁.events.trans (fun _ _ _ _ _ => trivial) h₂.events
      entries := fun i hi => (h₂.entries i hi).trans (h₁.entries i hi)
      mirrors := by
        intro i hi x hx h
        obtain ⟨y, hy, hyx, hyi⟩ := h₂.mirrors i hi x hx h
        obtain ⟨z, hz, hzy, hzi⟩ := h₁.mirrors i hi y hy hyi
        exact ⟨z, hz, hzy.trans hyx, hzi⟩ }
  mono hh h :=
    { events := h.events.mono fun _ hi => hh hi
      entries := fun i hi => h.entries i (hh hi)
      mirrors := fun i hi => h.mirrors i (hh hi) }

theorem Moves.eventAt_eq {held : List Key} {s s' : Store} (h : Moves held s s') {i : Nat}
    (hi : Key.row i ∈ held) : s'.eventAt i = s.eventAt i := h.events.find_eq hi

/-- Each write moves the tables as the others expect, when the rows it touches are held. -/
theorem respects {held : List Key} {w : Write} (hkeys : ∀ i, Key.row i ∈ Store.keys w → Key.row i ∈ held)
    (hsource : ∀ x, w = .insertEntry x → ∀ i, x.sourceEventId = some i → Key.row i ∈ held) :
    rowLocks.Respects held w := by
  intro held' hd s
  have hfree : ∀ i, Key.row i ∈ Store.keys w → ¬ Key.row i ∈ held' := fun i hi hi' => hd (hkeys i hi) hi'
  cases w with
  | insertEvent e =>
    exact
      { events := .append (fun _ => trivial) (hfree e.id List.mem_cons_self)
        entries := fun _ _ => rfl
        mirrors := fun _ _ x hx h => ⟨x, hx, rfl, h⟩ }
  | updateEvent e =>
    refine ⟨.updateWhere ?_ (fun _ => trivial) fun _ _ _ => ⟨trivial, hfree e.id List.mem_cons_self⟩,
      fun _ _ => rfl, fun _ _ x hx h => ⟨x, hx, rfl, h⟩⟩
    exact fun _ => rfl
  | insertEntry x =>
    refine ⟨.refl (fun _ => trivial) _, fun i hi => ?_, fun i hi y hy h => ?_⟩
    · show Table.find (s.entries ++ [x]) i = Table.find s.entries i
      rw [Table.find_append, if_neg, Option.or_none]
      rintro rfl
      exact hfree x.id List.mem_cons_self hi
    · rcases List.mem_append.1 hy with hy | hy
      · exact ⟨y, hy, rfl, h⟩
      · obtain rfl := List.mem_singleton.1 hy
        exact absurd hi (fun hi => hd (hsource y rfl i h) hi)
  | updateEntry x =>
    refine ⟨.refl (fun _ => trivial) _, fun i hi => ?_, fun i _ y hy h => ?_⟩
    · refine Table.find_updateWhere_of_ne (fun _ => rfl) ?_
      rintro rfl
      exact hfree x.id List.mem_cons_self hi
    · obtain ⟨q, hq, rfl⟩ := List.mem_map.1 hy
      split at h
      · next hc => exact ⟨q, hq, by rw [if_pos hc]; rfl, h⟩
      · next hc => exact ⟨q, hq, by rw [if_neg hc], h⟩
  | deleteEntry j =>
    refine ⟨.refl (fun _ => trivial) _, fun i hi => ?_, fun i _ y hy h => ?_⟩
    · refine Table.find_filter_ne ?_
      rintro rfl
      exact hfree i List.mem_cons_self hi
    · exact ⟨y, (List.mem_filter.1 hy).1, rfl, h⟩
  | upsertStatus d =>
    exact ⟨.refl (fun _ => trivial) _, fun _ _ => rfl, fun _ _ x hx h => ⟨x, hx, rfl, h⟩⟩
  | updatePresentIfAbsentOrLate c d by' =>
    exact ⟨.refl (fun _ => trivial) _, fun _ _ => rfl, fun _ _ x hx h => ⟨x, hx, rfl, h⟩⟩

/-! ## The mirror entry of a corrected event -/

def mirrorOf (l : List TimelineEntry) (i : Nat) : Option TimelineEntry :=
  l.find? fun x => x.sourceEventId == some i

/-- The writes of `cascadeTimeline` for the entry it has found.  `gone` of an entry that was no
longer there to be deleted. -/
inductive Cascades (before updated : AttendanceEvent) (found : Option TimelineEntry)
    (gone : TimelineEntry → Prop) : List Write → Prop
  | unmirrored (h : found = none) : Cascades before updated found gone []
  | kept (x) (h : found = some x) (htype : before.eventType = updated.eventType)
      (hsame : before.childId = updated.childId ∧ before.recordedAt = updated.recordedAt) :
      Cascades before updated found gone []
  | moved (x) (h : found = some x) (htype : before.eventType = updated.eventType)
      (hmoved : ¬ (before.childId = updated.childId ∧ before.recordedAt = updated.recordedAt)) :
      Cascades before updated found gone [.updateEntry (x.applyPatch
        ⟨none, none, none, none, some updated.recordedAt, some updated.childId⟩)]
  | replaced (x id) (h : found = some x) (htype : ¬ before.eventType = updated.eventType) :
      Cascades before updated found gone
        [.deleteEntry x.id, .insertEntry (mirrorEntry id updated x.recordedBy)]
  | added (x id) (h : found = some x) (htype : ¬ before.eventType = updated.eventType) (hgone : gone x) :
      Cascades before updated found gone [.insertEntry (mirrorEntry id updated x.recordedBy)]

/-- The writes of `deleteEvent` to the timeline. -/
inductive Unmirrors (found : Option TimelineEntry) (gone : TimelineEntry → Prop) : List Write → Prop
  | unmirrored (h : found = none) : Unmirrors found gone []
  | removed (x) (h : found = some x) : Unmirrors found gone [.deleteEntry x.id]
  | late (x) (h : found = some x) (hgone : gone x) : Unmirrors found gone []

/-- The new entries are not in the table yet. -/
def FreshEntries (ws : List Write) (s : Store) : Prop :=
  ∀ x, Write.insertEntry x ∈ ws → s.entryAt x.id = none

/-- What a part of a request adds to the transaction. -/
structure Adds (ws : List Write) (t t' : Tx Store Key Write) : Prop where
  writes : t'.writes = t.writes ++ ws
  held : t.held ⊆ t'.held
  keys : ∀ w ∈ ws, Store.keys w ⊆ t'.held
  seen : t.seen <+: t'.seen

section

variable {D : Discipline Store Key Write} {J : Store → Prop} {X : AttendanceError → Prop} {B : Type}
  {Q : Tx Store Key Write → Store → B → Prop} {t : Tx Store Key Write} {s : Store}

/-- Some store on the way had lost the entry. -/
def Gone (D : Discipline Store Key Write) (J : Store → Prop) (held : List Key) (s : Store)
    (x : TimelineEntry) : Prop :=
  ∃ s', J s' ∧ D.rely held s s' ∧ s'.entryAt x.id = none

theorem eventAt_updateEvent (a : AttendanceEvent) (s : Store) :
    (Relational.apply s (Write.updateEvent a)).eventAt a.id = (s.eventAt a.id).map a.saved := by
  show Table.find (Table.updateWhere s.events a.id (fun _ => true) a.saved) a.id = _
  rw [Table.find_updateWhere s.events a.id (fun _ => true) a.saved fun _ => rfl]
  unfold Store.eventAt
  cases Table.find s.events a.id <;> simp

theorem safe_updateEvent {a : AttendanceEvent} {f : AttendanceEvent → Sql B} (hX : ∀ e, X e) (ht : t.writes = [])
    (h : ∀ s₁ s₂ e, D.rely t.held s s₁ → J s₁ → (s₁.eventAt a.id).isSome = true →
      D.rely (Key.row a.id :: t.held) s₁ s₂ → J s₂ → s₂.eventAt a.id = some e →
      Prog.Safe D J X Q (f (a.saved e)) ((t.wrote (.updateEvent a)).saw s₂) s₂) :
    Prog.Safe D J X Q (Prog.bind (AttendanceEventRepository.update a) f) t s := by
  unfold AttendanceEventRepository.update
  simp only [Prog.bind_eq, Prog.bind_assoc]
  refine Prog.Safe.returning (fun s₁ hr₁ hj₁ hhit => ?_) fun _ _ _ _ => Prog.Safe.require hX ?_
  · have hsome : (s₁.eventAt a.id).isSome = true := by
      rw [Tx.view_of_unwritten ht] at hhit
      exact hhit
    refine Prog.Safe.query fun s₂ hr₂ hj₂ => Prog.Safe.require hX fun row hrow => ?_
    rw [Tx.view_wrote, Tx.view_of_unwritten ht, eventAt_updateEvent] at hrow
    obtain ⟨e, he, rfl⟩ := Option.map_eq_some_iff.1 hrow
    exact h s₁ s₂ e hr₁ hj₁ hsome hr₂ hj₂ he
  · rintro _ ⟨⟩

variable {f : Unit → Sql B}

theorem safe_deleteEntry {i : Nat} (hit : ∀ s', D.rely t.held s s' → J s' → ((t.view s').entryAt i).isSome = true →
      Prog.Safe D J X Q (f ()) (t.wrote (.deleteEntry i)) s')
    (miss : ∀ s', D.rely t.held s s' → J s' → (t.view s').entryAt i = none → Prog.Safe D J X Q (f ()) t s') :
    Prog.Safe D J X Q (Prog.bind (TimelineEntryRepository.delete i) f) t s := by
  unfold TimelineEntryRepository.delete
  simp only [Prog.bind_eq, Prog.bind_assoc]
  refine Prog.Safe.update hit fun s' hr hj hmiss => miss s' hr hj ?_
  have hnone : ((t.view s').entryAt i).isSome = false := hmiss
  exact Option.not_isSome_iff_eq_none.1 (by simp [hnone])

theorem safe_createEntry {x : TimelineEntry} (hX : ∀ e, X e)
    (h : ∀ s', D.rely t.held s s' → J s' → (t.view s').entryAt x.id = none →
      Prog.Safe D J X Q (f ()) (t.wrote (.insertEntry x)) s') :
    Prog.Safe D J X Q (Prog.bind (TimelineEntryRepository.create x) f) t s := by
  refine Prog.Safe.insertOr hX fun s' hr hj hhit => h s' hr hj ?_
  simp only [Relational.hit, Store.hit, Bool.and_eq_true, List.all_eq_true] at hhit
  refine Table.find_eq_none.2 fun q hq he => ?_
  have hne := hhit.1 q hq
  rw [show q.id = x.id from he] at hne
  simp at hne

theorem safe_cascade {before updated : AttendanceEvent} (hX : ∀ e, X e)
    (hD : ∀ held s s', D.rely held s s' → Moves held s s') (ht : ∀ s, (t.view s).entries = s.entries)
    (h : ∀ s₂ ws t', D.rely t.held s s₂ → J s₂ →
      Cascades before updated (mirrorOf s₂.entries updated.id) (Gone D J t.held s₂) ws → Adds ws t t' →
      ∀ s₃, D.rely t.held s₂ s₃ → J s₃ → FreshEntries ws s₃ →
      Prog.Safe D (fun s => J s ∧ D.rely t.held s₂ s ∧ FreshEntries ws s) X Q (f ()) t' s₃) :
    Prog.Safe D J X Q (Prog.bind (AttendanceService.cascadeTimeline before updated) f) t s := by
  unfold AttendanceService.cascadeTimeline TimelineEntryRepository.findBySourceEventId
  simp only [Prog.bind_eq, Prog.bind_assoc]
  refine Prog.Safe.query fun s₂ hr₂ hj₂ => ?_
  rw [ht]
  have hentries : ∀ s i, ((t.saw s₂).view s).entryAt i = s.entryAt i := by
    intro s i
    unfold Store.entryAt
    rw [Tx.view_saw, ht]
  have hfinish : ∀ ws t' s₃, Cascades before updated (mirrorOf s₂.entries updated.id) (Gone D J t.held s₂) ws →
      Adds ws t t' → D.rely t.held s₂ s₃ → J s₃ → FreshEntries ws s₃ →
      Prog.Safe D J X Q (f ()) t' s₃ := by
    intro ws t' s₃ hc ha hr₃ hj₃ hfresh
    refine Prog.Safe.keep (fun s => D.rely t.held s₂ s ∧ FreshEntries ws s) t'.held (List.Subset.refl _)
      ?_ hj₃ ⟨hr₃, hfresh⟩ (h s₂ ws t' hr₂ hj₂ hc ha s₃ hr₃ hj₃ hfresh)
    rintro s s' hr _ _ ⟨hsince, hfresh⟩
    refine ⟨D.trans hsince (D.mono ha.held hr), fun x hx => ?_⟩
    rw [(hD _ _ _ hr).entries x.id (ha.keys _ hx List.mem_cons_self)]
    exact hfresh x hx
  have hsaw : Adds [] t (t.saw s₂) :=
    ⟨(List.append_nil _).symm, List.Subset.refl _, fun _ hw => absurd hw List.not_mem_nil,
      List.prefix_append _ _⟩
  cases hfound : mirrorOf s₂.entries updated.id with
  | none =>
    rw [show List.find? _ s₂.entries = none from hfound]
    exact hfinish [] _ s₂ (.unmirrored hfound) hsaw (D.refl _ _) hj₂ fun _ hx => absurd hx List.not_mem_nil
  | some x =>
    rw [show List.find? _ s₂.entries = some x from hfound]
    dsimp only
    by_cases htype : before.eventType = updated.eventType
    · rw [if_pos htype]
      by_cases hsame : before.childId = updated.childId ∧ before.recordedAt = updated.recordedAt
      · rw [if_pos hsame]
        exact hfinish [] _ s₂ (.kept x hfound htype hsame) hsaw (D.refl _ _) hj₂
          fun _ hx => absurd hx List.not_mem_nil
      · rw [if_neg hsame]
        unfold TimelineEntryRepository.update
        simp only [Prog.bind_eq, Prog.bind_assoc]
        refine Prog.Safe.returning (fun s₃ hr₃ hj₃ _ => ?_) fun _ _ _ _ => Prog.Safe.require hX ?_
        · refine Prog.Safe.query fun s₄ hr₄ hj₄ => Prog.Safe.require hX fun _ _ => ?_
          refine hfinish _ _ s₄ (.moved x hfound htype hsame) ⟨rfl, ?_, ?_, ?_⟩
            (D.trans hr₃ (D.mono (List.subset_append_right _ _) hr₄)) hj₄ fun y hy => ?_
          · exact List.subset_append_right _ _
          · intro w hw
            rw [List.mem_singleton.1 hw]
            exact List.subset_append_left _ _
          · exact (List.prefix_append _ _).trans (List.prefix_append _ _)
          · exact absurd (List.mem_singleton.1 hy) Write.noConfusion
        · rintro _ ⟨⟩
    · rw [if_neg htype]
      simp only [Prog.bind_assoc]
      refine safe_deleteEntry (fun s₃ hr₃ hj₃ _ => ?_) fun s₃ hr₃ hj₃ hgone => ?_
      · refine Prog.Safe.uuid fun s₄ id hr₄ hj₄ _ hid => ?_
        refine safe_createEntry hX fun s₅ hr₅ hj₅ hnew => ?_
        have hr : D.rely t.held s₂ s₅ := by
          refine D.trans hr₃ (D.trans (D.mono ?_ hr₄) (D.mono ?_ hr₅))
          · exact List.subset_append_right _ _
          · exact fun _ hk => List.mem_cons_of_mem _ (List.mem_append_right _ hk)
        refine hfinish _ _ s₅ (.replaced x id hfound htype) ⟨?_, ?_, ?_, ?_⟩ hr hj₅ fun y hy => ?_
        · simp
        · exact fun _ hk => List.mem_append_right _ (List.mem_cons_of_mem _ (List.mem_append_right _ hk))
        · intro w hw k hk
          rcases List.mem_cons.1 hw with rfl | hw
          · exact List.mem_append_right _ (List.mem_cons_of_mem _ (List.mem_append_left _ hk))
          · obtain rfl := List.mem_singleton.1 hw
            exact List.mem_append_left _ hk
        · exact List.prefix_append _ _
        · obtain rfl : y = mirrorEntry id updated x.recordedBy := by simpa using hy
          -- the id is not that of the deleted entry, whose row is held
          have hne : id ≠ x.id := fun he => hid (he ▸ List.mem_cons_self)
          rw [Tx.view_locked, Tx.view_wrote] at hnew
          rw [← hentries]
          exact (Table.find_filter_ne hne).symm.trans hnew
      · refine Prog.Safe.uuid fun s₄ id hr₄ hj₄ _ _ => ?_
        refine safe_createEntry hX fun s₅ hr₅ hj₅ hnew => ?_
        have hr : D.rely t.held s₂ s₅ :=
          D.trans hr₃ (D.trans hr₄ (D.mono (List.subset_cons_self _ _) hr₅))
        have hlost : Gone D J t.held s₂ x := ⟨s₃, hj₃, hr₃, by rw [← hentries s₃ x.id]; exact hgone⟩
        refine hfinish _ _ s₅ (.added x id hfound htype hlost) ⟨rfl, ?_, ?_, ?_⟩ hr hj₅ fun y hy => ?_
        · exact fun _ hk => List.mem_append_right _ (List.mem_cons_of_mem _ hk)
        · intro w hw
          rw [List.mem_singleton.1 hw]
          exact List.subset_append_left _ _
        · exact List.prefix_append _ _
        · obtain rfl : y = mirrorEntry id updated x.recordedBy := by simpa using hy
          rw [← hentries]
          exact hnew

theorem safe_unmirror {i : Nat} {rest : Sql B} (ht : ∀ s, (t.view s).entries = s.entries)
    (h : ∀ s₂ ws t' s₃, D.rely t.held s s₂ → J s₂ →
      Unmirrors (mirrorOf s₂.entries i) (Gone D J t.held s₂) ws → Adds ws t t' → D.rely t.held s₂ s₃ →
      J s₃ → Prog.Safe D (fun s => J s ∧ D.rely t.held s₂ s) X Q rest t' s₃) :
    Prog.Safe D J X Q (Prog.bind (TimelineEntryRepository.findBySourceEventId i) fun entry =>
      match entry with
      | some x => Prog.bind (TimelineEntryRepository.delete x.id) fun _ => rest
      | none => rest) t s := by
  unfold TimelineEntryRepository.findBySourceEventId
  refine Prog.Safe.query fun s₂ hr₂ hj₂ => ?_
  rw [ht]
  have hfinish : ∀ ws t' s₃, Unmirrors (mirrorOf s₂.entries i) (Gone D J t.held s₂) ws → Adds ws t t' →
      D.rely t.held s₂ s₃ → J s₃ → Prog.Safe D J X Q rest t' s₃ := by
    intro ws t' s₃ hu ha hr₃ hj₃
    refine Prog.Safe.keep (fun s => D.rely t.held s₂ s) t'.held (List.Subset.refl _) ?_ hj₃ hr₃
      (h s₂ ws t' s₃ hr₂ hj₂ hu ha hr₃ hj₃)
    exact fun _ _ hr _ _ hsince => D.trans hsince (D.mono ha.held hr)
  have hsaw : Adds [] t (t.saw s₂) :=
    ⟨(List.append_nil _).symm, List.Subset.refl _, fun _ hw => absurd hw List.not_mem_nil,
      List.prefix_append _ _⟩
  cases hfound : mirrorOf s₂.entries i with
  | none =>
    rw [show List.find? _ s₂.entries = none from hfound]
    exact hfinish [] _ s₂ (.unmirrored hfound) hsaw (D.refl _ _) hj₂
  | some x =>
    rw [show List.find? _ s₂.entries = some x from hfound]
    refine safe_deleteEntry (fun s₃ hr₃ hj₃ _ => ?_) fun s₃ hr₃ hj₃ hgone => ?_
    · refine hfinish _ _ s₃ (.removed x hfound) ⟨rfl, ?_, ?_, ?_⟩ hr₃ hj₃
      · exact List.subset_append_right _ _
      · intro w hw
        rw [List.mem_singleton.1 hw]
        exact List.subset_append_left _ _
      · exact List.prefix_append _ _
    · refine hfinish [] _ s₃ (.late x hfound ⟨s₃, hj₃, hr₃, ?_⟩) hsaw hr₃ hj₃
      unfold Store.entryAt at hgone ⊢
      rw [Tx.view_saw, ht] at hgone
      exact hgone

/-! ## A new event with its mirror -/

/-- Neither id is taken. -/
def Unused (event : AttendanceEvent) (entry : TimelineEntry) (s : Store) : Prop :=
  s.eventAt event.id = none ∧ s.entryAt entry.id = none

theorem safe_record {event : Nat → AttendanceEvent} {recordedBy : Option Nat}
    {rest : Nat → Nat → Sql B} (hX : ∀ e, X e) (hD : ∀ held s s', D.rely held s s' → Moves held s s')
    (ht : t.writes = [])
    (h : ∀ i j t' s', Adds [.insertEvent (event i), .insertEntry (mirrorEntry j (event i) recordedBy)] t t' →
      D.rely t.held s s' → J s' → Unused (event i) (mirrorEntry j (event i) recordedBy) s' →
      Prog.Safe D (fun s => J s ∧ Unused (event i) (mirrorEntry j (event i) recordedBy) s) X Q
        (rest i j) t' s') : Prog.Safe D J X Q (Prog.bind Prog.uuid fun i =>
      Prog.bind (AttendanceEventRepository.create (event i)) fun _ =>
      Prog.bind Prog.uuid fun j =>
      Prog.bind (TimelineEntryRepository.create (mirrorEntry j (event i) recordedBy)) fun _ =>
      rest i j) t s := by
  refine Prog.Safe.uuid fun s₁ i hr₁ hj₁ _ _ => ?_
  refine Prog.Safe.insertOr hX fun s₂ hr₂ hj₂ hhit => ?_
  refine Prog.Safe.uuid fun s₃ j hr₃ hj₃ _ _ => ?_
  refine safe_createEntry hX fun s₄ hr₄ hj₄ hnew => ?_
  have hevent : s₂.eventAt (event i).id = none := by
    rw [Tx.view_locked, Tx.view_of_unwritten ht] at hhit
    simp only [Relational.hit, Store.hit, List.all_eq_true] at hhit
    refine Table.find_eq_none.2 fun q hq => ?_
    show q.id ≠ (event i).id
    simpa using hhit q hq
  have hheld : Key.row (event i).id ∈ ((t.locked (Relational.rowKey Store i)).wrote (.insertEvent (event i))).held :=
    List.mem_append_left _ List.mem_cons_self
  have hr₂₄ := D.trans hr₃ (D.mono (List.subset_cons_self _ _) hr₄)
  have hunused : Unused (event i) (mirrorEntry j (event i) recordedBy) s₄ := by
    refine ⟨((hD _ _ _ hr₂₄).eventAt_eq hheld).trans hevent, ?_⟩
    rw [Tx.view_locked, Tx.view_wrote, Tx.view_locked, Tx.view_of_unwritten ht] at hnew
    exact hnew
  refine Prog.Safe.keep (Unused (event i) (mirrorEntry j (event i) recordedBy))
    [Key.row (event i).id, Key.row j] ?_ ?_ hj₄ hunused (h i j _ s₄ ⟨?_, ?_, ?_, ?_⟩ ?_ hj₄ hunused)
  · refine List.cons_subset.2 ⟨?_, List.cons_subset.2 ⟨?_, List.nil_subset _⟩⟩
    · exact List.mem_append_right _ (List.mem_cons_of_mem _ hheld)
    · exact List.mem_append_left _ List.mem_cons_self
  · rintro s s' hr _ _ ⟨h₁, h₂⟩
    have hm := hD _ _ _ hr
    exact ⟨(hm.eventAt_eq List.mem_cons_self).trans h₁,
      (hm.entries j (List.mem_cons_of_mem _ List.mem_cons_self)).trans h₂⟩
  · simp
  · exact fun _ hk => List.mem_append_right _ (List.mem_cons_of_mem _
      (List.mem_append_right _ (List.mem_cons_of_mem _ hk)))
  · intro w hw k hk
    rcases List.mem_cons.1 hw with rfl | hw
    · exact List.mem_append_right _ (List.mem_cons_of_mem _ (List.mem_append_left _ hk))
    · obtain rfl := List.mem_singleton.1 hw
      exact List.mem_append_left _ hk
  · exact List.prefix_rfl
  · refine D.trans hr₁ (D.trans (D.mono (List.subset_cons_self _ _) hr₂) (D.mono ?_ hr₂₄))
    exact fun _ hk => List.mem_append_right _ (List.mem_cons_of_mem _ hk)

/-! ## Reading before writing -/

theorem safe_patch {now : Int} {i : Nat} {caller : Caller} {patch : UpdateAttendanceEventPatch}
    {opts : PatchEventOpts} {childExists pickupAllowed : Bool}
    {Q : Tx Store Key Write → Store → Response → Prop} (hX : ∀ e, X e)
    (h : ∀ v before staff, J v → v.eventAt i = some before → before.deletedAt = none →
      caller.staff = some staff →
      Prog.Safe D (fun s => J s ∧ D.rely [] v s) X Q
        (Prog.bind (AttendanceEventRepository.update (before.applyPatch patch)) fun updated =>
          Prog.bind (AttendanceService.cascadeTimeline before updated) fun _ =>
          Prog.bind (AttendanceService.recomputeAffectedDailyStatuses before updated staff) fun _ =>
          .ret (.event updated)) (Tx.start.saw v) v) :
    Prog.Safe D J X Q (Op.patchEvent now i caller patch opts childExists pickupAllowed).prog Tx.start s := by
  simp only [Op.prog, AttendanceService.patchEvent, AttendanceService.resolveCallerStaffMemberId,
    assertNotFuture, AttendanceEventRepository.findById, AttendanceService.assertStructural,
    AttendanceService.assertEditWindow, Prog.bind_eq, Prog.bind_assoc, Prog.pure_eq, Prog.bind]
  refine Prog.Safe.require hX fun staff hstaff => Prog.Safe.guardOr hX fun _ => ?_
  refine Prog.Safe.querySince fun v hr hj => Prog.Safe.require hX fun before hbefore => ?_
  rw [Tx.view_start, Option.filter_eq_some_iff] at hbefore
  refine Prog.Safe.guardOr hX fun _ => Prog.Safe.guardOr hX fun _ => Prog.Safe.guardOr hX fun _ =>
    Prog.Safe.guardOr hX fun _ => ?_
  have hrest := h v before staff hj hbefore.1 (by simpa using hbefore.2) hstaff
  unfold AttendanceService.assertPatchedPickup
  dsimp only
  split
  · exact Prog.Safe.guardOr hX fun _ => hrest
  · exact hrest
  · split
    · exact Prog.Safe.guardOr hX fun _ => hrest
    · exact hrest

theorem safe_softDelete {now : Int} {i : Nat} {caller : Caller}
    {Q : Tx Store Key Write → Store → Response → Prop} (hX : ∀ e, X e)
    (h : ∀ v before staff, J v → v.eventAt i = some before → before.deletedAt = none →
      Prog.Safe D (fun s => J s ∧ D.rely [] v s) X Q
        (Prog.bind (AttendanceEventRepository.update (before.softDelete now)) fun _ =>
          Prog.bind (TimelineEntryRepository.findBySourceEventId i) fun entry =>
          match entry with
          | some x => Prog.bind (TimelineEntryRepository.delete x.id) fun _ =>
              Prog.bind (AttendanceService.recomputeDailyStatus before.childId before.day staff) fun _ =>
              .ret .noContent
          | none => Prog.bind (AttendanceService.recomputeDailyStatus before.childId before.day staff) fun _ =>
              .ret .noContent) (Tx.start.saw v) v) :
    Prog.Safe D J X Q (Op.deleteEvent now i caller).prog Tx.start s := by
  simp only [Op.prog, AttendanceService.deleteEvent, AttendanceService.resolveCallerStaffMemberId,
    AttendanceEventRepository.findById, Prog.bind_eq, Prog.bind_assoc]
  refine Prog.Safe.require hX fun staff _ => ?_
  refine Prog.Safe.querySince fun v hr hj => Prog.Safe.require hX fun before hbefore => ?_
  rw [Tx.view_start, Option.filter_eq_some_iff] at hbefore
  have hrest := h v before staff hj hbefore.1 (by simpa using hbefore.2)
  refine Eq.mp (congrArg (fun p => Prog.Safe D _ X Q p _ _) ?_) hrest
  refine congrArg (Prog.bind _) (funext fun _ => congrArg (Prog.bind _) (funext fun entry => ?_))
  cases entry with
  | none => rfl
  | some x => exact (Prog.bind_assoc _ _ _).symm

theorem safe_assertEditable {entry : TimelineEntry} {caller : Caller} {opts : TimelineEntryOpts}
    (hX : ∀ e, X e) (h : Prog.Safe D J X Q (f ()) t s) :
    Prog.Safe D J X Q (Prog.bind (TimelineService.assertEditable entry caller opts) f) t s := by
  unfold TimelineService.assertEditable TimelineService.resolveAuthor TimelineService.resolveStaffMemberId
  simp only [Prog.bind_eq, Prog.bind_assoc]
  cases opts.isAdmin with
  | true => exact Prog.Safe.ofExcept hX fun _ _ => Prog.Safe.guardOr hX fun _ => h
  | false =>
    cases hstaff : caller.staff with
    | none => exact hX _
    | some staff => exact Prog.Safe.ofExcept hX fun _ _ => Prog.Safe.guardOr hX fun _ => h

theorem safe_assertTimelineMetadata {entryType : TimelineEntryType} {metadata : Option Metadata}
    (hX : ∀ e, X e) (h : Prog.Safe D J X Q (f ()) t s) :
    Prog.Safe D J X Q (Prog.bind (TimelineService.assertTimelineMetadata entryType metadata) f) t s := by
  have htyped : ∀ e k l x, Prog.Safe D J X Q (Prog.bind (TimelineService.assertTyped metadata e k l x) f) t s := by
    intro e k l x
    unfold TimelineService.assertTyped
    split
    · exact h
    · exact Prog.Safe.guardOr hX fun _ => h
  unfold TimelineService.assertTimelineMetadata
  split
  · exact htyped _ _ _ _
  · exact htyped _ _ _ _
  · exact h

end

end Attendance
