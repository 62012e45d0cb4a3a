import Shyraq.Schedule.Services

/-!
# The life cycle of an activity event

A transition re-reads the status in its UPDATE and writes the rest of the row from the version it has read.
`updateEvent` and `deleteEvent` check the status of that version and write whatever the row has become.
-/

namespace Schedule

open Kernel Transactions

/-! ## What is claimed -/

def Store.statusOf (s : Store) (i : Nat) : Option ActivityEventStatus := (s.eventAt i).map ActivityEvent.status

/-- Start, complete, cancel, update or delete an event. -/
def Op.onEvent : Op → Bool
  | updateEvent .. | deleteEvent .. | startEvent .. | completeEvent .. | cancelEvent .. => true
  | _ => false

/-- Starts, completes or cancels this event. -/
def Op.transitions (i : Nat) : Op → Bool
  | startEvent _ j | completeEvent _ j | cancelEvent _ j _ => j == i
  | _ => false

/-- What a transition makes of the notes. -/
def Op.notesAfter : Op → Option String → Option String
  | cancelEvent _ _ reason => ActivityEvent.cancelNotes reason
  | _ => id

/-- An event keeps its status or takes an edge; it goes only while it is scheduled, and does not come back. -/
inductive Follows : Option ActivityEventStatus → Option ActivityEventStatus → Prop
  | absent : Follows none none
  | kept (a : ActivityEventStatus) : Follows (some a) (some a)
  | edge {a b : ActivityEventStatus} (h : a.canTransitionTo b = true) : Follows (some a) (some b)
  | deleted : Follows (some .scheduled) none

/-- But for the status and the cancel note, the columns that `updateEvent` writes are what they were. -/
structure ActivityEvent.KeepsPlan (note : Option String → Option String) (e e' : ActivityEvent) : Prop where
  activityName : e'.activityName = e.activityName
  category : e'.category = e.category
  locationId : e'.locationId = e.locationId
  startsAt : e'.startsAt = e.startsAt
  endsAt : e'.endsAt = e.endsAt
  notes : e'.notes = note e.notes

structure EventLifeCycle (i : Nat) (s : Store) (c : ScheduleCommit) : Prop where
  follows : Follows (s.statusOf i) ((c.tx.view s).statusOf i)
  reschedule : c.op.transitions i = true → ∀ e e', s.eventAt i = some e → (c.tx.view s).eventAt i = some e' →
    e.KeepsPlan c.op.notesAfter e'

/-- The version the request has read. -/
def readOf (c : ScheduleCommit) (i : Nat) : Option ActivityEvent := c.tx.seen.head?.bind fun v => v.eventAt i

/-- As far as a transition writes it, the row is still what was read. -/
structure ActivityEvent.Reads (note : Option String → Option String) (v e : ActivityEvent) : Prop where
  activityName : v.activityName = e.activityName
  locationId : v.locationId = e.locationId
  startsAt : v.startsAt = e.startsAt
  endsAt : v.endsAt = e.endsAt
  notes : note v.notes = note e.notes

/-- Right before the commit: an update or a deletion still finds the event scheduled, a transition finds the plan that
it has read. -/
def UpToDate (i : Nat) (s : Store) (c : ScheduleCommit) : Prop :=
  match c.op with
  | .updateEvent _ j _ => j = i → s.statusOf i = some .scheduled
  | .deleteEvent _ j => j = i → s.statusOf i = some .scheduled ∨ s.statusOf i = none
  | op => op.transitions i = true → ∀ v e, readOf c i = some v → s.eventAt i = some e → v.Reads op.notesAfter e

/-! ## The rows of the events -/

/-- The event that a write is about. -/
def Write.event : Write → Option Nat
  | .insertEvent e | .updateEvent e | .moveEvent e _ => some e.id
  | .deleteEvent i | .sweepEvent i _ _ _ _ | .orphanEvent i _ => some i
  | _ => none

section

variable {s : Store} {i : Nat}

theorem eventAt_insert (s : Store) (e : ActivityEvent) (i : Nat) :
    (Relational.apply s (Write.insertEvent e)).eventAt i = (s.eventAt i).or (if e.id = i then some e else none) :=
  Table.find_append s.events e i

theorem eventAt_update (s : Store) (e : ActivityEvent) (i : Nat) :
    (Relational.apply s (Write.updateEvent e)).eventAt i =
      (s.eventAt i).map fun row => if i = e.id ∧ true = true then e.saved row else row :=
  Table.find_updateWhere s.events e.id (fun _ => true) e.saved (fun _ => rfl) i

theorem eventAt_move (s : Store) (e : ActivityEvent) (expected : ActivityEventStatus) (i : Nat) :
    (Relational.apply s (Write.moveEvent e expected)).eventAt i =
      (s.eventAt i).map fun row => if i = e.id ∧ (row.status == expected) = true then e.moved row else row :=
  Table.find_updateWhere s.events e.id (fun row => row.status == expected) e.moved (fun _ => rfl) i

theorem eventAt_orphan (s : Store) (j slotId i : Nat) :
    (Relational.apply s (Write.orphanEvent j slotId)).eventAt i =
      (s.eventAt i).map fun row => if i = j ∧ (row.templateSlotId == some slotId) = true then row.orphaned else row :=
  Table.find_updateWhere s.events j (fun row => row.templateSlotId == some slotId) ActivityEvent.orphaned
    (fun _ => rfl) i

theorem eventAt_delete (s : Store) (j i : Nat) :
    (Relational.apply s (Write.deleteEvent j)).eventAt i = if i = j then none else s.eventAt i := by
  show Table.find (s.events.filter fun row => Row.id row != j) i = _
  by_cases h : i = j
  · subst h
    rw [if_pos rfl, Table.find_eq_none]
    intro row hrow he
    simp [he] at hrow
  · rw [if_neg h, Table.find_filter_ne h]
    rfl

theorem eventAt_sweep_of_ne {j : Nat} (h : i ≠ j) (s : Store) (g : Nat) (source stop after : Int) :
    (Relational.apply s (Write.sweepEvent j g source stop after)).eventAt i = s.eventAt i := by
  show List.find? _ (List.filter _ _) = List.find? _ _
  rw [List.find?_filter]
  congr 1
  funext row
  by_cases hrow : Row.id row = i
  · have hne : (row.id == j) = false := beq_false_of_ne fun he => h (hrow.symm.trans he)
    simp [hne, beq_eq_decide]
  · simp [hrow]

theorem eventAt_apply_of_ne {w : Write} (h : w.event ≠ some i) (s : Store) :
    (Relational.apply s w).eventAt i = s.eventAt i := by
  have hne : ∀ {j}, w.event = some j → i ≠ j := fun hj he => h (he ▸ hj)
  cases w with
  | insertEvent e => rw [eventAt_insert, if_neg (hne rfl).symm, Option.or_none]
  | updateEvent e =>
    rw [eventAt_update]
    simp only [hne rfl, false_and, if_false, Option.map_id']
  | moveEvent e expected =>
    rw [eventAt_move]
    simp only [hne rfl, false_and, if_false, Option.map_id']
  | orphanEvent j slotId =>
    rw [eventAt_orphan]
    simp only [hne rfl, false_and, if_false, Option.map_id']
  | deleteEvent j => rw [eventAt_delete, if_neg (hne rfl)]
  | sweepEvent j g source stop after => exact eventAt_sweep_of_ne (hne rfl) s g source stop after
  | _ => rfl

end

/-- A locked event stays as it is, and a deleted one does not come back. -/
def eventLocks : Discipline Store Key Write where
  rely held s s' := (∀ i, Key.row i ∈ held → s'.eventAt i = s.eventAt i) ∧
    ∀ i, s.eventAt i = none → s'.eventAt i = none
  refl _ _ := ⟨fun _ _ => rfl, fun _ h => h⟩
  trans h₁ h₂ := ⟨fun i hi => (h₂.1 i hi).trans (h₁.1 i hi), fun i hi => h₂.2 i (h₁.2 i hi)⟩
  mono hs h := ⟨fun i hi => h.1 i (hs hi), h.2⟩

theorem Write.row_mem_keys {w : Write} {i : Nat} (h : w.event = some i) : Key.row i ∈ Relational.keys Store w := by
  cases w <;> cases h <;> exact List.mem_cons_self

/-- Updates or deletes one event. -/
def Write.Touches : Write → Prop
  | .updateEvent _ | .moveEvent _ _ | .deleteEvent _ => True
  | _ => False

theorem Write.Touches.absent {w : Write} (hw : w.Touches) {s : Store} {i : Nat} (h : s.eventAt i = none) :
    (Relational.apply s w).eventAt i = none := by
  cases w with
  | updateEvent e => rw [eventAt_update, h, Option.map_none]
  | moveEvent e expected => rw [eventAt_move, h, Option.map_none]
  | deleteEvent j => rw [eventAt_delete, h, ite_self]
  | _ => exact hw.elim

theorem eventLocks_respects {held : List Key} {w : Write} (hk : Relational.keys Store w ⊆ held) (hw : w.Touches) :
    eventLocks.Respects held w := by
  intro held' hd s
  refine ⟨fun i hi => eventAt_apply_of_ne (fun he => ?_) s, fun i hi => hw.absent hi⟩
  exact hd (hk (Write.row_mem_keys he)) hi

/-! ## What the requests commit -/

/-- What an event request has read and written. -/
inductive EventOutcome (t : Tx Store Key Write) (s : Store) : Op → Prop
  | updated {now i patch} (v : Store) (e n : ActivityEvent) (seen : t.seen.head? = some v)
      (found : v.eventAt i = some e) (rescheduled : e.reschedule patch = .ok n) (row : (s.eventAt i).isSome = true)
      (writes : t.writes = [.updateEvent n]) : EventOutcome t s (.updateEvent now i patch)
  | deleted {now i} (v : Store) (e : ActivityEvent) (seen : t.seen.head? = some v) (found : v.eventAt i = some e)
      (status : e.status = .scheduled) (writes : t.writes = [.deleteEvent i] ∨ t.writes = [] ∧ s.eventAt i = none) :
      EventOutcome t s (.deleteEvent now i)
  | moved {op i} (v : Store) (e n q : ActivityEvent) (hop : op.transitions i = true) (seen : t.seen.head? = some v)
      (found : v.eventAt i = some e) (edge : e.status.canTransitionTo n.status = true)
      (plan : n = { e with status := n.status, notes := op.notesAfter e.notes }) (row : s.eventAt i = some q)
      (status : q.status = e.status) (writes : t.writes = [.moveEvent n e.status]) : EventOutcome t s op

theorem reschedule_eq_ok {e n : ActivityEvent} {patch : UpdateEventPatch} (h : e.reschedule patch = .ok n) :
    e.status = .scheduled ∧ n.status = .scheduled ∧ n.id = e.id := by
  unfold ActivityEvent.reschedule at h
  by_cases hstatus : e.status = .scheduled
  · simp only [hstatus, ne_eq, not_true_eq_false, if_false] at h
    cases hrange : validateRange (patch.startsAt.getD e.startsAt) (patch.endsAt.getD e.endsAt) with
    | error x =>
      rw [hrange] at h
      cases h
    | ok u =>
      rw [hrange] at h
      cases h
      exact ⟨hstatus, rfl, rfl⟩
  · simp only [ne_eq, hstatus, not_false_eq_true, if_true] at h
    cases h

theorem transition_eq_ok {e n : ActivityEvent} {next : ActivityEventStatus} (h : e.transition next = .ok n) :
    e.status.canTransitionTo next = true ∧ n = { e with status := next } := by
  unfold ActivityEvent.transition at h
  split at h
  · next hedge =>
    cases h
    exact ⟨hedge, rfl⟩
  · cases h

theorem cancel_eq_ok {e n : ActivityEvent} {reason : String} (h : e.cancel reason = .ok n) :
    e.status.canTransitionTo .cancelled = true ∧
      n = { e with status := .cancelled, notes := ActivityEvent.cancelNotes reason e.notes } := by
  unfold ActivityEvent.cancel at h
  cases hmoved : e.transition .cancelled with
  | error x =>
    rw [hmoved] at h
    cases h
  | ok m =>
    rw [hmoved] at h
    cases h
    obtain ⟨hedge, rfl⟩ := transition_eq_ok hmoved
    exact ⟨hedge, rfl⟩

section

variable {X : ScheduleError → Prop} {s : Store}

theorem safe_transitionEvent (hX : ∀ x, X x) {op : Op} {i : Nat} (hop : op.transitions i = true)
    {f : ActivityEvent → Except ScheduleError ActivityEvent}
    (hf : ∀ e n, f e = .ok n → e.status.canTransitionTo n.status = true ∧
      n = { e with status := n.status, notes := op.notesAfter e.notes }) :
    Prog.Safe eventLocks (fun _ => True) X (fun t s _ => EventOutcome t s op)
      (Op.answer .event (ScheduleService.transitionEvent i f)) .start s := by
  unfold Op.answer ScheduleService.transitionEvent ScheduleService.requireEvent ScheduleService.persistTransition
    ActivityEventRepository.findById ActivityEventRepository.updateWithExpectedStatus
  simp only [Prog.bind_eq, Prog.bind_assoc]
  refine Prog.Safe.query fun v _ _ => Prog.Safe.require hX fun e he => Prog.Safe.ofExcept hX fun n hn => ?_
  obtain ⟨hedge, hplan⟩ := hf e n hn
  have hfound : v.eventAt i = some e := he
  have hid : n.id = i := by
    rw [hplan]
    exact Table.id_of_find hfound
  refine Prog.Safe.update (fun s₁ _ _ hit => ?_) fun s₁ _ _ _ => Prog.Safe.guardOr hX fun h => (by cases h)
  have hrow : ∃ q, s₁.eventAt i = some q ∧ q.status = e.status := by
    have hany : (s₁.eventAt n.id).any (fun row => row.status == e.status) = true := hit
    rw [hid, Option.any_eq_true] at hany
    obtain ⟨q, hq, hstatus⟩ := hany
    exact ⟨q, hq, beq_iff_eq.1 hstatus⟩
  refine Prog.Safe.guardOr hX fun _ => Prog.Safe.query fun s₂ hr₂ _ => Prog.Safe.require hX fun _ _ => ?_
  rintro s₃ hr₃ -
  obtain ⟨q, hq, hstatus⟩ := hrow
  have hheld : Key.row i ∈ ((Tx.start.saw v).wrote (Write.moveEvent n e.status)).held := by
    rw [← hid]
    exact List.mem_append_left _ List.mem_cons_self
  have hlast : s₃.eventAt i = some q := (hr₃.1 i hheld).trans ((hr₂.1 i hheld).trans hq)
  exact .moved v e n q hop rfl hfound hedge hplan hlast hstatus rfl

theorem safe_updateEvent (hX : ∀ x, X x) (now : Int) (i : Nat) (patch : UpdateEventPatch) :
    Prog.Safe eventLocks (fun _ => True) X (fun t s _ => EventOutcome t s (.updateEvent now i patch))
      (Op.updateEvent now i patch).prog .start s := by
  unfold Op.prog Op.answer ScheduleService.updateEvent ScheduleService.requireEvent ActivityEventRepository.findById
    ActivityEventRepository.update
  simp only [Prog.bind_eq, Prog.bind_assoc]
  refine Prog.Safe.query fun v _ _ => Prog.Safe.require hX fun e he => Prog.Safe.ofExcept hX fun n hn => ?_
  have hfound : v.eventAt i = some e := he
  have hid : n.id = i := (reschedule_eq_ok hn).2.2.trans (Table.id_of_find hfound)
  refine Prog.Safe.returning (fun s₁ _ _ hit => ?_) fun s₁ _ _ _ => Prog.Safe.require hX fun _ h => (by cases h)
  have hrow : (s₁.eventAt i).isSome = true := hid ▸ hit
  refine Prog.Safe.query fun s₂ hr₂ _ => Prog.Safe.require hX fun _ _ => ?_
  rintro s₃ hr₃ -
  have hheld : Key.row i ∈ ((Tx.start.saw v).wrote (Write.updateEvent n)).held := by
    rw [← hid]
    exact List.mem_append_left _ List.mem_cons_self
  refine .updated v e n rfl hfound hn ?_ rfl
  rw [hr₃.1 i hheld, hr₂.1 i hheld]
  exact hrow

theorem safe_deleteEvent (hX : ∀ x, X x) (now : Int) (i : Nat) :
    Prog.Safe eventLocks (fun _ => True) X (fun t s _ => EventOutcome t s (.deleteEvent now i))
      (Op.deleteEvent now i).prog .start s := by
  unfold Op.prog Op.answer ScheduleService.deleteEvent ScheduleService.requireEvent ActivityEventRepository.findById
    ActivityEventRepository.delete
  simp only [Prog.bind_eq, Prog.bind_assoc]
  refine Prog.Safe.query fun v _ _ => Prog.Safe.require hX fun e he => Prog.Safe.guardOr hX fun hstatus => ?_
  have hfound : v.eventAt i = some e := he
  have hstatus : e.status = .scheduled := beq_iff_eq.1 hstatus
  refine Prog.Safe.update (fun s₁ _ _ _ => ?_) fun s₁ _ _ hmiss => ?_
  · exact fun s₂ _ _ => .deleted v e rfl hfound hstatus (.inl rfl)
  · rintro s₂ hr₂ -
    have habsent : s₁.eventAt i = none := by
      cases hrow : s₁.eventAt i with
      | none => rfl
      | some q =>
        have hhit : (s₁.eventAt i).isSome = false := hmiss
        rw [hrow] at hhit
        cases hhit
    exact .deleted v e rfl hfound hstatus (.inr ⟨rfl, hr₂.2 i habsent⟩)

theorem safe_outcome (hX : ∀ x, X x) {op : Op} (hop : op.onEvent = true) :
    Prog.Safe eventLocks (fun _ => True) X (fun t s _ => EventOutcome t s op) op.prog .start s := by
  cases op with
  | updateEvent now i patch => exact safe_updateEvent hX now i patch
  | deleteEvent now i => exact safe_deleteEvent hX now i
  | startEvent now i =>
    have hop : (Op.startEvent now i).transitions i = true := beq_self_eq_true i
    refine safe_transitionEvent hX hop fun e n hn => ?_
    obtain ⟨hedge, rfl⟩ := transition_eq_ok hn
    exact ⟨hedge, rfl⟩
  | completeEvent now i =>
    have hop : (Op.completeEvent now i).transitions i = true := beq_self_eq_true i
    refine safe_transitionEvent hX hop fun e n hn => ?_
    obtain ⟨hedge, rfl⟩ := transition_eq_ok hn
    exact ⟨hedge, rfl⟩
  | cancelEvent now i reason =>
    have hop : (Op.cancelEvent now i reason).transitions i = true := beq_self_eq_true i
    refine safe_transitionEvent hX hop fun e n hn => ?_
    obtain ⟨hedge, rfl⟩ := cancel_eq_ok hn
    exact ⟨hedge, rfl⟩
  | _ => cases hop

end

theorem EventOutcome.touches {t : Tx Store Key Write} {s : Store} {op : Op} (h : EventOutcome t s op) :
    ∀ w ∈ t.writes, w.Touches := by
  intro w hw
  cases h with
  | updated v e n _ _ _ _ writes =>
    rw [writes, List.mem_singleton] at hw
    rw [hw]
    trivial
  | deleted v e _ _ _ writes =>
    rcases writes with writes | ⟨writes, -⟩
    · rw [writes, List.mem_singleton] at hw
      rw [hw]
      trivial
    · rw [writes] at hw
      cases hw
  | moved v e n q _ _ _ _ _ _ _ writes =>
    rw [writes, List.mem_singleton] at hw
    rw [hw]
    trivial

/-- **Every run on events commits outcomes**, however the requests interleave. -/
theorem run_outcomes {n : Nat} {s : Store} {cs : Interleaving n} {σ : System n}
    (hops : System.Starts (fun op => op.onEvent = true) cs) (hrun : run s cs = some σ) :
    Chain (fun s c => EventOutcome c.tx s c.op) s σ.log σ.db := by
  have hsafe : ∀ op s, op.onEvent = true → True → Prog.Safe eventLocks (fun _ => True) (fun _ => True)
      (fun t s _ => EventOutcome t s op ∧ ∀ w ∈ t.writes, Relational.keys Store w ⊆ t.held) op.prog .start s :=
    fun op s hop _ => (safe_outcome (fun _ => trivial) hop).withKeys fun _ => trivial
  have hchain := System.exec_chain (J := fun _ => True) trivial hsafe (fun _ _ _ _ _ _ => trivial)
    (fun op t s a _ h => Discipline.guarantee_of_respects
      (fun w hw => eventLocks_respects (h.2 w hw) (h.1.touches w hw)) s) hops hrun
  exact hchain.mono fun s c h => h.2.1

/-! ## One commit -/

instance (a b : Option ActivityEventStatus) : Decidable (Follows a b) :=
  match a, b with
  | none, none => .isTrue .absent
  | none, some _ => .isFalse (fun h => by cases h)
  | some a, none => decidable_of_iff (a = .scheduled)
      ⟨fun h => h ▸ .deleted, fun h => by cases h; rfl⟩
  | some a, some b => decidable_of_iff (b = a ∨ a.canTransitionTo b = true)
      ⟨fun h => h.elim (fun h => h ▸ .kept a) .edge, fun h => by
        cases h with
        | kept => exact .inl rfl
        | edge h => exact .inr h⟩

theorem Follows.refl (a : Option ActivityEventStatus) : Follows a a := by
  cases a with
  | none => exact .absent
  | some a => exact .kept a

theorem follows_scheduled {a : ActivityEventStatus} : Follows (some a) (some .scheduled) ↔ a = .scheduled := by
  cases a <;> decide

theorem follows_none {a : ActivityEventStatus} : Follows (some a) none ↔ a = .scheduled := by
  cases a <;> decide

section

variable {s : Store} {c : ScheduleCommit} {i j : Nat}

theorem transitions_iff (h : c.op.transitions j = true) : c.op.transitions i = true ↔ j = i := by
  generalize c.op = op at h
  cases op with
  | startEvent now k | completeEvent now k | cancelEvent now k reason =>
    obtain rfl : k = j := beq_iff_eq.1 h
    exact beq_iff_eq
  | _ => cases h

theorem upToDate_transition (h : c.op.transitions j = true) : UpToDate i s c ↔
    (j = i → ∀ v e, readOf c i = some v → s.eventAt i = some e → v.Reads c.op.notesAfter e) := by
  have hiff := transitions_iff (i := i) h
  obtain ⟨op, t, a⟩ := c
  cases op with
  | startEvent now k | completeEvent now k | cancelEvent now k reason =>
    rw [← hiff]
    rfl
  | _ => cases h

theorem EventOutcome.lifeCycle_iff (h : EventOutcome c.tx s c.op) (i : Nat) : EventLifeCycle i s c ↔ UpToDate i s c := by
  obtain ⟨op, t, a⟩ := c
  have hview : ∀ {ws}, t.writes = ws → t.view s = ws.foldl Relational.apply s := fun h => congrArg _ h
  cases h with
  | @updated now j patch v e n seen found rescheduled row writes =>
    obtain ⟨-, hn, hid⟩ := reschedule_eq_ok rescheduled
    have hid : n.id = j := hid.trans (Table.id_of_find found)
    have hafter : (t.view s).eventAt i = (s.eventAt i).map fun row => if i = j ∧ true = true then n.saved row else row := by
      rw [hview writes, ← hid]
      exact eventAt_update s n i
    have hlife : EventLifeCycle i s ⟨.updateEvent now j patch, t, a⟩ ↔ Follows (s.statusOf i) ((t.view s).statusOf i) :=
      ⟨fun h => h.follows, fun h => ⟨h, fun hop => by cases hop⟩⟩
    rw [hlife]
    show Follows _ _ ↔ (j = i → s.statusOf i = some .scheduled)
    by_cases hi : i = j
    · subst hi
      obtain ⟨q, hq⟩ := Option.isSome_iff_exists.1 row
      have hstatus : (t.view s).statusOf i = some .scheduled := by
        rw [Store.statusOf, hafter, hq, Option.map_some, if_pos ⟨rfl, rfl⟩]
        exact congrArg some hn
      have hbefore : s.statusOf i = some q.status := congrArg (Option.map _) hq
      rw [hstatus, hbefore, follows_scheduled]
      simp
    · have hsame : (t.view s).statusOf i = s.statusOf i := by
        unfold Store.statusOf
        rw [hafter]
        simp only [hi, false_and, if_false, Option.map_id']
      rw [hsame]
      exact ⟨fun _ h => absurd h.symm hi, fun _ => .refl _⟩
  | @deleted now j v e seen found status writes =>
    have hlife : EventLifeCycle i s ⟨.deleteEvent now j, t, a⟩ ↔ Follows (s.statusOf i) ((t.view s).statusOf i) :=
      ⟨fun h => h.follows, fun h => ⟨h, fun hop => by cases hop⟩⟩
    rw [hlife]
    show Follows _ _ ↔ (j = i → s.statusOf i = some .scheduled ∨ s.statusOf i = none)
    have hafter : (t.view s).eventAt i = if i = j then none else s.eventAt i := by
      rcases writes with writes | ⟨writes, habsent⟩
      · rw [hview writes]
        exact eventAt_delete s j i
      · rw [Tx.view_of_unwritten writes]
        by_cases hi : i = j
        · rw [if_pos hi, hi, habsent]
        · rw [if_neg hi]
    by_cases hi : i = j
    · subst hi
      rw [if_pos rfl] at hafter
      have hgone : (t.view s).statusOf i = none := congrArg (Option.map _) hafter
      rw [hgone]
      cases hst : s.statusOf i with
      | none => exact ⟨fun _ _ => .inr rfl, fun _ => .absent⟩
      | some b =>
        rw [follows_none]
        simp
    · rw [if_neg hi] at hafter
      have hsame : (t.view s).statusOf i = s.statusOf i := congrArg (Option.map _) hafter
      rw [hsame]
      exact ⟨fun _ h => absurd h.symm hi, fun _ => .refl _⟩
  | @moved _ j v e n q hop seen found edge plan row status writes =>
    rw [upToDate_transition hop]
    have hid : n.id = j := by
      rw [plan]
      exact Table.id_of_find found
    have hafter : (t.view s).eventAt i =
        (s.eventAt i).map fun row => if i = j ∧ (row.status == e.status) = true then n.moved row else row := by
      rw [hview writes, ← hid]
      exact eventAt_move s n e.status i
    by_cases hi : i = j
    · subst hi
      have hrow : (t.view s).eventAt i = some (n.moved q) := by
        rw [hafter, row, Option.map_some, if_pos ⟨rfl, beq_iff_eq.2 status⟩]
      have hread : readOf ⟨op, t, a⟩ i = some e := by
        show t.seen.head?.bind _ = _
        rw [seen]
        exact found
      have hname : n.activityName = e.activityName := by rw [plan]
      have hlocation : n.locationId = e.locationId := by rw [plan]
      have hstart : n.startsAt = e.startsAt := by rw [plan]
      have hend : n.endsAt = e.endsAt := by rw [plan]
      have hnotes : n.notes = op.notesAfter e.notes := by rw [plan]
      constructor
      · intro h _ v' e' hv' he'
        obtain rfl := Option.some.inj (hread.symm.trans hv')
        obtain rfl := Option.some.inj (row.symm.trans he')
        have hkeeps := h.reschedule hop q _ row hrow
        exact ⟨hname.symm.trans hkeeps.activityName, hlocation.symm.trans hkeeps.locationId,
          hstart.symm.trans hkeeps.startsAt, hend.symm.trans hkeeps.endsAt, hnotes.symm.trans hkeeps.notes⟩
      · intro h
        have hreads := h rfl e q hread row
        refine ⟨?_, fun _ e₁ e₂ he₁ he₂ => ?_⟩
        · have hbefore : s.statusOf i = some e.status := by rw [Store.statusOf, row, Option.map_some, status]
          have hstatus : (t.view s).statusOf i = some n.status := congrArg (Option.map _) hrow
          show Follows _ _
          rw [hbefore, hstatus]
          exact .edge edge
        · obtain rfl := Option.some.inj (row.symm.trans he₁)
          obtain rfl := Option.some.inj (hrow.symm.trans he₂)
          exact ⟨hname.trans hreads.activityName, rfl, hlocation.trans hreads.locationId,
            hstart.trans hreads.startsAt, hend.trans hreads.endsAt, hnotes.trans hreads.notes⟩
    · have hsame : (t.view s).eventAt i = s.eventAt i := by
        rw [hafter]
        simp only [hi, false_and, if_false, Option.map_id']
      have hother : op.transitions i ≠ true := fun h => hi ((transitions_iff (c := ⟨op, t, a⟩) hop).1 h).symm
      refine ⟨fun _ h => absurd h.symm hi, fun _ => ⟨?_, fun h => absurd h hother⟩⟩
      have hstatus : (t.view s).statusOf i = s.statusOf i := congrArg (Option.map _) hsame
      show Follows _ _
      rw [hstatus]
      exact .refl _

end

/-! ## Runs -/

/-- **The life cycle of an event.** -/
theorem event_life_cycle_iff {n : Nat} {s : Store} {cs : Interleaving n} {σ : System n}
    (hops : System.Starts (fun op => op.onEvent = true) cs) (hrun : run s cs = some σ) (i : Nat) :
    AtEach (EventLifeCycle i) s σ.log ↔ AtEach (UpToDate i) s σ.log :=
  AtEach.congr ((run_outcomes hops hrun).mono fun _ _ h => h.lifeCycle_iff i).atEach

/-! ## An edit over a start -/

instance (note : Option String → Option String) (e e' : ActivityEvent) : Decidable (e.KeepsPlan note e') :=
  decidable_of_iff (e'.activityName = e.activityName ∧ e'.category = e.category ∧ e'.locationId = e.locationId ∧
      e'.startsAt = e.startsAt ∧ e'.endsAt = e.endsAt ∧ e'.notes = note e.notes)
    ⟨fun ⟨h₁, h₂, h₃, h₄, h₅, h₆⟩ => ⟨h₁, h₂, h₃, h₄, h₅, h₆⟩, fun ⟨h₁, h₂, h₃, h₄, h₅, h₆⟩ => ⟨h₁, h₂, h₃, h₄, h₅, h₆⟩⟩

instance (i : Nat) (s : Store) (c : ScheduleCommit) : Decidable (EventLifeCycle i s c) :=
  decidable_of_iff (Follows (s.statusOf i) ((c.tx.view s).statusOf i) ∧
      (c.op.transitions i = true → ∀ e ∈ s.eventAt i, ∀ e' ∈ (c.tx.view s).eventAt i, e.KeepsPlan c.op.notesAfter e'))
    ⟨fun h => ⟨h.1, fun hop e e' he he' => h.2 hop e he e' he'⟩,
      fun h => ⟨h.follows, fun hop e he e' he' => h.reschedule hop e e' he he'⟩⟩

/-- Music for group 3, from 10:00 to 11:00. -/
def musicLesson : ActivityEvent :=
  ⟨1, 3, none, .adhoc, "Music", .lesson, none, 36000000, some 39600000, .scheduled, none, none⟩

def lessonStore : Store := ⟨[], [], [musicLesson], []⟩

def renameLesson : Op := .updateEvent 0 1 ⟨some "Choir", none, none, none, none, none⟩

/-- The lesson is started between the read and the write of an edit. -/
def editOverStart : Interleaving 2 :=
  .start 0 renameLesson :: Choice.steps 0 1 0 ++ Choice.request 1 (.startEvent 0 1) 4 0 ++ Choice.steps 0 3 0

theorem editOverStart_reopens : ∃ σ : System 2, System.Starts (fun op => op.onEvent = true) editOverStart ∧
    run lessonStore editOverStart = some σ ∧ σ.log.length = 2 ∧ σ.db.statusOf 1 = some .scheduled ∧
    ¬ AtEach (EventLifeCycle 1) lessonStore σ.log := by
  obtain ⟨σ, hrun, h⟩ := run_shows run lessonStore editOverStart (fun σ : System 2 =>
    decide (σ.log.length = 2 ∧ σ.db.statusOf 1 = some .scheduled ∧ ¬ AtEach (EventLifeCycle 1) lessonStore σ.log))
    (by decide +kernel)
  exact ⟨σ, by decide, hrun, of_decide_eq_true h⟩

/-- The lesson is edited, started and completed. -/
def editThenHold : Interleaving 2 :=
  Choice.request 0 renameLesson 4 0 ++ Choice.request 1 (.startEvent 0 1) 4 0 ++
    Choice.request 0 (.completeEvent 0 1) 4 0

theorem event_life_cycle_editThenHold : ∃ σ : System 2, run lessonStore editThenHold = some σ ∧
    σ.db.statusOf 1 = some .completed ∧
    (AtEach (EventLifeCycle 1) lessonStore σ.log ↔ AtEach (UpToDate 1) lessonStore σ.log) := by
  obtain ⟨σ, hrun, h⟩ := run_shows run lessonStore editThenHold (fun σ : System 2 =>
    decide (σ.db.statusOf 1 = some .completed)) (by decide +kernel)
  exact ⟨σ, hrun, of_decide_eq_true h, event_life_cycle_iff (by decide) hrun 1⟩

end Schedule
