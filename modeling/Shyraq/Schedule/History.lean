import Shyraq.Schedule.LifeCycle

/-!
# What has happened stays

Templates and slots are edited and deleted, weeks are copied and rebuilt.  An event that has started, that somebody has
moved on or that no template has put there is left alone, but for the slot it refers to.
-/

namespace Schedule

open Kernel Transactions

/-- A week that is rebuilt may lose the event. -/
def ActivityEvent.ahead (now : Int) (e : ActivityEvent) : Bool :=
  e.origin == .template && e.status == .scheduled && decide (now < e.startsAt)

/-- The row of this event, once it is not ahead, but for the slot it refers to. -/
def Store.history (now : Int) (i : Nat) (s : Store) : List ActivityEvent :=
  (s.events.filter fun e => e.id == i && !e.ahead now).map ActivityEvent.orphaned

/-- The event that the request names. -/
def Op.event : Op → Option Nat
  | updateEvent _ i _ | deleteEvent _ i | startEvent _ i | completeEvent _ i | cancelEvent _ i _ => some i
  | _ => none

/-! ## Statements -/

/-- Of other events, or after this moment. -/
def Write.Spares (now : Int) (i : Nat) : Write → Prop
  | .updateEvent e | .moveEvent e _ => e.id ≠ i
  | .deleteEvent j => j ≠ i
  | .sweepEvent _ _ _ _ after => now ≤ after
  | _ => True

section

variable {now : Int} {i : Nat}

theorem history_updateWhere {j : Nat} {p : ActivityEvent → Bool} {f : ActivityEvent → ActivityEvent} (s : Store)
    (hf : ∀ e : ActivityEvent, e.id = j → (f e).id = e.id ∧
      (e.id = i → (f e).ahead now = e.ahead now ∧ (f e).orphaned = e.orphaned)) :
    s.history now i <+: ({ s with events := Table.updateWhere s.events j p f } : Store).history now i := by
  refine ⟨[], (List.append_nil _).trans ?_⟩
  unfold Store.history Table.updateWhere
  induction s.events with
  | nil => rfl
  | cons e l ih =>
    rw [List.map_cons, List.filter_cons, List.filter_cons]
    by_cases hhit : (Row.id e == j && p e) = true
    · obtain ⟨hid, hsame⟩ := hf e (beq_iff_eq.1 (Bool.and_eq_true_iff.1 hhit).1)
      rw [if_pos hhit, hid]
      by_cases hi : e.id = i
      · obtain ⟨hahead, horphaned⟩ := hsame hi
        rw [hahead]
        split <;> simp only [List.map_cons, ih, horphaned]
      · simp only [beq_false_of_ne hi, Bool.false_and, Bool.false_eq_true, if_false, ih]
    · rw [if_neg hhit]
      split <;> simp only [List.map_cons, ih]

theorem history_filter {keep : ActivityEvent → Bool} (s : Store)
    (hkeep : ∀ e, e.id = i → e.ahead now = false → keep e = true) :
    s.history now i <+: ({ s with events := s.events.filter keep } : Store).history now i := by
  refine ⟨[], (List.append_nil _).trans ?_⟩
  unfold Store.history
  rw [List.filter_filter]
  refine congrArg _ (List.filter_congr fun e _ => ?_)
  by_cases hi : e.id = i
  · cases hahead : e.ahead now with
    | true => simp
    | false => simp [hkeep e hi hahead]
  · simp [beq_false_of_ne hi]

theorem swept_ahead {e : ActivityEvent} {groupId : Nat} {source stop after : Int}
    (h : e.swept groupId source stop after = true) (hafter : now ≤ after) : e.ahead now = true := by
  unfold ActivityEvent.swept ActivityEvent.inWeek at h
  unfold ActivityEvent.ahead
  simp only [Bool.and_eq_true, beq_iff_eq, decide_eq_true_eq] at h ⊢
  exact ⟨⟨h.1.1.1.1.2, h.1.2⟩, by omega⟩

/-- Events are only added to what has happened. -/
theorem Write.Spares.history {w : Write} (h : w.Spares now i) (s : Store) :
    s.history now i <+: (Relational.apply s w : Store).history now i := by
  cases w with
  | insertEvent e =>
    show _ <+: ((s.events ++ [e]).filter _).map _
    rw [List.filter_append, List.map_append]
    exact List.prefix_append _ _
  | updateEvent e =>
    exact history_updateWhere (f := e.saved) s fun r hr => ⟨rfl, fun hi => absurd (hr.symm.trans hi) h⟩
  | moveEvent e expected =>
    exact history_updateWhere (f := e.moved) s fun r hr => ⟨rfl, fun hi => absurd (hr.symm.trans hi) h⟩
  | orphanEvent j slotId =>
    exact history_updateWhere (f := ActivityEvent.orphaned) s fun _ _ => ⟨rfl, fun _ => ⟨rfl, rfl⟩⟩
  | deleteEvent j => exact history_filter s fun e hi _ => bne_iff_ne.2 fun he => h (he.symm.trans hi)
  | sweepEvent j groupId source stop after =>
    refine history_filter s fun e hi hahead => ?_
    cases hswept : e.swept groupId source stop after with
    | true =>
      rw [swept_ahead hswept h] at hahead
      cases hahead
    | false => rw [Bool.and_false, Bool.not_false]
  | _ => exact List.prefix_rfl

/-! ## Requests -/

abbrev Spared {A : Type} (now : Int) (i : Nat) (p : Sql A) : Prop := Prog.OnlyWrites (Write.Spares now i) p

theorem spares_deleteSlot (slotId : Nat) : Spared now i (ScheduleTemplateRepository.deleteSlot slotId) :=
  ⟨trivial, fun _ _ => .forEach _ fun _ _ => ⟨trivial, fun _ => trivial⟩⟩

theorem spares_insertSlots (templateId : Nat) (slots : List ScheduleTemplateSlot) :
    Spared now i (Prog.forEach (fun slot =>
      Prog.insertOr (.insertSlot slot) (.slotConflict templateId none)) slots : Sql Unit) :=
  .forEach _ fun slot _ => ⟨trivial, fun inserted => by cases inserted <;> trivial⟩

theorem spares_require {A : Type} (o : Option A) (e : ScheduleError) : Spared now i (Prog.require o e : Sql A) := by
  cases o <;> trivial

theorem spares_save (template : ScheduleTemplate) : Spared now i (ScheduleTemplateRepository.save template) := by
  refine ⟨trivial, fun _ existing => ?_⟩
  refine (Prog.OnlyWrites.forEach _ fun row _ => spares_deleteSlot row.id).bind fun _ => ?_
  refine (Prog.OnlyWrites.forEach _ fun slot _ => ?_).bind fun _ => ?_
  · exact ⟨trivial, fun matched s => by
      show Prog.OnlyWrites _ (Prog.guardOr _ _)
      unfold Prog.guardOr
      split <;> trivial⟩
  · exact (spares_insertSlots _ _).bind fun _ _ => spares_require _ _

theorem spares_createMany (events : List ActivityEvent) : Spared now i (ActivityEventRepository.createMany events) :=
  .forEach _ fun e _ => ⟨trivial, fun inserted => by cases inserted <;> trivial⟩

theorem spares_createScheduled (input : CreateActivityEventInput) :
    Spared now i (ScheduleService.createScheduled input) := fun id => by
  show Prog.OnlyWrites _ (Prog.ofExcept _)
  cases ActivityEvent.createScheduled id input <;> trivial

theorem spares_rematerializeWeeks {t : Int} (ht : now ≤ t) (cache : List (Int × List ScheduleTemplate))
    (snapshots : List ScheduleWeekSnapshot) :
    Spared now i (ScheduleService.rematerializeWeeks t cache snapshots) := by
  induction snapshots generalizing cache with
  | nil => trivial
  | cons snapshot rest ih =>
    have htemplates : Spared now i
        (ScheduleService.templatesOf cache (ScheduleService.weekStartOf snapshot)) := by
      unfold ScheduleService.templatesOf
      split
      · trivial
      · exact fun _ => trivial
    refine htemplates.bind fun found => Prog.OnlyWrites.bind ?_ fun _ => ih found.1
    refine (Prog.OnlyWrites.collect _ fun slot _ => spares_createScheduled _).bind fun events => ?_
    refine Prog.OnlyWrites.bind ?_ fun _ => spares_createMany events
    exact fun _ => .forEach _ fun _ _ => ⟨ht, fun _ => trivial⟩

theorem spares_saveAndRematerialize {t : Int} (ht : now ≤ t) (template : ScheduleTemplate) :
    Spared now i (ScheduleService.saveAndRematerialize t template) :=
  (spares_save template).bind fun _ => .bind (fun _ => spares_rematerializeWeeks ht _ _) fun _ => trivial

theorem spares_copyGroups (nextMonday : Int) (source : WeekSnapshotSource) (templates : List ScheduleTemplate)
    (groups : List Nat) :
    Spared now i (ScheduleService.copyGroups nextMonday source templates groups) := by
  induction groups with
  | nil => trivial
  | cons groupId rest ih =>
    refine Prog.OnlyWrites.bind (fun s => ?_) fun _ => ih.bind fun _ => trivial
    show Prog.OnlyWrites _ (Prog.bind (.ret (s.snapshots.find? _)) _)
    cases s.snapshots.find? fun x => x.isOf groupId (utcDay nextMonday) with
    | some x => trivial
    | none =>
      refine (Prog.OnlyWrites.collect _ fun slot _ => spares_createScheduled _).bind fun events id => ⟨trivial, ?_⟩
      rintro (_ | _)
      · trivial
      · intro s
        show Prog.OnlyWrites _ (Prog.bind (.ret (s.snapshotAt id)) _)
        cases s.snapshotAt id with
        | none => trivial
        | some x => exact (spares_createMany events).bind fun _ => trivial

theorem spares_transitionEvent {j : Nat} (hj : j ≠ i) {f : ActivityEvent → Except ScheduleError ActivityEvent}
    (hf : ∀ e n, f e = .ok n → n.id = e.id) :
    Spared now i (ScheduleService.transitionEvent j f) := fun s => by
  show Prog.OnlyWrites _ (Prog.bind (Prog.require (s.eventAt j) _) _)
  cases hfound : s.eventAt j with
  | none => trivial
  | some e =>
    show Prog.OnlyWrites _ (Prog.bind (Prog.ofExcept (f e)) _)
    cases hmoved : f e with
    | error x => trivial
    | ok n =>
      have hid : n.id = j := (hf e n hmoved).trans (Table.id_of_find hfound)
      exact ⟨fun he => hj (hid.symm.trans he), fun ok => .guardOr fun _ => spares_require _ _⟩

theorem spares_prog {op : Op} (hnow : now ≤ op.now) (hop : op.event ≠ some i) : Spared now i op.prog := by
  have hne : ∀ {j}, op.event = some j → j ≠ i := fun hj he => hop (hj.trans (congrArg some he))
  cases op with
  | createTemplate t input groupExists =>
    refine Prog.OnlyWrites.bind (.guardOr ?_) fun _ => trivial
    refine (Prog.OnlyWrites.forEach _ fun g _ => ?_).bind fun _ id => .insertOr trivial ?_
    · unfold Prog.guardOr
      split <;> trivial
    · exact (spares_insertSlots _ _).bind fun _ _ => spares_require _ _
  | updateTemplate t j patch =>
    exact .bind (fun _ => .require fun _ => spares_saveAndRematerialize hnow _) fun _ => trivial
  | deleteTemplate t j =>
    refine .bind (fun _ => .require fun _ => .bind ?_ fun _ _ => spares_rematerializeWeeks hnow _ _) fun _ => trivial
    exact ⟨trivial, fun _ _ => .forEach _ fun slot _ => spares_deleteSlot slot.id⟩
  | addSlot t j input =>
    exact .bind (fun _ => .require fun _ _ => .ofExcept fun _ => spares_saveAndRematerialize hnow _) fun _ => trivial
  | updateSlot t j slotId patch =>
    exact .bind (fun _ => .require fun _ => .ofExcept fun _ => spares_saveAndRematerialize hnow _) fun _ => trivial
  | removeSlot t j slotId =>
    exact .bind (fun _ => .require fun _ => .ofExcept fun _ => spares_saveAndRematerialize hnow _) fun _ => trivial
  | copyWeekToNext t fromMonday source groups =>
    exact .bind (fun _ => spares_copyGroups _ _ _ _) fun _ => trivial
  | createAdHocEvent t input groupExists =>
    refine .bind (.guardOr ?_) fun _ => trivial
    exact (spares_createScheduled _).bind fun e => .insertOr trivial fun _ => spares_require _ _
  | updateEvent t j patch =>
    refine .bind (fun s => ?_) fun _ => trivial
    show Prog.OnlyWrites _ (Prog.bind (Prog.require (s.eventAt j) _) _)
    cases hfound : s.eventAt j with
    | none => trivial
    | some e =>
      show Prog.OnlyWrites _ (Prog.bind (Prog.ofExcept (e.reschedule patch)) _)
      cases hn : e.reschedule patch with
      | error x => trivial
      | ok n =>
        have hid : n.id = j := (reschedule_eq_ok hn).2.2.trans (Table.id_of_find hfound)
        refine ⟨fun he => hne rfl (hid.symm.trans he), ?_⟩
        rintro (_ | _)
        · trivial
        · exact fun _ => spares_require _ _
  | deleteEvent t j =>
    exact .bind (fun _ => .require fun _ => .guardOr ⟨hne rfl, fun _ => trivial⟩) fun _ => trivial
  | startEvent t j =>
    exact .bind (spares_transitionEvent (hne rfl) fun e n h => (transition_eq_ok h).2 ▸ rfl) fun _ => trivial
  | completeEvent t j =>
    exact .bind (spares_transitionEvent (hne rfl) fun e n h => (transition_eq_ok h).2 ▸ rfl) fun _ => trivial
  | cancelEvent t j reason =>
    exact .bind (spares_transitionEvent (hne rfl) fun e n h => (cancel_eq_ok h).2 ▸ rfl) fun _ => trivial

end

/-- **What has happened stays.**  However template edits, copies of weeks and requests on other events interleave: an
event that is ahead of none of them is never deleted and keeps all its columns but the slot. -/
theorem history_kept {n : Nat} {s : Store} {cs : Interleaving n} {σ : System n} {now : Int} {i : Nat}
    (hops : System.Starts (fun op => now ≤ op.now ∧ op.event ≠ some i) cs) (hrun : run s cs = some σ) :
    s.history now i <+: σ.db.history now i :=
  System.exec_keeps (R := fun s s' : Store => s.history now i <+: s'.history now i) (fun _ => List.prefix_rfl)
    (fun _ _ _ => List.IsPrefix.trans) (fun _ hop => spares_prog hop.1 hop.2) (fun s _ hw => hw.history s) hops hrun

/-- Music on Thursdays and Fridays: the first lesson is being held, the second is ahead. -/
def lessonWeek : Store :=
  ⟨[⟨10, some 3, "Music", "weekly", true, 0, none⟩],
    [⟨20, 10, .thu, 36000, 39600, "Music", .lesson, none, none⟩,
      ⟨21, 10, .fri, 36000, 39600, "Music", .lesson, none, none⟩],
    [⟨1, 3, some 20, .template, "Music", .lesson, none, 36000000, some 39600000, .inProgress, none, none⟩,
      ⟨2, 3, some 21, .template, "Music", .lesson, none, 122400000, some 126000000, .scheduled, none, none⟩],
    [⟨30, 3, -3, .manual⟩]⟩

/-- During the first lesson the template goes. -/
theorem history_kept_lessonWeek : ∃ σ : System 1,
    run lessonWeek (Choice.request 0 (.deleteTemplate 37000000 10) 14 0) = some σ ∧ σ.db.eventAt 2 = none ∧
    lessonWeek.history 37000000 1 <+: σ.db.history 37000000 1 := by
  obtain ⟨σ, hrun, h⟩ := run_shows run lessonWeek (Choice.request (n := 1) 0 (.deleteTemplate 37000000 10) 14 0)
    (fun σ => decide (σ.db.eventAt 2 = none)) (by decide +kernel)
  exact ⟨σ, hrun, of_decide_eq_true h, history_kept (by decide) hrun⟩

end Schedule
