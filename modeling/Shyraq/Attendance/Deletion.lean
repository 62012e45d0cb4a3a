import Shyraq.Attendance.DailyStatus
import Shyraq.Attendance.Timeline

/-!
# Deleted events

Corrections and deletions of one event, interleaved.  A patch writes the row back as it has read
it, its `deleted_at` with it: read before a deletion and written after it, it brings the event back.
-/

namespace Attendance

open Kernel Transactions

/-- A request to correct or to delete this event. -/
def Op.Corrects (i : Nat) : Op → Prop
  | .patchEvent _ j .. | .deleteEvent _ j _ => j = i
  | _ => False

def Op.deletes : Op → Bool
  | .deleteEvent .. => true
  | _ => false

def Store.live (s : Store) (i : Nat) : Bool := (s.eventAt i).any fun e => e.deletedAt.isNone

/-- The event is deleted, has no entry, and its day has the status that the remaining check-ins
give it. -/
def DeletionSettled (i : Nat) (s : Store) : Prop :=
  ∃ e ∈ s.eventAt i, e.deletedAt ≠ none ∧ mirrors s.entries i = [] ∧
    s.statusAt e.childId e.day = refreshed (s.checkedIn e.childId e.day) (s.statusAt e.childId e.day)

instance (i : Nat) (s : Store) : Decidable (DeletionSettled i s) :=
  inferInstanceAs (Decidable (∃ e ∈ s.eventAt i, _ ∧ _ ∧ _))

/-- From its first deletion on. -/
def StaysDeleted (i : Nat) (s : Store) (log : List AttendanceCommit) : Prop :=
  ∀ p, p <+: log → (∃ c ∈ p, c.op.deletes = true) → DeletionSettled i (replay s p)

/-- A patch finds the event live. -/
def PatchFindsLive (i : Nat) (s : Store) (c : AttendanceCommit) : Prop :=
  match c.op with
  | .patchEvent .. => s.live i = true
  | _ => True

instance (i : Nat) (s : Store) (c : AttendanceCommit) : Decidable (PatchFindsLive i s c) := by
  unfold PatchFindsLive
  split <;> infer_instance

/-! ## No event has two entries -/

section

variable {l : List TimelineEntry} {s : Store} {i : Nat}

theorem mirrors_withoutMirror (hs : s.SingleMirrors) (i : Nat) : mirrors (withoutMirror s.entries i) i = [] := by
  unfold withoutMirror
  cases hx : mirrorOf s.entries i with
  | none =>
    rw [mirrorOf_eq, List.head?_eq_none_iff] at hx
    exact hx
  | some x =>
    rw [mirrorOf_eq] at hx
    obtain ⟨hmem, hsource⟩ := mem_mirrors.1 (List.mem_of_mem_head? hx)
    rw [mirrors_filter, List.filter_eq_nil_iff]
    intro q hq
    obtain ⟨hq, hqi⟩ := mem_mirrors.1 hq
    rw [hs q hq x hmem i hqi hsource]
    simp

/-- `SingleMirrors` of the table alone. -/
def SingleSources (l : List TimelineEntry) : Prop :=
  ∀ x ∈ l, ∀ y ∈ l, ∀ i, x.sourceEventId = some i → y.sourceEventId = some i → x = y

theorem SingleSources.sublist {l' : List TimelineEntry} (h : SingleSources l) (hl : ∀ x ∈ l', x ∈ l) :
    SingleSources l' := fun x hx y hy => h x (hl x hx) y (hl y hy)

theorem SingleSources.append (h : SingleSources l) {x : TimelineEntry}
    (hx : ∀ i, x.sourceEventId = some i → mirrors l i = []) : SingleSources (l ++ [x]) := by
  have hnot : ∀ y ∈ l, ∀ i, y.sourceEventId = some i → x.sourceEventId ≠ some i := by
    intro y hy i hyi hxi
    have hmem : y ∈ mirrors l i := mem_mirrors.2 ⟨hy, hyi⟩
    rw [hx i hxi] at hmem
    cases hmem
  intro y hy z hz i hyi hzi
  rcases List.mem_append.1 hy with hy | hy
  · rcases List.mem_append.1 hz with hz | hz
    · exact h y hy z hz i hyi hzi
    · rw [List.mem_singleton.1 hz] at hzi
      exact absurd hzi (hnot y hy i hyi)
  · rcases List.mem_append.1 hz with hz | hz
    · rw [List.mem_singleton.1 hy] at hyi
      exact absurd hyi (hnot z hz i hzi)
    · rw [List.mem_singleton.1 hy, List.mem_singleton.1 hz]

theorem SingleSources.update (h : SingleSources l) (j : Nat) (x : TimelineEntry) :
    SingleSources (Table.updateWhere l j (fun _ => true) x.saved) := by
  have hrow : ∀ y ∈ Table.updateWhere l j (fun _ => true) x.saved, ∃ q ∈ l,
      q.sourceEventId = y.sourceEventId ∧ y = if Row.id q = j ∧ true = true then x.saved q else q := by
    intro y hy
    obtain ⟨q, hq, rfl⟩ := List.mem_map.1 hy
    refine ⟨q, hq, ?_, by simp⟩
    split <;> rfl
  intro y hy z hz i hyi hzi
  obtain ⟨q, hq, hqy, rfl⟩ := hrow y hy
  obtain ⟨r, hr, hrz, rfl⟩ := hrow z hz
  rw [h q hq r hr i (hqy.trans hyi) (hrz.trans hzi)]

variable {D : Discipline Store Key Write} {J : Store → Prop} {op : Op} {t : Tx Store Key Write}

/-- No request gives an event a second entry, as long as nothing moves under a patch. -/
theorem Outcome.singleMirrors (h : Outcome D J op t s)
    (hstill : ∀ i patch, op.touch = .patch i patch → ∀ v v', D.rely [Key.row i] v v' → v' = v)
    (hs : s.WF) (hm : s.SingleMirrors) : (t.view s).SingleMirrors := by
  have hm : SingleSources s.entries := hm
  show SingleSources (t.view s).entries
  cases h with
  | recorded event j by' sw _ _ hnew hw hsw =>
    rw [entries_view, hw, List.foldl_cons, List.foldl_cons, foldl_entries_status hsw]
    refine SingleSources.append hm fun i hi => ?_
    obtain rfl : event.id = i := Option.some.inj hi
    rw [List.eq_nil_iff_forall_not_mem]
    intro x hx
    obtain ⟨hmem, hsource⟩ := mem_mirrors.1 hx
    have hsome := hs.sources x hmem event.id hsource
    rw [hnew.1] at hsome
    cases hsome
  | patched i patch before ws sw hop hid _ _ hc _ hw hsw =>
    obtain ⟨v, -, hr, hc⟩ := hc
    have hmove := hstill i patch hop
    obtain rfl : s = v := hmove v s hr
    rw [entries_corrected hw hsw]
    cases hc with
    | unmirrored _ => exact hm
    | kept _ _ _ _ => exact hm
    | moved _ _ _ _ => exact hm.update _ _
    | replaced y j hy _ =>
      refine SingleSources.append (hm.sublist fun x hx => (List.mem_filter.1 hx).1) fun k hk => ?_
      obtain rfl : i = k := hid.symm.trans (Option.some.inj hk)
      have hnone := mirrors_withoutMirror hm i
      unfold withoutMirror at hnone
      rw [hy] at hnone
      exact hnone
    | added y j hy _ hgone =>
      obtain ⟨s', -, hr', hnone⟩ := hgone
      obtain rfl : s' = s := hmove s s' hr'
      have hmem : y ∈ s'.entries := List.mem_of_find?_eq_some hy
      exact absurd rfl (Table.find_eq_none.1 hnone y hmem)
  | deleted a ws sw _ _ _ hc hw hsw =>
    obtain ⟨_, _, _, hc⟩ := hc
    rw [entries_corrected hw hsw]
    cases hc with
    | unmirrored _ => exact hm
    | removed _ _ => exact hm.sublist fun x hx => (List.mem_filter.1 hx).1
    | late _ _ _ => exact hm
  | created x _ hsource _ hw =>
    rw [entries_view, hw]
    refine SingleSources.append hm fun i hi => ?_
    rw [hsource] at hi
    cases hi
  | edited _ _ _ x _ _ _ _ _ hw =>
    rw [entries_view, hw]
    exact hm.update _ _
  | dropped _ _ hw =>
    rw [entries_view]
    rcases hw with hw | hw
    · rw [hw]
      exact hm
    · rw [hw]
      exact hm.sublist fun x hx => (List.mem_filter.1 hx).1

end

/-! ## What the two requests leave -/

/-- Nothing moves while the event is held. -/
def eventLock (i : Nat) : Discipline Store Key Write where
  rely held s s' := Moves held s s' ∧ (Key.row i ∈ held → s' = s)
  refl held s := ⟨rowLocks.refl held s, fun _ => rfl⟩
  trans h₁ h₂ := ⟨rowLocks.trans h₁.1 h₂.1, fun hk => (h₂.2 hk).trans (h₁.2 hk)⟩
  mono hh h := ⟨rowLocks.mono hh h.1, fun hk => h.2 (hh hk)⟩

def Op.Settles (i : Nat) (t : Tx Store Key Write) (s : Store) : Op → Prop
  | .patchEvent _ _ _ patch .. => PatchSettles (eventLock i) i patch t s
  | .deleteEvent .. => DeleteSettles (eventLock i) i t s
  | _ => False

section

variable {i : Nat} {J : Store → Prop} {X : AttendanceError → Prop} {op : Op} {t : Tx Store Key Write}
  {s v : Store}

theorem safe_corrects (hX : ∀ e, X e) (hop : op.Corrects i) :
    Prog.Safe (eventLock i) J X (fun t s _ => op.Settles i t s) op.prog Tx.start s := by
  have hstill : ∀ held s s', Key.row i ∈ held → (eventLock i).rely held s s' → s' = s :=
    fun _ _ _ hk h => h.2 hk
  cases op with
  | patchEvent now j caller patch opts found allowed =>
    obtain rfl : j = i := hop
    exact safe_patch_settles hX hstill now caller patch opts found allowed
  | deleteEvent now j caller =>
    obtain rfl : j = i := hop
    exact safe_delete_settles hX hstill now caller
  | _ => exact hop.elim

theorem live_iff : s.live i = true ↔ ∃ e, s.eventAt i = some e ∧ e.deletedAt = none := by
  unfold Store.live
  simp [Option.any_eq_true]

theorem not_live_of_settled (h : DeletionSettled i s) : ¬ s.live i = true := by
  rintro hlive
  obtain ⟨e, he, hdead, -⟩ := h
  obtain ⟨e', he', halive⟩ := live_iff.1 hlive
  obtain rfl : e = e' := Option.some.inj (he.symm.trans he')
  exact hdead halive

theorem eventAt_written {a : AttendanceEvent} (hr : Moves [] v s) (hv : (v.eventAt i).isSome = true)
    (hevents : (t.view s).events = Table.updateWhere s.events i (fun _ => true) a.saved) :
    ∃ e, s.eventAt i = some e ∧ (t.view s).eventAt i = some (a.saved e) := by
  obtain ⟨before, hbefore⟩ := Option.isSome_iff_exists.1 hv
  obtain ⟨e, he, -⟩ := hr.events.row i before hbefore
  refine ⟨e, he, ?_⟩
  unfold Store.eventAt
  rw [hevents, Table.find_updateWhere s.events i (fun _ => true) a.saved fun _ => rfl, he]
  simp

theorem PatchSettles.live {patch : UpdateAttendanceEventPatch} (h : PatchSettles (eventLock i) i patch t s) :
    (t.view s).live i = true := by
  obtain ⟨-, v, before, hr, hv, hlive, hevents, -⟩ := h
  obtain ⟨e, -, he⟩ := eventAt_written hr.1 (Option.isSome_of_mem hv) hevents
  exact live_iff.2 ⟨_, he, hlive⟩

theorem DeleteSettles.settled (h : DeleteSettles (eventLock i) i t s) (hm : s.SingleMirrors) :
    DeletionSettled i (t.view s) := by
  obtain ⟨-, hentries, v, before, now, hr, hv, hlive, hevents, hstatus⟩ := h
  obtain ⟨e, -, he⟩ := eventAt_written hr.1 (Option.isSome_of_mem hv) hevents
  refine ⟨_, he, ?_, ?_, ?_⟩
  · simp [AttendanceEvent.saved, AttendanceEvent.softDelete, hlive]
  · rw [hentries]
    exact mirrors_withoutMirror hm i
  · -- the day is that of the row as it was read
    show (t.view s).statusAt before.childId before.day =
      refreshed ((t.view s).checkedIn before.childId before.day) ((t.view s).statusAt before.childId before.day)
    rw [hstatus, if_pos List.mem_cons_self, refreshed_idem]

theorem Op.Settles.held (h : op.Settles i t s) : Key.row i ∈ t.held := by
  cases op with
  | patchEvent => exact PatchSettles.held h
  | deleteEvent => exact DeleteSettles.held h
  | _ => exact h.elim

end

/-! ## Every interleaving -/

theorem no_commit_of_dead {n i : Nat} {s : Store} {cs : Schedule n} {σ : System n} (hdead : s.live i = false)
    (hops : System.Starts (Op.Corrects i) cs) (hrun : run s cs = some σ) : σ.log = [] := by
  have hX : ∀ _ : AttendanceError, True := fun _ => trivial
  have habsurd : ∀ {v : Store} {before : AttendanceEvent}, v.live i = false → v.eventAt i = some before →
      before.deletedAt = none → False := by
    intro v before hv hbefore hlive
    rw [live_iff.2 ⟨before, hbefore, hlive⟩] at hv
    cases hv
  have hchain := System.exec_chain (D := .serial) (J := fun s => s.live i = false) (X := fun _ => True)
    (Q := fun _ _ _ (_ : Response) => False) hdead (fun op s hop _ => ?_) (fun _ _ _ _ _ h => h.elim)
    (fun _ _ _ _ _ h => h.elim) hops hrun
  · generalize σ.log = log, σ.db = db at hchain ⊢
    cases hchain with
    | nil => rfl
    | snoc _ h => exact h.2.elim
  · cases op with
    | patchEvent now j caller patch opts found allowed =>
      obtain rfl : j = i := hop
      exact safe_patch hX fun v before staff hv hbefore hlive _ => (habsurd hv hbefore hlive).elim
    | deleteEvent now j caller =>
      obtain rfl : j = i := hop
      exact safe_softDelete hX fun v before staff hv hbefore hlive => (habsurd hv hbefore hlive).elim
    | _ => exact hop.elim

/-- What is known of each commit. -/
def Corrected (i : Nat) (s : Store) (c : AttendanceCommit) : Prop :=
  s.SingleMirrors ∧ c.op.Settles i c.tx s

theorem corrected_chain {n i : Nat} {s : Store} {cs : Schedule n} {σ : System n} (hs : s.WF)
    (hm : s.SingleMirrors) (hops : System.Starts (Op.Corrects i) cs) (hrun : run s cs = some σ) :
    AtEach (Corrected i) s σ.log := by
  have hX : ∀ _ : AttendanceError, True := fun _ => trivial
  have hD : ∀ held s s', (eventLock i).rely held s s' → Moves held s s' := fun _ _ _ h => h.1
  have hchain := System.exec_chain (D := eventLock i) (J := fun s => s.WF ∧ s.SingleMirrors) (X := fun _ => True)
    (Q := fun op t s (_ : Response) => ((Outcome (eventLock i) (fun s => s.WF ∧ s.SingleMirrors) op t s ∧
      ∀ w ∈ t.writes, Store.keys w ⊆ t.held) ∧ op.Settles i t s) ∧ op.Corrects i)
    ⟨hs, hm⟩ (fun op s hop _ => ?_) (fun op t s _ hj h => ?_) (fun op t s _ hj h => ?_) hops hrun
  · exact (hchain.mono fun s c h => ⟨h.1.2, h.2.1.2⟩).atEach
  · refine Prog.Safe.mono (((safe_outcome hX hD op).withKeys hX).and (safe_corrects hX hop)) ?_
    exact fun _ _ _ _ h => ⟨h, hop⟩
  · obtain ⟨⟨⟨ho, hkeys⟩, -⟩, hop⟩ := h
    refine ⟨ho.wf hkeys hj.1, ho.singleMirrors (fun j patch htouch v v' hr => ?_) hj.1 hj.2⟩
    have hij : j = i := by
      cases op with
      | patchEvent =>
        cases htouch
        exact hop
      | _ => cases htouch
    exact hr.2 (hij ▸ List.mem_cons_self)
  · obtain ⟨⟨⟨ho, hkeys⟩, hsettles⟩, -⟩ := h
    intro held hdisjoint
    exact ⟨ho.guarantee hkeys held hdisjoint, fun hk => absurd hk (hdisjoint hsettles.held)⟩

theorem staysDeleted_snoc {i : Nat} {s : Store} {log : List AttendanceCommit} {c : AttendanceCommit} :
    StaysDeleted i s (log ++ [c]) ↔ StaysDeleted i s log ∧
      ((∃ d ∈ log ++ [c], d.op.deletes = true) → DeletionSettled i (c.tx.view (replay s log))) := by
  constructor
  · intro h
    refine ⟨fun p hp => h p (hp.trans (List.prefix_append _ _)), fun hd => ?_⟩
    rw [← replay_snoc]
    exact h _ List.prefix_rfl hd
  · rintro ⟨h, hlast⟩ p hp hd
    rcases List.prefix_concat_iff.1 hp with rfl | hp
    · rw [replay_snoc]
      exact hlast hd
    · exact h p hp hd

theorem staysDeleted_iff {i : Nat} {s : Store} {log : List AttendanceCommit} (hlive : s.live i = true)
    (h : AtEach (Corrected i) s log) : (StaysDeleted i s log ↔ AtEach (PatchFindsLive i) s log) ∧
      ((∀ c ∈ log, ¬ c.op.deletes = true) → (replay s log).live i = true) := by
  induction log using List.reverseRecOn with
  | nil =>
    refine ⟨iff_of_true (fun p hp hd => ?_) trivial, fun _ => hlive⟩
    obtain ⟨c, hc, -⟩ := hd
    rw [List.prefix_nil.1 hp] at hc
    cases hc
  | append_singleton log c ih =>
    rw [atEach_snoc] at h
    obtain ⟨hlog, hm, hc⟩ := h
    obtain ⟨ih, hnone⟩ := ih hlog
    rw [staysDeleted_snoc, atEach_snoc, ih]
    obtain ⟨op, t, r⟩ := c
    cases op with
    | patchEvent now j caller patch opts found allowed =>
      have hafter : (t.view (replay s log)).live i = true := PatchSettles.live hc
      refine ⟨and_congr_right fun hall => ?_, fun _ => ?_⟩
      · have hstays := ih.2 hall
        constructor
        · intro hlast
          show (replay s log).live i = true
          refine hnone fun d hd hdel => ?_
          exact not_live_of_settled (hlast ⟨d, List.mem_append_left _ hd, hdel⟩) hafter
        · rintro hfound ⟨d, hd, hdel⟩
          have hfound : (replay s log).live i = true := hfound
          rcases List.mem_append.1 hd with hd | hd
          · exact absurd hfound (not_live_of_settled (hstays log List.prefix_rfl ⟨d, hd, hdel⟩))
          · rw [List.mem_singleton.1 hd] at hdel
            cases hdel
      · rw [replay_snoc]
        exact hafter
    | deleteEvent now j caller =>
      refine ⟨and_congr_right fun _ => ?_, fun hno => ?_⟩
      · exact iff_of_true (fun _ => DeleteSettles.settled hc hm) trivial
      · exact absurd rfl (hno ⟨.deleteEvent now j caller, t, r⟩ (List.mem_append_right _ List.mem_cons_self))
    | _ => exact hc.elim

/-- **A deleted event stays deleted**, without an entry and with the status of its day settled, exactly
when every patch finds the event live at its commit. -/
theorem stays_deleted_iff {n i : Nat} {s : Store} {cs : Schedule n} {σ : System n} (hs : s.WF)
    (hm : s.SingleMirrors) (hops : System.Starts (Op.Corrects i) cs) (hrun : run s cs = some σ) :
    StaysDeleted i s σ.log ↔ AtEach (PatchFindsLive i) s σ.log := by
  cases hlive : s.live i with
  | true => exact (staysDeleted_iff hlive (corrected_chain hs hm hops hrun)).1
  | false =>
    rw [no_commit_of_dead hlive hops hrun]
    refine iff_of_true (fun p hp hd => ?_) trivial
    obtain ⟨c, hc, -⟩ := hd
    rw [List.prefix_nil.1 hp] at hc
    cases hc

/-! ## A patch that has read the event before its deletion -/

def laterTime : UpdateAttendanceEventPatch := ⟨some 2000, none, none, none, none⟩

def patchAfterDeletion : Schedule 2 :=
  .start 0 (.patchEvent 5000 1 staffCaller laterTime ⟨true, true⟩ true true) :: Choice.steps 0 1 0 ++
    Choice.request 1 (.deleteEvent 6000 1 staffCaller) 10 0 ++ Choice.steps 0 8 4

theorem patchAfterDeletion_live : ∃ σ : System 2, checkedInOnce.WF ∧ checkedInOnce.SingleMirrors ∧
    System.Starts (Op.Corrects 1) patchAfterDeletion ∧ run checkedInOnce patchAfterDeletion = some σ ∧
    ¬ StaysDeleted 1 checkedInOnce σ.log := by
  obtain ⟨σ, hrun, h⟩ := run_shows run checkedInOnce patchAfterDeletion
    (fun σ : System 2 => σ.log.any (fun c => c.op.deletes) &&
      decide (¬ DeletionSettled 1 (replay checkedInOnce σ.log))) (by decide +kernel)
  simp only [Bool.and_eq_true, List.any_eq_true, decide_eq_true_eq] at h
  refine ⟨σ, by decide, by decide, ?_, hrun, fun hstays => h.2 (hstays σ.log List.prefix_rfl h.1)⟩
  intro i op hop
  simp [patchAfterDeletion, Choice.request, Choice.steps] at hop
  rcases hop with ⟨-, rfl⟩ | ⟨-, rfl⟩ <;> rfl

/-- Another time, then the deletion. -/
def patchThenDelete : Schedule 2 :=
  Choice.request 0 (.patchEvent 5000 1 staffCaller laterTime ⟨true, true⟩ true true) 11 0 ++
    Choice.request 1 (.deleteEvent 6000 1 staffCaller) 10 0

theorem stays_deleted_iff_patchThenDelete : ∃ σ : System 2, run checkedInOnce patchThenDelete = some σ ∧
    σ.log.length = 2 ∧ StaysDeleted 1 checkedInOnce σ.log := by
  obtain ⟨σ, hrun, h⟩ := run_shows run checkedInOnce patchThenDelete
    (fun σ : System 2 => σ.log.length == 2 && decide (AtEach (PatchFindsLive 1) checkedInOnce σ.log))
    (by decide +kernel)
  simp only [Bool.and_eq_true, beq_iff_eq, decide_eq_true_eq] at h
  refine ⟨σ, hrun, h.1, (stays_deleted_iff (by decide) (by decide) ?_ hrun).2 h.2⟩
  intro i op hop
  simp [patchThenDelete, Choice.request, Choice.steps] at hop
  rcases hop with ⟨-, rfl⟩ | ⟨-, rfl⟩ <;> rfl

end Attendance
