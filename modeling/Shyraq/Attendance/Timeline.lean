import Shyraq.Attendance.Effects

/-!
# The timeline mirrors the events

A live event has one entry, a deleted event none.  Corrections carry the entry along, but an
entry can also be edited or deleted on its own, and a correction that was computed from an old
row leaves the entry where that row was.
-/

namespace Attendance

open Kernel Transactions

/-- The entries whose source is the event. -/
def mirrors (l : List TimelineEntry) (i : Nat) : List TimelineEntry :=
  l.filter fun x => x.sourceEventId == some i

/-- The same child, time and type. -/
def TimelineEntry.Mirrors (x : TimelineEntry) (e : AttendanceEvent) : Prop :=
  x.childId = e.childId ∧ x.entryTime = e.recordedAt ∧ x.entryType = e.eventType.entryType

/-- One entry for a live event, none for a deleted one. -/
def Mirrored (e : AttendanceEvent) : List TimelineEntry → Prop
  | [] => e.deletedAt ≠ none
  | [x] => e.deletedAt = none ∧ x.Mirrors e
  | _ => False

def TimelineMirrors (s : Store) : Prop := ∀ e ∈ s.events, Mirrored e (mirrors s.entries e.id)

instance (x : TimelineEntry) (e : AttendanceEvent) : Decidable (x.Mirrors e) :=
  inferInstanceAs (Decidable (_ ∧ _))

instance (e : AttendanceEvent) : ∀ l, Decidable (Mirrored e l)
  | [] => inferInstanceAs (Decidable (e.deletedAt ≠ none))
  | [x] => inferInstanceAs (Decidable (e.deletedAt = none ∧ x.Mirrors e))
  | _ :: _ :: _ => inferInstanceAs (Decidable False)

instance (s : Store) : Decidable (TimelineMirrors s) :=
  inferInstanceAs (Decidable (∀ e ∈ s.events, Mirrored e (mirrors s.entries e.id)))

/-! ## When a commit keeps the mirror -/

def eventRead (c : AttendanceCommit) (i : Nat) : Option AttendanceEvent :=
  c.tx.seen.head?.bind fun v => v.eventAt i

def entryRead (c : AttendanceCommit) (i : Nat) : Option TimelineEntry :=
  c.tx.seen.head?.bind fun v => v.entryAt i

/-- The event is live.  Unless its type is turned, it has the type that the patch was computed from;
and unless the patch moves it, the child and the time. -/
def PatchKeeps (e before after : AttendanceEvent) : Prop :=
  e.deletedAt = none ∧ (before.eventType = after.eventType → e.eventType = before.eventType ∧
    (before.childId = after.childId ∧ before.recordedAt = after.recordedAt →
      e.childId = before.childId ∧ e.recordedAt = before.recordedAt))

/-- An entry that has a source is not deleted, and is written back with the child and the time that
it has. -/
def MirrorKept (s : Store) (c : AttendanceCommit) : Prop :=
  match c.op.touch with
  | .patch i patch => ∀ e ∈ s.eventAt i, ∀ before ∈ eventRead c i,
      PatchKeeps e before (before.applyPatch patch)
  | .edit i entryTime => ∀ x ∈ s.entryAt i, x.sourceEventId ≠ none → ∀ y ∈ entryRead c i,
      y.childId = x.childId ∧ entryTime.getD y.entryTime = x.entryTime
  | .drop i => c.tx.writes = [] ∨ ∀ x ∈ s.entryAt i, x.sourceEventId = none
  | .other => True

instance (e before after : AttendanceEvent) : Decidable (PatchKeeps e before after) :=
  inferInstanceAs (Decidable (_ ∧ (_ → _ ∧ (_ → _))))

instance (s : Store) (c : AttendanceCommit) : Decidable (MirrorKept s c) := by
  unfold MirrorKept
  split <;> infer_instance

/-! ## Entries by source -/

section

variable {l : List TimelineEntry} {i j k : Nat} {x y : TimelineEntry}

theorem mirrorOf_eq (l : List TimelineEntry) (i : Nat) : mirrorOf l i = (mirrors l i).head? :=
  (List.head?_filter ..).symm

theorem mem_mirrors : x ∈ mirrors l i ↔ x ∈ l ∧ x.sourceEventId = some i := by
  simp [mirrors]

theorem mirrors_append (l : List TimelineEntry) (x : TimelineEntry) (i : Nat) :
    mirrors (l ++ [x]) i = mirrors l i ++ if x.sourceEventId = some i then [x] else [] := by
  unfold mirrors
  rw [List.filter_append, List.filter_singleton]
  by_cases h : x.sourceEventId = some i
  · simp [h]
  · have hb : (x.sourceEventId == some i) = false := by simpa using h
    simp [h, hb]

theorem mirrors_filter (l : List TimelineEntry) (j i : Nat) :
    mirrors (l.filter fun x => x.id != j) i = (mirrors l i).filter fun x => x.id != j := by
  unfold mirrors
  rw [List.filter_filter, List.filter_filter]
  simp only [Bool.and_comm]

theorem mirrors_updateWhere (l : List TimelineEntry) (j : Nat) (x : TimelineEntry) (i : Nat) :
    mirrors (Table.updateWhere l j (fun _ => true) x.saved) i =
      Table.updateWhere (mirrors l i) j (fun _ => true) x.saved := by
  unfold mirrors Table.updateWhere
  rw [List.filter_map]
  refine congrArg _ (List.filter_congr fun q _ => ?_)
  simp only [Function.comp]
  split <;> rfl

theorem mirrors_free (hu : Table.Unique l) (hx : x ∈ mirrors l i) (hk : k ≠ i) : ∀ q ∈ mirrors l k, q.id ≠ x.id := by
  intro q hq he
  obtain ⟨hx, hxi⟩ := mem_mirrors.1 hx
  obtain ⟨hq, hqk⟩ := mem_mirrors.1 hq
  have hsame : q = x := by
    have h₁ := Table.find_of_mem hu hq
    rw [show Row.id q = Row.id x from he, Table.find_of_mem hu hx] at h₁
    exact (Option.some.inj h₁).symm
  rw [hsame, hxi] at hqk
  exact hk (Option.some.inj hqk).symm

theorem updateWhere_free {f : TimelineEntry → TimelineEntry} (h : ∀ q ∈ l, q.id ≠ j) :
    Table.updateWhere l j (fun _ => true) f = l :=
  Table.updateWhere_of_not fun q hq he => absurd he (h q hq)

theorem filter_free (h : ∀ q ∈ l, q.id ≠ j) : (l.filter fun q => q.id != j) = l :=
  List.filter_eq_self.2 fun q hq => by simpa using h q hq

end

theorem mirrored_saved (a e : AttendanceEvent) (l : List TimelineEntry) : Mirrored (a.saved e) l ↔ Mirrored a l := by
  match l with
  | [] => exact Iff.rfl
  | [x] => exact Iff.rfl
  | _ :: _ :: _ => exact Iff.rfl

section

variable {s s' v : Store} {i k : Nat} {e e' : AttendanceEvent}

theorem timelineMirrors_iff (hu : Table.Unique s.events) :
    TimelineMirrors s ↔ ∀ i e, s.eventAt i = some e → Mirrored e (mirrors s.entries i) := by
  constructor
  · intro h i e he
    have hid : e.id = i := Table.id_of_find he
    exact hid ▸ h e (Table.mem_of_find he)
  · exact fun h e he => h e.id e (Table.find_of_mem hu he)

theorem mirrors_at (hu : Table.Unique s.events) (hu' : Table.Unique s'.events) (h : TimelineMirrors s)
    (hk : s'.eventAt k = some e')
    (hother : ∀ i, i ≠ k → s'.eventAt i = s.eventAt i ∧ mirrors s'.entries i = mirrors s.entries i) :
    TimelineMirrors s' ↔ Mirrored e' (mirrors s'.entries k) := by
  rw [timelineMirrors_iff hu'] at *
  rw [timelineMirrors_iff hu] at h
  refine ⟨fun h' => h' k e' hk, fun hk' i e he => ?_⟩
  by_cases hi : i = k
  · subst hi
    obtain rfl : e = e' := Option.some.inj (he.symm.trans hk)
    exact hk'
  · obtain ⟨hevent, hentries⟩ := hother i hi
    rw [hentries]
    exact h i e (hevent.symm.trans he)

theorem Mirrored.cases {l : List TimelineEntry} (h : Mirrored e l) :
    (e.deletedAt ≠ none ∧ l = []) ∨ ∃ x, e.deletedAt = none ∧ x.Mirrors e ∧ l = [x] := by
  match l with
  | [] => exact .inl ⟨h, rfl⟩
  | [x] => exact .inr ⟨x, h.1, h.2, rfl⟩
  | _ :: _ :: _ => exact h.elim

theorem mirror_stable (hv : v.WF ∧ TimelineMirrors v) (hs : s.WF ∧ TimelineMirrors s)
    (hr : Moves [Key.row i] v s) (he : s.eventAt i = some e) :
    (mirrorOf v.entries i = none ∧ e.deletedAt ≠ none ∧ mirrors s.entries i = []) ∨
      ∃ y x, mirrorOf v.entries i = some y ∧ e.deletedAt = none ∧ x.id = y.id ∧ x.Mirrors e ∧
        mirrors s.entries i = [x] := by
  have hlocked : Key.row i ∈ [Key.row i] := List.mem_cons_self
  have hev : v.eventAt i = some e := (hr.eventAt_eq hlocked).symm.trans he
  have hthen := ((timelineMirrors_iff hv.1.events).1 hv.2 i e hev).cases
  have hnow := ((timelineMirrors_iff hs.1.events).1 hs.2 i e he).cases
  rw [mirrorOf_eq]
  rcases hthen with ⟨hdead, hthen⟩ | ⟨y, hlive, -, hthen⟩
  · rcases hnow with ⟨-, hnow⟩ | ⟨x, hlive, -, -⟩
    · exact .inl ⟨by rw [hthen]; rfl, hdead, hnow⟩
    · exact absurd hlive hdead
  · rcases hnow with ⟨hdead, -⟩ | ⟨x, -, hx, hnow⟩
    · exact absurd hlive hdead
    · refine .inr ⟨y, x, by rw [hthen]; rfl, hlive, ?_, hx, hnow⟩
      obtain ⟨hmem, hsource⟩ := mem_mirrors.1 (hnow ▸ List.mem_singleton_self x : x ∈ mirrors s.entries i)
      obtain ⟨y', hy', hid, hi⟩ := hr.mirrors i hlocked x hmem hsource
      have hy : y' ∈ mirrors v.entries i := mem_mirrors.2 ⟨hy', hi⟩
      rw [hthen, List.mem_singleton] at hy
      rw [← hid, hy]

theorem not_gone {D : Discipline Store Key Write} (hD : ∀ held s s', D.rely held s s' → Moves held s s')
    (hv : v.WF ∧ TimelineMirrors v) (hev : v.eventAt i = some e) {y : TimelineEntry}
    (hy : mirrorOf v.entries i = some y) : ¬ Gone D (fun s => s.WF ∧ TimelineMirrors s) [Key.row i] v y := by
  rintro ⟨s', hs', hr, hnone⟩
  have hm := hD _ _ _ hr
  have hes : s'.eventAt i = some e := (hm.eventAt_eq List.mem_cons_self).trans hev
  rcases mirror_stable hv hs' hm hes with ⟨hnone', -⟩ | ⟨y', x, hy', -, hid, -, hx⟩
  · rw [hy] at hnone'
    cases hnone'
  · obtain rfl := Option.some.inj (hy'.symm.trans hy)
    obtain ⟨hmem, -⟩ := mem_mirrors.1 (hx ▸ List.mem_singleton_self x : x ∈ mirrors s'.entries i)
    exact Table.find_eq_none.1 hnone x hmem hid

end

/-! ## Commit by commit -/

/-- Every store that a request meets is well formed and mirrored. -/
def Kept (s : Store) : Prop := s.WF ∧ TimelineMirrors s

section

variable {op : Op} {t : Tx Store Key Write} {s : Store} {r : Response}

variable {i : Nat}

theorem eventRead_of_first {before : AttendanceEvent} (h : FirstEvent i before t) :
    eventRead ⟨op, t, r⟩ i = some before := by
  obtain ⟨v, hv, hbefore, -⟩ := h
  simp [eventRead, hv, hbefore]

theorem entryRead_of_first {y : TimelineEntry} (h : FirstEntry i y t) : entryRead ⟨op, t, r⟩ i = some y := by
  obtain ⟨v, hv, hy⟩ := h
  simp [entryRead, hv, hy]

theorem eventAt_corrected {a e : AttendanceEvent} {s' : Store} (ha : a.id = i) (he : s.eventAt i = some e)
    (hevents : s'.events = Table.updateWhere s.events a.id (fun _ => true) a.saved) :
    s'.eventAt i = some (a.saved e) ∧ ∀ k, k ≠ i → s'.eventAt k = s.eventAt k := by
  unfold Store.eventAt at he ⊢
  rw [hevents, ha]
  refine ⟨?_, fun k hk => Table.find_updateWhere_of_ne (fun _ => rfl) hk⟩
  rw [Table.find_updateWhere s.events i (fun _ => true) a.saved fun _ => rfl, he]
  simp

theorem entryType_inj {a b : AttendanceEventType} (h : a.entryType = b.entryType) : a = b := by
  cases a <;> cases b <;> first | rfl | cases h

variable {D : Discipline Store Key Write}

theorem patched_iff (hD : ∀ held s s', D.rely held s s' → Moves held s s') (hs : Kept s)
    {patch : UpdateAttendanceEventPatch} {before e : AttendanceEvent} {ws sw : List Write}
    (hid : before.id = i) (he : s.eventAt i = some e)
    (hc : ∃ v, Kept v ∧ D.rely [Key.row i] v s ∧ Cascades before (before.applyPatch patch)
      (mirrorOf v.entries i) (Gone D Kept [Key.row i] v) ws) (hlive : before.deletedAt = none) (hwf : (t.view s).WF)
    (hw : t.writes = .updateEvent (before.applyPatch patch) :: (ws ++ sw)) (hsw : ∀ w ∈ sw, w.IsStatus) :
    TimelineMirrors (t.view s) ↔ PatchKeeps e before (before.applyPatch patch) := by
  obtain ⟨v, hv, hr, hc⟩ := hc
  have hm := hD _ _ _ hr
  have hev : v.eventAt i = some e := (hm.eventAt_eq List.mem_cons_self).symm.trans he
  obtain ⟨hafter, hothers⟩ := eventAt_corrected (a := before.applyPatch patch) hid he
    (events_corrected hw hc.noEvent hsw s)
  have hentries := entries_corrected hw hsw s
  have hdone : (before.applyPatch patch).deletedAt = none := hlive
  -- what is left to show of the entries
  have hreduce : (∀ k, k ≠ i → mirrors (t.view s).entries k = mirrors s.entries k) →
      (TimelineMirrors (t.view s) ↔
        Mirrored (before.applyPatch patch) (mirrors (t.view s).entries i)) := fun h =>
    (mirrors_at hs.1.events hwf.events hs.2 hafter fun k hk => ⟨hothers k hk, h k hk⟩).trans
      (mirrored_saved _ _ _)
  rcases mirror_stable hv hs hm he with ⟨hnone, hdead, hnow⟩ | ⟨y, x, hy, halive, hxy, hx, hnow⟩
  · rw [hnone] at hc
    have hsame : (t.view s).entries = s.entries := by
      rw [hentries]
      cases hc with
      | unmirrored _ => rfl
      | kept _ h _ _ => cases h
      | moved _ h _ _ => cases h
      | replaced _ _ h _ => cases h
      | added _ _ h _ _ => cases h
    rw [hreduce fun k _ => by rw [hsame], hsame, hnow]
    exact iff_of_false (fun h => h hdone) fun h => hdead h.1
  · have hmem : x ∈ mirrors s.entries i := hnow ▸ List.mem_singleton_self x
    have hfree : ∀ k, k ≠ i → ∀ q ∈ mirrors s.entries k, q.id ≠ y.id := fun k hk =>
      hxy ▸ mirrors_free hs.1.entries hmem hk
    rw [hy] at hc
    cases hc with
    | unmirrored h => cases h
    | kept y' h htype hsame =>
      have hsame' : (t.view s).entries = s.entries := hentries
      rw [hreduce fun k _ => by rw [hsame'], hsame', hnow]
      constructor
      · rintro ⟨-, hchild, htime, hentry⟩
        refine ⟨halive, fun _ => ⟨entryType_inj ?_, fun _ => ⟨?_, ?_⟩⟩⟩
        · rw [← hx.2.2, hentry, htype]
        · rw [← hx.1, hchild, hsame.1]
        · rw [← hx.2.1, htime, hsame.2]
      · rintro ⟨-, h⟩
        obtain ⟨h₁, h₂⟩ := h htype
        obtain ⟨h₂, h₃⟩ := h₂ hsame
        refine ⟨hdone, ?_, ?_, ?_⟩
        · rw [hx.1, h₂, hsame.1]
        · rw [hx.2.1, h₃, hsame.2]
        · rw [hx.2.2, h₁, htype]
    | moved y' h htype hmoved =>
      obtain rfl : y = y' := Option.some.inj h
      have hpost : ∀ k, mirrors (t.view s).entries k = Table.updateWhere (mirrors s.entries k) y.id
          (fun _ => true) (y.applyPatch ⟨none, none, none, none, some (before.applyPatch patch).recordedAt,
            some (before.applyPatch patch).childId⟩).saved := fun k => by
        rw [hentries]
        exact mirrors_updateWhere s.entries y.id _ k
      rw [hreduce fun k hk => (hpost k).trans (updateWhere_free (hfree k hk)), hpost, hnow]
      have hone : ∀ f : TimelineEntry → TimelineEntry,
          Table.updateWhere [x] y.id (fun _ => true) f = [f x] := by
        intro f
        simp [Table.updateWhere, show Row.id x = y.id from hxy]
      rw [hone]
      constructor
      · rintro ⟨-, -, -, hentry⟩
        refine ⟨halive, fun _ => ⟨entryType_inj ?_, fun hsame => absurd hsame hmoved⟩⟩
        have hentry : x.entryType = (before.applyPatch patch).eventType.entryType := hentry
        rw [← hx.2.2, hentry, htype]
      · rintro ⟨-, h⟩
        refine ⟨hdone, rfl, rfl, ?_⟩
        show x.entryType = _
        rw [hx.2.2, (h htype).1, htype]
    | replaced y' j h htype =>
      obtain rfl : y = y' := Option.some.inj h
      have hsource : (mirrorEntry j (before.applyPatch patch) y.recordedBy).sourceEventId = some i :=
        congrArg some hid
      have hpost : ∀ k, mirrors (t.view s).entries k = ((mirrors s.entries k).filter fun q => q.id != y.id) ++
          if some i = some k then [mirrorEntry j (before.applyPatch patch) y.recordedBy] else [] := by
        intro k
        rw [hentries, ← hsource, ← mirrors_filter, ← mirrors_append]
        rfl
      have hother : ∀ k, k ≠ i → mirrors (t.view s).entries k = mirrors s.entries k := by
        intro k hk
        have hne : ¬ some i = some k := fun he => hk (Option.some.inj he).symm
        rw [hpost, filter_free (hfree k hk), if_neg hne, List.append_nil]
      rw [hreduce hother, hpost, if_pos rfl, hnow]
      have hgone : ([x].filter fun q => q.id != y.id) = [] := by simp [hxy]
      rw [hgone]
      exact iff_of_true ⟨hdone, rfl, rfl, rfl⟩ ⟨halive, fun h => absurd h htype⟩
    | added y' j h htype hgone =>
      obtain rfl : y = y' := Option.some.inj h
      exact absurd hgone (not_gone hD hv hev hy)

theorem deleted_mirrors (hD : ∀ held s s', D.rely held s s' → Moves held s s') (hs : Kept s)
    {a : AttendanceEvent} {ws sw : List Write} (hdead : a.deletedAt ≠ none) (hthere : (s.eventAt a.id).isSome = true)
    (hc : ∃ v, Kept v ∧ D.rely [Key.row a.id] v s ∧
      Unmirrors (mirrorOf v.entries a.id) (Gone D Kept [Key.row a.id] v) ws)
    (hwf : (t.view s).WF) (hw : t.writes = .updateEvent a :: (ws ++ sw)) (hsw : ∀ w ∈ sw, w.IsStatus) :
    TimelineMirrors (t.view s) := by
  obtain ⟨v, hv, hr, hc⟩ := hc
  have hm := hD _ _ _ hr
  obtain ⟨e, he⟩ := Option.isSome_iff_exists.1 hthere
  have hev : v.eventAt a.id = some e := (hm.eventAt_eq List.mem_cons_self).symm.trans he
  obtain ⟨hafter, hothers⟩ := eventAt_corrected rfl he (events_corrected hw hc.noEvent hsw s)
  have hentries := entries_corrected hw hsw s
  have hreduce : (∀ k, k ≠ a.id → mirrors (t.view s).entries k = mirrors s.entries k) →
      mirrors (t.view s).entries a.id = [] → TimelineMirrors (t.view s) := by
    intro h hnone
    refine (mirrors_at hs.1.events hwf.events hs.2 hafter fun k hk => ⟨hothers k hk, h k hk⟩).2 ?_
    rw [hnone]
    exact hdead
  rcases mirror_stable hv hs hm he with ⟨hnone, -, hnow⟩ | ⟨y, x, hy, -, hxy, -, hnow⟩
  · rw [hnone] at hc
    have hsame : (t.view s).entries = s.entries := by
      rw [hentries]
      cases hc with
      | unmirrored _ => rfl
      | removed _ h => cases h
      | late _ h _ => cases h
    exact hreduce (fun k _ => by rw [hsame]) (by rw [hsame, hnow])
  · have hmem : x ∈ mirrors s.entries a.id := hnow ▸ List.mem_singleton_self x
    rw [hy] at hc
    cases hc with
    | unmirrored h => cases h
    | removed y' h =>
      obtain rfl : y = y' := Option.some.inj h
      have hpost : ∀ k, mirrors (t.view s).entries k =
          (mirrors s.entries k).filter fun q => q.id != y.id := by
        intro k
        rw [hentries, ← mirrors_filter]
        rfl
      refine hreduce (fun k hk => ?_) ?_
      · rw [hpost, filter_free (hxy ▸ mirrors_free hs.1.entries hmem hk)]
      · rw [hpost, hnow]
        simp [hxy]
    | late y' h hgone =>
      obtain rfl : y = y' := Option.some.inj h
      exact absurd hgone (not_gone hD hv hev hy)

theorem recorded_mirrors (hs : Kept s) {event : AttendanceEvent} {j : Nat} {by' : Option Nat}
    {sw : List Write} (hlive : event.deletedAt = none) (hnew : Unused event (mirrorEntry j event by') s)
    (hwf : (t.view s).WF) (hw : t.writes = .insertEvent event :: .insertEntry (mirrorEntry j event by') :: sw)
    (hsw : ∀ w ∈ sw, w.IsStatus) : TimelineMirrors (t.view s) := by
  have hevents : (t.view s).events = s.events ++ [event] := by
    rw [events_view, hw, List.foldl_cons, List.foldl_cons, foldl_events_status hsw]
    rfl
  have hpost : ∀ k, mirrors (t.view s).entries k = mirrors s.entries k ++
      if some event.id = some k then [mirrorEntry j event by'] else [] := by
    intro k
    rw [entries_view, hw, List.foldl_cons, List.foldl_cons, foldl_entries_status hsw]
    exact mirrors_append s.entries (mirrorEntry j event by') k
  have hadded : Table.Added s.events (s.events ++ [event]) event := .append hnew.1
  have hself : (t.view s).eventAt event.id = some event := by
    unfold Store.eventAt
    rw [hevents, hadded.after]
    exact if_pos rfl
  refine (mirrors_at hs.1.events hwf.events hs.2 hself fun k hk => ⟨?_, ?_⟩).2 ?_
  · unfold Store.eventAt
    rw [hevents, hadded.after]
    exact if_neg hk
  · rw [hpost, if_neg fun he => hk (Option.some.inj he).symm, List.append_nil]
  · -- no entry can have had a source that did not exist
    have hnone : mirrors s.entries event.id = [] := by
      rw [List.eq_nil_iff_forall_not_mem]
      intro x hx
      obtain ⟨hmem, hsource⟩ := mem_mirrors.1 hx
      have := hs.1.sources x hmem event.id hsource
      rw [hnew.1] at this
      cases this
    rw [hpost, hnone, if_pos rfl]
    exact ⟨hlive, rfl, rfl, rfl⟩

theorem mirrored_entry (hs : Kept s) {x : TimelineEntry} {k : Nat} (hx : s.entryAt i = some x)
    (hk : x.sourceEventId = some k) :
    ∃ e, s.eventAt k = some e ∧ e.deletedAt = none ∧ x.Mirrors e ∧ mirrors s.entries k = [x] := by
  have hmem := Table.mem_of_find hx
  obtain ⟨e, he⟩ := Option.isSome_iff_exists.1 (hs.1.sources x hmem k hk)
  have hin : x ∈ mirrors s.entries k := mem_mirrors.2 ⟨hmem, hk⟩
  rcases ((timelineMirrors_iff hs.1.events).1 hs.2 k e he).cases with ⟨-, hnone⟩ | ⟨q, hlive, hq, hone⟩
  · rw [hnone] at hin
    cases hin
  · rw [hone, List.mem_singleton] at hin
    subst hin
    exact ⟨e, he, hlive, hq, hone⟩

theorem mirrors_same (hs : Kept s) (hwf : (t.view s).WF) (hevents : (t.view s).events = s.events)
    (h : ∀ k, mirrors (t.view s).entries k = mirrors s.entries k) : TimelineMirrors (t.view s) := by
  rw [timelineMirrors_iff hwf.events]
  intro i e he
  rw [h]
  unfold Store.eventAt at he
  rw [hevents] at he
  exact (timelineMirrors_iff hs.1.events).1 hs.2 i e he

theorem free_of_unsourced (hs : Kept s) {x : TimelineEntry} (hx : s.entryAt i = some x)
    (hsource : x.sourceEventId = none) (k : Nat) : ∀ q ∈ mirrors s.entries k, q.id ≠ i := by
  intro q hq he
  obtain ⟨hmem, hqk⟩ := mem_mirrors.1 hq
  have hfind := Table.find_of_mem hs.1.entries hmem
  rw [show Row.id q = i from he] at hfind
  obtain rfl : q = x := Option.some.inj (hfind.symm.trans hx)
  rw [hsource] at hqk
  cases hqk

theorem free_of_absent (hx : s.entryAt i = none) (k : Nat) : ∀ q ∈ mirrors s.entries k, q.id ≠ i :=
  fun q hq => Table.find_eq_none.1 hx q (mem_mirrors.1 hq).1

theorem edited_iff (hs : Kept s) {entryTime : Option Int} {y x : TimelineEntry} (hid : x.id = i)
    (hchild : x.childId = y.childId) (htime : x.entryTime = entryTime.getD y.entryTime)
    (hwf : (t.view s).WF) (hw : t.writes = [.updateEntry x]) :
    TimelineMirrors (t.view s) ↔ ∀ q ∈ s.entryAt i, q.sourceEventId ≠ none →
      y.childId = q.childId ∧ entryTime.getD y.entryTime = q.entryTime := by
  have hevents : (t.view s).events = s.events := by
    rw [events_view, hw]
    rfl
  have hpost : ∀ k, mirrors (t.view s).entries k =
      Table.updateWhere (mirrors s.entries k) i (fun _ => true) x.saved := by
    intro k
    rw [entries_view, hw, ← hid]
    exact mirrors_updateWhere s.entries x.id x k
  cases hq : s.entryAt i with
  | none =>
    refine iff_of_true (mirrors_same hs hwf hevents fun k => ?_) fun _ h => by cases h
    rw [hpost, updateWhere_free (free_of_absent hq k)]
  | some q =>
    cases hsource : q.sourceEventId with
    | none =>
      refine iff_of_true (mirrors_same hs hwf hevents fun k => ?_) ?_
      · rw [hpost, updateWhere_free (free_of_unsourced hs hq hsource k)]
      · rintro _ ⟨⟩ hne
        exact absurd hsource hne
    | some k =>
      obtain ⟨e, he, hlive, hm, hone⟩ := mirrored_entry hs hq hsource
      have hself : (t.view s).eventAt k = some e := by
        unfold Store.eventAt
        rw [hevents]
        exact he
      have hqi : Row.id q = i := Table.id_of_find hq
      have hmem : q ∈ mirrors s.entries k := hone ▸ List.mem_singleton_self q
      rw [mirrors_at hs.1.events hwf.events hs.2 hself fun k' hk' => ⟨?_, ?_⟩]
      · rw [hpost, hone]
        have hupdated : Table.updateWhere [q] i (fun _ => true) x.saved = [x.saved q] := by
          simp [Table.updateWhere, hqi]
        rw [hupdated]
        constructor
        · rintro ⟨-, hc, ht, -⟩ q' ⟨⟩ -
          have hc : x.childId = e.childId := hc
          have ht : x.entryTime = e.recordedAt := ht
          exact ⟨by rw [← hchild, hc, hm.1], by rw [← htime, ht, hm.2.1]⟩
        · intro h
          obtain ⟨hc, ht⟩ := h q rfl (by rw [hsource]; exact Option.some_ne_none k)
          refine ⟨hlive, ?_, ?_, hm.2.2⟩
          · show x.childId = _
            rw [hchild, hc, hm.1]
          · show x.entryTime = _
            rw [htime, ht, hm.2.1]
      · unfold Store.eventAt
        rw [hevents]
      · rw [hpost, updateWhere_free (hqi ▸ mirrors_free hs.1.entries hmem hk')]

theorem dropped_iff (hs : Kept s) (hwf : (t.view s).WF) (hw : t.writes = [.deleteEntry i]) :
    TimelineMirrors (t.view s) ↔ ∀ q ∈ s.entryAt i, q.sourceEventId = none := by
  have hevents : (t.view s).events = s.events := by
    rw [events_view, hw]
    rfl
  have hpost : ∀ k, mirrors (t.view s).entries k = (mirrors s.entries k).filter fun q => q.id != i := by
    intro k
    rw [entries_view, hw, ← mirrors_filter]
    rfl
  cases hq : s.entryAt i with
  | none =>
    refine iff_of_true (mirrors_same hs hwf hevents fun k => ?_) fun _ h => by cases h
    rw [hpost, filter_free (free_of_absent hq k)]
  | some q =>
    cases hsource : q.sourceEventId with
    | none =>
      refine iff_of_true (mirrors_same hs hwf hevents fun k => ?_) ?_
      · rw [hpost, filter_free (free_of_unsourced hs hq hsource k)]
      · rintro _ ⟨⟩
        exact hsource
    | some k =>
      obtain ⟨e, he, hlive, -, hone⟩ := mirrored_entry hs hq hsource
      have hself : (t.view s).eventAt k = some e := by
        unfold Store.eventAt
        rw [hevents]
        exact he
      have hqi : q.id = i := Table.id_of_find hq
      refine iff_of_false (fun h => ?_) fun h => ?_
      · have hmirrored := (timelineMirrors_iff hwf.events).1 h k e hself
        have hempty : mirrors (t.view s).entries k = [] := by
          rw [hpost, hone]
          simp [hqi]
        rw [hempty] at hmirrored
        exact hmirrored hlive
      · have hnone := h q rfl
        rw [hsource] at hnone
        cases hnone

/-- **Commit by commit**, for every request. -/
theorem Outcome.mirrorKept_iff {c : AttendanceCommit} (hD : ∀ held s s', D.rely held s s' → Moves held s s')
    (h : Outcome D Kept c.op c.tx s) (hs : Kept s) (hwf : (c.tx.view s).WF) :
    TimelineMirrors (c.tx.view s) ↔ MirrorKept s c := by
  obtain ⟨op, t, r⟩ := c
  unfold MirrorKept
  cases h with
  | recorded event j by' sw hop hlive hnew hw hsw =>
    rw [hop]
    exact iff_of_true (recorded_mirrors hs hlive hnew hwf hw hsw) trivial
  | patched i patch before ws sw hop hid hread hthere hc _ hw hsw =>
    rw [hop]
    obtain ⟨e, he⟩ := Option.isSome_iff_exists.1 hthere
    obtain ⟨v, -, -, hlive⟩ := id hread
    rw [patched_iff hD hs hid he hc hlive hwf hw hsw]
    constructor
    · rintro h e' he' before' hbefore'
      obtain rfl := Option.some.inj (he.symm.trans he')
      obtain rfl := Option.some.inj ((eventRead_of_first hread).symm.trans hbefore')
      exact h
    · exact fun h => h e he before (eventRead_of_first hread)
  | deleted a ws sw hop hdead hthere hc hw hsw =>
    rw [hop]
    exact iff_of_true (deleted_mirrors hD hs hdead hthere hc hwf hw hsw) trivial
  | created x hop hsource hnew hw =>
    rw [hop]
    refine iff_of_true (mirrors_same hs hwf ?_ fun k => ?_) trivial
    · rw [events_view, hw]
      rfl
    · rw [entries_view, hw]
      refine (mirrors_append s.entries x k).trans ?_
      rw [hsource, if_neg (Option.some_ne_none k).symm, List.append_nil]
  | edited i entryTime y x hop hread hid hchild htime hw =>
    rw [hop]
    rw [edited_iff hs hid hchild htime hwf hw]
    constructor
    · rintro h q hq hne y' hy'
      obtain rfl := Option.some.inj ((entryRead_of_first hread).symm.trans hy')
      exact h q hq hne
    · exact fun h q hq hne => h q hq hne y (entryRead_of_first hread)
  | dropped i hop hw =>
    rw [hop]
    rcases hw with hw | hw
    · refine iff_of_true ?_ (.inl hw)
      rw [Tx.view_of_unwritten hw]
      exact hs.2
    · rw [dropped_iff hs hwf hw]
      have hne : t.writes ≠ [] := by
        rw [hw]
        exact List.cons_ne_nil _ _
      exact ⟨.inr, fun h => h.resolve_left hne⟩

end

/-- **The timeline mirrors the events.**  In every run, each live event has its one entry and each
deleted event none after each commit, exactly when every commit meets the condition: patches find
the event live, entries with a source are not deleted and keep their child and time. -/
theorem mirrors_iff {n : Nat} {s : Store} {cs : Schedule n} {σ : System n} (hs : s.WF)
    (hm : TimelineMirrors s) (hrun : run s cs = some σ) :
    Always TimelineMirrors s σ.log ↔ AtEach MirrorKept s σ.log := by
  have hX : ∀ _ : AttendanceError, True := fun _ => trivial
  have hD : ∀ held s s', rowLocks.rely held s s' → Moves held s s' := fun _ _ _ h => h
  have hany : System.Starts (fun _ : Op => True) cs := fun _ _ _ => trivial
  refine System.exec_always_iff (D := rowLocks) (X := fun _ => True) (J := Store.WF)
    (Q := fun op t s _ => Outcome rowLocks Kept op t s ∧ ∀ w ∈ t.writes, Store.keys w ⊆ t.held)
    hs hm (fun op s _ _ => ?_) (fun s c hj _ h => ?_) (fun s c hj hi h => ?_) hany hrun
  · exact (safe_outcome hX hD op).withKeys hX
  · exact ⟨h.1.wf h.2 hj, h.1.guarantee h.2⟩
  · exact h.1.mirrorKept_iff hD ⟨hj, hi⟩ (h.1.wf h.2 hj)

/-! ## An entry edited on its own -/

/-- A check-in with its entry and its status. -/
def checkedInOnce : Store where
  events := [⟨1, 7, .checkIn, .manual, some 90, none, none, none, 1000, none⟩]
  entries := [⟨2, 7, .checkIn, some "Check-in", none, none, none, some 90, 1000, some 1⟩]
  dailyStatuses := [⟨3, 7, 0, .present, none, some 90⟩]

def staffCaller : Caller := ⟨900, some 90⟩

/-- The author moves the entry to an earlier time. -/
def entryMoved : Schedule 1 :=
  Choice.request 0 (.updateEntry 5000 2 staffCaller ⟨none, none, none, none, some 500⟩
    ⟨false, false, false⟩) 4 0

theorem entryMoved_apart : ∃ σ : System 1, checkedInOnce.WF ∧ TimelineMirrors checkedInOnce ∧
    run checkedInOnce entryMoved = some σ ∧ ¬ Always TimelineMirrors checkedInOnce σ.log := by
  obtain ⟨σ, hrun, h⟩ := run_shows run checkedInOnce entryMoved
    (fun σ : System 1 => decide (¬ Always TimelineMirrors checkedInOnce σ.log)) (by decide +kernel)
  exact ⟨σ, by decide, by decide, hrun, of_decide_eq_true h⟩

/-- The title of the entry, then another time of the event, then the event is deleted. -/
def entryTitled : Schedule 1 :=
  Choice.request 0 (.updateEntry 5000 2 staffCaller ⟨some (some "Arrived"), none, none, none, none⟩
      ⟨false, false, false⟩) 4 0 ++
    Choice.request 0 (.patchEvent 5000 1 staffCaller ⟨some 2000, none, none, none, none⟩ ⟨true, true⟩
      true true) 11 0 ++
    Choice.request 0 (.deleteEvent 6000 1 staffCaller) 10 0

theorem mirrors_iff_entryTitled : ∃ σ : System 1, run checkedInOnce entryTitled = some σ ∧
    σ.log.length = 3 ∧ Always TimelineMirrors checkedInOnce σ.log := by
  obtain ⟨σ, hrun, h⟩ := run_shows run checkedInOnce entryTitled
    (fun σ : System 1 => decide (AtEach MirrorKept checkedInOnce σ.log) && σ.log.length == 3)
    (by decide +kernel)
  simp only [Bool.and_eq_true, decide_eq_true_eq, beq_iff_eq] at h
  exact ⟨σ, hrun, h.2, (mirrors_iff (by decide) (by decide) hrun).2 h.1⟩

end Attendance
