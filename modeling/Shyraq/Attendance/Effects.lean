import Shyraq.Attendance.Rules

/-!
# The writes of each request

`Outcome` is the transaction of a request right before its commit: what it has read, what it
writes.  It holds under every discipline that is at least `rowLocks`.
-/

namespace Attendance

open Kernel Transactions

/-- What a request means for entries that are there already. -/
inductive Touch
  | patch (eventId : Nat) (patch : UpdateAttendanceEventPatch)
  | edit (entryId : Nat) (entryTime : Option Int)
  | drop (entryId : Nat)
  | other

def Op.touch : Op → Touch
  | .patchEvent _ i _ patch _ _ _ => .patch i patch
  | .updateEntry _ i _ dto _ => .edit i dto.entryTime
  | .deleteEntry i _ _ => .drop i
  | _ => .other

/-- The event that the first SELECT has found. -/
def FirstEvent (i : Nat) (before : AttendanceEvent) (t : Tx Store Key Write) : Prop :=
  ∃ v, t.seen.head? = some v ∧ v.eventAt i = some before ∧ before.deletedAt = none

/-- The entry that the first SELECT has found. -/
def FirstEntry (i : Nat) (y : TimelineEntry) (t : Tx Store Key Write) : Prop :=
  ∃ v, t.seen.head? = some v ∧ v.entryAt i = some y

inductive Outcome (D : Discipline Store Key Write) (J : Store → Prop) :
    Op → Tx Store Key Write → Store → Prop
  | recorded {op t s} (event : AttendanceEvent) (j : Nat) (recordedBy : Option Nat) (sw : List Write)
      (hop : op.touch = .other) (hlive : event.deletedAt = none)
      (hnew : Unused event (mirrorEntry j event recordedBy) s)
      (hw : t.writes = .insertEvent event :: .insertEntry (mirrorEntry j event recordedBy) :: sw)
      (hsw : ∀ w ∈ sw, w.IsStatus) : Outcome D J op t s
  | patched {op t s} (i : Nat) (patch : UpdateAttendanceEventPatch) (before : AttendanceEvent)
      (ws sw : List Write) (hop : op.touch = .patch i patch) (hid : before.id = i)
      (hread : FirstEvent i before t) (hthere : (s.eventAt i).isSome = true)
      (hc : ∃ v, J v ∧ D.rely [Key.row i] v s ∧ Cascades before (before.applyPatch patch)
        (mirrorOf v.entries i) (Gone D J [Key.row i] v) ws)
      (hfresh : FreshEntries ws s) (hw : t.writes = .updateEvent (before.applyPatch patch) :: (ws ++ sw))
      (hsw : ∀ w ∈ sw, w.IsStatus) : Outcome D J op t s
  | deleted {op t s} (a : AttendanceEvent) (ws sw : List Write) (hop : op.touch = .other)
      (hdead : a.deletedAt ≠ none) (hthere : (s.eventAt a.id).isSome = true)
      (hc : ∃ v, J v ∧ D.rely [Key.row a.id] v s ∧
        Unmirrors (mirrorOf v.entries a.id) (Gone D J [Key.row a.id] v) ws)
      (hw : t.writes = .updateEvent a :: (ws ++ sw)) (hsw : ∀ w ∈ sw, w.IsStatus) : Outcome D J op t s
  | created {op t s} (x : TimelineEntry) (hop : op.touch = .other) (hsource : x.sourceEventId = none)
      (hnew : s.entryAt x.id = none) (hw : t.writes = [.insertEntry x]) : Outcome D J op t s
  | edited {op t s} (i : Nat) (entryTime : Option Int) (y x : TimelineEntry)
      (hop : op.touch = .edit i entryTime) (hread : FirstEntry i y t) (hid : x.id = i)
      (hchild : x.childId = y.childId) (htime : x.entryTime = entryTime.getD y.entryTime)
      (hw : t.writes = [.updateEntry x]) : Outcome D J op t s
  | dropped {op t s} (i : Nat) (hop : op.touch = .drop i)
      (hw : t.writes = [] ∨ t.writes = [.deleteEntry i]) : Outcome D J op t s

/-! ## Every request -/

variable {ws : List Write} {a : AttendanceEvent} {found : Option TimelineEntry} {gone : TimelineEntry → Prop}

theorem mirrorEntry_saved {e : AttendanceEvent} (hid : e.id = a.id) (j : Nat) (by' : Option Nat) :
    mirrorEntry j (a.saved e) by' = mirrorEntry j a by' := by
  simp [mirrorEntry, AttendanceEvent.saved, hid]

theorem Cascades.of_saved {before e : AttendanceEvent} (hid : e.id = a.id)
    (h : Cascades before (a.saved e) found gone ws) : Cascades before a found gone ws := by
  cases h with
  | unmirrored h => exact .unmirrored h
  | kept x h htype hsame => exact .kept x h htype hsame
  | moved x h htype hmoved => exact .moved x h htype hmoved
  | replaced x j h htype =>
    rw [mirrorEntry_saved hid]
    exact .replaced x j h htype
  | added x j h htype hgone =>
    rw [mirrorEntry_saved hid]
    exact .added x j h htype hgone

theorem Cascades.mono {before : AttendanceEvent} {gone' : TimelineEntry → Prop} (hg : ∀ x, gone x → gone' x)
    (h : Cascades before a found gone ws) : Cascades before a found gone' ws := by
  cases h with
  | unmirrored h => exact .unmirrored h
  | kept x h htype hsame => exact .kept x h htype hsame
  | moved x h htype hmoved => exact .moved x h htype hmoved
  | replaced x j h htype => exact .replaced x j h htype
  | added x j h htype hgone => exact .added x j h htype (hg x hgone)

theorem Unmirrors.mono {gone' : TimelineEntry → Prop}
    (hg : ∀ x, gone x → gone' x) (h : Unmirrors found gone ws) : Unmirrors found gone' ws := by
  cases h with
  | unmirrored h => exact .unmirrored h
  | removed x h => exact .removed x h
  | late x h hgone => exact .late x h (hg x hgone)

theorem onlyWrites_createStatus (c : Nat) (d : Int) (st : ChildIntradayStatus) (staff : Nat) :
    Prog.OnlyWrites Write.IsStatus (AttendanceService.createStatus c d st staff) := by
  intro i
  refine ⟨trivial, fun b => ?_⟩
  cases b with
  | false => trivial
  | true =>
    intro s
    show Prog.OnlyWrites Write.IsStatus (Prog.require (Store.dailyStatusAt s c d) _)
    cases Store.dailyStatusAt s c d <;> trivial

theorem onlyWrites_promote (c : Nat) (d : Int) (staff : Nat) : Prog.OnlyWrites Write.IsStatus
    (ChildDailyStatusRepository.updatePresentIfAbsentOrLate c d staff) :=
  ⟨trivial, fun _ _ => trivial⟩

theorem onlyWrites_recompute (c : Nat) (d : Int) (staff : Nat) :
    Prog.OnlyWrites Write.IsStatus (AttendanceService.recomputeDailyStatus c d staff) := by
  unfold AttendanceService.recomputeDailyStatus AttendanceEventRepository.listByChild
    ChildDailyStatusRepository.findByChildAndDate
  simp only [Prog.bind_eq]
  intro s s'
  dsimp only
  generalize s'.dailyStatusAt c d = existing
  split
  · cases existing with
    | none => exact (onlyWrites_createStatus c d .present staff).bind fun _ => trivial
    | some row => exact (onlyWrites_promote c d staff).bind fun _ => trivial
  · cases existing with
    | none => trivial
    | some row =>
      show Prog.OnlyWrites _ (ite (row.status = .present) _ _)
      split
      · refine ⟨trivial, fun b => ?_⟩
        cases b with
        | false => trivial
        | true =>
          intro s
          show Prog.OnlyWrites Write.IsStatus (Prog.bind (Prog.require (Store.dailyStatusAt s c d) _) _)
          cases Store.dailyStatusAt s c d <;> trivial
      · trivial

theorem onlyWrites_recomputeAffected (before after : AttendanceEvent) (staff : Nat) :
    Prog.OnlyWrites Write.IsStatus
      (AttendanceService.recomputeAffectedDailyStatuses before after staff) :=
  Prog.OnlyWrites.forEach _ fun b _ => onlyWrites_recompute b.1 b.2 staff

section

variable {D : Discipline Store Key Write} {J : Store → Prop} {X : AttendanceError → Prop} {s : Store}

variable {t : Tx Store Key Write}

theorem safe_statuses {p : Sql Unit} {r : Response} {Q : Tx Store Key Write → Store → Response → Prop} (hX : ∀ e, X e)
    (hp : Prog.OnlyWrites Write.IsStatus p) (hj : J s)
    (h : ∀ t' s' sw, J s' → t'.writes = t.writes ++ sw → (∀ w ∈ sw, w.IsStatus) → t.seen <+: t'.seen → Q t' s' r) :
    Prog.Safe D J X Q (Prog.bind p fun _ => .ret r) t s := by
  refine Prog.Safe.bind_frame hp hX hj fun _ t' s' he _ _ s'' _ hj'' => ?_
  obtain ⟨sw, hw, hsw⟩ := he.writes
  exact h t' s'' sw hj'' hw hsw he.seen

theorem head?_of_prefix {l l' : List Store} {v : Store} (h : l <+: l') (hv : l.head? = some v) :
    l'.head? = some v := by
  obtain ⟨r, rfl⟩ := h
  rw [List.head?_append, hv]
  rfl

theorem safe_checkIn_outcome (hX : ∀ e, X e) (hD : ∀ held s s', D.rely held s s' → Moves held s s')
    (now : Int) (c : Nat) (caller : Caller) (found : Bool) (recordedAt : Option Int) (notes : Option String) :
    Prog.Safe D J X (fun t s _ => Outcome D J (.checkIn now c caller found recordedAt notes) t s)
      (Op.checkIn now c caller found recordedAt notes).prog Tx.start s := by
  simp only [Op.prog, AttendanceService.checkIn, AttendanceService.resolveCallerStaffMemberId,
    assertNotFuture, Prog.bind_eq, Prog.bind_assoc]
  refine Prog.Safe.guardOr hX fun _ => Prog.Safe.require hX fun staff _ => Prog.Safe.guardOr hX fun _ => ?_
  refine safe_record hX hD rfl fun i j t' s' ha _ hj' hnew => ?_
  refine Prog.Safe.query fun s₂ _ hj₂ => ?_
  have hend : ∀ t₃ s₃ sw, (J s₃ ∧ Unused _ _ s₃) → t₃.writes = t'.writes ++ sw →
      (∀ w ∈ sw, w.IsStatus) → Outcome D J (.checkIn now c caller found recordedAt notes) t₃ s₃ :=
    fun t₃ s₃ sw hj₃ hw hsw =>
      .recorded _ j (some staff) sw rfl rfl hj₃.2 (by rw [hw, ha.writes]; rfl) hsw
  generalize Store.dailyStatusAt _ _ _ = existing
  cases existing with
  | none =>
    simp only [Prog.bind_assoc]
    refine Prog.Safe.bind_frame (onlyWrites_createStatus _ _ _ _) hX hj₂ fun _ t₃ s₃ he _ hj₃ => ?_
    obtain ⟨sw, hw, hsw⟩ := he.writes
    exact fun s₄ _ hj₄ => hend t₃ s₄ sw hj₄ hw hsw
  | some row =>
    simp only [Prog.bind_assoc]
    refine Prog.Safe.bind_frame (onlyWrites_promote _ _ _) hX hj₂ fun _ t₃ s₃ he _ hj₃ => ?_
    obtain ⟨sw, hw, hsw⟩ := he.writes
    exact fun s₄ _ hj₄ => hend t₃ s₄ sw hj₄ hw hsw

theorem safe_assertCheckOutPickup {B : Type} {Q : Tx Store Key Write → Store → B → Prop}
    {c : Nat} {user request : Option Nat} {allowed : Bool} {f : Unit → Sql B}
    (hX : ∀ e, X e) (h : Prog.Safe D J X Q (f ()) t s) :
    Prog.Safe D J X Q (Prog.bind (AttendanceService.assertCheckOutPickup c user request allowed) f) t s := by
  unfold AttendanceService.assertCheckOutPickup assertPickupAllowed
  cases request with
  | some r => exact h
  | none =>
    cases user with
    | none => exact hX _
    | some u => exact Prog.Safe.guardOr hX fun _ => h

theorem safe_checkOut_outcome (hX : ∀ e, X e) (hD : ∀ held s s', D.rely held s s' → Moves held s s')
    (now : Int) (c : Nat) (caller : Caller) (found : Bool) (user request : Option Nat) (allowed : Bool)
    (method : Option AttendanceMethod) (recordedAt : Option Int) (notes : Option String) : Prog.Safe D J X
      (fun t s _ => Outcome D J (.checkOut now c caller found user request allowed method recordedAt notes) t s)
      (Op.checkOut now c caller found user request allowed method recordedAt notes).prog Tx.start s := by
  simp only [Op.prog, AttendanceService.checkOut, AttendanceService.resolveCallerStaffMemberId,
    assertNotFuture, Prog.bind_eq, Prog.bind_assoc]
  refine Prog.Safe.guardOr hX fun _ => Prog.Safe.require hX fun staff _ => Prog.Safe.guardOr hX fun _ => ?_
  refine safe_assertCheckOutPickup hX (safe_record hX hD rfl fun i j t' s' ha _ hj' hnew => ?_)
  exact fun s₂ _ hj₂ => .recorded _ j (some staff) [] rfl rfl hj₂.2 ha.writes fun _ hw => absurd hw List.not_mem_nil

theorem safe_patch_outcome (hX : ∀ e, X e) (hD : ∀ held s s', D.rely held s s' → Moves held s s')
    (now : Int) (i : Nat) (caller : Caller) (patch : UpdateAttendanceEventPatch) (opts : PatchEventOpts)
    (found allowed : Bool) :
    Prog.Safe D J X (fun t s _ => Outcome D J (.patchEvent now i caller patch opts found allowed) t s)
      (Op.patchEvent now i caller patch opts found allowed).prog Tx.start s := by
  refine safe_patch hX fun v before staff _ hv hlive _ => ?_
  obtain rfl : before.id = i := Table.id_of_find hv
  refine safe_updateEvent hX rfl fun s₁ s₂ e _ _ _ _ _ he => ?_
  have hid : e.id = (before.applyPatch patch).id := Table.id_of_find he
  refine safe_cascade hX hD (fun _ => rfl) fun s₃ ws t' hr₃ hj₃ hc ha s₄ hr₄ hj₄ hfresh => ?_
  have hrow : [Key.row before.id] ⊆
      (((Tx.start.saw v).wrote (.updateEvent (before.applyPatch patch))).saw s₂).held :=
    List.cons_subset.2 ⟨List.mem_cons_self, List.nil_subset _⟩
  refine safe_statuses hX (onlyWrites_recomputeAffected _ _ staff) ⟨hj₄, hr₄, hfresh⟩ ?_
  rintro t₅ s₅ sw ⟨hj₅, hr₅, hfresh₅⟩ hw hsw hseen
  refine .patched before.id patch before ws sw rfl rfl ⟨v, ?_, hv, hlive⟩ ?_ ⟨s₃, hj₃.1, D.mono hrow hr₅, ?_⟩
    hfresh₅ ?_ hsw
  · exact head?_of_prefix (ha.seen.trans hseen) rfl
  · have hlocked : Key.row before.id ∈ [Key.row before.id] := List.mem_cons_self
    rw [(hD _ _ _ (D.mono hrow hr₅)).eventAt_eq hlocked, (hD _ _ _ (D.mono hrow hr₃)).eventAt_eq hlocked]
    exact Option.isSome_of_mem he
  · rw [show mirrorOf s₃.entries before.id = mirrorOf s₃.entries ((before.applyPatch patch).saved e).id by
      rw [show ((before.applyPatch patch).saved e).id = before.id from hid]]
    refine (hc.of_saved hid).mono fun x hx => ?_
    obtain ⟨s', hj', hr', hnone⟩ := hx
    exact ⟨s', hj'.1, D.mono hrow hr', hnone⟩
  · rw [hw, ha.writes]
    rfl

theorem safe_delete_outcome (hX : ∀ e, X e) (hD : ∀ held s s', D.rely held s s' → Moves held s s')
    (now : Int) (i : Nat) (caller : Caller) :
    Prog.Safe D J X (fun t s _ => Outcome D J (.deleteEvent now i caller) t s)
      (Op.deleteEvent now i caller).prog Tx.start s := by
  refine safe_softDelete hX fun v before staff _ hv hlive => ?_
  obtain rfl : before.id = i := Table.id_of_find hv
  refine safe_updateEvent hX rfl fun s₁ s₂ e _ _ _ _ _ he => ?_
  have hrow : [Key.row before.id] ⊆
      (((Tx.start.saw v).wrote (.updateEvent (before.softDelete now))).saw s₂).held :=
    List.cons_subset.2 ⟨List.mem_cons_self, List.nil_subset _⟩
  refine safe_unmirror (fun _ => rfl) fun s₃ ws t' s₄ hr₃ hj₃ hu ha hr₄ hj₄ => ?_
  refine safe_statuses hX (onlyWrites_recompute _ _ staff) ⟨hj₄, hr₄⟩ ?_
  rintro t₅ s₅ sw ⟨hj₅, hr₅⟩ hw hsw hseen
  refine .deleted (before.softDelete now) ws sw rfl ?_ ?_ ⟨s₃, hj₃.1, D.mono hrow hr₅, hu.mono ?_⟩ ?_ hsw
  · simp [AttendanceEvent.softDelete, hlive]
  · have hlocked : Key.row before.id ∈ [Key.row before.id] := List.mem_cons_self
    show (s₅.eventAt before.id).isSome = true
    rw [(hD _ _ _ (D.mono hrow hr₅)).eventAt_eq hlocked, (hD _ _ _ (D.mono hrow hr₃)).eventAt_eq hlocked]
    exact Option.isSome_of_mem he
  · rintro x ⟨s', hj', hr', hnone⟩
    exact ⟨s', hj'.1, D.mono hrow hr', hnone⟩
  · rw [hw, ha.writes]
    rfl

/-- **The writes of every request.** -/
theorem safe_outcome (hX : ∀ e, X e) (hD : ∀ held s s', D.rely held s s' → Moves held s s') (op : Op) :
    Prog.Safe D J X (fun t s _ => Outcome D J op t s) op.prog Tx.start s := by
  cases op with
  | checkIn now c caller found recordedAt notes =>
    exact safe_checkIn_outcome hX hD now c caller found recordedAt notes
  | checkOut now c caller found user request allowed method recordedAt notes =>
    exact safe_checkOut_outcome hX hD now c caller found user request allowed method recordedAt notes
  | patchEvent now i caller patch opts found allowed =>
    exact safe_patch_outcome hX hD now i caller patch opts found allowed
  | deleteEvent now i caller => exact safe_delete_outcome hX hD now i caller
  | createEntry now c caller dto found opts =>
    simp only [Op.prog, TimelineService.createEntry, TimelineService.resolveStaffMemberId, assertNotFuture,
      TimelineService.assertMentorScope, Prog.bind_eq, Prog.bind_assoc]
    refine Prog.Safe.guardOr hX fun _ => safe_assertTimelineMetadata hX ?_
    refine Prog.Safe.require hX fun staff _ => Prog.Safe.guardOr hX fun _ => Prog.Safe.guardOr hX fun _ => ?_
    refine Prog.Safe.guardOr hX fun _ => Prog.Safe.uuid fun s₁ j _ _ _ _ => ?_
    refine safe_createEntry hX fun s₂ _ hj₂ hnew => ?_
    refine Prog.Safe.keepAt (k := .row j) (φ := fun s => s.entryAt j) (List.mem_append_left _ List.mem_cons_self)
      (fun _ _ _ hk hr => (hD _ _ _ hr).entries j hk) hj₂ hnew ?_
    exact fun s₃ _ hj₃ => .created _ rfl rfl hj₃.2 rfl
  | updateEntry now i caller dto opts =>
    simp only [Op.prog, TimelineService.updateEntry, TimelineService.findEntryOrThrow,
      TimelineEntryRepository.findById, TimelineEntryRepository.update, assertNotFuture, Prog.bind_eq,
      Prog.bind_assoc]
    refine Prog.Safe.query fun v _ _ => Prog.Safe.require hX fun y hy => ?_
    refine safe_assertEditable hX (Prog.Safe.guardOr hX fun _ => safe_assertTimelineMetadata hX ?_)
    refine Prog.Safe.returning (fun s₂ _ _ _ => ?_) fun _ _ _ _ => Prog.Safe.require hX ?_
    · refine Prog.Safe.query fun s₃ _ _ => Prog.Safe.require hX fun _ _ s₄ _ _ => ?_
      exact .edited i dto.entryTime y
        (y.applyPatch ⟨dto.title, dto.body, dto.mediaUrls, dto.metadata, dto.entryTime, none⟩) rfl
        ⟨v, rfl, hy⟩ (Table.id_of_find hy) rfl rfl rfl
    · rintro _ ⟨⟩
  | deleteEntry i caller opts =>
    simp only [Op.prog, TimelineService.deleteEntry, TimelineService.findEntryOrThrow,
      TimelineEntryRepository.findById, Prog.bind_eq, Prog.bind_assoc]
    refine Prog.Safe.query fun v _ _ => Prog.Safe.require hX fun y _ => safe_assertEditable hX ?_
    refine safe_deleteEntry (fun _ _ _ _ => ?_) fun _ _ _ _ => ?_
    · exact fun _ _ _ => .dropped i rfl (.inr rfl)
    · exact fun _ _ _ => .dropped i rfl (.inl rfl)

/-! ## What a commit keeps -/

theorem Outcome.sources {op : Op} (h : Outcome D J op t s)
    (hkeys : ∀ w ∈ t.writes, Store.keys w ⊆ t.held) (x : TimelineEntry)
    (hx : Write.insertEntry x ∈ t.writes) (i : Nat) (hi : x.sourceEventId = some i) :
    Key.row i ∈ t.held ∧ ((t.view s).eventAt i).isSome = true := by
  have hstatus : ∀ {sw : List Write}, (∀ w ∈ sw, w.IsStatus) → Write.insertEntry x ∉ sw :=
    fun hsw hmem => hsw _ hmem
  cases h with
  | recorded event j by' sw _ _ _ hw hsw =>
    rw [hw] at hx
    rcases List.mem_cons.1 hx with hx | hx
    · cases hx
    rcases List.mem_cons.1 hx with hx | hx
    · cases hx
      cases hi
      refine ⟨hkeys (.insertEvent event) (hw ▸ List.mem_cons_self) List.mem_cons_self, ?_⟩
      unfold Store.eventAt
      rw [events_view, hw, List.foldl_cons]
      refine isSome_find_foldl _ ?_
      rw [applyEvents, Table.find_append]
      simp [show Row.id event = event.id from rfl]
    · exact absurd hx (hstatus hsw)
  | patched i' patch before ws sw _ hid _ hthere hc _ hw hsw =>
    have hheld : Key.row i' ∈ t.held := by
      refine hkeys (.updateEvent (before.applyPatch patch)) (hw ▸ List.mem_cons_self) ?_
      rw [← hid]
      exact List.mem_cons_self
    have hview : ((t.view s).eventAt i').isSome = true := by
      unfold Store.eventAt
      rw [events_view]
      exact isSome_find_foldl _ hthere
    have hsource : i = i' := by
      rw [hw] at hx
      rcases List.mem_cons.1 hx with hx | hx
      · cases hx
      rcases List.mem_append.1 hx with hx | hx
      · obtain ⟨_, _, _, hc⟩ := hc
        have hmirror : ∀ j by', x = mirrorEntry j (before.applyPatch patch) by' → i = i' := by
          rintro j by' rfl
          exact (Option.some.inj hi).symm.trans hid
        cases hc with
        | unmirrored _ => cases hx
        | kept _ _ _ _ => cases hx
        | moved _ _ _ _ => simp at hx
        | replaced y j _ _ => exact hmirror j y.recordedBy (by simpa using hx)
        | added y j _ _ _ => exact hmirror j y.recordedBy (by simpa using hx)
      · exact absurd hx (hstatus hsw)
    exact hsource ▸ ⟨hheld, hview⟩
  | deleted a ws sw _ _ _ hc hw hsw =>
    rw [hw] at hx
    rcases List.mem_cons.1 hx with hx | hx
    · cases hx
    rcases List.mem_append.1 hx with hx | hx
    · obtain ⟨_, _, _, hc⟩ := hc
      cases hc <;> simp at hx
    · exact absurd hx (hstatus hsw)
  | created y _ hsource _ hw =>
    rw [hw] at hx
    obtain rfl : x = y := by simpa using hx
    rw [hsource] at hi
    cases hi
  | edited _ _ _ _ _ _ _ _ _ hw =>
    rw [hw] at hx
    simp at hx
  | dropped _ _ hw =>
    rcases hw with hw | hw
    · rw [hw] at hx
      cases hx
    · rw [hw] at hx
      simp at hx

theorem Outcome.guarantee {op : Op} (h : Outcome D J op t s)
    (hkeys : ∀ w ∈ t.writes, Store.keys w ⊆ t.held) : rowLocks.Guarantee t s := by
  refine Discipline.guarantee_of_respects (fun w hw => respects (fun i hi => hkeys w hw hi) ?_) s
  rintro x rfl i hi
  exact (h.sources hkeys x hw i hi).1

theorem Cascades.noEvent {before : AttendanceEvent} (h : Cascades before a found gone ws)
    (l : List AttendanceEvent) : ws.foldl applyEvents l = l := by
  cases h <;> rfl

theorem Unmirrors.noEvent (h : Unmirrors found gone ws) (l : List AttendanceEvent) : ws.foldl applyEvents l = l := by
  cases h <;> rfl

theorem events_corrected {sw : List Write}
    (hw : t.writes = .updateEvent a :: (ws ++ sw)) (hws : ∀ l, ws.foldl applyEvents l = l)
    (hsw : ∀ w ∈ sw, w.IsStatus) (s : Store) :
    (t.view s).events = Table.updateWhere s.events a.id (fun _ => true) a.saved := by
  rw [events_view, hw, List.foldl_cons, List.foldl_append, foldl_events_status hsw, hws]
  rfl

theorem entries_corrected {sw : List Write}
    (hw : t.writes = .updateEvent a :: (ws ++ sw)) (hsw : ∀ w ∈ sw, w.IsStatus) (s : Store) :
    (t.view s).entries = ws.foldl applyEntries s.entries := by
  rw [entries_view, hw, List.foldl_cons, List.foldl_append, foldl_entries_status hsw]
  rfl

theorem Outcome.wf {op : Op} (h : Outcome D J op t s)
    (hkeys : ∀ w ∈ t.writes, Store.keys w ⊆ t.held) (hs : s.WF) : (t.view s).WF where
  events := by
    cases h with
    | recorded event j by' sw _ _ hnew hw hsw =>
      rw [events_view, hw, List.foldl_cons, List.foldl_cons, foldl_events_status hsw]
      exact Table.unique_append hs.events hnew.1
    | patched i patch before ws sw _ _ _ _ hc _ hw hsw =>
      obtain ⟨_, _, _, hc⟩ := hc
      rw [events_corrected hw hc.noEvent hsw]
      exact Table.unique_updateWhere hs.events _ _ _ fun _ => rfl
    | deleted a ws sw _ _ _ hc hw hsw =>
      obtain ⟨_, _, _, hc⟩ := hc
      rw [events_corrected hw hc.noEvent hsw]
      exact Table.unique_updateWhere hs.events _ _ _ fun _ => rfl
    | created _ _ _ _ hw =>
      rw [events_view, hw]
      exact hs.events
    | edited _ _ _ _ _ _ _ _ _ hw =>
      rw [events_view, hw]
      exact hs.events
    | dropped _ _ hw =>
      rw [events_view]
      rcases hw with hw | hw <;> (rw [hw]; exact hs.events)
  entries := by
    cases h with
    | recorded event j by' sw _ _ hnew hw hsw =>
      rw [entries_view, hw, List.foldl_cons, List.foldl_cons, foldl_entries_status hsw]
      exact Table.unique_append hs.entries hnew.2
    | patched i patch before ws sw _ _ _ _ hc hfresh hw hsw =>
      obtain ⟨_, _, _, hc⟩ := hc
      rw [entries_corrected hw hsw]
      cases hc with
      | unmirrored _ => exact hs.entries
      | kept _ _ _ _ => exact hs.entries
      | moved _ _ _ _ => exact Table.unique_updateWhere hs.entries _ _ _ fun _ => rfl
      | replaced y j _ _ =>
        refine Table.unique_append (Table.unique_filter hs.entries _) ?_
        have hnone := hfresh _ (List.mem_cons_of_mem _ List.mem_cons_self)
        refine Table.find_eq_none.2 fun q hq => ?_
        exact Table.find_eq_none.1 hnone q (List.mem_filter.1 hq).1
      | added y j _ _ _ => exact Table.unique_append hs.entries (hfresh _ List.mem_cons_self)
    | deleted a ws sw _ _ _ hc hw hsw =>
      obtain ⟨_, _, _, hc⟩ := hc
      rw [entries_corrected hw hsw]
      cases hc with
      | unmirrored _ => exact hs.entries
      | removed _ _ => exact Table.unique_filter hs.entries _
      | late _ _ _ => exact hs.entries
    | created x _ _ hnew hw =>
      rw [entries_view, hw]
      exact Table.unique_append hs.entries hnew
    | edited _ _ _ _ _ _ _ _ _ hw =>
      rw [entries_view, hw]
      exact Table.unique_updateWhere hs.entries _ _ _ fun _ => rfl
    | dropped _ _ hw =>
      rw [entries_view]
      rcases hw with hw | hw
      · rw [hw]
        exact hs.entries
      · rw [hw]
        exact Table.unique_filter hs.entries _
  days := days_view hs.days t
  sources := by
    rw [entries_view]
    refine source_foldl (P := fun o => ∀ i, o = some i → ((t.view s).eventAt i).isSome = true) _ ?_ ?_
    · intro x hx i hi
      unfold Store.eventAt
      rw [events_view]
      exact isSome_find_foldl _ (hs.sources x hx i hi)
    · exact fun x hx i hi => (h.sources hkeys x hx i hi).2

end

end Attendance
