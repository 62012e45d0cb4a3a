import Mathlib.Data.List.Chain
import Shyraq.Children.Services

/-!
# The status of a child and its audit history

A transition is a conditional UPDATE and an audit row in one transaction.  Every other edit of the
card writes the full row back as it was read, the status included: the status and the history part
exactly where the status has moved in between.
-/

namespace Children

open Kernel Transactions

/-! ## Well-formed stores -/

/-- The archive columns are set on archived cards, and on no others. -/
structure Child.Sound (c : Child) : Prop where
  archivedAt : c.archivedAt.isSome = true ↔ c.status = .archived
  archiveReason : c.archiveReason.isSome = true ↔ c.status = .archived

instance (c : Child) : Decidable c.Sound :=
  decidable_of_iff ((c.archivedAt.isSome = true ↔ c.status = .archived) ∧
      (c.archiveReason.isSome = true ↔ c.status = .archived))
    ⟨fun ⟨h₁, h₂⟩ => ⟨h₁, h₂⟩, fun ⟨h₁, h₂⟩ => ⟨h₁, h₂⟩⟩

structure Store.WF (s : Store) : Prop where
  ids : Table.Unique s.children
  sound : ∀ c ∈ s.children, c.Sound

instance (s : Store) : Decidable s.WF :=
  decidable_of_iff ((s.children.map Child.id).Nodup ∧ ∀ c ∈ s.children, c.Sound)
    ⟨fun ⟨h₁, h₂⟩ => ⟨h₁, h₂⟩, fun ⟨h₁, h₂⟩ => ⟨h₁, h₂⟩⟩

theorem unique_view {s : Store} (h : Table.Unique s.children) (t : Tx Store Key Write) :
    Table.Unique (t.view s).children := by
  unfold Tx.view
  generalize t.writes = ws
  induction ws generalizing s with
  | nil => exact h
  | cons w ws ih =>
    refine ih ?_
    cases w with
    | update c => exact Table.unique_updateWhere h c.id _ _ fun _ => rfl
    | archive i a reason => exact Table.unique_updateWhere h i _ _ fun _ => rfl
    | reactivate i => exact Table.unique_updateWhere h i _ _ fun _ => rfl
    | activate i a => exact Table.unique_updateWhere h i _ _ fun _ => rfl
    | recordStatusChange r => exact h
    | recordGroupTransfer g => exact h

/-! ## What a request commits -/

/-- The card that is written back whatever it is by then. -/
def Op.writesBack : Op → Option Nat
  | .updateChildProfile _ id _ | .updateChildPhoto id _ | .assignChildToGroup id _ _
  | .unassignChildFromGroup id | .transferChildToGroup _ id _ _ _ _ => some id
  | .archiveChild .. | .reactivateChild .. | .activateChild .. => none

/-- A card written back: read as `r`, found as `c`, set to `n`. -/
structure WrittenBack (id : Nat) (t : Tx Store Key Write) (s : Store) (r c n : Child) : Prop where
  read : ∃ v, (v.WF ∧ v.child? id = some r) ∧ t.seen.head? = some v
  row : Key.row id ∈ t.held
  status : n.status = r.status
  sound : r.Sound → n.Sound
  children : Table.Replaced s.children (t.view s).children id c n
  history : (t.view s).statusHistory = s.statusHistory

/-- A transition: found as `c`, left as `c'`, with the audit row `h`. -/
structure Transitioned (id : Nat) (t : Tx Store Key Write) (s : Store) (c c' : Child)
    (h : ChildStatusHistory) : Prop where
  row : Key.row id ∈ t.held
  sound : c.Sound → c'.Sound
  children : Table.Replaced s.children (t.view s).children id c c'
  history : (t.view s).statusHistory = s.statusHistory ++ [h]
  child : h.childId = id
  previous : h.previousStatus = c.status
  next : h.newStatus = c'.status

inductive Outcome (op : Op) (t : Tx Store Key Write) (s : Store) : Prop
  | writtenBack {id : Nat} (back : op.writesBack = some id) (r c n : Child)
      (h : WrittenBack id t s r c n)
  | transitioned {id : Nat} (back : op.writesBack = none) (c c' : Child) (h : ChildStatusHistory)
      (h : Transitioned id t s c c' h)

/-- Rows stay; locked rows stay as they are. -/
def rowLocks : Discipline Store Key Write where
  rely held s s' := Table.Evolves (fun _ _ => True) (fun i => Key.row i ∈ held) s.children s'.children
  refl _ s := .refl (fun _ => trivial) s.children
  trans h₁ h₂ := h₁.trans (fun _ _ _ _ _ => trivial) h₂
  mono hs h := h.mono fun _ hi => hs hi

section

variable {op : Op} {t : Tx Store Key Write} {s : Store}

theorem Outcome.replaced (h : Outcome op t s) : ∃ id c c', Key.row id ∈ t.held ∧
    Table.Replaced s.children (t.view s).children id c c' := by
  cases h with
  | writtenBack back r c n h => exact ⟨_, c, n, h.row, h.children⟩
  | transitioned back c c' a h => exact ⟨_, c, c', h.row, h.children⟩

theorem Outcome.guarantee (h : Outcome op t s) : rowLocks.Guarantee t s := by
  obtain ⟨id, c, c', hrow, hrep⟩ := h.replaced
  exact fun held hd => hrep.evolves (fun _ => trivial) trivial fun hk => hd hrow hk

theorem Outcome.wf (h : Outcome op t s) (hs : s.WF) : (t.view s).WF where
  ids := unique_view hs.ids t
  sound := by
    intro q hq
    have hq' := Table.find_of_mem (unique_view hs.ids t) hq
    have sound_replaced : ∀ {id c c'}, Table.Replaced s.children (t.view s).children id c c' →
        c'.Sound → q.Sound := by
      intro id c c' hrep hc'
      rw [hrep.after] at hq'
      split at hq'
      · cases hq'
        exact hc'
      · exact hs.sound q (Table.mem_of_find hq')
    cases h with
    | writtenBack back r c n h =>
      obtain ⟨v, ⟨hv, hr⟩, -⟩ := h.read
      exact sound_replaced h.children (h.sound (hv.sound r (Table.mem_of_find hr)))
    | transitioned back c c' a h =>
      exact sound_replaced h.children (h.sound (hs.sound c (Table.mem_of_find h.children.before)))

end

/-! ## The requests one by one -/

section

variable {X : ChildError → Prop} {B : Type} {Q : Tx Store Key Write → Store → B → Prop}
  {t : Tx Store Key Write} {s : Store} {op : Op} {id : Nat}

theorem safe_getChild {f : Child → Sql B} (hX : ∀ e, X e)
    (h : ∀ r t' s', r.id = id → t'.FirstRead (fun v => v.WF ∧ v.child? id = some r) → s'.WF →
      Prog.Safe rowLocks Store.WF X Q (f r) t' s') :
    Prog.Safe rowLocks Store.WF X Q (Prog.bind (ChildService.getChild id) f) .start s := by
  unfold ChildService.getChild ChildRepository.findById
  simp only [Prog.bind_eq, Prog.bind_assoc]
  refine Prog.Safe.query fun v _ hj => Prog.Safe.require hX fun r hr => ?_
  exact h r _ v (Table.id_of_find hr) (.start ⟨hj, hr⟩) hj

theorem safe_save {next : Except ChildError Child} (hX : ∀ e, X e) (hw : t.writes = [])
    (hid : ∀ n, next = .ok n → n.id = id) : Prog.Safe rowLocks Store.WF X
      (fun t' s' n => next = .ok n ∧ t' = t.wrote (.update n) ∧ ∃ c, s'.child? id = some c)
      (ChildService.save next) t s := by
  unfold ChildService.save ChildRepository.update
  refine Prog.Safe.ofExcept hX fun n hn => Prog.Safe.insertOr hX fun s₁ _ hj₁ hh => ?_
  rw [Tx.view_of_unwritten hw] at hh
  have hh : ((s₁.child? n.id).isSome && _) = true := hh
  rw [hid n hn, Bool.and_eq_true] at hh
  obtain ⟨c, hc⟩ := Option.isSome_iff_exists.1 hh.1
  refine Prog.Safe.keep (fun s => s.child? id = some c) [Key.row id] ?_ ?_ hj₁ hc ?_
  · refine List.cons_subset.2 ⟨List.mem_append_left _ ?_, List.nil_subset _⟩
    rw [← hid n hn]
    exact List.mem_cons_self
  · intro _ _ hr _ _ hc
    exact (hr.find_eq List.mem_cons_self).trans hc
  · exact fun s₂ _ hj₂ => ⟨hn, rfl, c, hj₂.2⟩

/-- An edit of the card other than a transition. -/
structure Edited (r n : Child) : Prop where
  id : n.id = r.id
  status : n.status = r.status
  archivedAt : n.archivedAt = r.archivedAt
  archiveReason : n.archiveReason = r.archiveReason

theorem Edited.sound {r n : Child} (h : Edited r n) (hr : r.Sound) : n.Sound where
  archivedAt := by
    rw [h.status, h.archivedAt]
    exact hr.archivedAt
  archiveReason := by
    rw [h.status, h.archiveReason]
    exact hr.archiveReason

theorem edited_updateProfile {r n : Child} {patch : UpdateChildProfilePatch} {now : Int}
    (h : r.updateProfile patch now = .ok n) : Edited r n := by
  unfold Child.updateProfile at h
  repeat' split at h
  all_goals cases h
  exact ⟨rfl, rfl, rfl, rfl⟩

theorem edited_transferToGroup {r n : Child} {g : Nat} (h : r.transferToGroup g = .ok n) : Edited r n := by
  unfold Child.transferToGroup at h
  repeat' split at h
  all_goals cases h
  exact ⟨rfl, rfl, rfl, rfl⟩

theorem writtenBack_of_edit {r c n : Child} {t' : Tx Store Key Write}
    (hread : t.FirstRead fun v => v.WF ∧ v.child? id = some r) (hid : r.id = id) (hn : Edited r n)
    (hs : s.WF) (hc : s.child? id = some c) (hseen : t'.seen = t.seen) (hheld : (t.wrote (.update n)).held ⊆ t'.held)
    (hchildren : (t'.view s).children = ((t.wrote (.update n)).view s).children)
    (hhistory : (t'.view s).statusHistory = ((t.wrote (.update n)).view s).statusHistory) :
    WrittenBack id t' s r c (n.saved c) := by
  have hnid : n.id = id := hn.id.trans hid
  have hview : (t.wrote (.update n)).view s =
      { s with children := Table.updateWhere s.children id (fun _ => true) n.saved } := by
    rw [Tx.view_wrote, Tx.view_of_unwritten hread.unwritten, ← hnid]
    rfl
  exact
    { read := by
        rw [hseen]
        exact hread.first
      row := hheld (List.mem_append_left _ (hnid ▸ List.mem_cons_self))
      status := hn.status
      sound := fun hr => ⟨(hn.sound hr).archivedAt, (hn.sound hr).archiveReason⟩
      children := by
        rw [hchildren, hview]
        exact .updateWhere hs.ids (fun _ => rfl) hc rfl
      history := by rw [hhistory, hview] }

theorem safe_edit {r : Child} {next : Except ChildError Child} (hX : ∀ e, X e)
    (hback : op.writesBack = some id) (hid : r.id = id) (hread : t.FirstRead fun v => v.WF ∧ v.child? id = some r)
    (hnext : ∀ n, next = .ok n → Edited r n) :
    Prog.Safe rowLocks Store.WF X (fun t s _ => Outcome op t s) (ChildService.save next) t s := by
  refine (safe_save hX hread.unwritten fun n hn => (hnext n hn).id.trans hid).mono ?_
  rintro t' s' n hs' ⟨hn, rfl, c, hc⟩
  exact .writtenBack hback r c (n.saved c)
    (writtenBack_of_edit hread hid (hnext n hn) hs' hc rfl (List.Subset.refl _) rfl rfl)

theorem safe_checkIin {r : Child} {iin : Option (Option String)} {f : Unit → Sql B} (hX : ∀ e, X e)
    (hread : t.FirstRead fun v => v.WF ∧ v.child? id = some r) (hs : s.WF)
    (h : ∀ t' s', t'.FirstRead (fun v => v.WF ∧ v.child? id = some r) → s'.WF →
      Prog.Safe rowLocks Store.WF X Q (f ()) t' s') :
    Prog.Safe rowLocks Store.WF X Q (Prog.bind (ChildService.checkIin r.id iin) f) t s := by
  unfold ChildService.checkIin
  split
  · simp only [ChildRepository.findByKindergartenAndIin, Prog.bind_eq, Prog.bind_assoc]
    refine Prog.Safe.ofExcept hX fun parsed _ => Prog.Safe.query fun s₁ _ hj₁ => ?_
    exact Prog.Safe.guardOr hX fun _ => h _ s₁ (hread.saw s₁) hj₁
  · exact h t s hread hs

/-! ### Transitions -/

theorem safe_transition {w : Write} {wrongStatus : ChildError} {source target : ChildStatus}
    {g : Child → Child} (hX : ∀ e, X e) (hback : op.writesBack = none) (hw : t.writes = [])
    (hkey : Key.row id ∈ Store.keys w) (hhit : ∀ s : Store, s.hit w = (s.child? id).any fun c => c.status == source)
    (happly : ∀ s : Store, s.apply w =
      { s with children := Table.updateWhere s.children id (fun c => c.status == source) g })
    (hg : ∀ c, (g c).id = c.id) (hstatus : ∀ c, (g c).status = target)
    (hsound : ∀ c, c.status = source → c.Sound → (g c).Sound)
    (previousArchiveReason archiveReason : Option String) (changedByUserId : Nat) (changedAt : Int) :
    Prog.Safe rowLocks Store.WF X (fun t s _ => Outcome op t s)
      (Prog.bind (ChildRepository.transition w id wrongStatus) fun child =>
        Prog.bind (ChildService.recordTransition id source target previousArchiveReason archiveReason
          changedByUserId changedAt) fun _ => Prog.ret child) t s := by
  unfold ChildRepository.transition
  simp only [Prog.bind_eq, Prog.bind_assoc]
  refine Prog.Safe.returning (fun s₁ _ hj₁ hh => ?_) fun s₁ _ hj₁ _ => ?_
  · rw [Tx.view_of_unwritten hw] at hh
    have hh : s₁.hit w = true := hh
    rw [hhit] at hh
    obtain ⟨c, hc, hsource⟩ := (Option.any_eq_true _ _).1 hh
    rw [beq_iff_eq] at hsource
    refine Prog.Safe.keep (fun s => s.child? id = some c) [Key.row id] ?_ ?_ hj₁ hc ?_
    · exact List.cons_subset.2 ⟨List.mem_append_left _ hkey, List.nil_subset _⟩
    · intro _ _ hr _ _ hc
      exact (hr.find_eq List.mem_cons_self).trans hc
    have hview : ∀ s : Store, (t.wrote w).view s =
        { s with children := Table.updateWhere s.children id (fun c => c.status == source) g } := by
      intro s
      rw [Tx.view_wrote, Tx.view_of_unwritten hw]
      exact happly s
    refine Prog.Safe.query fun s₂ _ hj₂ => ?_
    have hrow : ((t.wrote w).view s₂).child? id = some (g c) := by
      unfold Store.child?
      rw [hview, Table.find_updateWhere s₂.children id _ g hg]
      have hc₂ : Table.find s₂.children id = some c := hj₂.2
      simp [hc₂, hsource]
    rw [hrow]
    unfold ChildService.recordTransition ChildRepository.recordStatusChange
    simp only [Prog.pure_eq, Prog.bind_eq, Prog.bind, Prog.bind_assoc]
    refine Prog.Safe.uuid fun s₃ hid' _ _ _ _ => Prog.Safe.ofExcept hX fun h hrec => ?_
    obtain rfl := ChildStatusHistory.record_eq_ok hrec
    refine Prog.Safe.insertOr hX fun s₄ _ _ _ => ?_
    intro s₅ _ hj₅
    refine @Outcome.transitioned op _ s₅ id hback c (g c) ⟨hid', id, source, target, previousArchiveReason, archiveReason,
      changedByUserId, changedAt⟩ ?_
    exact
      { row := by
          refine List.mem_append_right _ (List.mem_cons_of_mem _ ?_)
          exact List.mem_append_left _ hkey
        sound := hsound c hsource
        children := by
          rw [Tx.view_wrote, Tx.view_locked, Tx.view_saw, hview]
          exact .updateWhere hj₅.1.ids hg hj₅.2 (by simpa using hsource)
        history := by
          rw [Tx.view_wrote, Tx.view_locked, Tx.view_saw, hview]
          rfl
        child := rfl
        previous := hsource.symm
        next := (hstatus c).symm }
  · unfold ChildRepository.discriminate ChildRepository.findById
    simp only [Prog.bind_eq, Prog.bind_assoc]
    exact Prog.Safe.query fun _ _ _ => Prog.Safe.guardOr hX fun _ => hX _

theorem safe_outcome (hX : ∀ e, X e) (op : Op) :
    Prog.Safe rowLocks Store.WF X (fun t s _ => Outcome op t s) op.prog .start s := by
  cases op with
  | updateChildProfile now id patch =>
    refine safe_getChild hX fun r t' s' hid hread hs' => ?_
    exact safe_checkIin hX hread hs' fun t₂ s₂ hread₂ _ =>
      safe_edit hX rfl hid hread₂ fun n hn => edited_updateProfile hn
  | updateChildPhoto id photoUrl =>
    refine safe_getChild hX fun r t' s' hid hread _ => safe_edit hX rfl hid hread ?_
    rintro n ⟨⟩
    exact ⟨rfl, rfl, rfl, rfl⟩
  | assignChildToGroup id g found =>
    refine safe_getChild hX fun r t' s' hid hread _ => Prog.Safe.guardOr hX fun _ => ?_
    refine safe_edit hX rfl hid hread ?_
    rintro n ⟨⟩
    exact ⟨rfl, rfl, rfl, rfl⟩
  | unassignChildFromGroup id =>
    refine safe_getChild hX fun r t' s' hid hread _ => safe_edit hX rfl hid hread ?_
    rintro n ⟨⟩
    exact ⟨rfl, rfl, rfl, rfl⟩
  | transferChildToGroup now id g found staff reason =>
    refine safe_getChild hX fun r t' s' hid hread hs' => Prog.Safe.guardOr hX fun _ => ?_
    have hedit : ∀ n, r.transferToGroup g = .ok n → Edited r n := fun n hn => edited_transferToGroup hn
    have hsaved : ∀ n, r.transferToGroup g = .ok n → n.id = id := fun n hn => (hedit n hn).id.trans hid
    refine Prog.Safe.bind hs' ((safe_save hX hread.unwritten hsaved).mono ?_)
    rintro t₂ s₂ n hs₂ ⟨hn, rfl, c, hc⟩
    have hrow : Key.row id ∈ (t'.wrote (.update n)).held := by
      refine List.mem_append_left _ ?_
      rw [← hid, ← (hedit n hn).id]
      exact List.mem_cons_self
    refine Prog.Safe.keep (fun s => s.child? id = some c) [Key.row id] ?_ ?_ hs₂ hc ?_
    · exact List.cons_subset.2 ⟨hrow, List.nil_subset _⟩
    · intro _ _ hr _ _ hc
      exact (hr.find_eq List.mem_cons_self).trans hc
    unfold ChildRepository.recordGroupTransfer
    simp only [Prog.pure_eq, Prog.bind_eq, Prog.bind_assoc]
    have hwritten : ∀ (t₄ : Tx Store Key Write) (s₄ : Store), s₄.WF → s₄.child? id = some c →
        t₄.seen = t'.seen → (t'.wrote (.update n)).held ⊆ t₄.held →
        (t₄.view s₄).children = ((t'.wrote (.update n)).view s₄).children →
        (t₄.view s₄).statusHistory = ((t'.wrote (.update n)).view s₄).statusHistory →
        Outcome (.transferChildToGroup now id g found staff reason) t₄ s₄ := fun t₄ s₄ hs₄ hc₄ h₁ h₂ h₃ h₄ =>
      .writtenBack rfl r c (n.saved c) (writtenBack_of_edit hread hid (hedit n hn) hs₄ hc₄ h₁ h₂ h₃ h₄)
    refine Prog.Safe.update (fun s₃ _ _ _ => ?_) fun s₃ _ _ _ => ?_
    · intro s₄ _ hj₄
      refine hwritten _ s₄ hj₄.1 hj₄.2 rfl (fun _ hk => List.mem_append_right _ hk) ?_ ?_
      · rw [Tx.view_wrote]
        rfl
      · rw [Tx.view_wrote]
        rfl
    · intro s₄ _ hj₄
      exact hwritten _ s₄ hj₄.1 hj₄.2 rfl (List.Subset.refl _) rfl rfl
  | archiveChild now id reason u =>
    simp only [Op.prog, ChildService.archiveChild, Prog.bind_eq]
    generalize trim reason = trimmed
    refine Prog.Safe.guardOr hX fun _ => ?_
    refine safe_transition (g := fun c => c.archived now trimmed) hX rfl rfl List.mem_cons_self
      (fun _ => rfl) (fun _ => rfl) (fun _ => rfl) (fun _ => rfl) (fun c _ _ => ?_) none (some trimmed)
      u now
    exact ⟨iff_of_true rfl rfl, iff_of_true rfl rfl⟩
  | reactivateChild now id u =>
    simp only [Op.prog, ChildService.reactivateChild, ChildRepository.findById, Prog.bind_eq]
    refine Prog.Safe.query fun s₁ _ hj₁ => ?_
    refine safe_transition (g := Child.reactivated) hX rfl rfl List.mem_cons_self
      (fun _ => rfl) (fun _ => rfl) (fun _ => rfl) (fun _ => rfl) (fun c _ _ => ?_) _ _ _ _
    constructor <;> simp [Child.reactivated]
  | activateChild now id hasTariff u =>
    refine safe_getChild hX fun r t' s' hid hread _ => ?_
    refine Prog.Safe.guardOr hX fun _ => Prog.Safe.guardOr hX fun _ => ?_
    refine safe_transition (g := fun c => c.activated now) hX rfl hread.unwritten List.mem_cons_self
      (fun _ => rfl) (fun _ => rfl) (fun _ => rfl) (fun _ => rfl) (fun c hc hs => ?_) _ _ _ _
    -- a card that was never archived has no archive columns to clear
    have hnot : ¬ c.status = .archived := by
      rw [hc]
      decide
    have hactive : ¬ (c.activated now).status = .archived := ChildStatus.noConfusion
    exact ⟨iff_of_false (fun h => hnot (hs.archivedAt.1 h)) hactive,
      iff_of_false (fun h => hnot (hs.archiveReason.1 h)) hactive⟩

end

theorem chain_rows {n : Nat} {s : Store} {cs : Schedule n} {σ : System n} (hs : s.WF) (hrun : run s cs = some σ) :
    Chain (fun s c => s.WF ∧ Outcome c.op c.tx s) s σ.log σ.db := by
  have hany : System.Starts (fun _ : Op => True) cs := fun _ _ _ => trivial
  exact System.exec_chain (X := fun _ => True) hs (fun op _ _ _ => safe_outcome (fun _ => trivial) op)
    (fun _ _ _ _ hs h => h.wf hs) (fun _ _ _ _ _ h => h.guarantee) hany hrun

/-! ## Status and history -/

/-- What the history says of the status. -/
def Store.lastStatus (s : Store) (id : Nat) : ChildStatus :=
  ((s.historyOf id).getLast?.map ChildStatusHistory.newStatus).getD .cardCreated

def Follows (h h' : ChildStatusHistory) : Prop := h'.previousStatus = h.newStatus

instance (h h' : ChildStatusHistory) : Decidable (Follows h h') :=
  inferInstanceAs (Decidable (h'.previousStatus = h.newStatus))

structure CardAgrees (s : Store) (c : Child) : Prop where
  status : c.status = s.lastStatus c.id
  chained : (s.historyOf c.id).IsChain Follows
  archive : c.Sound

/-- Every card agrees with its history. -/
def HistoryAgrees (s : Store) : Prop := ∀ c ∈ s.children, CardAgrees s c

instance (s : Store) (c : Child) : Decidable (CardAgrees s c) :=
  decidable_of_iff (c.status = s.lastStatus c.id ∧ (s.historyOf c.id).IsChain Follows ∧ c.Sound)
    ⟨fun ⟨h₁, h₂, h₃⟩ => ⟨h₁, h₂, h₃⟩, fun ⟨h₁, h₂, h₃⟩ => ⟨h₁, h₂, h₃⟩⟩

instance (s : Store) : Decidable (HistoryAgrees s) :=
  inferInstanceAs (Decidable (∀ c ∈ s.children, CardAgrees s c))

/-- The card that is written back, as the first SELECT found it. -/
def cardRead (c : ChildCommit) : Option Child := do
  let v ← c.tx.seen.head?
  let i ← c.op.writesBack
  v.child? i

/-- A card that is written back was read with the status it has now. -/
def StatusCurrent (s : Store) (c : ChildCommit) : Prop :=
  ∀ i ∈ c.op.writesBack, ∀ q ∈ s.child? i, (cardRead c).map Child.status = some q.status

instance (s : Store) (c : ChildCommit) : Decidable (StatusCurrent s c) :=
  inferInstanceAs (Decidable (∀ _ ∈ _, ∀ _ ∈ _, _))

section

variable {t : Tx Store Key Write} {s s' : Store} {op : Op} {id : Nat} {c c' : Child}

theorem historyAgrees_iff (hs : Table.Unique s.children) :
    HistoryAgrees s ↔ ∀ i c, s.child? i = some c → CardAgrees s c :=
  ⟨fun h _ c hc => h c (Table.mem_of_find hc), fun h c hc => h c.id c (Table.find_of_mem hs hc)⟩

theorem CardAgrees.congr {q : Child} (h : CardAgrees s q)
    (hhistory : s'.historyOf q.id = s.historyOf q.id) : CardAgrees s' q where
  status := by
    unfold Store.lastStatus
    rw [hhistory]
    exact h.status
  chained := hhistory ▸ h.chained
  archive := h.archive

theorem historyAgrees_of_replaced (hs : Table.Unique s.children) (hs' : Table.Unique s'.children)
    (h : HistoryAgrees s) (hrep : Table.Replaced s.children s'.children id c c')
    (hhistory : ∀ i, i ≠ id → s'.historyOf i = s.historyOf i) : HistoryAgrees s' ↔ CardAgrees s' c' := by
  rw [historyAgrees_iff hs] at h
  rw [historyAgrees_iff hs']
  refine ⟨fun h' => h' id c' hrep.find_self, fun hc i q hq => ?_⟩
  by_cases hi : i = id
  · subst hi
    have hqc : q = c' := Option.some.inj (hq.symm.trans hrep.find_self)
    exact hqc ▸ hc
  · refine (h i q ((hrep.find_of_ne hi).symm.trans hq)).congr (hhistory q.id ?_)
    rw [show q.id = i from Table.id_of_find hq]
    exact hi

/-- A transition keeps the agreement: the audit row goes on where the card stood. -/
theorem Transitioned.agrees {a : ChildStatusHistory} (h : Transitioned id t s c c' a)
    (hs : s.WF) (hagrees : HistoryAgrees s) : HistoryAgrees (t.view s) := by
  have hold : CardAgrees s c := hagrees c (Table.mem_of_find h.children.before)
  have hid : c.id = id := Table.id_of_find h.children.before
  have hid' : c'.id = id := Table.id_of_find h.children.find_self
  have hother : ∀ i, i ≠ id → (t.view s).historyOf i = s.historyOf i := by
    intro i hi
    unfold Store.historyOf
    rw [h.history, List.filter_append]
    simp [h.child, hi.symm]
  have hown : (t.view s).historyOf id = s.historyOf id ++ [a] := by
    unfold Store.historyOf
    rw [h.history, List.filter_append]
    simp [h.child]
  refine (historyAgrees_of_replaced hs.ids (unique_view hs.ids t) hagrees h.children hother).2 ?_
  refine ⟨?_, ?_, h.sound hold.archive⟩
  · unfold Store.lastStatus
    rw [hid', hown]
    simp [h.next]
  · rw [hid', hown, List.isChain_append]
    refine ⟨hid ▸ hold.chained, .singleton a, fun l hl a' ha' => ?_⟩
    obtain rfl : a = a' := by simpa using ha'
    have hlast : (s.historyOf id).getLast? = some l := hl
    have hstatus := hold.status
    rw [hid, Store.lastStatus, hlast] at hstatus
    exact h.previous.trans hstatus

theorem Outcome.agrees_iff {c : ChildCommit} (h : Outcome c.op c.tx s) (hs : s.WF)
    (hagrees : HistoryAgrees s) : HistoryAgrees (c.tx.view s) ↔ StatusCurrent s c := by
  cases h with
  | writtenBack back r q n h =>
    obtain ⟨v, ⟨hv, hr⟩, hhead⟩ := h.read
    have hold : CardAgrees s q := hagrees q (Table.mem_of_find h.children.before)
    have hid := (Table.id_of_find h.children.find_self).trans (Table.id_of_find h.children.before).symm
    have hid : n.id = q.id := hid
    have hhistory : ∀ i, (c.tx.view s).historyOf i = s.historyOf i := by
      intro i
      unfold Store.historyOf
      rw [h.history]
    have hread : cardRead c = some r := by
      simp only [cardRead, hhead, back, Option.bind_eq_bind, Option.bind_some]
      exact hr
    rw [historyAgrees_of_replaced hs.ids (unique_view hs.ids c.tx) hagrees h.children fun i _ => hhistory i]
    have hcurrent : StatusCurrent s c ↔ r.status = q.status := by
      constructor
      · intro hc
        have := hc _ back q h.children.before
        rw [hread] at this
        exact Option.some.inj this
      · intro hc i hi q' hq'
        obtain rfl := Option.some.inj (back.symm.trans hi)
        obtain rfl := Option.some.inj (h.children.before.symm.trans hq')
        rw [hread]
        exact congrArg some hc
    rw [hcurrent, ← h.status]
    constructor
    · intro hn
      refine hn.status.trans (Eq.trans ?_ hold.status.symm)
      unfold Store.lastStatus
      rw [hhistory, hid]
    · intro hn
      refine ⟨?_, ?_, h.sound (hv.sound r (Table.mem_of_find hr))⟩
      · rw [hn, hold.status]
        unfold Store.lastStatus
        rw [hhistory, hid]
      · rw [hhistory, hid]
        exact hold.chained
  | transitioned back q q' a h =>
    refine iff_of_true (h.agrees hs hagrees) fun i hi => ?_
    rw [back] at hi
    cases hi

end

/-- **Status and history.**  In every run, all cards agree with their history after each commit
exactly when every request that writes a card back has read it with the status it still has. -/
theorem history_iff {n : Nat} {s : Store} {cs : Schedule n} {σ : System n} (hs : s.WF)
    (hagrees : HistoryAgrees s) (hrun : run s cs = some σ) :
    Always HistoryAgrees s σ.log ↔ AtEach StatusCurrent s σ.log :=
  (chain_rows hs hrun).always_iff HistoryAgrees hagrees fun _ _ hc hi => hc.2.agrees_iff hc.1 hi

/-! ## A new photo against the archive -/

/-- An active child with its history. -/
def activeChild : Store where
  children := [⟨1, none, "Aru", 0, none, none, .active, none, some 5, none, none, none, none⟩]
  statusHistory := [⟨10, 1, .cardCreated, .active, none, none, 90, 5⟩]
  groupHistory := []

/-- The new photo has read the card; the child is archived; the photo is saved. -/
def photoAcrossArchive : Schedule 2 :=
  .start 0 (.updateChildPhoto 1 (some "photo")) :: Choice.steps 0 1 0 ++
    Choice.request 1 (.archiveChild 7 1 "left" 90) 5 11 ++ Choice.steps 0 2 0

theorem photoAcrossArchive_forgets : ∃ σ : System 2, activeChild.WF ∧ HistoryAgrees activeChild ∧
    run activeChild photoAcrossArchive = some σ ∧ ¬ Always HistoryAgrees activeChild σ.log := by
  obtain ⟨σ, hrun, h⟩ := run_shows run activeChild photoAcrossArchive
    (fun σ : System 2 => decide (¬ Always HistoryAgrees activeChild σ.log)) (by decide +kernel)
  exact ⟨σ, by decide, by decide, hrun, of_decide_eq_true h⟩

/-- The archive, the return, then the photo. -/
def photoAfterReturn : Schedule 1 :=
  Choice.request 0 (.archiveChild 7 1 "left" 90) 5 11 ++
    Choice.request 0 (.reactivateChild 8 1 90) 6 12 ++
    Choice.request 0 (.updateChildPhoto 1 (some "photo")) 3 0

theorem history_iff_photoAfterReturn : ∃ σ : System 1, run activeChild photoAfterReturn = some σ ∧
    σ.log.length = 3 ∧ Always HistoryAgrees activeChild σ.log := by
  obtain ⟨σ, hrun, h⟩ := run_shows run activeChild photoAfterReturn
    (fun σ : System 1 => decide (AtEach StatusCurrent activeChild σ.log) && σ.log.length == 3)
    (by decide +kernel)
  simp only [Bool.and_eq_true, decide_eq_true_eq, beq_iff_eq] at h
  exact ⟨σ, hrun, h.2, (history_iff (by decide) (by decide) hrun).2 h.1⟩

end Children
