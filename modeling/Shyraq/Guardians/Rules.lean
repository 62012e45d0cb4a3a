import Shyraq.Guardians.Services

/-!
# What a guardian request commits

Every request but the invitation reads one row, computes its next state and writes the whole row:
some where the status is still the one that was read, others whatever the row is by then.
`Changed` is that one write, seen from the commit; `safe_outcome` runs all requests.
-/

namespace Guardians

open Transactions

/-! ## Well-formed stores -/

/-- Ids are unique, and nobody has rights before the approval. -/
structure Store.WF (s : Store) : Prop where
  ids : Table.Unique s.guardians
  pending : ∀ g ∈ s.guardians, g.status = .pendingApproval → g.hasApprovalRights = false

instance (s : Store) : Decidable s.WF :=
  decidable_of_iff ((s.guardians.map ChildGuardian.id).Nodup ∧
      ∀ g ∈ s.guardians, g.status = .pendingApproval → g.hasApprovalRights = false)
    ⟨fun ⟨h₁, h₂⟩ => ⟨h₁, h₂⟩, fun ⟨h₁, h₂⟩ => ⟨h₁, h₂⟩⟩

theorem unique_apply {s : Store} (h : Table.Unique s.guardians) (w : Write) : Table.Unique (s.apply w).guardians := by
  cases w with
  | insert g =>
    show Table.Unique (if (s.guardian? g.id).isNone then s.guardians ++ [g] else s.guardians)
    split
    · next hn => exact Table.unique_append h (Option.isNone_iff_eq_none.1 hn)
    · exact h
  | update g => exact Table.unique_updateWhere h g.id _ _ fun _ => rfl
  | updateWithExpectedStatus g e => exact Table.unique_updateWhere h g.id _ _ fun _ => rfl

theorem unique_view {s : Store} (h : Table.Unique s.guardians) (t : Tx Store Key Write) :
    Table.Unique (t.view s).guardians := by
  unfold Tx.view
  generalize t.writes = ws
  induction ws generalizing s with
  | nil => exact h
  | cons w ws ih => exact ih (unique_apply h w)

/-! ## Requests as row changes -/

namespace ChildGuardian

/-- The columns that no UPDATE writes. -/
structure SameKey (g g' : ChildGuardian) : Prop where
  id : g'.id = g.id
  childId : g'.childId = g.childId
  userId : g'.userId = g.userId

theorem SameKey.refl (g : ChildGuardian) : SameKey g g := ⟨rfl, rfl, rfl⟩

theorem SameKey.trans {g₁ g₂ g₃ : ChildGuardian} (h₁ : SameKey g₁ g₂) (h₂ : SameKey g₂ g₃) :
    SameKey g₁ g₃ :=
  ⟨h₂.id.trans h₁.id, h₂.childId.trans h₁.childId, h₂.userId.trans h₁.userId⟩

theorem sameKey_saved (g row : ChildGuardian) : SameKey row (g.saved row) := ⟨rfl, rfl, rfl⟩

end ChildGuardian

namespace Op

/-- The next state of the row that was read.  An invitation changes no row. -/
def change : Op → ChildGuardian → Except GuardianError ChildGuardian
  | inviteGuardian childId userId _ _ => fun _ => .error (.duplicateGuardian childId userId)
  | updateGuardianRoleAndPickup _ _ role canPickup => fun g => g.updateRoleAndPickup role canPickup
  | revokeGuardianByAdmin now _ _ revoker => fun g => g.revoke revoker now
  | approveGuardianByAdmin now _ _ approver grant => fun g =>
      g.approve approver now (g.role == .primary || grant)
  | rejectGuardianByAdmin .. => fun g => g.reject
  | approveGuardian now primary _ grant => fun g => g.approve primary now grant
  | rejectGuardian .. => fun g => g.reject
  | revokeGuardianByPrimary now primary _ => fun g => g.revoke primary now
  | selfUnlinkFromChild now _ _ => fun g => g.revokeBySelf now
  | toggleGuardianApprovalRights _ _ grant => fun g => g.toggleApprovalRights grant
  | updateGuardianPermissions now primary _ permissions => fun g =>
      (GuardianPermissions.fromObject permissions).bind fun patch =>
        g.applyPermissionsPatch patch primary now
  | resetGuardianPermissions now primary _ => fun g => g.resetPermissions primary now
  | autoApprovePendingPrimary now _ _ => fun g => g.autoApproveAsPrimary now

/-- The row that the request names. -/
def target : Op → Option Nat
  | inviteGuardian .. | selfUnlinkFromChild .. => none
  | updateGuardianRoleAndPickup _ id _ _ | revokeGuardianByAdmin _ _ id _
  | approveGuardianByAdmin _ _ id _ _ | rejectGuardianByAdmin _ id | approveGuardian _ _ id _
  | rejectGuardian _ id | revokeGuardianByPrimary _ _ id | toggleGuardianApprovalRights _ id _
  | updateGuardianPermissions _ _ id _ | resetGuardianPermissions _ _ id
  | autoApprovePendingPrimary _ _ id => some id

/-- The row is written back whatever it is by then. -/
def writesBack : Op → Bool
  | updateGuardianRoleAndPickup .. | toggleGuardianApprovalRights .. | updateGuardianPermissions ..
  | resetGuardianPermissions .. | autoApprovePendingPrimary .. => true
  | _ => false

/-- A grant that the cap is checked for. -/
def counts : Op → ChildGuardian → Bool
  | approveGuardianByAdmin _ _ _ _ grant, g => (g.role == .primary || grant) && g.role != .primary
  | approveGuardian _ _ _ grant, _ => grant
  | toggleGuardianApprovalRights _ _ grant, g => grant && !g.hasApprovalRights
  | _, _ => false

/-- The approval of a `primary` by an admin or by the OTP hook: it carries the rights, and the cap
is not checked. -/
def approvesPrimary : Op → ChildGuardian → Bool
  | approveGuardianByAdmin .., g => g.role == .primary
  | autoApprovePendingPrimary .., _ => true
  | _, _ => false

end Op

/-- What a transition does to the key columns, the status and the rights. -/
inductive Effect (op : Op) (r n : ChildGuardian) : Prop
  /-- Role, pickup and permissions. -/
  | kept (back : op.writesBack = true) (key : ChildGuardian.SameKey r n) (status : n.status = r.status)
      (rights : n.hasApprovalRights = r.hasApprovalRights)
  | toggled (back : op.writesBack = true) (key : ChildGuardian.SameKey r n)
      (before : r.status = .approved) (status : n.status = .approved)
      (rights : n.hasApprovalRights = true → r.hasApprovalRights = true ∨ op.counts r = true)
  | autoApproved (back : op.writesBack = true) (key : ChildGuardian.SameKey r n)
      (before : r.status = .pendingApproval) (status : n.status = .approved)
      (primary : op.approvesPrimary r = true)
  | approved (back : op.writesBack = false) (key : ChildGuardian.SameKey r n)
      (before : r.status = .pendingApproval) (status : n.status = .approved)
      (rights : n.hasApprovalRights = true →
        r.hasApprovalRights = true ∨ op.counts r = true ∨ op.approvesPrimary r = true)
  | closed (back : op.writesBack = false) (key : ChildGuardian.SameKey r n)
      (before : r.status.terminal = false) (status : n.status.terminal = true)

theorem applyPermissionsPatch_eq {r n : ChildGuardian} {patch : GuardianPermissions} {u : Nat} {now : Int}
    (h : r.applyPermissionsPatch patch u now = .ok n) : ∃ permissions,
      n = { r with
        permissions := permissions
        permissionsUpdatedAt := some now
        permissionsUpdatedBy := some u } := by
  unfold ChildGuardian.applyPermissionsPatch at h
  split at h
  · cases h
  · cases hm : r.permissions.merge patch with
    | error e =>
      rw [hm] at h
      cases h
    | ok merged =>
      rw [hm] at h
      cases h
      exact ⟨merged, rfl⟩

theorem effect_of_approve {op : Op} {r n : ChildGuardian} {u : Nat} {now : Int} {grant : Bool}
    (back : op.writesBack = false) (h : r.approve u now grant = .ok n)
    (hgrant : grant = true → op.counts r = true ∨ op.approvesPrimary r = true) : Effect op r n := by
  unfold ChildGuardian.approve at h
  split at h
  · next hp =>
    cases h
    refine .approved back ⟨rfl, rfl, rfl⟩ hp rfl fun hr => ?_
    rcases Bool.or_eq_true_iff.1 hr with hg | hr
    · exact .inr (hgrant hg)
    · exact .inl hr
  · cases h

theorem effect_of_reject {op : Op} {r n : ChildGuardian} (back : op.writesBack = false)
    (h : r.reject = .ok n) : Effect op r n := by
  unfold ChildGuardian.reject at h
  split at h
  · next hp =>
    cases h
    exact .closed back ⟨rfl, rfl, rfl⟩ (by rw [hp]; rfl) rfl
  · cases h

theorem effect_of_revoke {op : Op} {r n : ChildGuardian} {u : Nat} {now : Int}
    (back : op.writesBack = false) (h : r.revoke u now = .ok n) : Effect op r n := by
  unfold ChildGuardian.revoke at h
  split at h
  · next hp =>
    cases h
    refine .closed back ⟨rfl, rfl, rfl⟩ ?_ rfl
    rcases hp with hp | hp <;> rw [hp] <;> rfl
  · cases h

theorem effect_of_change {op : Op} {r n : ChildGuardian} (h : op.change r = .ok n) : Effect op r n := by
  cases op with
  | inviteGuardian c u role pickup => cases h
  | updateGuardianRoleAndPickup c id role pickup =>
    simp only [Op.change, ChildGuardian.updateRoleAndPickup] at h
    split at h
    · cases h
    · cases h
      exact .kept rfl ⟨rfl, rfl, rfl⟩ rfl rfl
  | revokeGuardianByAdmin now c id u => exact effect_of_revoke rfl h
  | approveGuardianByAdmin now c id u grant =>
    refine effect_of_approve rfl h fun hg => ?_
    by_cases hp : r.role = .primary
    · exact .inr (by simp [Op.approvesPrimary, hp])
    · exact .inl (by simp [Op.counts, hp] at hg ⊢; exact hg)
  | rejectGuardianByAdmin c id => exact effect_of_reject rfl h
  | approveGuardian now u id grant => exact effect_of_approve rfl h fun hg => .inl hg
  | rejectGuardian u id => exact effect_of_reject rfl h
  | revokeGuardianByPrimary now u id => exact effect_of_revoke rfl h
  | selfUnlinkFromChild now u c =>
    simp only [Op.change, ChildGuardian.revokeBySelf] at h
    split at h
    · cases h
    · split at h
      · cases h
      · next hs =>
        cases h
        rw [not_not] at hs
        exact .closed rfl ⟨rfl, rfl, rfl⟩ (by rw [hs]; rfl) rfl
  | toggleGuardianApprovalRights u id grant =>
    simp only [Op.change, ChildGuardian.toggleApprovalRights] at h
    split at h
    · cases h
    · next hs =>
      cases h
      rw [not_not] at hs
      refine .toggled rfl ⟨rfl, rfl, rfl⟩ hs hs fun hg => ?_
      cases hr : r.hasApprovalRights with
      | true => exact .inl rfl
      | false =>
        refine .inr ?_
        have hg : grant = true := hg
        simp [Op.counts, hg, hr]
  | updateGuardianPermissions now u id permissions =>
    simp only [Op.change] at h
    cases hp : GuardianPermissions.fromObject permissions with
    | error e =>
      rw [hp] at h
      cases h
    | ok patch =>
      rw [hp] at h
      obtain ⟨merged, rfl⟩ := @applyPermissionsPatch_eq r n patch u now h
      exact .kept rfl ⟨rfl, rfl, rfl⟩ rfl rfl
  | resetGuardianPermissions now u id =>
    simp only [Op.change, ChildGuardian.resetPermissions] at h
    split at h
    · cases h
    · cases h
      exact .kept rfl ⟨rfl, rfl, rfl⟩ rfl rfl
  | autoApprovePendingPrimary now u id =>
    simp only [Op.change, ChildGuardian.autoApproveAsPrimary] at h
    split at h
    · cases h
    · split at h
      · cases h
      · next hs =>
        cases h
        rw [not_not] at hs
        exact .autoApproved rfl ⟨rfl, rfl, rfl⟩ hs rfl rfl

theorem sameKey_of_change {op : Op} {r n : ChildGuardian} (h : op.change r = .ok n) : ChildGuardian.SameKey r n := by
  cases effect_of_change h <;> assumption

theorem pending_of_change {op : Op} {r n : ChildGuardian} (h : op.change r = .ok n)
    (hr : r.status = .pendingApproval → r.hasApprovalRights = false)
    (hn : n.status = .pendingApproval) : n.hasApprovalRights = false := by
  cases effect_of_change h with
  | kept back key status rights =>
    rw [rights]
    exact hr (status.symm.trans hn)
  | toggled back key before status rights => exact absurd (status.symm.trans hn) (by decide)
  | autoApproved back key before status primary => exact absurd (status.symm.trans hn) (by decide)
  | approved back key before status rights => exact absurd (status.symm.trans hn) (by decide)
  | closed back key before status =>
    rw [hn] at status
    cases status

/-- The write of one row, seen from the commit: read as `r`, found as `g`, set to `n`. -/
structure Changed (Room : Nat → Store → Prop) (op : Op) (t : Tx Store Key Write) (s : Store)
    (r g n : ChildGuardian) : Prop where
  change : op.change r = .ok n
  read : ∃ v, (v.WF ∧ v.guardian? r.id = some r) ∧ t.seen.head? = some v
  target : ∀ i ∈ op.target, r.id = i
  row : Key.row r.id ∈ t.held
  key : ChildGuardian.SameKey r g
  rows : Table.Replaced s.guardians (t.view s).guardians r.id g (n.saved g)
  expected : op.writesBack = false → g.status = r.status
  room : op.counts r = true → Key.approvalRights r.childId ∈ t.held ∧ Room r.childId s

inductive Outcome (Room : Nat → Store → Prop) (op : Op) (t : Tx Store Key Write) (s : Store) : Prop
  | invited (g : ChildGuardian) (hstatus : g.status = .pendingApproval)
      (hrights : g.hasApprovalRights = false) (row : Key.row g.id ∈ t.held)
      (back : op.writesBack = false) (rows : Table.Added s.guardians (t.view s).guardians g)
  | changed (r g n : ChildGuardian) (h : Changed Room op t s r g n)

/-! ## The requests under the locks -/

/-- What the proofs need of a discipline: row locks, and `Room` under the lock of the cap. -/
structure Setting (D : Discipline Store Key Write) (J : Store → Prop) (Room : Nat → Store → Prop) :
    Prop where
  wf : ∀ s, J s → s.WF
  rows : ∀ held s s', D.rely held s s' →
    Table.Evolves ChildGuardian.SameKey (fun i => Key.row i ∈ held) s.guardians s'.guardians
  room : ∀ s childId, J s → s.approvalRights childId < 2 → Room childId s
  keep : ∀ held s s' childId, Key.approvalRights childId ∈ held → D.rely held s s' → J s → J s' →
    Room childId s → Room childId s'

/-- The row `r` was the answer of the first SELECT, and nothing is written yet. -/
abbrev Read (r : ChildGuardian) (t : Tx Store Key Write) : Prop :=
  t.FirstRead fun v => v.WF ∧ v.guardian? r.id = some r

/-- The row is still there. -/
def There (r : ChildGuardian) (s : Store) : Prop :=
  ∃ g, s.guardian? r.id = some g ∧ ChildGuardian.SameKey r g

section

variable {D : Discipline Store Key Write} {J : Store → Prop} {Room : Nat → Store → Prop}
  {X : GuardianError → Prop} {B : Type} {Q : Tx Store Key Write → Store → B → Prop}
  {t : Tx Store Key Write} {s : Store}

theorem Setting.and (hS : Setting D J Room) (φ : Store → Prop) : Setting D (fun s => J s ∧ φ s) Room where
  wf s h := hS.wf s h.1
  rows := hS.rows
  room s c h := hS.room s c h.1
  keep held s s' c hk hr h h' := hS.keep held s s' c hk hr h.1 h'.1

theorem Setting.there (hS : Setting D J Room) {held : List Key} {r : ChildGuardian} {s s' : Store}
    (hr : D.rely held s s') (h : There r s) : There r s' := by
  obtain ⟨g, hg, hkey⟩ := h
  obtain ⟨g', hg', hkey', -⟩ := (hS.rows _ _ _ hr).row _ _ hg
  exact ⟨g', hg', hkey.trans hkey'⟩

theorem guardian_at {s : Store} {i : Nat} {r : ChildGuardian} (h : s.guardian? i = some r) :
    s.guardian? r.id = some r := by
  have hid : r.id = i := Table.id_of_find h
  rwa [hid]

theorem safe_read (hS : Setting D J Room) (find : Store → Option ChildGuardian) {e : GuardianError}
    {f : ChildGuardian → Sql B} (hX : ∀ e, X e) (hfind : ∀ s r, s.WF → find s = some r → s.guardian? r.id = some r)
    (h : ∀ v r t' s', find v = some r → Read r t' → J s' ∧ There r s' →
      Prog.Safe D (fun s => J s ∧ There r s) X Q (f r) t' s') :
    Prog.Safe D J X Q (Prog.bind (Prog.query find) fun found => Prog.bind (Prog.require found e) f)
      .start s := by
  refine Prog.Safe.query fun v _ hj => Prog.Safe.require hX fun r hr => ?_
  have hrow : v.guardian? r.id = some r := hfind v r (hS.wf v hj) hr
  have hthere : There r v := ⟨r, hrow, .refl r⟩
  refine Prog.Safe.keep (There r) [] (List.nil_subset _) (fun _ _ hr _ _ => hS.there hr) hj hthere ?_
  exact h v r _ v hr (.start ⟨hS.wf v hj, hrow⟩) ⟨hj, hthere⟩

theorem safe_findOfChild (hS : Setting D J Room) {childId id : Nat} {f : ChildGuardian → Sql B} (hX : ∀ e, X e)
    (h : ∀ r t' s', r.id = id → Read r t' → J s' ∧ There r s' →
      Prog.Safe D (fun s => J s ∧ There r s) X Q (f r) t' s') :
    Prog.Safe D J X Q (Prog.bind (ChildService.findOfChild childId id) f) .start s := by
  unfold ChildService.findOfChild ChildGuardianRepository.findById
  simp only [Prog.bind_eq, Prog.bind_assoc]
  refine safe_read hS _ hX (fun s r _ hr => ?_) fun v r t' s' hr hread hj => ?_
  · exact guardian_at hr
  · exact Prog.Safe.guardOr hX fun _ => h r t' s' (Table.id_of_find hr) hread hj

theorem safe_findAsPrimary (hS : Setting D J Room) {primaryUserId id : Nat} {f : ChildGuardian → Sql B}
    (hX : ∀ e, X e) (h : ∀ r t' s', r.id = id → Read r t' → J s' ∧ There r s' →
      Prog.Safe D (fun s => J s ∧ There r s) X Q (f r) t' s') :
    Prog.Safe D J X Q (Prog.bind (ChildService.findAsPrimary primaryUserId id) f) .start s := by
  unfold ChildService.findAsPrimary ChildGuardianRepository.findById
    ChildService.assertCallerIsApprovedPrimary ChildGuardianRepository.findActiveByChildAndUser
  simp only [Prog.bind_eq, Prog.bind_assoc]
  refine safe_read hS _ hX (fun s r _ hr => ?_) fun v r t' s' hr hread hj => ?_
  · exact guardian_at hr
  · refine Prog.Safe.query fun s₂ _ hj₂ => Prog.Safe.guardOr hX fun _ => ?_
    exact h r (t'.saw s₂) s₂ (Table.id_of_find hr) (hread.saw s₂) hj₂

theorem safe_checkCap (hS : Setting D J Room) {needed : Bool} {childId : Nat} {r : ChildGuardian}
    {f : Unit → Sql B} (hX : ∀ e, X e) (hread : Read r t) (hj : J s)
    (h : ∀ t' s', Read r t' → (needed = true → Key.approvalRights childId ∈ t'.held) →
      J s' ∧ (needed = true → Room childId s') →
      Prog.Safe D (fun s => J s ∧ (needed = true → Room childId s)) X Q (f ()) t' s') :
    Prog.Safe D J X Q (Prog.bind (ChildService.checkApprovalRightsCap needed childId) f) t s := by
  unfold ChildService.checkApprovalRightsCap
  cases needed with
  | false =>
    have hr : (false = true) → Room childId s := fun hn => nomatch hn
    refine Prog.Safe.keep (fun s => false = true → Room childId s) [] (List.nil_subset _)
      (fun _ _ _ _ _ _ hn => nomatch hn) hj hr ?_
    exact h t s hread (fun hn => nomatch hn) ⟨hj, hr⟩
  | true =>
    unfold ChildGuardianRepository.acquireApprovalRightsLock ChildGuardianRepository.countApprovalRights
    simp only [if_true, Prog.bind_eq, Prog.bind_assoc]
    refine Prog.Safe.acquire fun s₁ _ hj₁ => Prog.Safe.query fun s₂ _ hj₂ => ?_
    refine Prog.Safe.guardOr hX fun hlt => ?_
    rw [Tx.view_of_unwritten (hread.locked _).unwritten, decide_eq_true_eq] at hlt
    have hroom : true = true → Room childId s₂ := fun _ => hS.room s₂ childId hj₂ hlt
    refine Prog.Safe.keep (fun s => true = true → Room childId s) [Key.approvalRights childId] ?_
      (fun _ _ hr hj hj' hm _ => hS.keep _ _ _ childId List.mem_cons_self hr hj hj' (hm rfl)) hj₂ hroom ?_
    · exact List.cons_subset.2 ⟨List.mem_cons_self, List.nil_subset _⟩
    · exact h _ s₂ ((hread.locked _).saw s₂) (fun _ => List.mem_cons_self) ⟨hj₂, hroom⟩

theorem safe_written (hS : Setting D J Room) {op : Op} {r g n : ChildGuardian} (hread : Read r t)
    (hthere : ∀ s, J s → There r s) (hchange : op.change r = .ok n) (htarget : ∀ i ∈ op.target, r.id = i)
    (hroom : op.counts r = true → Key.approvalRights r.childId ∈ t.held ∧ ∀ s, J s → Room r.childId s)
    {w : Write} {p : ChildGuardian → Bool} (hkey : Key.row r.id ∈ Store.keys w)
    (happly : ∀ s : Store, (s.apply w).guardians = Table.updateWhere s.guardians r.id p n.saved)
    (hj : J s) (hg : s.guardian? r.id = some g) (hp : p g = true)
    (hexpected : op.writesBack = false → g.status = r.status) (a : ChildGuardian) :
    Prog.Safe D J X (fun t s _ => Outcome Room op t s) (Prog.ret a) (t.wrote w) s := by
  refine Prog.Safe.keepAt (k := .row r.id) (φ := fun s => s.guardian? r.id) (List.mem_append_left _ hkey)
    (fun _ _ _ hk hr => (hS.rows _ _ _ hr).find_eq hk) hj hg ?_
  intro s₂ _ hj₂
  obtain ⟨g', hg', hsame⟩ := hthere s₂ hj₂.1
  have hgg : g' = g := Option.some.inj (hg'.symm.trans hj₂.2)
  subst hgg
  refine .changed r g' n ?_
  exact
    { change := hchange
      read := hread.first
      target := htarget
      row := List.mem_append_left _ hkey
      key := hsame
      rows := by
        rw [Tx.view_wrote, Tx.view_of_unwritten hread.unwritten]
        show Table.Replaced s₂.guardians (s₂.apply w).guardians r.id g' (n.saved g')
        rw [happly]
        exact .updateWhere (hS.wf s₂ hj₂.1).ids (fun _ => rfl) hj₂.2 hp
      expected := hexpected
      room := fun hc => ⟨List.mem_append_right _ (hroom hc).1, (hroom hc).2 s₂ hj₂.1⟩ }

theorem safe_save (hS : Setting D J Room) (op : Op) {r : ChildGuardian} (hX : ∀ e, X e)
    (hread : Read r t) (hthere : ∀ s, J s → There r s) (hback : op.writesBack = true)
    (htarget : ∀ i ∈ op.target, r.id = i)
    (hroom : op.counts r = true → Key.approvalRights r.childId ∈ t.held ∧ ∀ s, J s → Room r.childId s) :
    Prog.Safe D J X (fun t s _ => Outcome Room op t s) (ChildService.save (op.change r)) t s := by
  unfold ChildService.save
  refine Prog.Safe.ofExcept hX fun n hn => ?_
  have hid : n.id = r.id := (sameKey_of_change hn).id
  unfold ChildGuardianRepository.update
  refine Prog.Safe.insertOr hX fun s₁ _ hj₁ _ => ?_
  obtain ⟨g, hg, -⟩ := hthere s₁ hj₁
  refine safe_written hS (p := fun _ => true) hread hthere hn htarget hroom ?_ (fun s => ?_) hj₁ hg rfl ?_ n
  · rw [← hid]
    exact List.mem_cons_self
  · rw [← hid]
    rfl
  · intro hn
    rw [hback] at hn
    cases hn

theorem safe_saveExpected (hS : Setting D J Room) (op : Op) {r : ChildGuardian} (hX : ∀ e, X e)
    (hread : Read r t) (hthere : ∀ s, J s → There r s) (htarget : ∀ i ∈ op.target, r.id = i)
    (hroom : op.counts r = true → Key.approvalRights r.childId ∈ t.held ∧ ∀ s, J s → Room r.childId s) :
    Prog.Safe D J X (fun t s _ => Outcome Room op t s)
      (ChildService.saveExpected r (op.change r)) t s := by
  unfold ChildService.saveExpected
  refine Prog.Safe.ofExcept hX fun n hn => ?_
  have hid : n.id = r.id := (sameKey_of_change hn).id
  unfold ChildGuardianRepository.updateWithExpectedStatus
  refine Prog.Safe.update (fun s₁ _ hj₁ hh => ?_) fun _ _ _ _ => hX _
  rw [Tx.view_of_unwritten hread.unwritten] at hh
  obtain ⟨g, hg, -⟩ := hthere s₁ hj₁
  have hstatus : (g.status == r.status) = true := by
    have hh : (((s₁.guardian? n.id).any fun q => q.status == r.status) && s₁.indexable n) = true := hh
    rw [hid, hg, Bool.and_eq_true] at hh
    exact hh.1
  refine safe_written hS (p := fun q => q.status == r.status) hread hthere hn htarget hroom ?_
    (fun s => ?_) hj₁ hg hstatus (fun _ => by simpa using hstatus) n
  · rw [← hid]
    exact List.mem_cons_self
  · rw [← hid]
    rfl

theorem safe_invite (hS : Setting D J Room) (hX : ∀ e, X e) (childId userId : Nat)
    (role : GuardianRelation) (canPickup : Option Bool) :
    Prog.Safe D J X (fun t s _ => Outcome Room (.inviteGuardian childId userId role canPickup) t s)
      (ChildService.inviteGuardian childId userId role canPickup) .start s := by
  unfold ChildService.inviteGuardian ChildGuardianRepository.findActiveByChildAndUser
    ChildGuardianRepository.create
  refine Prog.Safe.query fun s₁ _ _ => Prog.Safe.guardOr hX fun _ => Prog.Safe.uuid fun s₂ id _ _ _ _ => ?_
  refine Prog.Safe.insertOr hX fun s₃ _ hj₃ hh => ?_
  generalize hg : ChildGuardian.createPending id childId userId role canPickup = g at hh ⊢
  have hnone : s₃.guardian? g.id = none := by
    have hh : ((s₃.guardian? g.id).isNone && s₃.indexable g) = true := hh
    rw [Bool.and_eq_true] at hh
    exact Option.isNone_iff_eq_none.1 hh.1
  refine Prog.Safe.keepAt (k := .row g.id) (φ := fun s => s.guardian? g.id)
    (List.mem_append_left _ List.mem_cons_self) (fun _ _ _ hk hr => (hS.rows _ _ _ hr).find_eq hk) hj₃ hnone ?_
  intro s₄ _ hj₄
  refine .invited g (by rw [← hg]; rfl) (by rw [← hg]; rfl)
    (List.mem_append_left _ List.mem_cons_self) rfl ?_
  rw [Tx.view_wrote, Tx.view_of_unwritten rfl]
  show Table.Added s₄.guardians (if (s₄.guardian? g.id).isNone then s₄.guardians ++ [g] else _) g
  rw [hj₄.2]
  exact .append hj₄.2

theorem safe_outcome (hS : Setting D J Room) (hX : ∀ e, X e) (op : Op) :
    Prog.Safe D J X (fun t s _ => Outcome Room op t s) op.prog .start s := by
  cases op with
  | inviteGuardian c u role pickup => exact safe_invite hS hX c u role pickup
  | updateGuardianRoleAndPickup c id role pickup =>
    refine safe_findOfChild hS hX fun r t' s' hid hread hj => ?_
    subst hid
    exact safe_save (hS.and _) (.updateGuardianRoleAndPickup c r.id role pickup) hX hread
      (fun _ h => h.2) rfl (fun _ hi => Option.some.inj hi) (fun hc => nomatch hc)
  | revokeGuardianByAdmin now c id u =>
    refine safe_findOfChild hS hX fun r t' s' hid hread hj => ?_
    subst hid
    exact safe_saveExpected (hS.and _) (.revokeGuardianByAdmin now c r.id u) hX hread
      (fun _ h => h.2) (fun _ hi => Option.some.inj hi) (fun hc => nomatch hc)
  | approveGuardianByAdmin now c id u grant =>
    refine safe_findOfChild hS hX fun r t' s' hid hread hj => ?_
    subst hid
    refine safe_checkCap (hS.and _) hX hread hj fun t₂ s₂ hread₂ hlock hj₂ => ?_
    exact safe_saveExpected ((hS.and _).and _) (.approveGuardianByAdmin now c r.id u grant) hX
      hread₂ (fun _ h => h.1.2) (fun _ hi => Option.some.inj hi)
      (fun hc => ⟨hlock hc, fun _ h => h.2 hc⟩)
  | rejectGuardianByAdmin c id =>
    refine safe_findOfChild hS hX fun r t' s' hid hread hj => ?_
    subst hid
    exact safe_saveExpected (hS.and _) (.rejectGuardianByAdmin c r.id) hX hread
      (fun _ h => h.2) (fun _ hi => Option.some.inj hi) (fun hc => nomatch hc)
  | approveGuardian now u id grant =>
    refine safe_findAsPrimary hS hX fun r t' s' hid hread hj => ?_
    subst hid
    refine safe_checkCap (hS.and _) hX hread hj fun t₂ s₂ hread₂ hlock hj₂ => ?_
    exact safe_saveExpected ((hS.and _).and _) (.approveGuardian now u r.id grant) hX hread₂
      (fun _ h => h.1.2) (fun _ hi => Option.some.inj hi)
      (fun hc => ⟨hlock hc, fun _ h => h.2 hc⟩)
  | rejectGuardian u id =>
    refine safe_findAsPrimary hS hX fun r t' s' hid hread hj => ?_
    subst hid
    exact safe_saveExpected (hS.and _) (.rejectGuardian u r.id) hX hread
      (fun _ h => h.2) (fun _ hi => Option.some.inj hi) (fun hc => nomatch hc)
  | revokeGuardianByPrimary now u id =>
    refine safe_findAsPrimary hS hX fun r t' s' hid hread hj => Prog.Safe.guardOr hX fun _ => ?_
    subst hid
    exact safe_saveExpected (hS.and _) (.revokeGuardianByPrimary now u r.id) hX hread
      (fun _ h => h.2) (fun _ hi => Option.some.inj hi) (fun hc => nomatch hc)
  | selfUnlinkFromChild now u c =>
    refine safe_read hS _ hX (fun s r hwf hr => ?_) fun v r t' s' hr hread hj => ?_
    · exact Table.find_of_mem hwf.ids (List.mem_of_find?_eq_some hr)
    refine Prog.Safe.guardOr hX fun _ => ?_
    exact safe_saveExpected (hS.and _) (.selfUnlinkFromChild now u c) hX hread
      (fun _ h => h.2) (fun _ hi => nomatch hi) (fun hc => nomatch hc)
  | toggleGuardianApprovalRights u id grant =>
    refine safe_findAsPrimary hS hX fun r t' s' hid hread hj => ?_
    subst hid
    refine safe_checkCap (hS.and _) hX hread hj fun t₂ s₂ hread₂ hlock hj₂ => ?_
    exact safe_save ((hS.and _).and _) (.toggleGuardianApprovalRights u r.id grant) hX hread₂
      (fun _ h => h.1.2) rfl (fun _ hi => Option.some.inj hi)
      (fun hc => ⟨hlock hc, fun _ h => h.2 hc⟩)
  | updateGuardianPermissions now u id permissions =>
    refine Prog.Safe.ofExcept hX fun patch hpatch => ?_
    refine safe_findAsPrimary hS hX fun r t' s' hid hread hj => ?_
    subst hid
    have hsave := safe_save (s := s') (hS.and _) (.updateGuardianPermissions now u r.id permissions)
      hX hread (fun _ h => h.2) rfl (fun _ hi => Option.some.inj hi) (fun hc => nomatch hc)
    simp only [Op.change, hpatch, Except.bind] at hsave
    exact hsave
  | resetGuardianPermissions now u id =>
    refine safe_findAsPrimary hS hX fun r t' s' hid hread hj => ?_
    subst hid
    exact safe_save (hS.and _) (.resetGuardianPermissions now u r.id) hX hread
      (fun _ h => h.2) rfl (fun _ hi => Option.some.inj hi) (fun hc => nomatch hc)
  | autoApprovePendingPrimary now u id =>
    refine safe_read hS (fun s => Table.find (s.guardians.filter fun g =>
      g.userId == u && g.role == .primary && g.status == .pendingApproval) id) hX
      (fun s r hwf hr => ?_) fun v r t' s' hr hread hj => ?_
    · exact Table.find_of_mem hwf.ids (List.mem_of_mem_filter (Table.mem_of_find hr))
    have hid : r.id = id := Table.id_of_find hr
    subst hid
    exact safe_save (hS.and _) (.autoApprovePendingPrimary now u r.id) hX hread
      (fun _ h => h.2) rfl (fun _ hi => Option.some.inj hi) (fun hc => nomatch hc)

end

end Guardians
