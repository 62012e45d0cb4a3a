import Shyraq.Guardians.TerminalStates

/-!
# At most two guardians with approval rights

A grant by a parent, a grant by an admin to a secondary or a nanny, and the toggle count the
holders under the lock of the child.  A `primary` that an admin or the OTP hook approves carries
the rights whatever the count; besides these the cap of two stands, as long as no request writes
back a status or a right that is out of date.
-/

namespace Guardians

open Transactions

/-- A holder of this child that is not among `primaries`. -/
def ChildGuardian.countedBeyond (primaries : List Nat) (childId : Nat) (g : ChildGuardian) : Bool :=
  g.countedFor childId && !primaries.contains g.id

def Store.rightsBeyond (s : Store) (primaries : List Nat) (childId : Nat) : Nat :=
  s.guardians.countP (ChildGuardian.countedBeyond primaries childId)

/-- The `primary` that the request approves past the cap. -/
def primaryApproved (c : GuardianCommit) : Option Nat :=
  (rowRead c).bind fun r => if c.op.approvesPrimary r then some r.id else none

def primariesApproved (log : List GuardianCommit) : List Nat := log.filterMap primaryApproved

/-- A row that is written back has the status and the rights that were read. -/
def ReadCurrent (s : Store) (c : GuardianCommit) : Prop :=
  c.op.writesBack = true → ∀ i ∈ c.op.target, ∀ g ∈ s.guardian? i,
    (rowRead c).map (fun r => (r.status, r.hasApprovalRights)) = some (g.status, g.hasApprovalRights)

instance (s : Store) (c : GuardianCommit) : Decidable (ReadCurrent s c) :=
  inferInstanceAs (Decidable (_ → ∀ _ ∈ _, ∀ _ ∈ _, _))

/-- Rows stay; under the lock of a child, nobody but the `primaries` comes to hold rights. -/
structure RightsMove (primaries : List Nat) (held : List Key) (s s' : Store) : Prop where
  rows : Table.Evolves ChildGuardian.SameKey (fun i => Key.row i ∈ held) s.guardians s'.guardians
  holders : ∀ i g', s'.guardian? i = some g' → Key.approvalRights g'.childId ∈ held →
    g'.holdsRights = true → i ∉ primaries →
    ∃ g, s.guardian? i = some g ∧ ChildGuardian.SameKey g g' ∧ g.holdsRights = true

def rightsLocks (primaries : List Nat) : Discipline Store Key Write where
  rely := RightsMove primaries
  refl _ s := ⟨.refl ChildGuardian.SameKey.refl s.guardians, fun i g' h _ hr _ => ⟨g', h, .refl g', hr⟩⟩
  trans h₁ h₂ := by
    refine ⟨h₁.rows.trans (fun _ _ _ h h' => h.trans h') h₂.rows, fun i g₃ hg₃ hk hr hi => ?_⟩
    obtain ⟨g₂, hg₂, hkey₂, hr₂⟩ := h₂.holders i g₃ hg₃ hk hr hi
    obtain ⟨g₁, hg₁, hkey₁, hr₁⟩ := h₁.holders i g₂ hg₂ (hkey₂.childId ▸ hk) hr₂ hi
    exact ⟨g₁, hg₁, hkey₁.trans hkey₂, hr₁⟩
  mono hs h := ⟨h.rows.mono fun _ hi => hs hi, fun i g' hg' hk => h.holders i g' hg' (hs hk)⟩

variable {primaries : List Nat}

/-- Room for one more holder. -/
def RoomBeyond (primaries : List Nat) (childId : Nat) (s : Store) : Prop :=
  s.rightsBeyond primaries childId ≤ 1

theorem countedBeyond_iff {childId : Nat} {g : ChildGuardian} : g.countedBeyond primaries childId = true ↔
      g.childId = childId ∧ g.holdsRights = true ∧ g.id ∉ primaries := by
  simp [ChildGuardian.countedBeyond, ChildGuardian.countedFor, and_assoc]

theorem rightsBeyond_le_approvalRights (s : Store) (childId : Nat) :
    s.rightsBeyond primaries childId ≤ s.approvalRights childId := by
  refine List.countP_mono_left fun g _ hg => ?_
  have hg : (g.countedFor childId && !primaries.contains g.id) = true := hg
  rw [Bool.and_eq_true] at hg
  exact hg.1

/-- Under the lock of the child the holders beyond the primaries only become fewer. -/
theorem keep_room {held : List Key} {childId : Nat} {s s' : Store}
    (hk : Key.approvalRights childId ∈ held) (h : RightsMove primaries held s s') (hs : s.WF)
    (hs' : s'.WF) (hroom : RoomBeyond primaries childId s) : RoomBeyond primaries childId s' := by
  refine Nat.le_trans ?_ hroom
  refine Table.countP_le_countP hs'.ids hs.ids fun i g' hg' hp => ?_
  obtain ⟨hchild, hr, hi⟩ := countedBeyond_iff.1 hp
  have hid : g'.id = i := Table.id_of_find hg'
  rw [hid] at hi
  obtain ⟨g, hg, hkey, hr'⟩ := h.holders i g' hg' (hchild ▸ hk) hr hi
  refine ⟨g, hg, countedBeyond_iff.2 ⟨hkey.childId.symm.trans hchild, hr', ?_⟩⟩
  rwa [← hkey.id, hid]

theorem setting_rightsLocks : Setting (rightsLocks primaries) Store.WF (RoomBeyond primaries) where
  wf _ h := h
  rows _ _ _ h := h.rows
  room s childId _ h := by
    have hle : s.rightsBeyond primaries childId ≤ s.approvalRights childId :=
      rightsBeyond_le_approvalRights s childId
    unfold RoomBeyond
    omega
  keep _ _ _ _ hk hr hs hs' h := keep_room hk hr hs hs' h

/-! ## Who comes to hold rights -/

/-- What the run is asked: no write-back out of date, and these are the primaries. -/
def WithPrimaries (primaries : List Nat) (s : Store) (c : GuardianCommit) : Prop :=
  ReadCurrent s c ∧ ∀ i ∈ primaryApproved c, i ∈ primaries

section

variable {c : GuardianCommit} {s : Store} {r g n : ChildGuardian}

theorem holdsRights_iff : g.holdsRights = true ↔ g.status = .approved ∧ g.hasApprovalRights = true := by
  simp [ChildGuardian.holdsRights]

theorem rowRead_of_changed (h : Changed (RoomBeyond primaries) c.op c.tx s r g n) {i : Nat}
    (hi : c.op.target = some i) : rowRead c = some r := by
  obtain ⟨v, ⟨-, hr⟩, hhead⟩ := h.read
  have hid : r.id = i := h.target i hi
  subst hid
  simp only [rowRead, hhead, hi, Option.bind_eq_bind, Option.bind_some]
  exact hr

theorem mem_primaries (h : Changed (RoomBeyond primaries) c.op c.tx s r g n)
    (hc : WithPrimaries primaries s c) (hp : c.op.approvesPrimary r = true) : r.id ∈ primaries := by
  have htarget : ∃ i, c.op.target = some i := by
    cases hop : c.op <;> rw [hop] at hp <;> first
      | exact ⟨_, rfl⟩
      | cases hp
  obtain ⟨i, hi⟩ := htarget
  refine hc.2 r.id ?_
  simp [primaryApproved, rowRead_of_changed h hi, hp]

theorem holdsRights_of_changed (h : Changed (RoomBeyond primaries) c.op c.tx s r g n)
    (hc : WithPrimaries primaries s c) (hn : n.holdsRights = true) : g.holdsRights = true ∨ r.id ∈ primaries ∨
      (Key.approvalRights r.childId ∈ c.tx.held ∧ RoomBeyond primaries r.childId s) := by
  rw [holdsRights_iff] at hn
  -- a write-back finds what it has read
  have current : c.op.writesBack = true → g.status = r.status ∧ g.hasApprovalRights = r.hasApprovalRights := by
    intro hb
    obtain ⟨i, hi⟩ := target_of_writesBack hb
    have hid : r.id = i := h.target i hi
    have hcur := hc.1 hb i hi g (hid ▸ h.rows.before)
    rw [rowRead_of_changed h hi] at hcur
    simp only [Option.map_some, Option.some.injEq, Prod.mk.injEq] at hcur
    exact ⟨hcur.1.symm, hcur.2.symm⟩
  cases effect_of_change h.change with
  | kept back key status rights =>
    obtain ⟨hs, hr⟩ := current back
    left
    rw [holdsRights_iff, hs, hr, ← status, ← rights]
    exact hn
  | toggled back key before status rights =>
    obtain ⟨hs, hr⟩ := current back
    rcases rights hn.2 with hrights | hcounts
    · left
      rw [holdsRights_iff, hs, hr]
      exact ⟨before, hrights⟩
    · exact .inr (.inr (h.room hcounts))
  | autoApproved back key before status primary => exact .inr (.inl (mem_primaries h hc primary))
  | approved back key before status rights =>
    rcases rights hn.2 with hrights | hcounts | hprimary
    · -- nobody holds rights while pending
      obtain ⟨v, ⟨hv, hr⟩, -⟩ := h.read
      rw [hv.pending r (Table.mem_of_find hr) before] at hrights
      cases hrights
    · exact .inr (.inr (h.room hcounts))
    · exact .inr (.inl (mem_primaries h hc hprimary))
  | closed back key before status =>
    rw [hn.1] at status
    cases status

theorem Outcome.rightsMove (h : Outcome (RoomBeyond primaries) c.op c.tx s)
    (hc : WithPrimaries primaries s c) {held : List Key} (hd : List.Disjoint c.tx.held held) :
    RightsMove primaries held s (c.tx.view s) := by
  refine ⟨h.evolves hd, ?_⟩
  intro i g' hg' hk hr hi
  cases h with
  | invited q hstatus hrights row back rows =>
    have hrow := (rows.after i).symm.trans hg'
    split at hrow
    · cases hrow
      rw [holdsRights_iff, hrights] at hr
      cases hr.2
    · exact ⟨g', hrow, .refl g', hr⟩
  | changed r g n h =>
    have hrow := (h.rows.after i).symm.trans hg'
    split at hrow
    · next hir =>
      subst hir
      cases hrow
      have hn : n.holdsRights = true := hr
      rcases holdsRights_of_changed h hc hn with hg | hp | ⟨hlock, -⟩
      · exact ⟨g, h.rows.before, ChildGuardian.sameKey_saved n g, hg⟩
      · exact absurd hp hi
      · refine (hd hlock ?_).elim
        rw [← h.key.childId]
        exact hk
    · exact ⟨g', hrow, .refl g', hr⟩

/-- The cap of two, besides the primaries. -/
def CappedBeyond (primaries : List Nat) (s : Store) : Prop :=
  ∀ childId, s.rightsBeyond primaries childId ≤ 2

theorem Outcome.capped (h : Outcome (RoomBeyond primaries) c.op c.tx s)
    (hc : WithPrimaries primaries s c) (hs : CappedBeyond primaries s) : CappedBeyond primaries (c.tx.view s) := by
  intro childId
  have hcap := hs childId
  unfold Store.rightsBeyond at hcap ⊢
  cases h with
  | invited q hstatus hrights row back rows =>
    have hcount := rows.countP (ChildGuardian.countedBeyond primaries childId)
    have hq : ¬ q.countedBeyond primaries childId = true := by
      rw [countedBeyond_iff, holdsRights_iff, hrights]
      exact fun hq => nomatch hq.2.1.2
    rw [if_neg hq] at hcount
    omega
  | changed r g n h =>
    have hcount := h.rows.countP (ChildGuardian.countedBeyond primaries childId)
    by_cases hn : (n.saved g).countedBeyond primaries childId = true
    · rw [if_pos hn] at hcount
      obtain ⟨hchild, hrights, hid⟩ := countedBeyond_iff.1 hn
      have hn' : n.holdsRights = true := hrights
      rcases holdsRights_of_changed h hc hn' with hg | hp | ⟨-, hroom⟩
      · have hg' : g.countedBeyond primaries childId = true := countedBeyond_iff.2 ⟨hchild, hg, hid⟩
        rw [if_pos hg'] at hcount
        omega
      · refine absurd ?_ hid
        show g.id ∈ primaries
        rw [h.key.id]
        exact hp
      · have hroom : s.guardians.countP (ChildGuardian.countedBeyond primaries r.childId) ≤ 1 := hroom
        have hrc : r.childId = childId := h.key.childId.symm.trans hchild
        rw [hrc] at hroom
        split at hcount <;> omega
    · rw [if_neg hn] at hcount
      split at hcount <;> omega

end

/-- **The cap.**  At most two guardians of a child hold approval rights besides those that were
approved as `primary`, in every run whose write-backs are not out of date. -/
theorem approvalRights_capped {n : Nat} {s : Store} {cs : Schedule n} {σ : System n} (hs : s.WF)
    (hcap : ∀ childId, s.approvalRights childId ≤ 2) (hrun : run s cs = some σ)
    (hcurrent : AtEach ReadCurrent s σ.log) :
    ∀ childId, σ.db.rightsBeyond (primariesApproved σ.log) childId ≤ 2 := by
  generalize hp : primariesApproved σ.log = primaries
  have hC : AtEach (WithPrimaries primaries) s σ.log := by
    refine hcurrent.and (AtEach.of_mem fun c hc i hi => ?_)
    rw [← hp]
    exact List.mem_filterMap.2 ⟨c, hc, hi⟩
  have hK : System.Keeps (rightsLocks primaries) Store.WF
      (fun op t s (_ : ChildGuardian) => Outcome (RoomBeyond primaries) op t s) (WithPrimaries primaries) n :=
    ⟨fun s c hs h _ => h.wf hs, fun _ s c _ h hc held hd => Outcome.rightsMove (c := c) h hc hd⟩
  have hany : System.Starts (fun _ : Op => True) cs := fun _ _ _ => trivial
  have hchain := (System.exec_chain_if (X := fun _ => True) hs hK
    (fun op _ _ _ => safe_outcome setting_rightsLocks (fun _ => trivial) op) hany hrun hC).and hC
  refine hchain.inv (CappedBeyond primaries) (fun childId => ?_) fun s c hs h => h.1.2.capped h.2 hs
  exact Nat.le_trans (rightsBeyond_le_approvalRights s childId) (hcap childId)

/-! ## A third holder -/

/-- An admin grants the rights to two secondaries, then approves the primary. -/
def threeApprovals : Schedule 1 :=
  Choice.request 0 (.approveGuardianByAdmin 1 1 20 90 true) 5 0 ++
    Choice.request 0 (.approveGuardianByAdmin 2 1 21 90 true) 5 0 ++
    Choice.request 0 (.approveGuardianByAdmin 3 1 22 90 false) 3 0

def threePending : Store :=
  ⟨[ChildGuardian.createPending 20 1 60 .secondary none,
    ChildGuardian.createPending 21 1 61 .secondary none,
    ChildGuardian.createPending 22 1 62 .primary none]⟩

theorem threePending_capped (childId : Nat) : threePending.approvalRights childId ≤ 2 := by
  have : threePending.approvalRights childId = 0 := by
    refine List.countP_eq_zero.2 fun g hg hc => ?_
    have hnone : ∀ g ∈ threePending.guardians, g.holdsRights = false := by decide
    rw [ChildGuardian.countedFor, hnone g hg, Bool.and_false] at hc
    cases hc
  omega

/-- The primary is approved past the cap: three holders. -/
theorem primary_exceeds_cap : ∃ σ : System 1, threePending.WF ∧
    (∀ childId, threePending.approvalRights childId ≤ 2) ∧
    run threePending threeApprovals = some σ ∧ ¬ ∀ childId, σ.db.approvalRights childId ≤ 2 := by
  obtain ⟨σ, hrun, h⟩ := run_shows run threePending threeApprovals
    (fun σ : System 1 => σ.db.approvalRights 1 == 3) (by decide +kernel)
  rw [beq_iff_eq] at h
  refine ⟨σ, by decide, threePending_capped, hrun, fun hcap => ?_⟩
  have := hcap 1
  omega

theorem approvalRights_capped_threeApprovals : ∃ σ : System 1, run threePending threeApprovals = some σ ∧
    primariesApproved σ.log = [22] ∧ ∀ childId, σ.db.rightsBeyond [22] childId ≤ 2 := by
  obtain ⟨σ, hrun, h⟩ := run_shows run threePending threeApprovals
    (fun σ : System 1 => decide (AtEach ReadCurrent threePending σ.log) && primariesApproved σ.log == [22])
    (by decide +kernel)
  simp only [Bool.and_eq_true, decide_eq_true_eq, beq_iff_eq] at h
  refine ⟨σ, hrun, h.2, ?_⟩
  rw [← h.2]
  exact approvalRights_capped (by decide) threePending_capped hrun h.1

end Guardians
