import Shyraq.Guardians.Rules

/-!
# Rejected and revoked guardians

Approve, reject, revoke and self-unlink write only where the status is still the one they read.
The role update, the rights toggle, the permission patches and the OTP hook write the whole row
back as they read it, so a row that was closed in between is opened again: exactly then a
terminal status does not last.
-/

namespace Guardians

open Transactions

/-- Rows stay; locked rows stay as they are. -/
def rowLocks : Discipline Store Key Write where
  rely held s s' :=
    Table.Evolves ChildGuardian.SameKey (fun i => Key.row i ∈ held) s.guardians s'.guardians
  refl _ s := .refl ChildGuardian.SameKey.refl s.guardians
  trans h₁ h₂ := h₁.trans (fun _ _ _ h h' => h.trans h') h₂
  mono hs h := h.mono fun _ hi => hs hi

theorem setting_rowLocks : Setting rowLocks Store.WF (fun _ _ => True) where
  wf _ h := h
  rows _ _ _ h := h
  room _ _ _ _ := trivial
  keep _ _ _ _ _ _ _ _ _ := trivial

section

variable {Room : Nat → Store → Prop} {op : Op} {t : Tx Store Key Write} {s : Store}

theorem Outcome.wf (h : Outcome Room op t s) (hs : s.WF) : (t.view s).WF where
  ids := unique_view hs.ids t
  pending := by
    intro q hq
    have hq' := Table.find_of_mem (unique_view hs.ids t) hq
    cases h with
    | invited g hstatus hrights _ _ rows =>
      rw [rows.after] at hq'
      split at hq'
      · cases hq'
        exact fun _ => hrights
      · exact hs.pending q (Table.mem_of_find hq')
    | changed r g n h =>
      rw [h.rows.after] at hq'
      split at hq'
      · cases hq'
        obtain ⟨v, ⟨hv, hr⟩, -⟩ := h.read
        show n.status = .pendingApproval → n.hasApprovalRights = false
        intro hn
        exact pending_of_change h.change (hv.pending r (Table.mem_of_find hr)) hn
      · exact hs.pending q (Table.mem_of_find hq')

theorem Outcome.evolves (h : Outcome Room op t s) {held : List Key} (hd : List.Disjoint t.held held) :
    Table.Evolves ChildGuardian.SameKey (fun i => Key.row i ∈ held) s.guardians (t.view s).guardians := by
  cases h with
  | invited g _ _ row _ rows => exact rows.evolves ChildGuardian.SameKey.refl fun hk => hd row hk
  | changed r g n h =>
    exact h.rows.evolves ChildGuardian.SameKey.refl (ChildGuardian.sameKey_saved n g)
      fun hk => hd h.row hk

end

theorem chain_rows {n : Nat} {s : Store} {cs : Schedule n} {σ : System n} (hs : s.WF) (hrun : run s cs = some σ) :
    Chain (fun s c => s.WF ∧ Outcome (fun _ _ => True) c.op c.tx s) s σ.log σ.db := by
  have hany : System.Starts (fun _ : Op => True) cs := fun _ _ _ => trivial
  exact System.exec_chain (X := fun _ => True) hs
    (fun op _ _ _ => safe_outcome setting_rowLocks (fun _ => trivial) op) (fun _ _ _ _ hs h => h.wf hs)
    (fun _ _ _ _ _ h _ hd => h.evolves hd) hany hrun

/-! ## Which commits open a closed row again -/

/-- The row has this status. -/
def HasStatus (i : Nat) (status : GuardianStatus) (s : Store) : Prop :=
  ∃ g, s.guardian? i = some g ∧ g.status = status

/-- A row that is rejected or revoked stays so, in every later committed state. -/
def TerminalForGood (s : Store) (log : List GuardianCommit) : Prop :=
  ∀ (i : Nat) (status : GuardianStatus), status.terminal = true → Lasting (HasStatus i status) s log

/-- The row that the request names, as its first SELECT found it. -/
def rowRead (c : GuardianCommit) : Option ChildGuardian := do
  let v ← c.tx.seen.head?
  let i ← c.op.target
  v.guardian? i

/-- A closed row that is written back was read with the status it has now. -/
def ReadClosed (s : Store) (c : GuardianCommit) : Prop :=
  c.op.writesBack = true → ∀ i ∈ c.op.target, ∀ g ∈ s.guardian? i, g.status.terminal = true →
    (rowRead c).map ChildGuardian.status = some g.status

instance (s : Store) (c : GuardianCommit) : Decidable (ReadClosed s c) :=
  inferInstanceAs (Decidable (_ → ∀ _ ∈ _, ∀ _ ∈ _, _))

theorem target_of_writesBack {op : Op} (h : op.writesBack = true) : ∃ i, op.target = some i := by
  cases op <;> first
    | exact ⟨_, rfl⟩
    | cases h

section

variable {Room : Nat → Store → Prop} {t : Tx Store Key Write} {s : Store} {op : Op}

theorem hasStatus_of_replaced {j : Nat} {g g' : ChildGuardian}
    (h : Table.Replaced s.guardians (t.view s).guardians j g g') :
    (∀ i status, status.terminal = true → HasStatus i status s → HasStatus i status (t.view s)) ↔
      (g.status.terminal = true → g'.status = g.status) := by
  constructor
  · intro hall hterminal
    obtain ⟨q, hq, hstatus⟩ := hall j g.status hterminal ⟨g, h.before, rfl⟩
    have hqg : q = g' := Option.some.inj (hq.symm.trans h.find_self)
    rw [← hqg]
    exact hstatus
  · rintro hrow i status hterminal ⟨q, hq, rfl⟩
    by_cases hi : i = j
    · subst hi
      have hqg : q = g := Option.some.inj (hq.symm.trans h.before)
      subst hqg
      exact ⟨g', h.find_self, hrow hterminal⟩
    · exact ⟨q, (h.find_of_ne hi).trans hq, rfl⟩

theorem Outcome.lasts_iff {c : GuardianCommit} (h : Outcome Room c.op c.tx s) :
    (∀ i status, status.terminal = true → HasStatus i status s → HasStatus i status (c.tx.view s)) ↔
      ReadClosed s c := by
  cases h with
  | invited g hstatus hrights row back rows =>
    refine iff_of_true ?_ fun hb => ?_
    · rintro i status - ⟨q, hq, hstatus⟩
      refine ⟨q, ?_, hstatus⟩
      have hi : i ≠ g.id := by
        rintro rfl
        exact nomatch (rows.before.symm.trans hq)
      exact (rows.after i).trans ((if_neg hi).trans hq)
    · rw [back] at hb
      cases hb
  | changed r g n h =>
    rw [hasStatus_of_replaced h.rows]
    show (g.status.terminal = true → n.status = g.status) ↔ _
    obtain ⟨v, ⟨hv, hr⟩, hhead⟩ := h.read
    have hread : c.op.writesBack = true → (ReadClosed s c ↔
        (g.status.terminal = true → r.status = g.status)) := by
      intro hb
      obtain ⟨i, hi⟩ := target_of_writesBack hb
      have hid : r.id = i := h.target i hi
      subst hid
      have hrow : rowRead c = some r := by
        simp only [rowRead, hhead, hi, Option.bind_eq_bind, Option.bind_some]
        exact hr
      constructor
      · intro hc ht
        have := hc hb r.id hi g h.rows.before ht
        rw [hrow] at this
        exact Option.some.inj this
      · intro hc _ j hj q hq ht
        have hji : r.id = j := Option.some.inj (hi.symm.trans hj)
        subst hji
        have hqg : q = g := Option.some.inj (hq.symm.trans h.rows.before)
        subst hqg
        rw [hrow]
        exact congrArg some (hc ht)
    -- a conditional write has found the row live
    have hlive : c.op.writesBack = false → r.status.terminal = false →
        ((g.status.terminal = true → n.status = g.status) ↔ ReadClosed s c) := by
      intro hb hl
      refine iff_of_true (fun ht => ?_) fun hb' => ?_
      · rw [h.expected hb, hl] at ht
        cases ht
      · rw [hb] at hb'
        cases hb'
    cases effect_of_change h.change with
    | kept back key status rights => rw [hread back, status]
    | toggled back key before status rights => rw [hread back, status, before]
    | autoApproved back key before status primary =>
      rw [hread back, status, before]
      constructor
      · intro ha ht
        rw [← ha ht] at ht
        cases ht
      · intro ha ht
        rw [← ha ht] at ht
        cases ht
    | approved back key before status rights =>
      refine hlive back ?_
      rw [before]
      rfl
    | closed back key before status => exact hlive back before

end

/-- **Terminal states.**  In every run, rejected and revoked rows stay so exactly when every
request that writes back a closed row has read it closed. -/
theorem terminal_iff {n : Nat} {s : Store} {cs : Schedule n} {σ : System n} (hs : s.WF)
    (hrun : run s cs = some σ) : TerminalForGood s σ.log ↔ AtEach ReadClosed s σ.log := by
  have hchain := chain_rows hs hrun
  have hstep : TerminalForGood s σ.log ↔ AtEach (fun s c => ∀ (i : Nat) (status : GuardianStatus),
      status.terminal = true → HasStatus i status s → HasStatus i status (c.tx.view s)) s σ.log := by
    unfold TerminalForGood
    simp only [lasting_iff]
    rw [← AtEach.forall]
    refine forall_congr' fun i => ?_
    rw [← AtEach.forall]
    refine forall_congr' fun status => ?_
    rw [← AtEach.forall]
  rw [hstep]
  exact AtEach.congr (hchain.mono fun s c hc => hc.2.lasts_iff).atEach

/-! ## A role update against a revocation -/

/-- A guardian as it is approved. -/
def approvedGuardian (id userId : Nat) (role : GuardianRelation) : ChildGuardian :=
  { ChildGuardian.createPending id 1 userId role none with
    status := .approved, approvedBy := some 50, approvedAt := some 0 }

/-- Child 1 with its primary and a nanny. -/
def twoGuardians : Store := ⟨[approvedGuardian 10 50 .primary, approvedGuardian 11 51 .nanny]⟩

/-- The role update has read the nanny; she is revoked; the role update goes on. -/
def updateAcrossRevoke : Schedule 2 :=
  .start 0 (.updateGuardianRoleAndPickup 1 11 none (some false)) :: Choice.steps 0 1 0 ++
    Choice.request 1 (.revokeGuardianByAdmin 7 1 11 90) 3 0 ++ Choice.steps 0 2 0

theorem updateAcrossRevoke_reopens : ∃ σ : System 2, twoGuardians.WF ∧
    run twoGuardians updateAcrossRevoke = some σ ∧ ¬ TerminalForGood twoGuardians σ.log := by
  obtain ⟨σ, hrun, h⟩ := run_shows run twoGuardians updateAcrossRevoke
    (fun σ : System 2 => (((replay twoGuardians (σ.log.take 1)).guardian? 11).map ChildGuardian.status
      == some .revoked) && ((replay twoGuardians σ.log).guardian? 11).map ChildGuardian.status
      == some .approved) (by decide +kernel)
  simp only [Bool.and_eq_true, beq_iff_eq, Option.map_eq_some_iff] at h
  obtain ⟨hrevoked, g, hg, happroved⟩ := h
  refine ⟨σ, by decide, hrun, fun hgood => ?_⟩
  obtain ⟨g', hg', hstatus⟩ := hgood 11 .revoked rfl (σ.log.take 1) σ.log (List.take_prefix 1 _)
    List.prefix_rfl hrevoked
  have hgg : g' = g := Option.some.inj (hg'.symm.trans hg)
  rw [hgg, happroved] at hstatus
  cases hstatus

/-- The revocation, then an update of the primary. -/
def revokeThenUpdate : Schedule 1 :=
  Choice.request 0 (.revokeGuardianByAdmin 7 1 11 90) 3 0 ++
    Choice.request 0 (.updateGuardianRoleAndPickup 1 10 none (some false)) 3 0

theorem terminal_iff_oneByOne : ∃ σ : System 1, run twoGuardians revokeThenUpdate = some σ ∧
    σ.log.length = 2 ∧ TerminalForGood twoGuardians σ.log := by
  obtain ⟨σ, hrun, h⟩ := run_shows run twoGuardians revokeThenUpdate
    (fun σ : System 1 => decide (AtEach ReadClosed twoGuardians σ.log) && σ.log.length == 2)
    (by decide +kernel)
  simp only [Bool.and_eq_true, decide_eq_true_eq, beq_iff_eq] at h
  exact ⟨σ, hrun, h.2, (terminal_iff (by decide) hrun).2 h.1⟩

end Guardians
