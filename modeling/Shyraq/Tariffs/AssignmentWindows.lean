import Shyraq.Tariffs.PlanWindows

/-!
# The windows of one child's assignments

`assign` and `update` check overlap under the lock of the child.  `close` and
`closeActiveForChild` take no lock: they only bring the end of a window forward, as long as the
window has started and, for `close`, the row is as it was read.
-/

namespace Tariffs

open Kernel Transactions

/-! ## What others may do to the assignments -/

/-- An assignment row as it may be later. -/
structure TariffAssignment.Step (a a' : TariffAssignment) : Prop where
  id : a'.id = a.id
  childId : a'.childId = a.childId
  validFrom : a'.validFrom = a.validFrom

theorem TariffAssignment.Step.refl (a : TariffAssignment) : TariffAssignment.Step a a := ⟨rfl, rfl, rfl⟩

variable {a : TariffAssignment} {held : List Key} {childId : Nat}

theorem TariffAssignment.Step.trans {b c : TariffAssignment} (h₁ : TariffAssignment.Step a b)
    (h₂ : TariffAssignment.Step b c) : TariffAssignment.Step a c :=
  ⟨h₂.id.trans h₁.id, h₂.childId.trans h₁.childId, h₂.validFrom.trans h₁.validFrom⟩

/-- Rows stay; under the lock of a child, its windows are cut at most. -/
structure AssignmentMoves (held : List Key) (s s' : Store) : Prop where
  assignments : Table.Evolves TariffAssignment.Step (fun i => Key.row i ∈ held) s.assignments s'.assignments
  windows : ∀ i a', s'.assignment? i = some a' → Key.assignChild a'.childId ∈ held →
    ∃ a, s.assignment? i = some a ∧ TariffAssignment.Step a a' ∧ Window.Within a'.window a.window

/-- The locks of the assignments. -/
def assignmentLocks : Discipline Store Key Write where
  rely := AssignmentMoves
  refl held s := by
    refine ⟨.refl TariffAssignment.Step.refl _, ?_⟩
    intro i a' ha' _
    exact ⟨a', ha', .refl a', .refl _⟩
  trans h₁ h₂ := by
    refine ⟨h₁.assignments.trans (fun _ _ _ h h' => h.trans h') h₂.assignments, ?_⟩
    intro i a₃ ha₃ hk
    obtain ⟨a₂, ha₂, hs₂, hw₂⟩ := h₂.windows i a₃ ha₃ hk
    obtain ⟨a₁, ha₁, hs₁, hw₁⟩ := h₁.windows i a₂ ha₂ (hs₂.childId ▸ hk)
    exact ⟨a₁, ha₁, hs₁.trans hs₂, hw₂.trans hw₁⟩
  mono hs h :=
    ⟨h.assignments.mono fun _ hi => hs hi, fun i a' ha' hk => h.windows i a' ha' (hs hk)⟩

/-! ## What each request does -/

/-- The window meets no assignment of the child but the excluded one. -/
def ClearOf (excludeId : Option Nat) (childId : Nat) (w : Window Int) (s : Store) : Prop :=
  ∀ i b, some i ≠ excludeId → s.assignment? i = some b → b.childId = childId → Window.Apart w b.window

theorem keep_clearOf {excludeId : Option Nat} {w : Window Int}
    {s s' : Store} (hk : Key.assignChild childId ∈ held) (hm : AssignmentMoves held s s')
    (h : ClearOf excludeId childId w s) : ClearOf excludeId childId w s' := by
  intro i b' hi hb' hc
  obtain ⟨b, hb, hstep, hwin⟩ := hm.windows i b' hb' (hc ▸ hk)
  exact (h i b hi hb (hstep.childId ▸ hc)).within (.refl w) hwin

/-- A new assignment. -/
structure Assigned (a : TariffAssignment) (t : Tx Store Key Write) (s : Store) : Prop where
  assignments : Table.Added s.assignments (t.view s).assignments a
  row : Key.row a.id ∈ t.held
  lock : Key.assignChild a.childId ∈ t.held
  hydrates : a.fromState = .ok a
  clear : ClearOf none a.childId a.window s

/-- A patched assignment: its window is as it was, or checked. -/
structure AssignmentUpdated (a a' : TariffAssignment) (t : Tx Store Key Write) (s : Store) : Prop where
  assignments : Table.Replaced s.assignments (t.view s).assignments a.id a a'
  row : Key.row a.id ∈ t.held
  step : TariffAssignment.Step a a'
  hydrates : a'.fromState = .ok a'
  window : a'.window = a.window ∨
    (Key.assignChild a.childId ∈ t.held ∧ ClearOf (some a.id) a.childId a'.window s)

/-- A closed assignment: `e` is the row as it was read, `a` the row it is written over. -/
structure AssignmentClosed (now : Int) (e a : TariffAssignment) (t : Tx Store Key Write) (s : Store) :
    Prop where
  read : ∃ v ∈ t.seen, v.assignment? a.id = some e
  assignments : Table.Replaced s.assignments (t.view s).assignments a.id a ((e.close now).saved a)
  row : Key.row a.id ∈ t.held
  step : TariffAssignment.Step e a
  hydrates : e.fromState = .ok e

/-- A row that the bulk UPDATE has left alone, or cut. -/
def Clamped (childId : Nat) (day : Int) (found : List TariffAssignment) (held : List Key)
    (a a' : TariffAssignment) : Prop :=
  a' = a ∨ (a' = { a with validUntil := some day } ∧ a.openAfter childId day = true ∧
    Key.row a.id ∈ held ∧ ∃ e ∈ found, TariffAssignment.Step e a)

/-- All open windows of a child are cut. -/
structure ClosedForChild (childId : Nat) (day : Int) (t : Tx Store Key Write) (s : Store) : Prop where
  assignments : ∃ v ∈ t.seen,
    Table.Rewrites (Clamped childId day (v.assignments.filter (TariffAssignment.openAfter childId day)) t.held)
      s.assignments (t.view s).assignments

inductive AssignmentOutcome (t : Tx Store Key Write) (s : Store) : Op → Prop
  | assigned {input} (a : TariffAssignment) (h : Assigned a t s) : AssignmentOutcome t s (.assign input)
  | updated {id dto} (a a' : TariffAssignment) (h : AssignmentUpdated a a' t s) :
      AssignmentOutcome t s (.updateAssignment id dto)
  | closed {now id} (e a : TariffAssignment) (hid : a.id = id) (h : AssignmentClosed now e a t s) :
      AssignmentOutcome t s (.closeAssignment now id)
  | closedForChild {childId validUntil} (h : ClosedForChild childId (utcDay validUntil) t s) :
      AssignmentOutcome t s (.closeActiveForChild childId validUntil)
  | planCreated {input} (h : (t.view s).assignments = s.assignments) :
      AssignmentOutcome t s (.createPlan input)
  | planUpdated {id dto} (h : (t.view s).assignments = s.assignments) :
      AssignmentOutcome t s (.updatePlan id dto)
  | planDeactivated {now id} (h : (t.view s).assignments = s.assignments) :
      AssignmentOutcome t s (.deactivatePlan now id)

/-! ## Closing inside the window -/

/-- A request that closes finds a window that has started, and does not put the end of a row off
that has been brought forward since it was read. -/
def ClosesInside (s : Store) (c : TariffCommit) : Prop :=
  match c.op with
  | .closeAssignment now id => ∀ v ∈ c.tx.seen, ∀ e ∈ v.assignment? id,
      (e.validUntil = none → e.validFrom ≤ utcDay now) ∧
        ∀ a ∈ s.assignment? id, ∀ u ∈ a.validUntil, e.validUntil.getD (utcDay now) ≤ u
  | .closeActiveForChild childId validUntil => ∀ v ∈ c.tx.seen, ∀ e ∈ v.assignments,
      e.openAfter childId (utcDay validUntil) = true → e.validFrom ≤ utcDay validUntil
  | _ => True

instance (s : Store) : (c : TariffCommit) → Decidable (ClosesInside s c)
  | ⟨.closeAssignment now id, t, _⟩ => inferInstanceAs (Decidable (∀ v ∈ t.seen, ∀ e ∈ v.assignment? id,
      (e.validUntil = none → e.validFrom ≤ utcDay now) ∧
        ∀ a ∈ s.assignment? id, ∀ u ∈ a.validUntil, e.validUntil.getD (utcDay now) ≤ u))
  | ⟨.closeActiveForChild childId validUntil, t, _⟩ =>
      inferInstanceAs (Decidable (∀ v ∈ t.seen, ∀ e ∈ v.assignments,
        e.openAfter childId (utcDay validUntil) = true → e.validFrom ≤ utcDay validUntil))
  | ⟨.createPlan _, _, _⟩ | ⟨.updatePlan _ _, _, _⟩ | ⟨.deactivatePlan _ _, _, _⟩ | ⟨.assign _, _, _⟩
  | ⟨.updateAssignment _ _, _, _⟩ => .isTrue trivial

theorem hydrates_close {now : Int} {e : TariffAssignment} (hok : e.fromState = .ok e)
    (hstarted : e.validUntil = none → e.validFrom ≤ utcDay now) :
    ((e.close now).saved a).fromState = .ok ((e.close now).saved a) := by
  obtain ⟨-, hamount, hord⟩ := TariffAssignment.fromState_eq_ok_iff.1 hok
  rw [TariffAssignment.fromState_eq_ok_iff]
  refine ⟨rfl, hamount, ?_⟩
  rintro u ⟨⟩
  show e.validFrom ≤ e.validUntil.getD (utcDay now)
  cases hu : e.validUntil with
  | none => exact hstarted hu
  | some v => exact hord v hu

theorem step_close {now : Int} {e : TariffAssignment} (hstep : TariffAssignment.Step e a) :
    TariffAssignment.Step a ((e.close now).saved a) := ⟨rfl, rfl, hstep.validFrom.symm⟩

theorem within_close {now : Int} {e : TariffAssignment} (hstep : TariffAssignment.Step e a)
    (hend : ∀ u ∈ a.validUntil, e.validUntil.getD (utcDay now) ≤ u) :
    Window.Within ((e.close now).saved a).window a.window :=
  ⟨hstep.validFrom.symm, fun u hu => ⟨_, rfl, hend u hu⟩⟩

section

variable {childId : Nat} {day : Int} {found : List TariffAssignment} {held : List Key}
  {a a' : TariffAssignment}

theorem Clamped.step (h : Clamped childId day found held a a') : TariffAssignment.Step a a' := by
  rcases h with rfl | ⟨rfl, -⟩
  · exact .refl _
  · exact ⟨rfl, rfl, rfl⟩

theorem Clamped.within (h : Clamped childId day found held a a') : Window.Within a'.window a.window := by
  rcases h with rfl | ⟨rfl, hopen, -⟩
  · exact .refl _
  · refine ⟨rfl, fun u hu => ⟨day, rfl, ?_⟩⟩
    simp only [TariffAssignment.openAfter, Bool.and_eq_true, Option.all_eq_true, decide_eq_true_eq] at hopen
    exact (hopen.2 u hu).le

theorem Clamped.hydrates (h : Clamped childId day found held a a') (hfound : ∀ e ∈ found, e.validFrom ≤ day)
    (hok : a.fromState = .ok a) : a'.fromState = .ok a' := by
  rcases h with rfl | ⟨rfl, -, -, e, he, hstep⟩
  · exact hok
  · obtain ⟨-, hamount, -⟩ := TariffAssignment.fromState_eq_ok_iff.1 hok
    rw [TariffAssignment.fromState_eq_ok_iff]
    refine ⟨rfl, hamount, ?_⟩
    rintro u ⟨⟩
    show a.validFrom ≤ day
    rw [hstep.validFrom]
    exact hfound e he

end

/-! ## What a commit does to the windows -/

/-- A row is new or changed, and its window checked; all others are cut at most. -/
structure WindowsMove (t : Tx Store Key Write) (s : Store) : Prop where
  rows : ∀ i a', (t.view s).assignment? i = some a' →
    (∃ a, s.assignment? i = some a ∧ TariffAssignment.Step a a' ∧ Window.Within a'.window a.window) ∨
      (Key.assignChild a'.childId ∈ t.held ∧ ClearOf (some i) a'.childId a'.window s)
  one : ∀ i j a' b', (t.view s).assignment? i = some a' → (t.view s).assignment? j = some b' → i ≠ j →
    (∃ a, s.assignment? i = some a ∧ TariffAssignment.Step a a' ∧ Window.Within a'.window a.window) ∨
      s.assignment? j = some b'

section

variable {t : Tx Store Key Write} {s : Store} {c : TariffCommit}

theorem windowsMove_replaced {a' : TariffAssignment}
    (h : Table.Replaced s.assignments (t.view s).assignments a.id a a') (hstep : TariffAssignment.Step a a')
    (hw : Window.Within a'.window a.window ∨
      (Key.assignChild a'.childId ∈ t.held ∧ ClearOf (some a.id) a'.childId a'.window s)) : WindowsMove t s := by
  have others : ∀ i b, i ≠ a.id → (t.view s).assignment? i = some b → s.assignment? i = some b := by
    intro i b hi hb
    unfold Store.assignment? at hb ⊢
    rwa [h.after, if_neg hi] at hb
  have self : ∀ b, (t.view s).assignment? a.id = some b → b = a' := by
    intro b hb
    unfold Store.assignment? at hb
    rw [h.after, if_pos rfl] at hb
    exact (Option.some.inj hb).symm
  constructor
  · intro i b hb
    by_cases hi : i = a.id
    · subst hi
      have hba := self b hb
      subst hba
      rcases hw with hw | hw
      · exact .inl ⟨a, h.before, hstep, hw⟩
      · exact .inr hw
    · exact .inl ⟨b, others i b hi hb, .refl b, .refl _⟩
  · intro i j b d hb hd hij
    by_cases hi : i = a.id
    · exact .inr (others j d (by omega) hd)
    · exact .inl ⟨b, others i b hi hb, .refl b, .refl _⟩

theorem windowsMove_added
    (h : Table.Added s.assignments (t.view s).assignments a) (hlock : Key.assignChild a.childId ∈ t.held)
    (hclear : ClearOf none a.childId a.window s) : WindowsMove t s := by
  have others : ∀ i b, i ≠ a.id → (t.view s).assignment? i = some b → s.assignment? i = some b := by
    intro i b hi hb
    unfold Store.assignment? at hb ⊢
    rwa [h.after, if_neg (show i ≠ Row.id a from hi)] at hb
  have self : ∀ b, (t.view s).assignment? a.id = some b → b = a := by
    intro b hb
    unfold Store.assignment? at hb
    rw [h.after, if_pos (show a.id = Row.id a from rfl)] at hb
    exact (Option.some.inj hb).symm
  constructor
  · intro i b hb
    by_cases hi : i = a.id
    · subst hi
      have hba := self b hb
      subst hba
      exact .inr ⟨hlock, fun i d _ hd => hclear i d (by simp) hd⟩
    · exact .inl ⟨b, others i b hi hb, .refl b, .refl _⟩
  · intro i j b d hb hd hij
    by_cases hi : i = a.id
    · exact .inr (others j d (by omega) hd)
    · exact .inl ⟨b, others i b hi hb, .refl b, .refl _⟩

theorem windowsMove_rewrites {ρ : TariffAssignment → TariffAssignment → Prop}
    (h : Table.Rewrites ρ s.assignments (t.view s).assignments) (hstep : ∀ a a', ρ a a' → TariffAssignment.Step a a')
    (hw : ∀ a a', ρ a a' → Window.Within a'.window a.window) : WindowsMove t s := by
  have cut : ∀ i a', (t.view s).assignment? i = some a' →
      ∃ a, s.assignment? i = some a ∧ TariffAssignment.Step a a' ∧ Window.Within a'.window a.window := by
    intro i a' ha'
    obtain ⟨a, ha, hρ⟩ := h.row_before ha'
    exact ⟨a, ha, hstep _ _ hρ, hw _ _ hρ⟩
  exact ⟨fun i a' ha' => .inl (cut i a' ha'), fun i j a' b' ha' _ _ => .inl (cut i a' ha')⟩

theorem AssignmentOutcome.windowsMove (h : AssignmentOutcome c.tx s c.op) (hin : ClosesInside s c) :
    WindowsMove c.tx s := by
  obtain ⟨op, t, a⟩ := c
  have same : (t.view s).assignments = s.assignments → WindowsMove t s := by
    intro he
    have hre : Table.Rewrites Eq s.assignments (t.view s).assignments := by
      rw [he]
      exact Table.Rewrites.refl (fun _ => rfl) s.assignments
    refine windowsMove_rewrites hre ?_ ?_
    · rintro a _ rfl
      exact .refl _
    · rintro a _ rfl
      exact .refl _
  cases h with
  | assigned a h => exact windowsMove_added h.assignments h.lock h.clear
  | updated a a' h =>
    refine windowsMove_replaced h.assignments h.step ?_
    rcases h.window with hw | hw
    · exact .inl (hw ▸ .refl _)
    · rw [h.step.childId]
      exact .inr hw
  | @closed now id e a hid h =>
    subst hid
    obtain ⟨v, hv, he⟩ := h.read
    have hin : ∀ v ∈ t.seen, ∀ e ∈ v.assignment? a.id, (e.validUntil = none → e.validFrom ≤ utcDay now) ∧
        ∀ b ∈ s.assignment? a.id, ∀ u ∈ b.validUntil, e.validUntil.getD (utcDay now) ≤ u := hin
    exact windowsMove_replaced h.assignments (step_close h.step)
      (.inl (within_close h.step ((hin v hv e he).2 a h.assignments.before)))
  | closedForChild h =>
    obtain ⟨v, -, hre⟩ := h.assignments
    exact windowsMove_rewrites hre (fun _ _ h => h.step) fun _ _ h => h.within
  | planCreated h => exact same h
  | planUpdated h => exact same h
  | planDeactivated h => exact same h

theorem ClosedForChild.evolves {day : Int} (h : ClosedForChild childId day t s) (hd : List.Disjoint t.held held) :
    Table.Evolves TariffAssignment.Step (fun i => Key.row i ∈ held) s.assignments (t.view s).assignments := by
  obtain ⟨v, -, hre⟩ := h.assignments
  constructor
  · intro i a ha
    obtain ⟨a', ha', hc⟩ := hre.row ha
    refine ⟨a', ha', hc.step, fun hi => ?_⟩
    rcases hc with he | ⟨-, -, hrow, -⟩
    · exact he
    · have hid : a.id = i := Table.id_of_find ha
      exact (hd hrow (hid ▸ hi)).elim
  · exact fun i _ ha => hre.absent ha

theorem AssignmentOutcome.guarantee (h : AssignmentOutcome c.tx s c.op) (hin : ClosesInside s c) :
    assignmentLocks.Guarantee c.tx s := by
  intro held hd
  have hrefl := TariffAssignment.Step.refl
  refine ⟨?_, ?_⟩
  · have same : (c.tx.view s).assignments = s.assignments →
        Table.Evolves TariffAssignment.Step (fun i => Key.row i ∈ held) s.assignments
          (c.tx.view s).assignments := by
      intro he
      rw [he]
      exact .refl hrefl _
    obtain ⟨op, t, a⟩ := c
    cases h with
    | assigned a h => exact h.assignments.evolves hrefl fun hk => hd h.row hk
    | updated a a' h => exact h.assignments.evolves hrefl h.step fun hk => hd h.row hk
    | closed e a hid h => exact h.assignments.evolves hrefl (step_close h.step) fun hk => hd h.row hk
    | closedForChild h => exact h.evolves hd
    | planCreated h => exact same h
    | planUpdated h => exact same h
    | planDeactivated h => exact same h
  · intro i a' ha' hk
    rcases (h.windowsMove hin).rows i a' ha' with hcut | ⟨hlock, -⟩
    · exact hcut
    · exact (hd hlock hk).elim

end

/-! ## The invariant -/

/-- Every row hydrates. -/
def Store.AssignmentsHydrate (s : Store) : Prop := ∀ a ∈ s.assignments, a.fromState = .ok a

/-- The windows of one child share no day. -/
def Store.ChildrenApart (s : Store) : Prop :=
  ∀ a ∈ s.assignments, ∀ b ∈ s.assignments, a.id ≠ b.id → a.childId = b.childId →
    Window.Apart a.window b.window

section

variable {t : Tx Store Key Write} {s : Store} {c : TariffCommit}

theorem WindowsMove.childrenApart (h : WindowsMove t s) (hwf : s.WF) (hs : s.ChildrenApart) :
    (t.view s).ChildrenApart := by
  have hfind : ∀ a ∈ (t.view s).assignments, (t.view s).assignment? a.id = some a := fun a ha =>
    Table.find_of_mem (hwf.view t).assignmentIds ha
  -- a checked window is apart from a row that is as it was, a cut one from any cut one
  have key : ∀ a' ∈ (t.view s).assignments, ∀ b' ∈ (t.view s).assignments, a'.id ≠ b'.id →
      a'.childId = b'.childId → s.assignment? b'.id = some b' → Window.Apart a'.window b'.window := by
    intro a' ha' b' hb' hne hc hb
    rcases h.rows a'.id a' (hfind a' ha') with ⟨a, ha, hstep, hw⟩ | ⟨-, hclear⟩
    · have hid : a.id = a'.id := Table.id_of_find ha
      refine (hs a (Table.mem_of_find ha) b' (Table.mem_of_find hb) (by omega) ?_).within hw (.refl _)
      rw [← hstep.childId, hc]
    · exact hclear b'.id b' (by simpa using hne.symm) hb hc.symm
  intro a' ha' b' hb' hne hc
  rcases h.one a'.id b'.id a' b' (hfind a' ha') (hfind b' hb') hne with ⟨a, ha, hstep, hw⟩ | hb
  · rcases h.one b'.id a'.id b' a' (hfind b' hb') (hfind a' ha') hne.symm with ⟨b, hb, hstep', hw'⟩ | ha₀
    · have hid : a.id = a'.id := Table.id_of_find ha
      have hid' : b.id = b'.id := Table.id_of_find hb
      refine (hs a (Table.mem_of_find ha) b (Table.mem_of_find hb) (by omega) ?_).within hw hw'
      rw [← hstep.childId, ← hstep'.childId, hc]
    · exact (key b' hb' a' ha' hne.symm hc.symm ha₀).symm
  · exact key a' ha' b' hb' hne hc hb

theorem AssignmentOutcome.hydrate (h : AssignmentOutcome c.tx s c.op) (hin : ClosesInside s c)
    (hwf : s.WF) (hs : s.AssignmentsHydrate) : (c.tx.view s).AssignmentsHydrate := by
  obtain ⟨op, t, r⟩ := c
  have hfind : ∀ a ∈ (t.view s).assignments, (t.view s).assignment? a.id = some a := fun a ha =>
    Table.find_of_mem (hwf.view t).assignmentIds ha
  have same : (t.view s).assignments = s.assignments → (t.view s).AssignmentsHydrate := by
    intro he a ha
    rw [he] at ha
    exact hs a ha
  have replaced : ∀ {a a'}, Table.Replaced s.assignments (t.view s).assignments a.id a a' →
      a'.fromState = .ok a' → (t.view s).AssignmentsHydrate := by
    intro a a' hrep hok b hb
    have hb' := hfind b hb
    unfold Store.assignment? at hb'
    rw [hrep.after] at hb'
    split at hb'
    · cases hb'
      exact hok
    · exact hs b (Table.mem_of_find hb')
  cases h with
  | assigned a h =>
    intro b hb
    have hb' := hfind b hb
    unfold Store.assignment? at hb'
    rw [h.assignments.after] at hb'
    split at hb'
    · cases hb'
      exact h.hydrates
    · exact hs b (Table.mem_of_find hb')
  | updated a a' h => exact replaced h.assignments h.hydrates
  | @closed now id e a hid h =>
    subst hid
    obtain ⟨v, hv, he⟩ := h.read
    have hin : ∀ v ∈ t.seen, ∀ e ∈ v.assignment? a.id, (e.validUntil = none → e.validFrom ≤ utcDay now) ∧
        ∀ b ∈ s.assignment? a.id, ∀ u ∈ b.validUntil, e.validUntil.getD (utcDay now) ≤ u := hin
    exact replaced h.assignments (hydrates_close h.hydrates (hin v hv e he).1)
  | @closedForChild childId validUntil h =>
    obtain ⟨v, hv, hre⟩ := h.assignments
    have hin : ∀ v ∈ t.seen, ∀ e ∈ v.assignments,
        e.openAfter childId (utcDay validUntil) = true → e.validFrom ≤ utcDay validUntil := hin
    intro b hb
    obtain ⟨a, ha, hc⟩ := hre.row_before (hfind b hb)
    refine hc.hydrates (fun e he => ?_) (hs a (Table.mem_of_find ha))
    obtain ⟨he, hopen⟩ := List.mem_filter.1 he
    exact hin v hv e he hopen
  | planCreated h => exact same h
  | planUpdated h => exact same h
  | planDeactivated h => exact same h

end

/-! ## The requests one by one -/

section

variable {J : Store → Prop} {X : TariffError → Prop} {B : Type}
  {Q : Tx Store Key Write → Store → B → Prop} {t : Tx Store Key Write} {s : Store}

theorem clearOf_of_existsOverlap {w : Window Int} {excludeId : Option Nat} (h : (s.assignments.any fun a =>
      a.childId == childId && w.overlaps a.window && some a.id != excludeId) = false) :
    ClearOf excludeId childId w s := by
  intro i b hi hb hc
  have hid : b.id = i := Table.id_of_find hb
  have hno := List.any_eq_false.1 h b (Table.mem_of_find hb)
  have hne : (some b.id != excludeId) = true := by
    rw [hid]
    simpa using hi
  rw [hc, hne, beq_self_eq_true, Bool.true_and, Bool.and_true] at hno
  exact Window.apart_of_overlaps (by simpa using hno)

theorem safe_checkAssignment {w : Window Int} {excludeId : Option Nat} {e : TariffError}
    {f : Unit → Sql B} (hX : ∀ e, X e) (hwrites : t.writes = [])
    (h : ∀ t' s', t'.writes = [] → Key.assignChild childId ∈ t'.held → J s' →
      Prog.Safe assignmentLocks (fun s => J s ∧ ClearOf excludeId childId w s) X Q (f ()) t' s') :
    Prog.Safe assignmentLocks J X Q
      (Prog.bind (TariffAssignmentRepository.acquireAssignChildAdvisoryLock childId) fun _ =>
        Prog.bind (TariffAssignmentRepository.existsOverlap childId w excludeId) fun overlap =>
          Prog.bind (Prog.guardOr (!overlap) e) f) t s := by
  refine Prog.Safe.acquire fun s₁ _ hj₁ => ?_
  refine Prog.Safe.query fun s₂ _ hj₂ => Prog.Safe.guardOr hX fun hno => ?_
  rw [Tx.view_of_unwritten (show (t.locked (Key.assignChild childId)).writes = [] from hwrites),
    Bool.not_eq_true'] at hno
  refine Prog.Safe.keep (ClearOf excludeId childId w) [Key.assignChild childId] ?_ ?_ hj₂
    (clearOf_of_existsOverlap hno) (h _ s₂ hwrites List.mem_cons_self hj₂)
  · exact List.cons_subset.2 ⟨List.mem_cons_self, List.nil_subset _⟩
  · intro s₃ s₄ hr _ _ hc
    exact keep_clearOf List.mem_cons_self hr hc

end

section

variable {X : TariffError → Prop} {s : Store}

theorem safe_assign (hX : ∀ e, X e) (input : AssignTariffInput) :
    Prog.Safe assignmentLocks Store.WF X (fun t s _ => ∃ a, Assigned a t s)
      (TariffAssignmentService.assign input) .start s := by
  unfold TariffAssignmentService.assign TariffPlanRepository.findById
  simp only [Prog.bind_eq, Prog.bind_assoc]
  refine Prog.Safe.query fun s₁ _ hj₁ => safe_found hX fun _ plan _ _ => ?_
  refine safe_checkAssignment hX rfl fun t₂ s₂ hw₂ hlock hj₂ => ?_
  refine Prog.Safe.uuid fun s₃ id _ hj₃ _ _ => ?_
  unfold TariffAssignmentRepository.create
  generalize ha : TariffAssignmentService.newRow id input = a
  refine Prog.Safe.insertOr hX fun s₄ _ hj₄ hh => ?_
  have hw : (t₂.locked (Relational.rowKey Store id)).writes = [] := hw₂
  have hnone : s₄.assignment? a.id = none := by
    rw [Tx.view_of_unwritten hw] at hh
    have hh : ((s₄.assignment? a.id).isNone && (s₄.plan? a.tariffPlanId).isSome) = true := hh
    rw [Bool.and_eq_true] at hh
    exact Option.isNone_iff_eq_none.1 hh.1
  refine Prog.Safe.keepAt (k := .row a.id) (φ := fun s => s.assignment? a.id)
    (List.mem_append_left _ List.mem_cons_self) (fun _ _ _ hk hr => hr.assignments.find_eq hk) hj₄ hnone ?_
  cases hok : a.fromState with
  | error m => exact hX _
  | ok a' =>
    obtain ⟨rfl, -, -⟩ := TariffAssignment.fromState_eq_ok_iff.1 hok
    intro s₅ _ hj₅
    have hview : ((t₂.locked (Relational.rowKey Store id)).wrote (.insertAssignment a')).view s₅ =
        { s₅ with assignments := s₅.assignments ++ [a'] } := by
      rw [Tx.view_wrote, Tx.view_of_unwritten hw]
      show ({ s₅ with assignments := _ } : Store) = _
      rw [hj₅.2]
      rfl
    have hchild : a'.childId = input.childId := by
      rw [← ha]
      rfl
    refine ⟨a', ?_, List.mem_append_left _ List.mem_cons_self, ?_, hok, ?_⟩
    · rw [hview]
      exact .append hj₅.2
    · rw [hchild]
      exact List.mem_append_right _ (List.mem_cons_of_mem _ hlock)
    · subst ha
      exact hj₅.1.2

/-- The row is still there, its child and its first day as they were. -/
def AssignmentThere (a : TariffAssignment) (s : Store) : Prop :=
  ∃ b, s.assignment? a.id = some b ∧ TariffAssignment.Step a b

theorem keep_assignmentThere {s' : Store}
    (hm : AssignmentMoves held s s') (h : AssignmentThere a s) : AssignmentThere a s' := by
  obtain ⟨b, hb, hs⟩ := h
  obtain ⟨b', hb', hs', -⟩ := hm.assignments.row _ _ hb
  exact ⟨b', hb', hs.trans hs'⟩

theorem step_patchAssignment (dto : UpdateTariffAssignmentDto) (a : TariffAssignment) :
    TariffAssignment.Step a (dto.patch.set a) := ⟨rfl, rfl, rfl⟩

/-- A patch without an end leaves the window alone; with one, the window is the checked one. -/
theorem window_patchAssignment (dto : UpdateTariffAssignmentDto) {b : TariffAssignment}
    (h : TariffAssignment.Step a b) : (dto.validUntil = none → (dto.patch.set b).window = b.window) ∧
      (dto.validUntil ≠ none → (dto.patch.set b).window = TariffAssignmentService.newWindow a dto.patch) := by
  have hfrom : b.validFrom = a.validFrom := h.validFrom
  constructor
  · intro hu
    simp [TariffAssignment.window, UpdateTariffAssignmentPatch.set, UpdateTariffAssignmentDto.patch, hu]
  · intro hu
    obtain ⟨u, hu⟩ := Option.ne_none_iff_exists'.1 hu
    simp [TariffAssignment.window, UpdateTariffAssignmentPatch.set, UpdateTariffAssignmentDto.patch,
      TariffAssignmentService.newWindow, hu, hfrom]

theorem safe_patchAssignment {J : Store → Prop} (hJ : ∀ s, J s → s.WF) (hX : ∀ e, X e)
    {t : Tx Store Key Write} (hw : t.writes = []) (id : Nat) (patch : UpdateTariffAssignmentPatch) (e : TariffError) :
    Prog.Safe assignmentLocks J X
      (fun t' s' _ => J s' ∧ t.held ⊆ t'.held ∧ Key.row id ∈ t'.held ∧
        ∃ a, Table.Replaced s'.assignments (t'.view s').assignments id a (patch.set a) ∧
          (patch.set a).fromState = .ok (patch.set a))
      (Prog.bind (TariffAssignmentRepository.update id patch) fun updated => Prog.require updated e)
      t s := by
  unfold TariffAssignmentRepository.update
  simp only [Prog.bind_eq, Prog.bind_assoc]
  refine Prog.Safe.returning (fun s₁ _ hj₁ hh => ?_) fun _ _ _ _ => hX _
  rw [Tx.view_of_unwritten hw] at hh
  obtain ⟨a, ha⟩ := Option.isSome_iff_exists.1 (show (s₁.assignment? id).isSome = true from hh)
  refine Prog.Safe.keepAt (k := .row id) (φ := fun s => s.assignment? id) (List.mem_append_left _ List.mem_cons_self)
    (fun _ _ _ hk hr => hr.assignments.find_eq hk) hj₁ ha ?_
  refine Prog.Safe.query fun s₂ _ hj₂ => ?_
  have hview : ∀ s : Store, ((t.wrote (.updateAssignment id patch)).view s).assignments =
      Table.updateWhere s.assignments id (fun _ => true) patch.set := by
    intro s
    rw [Tx.view_wrote, Tx.view_of_unwritten hw]
    rfl
  have hrow : ((t.wrote (.updateAssignment id patch)).view s₂).assignment? id = some (patch.set a) := by
    unfold Store.assignment?
    rw [hview, Table.find_updateWhere s₂.assignments id (fun _ => true) patch.set (fun _ => rfl)]
    simp [show Table.find s₂.assignments id = some a from hj₂.2]
  rw [hrow]
  show Prog.Safe assignmentLocks _ X _
    (Prog.bind (Prog.bind (orThrow (patch.set a).fromState) fun a => Prog.ret (some a))
      fun updated => Prog.require updated e) _ _
  cases hok : (patch.set a).fromState with
  | error m => exact hX _
  | ok b =>
    intro s₃ _ hj₃
    obtain ⟨rfl, -, -⟩ := TariffAssignment.fromState_eq_ok_iff.1 hok
    refine ⟨hj₃.1, ?_, List.mem_append_left _ List.mem_cons_self, a, ?_, hok⟩
    · exact fun k hk => List.mem_append_right _ hk
    · rw [Tx.view_saw, hview]
      exact .updateWhere (hJ _ hj₃.1).assignmentIds (fun _ => rfl) hj₃.2 rfl

theorem onlyWrites_checkPlan (existing : TariffAssignment) (patch : UpdateTariffAssignmentPatch) :
    Prog.OnlyWrites (fun _ => False) (TariffAssignmentService.checkPlan existing patch) := by
  unfold TariffAssignmentService.checkPlan
  split
  · trivial
  · split
    · trivial
    · exact (onlyWrites_findPlan _).bind fun _ => onlyWrites_guardOr

theorem safe_updateAssignment (hX : ∀ e, X e) (id : Nat) (dto : UpdateTariffAssignmentDto) :
    Prog.Safe assignmentLocks Store.WF X (fun t s _ => ∃ a a', AssignmentUpdated a a' t s)
      (TariffAssignmentService.update id dto.patch) .start s := by
  unfold TariffAssignmentService.update TariffAssignmentRepository.findById
  simp only [Prog.bind_eq, Prog.bind_assoc]
  refine Prog.Safe.query fun s₁ _ hj₁ => safe_found hX fun e e' he hok => ?_
  have he : s₁.assignment? id = some e := he
  obtain ⟨rfl, -, -⟩ := TariffAssignment.fromState_eq_ok_iff.1 hok
  have hid : e'.id = id := Table.id_of_find he
  have hthere : AssignmentThere e' s₁ := ⟨e', hid ▸ he, .refl e'⟩
  refine Prog.Safe.keep (AssignmentThere e') [] (by simp)
    (fun _ _ hr _ _ h => keep_assignmentThere hr h) hj₁ hthere ?_
  refine Prog.Safe.bind_frame (onlyWrites_checkPlan e' dto.patch) hX ⟨hj₁, hthere⟩ ?_
  intro _ t₂ s₂ hext _ hj₂
  have hw₂ : t₂.writes = [] := hext.unwritten
  unfold TariffAssignmentService.checkWindow
  have hnf : dto.patch.validFrom = none := rfl
  have hvu : dto.patch.validUntil = dto.validUntil := rfl
  rw [hnf, hvu]
  cases hu : dto.validUntil with
  | none =>
    refine (safe_patchAssignment (fun _ h => h.1) hX hw₂ id dto.patch (.tariffAssignmentNotFound id)).mono ?_
    rintro t s _ - ⟨-, -, hrow, a, hrep, hok⟩
    have haid : a.id = id := Table.id_of_find hrep.before
    subst haid
    exact ⟨a, dto.patch.set a, hrep, hrow, step_patchAssignment dto a, hok,
      .inl ((window_patchAssignment dto (.refl a)).1 hu)⟩
  | some u =>
    simp only [Option.isSome_none, Option.isSome_some, Bool.false_or, if_true]
    refine safe_checkAssignment hX hw₂ fun t₃ s₃ hw₃ hlock hj₃ => ?_
    refine (safe_patchAssignment (fun _ h => h.1.1) hX hw₃ id dto.patch (.tariffAssignmentNotFound id)).mono ?_
    rintro t s _ - ⟨⟨⟨-, a₀, ha₀, hstep⟩, hclear⟩, hheld, hrow, a, hrep, hok⟩
    have haa : a₀ = a := Option.some.inj (ha₀.symm.trans (hid ▸ hrep.before))
    subst haa
    have haid : a₀.id = id := hstep.id.trans hid
    subst haid
    refine ⟨a₀, dto.patch.set a₀, hrep, hrow, step_patchAssignment dto a₀, hok, .inr ⟨?_, ?_⟩⟩
    · rw [hstep.childId]
      exact hheld hlock
    · rw [(window_patchAssignment dto hstep).2 (by simp [hu]), hstep.childId]
      exact hclear

theorem safe_closeAssignment (hX : ∀ e, X e) (now : Int) (id : Nat) : Prog.Safe assignmentLocks Store.WF X
      (fun t s _ => ∃ e a, a.id = id ∧ AssignmentClosed now e a t s)
      (TariffAssignmentService.close now id) .start s := by
  unfold TariffAssignmentService.close TariffAssignmentRepository.findById
  simp only [Prog.bind_eq, Prog.bind_assoc]
  refine Prog.Safe.query fun s₁ _ hj₁ => safe_found hX fun e e' he hok => ?_
  have he : s₁.assignment? id = some e := he
  obtain ⟨rfl, -, -⟩ := TariffAssignment.fromState_eq_ok_iff.1 hok
  have hid : e'.id = id := Table.id_of_find he
  have hthere : AssignmentThere e' s₁ := ⟨e', hid ▸ he, .refl e'⟩
  refine Prog.Safe.keep (AssignmentThere e') [] (by simp)
    (fun _ _ hr _ _ h => keep_assignmentThere hr h) hj₁ hthere ?_
  unfold TariffAssignmentRepository.save
  have hrowid : (e'.close now).id = id := hid
  refine Prog.Safe.update (fun s₂ _ hj₂ _ => ?_) fun s₂ _ hj₂ hmiss => ?_
  · obtain ⟨a, ha, hstep⟩ := hj₂.2
    rw [hid] at ha
    refine Prog.Safe.keepAt (k := .row id) (φ := fun s => s.assignment? id)
      (List.mem_append_left _ (hrowid ▸ List.mem_cons_self)) (fun _ _ _ hk hr => hr.assignments.find_eq hk) hj₂ ha ?_
    intro s₃ _ hj₃
    have haid : a.id = id := hstep.id.trans hid
    refine ⟨e', a, haid, ⟨s₁, List.mem_cons_self, haid ▸ he⟩, ?_, ?_, hstep, hok⟩
    · rw [haid]
      show Table.Replaced s₃.assignments (Table.updateWhere s₃.assignments e'.id _ _) id a _
      rw [hid]
      exact .updateWhere hj₃.1.1.assignmentIds (fun _ => rfl) hj₃.2 rfl
    · rw [haid]
      exact List.mem_append_left _ (hrowid ▸ List.mem_cons_self)
  · obtain ⟨a, ha, -⟩ := hj₂.2
    have hno : (s₂.assignment? e'.id).isSome = false := hmiss
    rw [ha] at hno
    cases hno

/-- A statement of the bulk UPDATE, for one of the rows found. -/
def ClampsFound (childId : Nat) (day : Int) (found : List TariffAssignment) (held : List Key)
    (w : Write) : Prop :=
  ∃ e ∈ found, w = .clampAssignment e.id childId day ∧ Key.row e.id ∈ held

theorem eachWrite_clampAll (childId : Nat) (day : Int) (found : List TariffAssignment)
    (rows : List TariffAssignment) (h : rows ⊆ found) : Prog.EachWrite (ClampsFound childId day found)
      (TariffAssignmentRepository.clampAll childId day rows) held := by
  have hmono : Prog.HeldMono (ClampsFound childId day found) := by
    rintro held held' w hs ⟨e, he, rfl, hk⟩
    exact ⟨e, he, rfl, hs hk⟩
  induction rows generalizing held with
  | nil => trivial
  | cons a rows ih =>
    obtain ⟨ha, hrows⟩ := List.cons_subset.1 h
    refine ⟨⟨a, ha, rfl, List.mem_append_left _ List.mem_cons_self⟩, ?_, ?_⟩
    · exact Prog.EachWrite.bind (p := TariffAssignmentRepository.clampAll childId day rows) hmono
        (ih hrows) fun _ => trivial
    · exact Prog.EachWrite.bind (p := TariffAssignmentRepository.clampAll childId day rows) hmono
        (ih hrows) fun _ => trivial

theorem Clamped.trans {day : Int} {found : List TariffAssignment}
    {b c : TariffAssignment} (h₁ : Clamped childId day found held a b)
    (h₂ : Clamped childId day found held b c) : Clamped childId day found held a c := by
  rcases h₁ with rfl | ⟨rfl, hopen, hrest⟩
  · exact h₂
  · rcases h₂ with rfl | ⟨rfl, hopen', -⟩
    · exact .inr ⟨rfl, hopen, hrest⟩
    · exact .inr ⟨rfl, hopen, hrest⟩

theorem rewrites_clamps {day : Int} {found : List TariffAssignment}
    {ws : List Write} (hws : ∀ w ∈ ws, ClampsFound childId day found held w)
    (hthere : ∀ e ∈ found, AssignmentThere e s) : Table.Rewrites (Clamped childId day found held) s.assignments
      (ws.foldl Relational.apply s).assignments := by
  have hrefl : ∀ a, Clamped childId day found held a a := fun _ => .inl rfl
  induction ws generalizing s with
  | nil => exact .refl hrefl _
  | cons w ws ih =>
    obtain ⟨e, he, rfl, hrow⟩ := hws w List.mem_cons_self
    have hone : Table.Rewrites (Clamped childId day found held) s.assignments
        (s.apply (.clampAssignment e.id childId day)).assignments := by
      refine Table.Rewrites.updateWhere hrefl (fun _ => rfl) fun a ha hopen => ?_
      obtain ⟨b, hb, hstep⟩ := hthere e he
      have hba : b = a := Option.some.inj (hb.symm.trans ha)
      subst hba
      have hid : b.id = e.id := hstep.id
      exact .inr ⟨rfl, hopen, hid ▸ hrow, e, he, hstep⟩
    refine Table.Rewrites.trans (fun _ _ _ h h' => h.trans h') hone ?_
    refine ih (fun w hw => hws w (List.mem_cons_of_mem _ hw)) fun e' he' => ?_
    obtain ⟨b, hb, hstep⟩ := hthere e' he'
    obtain ⟨b', hb', hc⟩ := hone.row hb
    exact ⟨b', hb', hstep.trans hc.step⟩

theorem safe_closeActiveForChild (hX : ∀ e, X e) (childId : Nat) (validUntil : Int) :
    Prog.Safe assignmentLocks Store.WF X (fun t s _ => ClosedForChild childId (utcDay validUntil) t s)
      (TariffAssignmentRepository.closeActiveForChild childId validUntil) .start s := by
  unfold TariffAssignmentRepository.closeActiveForChild
  refine Prog.Safe.query fun s₁ _ hj₁ => ?_
  generalize hf : (s₁.assignments.filter (TariffAssignment.openAfter childId (utcDay validUntil))) = found
  have hview : (Tx.start : Tx Store Key Write).view s₁ = s₁ := rfl
  rw [hview, hf]
  have hthere : ∀ e ∈ found, AssignmentThere e s₁ := by
    intro e he
    rw [← hf] at he
    exact ⟨e, Table.find_of_mem hj₁.assignmentIds (List.mem_of_mem_filter he), .refl e⟩
  refine Prog.Safe.keep (fun s => ∀ e ∈ found, AssignmentThere e s) [] (by simp)
    (fun _ _ hr _ _ h e he => keep_assignmentThere hr (h e he)) hj₁ hthere ?_
  have hmono : Prog.HeldMono (ClampsFound childId (utcDay validUntil) found) := by
    rintro held held' w hs ⟨e, he, rfl, hk⟩
    exact ⟨e, he, rfl, hs hk⟩
  have hheld := Prog.Safe.of_eachWrite (D := assignmentLocks)
    (J := fun s => s.WF ∧ ∀ e ∈ found, AssignmentThere e s) (s := s₁) (t := Tx.start.saw s₁) hmono
    (eachWrite_clampAll childId (utcDay validUntil) found found (List.Subset.refl _)) hX (by simp [Tx.start])
  have hext := Prog.Safe.of_onlyWrites (D := assignmentLocks) (X := X)
    (J := fun s => s.WF ∧ ∀ e ∈ found, AssignmentThere e s) (s := s₁) (t := Tx.start.saw s₁)
    (onlyWrites_clampAll childId (utcDay validUntil) found) hX ⟨hj₁, hthere⟩
  refine (hheld.and hext).mono ?_
  rintro t s _ hj ⟨hws, hext, -⟩
  refine ⟨s₁, ?_, ?_⟩
  · exact hext.seen.subset List.mem_cons_self
  · rw [hf]
    exact rewrites_clamps hws hj.2

end

theorem safe_assignmentsAlone {J : Store → Prop} {A : Type} {p : Sql A} {s : Store} (hj : J s)
    (h : Prog.OnlyWrites Write.OfPlans p) :
    Prog.Safe assignmentLocks J (fun _ => True) (fun t s _ => (t.view s).assignments = s.assignments)
      p .start s := by
  refine (Prog.Safe.of_onlyWrites h (fun _ => trivial) hj).mono ?_
  rintro t s _ - ⟨hext, -⟩
  exact hext.view_eq Store.assignments (fun _ _ => assignments_apply) s

theorem onlyWrites_createPlan (input : CreateTariffPlanInput) :
    Prog.OnlyWrites Write.OfPlans (TariffPlanService.create input) := by
  unfold TariffPlanService.create
  refine Prog.OnlyWrites.bind trivial fun _ => Prog.OnlyWrites.bind ?_ fun overlaps => ?_
  · unfold TariffPlanRepository.existsOverlap
    split
    · trivial
    · exact fun _ => trivial
  · refine onlyWrites_guardOr.bind fun _ => Prog.OnlyWrites.bind (fun _ => trivial) fun id => ?_
    cases (TariffPlanService.newState id input).fromState with
    | error m => trivial
    | ok p => exact (onlyWrites_insertOr trivial).bind fun _ => trivial

theorem onlyWrites_updatePlan (id : Nat) (patch : UpdateTariffPlanPatch) :
    Prog.OnlyWrites Write.OfPlans (TariffPlanService.update id patch) := by
  have update : Prog.OnlyWrites Write.OfPlans (TariffPlanRepository.update id patch) :=
    (onlyWrites_returning trivial).bind fun _ => onlyWrites_toDomain
  unfold TariffPlanService.update
  dsimp only
  split
  · refine (onlyWrites_findPlan id).bind fun found => onlyWrites_require.bind fun existing => ?_
    refine Prog.OnlyWrites.bind trivial fun _ => Prog.OnlyWrites.bind ?_ fun overlaps => ?_
    · unfold TariffPlanRepository.existsOverlap
      split
      · trivial
      · exact fun _ => trivial
    · exact onlyWrites_guardOr.bind fun _ => update.bind fun _ => onlyWrites_require
  · exact update.bind fun _ => onlyWrites_require

theorem onlyWrites_deactivatePlan (now : Int) (id : Nat) :
    Prog.OnlyWrites Write.OfPlans (TariffPlanService.deactivate now id) := by
  unfold TariffPlanService.deactivate
  refine (onlyWrites_findPlan id).bind fun found => onlyWrites_require.bind fun plan => ?_
  exact ⟨trivial, fun _ => trivial⟩

theorem safe_assignmentOutcome {s : Store} (hs : s.WF) (op : Op) :
    Prog.Safe assignmentLocks Store.WF (fun _ => True) (fun t s _ => AssignmentOutcome t s op)
      op.prog .start s := by
  have hX : ∀ _ : TariffError, True := fun _ => trivial
  cases op with
  | createPlan input =>
    exact (safe_assignmentsAlone hs (onlyWrites_createPlan input)).map fun _ _ _ _ h => .planCreated h
  | updatePlan id dto =>
    exact (safe_assignmentsAlone hs (onlyWrites_updatePlan id _)).map fun _ _ _ _ h => .planUpdated h
  | deactivatePlan now id =>
    exact (safe_assignmentsAlone hs (onlyWrites_deactivatePlan now id)).map
      fun _ _ _ _ h => .planDeactivated h
  | assign input =>
    refine (safe_assign hX input).map ?_
    rintro t s _ - ⟨a, h⟩
    exact .assigned a h
  | updateAssignment id dto =>
    refine (safe_updateAssignment hX id dto).map ?_
    rintro t s _ - ⟨a, a', h⟩
    exact .updated a a' h
  | closeAssignment now id =>
    refine (safe_closeAssignment hX now id).map ?_
    rintro t s _ - ⟨e, a, hid, h⟩
    exact .closed e a hid h
  | closeActiveForChild childId validUntil =>
    exact (safe_closeActiveForChild hX childId validUntil).map fun _ _ _ _ h => .closedForChild h

/-! ## Runs -/

theorem chain_assignments {n : Nat} {s : Store} {cs : Schedule n} {σ : System n} (hs : s.WF)
    (hrun : run s cs = some σ) (hin : AtEach ClosesInside s σ.log) :
    Chain (fun s c => (s.WF ∧ AssignmentOutcome c.tx s c.op) ∧ ClosesInside s c) s σ.log σ.db := by
  have hany : System.Starts (fun _ : Op => True) cs := fun _ _ _ => trivial
  have hkeeps : System.Keeps assignmentLocks Store.WF
      (fun (op : Op) t s (_ : Answer) => AssignmentOutcome t s op) ClosesInside n :=
    ⟨fun s c hs _ _ => hs.view c.tx, fun _ s c _ h hin => h.guarantee hin⟩
  exact (System.exec_chain_if hs hkeeps (fun op _ _ hs => safe_assignmentOutcome hs op) hany hrun hin).and hin

/-- **The assignments of a child.**  As long as the requests that close find windows that have
started and do not put an end off, every row hydrates and the windows of a child share no day. -/
theorem assignments_sound {n : Nat} {s : Store} {cs : Schedule n} {σ : System n} (hs : s.WF)
    (hhydrate : s.AssignmentsHydrate) (hapart : s.ChildrenApart) (hrun : run s cs = some σ)
    (hin : AtEach ClosesInside s σ.log) :
    Always (fun s => s.AssignmentsHydrate ∧ s.ChildrenApart) s σ.log := by
  refine (chain_assignments hs hrun hin).always _ ⟨hhydrate, hapart⟩ ?_
  rintro s c ⟨hh, ha⟩ ⟨⟨hwf, hout⟩, hin⟩
  exact ⟨hout.hydrate hin hwf hh, (hout.windowsMove hin).childrenApart hwf ha⟩

/-! ## An assignment that has not started -/

/-- An assignment of child 7 from day 10 on, to a plan on file. -/
def oneAssignment : Store := ⟨[monthlyPlan 1], [⟨2, 7, 1, none, none, 10, none⟩]⟩

theorem oneAssignment_hydrates : oneAssignment.AssignmentsHydrate := by
  intro a ha
  have ha' : a = ⟨2, 7, 1, none, none, 10, none⟩ := List.mem_singleton.1 ha
  subst ha'
  rfl

theorem oneAssignment_apart : oneAssignment.ChildrenApart := by
  intro a ha b hb hne
  have ha' : a = ⟨2, 7, 1, none, none, 10, none⟩ := List.mem_singleton.1 ha
  have hb' : b = ⟨2, 7, 1, none, none, 10, none⟩ := List.mem_singleton.1 hb
  exact absurd (by rw [ha', hb']) hne

/-- The assignment is closed on this day, then the child is archived on it. -/
def closeOn (day : Int) : Schedule 2 :=
  Choice.request 0 (.closeAssignment (midnight day) 2) 3 0 ++
    Choice.request 1 (.closeActiveForChild 7 (midnight day)) 2 0

theorem assignments_sound_started : ∃ σ : System 2, run oneAssignment (closeOn 12) = some σ ∧
    σ.db.assignments = [⟨2, 7, 1, none, none, 10, some 12⟩] ∧
    Always (fun s => s.AssignmentsHydrate ∧ s.ChildrenApart) oneAssignment σ.log := by
  obtain ⟨σ, hrun, h⟩ := run_shows run oneAssignment (closeOn 12)
    (fun σ => decide (AtEach ClosesInside oneAssignment σ.log) &&
      decide (σ.db.assignments = [⟨2, 7, 1, none, none, 10, some 12⟩])) (by decide +kernel)
  simp only [Bool.and_eq_true, decide_eq_true_eq] at h
  exact ⟨σ, hrun, h.2,
    assignments_sound (by decide) oneAssignment_hydrates oneAssignment_apart hrun h.1⟩

/-- Closed on day 5, the assignment ends before it starts. -/
theorem closed_early_breaks : ∃ σ : System 2, oneAssignment.WF ∧ oneAssignment.AssignmentsHydrate ∧
    oneAssignment.ChildrenApart ∧ run oneAssignment (closeOn 5) = some σ ∧
    ∃ a ∈ σ.db.assignments, a.validFrom = 10 ∧ a.validUntil = some 5 ∧ a.fromState ≠ .ok a := by
  obtain ⟨σ, hrun, h⟩ := run_shows run oneAssignment (closeOn 5)
    (fun σ => σ.db.assignments.any fun a => decide (a.validFrom = 10 ∧ a.validUntil = some 5))
    (by decide +kernel)
  obtain ⟨a, ha, h⟩ := List.any_eq_true.1 h
  have h : a.validFrom = 10 ∧ a.validUntil = some 5 := by simpa using h
  refine ⟨σ, by decide, oneAssignment_hydrates, oneAssignment_apart, hrun, a, ha, h.1, h.2, fun hok => ?_⟩
  have hord := (TariffAssignment.fromState_eq_ok_iff.1 hok).2.2 5 h.2
  rw [show a.window.start = a.validFrom from rfl, h.1] at hord
  omega

end Tariffs
