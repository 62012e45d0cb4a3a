import Shyraq.Staff.Services
import Shyraq.Transactions.Serial

/-!
# Mentor slots

A mentor is checked when the group gets him.  Deactivation and archiving close the rows that they invalidate; a change
of role does not.
-/

namespace Staff

open Kernel Transactions

/-! ## What is claimed -/

/-- Each group has one active mentor at most, and he is fit to be one. -/
structure MentorSlots (s : Store) : Prop where
  single : ∀ g, s.mentors.countP (fun m => m.occupies g) ≤ 1
  eligible : ∀ m ∈ s.mentors, m.active = true → (s.staffAt m.staffMemberId).any StaffMember.eligible = true

/-- No active mentor takes another role. -/
def KeepsRole (s : Store) (c : StaffCommit) : Prop :=
  match c.op with
  | .update i patch _ => patch.role.all (fun role => role == .mentor) = true ∨
      ∀ m ∈ s.mentors, m.active = true → m.staffMemberId ≠ i
  | _ => True

instance (s : Store) : Decidable (∀ g, s.mentors.countP (fun m => m.occupies g) ≤ 1) :=
  decidable_of_iff (∀ m ∈ s.mentors, s.mentors.countP (fun m' => m'.occupies m.groupId) ≤ 1) <| by
    constructor
    · intro h g
      by_cases hg : ∃ m ∈ s.mentors, m.groupId = g
      · obtain ⟨m, hm, rfl⟩ := hg
        exact h m hm
      · have hzero : s.mentors.countP (fun m => m.occupies g) = 0 := by
          refine List.countP_eq_zero.2 fun m hm hocc => hg ⟨m, hm, ?_⟩
          exact beq_iff_eq.1 (Bool.and_eq_true _ _ ▸ hocc).1
        omega
    · intro h m _
      exact h m.groupId

instance (s : Store) : Decidable (MentorSlots s) :=
  decidable_of_iff ((∀ g, s.mentors.countP (fun m => m.occupies g) ≤ 1) ∧
      ∀ m ∈ s.mentors, m.active = true → (s.staffAt m.staffMemberId).any StaffMember.eligible = true)
    ⟨fun h => ⟨h.1, h.2⟩, fun h => ⟨h.single, h.eligible⟩⟩

instance (s : Store) (c : StaffCommit) : Decidable (KeepsRole s c) := by
  unfold KeepsRole
  split <;> infer_instance

/-! ## Statements -/

section

variable {s v v' : Store}

/-- Some mentor rows were closed, and nothing else. -/
structure Closed (v v' : Store) : Prop where
  staff : v'.staff = v.staff
  ids : v'.mentors.map Row.id = v.mentors.map Row.id
  mentors : ∀ m ∈ v'.mentors, m.active = true → m ∈ v.mentors
  count : ∀ g, v'.mentors.countP (fun m => m.occupies g) ≤ v.mentors.countP fun m => m.occupies g

theorem Closed.refl (v : Store) : Closed v v := ⟨rfl, rfl, fun _ h _ => h, fun _ => Nat.le_refl _⟩

theorem Closed.trans {v₁ v₂ v₃ : Store} (h₁ : Closed v₁ v₂) (h₂ : Closed v₂ v₃) : Closed v₁ v₃ where
  staff := h₂.staff.trans h₁.staff
  ids := h₂.ids.trans h₁.ids
  mentors m hm ha := h₁.mentors m (h₂.mentors m hm ha) ha
  count g := Nat.le_trans (h₂.count g) (h₁.count g)

theorem Closed.slots (h : Closed v v') (hv : MentorSlots v) : MentorSlots v' where
  single g := Nat.le_trans (h.count g) (hv.single g)
  eligible m hm ha := by
    unfold Store.staffAt
    rw [h.staff]
    exact hv.eligible m (h.mentors m hm ha) ha

variable {now : Int} {m : StaffMember}

theorem mem_updateWhere {l : List GroupMentor} {i : Nat} {p : GroupMentor → Bool} {m : GroupMentor}
    (hm : m ∈ Table.updateWhere l i p fun m => m.closed now) (ha : m.active = true) :
    m ∈ l ∧ (m.id = i → p m = false) := by
  obtain ⟨m₀, hm₀, rfl⟩ := List.mem_map.1 hm
  by_cases h : (Row.id m₀ == i && p m₀) = true
  · rw [if_pos h] at ha
    cases ha
  · rw [if_neg h]
    refine ⟨hm₀, fun hid => ?_⟩
    have hrow : (Row.id m₀ == i) = true := beq_iff_eq.2 hid
    rw [hrow, Bool.true_and] at h
    exact Bool.eq_false_of_not_eq_true h

theorem closed_updateWhere (v : Store) (i : Nat) (p : GroupMentor → Bool) (now : Int) :
    Closed v { v with mentors := Table.updateWhere v.mentors i p fun m => m.closed now } where
  staff := rfl
  ids := by
    show List.map _ (List.map _ _) = _
    rw [List.map_map]
    refine List.map_congr_left fun m _ => ?_
    simp only [Function.comp_apply]
    split <;> rfl
  mentors m hm ha := (mem_updateWhere hm ha).1
  count g := by
    show (List.map _ _).countP _ ≤ _
    rw [List.countP_map]
    refine List.countP_mono_left fun m _ hocc => ?_
    simp only [Function.comp_apply] at hocc
    split at hocc
    · simp [GroupMentor.occupies, GroupMentor.active, GroupMentor.closed] at hocc
    · exact hocc

theorem closed_of_loop (hu : Table.Unique v.mentors) {ids : List Nat} {u : Unit}
    (h : Prog.Yields (Prog.forEach (fun i => do
      let _ ← Prog.update (.closeActive i now)
      pure ()) ids : Sql Unit) v u v') : Closed v v' ∧ ∀ m ∈ v'.mentors, m.active = true → m.id ∉ ids := by
  induction ids generalizing v with
  | nil =>
    obtain rfl := Prog.yields_forEach_nil.1 h
    exact ⟨.refl _, fun _ _ _ => List.not_mem_nil⟩
  | cons i ids ih =>
    obtain ⟨v₁, h₁, h₂⟩ := Prog.yields_forEach_cons.1 h
    have hround : Closed v v₁ ∧ ∀ m ∈ v₁.mentors, m.active = true → m.id ≠ i := by
      obtain ⟨c, v₂, hupdate, -, rfl⟩ := Prog.yields_bind.1 h₁
      rcases Prog.yields_update.1 hupdate with ⟨-, -, rfl⟩ | ⟨hmiss, -, rfl⟩
      · refine ⟨closed_updateWhere v i _ now, fun m hm ha hid => ?_⟩
        rw [(mem_updateWhere hm ha).2 hid] at ha
        cases ha
      · refine ⟨.refl _, fun m hm ha hid => ?_⟩
        have hfind : v₁.mentorAt i = some m := hid ▸ Table.find_of_mem hu hm
        have hhit : (v₁.mentorAt i).any GroupMentor.active = false := hmiss
        rw [hfind, Option.any_some, ha] at hhit
        cases hhit
    have hu₁ : Table.Unique v₁.mentors := by
      unfold Table.Unique
      rw [hround.1.ids]
      exact hu
    obtain ⟨hclosed, hrest⟩ := ih hu₁ h₂
    refine ⟨hround.1.trans hclosed, fun m hm ha hid => ?_⟩
    rcases List.mem_cons.1 hid with hid | hid
    · exact hround.2 m (hclosed.mentors m hm ha) ha hid
    · exact hrest m hm ha hid

theorem closed_of_closeWhere (hu : Table.Unique v.mentors) {p : GroupMentor → Bool} {k : Nat}
    (h : (GroupRepository.closeWhere now p).Yields v k v') :
    Closed v v' ∧ ∀ m ∈ v'.mentors, m.active = true → p m = false := by
  unfold GroupRepository.closeWhere at h
  simp only [Prog.bind_eq, Prog.yields_bind, Prog.yields_query] at h
  obtain ⟨ids, v₀, ⟨rfl, rfl⟩, u, v₁, hloop, -, rfl⟩ := h
  obtain ⟨hclosed, hrest⟩ := closed_of_loop hu hloop
  refine ⟨hclosed, fun m hm ha => ?_⟩
  by_contra hp
  refine hrest m hm ha (List.mem_map.2 ⟨m, List.mem_filter.2 ⟨hclosed.mentors m hm ha, ?_⟩, rfl⟩)
  rw [ha, Bool.eq_true_of_not_eq_false hp]
  rfl

theorem Closed.slots_of_none (h : Closed v v') {i : Nat} (hs : MentorSlots s) (hmentors : v.mentors = s.mentors)
    (hstaff : ∀ j, j ≠ i → v.staffAt j = s.staffAt j)
    (hnone : ∀ m ∈ v'.mentors, m.active = true → m.staffMemberId ≠ i) : MentorSlots v' where
  single g := by
    have hcount := h.count g
    rw [hmentors] at hcount
    exact Nat.le_trans hcount (hs.single g)
  eligible m hm ha := by
    have hmem := h.mentors m hm ha
    rw [hmentors] at hmem
    unfold Store.staffAt
    rw [h.staff]
    show (v.staffAt m.staffMemberId).any _ = true
    rw [hstaff _ (hnone m hm ha)]
    exact hs.eligible m hmem ha

theorem staffAt_save (s : Store) (m : StaffMember) (j : Nat) :
    (Relational.apply s (Write.saveStaff m)).staffAt j =
      (s.staffAt j).map fun row => if j = m.id ∧ true = true then { m with id := row.id } else row :=
  Table.find_updateWhere s.staff m.id (fun _ => true) (fun row => { m with id := row.id }) (fun _ => rfl) j

theorem staffAt_update (s : Store) (i : Nat) (changes : UpdateStaffInput) (j : Nat) :
    (Relational.apply s (Write.updateStaff i changes)).staffAt j =
      (s.staffAt j).map fun row => if j = i ∧ true = true then row.changed changes else row :=
  Table.find_updateWhere s.staff i (fun _ => true) (fun row => row.changed changes) (fun _ => rfl) j

theorem staffAt_save_of_ne {j : Nat} (h : j ≠ m.id) (s : Store) :
    (Relational.apply s (Write.saveStaff m)).staffAt j = s.staffAt j := by
  rw [staffAt_save]
  simp [h]

theorem yields_toDomain {row a : Option StaffMember} : (toDomain row).Yields v a v' → a = row ∧ v' = v := by
  intro h
  cases row with
  | none => exact h
  | some row =>
    obtain ⟨m, v₁, hofExcept, rfl, rfl⟩ := Prog.yields_bind.1 h
    obtain ⟨hm, rfl⟩ := Prog.yields_ofExcept.1 hofExcept
    unfold StaffMember.hydrate at hm
    cases hv : StaffMember.validateRoleMatrix row.role row.specialistType with
    | error e =>
      rw [hv] at hm
      cases hm
    | ok u =>
      rw [hv] at hm
      exact ⟨congrArg some (Except.ok.inj hm).symm, rfl⟩

theorem yields_findById {i : Nat} {a : Option StaffMember} (h : (StaffMemberRepository.findById i).Yields v a v') :
    a = v.staffAt i ∧ v' = v := by
  obtain ⟨row, v₁, hrow, h⟩ := Prog.yields_bind.1 h
  obtain ⟨rfl, rfl⟩ := Prog.yields_query.1 hrow
  exact yields_toDomain h

theorem yields_save {a : StaffMember} (h : (StaffMemberRepository.save m).Yields v a v') (hm : (v.staffAt m.id).isSome) :
    v' = Relational.apply v (Write.saveStaff m) := by
  obtain ⟨c, v₁, hupdate, hrest⟩ := Prog.yields_bind.1 h
  obtain ⟨fresh, v₂, hfresh, hrequire⟩ := Prog.yields_bind.1 hrest
  obtain ⟨-, rfl⟩ := yields_findById hfresh
  obtain ⟨-, rfl⟩ := Prog.yields_require.1 hrequire
  rcases Prog.yields_update.1 hupdate with ⟨-, -, rfl⟩ | ⟨hmiss, -, -⟩
  · rfl
  · have hhit : (v.staffAt m.id).isSome = false := hmiss
    rw [hm] at hhit
    cases hhit

theorem yields_requireStaff {i : Nat} (h : (StaffService.requireStaff i).Yields v m v') :
    v.staffAt i = some m ∧ m.id = i ∧ v' = v := by
  obtain ⟨current, v₁, hcurrent, hrequire⟩ := Prog.yields_bind.1 h
  obtain ⟨rfl, rfl⟩ := yields_findById hcurrent
  obtain ⟨hm, rfl⟩ := Prog.yields_require.1 hrequire
  exact ⟨hm, Table.id_of_find hm, rfl⟩

/-! ## Requests -/

theorem unique_mentors {A : Type} {p : Sql A} {a : A} (h : p.Yields v a v') (hu : Table.Unique v.mentors) :
    Table.Unique v'.mentors := by
  refine Prog.Yields.keeps (fun s => Table.Unique s.mentors) (fun s w hhit hs => ?_) h hu
  cases w with
  | updateStaff i changes => exact hs
  | saveStaff m => exact hs
  | closeActive i now => exact Table.unique_updateWhere hs i _ _ fun _ => rfl
  | close i now => exact Table.unique_updateWhere hs i _ _ fun _ => rfl
  | insertMentor row =>
    have hfree : (s.mentorAt row.id).isNone = true := ((Bool.and_eq_true _ _).mp hhit).1
    exact Table.unique_append hs (Option.isNone_iff_eq_none.1 hfree)

theorem MentorSlots.no_slot (hs : MentorSlots s) {i : Nat} (hm : s.staffAt i = some m)
    (hunfit : m.eligible = false) : ∀ r ∈ s.mentors, r.active = true → r.staffMemberId ≠ i := by
  rintro r hr ha rfl
  have := hs.eligible r hr ha
  rw [hm, Option.any_some, hunfit] at this
  cases this

theorem slots_save (hs : MentorSlots s) {n : StaffMember} (hid : n.id = m.id) (hm : s.staffAt m.id = some m)
    (hunfit : m.eligible = false) : MentorSlots (Relational.apply s (Write.saveStaff n)) := by
  refine Closed.slots_of_none (i := m.id) (v := Relational.apply s (Write.saveStaff n)) (.refl _) hs rfl ?_
    (hs.no_slot hm hunfit)
  intro j hj
  exact staffAt_save_of_ne (hid ▸ hj) s

theorem slots_saveAndUnassign (hu : Table.Unique s.mentors) (hs : MentorSlots s) {n a : StaffMember}
    (hsome : (s.staffAt n.id).isSome) (h : (StaffService.saveAndUnassign now n).Yields s a v') : MentorSlots v' := by
  obtain ⟨saved, v₁, hsave, h⟩ := Prog.yields_bind.1 h
  obtain ⟨k, v₂, hclose, -, rfl⟩ := Prog.yields_bind.1 h
  obtain rfl := yields_save hsave hsome
  obtain ⟨hclosed, hnone⟩ := closed_of_closeWhere (v := Relational.apply s (Write.saveStaff n)) hu hclose
  refine hclosed.slots_of_none hs rfl (fun j hj => staffAt_save_of_ne hj s) fun m hm ha hid => ?_
  have := hnone m hm ha
  rw [hid, beq_self_eq_true] at this
  cases this

theorem yields_assertUsableCode {patch : UpdateStaffInput} {role : StaffRole} {code : Option String} {usable : Bool}
    {u : Unit} (h : (StaffService.assertUsableCode patch role code usable).Yields v u v') : v' = v := by
  cases code with
  | none => exact h.2
  | some code => exact (Prog.yields_guardOr.1 h).2

theorem eligible_changed (h : m.eligible = true) {changes : UpdateStaffInput}
    (hrole : changes.role.all (fun role => role == .mentor) = true) : (m.changed changes).eligible = true := by
  unfold StaffMember.eligible at h ⊢
  simp only [Bool.and_eq_true, beq_iff_eq] at h ⊢
  refine ⟨h.1, ?_⟩
  show changes.role.getD m.role = .mentor
  cases hr : changes.role with
  | none => exact h.2
  | some role =>
    rw [hr] at hrole
    exact beq_iff_eq.1 hrole

theorem slots_update_iff (hs : MentorSlots s) (i : Nat) (changes : UpdateStaffInput) :
    MentorSlots (Relational.apply s (Write.updateStaff i changes)) ↔
      changes.role.all (fun role => role == .mentor) = true ∨
        ∀ m ∈ s.mentors, m.active = true → m.staffMemberId ≠ i := by
  constructor
  · intro h
    by_contra hno
    rw [not_or] at hno
    obtain ⟨hrole, hslot⟩ := hno
    refine hslot fun m hm ha hid => hrole ?_
    have heligible := h.eligible m hm ha
    rw [staffAt_update, hid, Option.any_map] at heligible
    obtain ⟨row, -, hrow⟩ := (Option.any_eq_true _ _).1 heligible
    rw [if_pos ⟨rfl, rfl⟩] at hrow
    unfold StaffMember.eligible at hrow
    have hmentor : changes.role.getD row.role = .mentor := beq_iff_eq.1 (Bool.and_eq_true _ _ ▸ hrow).2
    cases hr : changes.role with
    | none => rfl
    | some role =>
      rw [hr] at hmentor
      exact beq_iff_eq.2 hmentor
  · rintro (hrole | hslot)
    · refine ⟨hs.single, fun m hm ha => ?_⟩
      obtain ⟨row, hrow, heligible⟩ := (Option.any_eq_true _ _).1 (hs.eligible m hm ha)
      rw [staffAt_update, hrow, Option.map_some, Option.any_some]
      split
      · exact eligible_changed heligible hrole
      · exact heligible
    · refine Closed.slots_of_none (v := Relational.apply s (Write.updateStaff i changes)) (.refl _) hs rfl ?_ hslot
      intro j hj
      rw [staffAt_update]
      simp [hj]

theorem slots_update {i : Nat} {patch : UpdateStaffInput} {usable : Bool} {a : StaffMember} (hs : MentorSlots s)
    (h : (StaffService.update i patch usable).Yields s a v') :
    MentorSlots v' ↔ patch.role.all (fun role => role == .mentor) = true ∨
      ∀ m ∈ s.mentors, m.active = true → m.staffMemberId ≠ i := by
  obtain ⟨m, v₁, hm, h₁⟩ := Prog.yields_bind.1 h
  obtain ⟨hfind, -, rfl⟩ := yields_requireStaff hm
  obtain ⟨_, v₂, hguard, h₂⟩ := Prog.yields_bind.1 h₁
  obtain ⟨-, rfl⟩ := Prog.yields_guardOr.1 hguard
  obtain ⟨_, v₃, hmatrix, h₃⟩ := Prog.yields_bind.1 h₂
  obtain ⟨-, rfl⟩ := Prog.yields_ofExcept.1 hmatrix
  obtain ⟨_, v₄, hcode, h₄⟩ := Prog.yields_bind.1 h₃
  obtain rfl := yields_assertUsableCode hcode
  obtain ⟨updated, v₅, hupdate, h₅⟩ := Prog.yields_bind.1 h₄
  obtain ⟨rfl, rfl⟩ := Prog.yields_require.1 h₅
  obtain ⟨affected, v₆, hrow, hread⟩ := Prog.yields_bind.1 hupdate
  cases affected with
  | false =>
    obtain ⟨hnone, -⟩ := hread
    cases hnone
  | true =>
    obtain ⟨-, rfl⟩ := yields_findById hread
    unfold StaffMemberRepository.updateRow at hrow
    by_cases hempty : patch.isEmpty = true
    · rw [if_pos hempty] at hrow
      obtain ⟨-, rfl⟩ := hrow
      refine iff_of_true hs (.inl ?_)
      unfold UpdateStaffInput.isEmpty at hempty
      simp only [Bool.and_eq_true, Option.isNone_iff_eq_none] at hempty
      rw [hempty.1.1.1.2]
      rfl
    · rw [if_neg hempty] at hrow
      rcases Prog.yields_update.1 hrow with ⟨-, -, rfl⟩ | ⟨-, hmiss, -⟩
      · exact slots_update_iff hs i patch
      · cases hmiss

theorem slots_assign {g i : Nat} {a : GroupMentor} (hu : Table.Unique s.mentors) (hs : MentorSlots s)
    (h : (GroupService.assignMentor now g i).Yields s a v') : MentorSlots v' := by
  obtain ⟨group, v₁, hquery, h₁⟩ := Prog.yields_bind.1 h
  obtain ⟨-, rfl⟩ := Prog.yields_query.1 hquery
  obtain ⟨group, v₂, hgroup, h₂⟩ := Prog.yields_bind.1 h₁
  obtain ⟨-, rfl⟩ := Prog.yields_require.1 hgroup
  obtain ⟨_, v₃, hguard, h₃⟩ := Prog.yields_bind.1 h₂
  obtain ⟨-, rfl⟩ := Prog.yields_guardOr.1 hguard
  obtain ⟨found, v₄, hfound, h₄⟩ := Prog.yields_bind.1 h₃
  obtain ⟨rfl, rfl⟩ := yields_findById hfound
  obtain ⟨m, v₅, hm, h₅⟩ := Prog.yields_bind.1 h₄
  obtain ⟨hfind, rfl⟩ := Prog.yields_require.1 hm
  obtain ⟨_, v₆, hactive, h₆⟩ := Prog.yields_bind.1 h₅
  obtain ⟨hfit, rfl⟩ := Prog.yields_guardOr.1 hactive
  obtain ⟨_, v₇, hrole, h₇⟩ := Prog.yields_bind.1 h₆
  obtain ⟨hmentor, rfl⟩ := Prog.yields_guardOr.1 hrole
  obtain ⟨_, v₈, hclose, h₈⟩ := Prog.yields_bind.1 h₇
  obtain ⟨hclosed, hfree⟩ := closed_of_closeWhere hu hclose
  obtain ⟨id, v₉, hid, h₉⟩ := Prog.yields_bind.1 h₈
  obtain ⟨-, rfl⟩ := Prog.yields_uuid.1 hid
  obtain ⟨_, v₁₀, hinsert, h₁₀⟩ := Prog.yields_bind.1 h₉
  obtain ⟨-, rfl⟩ := Prog.yields_insertOr.1 hinsert
  obtain ⟨_, v₁₁, hread, h₁₁⟩ := Prog.yields_bind.1 h₁₀
  obtain ⟨-, rfl⟩ := Prog.yields_query.1 hread
  obtain ⟨-, rfl⟩ := Prog.yields_require.1 h₁₁
  have hslots := hclosed.slots hs
  refine ⟨fun g' => ?_, fun r hr ha => ?_⟩
  · show (v₉.mentors ++ [_]).countP _ ≤ 1
    rw [List.countP_append, List.countP_singleton]
    by_cases hg : g = g'
    · -- the group's slot was closed
      subst hg
      have hzero : v₉.mentors.countP (fun m => m.occupies g) = 0 := by
        refine List.countP_eq_zero.2 fun r hr hocc => ?_
        obtain ⟨hgroup, ha⟩ := (Bool.and_eq_true _ _).mp hocc
        have hnot := hfree r hr ha
        rw [hgroup] at hnot
        cases hnot
      rw [hzero]
      split <;> omega
    · have hother : (GroupMentor.mk id g i true now none).occupies g' = false := by
        simp [GroupMentor.occupies, hg]
      rw [hother, if_neg Bool.false_ne_true]
      exact hslots.single g'
  · rcases List.mem_append.1 hr with hr | hr
    · exact hslots.eligible r hr ha
    · obtain rfl := List.mem_singleton.1 hr
      show (v₉.staffAt i).any StaffMember.eligible = true
      have hstaff : v₉.staffAt i = some m := by
        rw [← hfind]
        unfold Store.staffAt
        rw [hclosed.staff]
      rw [hstaff, Option.any_some, StaffMember.eligible, hfit, hmentor]
      rfl

theorem slots_unassign {g : Nat} {a : Option GroupMentor} (hs : MentorSlots s)
    (h : (GroupService.unassignMentor now g).Yields s a v') : MentorSlots v' := by
  obtain ⟨group, v₁, hquery, h₁⟩ := Prog.yields_bind.1 h
  obtain ⟨-, rfl⟩ := Prog.yields_query.1 hquery
  obtain ⟨group, v₂, hgroup, h₂⟩ := Prog.yields_bind.1 h₁
  obtain ⟨-, rfl⟩ := Prog.yields_require.1 hgroup
  obtain ⟨row, v₃, hrow, h₃⟩ := Prog.yields_bind.1 h₂
  obtain ⟨rfl, rfl⟩ := Prog.yields_query.1 hrow
  split at h₃
  · obtain ⟨-, rfl⟩ := h₃
    exact hs
  · rename_i row _
    obtain ⟨_, v₄, hclose, h₄⟩ := Prog.yields_bind.1 h₃
    obtain ⟨_, v₅, hfail, -, rfl⟩ := Prog.yields_bind.1 h₄
    obtain ⟨_, v₆, hread, h₅⟩ := Prog.yields_bind.1 hfail
    obtain ⟨-, rfl⟩ := Prog.yields_query.1 hread
    obtain ⟨-, rfl⟩ := Prog.yields_require.1 h₅
    rcases Prog.yields_update.1 hclose with ⟨-, -, rfl⟩ | ⟨-, -, rfl⟩
    · exact (closed_updateWhere _ row.id _ now).slots hs
    · exact hs

theorem slots_iff {c : StaffCommit} (hu : Table.Unique s.mentors) (hs : MentorSlots s)
    (h : c.op.prog.Yields s c.result (c.tx.view s)) : MentorSlots (c.tx.view s) ↔ KeepsRole s c := by
  obtain ⟨op, t, a⟩ := c
  dsimp only at h ⊢
  generalize t.view s = v' at h ⊢
  unfold KeepsRole
  cases op with
  | update i patch usable =>
    obtain ⟨m, v₁, hupdate, -, rfl⟩ := Prog.yields_bind.1 h
    exact slots_update hs hupdate
  | assignMentor now g i =>
    obtain ⟨m, v₁, hassign, -, rfl⟩ := Prog.yields_bind.1 h
    exact iff_of_true (slots_assign hu hs hassign) trivial
  | unassignMentor now g =>
    obtain ⟨m, v₁, hunassign, -, rfl⟩ := Prog.yields_bind.1 h
    exact iff_of_true (slots_unassign hs hunassign) trivial
  | deactivate now i =>
    refine iff_of_true ?_ trivial
    obtain ⟨_, v₁, hbody, -, rfl⟩ := Prog.yields_bind.1 h
    obtain ⟨m, v₂, hm, h₁⟩ := Prog.yields_bind.1 hbody
    obtain ⟨hfind, hid, rfl⟩ := yields_requireStaff hm
    obtain ⟨_, v₃, hguard, h₂⟩ := Prog.yields_bind.1 h₁
    obtain ⟨-, rfl⟩ := Prog.yields_guardOr.1 hguard
    split at h₂
    · rename_i hactive
      refine slots_saveAndUnassign hu hs ?_ h₂
      rw [StaffMember.deactivate, if_pos hactive]
      show (v₃.staffAt m.id).isSome = true
      rw [hid, hfind]
      rfl
    · obtain ⟨-, rfl⟩ := h₂
      exact hs
  | archive now i =>
    refine iff_of_true ?_ trivial
    obtain ⟨_, v₁, hbody, -, rfl⟩ := Prog.yields_bind.1 h
    obtain ⟨m, v₂, hm, h₁⟩ := Prog.yields_bind.1 hbody
    obtain ⟨hfind, hid, rfl⟩ := yields_requireStaff hm
    split at h₁
    · obtain ⟨-, rfl⟩ := h₁
      exact hs
    · rename_i harchived
      refine slots_saveAndUnassign hu hs ?_ h₁
      rw [StaffMember.archive, if_neg harchived]
      show (v₂.staffAt m.id).isSome = true
      rw [hid, hfind]
      rfl
  | activate i =>
    refine iff_of_true ?_ trivial
    obtain ⟨_, v₁, hbody, -, rfl⟩ := Prog.yields_bind.1 h
    obtain ⟨m, v₂, hm, h₁⟩ := Prog.yields_bind.1 hbody
    obtain ⟨hfind, hid, rfl⟩ := yields_requireStaff hm
    obtain ⟨_, v₃, hguard, h₂⟩ := Prog.yields_bind.1 h₁
    obtain ⟨-, rfl⟩ := Prog.yields_guardOr.1 hguard
    split at h₂
    · obtain ⟨-, rfl⟩ := h₂
      exact hs
    · rename_i hactive
      have hsame : m.activate.id = m.id := by
        rw [StaffMember.activate, if_neg hactive]
      have hfind' : v₃.staffAt m.id = some m := hid ▸ hfind
      obtain rfl := yields_save h₂ (by rw [hsame, hfind']; rfl)
      refine slots_save hs hsame hfind' ?_
      rw [StaffMember.eligible, Bool.eq_false_of_not_eq_true hactive]
      rfl
  | restore i =>
    refine iff_of_true ?_ trivial
    obtain ⟨_, v₁, hbody, -, rfl⟩ := Prog.yields_bind.1 h
    obtain ⟨m, v₂, hm, h₁⟩ := Prog.yields_bind.1 hbody
    obtain ⟨hfind, hid, rfl⟩ := yields_requireStaff hm
    split at h₁
    · rename_i harchived
      have hsame : m.restore.id = m.id := by
        rw [StaffMember.restore, if_pos harchived]
      have hfind' : v₂.staffAt m.id = some m := hid ▸ hfind
      obtain rfl := yields_save h₁ (by rw [hsame, hfind']; rfl)
      refine slots_save hs hsame hfind' ?_
      rw [StaffMember.eligible, harchived]
      simp
    · obtain ⟨-, rfl⟩ := h₁
      exact hs

end

/-! ## Runs -/

/-- **Mentor slots.**  In every serial run the slots are right after each commit exactly when no active mentor takes
another role. -/
theorem mentorSlots_iff {s : Store} {cs : Schedule 1} {σ : System 1} (hu : Table.Unique s.mentors) (hs : MentorSlots s)
    (hrun : run s cs = some σ) : Always MentorSlots s σ.log ↔ AtEach KeepsRole s σ.log := by
  have hstarts : System.Starts (fun _ => True) cs := fun _ _ _ => trivial
  have hchain := (System.exec_yields hstarts hrun).before (fun s => Table.Unique s.mentors) hu
    fun s c hu h => unique_mentors h.2 hu
  exact hchain.always_iff MentorSlots hs fun s c h hs => slots_iff h.1 hs h.2.2

/-! ## A mentor who becomes a receptionist -/

/-- Group 1 and its mentor-to-be. -/
def nursery : Store :=
  ⟨[⟨2, some "Dana", some "+77010000000", .mentor, none, true, none, none, none⟩], [⟨1, none⟩], []⟩

/-- The new role and nothing else. -/
def newRole (role : StaffRole) : UpdateStaffInput := ⟨none, some role, none, none, none⟩

/-- Dana gets the group, then another role. -/
def mentorToReception : Schedule 1 :=
  Choice.request 0 (.assignMentor 10 1 2) 7 3 ++ Choice.request 0 (.update 2 (newRole .reception) true) 4 0

theorem mentorToReception_keeps_slot : ∃ σ : System 1, run nursery mentorToReception = some σ ∧
    MentorSlots nursery ∧ ¬ Always MentorSlots nursery σ.log := by
  obtain ⟨σ, hrun, h⟩ := run_shows run nursery mentorToReception
    (fun σ : System 1 => decide (¬ Always MentorSlots nursery σ.log)) (by decide +kernel)
  exact ⟨σ, hrun, by decide, of_decide_eq_true h⟩

/-- Dana is archived before her role changes. -/
def archiveThenReception : Schedule 1 :=
  Choice.request 0 (.assignMentor 10 1 2) 7 3 ++ Choice.request 0 (.archive 20 2) 6 0 ++
    Choice.request 0 (.restore 2) 4 0 ++ Choice.request 0 (.update 2 (newRole .reception) true) 4 0

theorem mentorSlots_iff_archiveThenReception : ∃ σ : System 1, run nursery archiveThenReception = some σ ∧
    σ.log.length = 4 ∧ Always MentorSlots nursery σ.log := by
  obtain ⟨σ, hrun, h⟩ := run_shows run nursery archiveThenReception
    (fun σ : System 1 => decide (AtEach KeepsRole nursery σ.log ∧ σ.log.length = 4)) (by decide +kernel)
  obtain ⟨hkeeps, hlength⟩ := of_decide_eq_true h
  exact ⟨σ, hrun, hlength, (mentorSlots_iff (by unfold Table.Unique; decide) (by decide) hrun).2 hkeeps⟩

end Staff
