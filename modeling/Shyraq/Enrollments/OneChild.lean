import Mathlib.Data.List.Chain
import Shyraq.Enrollments.Services

/-!
# One child per enrollment

A transition finds the lead with the status it has read; `update` and `assign` write the full row
back, its status and its child with it.  The lead keeps its one child and its log exactly as long as
they find the status they have read.
-/

namespace Enrollments

open Kernel Transactions Children Guardians

/-! ## What is claimed -/

/-- The cards that are there since `s₀`. -/
def Store.createdSince (s₀ s : Store) : List Child := s.children.drop s₀.children.length

/-- What the log says of the status. -/
def Store.lastStatus (s : Store) (id : Nat) : EnrollmentStatus :=
  ((s.logOf id).getLast?.map EnrollmentStatusLogEntry.toStatus).getD .new

def Follows (l l' : EnrollmentStatusLogEntry) : Prop := l'.fromStatus = l.toStatus

instance (l l' : EnrollmentStatusLogEntry) : Decidable (Follows l l') :=
  inferInstanceAs (Decidable (l'.fromStatus = l.toStatus))

/-- The log is a path of allowed edges from `new` to the status. -/
structure LogAgrees (s : Store) (e : Enrollment) : Prop where
  first : ∀ l ∈ (s.logOf e.id).head?, l.fromStatus = .new
  chained : (s.logOf e.id).IsChain Follows
  allowed : ∀ l ∈ s.logOf e.id, l.fromStatus.canTransitionTo l.toStatus = true
  status : e.status = s.lastStatus e.id

structure OneChild (s₀ : Store) (id : Nat) (s : Store) : Prop where
  one : (s₀.createdSince s).length ≤ 1
  row : ∃ e ∈ s.enrollment id, (∀ c ∈ s₀.createdSince s, e.childId = some c.id) ∧
    (e.status = .cardCreated → s₀.createdSince s ≠ []) ∧ LogAgrees s e

/-- The lead as it was first created. -/
structure Store.Fresh (s : Store) (id : Nat) : Prop where
  ids : Table.Unique s.enrollments
  row : ∃ e ∈ s.enrollment id, e.status = .new ∧ e.childId = none
  log : s.logOf id = []

instance (s : Store) (e : Enrollment) : Decidable (LogAgrees s e) :=
  decidable_of_iff ((∀ l ∈ (s.logOf e.id).head?, l.fromStatus = .new) ∧ (s.logOf e.id).IsChain Follows ∧
      (∀ l ∈ s.logOf e.id, l.fromStatus.canTransitionTo l.toStatus = true) ∧ e.status = s.lastStatus e.id)
    ⟨fun ⟨h₁, h₂, h₃, h₄⟩ => ⟨h₁, h₂, h₃, h₄⟩, fun ⟨h₁, h₂, h₃, h₄⟩ => ⟨h₁, h₂, h₃, h₄⟩⟩

instance (s₀ : Store) (id : Nat) (s : Store) : Decidable (OneChild s₀ id s) :=
  decidable_of_iff ((s₀.createdSince s).length ≤ 1 ∧ ∃ e ∈ s.enrollment id,
      (∀ c ∈ s₀.createdSince s, e.childId = some c.id) ∧
      (e.status = .cardCreated → s₀.createdSince s ≠ []) ∧ LogAgrees s e)
    ⟨fun ⟨h₁, h₂⟩ => ⟨h₁, h₂⟩, fun ⟨h₁, h₂⟩ => ⟨h₁, h₂⟩⟩

instance (s : Store) (id : Nat) : Decidable (s.Fresh id) :=
  decidable_of_iff ((s.enrollments.map Enrollment.id).Nodup ∧
      (∃ e ∈ s.enrollment id, e.status = .new ∧ e.childId = none) ∧ s.logOf id = [])
    ⟨fun ⟨h₁, h₂, h₃⟩ => ⟨h₁, h₂, h₃⟩, fun ⟨h₁, h₂, h₃⟩ => ⟨h₁, h₂, h₃⟩⟩

/-! ## What a request commits -/

/-- The full row is written, whatever it is by then. -/
def Op.writesBack : Op → Bool
  | .update .. | .assign .. => true
  | .transition .. => false

/-- The row stays locked; cards are only added. -/
def rowLocks : Discipline Store Key Write where
  rely held s s' :=
    Table.Evolves (fun _ _ => True) (fun i => Key.row i ∈ held) s.enrollments s'.enrollments ∧
      s.children <+: s'.children
  refl _ s := ⟨.refl (fun _ => trivial) s.enrollments, List.prefix_rfl⟩
  trans h₁ h₂ := ⟨h₁.1.trans (fun _ _ _ _ _ => trivial) h₂.1, h₁.2.trans h₂.2⟩
  mono hs h := ⟨h.1.mono fun _ hi => hs hi, h.2⟩

/-- The first SELECT has found the lead as `r`. -/
def Seen (J : Store → Prop) (id : Nat) (t : Tx Store Key Write) (s : Store) (r : Enrollment) : Prop :=
  ∃ v, J v ∧ v.enrollment id = some r ∧ t.seen.head? = some v ∧ v.children <+: s.children

/-- Found as `e`, left as `n`. -/
structure Written (id : Nat) (t : Tx Store Key Write) (s : Store) (e n : Enrollment) : Prop where
  held : Key.row id ∈ t.held
  enrollments : Table.Replaced s.enrollments (t.view s).enrollments id e n

/-- What a transition adds to the cards, and the child the lead then has. -/
inductive Carries (next : EnrollmentStatus) (r n : Enrollment) (cards cards' : List Child) : Prop
  | card (c : Child) (hnext : next = .cardCreated) (hcards : cards' = cards ++ [c]) (hchild : n.childId = some c.id)
  | none (hnext : next ≠ .cardCreated) (hcards : cards' = cards) (hchild : n.childId = r.childId)

inductive Outcome (J : Store → Prop) (op : Op) (t : Tx Store Key Write) (s : Store) : Prop
  | edited (r e n : Enrollment) (back : op.writesBack = true)
      (seen : Seen J op.enrollmentId t s r) (written : Written op.enrollmentId t s e n)
      (hopen : r.status ≠ .archive) (status : n.status = r.status) (child : n.childId = r.childId)
      (cards : (t.view s).children = s.children) (log : (t.view s).statusLog = s.statusLog)
  | moved (r e n : Enrollment) (l : EnrollmentStatusLogEntry) (back : op.writesBack = false)
      (seen : Seen J op.enrollmentId t s r) (written : Written op.enrollmentId t s e n)
      (found : e.status = r.status) (hallowed : r.status.canTransitionTo l.toStatus = true)
      (source : l.fromStatus = r.status) (lead : l.enrollmentId = op.enrollmentId) (status : n.status = l.toStatus)
      (carries : Carries l.toStatus r n s.children (t.view s).children)
      (log : (t.view s).statusLog = s.statusLog ++ [l])

section

variable {J : Store → Prop} {op : Op} {t : Tx Store Key Write} {s : Store}

theorem unique_view (h : Table.Unique s.enrollments) (t : Tx Store Key Write) :
    Table.Unique (t.view s).enrollments := by
  unfold Tx.view
  generalize t.writes = ws
  induction ws generalizing s with
  | nil => exact h
  | cons w ws ih =>
    refine ih ?_
    cases w with
    | update e => exact Table.unique_updateWhere h e.id _ _ fun _ => rfl
    | updateWithExpectedStatus e old => exact Table.unique_updateWhere h e.id _ _ fun _ => rfl
    | appendLog l => exact h
    | createChild c => exact h
    | createGuardian g => exact h

theorem Outcome.written (h : Outcome J op t s) : ∃ e n, Written op.enrollmentId t s e n := by
  cases h with
  | edited r e n _ _ written => exact ⟨e, n, written⟩
  | moved r e n l _ _ written => exact ⟨e, n, written⟩

theorem Outcome.grown (h : Outcome J op t s) : s.children <+: (t.view s).children := by
  cases h with
  | edited _ _ _ _ _ _ _ _ _ cards _ => rw [cards]
  | moved _ _ _ _ _ _ _ _ _ _ _ _ carries _ =>
    cases carries with
    | card c _ hcards _ =>
      rw [hcards]
      exact List.prefix_append _ _
    | none _ hcards _ => rw [hcards]

theorem Outcome.guarantee (h : Outcome J op t s) : rowLocks.Guarantee t s := by
  obtain ⟨e, n, hw⟩ := h.written
  refine fun held hd => ⟨?_, h.grown⟩
  exact hw.enrollments.evolves (fun _ => trivial) trivial fun hk => hd hw.held hk

end

/-! ## The requests one by one -/

section

variable {J : Store → Prop} {X : EnrollmentError → Prop} {B : Type} {Q : Tx Store Key Write → Store → B → Prop}
  {t : Tx Store Key Write} {s v : Store} {op : Op} {id : Nat} {r : Enrollment}

theorem safe_getEnrollment {f : Enrollment → Sql B} (hX : ∀ e, X e)
    (h : ∀ v r, J v → v.enrollment id = some r → r.id = id →
      Prog.Safe rowLocks (fun s => J s ∧ v.children <+: s.children) X Q (f r) (Tx.start.saw v) v) :
    Prog.Safe rowLocks J X Q (Prog.bind (EnrollmentService.getEnrollment id) f) .start s := by
  unfold EnrollmentService.getEnrollment EnrollmentRepository.findById
  simp only [Prog.bind_eq, Prog.bind_assoc]
  refine Prog.Safe.query fun v _ hj => Prog.Safe.require hX fun r hr => ?_
  refine Prog.Safe.keep (fun s => v.children <+: s.children) [] (List.nil_subset _)
    (fun _ _ hr _ _ h => h.trans hr.2) hj List.prefix_rfl ?_
  exact h v r hj hr (Table.id_of_find hr)

theorem safe_edit {n : Enrollment} (hX : ∀ e, X e)
    (hJ : ∀ s, J s → Table.Unique s.enrollments ∧ (s.enrollment id).isSome = true)
    (hop : op.enrollmentId = id) (back : op.writesBack = true)
    (hv : J v) (hr : v.enrollment id = some r) (hopen : r.status ≠ .archive) (hid : n.id = id)
    (hstatus : n.status = r.status) (hchild : n.childId = r.childId) :
    Prog.Safe rowLocks (fun s => J s ∧ v.children <+: s.children) X (fun t s _ => Outcome J op t s)
      (Prog.bind (EnrollmentRepository.update n) fun e => Prog.ret (⟨e, none⟩ : TransitionEnrollmentResult))
      (Tx.start.saw v) v := by
  unfold EnrollmentRepository.update EnrollmentRepository.findById
  simp only [Prog.bind_eq, Prog.bind_assoc]
  refine Prog.Safe.update (fun s₁ _ hj₁ hh => ?_) fun s₁ _ hj₁ hmiss => ?_
  · obtain ⟨e, he⟩ := Option.isSome_iff_exists.1 (hJ s₁ hj₁.1).2
    refine Prog.Safe.keepAt (k := .row id) (φ := fun s => s.enrollment id)
      (List.mem_append_left _ (hid ▸ List.mem_cons_self)) (fun _ _ _ hk hr => hr.1.find_eq hk) hj₁ he ?_
    refine Prog.Safe.query fun s₂ _ hj₂ => Prog.Safe.require hX fun _ _ => fun s₃ _ hj₃ => ?_
    refine .edited r e (n.saved e) back ?_ ⟨?_, ?_⟩ hopen hstatus hchild rfl rfl
    · rw [hop]
      exact ⟨v, hv, hr, rfl, hj₃.1.2⟩
    · rw [hop]
      exact List.mem_append_left _ (hid ▸ List.mem_cons_self)
    · rw [hop, ← hid]
      exact .updateWhere (hJ s₃ hj₃.1.1).1 (fun _ => rfl) (hid ▸ hj₃.2) rfl
  · have hmiss : (s₁.enrollment n.id).isSome = false := hmiss
    rw [hid, (hJ s₁ hj₁.1).2] at hmiss
    cases hmiss

theorem update_eq_ok {patch : UpdateEnrollmentPatch} {n : Enrollment} (h : r.update patch = .ok n) :
    r.status ≠ .archive ∧ n.id = r.id ∧ n.status = r.status ∧ n.childId = r.childId := by
  unfold Enrollment.update at h
  split at h
  · cases h
  · next hlocked =>
    cases h
    refine ⟨fun harchive => hlocked ?_, rfl, rfl, rfl⟩
    rw [harchive]
    rfl

theorem assignTo_eq_ok {staff : Nat} {n : Enrollment} (h : r.assignTo staff = .ok n) :
    r.status ≠ .archive ∧ n.id = r.id ∧ n.status = r.status ∧ n.childId = r.childId := by
  unfold Enrollment.assignTo at h
  split at h
  · cases h
  · next hterminal =>
    cases h
    refine ⟨fun harchive => hterminal ?_, rfl, rfl, rfl⟩
    rw [harchive]
    rfl

theorem transitionTo_eq_ok {next : EnrollmentStatus} {staff : Nat} {comment : Option String} {now : Int}
    {moved : Enrollment × EnrollmentStatusLogEntry} (h : r.transitionTo next staff comment now = .ok moved) :
    r.status.canTransitionTo next = true ∧ moved.1.id = r.id ∧ moved.1.status = next ∧
      moved.1.childId = r.childId ∧ moved.2.enrollmentId = r.id ∧ moved.2.fromStatus = r.status ∧
      moved.2.toStatus = next := by
  unfold Enrollment.transitionTo at h
  split at h
  · cases h
  · next hallowed =>
    generalize (if next = .cardCreated then r.checkCard else .ok ()) = checked at h
    cases checked with
    | error e => cases h
    | ok _ =>
      cases h
      exact ⟨by simpa using hallowed, rfl, rfl, rfl, rfl, rfl, rfl⟩

/-- What `sideEffects` leaves: nothing, or a card and its guardian. -/
def Effects (next : EnrollmentStatus) (m : Enrollment) (v : Store) (t : Tx Store Key Write)
    (carried : Enrollment × Option Child) : Prop :=
  t.seen.head? = some v ∧
    ((next ≠ .cardCreated ∧ t.writes = [] ∧ carried.1 = m) ∨
      ∃ c g, next = .cardCreated ∧ t.writes = [.createChild c, .createGuardian g] ∧ carried.1 = m.assignChild c.id)

theorem seen_head (h : t.seen.head? = some v) (s : Store) : (t.saw s).seen.head? = some v := by
  rw [Tx.seen_saw, List.head?_append, h]
  rfl

theorem safe_checkIin {iin : Option String} {f : Unit → Sql B} (hX : ∀ e, X e) (hw : t.writes = [])
    (hseen : t.seen.head? = some v)
    (h : ∀ t' s', t'.writes = [] → t'.seen.head? = some v → Prog.Safe rowLocks J X Q (f ()) t' s') :
    Prog.Safe rowLocks J X Q (Prog.bind (ChildService.checkIin iin) f) t s := by
  unfold ChildService.checkIin
  cases iin with
  | none => exact h t s hw hseen
  | some iin =>
    simp only [Prog.bind_eq, Prog.bind_assoc]
    exact Prog.Safe.query fun s₁ _ _ => Prog.Safe.guardOr hX fun _ => h _ s₁ hw (seen_head hseen s₁)

theorem safe_insertChild {f : Child → Sql B} (hX : ∀ e, X e) (createNew : Nat → Except ChildError Child)
    (hw : t.writes = []) (hseen : t.seen.head? = some v)
    (h : ∀ c t' s', t'.writes = [.createChild c] → t'.seen.head? = some v →
      Prog.Safe rowLocks J X Q (f c) t' s') :
    Prog.Safe rowLocks J X Q (Prog.bind (ChildService.insertChild createNew) f) t s := by
  unfold ChildService.insertChild
  simp only [Prog.bind_eq, Prog.bind_assoc]
  refine Prog.Safe.uuid fun s₁ i _ _ _ _ => Prog.Safe.ofExcept hX fun c _ => ?_
  refine Prog.Safe.insertOr hX fun s₂ _ _ _ => h c _ s₂ ?_ hseen
  rw [Tx.writes_wrote, Tx.writes_locked, hw]
  rfl

theorem safe_inviteGuardian {f : Unit → Sql B} (hX : ∀ e, X e) (c : Child) (userPhone : String) (userId : Nat)
    (hw : t.writes = [.createChild c]) (hseen : t.seen.head? = some v)
    (h : ∀ g t' s', t'.writes = [.createChild c, .createGuardian g] → t'.seen.head? = some v →
      Prog.Safe rowLocks J X Q (f ()) t' s') :
    Prog.Safe rowLocks J X Q (Prog.bind (ChildService.inviteGuardian c userPhone userId) f) t s := by
  unfold ChildService.inviteGuardian
  simp only [Prog.bind_eq, Prog.bind_assoc]
  refine Prog.Safe.query fun s₁ _ _ => Prog.Safe.require hX fun c' _ => ?_
  refine Prog.Safe.ofExcept hX fun _ _ => Prog.Safe.query fun s₂ _ _ => Prog.Safe.guardOr hX fun _ => ?_
  refine Prog.Safe.uuid fun s₃ i _ _ _ _ => Prog.Safe.insertOr hX fun s₄ _ _ _ => ?_
  refine h (ChildGuardian.createPending i c'.id userId .primary (some true)) _ s₄ ?_ ?_
  · rw [Tx.writes_wrote, Tx.writes_locked, Tx.writes_saw, Tx.writes_saw, hw]
    rfl
  · exact seen_head (seen_head hseen s₁) s₂

theorem safe_createCard (hX : ∀ e, X e) (now : Int) (m : Enrollment) (input : TransitionEnrollmentInput)
    (hnext : input.toStatus = .cardCreated) (hw : t.writes = []) (hseen : t.seen.head? = some v) :
    Prog.Safe rowLocks J X (fun t _ carried => Effects input.toStatus m v t carried)
      (EnrollmentService.createCard now m input) t s := by
  unfold EnrollmentService.createCard ChildService.createChild
  simp only [Prog.bind_eq, Prog.bind_assoc]
  refine Prog.Safe.ofExcept hX fun iin _ => Prog.Safe.guardOr hX fun _ => ?_
  refine safe_checkIin hX hw hseen fun t₁ s₁ hw₁ hseen₁ => ?_
  refine safe_insertChild hX _ hw₁ hseen₁ fun c t₂ s₂ hw₂ hseen₂ => ?_
  refine safe_inviteGuardian hX c _ _ hw₂ hseen₂ fun g t₃ s₃ hw₃ hseen₃ => ?_
  exact Prog.Safe.guardOr hX fun _ => fun s₄ _ _ => ⟨hseen₃, .inr ⟨c, g, hnext, hw₃, rfl⟩⟩

theorem safe_sideEffects (hX : ∀ e, X e) (now : Int) (m : Enrollment) (input : TransitionEnrollmentInput)
    (hw : t.writes = []) (hseen : t.seen.head? = some v) :
    Prog.Safe rowLocks J X (fun t _ carried => Effects input.toStatus m v t carried)
      (EnrollmentService.sideEffects now m input) t s := by
  unfold EnrollmentService.sideEffects
  split
  · next hnext => exact safe_createCard hX now m input hnext hw hseen
  · next hnext => exact fun _ _ _ => ⟨hseen, .inl ⟨hnext, hw, rfl⟩⟩


theorem Effects.view {next : EnrollmentStatus} {m : Enrollment} {carried : Enrollment × Option Child}
    (h : Effects next m v t carried) (s : Store) :
    (t.view s).enrollments = s.enrollments ∧ (t.view s).statusLog = s.statusLog ∧
      Carries next m carried.1 s.children (t.view s).children := by
  obtain ⟨-, ⟨hnext, hw, hm⟩ | ⟨c, g, hnext, hw, hm⟩⟩ := h
  · rw [Tx.view_of_unwritten hw, hm]
    exact ⟨rfl, rfl, .none hnext rfl rfl⟩
  · unfold Tx.view
    rw [hw, hm]
    exact ⟨rfl, rfl, .card c hnext rfl rfl⟩

theorem Effects.lead {next : EnrollmentStatus} {m : Enrollment} {carried : Enrollment × Option Child}
    (h : Effects next m v t carried) : carried.1.id = m.id ∧ carried.1.status = m.status := by
  obtain ⟨-, ⟨_, _, hm⟩ | ⟨c, g, _, _, hm⟩⟩ := h
  · rw [hm]
    exact ⟨rfl, rfl⟩
  · rw [hm]
    exact ⟨rfl, rfl⟩

theorem safe_transition (hX : ∀ e, X e)
    (hJ : ∀ s, J s → Table.Unique s.enrollments ∧ (s.enrollment id).isSome = true) (now : Int)
    (input : TransitionEnrollmentInput) :
    Prog.Safe rowLocks J X (fun t s _ => Outcome J (.transition now id input) t s)
      (EnrollmentService.transition now id input) .start s := by
  unfold EnrollmentService.transition
  simp only [Prog.bind_eq]
  refine safe_getEnrollment hX fun v r hv hr hid => ?_
  refine Prog.Safe.require hX fun staff _ => ?_
  generalize EnrollmentService.checkPayload r input = checked
  refine Prog.Safe.ofExcept hX fun _ _ => ?_
  generalize hmoved : r.transitionTo input.toStatus staff input.comment now = moved
  refine Prog.Safe.ofExcept hX fun m hm => ?_
  obtain ⟨hallowed, hmid, hmstatus, hmchild, hlead, hsource, htarget⟩ := transitionTo_eq_ok (hmoved.trans hm)
  refine Prog.Safe.bind ⟨hv, List.prefix_rfl⟩ ((safe_sideEffects (v := v) hX now m.1 input rfl rfl).mono ?_)
  intro t₁ s₁ carried hj₁ heffects
  obtain ⟨hcid, hcstatus⟩ := heffects.lead
  have hcid : carried.1.id = id := (hcid.trans hmid).trans hid
  unfold EnrollmentRepository.updateWithExpectedStatus
  refine Prog.Safe.update (fun s₂ _ hj₂ hh => ?_) fun s₂ _ _ _ => Prog.Safe.guardOr hX fun h => by cases h
  have hh : (Table.find (t₁.view s₂).enrollments carried.1.id).any (fun q => q.status == r.status) = true := hh
  rw [(heffects.view s₂).1, hcid] at hh
  obtain ⟨e, he, hfound⟩ := (Option.any_eq_true _ _).1 hh
  rw [beq_iff_eq] at hfound
  refine Prog.Safe.keepAt (k := .row id) (φ := fun s => s.enrollment id)
    (List.mem_append_left _ (hcid ▸ List.mem_cons_self)) (fun _ _ _ hk hr => hr.1.find_eq hk) hj₂ he ?_
  unfold EnrollmentRepository.appendLog EnrollmentRepository.findById
  refine Prog.Safe.guardOr hX fun _ => Prog.Safe.insertOr hX fun s₃ _ _ _ => ?_
  refine Prog.Safe.query fun s₄ _ _ => Prog.Safe.require hX fun _ _ => fun s₅ _ hj₅ => ?_
  obtain ⟨hleads, hlog, hcarries⟩ := heffects.view s₅
  refine .moved r e (carried.1.saved e) m.2 rfl ⟨v, hv, hr, ?_, hj₅.1.2⟩ ⟨?_, ?_⟩ hfound ?_ hsource
    (hlead.trans hid) ?_ ?_ ?_
  · rw [Tx.seen_saw, Tx.seen_wrote, Tx.seen_wrote, List.head?_append, heffects.1]
    rfl
  · exact List.mem_append_right _ (List.mem_append_left _ (hcid ▸ List.mem_cons_self))
  · rw [Tx.view_saw, Tx.view_wrote, Tx.view_wrote]
    show Table.Replaced s₅.enrollments (Table.updateWhere (t₁.view s₅).enrollments carried.1.id
      (fun q => q.status == r.status) carried.1.saved) id e (carried.1.saved e)
    rw [hleads, hcid]
    exact .updateWhere (hJ s₅ hj₅.1.1).1 (fun _ => rfl) hj₅.2 (by simpa using hfound)
  · rw [htarget]
    exact hallowed
  · exact (hcstatus.trans hmstatus).trans htarget.symm
  · rw [Tx.view_saw, Tx.view_wrote, Tx.view_wrote, htarget]
    show Carries input.toStatus r (carried.1.saved e) s₅.children (t₁.view s₅).children
    cases hcarries with
    | card c hnext hcards hchild => exact .card c hnext hcards hchild
    | none hnext hcards hchild => exact .none hnext hcards (hchild.trans hmchild)
  · rw [Tx.view_saw, Tx.view_wrote, Tx.view_wrote]
    show (t₁.view s₅).statusLog ++ [m.2] = s₅.statusLog ++ [m.2]
    rw [hlog]


theorem safe_outcome (hX : ∀ e, X e)
    (hJ : ∀ s, J s → Table.Unique s.enrollments ∧ (s.enrollment id).isSome = true) (hop : op.enrollmentId = id) :
    Prog.Safe rowLocks J X (fun t s _ => Outcome J op t s) op.prog .start s := by
  cases op with
  | update i patch found =>
    obtain rfl : i = id := hop
    simp only [Op.prog, EnrollmentService.update, Prog.bind_eq, Prog.bind_assoc]
    refine safe_getEnrollment hX fun v r hv hr hid => Prog.Safe.guardOr hX fun _ => ?_
    refine Prog.Safe.ofExcept hX fun n hn => ?_
    obtain ⟨hopen, hnid, hstatus, hchild⟩ := update_eq_ok hn
    exact safe_edit hX hJ rfl rfl hv hr hopen (hnid.trans hid) hstatus hchild
  | assign i staff found =>
    obtain rfl : i = id := hop
    simp only [Op.prog, EnrollmentService.assign, Prog.bind_eq, Prog.bind_assoc]
    refine safe_getEnrollment hX fun v r hv hr hid => Prog.Safe.guardOr hX fun _ => ?_
    refine Prog.Safe.ofExcept hX fun n hn => ?_
    obtain ⟨hopen, hnid, hstatus, hchild⟩ := assignTo_eq_ok hn
    exact safe_edit hX hJ rfl rfl hv hr hopen (hnid.trans hid) hstatus hchild
  | transition now i input =>
    obtain rfl : i = id := hop
    exact safe_transition hX hJ now input

end

/-! ## The lead and its cards -/

/-- What the lead says of the cards. -/
structure Card (e : Enrollment) (created : List Child) : Prop where
  one : created.length ≤ 1
  child : e.childId = created.head?.map Child.id
  card : e.status = .cardCreated → created ≠ []
  after : created ≠ [] → e.status = .cardCreated ∨ e.status = .archive

/-- `OneChild`, and no card before its time. -/
structure Carried (s₀ : Store) (id : Nat) (s : Store) : Prop where
  grown : s₀.children <+: s.children
  row : ∃ e ∈ s.enrollment id, Card e (s₀.createdSince s) ∧ LogAgrees s e

section

variable {J : Store → Prop} {op : Op} {t : Tx Store Key Write} {s₀ s s' v : Store} {id : Nat} {e r n : Enrollment}

theorem Carried.oneChild (h : Carried s₀ id s) : OneChild s₀ id s := by
  obtain ⟨e, he, hcard, hlog⟩ := h.row
  refine ⟨hcard.one, e, he, fun c hc => ?_, hcard.card, hlog⟩
  have hone := hcard.one
  have hchild := hcard.child
  generalize s₀.createdSince s = created at hc hone hchild
  cases created with
  | nil => cases hc
  | cons c' created =>
    obtain rfl : created = [] := List.eq_nil_of_length_eq_zero (by simpa using hone)
    obtain rfl := List.mem_singleton.1 hc
    exact hchild

theorem createdSince_append {cs : List Child} (hs : s₀.children <+: s.children) (h : s'.children = s.children ++ cs) :
    s₀.createdSince s' = s₀.createdSince s ++ cs := by
  unfold Store.createdSince
  rw [h, List.drop_append_of_le_length hs.length_le]

theorem child_eq (hr : Card r (s₀.createdSince v)) (he : Card e (s₀.createdSince s)) (hgrown : v.children <+: s.children)
    (hstatus : r.status = e.status) (hopen : r.status ≠ .archive) : r.childId = e.childId := by
  have hprefix : s₀.createdSince v <+: s₀.createdSince s := hgrown.drop s₀.children.length
  rw [hr.child, he.child]
  by_cases hs : s₀.createdSince s = []
  · rw [hs, List.prefix_nil] at hprefix
    rw [hs, hprefix]
  · -- there is a card, so the status is `card_created`, and `v` has it too
    have hcard : e.status = .cardCreated := by
      rcases he.after hs with h | h
      · exact h
      · exact absurd (hstatus.trans h) hopen
    have hv := hr.card (hstatus.trans hcard)
    obtain ⟨c, cs, hc⟩ := List.exists_cons_of_ne_nil hv
    obtain ⟨ds, hds⟩ := hprefix
    rw [← hds, hc]
    rfl

theorem logOf_congr (h : s'.statusLog = s.statusLog) (i : Nat) : s'.logOf i = s.logOf i := by
  unfold Store.logOf
  rw [h]

theorem LogAgrees.congr (h : LogAgrees s e) (hlog : s'.statusLog = s.statusLog) (hid : n.id = e.id)
    (hstatus : n.status = e.status) : LogAgrees s' n := by
  have hof := logOf_congr hlog e.id
  refine ⟨?_, ?_, ?_, ?_⟩
  · rw [hid, hof]
    exact h.first
  · rw [hid, hof]
    exact h.chained
  · rw [hid, hof]
    exact h.allowed
  · unfold Store.lastStatus
    rw [hid, hof, hstatus]
    exact h.status

theorem LogAgrees.snoc {l : EnrollmentStatusLogEntry} (h : LogAgrees s e) (hlog : s'.statusLog = s.statusLog ++ [l])
    (hlead : l.enrollmentId = e.id) (hid : n.id = e.id) (hsource : l.fromStatus = e.status)
    (hallowed : l.fromStatus.canTransitionTo l.toStatus = true) (hstatus : n.status = l.toStatus) :
    LogAgrees s' n := by
  have hof : s'.logOf e.id = s.logOf e.id ++ [l] := by
    unfold Store.logOf
    rw [hlog, List.filter_append]
    simp [hlead]
  have hlast : s.lastStatus e.id = l.fromStatus := h.status.symm.trans hsource.symm
  unfold Store.lastStatus at hlast
  refine ⟨?_, ?_, ?_, ?_⟩
  · rw [hid, hof]
    intro l' hl'
    cases hold : s.logOf e.id with
    | nil =>
      rw [hold] at hl' hlast
      obtain rfl : l = l' := by simpa using hl'
      exact hlast.symm
    | cons a as =>
      refine h.first l' ?_
      rw [hold] at hl' ⊢
      exact hl'
  · rw [hid, hof, List.isChain_append]
    refine ⟨h.chained, .singleton l, fun a ha l' hl' => ?_⟩
    obtain rfl : l = l' := by simpa using hl'
    have ha : (s.logOf e.id).getLast? = some a := ha
    rw [ha] at hlast
    exact hlast.symm
  · rw [hid, hof]
    intro l' hl'
    rcases List.mem_append.1 hl' with hl' | hl'
    · exact h.allowed l' hl'
    · rw [List.mem_singleton.1 hl']
      exact hallowed
  · unfold Store.lastStatus
    rw [hid, hof]
    simp [hstatus]


end

/-- The lead as the request has read it. -/
def leadRead (c : EnrollmentCommit) : Option Enrollment :=
  c.tx.seen.head?.bind fun v => v.enrollment c.op.enrollmentId

/-- A lead that is written back was read with the status it has now. -/
def StatusCurrent (s : Store) (c : EnrollmentCommit) : Prop :=
  c.op.writesBack = true →
    (leadRead c).map Enrollment.status = (s.enrollment c.op.enrollmentId).map Enrollment.status

instance (s : Store) (c : EnrollmentCommit) : Decidable (StatusCurrent s c) :=
  inferInstanceAs (Decidable (_ → _))

/-- What the requests may rely on as long as the lead is carried. -/
def Relied (s₀ : Store) (id : Nat) (s : Store) : Prop := Table.Unique s.enrollments ∧ Carried s₀ id s

section

variable {op : Op} {t : Tx Store Key Write} {s₀ s v : Store} {id : Nat} {e r n : Enrollment}

theorem Relied.card (h : Relied s₀ id s) (he : s.enrollment id = some e) :
    Card e (s₀.createdSince s) ∧ LogAgrees s e := by
  obtain ⟨e', he', h⟩ := h.2.row
  obtain rfl : e' = e := Option.some.inj (he'.symm.trans he)
  exact h

theorem Written.ids (h : Written id t s e n) : e.id = id ∧ n.id = id :=
  ⟨Table.id_of_find h.enrollments.before, Table.id_of_find h.enrollments.find_self⟩

theorem moved_carried {l : EnrollmentStatusLogEntry} (hs : Relied s₀ id s) (seen : Seen (Relied s₀ id) id t s r)
    (written : Written id t s e n) (found : e.status = r.status) (hallowed : r.status.canTransitionTo l.toStatus = true)
    (source : l.fromStatus = r.status) (lead : l.enrollmentId = id) (status : n.status = l.toStatus)
    (carries : Carries l.toStatus r n s.children (t.view s).children)
    (log : (t.view s).statusLog = s.statusLog ++ [l]) : Carried s₀ id (t.view s) := by
  obtain ⟨v, hv, hr, -, hgrown⟩ := seen
  obtain ⟨hcard, hlog⟩ := hs.card written.enrollments.before
  obtain ⟨hrcard, -⟩ := hv.card hr
  obtain ⟨heid, hnid⟩ := written.ids
  have hlog' : LogAgrees (t.view s) n := by
    refine hlog.snoc log (lead.trans heid.symm) (hnid.trans heid.symm) (source.trans found.symm) ?_ status
    rw [source]
    exact hallowed
  have hopen : r.status ≠ .archive := by
    intro h
    rw [h] at hallowed
    cases hallowed
  cases carries with
  | card c hnext hcards hchild =>
    have hnone : s₀.createdSince s = [] := by
      by_contra hsome
      -- `in_processing` is the only way to a card
      rcases hcard.after hsome with h | h <;> rw [← found, h, hnext] at hallowed <;> cases hallowed
    have hcreated := createdSince_append hs.2.grown hcards
    rw [hnone] at hcreated
    refine ⟨hs.2.grown.trans (hcards ▸ List.prefix_append _ _), n, written.enrollments.find_self, ?_, hlog'⟩
    rw [hcreated]
    refine ⟨Nat.le_refl 1, hchild, fun _ => List.cons_ne_nil _ _, fun _ => .inl (status.trans hnext)⟩
  | none hnext hcards hchild =>
    have hcreated : s₀.createdSince (t.view s) = s₀.createdSince s := by
      unfold Store.createdSince
      rw [hcards]
    refine ⟨hcards ▸ hs.2.grown, n, written.enrollments.find_self, ?_, hlog'⟩
    rw [hcreated]
    refine ⟨hcard.one, ?_, fun h => absurd (status.symm.trans h) hnext, fun hsome => .inr ?_⟩
    · exact (hchild.trans (child_eq hrcard hcard hgrown found.symm hopen)).trans hcard.child
    · -- a card can only be archived
      rcases hcard.after hsome with h | h
      · rw [← found, h] at hallowed
        rw [status]
        cases htarget : l.toStatus <;> rw [htarget] at hallowed <;> first | rfl | cases hallowed
      · exact absurd (found.symm.trans h) hopen

theorem Outcome.oneChild_iff {c : EnrollmentCommit} (h : Outcome (Relied s₀ id) c.op c.tx s)
    (hop : c.op.enrollmentId = id) (hs : Relied s₀ id s) : (OneChild s₀ id (c.tx.view s) ↔ StatusCurrent s c) ∧
      (StatusCurrent s c → Carried s₀ id (c.tx.view s)) := by
  cases h with
  | moved r e n l back seen written found hallowed source lead status carries log =>
    rw [hop] at seen written lead
    have hcarried := moved_carried hs seen written found hallowed source lead status carries log
    refine ⟨iff_of_true hcarried.oneChild fun hback => ?_, fun _ => hcarried⟩
    rw [back] at hback
    cases hback
  | edited r e n back seen written hopen status child cards log =>
    rw [hop] at seen written
    obtain ⟨v, hv, hr, hhead, hgrown⟩ := seen
    obtain ⟨hcard, hlog⟩ := hs.card written.enrollments.before
    obtain ⟨heid, hnid⟩ := written.ids
    have hcurrent : StatusCurrent s c ↔ r.status = e.status := by
      have hread : leadRead c = some r := by
        unfold leadRead
        rw [hhead, hop]
        exact hr
      have hrow : s.enrollment c.op.enrollmentId = some e := by
        rw [hop]
        exact written.enrollments.before
      unfold StatusCurrent
      rw [hread, hrow]
      simp [back]
    have hcarried : r.status = e.status → Carried s₀ id (c.tx.view s) := by
      intro hsame
      have hcreated : s₀.createdSince (c.tx.view s) = s₀.createdSince s := by
        unfold Store.createdSince
        rw [cards]
      have hstatus : n.status = e.status := status.trans hsame
      refine ⟨cards ▸ hs.2.grown, n, written.enrollments.find_self, ?_, ?_⟩
      · rw [hcreated]
        refine ⟨hcard.one, ?_, fun h => hcard.card (hstatus.symm.trans h), fun hsome => hstatus ▸ hcard.after hsome⟩
        exact (child.trans (child_eq (hv.card hr).1 hcard hgrown hsame hopen)).trans hcard.child
      · exact hlog.congr log (hnid.trans heid.symm) hstatus
    rw [hcurrent]
    refine ⟨⟨fun hone => ?_, fun hsame => (hcarried hsame).oneChild⟩, hcarried⟩
    -- the log has not moved, so neither has the status
    obtain ⟨n', hn', -, -, hlog'⟩ := hone.row
    obtain rfl : n = n' := Option.some.inj (written.enrollments.find_self.symm.trans hn')
    have hlast : n.status = (c.tx.view s).lastStatus n.id := hlog'.status
    unfold Store.lastStatus at hlast
    rw [logOf_congr log, hnid, ← heid] at hlast
    exact status.symm.trans (hlast.trans hlog.status.symm)

theorem carried_of_fresh (h : s.Fresh id) : Carried s id s := by
  obtain ⟨e, he, hstatus, hchild⟩ := h.row
  have hid : e.id = id := Table.id_of_find he
  have hcreated : s.createdSince s = [] := List.drop_length
  have hlog : s.logOf e.id = [] := hid ▸ h.log
  refine ⟨List.prefix_rfl, e, he, ?_, ?_, ?_, ?_, ?_⟩
  · rw [hcreated]
    refine ⟨Nat.zero_le 1, hchild, fun h => ?_, fun h => absurd rfl h⟩
    rw [hstatus] at h
    cases h
  · rw [hlog]
    exact fun l hl => by cases hl
  · rw [hlog]
    exact .nil
  · rw [hlog]
    exact fun l hl => by cases hl
  · unfold Store.lastStatus
    rw [hlog, hstatus]
    rfl

end

/-- **One child per enrollment.**  The lead has one child at most, its own, and a log that is a path to
its status, exactly as long as every lead that is written back has the status it was read with. -/
theorem one_child_iff {k id : Nat} {s : Store} {cs : Schedule k} {σ : System k} (hfresh : s.Fresh id)
    (hops : System.Starts (fun op => op.enrollmentId = id) cs) (hrun : run s cs = some σ) :
    Always (OneChild s id) s σ.log ↔ AtEach StatusCurrent s σ.log := by
  have hX : ∀ _ : EnrollmentError, True := fun _ => trivial
  refine System.exec_always_iff_of (D := rowLocks) (J := fun s => Table.Unique s.enrollments) (X := fun _ => True)
    (R := Carried s id) (Q := fun op t s' (_ : TransitionEnrollmentResult) =>
      Outcome (Relied s id) op t s' ∧ op.enrollmentId = id)
    hfresh.ids (carried_of_fresh hfresh) (fun op s₁ hop _ => ?_) (fun s₁ c hj hi h => ?_)
    (fun s₁ c hj hi h => h.1.oneChild_iff h.2 ⟨hj, hi⟩) hops hrun
  · refine Prog.Safe.mono (safe_outcome hX (fun v hv => ⟨hv.1, ?_⟩) hop) fun _ _ _ _ h => ⟨h, hop⟩
    obtain ⟨e, he, -⟩ := hv.2.row
    exact Option.isSome_of_mem he
  · exact ⟨unique_view hj c.tx, h.1.guarantee⟩

/-! ## A new staff member against the card -/

/-- A new lead with all that a card needs. -/
def newLead : Store where
  enrollments := [⟨1, none, "Aida", "+77010000001", some "Aru", some 0, none, .new, none, none, none, 0⟩]
  statusLog := []
  children := []
  guardians := []

def toStatus (next : EnrollmentStatus) : Op :=
  .transition 100 1 ⟨next, none, some 5, 90, some 9, true, 70, false⟩

/-- The lead becomes a card, with these ids for the child and the guardian. -/
def createCard {n : Nat} (i : Fin n) (childId guardianId : Nat) : Schedule n :=
  .start i (toStatus .cardCreated) :: Choice.steps i 5 childId ++ Choice.steps i 6 guardianId

/-- `assign` has read the lead in processing; the card is created; `assign` writes the lead back, and a
second card is created. -/
def assignAcrossCard : Schedule 2 :=
  Choice.request 0 (toStatus .inProcessing) 5 0 ++ .start 0 (.assign 1 9 true) :: Choice.steps 0 1 0 ++
    createCard 1 20 21 ++ Choice.steps 0 3 0 ++ createCard 1 22 23

theorem assignAcrossCard_twoChildren : ∃ σ : System 2, newLead.Fresh 1 ∧
    System.Starts (fun op => op.enrollmentId = 1) assignAcrossCard ∧ run newLead assignAcrossCard = some σ ∧
    (newLead.createdSince σ.db).length = 2 ∧ ¬ Always (OneChild newLead 1) newLead σ.log := by
  obtain ⟨σ, hrun, h⟩ := run_shows run newLead assignAcrossCard (fun σ : System 2 =>
    decide ((newLead.createdSince σ.db).length = 2) && decide (¬ Always (OneChild newLead 1) newLead σ.log))
    (by decide +kernel)
  simp only [Bool.and_eq_true, decide_eq_true_eq] at h
  exact ⟨σ, by decide, by decide, hrun, h.1, h.2⟩

/-- The assignment before the card. -/
def assignThenCard : Schedule 1 :=
  Choice.request 0 (toStatus .inProcessing) 5 0 ++ Choice.request 0 (.assign 1 9 true) 4 0 ++ createCard 0 20 21

theorem one_child_iff_assignThenCard : ∃ σ : System 1, run newLead assignThenCard = some σ ∧
    σ.log.length = 3 ∧ Always (OneChild newLead 1) newLead σ.log := by
  obtain ⟨σ, hrun, h⟩ := run_shows run newLead assignThenCard (fun σ : System 1 =>
    decide (AtEach StatusCurrent newLead σ.log) && σ.log.length == 3) (by decide +kernel)
  simp only [Bool.and_eq_true, decide_eq_true_eq, beq_iff_eq] at h
  exact ⟨σ, hrun, h.2, (one_child_iff (by decide) (by decide) hrun).2 h.1⟩

end Enrollments
