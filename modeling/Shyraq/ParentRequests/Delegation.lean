import Shyraq.ParentRequests.Resolution

/-!
# Authority behind an accepted trusted person

Creating a request checks the guardian link of the parent; accepting it does not.  What it adds is backed by
authority as long as nothing takes the authority away while the request is pending.
-/

namespace ParentRequests

open Kernel Transactions

/-! ## What is claimed -/

/-- The rows that a step has added to a table. -/
def added {R : Type} (l l' : List R) : List R := l'.drop l.length

/-- Whoever an acceptance whitelists, and whatever pickup it opens, is credited to a user who may create requests for
the child at that moment. -/
structure BackedByAuthority (s : Store) (c : ParentRequestCommit) : Prop where
  people : ∀ tp ∈ added s.people (c.tx.view s).people, s.mayCreate tp.childId tp.addedByUserId = true
  pickupRequests : ∀ p ∈ added s.pickupRequests (c.tx.view s).pickupRequests,
    s.mayCreate p.childId p.requestedByUserId = true

/-- A request that whitelists a person once it is accepted. -/
def ParentRequest.asksForPerson (pr : ParentRequest) : Bool :=
  pr.requestType == .trustedPerson && pr.status == .pending

/-- Right before the commit: a new trusted-person request still has authority behind it, and a guardian request takes
none away from the requester of a pending one. -/
def LeavesAuthority (s : Store) (c : ParentRequestCommit) : Prop :=
  match c.op with
  | .createTrustedPerson u input _ _ => s.mayCreate input.childId u = true
  | .guardian _ => ∀ pr ∈ s.requests, pr.asksForPerson = true → s.mayCreate pr.childId pr.requesterUserId = true →
      (c.tx.view s).mayCreate pr.childId pr.requesterUserId = true
  | _ => True

/-- Every pending trusted-person request has authority behind it. -/
def Authorized (s : Store) : Prop :=
  ∀ i pr, s.request i = some pr → pr.asksForPerson = true → s.mayCreate pr.childId pr.requesterUserId = true

/-! ## What the requests write -/

/-- A locked request stays as it is. -/
def requestLocks : Discipline Store Key Write where
  rely held s s' := ∀ i, Key.row i ∈ held → s'.request i = s.request i
  refl _ _ _ _ := rfl
  trans h₁ h₂ i hi := (h₂ i hi).trans (h₁ i hi)
  mono hs h i hi := h i (hs hi)

/-- The request that a write is about. -/
def Write.request : Write → Option Nat
  | .insertRequest pr => some pr.id
  | .updateStatus i _ _ _ | .setInvoiceId i _ => some i
  | _ => none

theorem request_insert (s : Store) (pr : ParentRequest) (i : Nat) :
    (Relational.apply s (Write.insertRequest pr)).request i = (s.request i).or (if pr.id = i then some pr else none) :=
  Table.find_append s.requests pr i

theorem request_apply_of_ne {w : Write} {i : Nat} (h : w.request ≠ some i) (s : Store) :
    (Relational.apply s w).request i = s.request i := by
  have hne : ∀ {j}, w.request = some j → i ≠ j := fun hj he => h (he ▸ hj)
  cases w with
  | insertRequest pr => rw [request_insert, if_neg (hne rfl).symm, Option.or_none]
  | updateStatus j e next review =>
    rw [request_updateStatus]
    simp only [hne rfl, false_and, if_false, Option.map_id']
  | setInvoiceId j invoiceId =>
    rw [request_setInvoiceId]
    simp only [hne rfl, false_and, if_false, Option.map_id']
  | _ => rfl

theorem requestLocks_respects {held : List Key} {w : Write} (hk : Relational.keys Store w ⊆ held) :
    requestLocks.Respects held w := by
  intro held' hd s i hi
  refine request_apply_of_ne (fun he => ?_) s
  have hmem : Key.row i ∈ Relational.keys Store w := by
    cases w <;> cases he <;> exact List.mem_cons_self
  exact hd (hk hmem) hi

/-- Beside its flip, an acceptance of `pr` adds rows that are credited to the requester. -/
def Write.Credits (pr : ParentRequest) : Write → Prop
  | .insertPerson tp => pr.requestType = .trustedPerson ∧ tp.childId = pr.childId ∧ tp.addedByUserId = pr.requesterUserId
  | .insertPickupRequest p =>
      pr.requestType = .trustedPerson ∧ p.childId = pr.childId ∧ p.requestedByUserId = pr.requesterUserId
  | .setInvoiceId _ _ | .billing _ => True
  | _ => False

/-- What a request writes that accepts nothing. -/
def Op.Quiet : Op → Write → Prop
  | .createTrustedPerson u input _ _, w =>
      ∃ pr, w = .insertRequest pr ∧ pr.childId = input.childId ∧ pr.requesterUserId = u
  | .createDayOff .., w | .createVacation .., w | .createLatePickup .., w | .createOpen .., w =>
      ∃ pr, w = .insertRequest pr ∧ pr.requestType ≠ .trustedPerson
  | .cancel .., w | .reject .., w => ∃ i e next review, w = .updateStatus i e next review ∧ next ≠ .pending
  | .guardian _, w => ∃ g, w = .guardian g
  | .accept .., _ => False

inductive DelegationOutcome (t : Tx Store Key Write) (s : Store) (op : Op) : Prop
  | quiet (writes : ∀ w ∈ t.writes, op.Quiet w)
  | accepted (i : Nat) (pr : ParentRequest) (review : Option Review) (ws : List Write)
      (row : s.request i = some pr) (status : pr.status = .pending)
      (writes : t.writes = .updateStatus i .pending .accepted review :: ws) (credits : ∀ w ∈ ws, w.Credits pr)

section

variable {P : Write → Prop} {A : Type}

theorem onlyWrites_create {input : CreateParentRequestInput} {f : ParentRequest → Sql A}
    (h : ∀ pr : ParentRequest, pr.requestType = input.requestType → pr.childId = input.childId →
      pr.requesterUserId = input.requesterUserId → P (.insertRequest pr)) (hf : ∀ pr, Prog.OnlyWrites P (f pr)) :
    Prog.OnlyWrites P (Prog.bind (ParentRequestRepository.create input) f) := by
  unfold ParentRequestRepository.create
  simp only [Prog.bind_eq, Prog.bind_assoc]
  exact fun id => .insertOr (h _ rfl rfl rfl) (hf _)

theorem onlyWrites_gates {childId u : Nat} {gate : CreateGate} {f : Sql A} (h : Prog.OnlyWrites P f) :
    Prog.OnlyWrites P (Prog.bind (ParentRequestService.assertCreateRequestsAllowed childId u) fun _ =>
      Prog.bind (ParentRequestService.assertCreateRateLimit gate) fun _ => f) := by
  unfold ParentRequestService.assertCreateRequestsAllowed ParentRequestService.assertCreateRateLimit
  simp only [Prog.bind_eq, Prog.bind_assoc]
  exact fun v => .require fun link => .guardOr (.guardOr h)

theorem onlyWrites_resolveMentorRecipient {gate : CreateGate} {f : RecipientType × Option Nat → Sql A}
    (h : ∀ r, Prog.OnlyWrites P (f r)) :
    Prog.OnlyWrites P (Prog.bind (ParentRequestService.resolveMentorRecipient gate) f) := by
  unfold ParentRequestService.resolveMentorRecipient
  simp only [Prog.bind_eq, Prog.bind_assoc]
  exact .ofExcept fun mentor => h _

theorem onlyWrites_flip {i : Nat} {next : ParentRequestStatus} {review : Option Review} {f : ParentRequest → Sql A}
    (h : P (.updateStatus i .pending next review)) (hf : ∀ pr, Prog.OnlyWrites P (f pr)) :
    Prog.OnlyWrites P (Prog.bind (ParentRequestService.flip i next review) f) := by
  unfold ParentRequestService.flip ParentRequestRepository.updateStatusConditional Prog.returning
  simp only [Prog.bind_eq, Prog.bind_assoc]
  refine ⟨h, fun matched => ?_⟩
  cases matched with
  | false => exact .require hf
  | true => exact fun v => .require hf

theorem onlyWrites_requireRequest {i : Nat} {f : ParentRequest → Sql A} (h : ∀ pr, Prog.OnlyWrites P (f pr)) :
    Prog.OnlyWrites P (Prog.bind (ParentRequestService.requireRequest i) f) := by
  unfold ParentRequestService.requireRequest ParentRequestRepository.findById
  simp only [Prog.bind_eq, Prog.bind_assoc]
  exact fun v => .require h

end

def Op.accepts : Op → Bool
  | accept .. => true
  | _ => false

theorem quiet_prog {op : Op} (h : op.accepts = false) : Prog.OnlyWrites op.Quiet op.prog := by
  have answered : ∀ pr, Prog.OnlyWrites op.Quiet (.ret (.request pr) : Sql Response) := fun _ => trivial
  cases op with
  | createTrustedPerson u input gate otp =>
    unfold Op.prog Op.answer ParentRequestService.createTrustedPersonRequest
    simp only [Prog.bind_eq, Prog.bind_assoc]
    exact onlyWrites_gates (.ofExcept fun _ =>
      onlyWrites_create (fun pr _ hchild huser => ⟨pr, rfl, hchild, huser⟩) answered)
  | createDayOff now u childId days comment gate =>
    unfold Op.prog Op.answer ParentRequestService.createDayOffRequest
    simp only [Prog.bind_eq, Prog.bind_assoc]
    exact onlyWrites_gates (.ofExcept fun _ => onlyWrites_resolveMentorRecipient fun r =>
      onlyWrites_create (fun pr htype _ _ => ⟨pr, rfl, fun h => by cases htype.symm.trans h⟩) answered)
  | createVacation now u childId dateFrom dateTo comment gate =>
    unfold Op.prog Op.answer ParentRequestService.createVacationRequest
    simp only [Prog.bind_eq, Prog.bind_assoc]
    exact onlyWrites_gates (.guardOr (.guardOr (onlyWrites_resolveMentorRecipient fun r =>
      onlyWrites_create (fun pr htype _ _ => ⟨pr, rfl, fun h => by cases htype.symm.trans h⟩) answered)))
  | createLatePickup now u childId date time comment gate =>
    unfold Op.prog Op.answer ParentRequestService.createLatePickupRequest
    simp only [Prog.bind_eq, Prog.bind_assoc]
    exact onlyWrites_gates (.guardOr (onlyWrites_resolveMentorRecipient fun r =>
      onlyWrites_create (fun pr htype _ _ => ⟨pr, rfl, fun h => by cases htype.symm.trans h⟩) answered))
  | createOpen u childId recipient subject message attachments gate =>
    unfold Op.prog Op.answer ParentRequestService.createOpenRequest
    simp only [Prog.bind_eq, Prog.bind_assoc]
    exact onlyWrites_gates (.ofExcept fun r =>
      onlyWrites_create (fun pr htype _ _ => ⟨pr, rfl, fun h => by cases htype.symm.trans h⟩) answered)
  | cancel u i =>
    unfold Op.prog Op.answer ParentRequestService.cancelRequest
    simp only [Prog.bind_eq, Prog.bind_assoc]
    exact onlyWrites_requireRequest fun pr => .guardOr (onlyWrites_flip ⟨i, _, _, _, rfl, by decide⟩ answered)
  | accept now caller i note => cases h
  | reject now caller i note =>
    unfold Op.prog Op.answer ParentRequestService.rejectRequest
    simp only [Prog.bind_eq, Prog.bind_assoc]
    exact onlyWrites_requireRequest fun pr => .guardOr (onlyWrites_flip ⟨i, _, _, _, rfl, by decide⟩ answered)
  | guardian o =>
    unfold Op.prog Op.answer
    exact (Prog.onlyWrites_within guardianPart (fun w => ⟨w, rfl⟩) o.prog).bind fun _ => trivial

/-! ## An acceptance -/

theorem credits_applySideEffects (now : Int) (pr : ParentRequest) :
    Prog.OnlyWrites (Write.Credits pr) (ParentRequestService.applySideEffects now pr) := by
  unfold ParentRequestService.applySideEffects
  cases htype : pr.requestType with
  | trustedPerson =>
    unfold ParentRequestService.applyTrustedPersonAcceptSideEffects TrustedPersonRepository.create
    simp only [Prog.bind_eq, Prog.bind_assoc]
    refine .guardOr fun id => .insertOr ⟨htype, rfl, rfl⟩ ?_
    refine Prog.OnlyWrites.bind (p := ParentRequestService.createPairedPickupRequest now pr _) ?_ fun _ => trivial
    unfold ParentRequestService.createPairedPickupRequest
    by_cases hpaired : ParentRequestService.createsPickupRequest pr = true
    · rw [if_pos hpaired]
      unfold PickupRequestRepository.create
      simp only [Prog.bind_eq, Prog.bind_assoc]
      exact fun pickupId => .insertOr ⟨htype, rfl, rfl⟩ trivial
    · rw [if_neg hpaired]
      trivial
  | latePickup =>
    unfold ParentRequestService.applyLatePickupAcceptSideEffects ParentRequestRepository.setInvoiceId
    refine Prog.OnlyWrites.bind (Prog.onlyWrites_within billingPart (fun _ => trivial) _) fun invoice => ?_
    exact .insertOr trivial trivial
  | dayOff | vacation | openRequest => trivial

theorem Write.Credits.of_moved {pr : ParentRequest} {next : ParentRequestStatus} {review : Option Review} {w : Write}
    (h : w.Credits (pr.moved next review)) : w.Credits pr := by
  cases review <;> cases w <;> exact h

theorem safe_accept (now : Int) (caller : Caller) (i : Nat) (note : Option String) (s : Store) :
    Prog.Safe requestLocks (fun _ => True) (fun _ => True)
      (fun t s _ => DelegationOutcome t s (.accept now caller i note)) (Op.accept now caller i note).prog .start s := by
  unfold Op.prog Op.answer ParentRequestService.acceptRequest ParentRequestService.requireRequest
    ParentRequestRepository.findById ParentRequestService.flip ParentRequestRepository.updateStatusConditional
  simp only [Prog.bind_eq, Prog.bind_assoc]
  have hX : ∀ _ : ParentRequestError, True := fun _ => trivial
  refine Prog.Safe.query fun v _ _ => Prog.Safe.require hX fun existing _ => Prog.Safe.guardOr hX fun _ => ?_
  refine Prog.Safe.returning (fun s₁ _ _ hit => ?_) fun s₁ _ _ _ => Prog.Safe.require hX fun _ h => (by cases h)
  obtain ⟨pr, hrow, hstatus⟩ : ∃ pr, s₁.request i = some pr ∧ pr.status = .pending := by
    have hany : (s₁.request i).any (fun row => row.status == .pending) = true := hit
    rw [Option.any_eq_true] at hany
    obtain ⟨pr, hrow, hstatus⟩ := hany
    exact ⟨pr, hrow, beq_iff_eq.1 hstatus⟩
  refine Prog.Safe.query fun s₂ hr₂ _ => Prog.Safe.require hX fun updated hupdated => ?_
  have hheld : Key.row i ∈ ((Tx.start.saw v).wrote (Write.updateStatus i .pending .accepted
      (some ⟨caller.staffMemberId, now, note⟩))).held := List.mem_append_left _ List.mem_cons_self
  -- the row that is read back is the one that was flipped
  have hmoved : updated = pr.moved .accepted (some ⟨caller.staffMemberId, now, note⟩) := by
    have hview : (Relational.apply s₂ (Write.updateStatus i .pending .accepted
        (some ⟨caller.staffMemberId, now, note⟩))).request i = some updated := hupdated
    rw [request_updateStatus, hr₂ i hheld, hrow, Option.map_some, if_pos ⟨rfl, beq_iff_eq.2 hstatus⟩] at hview
    exact (Option.some.inj hview).symm
  have hwrites : Prog.OnlyWrites (Write.Credits pr) (Prog.bind (ParentRequestService.applySideEffects now updated)
      fun a => .ret (Response.request a)) := by
    refine Prog.OnlyWrites.bind ?_ fun _ => trivial
    rw [hmoved]
    exact (credits_applySideEffects now _).mono fun w => Write.Credits.of_moved
  refine (Prog.Safe.of_onlyWrites hwrites hX trivial).mono fun t s₃ _ _ ⟨hext, hr₃⟩ => ?_
  obtain ⟨ws, hws, hcredits⟩ := hext.writes
  refine .accepted i pr _ ws ?_ hstatus hws hcredits
  rw [hr₃ i hheld, hr₂ i hheld]
  exact hrow

theorem safe_delegation (op : Op) (s : Store) :
    Prog.Safe requestLocks (fun _ => True) (fun _ => True) (fun t s _ => DelegationOutcome t s op) op.prog .start s := by
  by_cases hop : op.accepts = true
  · cases op with
    | accept now caller i note => exact safe_accept now caller i note s
    | _ => cases hop
  · have hquiet := quiet_prog (Bool.eq_false_of_not_eq_true hop)
    refine (Prog.Safe.of_onlyWrites hquiet (fun _ => trivial) trivial).mono fun t s' _ _ ⟨hext, _⟩ => .quiet fun w hw => ?_
    obtain ⟨ws, hws, hall⟩ := hext.writes
    rw [hws] at hw
    exact hall w hw

/-! ## What a commit adds -/

/-- Only new rows, all of them `φ`. -/
def Grows {R : Type} (φ : R → Prop) (l l' : List R) : Prop := ∃ new, l' = l ++ new ∧ ∀ r ∈ new, φ r

section

variable {R : Type} {φ : R → Prop} {l l' l'' : List R}

theorem Grows.refl (l : List R) : Grows φ l l := ⟨[], (List.append_nil l).symm, fun _ h => absurd h List.not_mem_nil⟩

theorem Grows.snoc {r : R} (h : φ r) (l : List R) : Grows φ l (l ++ [r]) :=
  ⟨[r], rfl, fun _ hq => List.mem_singleton.1 hq ▸ h⟩

theorem Grows.trans (h : Grows φ l l') (h' : Grows φ l' l'') : Grows φ l l'' := by
  obtain ⟨new, rfl, hnew⟩ := h
  obtain ⟨new', rfl, hnew'⟩ := h'
  refine ⟨new ++ new', List.append_assoc l new new', fun r hr => ?_⟩
  rcases List.mem_append.1 hr with hr | hr
  · exact hnew r hr
  · exact hnew' r hr

theorem Grows.added (h : Grows φ l l') {r : R} (hr : r ∈ added l l') : φ r := by
  obtain ⟨new, rfl, hnew⟩ := h
  refine hnew r ?_
  rwa [ParentRequests.added, List.drop_left] at hr

end

/-- What an acceptance of `pr` may add. -/
def ParentRequest.CreditedPerson (pr : ParentRequest) (tp : Pickup.TrustedPerson) : Prop :=
  pr.requestType = .trustedPerson ∧ tp.childId = pr.childId ∧ tp.addedByUserId = pr.requesterUserId

def ParentRequest.CreditedPickup (pr : ParentRequest) (p : Pickup.PickupRequest) : Prop :=
  pr.requestType = .trustedPerson ∧ p.childId = pr.childId ∧ p.requestedByUserId = pr.requesterUserId

theorem Write.Credits.grows {pr : ParentRequest} {ws : List Write} (h : ∀ w ∈ ws, w.Credits pr) (v : Store) :
    Grows pr.CreditedPerson v.people (ws.foldl Relational.apply v).people ∧
      Grows pr.CreditedPickup v.pickupRequests (ws.foldl Relational.apply v).pickupRequests := by
  induction ws generalizing v with
  | nil => exact ⟨.refl _, .refl _⟩
  | cons w ws ih =>
    obtain ⟨hpeople, hpickups⟩ := ih (fun w' hw' => h w' (List.mem_cons_of_mem w hw')) (Relational.apply v w)
    have hw := h w List.mem_cons_self
    cases w with
    | insertPerson tp => exact ⟨(Grows.snoc (φ := pr.CreditedPerson) (r := tp) hw v.people).trans hpeople, hpickups⟩
    | insertPickupRequest p => exact ⟨hpeople, (Grows.snoc (φ := pr.CreditedPickup) (r := p) hw v.pickupRequests).trans hpickups⟩
    | setInvoiceId i invoiceId => exact ⟨hpeople, hpickups⟩
    | billing b => exact ⟨hpeople, hpickups⟩
    | insertRequest q => exact hw.elim
    | updateStatus i e next review => exact hw.elim
    | guardian g => exact hw.elim

theorem Op.Quiet.people_eq {op : Op} {w : Write} (h : op.Quiet w) (s : Store) :
    (Relational.apply s w).people = s.people ∧ (Relational.apply s w).pickupRequests = s.pickupRequests := by
  cases op with
  | createTrustedPerson u input gate otp =>
    obtain ⟨pr, rfl, -⟩ := h
    exact ⟨rfl, rfl⟩
  | cancel u i =>
    obtain ⟨j, e, next, review, rfl, -⟩ := h
    exact ⟨rfl, rfl⟩
  | reject now caller i note =>
    obtain ⟨j, e, next, review, rfl, -⟩ := h
    exact ⟨rfl, rfl⟩
  | guardian o =>
    obtain ⟨g, rfl⟩ := h
    exact ⟨rfl, rfl⟩
  | accept now caller i note => exact h.elim
  | _ =>
    obtain ⟨pr, rfl, -⟩ := h
    exact ⟨rfl, rfl⟩

theorem quiet_foldl {op : Op} {ws : List Write} (h : ∀ w ∈ ws, op.Quiet w) (v : Store) :
    (ws.foldl Relational.apply v).people = v.people ∧ (ws.foldl Relational.apply v).pickupRequests = v.pickupRequests := by
  induction ws generalizing v with
  | nil => exact ⟨rfl, rfl⟩
  | cons w ws ih =>
    obtain ⟨hpeople, hpickups⟩ := ih (fun w' hw' => h w' (List.mem_cons_of_mem w hw')) (Relational.apply v w)
    obtain ⟨hpeople', hpickups'⟩ := (h w List.mem_cons_self).people_eq v
    exact ⟨hpeople.trans hpeople', hpickups.trans hpickups'⟩

section

variable {s : Store} {c : ParentRequestCommit}

theorem DelegationOutcome.backed (h : DelegationOutcome c.tx s c.op) (hs : Authorized s) : BackedByAuthority s c := by
  cases h with
  | quiet writes =>
    obtain ⟨hpeople, hpickups⟩ := quiet_foldl writes s
    have nothing : ∀ {R : Type} {l l' : List R}, l' = l → added l l' = [] := fun h => h ▸ List.drop_length
    constructor
    · intro tp htp
      rw [show added s.people (c.tx.view s).people = [] from nothing hpeople] at htp
      cases htp
    · intro p hp
      rw [show added s.pickupRequests (c.tx.view s).pickupRequests = [] from nothing hpickups] at hp
      cases hp
  | accepted i pr review ws row status writes credits =>
    have hview : c.tx.view s = ws.foldl Relational.apply (Relational.apply s (.updateStatus i .pending .accepted review)) :=
      congrArg (List.foldl Relational.apply s) writes
    obtain ⟨hpeople, hpickups⟩ := Write.Credits.grows credits
      (Relational.apply s (.updateStatus i .pending .accepted review))
    rw [← hview] at hpeople hpickups
    have authority : pr.requestType = .trustedPerson → s.mayCreate pr.childId pr.requesterUserId = true := by
      intro htype
      refine hs i pr row ?_
      simp [ParentRequest.asksForPerson, htype, status]
    constructor
    · intro tp htp
      obtain ⟨htype, hchild, huser⟩ := hpeople.added htp
      rw [hchild, huser]
      exact authority htype
    · intro p hp
      obtain ⟨htype, hchild, huser⟩ := hpickups.added hp
      rw [hchild, huser]
      exact authority htype

/-! ## What a commit leaves pending -/

theorem mayCreate_congr {s' : Store} (h : s'.guardians = s.guardians) (childId u : Nat) :
    s'.mayCreate childId u = s.mayCreate childId u := by
  unfold Store.mayCreate Store.approvedLink
  rw [h]

/-- A write that leaves the guardians alone, and begins no request without authority. -/
theorem Authorized.apply (hs : Authorized s) {w : Write} (hguardians : (Relational.apply s w).guardians = s.guardians)
    (hnew : ∀ pr, w = .insertRequest pr → pr.asksForPerson = true → s.mayCreate pr.childId pr.requesterUserId = true)
    (hflip : ∀ i e next review, w = .updateStatus i e next review → next ≠ .pending) :
    Authorized (Relational.apply s w) := by
  intro i pr hrow hasks
  rw [mayCreate_congr hguardians]
  cases w with
  | insertRequest q =>
    rw [request_insert] at hrow
    rcases Option.or_eq_some_iff.1 hrow with hold | ⟨-, hadded⟩
    · exact hs i pr hold hasks
    · by_cases hid : q.id = i
      · rw [if_pos hid] at hadded
        obtain rfl := Option.some.inj hadded
        exact hnew q rfl hasks
      · rw [if_neg hid] at hadded
        cases hadded
  | updateStatus j e next review =>
    rw [request_updateStatus, Option.map_eq_some_iff] at hrow
    obtain ⟨q, hq, hpr⟩ := hrow
    by_cases hmatch : i = j ∧ (q.status == e) = true
    · rw [if_pos hmatch] at hpr
      have hstatus : pr.status = next := by
        rw [← hpr]
        cases review <;> rfl
      simp only [ParentRequest.asksForPerson, Bool.and_eq_true, beq_iff_eq] at hasks
      exact absurd (hstatus.symm.trans hasks.2) (hflip j e next review rfl)
    · rw [if_neg hmatch] at hpr
      exact hs i pr (hpr ▸ hq) hasks
  | setInvoiceId j invoiceId =>
    rw [request_setInvoiceId, Option.map_eq_some_iff] at hrow
    obtain ⟨q, hq, hpr⟩ := hrow
    by_cases hmatch : i = j ∧ true = true
    · rw [if_pos hmatch] at hpr
      subst hpr
      exact hs i q hq hasks
    · rw [if_neg hmatch] at hpr
      exact hs i pr (hpr ▸ hq) hasks
  | insertPerson tp => exact hs i pr hrow hasks
  | insertPickupRequest p => exact hs i pr hrow hasks
  | billing b => exact hs i pr hrow hasks
  | guardian g => exact hs i pr hrow hasks

theorem Authorized.foldl (hs : Authorized s) {ws : List Write}
    (hguardians : ∀ w ∈ ws, ∀ v : Store, (Relational.apply v w).guardians = v.guardians)
    (hnew : ∀ w ∈ ws, ∀ pr, w = .insertRequest pr → pr.asksForPerson = true →
      s.mayCreate pr.childId pr.requesterUserId = true)
    (hflip : ∀ w ∈ ws, ∀ i e next review, w = .updateStatus i e next review → next ≠ .pending) :
    Authorized (ws.foldl Relational.apply s) := by
  induction ws generalizing s with
  | nil => exact hs
  | cons w ws ih =>
    have hw := hguardians w List.mem_cons_self s
    refine ih (hs.apply hw (hnew w List.mem_cons_self) (hflip w List.mem_cons_self))
      (fun w' hw' => hguardians w' (List.mem_cons_of_mem w hw')) (fun w' hw' pr hpr hasks => ?_)
      fun w' hw' => hflip w' (List.mem_cons_of_mem w hw')
    rw [mayCreate_congr hw]
    exact hnew w' (List.mem_cons_of_mem w hw') pr hpr hasks

theorem guardians_of_quiet {op : Op} {w : Write} (h : op.Quiet w) (hop : ∀ o, op ≠ .guardian o) (v : Store) :
    (Relational.apply v w).guardians = v.guardians := by
  cases op with
  | createTrustedPerson u input gate otp =>
    obtain ⟨pr, rfl, -⟩ := h
    rfl
  | cancel u i =>
    obtain ⟨j, e, next, review, rfl, -⟩ := h
    rfl
  | reject now caller i note =>
    obtain ⟨j, e, next, review, rfl, -⟩ := h
    rfl
  | guardian o => exact absurd rfl (hop o)
  | accept now caller i note => exact h.elim
  | _ =>
    obtain ⟨pr, rfl, -⟩ := h
    rfl

theorem not_pending_of_quiet {op : Op} {i : Nat} {e next : ParentRequestStatus} {review : Option Review}
    (h : op.Quiet (.updateStatus i e next review)) : next ≠ .pending := by
  cases op with
  | cancel u j =>
    obtain ⟨_, _, _, _, he, hnext⟩ := h
    cases he
    exact hnext
  | reject now caller j note =>
    obtain ⟨_, _, _, _, he, hnext⟩ := h
    cases he
    exact hnext
  | createTrustedPerson u input gate otp =>
    obtain ⟨pr, he, -⟩ := h
    cases he
  | guardian o =>
    obtain ⟨g, he⟩ := h
    cases he
  | accept now caller j note => exact h.elim
  | _ =>
    obtain ⟨pr, he, -⟩ := h
    cases he

theorem authority_of_quiet {pr : ParentRequest} (h : c.op.Quiet (.insertRequest pr)) (hc : LeavesAuthority s c)
    (hasks : pr.asksForPerson = true) : s.mayCreate pr.childId pr.requesterUserId = true := by
  simp only [ParentRequest.asksForPerson, Bool.and_eq_true, beq_iff_eq] at hasks
  obtain ⟨op, t, a⟩ := c
  cases op with
  | createTrustedPerson u input gate otp =>
    obtain ⟨q, he, hchild, huser⟩ := h
    cases he
    rw [hchild, huser]
    exact hc
  | cancel u j =>
    obtain ⟨_, _, _, _, he, -⟩ := h
    cases he
  | reject now caller j note =>
    obtain ⟨_, _, _, _, he, -⟩ := h
    cases he
  | guardian o =>
    obtain ⟨g, he⟩ := h
    cases he
  | accept now caller j note => exact h.elim
  | _ =>
    obtain ⟨q, he, hne⟩ := h
    cases he
    exact absurd hasks.1 hne

theorem requests_foldl_of_guardian {o : Guardians.Op} {ws : List Write} (h : ∀ w ∈ ws, (Op.guardian o).Quiet w)
    (v : Store) : (ws.foldl Relational.apply v).requests = v.requests := by
  induction ws generalizing v with
  | nil => rfl
  | cons w ws ih =>
    obtain ⟨g, rfl⟩ := h w List.mem_cons_self
    exact ih (fun w' hw' => h w' (List.mem_cons_of_mem _ hw')) _

theorem DelegationOutcome.authorized (h : DelegationOutcome c.tx s c.op) (hs : Authorized s)
    (hc : LeavesAuthority s c) : Authorized (c.tx.view s) := by
  cases h with
  | quiet writes =>
    by_cases hop : ∃ o, c.op = .guardian o
    · obtain ⟨o, ho⟩ := hop
      rw [ho] at writes
      have hrequests : (c.tx.view s).requests = s.requests := requests_foldl_of_guardian writes s
      have hc : ∀ pr ∈ s.requests, pr.asksForPerson = true → s.mayCreate pr.childId pr.requesterUserId = true →
          (c.tx.view s).mayCreate pr.childId pr.requesterUserId = true := by
        unfold LeavesAuthority at hc
        rw [ho] at hc
        exact hc
      intro i pr hrow hasks
      have hrow : s.request i = some pr := by
        rw [← hrow]
        exact congrArg (Table.find · i) hrequests.symm
      exact hc pr (Table.mem_of_find hrow) hasks (hs i pr hrow hasks)
    · refine hs.foldl (fun w hw => guardians_of_quiet (writes w hw) fun o ho => hop ⟨o, ho⟩)
        (fun w hw pr he hasks => authority_of_quiet (he ▸ writes w hw) hc hasks)
        fun w hw i e next review he => not_pending_of_quiet (he ▸ writes w hw)
  | accepted i pr review ws row status writes credits =>
    have hview : c.tx.view s = ws.foldl Relational.apply (Relational.apply s (.updateStatus i .pending .accepted review)) :=
      congrArg (List.foldl Relational.apply s) writes
    rw [hview]
    have hflipped : Authorized (Relational.apply s (.updateStatus i .pending .accepted review)) := by
      refine hs.apply rfl (fun q he => by cases he) fun j e next r he => ?_
      cases he
      exact fun h => by cases h
    refine hflipped.foldl (fun w hw v => ?_) (fun w hw q he => ?_) fun w hw j e next r he => ?_
    · have hcredits := credits w hw
      cases w with
      | guardian g => exact hcredits.elim
      | _ => rfl
    · have hcredits := credits w hw
      rw [he] at hcredits
      exact hcredits.elim
    · have hcredits := credits w hw
      rw [he] at hcredits
      exact hcredits.elim

end

/-! ## Runs -/

/-- **Every acceptance is backed by authority**, in every run in which authority stays behind what is pending. -/
theorem acceptance_backed_by_authority {n : Nat} {s : Store} {cs : Schedule n} {σ : System n} (hs : Authorized s)
    (hrun : run s cs = some σ) (hc : AtEach LeavesAuthority s σ.log) : AtEach BackedByAuthority s σ.log := by
  have hsafe : ∀ (op : Op) (s : Store), True → True → Prog.Safe requestLocks (fun _ => True) (fun _ => True)
      (fun t s _ => DelegationOutcome t s op ∧ ∀ w ∈ t.writes, Relational.keys Store w ⊆ t.held) op.prog .start s :=
    fun op s _ _ => (safe_delegation op s).withKeys fun _ => trivial
  have hchain := System.exec_chain (D := requestLocks) (J := fun _ => True) trivial hsafe
    (fun _ _ _ _ _ _ => trivial) (fun op t s a _ h => Discipline.guarantee_of_respects
      (fun w hw => requestLocks_respects (h.2 w hw)) s) (fun _ _ _ => trivial) hrun
  have hmet := hchain.and hc
  refine ((hmet.before Authorized hs fun s c hi h => h.1.2.1.authorized hi h.2).mono fun s c h => ?_).atEach
  exact h.2.1.2.1.backed h.1

/-! ## A revoked parent -/

instance (s : Store) (c : ParentRequestCommit) : Decidable (BackedByAuthority s c) :=
  decidable_of_iff ((∀ tp ∈ added s.people (c.tx.view s).people, s.mayCreate tp.childId tp.addedByUserId = true) ∧
      ∀ p ∈ added s.pickupRequests (c.tx.view s).pickupRequests, s.mayCreate p.childId p.requestedByUserId = true)
    ⟨fun h => ⟨h.1, h.2⟩, fun h => ⟨h.people, h.pickupRequests⟩⟩

instance (s : Store) (c : ParentRequestCommit) : Decidable (LeavesAuthority s c) := by
  unfold LeavesAuthority
  split <;> infer_instance

/-- User 51 is the second guardian of child 1. -/
def secondGuardian : Guardians.ChildGuardian :=
  { Guardians.ChildGuardian.createPending 11 1 51 .secondary none with
    status := .approved, approvedBy := some 50, approvedAt := some 0 }

def guardedStore : Store := { pendingStore with requests := [], guardians := ⟨[secondGuardian]⟩ }

def nominate : Op :=
  .createTrustedPerson 51 ⟨1, "Aigul", "+77010000000", none, "aunt", none, false, false, none⟩ ⟨false, .ok none⟩ (.ok ())

/-- The second guardian nominates a person, is revoked, and the director accepts. -/
def acceptAfterRevocation : Schedule 1 :=
  Choice.request 0 nominate 4 100 ++
    Choice.request 0 (.guardian (.revokeGuardianByAdmin 7 1 11 90)) 3 0 ++
    Choice.request 0 (.accept 8 admin 100 none) 6 101

theorem guardedStore_authorized : Authorized guardedStore := fun i pr h => by cases h

theorem acceptAfterRevocation_unbacked : ∃ σ : System 1, run guardedStore acceptAfterRevocation = some σ ∧
    σ.log.length = 3 ∧ σ.db.people.length = 1 ∧ ¬ AtEach BackedByAuthority guardedStore σ.log := by
  obtain ⟨σ, hrun, h⟩ := run_shows run guardedStore acceptAfterRevocation (fun σ : System 1 =>
    decide (σ.log.length = 3 ∧ σ.db.people.length = 1 ∧ ¬ AtEach BackedByAuthority guardedStore σ.log))
    (by decide +kernel)
  exact ⟨σ, hrun, of_decide_eq_true h⟩

/-- The director accepts first. -/
def acceptBeforeRevocation : Schedule 2 :=
  Choice.request 0 nominate 4 100 ++ .start 1 (.accept 8 admin 100 none) :: Choice.steps 1 6 101 ++
    Choice.request 0 (.guardian (.revokeGuardianByAdmin 7 1 11 90)) 3 0

theorem acceptance_backed_by_authority_acceptBeforeRevocation : ∃ σ : System 2,
    run guardedStore acceptBeforeRevocation = some σ ∧ σ.log.length = 3 ∧ σ.db.people.length = 1 ∧
    AtEach BackedByAuthority guardedStore σ.log := by
  obtain ⟨σ, hrun, h⟩ := run_shows run guardedStore acceptBeforeRevocation (fun σ : System 2 =>
    decide (σ.log.length = 3 ∧ σ.db.people.length = 1 ∧ AtEach LeavesAuthority guardedStore σ.log))
    (by decide +kernel)
  have h := of_decide_eq_true h
  exact ⟨σ, hrun, h.1, h.2.1, acceptance_backed_by_authority guardedStore_authorized hrun h.2.2⟩

end ParentRequests
