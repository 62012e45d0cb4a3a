import Shyraq.Billing.Creations
import Shyraq.ParentRequests.Services
import Shyraq.Transactions.Alone
import Shyraq.Transactions.Serial

/-!
# The outcome of a parent request

Whoever turns the row from `pending` holds its lock until the end of the transaction, and no other call goes on
meanwhile: from there on the call runs as if alone.
-/

namespace ParentRequests

open Kernel Transactions

/-! ## What is claimed -/

def Store.statusOf (s : Store) (i : Nat) : Option ParentRequestStatus := (s.request i).map ParentRequest.status

/-- Accepts, rejects or cancels this request. -/
def Op.resolves (i : Nat) : Op → Bool
  | accept _ _ j _ | reject _ _ j _ | cancel _ j => j == i
  | _ => false

/-- The status that a call leaves. -/
def Op.verdict : Op → ParentRequestStatus
  | accept .. => .accepted
  | reject .. => .rejected
  | cancel .. => .cancelled
  | _ => .pending

/-- The three tables in which an accepted request may leave a row. -/
structure SideTables where
  people : List Pickup.TrustedPerson
  pickupRequests : List Pickup.PickupRequest
  invoices : List Billing.Invoice

def Store.side (s : Store) : SideTables := ⟨s.people, s.pickupRequests, s.billing.invoices⟩

/-- What a call adds to them for the request `pr`. -/
inductive Produces (pr : ParentRequest) (b : SideTables) : Op → SideTables → Prop
  | nothing {op : Op} (h : op.verdict = .accepted → pr.requestType ≠ .trustedPerson ∧ pr.requestType ≠ .latePickup) :
      Produces pr b op b
  | person {now caller i note} (id : Nat) (type : pr.requestType = .trustedPerson)
      (unpaired : ParentRequestService.createsPickupRequest pr = false) :
      Produces pr b (.accept now caller i note)
        { b with people := b.people ++ [ParentRequestService.namedPerson pr id] }
  | personAndPickup {now caller i note} (id pickupId : Nat) (type : pr.requestType = .trustedPerson)
      (paired : ParentRequestService.createsPickupRequest pr = true) :
      Produces pr b (.accept now caller i note)
        { b with
          people := b.people ++ [ParentRequestService.namedPerson pr id]
          pickupRequests := b.pickupRequests ++
            [ParentRequestService.pairedPickupRequest now pr (ParentRequestService.namedPerson pr id) pickupId] }
  | invoice {now caller i note} (inv : Billing.Invoice) (type : pr.requestType = .latePickup)
      (linked : pr.invoiceId = some inv.id) (child : inv.childId = pr.childId)
      (kind : inv.invoiceType = .latePickupFee) :
      Produces pr b (.accept now caller i note) { b with invoices := b.invoices ++ [inv] }

/-- The call has turned the pending request into what it says, with its side effects and no others. -/
structure Resolves (i : Nat) (s : Store) (op : Op) (s' : Store) : Prop where
  call : op.resolves i = true
  pending : s.statusOf i = some .pending
  resolved : ∃ pr, s'.request i = some pr ∧ pr.status = op.verdict ∧ Produces pr s.side op s'.side
  others : ∀ j, j ≠ i → s'.request j = s.request j

/-! ## Side effects -/

section

open Billing

theorem invoices_apply_of_creates {w : Billing.Write} (h : Creates (fun _ => False) w) (s : Billing.Store) :
    (Relational.apply s w).invoices = s.invoices := by
  cases w with
  | insertInvoice i => exact h.elim
  | markInvoice i f => exact h.elim
  | _ => rfl

theorem yields_create {i q : Invoice} {lineItems : List InvoiceLineItem} {v v' : Billing.Store}
    (h : (InvoiceRepository.create i lineItems).Yields v q v') : q = i ∧ v'.invoices = v.invoices ++ [i] := by
  have hlines : Prog.OnlyWrites (Creates fun _ => False) (Prog.forEach
      (fun li => insertOr (.insertLineItem li) (.internal "invoice_line_items")) lineItems) :=
    .forEach _ fun li _ => onlyWrites_insertOr trivial
  unfold InvoiceRepository.create at h
  simp only [Prog.bind_eq, Prog.pure_eq, Prog.yields_bind, Prog.yields_ret] at h
  obtain ⟨_, v₁, hinsert, _, _, hl, hq, rfl⟩ := h
  obtain ⟨hhit, rfl⟩ := (Prog.yields_insertOr (e := BillingError.internal "invoices")).1 hinsert
  refine ⟨hq, ?_⟩
  rw [hl.frame hlines Store.invoices fun s w hw => invoices_apply_of_creates hw s]
  have hadmits : v.admitsInvoice i = true := (Bool.and_eq_true _ _ ▸ hhit).1
  show (if v.admitsInvoice i = true then v.invoices ++ [i] else v.invoices) = _
  rw [if_pos hadmits]

theorem require_eq {A : Type} (o : Option A) (e : BillingError) : Billing.require o e = Prog.require o e := by
  cases o <;> rfl

theorem yields_generateLatePickupInvoice {now : Int} {input : InvoiceService.GenerateLatePickupInvoiceInput}
    {v v' : Billing.Store} {inv : Invoice}
    (h : (InvoiceService.generateLatePickupInvoice now input).Yields v inv v') :
    v'.invoices = v.invoices ++ [inv] ∧ inv.childId = input.childId ∧ inv.invoiceType = .latePickupFee := by
  unfold InvoiceService.generateLatePickupInvoice TariffPlanRepository.findActiveByType at h
  simp only [Prog.bind_eq, Prog.pure_eq, require_eq, Prog.yields_bind, Prog.yields_query, Prog.yields_require,
    Prog.yields_uuid, Prog.yields_ret] at h
  obtain ⟨_, u₁, ⟨-, hu₁⟩, fee, u₂, ⟨-, hu₂⟩, account, u₃, hacc, i, u₄, ⟨-, hu₄⟩, j, u₅, ⟨-, hu₅⟩, q, u₆, hcreate, _, u₇,
    hemit, hq, hv'⟩ := h
  have hstart : u₂.invoices = v.invoices := by rw [hu₂, hu₁]
  have haccount : u₃.invoices = u₂.invoices :=
    hacc.frame (creates_ensureForChild _) Store.invoices fun s w hw => invoices_apply_of_creates hw s
  have hids : u₅.invoices = u₃.invoices := by rw [hu₅, hu₄]
  have hemitted : u₇.invoices = u₆.invoices :=
    hemit.frame (InvoiceService.creates_emitInvoiceCreated _) Store.invoices
      fun s w hw => invoices_apply_of_creates hw s
  obtain ⟨hrow, hcreated⟩ := yields_create hcreate
  subst hv' hq hrow
  exact ⟨by rw [hemitted, hcreated, hids, haccount, hstart], rfl, rfl⟩

end

theorem billingPart_lawful : billingPart.Lawful where
  apply _ _ := rfl
  hit _ _ := rfl
  absent s i h := by
    have habsent : ((s.request i).isNone && (s.person i).isNone && (s.pickupRequest i).isNone &&
        Relational.absent s.billing i && Relational.absent s.guardians i) = true := h
    simp only [Bool.and_eq_true] at habsent
    exact habsent.1.2

theorem request_setInvoiceId (s : Store) (i invoiceId j : Nat) :
    (Relational.apply s (Write.setInvoiceId i invoiceId)).request j =
      (s.request j).map fun row => if j = i ∧ true = true then row.linked invoiceId else row :=
  Table.find_updateWhere s.requests i (fun _ => true) (fun row => row.linked invoiceId) (fun _ => rfl) j

theorem id_moved (pr : ParentRequest) (next : ParentRequestStatus) (review : Option Review) :
    Row.id (pr.moved next review) = Row.id pr := by
  cases review <;> rfl

theorem request_updateStatus (s : Store) (i : Nat) (e next : ParentRequestStatus) (review : Option Review) (j : Nat) :
    (Relational.apply s (Write.updateStatus i e next review)).request j =
      (s.request j).map fun row => if j = i ∧ (row.status == e) = true then row.moved next review else row :=
  Table.find_updateWhere s.requests i (fun row => row.status == e) (fun row => row.moved next review)
    (fun row => id_moved row next review) j

section

variable {now : Int} {caller : Caller} {i : Nat} {note : Option String} {pr a : ParentRequest} {v v' : Store} {u : Unit}

theorem yields_createPairedPickupRequest {tp : Pickup.TrustedPerson}
    (h : (ParentRequestService.createPairedPickupRequest now pr tp).Yields v u v') :
    (ParentRequestService.createsPickupRequest pr = false ∧ v' = v) ∨
      ParentRequestService.createsPickupRequest pr = true ∧ ∃ id, v' = { v with
        pickupRequests := v.pickupRequests ++ [ParentRequestService.pairedPickupRequest now pr tp id] } := by
  unfold ParentRequestService.createPairedPickupRequest PickupRequestRepository.create at h
  by_cases hpaired : ParentRequestService.createsPickupRequest pr = true
  · rw [if_pos hpaired] at h
    simp only [Prog.bind_eq, Prog.pure_eq, Prog.yields_bind, Prog.yields_uuid, Prog.yields_insertOr,
      Prog.yields_ret] at h
    obtain ⟨_, _, ⟨id, _, ⟨-, rfl⟩, _, _, ⟨-, rfl⟩, -, rfl⟩, -, rfl⟩ := h
    exact .inr ⟨hpaired, id, rfl⟩
  · rw [if_neg hpaired] at h
    exact .inl ⟨Bool.eq_false_of_not_eq_true hpaired, h.2⟩

theorem yields_applyTrustedPersonAcceptSideEffects
    (h : (ParentRequestService.applyTrustedPersonAcceptSideEffects now pr).Yields v u v')
    (type : pr.requestType = .trustedPerson) :
    v'.requests = v.requests ∧ Produces pr v.side (.accept now caller i note) v'.side := by
  unfold ParentRequestService.applyTrustedPersonAcceptSideEffects TrustedPersonRepository.create at h
  simp only [Prog.bind_eq, Prog.pure_eq, Prog.yields_bind, Prog.yields_guardOr, Prog.yields_uuid, Prog.yields_insertOr,
    Prog.yields_ret] at h
  obtain ⟨_, _, ⟨-, rfl⟩, tp, _, ⟨id, _, ⟨-, rfl⟩, _, _, ⟨-, rfl⟩, rfl, rfl⟩, hpaired⟩ := h
  rcases yields_createPairedPickupRequest hpaired with ⟨hno, rfl⟩ | ⟨hyes, pickupId, rfl⟩
  · exact ⟨rfl, .person id type hno⟩
  · exact ⟨rfl, .personAndPickup id pickupId type hyes⟩

theorem yields_applyLatePickupAcceptSideEffects
    (h : (ParentRequestService.applyLatePickupAcceptSideEffects now pr).Yields v a v')
    (type : pr.requestType = .latePickup) (hrow : v.request pr.id = some pr) :
    v'.request pr.id = some a ∧ a.status = pr.status ∧ Produces a v.side (.accept now caller i note) v'.side ∧
      ∀ j, j ≠ pr.id → v'.request j = v.request j := by
  unfold ParentRequestService.applyLatePickupAcceptSideEffects ParentRequestRepository.setInvoiceId at h
  simp only [Prog.bind_eq, Prog.pure_eq, Prog.yields_bind, Prog.yields_insertOr, Prog.yields_ret] at h
  obtain ⟨inv, u₁, hinv, _, u₂, ⟨-, hu₂⟩, ha, hv'⟩ := h
  rw [hu₂] at hv'
  subst ha
  have hrest : u₁.requests = v.requests := hinv.rest Store.requests fun _ _ => rfl
  have hpeople : u₁.people = v.people := hinv.rest Store.people fun _ _ => rfl
  have hpickups : u₁.pickupRequests = v.pickupRequests := hinv.rest Store.pickupRequests fun _ _ => rfl
  obtain ⟨hinvoices, hchild, hkind⟩ := yields_generateLatePickupInvoice (hinv.of_within billingPart_lawful)
  have hrequest : ∀ j, u₁.request j = v.request j := fun j => congrArg (Table.find · j) hrest
  have hside : v'.side = { v.side with invoices := v.side.invoices ++ [inv] } := by
    rw [hv']
    show (⟨u₁.people, u₁.pickupRequests, u₁.billing.invoices⟩ : SideTables) = _
    have hinvoices : u₁.billing.invoices = v.billing.invoices ++ [inv] := hinvoices
    rw [hpeople, hpickups, hinvoices]
    rfl
  refine ⟨?_, rfl, ?_, fun j hj => ?_⟩
  · rw [hv', request_setInvoiceId, hrequest, hrow, Option.map_some, if_pos ⟨rfl, rfl⟩]
  · rw [hside]
    exact .invoice inv type rfl hchild hkind
  · rw [hv', request_setInvoiceId, hrequest]
    simp only [hj, false_and, if_false, Option.map_id']

theorem yields_applySideEffects (h : (ParentRequestService.applySideEffects now pr).Yields v a v')
    (hrow : v.request pr.id = some pr) :
    v'.request pr.id = some a ∧ a.status = pr.status ∧ Produces a v.side (.accept now caller i note) v'.side ∧
      ∀ j, j ≠ pr.id → v'.request j = v.request j := by
  unfold ParentRequestService.applySideEffects at h
  cases type : pr.requestType with
  | trustedPerson =>
    rw [type] at h
    obtain ⟨_, u₁, heffects, rfl, rfl⟩ := Prog.yields_bind.1 h
    obtain ⟨hrequests, hproduces⟩ := yields_applyTrustedPersonAcceptSideEffects heffects type
    have hrequest : ∀ j, v'.request j = v.request j := fun j => congrArg (Table.find · j) hrequests
    exact ⟨(hrequest _).trans hrow, rfl, hproduces, fun j _ => hrequest j⟩
  | latePickup =>
    rw [type] at h
    exact yields_applyLatePickupAcceptSideEffects h type hrow
  | dayOff | vacation | openRequest =>
    rw [type] at h
    obtain ⟨rfl, rfl⟩ := h
    refine ⟨hrow, rfl, .nothing fun _ => ?_, fun _ _ => rfl⟩
    rw [type]
    exact ⟨(fun h => by cases h), (fun h => by cases h)⟩

end

/-! ## The calls -/

/-- While the row is locked, no other call on the request gets further than its flip. -/
def oneRequest (i : Nat) : Discipline Store Key Write where
  rely held s s' := Key.row i ∈ held → s' = s
  refl _ _ _ := rfl
  trans h₁ h₂ hi := (h₂ hi).trans (h₁ hi)
  mono hs h hi := h (hs hi)

section

variable {op : Op} {i : Nat} {s : Store}

theorem safe_resolution {mayDo : ParentRequest → Bool} {e : ParentRequestError} {next : ParentRequestStatus}
    {review : Option Review} {rest : ParentRequest → Sql Response}
    (hrest : ∀ v v' pr a, v.request i = some pr → pr.status = .pending →
      (rest (pr.moved next review)).Yields (Relational.apply v (Write.updateStatus i .pending next review)) a v' →
      Resolves i v op v') : Prog.Safe (oneRequest i) (fun _ => True) (fun _ => True)
      (fun t s _ => Resolves i s op (t.view s) ∧ Key.row i ∈ t.held)
      (Prog.bind (ParentRequestService.requireRequest i) fun existing =>
        Prog.bind (Prog.guardOr (mayDo existing) e) fun _ =>
          Prog.bind (ParentRequestService.flip i next review) rest) .start s := by
  unfold ParentRequestService.requireRequest ParentRequestRepository.findById ParentRequestService.flip
    ParentRequestRepository.updateStatusConditional
  simp only [Prog.bind_eq, Prog.bind_assoc]
  have hX : ∀ _ : ParentRequestError, True := fun _ => trivial
  refine Prog.Safe.query fun v _ _ => Prog.Safe.require hX fun existing _ => Prog.Safe.guardOr hX fun _ => ?_
  refine Prog.Safe.returning (fun s₁ _ _ hit => ?_) fun s₁ _ _ _ => Prog.Safe.require hX fun _ h => (by cases h)
  obtain ⟨pr, hrow, hstatus⟩ : ∃ pr, s₁.request i = some pr ∧ pr.status = .pending := by
    have hany : (s₁.request i).any (fun row => row.status == .pending) = true := hit
    rw [Option.any_eq_true] at hany
    obtain ⟨pr, hrow, hstatus⟩ := hany
    exact ⟨pr, hrow, beq_iff_eq.1 hstatus⟩
  have hheld : Key.row i ∈ ((Tx.start.saw v).wrote (Write.updateStatus i .pending next review)).held :=
    List.mem_append_left _ List.mem_cons_self
  refine Prog.Safe.still_of_yields trivial (fun s' hr => hr hheld) fun a t' hkeys hy => ?_
  refine ⟨?_, hkeys hheld⟩
  simp only [Prog.yields_bind, Prog.yields_query, Prog.yields_require] at hy
  obtain ⟨_, _, ⟨rfl, rfl⟩, updated, _, ⟨hupdated, rfl⟩, hy⟩ := hy
  have hflipped : (Relational.apply s₁ (Write.updateStatus i .pending next review)).request i =
      some (pr.moved next review) := by
    rw [request_updateStatus, hrow, Option.map_some, if_pos ⟨rfl, beq_iff_eq.2 hstatus⟩]
  obtain rfl : pr.moved next review = updated := Option.some.inj (hflipped.symm.trans hupdated)
  exact hrest s₁ (t'.view s₁) pr a hrow hstatus hy

theorem resolves_of_flip {v : Store} {pr : ParentRequest} {next : ParentRequestStatus} {review : Option Review}
    (hop : op.resolves i = true) (hverdict : op.verdict = next) (hnext : next ≠ .accepted)
    (hrow : v.request i = some pr) (hstatus : pr.status = .pending) :
    Resolves i v op (Relational.apply v (Write.updateStatus i .pending next review)) where
  call := hop
  pending := (congrArg (Option.map _) hrow).trans (congrArg some hstatus)
  resolved := by
    refine ⟨pr.moved next review, ?_, ?_, .nothing fun h => absurd (hverdict.symm.trans h) hnext⟩
    · rw [request_updateStatus, hrow, Option.map_some, if_pos ⟨rfl, beq_iff_eq.2 hstatus⟩]
    · rw [hverdict]
      cases review <;> rfl
  others j hj := by
    rw [request_updateStatus]
    simp only [hj, false_and, if_false, Option.map_id']

theorem safe_resolves (hop : op.resolves i = true) : Prog.Safe (oneRequest i) (fun _ => True) (fun _ => True)
      (fun t s _ => Resolves i s op (t.view s) ∧ Key.row i ∈ t.held) op.prog .start s := by
  cases op with
  | cancel u j =>
    obtain rfl : j = i := beq_iff_eq.1 hop
    unfold Op.prog Op.answer ParentRequestService.cancelRequest
    simp only [Prog.bind_eq, Prog.bind_assoc]
    refine safe_resolution fun v v' pr a hrow hstatus hy => ?_
    obtain ⟨-, rfl⟩ := hy
    exact resolves_of_flip hop rfl (fun h => by cases h) hrow hstatus
  | reject now caller j note =>
    obtain rfl : j = i := beq_iff_eq.1 hop
    unfold Op.prog Op.answer ParentRequestService.rejectRequest
    simp only [Prog.bind_eq, Prog.bind_assoc]
    refine safe_resolution fun v v' pr a hrow hstatus hy => ?_
    obtain ⟨-, rfl⟩ := hy
    exact resolves_of_flip hop rfl (fun h => by cases h) hrow hstatus
  | accept now caller j note =>
    obtain rfl : j = i := beq_iff_eq.1 hop
    unfold Op.prog Op.answer ParentRequestService.acceptRequest
    simp only [Prog.bind_eq, Prog.bind_assoc]
    refine safe_resolution fun v v' pr a hrow hstatus hy => ?_
    obtain ⟨accepted, u, heffects, -, rfl⟩ := Prog.yields_bind.1 hy
    have hid : (pr.moved .accepted (some ⟨caller.staffMemberId, now, note⟩)).id = j := Table.id_of_find hrow
    have hflipped : ∀ k, (Relational.apply v (Write.updateStatus j .pending .accepted
        (some ⟨caller.staffMemberId, now, note⟩))).request k = (v.request k).map fun row =>
          if k = j ∧ (row.status == .pending) = true then row.moved .accepted (some ⟨caller.staffMemberId, now, note⟩)
          else row := request_updateStatus _ _ _ _ _
    obtain ⟨hafter, hverdict, hproduces, hothers⟩ := yields_applySideEffects heffects
      (by rw [hid, hflipped, hrow, Option.map_some, if_pos ⟨rfl, beq_iff_eq.2 hstatus⟩])
    rw [hid] at hafter hothers
    refine ⟨hop, (congrArg (Option.map _) hrow).trans (congrArg some hstatus), ⟨accepted, hafter, hverdict, hproduces⟩,
      fun k hk => ?_⟩
    rw [hothers k hk, hflipped]
    simp only [hk, false_and, if_false, Option.map_id']
  | _ => cases hop

end

/-! ## Runs -/

theorem verdict_ne_pending {op : Op} {i : Nat} (h : op.resolves i = true) : op.verdict ≠ .pending := by
  cases op with
  | accept now caller j note => exact fun h => by cases h
  | reject now caller j note => exact fun h => by cases h
  | cancel u j => exact fun h => by cases h
  | _ => cases h

theorem run_resolves {n : Nat} {s : Store} {cs : Schedule n} {σ : System n} {i : Nat}
    (hops : System.Starts (fun op => op.resolves i = true) cs) (hrun : run s cs = some σ) :
    (σ.log = [] ∧ σ.db = s) ∨ ∃ c, σ.log = [c] ∧ Resolves i s c.op σ.db := by
  have hchain := System.exec_chain (D := oneRequest i) (J := fun _ => True) trivial
    (fun op s hop _ => safe_resolves hop) (fun _ _ _ _ _ _ => trivial)
    (fun op t s a _ h held hd hi => absurd hi fun hi => hd h.2 hi) hops hrun
  refine hchain.invLog (fun log db => (log = [] ∧ db = s) ∨ ∃ c, log = [c] ∧ Resolves i s c.op db) (.inl ⟨rfl, rfl⟩)
    fun log db c hlog hc => ?_
  rcases hlog with ⟨rfl, rfl⟩ | ⟨d, rfl, hd⟩
  · exact .inr ⟨c, rfl, hc.2.1⟩
  · -- the request is resolved: nothing finds it pending any more
    obtain ⟨pr, hrow, hverdict, -⟩ := hd.resolved
    have hpending : some pr.status = some .pending :=
      (congrArg (Option.map ParentRequest.status) hrow).symm.trans hc.2.1.pending
    exact absurd (hverdict.symm.trans (Option.some.inj hpending)) (verdict_ne_pending hd.call)

/-- **The outcome of a parent request.** -/
theorem request_outcome {n : Nat} {s : Store} {cs : Schedule n} {σ : System n} {i : Nat}
    (hops : System.Starts (fun op => op.resolves i = true) cs) (hrun : run s cs = some σ) :
    ((σ.log = [] ∧ σ.db = s) ∨ ∃ c, σ.log = [c] ∧ Resolves i s c.op σ.db) ∧
      (σ.log = [] → (∀ k, σ.sessions k = none) → (∀ k, Choice.kill k ∉ cs) →
        ∀ k op, Choice.start k op ∈ cs → op.prog.FailsAlone s) :=
  ⟨run_resolves hops hrun, fun hlog hidle hkill _ _ hop => System.exec_init_failsAlone hrun hlog hidle hkill hop⟩

/-! ## A late pickup without a fee -/

/-- Child 5 is picked up late. -/
def latePickup : ParentRequest :=
  ⟨1, 5, 7, .latePickup, .pending, some 0, none, [("expected_time", .text "19:30"), ("comment", .null)], some .admin,
    none, none, none, none, none⟩

/-- The grandmother may collect child 5, and comes today. -/
def grandmother : ParentRequest :=
  ⟨2, 5, 7, .trustedPerson, .pending, none, none,
    [("full_name", .text "Aigul"), ("phone", .text "+77010000000"), ("create_pickup_request", .flag true)],
    some .admin, none, none, none, none, none⟩

/-- Nobody has set a fee for late pickups. -/
def pendingStore : Store :=
  ⟨[latePickup, grandmother], [], [], ⟨⟨[], [], [], [], [], []⟩, [], [], [], [], [], [], [], []⟩, ⟨[]⟩⟩

def admin : Caller := ⟨9, .admin⟩

def acceptLatePickup : Schedule 1 := Choice.request 0 (.accept 0 admin 1 none) 5 0

/-- The one call has ended, and none has succeeded. -/
theorem acceptLatePickup_fails : ∃ σ : System 1,
    System.Starts (fun op => op.resolves 1 = true) acceptLatePickup ∧ run pendingStore acceptLatePickup = some σ ∧
      pendingStore.statusOf 1 = some .pending ∧ (σ.sessions 0).isNone = true ∧ σ.log.length ≠ 1 := by
  obtain ⟨σ, hrun, h⟩ := run_shows run pendingStore acceptLatePickup (fun σ : System 1 =>
    decide (pendingStore.statusOf 1 = some .pending ∧ (σ.sessions 0).isNone = true ∧ σ.log.length ≠ 1))
    (by decide +kernel)
  exact ⟨σ, by decide, hrun, of_decide_eq_true h⟩

/-- The parent cancels while the director accepts. -/
def cancelWhileAccepted : Schedule 2 :=
  .start 1 (.cancel 7 2) :: Choice.steps 1 1 0 ++ .start 0 (.accept 0 admin 2 none) :: Choice.steps 0 5 100 ++
    Choice.steps 0 3 101 ++ Choice.steps 1 2 0

theorem request_outcome_cancelWhileAccepted : ∃ σ : System 2, run pendingStore cancelWhileAccepted = some σ ∧
    σ.log.length = 1 ∧ σ.db.people.length = 1 ∧ σ.db.pickupRequests.length = 1 ∧
    ((σ.log = [] ∧ σ.db = pendingStore) ∨ ∃ c, σ.log = [c] ∧ Resolves 2 pendingStore c.op σ.db) := by
  obtain ⟨σ, hrun, h⟩ := run_shows run pendingStore cancelWhileAccepted (fun σ : System 2 =>
    decide (σ.log.length = 1 ∧ σ.db.people.length = 1 ∧ σ.db.pickupRequests.length = 1)) (by decide +kernel)
  have h := of_decide_eq_true h
  exact ⟨σ, hrun, h.1, h.2.1, h.2.2, (request_outcome (by decide) hrun).1⟩

end ParentRequests
