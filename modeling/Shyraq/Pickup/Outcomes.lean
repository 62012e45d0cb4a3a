import Shyraq.Pickup.Services

/-!
# What the pickup requests commit

`sendOtp`, `validateOtp` and `cancel` read the pickup request under its row lock and keep it until they
commit.  The trusted person is read without a lock, and locked only by the UPDATE that stamps it.
-/

namespace Pickup

open Kernel Transactions

/-! ## The discipline -/

/-- The check-outs recorded for a pickup request. -/
def Store.pickups (s : Store) (r : Nat) : List Attendance.AttendanceEvent :=
  s.attendance.events.filter fun e => e.pickupRequestId == some r

/-- A request keeps its trusted person. -/
def PickupRequest.Kept (a b : PickupRequest) : Prop := b.trustedPersonId = a.trustedPersonId

theorem PickupRequest.Kept.refl (a : PickupRequest) : a.Kept a := rfl

/-- What is used stays used, what is revoked stays revoked. -/
structure TrustedPerson.Ages (a b : TrustedPerson) : Prop where
  used : a.usedAt.isSome = true → b.usedAt.isSome = true
  revoked : a.isRevoked = true → b.isRevoked = true

theorem TrustedPerson.Ages.refl (a : TrustedPerson) : a.Ages a := ⟨fun h => h, fun h => h⟩

theorem TrustedPerson.Ages.trans {a b c : TrustedPerson} (h₁ : a.Ages b) (h₂ : b.Ages c) : a.Ages c :=
  ⟨fun h => h₂.used (h₁.used h), fun h => h₂.revoked (h₁.revoked h)⟩

/-- A locked row stays, and so do the check-outs of a locked pickup request. -/
def requestLocks : Discipline Store Key Write where
  rely held s s' :=
    Table.Evolves PickupRequest.Kept (fun i => Key.row i ∈ held) s.requests s'.requests ∧
      Table.Evolves TrustedPerson.Ages (fun i => Key.row i ∈ held) s.people s'.people ∧
      ∀ r, Key.row r ∈ held → s'.pickups r = s.pickups r
  refl _ _ := ⟨.refl PickupRequest.Kept.refl _, .refl .refl _, fun _ _ => rfl⟩
  trans h₁ h₂ := ⟨h₁.1.trans (fun _ _ _ a b => b.trans a) h₂.1, h₁.2.1.trans (fun _ _ _ => .trans) h₂.2.1,
    fun r hr => (h₂.2.2 r hr).trans (h₁.2.2 r hr)⟩
  mono hs h := ⟨h.1.mono fun _ hi => hs hi, h.2.1.mono fun _ hi => hs hi, fun r hr => h.2.2 r (hs hr)⟩

/-- A check-out is written only under the row lock of its pickup request, and no other event is. -/
def Guards (held : List Key) : Write → Prop
  | .attendance (.insertEvent e) => ∀ r, e.pickupRequestId = some r → Key.row r ∈ held
  | .attendance (.insertEntry _) => True
  | .attendance _ => False
  | _ => True

theorem pickups_insertEvent (s : Store) (e : Attendance.AttendanceEvent) (r : Nat) :
    (Relational.apply s (Write.attendance (.insertEvent e))).pickups r =
      s.pickups r ++ if e.pickupRequestId = some r then [e] else [] := by
  show (s.attendance.events ++ [e]).filter _ = _
  rw [List.filter_append]
  congr 1
  by_cases h : e.pickupRequestId = some r <;> simp [h]

theorem respects_of_guards {held : List Key} {w : Write} (hk : Relational.keys Store w ⊆ held)
    (h : Guards held w) : requestLocks.Respects held w := by
  intro held' hd s
  have hfree : ∀ {i}, Key.row i ∈ held → Key.row i ∉ held' := fun hi hi' => hd hi hi'
  cases w with
  | updateRequest i patch e =>
    refine ⟨?_, .refl .refl _, fun _ _ => rfl⟩
    exact .updateWhere (fun _ => rfl) PickupRequest.Kept.refl fun _ _ _ => ⟨rfl, hfree (hk List.mem_cons_self)⟩
  | updatePerson i patch =>
    refine ⟨.refl PickupRequest.Kept.refl _, ?_, fun _ _ => rfl⟩
    exact .updateWhere (fun _ => rfl) .refl fun _ _ _ => ⟨⟨id, id⟩, hfree (hk List.mem_cons_self)⟩
  | markRevoked i now =>
    refine ⟨.refl PickupRequest.Kept.refl _, ?_, fun _ _ => rfl⟩
    exact .updateWhere (fun _ => rfl) .refl fun _ _ _ => ⟨⟨id, fun _ => rfl⟩, hfree (hk List.mem_cons_self)⟩
  | markUsed i now d =>
    refine ⟨.refl PickupRequest.Kept.refl _, ?_, fun _ _ => rfl⟩
    exact .updateWhere (fun _ => rfl) .refl fun _ _ _ => ⟨⟨fun _ => rfl, id⟩, hfree (hk List.mem_cons_self)⟩
  | attendance w =>
    refine ⟨.refl PickupRequest.Kept.refl _, .refl .refl _, fun r hr => ?_⟩
    cases w with
    | insertEvent e =>
      rw [pickups_insertEvent, if_neg, List.append_nil]
      exact fun he => hfree (h r he) hr
    | insertEntry x => rfl
    | updateEvent e => exact h.elim
    | updateEntry x => exact h.elim
    | deleteEntry i => exact h.elim
    | upsertStatus d => exact h.elim
    | updatePresentIfAbsentOrLate c d b => exact h.elim

/-! ## Outcomes -/

section

variable (J : Store → Prop)

/-- What becomes of the trusted person: found in an earlier state, and stamped if it still could be. -/
inductive Claimed (now : Int) (t : Tx Store Key Write) (s : Store) : Option Nat → List Write → Prop
  | nobody : Claimed now t s none []
  | stamped (p : Nat) (v : Store) (tp q : TrustedPerson) (seen : t.seen[1]? = some v) (found : v.person p = some tp)
      (held : Key.row p ∈ t.held) (row : s.person p = some q) (claimable : q.claimable tp.isOneTime = true) :
      Claimed now t s (some p) [.markUsed p now tp.isOneTime]
  | missed (p : Nat) (v : Store) (tp : TrustedPerson) (seen : t.seen[1]? = some v) (found : v.person p = some tp)
      (standing : tp.isOneTime = false)
      (gone : ∃ s₁ q₁, J s₁ ∧ s₁.person p = some q₁ ∧ q₁.claimable false = false ∧ requestLocks.rely [] s₁ s) :
      Claimed now t s (some p) []

inductive Outcome (t : Tx Store Key Write) (s : Store) : Op → Response → Prop
  | sent {now r draw rateExceeded smsSent} (res : SendOtpResult) (pr : PickupRequest) (key : String)
      (held : Key.row r ∈ t.held) (row : s.request r = some pr) (status : pr.status = .otpSent)
      (writes : t.writes = [.updateRequest r { emptyPatch with otpRef := some key } none]) :
      Outcome t s (.sendOtp now r draw rateExceeded smsSent) (.sent res)
  | validated {now r code caller childExists} (res : ValidateOtpResult) (pr : PickupRequest)
      (e : Attendance.AttendanceEvent) (x : Attendance.TimelineEntry) (patch : PickupRequestPatch)
      (claim : List Write) (held : Key.row r ∈ t.held) (row : s.request r = some pr) (status : pr.status = .otpSent)
      (checkOut : e.pickupRequestId = some r) (moved : patch.status = some .validated)
      (claimed : Claimed J now t s pr.trustedPersonId claim)
      (writes : t.writes = .attendance (.insertEvent e) :: .attendance (.insertEntry x) ::
        .updateRequest r patch none :: claim) :
      Outcome t s (.validateOtp now r code caller childExists) (.validated res)
  | cancelled {r} (res pr : PickupRequest) (held : Key.row r ∈ t.held) (row : s.request r = some pr)
      (status : pr.status = .otpSent)
      (writes : t.writes = [.updateRequest r { emptyPatch with status := some .cancelled } (some .otpSent)]) :
      Outcome t s (.cancel r) (.cancelled res)
  | updated {p patch link} (res : TrustedPerson)
      (writes : t.writes = if patch = .none then [] else [.updatePerson p patch]) :
      Outcome t s (.updatePerson p patch link) (.person res)
  | revoked {now p link} (res : TrustedPerson) (writes : t.writes = [] ∨ t.writes = [.markRevoked p now]) :
      Outcome t s (.revokePerson now p link) (.person res)

variable {J} {t : Tx Store Key Write} {s : Store}

theorem Claimed.guards {now : Int} {p : Option Nat} {claim : List Write} (h : Claimed J now t s p claim) :
    ∀ w ∈ claim, Guards t.held w := by
  intro w hw
  cases h with
  | nobody => cases hw
  | stamped p v tp q _ _ _ _ _ =>
    obtain rfl := List.mem_singleton.1 hw
    trivial
  | missed p v tp _ _ _ _ => cases hw

theorem claim_frame {now : Int} {p : Option Nat} {claim : List Write} (h : Claimed J now t s p claim) (v : Store) :
    (claim.foldl Relational.apply v).requests = v.requests ∧
      (claim.foldl Relational.apply v).attendance = v.attendance := by
  cases h with
  | nobody => exact ⟨rfl, rfl⟩
  | stamped p v' tp q _ _ _ _ _ => exact ⟨rfl, rfl⟩
  | missed p v' tp _ _ _ _ => exact ⟨rfl, rfl⟩

theorem Outcome.guards {op : Op} {a : Response} (h : Outcome J t s op a) : ∀ w ∈ t.writes, Guards t.held w := by
  intro w hw
  cases h with
  | sent _ _ _ _ _ _ writes =>
    rw [writes] at hw
    obtain rfl := List.mem_singleton.1 hw
    trivial
  | validated _ _ e x patch claim held _ _ checkOut _ claimed writes =>
    rw [writes] at hw
    rcases List.mem_cons.1 hw with rfl | hw
    · intro r' hr
      obtain rfl := Option.some.inj (checkOut.symm.trans hr)
      exact held
    rcases List.mem_cons.1 hw with rfl | hw
    · trivial
    rcases List.mem_cons.1 hw with rfl | hw
    · trivial
    · exact claimed.guards w hw
  | cancelled _ _ _ _ _ writes =>
    rw [writes] at hw
    obtain rfl := List.mem_singleton.1 hw
    trivial
  | updated _ writes =>
    rw [writes] at hw
    split at hw
    · cases hw
    · obtain rfl := List.mem_singleton.1 hw
      trivial
  | revoked _ writes =>
    rcases writes with writes | writes
    · rw [writes] at hw
      cases hw
    · rw [writes] at hw
      obtain rfl := List.mem_singleton.1 hw
      trivial

theorem Outcome.guarantee {op : Op} {a : Response} (h : Outcome J t s op a)
    (hk : ∀ w ∈ t.writes, Relational.keys Store w ⊆ t.held) : requestLocks.Guarantee t s :=
  Discipline.guarantee_of_respects (fun w hw => respects_of_guards (hk w hw) (h.guards w hw)) s

end

/-! ## The requests one by one -/

/-- The pickup request has been read under its lock, and nothing else. -/
structure Begun (r : Nat) (t : Tx Store Key Write) : Prop where
  unwritten : t.writes = []
  held : Key.row r ∈ t.held
  seen : t.seen.length = 1

section

variable {J : Store → Prop} {X : PickupError → Prop} {A B : Type} {Q : Tx Store Key Write → Store → B → Prop}
  {t : Tx Store Key Write} {s : Store} {r : Nat}

theorem safe_lockPickupRequest {f : PickupRequest → Sql B} (hX : ∀ e, X e)
    (h : ∀ pr t' s', Begun r t' → J s' → s'.request r = some pr →
      Prog.Safe requestLocks (fun s => J s ∧ s.request r = some pr) X Q (f pr) t' s') :
    Prog.Safe requestLocks J X Q (Prog.bind (PickupRequestService.lockPickupRequest r) f) .start s := by
  unfold PickupRequestService.lockPickupRequest PickupRequestRepository.acquireValidateAdvisoryLock
    PickupRequestRepository.findByIdForUpdate PickupRequestRepository.findById
  simp only [Prog.bind_eq, Prog.bind_assoc]
  refine Prog.Safe.acquire fun _ _ _ => Prog.Safe.acquire fun _ _ _ => Prog.Safe.query fun s' _ hj => ?_
  refine Prog.Safe.require hX fun pr (hpr : s'.request r = some pr) => ?_
  refine Prog.Safe.keepAt (k := .row r) (φ := fun s => s.request r) List.mem_cons_self
    (fun _ _ _ hk hr => hr.1.find_eq hk) hj hpr ?_
  exact h pr _ s' ⟨rfl, List.mem_cons_self, rfl⟩ hj hpr

theorem safe_isLocked {f : Bool → Request B} (h : ∀ b, Script.Safe requestLocks J X Q (f b) t s) :
    Script.Safe requestLocks J X Q (Script.bind (OtpStore.isLocked r) f) t s := by
  unfold OtpStore.isLocked
  simp only [Script.bind_eq, Script.bind_assoc]
  exact Script.Safe.send fun _ => h _

theorem safe_clearCode {f : Unit → Request B} (h : Script.Safe requestLocks J X Q (f ()) t s) :
    Script.Safe requestLocks J X Q (Script.bind (OtpStore.clearCode r) f) t s := by
  unfold OtpStore.clearCode
  simp only [Script.bind_eq, Script.bind_assoc]
  exact Script.Safe.send fun _ => h

theorem safe_storeCode {code : String} {ttl : Nat} {f : String → Request B}
    (h : ∀ key, Script.Safe requestLocks J X Q (f key) t s) :
    Script.Safe requestLocks J X Q (Script.bind (OtpStore.storeCode r code ttl) f) t s := by
  unfold OtpStore.storeCode
  simp only [Script.bind_eq, Script.bind_assoc]
  exact Script.Safe.send fun _ => Script.Safe.send fun _ => h _

theorem safe_readCode {f : Option StoredPickupOtp → Request B}
    (h : ∀ stored, Script.Safe requestLocks J X Q (f stored) t s) :
    Script.Safe requestLocks J X Q (Script.bind (OtpStore.readCode r) f) t s := by
  unfold OtpStore.readCode
  simp only [Script.bind_eq, Script.bind_assoc]
  refine Script.Safe.send fun reply => ?_
  cases reply.code with
  | none => exact h none
  | some code => exact Script.Safe.send fun _ => h _

theorem safe_compareCode {stored : StoredPickupOtp} {code : String} {f : Unit → Request B} (hX : ∀ e, X e)
    (h : Script.Safe requestLocks J X Q (f ()) t s) :
    Script.Safe requestLocks J X Q (Script.bind (PickupRequestService.compareCode r stored code) f) t s := by
  unfold PickupRequestService.compareCode OtpStore.incrementAttempts PickupRequestService.punish
  split
  · simp only [Script.bind_eq, Script.bind_assoc]
    refine Script.Safe.send fun reply => ?_
    rw [show (pure reply.count : Request Nat) = .ret reply.count from rfl]
    simp only [Script.bind]
    split
    · unfold OtpStore.lockRequest
      simp only [Script.bind_eq, Script.bind_assoc]
      exact Script.Safe.send fun _ => safe_clearCode fun _ => hX _
    · exact fun _ => hX _
  · exact h

/-! ### The three requests -/

variable {op : Op} {a : Response}

theorem safe_sendOtp (hX : ∀ e, X e) (now : Int) (r draw : Nat) (rateExceeded smsSent : Bool) :
    Script.Safe requestLocks J X (fun t s a => Outcome J t s (.sendOtp now r draw rateExceeded smsSent) a)
      (Op.sendOtp now r draw rateExceeded smsSent).prog .start s := by
  unfold Op.prog PickupRequestService.sendOtp
  simp only [Script.bind_eq, Script.lift_eq, Script.bind_assoc]
  refine Script.Safe.lift fun o => safe_lockPickupRequest hX fun pr t₁ s₁ ht₁ _ _ => ?_
  refine (?_ : Script.Safe requestLocks _ X _ _ t₁ s₁) o
  refine Script.Safe.guardOr hX fun hstatus => Script.Safe.guardOr hX fun _ => safe_isLocked fun _ => ?_
  refine Script.Safe.guardOr hX fun _ => Script.Safe.guardOr hX fun _ => safe_storeCode fun key => ?_
  refine Script.Safe.update (fun s₂ _ hj₂ _ => ?_) fun s₂ _ hj₂ hmiss => ?_
  · refine Script.Safe.guardOr hX fun _ => Script.Safe.ret fun s₃ _ hj₃ => ?_
    refine .sent _ pr key (List.mem_append_right _ ht₁.held) hj₃.2 (beq_iff_eq.1 hstatus) ?_
    rw [Tx.writes_wrote, ht₁.unwritten]
    rfl
  · rw [Tx.view_of_unwritten ht₁.unwritten] at hmiss
    have hhit : (s₂.request r).any (Store.expected none) = false := hmiss
    rw [hj₂.2] at hhit
    cases hhit

variable {now : Int}

theorem safe_checkOut {childId : Nat} {caller : Attendance.Caller} {childExists : Bool}
    {f : Attendance.AttendanceFlowResult → Sql B} (hX : ∀ e, X e) (r : Nat)
    (h : ∀ e x res t' s', e.pickupRequestId = some r → t.held ⊆ t'.held → t'.seen = t.seen →
      t'.writes = t.writes ++ [.attendance (.insertEvent e), .attendance (.insertEntry x)] →
      Prog.Safe requestLocks J X Q (f res) t' s') :
    Prog.Safe requestLocks J X Q (Prog.bind (Prog.within attendancePart (Attendance.AttendanceService.checkOut now
      childId caller childExists none (some r) false (some .otpPickup) (some now) none)) f) t s := by
  unfold Attendance.AttendanceService.checkOut Attendance.assertNotFuture
    Attendance.AttendanceService.resolveCallerStaffMemberId Attendance.AttendanceService.assertCheckOutPickup
    Attendance.AttendanceEventRepository.create Attendance.TimelineEntryRepository.create
  simp only [Prog.bind_eq, Prog.pure_eq, Prog.within_bind, Prog.within_guardOr, Prog.within_require,
    Prog.within_uuid, Prog.within_insertOr, Prog.bind_assoc]
  refine Prog.Safe.guardOr hX fun _ => Prog.Safe.require hX fun staff _ => Prog.Safe.guardOr hX fun _ => ?_
  refine Prog.Safe.uuid fun s₁ i _ _ _ _ => Prog.Safe.insertOr hX fun s₂ _ _ _ => ?_
  refine Prog.Safe.uuid fun s₃ j _ _ _ _ => Prog.Safe.insertOr hX fun s₄ _ _ _ => ?_
  obtain ⟨e, he⟩ : ∃ e, e = Attendance.AttendanceEvent.createCheckOut i childId .otpPickup staff none (some r) none
    now := ⟨_, rfl⟩
  refine h e (Attendance.mirrorEntry j e (some staff)) _ _ s₄ (he ▸ rfl) ?_ rfl ?_
  · exact fun k hk => List.mem_append_right _ (List.mem_cons_of_mem _ (List.mem_append_right _
      (List.mem_cons_of_mem _ hk)))
  · simp only [Tx.writes_wrote, Tx.writes_locked, List.append_assoc, List.singleton_append, he]
    rfl

/-- The person as found before the code was looked at. -/
structure Found (p : Option Nat) (t : Tx Store Key Write) (o : Option TrustedPerson) : Prop where
  nobody : p = none → o = none
  found : ∀ i, p = some i → ∃ v tp, o = some tp ∧ tp.id = i ∧ t.seen[1]? = some v ∧ v.person i = some tp

theorem safe_findTrustedPerson {f : Option TrustedPerson → Sql B} (hX : ∀ e, X e) (p : Option Nat)
    (ht : t.writes = []) (hseen : t.seen.length = 1) (hnone : p = none → Prog.Safe requestLocks J X Q (f none) t s)
    (hsome : ∀ i tp s', p = some i → J s' → Found p (t.saw s') (some tp) → (∃ q, s'.person i = some q) →
      Prog.Safe requestLocks (fun s => J s ∧ ∃ q, s.person i = some q) X Q (f (some tp)) (t.saw s') s') :
    Prog.Safe requestLocks J X Q (Prog.bind (PickupRequestService.findTrustedPerson p) f) t s := by
  cases p with
  | none => exact hnone rfl
  | some i =>
    unfold PickupRequestService.findTrustedPerson TrustedPersonRepository.findById
    simp only [Prog.bind_eq, Prog.bind_assoc]
    refine Prog.Safe.query fun s' _ hj' => Prog.Safe.require hX fun tp htp => Prog.Safe.guardOr hX fun _ => ?_
    have hrow : s'.person i = some tp := by
      rw [Tx.view_of_unwritten ht] at htp
      exact htp
    refine Prog.Safe.keep (fun s => ∃ q, s.person i = some q) [] (List.nil_subset _) ?_ hj' ⟨tp, hrow⟩ ?_
    · rintro s₁ s₂ hr _ _ ⟨q, hq⟩
      obtain ⟨q', hq', _⟩ := hr.2.1.row i q hq
      exact ⟨q', hq'⟩
    · refine hsome i tp s' rfl hj' ⟨fun hp => (by cases hp), fun j hj => ?_⟩ ⟨tp, hrow⟩
      obtain rfl := Option.some.inj hj
      refine ⟨t.view s', tp, rfl, Table.id_of_find hrow, ?_, htp⟩
      rw [Tx.seen_saw, List.getElem?_append_right (le_of_eq hseen), hseen]
      rfl

theorem validate_eq_ok {pr n : PickupRequest} {staff event : Nat}
    (h : pr.validate staff event now = .ok n) : n.status = .validated := by
  unfold PickupRequest.validate at h
  split at h
  · cases h
  · split at h
    · cases h
    · split at h
      · cases h
      · cases h
        rfl

theorem cancel_eq_ok {pr n : PickupRequest} (h : pr.cancel = .ok n) : pr.status = .otpSent ∧ n.status = .cancelled := by
  unfold PickupRequest.cancel at h
  split at h
  · cases h
  · next hstatus =>
    cases h
    exact ⟨not_not.1 hstatus, rfl⟩

theorem Claimed.rely {p : Option Nat} {claim : List Write} {s' : Store} (h : Claimed J now t s p claim)
    (hr : requestLocks.rely t.held s s') : Claimed J now t s' p claim := by
  cases h with
  | nobody => exact .nobody
  | stamped i v tp q seen found held row claimable =>
    exact .stamped i v tp q seen found held ((hr.2.1.find_eq held).trans row) claimable
  | missed i v tp seen found standing gone =>
    obtain ⟨s₁, q₁, hj, hq, hclaim, hr₁⟩ := gone
    refine .missed i v tp seen found standing ⟨s₁, q₁, hj, hq, hclaim, requestLocks.trans hr₁ ?_⟩
    exact requestLocks.mono (List.nil_subset _) hr

theorem safe_claimTrustedPerson {p : Option Nat} {o : Option TrustedPerson} {J₀ : Store → Prop}
    {f : Unit → Sql B} (hX : ∀ e, X e) (hfound : Found p t o) (hview : ∀ s, (t.view s).people = s.people)
    (hJ : ∀ s, J s → J₀ s ∧ ∀ i, p = some i → ∃ q, s.person i = some q) (hj : J s)
    (h : ∀ claim t' s', t'.writes = t.writes ++ claim → t.held ⊆ t'.held → t'.seen = t.seen →
      Prog.Safe requestLocks (fun s => J s ∧ Claimed J₀ now t' s p claim) X Q (f ()) t' s') :
    Prog.Safe requestLocks J X Q (Prog.bind (PickupRequestService.claimTrustedPerson now o) f) t s := by
  -- the claim is known from here on, whatever it was
  have kept : ∀ {claim t' s'}, J s' → Claimed J₀ now t' s' p claim → t'.writes = t.writes ++ claim →
      t.held ⊆ t'.held → t'.seen = t.seen → Prog.Safe requestLocks J X Q (f ()) t' s' :=
    fun {claim t' s'} hj' hc hw hh hs => Prog.Safe.keep (fun s => Claimed J₀ now t' s p claim) t'.held
      (List.Subset.refl _) (fun _ _ hr _ _ h => h.rely hr) hj' hc (h claim t' s' hw hh hs)
  cases p with
  | none =>
    obtain rfl := hfound.nobody rfl
    exact kept hj .nobody (List.append_nil _).symm (List.Subset.refl _) rfl
  | some i =>
    obtain ⟨v, tp, rfl, rfl, hseen, hv⟩ := hfound.found i rfl
    unfold PickupRequestService.claimTrustedPerson TrustedPersonRepository.markUsed
    simp only [Prog.bind_eq, Prog.bind_assoc]
    refine Prog.Safe.update (fun s₁ _ hj₁ hh => ?_) fun s₁ _ hj₁ hmiss => ?_
    · obtain ⟨q, hq⟩ := (hJ s₁ hj₁).2 tp.id rfl
      have hclaim : q.claimable tp.isOneTime = true := by
        have hh' : ((t.view s₁).person tp.id).any (TrustedPerson.claimable tp.isOneTime) = true := hh
        rw [Store.person, hview, show Table.find s₁.people tp.id = some q from hq] at hh'
        exact hh'
      refine Prog.Safe.guardOr hX fun _ => kept hj₁ (.stamped tp.id v tp q hseen hv ?_ hq hclaim) ?_ ?_ rfl
      · exact List.mem_append_left _ List.mem_cons_self
      · rw [Tx.writes_wrote]
      · exact fun k hk => List.mem_append_right _ hk
    · obtain ⟨q, hq⟩ := (hJ s₁ hj₁).2 tp.id rfl
      have hclaim : q.claimable tp.isOneTime = false := by
        have hh' : ((t.view s₁).person tp.id).any (TrustedPerson.claimable tp.isOneTime) = false := hmiss
        rw [Store.person, hview, show Table.find s₁.people tp.id = some q from hq] at hh'
        exact hh'
      refine Prog.Safe.guardOr hX fun hstanding => ?_
      have hstanding : tp.isOneTime = false := by simpa using hstanding
      rw [hstanding] at hclaim
      refine kept hj₁ (.missed tp.id v tp hseen hv hstanding ?_) (List.append_nil _).symm (List.Subset.refl _) rfl
      exact ⟨s₁, q, (hJ s₁ hj₁).1, hq, hclaim, requestLocks.refl _ _⟩

theorem safe_recordPickup {J₁ : Store → Prop} {code : String} {caller : Attendance.Caller}
    {childExists : Bool} {pr : PickupRequest} {tp : Option TrustedPerson} {staff : Nat} (hX : ∀ e, X e)
    (hw : t.writes = []) (hheld : Key.row r ∈ t.held) (hfound : Found pr.trustedPersonId t tp)
    (hstatus : pr.status = .otpSent)
    (hJ : ∀ s, J₁ s → (J s ∧ s.request r = some pr) ∧ ∀ i, pr.trustedPersonId = some i → ∃ q, s.person i = some q) :
    Script.Safe requestLocks J₁ X (fun t s a => Outcome J t s (.validateOtp now r code caller childExists) a)
      (Script.bind (Script.lift (PickupRequestService.recordPickup now r pr tp staff caller childExists))
        fun result => Script.bind (OtpStore.clearCode r) fun _ => .ret (.validated result)) t s := by
  refine Script.Safe.lift fun o => ?_
  unfold PickupRequestService.recordPickup PickupRequestRepository.update
  simp only [Prog.bind_eq, Prog.bind_assoc]
  refine safe_checkOut hX r fun e x checkout t₁ s₁ hcheckOut hh₁ hs₁ hw₁ => ?_
  refine Prog.Safe.ofExcept hX fun validated hvalidated => ?_
  rw [hw, List.nil_append] at hw₁
  have hview : ∀ s, (t₁.view s).requests = s.requests ∧ (t₁.view s).people = s.people := by
    intro s
    unfold Tx.view
    rw [hw₁]
    exact ⟨rfl, rfl⟩
  refine Prog.Safe.update (fun s₂ _ hj₂ _ => ?_) fun s₂ _ hj₂ hmiss => ?_
  · have hfound₂ : Found pr.trustedPersonId (t₁.wrote (.updateRequest r ⟨some validated.status, none,
        validated.validatedBy, validated.validatedAt, validated.attendanceEventId⟩ none)) tp := by
      refine ⟨hfound.nobody, fun i hi => ?_⟩
      rw [Tx.seen_wrote, hs₁]
      exact hfound.found i hi
    refine safe_claimTrustedPerson hX hfound₂ (fun s => ?_) (fun s h => ⟨(hJ s h).1.1, (hJ s h).2⟩) hj₂ ?_
    · rw [Tx.view_wrote]
      exact (hview s).2
    · intro claim t₃ s₃ hw₃ hh₃ _ s₄ hr₄ hj₄
      refine .validated _ pr e x ⟨some validated.status, none, validated.validatedBy, validated.validatedAt,
        validated.attendanceEventId⟩ claim ?_ (hJ s₄ hj₄.1).1.2 hstatus hcheckOut ?_ hj₄.2 ?_
      · exact hh₃ (List.mem_append_right _ (hh₁ hheld))
      · exact congrArg some (validate_eq_ok hvalidated)
      · rw [hw₃, Tx.writes_wrote, hw₁]
        rfl
  · have hhit : ((t₁.view s₂).request r).any (Store.expected none) = false := hmiss
    rw [Store.request, (hview s₂).1, show Table.find s₂.requests r = some pr from (hJ s₂ hj₂).1.2] at hhit
    cases hhit

theorem safe_acceptCode {J₁ : Store → Prop} {code : String} {caller : Attendance.Caller}
    {childExists : Bool} {pr : PickupRequest} {tp : Option TrustedPerson} {staff : Nat} (hX : ∀ e, X e)
    (hw : t.writes = []) (hheld : Key.row r ∈ t.held) (hfound : Found pr.trustedPersonId t tp)
    (hstatus : pr.status = .otpSent)
    (hJ : ∀ s, J₁ s → (J s ∧ s.request r = some pr) ∧ ∀ i, pr.trustedPersonId = some i → ∃ q, s.person i = some q) :
    Script.Safe requestLocks J₁ X (fun t s a => Outcome J t s (.validateOtp now r code caller childExists) a)
      (Script.bind (OtpStore.isLocked r) fun locked => Script.bind (Script.lift (guardOr (!locked) .otpLocked))
        fun _ => Script.bind (OtpStore.readCode r) fun found =>
          Script.bind (Script.lift (require found .pickupOtpExpired)) fun stored =>
            Script.bind (PickupRequestService.compareCode r stored code) fun _ =>
              Script.bind (Script.lift (PickupRequestService.recordPickup now r pr tp staff caller childExists))
                fun result => Script.bind (OtpStore.clearCode r) fun _ => .ret (.validated result)) t s := by
  refine safe_isLocked fun _ => Script.Safe.guardOr hX fun _ => safe_readCode fun _ => ?_
  refine Script.Safe.require hX fun stored _ => safe_compareCode hX ?_
  exact safe_recordPickup hX hw hheld hfound hstatus hJ

theorem safe_validateOtp (hX : ∀ e, X e) (now : Int) (r : Nat) (code : String) (caller : Attendance.Caller)
    (childExists : Bool) :
    Script.Safe requestLocks J X (fun t s a => Outcome J t s (.validateOtp now r code caller childExists) a)
      (Op.validateOtp now r code caller childExists).prog .start s := by
  unfold Op.prog PickupRequestService.validateOtp PickupRequestService.preCheck
  simp only [Script.bind_eq, Script.lift_eq, Script.bind_assoc]
  refine Script.Safe.require hX fun staff _ => Script.Safe.lift fun o => ?_
  simp only [Prog.bind_eq, Prog.bind_assoc]
  refine safe_lockPickupRequest hX fun pr t₁ s₁ ht₁ hj₁ hpr => ?_
  refine Prog.Safe.guardOr hX fun _ => Prog.Safe.guardOr hX fun hstatus => Prog.Safe.guardOr hX fun _ => ?_
  have hstatus : pr.status = .otpSent := beq_iff_eq.1 hstatus
  refine safe_findTrustedPerson hX pr.trustedPersonId ht₁.unwritten ht₁.seen (fun hnone => ?_)
    fun i tp s₂ hi hj₂ hfound hrow => ?_
  · have nobody : ∀ i, pr.trustedPersonId ≠ some i := by
      intro i hi
      rw [hnone] at hi
      cases hi
    refine safe_acceptCode hX ht₁.unwritten ht₁.held ⟨fun _ => rfl, fun i hi => absurd hi (nobody i)⟩ hstatus
      (fun s h => ⟨h, fun i hi => absurd hi (nobody i)⟩) o
  · refine safe_acceptCode (t := t₁.saw s₂) hX ht₁.unwritten ht₁.held hfound hstatus (fun s h => ⟨h.1, fun j hj => ?_⟩) o
    obtain rfl := Option.some.inj (hi.symm.trans hj)
    exact h.2

theorem safe_cancel (hX : ∀ e, X e) (r : Nat) :
    Script.Safe requestLocks J X (fun t s a => Outcome J t s (.cancel r) a) (Op.cancel r).prog .start s := by
  unfold Op.prog PickupRequestService.cancel
  simp only [Script.bind_eq, Script.lift_eq, Script.bind_assoc]
  refine Script.Safe.lift fun o => safe_lockPickupRequest hX fun pr t₁ s₁ ht₁ _ _ => ?_
  refine (?_ : Script.Safe requestLocks _ X _ _ t₁ s₁) o
  refine Script.Safe.ofExcept hX fun n hn => ?_
  obtain ⟨hstatus, hcancelled⟩ := cancel_eq_ok hn
  refine Script.Safe.update (fun s₂ _ hj₂ _ => ?_) fun s₂ _ hj₂ hmiss => ?_
  · refine safe_clearCode (Script.Safe.ret fun s₃ _ hj₃ => ?_)
    refine .cancelled n pr (List.mem_append_right _ ht₁.held) hj₃.2 hstatus ?_
    rw [Tx.writes_wrote, ht₁.unwritten, hcancelled]
    rfl
  · exact Script.Safe.lift fun o => Prog.Safe.query fun s₃ _ _ => hX _

/-! ### The trusted people -/

theorem safe_assertCanManage {link : Option Guardians.ChildGuardian} {f : Unit → Sql B} (hX : ∀ e, X e)
    (h : Prog.Safe requestLocks J X Q (f ()) t s) : Prog.Safe requestLocks J X Q
      (Prog.bind (TrustedPersonService.assertCanManageTrustedPeople link) f) t s := by
  unfold TrustedPersonService.assertCanManageTrustedPeople TrustedPersonService.assertParentGuardianLink
  simp only [Prog.bind_eq, Prog.bind_assoc]
  exact Prog.Safe.require hX fun _ _ => Prog.Safe.guardOr hX fun _ => Prog.Safe.guardOr hX fun _ => h

theorem safe_updatePerson (hX : ∀ e, X e) (p : Nat) (patch : TrustedPersonPatch)
    (link : Option Guardians.ChildGuardian) :
    Script.Safe requestLocks J X (fun t s a => Outcome J t s (.updatePerson p patch link) a)
      (Op.updatePerson p patch link).prog .start s := by
  unfold Op.prog TrustedPersonService.update TrustedPersonRepository.findById TrustedPersonRepository.update
  simp only [Prog.bind_eq, Prog.bind_assoc]
  refine Script.Safe.of_prog (Prog.Safe.query fun s₁ _ hj₁ => Prog.Safe.require hX fun tp htp => ?_)
  refine safe_assertCanManage hX (Prog.Safe.guardOr hX fun _ => ?_)
  split
  · next hnone =>
    refine Prog.Safe.query fun s₂ _ _ => Prog.Safe.require hX fun n _ => fun s₃ _ _ => .updated n ?_
    rw [if_pos hnone]
    rfl
  · next hsome =>
    -- the row is still there
    refine Prog.Safe.keep (fun s => ∃ q, s.person p = some q) [] (List.nil_subset _) ?_ hj₁ ⟨tp, htp⟩ ?_
    · rintro s s' hr _ _ ⟨q, hq⟩
      obtain ⟨q', hq', _⟩ := hr.2.1.row p q hq
      exact ⟨q', hq'⟩
    simp only [Prog.bind_assoc]
    refine Prog.Safe.update (fun s₂ _ _ _ => ?_) fun s₂ _ hj₂ hmiss => ?_
    · refine Prog.Safe.query fun s₃ _ _ => Prog.Safe.require hX fun n _ => fun s₄ _ _ => .updated n ?_
      rw [if_neg hsome]
      rfl
    · obtain ⟨q, hq⟩ := hj₂.2
      have hhit : (s₂.person p).isSome = false := hmiss
      rw [hq] at hhit
      cases hhit

theorem safe_revokePerson (hX : ∀ e, X e) (now : Int) (p : Nat) (link : Option Guardians.ChildGuardian) :
    Script.Safe requestLocks J X (fun t s a => Outcome J t s (.revokePerson now p link) a)
      (Op.revokePerson now p link).prog .start s := by
  unfold Op.prog TrustedPersonService.revoke TrustedPersonRepository.findById TrustedPersonRepository.markRevoked
  simp only [Prog.bind_eq, Prog.bind_assoc]
  refine Script.Safe.of_prog (Prog.Safe.query fun s₁ _ _ => Prog.Safe.require hX fun tp htp => ?_)
  refine safe_assertCanManage hX (Prog.Safe.ofExcept hX fun n _ => ?_)
  obtain rfl := Table.id_of_find (show Table.find s₁.people p = some tp from htp)
  exact Prog.Safe.update (fun s₂ _ _ _ => fun s₃ _ _ => .revoked n (.inr rfl))
    fun s₂ _ _ _ => fun s₃ _ _ => .revoked n (.inl rfl)

theorem safe_outcome (hX : ∀ e, X e) (op : Op) :
    Script.Safe requestLocks J X (fun t s a => Outcome J t s op a) op.prog .start s := by
  cases op with
  | sendOtp now r draw rateExceeded smsSent => exact safe_sendOtp hX now r draw rateExceeded smsSent
  | validateOtp now r code caller childExists => exact safe_validateOtp hX now r code caller childExists
  | cancel r => exact safe_cancel hX r
  | updatePerson p patch link => exact safe_updatePerson hX p patch link
  | revokePerson now p link => exact safe_revokePerson hX now p link

end

/-- **Every run commits outcomes**, whatever the requests and however they interleave. -/
theorem run_chain {n : Nat} {J : Store → Prop} {s : Store} {now : Nat} {cs : Schedule n} {σ : System n} (hj : J s)
    (hJ : ∀ op t s a, J s → Outcome J t s op a → J (t.view s)) (hrun : run s now cs = some σ) :
    Chain (fun s c => J s ∧ Outcome J c.tx s c.op c.result) s σ.log σ.db := by
  have hsafe : ∀ op s, True → J s → Script.Safe requestLocks J (fun _ => True) (fun t s a =>
      Outcome J t s op a ∧ ∀ w ∈ t.writes, Relational.keys Store w ⊆ t.held) op.prog .start s :=
    fun op s _ _ => (safe_outcome (fun _ => trivial) op).withKeys fun _ => trivial
  have hchain := Scripts.exec_chain hj hsafe (fun op t s a hj h => hJ op t s a hj h.1)
    (fun op t s a _ h => h.1.guarantee h.2) (fun _ _ _ => trivial) hrun ⟨.ok⟩
  exact hchain.mono fun s c h => ⟨h.1, h.2.1⟩

end Pickup
